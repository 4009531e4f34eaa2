import PortageEngine.Documents.Request
import PortageEngine.Library.Fallible
import PortageEngine.Library.Text

/-!
# Capability labels

An executor advertises labels, and a phase of a job asks for labels: those of
`PhaseCapabilityRequirements` for the resolved context of its request.  An executor may take the phase
if it advertises every one of them.  One label, the capacity pool, is made of a hash of all dimensions
of the environment; the egress policy has a label of its own.

`hash` is the part of SHA-256 that `CapacityPoolID` keeps, in hexadecimal digits.
-/

namespace PortageEngine.Routing

open Library Library.Decimal Documents

abbrev Context := ResolvedContext String

/-! ## Capacity pools -/

def defaultExecutionZone : String := "default"

/-- The environment that a capacity pool stands for. -/
structure Environment where
  provider : String
  executionZone : String
  arch : String
  buildMode : String
  profileId : String
  imageId : String
  imageGeneration : String
  deriving DecidableEq

/-- The zone of a context; an empty one stands for the default zone. -/
def executionZone (c : Context) : String :=
  if trimSpace c.executionZone = "" then defaultExecutionZone else trimSpace c.executionZone

def environment (c : Context) : Environment where
  provider := trimSpace c.provider
  executionZone := executionZone c
  arch := trimSpace c.arch
  buildMode := trimSpace c.buildMode
  profileId := trimSpace c.profileId
  imageId := trimSpace c.imageId
  imageGeneration := trimSpace c.imageGeneration

def Environment.parts (e : Environment) : List String :=
  [e.provider, e.executionZone, e.arch, e.buildMode, e.profileId, e.imageId, e.imageGeneration]

/-- What is hashed: the parts with a NUL in between. -/
def Environment.key (e : Environment) : String :=
  String.ofList (List.intercalate ['\x00'] (e.parts.map String.toList))

def hexText (digits : List (Fin 16)) : String :=
  String.ofList (digits.map fun d : Fin 16 => d.val.digitChar)

/-- The identity of a pool whose environment is complete. -/
def poolText (hash : String → List (Fin 16)) (e : Environment) : String :=
  e.provider ++ "-" ++ e.executionZone ++ "-" ++ e.arch ++ "-" ++ hexText (hash e.key)

def capacityPoolId (hash : String → List (Fin 16)) (c : Context) : Except String String := do
  require ((environment c).parts.all (· ≠ "")) "capacity pool dimensions are incomplete"
  return poolText hash (environment c)

/-! ## Labels -/

def isKind : List Char → Bool
  | [] => false
  | c :: cs => c.isLower && cs.length ≤ 31 && cs.all fun d => d.isLower || d.isDigit || d = '-'

def isValue : List Char → Bool
  | [] => false
  | c :: cs => c.isAlphanum && cs.length ≤ 479 &&
      cs.all fun d => d.isAlphanum || "+._/@:-".toList.contains d

/-- `executorCapabilityPattern`: a kind, a colon and a value. -/
def executorCapabilityPattern (label : String) : Bool :=
  match label.toList.dropWhile (· ≠ ':') with
  | [] => false
  | _ :: value => isKind (label.toList.takeWhile (· ≠ ':')) && isValue value

def maxExecutorCapabilities : Nat := 4096

def normalizeExecutorCapabilities (labels : List String) : Except String (List String) := do
  require (0 < labels.length && labels.length ≤ maxExecutorCapabilities)
    s!"executor capabilities must contain 1..{maxExecutorCapabilities} labels"
  labels.forM fun label => require (executorCapabilityPattern (trimSpace label))
    s!"invalid executor capability {(trimSpace label).quote}"
  return ((labels.map trimSpace).dedup.insertionSort (· ≤ ·))

def phases : List String := ["provision", "build", "verify", "publish"]

def label (kind value : String) : String :=
  kind ++ ":" ++ value

/-- The label of the egress policy, if the context has a policy with a digest. -/
def egressLabels (c : Context) : List String :=
  if c.egressPolicyId ≠ "" && c.egressPolicyDigest ≠ "" then
    [label "egress" (c.egressPolicyId ++ "@" ++ c.egressPolicyDigest)]
  else []

/-- The labels of a context whose pool is known. -/
def contextLabels (c : Context) (phase poolId : String) : List String :=
  [label "phase" phase, label "capacity-pool" poolId, label "zone" (executionZone c),
    label "provider" c.provider, label "arch" c.arch, label "build-mode" c.buildMode,
    label "profile" c.profileId, label "image" (c.imageId ++ "@" ++ c.imageGeneration)] ++
    egressLabels c

/-- `PhaseCapabilityRequirements`, for the resolved context of a request. -/
def phaseCapabilityRequirements (hash : String → List (Fin 16)) (resolved : Option Context)
    (phase : String) : Except String (List String) := do
  require (phases.contains phase) s!"unsupported executor phase {phase.quote}"
  match resolved with
  | none => normalizeExecutorCapabilities [label "phase" phase, label "context" "legacy"]
  | some c => do
    let poolId ← capacityPoolId hash c
    normalizeExecutorCapabilities (contextLabels c phase poolId)

/-- The labels that `resolveExecutorCapabilities` derives from the contexts of the catalog: those
that any of them asks for in any phase. -/
def resolveExecutorCapabilities (hash : String → List (Fin 16)) (contexts : List Context) :
    Except String (List String) := do
  let required ← (contexts.flatMap fun c => phases.map fun phase => (c, phase)).mapM fun p =>
    phaseCapabilityRequirements hash (some p.1) p.2
  normalizeExecutorCapabilities required.flatten

/-- `ClaimPhaseWork` hands a phase only to an executor with all labels. -/
def eligible (advertised required : List String) : Bool :=
  required.all advertised.contains

end PortageEngine.Routing
