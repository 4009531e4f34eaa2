import PortageEngine.Catalog.Resolve

/-!
# Distributed compilation: the contract

The types that the scheduler, the builders and the compile workers share (`internal/distcc`): the
pool of compatible workers, the inventory a worker reports, a reservation request, the lease a
builder gets, and what it reports about its compilations.
-/

namespace PortageEngine.Compile

open Library Library.Decimal
open BuildCatalog (matchesClass digestPattern)

/-- Spans of time in nanoseconds; those that are not positive are refused by every call, so they are
natural numbers. -/
abbrev Duration := Nat

def millisecond : Duration := 1000000

/-- `Duration.Milliseconds`, as an interval of the database, in microseconds. -/
def Duration.interval (d : Duration) : Nat :=
  d / millisecond * 1000

def maxCompileLeaseDuration : Duration := 3600000 * millisecond

def maxWorkerFreshness : Duration := 600000 * millisecond

/-- The SHA-256 of the dimensions of a pool, in hexadecimal digits. -/
abbrev PoolHash := List String → String

def dimensionPattern (s : String) : Bool :=
  matchesClass Char.isAlphanum (fun c => c.isAlphanum || "+._/@:-".toList.contains c) 255 s

def maxCPUFeatures : Nat := 64

/-- `Pool`: the exact compatibility of workers and builds. -/
structure Pool where
  architecture : String
  chost : String
  compilerDigest : String
  toolchainImageGeneration : String
  cpuFeatures : List String
  networkZone : String
  projectTrustDomain : String
  deriving DecidableEq

/-- `Pool.Normalize`: dimensions without surrounding blanks, the processor features as a sorted
set. -/
def Pool.normalize (p : Pool) : Except String Pool := do
  [("architecture", p.architecture), ("CHOST", p.chost), ("compiler digest", p.compilerDigest),
    ("toolchain image generation", p.toolchainImageGeneration), ("network zone", p.networkZone),
    ("project trust domain", p.projectTrustDomain)].forM fun item =>
      require (dimensionPattern (trimSpace item.2))
        s!"invalid distcc {item.1} {(trimSpace item.2).quote}"
  require (digestPattern (trimSpace p.compilerDigest))
    "distcc compiler digest must be sha256:<64 lowercase hex>"
  require (p.cpuFeatures.length ≤ maxCPUFeatures)
    s!"distcc CPU feature count exceeds {maxCPUFeatures}"
  (p.cpuFeatures.map trimSpace).forM fun feature =>
    require (dimensionPattern feature) s!"invalid distcc CPU feature {feature.quote}"
  return {
    architecture := trimSpace p.architecture, chost := trimSpace p.chost
    compilerDigest := trimSpace p.compilerDigest
    toolchainImageGeneration := trimSpace p.toolchainImageGeneration
    cpuFeatures := (p.cpuFeatures.map trimSpace).dedup.insertionSort (· ≤ ·)
    networkZone := trimSpace p.networkZone, projectTrustDomain := trimSpace p.projectTrustDomain }

/-- `Pool.ID` of a pool in normal form. -/
def Pool.identity (hash : PoolHash) (p : Pool) : String :=
  "distcc-" ++ hash [p.architecture, p.chost, p.compilerDigest, p.toolchainImageGeneration,
    ",".intercalate p.cpuFeatures, p.networkZone, p.projectTrustDomain]

/-- `ValidateEndpoint` without a list of networks. -/
def validateEndpoint (endpoint : String) : Except String Unit :=
  match Netip.splitHostPort endpoint.toList with
  | none => .error "distcc endpoint must be an IP:port pair"
  | some (host, port) => do
    require (port ≠ []) "distcc endpoint must be an IP:port pair"
    require (Netip.parseIP host).isSome "distcc endpoint host must be a literal isolated-network IP"

structure WorkerHeartbeat where
  stableName : String
  endpoint : String
  maxSlots : Nat
  pool : Pool

/-- `WorkerHeartbeat.Validate`, with the pool in normal form. -/
def WorkerHeartbeat.validate (h : WorkerHeartbeat) : Except String Pool := do
  require (dimensionPattern (trimSpace h.stableName))
    s!"invalid distcc worker stable name {h.stableName.quote}"
  require (1 ≤ h.maxSlots && h.maxSlots ≤ 256)
    "distcc worker max slots must be between 1 and 256"
  let pool ← h.pool.normalize
  validateEndpoint h.endpoint
  return pool

inductive FallbackPolicy
  | localBuild
  | blocked
  | other (text : String)
  deriving DecidableEq

/-- The failure reasons that may label an observation, and any other text. -/
inductive FailureReason
  | unset
  | capacity
  | connect
  | leaseExpired
  | leaseFenced
  | poolMismatch
  | remoteCompile
  | workerStale
  | policy
  | unknown
  | other (text : String)

inductive Outcome
  | localCompile
  | remote
  | hit
  | fallback
  | other (text : String)

/-- `Observation`.  Its counters are signed in the source; a negative one is refused. -/
structure Observation where
  outcome : Outcome
  failureReason : FailureReason
  networkBytes : Int
  queueMillis : Int
  count : Int

def FallbackPolicy.text : FallbackPolicy → String
  | .localBuild => "local"
  | .blocked => "blocked"
  | .other text => text

def FailureReason.text : FailureReason → String
  | .unset => ""
  | .capacity => "capacity"
  | .connect => "connect"
  | .leaseExpired => "lease-expired"
  | .leaseFenced => "lease-fenced"
  | .poolMismatch => "pool-mismatch"
  | .remoteCompile => "remote-compile"
  | .workerStale => "worker-stale"
  | .policy => "policy"
  | .unknown => "unknown"
  | .other text => text

def Outcome.text : Outcome → String
  | .localCompile => "local"
  | .remote => "remote"
  | .hit => "hit"
  | .fallback => "fallback"
  | .other text => text

def FailureReason.known : FailureReason → Bool
  | .other _ => false
  | _ => true

def Outcome.known : Outcome → Bool
  | .other _ => false
  | _ => true

def Observation.validate (o : Observation) : Except String Unit := do
  require o.outcome.known s!"invalid distcc observation outcome {o.outcome.text.quote}"
  require o.failureReason.known s!"invalid distcc failure reason {o.failureReason.text.quote}"
  require (0 ≤ o.networkBytes && 0 ≤ o.queueMillis && 0 < o.count)
    "invalid distcc observation counters"

end PortageEngine.Compile
