import PortageEngine.Build.Provision

/-!
# Charged and provisioned resources

The ledger charges a job for the resources that `resourceVectorFromRequest` reads from the stored
request; the VM of the job gets those that `generatePVEConfig` writes for the same request.  Both
read one string map.  They agree on CPUs.  Memory and disk size the accounting reads under `memory`
and `disk_size`, the only names validation lets through, while the PVE decoder reads `memory_mb` and
`disk_size_gb`: its defaults of 8192 MB and 50 GB are what every VM gets
(`provisioned_eq_charged_iff`).
-/

namespace PortageEngine.Build

open Library
open Library.Decimal
open BuildCatalog

/-! ## What validation leaves in a machine specification -/

/-- The keys that a resource class or a client may set. -/
def machineSpecKeys : List String :=
  ["cores", "memory", "disk_size", "machine_type", "instance_type", "preemptible"]

def numericKeys : List String :=
  ["cores", "memory", "disk_size"]

/-- An entry that passed validation: a known key, and a number where one is due. -/
def AcceptedEntry (key value : String) : Prop :=
  key ∈ machineSpecKeys ∧ (key ∈ numericKeys → ∃ n, atoi value = some n)

/-- Every entry of the map passed validation. -/
def AcceptedSpec (spec : StringMap) : Prop :=
  ∀ key value, spec.lookup key = some value → AcceptedEntry key value

variable {value key name template : String} {spec : StringMap} {ext : Externals} {c₀ c : Catalog}
  {now : Nat} {otherChecks : BuildRequest → Except String Unit} {limits : RequestLimits}
  {stored : BuildRequest} {cs : CloudSettings} {tf : MainTF} {v : ResourceVector}

theorem atoi_of_validateBoundedInteger {lo hi : Int}
    (h : validateBoundedInteger value lo hi key = .ok ()) : ∃ n, atoi value = some n := by
  unfold validateBoundedInteger at h
  cases hn : atoi value with
  | none => simp [hn] at h
  | some n => exact ⟨n, rfl⟩

theorem acceptedEntry_of_dispatch {typeCheck flagCheck : Except String Unit}
    {lo₁ hi₁ lo₂ hi₂ lo₃ hi₃ : Int} {unknown : String}
    (h : (if key = "cores" then validateBoundedInteger value lo₁ hi₁ key
      else if key = "memory" then validateBoundedInteger value lo₂ hi₂ key
      else if key = "disk_size" then validateBoundedInteger value lo₃ hi₃ key
      else if key = "machine_type" || key = "instance_type" then typeCheck
      else if key = "preemptible" then flagCheck
      else .error unknown) = .ok ()) : AcceptedEntry key value := by
  by_cases h₁ : key = "cores"
  · subst h₁
    exact ⟨by decide, fun _ => atoi_of_validateBoundedInteger h⟩
  by_cases h₂ : key = "memory"
  · subst h₂
    exact ⟨by decide, fun _ => atoi_of_validateBoundedInteger h⟩
  by_cases h₃ : key = "disk_size"
  · subst h₃
    exact ⟨by decide, fun _ => atoi_of_validateBoundedInteger h⟩
  have hnumeric : key ∉ numericKeys := by simp [numericKeys, h₁, h₂, h₃]
  refine ⟨?_, fun hk => absurd hk hnumeric⟩
  simp only [h₁, h₂, h₃, if_false] at h
  by_cases h₄ : key = "machine_type" ∨ key = "instance_type"
  · rcases h₄ with rfl | rfl <;> decide
  by_cases h₅ : key = "preemptible"
  · subst h₅
    decide
  simp [h₄, h₅] at h

theorem acceptedSpec_of_resourceSpec (h : validateResourceSpec spec = .ok ()) :
    AcceptedSpec spec := by
  replace h := passed h
  intro key value hlookup
  have hmem : (⟨key, value⟩ : Sigma fun _ : String => String) ∈ spec.entries :=
    AList.mem_lookup_iff.mp hlookup
  have hentry := forM_eq_ok.mp h _ hmem
  exact acceptedEntry_of_dispatch (require_bind_eq_ok.mp hentry).2

theorem acceptedSpec_of_requestSpec (h : validateRequestMachineSpec spec = .ok ()) :
    AcceptedSpec spec := by
  have h := (require_bind_eq_ok.mp h).2
  intro key value hlookup
  have hmem : (⟨key, value⟩ : Sigma fun _ : String => String) ∈ spec.entries :=
    AList.mem_lookup_iff.mp hlookup
  have hentry := forM_eq_ok.mp h _ hmem
  exact acceptedEntry_of_dispatch hentry

theorem AcceptedSpec.union {left right : StringMap} (hl : AcceptedSpec left)
    (hr : AcceptedSpec right) : AcceptedSpec (left ∪ right) := by
  intro key value hlookup
  rcases AList.mem_lookup_union.mp hlookup with h | ⟨_, h⟩
  · exact hl key value h
  · exact hr key value h

/-! ## Stored requests have accepted specifications -/

theorem acceptedSpec_of_validateResourceClasses {seen : List String} {classes : List ResourceClass}
    (h : validateResourceClasses seen classes = .ok ()) :
    ∀ cls ∈ classes, AcceptedSpec cls.machineSpec := by
  induction classes generalizing seen with
  | nil => simp
  | cons cls rest ih =>
    obtain ⟨_, hcls, hrest⟩ := bind_eq_ok.mp h
    have hcls := (require_bind_eq_ok.mp (require_bind_eq_ok.mp hcls).2).2
    obtain ⟨_, hspec, _⟩ := bind_eq_ok.mp hcls
    refine List.forall_mem_cons.mpr ⟨?_, ih hrest⟩
    exact acceptedSpec_of_resourceSpec (mapError_succeeds_iff.mp hspec)

theorem acceptedSpec_of_catalog (h : c₀.validate ext = .ok c) :
    ∀ cls ∈ c.resourceClasses, AcceptedSpec cls.machineSpec := by
  simp only [Catalog.validate, bind_eq_ok, pure_eq_ok] at h
  obtain ⟨_, _, _, _, _, _, _, _, _, _, _, hclasses, _, _, _, _, _, _, _, _, _, _, _, _, rfl⟩ := h
  exact acceptedSpec_of_validateResourceClasses hclasses

theorem acceptedSpec_of_resolveResources {p : ProfileDefinition} {requested : String}
    {minutes rate : Int} (hc : ∀ cls ∈ c.resourceClasses, AcceptedSpec cls.machineSpec)
    (h : c.resolveResources p requested = .ok (name, spec, minutes, rate)) :
    AcceptedSpec spec := by
  unfold Catalog.resolveResources at h
  split at h
  · cases h
    intro key value hlookup
    simp at hlookup
  split at h
  · cases h
  rename_i cls hcls
  cases h
  exact hc cls (List.mem_of_find?_eq_some hcls)

theorem acceptedSpec_of_resolveAt {req : ResolveRequest} {context : ResolvedBuildContext}
    (hc : ∀ cls ∈ c.resourceClasses, AcceptedSpec cls.machineSpec)
    (h : c.resolveAt ext req now = .ok context) : AcceptedSpec context.machineSpec := by
  simp only [Catalog.resolveAt, bind_eq_ok, pure_eq_ok] at h
  -- The resource class is the twelfth step; the steps before it do not touch the map.
  rcases h with ⟨p, _, _, _, _, _, _, _, _, _, _, _, _, _, _, _, _, _, _, _, _, _, _, hres, _, _, _, _,
    rfl⟩
  exact acceptedSpec_of_resolveResources hc hres

variable {req : BuildRequest}

/-- A submitted request is stored with an accepted machine specification, and accounting reads
exactly that map. -/
theorem accepted_of_submitBuild (hc : c₀.validate ext = .ok c)
    (h : submitBuild ext c template now otherChecks limits req = .ok stored) :
    AcceptedSpec stored.machineSpec ∧ accountedSpec stored = stored.machineSpec := by
  replace h := passed h
  have h := (require_bind_eq_ok.mp h).2
  obtain ⟨_, hspec, h⟩ := bind_eq_ok.mp h
  obtain ⟨resolved, hresolve, h⟩ := bind_eq_ok.mp h
  replace h := passed h
  cases h
  obtain ⟨context, hcontext, hresolve⟩ := bind_eq_ok.mp hresolve
  have hresolve := (require_bind_eq_ok.mp hresolve).2
  cases hresolve
  refine ⟨?_, by simp [accountedSpec]⟩
  exact (acceptedSpec_of_requestSpec hspec).union
    (acceptedSpec_of_resolveAt (acceptedSpec_of_catalog hc) (mapError_succeeds_iff.mp hcontext))

/-! ## What the configuration of the VM says -/

theorem lookup_setAll {settings : List (String × String)}
    (h : key ∉ settings.map Prod.fst) : (setAll spec settings).lookup key = spec.lookup key := by
  induction settings generalizing spec with
  | nil => rfl
  | cons kv rest ih =>
    simp only [List.map_cons, List.mem_cons, not_or] at h
    have hstep : (setNonempty spec kv.1 kv.2).lookup key = spec.lookup key := by
      unfold setNonempty
      split
      · rfl
      · exact AList.lookup_insert_ne h.1
    calc
      (setAll spec (kv :: rest)).lookup key
          = (setAll (setNonempty spec kv.1 kv.2) rest).lookup key := rfl
      _ = (setNonempty spec kv.1 kv.2).lookup key := ih h.2
      _ = spec.lookup key := hstep

theorem lookup_writeAll {settings : List (String × String)} (h : key ∉ settings.map Prod.fst) :
    (writeAll spec settings).lookup key = spec.lookup key := by
  induction settings generalizing spec with
  | nil => rfl
  | cons kv rest ih =>
    simp only [List.map_cons, List.mem_cons, not_or] at h
    calc
      (writeAll spec (kv :: rest)).lookup key
          = (writeAll (spec.insert kv.1 kv.2) rest).lookup key := rfl
      _ = (spec.insert kv.1 kv.2).lookup key := ih h.2
      _ = spec.lookup key := AList.lookup_insert_ne h.1

/-- The keys the control plane itself writes into the specification map. -/
def operatorKeys : List String :=
  ["endpoint", "node", "nodes", "storage", "network", "template", "cicustom", "nameserver",
    "ip_config", "gateway", "insecure", "bios", "machine", "disk_type", "pe_catalog_version",
    "pe_profile_id", "pe_image_id", "pe_image_generation", "pe_image_digest",
    "pe_mirror_bundle_id", "pe_mirror_bundle_digest", "pe_egress_policy_id",
    "pe_egress_policy_digest", "start_stopped"]

theorem lookup_pveSpecWithDefaults {mode : String} (h : key ∉ operatorKeys) :
    (pveSpecWithDefaults cs spec mode).lookup key = spec.lookup key := by
  have hdefaults : ∀ uefi : List (String × String),
      (uefi = nativeGentooSettings ∨ uefi = []) →
      (setAll ∅ (pveSettings cs ++ uefi)).lookup key = none := by
    intro uefi huefi
    have hkey : key ∉ (pveSettings cs ++ uefi).map Prod.fst := by
      rcases huefi with rfl | rfl
      · simp_all [operatorKeys, pveSettings, nativeGentooSettings]
      · simp_all [operatorKeys, pveSettings]
    rw [lookup_setAll hkey]
    rfl
  unfold pveSpecWithDefaults
  by_cases hmem : key ∈ spec
  · exact AList.lookup_union_left hmem
  rw [AList.lookup_union_right hmem, AList.lookup_eq_none.mpr hmem]
  split
  · exact hdefaults _ (Or.inl rfl)
  · exact hdefaults _ (Or.inr rfl)

theorem lookup_pveProvisionSpec {m : StringMap} (hkey : key ∉ operatorKeys)
    (h : pveProvisionSpec cs req = .ok m) :
    m.lookup key = req.machineSpec.lookup key := by
  have h := (require_bind_eq_ok.mp h).2
  cases hcontext : req.resolvedContext with
  | none =>
    rw [hcontext] at h
    cases h
    exact lookup_pveSpecWithDefaults hkey
  | some context =>
    rw [hcontext] at h
    have htemplate : key ≠ "template" := by
      rintro rfl
      exact hkey (by decide)
    have hstopped : key ≠ "start_stopped" := by
      rintro rfl
      exact hkey (by decide)
    have hwritten : key ∉ (contextSettings context).map Prod.fst := by
      simp_all [operatorKeys, contextSettings]
    simp only [pure_eq_ok] at h
    subst h
    have hbase : ∀ spec : StringMap,
        (writeAll (setNonempty spec "template" context.template)
          (contextSettings context)).lookup key = spec.lookup key := by
      intro spec
      rw [lookup_writeAll hwritten]
      exact @lookup_setAll key spec [("template", context.template)] (by simpa using htemplate)
    split
    · rw [AList.lookup_insert_ne hstopped, hbase, lookup_pveSpecWithDefaults hkey]
    · rw [hbase, lookup_pveSpecWithDefaults hkey]

/-- With an accepted machine specification the VM has the requested cores, or four, on one socket,
and the default memory and disk size whatever the specification says about them. -/
theorem generatePVEConfig_of_accepted (hspec : AcceptedSpec req.machineSpec)
    (h : generatePVEConfig cs req name = .ok tf) :
    tf.vcpus = ((req.machineSpec.lookup "cores").bind atoi).getD 4 ∧
      tf.memory = 8192 ∧ tf.diskSizeGB = 50 := by
  obtain ⟨m, hm, h⟩ := bind_eq_ok.mp h
  have h := (require_bind_eq_ok.mp (require_bind_eq_ok.mp h).2).2
  cases h
  have hunset : ∀ key, key ∉ operatorKeys → key ∉ machineSpecKeys → m.lookup key = none := by
    intro key hop hkey
    rw [lookup_pveProvisionSpec hop hm]
    cases hlookup : req.machineSpec.lookup key with
    | none => rfl
    | some value => exact absurd (hspec key value hlookup).1 hkey
  have hsockets := hunset "sockets" (by decide) (by decide)
  have hmemory := hunset "memory_mb" (by decide) (by decide)
  have hdisk := hunset "disk_size_gb" (by decide) (by decide)
  have hcores : intField m "cores" 4 = ((req.machineSpec.lookup "cores").bind atoi).getD 4 := by
    unfold intField
    rw [lookup_pveProvisionSpec (by decide) hm]
    cases hlookup : req.machineSpec.lookup "cores" with
    | none => rfl
    | some value =>
      obtain ⟨n, hn⟩ := (hspec "cores" value hlookup).2 (by decide)
      simp [ne_empty_of_atoi hn, scanInt_of_atoi hn, hn]
  refine ⟨?_, ?_, ?_⟩
  · calc
      (generateMainTF (pveInstanceSpecFromMap m) name).vcpus
          = intField m "cores" 4 * intField m "sockets" 1 := rfl
      _ = intField m "cores" 4 := by simp [intField, hsockets]
      _ = ((req.machineSpec.lookup "cores").bind atoi).getD 4 := hcores
  · change intField m "memory_mb" 8192 = 8192
    simp [intField, hmemory]
  · change intField m "disk_size_gb" 50 = 50
    simp [intField, hdisk]

/-! ## What the ledger charges -/

/-- The number a machine specification gives for a key. -/
def machineInt (spec : StringMap) (key : String) : Option Int :=
  (spec.lookup key).bind atoi

theorem parseResource_of_accepted {cls : String} {n : Int} (hspec : AcceptedSpec spec)
    (hkey : key ∈ numericKeys) (h : parseResource cls spec key = .ok n) :
    machineInt spec key = some n := by
  unfold parseResource at h
  unfold machineInt
  cases hlookup : spec.lookup key with
  | none =>
    rw [hlookup] at h
    simp [trimSpace, trimChars, atoi, splitSign, signedValue] at h
  | some value =>
    obtain ⟨k, hk⟩ := (hspec key value hlookup).2 hkey
    rw [hlookup] at h
    simp only [Option.getD_some, trimSpace_of_atoi hk, hk] at h
    split at h
    · cases h
      exact hk
    · cases h

/-- The charge for an accepted machine specification: its own three numbers, or the compatibility
class if it is empty. -/
theorem resourceVector_of_accepted (hspec : AcceptedSpec req.machineSpec)
    (hread : accountedSpec req = req.machineSpec) (h : resourceVectorFromRequest req = .ok v) :
    (req.machineSpec = ∅ ∧ v = legacyResources) ∨
      (machineInt req.machineSpec "cores" = some v.vcpus ∧
        machineInt req.machineSpec "memory" = some v.memoryMiB ∧
        machineInt req.machineSpec "disk_size" = some v.diskGiB) := by
  unfold resourceVectorFromRequest at h
  simp only [hread] at h
  split at h
  · rename_i hempty
    simp only [Bool.and_eq_true, List.isEmpty_iff] at hempty
    exact Or.inl ⟨AList.ext hempty.1, (pure_eq_ok.mp h).symm⟩
  obtain ⟨cores, hcores, h⟩ := bind_eq_ok.mp h
  obtain ⟨memory, hmemory, h⟩ := bind_eq_ok.mp h
  obtain ⟨disk, hdisk, h⟩ := bind_eq_ok.mp h
  cases h
  exact Or.inr ⟨parseResource_of_accepted hspec (by decide) hcores,
    parseResource_of_accepted hspec (by decide) hmemory,
    parseResource_of_accepted hspec (by decide) hdisk⟩

/-! ## Agreement -/

/-- The configured VM has exactly the resources the ledger charges. -/
def Matches (tf : MainTF) (v : ResourceVector) : Prop :=
  tf.vcpus = v.vcpus ∧ tf.memory = v.memoryMiB ∧ tf.diskSizeGB = v.diskGiB

/-- For every accepted catalog and every accepted request, the resources of the VM are the charged
ones exactly if the stored machine specification is empty or asks for 8192 MB and 50 GB. -/
theorem provisioned_eq_charged_iff {ext : Externals} {c₀ c : Catalog} {template : String} {now : Nat}
    {otherChecks : BuildRequest → Except String Unit} {limits : RequestLimits}
    {req stored : BuildRequest} {cs : CloudSettings} {name : String} {tf : MainTF}
    {v : ResourceVector} (hc : c₀.validate ext = .ok c)
    (hsubmit : submitBuild ext c template now otherChecks limits req = .ok stored)
    (htf : generatePVEConfig cs stored name = .ok tf)
    (hv : resourceVectorFromRequest stored = .ok v) :
    Matches tf v ↔ stored.machineSpec = ∅ ∨
      (machineInt stored.machineSpec "memory" = some 8192 ∧
        machineInt stored.machineSpec "disk_size" = some 50) := by
  obtain ⟨hspec, hread⟩ := accepted_of_submitBuild hc hsubmit
  obtain ⟨hcpu, hmemory, hdisk⟩ := generatePVEConfig_of_accepted hspec htf
  rcases resourceVector_of_accepted hspec hread hv with ⟨hempty, rfl⟩ | ⟨h₁, h₂, h₃⟩
  · -- Nothing is specified: the charge and the decoder's defaults are the same three numbers.
    have hcores : tf.vcpus = 4 := by
      rw [hcpu, hempty]
      rfl
    simp [Matches, hempty, hcores, hmemory, hdisk, legacyResources]
  · have hcores : tf.vcpus = v.vcpus := by
      rw [hcpu]
      exact congrArg (Option.getD · 4) h₁
    have hne : stored.machineSpec ≠ ∅ := by
      intro hempty
      rw [hempty] at h₁
      cases h₁
    simp only [Matches, hcores, hmemory, hdisk, h₂, h₃, hne, false_or, true_and,
      Option.some.injEq]
    constructor
    · rintro ⟨hm, hd⟩
      exact ⟨hm.symm, hd.symm⟩
    · rintro ⟨hm, hd⟩
      exact ⟨hm.symm, hd.symm⟩

/-! ## The built-in catalog -/

/-- Externals for a catalog without addresses whose paths are clean. -/
def plainExternals : Externals where
  parseUrl := fun _ => none
  cleanPath := id
  policyHash := fun _ => ""

theorem newCompatibility_valid :
    (newCompatibility {}).validate plainExternals = .ok (newCompatibility {}) := rfl

def sampleSettings : CloudSettings where
  pveEndpoint := "https://pve.example.com:8006"
  pveNode := "pve"
  pveNodes := []
  pveStorage := "local-lvm"
  pveNetwork := "vmbr0"
  pveTemplate := "gentoo-builder"
  pveCICustom := ""
  pveNameserver := ""
  pveIPConfig := ""
  pveGateway := ""
  pveInsecure := false

def defaultLimits : RequestLimits :=
  { maxVCPUs := 32, maxMemoryMiB := 131072, maxDiskGiB := 1000 }

/-- Submit to the built-in catalog with the sample settings. -/
def submitSample (req : BuildRequest) : Except String BuildRequest :=
  submitBuild plainExternals (newCompatibility {}) sampleSettings.pveTemplate 0
    (fun _ => .ok ()) defaultLimits req

/-- A request that leaves the machine to the catalog. -/
def plainRequest : BuildRequest :=
  { packageName := "app-misc/hello" }

def memoryRequest : BuildRequest :=
  { packageName := "app-misc/hello", machineSpec := [⟨"memory", "16384"⟩].toAList }

def storedPlain : BuildRequest :=
  (submitSample plainRequest).toOption.getD plainRequest

def storedMemory : BuildRequest :=
  (submitSample memoryRequest).toOption.getD memoryRequest

/-- A request that keeps the built-in class gets what it is charged for. -/
theorem provisioned_eq_charged_builtin :
    ∃ tf v, generatePVEConfig sampleSettings storedPlain "builder" = .ok tf ∧
      resourceVectorFromRequest storedPlain = .ok v ∧ Matches tf v := by
  have hsubmit : submitSample plainRequest = .ok storedPlain := rfl
  have hv : resourceVectorFromRequest storedPlain = .ok legacyResources := rfl
  obtain ⟨tf, htf⟩ : ∃ tf, generatePVEConfig sampleSettings storedPlain "builder" = .ok tf :=
    ⟨_, rfl⟩
  refine ⟨tf, legacyResources, htf, hv, ?_⟩
  exact (provisioned_eq_charged_iff newCompatibility_valid hsubmit htf hv).mpr
    (Or.inr ⟨rfl, rfl⟩)

/-- A request for 16384 MB is accepted and charged for 16384 MB, and its VM has 8192 MB. -/
theorem memoryRequest_mismatch :
    (newCompatibility {}).validate plainExternals = .ok (newCompatibility {}) ∧
      submitSample memoryRequest = .ok storedMemory ∧
      storedMemory.cloudProvider = some .pve ∧
      ∃ tf v, generatePVEConfig sampleSettings storedMemory "builder" = .ok tf ∧
        resourceVectorFromRequest storedMemory = .ok v ∧
        tf.memory = 8192 ∧ v.memoryMiB = 16384 ∧ ¬ Matches tf v := by
  have hgap : ∀ (tf : MainTF) (v : ResourceVector), tf.memory = 8192 → v.memoryMiB = 16384 →
      ¬ Matches tf v := by
    intro tf v htf hv h
    have hmemory := h.2.1
    omega
  exact ⟨newCompatibility_valid, rfl, rfl, _, ⟨4, 16384, 50⟩, rfl, rfl, rfl, rfl,
    hgap _ _ rfl rfl⟩

end PortageEngine.Build
