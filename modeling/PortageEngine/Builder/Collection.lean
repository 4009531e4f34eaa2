import PortageEngine.Library.Fallible
import PortageEngine.Library.Overlay

/-!
# Collecting what a build has produced

A builder copies the binary packages of a job into its artifact directory and records them with the
job.  The request decides which of two collectors runs: `collectAndUploadArtifact` for native builds
and `collectArtifacts` for configuration bundles.  Packages have to leave a builder unsigned.
-/

namespace PortageEngine.Builder

open Library Library.Overlay

/-- A file below `PKGDIR`; `members` are the names `tar.Reader` finds in it before its first error. -/
structure PackageFile where
  rel : List Char
  regular : Bool
  members : List (List Char)
  deriving DecidableEq

/-- A job whose build is over, and how its files can be read. -/
structure EndedJob where
  configBundle : Bool
  packageName : List Char
  buildError : Option String
  outputDir : String
  pkgDir : Except String (List PackageFile)
  /-- The error of `copyProducedPackages` when it opens the two directories. -/
  rootError : Option String
  copyError : PackageFile → Option String
  /-- The size that `os.Stat` reports of a copy, or `0`. -/
  sizeOf : PackageFile → Nat
  /-- Whether `os.Open` succeeds on a copy. -/
  opens : PackageFile → Bool

def base (path : List Char) : List Char :=
  path.rtakeWhile (· ≠ '/')

def PackageFile.isGPKG (f : PackageFile) : Bool :=
  ".gpkg.tar".toList.isSuffixOf (base f.rel)

/-- The archive has a signature member. -/
def PackageFile.signed (f : PackageFile) : Bool :=
  f.members.any (".sig".toList.isSuffixOf ·)

def producedBinaryPackages (job : EndedJob) : Except String (List PackageFile) := do
  let files ← job.pkgDir
  return sorted PackageFile.rel (files.filter fun f =>
    f.regular && (f.isGPKG || ".tbz2".toList.isSuffixOf (base f.rel)))

def copyProducedPackages (job : EndedJob) (rels : List PackageFile) : Except String Unit := do
  if let some e := job.rootError then throw e
  rels.forM fun f =>
    match job.copyError f with
    | some e => .error s!"failed to copy artifact {String.ofList f.rel}: {e}"
    | none => .ok ()

/-- The largest of the files named after the package, or of all files if there are none. -/
def primaryArtifact (rels : List PackageFile) (pkgName : List Char) (sizeOf : PackageFile → Nat) :
    Option PackageFile :=
  let pn := base pkgName
  let category := pkgName.take (pkgName.length - pn.length - 1)
  let named := rels.filter fun f =>
    let name := base f.rel
    (pn ++ ['-']).isPrefixOf name &&
      -- "jq-extras-1.0" is not a version of "jq"
      (name.drop (pn.length + 1)).head?.any (fun c => '0' ≤ c && c ≤ '9') &&
      (category = [] || !f.rel.contains '/' || (category ++ ['/']).isPrefixOf f.rel)
  let pool := if named = [] then rels else named
  pool.foldl (fun best f =>
    if best.all fun b => sizeOf b < sizeOf f then some f else best) none

def gpkgIsSigned (job : EndedJob) (f : PackageFile) : Bool :=
  job.opens f && f.signed

/-- The native collector asks for the primary artifact alone whether it is signed. -/
def collectAndUploadArtifact (job : EndedJob) : Except String (List PackageFile) := do
  let rels := (producedBinaryPackages job).toOption.getD []
  require (rels ≠ []) s!"no artifacts found in {job.outputDir}"
  copyProducedPackages job rels
  let primary := primaryArtifact rels job.packageName job.sizeOf
  require (!primary.any (gpkgIsSigned job))
    "builder produced a signed GPKG; signing is restricted to the isolated signer"
  return rels

def collectArtifacts (job : EndedJob) : Except String (List PackageFile) := do
  let rels ← (producedBinaryPackages job).mapError (s!"failed to search for packages: {·}")
  require (rels ≠ []) "no binary packages found"
  (copyProducedPackages job rels).mapError (s!"failed to copy artifact: {·}")
  return rels

/-- The end of a job in `worker`: its error, or the artifacts of a job that ends in `success`. -/
def worker (job : EndedJob) : Except String (List PackageFile) :=
  match job.buildError with
  | some e => .error e
  | none => if job.configBundle then collectArtifacts job else collectAndUploadArtifact job

/-! ## Signed packages -/

/-- The build has succeeded and `rels` are its packages, which can be copied. -/
def Collectable (job : EndedJob) (rels : List PackageFile) : Prop :=
  job.buildError = none ∧ producedBinaryPackages job = .ok rels ∧ rels ≠ [] ∧
    copyProducedPackages job rels = .ok ()

def Unsigned (rels : List PackageFile) : Prop :=
  ∀ f ∈ rels, f.isGPKG = true → f.signed = false

/-- The native collector has found its primary artifact to be signed. -/
def rejects (job : EndedJob) (rels : List PackageFile) : Bool :=
  !job.configBundle && (primaryArtifact rels job.packageName job.sizeOf).any (gpkgIsSigned job)

variable {job : EndedJob} {rels : List PackageFile}

theorem worker_ok : worker job = .ok rels ↔ Collectable job rels ∧ rejects job rels = false := by
  unfold worker Collectable rejects collectArtifacts collectAndUploadArtifact
  cases job.buildError with
  | some e => simp
  | none =>
    cases producedBinaryPackages job with
    | error e => cases job.configBundle <;> simp [bind_eq_ok, mapError_succeeds_iff, Except.toOption]
    | ok files =>
      -- after the same checks of the same files only the native collector has one more
      cases job.configBundle with
      | true =>
        simp [bind_eq_ok, mapError_succeeds_iff, map_eq_ok]
        grind
      | false =>
        simp [bind_eq_ok, Except.toOption, map_eq_ok]
        grind

/-- A successful job leaves only unsigned packages behind if and only if none of the packages it can
collect is signed, or the native collector looks at one that is. -/
theorem success_unsigned_iff (job : EndedJob) :
    (∀ rels, worker job = .ok rels → Unsigned rels) ↔
      ∀ rels, Collectable job rels → Unsigned rels ∨ rejects job rels = true := by
  refine forall_congr' fun rels => ?_
  rw [worker_ok]
  cases rejects job rels <;> simp

def signedDependency : EndedJob where
  configBundle := false
  packageName := "app-misc/jq".toList
  buildError := none
  outputDir := "binpkgs"
  pkgDir := .ok [⟨"app-misc/jq-1.7.gpkg.tar".toList, true, ["gpkg-1".toList]⟩,
    ⟨"dev-libs/oniguruma-6.gpkg.tar".toList, true, ["Manifest.sig".toList]⟩]
  rootError := none
  copyError := fun _ => none
  sizeOf := fun _ => 1
  opens := fun _ => true

/-- A signed dependency passes the native collector. -/
theorem signed_dependency_collected : ∃ rels, worker signedDependency = .ok rels ∧ ¬ Unsigned rels := by
  refine ⟨signedDependency.pkgDir.toOption.getD [], by decide +kernel, ?_⟩
  intro h
  exact absurd (h _ (List.mem_cons_of_mem _ List.mem_cons_self)) (by decide +kernel)

end PortageEngine.Builder
