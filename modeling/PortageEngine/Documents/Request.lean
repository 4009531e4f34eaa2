import PortageEngine.Library.Doc

/-!
# The stored form of a build request

`requestDocument` of `internal/persistence` turns a build request into the JSON document of its job
row and into the digest by which a repeated submission is recognised.  The digest is taken of the
document read back into untyped values, without the time of resolution, the creation time of the
configuration bundle and the requesting principal.

Texts are of an arbitrary ordered type `τ` whose default value is the empty text.  Of the resolved
context, its egress policy and the bundle only the fields that routing or the digest read have names
here; the others are any documents.
-/

namespace PortageEngine.Documents

open List Library

variable {τ δ : Type}

/-- `catalog.ResolvedBuildContext`. -/
structure ResolvedContext (τ : Type) where
  profileId : τ
  arch : τ
  provider : τ
  executionZone : τ
  buildMode : τ
  imageId : τ
  imageGeneration : τ
  egressPolicyId : τ
  egressPolicyOthers : List (String × Doc τ)
  egressPolicyDigest : τ
  others : List (String × Doc τ)
  /-- In the form of RFC 3339; a time outside of the years 0 to 9999 has no such form. -/
  resolvedAt : Option τ

structure BundleMetadata (τ : Type) where
  others : List (String × Doc τ)
  createdAt : τ

structure ConfigBundle (τ : Type) where
  config : Doc τ
  packages : Doc τ
  metadata : BundleMetadata τ

structure BuildRequest (τ : Type) where
  projectId : τ
  requestedBy : τ
  packageName : τ
  version : τ
  arch : τ
  useFlags : List τ
  cloudProvider : τ
  profileId : τ
  repositoryIds : List τ
  resourceClass : τ
  /-- A map, or `nil`. -/
  machineSpec : Option (List (τ × τ))
  resolvedContext : Option (ResolvedContext τ)
  configBundle : Option (ConfigBundle τ)
  idempotencyKey : τ

/-! ## Encoding -/

/-- A copied list: `append` to nothing gives `nil`. -/
def copied (ts : List τ) : Doc τ :=
  if ts.isEmpty then .null else .texts ts

/-- A list field with `omitempty`. -/
def textsField (name : String) (ts : List τ) : List (String × Doc τ) :=
  if ts.isEmpty then [] else [(name, .texts ts)]

/-- A pointer field with `omitempty`. -/
def optionField (name : String) (d : Option (Doc τ)) : List (String × Doc τ) :=
  (d.map fun d => (name, d)).toList

/-- The fields of a resolved context other than the time of resolution. -/
def ResolvedContext.fields (c : ResolvedContext τ) : List (String × Doc τ) :=
  [("profile_id", .text c.profileId), ("arch", .text c.arch), ("provider", .text c.provider),
    ("execution_zone", .text c.executionZone), ("build_mode", .text c.buildMode),
    ("image_id", .text c.imageId), ("image_generation", .text c.imageGeneration),
    ("egress_policy", .struct (("id", .text c.egressPolicyId) :: c.egressPolicyOthers)),
    ("egress_policy_digest", .text c.egressPolicyDigest)] ++ c.others

def ResolvedContext.doc (c : ResolvedContext τ) : Except String (Doc τ) :=
  match c.resolvedAt with
  | none => .error "marshal build request"
  | some t => .ok (.struct (c.fields ++ [("resolved_at", .text t)]))

def ConfigBundle.doc (b : ConfigBundle τ) : Doc τ :=
  .struct [("config", b.config), ("packages", b.packages),
    ("metadata", .struct (b.metadata.others ++ [("created_at", .text b.metadata.createdAt)]))]

section Encoding

variable [Inhabited τ] [LinearOrder τ]

/-- A text field with `omitempty`. -/
def textField (name : String) (t : τ) : List (String × Doc τ) :=
  if t = default then [] else [(name, .text t)]

/-- The fields of `storedBuildRequest` up to the machine specification, without the principal. -/
def BuildRequest.leading (r : BuildRequest τ) : List (String × Doc τ) :=
  [("package_name", .text r.packageName), ("version", .text r.version), ("arch", .text r.arch),
    ("use_flags", copied r.useFlags), ("cloud_provider", .text r.cloudProvider)] ++
  textField "profile_id" r.profileId ++ textsField "repository_ids" r.repositoryIds ++
  textField "resource_class" r.resourceClass ++
  [("machine_spec", (r.machineSpec.map Doc.textMap).getD .null)]

/-- The fields of `storedBuildRequest`, given the document of the resolved context. -/
def BuildRequest.fields (r : BuildRequest τ) (context : Option (Doc τ)) : List (String × Doc τ) :=
  textField "project_id" r.projectId ++ textField "requested_by" r.requestedBy ++ r.leading ++
  optionField "resolved_context" context ++
  optionField "config_bundle" (r.configBundle.map ConfigBundle.doc) ++
  textField "idempotency_key" r.idempotencyKey

/-- The document of a request, as the row of its job keeps it. -/
def storedRequest (r : BuildRequest τ) : Except String (Doc τ) :=
  match r.resolvedContext with
  | none => .ok (.struct (r.fields none))
  | some c => c.doc.map fun d => .struct (r.fields (some d))

end Encoding

/-! ## The digest -/

def digestDocument (d : Doc τ) : Doc τ :=
  ((d.modify "resolved_context" (Doc.without "resolved_at")).modify "config_bundle"
    (Doc.modify "metadata" (Doc.without "created_at"))).without "requested_by"

/-- The document and its digest, which is taken of the document read back: numbers are then 64-bit
floats. -/
def requestDocument [Inhabited τ] [LinearOrder τ] (float64 : Int → Int) (digest : Doc τ → δ)
    (r : BuildRequest τ) : Except String (Doc τ × δ) :=
  (storedRequest r).map fun d => (d, digest (digestDocument (d.conv float64 id)))

/-! ## What the digest depends on -/

/-- The same submission made again: at another time and by another principal. -/
def BuildRequest.again (r : BuildRequest τ) (requestedBy : τ) (resolvedAt : Option τ)
    (createdAt : τ) : BuildRequest τ :=
  { r with
    requestedBy := requestedBy
    resolvedContext := r.resolvedContext.map fun c => { c with resolvedAt := resolvedAt }
    configBundle := r.configBundle.map fun b =>
      { b with metadata := { b.metadata with createdAt := createdAt } } }

/-- What `digestDocument` does to the fields of a request. -/
def digestFields (float64 : Int → Int) (fs : List (String × Doc τ)) : List (String × Doc τ) :=
  (((fs.map fun f => (f.1, f.2.conv float64 id)).map fun f =>
      (f.1, if f.1 = "resolved_context" then f.2.without "resolved_at" else f.2)).map fun f =>
      (f.1, if f.1 = "config_bundle" then f.2.modify "metadata" (Doc.without "created_at")
        else f.2)).filter fun f => f.1 ≠ "requested_by"

section Digest

variable {float64 : Int → Int} {fs gs : List (String × Doc τ)}

theorem digestDocument_struct :
    digestDocument ((Doc.struct fs).conv float64 id) = .struct (digestFields float64 fs) := by
  rw [digestDocument, Doc.conv_struct, Doc.modify_struct, Doc.modify_struct, Doc.without_struct]
  rfl

theorem digestFields_append :
    digestFields float64 (fs ++ gs) = digestFields float64 fs ++ digestFields float64 gs := by
  simp [digestFields]

/-- The time of resolution is not digested. -/
theorem digestFields_context {c : ResolvedContext τ} {resolvedAt : Option τ} {d d' : Doc τ}
    (h : c.doc = .ok d) (h' : { c with resolvedAt := resolvedAt }.doc = .ok d') :
    digestFields float64 (optionField "resolved_context" (some d')) =
      digestFields float64 (optionField "resolved_context" (some d)) := by
  rcases c with ⟨⟩
  simp only [ResolvedContext.doc] at h h'
  split at h
  · cases h
  split at h'
  · cases h'
  cases h
  cases h'
  simp [digestFields, optionField, Doc.conv_struct, Doc.without_struct, filter_append,
    ResolvedContext.fields]

/-- The creation time of the bundle is not digested. -/
theorem digestFields_bundle {b : ConfigBundle τ} {createdAt : τ} :
    digestFields float64 (optionField "config_bundle"
        (some { b with metadata := { b.metadata with createdAt := createdAt } }.doc)) =
      digestFields float64 (optionField "config_bundle" (some b.doc)) := by
  simp [digestFields, optionField, ConfigBundle.doc, Doc.conv_struct, Doc.modify_struct,
    Doc.without_struct]

variable [Inhabited τ] [LinearOrder τ] {r : BuildRequest τ}

theorem digestFields_requestedBy {t : τ} :
    digestFields float64 (textField "requested_by" t) = [] := by
  unfold textField
  split
  · rfl
  · simp [digestFields]

variable {requestedBy createdAt : τ} {resolvedAt : Option τ}

theorem digestFields_again {context context' : Option (Doc τ)}
    (h : digestFields float64 (optionField "resolved_context" context') =
      digestFields float64 (optionField "resolved_context" context)) :
    digestFields float64 ((r.again requestedBy resolvedAt createdAt).fields context') =
      digestFields float64 (r.fields context) := by
  have hbundle : digestFields float64 (optionField "config_bundle"
      ((r.again requestedBy resolvedAt createdAt).configBundle.map ConfigBundle.doc)) =
      digestFields float64 (optionField "config_bundle" (r.configBundle.map ConfigBundle.doc)) := by
    cases hb : r.configBundle with
    | none => simp [BuildRequest.again, hb]
    | some b =>
      simp only [BuildRequest.again, hb, Option.map_some]
      exact digestFields_bundle
  simp only [BuildRequest.fields, digestFields_append, digestFields_requestedBy]
  rw [h, hbundle]
  rfl

theorem digest_again {digest : Doc τ → δ} {d d' : Doc τ} {x x' : δ}
    (h : requestDocument float64 digest r = .ok (d, x))
    (h' : requestDocument float64 digest (r.again requestedBy resolvedAt createdAt) = .ok (d', x')) :
    x = x' := by
  unfold requestDocument storedRequest at h h'
  cases hcontext : r.resolvedContext with
  | none =>
    have hagain : (r.again requestedBy resolvedAt createdAt).resolvedContext = none := by
      simp [BuildRequest.again, hcontext]
    rw [hcontext] at h
    rw [hagain] at h'
    cases h
    cases h'
    rw [digestDocument_struct, digestDocument_struct, digestFields_again rfl]
  | some c =>
    have hagain : (r.again requestedBy resolvedAt createdAt).resolvedContext =
        some { c with resolvedAt := resolvedAt } := by
      simp [BuildRequest.again, hcontext]
    simp only [hcontext] at h
    simp only [hagain] at h'
    cases hdoc : c.doc with
    | error e => simp [hdoc, Except.map] at h
    | ok y =>
      cases hdoc' : { c with resolvedAt := resolvedAt }.doc with
      | error e => simp [hdoc', Except.map] at h'
      | ok y' =>
        rw [hdoc] at h
        rw [hdoc'] at h'
        cases h
        cases h'
        rw [digestDocument_struct, digestDocument_struct,
          digestFields_again (digestFields_context hdoc hdoc')]

end Digest

end PortageEngine.Documents
