import PortageEngine.Publication.Publish

/-!
# What a channel selects

The history of a channel is a chain: every pointer it has held selects a manifest and an index that
one attempt made from those of the pointer before (`Publishes`, `Chain`).  `Inv` adds what the store
holds: the objects of every generation come from its attempt, and whatever a pointer refers to is
there.
-/

namespace PortageEngine.Publication

open Library Library.Process Library.Overlay Library.Rows Packages Storage

/-- The attempts that publish into a channel, with what is fixed about each of them. -/
structure Attempts where
  ch : BinhostChannel
  input : String → PublicationInput
  named : ∀ a, (input a).attemptId = a
  /-- The staged Packages index of an attempt. -/
  index : String → Text

/-- A store in which nothing has been published; the quarantine holds the staged indexes. -/
structure Attempts.Fresh (A : Attempts) (s : Bucket) : Prop where
  quarantined : ∀ a t, s.lookup (.quarantine (A.input a).token packagesName) = some (.bytes t) →
    t = A.index a
  unpublished : ∀ g relative, s.lookup (.published g relative) = none
  unselected : s.channel = []

namespace Attempts

variable (A : Attempts)

def generation (a : String) : GenerationId :=
  A.ch.generation a

/-- An artifact under the key its upload gets. -/
def place (a : String) (artifact : GenerationArtifact) : GenerationArtifact :=
  { artifact with
    objectKey := (publishedGenerationKey A.ch (A.generation a) artifact.relativePath).toOption }

/-- The artifacts an attempt adds to a channel. -/
def added (a : String) : List GenerationArtifact :=
  ((A.input a).artifacts A.ch).map (A.place a)

/-! ## Contents -/

/-- The pointer selects this manifest and this index. -/
structure Selects (p : ChannelPointer) (manifest : GenerationManifest) (packages : Text) :
    Prop where
  manifestDigest : digestBytes (.manifest manifest) = p.manifestSha256
  packagesDigest : digestBytes (.bytes packages) = p.packagesSha256
  manifestPackages : manifest.packagesSha256 = p.packagesSha256
  manifestGeneration : manifest.generationId = p.generationId
  manifestValid : manifest.validate A.ch.ext = .ok ()
  pointerValid : p.validate A.ch.ext = .ok ()
  binhostPath : p.binhostPath = A.ch.binhostPath
  architecture : p.architecture = A.ch.architecture

variable {A} {p : ChannelPointer} {a : String} {artifacts : List GenerationArtifact} {packages : Text}
  {s : Bucket} {m manifest : GenerationManifest} {t relative merged : Text} {g : GenerationId}
  {history : List ChannelPointer}

theorem Selects.unique {m' : GenerationManifest} {t' : Text} (h : A.Selects p m t)
    (h' : A.Selects p m' t') : m = m' ∧ t = t' := by
  constructor
  · have hdigest := h.manifestDigest.trans h'.manifestDigest.symm
    simpa using hdigest
  · have hdigest := h.packagesDigest.trans h'.packagesDigest.symm
    simpa using hdigest

theorem Selects.manifestKey (h : A.Selects p m t) :
    p.manifestKey = .published p.generationId generationManifestName := by
  have hvalid := h.pointerValid
  simp only [ChannelPointer.validate, bind_eq_ok, require_eq_ok, decide_eq_true_eq] at hvalid
  rcases hvalid with ⟨-, -, -, -, hkey⟩
  exact hkey

theorem Selects.keyed (h : A.Selects p m t) :
    Keyed GenerationArtifact.relativePath m.artifacts := by
  have hvalid := h.manifestValid
  simp only [GenerationManifest.validate, bind_eq_ok, forDistinct_eq_ok] at hvalid
  rcases hvalid with ⟨-, -, -, -, -, -, -, hkeyed, -⟩
  exact hkeyed

variable (A)

/-- What a publication into a channel with this history starts from. -/
def Base : List ChannelPointer → List GenerationArtifact → Text → Prop
  | [], artifacts, packages => artifacts = [] ∧ packages = []
  | p :: _, artifacts, packages => ∃ m, A.Selects p m packages ∧ m.artifacts = artifacts

/-- The attempt has made the pointer's generation from what the channel selected before. -/
structure Publishes (a : String) (before : List ChannelPointer) (p : ChannelPointer)
    (artifacts : List GenerationArtifact) (packages : Text) (merged : Text)
    (manifest : GenerationManifest) : Prop where
  base : A.Base before artifacts packages
  merge : mergePackagesIndexes packages (A.index a) A.ch.architecture.toList
    (A.input a).timestamp = .ok merged
  listed : manifest.artifacts = sorted GenerationArtifact.relativePath
    (overlay GenerationArtifact.relativePath artifacts (A.added a))
  distinct : Keyed GenerationArtifact.relativePath (A.added a)
  selects : A.Selects p manifest merged
  generation : p.generationId = A.generation a
  previous : p.previousGenerationId = before.head?.map ChannelPointer.generationId

/-- Every pointer of the history was made from the one before. -/
def Chain : List ChannelPointer → Prop
  | [] => True
  | p :: before => (∃ a artifacts packages merged manifest,
      A.Publishes a before p artifacts packages merged manifest) ∧ Chain before

variable {A}

theorem place_key {artifact : GenerationArtifact} {key : Key}
    (h : (A.place a artifact).objectKey = some key) :
    ∃ relative, key = .published (A.generation a) relative := by
  unfold place publishedGenerationKey at h
  simp only [A.ch.valid] at h
  cases hclean : cleanGenerationRelativePath artifact.relativePath with
  | error e =>
    rw [hclean] at h
    cases h
  | ok relative =>
    rw [hclean] at h
    cases h
    exact ⟨relative, rfl⟩

theorem added_key {x : GenerationArtifact} (hx : x ∈ A.added a)
    (h : x.objectKey = some (.published g relative)) : g = A.generation a := by
  rcases List.mem_map.mp hx with ⟨artifact, -, rfl⟩
  rcases place_key h with ⟨relative', hkey⟩
  cases hkey
  rfl

/-! ## Objects -/

variable (A)

inductive Indexed : Text → Prop
  | empty : Indexed []
  | merge {base text : Text} {a : String} (hbase : Indexed base)
      (h : mergePackagesIndexes base (A.index a) A.ch.architecture.toList (A.input a).timestamp =
        .ok text) : Indexed text

/-- The documents an attempt stores in its generation. -/
inductive Own (a : String) : Text → Document → Prop
  | artifact {file : StagedFile} {relative : Text} (hfile : file ∈ (A.input a).files)
      (hclean : cleanGenerationRelativePath file.relativePath = .ok relative)
      (hname : relative ≠ packagesName) : Own a relative (.bytes file.content)
  | packages {base text : Text} (hbase : A.Indexed base)
      (h : mergePackagesIndexes base (A.index a) A.ch.architecture.toList (A.input a).timestamp =
        .ok text) : Own a packagesName (.bytes text)
  | manifest {artifacts : List GenerationArtifact} {packages : Text} {key : String}
      (hkeyed : Keyed GenerationArtifact.relativePath artifacts) (hkey : signingKey (A.input a) = .ok key) :
      Own a generationManifestName (.manifest (generationManifest A.ch (A.input a)
        (sorted GenerationArtifact.relativePath
          (overlay GenerationArtifact.relativePath artifacts (A.added a))) packages key))

/-- Everything the pointer refers to is in the store, with the content it names. -/
def Complete (s : Bucket) (p : ChannelPointer) : Prop :=
  ∃ m t, A.Selects p m t ∧
    s.lookup (.published p.generationId generationManifestName) = some (.manifest m) ∧
    s.lookup (.published p.generationId packagesName) = some (.bytes t) ∧
    ∀ x ∈ m.artifacts, ∃ g relative content, x.objectKey = some (.published g relative) ∧
      s.lookup (.published g relative) = some (.bytes content) ∧
      x.sha256 = digestBytes (.bytes content) ∧ x.size = A.ch.documentLength (.bytes content)

/-- The invariant of a channel and its store. -/
structure Inv (s : Bucket) : Prop where
  quarantined : ∀ a t, s.lookup (.quarantine (A.input a).token packagesName) = some (.bytes t) →
    t = A.index a
  own : ∀ g relative d, s.lookup (.published g relative) = some d → A.Own g.attemptId relative d
  chain : A.Chain s.channel
  complete : ∀ p ∈ s.channel, A.Complete s p

variable {A}

theorem Complete.mono {s' : Bucket} (h : A.Complete s p)
    (hkeep : ∀ key d, s.lookup key = some d → s'.lookup key = some d) : A.Complete s' p := by
  rcases h with ⟨m, t, hselects, hmanifest, hpackages, hartifacts⟩
  refine ⟨m, t, hselects, hkeep _ _ hmanifest, hkeep _ _ hpackages, ?_⟩
  intro x hx
  rcases hartifacts x hx with ⟨g, relative, content, hkey, hlookup, hdigest, hsize⟩
  exact ⟨g, relative, content, hkey, hkeep _ _ hlookup, hdigest, hsize⟩

theorem Chain.suffix {new old : List ChannelPointer} (h : A.Chain (new ++ old)) : A.Chain old := by
  induction new with
  | nil => exact h
  | cons p new ih => exact ih h.2

theorem Chain.indexed (h : A.Chain history) (hbase : A.Base history artifacts packages) :
    A.Indexed packages := by
  induction history generalizing artifacts packages with
  | nil => exact hbase.2 ▸ Indexed.empty
  | cons p before ih =>
    rcases h with ⟨⟨a, artifacts', packages', merged, manifest, hpublishes⟩, hchain⟩
    rcases hbase with ⟨m, hselects, -⟩
    rw [(hselects.unique hpublishes.selects).2]
    exact Indexed.merge (ih hchain hpublishes.base) hpublishes.merge

theorem Base.keyed (h : A.Base history artifacts packages) :
    Keyed GenerationArtifact.relativePath artifacts := by
  cases history with
  | nil =>
    rw [h.1]
    simp [Keyed]
  | cons p before =>
    rcases h with ⟨m, hselects, rfl⟩
    exact hselects.keyed

theorem inv_of_fresh (h : A.Fresh s) : A.Inv s where
  quarantined := h.quarantined
  own := fun g relative d hd => absurd (h.unpublished g relative) (by simp [hd])
  chain := by rw [h.unselected]; trivial
  complete := by simp [h.unselected]

theorem Inv.tick (h : A.Inv s) (delay : Time) : A.Inv (s.tick delay) where
  quarantined := h.quarantined
  own := h.own
  chain := h.chain
  complete := fun p hp => (h.complete p hp).mono fun _ _ hd => hd

theorem Inv.store (h : A.Inv s) {d : Document}
    (hnone : s.lookup (.published (A.generation a) relative) = none) (hown : A.Own a relative d) :
    A.Inv (s.store (.published (A.generation a) relative) d) := by
  refine ⟨?_, ?_, h.chain, ?_⟩
  · intro b t ht
    rw [Bucket.lookup_store _ _ hnone, if_neg (by simp)] at ht
    exact h.quarantined b t ht
  · intro g relative' d' hd'
    rw [Bucket.lookup_store _ _ hnone] at hd'
    split at hd'
    · rename_i hkey
      cases hkey
      cases hd'
      exact hown
    · exact h.own g relative' d' hd'
  · intro p hp
    exact (h.complete p hp).mono fun _ _ hd' => Bucket.store_keeps hnone hd'

theorem Inv.select (h : A.Inv s)
    (hpublishes : A.Publishes a s.channel p artifacts packages merged manifest)
    (hmanifest : s.lookup (.published (A.generation a) generationManifestName) =
      some (.manifest manifest))
    (hpackages : s.lookup (.published (A.generation a) packagesName) = some (.bytes merged))
    (hadded : ∀ x ∈ A.added a, ∃ g relative content, x.objectKey = some (.published g relative) ∧
      s.lookup (.published g relative) = some (.bytes content) ∧
      x.sha256 = digestBytes (.bytes content) ∧ x.size = A.ch.documentLength (.bytes content))
 :
    A.Inv (s.select p) := by
  have hcomplete : A.Complete s p := by
    refine ⟨manifest, merged, hpublishes.selects, hpublishes.generation ▸ hmanifest,
      hpublishes.generation ▸ hpackages, ?_⟩
    intro x hx
    rw [hpublishes.listed, mem_sorted, mem_overlay hpublishes.distinct] at hx
    rcases hx with hx | ⟨hx, -⟩
    · exact hadded x hx
    have hbase := hpublishes.base
    cases hchannel : s.channel with
    | nil =>
      rw [hchannel] at hbase
      simp [hbase.1] at hx
    | cons q before =>
      rw [hchannel] at hbase
      rcases hbase with ⟨m', hm', rfl⟩
      rcases h.complete q (by simp [hchannel]) with ⟨m, t, hselects, -, -, hall⟩
      rcases hselects.unique hm' with ⟨rfl, -⟩
      exact hall x hx
  refine ⟨h.quarantined, h.own, ⟨⟨a, artifacts, packages, merged, manifest, hpublishes⟩, h.chain⟩, ?_⟩
  intro q hq
  rcases List.mem_cons.mp hq with rfl | hq
  · exact hcomplete.mono fun _ _ hd => hd
  · exact (h.complete q hq).mono fun _ _ hd => hd

end Attempts

end PortageEngine.Publication
