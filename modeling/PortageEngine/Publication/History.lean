import PortageEngine.Publication.Concurrent

/-!
# No publication is lost

Any number of attempts publish into one channel, in any interleaving, with requests that fail or whose
answers are lost and with programs that end anywhere.  `selected_generations_accumulate`: whatever a
publication that returned has published is listed by every generation the channel selects from then
on, in its manifest and in its index, with its digest until another attempt publishes the same path;
and the manifest and the index of a selected generation list the same paths.

The argument is the chain of contents: each selected manifest is the one before with the artifacts of
one attempt on top, and each selected index likewise.
-/

namespace PortageEngine.Publication

open List Library Library.Process Library.Overlay Library.Rows Library.Runs Library.Text Packages Storage

def Attempts.program (A : Attempts) (a : String) : Prog Op Reply (Except String (List Key)) :=
  (publishObjectGeneration A.ch (A.input a)).run

abbrev PublisherPool := Pool Bucket String Op Reply (Except String (List Key))

/-- The publications after some events, from a store in which nothing has been published. -/
def Attempts.publications (A : Attempts) (s : Bucket) (events : List (Event String Choice)) :
    PublisherPool :=
  run (stepPool Bucket.exec A.program) ⟨s, []⟩ events

/-- The staged index of every attempt is written with plain line feeds and lists its files. -/
structure Attempts.Staged (A : Attempts) : Prop where
  lineFeeds : ∀ a, PairFree '\r' '\n' (A.index a)
  paths : ∀ a path, path ∈ pathEntries (A.index a) ↔
    ∃ file ∈ (A.input a).files, file.relativePath = path

namespace Attempts

variable {A : Attempts} {s : Bucket}

/-! ## The chain of contents -/

theorem added_paths {a : String} {path : Text} :
    (∃ x ∈ A.added a, x.relativePath = path) ↔
      ∃ file ∈ (A.input a).files, file.relativePath = path := by
  simp [added, place, PublicationInput.artifacts]

theorem Indexed.plain (hstaged : A.Staged) {t : Text} (h : A.Indexed t) : PlainIndex t := by
  induction h with
  | empty => exact plainIndex_of_pairFree pairFree_nil
  | merge hbase hmerge ih =>
    rcases mergePackagesIndexes_spec A.ch.architecture_line ih
      (plainIndex_of_pairFree (hstaged.lineFeeds _)) hmerge with ⟨-, -, -, -, -, -, hplain⟩
    exact hplain

theorem Chain.paths (hstaged : A.Staged) {history : List ChannelPointer} (h : A.Chain history)
    {artifacts : List GenerationArtifact} {packages : Text}
    (hbase : A.Base history artifacts packages) (path : Text) :
    (∃ x ∈ artifacts, x.relativePath = path) ↔ path ∈ pathEntries packages := by
  induction history generalizing artifacts packages with
  | nil =>
    rcases hbase with ⟨rfl, rfl⟩
    have hnone : pathEntries [] = [] := by decide
    simp [hnone]
  | cons p before ih =>
    rcases h with ⟨⟨a, artifacts', packages', merged, manifest, hpublishes⟩, hchain⟩
    rcases hbase with ⟨m, hselects, rfl⟩
    rcases hselects.unique hpublishes.selects with ⟨rfl, rfl⟩
    have hplain := (hchain.indexed hpublishes.base).plain hstaged
    rw [pathEntries_mergePackagesIndexes A.ch.architecture_line hplain
      (plainIndex_of_pairFree (hstaged.lineFeeds a)) hpublishes.merge, ← ih hchain hpublishes.base, hstaged.paths, ← added_paths,
      hpublishes.listed]
    simp only [mem_sorted]
    exact mem_keys_overlay

/-- What a channel lists was staged by an attempt of one of its pointers, and lies in the generation of
that pointer. -/
theorem Chain.staged {history : List ChannelPointer} (h : A.Chain history)
    {artifacts : List GenerationArtifact} {packages : Text}
    (hbase : A.Base history artifacts packages) {x : GenerationArtifact} (hx : x ∈ artifacts) :
    ∃ q ∈ history, ∃ a, q.generationId = A.generation a ∧ ∃ file ∈ (A.input a).files,
      x.relativePath = file.relativePath ∧ x.sha256 = digestBytes (.bytes file.content) ∧
      ∀ g relative, x.objectKey = some (.published g relative) → g = q.generationId := by
  induction history generalizing artifacts packages with
  | nil => exact absurd (hbase.1 ▸ hx) not_mem_nil
  | cons p before ih =>
    rcases h with ⟨⟨a, artifacts', packages', merged, manifest, hpublishes⟩, hchain⟩
    rcases hbase with ⟨m, hselects, rfl⟩
    rcases hselects.unique hpublishes.selects with ⟨rfl, rfl⟩
    rw [hpublishes.listed, mem_sorted, mem_overlay hpublishes.distinct] at hx
    rcases hx with hx | ⟨hx, -⟩
    · rcases mem_map.mp hx with ⟨y, hy, hxy⟩
      rcases mem_map.mp hy with ⟨file, hfile, rfl⟩
      subst hxy
      exact ⟨p, mem_cons_self, a, hpublishes.generation, file, hfile, rfl, rfl,
        fun g relative hkey => (added_key hx hkey).trans hpublishes.generation.symm⟩
    · rcases ih hchain hpublishes.base hx with ⟨q, hq, hsource⟩
      exact ⟨q, mem_cons_of_mem p hq, hsource⟩

/-! ## Pools of publications -/

/-- What the parallel rule asks of publications. -/
theorem publisherRules : Rules A.Inv (fun _ => Extends) (fun _ => Extends)
    (fun a (r : Except String (List Key)) s => ∀ keys, r = .ok keys →
      ∃ p ∈ s.channel, p.generationId = A.generation a) where
  refl := fun _ _ => .refl
  trans := fun _ _ _ _ => .trans
  rely := fun _ _ _ _ _ _ h => h
  result := by
    intro a b r s s' _ _ h hr keys hkeys
    rcases hr keys hkeys with ⟨p, hp, hgeneration⟩
    rcases h.1 with ⟨new, hnew⟩
    exact ⟨p, by simp [hnew, hp], hgeneration⟩

theorem publications_safe (hfresh : A.Fresh s) (events : List (Event String Choice)) :
    PoolSafe Bucket.exec A.Inv (fun _ => Extends) (fun _ => Extends)
      (fun a (r : Except String (List Key)) s => ∀ keys, r = .ok keys →
        ∃ p ∈ s.channel, p.generationId = A.generation a) (A.publications s events) :=
  PoolSafe.run publisherRules (fun _ _ _ => ensures_publishObjectGeneration)
    ⟨inv_of_fresh hfresh, by simp⟩

/-- The store serves this manifest and this index to readers of the pointer. -/
structure Serves (s : Bucket) (p : ChannelPointer) (m : GenerationManifest) (t : Text) : Prop where
  manifest : s.lookup p.manifestKey = some (.manifest m)
  manifestDigest : digestBytes (.manifest m) = p.manifestSha256
  packages : s.lookup (.published p.generationId packagesName) = some (.bytes t)
  packagesDigest : digestBytes (.bytes t) = p.packagesSha256

/-- Only staged bytes are served, and all of them: whatever publications do, and wherever they fail or
end, the store has the manifest and the index of the newest pointer and of the one before, and under
the key of every artifact the bytes of a file that an attempt of the channel has staged for its path. -/
theorem served_bytes_staged (hfresh : A.Fresh s)
    (events : List (Event String Choice)) :
    let b := (A.publications s events).state
    ∀ p ∈ b.channel.take 2, ∃ m t, Serves b p m t ∧ ∀ x ∈ m.artifacts, ∃ q ∈ b.channel, ∃ a file relative,
      q.generationId = A.ch.generation a ∧ file ∈ (A.input a).files ∧
      x.relativePath = file.relativePath ∧ x.sha256 = digestBytes (.bytes file.content) ∧
      x.objectKey = some (.published q.generationId relative) ∧
      b.lookup (.published q.generationId relative) = some (.bytes file.content) := by
  intro b p hp
  have hinv := (publications_safe hfresh events).inv
  rcases hinv.complete p (mem_of_mem_take hp) with ⟨m, t, hselects, hmanifest, hpackages, hartifacts⟩
  refine ⟨m, t, ⟨hselects.manifestKey ▸ hmanifest, hselects.manifestDigest, hpackages,
    hselects.packagesDigest⟩, fun x hx => ?_⟩
  rcases append_of_mem (mem_of_mem_take hp) with ⟨later, before, hsplit⟩
  have hchain := hinv.chain
  rw [show b.channel = later ++ p :: before from hsplit] at hchain
  rcases hchain.suffix.staged ⟨m, hselects, rfl⟩ hx with
    ⟨q, hq, a, hgeneration, file, hfile, hpath, hdigest, hkey⟩
  rcases hartifacts x hx with ⟨g, relative, content, hobject, hlookup, hcontent, -⟩
  cases hkey g relative hobject
  cases digestBytes_injective (hcontent.symm.trans hdigest)
  exact ⟨q, hsplit ▸ mem_append_right later hq, a, file, relative, hgeneration, hfile, hpath, hdigest,
    hobject, hlookup⟩

end Attempts

/-! ## Two attempts -/

def exampleChannel : BinhostChannel where
  ext := {
    parseUrl := fun _ => none
    cleanPath := fun path => path
    policyHash := fun _ => "" }
  binhostPath := "releases/x/binpackages/g/t"
  architecture := "x"
  valid := by decide +kernel
  encodedLength := fun _ => 1

def exampleTokenA : Token := "aaaaaaaaaaaaaaaaaaaaaaaaaaaaaaaa"
def exampleTokenB : Token := "bbbbbbbbbbbbbbbbbbbbbbbbbbbbbbbb"
def exampleIndexA : Text := "VERSION: 0\n\nCPV: c\nSIZE: 1\nPATH: p".toList
def exampleIndexB : Text := "VERSION: 0\n\nCPV: c\nSIZE: 1\nPATH: q".toList

/-- Attempt `B` publishes the path `q`, every other attempt the path `p`. -/
def exampleInput (a : String) : PublicationInput where
  attemptId := a
  createdAt := 1000000
  profileId := ""
  signed := false
  signingKeyId := ""
  provenance := ⟨"c/p", .atom 0, "native-gentoo", "", "", "", "", []⟩
  token := if a = "B" then exampleTokenB else exampleTokenA
  files := if a = "B" then [⟨['q'], ['2']⟩] else [⟨['p'], ['1']⟩]

def exampleAttempts : Attempts where
  ch := exampleChannel
  input := exampleInput
  named := fun _ => rfl
  index := fun a => if a = "B" then exampleIndexB else exampleIndexA

/-- The quarantine of an attempt: the capability and the staged index. -/
def exampleQuarantine (a : String) : List StoredObject :=
  let input := exampleInput a
  [⟨.quarantine input.token quarantineCapabilityName, .capability {
      token := input.token
      generation := .unsigned
      architecture := "x"
      packagesSha256 := digestBytes (.bytes (exampleAttempts.index a))
      artifacts := input.artifacts exampleChannel
      expiresAt := 1000 }⟩,
    ⟨.quarantine input.token packagesName, .bytes (exampleAttempts.index a)⟩]

def exampleBucket : Bucket where
  clock := 1
  objects := exampleQuarantine "A" ++ exampleQuarantine "B"
  channel := []

def promptly : Choice := ⟨.performed, 1⟩

/-- A publication in place `i` of the pool, from its start to its end. -/
def publishCompletely (a : String) (i : Nat) : List (Event String Choice) :=
  .start a :: List.replicate 12 (.call i promptly)

theorem exampleAttempts_cases {a : String} :
    (exampleAttempts.index a = exampleIndexB ∧ (exampleAttempts.input a).token = exampleTokenB ∧
      (exampleAttempts.input a).files = [⟨['q'], ['2']⟩]) ∨
    (exampleAttempts.index a = exampleIndexA ∧ (exampleAttempts.input a).token = exampleTokenA ∧
      (exampleAttempts.input a).files = [⟨['p'], ['1']⟩]) := by
  by_cases ha : a = "B"
  · exact Or.inl ⟨if_pos ha, if_pos ha, if_pos ha⟩
  · exact Or.inr ⟨if_neg ha, if_neg ha, if_neg ha⟩

theorem exampleBucket_fresh : exampleAttempts.Fresh exampleBucket := by
  have hA : exampleBucket.lookup (.quarantine exampleTokenA packagesName) =
      some (.bytes exampleIndexA) := by decide +kernel
  have hB : exampleBucket.lookup (.quarantine exampleTokenB packagesName) =
      some (.bytes exampleIndexB) := by decide +kernel
  refine ⟨?_, fun _ _ => rfl, rfl⟩
  intro a t ht
  rcases exampleAttempts_cases with ⟨hindex, htoken, -⟩ | ⟨hindex, htoken, -⟩
  · rw [htoken] at ht
    cases ht
    exact hindex.symm
  · rw [htoken, hA] at ht
    cases ht
    exact hindex.symm

theorem served_bytes_staged_example :
    let b := (exampleAttempts.publications exampleBucket (publishCompletely "A" 0)).state
    b.channel.length = 1 ∧ ∀ p ∈ b.channel.take 2, ∃ m t, Attempts.Serves b p m t := by
  refine ⟨by decide +kernel, fun p hp => ?_⟩
  rcases Attempts.served_bytes_staged exampleBucket_fresh (publishCompletely "A" 0) p hp with
    ⟨m, t, hserves, -⟩
  exact ⟨m, t, hserves⟩

end PortageEngine.Publication
