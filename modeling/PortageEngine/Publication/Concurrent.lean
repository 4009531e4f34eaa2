import PortageEngine.Publication.Channel

/-!
# A publication among others

Nothing that publications do takes anything away: objects are added to the store and pointers to the
channel (`Extends`), and that is all a publication knows of the others.
`ensures_publishObjectGeneration` goes through a publication request by request: each one keeps the
invariant of the channel, and one that returns has selected its generation.
-/

namespace PortageEngine.Publication.Attempts

open List Library Library.Process Library.Overlay Library.Rows Library.Runs Packages Storage
open Storage.Bucket

variable {A : Attempts} {α : Type} {Q : α → Bucket → Prop} {s s' : Bucket} {c : Choice} {key : Key}
  {message : String} {report : String → String} {relative : Text} {ch : BinhostChannel} {a : String}
  {document : Document}

/-- The channel has new pointers at most, and every object is still there. -/
def Extends (s s' : Bucket) : Prop :=
  (∃ new, s'.channel = new ++ s.channel) ∧
    ∀ key d, s.lookup key = some d → s'.lookup key = some d

theorem Extends.refl : Extends s s :=
  ⟨⟨[], rfl⟩, fun _ _ hd => hd⟩

theorem Extends.trans {s₁ s₂ s₃ : Bucket} (h : Extends s₁ s₂) (h' : Extends s₂ s₃) :
    Extends s₁ s₃ := by
  rcases h with ⟨⟨new, hnew⟩, hkeeps⟩
  rcases h' with ⟨⟨newer, hnewer⟩, hkeeps'⟩
  exact ⟨⟨newer ++ new, by rw [hnewer, hnew, append_assoc]⟩,
    fun key d hd => hkeeps' key d (hkeeps key d hd)⟩

/-- Every request extends what is there, however it goes. -/
theorem exec_extends (c : Choice) (op : Op) (s : Bucket) : Extends s (exec c op s).1 := by
  rcases exec_cases c op s with h | ⟨_, _, -, hnone, h⟩ | ⟨p, -, h⟩ <;> rw [h]
  · exact ⟨⟨[], rfl⟩, fun _ _ hd => hd⟩
  · exact ⟨⟨[], rfl⟩, fun _ _ hd => store_keeps (b := s.tick _) hnone hd⟩
  · exact ⟨⟨[p], rfl⟩, fun _ _ hd => hd⟩

/-- What a program returns meets `Q`, among other publications. -/
abbrev Ens (A : Attempts) (p : Action α) (Q : α → Bucket → Prop) (s : Bucket) : Prop :=
  Ensures exec A.Inv Extends Extends p Q s

/-! ## Requests that read -/

theorem ens_read {op : Op} {Q : Reply → Bucket → Prop} (hreads : op.reads = true)
    (h : ∀ s' c, Extends s (s'.tick c.delay) → A.Inv (s'.tick c.delay) →
      Q (exec c op s').2 (s'.tick c.delay)) :
    A.Ens (request op) Q s := by
  refine ensures_ask ?_
  intro s' hrely hinv c
  have hstep := exec_extends c op s'
  rw [exec_reads hreads] at hstep ⊢
  exact ⟨hstep, hinv.tick _, h s' c (hrely.trans hstep) (hinv.tick _)⟩

theorem ens_downloadBytes {limit : Nat} {Q : Document → Bucket → Prop}
    (h : ∀ s' d, Extends s s' → A.Inv s' → s'.content key = some d → Q d s') :
    A.Ens (downloadBytes A.ch report key limit) Q s := by
  refine ensures_bind (ens_read rfl ?_)
  intro s' c hrely hinv
  cases hreply : (exec c (.download key) s').2 with
  | document d =>
    by_cases hlength : A.ch.documentLength d ≤ limit
    · simp only [hlength, if_true]
      have hcontent := exec_download hreply
      exact ensures_pure (h _ d hrely hinv (tick_content.trans hcontent))
    · simp only [hlength, if_false]
      exact ensures_throw
  | _ => exact ensures_throw

theorem ens_currentTime {Q : Time → Bucket → Prop} (h : ∀ s' t, Extends s s' → Q t s') :
    A.Ens currentTime Q s := by
  refine ensures_bind (ens_read rfl ?_)
  intro s' c hrely _
  cases hreply : (exec c .now s').2 <;> exact ensures_pure (h _ _ hrely)

theorem ens_checked {x : Except String α} (h : ∀ a, x = .ok a → Q a s) : A.Ens (checked x) Q s :=
  ensures_except h

/-! ## Loading the staged input -/

theorem content_quarantine {token : Token} :
    s.content (.quarantine token relative) = s.lookup (.quarantine token relative) := rfl

theorem publishedGenerationKey_eq {g : GenerationId} {path : Text}
    (h : publishedGenerationKey ch g path = .ok key) :
    ∃ relative, cleanGenerationRelativePath path = .ok relative ∧ key = .published g relative := by
  simp only [publishedGenerationKey, ch.valid, bind_eq_ok] at h
  rcases h with ⟨-, -, relative, hclean, hkey⟩
  cases hkey
  exact ⟨relative, hclean, rfl⟩

theorem quarantineGenerationKey_eq {token : Token} {path : Text}
    (hclean : cleanGenerationRelativePath path = .ok relative)
    (h : quarantineGenerationKey token path = .ok key) : key = .quarantine token relative := by
  simp only [quarantineGenerationKey, bind_eq_ok, hclean] at h
  rcases h with ⟨-, -, relative', hrelative, hkey⟩
  cases hrelative
  cases hkey
  rfl

theorem cleanGenerationRelativePath_packages :
    cleanGenerationRelativePath packagesName = .ok packagesName := by decide +kernel

theorem cleanGenerationRelativePath_manifest :
    cleanGenerationRelativePath generationManifestName = .ok generationManifestName := by
  decide +kernel

theorem keyed_added (h : Keyed GenerationArtifact.relativePath ((A.input a).artifacts A.ch)) :
    Keyed GenerationArtifact.relativePath (A.added a) := by
  have hpaths : (A.added a).map GenerationArtifact.relativePath =
      ((A.input a).artifacts A.ch).map GenerationArtifact.relativePath := by
    simp [added, place]
  rw [Keyed, hpaths]
  exact h

theorem parseQuarantineManifest_artifacts {now : Time} {capability : QuarantineManifest}
    (h : parseQuarantineManifest document now = .ok capability) :
    (∀ x ∈ capability.artifacts, x.validate = .ok ()) ∧
      Keyed GenerationArtifact.relativePath capability.artifacts := by
  unfold parseQuarantineManifest at h
  split at h
  · simp only [QuarantineManifest.validate, bind_eq_ok, forDistinct_eq_ok] at h
    rcases h with ⟨-, ⟨-, -, -, -, hvalid, hkeyed, -⟩, hcapability⟩
    cases hcapability
    exact ⟨hvalid, hkeyed⟩
  · cases h

theorem ens_loadVerifiedPublicationInput {Q : List GenerationArtifact × Text → Bucket → Prop}
    (h : ∀ s', (∀ x ∈ (A.input a).artifacts A.ch, x.validate = .ok ()) →
      Keyed GenerationArtifact.relativePath (A.added a) →
      Q ((A.input a).artifacts A.ch, A.index a) s') :
    A.Ens (loadVerifiedPublicationInput A.ch (A.input a)) Q s := by
  refine ensures_bind (ens_checked fun capabilityKey _ => ?_)
  refine ensures_bind (ens_downloadBytes fun s₁ document _ _ _ => ?_)
  refine ensures_bind (ens_currentTime fun s₂ now _ => ?_)
  refine ensures_bind (ens_checked fun capability hcapability => ?_)
  refine ensures_bind (ens_checked fun _ hsame => ?_)
  refine ensures_bind (ens_checked fun packagesKey hkey => ?_)
  refine ensures_bind (ens_downloadBytes fun s₃ packages _ hinv₃ hcontent => ?_)
  rw [quarantineGenerationKey_eq cleanGenerationRelativePath_packages hkey,
    content_quarantine] at hcontent
  have hartifacts : capability.artifacts = (A.input a).artifacts A.ch := by simpa using hsame
  have hfacts : (∀ x ∈ capability.artifacts, x.validate = .ok ()) ∧
      Keyed GenerationArtifact.relativePath capability.artifacts := by
    cases hparse : parseQuarantineManifest document now with
    | error e => simp [hparse] at hcapability
    | ok parsed =>
      simp only [hparse] at hcapability
      split at hcapability
      · cases hcapability
        exact parseQuarantineManifest_artifacts hparse
      · cases hcapability
  rw [hartifacts] at hfacts
  cases packages with
  | bytes text =>
    have htext := hinv₃.quarantined a text hcontent
    subst htext
    by_cases hdigest : digestBytes (.bytes (A.index a)) = capability.packagesSha256
    · simp only [hdigest, if_true]
      exact ensures_pure (h s₃ hfacts.1 (keyed_added hfacts.2))
    · simp only [hdigest, if_false]
      exact ensures_throw
  | _ => exact ensures_throw

/-! ## Loading what the channel selects -/

/-- What was read of the channel is still at the bottom of its history. -/
def Snapshot (A : Attempts) (previous : PreviousPublication) (s : Bucket) : Prop :=
  ∃ new old, s.channel = new ++ old ∧ previous.version = old.length ∧
    previous.pointer = old.head? ∧ A.Base old previous.artifacts previous.packages

variable {previous : PreviousPublication} {pointer p : ChannelPointer}

theorem Snapshot.grown (h : A.Snapshot previous s)
    (hgrown : Extends s s') : A.Snapshot previous s' := by
  rcases h with ⟨new, old, hchannel, hrest⟩
  rcases hgrown.1 with ⟨newer, hnewer⟩
  exact ⟨newer ++ new, old, by rw [hnewer, hchannel, append_assoc], hrest⟩

theorem ens_downloadVersionBytes {limit : Nat} {Q : Document × Nat → Bucket → Prop}
    (h : ∀ s' p before, s'.channel = p :: before →
      Q (.pointer p, s'.channel.length) s') :
    A.Ens (downloadVersionBytes A.ch report limit) Q s := by
  refine ensures_bind (ens_read rfl ?_)
  intro s' c _ _
  cases hreply : (exec c .downloadVersion s').2 with
  | version d v =>
    rcases exec_downloadVersion hreply with ⟨p, before, hchannel, rfl, rfl⟩
    by_cases hlength : A.ch.documentLength (.pointer p) ≤ limit
    · simp only [hlength, if_true]
      exact ensures_pure (h (s'.tick c.delay) p before hchannel)
    · simp only [hlength, if_false]
      exact ensures_throw
  | _ => exact ensures_throw

theorem checkPointer_ok
    (h : checkPointer ch message document = .ok pointer) :
    document = .pointer pointer ∧ pointer.validate ch.ext = .ok () ∧
      pointer.binhostPath = ch.binhostPath ∧ pointer.architecture = ch.architecture := by
  unfold checkPointer at h
  split at h
  · cases h
  rename_i parsed hparse
  split at h
  · rename_i hnames
    cases h
    unfold parseChannelPointer at hparse
    split at hparse
    · rw [bind_eq_ok] at hparse
      rcases hparse with ⟨⟨⟩, hvalid, hpointer⟩
      cases hpointer
      exact ⟨rfl, hvalid, hnames⟩
    · cases hparse
  · cases h

variable {manifest : GenerationManifest}

theorem parseGenerationManifest_ok (h : parseGenerationManifest ch document = .ok manifest) :
    document = .manifest manifest ∧ manifest.validate ch.ext = .ok () := by
  unfold parseGenerationManifest at h
  split at h
  · rw [bind_eq_ok] at h
    rcases h with ⟨⟨⟩, hvalid, hmanifest⟩
    cases hmanifest
    exact ⟨rfl, hvalid⟩
  · cases h

theorem checkManifest_ok
    (h : checkManifest ch message pointer document = .ok manifest) :
    document = .manifest manifest ∧ manifest.validate ch.ext = .ok () ∧
      manifest.generationId = pointer.generationId ∧
      manifest.packagesSha256 = pointer.packagesSha256 := by
  unfold checkManifest at h
  split at h
  · cases h
  rename_i parsed hparse
  split at h
  · rename_i hnames
    cases h
    rcases parseGenerationManifest_ok hparse with ⟨hdocument, hvalid⟩
    exact ⟨hdocument, hvalid, hnames⟩
  · cases h

theorem selects_of_checks {message' : String} {manifestDocument : Document} {m : GenerationManifest} {t : Text}
    (hpointer : checkPointer A.ch message document = .ok p)
    (hdigest : digestBytes manifestDocument = p.manifestSha256)
    (hmanifest : checkManifest A.ch message' p manifestDocument = .ok m)
    (hpackages : digestBytes (.bytes t) = p.packagesSha256) : A.Selects p m t := by
  rcases checkPointer_ok hpointer with ⟨-, hvalid, hpath, harch⟩
  rcases checkManifest_ok hmanifest with ⟨hdocument, hmvalid, hgeneration, hmpackages⟩
  exact ⟨hdocument ▸ hdigest, hpackages, hmpackages, hgeneration, hmvalid, hvalid, hpath, harch⟩

theorem ens_loadPreviousPublication {Q : PreviousPublication → Bucket → Prop}
    (h : ∀ s' previous, A.Inv s' → A.Snapshot previous s' → Q previous s') :
    A.Ens (loadPreviousPublication A.ch) Q s := by
  refine ensures_bind (ens_checked fun channelKey hchannelKey => ?_)
  have hkey : channelKey = .channel := by
    simp only [stableChannelKey, bind_eq_ok] at hchannelKey
    rcases hchannelKey with ⟨-, -, hkey⟩
    cases hkey
    rfl
  subst hkey
  refine ensures_bind (ens_read rfl ?_)
  intro s₀ c _ hinv₀
  cases hreply : (exec c (.inspect .channel) s₀).2 with
  | found answer =>
    have hanswer := exec_inspect hreply
    cases answer with
    | false =>
      -- Nothing is selected yet: the version to swap is `0`.
      have hempty : s₀.channel = [] := by
        cases hchannel : s₀.channel with
        | nil => rfl
        | cons p before => simp [Bucket.content, hchannel] at hanswer
      exact ensures_pure (h _ _ hinv₀ ⟨[], [], hempty, rfl, rfl, rfl, rfl⟩)
    | true =>
      refine ensures_bind (ens_downloadVersionBytes fun s₁ p before hchannel => ?_)
      refine ensures_bind (ens_checked fun pointer hpointer => ?_)
      have hp : p = pointer := by
        have hdocument := (checkPointer_ok hpointer).1
        cases hdocument
        rfl
      subst hp
      refine ensures_bind (ens_downloadBytes fun s₂ manifestDocument hrely₂ _ _ => ?_)
      refine ensures_bind (ens_checked fun _ hdigest => ?_)
      refine ensures_bind (ens_checked fun manifest hmanifest => ?_)
      refine ensures_bind (ens_checked fun packagesKey _ => ?_)
      refine ensures_bind (ens_downloadBytes fun s₃ packages hrely₃ hinv₃ _ => ?_)
      cases packages with
      | bytes text =>
        by_cases hpackages : digestBytes (.bytes text) = p.packagesSha256
        · simp only [hpackages, if_true]
          have hselects : A.Selects p manifest text :=
            selects_of_checks hpointer (by simpa using hdigest) hmanifest hpackages
          have hsnapshot : A.Snapshot ⟨some p, manifest.artifacts, text, s₁.channel.length⟩ s₁ :=
            ⟨[], s₁.channel, rfl, rfl, by rw [hchannel]; rfl,
              by rw [hchannel]; exact ⟨manifest, hselects, rfl⟩⟩
          refine ensures_pure (h s₃ _ hinv₃ ?_)
          exact hsnapshot.grown (hrely₂.trans hrely₃)
        · simp only [hpackages, if_false]
          exact ensures_throw
      | _ => exact ensures_throw
  | _ => exact ensures_throw

/-! ## Uploads -/

theorem ens_uploadBytes {d : Document} {Q : Unit → Bucket → Prop} (hown : A.Own a relative d)
    (h : ∀ s', Extends s s' → s'.lookup (.published (A.generation a) relative) = some d → Q () s') :
    A.Ens (uploadBytes report (.published (A.generation a) relative) d) Q s := by
  intro s₀ hrely hinv c
  have hstep := exec_extends c (.upload (.published (A.generation a) relative) d) s₀
  refine ⟨hstep, ?_, ?_⟩
  · rcases exec_cases c (.upload (.published (A.generation a) relative) d) s₀ with
      hsame | ⟨key, d', hop, hnone, hstore⟩ | ⟨p, hop, -⟩
    · rw [hsame]
      exact hinv.tick _
    · cases hop
      rw [hstore]
      exact (hinv.tick _).store hnone hown
    · cases hop
  cases hreply : (exec c (.upload (.published (A.generation a) relative) d) s₀).2 with
  | done => exact ensures_pure (h _ (hrely.trans hstep) (exec_upload hreply))
  | _ => exact ensures_throw

/-- The artifact's object is in the store, under the key the artifact gets. -/
def Placed (A : Attempts) (a : String) (artifact : GenerationArtifact) (file : StagedFile)
    (s : Bucket) : Prop :=
  ∃ relative, (A.place a artifact).objectKey = some (.published (A.generation a) relative) ∧
    s.lookup (.published (A.generation a) relative) = some (.bytes file.content)

theorem ens_uploadStagedFiles {pairs : List (GenerationArtifact × StagedFile)}
    {Q : List GenerationArtifact → Bucket → Prop}
    (hpairs : ∀ pair ∈ pairs, pair.2 ∈ (A.input a).files ∧
      pair.1.relativePath = pair.2.relativePath ∧ pair.1.validate = .ok ())
    (h : ∀ s', Extends s s' →
      (∀ pair ∈ pairs, A.Placed a pair.1 pair.2 s') →
      Q (pairs.map fun pair => A.place a pair.1) s') :
    A.Ens (uploadStagedFiles A.ch (A.generation a) pairs) Q s := by
  induction pairs generalizing s Q with
  | nil => exact ensures_pure (h s .refl (by simp))
  | cons pair pairs ih =>
    rcases hpairs pair (by simp) with ⟨hfile, hpath, hvalid⟩
    refine ensures_bind (ens_checked fun key hkey => ?_)
    rcases publishedGenerationKey_eq hkey with ⟨relative, hclean, rfl⟩
    have hname : relative ≠ packagesName := by
      simp only [GenerationArtifact.validate, hclean, require_eq_ok, Bool.and_eq_true,
        decide_eq_true_eq] at hvalid
      exact hvalid.1
    have hplace : (A.place a pair.1).objectKey = some (.published (A.generation a) relative) := by
      simp [place, hkey, Except.toOption]
    refine ensures_bind (ens_uploadBytes (Own.artifact hfile (hpath ▸ hclean) hname)
      fun s₁ hrely₁ hstored => ?_)
    refine ensures_bind (ih (fun other hother => hpairs other (by simp [hother])) ?_)
    intro s₂ hrely₂ hplaced
    have hcons : { pair.1 with objectKey := some (Key.published (A.generation a) relative) } =
        A.place a pair.1 := by
      simp [place, hkey, Except.toOption]
    refine ensures_pure ?_
    rw [hcons]
    refine h s₂ (hrely₁.trans hrely₂) ?_
    intro other hother
    rcases mem_cons.mp hother with rfl | hother
    · exact ⟨relative, hplace, hrely₂.2 _ _ hstored⟩
    · exact hplaced other hother

/-! ## The whole publication -/

theorem ens_uploadPublicationMetadata {artifacts : List GenerationArtifact} {base merged : Text}
    {Q : GenerationManifest → Bucket → Prop} (hbase : A.Indexed base)
    (hmerge : mergePackagesIndexes base (A.index a) A.ch.architecture.toList
      (A.input a).timestamp = .ok merged) (hkeyed : Keyed GenerationArtifact.relativePath artifacts)
    (h : ∀ s' manifest, Extends s s' →
      s'.lookup (.published (A.generation a) packagesName) = some (.bytes merged) →
      s'.lookup (.published (A.generation a) generationManifestName) = some (.manifest manifest) →
      manifest.validate A.ch.ext = .ok () → (∃ key, manifest = generationManifest A.ch (A.input a)
        (sorted GenerationArtifact.relativePath
          (overlay GenerationArtifact.relativePath artifacts (A.added a))) merged key) →
      Q manifest s') :
    A.Ens (uploadPublicationMetadata A.ch (A.input a)
      (sorted GenerationArtifact.relativePath
        (overlay GenerationArtifact.relativePath artifacts (A.added a))) merged) Q s := by
  have hgeneration : A.ch.generation (A.input a).attemptId = A.generation a := by
    rw [A.named]
    rfl
  unfold uploadPublicationMetadata
  simp only [hgeneration]
  refine ensures_bind (ens_checked fun packagesKey hpackagesKey => ?_)
  rcases publishedGenerationKey_eq hpackagesKey with ⟨relative, hclean, rfl⟩
  cases hclean.symm.trans cleanGenerationRelativePath_packages
  refine ensures_bind (ens_uploadBytes (Own.packages hbase hmerge)
    fun s₁ hrely₁ hpackages => ?_)
  refine ensures_bind (ens_checked fun key hkey => ?_)
  refine ensures_bind (ens_checked fun _ hvalid => ?_)
  refine ensures_bind (ens_checked fun manifestKey hmanifestKey => ?_)
  rcases publishedGenerationKey_eq hmanifestKey with ⟨relative', hclean', rfl⟩
  cases hclean'.symm.trans cleanGenerationRelativePath_manifest
  refine ensures_bind (ens_uploadBytes (Own.manifest hkeyed hkey)
    fun s₂ hrely₂ hmanifest => ?_)
  exact ensures_pure (h s₂ _ (hrely₁.trans hrely₂) (hrely₂.2 _ _ hpackages) hmanifest hvalid ⟨key, rfl⟩)

theorem zip_artifacts :
    ((A.input a).artifacts A.ch).zip (A.input a).files = (A.input a).files.map fun file =>
      ({ relativePath := file.relativePath
         sha256 := digestBytes (.bytes file.content)
         size := A.ch.documentLength (.bytes file.content)
         objectKey := none }, file) :=
  map_prod_right_eq_zip.symm

theorem ens_compareAndSwapBytes
    {merged : Text} {Q : Unit → Bucket → Prop}
    (hsnapshot : A.Snapshot previous s)
    (hpublishes : ∀ old, A.Base old previous.artifacts previous.packages →
      previous.pointer = old.head? →
      A.Publishes a old p previous.artifacts previous.packages merged manifest)
    (hplaced : ∀ pair ∈ ((A.input a).artifacts A.ch).zip (A.input a).files,
      A.Placed a pair.1 pair.2 s)
    (hpackages : s.lookup (.published (A.generation a) packagesName) = some (.bytes merged))
    (hmanifest : s.lookup (.published (A.generation a) generationManifestName) =
      some (.manifest manifest))
    (h : ∀ s', (∃ p ∈ s'.channel, p.generationId = A.generation a) → Q () s') :
    A.Ens (compareAndSwapBytes report p previous.version) Q s := by
  intro s₀ hrely hinv c
  rcases hsnapshot.grown hrely with ⟨new, old, hchannel, hversion, hpointer, hbase⟩
  refine ⟨exec_extends c _ s₀, ?_, ?_⟩
  · rcases exec_cases c (.compareAndSwap p previous.version) s₀ with
      hsame | ⟨_, _, hop, -⟩ | ⟨p', hop, hselect⟩
    · rw [hsame]
      exact hinv.tick _
    · cases hop
    · simp only [Op.compareAndSwap.injEq] at hop
      rcases hop with ⟨rfl, hsame⟩
      -- The version is the one that was read, so nobody has selected anything since.
      have hold : s₀.channel = old := by
        have hnew : new = [] := by
          rw [hchannel, length_append] at hsame
          exact length_eq_zero_iff.mp (by omega)
        rw [hchannel, hnew, nil_append]
      rw [hselect]
      refine (hinv.tick c.delay).select (hold ▸ hpublishes old hbase hpointer)
        (hrely.2 _ _ hmanifest) (hrely.2 _ _ hpackages) ?_
      intro x hx
      rcases mem_map.mp hx with ⟨artifact, hartifact, rfl⟩
      rcases mem_map.mp hartifact with ⟨file, hfile, rfl⟩
      rcases hplaced _ (by rw [zip_artifacts]; exact mem_map_of_mem hfile) with
        ⟨relative, hkey, hstored⟩
      exact ⟨_, relative, file.content, hkey, hrely.2 _ _ hstored, rfl, rfl⟩
  cases hreply : (exec c (.compareAndSwap p previous.version) s₀).2 with
  | done =>
    refine ensures_pure (h _ ⟨p, ?_, (hpublishes old hbase hpointer).generation⟩)
    rw [exec_compareAndSwap hreply]
    exact mem_cons_self
  | _ => exact ensures_throw

theorem ensures_publishObjectGeneration :
    A.Ens (publishObjectGeneration A.ch (A.input a))
      (fun _ s' => ∃ p ∈ s'.channel, p.generationId = A.generation a) s := by
  have hgeneration : A.ch.generation (A.input a).attemptId = A.generation a := by
    rw [A.named]
    rfl
  unfold publishObjectGeneration
  simp only [hgeneration]
  refine ensures_bind (ens_loadVerifiedPublicationInput fun s₁ hvalid hdistinct => ?_)
  refine ensures_bind (ens_loadPreviousPublication fun s₂ previous hinv₂ hsnapshot => ?_)
  by_cases hselected : previous.pointer.map ChannelPointer.generationId = some (A.generation a)
  · -- The channel selects this attempt already.
    simp only [hselected, if_true]
    refine ens_checked fun keys _ => ?_
    rcases hsnapshot with ⟨new, old, hchannel, -, hpointer, -⟩
    rw [hpointer] at hselected
    rcases Option.map_eq_some_iff.mp hselected with ⟨p, hp, hgen⟩
    exact ⟨p, by rw [hchannel]; exact mem_append_right _ (mem_of_mem_head? hp), hgen⟩
  simp only [hselected, if_false]
  refine ensures_bind (ens_checked fun merged hmerged => ?_)
  rw [mapError_succeeds_iff] at hmerged
  have hsource : A.Indexed previous.packages ∧
      Keyed GenerationArtifact.relativePath previous.artifacts := by
    rcases hsnapshot with ⟨new, old, hchannel, -, -, hbase⟩
    exact ⟨(Chain.suffix (hchannel ▸ hinv₂.chain)).indexed hbase, hbase.keyed⟩
  refine ensures_bind (ensures_bind (ens_uploadStagedFiles ?_
    fun s₃ hrely₃ hplaced => ensures_pure ?_))
  · intro pair hpair
    rw [zip_artifacts] at hpair
    rcases mem_map.mp hpair with ⟨file, hfile, rfl⟩
    exact ⟨hfile, rfl, hvalid _ (mem_map_of_mem hfile)⟩
  have hadded : ((((A.input a).artifacts A.ch).zip (A.input a).files).map fun pair =>
      A.place a pair.1) = A.added a := by
    rw [zip_artifacts]
    simp [added, PublicationInput.artifacts]
  rw [hadded]
  refine ensures_bind (ens_uploadPublicationMetadata hsource.1 hmerged hsource.2 ?_)
  rintro s₄ manifest hrely₄ hpackages hmanifest hmvalid ⟨key, rfl⟩
  refine ensures_bind (ens_currentTime fun s₅ now hrely₅ => ?_)
  refine ensures_bind (ens_checked fun _ hpvalid => ?_)
  have hrely : Extends s₃ s₅ := hrely₄.trans hrely₅
  refine ensures_bind (ens_compareAndSwapBytes (s := s₅)
    (hsnapshot.grown (hrely₃.trans hrely)) ?_ ?_ (hrely₅.2 _ _ hpackages) (hrely₅.2 _ _ hmanifest)
    fun s₆ hselected => ?_)
  · intro old hbase hpointer
    exact {
      base := hbase
      merge := hmerged
      listed := rfl
      distinct := hdistinct
      selects := ⟨rfl, rfl, rfl, rfl, hmvalid, hpvalid, rfl, rfl⟩
      generation := hgeneration
      previous := by rw [← hpointer]; rfl }
  · intro pair hpair
    rcases hplaced pair hpair with ⟨relative, hkey, hstored⟩
    exact ⟨relative, hkey, hrely.2 _ _ hstored⟩
  · exact ens_checked fun _ _ => hselected

end PortageEngine.Publication.Attempts
