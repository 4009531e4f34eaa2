import PortageEngine.Gateway.Spool

/-!
# What an upload request relies on and guarantees

`Held` and `Done` say what the row of the upload makes of a fence.  A request that has not committed
relies on the others to leave the file of its fence alone while the upload is held under it; before
its commit it may do what it likes with that file, and at the commit the file holds what is recorded.
A request that has committed, or has found the upload completed, relies on the row being final.

The calls are those that meet two conditions (`discardsSpare`): a request discards no generation of
another one that is needed, and a commit that is reported as an error has not happened.
-/

namespace PortageEngine.Gateway

open Library Library.Rows Library.Runs Library.Process Library.Decimal
open BuildCatalog (isLowerHex)
open Ledger (Time)
open Storage (Outcome)

/-! ## What a call does to an upload -/

inductive UploadStep (op : GatewayOp) (u : Upload) : Upload → Prop
  | kept : UploadStep op u u
  | canceled (hstate : u.pending = true) : UploadStep op u u.cancel
  | claimed (l : Ledger) (i : Identity) (lease now : Time) (hop : op = .claimUpload l i u.id lease now)
      (hstate : u.pending = true) : UploadStep op u (u.receive (now + lease))
  | finished (l : Ledger) (i : Identity) (digest : String) (size : Nat) (now : Time)
      (hop : op = .completeUpload l i u.id u.fence digest size now) (hstate : u.state = .uploading) :
      UploadStep op u (u.finish (lowerCase (trimSpace digest)) size)

def Upload.unclaimed (u : Upload) : Prop :=
  u.fence = 0 ∧ u.state = .ready

section Rows

variable {ext : Externals} {t t' : Tables} {op : GatewayOp} {u u' : Upload}

theorem evolves_uploads (hkeyed : Keyed Upload.id t.uploads) (h : GatewayStep ext t op t') :
    Evolves (UploadStep op) Upload.unclaimed t.uploads t'.uploads := by
  have hsame : Evolves (UploadStep op) Upload.unclaimed t.uploads t.uploads :=
    Evolves.refl fun _ => .kept
  have hcancel : ∀ p : Upload → Bool, (∀ u, p u = true → u.pending = true) →
      Evolves (UploadStep op) Upload.unclaimed t.uploads (update p Upload.cancel t.uploads) :=
    fun p hp => evolves_update (fun _ => .kept) fun u _ hu => .canceled (hp u hu)
  cases h with
  | revoked op hop certificate session command upload reason
  | issuerRevoked fingerprint reason name session command upload text =>
    exact hcancel _ fun u hu => (Bool.and_eq_true _ _ ▸ hu).2
  | uploadCanceled i id fence held hheld =>
    refine hcancel _ fun u hu => ?_
    simp [Upload.pending, (hheld u hu).2.1]
  | uploadAdded i id destination maxBytes s hs hfresh => exact hsame.cons ⟨rfl, rfl⟩
  | uploadClaimed l i id lease now u hu hid hstate =>
    refine evolves_update (fun _ => .kept) ?_
    intro k hk hkid
    have hku : k = u := hkeyed.eq hk hu (of_decide_eq_true hkid)
    subst hku
    refine .claimed l i lease now (by rw [hid]) ?_
    simpa [Upload.pending] using hstate
  | uploadFinished l i id fence digest size now =>
    refine evolves_update (fun _ => .kept) ?_
    intro k _ haccepts
    simp only [acceptsUpload, Bool.and_eq_true, decide_eq_true_eq] at haccepts
    rcases haccepts with ⟨⟨⟨⟨⟨⟨⟨hid, _⟩, _⟩, _⟩, hstate⟩, hfence⟩, _⟩, _⟩
    exact .finished l i digest size now (by rw [hid, hfence]) hstate
  | _ => exact hsame

theorem keyed_uploads (hkeyed : Keyed Upload.id t.uploads) (h : GatewayStep ext t op t') :
    Keyed Upload.id t'.uploads := by
  cases h with
  | revoked | issuerRevoked | uploadClaimed | uploadFinished | uploadCanceled =>
    exact hkeyed.update fun _ => rfl
  | uploadAdded i id destination maxBytes s hs hfresh => exact hkeyed.cons hfresh
  | _ => exact hkeyed

theorem UploadStep.id_eq (h : UploadStep op u u') : u'.id = u.id := by
  cases h <;> rfl

theorem UploadStep.fence_le (h : UploadStep op u u') : u.fence ≤ u'.fence := by
  cases h with
  | claimed => exact Nat.le_succ _
  | _ => exact Nat.le_refl _

theorem UploadStep.final (h : UploadStep op u u') (hdone : u.state = .completed) : u' = u := by
  cases h with
  | kept => rfl
  | canceled hstate | claimed l i lease now hop hstate => simp [Upload.pending, hdone] at hstate
  | finished l i digest size now hop hstate =>
    rw [hdone] at hstate
    cases hstate

theorem UploadStep.uploading (h : UploadStep op u u') (hstate : u'.state = .uploading) :
    u' = u ∨ ∃ l i lease now, op = .claimUpload l i u.id lease now ∧ u'.fence = u.fence + 1 := by
  cases h with
  | kept => exact .inl rfl
  | canceled hpending | finished l i digest size now hop huploading => cases hstate
  | claimed l i lease now hop hpending => exact .inr ⟨l, i, lease, now, hop, rfl⟩

theorem UploadStep.completed (h : UploadStep op u u') (hdone : u'.state = .completed) :
    u' = u ∨ ∃ l i digest size now, op = .completeUpload l i u.id u.fence digest size now ∧
      u.state = .uploading ∧ u' = u.finish (lowerCase (trimSpace digest)) size := by
  cases h with
  | kept => exact .inl rfl
  | canceled hpending | claimed l i lease now hop hpending => cases hdone
  | finished l i digest size now hop huploading =>
    exact .inr ⟨l, i, digest, size, now, hop, huploading, rfl⟩

end Rows

/-! ## Digests -/

variable {c : Char}

theorem toNat_of_isLowerHex (h : isLowerHex c = true) :
    (48 ≤ c.toNat ∧ c.toNat ≤ 57) ∨ (97 ≤ c.toNat ∧ c.toNat ≤ 102) := by
  simp only [isLowerHex, Char.isDigit, Bool.or_eq_true, Bool.and_eq_true, decide_eq_true_eq,
    UInt32.le_iff_toNat_le, Char.le_def] at h
  exact h

theorem isSpace_of_isLowerHex (h : isLowerHex c = true) : isSpace c = false := by
  have hn := toNat_of_isLowerHex h
  have hne : c ≠ ' ' := by
    rintro rfl
    exact absurd h (by decide)
  simp only [isSpace, hne, decide_false, Bool.false_or, Bool.or_eq_false_iff,
    Bool.and_eq_false_iff, decide_eq_false_iff_not]
  omega

theorem toLower_of_isLowerHex (h : isLowerHex c = true) : c.toLower = c := by
  have hn := toNat_of_isLowerHex h
  unfold Char.toLower
  rw [dif_neg]
  rintro ⟨hge, hle⟩
  change 65 ≤ c.toNat at hge
  change c.toNat ≤ 90 at hle
  omega

theorem lowerCase_trimSpace_of_isFingerprint {s : String} (h : isFingerprint s = true) :
    lowerCase (trimSpace s) = s := by
  simp only [isFingerprint, Bool.and_eq_true, List.all_eq_true] at h
  have htrim : trimChars s.toList = s.toList :=
    trimChars_eq_self fun c hc => isSpace_of_isLowerHex (h.2 c hc)
  have hlower : s.toList.map Char.toLower = s.toList :=
    (List.map_congr_left fun c hc => toLower_of_isLowerHex (h.2 c hc)).trans (List.map_id _)
  simp [lowerCase, trimSpace, htrim, hlower]

/-! ## Fences and files -/

/-- The upload is being received under the fence. -/
def Held (id : UploadId) (g : Nat) (s : Spool) : Prop :=
  ∃ u ∈ s.tables.uploads, u.id = id ∧ u.fence = g ∧ u.state = .uploading

/-- The upload was completed under the fence. -/
def Done (id : UploadId) (g : Nat) (s : Spool) : Prop :=
  ∃ u ∈ s.tables.uploads, u.id = id ∧ u.fence = g ∧ u.state = .completed

/-- What the row records is at the destination or in the generation of its fence, and nothing else is
in that generation. -/
structure Durable (s : Spool) (u : Upload) : Prop where
  kept : ∃ n, u.size = some n ∧ isFingerprint u.digest = true ∧
    (s.holds .destination u.digest n = true ∨ s.holds (.generation u.fence) u.digest n = true)
  same : ∀ r, s.read (.generation u.fence) = some r → r.digest = u.digest ∧ u.size = some r.size

structure SpoolInv (id : UploadId) (s : Spool) : Prop where
  keyed : Keyed Upload.id s.tables.uploads
  durable : ∀ u ∈ s.tables.uploads, u.id = id → u.state = .completed → Durable s u
  clean : s.trespassed = false

def Final (id : UploadId) (s s' : Spool) : Prop :=
  ∀ u ∈ s.tables.uploads, u.id = id → u.state = .completed → u ∈ s'.tables.uploads

/-- The fence is neither handed out nor completed, and its file is left alone while it is held. -/
structure Undisturbed (id : UploadId) (g : Nat) (s s' : Spool) : Prop where
  held : Held id g s' → Held id g s ∧ s'.read (.generation g) = s.read (.generation g)
  done : Done id g s' → Done id g s

structure Rely (id : UploadId) (r : UploadRequest) (s s' : Spool) : Prop where
  final : Final id s s'
  own : r.claim.completed = false → Undisturbed id r.claim.fence s s'

structure Guarantee (id : UploadId) (r : UploadRequest) (s s' : Spool) : Prop where
  final : Final id s s'
  others : ∀ g, r.claim.completed = true ∨ g ≠ r.claim.fence → Undisturbed id g s s'

variable {ext : Externals} {id : UploadId} {s s' : Spool} {g f : Nat} {r : UploadRequest}

theorem Undisturbed.refl : Undisturbed id g s s :=
  ⟨fun h => ⟨h, rfl⟩, fun h => h⟩

theorem Undisturbed.trans {s'' : Spool} (h : Undisturbed id g s s') (h' : Undisturbed id g s' s'') :
    Undisturbed id g s s'' := by
  refine ⟨?_, fun hdone => h.done (h'.done hdone)⟩
  intro hheld
  rcases h'.held hheld with ⟨hheld, hread'⟩
  rcases h.held hheld with ⟨hheld, hread⟩
  exact ⟨hheld, hread'.trans hread⟩

theorem Rely.refl : Rely id r s s :=
  ⟨fun _ hu _ _ => hu, fun _ => .refl⟩

theorem Rely.trans {s'' : Spool} (h : Rely id r s s') (h' : Rely id r s' s'') : Rely id r s s'' :=
  ⟨fun u hu hid hdone => h'.final u (h.final u hu hid hdone) hid hdone,
    fun hopen => (h.own hopen).trans (h'.own hopen)⟩

theorem Guarantee.refl : Guarantee id r s s :=
  ⟨fun _ hu _ _ => hu, fun _ _ => .refl⟩

theorem Final.done (h : Final id s s') (hdone : Done id g s) : Done id g s' := by
  rcases hdone with ⟨u, hu, hid, hfence, hstate⟩
  exact ⟨u, h u hu hid hstate, hid, hfence, hstate⟩

theorem SpoolInv.not_held (h : SpoolInv id s) (hdone : Done id g s) : ¬ Held id g s := by
  rcases hdone with ⟨u, hu, hid, _, hstate⟩
  rintro ⟨k, hk, hkid, _, hkstate⟩
  rw [h.keyed.eq hk hu (hkid.trans hid.symm), hstate] at hkstate
  cases hkstate

theorem Durable.congr {u : Upload} (h : Durable s u)
    (hdestination : s'.read .destination = s.read .destination)
    (hgeneration : s'.read (.generation u.fence) = s.read (.generation u.fence)) : Durable s' u := by
  constructor
  · rcases h.kept with ⟨n, hsize, hprint, hheld⟩
    refine ⟨n, hsize, hprint, ?_⟩
    simpa only [Spool.holds, hdestination, hgeneration] using hheld
  · intro r hr
    exact h.same r (hgeneration ▸ hr)

/-! ## Changes of the files -/

/-- A change of the files that leaves the tables alone. -/
structure FilesOnly (s s' : Spool) : Prop where
  tables : s'.tables = s.tables
  trespassed : s'.trespassed = s.trespassed

theorem held_congr (h : s'.tables = s.tables) : Held id g s' ↔ Held id g s := by
  unfold Held
  rw [h]

theorem done_congr (h : s'.tables = s.tables) : Done id g s' ↔ Done id g s := by
  unfold Done
  rw [h]

theorem FilesOnly.final (h : FilesOnly s s') : Final id s s' := by
  intro u hu _ _
  rw [h.tables]
  exact hu

theorem FilesOnly.undisturbed (h : FilesOnly s s')
    (hread : Held id g s → s'.read (.generation g) = s.read (.generation g)) :
    Undisturbed id g s s' := by
  refine ⟨?_, (done_congr h.tables).mp⟩
  intro hheld
  have hheld := (held_congr h.tables).mp hheld
  exact ⟨hheld, hread hheld⟩

theorem SpoolInv.filesOnly (hinv : SpoolInv id s) (h : FilesOnly s s')
    (hdurable : ∀ u ∈ s.tables.uploads, u.id = id → u.state = .completed → Durable s u →
      Durable s' u) : SpoolInv id s' := by
  refine ⟨?_, ?_, h.trespassed.trans hinv.clean⟩
  · rw [h.tables]
    exact hinv.keyed
  · rw [h.tables]
    exact fun u hu hid hdone => hdurable u hu hid hdone (hinv.durable u hu hid hdone)

theorem SpoolInv.own (hinv : SpoolInv id s) (hopen : ¬ Done id r.claim.fence s)
    (hclaim : r.claim.completed = false) (h : FilesOnly s s')
    (hread : ∀ name, name ≠ .generation r.claim.fence → s'.read name = s.read name) :
    Guarantee id r s s' ∧ SpoolInv id s' := by
  refine ⟨⟨h.final, ?_⟩, hinv.filesOnly h ?_⟩
  · intro g hg
    refine h.undisturbed fun _ => hread _ ?_
    rcases hg with hg | hg
    · rw [hclaim] at hg
      cases hg
    · simpa using hg
  · intro u hu hid hdone hdurable
    refine hdurable.congr (hread _ nofun) (hread _ ?_)
    intro heq
    exact hopen ⟨u, hu, hid, SpoolName.generation.inj heq, hdone⟩

theorem filesOnly_remove : FilesOnly s (s.remove f) :=
  ⟨rfl, rfl⟩

@[simp] theorem read_remove_self : (s.remove f).read (.generation f) = none := by
  simp [Spool.read, Spool.remove, Files.read_removeAll]

variable {name : SpoolName}

theorem read_remove_of_ne (h : name ≠ .generation f) :
    (s.remove f).read name = s.read name := by
  simp [Spool.read, Spool.remove, Files.read_removeAll, h]

/-! ## Changes of the row -/

section Store

variable {op : GatewayOp} {t : Tables}

theorem final_store (hinv : SpoolInv id s) (h : GatewayStep ext s.tables op t) :
    Final id s { s with tables := t } := by
  intro u hu _ hdone
  rcases (evolves_uploads hinv.keyed h).next u hu with ⟨u', hu', hstep⟩
  rw [hstep.final hdone] at hu'
  exact hu'

theorem undisturbed_store (hinv : SpoolInv id s) (h : GatewayStep ext s.tables op t)
    (hclaim : ∀ l i lease now, op = .claimUpload l i id lease now →
      ∀ u ∈ s.tables.uploads, u.id = id → u.fence + 1 ≠ g)
    (hcomplete : ∀ l i digest size now, op ≠ .completeUpload l i id g digest size now) :
    Undisturbed id g s { s with tables := t } := by
  have hevolves := evolves_uploads hinv.keyed h
  constructor
  · rintro ⟨u', hu', hid, hfence, hstate⟩
    refine ⟨?_, rfl⟩
    rcases hevolves.prior u' hu' with ⟨u, hu, hstep⟩ | hnew
    · have hid' : u.id = id := hstep.id_eq.symm.trans hid
      rcases hstep.uploading hstate with rfl | ⟨l, i, lease, now, hop, hnext⟩
      · exact ⟨u', hu, hid, hfence, hstate⟩
      · rw [hid'] at hop
        exact absurd (hnext.symm.trans hfence) (hclaim l i lease now hop u hu hid')
    · rw [hnew.2] at hstate
      cases hstate
  · rintro ⟨u', hu', hid, hfence, hstate⟩
    rcases hevolves.prior u' hu' with ⟨u, hu, hstep⟩ | hnew
    · rcases hstep.completed hstate with rfl | ⟨l, i, digest, size, now, hop, _, heq⟩
      · exact ⟨u', hu, hid, hfence, hstate⟩
      have hfence' : u.fence = g := by rw [← hfence, heq]; rfl
      rw [hfence', hstep.id_eq.symm.trans hid] at hop
      exact absurd hop (hcomplete l i digest size now)
    · rw [hnew.2] at hstate
      cases hstate

theorem SpoolInv.store (hinv : SpoolInv id s) (h : GatewayStep ext s.tables op t)
    (hcomplete : ∀ l i g digest size now, op = .completeUpload l i id g digest size now →
      Held id g s → isFingerprint digest = true ∧
        ∃ r, s.read (.generation g) = some r ∧ r.digest = digest ∧ r.size = size) :
    SpoolInv id { s with tables := t } := by
  refine ⟨keyed_uploads hinv.keyed h, ?_, hinv.clean⟩
  intro u' hu' hid hdone
  rcases (evolves_uploads hinv.keyed h).prior u' hu' with ⟨u, hu, hstep⟩ | hnew
  · have hid' : u.id = id := hstep.id_eq.symm.trans hid
    rcases hstep.completed hdone with rfl | ⟨l, i, digest, size, now, hop, hstate, rfl⟩
    · exact (hinv.durable u' hu hid hdone).congr rfl rfl
    rw [hid'] at hop
    rcases hcomplete l i u.fence digest size now hop ⟨u, hu, hid', rfl, hstate⟩ with
      ⟨hprint, r, hread, rfl, rfl⟩
    have hdigest := lowerCase_trimSpace_of_isFingerprint hprint
    refine ⟨⟨r.size, rfl, ?_, .inr ?_⟩, ?_⟩
    · simpa only [Upload.finish, hdigest] using hprint
    · have hread' : Spool.read { s with tables := t } (.generation u.fence) = some r := hread
      simp [Spool.holds, Upload.finish, hread', hdigest]
    · intro r' hr'
      have hr : r = r' := Option.some.inj (hread.symm.trans hr')
      subst hr
      exact ⟨hdigest.symm, rfl⟩
  · rw [hnew.2] at hdone
    cases hdone

theorem done_of_complete {l : Ledger} {i : Identity} {digest : String} {size : Nat} {now : Time}
    (h : completeWorkerUpload l s.tables i id g digest size now = .ok t) :
    Done id g { s with tables := t } := by
  have hok := completeWorkerUpload_ok h
  replace h := passed h
  rcases require_bind_eq_ok.mp h with ⟨hany, _⟩
  rcases List.any_eq_true.mp hany with ⟨u, hu, haccepts⟩
  have hparts := haccepts
  simp only [acceptsUpload, Bool.and_eq_true, decide_eq_true_eq] at hparts
  refine ⟨u.finish (lowerCase (trimSpace digest)) size, ?_, hparts.1.1.1.1.1.1.1, hparts.1.1.2, rfl⟩
  rw [hok]
  exact mem_update.mpr ⟨u, hu, by rw [if_pos haccepts]⟩

end Store

/-! ## The conditions -/

/-- Nobody needs the generation: its fence is not the row's, or what the row records is at the
destination. -/
def Spool.spare (s : Spool) (id : UploadId) (fence : Nat) : Bool :=
  s.tables.uploads.all fun u => u.id ≠ id || u.fence ≠ fence ||
    (u.state = .completed && u.size.any fun n => s.holds .destination u.digest n)

/-- The sweep removes no generation that is needed. -/
def sweepsSpare (id : UploadId) (e : SpoolAction) (s : Spool) : Bool :=
  match e with
  | .sweep fence before =>
    ((s.read (.generation fence)).all fun r => before ≤ r.modified) || s.spare id fence
  | _ => true

/-- A request discards no generation of another one that is needed, and a commit that is reported as
an error has not happened. -/
def discardsSpare (c : SpoolChoice) (op : SpoolOp) (s : Spool) : Bool :=
  match op with
  | .discard claim fence => fence = claim.fence || s.spare claim.id fence
  | .completeWorkerUpload _ _ _ _ => c.outcome ≠ .lost
  | _ => true

theorem spare_spec (h : s.spare id f = true) {u : Upload} (hu : u ∈ s.tables.uploads)
    (hid : u.id = id) (hfence : u.fence = f) :
    u.state = .completed ∧ ∃ n, u.size = some n ∧ s.holds .destination u.digest n = true := by
  have hrow := List.all_eq_true.mp h u hu
  simp only [hid, hfence, ne_eq, not_true_eq_false, decide_false, Bool.false_or, Bool.and_eq_true,
    decide_eq_true_eq, Option.any_eq_true] at hrow
  exact hrow

theorem SpoolInv.remove_spare (hinv : SpoolInv id s) (h : s.spare id f = true) :
    Final id s (s.remove f) ∧ (∀ g, Undisturbed id g s (s.remove f)) ∧ SpoolInv id (s.remove f) := by
  refine ⟨filesOnly_remove.final, ?_, hinv.filesOnly filesOnly_remove ?_⟩
  · intro g
    refine filesOnly_remove.undisturbed ?_
    rintro ⟨u, hu, hid, hfence, hstate⟩
    refine read_remove_of_ne ?_
    intro heq
    rw [(spare_spec h hu hid (hfence.trans (SpoolName.generation.inj heq))).1] at hstate
    cases hstate
  · intro u hu hid hdone hdurable
    by_cases hfence : u.fence = f
    · rcases spare_spec h hu hid hfence with ⟨_, n, hsize, hheld⟩
      rcases hdurable.kept with ⟨_, _, hprint, _⟩
      refine ⟨⟨n, hsize, hprint, .inl ?_⟩, ?_⟩
      · simpa only [Spool.holds, read_remove_of_ne (show SpoolName.destination ≠ .generation f from
          nofun)] using hheld
      · intro r hr
        rw [hfence, read_remove_self] at hr
        cases hr
    · exact hdurable.congr (read_remove_of_ne nofun) (read_remove_of_ne (by simpa using hfence))

/-! ## The calls of a request -/

/-- The calls of requests that meet the conditions. -/
def guardedSpool : SpoolChoice → SpoolOp → Spool → Spool × SpoolReply :=
  guardedExec discardsSpare .failed spoolExec

theorem conclude_cases (c : SpoolChoice) (s s' : Spool) (reply : SpoolReply) :
    (c.conclude s s' reply).1 = s ∨ (c.conclude s s' reply).1 = s' := by
  unfold SpoolChoice.conclude
  cases c.outcome with
  | performed | lost => exact .inr rfl
  | failed => exact .inl rfl

/-- The calls of a request before it commits. -/
def SpoolOp.Drafts (r : UploadRequest) : SpoolOp → Prop
  | .discard claim _ | .remove claim | .create claim | .receive claim
  | .cancelWorkerUpload _ claim => claim = r.claim
  | .rename _ | .completeWorkerUpload _ _ _ _ => False
  | .openUploadTarget | .prepareParent | .readDirectory | .fileMatches _ _ => True

theorem filesOnly_write {content : Received} :
    FilesOnly s { s with files := Files.write name content s.files } :=
  ⟨rfl, rfl⟩

theorem cancel_step (ext : Externals) (s : Spool) (c : SpoolChoice) (i : Identity)
    (claim : UploadClaim) :
    (spoolExec c (.cancelWorkerUpload i claim) s).1 = s ∨
      ∃ t, GatewayStep ext s.tables (.cancelUpload i claim.id claim.fence) t ∧
        (spoolExec c (.cancelWorkerUpload i claim) s).1 = { s with tables := t } := by
  unfold spoolExec Spool.store
  dsimp only
  cases hrun : cancelWorkerUpload s.tables i claim.id claim.fence with
  | error e => exact .inl rfl
  | ok t =>
    have hstep : GatewayStep ext s.tables (.cancelUpload i claim.id claim.fence) t :=
      gatewayStep hrun
    rcases conclude_cases c s { s with tables := t } .done with heq | heq
    · exact .inl heq
    · exact .inr ⟨t, hstep, heq⟩

theorem SpoolInv.cancel (hinv : SpoolInv id s) (r : UploadRequest) (c : SpoolChoice) (i : Identity)
    (claim : UploadClaim) :
    let s' := (spoolExec c (.cancelWorkerUpload i claim) s).1
    Guarantee id r s s' ∧ SpoolInv id s' ∧ ∀ g, Undisturbed id g s s' := by
  -- nothing that the call does depends on the parser of JSON or on paths
  let ext : Externals := ⟨fun _ => none, fun _ => true⟩
  rcases cancel_step ext s c i claim with heq | ⟨t, hstep, heq⟩
  · rw [heq]
    exact ⟨.refl, hinv, fun _ => .refl⟩
  rw [heq]
  have hundisturbed : ∀ g, Undisturbed id g s { s with tables := t } :=
    fun g => undisturbed_store hinv hstep nofun nofun
  exact ⟨⟨final_store hinv hstep, fun g _ => hundisturbed g⟩, hinv.store hstep nofun, hundisturbed⟩

theorem SpoolInv.draft (hinv : SpoolInv id s) (hid : r.claim.id = id)
    (hclaim : r.claim.completed = false) (hopen : ¬ Done id r.claim.fence s) {op : SpoolOp}
    (hop : op.Drafts r) (c : SpoolChoice) :
    let s' := (guardedSpool c op s).1
    Guarantee id r s s' ∧ SpoolInv id s' ∧ ¬ Done id r.claim.fence s' := by
  have hsame : Guarantee id r s s ∧ SpoolInv id s ∧ ¬ Done id r.claim.fence s := ⟨.refl, hinv, hopen⟩
  have hown : ∀ s', FilesOnly s s' →
      (∀ name, name ≠ .generation r.claim.fence → s'.read name = s.read name) →
      Guarantee id r s s' ∧ SpoolInv id s' ∧ ¬ Done id r.claim.fence s' := by
    intro s' hfiles hread
    rcases hinv.own hopen hclaim hfiles hread with ⟨hG, hI⟩
    exact ⟨hG, hI, fun hdone => hopen ((done_congr hfiles.tables).mp hdone)⟩
  have hconclude : ∀ s' reply, (Guarantee id r s s' ∧ SpoolInv id s' ∧ ¬ Done id r.claim.fence s') →
      Guarantee id r s (c.conclude s s' reply).1 ∧ SpoolInv id (c.conclude s s' reply).1 ∧
        ¬ Done id r.claim.fence (c.conclude s s' reply).1 := by
    intro s' reply h
    rcases conclude_cases c s s' reply with heq | heq
    · rw [heq]
      exact hsame
    · rw [heq]
      exact h
  have hremove : ∀ reply, _ := fun reply => hconclude (s.remove r.claim.fence) reply
    (hown _ filesOnly_remove fun _ hne => read_remove_of_ne hne)
  have hwrite : ∀ content : Received, _ := fun content =>
    hown { s with files := Files.write (.generation r.claim.fence) content s.files } filesOnly_write
      fun _ hne => Files.read_write_of_ne hne
  unfold guardedSpool guardedExec
  by_cases hok : discardsSpare c op s = true
  · rw [if_pos hok]
    cases op with
    | rename claim | completeWorkerUpload i claim digest size => cases hop
    | openUploadTarget | prepareParent | readDirectory | fileMatches name claim =>
      exact hconclude s _ hsame
    | remove claim =>
      cases hop
      exact hremove _
    | discard claim fence =>
      cases hop
      simp only [discardsSpare, Bool.or_eq_true, decide_eq_true_eq] at hok
      rcases hok with rfl | hspare
      · exact hremove _
      rw [hid] at hspare
      rcases hinv.remove_spare hspare with ⟨hfinal, hundisturbed, hI⟩
      refine hconclude _ _ ⟨⟨hfinal, fun g _ => hundisturbed g⟩, hI, ?_⟩
      exact fun hdone => hopen ((hundisturbed _).done hdone)
    | create claim =>
      cases hop
      cases hread : s.read (.generation r.claim.fence) with
      | some content => simpa only [spoolExec, hread] using hsame
      | none =>
        simp only [spoolExec, hread]
        exact hconclude _ _ (hwrite _)
    | receive claim =>
      cases hop
      simp only [spoolExec]
      have hstate : ∀ s' : Spool, ∀ b : Bool,
          (if b = true then (s', SpoolReply.received c.digest c.size) else (s', .failed)).1 = s' := by
        intro s' b
        cases b <;> rfl
      rw [hstate]
      cases hread : s.read (.generation r.claim.fence) with
      | none => exact hsame
      | some content => exact hwrite _
    | cancelWorkerUpload i claim =>
      rcases hinv.cancel r c i claim with ⟨hG, hI, hundisturbed⟩
      exact ⟨hG, hI, fun hdone => hopen ((hundisturbed _).done hdone)⟩
  · rw [if_neg hok]
    exact hsame

theorem SpoolInv.rename (hinv : SpoolInv id s) (hid : r.claim.id = id)
    (hdone : Done id r.claim.fence s) (c : SpoolChoice) :
    let s' := (guardedSpool c (.rename r.claim) s).1
    Guarantee id r s s' ∧ SpoolInv id s' := by
  have hexec : guardedSpool c (.rename r.claim) s = spoolExec c (.rename r.claim) s := rfl
  rw [hexec]
  cases hread : s.read (.generation r.claim.fence) with
  | none =>
    simp only [spoolExec, hread]
    exact ⟨.refl, hinv⟩
  | some content =>
    simp only [spoolExec, hread]
    rcases conclude_cases c s (s.rename r.claim content) .done with heq | heq
    · rw [heq]
      exact ⟨.refl, hinv⟩
    rw [heq]
    have hnotHeld := hinv.not_held hdone
    rcases hdone with ⟨u, hu, huid, hfence, hstate⟩
    have hrow : ∀ k ∈ s.tables.uploads, k.id = id → k = u :=
      fun k hk hkid => hinv.keyed.eq hk hu (hkid.trans huid.symm)
    have hcurrent : s.superseded r.claim = false := by
      refine List.any_eq_false.mpr ?_
      intro k hk
      simp only [Bool.and_eq_true, decide_eq_true_eq, not_and, hid]
      intro hkid
      rw [hrow k hk hkid, hfence]
      exact lt_irrefl _
    have hfiles : FilesOnly s (s.rename r.claim content) := ⟨rfl, by simp [Spool.rename, hcurrent]⟩
    have hother : ∀ name, name ≠ .destination → name ≠ .generation r.claim.fence →
        (s.rename r.claim content).read name = s.read name :=
      fun name hdest hgen => (Files.read_write_of_ne hdest).trans (read_remove_of_ne hgen)
    refine ⟨⟨hfiles.final, ?_⟩, hinv.filesOnly hfiles ?_⟩
    · intro g _
      refine hfiles.undisturbed fun hheld => hother _ nofun ?_
      intro heq
      rw [SpoolName.generation.inj heq] at hheld
      exact hnotHeld hheld
    · intro k hk hkid _ hdurable
      rw [hrow k hk hkid] at hdurable ⊢
      rw [← hfence] at hread
      rcases hdurable.same content hread with ⟨hdigest, hsize⟩
      rcases hdurable.kept with ⟨_, _, hprint, _⟩
      refine ⟨⟨content.size, hsize, hprint, .inl ?_⟩, ?_⟩
      · simp [Spool.holds, Spool.read, Spool.rename, hdigest]
      · intro r' hr'
        have hgone : (s.rename r.claim content).read (.generation u.fence) = none := by
          rw [hfence]
          unfold Spool.rename Spool.read
          rw [Files.read_write_of_ne (by simp)]
          exact read_remove_self
        rw [hgone] at hr'
        cases hr'

theorem guarded_complete {c : SpoolChoice} {i : Identity} {claim : UploadClaim}
    {digest : String} {size : Nat} :
    guardedSpool c (.completeWorkerUpload i claim digest size) s = (s, .failed) ∨
      ∃ l now t, completeWorkerUpload l s.tables i claim.id claim.fence digest size now = .ok t ∧
        guardedSpool c (.completeWorkerUpload i claim digest size) s =
          ({ s with tables := t }, .done) := by
  unfold guardedSpool guardedExec
  by_cases hok : discardsSpare c (.completeWorkerUpload i claim digest size) s = true
  · rw [if_pos hok]
    have hanswered : c.outcome ≠ .lost := of_decide_eq_true hok
    unfold spoolExec Spool.store SpoolChoice.conclude
    dsimp only
    cases hrun : completeWorkerUpload c.ledger s.tables i claim.id claim.fence digest size c.now with
    | error e => exact .inl rfl
    | ok t =>
      cases houtcome : c.outcome with
      | lost => exact absurd houtcome hanswered
      | failed => exact .inl rfl
      | performed => exact .inr ⟨c.ledger, c.now, t, hrun, rfl⟩
  · rw [if_neg hok]
    exact .inl rfl

/-! ## Requests -/

def Handles (id : UploadId) (r : UploadRequest) (p : Handler Response) (s : Spool) : Prop :=
  Safe guardedSpool (SpoolInv id) (Rely id r) (Guarantee id r) (fun _ _ => True) p s

/-- A part of a request that comes before its commit. -/
def Writes {α : Type} (id : UploadId) (r : UploadRequest) (p : Handler α) (Q : α → Spool → Prop)
    (s : Spool) : Prop :=
  Safe guardedSpool (SpoolInv id) (Rely id r) (Guarantee id r)
    (fun a s => ¬ Done id r.claim.fence s ∧ Q a s) p s

section Requests

variable (hid : r.claim.id = id) (hclaim : r.claim.completed = false) {op : SpoolOp}

include hid hclaim

theorem writes_ask {Q : SpoolReply → Spool → Prop} (hop : op.Drafts r)
    (hopen : ¬ Done id r.claim.fence s)
    (hQ : ∀ s', Rely id r s s' → SpoolInv id s' → ∀ c,
      Q (guardedSpool c op s').2 (guardedSpool c op s').1) :
    Writes id r (Prog.ask op) Q s := by
  intro s' hrely hinv c
  have hopen' : ¬ Done id r.claim.fence s' := fun hdone => hopen ((hrely.own hclaim).done hdone)
  rcases hinv.draft hid hclaim hopen' hop c with ⟨hG, hI, hopen''⟩
  exact ⟨hG, hI, hopen'', hQ s' hrely hinv c⟩

theorem writes_try (hop : op.Drafts r) (hopen : ¬ Done id r.claim.fence s) :
    Writes id r (Prog.ask op) (fun _ _ => True) s :=
  writes_ask hid hclaim hop hopen fun _ _ _ _ => trivial

theorem writes_discardEach {fences : List Nat} (hopen : ¬ Done id r.claim.fence s) :
    Writes id r (discardEach r.claim fences) (fun _ _ => True) s := by
  induction fences generalizing s with
  | nil => exact ⟨hopen, trivial⟩
  | cons fence fences ih =>
    refine Safe.bind (writes_try hid hclaim rfl hopen) ?_
    rintro _ s' ⟨hopen', _⟩
    exact ih hopen'

theorem writes_discardGenerations (hopen : ¬ Done id r.claim.fence s) :
    Writes id r (discardGenerations r.claim) (fun _ _ => True) s := by
  refine Safe.bind (writes_try hid hclaim trivial hopen) ?_
  rintro reply s' ⟨hopen', _⟩
  cases reply with
  | generations fences => exact writes_discardEach hid hclaim hopen'
  | _ => exact ⟨hopen', trivial⟩

theorem handles_discardWith {response : Response} (hopen : ¬ Done id r.claim.fence s) :
    Handles id r (discardWith r response) s := by
  refine Safe.bind (writes_try hid hclaim rfl hopen) ?_
  rintro _ s' ⟨hopen', _⟩
  exact Safe.bind (writes_try hid hclaim rfl hopen') fun _ _ _ => trivial

omit hclaim in
theorem handles_rename {next : SpoolReply → Handler Response} (hdone : Done id r.claim.fence s)
    (hnext : ∀ reply, (next reply).running = false) :
    Handles id r (.call (.rename r.claim) next) s := by
  intro s' hrely hinv c
  rcases hinv.rename hid (hrely.final.done hdone) c with ⟨hG, hI⟩
  exact ⟨hG, hI, safe_of_not_running (hnext _)⟩

/-- The generation holds what was received, as long as it is the request's. -/
def Holding (id : UploadId) (g : Nat) (digest : String) (size : Nat) (s : Spool) : Prop :=
  isFingerprint digest = true ∧ (Held id g s →
    ∃ content, s.read (.generation g) = some content ∧ content.digest = digest ∧ content.size = size)

theorem handles_draft {next : SpoolReply → Response} (hop : op.Drafts r)
    (hopen : ¬ Done id r.claim.fence s) :
    Handles id r (.call op fun reply => .done (next reply)) s := by
  intro s' hrely hinv c
  have hopen' : ¬ Done id r.claim.fence s' := fun hdone => hopen ((hrely.own hclaim).done hdone)
  rcases hinv.draft hid hclaim hopen' hop c with ⟨hG, hI, _⟩
  exact ⟨hG, hI, trivial⟩

theorem handles_commitUpload {digest : String} {size : Nat} (hopen : ¬ Done id r.claim.fence s)
    (hholding : Holding id r.claim.fence digest size s) :
    Handles id r (commitUpload r digest size) s := by
  intro s' hrely hinv c
  have hown := hrely.own hclaim
  have hfile : Held id r.claim.fence s' → isFingerprint digest = true ∧
      ∃ content, s'.read (.generation r.claim.fence) = some content ∧ content.digest = digest ∧
        content.size = size := by
    intro hheld
    rcases hown.held hheld with ⟨hheld, hread⟩
    rw [hread]
    exact ⟨hholding.1, hholding.2 hheld⟩
  rcases guarded_complete with heq | ⟨l, now, t, hrun, heq⟩
  · -- an error leaves the row as it was, so that the generation may be removed
    rw [heq]
    exact ⟨.refl, hinv, handles_draft hid hclaim rfl fun hdone => hopen (hown.done hdone)⟩
  rw [hid] at hrun
  have hstep : GatewayStep ⟨fun _ => none, fun _ => true⟩ s'.tables
      (.completeUpload l r.identity id r.claim.fence digest size now) t := gatewayStep hrun
  rw [heq]
  refine ⟨⟨final_store hinv hstep, ?_⟩, hinv.store hstep ?_, ?_⟩
  · intro g hg
    refine undisturbed_store hinv hstep nofun ?_
    rintro l i d n now ⟨⟩
    simp [hclaim] at hg
  · rintro l i g d n now ⟨⟩ hheld
    exact hfile hheld
  · refine handles_rename hid (done_of_complete hrun) ?_
    intro reply
    cases reply <;> rfl

theorem handles_receiveUpload (hopen : ¬ Done id r.claim.fence s)
    (hcreated : Held id r.claim.fence s → (s.read (.generation r.claim.fence)).isSome = true) :
    Handles id r (receiveUpload r) s := by
  have hreceive : Writes id r (Prog.ask (.receive r.claim)) (fun reply s =>
      ∀ digest size, reply = .received digest size → Holding id r.claim.fence digest size s) s := by
    refine writes_ask hid hclaim rfl hopen ?_
    intro s' hrely _ c digest size hreply
    have hown := hrely.own hclaim
    have hexec : guardedSpool c (.receive r.claim) s' = spoolExec c (.receive r.claim) s' := rfl
    rw [hexec] at hreply ⊢
    by_cases hprint : (isFingerprint c.digest && decide (c.outcome = .performed)) = true
    · simp only [spoolExec, if_pos hprint, SpoolReply.received.injEq] at hreply ⊢
      rcases hreply with ⟨rfl, rfl⟩
      refine ⟨(Bool.and_eq_true _ _ ▸ hprint).1, ?_⟩
      cases hread : s'.read (.generation r.claim.fence) with
      | none =>
        -- without its file the request does not hold the upload any more
        intro hheld
        rcases hown.held hheld with ⟨hheld, heq⟩
        have hsome := hcreated hheld
        rw [← heq, hread] at hsome
        cases hsome
      | some content =>
        intro _
        exact ⟨_, Files.read_write_self, rfl, rfl⟩
    · simp only [spoolExec, if_neg hprint] at hreply
      cases hreply
  refine Safe.bind hreceive ?_
  rintro reply s' ⟨hopen', hholding⟩
  have hdiscard : ∀ response, Handles id r (discardWith r response) s' :=
    fun _ => handles_discardWith hid hclaim hopen'
  cases reply with
  | received digest size =>
    have hcommit := handles_commitUpload hid hclaim hopen' (hholding digest size rfl)
    dsimp only
    generalize r.rejects digest size = rejection
    cases rejection with
    | some response => exact hdiscard response
    | none => exact hcommit
  | _ => exact hdiscard _

theorem writes_create (hopen : ¬ Done id r.claim.fence s) :
    Writes id r (Prog.ask (.create r.claim)) (fun reply s =>
      reply ≠ .failed → (s.read (.generation r.claim.fence)).isSome = true) s := by
  refine writes_ask hid hclaim rfl hopen ?_
  intro s' _ _ c hreply
  have hexec : guardedSpool c (.create r.claim) s' = spoolExec c (.create r.claim) s' := rfl
  rw [hexec] at hreply ⊢
  cases hread : s'.read (.generation r.claim.fence) with
  | some content =>
    simp only [spoolExec, hread] at hreply
    exact absurd rfl hreply
  | none =>
    simp only [spoolExec, hread, SpoolChoice.conclude] at hreply ⊢
    cases houtcome : c.outcome with
    | performed => simp [Spool.read]
    | lost | failed => simp [houtcome] at hreply

theorem handles_handleDurableUpload (hopen : ¬ Done id r.claim.fence s) :
    Handles id r (handleDurableUpload r) s := by
  unfold handleDurableUpload
  by_cases hlength : (decide (r.contentLength < 0) || decide (r.contentLength > r.claim.maxBytes)) =
      true
  · rw [if_pos hlength]
    exact handles_draft hid hclaim rfl hopen
  rw [if_neg hlength]
  refine Safe.bind (writes_try hid hclaim trivial hopen) ?_
  rintro reply s₁ ⟨hopen₁, _⟩
  cases reply
  case failed => trivial
  all_goals
    refine Safe.bind (writes_discardGenerations hid hclaim hopen₁) ?_
    rintro _ s₂ ⟨hopen₂, _⟩
    refine Safe.bind (writes_try hid hclaim rfl hopen₂) ?_
    rintro _ s₃ ⟨hopen₃, _⟩
    refine Safe.bind (writes_create hid hclaim hopen₃) ?_
    rintro reply s₄ ⟨hopen₄, hcreated⟩
    cases reply
    case failed => trivial
    all_goals exact handles_receiveUpload hid hclaim hopen₄ fun _ => hcreated (by simp)

end Requests

theorem handles_look {α : Type} {Q : α → Spool → Prop} {op : SpoolOp}
    {next : SpoolReply → Handler α} (hop : ∀ c s, (guardedSpool c op s).1 = s)
    (h : ∀ s' reply, Rely id r s s' → Safe guardedSpool (SpoolInv id) (Rely id r)
      (Guarantee id r) Q (next reply) s') :
    Safe guardedSpool (SpoolInv id) (Rely id r) (Guarantee id r) Q (.call op next)
      s := by
  intro s' hrely hinv c
  rw [hop c s']
  exact ⟨.refl, hinv, h s' _ hrely⟩

theorem fileMatches_state (name : SpoolName) (claim : UploadClaim) (c : SpoolChoice) (s : Spool) :
    (guardedSpool c (.fileMatches name claim) s).1 = s :=
  (conclude_cases c s s _).elim id id

theorem openUploadTarget_state (c : SpoolChoice) (s : Spool) :
    (guardedSpool c .openUploadTarget s).1 = s :=
  (conclude_cases c s s _).elim id id

theorem handles_recoverCompletedUpload (hid : r.claim.id = id) (hdone : Done id r.claim.fence s) :
    Handles id r (recoverCompletedUpload r) s := by
  refine handles_look (fileMatches_state _ _) ?_
  intro s₁ reply₁ hrely₁
  rcases reply₁ with _ | _ | _ | (_ | _) | _
  case answer.true => trivial
  all_goals
    refine handles_look (fileMatches_state _ _) ?_
    intro s₂ reply₂ hrely₂
    have hdone₂ := hrely₂.final.done (hrely₁.final.done hdone)
    rcases reply₂ with _ | _ | _ | (_ | _) | _
    case answer.true =>
      refine handles_rename hid hdone₂ ?_
      intro reply
      cases reply <;> rfl
    all_goals trivial

/-- What is known of the row when a request gets its claim. -/
def Claimed (id : UploadId) (r : UploadRequest) (s : Spool) : Prop :=
  r.claim.id = id ∧ if r.claim.completed then Done id r.claim.fence s else ¬ Done id r.claim.fence s

theorem handles_request (h : Claimed id r s) : Handles id r (handleDurableUploadRequest r) s := by
  rcases h with ⟨hid, hrow⟩
  refine handles_look openUploadTarget_state ?_
  intro s' reply hrely
  have hcancel : Handles id r
      (cancelWith r (.error 409 "upload destination is outside the artifact spool")) s' := by
    intro s'' _ hinv c
    rcases hinv.cancel r c r.identity r.claim with ⟨hG, hI, _⟩
    exact ⟨hG, hI, trivial⟩
  have hrest : Handles id r (if r.claim.completed then recoverCompletedUpload r
      else handleDurableUpload r) s' := by
    cases hclaim : r.claim.completed with
    | true =>
      rw [hclaim] at hrow
      exact handles_recoverCompletedUpload hid (hrely.final.done hrow)
    | false =>
      rw [hclaim] at hrow
      exact handles_handleDurableUpload hid hclaim fun hdone =>
        absurd ((hrely.own hclaim).done hdone) hrow
  cases reply with
  | failed => exact hcancel
  | _ => exact hrest

end PortageEngine.Gateway
