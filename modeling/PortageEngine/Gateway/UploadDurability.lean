import PortageEngine.Gateway.Revocation
import PortageEngine.Gateway.SpoolWork

/-!
# Completed uploads are not lost

When the row of an upload says completed, the recorded bytes are at the destination or in the
generation file of the row's fence, from where the next request moves them to the destination.  This
holds in every run of the broker in which nobody removes a generation that is needed, its own writer
apart, and in which a commit that is reported as an error has not happened.  Without these conditions
bytes are lost: nothing but the fence in its name protects a generation file, and neither the start-up
sweep nor `discardGenerations` of a superseded request looks at the row.
-/

namespace PortageEngine.Gateway

open List Library
open Library.Rows
open Library.Runs
open Library.Process
open Ledger (Time exampleLedger)

variable {ext : Externals} {id : UploadId} {s : Spool} {r : UploadRequest}

/-! ## Actions -/

/-- The fence of the request has been handed out. -/
def Issued (id : UploadId) (r : UploadRequest) (s : Spool) : Prop :=
  r.claim.completed = true ∨ ∃ u ∈ s.tables.uploads, u.id = id ∧ r.claim.fence ≤ u.fence

/-- Two requests that do not write under the same fence. -/
def OtherFence (a b : UploadRequest) : Prop :=
  a.claim.completed = true ∨ b.claim.completed = true ∨ a.claim.fence ≠ b.claim.fence

/-- What an action may do, with the request that it starts. -/
structure Acts (id : UploadId) (s : Spool) (a : Spool × Option UploadRequest) : Prop where
  inv : SpoolInv id a.1
  final : Final id s a.1
  others : ∀ g, (∀ r ∈ a.2.toList, r.claim.completed = true ∨ g ≠ r.claim.fence) →
    Undisturbed id g s a.1
  claimed : ∀ r ∈ a.2.toList, Claimed id r a.1
  fresh : ∀ r ∈ a.2.toList, r.claim.completed = true ∨
    ∀ u ∈ s.tables.uploads, u.id = id → u.fence < r.claim.fence
  issued : ∀ r ∈ a.2.toList, Issued id r a.1

theorem acts_of_none {s' : Spool} (hinv : SpoolInv id s') (hfinal : Final id s s')
    (hothers : ∀ g, Undisturbed id g s s') : Acts id s (s', none) where
  inv := hinv
  final := hfinal
  others g _ := hothers g
  claimed _ hr := absurd hr not_mem_nil
  fresh _ hr := absurd hr not_mem_nil
  issued _ hr := absurd hr not_mem_nil

theorem SpoolInv.acts_nothing (hinv : SpoolInv id s) : Acts id s (s, none) :=
  acts_of_none hinv (fun _ hu _ _ => hu) fun _ => .refl

variable {u : Upload} {pool : SpoolPool}

theorem SpoolInv.acts_completed (hinv : SpoolInv id s) (hu : u ∈ s.tables.uploads)
    (hid : u.id = id) (hdone : u.state = .completed) (hclaim : r.claim = u.claim u.fence) :
    Acts id s (s, some r) := by
  have hcompleted : r.claim.completed = true := by
    rw [hclaim]
    exact decide_eq_true hdone
  have hrow : Done id r.claim.fence s := ⟨u, hu, hid, by rw [hclaim]; rfl, hdone⟩
  refine ⟨hinv, fun _ hu _ _ => hu, fun _ _ => .refl, ?_, ?_, ?_⟩
  · intro r' hr'
    cases mem_singleton.mp hr'
    refine ⟨by rw [hclaim]; exact hid, ?_⟩
    rw [if_pos hcompleted]
    exact hrow
  · intro r' hr'
    cases mem_singleton.mp hr'
    exact .inl hcompleted
  · intro r' hr'
    cases mem_singleton.mp hr'
    exact .inl hcompleted

theorem SpoolInv.acts_claimed (hinv : SpoolInv id s) {t : Tables} {l : Ledger} {i : Identity}
    {lease now : Time} (hu : u ∈ s.tables.uploads) (hid : u.id = id)
    (hstate : u.state = .ready ∨ u.state = .uploading)
    (hstep : GatewayStep ext s.tables (.claimUpload l i id lease now) t)
    (ht : t = { s.tables with
      uploads := update (fun k => k.id = u.id) (Upload.receive (now + lease)) s.tables.uploads })
    (hclaim : r.claim = { u.claim (u.fence + 1) with completed := false }) :
    Acts id s ({ s with tables := t }, some r) := by
  have hrow : ∀ k ∈ s.tables.uploads, k.id = id → k = u :=
    fun k hk hkid => hinv.keyed.eq hk hu (hkid.trans hid.symm)
  have hopen : u.state ≠ .completed := by
    rcases hstate with hstate | hstate <;> simp [hstate]
  have hcompleted : r.claim.completed = false := by rw [hclaim]
  have hfence : r.claim.fence = u.fence + 1 := by rw [hclaim]; rfl
  refine ⟨hinv.store hstep nofun, final_store hinv hstep, ?_, ?_, ?_, ?_⟩
  · intro g hg
    refine undisturbed_store hinv hstep ?_ nofun
    intro _ _ _ _ _ k hk hkid heq
    rw [hrow k hk hkid, ← hfence] at heq
    simp [hcompleted, heq] at hg
  · intro r' hr'
    cases mem_singleton.mp hr'
    refine ⟨by rw [hclaim]; exact hid, ?_⟩
    rw [if_neg (by simp [hcompleted])]
    rintro ⟨u', hu', hid', hfence', hdone'⟩
    rcases (evolves_uploads hinv.keyed hstep).prior u' hu' with ⟨k, hk, hkstep⟩ | hnew
    · rcases hkstep.completed hdone' with rfl | ⟨_, _, _, _, _, hop, _⟩
      · exact hopen (hrow u' hk hid' ▸ hdone')
      · cases hop
    · rw [hnew.2] at hdone'
      cases hdone'
  · intro r' hr'
    cases mem_singleton.mp hr'
    refine .inr fun k hk hkid => ?_
    rw [hrow k hk hkid, hfence]
    exact Nat.lt_succ_self _
  · intro r' hr'
    cases mem_singleton.mp hr'
    refine .inr ⟨u.receive (now + lease), ?_, hid, hfence.le⟩
    rw [ht]
    exact mem_update.mpr ⟨u, hu, by simp⟩

def guardedSpoolAct (ext : Externals) (id : UploadId) (e : SpoolAction) (s : Spool) :
    Spool × Option UploadRequest :=
  guardedAct (sweepsSpare id) (Spool.act ext id) e s

theorem SpoolInv.acts (hinv : SpoolInv id s) (ext : Externals) (e : SpoolAction) :
    Acts id s (guardedSpoolAct ext id e s) := by
  unfold guardedSpoolAct guardedAct
  by_cases hok : sweepsSpare id e s = true
  · rw [if_pos hok]
    cases e with
    | store op =>
      unfold Spool.act
      dsimp only
      by_cases htransfers : op.transfers = true
      · rw [if_pos htransfers]
        exact hinv.acts_nothing
      rw [if_neg htransfers]
      have hstep := stepGateway_step ext s.tables op
      have hcomplete : ∀ l i g digest size now, op ≠ .completeUpload l i id g digest size now := by
        rintro l i g digest size now rfl
        exact htransfers rfl
      refine acts_of_none (hinv.store hstep ?_) (final_store hinv hstep) ?_
      · intro l i g digest size now hop
        exact absurd hop (hcomplete l i g digest size now)
      intro g
      refine undisturbed_store hinv hstep ?_ fun l i => hcomplete l i g
      rintro l i lease now rfl
      exact absurd rfl htransfers
    | request l i lease now contentLength provided =>
      unfold Spool.act
      dsimp only
      cases hrun : claimWorkerUpload l s.tables i id lease now with
      | error e => exact hinv.acts_nothing
      | ok claimed =>
        rcases claimed with ⟨t, claim⟩
        rcases claimWorkerUpload_ok hrun with ⟨u, hu, hid, ⟨hdone, rfl, hclaim⟩ |
          ⟨hstate, ht, hclaim⟩⟩
        · exact hinv.acts_completed hu hid hdone hclaim
        have hstep : GatewayStep ext s.tables (.claimUpload l i id lease now) t := by
          refine gatewayStep ?_
          simp [GatewayOp.run, hrun]
        exact hinv.acts_claimed hu hid hstate hstep ht hclaim
    | sweep fence before =>
      unfold Spool.act
      dsimp only
      cases hread : s.read (.generation fence) with
      | none => exact hinv.acts_nothing
      | some content =>
        dsimp only
        by_cases hold : content.modified < before
        · rw [if_pos hold]
          have hspare : s.spare id fence = true := by
            simp only [sweepsSpare, hread, Option.all_some, Bool.or_eq_true,
              decide_eq_true_eq] at hok
            exact hok.resolve_left (not_le.mpr hold)
          rcases hinv.remove_spare hspare with ⟨hfinal, hothers, hI⟩
          exact acts_of_none hI hfinal hothers
        · rw [if_neg hold]
          exact hinv.acts_nothing
  · rw [if_neg hok]
    exact hinv.acts_nothing

theorem spool_rules :
    CrewRules guardedSpool (guardedSpoolAct ext id) handleDurableUploadRequest (SpoolInv id) (Rely id)
      (Guarantee id) OtherFence where
  symm a b h := by
    rcases h with h | h | h
    · exact .inr (.inl h)
    · exact .inl h
    · exact .inr (.inr h.symm)
  refl _ _ := .refl
  trans _ _ _ _ h₁ h₂ := h₁.trans h₂
  rely a b _ _ hapart _ hG := by
    refine ⟨hG.final, fun hopen => hG.others _ ?_⟩
    simpa [OtherFence, hopen] using hapart
  other e a s hinv hapart := by
    have hacts := hinv.acts ext e
    refine ⟨hacts.final, fun hopen => hacts.others _ ?_⟩
    intro r hr
    simpa [OtherFence, hopen] using hapart r hr
  inv e _ hinv := (hinv.acts ext e).inv
  start e _ hinv r hr := handles_request ((hinv.acts ext e).claimed r hr)

/-! ## Fences are handed out once -/

/-- The tables are as they were, or a call of the store has changed them. -/
def Stored (ext : Externals) (s s' : Spool) : Prop :=
  s'.tables = s.tables ∨ ∃ op, GatewayStep ext s.tables op s'.tables

theorem stored_exec (ext : Externals) (c : SpoolChoice) (op : SpoolOp) (s : Spool) :
    Stored ext s (guardedSpool c op s).1 := by
  have hconclude : ∀ s' reply, Stored ext s s' → Stored ext s (c.conclude s s' reply).1 := by
    intro s' reply h
    rcases conclude_cases c s s' reply with heq | heq
    · exact .inl (by rw [heq])
    · rw [heq]
      exact h
  unfold guardedSpool guardedExec
  by_cases hok : discardsSpare c op s = true
  · rw [if_pos hok]
    cases op with
    | openUploadTarget | prepareParent | readDirectory | discard claim fence | remove claim
    | fileMatches name claim => exact hconclude _ _ (.inl rfl)
    | create claim =>
      cases hread : s.read (.generation claim.fence) with
      | some content => exact .inl (by simp only [spoolExec, hread])
      | none =>
        simp only [spoolExec, hread]
        exact hconclude _ _ (.inl rfl)
    | receive claim =>
      refine .inl ?_
      cases hread : s.read (.generation claim.fence) with
      | none | some content => simp [spoolExec, hread, apply_ite Prod.fst]
    | rename claim =>
      cases hread : s.read (.generation claim.fence) with
      | none => exact .inl (by simp only [spoolExec, hread])
      | some content =>
        simp only [spoolExec, hread]
        exact hconclude _ _ (.inl rfl)
    | completeWorkerUpload i claim digest size =>
      rcases guarded_complete with heq | ⟨l, now, t, hrun, heq⟩
      · refine .inl ?_
        rw [← show guardedSpool c (.completeWorkerUpload i claim digest size) s = _ from if_pos hok,
          heq]
      · refine .inr ⟨.completeUpload l i claim.id claim.fence digest size now, ?_⟩
        rw [← show guardedSpool c (.completeWorkerUpload i claim digest size) s = _ from if_pos hok,
          heq]
        exact gatewayStep hrun
    | cancelWorkerUpload i claim =>
      rcases cancel_step ext s c i claim with heq | ⟨t, hstep, heq⟩
      · exact .inl (by rw [heq])
      · exact .inr ⟨_, by rw [heq]; exact hstep⟩
  · rw [if_neg hok]
    exact .inl rfl

theorem stored_act {e : SpoolAction} :
    Stored ext s (guardedSpoolAct ext id e s).1 := by
  unfold guardedSpoolAct guardedAct
  by_cases hok : sweepsSpare id e s = true
  · rw [if_pos hok]
    cases e with
    | store op =>
      by_cases htransfers : op.transfers = true
      · exact .inl (by simp [Spool.act, htransfers])
      refine .inr ⟨op, ?_⟩
      simp only [Spool.act, htransfers, Bool.false_eq_true, if_false]
      exact stepGateway_step ext s.tables op
    | request l i lease now contentLength provided =>
      cases hrun : claimWorkerUpload l s.tables i id lease now with
      | error e => exact .inl (by simp only [Spool.act, hrun])
      | ok claimed =>
        refine .inr ⟨.claimUpload l i id lease now, ?_⟩
        simp only [Spool.act, hrun]
        refine gatewayStep ?_
        simp [GatewayOp.run, hrun]
    | sweep fence before =>
      refine .inl ?_
      cases hread : s.read (.generation fence) with
      | none => simp only [Spool.act, hread]
      | some content =>
        simp only [Spool.act, hread, apply_ite Prod.fst, apply_ite Spool.tables]
        exact ite_self _
  · rw [if_neg hok]
    exact .inl rfl

theorem Issued.stored {s' : Spool} (h : Issued id r s) (hinv : SpoolInv id s)
    (hstored : Stored ext s s') : Issued id r s' := by
  rcases h with h | ⟨u, hu, hid, hfence⟩
  · exact .inl h
  rcases hstored with heq | ⟨op, hstep⟩
  · exact .inr ⟨u, heq ▸ hu, hid, hfence⟩
  · rcases (evolves_uploads hinv.keyed hstep).next u hu with ⟨u', hu', hrow⟩
    exact .inr ⟨u', hu', hrow.id_eq.trans hid, hfence.trans hrow.fence_le⟩

/-! ## Runs -/

/-- The requests of the pool are safe, and their fences have been handed out. -/
structure SpoolSafe (id : UploadId) (pool : SpoolPool) : Prop where
  crew : CrewSafe guardedSpool (SpoolInv id) (Rely id) (Guarantee id) OtherFence pool
  issued : ∀ j ∈ pool.jobs, Issued id j.label pool.state

/-- A new request is apart from all others: its fence is greater than any that was handed out. -/
theorem SpoolSafe.exclusive (h : SpoolSafe id pool)
    (m : Move SpoolAction SpoolChoice) :
    Exclusive (guardedSpoolAct ext id) OtherFence pool m := by
  cases m with
  | act e =>
    intro r hr j hj _
    rcases (h.crew.inv.acts ext e).fresh r hr with hdone | hfresh
    · exact .inr (.inl hdone)
    rcases h.issued j hj with hdone | ⟨u, hu, hid, hfence⟩
    · exact .inl hdone
    · have hlt := hfresh u hu hid
      exact .inr (.inr (by omega))
  | call i c | kill i => trivial

theorem SpoolSafe.step (h : SpoolSafe id pool) (m : Move SpoolAction SpoolChoice) :
    SpoolSafe id
      (stepCrew guardedSpool (guardedSpoolAct ext id) handleDurableUploadRequest pool m) := by
  refine ⟨h.crew.step (spool_rules) (h.exclusive m), ?_⟩
  refine stepCrew_labels (I := SpoolInv id) (L := Issued id) ?_ ?_ ?_ h.crew.inv h.issued
  · exact fun c op r s hinv hissued => hissued.stored hinv (stored_exec ext c op s)
  · exact fun e r s hinv hissued => hissued.stored hinv (stored_act)
  · exact fun e s hinv r hr => (hinv.acts ext e).issued r hr

theorem spoolSafe_init : SpoolSafe id SpoolPool.init := by
  refine ⟨⟨⟨nodup_nil, ?_, rfl⟩, ?_, List.Pairwise.nil⟩, ?_⟩
  · exact fun _ hu => absurd hu not_mem_nil
  · exact fun _ hj => absurd hj not_mem_nil
  · exact fun _ hj => absurd hj not_mem_nil

/-! ## Durability -/

/-- A request that finds the upload completed brings the recorded bytes to the destination. -/
theorem recovers {n : Nat} (hsize : u.size = some n) (hstate : u.state = .completed)
    (hprint : isFingerprint u.digest = true)
    (hkept : s.holds .destination u.digest n = true ∨ s.holds (.generation u.fence) u.digest n = true)
    (hclaim : r.claim = u.claim u.fence) {c : SpoolChoice} (hc : c.outcome = .performed) :
    let reached := alone spoolExec c (handleDurableUploadRequest r) s
    reached.2 = .result u.digest n ∧ reached.1.holds .destination u.digest n = true := by
  have hcompleted : r.claim.completed = true := by
    rw [hclaim]
    exact decide_eq_true hstate
  have hdigest : r.claim.digest = u.digest := by rw [hclaim]; rfl
  have hn : r.claim.size = n := by
    rw [hclaim]
    simp [Upload.claim, hsize]
  have hfence : r.claim.fence = u.fence := by rw [hclaim]; rfl
  have hconclude : ∀ s₁ s₂ reply, c.conclude s₁ s₂ reply = (s₂, reply) := by
    simp [SpoolChoice.conclude, hc]
  have hopened : alone spoolExec c (handleDurableUploadRequest r) s =
      alone spoolExec c (recoverCompletedUpload r) s := by
    unfold handleDurableUploadRequest
    simp [Prog.ask, bind, spoolExec, hconclude, hcompleted]
  rw [hopened]
  unfold recoverCompletedUpload
  simp only [Prog.ask, bind, Prog.call_bind, Prog.pure_bind', alone_call, spoolExec, hconclude, hdigest,
    hn, hfence, hprint, Bool.true_and]
  cases hdestination : s.holds .destination u.digest n with
  | true => exact ⟨rfl, hdestination⟩
  | false =>
    have hgeneration : s.holds (.generation u.fence) u.digest n = true := by
      simpa [hdestination] using hkept
    cases hread : s.read (.generation u.fence) with
    | none => simp [Spool.holds, hread] at hgeneration
    | some content =>
      have hsame : content.digest = u.digest ∧ content.size = n := by
        simpa [Spool.holds, hread] using hgeneration
      simp only [alone_call, spoolExec, hdigest, hn, hprint, hgeneration, hfence, hread, hconclude,
        Bool.and_self]
      simp [pure, Spool.holds, Spool.read, Spool.rename, hsame]

/-- A completed upload is at the destination or in its generation, from where the next request brings
it to the destination, and nobody has renamed a superseded generation to the destination. -/
structure UploadsDurable (id : UploadId) (s : Spool) : Prop where
  durable : ∀ u ∈ s.tables.uploads, u.id = id → u.state = .completed → ∃ n, u.size = some n ∧
    (s.holds .destination u.digest n = true ∨ s.holds (.generation u.fence) u.digest n = true)
  recovered : ∀ u ∈ s.tables.uploads, u.id = id → u.state = .completed → ∀ n, u.size = some n →
    ∀ (r : UploadRequest) (c : SpoolChoice), r.claim = u.claim u.fence → c.outcome = .performed →
      let reached := alone spoolExec c (handleDurableUploadRequest r) s
      reached.2 = .result u.digest n ∧ reached.1.holds .destination u.digest n = true
  clean : s.trespassed = false

/-- In every run of the broker in which nobody removes a generation that is needed, its own writer
apart, and a commit that is reported as an error has not happened, completed uploads are durable. -/
theorem uploads_durable_of_spared (ext : Externals) (id : UploadId)
    (moves : List (Move SpoolAction SpoolChoice))
    (hspared : Along (stepSpool ext id) (Obeys (sweepsSpare id) discardsSpare) SpoolPool.init moves) :
    UploadsDurable id (run (stepSpool ext id) SpoolPool.init moves).state := by
  have hsafe : SpoolSafe id (run (stepCrew guardedSpool (guardedSpoolAct ext id)
      handleDurableUploadRequest) SpoolPool.init moves) :=
    run_induction (fun _ m h => h.step m) spoolSafe_init
  have hrun : run (stepCrew guardedSpool (guardedSpoolAct ext id) handleDurableUploadRequest)
      SpoolPool.init moves = run (stepSpool ext id) SpoolPool.init moves := run_guarded hspared
  rw [hrun] at hsafe
  have hinv := hsafe.crew.inv
  refine ⟨?_, ?_, hinv.clean⟩
  · intro u hu hid hdone
    rcases (hinv.durable u hu hid hdone).kept with ⟨n, hsize, _, hkept⟩
    exact ⟨n, hsize, hkept⟩
  · intro u hu hid hdone n hsize r c hclaim hc
    rcases (hinv.durable u hu hid hdone).kept with ⟨m, hsize', hprint, hkept⟩
    rw [hsize] at hsize'
    cases hsize'
    exact recovers hsize hdone hprint hkept hclaim hc

/-! ## Two writers -/

def exampleDigest : String :=
  "2c26b46b68ffc68ff99b453c1d30413413422d706483bfa0f98a5e886266e7ae"

/-- A call that is performed and answered; whatever a request receives are three bytes. -/
def answeredCall (i : Nat) : Move SpoolAction SpoolChoice :=
  .call i {
    outcome := .performed, now := 6000000, ledger := exampleLedger, digest := exampleDigest, size := 3 }

/-- The worker of the example sends the upload at this time, for so long. -/
def exampleRequest (lease now : Time) : Move SpoolAction SpoolChoice :=
  .act (.request exampleLedger exampleIdentity lease now 3 exampleDigest)

/-- The worker's session is there, and it may send the upload 9. -/
def uploadPrepared : List (Move SpoolAction SpoolChoice) :=
  [.act (.store (.registerSession exampleLedger exampleIdentity 3000000)),
    .act (.store (.prepareUpload exampleIdentity 9 "job/package.gpkg.tar" 100))]

/-- One request receives the upload, commits it and is killed before the rename; the sweep leaves the
young generation alone and a second request brings it to the destination. -/
def recoveredUpload : List (Move SpoolAction SpoolChoice) :=
  uploadPrepared ++ exampleRequest 1000000 4000000 :: List.replicate 7 (answeredCall 0) ++
    [.kill 0, .act (.sweep 1 5000000), exampleRequest 1000000 6500000] ++
    List.replicate 4 (answeredCall 0)

theorem uploads_durable_recovered :
    let s := (run (stepSpool exampleExternals 9) SpoolPool.init recoveredUpload).state
    (s.tables.uploads.map (·.state) = [.completed] ∧
      s.holds .destination exampleDigest 3 = true) ∧ UploadsDurable 9 s := by
  have hspared : Along (stepSpool exampleExternals 9) (Obeys (sweepsSpare 9) discardsSpare)
      SpoolPool.init recoveredUpload := by
    decide +kernel
  exact ⟨by decide +kernel, uploads_durable_of_spared _ _ _ hspared⟩

/-- The first request stalls before it discards old generations and its lease runs out; the second one
receives the upload and commits it; then the first one goes on and discards what it finds. -/
def supersededUpload : List (Move SpoolAction SpoolChoice) :=
  uploadPrepared ++ exampleRequest 1000000 4000000 :: List.replicate 2 (answeredCall 0) ++
    exampleRequest 1000000 5500000 :: List.replicate 7 (answeredCall 1) ++
    List.replicate 2 (answeredCall 0)

theorem superseded_request_discards_upload :
    let s := (run (stepSpool exampleExternals 9) SpoolPool.init supersededUpload).state
    (s.tables.uploads.map fun u => (u.state, u.digest, u.size)) =
        [(.completed, exampleDigest, some 3)] ∧
      s.files = [] ∧ ¬ UploadsDurable 9 s := by
  have hstate : let s := (run (stepSpool exampleExternals 9) SpoolPool.init supersededUpload).state
      (s.tables.uploads.map fun u => (u.id, u.state, u.digest, u.size)) =
        [(9, .completed, exampleDigest, some 3)] ∧ s.files = [] := by
    decide +kernel
  rcases hstate with ⟨hrows, hfiles⟩
  rcases map_eq_singleton_iff.mp hrows with ⟨u, huploads, hu⟩
  simp only [Prod.mk.injEq] at hu
  refine ⟨by simp [huploads, hu.2], hfiles, ?_⟩
  intro h
  rcases h.durable u (by simp [huploads]) hu.1 hu.2.1 with ⟨n, _, hkept⟩
  simp [Spool.holds, Spool.read, hfiles, Files.read] at hkept

end PortageEngine.Gateway
