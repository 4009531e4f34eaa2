import PortageEngine.Library.Runs

/-!
# The builder's job file

`JobPersister` keeps the jobs of a builder in `jobs.json` (`internal/builder/persistence.go`): its
goroutine saves them at every tick and once more at `Stop`, and workers save them with `SaveNow`.
A save takes a snapshot of the jobs and then calls `JobStore.Save`.  Only the latter holds the
store's lock, so snapshots can be written in another order than they were taken.
-/

namespace PortageEngine.Builder

open Library.Runs

/-- What is saved of a job; a zero `EndTime` is `none`. -/
structure SavedJob (α : Type) where
  status : String
  endTime : Option Int
  fields : α

abbrev SavedJobs (α : Type) := List (String × SavedJob α)

variable {α : Type}

def cleanOldJobs (cutoff : Int) (jobs : SavedJobs α) : SavedJobs α :=
  jobs.filter fun (_, job) =>
    job.status = "queued" || job.status = "building" || job.endTime.all (cutoff < ·)

/-- A copy of the jobs: the number of changes they had seen, and the cutoff of a tick that removes
old ones. -/
structure Snapshot where
  version : Nat
  cutoff : Option Int

/-- What a snapshot holds, where `jobsAt n` are the jobs after `n` changes. -/
def Snapshot.jobs (jobsAt : Nat → SavedJobs α) (c : Snapshot) : SavedJobs α :=
  c.cutoff.elim id cleanOldJobs (jobsAt c.version)

/-- The saves in flight are those of the persister's goroutine, number 0, and of workers.  Of the
saves that have returned success, the last one written is the first. -/
structure JobFile where
  version : Nat
  stopped : Bool
  inFlight : Nat → Option Snapshot
  saved : List Snapshot

def JobFile.init : JobFile :=
  ⟨0, false, fun _ => none, []⟩

/-- `Load` in a process that starts now: the file holds what was renamed last. -/
def JobFile.load (jobsAt : Nat → SavedJobs α) (s : JobFile) : SavedJobs α :=
  (s.saved.head?.map (·.jobs jobsAt)).getD []

inductive SaveOp
  | change
  | tick (cutoff : Option Int)
  | stop
  | saveNow (worker : Nat)
  | save (x : Nat) (success : Bool)

/-- A goroutine that is not saving takes a snapshot. -/
def JobFile.capture (s : JobFile) (x : Nat) (cutoff : Option Int) : JobFile :=
  if (s.inFlight x).isSome then s
  else { s with inFlight := fun y => if y = x then some ⟨s.version, cutoff⟩ else s.inFlight y }

def stepJobFile (s : JobFile) : SaveOp → JobFile
  | .change => { s with version := s.version + 1 }
  | .tick cutoff => if s.stopped then s else s.capture 0 cutoff
  | .stop =>
    if s.stopped || (s.inFlight 0).isSome then s else { s.capture 0 none with stopped := true }
  | .saveNow worker => s.capture (worker + 1) none
  | .save x success =>
    match s.inFlight x with
    | none => s
    | some c => { s with
        inFlight := fun y => if y = x then none else s.inFlight y
        saved := if success then c :: s.saved else s.saved }

/-- No snapshot is taken while a save is between its snapshot and its end. -/
def Alone (s : JobFile) : SaveOp → Prop
  | .change | .save _ _ => True
  | _ => ∀ x, s.inFlight x = none

/-- One save at a time, and each with a snapshot as new as those before. -/
structure JobFile.Inv (s : JobFile) : Prop where
  alone : ∀ x c, s.inFlight x = some c → ∀ y, y ≠ x → s.inFlight y = none
  inFlight : ∀ x c, s.inFlight x = some c → c.version ≤ s.version ∧
    ∀ d ∈ s.saved, d.version ≤ c.version
  saved : ∀ d ∈ s.saved, d.version ≤ s.version
  sorted : s.saved.Pairwise fun c d => d.version ≤ c.version

variable {s : JobFile} {op : SaveOp}

theorem JobFile.Inv.capture (h : s.Inv) (hidle : ∀ x, s.inFlight x = none) (x : Nat)
    (cutoff : Option Int) : (s.capture x cutoff).Inv := by
  simp only [JobFile.capture, hidle, Option.isSome_none, Bool.false_eq_true, if_false]
  refine ⟨?_, ?_, h.saved, h.sorted⟩
  · intro y c hc z hz
    by_cases hy : y = x <;> simp_all
  · intro y c hc
    by_cases hy : y = x
    · cases (if_pos hy).symm.trans hc
      exact ⟨Nat.le_refl _, h.saved⟩
    · cases (if_neg hy).symm.trans hc

theorem JobFile.Inv.save (h : s.Inv) (x : Nat) (success : Bool) :
    (stepJobFile s (.save x success)).Inv := by
  simp only [stepJobFile]
  cases hx : s.inFlight x with
  | none => exact h
  | some c =>
    have hidle : ∀ y, (if y = x then none else s.inFlight y) = none := by
      intro y
      split
      · rfl
      · exact h.alone x c hx y ‹_›
    rcases h.inFlight x c hx with ⟨hversion, hnewer⟩
    simp only [hidle]
    cases success with
    | false => exact ⟨nofun, nofun, h.saved, h.sorted⟩
    | true =>
      exact ⟨nofun, nofun, List.forall_mem_cons.mpr ⟨hversion, h.saved⟩,
        List.pairwise_cons.mpr ⟨hnewer, h.sorted⟩⟩

theorem JobFile.Inv.step (h : s.Inv) (halone : Alone s op) : (stepJobFile s op).Inv := by
  cases op with
  | change =>
    refine ⟨h.alone, ?_, fun d hd => Nat.le_succ_of_le (h.saved d hd), h.sorted⟩
    intro x c hc
    rcases h.inFlight x c hc with ⟨hle, hnewer⟩
    exact ⟨Nat.le_succ_of_le hle, hnewer⟩
  | tick cutoff =>
    simp only [stepJobFile]
    split
    · exact h
    · exact h.capture halone 0 cutoff
  | stop =>
    simp only [stepJobFile]
    split
    · exact h
    · have hcaptured := h.capture halone 0 none
      exact ⟨hcaptured.alone, hcaptured.inFlight, hcaptured.saved, hcaptured.sorted⟩
  | saveNow => exact h.capture halone _ none
  | save x success => exact h.save x success

/-- While no two saves overlap, a process that starts at any time loads the jobs of a save that has
succeeded, at least as new as those of every other one, apart from jobs removed by age. -/
theorem load_of_alone (jobsAt : Nat → SavedJobs α) (ops : List SaveOp)
    (h : Along stepJobFile Alone .init ops) :
    let s := run stepJobFile .init ops
    ∀ c ∈ s.saved, ∃ f ∈ s.saved, c.version ≤ f.version ∧ s.load jobsAt = f.jobs jobsAt := by
  intro s c hc
  have hinv : s.Inv := run_invariant (fun _ _ hs => hs.step) ⟨nofun, nofun, nofun, .nil⟩ h
  have hsorted := hinv.sorted
  unfold JobFile.load
  cases hsaved : s.saved with
  | nil => simp [hsaved] at hc
  | cons f rest =>
    rw [hsaved] at hc hsorted
    refine ⟨f, List.mem_cons_self, ?_, rfl⟩
    rcases List.mem_cons.mp hc with rfl | hc
    · exact Nat.le_refl _
    · exact (List.pairwise_cons.mp hsorted).1 c hc

/-- A builder with one job, which ends with the first change. -/
def oneJob (n : Nat) : SavedJobs Unit :=
  [("job", if n = 0 then ⟨"building", none, ()⟩ else ⟨"success", some 1, ()⟩)]

theorem load_of_alone_stop :
    let s := run stepJobFile .init [.saveNow 0, .save 1 true, .change, .stop, .save 0 true]
    ∃ f ∈ s.saved, 1 ≤ f.version ∧ s.load oneJob = f.jobs oneJob :=
  load_of_alone oneJob _ (by simp [Along, Alone, stepJobFile, JobFile.init, JobFile.capture])
    ⟨1, none⟩ (by simp [run, stepJobFile, JobFile.init, JobFile.capture])

/-- A worker's snapshot is written after the later one of the final save. -/
theorem final_save_overwritten :
    let s := run stepJobFile .init [.saveNow 0, .change, .stop, .save 0 true, .save 1 true]
    s.saved.map (·.version) = [0, 1] ∧ (s.load oneJob).map (·.2.status) = ["building"] := by
  decide

end PortageEngine.Builder
