import PortageEngine.Library.Process
import PortageEngine.Storage.Documents

/-!
# The object store

Objects are create-only: uploading a key again is accepted if the content is the same.  The channel
pointer is the one mutable object; it is replaced by compare-and-swap on its version.  `channel` keeps
every pointer the channel has held, the newest first, so the version is their number.  Deleting and
listing objects is left to maintenance and not modelled.

A request may be performed, fail without effect, or be performed although its answer is lost.  Time
passes between two requests.
-/

namespace PortageEngine.Storage

open Library Library.Process Packages

structure StoredObject where
  key : Key
  document : Document

structure Bucket where
  clock : Time
  objects : List StoredObject
  channel : List ChannelPointer

inductive StoreError
  | notFound
  | objectConflict
  | compareAndSwapConflict
  | unavailable

def StoreError.text : StoreError → String
  | .notFound => "storage object not found"
  | .objectConflict => "immutable object already exists with different content"
  | .compareAndSwapConflict => "object compare-and-swap conflict"
  | .unavailable => "storage backend unavailable"

inductive Op
  | now
  | inspect (key : Key)
  | download (key : Key)
  | downloadVersion
  | upload (key : Key) (document : Document)
  | compareAndSwap (pointer : ChannelPointer) (expected : Nat)

def Op.reads : Op → Bool
  | .upload _ _ => false
  | .compareAndSwap _ _ => false
  | _ => true

inductive Reply
  | time (now : Time)
  | done
  | found (answer : Bool)
  | document (document : Document)
  | version (document : Document) (version : Nat)
  | failed (error : StoreError)

inductive Outcome
  | performed
  | lost
  | failed
  deriving DecidableEq

/-- How a request goes: what becomes of it, after how much time. -/
structure Choice where
  outcome : Outcome
  delay : Time

namespace Bucket

/-- The content of an object other than the channel pointer. -/
def lookup (b : Bucket) (key : Key) : Option Document :=
  (b.objects.find? fun o => o.key = key).map StoredObject.document

def content (b : Bucket) : Key → Option Document
  | .channel => b.channel.head?.map .pointer
  | key => b.lookup key

def tick (b : Bucket) (delay : Time) : Bucket :=
  { b with clock := b.clock + delay }

def store (b : Bucket) (key : Key) (document : Document) : Bucket :=
  { b with objects := b.objects ++ [⟨key, document⟩] }

def select (b : Bucket) (pointer : ChannelPointer) : Bucket :=
  { b with channel := pointer :: b.channel }

def perform (b : Bucket) : Op → Bucket × Reply
  | .now => (b, .time b.clock)
  | .inspect key => (b, .found (b.content key).isSome)
  | .download key =>
    match b.content key with
    | none => (b, .failed .notFound)
    | some document => (b, .document document)
  | .downloadVersion =>
    match b.channel with
    | [] => (b, .failed .notFound)
    | pointer :: _ => (b, .version (.pointer pointer) b.channel.length)
  | .upload key document =>
    match b.lookup key with
    | none => (b.store key document, .done)
    | some stored =>
      if digestBytes stored = digestBytes document then (b, .done)
      else (b, .failed .objectConflict)
  | .compareAndSwap pointer expected =>
    -- The version `0` asks for a channel that does not exist.
    if b.channel.length = expected then (b.select pointer, .done)
    else (b, .failed .compareAndSwapConflict)

def exec (c : Choice) (op : Op) (b : Bucket) : Bucket × Reply :=
  match c.outcome with
  | .performed => (b.tick c.delay).perform op
  | .lost => (((b.tick c.delay).perform op).1, .failed .unavailable)
  | .failed => (b.tick c.delay, .failed .unavailable)

/-! ## What requests do -/

variable {b : Bucket} {delay : Time} {key : Key}

@[simp] theorem tick_channel : (b.tick delay).channel = b.channel := rfl
@[simp] theorem tick_lookup :
    (b.tick delay).lookup key = b.lookup key := rfl

theorem tick_content :
    (b.tick delay).content key = b.content key := by
  cases key <;> rfl

theorem lookup_store (key' : Key) (document : Document) (hnone : b.lookup key = none) :
    (b.store key document).lookup key' = if key' = key then some document else b.lookup key' := by
  by_cases hkey : key' = key
  · subst hkey
    have hfind : b.objects.find? (fun o => o.key = key') = none := by
      simpa [lookup] using hnone
    simp only [lookup, store, List.find?_append, hfind]
    simp
  · have hne : ¬(key = key') := fun h => hkey h.symm
    simp [lookup, store, hkey, hne]

theorem store_keeps {key' : Key} {document document' : Document} (hnone : b.lookup key = none)
    (h : b.lookup key' = some document') :
    (b.store key document).lookup key' = some document' := by
  rw [lookup_store _ _ hnone, if_neg, h]
  rintro rfl
  rw [hnone] at h
  cases h

section Exec

variable {c : Choice} {b : Bucket} {document : Document}

theorem exec_cases (c : Choice) (op : Op) (b : Bucket) :
    (exec c op b).1 = b.tick c.delay ∨
    (∃ key document, op = .upload key document ∧ b.lookup key = none ∧
      (exec c op b).1 = (b.tick c.delay).store key document) ∨
    ∃ pointer, op = .compareAndSwap pointer b.channel.length ∧
      (exec c op b).1 = (b.tick c.delay).select pointer := by
  have hperform : ((b.tick c.delay).perform op).1 = b.tick c.delay ∨
      (∃ key document, op = .upload key document ∧ b.lookup key = none ∧
        ((b.tick c.delay).perform op).1 = (b.tick c.delay).store key document) ∨
      ∃ pointer, op = .compareAndSwap pointer b.channel.length ∧
        ((b.tick c.delay).perform op).1 = (b.tick c.delay).select pointer := by
    cases op with
    | now | inspect key => exact Or.inl rfl
    | download key | downloadVersion =>
      refine Or.inl ?_
      simp only [perform]
      split <;> rfl
    | upload key document =>
      cases hlookup : b.lookup key with
      | none => exact Or.inr (Or.inl ⟨key, document, rfl, hlookup, by simp [perform, hlookup]⟩)
      | some stored =>
        refine Or.inl ?_
        simp only [perform, tick_lookup, hlookup]
        split <;> rfl
    | compareAndSwap pointer expected =>
      by_cases hversion : b.channel.length = expected
      · exact Or.inr (Or.inr ⟨pointer, by rw [hversion], by simp [perform, hversion]⟩)
      · exact Or.inl (by simp [perform, hversion])
  rcases c with ⟨outcome, delay⟩
  cases outcome with
  | performed | lost => exact hperform
  | failed => exact Or.inl rfl

theorem exec_reads {op : Op} (h : op.reads = true) : (exec c op b).1 = b.tick c.delay := by
  rcases exec_cases c op b with hcase | ⟨_, _, rfl, _⟩ | ⟨_, rfl, _⟩
  · exact hcase
  all_goals cases h

theorem exec_answer (op : Op) (h : ∀ e, (exec c op b).2 ≠ .failed e) :
    exec c op b = (b.tick c.delay).perform op := by
  rcases c with ⟨outcome, delay⟩
  cases outcome with
  | performed => rfl
  | lost | failed => exact absurd rfl (h .unavailable)

theorem exec_inspect {answer : Bool} (h : (exec c (.inspect key) b).2 = .found answer) :
    answer = (b.content key).isSome := by
  have hexec := exec_answer (c := c) (b := b) (.inspect key) (by simp [h])
  rw [hexec] at h
  cases h
  rw [tick_content]

theorem exec_download
    (h : (exec c (.download key) b).2 = .document document) : b.content key = some document := by
  have hexec := exec_answer (c := c) (b := b) (.download key) (by simp [h])
  rw [hexec] at h
  simp only [perform, tick_content] at h
  split at h
  · cases h
  rename_i found hfound
  cases h
  exact hfound

theorem exec_downloadVersion {version : Nat}
    (h : (exec c .downloadVersion b).2 = .version document version) :
    ∃ pointer rest, b.channel = pointer :: rest ∧ document = .pointer pointer ∧
      version = b.channel.length := by
  have hexec := exec_answer (c := c) (b := b) .downloadVersion (by simp [h])
  rw [hexec] at h
  simp only [perform, tick_channel] at h
  split at h
  · cases h
  rename_i pointer rest hchannel
  cases h
  exact ⟨pointer, rest, hchannel, rfl, rfl⟩

theorem exec_upload (h : (exec c (.upload key document) b).2 = .done) :
    (exec c (.upload key document) b).1.lookup key = some document := by
  have hexec := exec_answer (c := c) (b := b) (.upload key document) (by simp [h])
  rw [hexec] at h ⊢
  cases hlookup : b.lookup key with
  | none =>
    have hstore := lookup_store (b := b.tick c.delay) key document hlookup
    simpa [perform, hlookup] using hstore
  | some stored =>
    simp only [perform, tick_lookup, hlookup] at h ⊢
    split at h
    · rename_i hdigest
      rw [if_pos hdigest, tick_lookup, hlookup, digestBytes_injective hdigest]
    · cases h

theorem exec_compareAndSwap {pointer : ChannelPointer} {expected : Nat}
    (h : (exec c (.compareAndSwap pointer expected) b).2 = .done) :
    (exec c (.compareAndSwap pointer expected) b).1 = (b.tick c.delay).select pointer := by
  have hexec := exec_answer (c := c) (b := b) (.compareAndSwap pointer expected) (by simp [h])
  rw [hexec] at h ⊢
  by_cases hversion : b.channel.length = expected
  · simp [perform, hversion]
  · simp [perform, hversion] at h

end Exec

end Bucket

end PortageEngine.Storage
