import PortageEngine.Library.Runs
import PortageEngine.Library.Utf8

/-!
# Ingestion of remote build logs

The server polls the log of a builder.  `appendRemoteBuildLog` takes the part that is new since the
last observation, and `appendJobLog` redacts it and records its lines.  Go strings are byte lists;
`rx` is `regexp`'s `ReplaceAllString`.  Timestamps and the cut of logs above 2 MiB are left out.
-/

namespace PortageEngine.Builder

open List Library
open Utf8 (Bytes)

abbrev ReplaceAllString := (pattern replacement : String) → Bytes → Bytes

def bytes (s : String) : Bytes := s.toUTF8.toList

def redactJobLogLine (rx : ReplaceAllString) (line : Bytes) : Bytes :=
  let line := rx "(?i)(authorization\\s*[:=]\\s*(?:bearer\\s+|pveapitoken=))\\S+" "$\x7b1\x7d<redacted>" line
  let line := rx "(?i)\\b(password|passwd|token_secret|api_key|pm_pass|secret)\\s*([=:])\\s*([^\\s,;]+)"
    "$\x7b1\x7d$\x7b2\x7d<redacted>" line
  let line := rx "(?i)([?&](?:token|secret|password|api_key)=)[^&#\\s]+" "$\x7b1\x7d<redacted>" line
  let line := rx "(/verify-binhost/)[^/\\s?]+" "$\x7b1\x7d<redacted>" line
  rx "(https?://)[^/\\s:@]+:[^/@\\s]+@" "$\x7b1\x7d<redacted>@" line

/-- What is left of a text: no escape sequences, no carriage returns, no secrets. -/
def cleanLog (rx : ReplaceAllString) (text : Bytes) : Bytes :=
  redactJobLogLine rx ((rx "\x1b\\[[0-9;]*[a-zA-Z]" "" text).filter (· ≠ 13))

/-- The lines that `appendJobLog` records. -/
def appendJobLog (rx : ReplaceAllString) (text : Bytes) : List Bytes :=
  ((cleanLog rx text).rdropWhile (· = 10)).splitOn 10

structure RemoteLog where
  previous : Bytes
  log : List Bytes

/-- A chunk without the line ends after it, and with the stage before each of its lines. -/
def stageChunk (chunk : Bytes) : Bytes :=
  bytes "[build] " ++ chunk.flatMap fun c => if c = 10 then 10 :: bytes "[build] " else [c]

def trimChunk (chunk : Bytes) : Bytes := chunk.rdropWhile fun c => c = 13 || c = 10

def appendRemoteBuildLog (rx : ReplaceAllString) (s : RemoteLog) (current : Bytes) : RemoteLog :=
  if current = [] then s
  else
    let restarted := !s.previous.isPrefixOf current
    let start := if restarted then 0 else s.previous.length
    let log := if restarted then
      s.log ++ appendJobLog rx (bytes "[build] remote log restarted or was truncated") else s.log
    if start = current.length then s
    else
      let chunk := trimChunk (current.drop start)
      ⟨current, if chunk = [] then log else log ++ appendJobLog rx (stageChunk chunk)⟩

/-- The lines recorded for a sequence of observations. -/
def ingest (rx : ReplaceAllString) (observations : List Bytes) : List Bytes :=
  (Runs.run (appendRemoteBuildLog rx) ⟨[], []⟩ observations).log

section Polling

variable {rx : ReplaceAllString} {s : RemoteLog} {current x line : Bytes}

/-- The lines recorded for one chunk. -/
def recorded (rx : ReplaceAllString) (chunk : Bytes) : List Bytes :=
  if trimChunk chunk = [] then [] else appendJobLog rx (stageChunk (trimChunk chunk))

/-- The last observation ended with a whole line, and cleaning does not look across its end. -/
structure Seam (rx : ReplaceAllString) (line x : Bytes) : Prop where
  visible : line ≠ [] ∧ trimChunk line = line
  apart : trimChunk x ≠ [] → cleanLog rx (stageChunk line ++ 10 :: stageChunk (trimChunk x)) =
    cleanLog rx (stageChunk line) ++ 10 :: cleanLog rx (stageChunk (trimChunk x))
  ends : (cleanLog rx (stageChunk line)).rdropWhile (· = 10) = cleanLog rx (stageChunk line)
  begins : trimChunk x ≠ [] → (cleanLog rx (stageChunk (trimChunk x))).rdropWhile (· = 10) ≠ []

/-- The log has grown since the last observation, if there was one, at such a seam. -/
def Seamless (rx : ReplaceAllString) (s : RemoteLog) (current : Bytes) : Prop :=
  s.previous = [] ∨ ∃ line x, s.previous = line ++ [10] ∧ current = line ++ 10 :: x ∧ Seam rx line x

theorem rdropWhile_append {p : UInt8 → Bool} {a b : Bytes} :
    (a ++ b).rdropWhile p = if b.rdropWhile p = [] then a.rdropWhile p else a ++ b.rdropWhile p := by
  simp only [List.rdropWhile, reverse_append, dropWhile_append, List.isEmpty_iff,
    reverse_eq_nil_iff]
  split <;> simp

theorem trimChunk_append {a b : Bytes} :
    trimChunk (a ++ b) = if trimChunk b = [] then trimChunk a else a ++ trimChunk b :=
  rdropWhile_append

theorem append_grown (h : current = s.previous ++ x) :
    appendRemoteBuildLog rx s current = ⟨current, s.log ++ recorded rx x⟩ := by
  subst h
  have hgrown : s.previous.isPrefixOf (s.previous ++ x) = true :=
    isPrefixOf_iff_prefix.mpr (prefix_append _ _)
  unfold appendRemoteBuildLog recorded
  simp only [hgrown, Bool.not_true, Bool.false_eq_true, if_false, drop_left]
  cases x with
  | nil => simp [trimChunk]
  | cons c x =>
    by_cases hchunk : trimChunk (c :: x) = []
    · simp [hchunk]
    · simp [hchunk]

theorem ingest_single : ingest rx [current] = recorded rx current :=
  congrArg RemoteLog.log (append_grown (s := ⟨[], []⟩) rfl)

theorem stageChunk_append : stageChunk (line ++ 10 :: x) = stageChunk line ++ 10 :: stageChunk x := by
  simp [stageChunk]

theorem recorded_seam (h : Seam rx line x) :
    recorded rx (line ++ 10 :: x) = recorded rx (line ++ [10]) ++ recorded rx x := by
  have hline : trimChunk (line ++ [10]) = line :=
    trimChunk_append.trans h.visible.2
  have htrim : trimChunk (line ++ 10 :: x) =
      if trimChunk x = [] then line else line ++ 10 :: trimChunk x := by
    rw [append_cons, trimChunk_append, hline, ← append_cons]
  by_cases hx : trimChunk x = []
  · simp [recorded, htrim, hline, hx]
  have hsplit : ∀ a b : Bytes, (a ++ 10 :: b).splitOn 10 = a.splitOn 10 ++ b.splitOn 10 :=
    fun a b => splitOnP_append_cons a b (by simp)
  have hlines : appendJobLog rx (stageChunk (line ++ 10 :: trimChunk x)) =
      appendJobLog rx (stageChunk line) ++ appendJobLog rx (stageChunk (trimChunk x)) := by
    unfold appendJobLog
    rw [stageChunk_append, h.apart hx, append_cons, rdropWhile_append, if_neg (h.begins hx),
      ← append_cons, hsplit, h.ends]
  simp [recorded, htrim, hline, hx, h.visible.1, hlines]

/-- Whatever has been observed is recorded as if it had been observed at once. -/
theorem append_seamless (hlog : s.log = ingest rx [s.previous]) (h : Seamless rx s current) :
    appendRemoteBuildLog rx s current = ⟨current, ingest rx [current]⟩ := by
  rcases h with hempty | ⟨line, x, hprevious, rfl, hseam⟩
  · rw [append_grown (x := current) (by simp [hempty]), hlog, hempty, ingest_single, ingest_single]
    rfl
  · rw [append_grown (x := x) (by simp [hprevious]), hlog, hprevious, ingest_single, ingest_single,
      recorded_seam hseam]

end Polling

/-- The observations may be any growing prefixes of the log that meet at seams. -/
theorem ingest_independent_of_polling (rx : ReplaceAllString) (observations : List Bytes)
    (whole : Bytes) (h : Runs.Along (appendRemoteBuildLog rx) (Seamless rx) ⟨[], []⟩
      (observations ++ [whole])) : ingest rx (observations ++ [whole]) = ingest rx [whole] := by
  rcases Runs.along_append.mp h with ⟨hbefore, hlast, _⟩
  have hlog := Runs.run_invariant (I := fun s => s.log = ingest rx [s.previous])
    (fun s current hs hc => by rw [append_seamless hs hc]) rfl hbefore
  rw [ingest, Runs.run_append, Runs.run_cons, append_seamless hlog hlast]
  rfl

/-- Two lines, observed one by one and in any case unredacted. -/
theorem ingest_independent_of_polling_lines :
    ingest (fun _ _ text => text) [bytes "a\n", bytes "a\nb\n"] =
      ingest (fun _ _ text => text) [bytes "a\nb\n"] :=
  ingest_independent_of_polling _ [_] _ ⟨.inl rfl, .inr ⟨bytes "a", bytes "b\n", by decide +kernel,
    by decide +kernel, by decide +kernel, by decide +kernel, by decide +kernel, by decide +kernel⟩, trivial⟩

/-- `ReplaceAllString` on the texts of the next run: only the rule for keys and values has matches. -/
def passwordRule (_ replacement : String) (text : Bytes) : Bytes :=
  if replacement = "$\x7b1\x7d$\x7b2\x7d<redacted>" &&
      [bytes "[build] password=hunter2", bytes "[build] password=hun"].contains text then
    bytes "[build] password=<redacted>"
  else text

/-- A secret that is observed in two parts: its rest is recorded as a line of its own. -/
theorem secret_cut_by_polling :
    ingest passwordRule [bytes "password=hun", bytes "password=hunter2"] =
        [bytes "[build] password=<redacted>", bytes "[build] ter2"] ∧
      ingest passwordRule [bytes "password=hunter2"] = [bytes "[build] password=<redacted>"] := by
  decide +kernel

end PortageEngine.Builder
