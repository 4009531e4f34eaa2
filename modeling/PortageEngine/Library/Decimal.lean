import Mathlib

/-!
# Decimal numbers in text

Two readers of decimal integers that agree on well-formed numbers and differ everywhere else:

* `atoi` accepts a text only if all of it is an optionally signed run of decimal digits whose value
  fits a signed 64-bit integer;
* `scanInt` skips leading blanks, reads as many digits as there are and ignores what follows.

The main fact is `scanInt_of_atoi`: whatever `atoi` accepts, `scanInt` reads with the same value.
`int64` is the wrap-around of signed 64-bit arithmetic.
-/

namespace PortageEngine.Library.Decimal

/-! ## Blanks -/

/-- The white space characters of Unicode that can be trimmed off a text. -/
def isSpace (c : Char) : Bool :=
  c = ' ' || (9 ≤ c.toNat && c.toNat ≤ 13) || c.toNat = 0x85 || c.toNat = 0xA0 ||
    c.toNat = 0x1680 || (0x2000 ≤ c.toNat && c.toNat ≤ 0x200A) || c.toNat = 0x2028 ||
    c.toNat = 0x2029 || c.toNat = 0x202F || c.toNat = 0x205F || c.toNat = 0x3000

/-- Drop white space at both ends of a list of characters. -/
def trimChars (cs : List Char) : List Char :=
  ((cs.dropWhile isSpace).reverse.dropWhile isSpace).reverse

def trimSpace (s : String) : String :=
  String.ofList (trimChars s.toList)

/-- The characters in front that take at most `n` bytes. -/
def keepBytes : Nat → List Char → List Char
  | _, [] => []
  | n, c :: cs => if c.utf8Size ≤ n then c :: keepBytes (n - c.utf8Size) cs else []

/-- A text cut after `n` bytes.  A cut inside a character is not modelled here. -/
def cutText (n : Nat) (s : String) : String :=
  String.ofList (keepBytes n s.toList)

theorem trimChars_eq_self {cs : List Char} (h : ∀ c ∈ cs, isSpace c = false) :
    trimChars cs = cs := by
  have hfront : cs.dropWhile isSpace = cs := by
    cases cs with
    | nil => rfl
    | cons c cs => simp [h c (by simp)]
  have hback : cs.reverse.dropWhile isSpace = cs.reverse := by
    cases hcs : cs.reverse with
    | nil => rfl
    | cons c rest =>
      have hc : c ∈ cs := by
        rw [← List.mem_reverse, hcs]
        simp
      simp [h c hc]
  simp [trimChars, hfront, hback]

/-! ## Signed 64-bit integers -/

/-- What 64-bit arithmetic makes of a result: its residue between `-2 ^ 63` and `2 ^ 63 - 1`. -/
def int64 (n : Int) : Int :=
  Int.bmod n (2 ^ 64)

variable {n : Int} {s : String}

theorem int64_eq_self (hlow : -(2 ^ 63) ≤ n) (hhigh : n < 2 ^ 63) : int64 n = n := by
  unfold int64
  rw [Int.bmod_def]
  split <;> omega

theorem int64_add_neg {m : Int} (hm : m < 2 ^ 63) (hn : n < 2 ^ 63) (hsum : 2 ^ 63 ≤ m + n) :
    int64 (m + n) < 0 := by
  unfold int64
  rw [Int.bmod_def]
  split <;> omega

/-! ## Digits and signs -/

/-- The number a run of decimal digits denotes. -/
def digitsValue (ds : List Char) : Nat :=
  ds.foldl (fun acc c => acc * 10 + (c.toNat - '0'.toNat)) 0

/-- Split an optional sign off the front: `true` for a minus sign. -/
def splitSign : List Char → Bool × List Char
  | '+' :: rest => (false, rest)
  | '-' :: rest => (true, rest)
  | rest => (false, rest)

/-- The value of a signed digit run, if there is a digit and the value is a 64-bit integer. -/
def signedValue (negative : Bool) (digits : List Char) : Option Int :=
  let value : Int := if negative then -(digitsValue digits : Int) else digitsValue digits
  if digits ≠ [] ∧ -(2 ^ 63 : Int) ≤ value ∧ value < 2 ^ 63 then some value else none

def atoi (s : String) : Option Int :=
  let (negative, digits) := splitSign s.toList
  if digits.all Char.isDigit then signedValue negative digits else none

/-- Read the decimal integer at the front of a text, after leading blanks. A line break is not a
blank here, so a text that starts with one has no number at its front. -/
def scanInt (s : String) : Option Int :=
  let (negative, rest) := splitSign (s.toList.dropWhile fun c => isSpace c && c ≠ '\n')
  signedValue negative (rest.takeWhile Char.isDigit)

/-! ## Agreement of the two readers -/

theorem isSpace_of_isDigit {c : Char} (h : c.isDigit = true) : isSpace c = false := by
  simp only [Char.isDigit, Bool.and_eq_true, decide_eq_true_eq, UInt32.le_iff_toNat_le] at h
  change 48 ≤ c.toNat ∧ c.toNat ≤ 57 at h
  have hne : c ≠ ' ' := by
    rintro rfl
    exact absurd h.1 (by decide)
  simp only [isSpace, hne, decide_false, Bool.false_or, Bool.or_eq_false_iff,
    Bool.and_eq_false_iff, decide_eq_false_iff_not]
  omega

theorem mem_splitSign {c : Char} {cs : List Char} (hc : c ∈ cs) :
    c = '+' ∨ c = '-' ∨ c ∈ (splitSign cs).2 := by
  unfold splitSign
  split
  · rcases List.mem_cons.mp hc with rfl | hc
    · exact Or.inl rfl
    · exact Or.inr (Or.inr hc)
  · rcases List.mem_cons.mp hc with rfl | hc
    · exact Or.inr (Or.inl rfl)
    · exact Or.inr (Or.inr hc)
  · exact Or.inr (Or.inr hc)

theorem digits_of_atoi (h : atoi s = some n) :
    ∀ c ∈ (splitSign s.toList).2, c.isDigit = true := by
  unfold atoi at h
  simp only at h
  split at h
  · rename_i hall
    exact List.all_eq_true.mp hall
  · cases h

theorem chars_of_atoi (h : atoi s = some n) :
    ∀ c ∈ s.toList, isSpace c = false := by
  intro c hc
  rcases mem_splitSign hc with rfl | rfl | hmem
  · decide
  · decide
  · exact isSpace_of_isDigit (digits_of_atoi h c hmem)

theorem trimSpace_of_atoi (h : atoi s = some n) : trimSpace s = s := by
  simp [trimSpace, trimChars_eq_self (chars_of_atoi h)]

theorem scanInt_of_atoi (h : atoi s = some n) : scanInt s = some n := by
  have hfront : (s.toList.dropWhile fun c => isSpace c && c ≠ '\n') = s.toList := by
    cases hs : s.toList with
    | nil => rfl
    | cons c rest => simp [chars_of_atoi h c (by simp [hs])]
  have htake : (splitSign s.toList).2.takeWhile Char.isDigit = (splitSign s.toList).2 :=
    List.takeWhile_eq_self_iff.2 (digits_of_atoi h)
  have hall : (splitSign s.toList).2.all Char.isDigit = true :=
    List.all_eq_true.mpr (digits_of_atoi h)
  simp only [atoi, hall, if_true] at h
  simp only [scanInt, hfront, htake]
  exact h

theorem ne_empty_of_atoi (h : atoi s = some n) : s ≠ "" := by
  rintro rfl
  simp [atoi, splitSign, signedValue] at h

example : atoi "+042" = some 42 ∧ atoi " 42" = none ∧ scanInt " 42 GiB" = some 42 := by decide

end PortageEngine.Library.Decimal
