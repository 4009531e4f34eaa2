import PortageEngine.Library.Decimal

/-!
# Cutting texts into pieces

Functions on lists that look at two neighbouring elements at a time, as text formats do with line
ends: `collapse a b` deletes an `a` right before a `b`, `splitPairs x` cuts at each pair `x x`, and
`cutPair a b` cuts at the first `a b`.  `PairFree a b` says that no `a` stands right before a `b`.

The main fact is `splitPairs_intercalate`: blocks joined by `x x` are found again by `splitPairs`.
-/

namespace PortageEngine.Library.Text

open List Decimal

section Pairs

variable {α : Type}

/-- No `a` stands right before a `b`. -/
def PairFree (a b : α) (xs : List α) : Prop :=
  xs.IsChain fun x y => ¬(x = a ∧ y = b)

variable {a b x : α} {xs : List α}

theorem pairFree_append {ys : List α} :
    PairFree a b (xs ++ ys) ↔ PairFree a b xs ∧ PairFree a b ys ∧
      ∀ x ∈ xs.getLast?, ∀ y ∈ ys.head?, ¬(x = a ∧ y = b) :=
  isChain_append

theorem PairFree.of_infix {ys : List α} (h : PairFree a b ys) (hsub : xs <:+: ys) :
    PairFree a b xs :=
  List.IsChain.infix h hsub

@[simp] theorem pairFree_nil : PairFree a b [] := List.IsChain.nil

@[simp] theorem pairFree_singleton : PairFree a b [x] := List.IsChain.singleton x

theorem pairFree_of_not_mem (h : a ∉ xs) : PairFree a b xs := by
  induction xs with
  | nil => exact List.IsChain.nil
  | cons x xs ih =>
    refine isChain_cons.mpr ⟨?_, ih fun hmem => h (mem_cons_of_mem x hmem)⟩
    rintro y - ⟨rfl, -⟩
    exact h mem_cons_self

variable [DecidableEq α]

instance (a b : α) (xs : List α) : Decidable (PairFree a b xs) :=
  inferInstanceAs (Decidable (xs.IsChain _))

/-- Delete every `a` that stands right before a `b`. -/
def collapse (a b : α) : List α → List α
  | [] => []
  | [x] => [x]
  | x :: y :: rest => if x = a ∧ y = b then b :: collapse a b rest else x :: collapse a b (y :: rest)

theorem collapse_eq_self (h : PairFree a b xs) : collapse a b xs = xs := by
  fun_induction collapse a b xs with
  | case1 | case2 => rfl
  | case3 x y rest hpair => exact absurd hpair (isChain_cons_cons.mp h).1
  | case4 x y rest hpair ih => rw [ih (isChain_cons_cons.mp h).2]

theorem collapse_append (h : a ∉ xs) {ys : List α} : collapse a b (xs ++ ys) = xs ++ collapse a b ys := by
  induction xs with
  | nil => rfl
  | cons x xs ih =>
    rw [mem_cons, not_or] at h
    rw [cons_append, cons_append, ← ih h.2]
    cases hrest : xs ++ ys with
    | nil => rfl
    | cons y rest => rw [collapse, if_neg fun hpair => h.1 hpair.1.symm]

/-- Before the first `b`, at most the end changes. -/
theorem collapse_line (h : b ∉ xs) {ys : List α} (hys : PairFree a b (b :: ys)) :
    ∃ line, line <+: xs ∧ collapse a b (xs ++ b :: ys) = line ++ b :: ys := by
  induction xs with
  | nil => exact ⟨[], prefix_rfl, collapse_eq_self hys⟩
  | cons x xs ih =>
    rw [mem_cons, not_or] at h
    cases xs with
    | nil =>
      by_cases hx : x = a
      · refine ⟨[], nil_prefix, ?_⟩
        rw [singleton_append, collapse, if_pos ⟨hx, rfl⟩,
          collapse_eq_self (hys.of_infix (suffix_cons b ys).isInfix), nil_append]
      · refine ⟨[x], prefix_rfl, ?_⟩
        rw [singleton_append, collapse, if_neg fun hpair => hx hpair.1, collapse_eq_self hys]
    | cons y xs =>
      rcases ih h.2 with ⟨line, hline, hcollapse⟩
      refine ⟨x :: line, cons_prefix_cons.mpr ⟨rfl, hline⟩, ?_⟩
      rw [cons_append, cons_append, collapse,
        if_neg fun hpair : x = a ∧ y = b => h.2 (hpair.2 ▸ mem_cons_self)]
      exact congrArg (x :: ·) hcollapse

/-- Cut at every pair `x x`, from the left. -/
def splitPairs (x : α) : List α → List (List α)
  | [] => [[]]
  | [y] => [[y]]
  | y :: z :: rest =>
    if y = x ∧ z = x then [] :: splitPairs x rest
    else (splitPairs x (z :: rest)).modifyHead (y :: ·)

variable {block rest : List α}

theorem splitPairs_append (h : PairFree x x (block ++ [x])) :
    splitPairs x (block ++ x :: x :: rest) = block :: splitPairs x rest := by
  induction block with
  | nil => simp [splitPairs]
  | cons y block ih =>
    have htail : PairFree x x (block ++ [x]) := h.of_infix (suffix_cons y _).isInfix
    cases block with
    | nil =>
      have hne : y ≠ x := fun hyx => (isChain_cons_cons.mp h).1 ⟨hyx, rfl⟩
      simp [splitPairs, hne]
    | cons z block =>
      have hne : ¬(y = x ∧ z = x) := (isChain_cons_cons.mp h).1
      have hrest := ih htail
      simp only [cons_append] at hrest ⊢
      simp [splitPairs, hne, hrest]

theorem splitPairs_eq_singleton (h : PairFree x x block) :
    splitPairs x block = [block] := by
  fun_induction splitPairs x block with
  | case1 | case2 => rfl
  | case3 y z rest hpair => exact absurd hpair (isChain_cons_cons.mp h).1
  | case4 y z rest hpair ih => rw [ih (isChain_cons_cons.mp h).2]; rfl

theorem splitPairs_intercalate {blocks : List (List α)} (hne : blocks ≠ [])
    (h : ∀ block ∈ blocks, PairFree x x (block ++ [x])) :
    splitPairs x ([x, x].intercalate blocks) = blocks := by
  induction blocks with
  | nil => exact absurd rfl hne
  | cons block blocks ih =>
    cases blocks with
    | nil =>
      have hblock := (pairFree_append.mp (h block (by simp))).1
      simpa using splitPairs_eq_singleton hblock
    | cons next blocks =>
      have hrest := ih (by simp) fun b hb => h b (mem_cons_of_mem _ hb)
      have hjoin : [x, x].intercalate (block :: next :: blocks) =
          block ++ x :: x :: [x, x].intercalate (next :: blocks) := by
        simp
      rw [hjoin, splitPairs_append (h block (by simp)), hrest]

theorem head_of_splitPairs {z w : α}
    (hblock : block ∈ (splitPairs x (z :: rest)).head?) (hw : w ∈ block.head?) : w = z := by
  cases rest with
  | nil =>
    have hsingle : [z] = block := by simpa [splitPairs] using hblock
    subst hsingle
    simpa using hw.symm
  | cons y rest =>
    simp only [splitPairs] at hblock
    split at hblock
    · have hempty : ([] : List α) = block := by simpa using hblock
      subst hempty
      simp at hw
    cases hsplit : splitPairs x (y :: rest) with
    | nil => simp [hsplit] at hblock
    | cons first blocks =>
      have hcons : z :: first = block := by simpa [hsplit] using hblock
      subst hcons
      simpa using hw.symm

theorem pairFree_of_mem_splitPairs :
    ∀ block ∈ splitPairs x xs, PairFree x x block := by
  fun_induction splitPairs x xs with
  | case1 | case2 y => simp
  | case3 y z rest hpair ih => simpa using ih
  | case4 y z rest hpair ih =>
    cases hsplit : splitPairs x (z :: rest) with
    | nil => simp
    | cons first blocks =>
      rw [hsplit] at ih
      have hfirst : PairFree x x (y :: first) := by
        -- The new element stands before the first one of the old block.
        refine isChain_cons.mpr ⟨?_, ih first (by simp)⟩
        rintro w hw ⟨hyx, hwx⟩
        have hhead : first ∈ (splitPairs x (z :: rest)).head? := by simp [hsplit]
        have hwz : w = z := head_of_splitPairs hhead hw
        exact hpair ⟨hyx, hwz ▸ hwx⟩
      intro block hblock
      rcases mem_cons.mp hblock with rfl | hblock
      · exact hfirst
      · exact ih block (mem_cons_of_mem _ hblock)

theorem infix_of_mem_splitPairs :
    ∀ block ∈ splitPairs x xs, block <:+: xs := by
  have hall : (∀ block ∈ splitPairs x xs, block <:+: xs) ∧
      ∀ block ∈ (splitPairs x xs).head?, block <+: xs := by
    fun_induction splitPairs x xs with
    | case1 | case2 y => simp
    | case3 y z rest hpair ih =>
      refine ⟨?_, by simp⟩
      intro block hblock
      rcases mem_cons.mp hblock with rfl | hblock
      · exact nil_infix
      · exact (ih.1 block hblock).trans (suffix_append [y, z] rest).isInfix
    | case4 y z rest hpair ih =>
      cases hsplit : splitPairs x (z :: rest) with
      | nil => simp
      | cons first blocks =>
        rw [hsplit] at ih
        have hfirst : y :: first <+: y :: z :: rest := by
          rcases ih.2 first (by simp) with ⟨tail, htail⟩
          exact ⟨tail, by simp [← htail]⟩
        refine ⟨?_, by simpa using hfirst⟩
        intro block hblock
        rcases mem_cons.mp hblock with rfl | hblock
        · exact hfirst.isInfix
        · exact (ih.1 block (mem_cons_of_mem _ hblock)).trans (suffix_cons y _).isInfix
  exact hall.1

omit [DecidableEq α] in
theorem pairFree_lines {lines : List (List α)} (h : ∀ line ∈ lines, x ∉ line ∧ line ≠ []) :
    PairFree x x ([x].intercalate lines) := by
  have hstart : ∀ lines : List (List α), (∀ line ∈ lines, x ∉ line ∧ line ≠ []) →
      PairFree x x ([x].intercalate lines) ∧ x ∉ ([x].intercalate lines).head? := by
    intro lines h
    induction lines with
    | nil => simp
    | cons line lines ih =>
      have hline := h line (by simp)
      have hhead : x ∉ line.head? := fun hmem => hline.1 (mem_of_mem_head? hmem)
      cases lines with
      | nil => simpa using ⟨pairFree_of_not_mem hline.1, hhead⟩
      | cons next lines =>
        have hrest := ih fun l hl => h l (mem_cons_of_mem _ hl)
        have hjoin : [x].intercalate (line :: next :: lines) =
            line ++ x :: [x].intercalate (next :: lines) := by
          simp [List.intercalate]
        rw [hjoin]
        refine ⟨pairFree_append.mpr ⟨pairFree_of_not_mem hline.1, ?_, ?_⟩, ?_⟩
        · refine isChain_cons.mpr ⟨?_, hrest.1⟩
          rintro y hy ⟨-, rfl⟩
          exact hrest.2 hy
        · rintro y hy z - ⟨rfl, -⟩
          exact hline.1 (mem_of_getLast? hy)
        · rcases exists_cons_of_ne_nil hline.2 with ⟨c, cs, rfl⟩
          simpa using hhead
  exact (hstart lines h).1

/-- Cut at the first `a b`. -/
def cutPair (a b : α) : List α → Option (List α × List α)
  | [] => none
  | [_] => none
  | x :: y :: rest =>
    if x = a ∧ y = b then some ([], rest)
    else (cutPair a b (y :: rest)).map fun piece => (x :: piece.1, piece.2)

theorem cutPair_append {front rest : List α} (h : a ∉ front) :
    cutPair a b (front ++ a :: b :: rest) = some (front, rest) := by
  induction front with
  | nil => simp [cutPair]
  | cons x front ih =>
    have hx : x ≠ a := fun hxa => h (hxa ▸ mem_cons_self)
    have htail := ih fun hmem => h (mem_cons_of_mem x hmem)
    cases front with
    | nil =>
      simp [cutPair, hx]
    | cons y front =>
      simp only [cons_append] at htail ⊢
      simp [cutPair, hx, htail]

end Pairs

/-! ## Slash-separated paths -/

section Paths

/-- One part of a path on top of the cleaned parts before it, the last one first. -/
def cleanPart (rooted : Bool) (stack : List (List Char)) (part : List Char) : List (List Char) :=
  if part = [] ∨ part = ['.'] then stack
  else if part = ['.', '.'] then
    match stack with
    | [] => if rooted then [] else [part]
    | top :: rest => if top = ['.', '.'] then part :: stack else rest
  else part :: stack

/-- The shortest path with the same meaning: no empty part, no `.`, and `..` only in front. -/
def cleanPath (path : List Char) : List Char :=
  let rooted := path.head? = some '/'
  let parts := ((path.splitOn '/').foldl (cleanPart rooted) []).reverse
  let joined := ['/'].intercalate parts
  if rooted then '/' :: joined else if joined = [] then ['.'] else joined

example : cleanPath "a//b/./c/../d".toList = "a/b/d".toList ∧ cleanPath "../a/".toList = "../a".toList ∧
    cleanPath "/../a".toList = "/a".toList ∧ cleanPath [] = ".".toList := by decide

end Paths

/-! ## Trimmed texts -/

section Trim

/-- A text with no white space at either end. -/
def Trimmed (cs : List Char) : Prop :=
  (∀ c ∈ cs.head?, isSpace c = false) ∧ ∀ c ∈ cs.getLast?, isSpace c = false

theorem trimChars_append {cs blanks : List Char} (h : Trimmed cs) (hne : cs ≠ [])
    (hblanks : ∀ c ∈ blanks, isSpace c = true) : trimChars (cs ++ blanks) = cs := by
  rcases exists_cons_of_ne_nil hne with ⟨first, rest, rfl⟩
  have hfront : ((first :: rest) ++ blanks).dropWhile isSpace = (first :: rest) ++ blanks := by
    simp [h.1 first (by simp)]
  have hback : (blanks.reverse ++ (first :: rest).reverse).dropWhile isSpace =
      (first :: rest).reverse := by
    rw [dropWhile_append_of_pos fun c hc => hblanks c (by simpa using hc)]
    cases hlast : (first :: rest).reverse with
    | nil => rfl
    | cons last others =>
      have hmem : last ∈ (first :: rest).getLast? := by
        rw [← head?_reverse, hlast]
        simp
      simp [h.2 last hmem]
  rw [trimChars, hfront, reverse_append, hback, reverse_reverse]

variable {cs : List Char}

theorem trimChars_of_trimmed (h : Trimmed cs) : trimChars cs = cs := by
  cases cs with
  | nil => rfl
  | cons c cs => simpa using trimChars_append h (by simp) (forall_mem_nil _)

theorem isSpace_of_head_dropWhile {c : Char}
    (h : c ∈ (cs.dropWhile isSpace).head?) : isSpace c = false := by
  have hnot := head?_dropWhile_not isSpace cs
  rw [Option.mem_def.mp h] at hnot
  simpa using hnot

theorem trimChars_isPrefix : trimChars cs <+: cs.dropWhile isSpace := by
  rw [← reverse_suffix, trimChars, reverse_reverse]
  exact dropWhile_suffix _

theorem trimChars_isInfix (cs : List Char) : trimChars cs <:+: cs :=
  (trimChars_isPrefix).isInfix.trans (dropWhile_suffix _).isInfix

theorem trimmed_trimChars (cs : List Char) : Trimmed (trimChars cs) := by
  constructor
  · intro c hc
    rcases trimChars_isPrefix with ⟨blanks, hblanks⟩
    have hhead : c ∈ (cs.dropWhile isSpace).head? := by
      rw [← hblanks, head?_append, Option.mem_def.mp hc]
      rfl
    exact isSpace_of_head_dropWhile hhead
  · intro c hc
    rw [trimChars, getLast?_reverse] at hc
    exact isSpace_of_head_dropWhile hc

end Trim

end PortageEngine.Library.Text
