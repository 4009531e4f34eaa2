import Mathlib

/-!
# Symbolic digests

A collision-free hash, as protocol models have it: the digest of a value is the value's own encoding
as a tree of numbers, so equal digests mean equal values and nothing else can be read off one.
A digest may itself be part of what is hashed next.
-/

namespace PortageEngine.Library

inductive Digest
  | atom (n : Nat)
  | pair (left right : Digest)
  deriving DecidableEq

namespace Digest

variable {α : Type}

def node : List Digest → Digest
  | [] => atom 0
  | d :: ds => pair d (node ds)

@[simp] theorem node_inj {xs ys : List Digest} : node xs = node ys ↔ xs = ys := by
  induction xs generalizing ys with
  | nil => cases ys <;> simp [node]
  | cons x xs ih => cases ys <;> simp [node, ih]

/-- The digest of a list, element by element. -/
def ofList (f : α → Digest) (xs : List α) : Digest :=
  node (xs.map f)

theorem ofList_inj {f : α → Digest} (hf : Function.Injective f) {xs ys : List α} :
    ofList f xs = ofList f ys ↔ xs = ys := by
  simp [ofList, (List.map_injective_iff.mpr hf).eq_iff]

def ofText (t : List Char) : Digest :=
  ofList (fun c => atom c.toNat) t

@[simp] theorem ofText_inj {t t' : List Char} : ofText t = ofText t' ↔ t = t' :=
  ofList_inj fun c c' h => Char.toNat_inj.mp (by simpa using h)

def ofString (s : String) : Digest :=
  ofText s.toList

@[simp] theorem ofString_inj {s s' : String} : ofString s = ofString s' ↔ s = s' := by
  simp [ofString, String.toList_inj]

def ofOption (f : α → Digest) : Option α → Digest
  | none => atom 0
  | some x => pair (atom 1) (f x)

theorem ofOption_inj {f : α → Digest} (hf : Function.Injective f) {x y : Option α} :
    ofOption f x = ofOption f y ↔ x = y := by
  cases x <;> cases y <;> simp [ofOption, hf.eq_iff]

end Digest
end PortageEngine.Library
