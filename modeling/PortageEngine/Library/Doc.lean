import Mathlib

/-!
# Documents

A document is a JSON value over an arbitrary type `τ` of texts.  Arrays and objects are chains, so
that the type is an ordinary inductive one: `item` for the elements of an array, `member` for the
fields of a structure, whose names are fixed, and `entry` for the entries of a map, whose keys are
texts like any other.

`struct` builds the document of a structure; `without` and `modify` are said of it by
`without_struct` and `modify_struct`.
-/

namespace PortageEngine.Library

inductive Doc (τ : Type)
  | null
  | bool (b : Bool)
  | number (n : Int)
  | text (t : τ)
  | array (items : Doc τ)
  | object (members : Doc τ)
  | nil
  | item (value rest : Doc τ)
  | member (name : String) (value rest : Doc τ)
  | entry (key : τ) (value rest : Doc τ)
  deriving DecidableEq

namespace Doc

variable {τ υ : Type}

/-! ## Construction -/

def items (values : List (Doc τ)) : Doc τ :=
  values.foldr item nil

def members (fields : List (String × Doc τ)) : Doc τ :=
  fields.foldr (fun f rest => member f.1 f.2 rest) nil

def entries (es : List (τ × Doc τ)) : Doc τ :=
  es.foldr (fun e rest => entry e.1 e.2 rest) nil

def struct (fields : List (String × Doc τ)) : Doc τ :=
  object (members fields)

def texts (ts : List τ) : Doc τ :=
  array (items (ts.map text))

/-- A map is written in the order of its keys. -/
def textMap [LinearOrder τ] (es : List (τ × τ)) : Doc τ :=
  object (entries ((es.insertionSort fun e f => e.1 ≤ f.1).map fun e => (e.1, text e.2)))

/-! ## Access to the fields of a structure -/

/-- Leave the fields of this name out of a chain. -/
def dropMember (name : String) : Doc τ → Doc τ
  | member n value rest =>
    if n = name then dropMember name rest else member n value (dropMember name rest)
  | d => d

def mapMember (name : String) (f : Doc τ → Doc τ) : Doc τ → Doc τ
  | member n value rest => member n (if n = name then f value else value) (mapMember name f rest)
  | d => d

/-- `delete(object, name)`; other values are left alone. -/
def without (name : String) : Doc τ → Doc τ
  | object ms => object (dropMember name ms)
  | d => d

/-- Replace the value of the field, if there is one. -/
def modify (name : String) (f : Doc τ → Doc τ) : Doc τ → Doc τ
  | object ms => object (mapMember name f ms)
  | d => d

variable {fs : List (String × Doc τ)} {name : String} {f : Doc τ → Doc τ}

@[simp] theorem members_cons {f : String × Doc τ} :
    members (f :: fs) = member f.1 f.2 (members fs) := rfl

theorem dropMember_members :
    dropMember name (members fs) = members (fs.filter fun f => f.1 ≠ name) := by
  induction fs with
  | nil => rfl
  | cons f fs ih =>
    rw [members_cons, dropMember, ih]
    by_cases hname : f.1 = name
    · rw [if_pos hname, List.filter_cons_of_neg (by simpa using hname)]
    · rw [if_neg hname, List.filter_cons_of_pos (by simpa using hname), members_cons]

theorem without_struct :
    (struct fs).without name = struct (fs.filter fun f => f.1 ≠ name) :=
  congrArg object (dropMember_members)

theorem mapMember_members :
    mapMember name f (members fs) =
      members (fs.map fun g => (g.1, if g.1 = name then f g.2 else g.2)) := by
  induction fs with
  | nil => rfl
  | cons g fs ih => rw [members_cons, mapMember, ih, List.map_cons, members_cons]

theorem modify_struct :
    (struct fs).modify name f =
      struct (fs.map fun g => (g.1, if g.1 = name then f g.2 else g.2)) :=
  congrArg object (mapMember_members)

/-! ## Conversion of the leaves -/

def conv (f : Int → Int) (g : τ → υ) : Doc τ → Doc υ
  | null => null
  | bool b => bool b
  | number n => number (f n)
  | text t => text (g t)
  | array d => array (conv f g d)
  | object d => object (conv f g d)
  | nil => nil
  | item value rest => item (conv f g value) (conv f g rest)
  | member name value rest => member name (conv f g value) (conv f g rest)
  | entry key value rest => entry (g key) (conv f g value) (conv f g rest)

theorem conv_members {f : Int → Int} {g : τ → υ} :
    (members fs).conv f g = members (fs.map fun m => (m.1, m.2.conv f g)) := by
  induction fs with
  | nil => rfl
  | cons m fs ih => rw [members_cons, conv, ih, List.map_cons, members_cons]

theorem conv_struct (f : Int → Int) (g : τ → υ) (fs : List (String × Doc τ)) :
    (struct fs).conv f g = struct (fs.map fun m => (m.1, m.2.conv f g)) :=
  congrArg object (conv_members)

end Doc
end PortageEngine.Library
