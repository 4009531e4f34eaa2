import Mathlib

/-!
# Named contents

Files or objects under their names, as an association list.
-/

namespace PortageEngine.Library.Files

variable {κ β : Type} [DecidableEq κ]

def read : List (κ × β) → κ → Option β
  | [], _ => none
  | f :: files, name => if f.1 = name then some f.2 else read files name

/-- Remove the names that `p` selects. -/
def removeAll (p : κ → Bool) (files : List (κ × β)) : List (κ × β) :=
  files.filter fun f => !p f.1

/-- Create or replace the content under a name. -/
def write (name : κ) (content : β) (files : List (κ × β)) : List (κ × β) :=
  (name, content) :: removeAll (fun n => n = name) files

variable {files : List (κ × β)} {name other : κ} {content : β} {p : κ → Bool}

theorem read_removeAll :
    read (removeAll p files) name = if p name then none else read files name := by
  induction files with
  | nil => simp [read, removeAll]
  | cons f files ih =>
    unfold removeAll at *
    by_cases hp : p f.1 = true
    · rw [List.filter_cons_of_neg (by simp [hp]), ih]
      by_cases hname : f.1 = name
      · simp [← hname, hp]
      · simp [read, hname]
    · rw [List.filter_cons_of_pos (by simp [hp]), read, read, ih]
      by_cases hname : f.1 = name
      · simp [← hname, hp]
      · simp [hname]

theorem read_removeAll_of_not (h : p name = false) :
    read (removeAll p files) name = read files name := by
  rw [read_removeAll, h]
  rfl

@[simp] theorem read_write_self : read (write name content files) name = some content := by
  simp [read, write]

theorem read_write_of_ne (h : other ≠ name) :
    read (write name content files) other = read files other := by
  rw [write, read, if_neg h.symm, read_removeAll_of_not (by simpa using h)]

end PortageEngine.Library.Files
