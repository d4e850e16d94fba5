import Mathlib.Data.List.Basic
import Mathlib.Tactic.Common

/-!
# Texts of bounded size

A text in a buffer of some bytes, as UTF-8.  A character that does not fit is refused, and
the text stays as it is.
-/

/-- The bytes of a text in UTF-8. -/
def textSize : List Char → Nat
  | [] => 0
  | c :: cs => c.utf8Size + textSize cs

@[simp] theorem textSize_nil : textSize [] = 0 := rfl

@[simp] theorem textSize_cons (c : Char) (cs : List Char) :
    textSize (c :: cs) = c.utf8Size + textSize cs := rfl

@[simp] theorem textSize_append (cs ds : List Char) :
    textSize (cs ++ ds) = textSize cs + textSize ds := by
  induction cs with
  | nil => exact (Nat.zero_add _).symm
  | cons c cs ih => rw [List.cons_append, textSize_cons, textSize_cons, ih, Nat.add_assoc]

/-- A text of ASCII characters has a byte for each of them. -/
theorem textSize_ascii {cs : List Char} (hcs : ∀ c ∈ cs, c.toNat < 128) :
    textSize cs = cs.length := by
  induction cs with
  | nil => rfl
  | cons c cs ih =>
      obtain ⟨hc, hrest⟩ := List.forall_mem_cons.mp hcs
      have hsize : c.utf8Size = 1 := Char.utf8Size_eq_one_iff.mpr (Nat.le_of_lt_succ hc)
      rw [textSize_cons, hsize, ih hrest, List.length_cons, Nat.add_comm]

theorem textSize_dropLast_le (cs : List Char) : textSize cs.dropLast ≤ textSize cs := by
  rcases cs.eq_nil_or_concat with rfl | ⟨front, last, rfl⟩
  · exact Nat.le_refl 0
  · rw [List.concat_eq_append, List.dropLast_concat, textSize_append]
    exact Nat.le_add_right _ _

/-- A text of at most `cap` bytes. -/
structure BoundedText (cap : Nat) where
  chars : List Char
  fits : textSize chars ≤ cap
deriving DecidableEq

namespace BoundedText

variable {cap : Nat}

theorem ext {s t : BoundedText cap} (h : s.chars = t.chars) : s = t := by
  cases s
  cases t
  cases h
  rfl

def empty : BoundedText cap := ⟨[], Nat.zero_le cap⟩

/-- The text with one more character, if that fits. -/
def push? (s : BoundedText cap) (c : Char) : Option (BoundedText cap) :=
  if h : textSize (s.chars ++ [c]) ≤ cap then some ⟨s.chars ++ [c], h⟩ else none

/-- The text without its last character. -/
def pop (s : BoundedText cap) : BoundedText cap :=
  ⟨s.chars.dropLast, Nat.le_trans (textSize_dropLast_le s.chars) s.fits⟩

def toString (s : BoundedText cap) : String := String.ofList s.chars

@[simp] theorem chars_empty : (empty : BoundedText cap).chars = [] := rfl

@[simp] theorem chars_pop (s : BoundedText cap) : s.pop.chars = s.chars.dropLast := rfl

theorem push?_of_fits {s : BoundedText cap} {c : Char} (h : textSize (s.chars ++ [c]) ≤ cap) :
    s.push? c = some ⟨s.chars ++ [c], h⟩ := dif_pos h

end BoundedText
