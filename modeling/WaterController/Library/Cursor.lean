import Mathlib.Data.List.Basic
import Mathlib.Tactic.Common

/-!
# A cursor on a list that changes

A list is visited by a running index, while others take elements off its front and put new ones
at its back.  What is taken off moves the rest under the cursor, so each such step hides one
element from it, which may be another than the one that went.

`Walk` says where the cursor is in `all`, the list with everything that was taken off and put on.
`missed_le` bounds what the cursor misses by the number of elements that were taken off.
-/

open scoped List

/-- The cursor has visited `visited`, and `evicted` elements were taken off since it began. -/
structure Walk {α : Type*} (all visited items : List α) (idx evicted : Nat) : Prop where
  items_eq : items = all.drop evicted
  evicted_le : evicted ≤ all.length
  sublist : visited <+ all.take (idx + evicted)
  length_eq : visited.length = idx

namespace Walk

variable {α : Type*} {all visited items : List α} {idx evicted : Nat}

theorem start (items : List α) : Walk items [] items 0 0 :=
  ⟨rfl, Nat.zero_le _, List.nil_sublist _, rfl⟩

/-- The next element is visited. -/
theorem visit (h : Walk all visited items idx evicted) {a : α} (ha : items[idx]? = some a) :
    Walk all (visited ++ [a]) items (idx + 1) evicted := by
  refine ⟨h.items_eq, h.evicted_le, ?_, ?_⟩
  · rw [h.items_eq, List.getElem?_drop, Nat.add_comm] at ha
    rw [Nat.add_right_comm, List.take_add_one, ha]
    exact h.sublist.append (.refl _)
  · rw [List.length_append, h.length_eq, List.length_singleton]

/-- The first element is taken off. -/
theorem evict {a : α} (h : Walk all visited (a :: items) idx evicted) :
    Walk all visited items idx (evicted + 1) := by
  have hlt : evicted < all.length := by
    rcases Nat.lt_or_ge evicted all.length with hlt | hge
    · exact hlt
    · have hnil := h.items_eq.trans (List.drop_eq_nil_of_le hge)
      cases hnil
  refine ⟨?_, hlt, h.sublist.trans ?_, h.length_eq⟩
  · rw [← List.drop_drop, ← h.items_eq]
    rfl
  · exact (List.take_prefix_take_left (Nat.le_succ _)).sublist

/-- An element is put on. -/
theorem append (h : Walk all visited items idx evicted) (a : α) :
    Walk (all ++ [a]) visited (items ++ [a]) idx evicted := by
  refine ⟨?_, Nat.le_trans h.evicted_le (by simp), h.sublist.trans ?_, h.length_eq⟩
  · rw [h.items_eq, List.drop_append_of_le_length h.evicted_le]
  · rw [List.take_append]
    exact List.sublist_append_left _ _

/-- What the cursor can have come by. -/
theorem sublist_take (h : Walk all visited items idx evicted) {first : List α}
    (hfirst : first <+: all) (hend : first.length ≤ idx ∨ items.length ≤ idx) :
    first <+ all.take (idx + evicted) := by
  rcases hend with hfirst' | hitems
  · rw [List.prefix_iff_eq_take.mp hfirst]
    exact (List.take_prefix_take_left (Nat.le_trans hfirst' (Nat.le_add_right _ _))).sublist
  · rw [h.items_eq, List.length_drop] at hitems
    rw [List.take_of_length_le (Nat.sub_le_iff_le_add.mp hitems)]
    exact hfirst.sublist

/-- **Missed.**  A cursor at its end has missed no more of what it began with than there was taken
off. -/
theorem missed_le [DecidableEq α] (h : Walk all visited items idx evicted) {first : List α}
    (hfirst : first <+: all) (hend : first.length ≤ idx ∨ items.length ≤ idx) :
    (first.filter fun a => a ∉ visited).length ≤ evicted := by
  have hvisited : visited.length ≤
      ((all.take (idx + evicted)).filter fun a => a ∈ visited).length := by
    have hsub := h.sublist.filter fun a => decide (a ∈ visited)
    rw [List.filter_eq_self.mpr fun a ha => decide_eq_true ha] at hsub
    exact hsub.length_le
  have hmissed : (first.filter fun a => a ∉ visited).length ≤
      ((all.take (idx + evicted)).filter fun a => a ∉ visited).length :=
    ((h.sublist_take hfirst hend).filter _).length_le
  have hsum : ((all.take (idx + evicted)).filter fun a => a ∈ visited).length +
      ((all.take (idx + evicted)).filter fun a => a ∉ visited).length =
      (all.take (idx + evicted)).length := by
    have hsplit := List.length_eq_length_filter_add (l := all.take (idx + evicted))
      fun a => decide (a ∈ visited)
    simpa using hsplit.symm
  have htake := List.length_take_le (idx + evicted) all
  have hlength := h.length_eq
  omega

/-- Where nothing is taken off, the cursor visits what it began with, in order. -/
theorem visited_eq (h : Walk all visited items idx 0) {first : List α} (hfirst : first <+: all)
    (hend : first.length ≤ idx ∨ items.length ≤ idx) (hidx : idx ≤ first.length) :
    visited = first := by
  have hlength : first.length ≤ visited.length := by
    rw [h.length_eq]
    rcases hend with hle | hle
    · exact hle
    · rw [h.items_eq, List.drop_zero] at hle
      exact Nat.le_trans hfirst.length_le hle
  have htake : all.take idx = first := by
    rw [List.prefix_iff_eq_take.mp hfirst]
    have hle := h.length_eq ▸ hlength
    rw [Nat.le_antisymm hle hidx]
  have hvisited := h.sublist
  rw [Nat.add_zero, htake] at hvisited
  exact hvisited.eq_of_length_le hlength

end Walk
