import Mathlib.Data.List.Basic

/-!
# Scripts

What a session sends: a prologue first, and then one batch after another, each when
everything before is sent.  So what is not in the prologue is sent behind all of it
(`Follows.prologue_sent`).
-/

/-- What was sent, and what is still to be sent before anything new. -/
structure Script (α : Type*) where
  sent : List α
  pending : List α

namespace Script

variable {α : Type*}

/-- Start with a prologue. -/
def start (prologue : List α) : Script α := ⟨[], prologue⟩

/-- Send what is next. -/
def advance (s : Script α) : Script α :=
  match s.pending with
  | [] => s
  | x :: pending => ⟨s.sent ++ [x], pending⟩

/-- Go on with a batch, if everything is sent. -/
def load (s : Script α) (batch : List α) : Script α :=
  match s.pending with
  | [] => { s with pending := batch }
  | _ :: _ => s

/-- A script is a prologue with batches behind it. -/
def Follows (prologue : List α) (Batch : List α → Prop) (s : Script α) : Prop :=
  ∃ batches : List (List α), (∀ b ∈ batches, Batch b) ∧
    s.sent ++ s.pending = prologue ++ batches.flatten

variable {prologue batch : List α} {Batch : List α → Prop} {s : Script α}

theorem follows_start (prologue : List α) (Batch : List α → Prop) :
    (start prologue).Follows prologue Batch :=
  ⟨[], List.forall_mem_nil _, (List.append_nil prologue).symm⟩

namespace Follows

theorem advance (h : s.Follows prologue Batch) : s.advance.Follows prologue Batch := by
  obtain ⟨sent, pending⟩ := s
  cases pending with
  | nil => exact h
  | cons x pending =>
      obtain ⟨batches, hbatches, hsplit⟩ := h
      refine ⟨batches, hbatches, ?_⟩
      rw [← hsplit]
      exact List.append_cons sent x pending |>.symm

theorem load (h : s.Follows prologue Batch) (hbatch : Batch batch) :
    (s.load batch).Follows prologue Batch := by
  obtain ⟨sent, pending⟩ := s
  cases pending with
  | cons x pending => exact h
  | nil =>
      obtain ⟨batches, hbatches, hsplit⟩ := h
      refine ⟨batches ++ [batch], ?_, ?_⟩
      · intro b hb
        rcases List.mem_append.mp hb with hold | hnew
        · exact hbatches b hold
        · rwa [List.mem_singleton.mp hnew]
      · have hsent : sent = prologue ++ batches.flatten := by rwa [List.append_nil] at hsplit
        show sent ++ batch = _
        rw [hsent, List.flatten_append, List.flatten_singleton, List.append_assoc]

/-- What is sent, or is to be sent, is of the prologue or of a batch. -/
theorem mem (h : s.Follows prologue Batch) {x : α} (hx : x ∈ s.sent ++ s.pending) :
    x ∈ prologue ∨ ∃ b, Batch b ∧ x ∈ b := by
  obtain ⟨batches, hbatches, hsplit⟩ := h
  rw [hsplit] at hx
  rcases List.mem_append.mp hx with hpro | hflat
  · exact .inl hpro
  · obtain ⟨b, hb, hxb⟩ := List.mem_flatten.mp hflat
    exact .inr ⟨b, hbatches b hb, hxb⟩

/-- What is not in the prologue is sent behind all of it. -/
theorem prologue_sent (h : s.Follows prologue Batch) {x : α} (hx : x ∈ s.sent)
    (hnew : x ∉ prologue) : prologue <+: s.sent := by
  obtain ⟨batches, -, hsplit⟩ := h
  have hsent : s.sent <+: prologue ++ batches.flatten := ⟨s.pending, hsplit⟩
  rcases List.prefix_or_prefix_of_prefix hsent (List.prefix_append prologue _) with hle | hge
  · exact absurd (hle.subset hx) hnew
  · exact hge

end Follows

end Script
