import Mathlib.Data.List.Chain
import Mathlib.Data.List.Induction
import Mathlib.Tactic.Common

/-!
# Deterministic machines and their runs

A machine has a step function: from a state and an input it gives the next
state and an output.  A *run* feeds it a list of inputs.  Its *trace* is the
list of transitions taken, oldest first, so a statement about what happened
during a run is a statement about a list.

Three rules carry every induction over a run.

* `run_invariant`: a predicate the step preserves holds at the end of a run.
* `trace_history`: the same for a relation between the transitions taken so far
  and the current state.  It holds in front of every transition of the trace.
* `run_project`: when every step of one machine acts on a component as a list
  of steps of another machine, so does every run.

The rules ask for preservation only at the steps that satisfy a *guard*.  The
guard of `trace_history` also sees the transitions taken before, which is how
an assumption such as a clock that never goes back enters.
-/

namespace Machines

/-- A deterministic machine with inputs and outputs. -/
structure Machine (σ ι ο : Type*) where
  /-- The next state, and what the step puts out. -/
  step : σ → ι → σ × ο

/-- A step that was taken. -/
structure Transition (σ ι ο : Type*) where
  /-- The state the step started from. -/
  before : σ
  /-- The input it consumed. -/
  input : ι
  /-- The state it ended in. -/
  after : σ
  /-- What it put out. -/
  output : ο

namespace Machine

variable {σ ι ο : Type*} (M : Machine σ ι ο)

/-- The next state. -/
def next (s : σ) (i : ι) : σ := (M.step s i).1

/-- The output of a step. -/
def out (s : σ) (i : ι) : ο := (M.step s i).2

/-- The step at a state and an input, as a transition. -/
def transition (s : σ) (i : ι) : Transition σ ι ο := ⟨s, i, M.next s i, M.out s i⟩

/-- The state after a list of inputs. -/
def run (s : σ) : List ι → σ
  | [] => s
  | i :: is => run (M.next s i) is

/-- The transitions a list of inputs takes, oldest first. -/
def trace (s : σ) : List ι → List (Transition σ ι ο)
  | [] => []
  | i :: is => M.transition s i :: trace (M.next s i) is

@[simp] theorem run_nil (s : σ) : M.run s [] = s := rfl

@[simp] theorem run_cons (s : σ) (i : ι) (is : List ι) :
    M.run s (i :: is) = M.run (M.next s i) is := rfl

@[simp] theorem trace_nil (s : σ) : M.trace s [] = [] := rfl

@[simp] theorem trace_cons (s : σ) (i : ι) (is : List ι) :
    M.trace s (i :: is) = M.transition s i :: M.trace (M.next s i) is := rfl

@[simp] theorem transition_before (s : σ) (i : ι) : (M.transition s i).before = s := rfl

@[simp] theorem transition_input (s : σ) (i : ι) : (M.transition s i).input = i := rfl

@[simp] theorem transition_after (s : σ) (i : ι) : (M.transition s i).after = M.next s i := rfl

theorem run_append (s : σ) (is js : List ι) : M.run s (is ++ js) = M.run (M.run s is) js := by
  induction is generalizing s with
  | nil => rfl
  | cons i is ih => exact ih (M.next s i)

theorem trace_append (s : σ) (is js : List ι) :
    M.trace s (is ++ js) = M.trace s is ++ M.trace (M.run s is) js := by
  induction is generalizing s with
  | nil => rfl
  | cons i is ih => simp [ih]

/-- The inputs of a trace are the inputs of the run. -/
@[simp] theorem map_input_trace (s : σ) (is : List ι) :
    (M.trace s is).map Transition.input = is := by
  induction is generalizing s with
  | nil => rfl
  | cons i is ih => simp [ih]

/-- A split of a trace is a split of the inputs. -/
theorem trace_split {s : σ} {is : List ι} {pre post : List (Transition σ ι ο)}
    {t : Transition σ ι ο} (h : M.trace s is = pre ++ t :: post) :
    ∃ is₁ i is₂, is = is₁ ++ i :: is₂ ∧ pre = M.trace s is₁ ∧
      t = M.transition (M.run s is₁) i ∧ post = M.trace (M.next (M.run s is₁) i) is₂ := by
  induction is generalizing s pre with
  | nil => simp at h
  | cons i is ih =>
      cases pre with
      | nil =>
          simp only [trace_cons, List.nil_append, List.cons.injEq] at h
          exact ⟨[], i, is, rfl, rfl, h.1.symm, h.2.symm⟩
      | cons p pre =>
          simp only [trace_cons, List.cons_append, List.cons.injEq] at h
          obtain ⟨is₁, j, is₂, rfl, hpre, ht, hpost⟩ := ih h.2
          exact ⟨i :: is₁, j, is₂, rfl, by rw [trace_cons, h.1, hpre], ht, hpost⟩

/-- A transition of a trace starts where a prefix of the inputs ends. -/
theorem mem_trace {s : σ} {is : List ι} {t : Transition σ ι ο} (h : t ∈ M.trace s is) :
    ∃ is₁ i is₂, is = is₁ ++ i :: is₂ ∧ t = M.transition (M.run s is₁) i := by
  obtain ⟨pre, post, hsplit⟩ := List.append_of_mem h
  obtain ⟨is₁, i, is₂, his, -, ht, -⟩ := M.trace_split hsplit
  exact ⟨is₁, i, is₂, his, ht⟩

/-- The input of a transition is an input of the run. -/
theorem input_mem_of_mem_trace {s : σ} {is : List ι} {t : Transition σ ι ο}
    (h : t ∈ M.trace s is) : t.input ∈ is := by
  obtain ⟨is₁, i, is₂, rfl, rfl⟩ := M.mem_trace h
  exact List.mem_append_right _ List.mem_cons_self

/-- The step from the end of a prefix is in the trace. -/
theorem transition_mem_trace (s : σ) (is₁ : List ι) (i : ι) (is₂ : List ι) :
    M.transition (M.run s is₁) i ∈ M.trace s (is₁ ++ i :: is₂) := by
  rw [trace_append]
  exact List.mem_append_right _ List.mem_cons_self

/-! ## Invariants -/

/-- A predicate that every step under the guard preserves holds after a run
whose steps all meet the guard. -/
theorem run_invariant {P : σ → Prop} {G : σ → ι → Prop}
    (hstep : ∀ s i, G s i → P s → P (M.next s i)) {s : σ} (h0 : P s) :
    ∀ {is : List ι}, (∀ t ∈ M.trace s is, G t.before t.input) → P (M.run s is)
  | [], _ => h0
  | i :: is, hG => by
      have hhead : G s i := hG (M.transition s i) (by simp)
      exact run_invariant hstep (hstep s i hhead h0)
        fun t ht => hG t (List.mem_cons_of_mem _ ht)

/-- A relation between history and state that every step under the guard
preserves holds in front of every transition and at the end of the run. -/
theorem trace_history {J : List (Transition σ ι ο) → σ → Prop}
    {G : List (Transition σ ι ο) → σ → ι → Prop}
    (hstep : ∀ h s i, G h s i → J h s → J (h ++ [M.transition s i]) (M.next s i))
    {s : σ} (h0 : J [] s) {is : List ι}
    (hG : ∀ pre t post, M.trace s is = pre ++ t :: post → G pre t.before t.input) :
    J (M.trace s is) (M.run s is) := by
  induction is using List.reverseRecOn with
  | nil => exact h0
  | append_singleton is i ih =>
      have hlast : M.trace s (is ++ [i]) = M.trace s is ++ [M.transition (M.run s is) i] := by
        rw [trace_append]; rfl
      have hprev : J (M.trace s is) (M.run s is) := by
        refine ih fun pre t post hsplit => ?_
        exact hG pre t (post ++ [M.transition (M.run s is) i]) (by rw [hlast, hsplit]; simp)
      have hguard : G (M.trace s is) (M.run s is) i := hG _ _ [] hlast
      rw [hlast, run_append]
      exact hstep _ _ _ hguard hprev

/-- The history rule, read in front of one transition of the trace. -/
theorem trace_history_before {J : List (Transition σ ι ο) → σ → Prop}
    {G : List (Transition σ ι ο) → σ → ι → Prop}
    (hstep : ∀ h s i, G h s i → J h s → J (h ++ [M.transition s i]) (M.next s i))
    {s : σ} (h0 : J [] s) {is : List ι}
    (hG : ∀ pre t post, M.trace s is = pre ++ t :: post → G pre t.before t.input)
    {pre post : List (Transition σ ι ο)} {t : Transition σ ι ο}
    (hsplit : M.trace s is = pre ++ t :: post) : J pre t.before ∧ G pre t.before t.input := by
  obtain ⟨is₁, i, is₂, rfl, rfl, rfl, rfl⟩ := M.trace_split hsplit
  refine ⟨M.trace_history hstep h0 fun pre' t' post' h' => ?_, hG _ _ _ hsplit⟩
  refine hG pre' t' (post' ++ M.trace (M.run s is₁) (i :: is₂)) ?_
  rw [trace_append, h']
  simp

/-- The history rule, read behind one transition of the trace. -/
theorem trace_history_after {J : List (Transition σ ι ο) → σ → Prop}
    {G : List (Transition σ ι ο) → σ → ι → Prop}
    (hstep : ∀ h s i, G h s i → J h s → J (h ++ [M.transition s i]) (M.next s i))
    {s : σ} (h0 : J [] s) {is : List ι}
    (hG : ∀ pre t post, M.trace s is = pre ++ t :: post → G pre t.before t.input)
    {pre post : List (Transition σ ι ο)} {t : Transition σ ι ο}
    (hsplit : M.trace s is = pre ++ t :: post) : J (pre ++ [t]) t.after := by
  obtain ⟨hJ, hguard⟩ := M.trace_history_before hstep h0 hG hsplit
  obtain ⟨is₁, i, is₂, rfl, rfl, rfl, rfl⟩ := M.trace_split hsplit
  exact hstep _ _ _ hguard hJ

/-- An invariant holds in front of every transition of the trace, and the guard
with it. -/
theorem trace_invariant {P : σ → Prop} {G : σ → ι → Prop}
    (hstep : ∀ s i, G s i → P s → P (M.next s i)) {s : σ} (h0 : P s) {is : List ι}
    (hG : ∀ t ∈ M.trace s is, G t.before t.input) {t : Transition σ ι ο}
    (ht : t ∈ M.trace s is) : P t.before ∧ G t.before t.input := by
  obtain ⟨pre, post, hsplit⟩ := List.append_of_mem ht
  exact M.trace_history_before (J := fun _ => P) (G := fun _ => G)
    (fun _ s i hg hp => hstep s i hg hp) h0
    (fun pre t post h => hG t (by rw [h]; simp)) hsplit

/-- An invariant holds in every state a run reaches. -/
theorem prefix_invariant {P : σ → Prop} {G : σ → ι → Prop}
    (hstep : ∀ s i, G s i → P s → P (M.next s i)) {s : σ} (h0 : P s) {is : List ι}
    (hG : ∀ t ∈ M.trace s is, G t.before t.input) {reached : List ι} (hr : reached <+: is) :
    P (M.run s reached) := by
  obtain ⟨rest, rfl⟩ := hr
  refine M.run_invariant hstep h0 fun t ht => hG t ?_
  rw [trace_append]
  exact List.mem_append_left _ ht

/-- What holds in every state a run reaches holds behind each of its steps. -/
theorem next_of_prefixes {P : σ → Prop} {s : σ} {is : List ι}
    (h : ∀ reached, reached <+: is → P (M.run s reached)) {t : Transition σ ι ο}
    (ht : t ∈ M.trace s is) : P (M.next t.before t.input) := by
  obtain ⟨is₁, i, is₂, rfl, rfl⟩ := M.mem_trace ht
  have hreached := h (is₁ ++ [i]) ⟨is₂, by simp⟩
  rw [run_append, run_cons, run_nil] at hreached
  exact hreached

/-- Every transition of a trace is the step at its own state and input. -/
theorem eq_transition {s : σ} {is : List ι} {t : Transition σ ι ο} (ht : t ∈ M.trace s is) :
    t = M.transition t.before t.input := by
  obtain ⟨is₁, i, is₂, -, rfl⟩ := M.mem_trace ht
  rfl

/-! ## Changes of what is observed -/

section Changes

variable {β : Type*} [DecidableEq β] (f : σ → β)

/-- The new value of an observation that a transition changes. -/
def changes (t : Transition σ ι ο) : List β := if f t.before = f t.after then [] else [f t.after]

/-- Along a run, every change is one from the value before. -/
theorem isChain_changes (s : σ) (is : List ι) :
    (f s :: (M.trace s is).flatMap (changes f)).IsChain (· ≠ ·) := by
  induction is generalizing s with
  | nil => exact .singleton _
  | cons i is ih =>
      rw [trace_cons, List.flatMap_cons, changes, transition_before, transition_after]
      split
      · rename_i hsame
        rw [hsame]
        exact ih (M.next s i)
      · rename_i hchange
        exact List.isChain_cons_cons.mpr ⟨hchange, ih (M.next s i)⟩

end Changes

/-! ## Machines that put something out now and then -/

section Emitted

variable {κ : Type*} (N : Machine σ ι (Option κ))

/-- What a run puts out. -/
def emitted (s : σ) (is : List ι) : List κ := (N.trace s is).filterMap Transition.output

/-- When the state keeps a relation to what was put out last, each step puts out what is
related to that. -/
theorem isChain_emitted {R : κ → κ → Prop} {K : Option κ → σ → Prop}
    (hout : ∀ last s i, K last s → ∀ b ∈ N.out s i, ∀ a ∈ last, R a b)
    (hnext : ∀ last s i, K last s → K ((N.out s i).or last) (N.next s i)) {s : σ} (h0 : K none s)
    (is : List ι) : (N.emitted s is).IsChain R := by
  refine (N.trace_history (J := fun h s =>
    (h.filterMap Transition.output).IsChain R ∧ K (h.filterMap Transition.output).getLast? s)
    (G := fun _ _ _ => True) ?_ ⟨.nil, h0⟩ fun _ _ _ _ => trivial).1
  rintro h s i - ⟨hchain, hlast⟩
  have hnew := hnext _ s i hlast
  have hsplit : (h ++ [N.transition s i]).filterMap Transition.output =
      h.filterMap Transition.output ++ (N.out s i).toList := by
    rw [List.filterMap_append, List.filterMap_cons, transition]
    cases N.out s i <;> rfl
  rw [hsplit]
  cases ho : N.out s i with
  | none =>
      rw [ho] at hnew
      rw [Option.toList_none, List.append_nil]
      exact ⟨hchain, hnew⟩
  | some b =>
      rw [ho] at hnew
      rw [Option.toList_some, List.getLast?_concat]
      refine ⟨List.isChain_append.mpr ⟨hchain, .singleton b, ?_⟩, hnew⟩
      rintro a ha _ ⟨⟩
      exact hout _ s i hlast b ho a ha

theorem emitted_cons (s : σ) (i : ι) (is : List ι) :
    N.emitted s (i :: is) = (N.out s i).toList ++ N.emitted (N.next s i) is := by
  rw [emitted, trace_cons, List.filterMap_cons, transition]
  cases N.out s i <;> rfl

/-- A relation between what was put out and the current state that every step preserves
holds at the end of a run. -/
theorem emitted_history {J : List κ → σ → Prop}
    (hstep : ∀ out s i, J out s → J (out ++ (N.out s i).toList) (N.next s i)) {s : σ}
    (h0 : J [] s) (is : List ι) : J (N.emitted s is) (N.run s is) := by
  suffices hfrom : ∀ out s, J out s → J (out ++ N.emitted s is) (N.run s is) from hfrom [] s h0
  intro out s h
  induction is generalizing s out with
  | nil =>
      show J (out ++ []) s
      rwa [List.append_nil]
  | cons i is ih =>
      have hrest := ih _ _ (hstep out s i h)
      rwa [List.append_assoc, ← emitted_cons] at hrest

end Emitted

/-! ## Machines that stop at an error -/

section Failing

variable {κ ε : Type*} (round : σ → ι → Except ε (σ × Option κ))

/-- A machine that goes on round after round until one fails. -/
def untilError : Machine (Option σ) ι (Option κ) where
  step s? i :=
    match s?.map fun s => round s i with
    | some (.ok (s', out)) => (some s', out)
    -- the round failed, or one before it
    | _ => (none, none)

theorem untilError_step_none (i : ι) : (untilError round).step none i = (none, none) := rfl

theorem untilError_step_ok {s s' : σ} {i : ι} {out : Option κ} (h : round s i = .ok (s', out)) :
    (untilError round).step (some s) i = (some s', out) := by
  simp only [untilError, Option.map_some, h]

theorem untilError_step_error {s : σ} {i : ι} {e : ε} (h : round s i = .error e) :
    (untilError round).step (some s) i = (none, none) := by
  simp only [untilError, Option.map_some, h]

/-- What the rounds that do not fail preserve holds of what a run puts out. -/
theorem untilError_emitted {P : List κ → Prop} {K : List κ → σ → Prop}
    (hP : ∀ out s, K out s → P out)
    (hstep : ∀ out s i s' o, K out s → round s i = .ok (s', o) → K (out ++ o.toList) s') {s : σ}
    (h0 : K [] s) (is : List ι) : P ((untilError round).emitted (some s) is) := by
  refine ((untilError round).emitted_history (J := fun out s? => P out ∧ ∀ s ∈ s?, K out s) ?_
    ⟨hP _ _ h0, ?_⟩ is).1
  · rintro out (_ | s) i ⟨hout, hK⟩
    · rw [Machine.out, next, untilError_step_none, Option.toList_none, List.append_nil]
      exact ⟨hout, fun _ h => by cases h⟩
    · rw [Machine.out, next]
      cases hround : round s i with
      | error e =>
          rw [untilError_step_error round hround, Option.toList_none, List.append_nil]
          exact ⟨hout, fun _ h => by cases h⟩
      | ok res =>
          obtain ⟨s', o⟩ := res
          have hnext := hstep out s i s' o (hK s rfl) hround
          rw [untilError_step_ok round hround]
          refine ⟨hP _ _ hnext, ?_⟩
          rintro _ ⟨⟩
          exact hnext
  · rintro _ ⟨⟩
    exact h0

end Failing

/-! ## Clocks that never go back -/

/-- The times read along a list of inputs never decrease.  An input may read no
clock at all. -/
def Timed (time : ι → Option Nat) (is : List ι) : Prop :=
  is.Pairwise fun i j => ∀ a ∈ time i, ∀ b ∈ time j, a ≤ b

theorem Timed.append {time : ι → Option Nat} {is js : List ι} (h : Timed time (is ++ js)) :
    Timed time is ∧ Timed time js :=
  ⟨(List.pairwise_append.mp h).1, (List.pairwise_append.mp h).2.1⟩

/-- Under a clock that never goes back, no earlier transition of the run reads a
later time. -/
theorem Timed.trace_le {time : ι → Option Nat} {s : σ} {is : List ι} (h : Timed time is)
    {pre post : List (Transition σ ι ο)} {t : Transition σ ι ο}
    (hsplit : M.trace s is = pre ++ t :: post) :
    ∀ u ∈ pre, ∀ a ∈ time u.input, ∀ b ∈ time t.input, a ≤ b := by
  obtain ⟨is₁, i, is₂, rfl, rfl, rfl, -⟩ := M.trace_split hsplit
  intro u hu
  obtain ⟨js, j, js', rfl, rfl⟩ := M.mem_trace hu
  exact (List.pairwise_append.mp h).2.2 j (by simp) i (by simp)

/-! ## Components -/

section Component

variable {τ κ μ : Type*} (N : Machine τ κ μ)

/-- When every step of `M` acts on the component `proj` as a list of steps of
`N`, a run of `M` acts on it as those lists one after another. -/
theorem run_project {proj : σ → τ} {ops : σ → ι → List κ}
    (hstep : ∀ s i, proj (M.next s i) = N.run (proj s) (ops s i)) (s : σ) :
    ∀ is : List ι, proj (M.run s is) =
      N.run (proj s) ((M.trace s is).flatMap fun t => ops t.before t.input)
  | [] => rfl
  | i :: is => by
      rw [run_cons, run_project hstep (M.next s i) is, hstep]
      simp [run_append]

end Component

end Machine

end Machines
