import Mathlib.Data.List.Basic
import Mathlib.Tactic.Common

/-!
# Bounded channels

A channel with a bound on what waits in it, and one receiver.  A send never waits: it is
refused when the channel is full, and when the receiver is gone.  What waits when the receiver
goes is lost with it.

What was sent is what was received, what was lost, and what waits, in this order
(`Channel.sent`).
-/

structure Channel (α : Type*) where
  capacity : Nat
  queue : List α
  /-- The receiver is there. -/
  alive : Bool
  received : List α
  lost : List α
  kept : alive = true → lost = []

/-- What comes of a send. -/
inductive TrySend where
  | ok
  | full
  | disconnected
deriving DecidableEq, Repr

namespace Channel

variable {α : Type*}

def new (capacity : Nat) : Channel α := ⟨capacity, [], true, [], [], fun _ => rfl⟩

/-- A channel that there is not. -/
def absent : Channel α := ⟨0, [], false, [], [], fun _ => rfl⟩

/-- Nothing more fits. -/
def Full (ch : Channel α) : Prop := ch.capacity ≤ ch.queue.length

instance (ch : Channel α) : Decidable ch.Full :=
  inferInstanceAs (Decidable (ch.capacity ≤ ch.queue.length))

def trySend (ch : Channel α) (x : α) : TrySend × Channel α :=
  if ch.alive = false then (.disconnected, ch)
  else if ch.Full then (.full, ch)
  else (.ok, { ch with queue := ch.queue ++ [x] })

/-- What waits longest. -/
def recv (ch : Channel α) : Option α × Channel α :=
  match ch.alive, ch.queue with
  | true, x :: queue => (some x, { ch with queue := queue, received := ch.received ++ [x] })
  | _, _ => (none, ch)

/-- The receiver goes. -/
def drop (ch : Channel α) : Channel α :=
  { ch with queue := [], alive := false, lost := ch.lost ++ ch.queue, kept := nofun }

/-- What was sent and not refused. -/
def sent (ch : Channel α) : List α := ch.received ++ ch.lost ++ ch.queue

@[simp] theorem sent_new (capacity : Nat) : (new capacity : Channel α).sent = [] := rfl

@[simp] theorem sent_absent : (absent : Channel α).sent = [] := rfl

theorem trySend_disconnected {ch : Channel α} (h : ch.alive = false) (x : α) :
    ch.trySend x = (.disconnected, ch) := if_pos h

theorem trySend_full {ch : Channel α} (h : ch.alive = true) (hfull : ch.Full) (x : α) :
    ch.trySend x = (.full, ch) := by
  rw [trySend, if_neg (by rw [h]; decide), if_pos hfull]

theorem trySend_ok {ch : Channel α} (h : ch.alive = true) (hfull : ¬ ch.Full) (x : α) :
    ch.trySend x = (.ok, { ch with queue := ch.queue ++ [x] }) := by
  rw [trySend, if_neg (by rw [h]; decide), if_neg hfull]

/-- A send finds out that the receiver is gone. -/
theorem disconnected_iff {ch : Channel α} {x : α} :
    (ch.trySend x).1 = .disconnected ↔ ch.alive = false := by
  rw [trySend]
  split
  · rename_i h
    exact iff_of_true rfl h
  · rename_i h
    refine iff_of_false ?_ h
    split
    · exact nofun
    · exact nofun

@[simp] theorem alive_trySend (ch : Channel α) (x : α) : (ch.trySend x).2.alive = ch.alive := by
  rw [trySend]
  split
  · rfl
  · split <;> rfl

@[simp] theorem alive_recv (ch : Channel α) : ch.recv.2.alive = ch.alive := by
  rw [recv]
  split
  · rfl
  · rfl

/-- A send adds what it sends, where it is not refused. -/
theorem sent_trySend (ch : Channel α) (x : α) :
    (ch.trySend x).2.sent = if ch.alive = true ∧ ¬ ch.Full then ch.sent ++ [x] else ch.sent := by
  cases halive : ch.alive with
  | false => rw [trySend_disconnected halive, if_neg (fun h => Bool.false_ne_true h.1)]
  | true =>
      by_cases hfull : ch.Full
      · rw [trySend_full halive hfull, if_neg (fun h => h.2 hfull)]
      · rw [trySend_ok halive hfull, if_pos ⟨rfl, hfull⟩, sent, sent, List.append_assoc]
        exact (List.append_assoc _ _ _).symm.trans (List.append_assoc _ _ _).symm

@[simp] theorem sent_recv (ch : Channel α) : ch.recv.2.sent = ch.sent := by
  rw [recv]
  split
  · rename_i x queue halive hqueue
    simp only [sent, ch.kept halive, hqueue, List.append_assoc]
    rfl
  · rfl

theorem recv_eq_some {ch ch' : Channel α} {x : α} (h : ch.recv = (some x, ch')) :
    ch.queue = x :: ch'.queue ∧ ch'.alive = ch.alive := by
  rw [recv] at h
  split at h
  · rename_i hqueue
    cases h
    exact ⟨hqueue, rfl⟩
  · cases h

/-! ## Several sends -/

/-- Send one after another, and say what comes of each. -/
def offer (ch : Channel α) : List α → List (α × TrySend) × Channel α
  | [] => ([], ch)
  | x :: xs =>
      let r := ch.trySend x
      let rest := offer r.2 xs
      ((x, r.1) :: rest.1, rest.2)

/-- What was not refused. -/
def accepted (offers : List (α × TrySend)) : List α :=
  (offers.filter fun o => o.2 = .ok).map Prod.fst

theorem accepted_append (offers more : List (α × TrySend)) :
    accepted (offers ++ more) = accepted offers ++ accepted more := by
  rw [accepted, List.filter_append, List.map_append]
  rfl

theorem map_fst_offer (ch : Channel α) (xs : List α) : (ch.offer xs).1.map Prod.fst = xs := by
  induction xs generalizing ch with
  | nil => rfl
  | cons x xs ih =>
      rw [offer, List.map_cons]
      exact congrArg (x :: ·) (ih (ch.trySend x).2)

@[simp] theorem capacity_trySend (ch : Channel α) (x : α) :
    (ch.trySend x).2.capacity = ch.capacity := by
  rw [trySend]
  split
  · rfl
  · split <;> rfl

@[simp] theorem capacity_recv (ch : Channel α) : ch.recv.2.capacity = ch.capacity := by
  rw [recv]
  split <;> rfl

/-- The channel holds no more than it can. -/
def Bounded (ch : Channel α) : Prop := ch.queue.length ≤ ch.capacity

theorem Bounded.trySend {ch : Channel α} (h : ch.Bounded) (x : α) : (ch.trySend x).2.Bounded := by
  simp only [Channel.trySend]
  split
  · exact h
  · split
    · exact h
    · rename_i hfull
      have hroom : ch.queue.length < ch.capacity := Nat.lt_of_not_le hfull
      show (ch.queue ++ [x]).length ≤ ch.capacity
      rw [List.length_append, List.length_singleton]
      exact hroom

theorem Bounded.recv {ch : Channel α} (h : ch.Bounded) : ch.recv.2.Bounded := by
  simp only [Channel.recv]
  split
  · rename_i x queue halive hqueue
    have hle : (x :: queue).length ≤ ch.capacity := hqueue ▸ h
    exact Nat.le_of_succ_le hle
  · exact h

/-- What sends that find the receiver add to a channel, beside its bound. -/
theorem offer_spec {ch : Channel α} (halive : ch.alive = true) (hbounded : ch.Bounded)
    (xs : List α) :
    (ch.offer xs).2.alive = true ∧ (ch.offer xs).2.capacity = ch.capacity ∧
      (ch.offer xs).2.Bounded ∧ (ch.offer xs).2.received = ch.received ∧
      (ch.offer xs).2.queue = ch.queue ++ accepted (ch.offer xs).1 := by
  induction xs generalizing ch with
  | nil => exact ⟨halive, rfl, hbounded, rfl, (List.append_nil _).symm⟩
  | cons x xs ih =>
      obtain ⟨ha, hc, hb, hr, hq⟩ := @ih (ch.trySend x).2
        ((alive_trySend ch x).trans halive) (hbounded.trySend x)
      rw [offer]
      refine ⟨ha, hc.trans (capacity_trySend ch x), hb, hr.trans ?_, hq.trans ?_⟩
      · by_cases hfull : ch.Full
        · rw [trySend_full halive hfull]
        · rw [trySend_ok halive hfull]
      · by_cases hfull : ch.Full
        · rw [trySend_full halive hfull]
          rfl
        · rw [trySend_ok halive hfull]
          exact List.append_assoc _ _ _

@[simp] theorem received_trySend (ch : Channel α) (x : α) :
    (ch.trySend x).2.received = ch.received := by
  rw [trySend]
  split
  · rfl
  · split <;> rfl

theorem received_recv (ch : Channel α) :
    ch.recv.2.received = ch.received ++ ch.recv.1.toList := by
  rw [recv]
  split
  · rfl
  · exact (List.append_nil _).symm

/-- What is received is taken off the queue. -/
theorem queue_recv (ch : Channel α) : ch.queue = ch.recv.1.toList ++ ch.recv.2.queue := by
  rw [recv]
  split
  · rename_i x queue halive hqueue
    exact hqueue
  · rfl

@[simp] theorem sent_drop (ch : Channel α) : ch.drop.sent = ch.sent := by
  rw [sent, sent, drop, List.append_nil, List.append_assoc]

end Channel
