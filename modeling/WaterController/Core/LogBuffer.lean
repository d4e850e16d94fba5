import Mathlib.Logic.Function.Basic
import WaterController.Library.Channel
import WaterController.Library.Ring

/-!
# The log buffer

The last log records, and the channels of those who follow the log.  A record that is pushed
goes to every channel that has room, and a channel without its receiver is taken off the list.

Nothing depends on what a record is, so records are of any type here.  `LogRecord` is the one
that the logger pushes.
-/

namespace WaterController

/-- A log record.  The levels are 1 for errors to 5 for traces. -/
structure LogRecord where
  monotonicMs : Nat
  level : Fin 256
  target : String
  message : String
deriving DecidableEq, Repr

/-- A capacity that holds something. -/
abbrev Capacity : Type := { n : Nat // 0 < n }

/-- The buffer, and the channel of each subscriber there was.  A sender is known by the id of
its subscriber. -/
structure LogBuffer (α : Type*) where
  capacity : Capacity
  records : List α
  nextSubscriberId : Nat
  subscribers : List Nat
  channels : Nat → Channel α

namespace LogBuffer

variable {α : Type*}

def new (capacity : Capacity) : LogBuffer α := ⟨capacity, [], 0, [], fun _ => .absent⟩

/-- Send to every subscriber, and keep those that are there. -/
def fanOut (rec : α) : List Nat → (Nat → Channel α) → List Nat × (Nat → Channel α)
  | [], channels => ([], channels)
  | id :: ids, channels =>
      match (channels id).trySend rec with
      | (.disconnected, ch) => fanOut rec ids (Function.update channels id ch)
      | (_, ch) =>
          let kept := fanOut rec ids (Function.update channels id ch)
          (id :: kept.1, kept.2)

def push (buf : LogBuffer α) (rec : α) : LogBuffer α :=
  let kept := fanOut rec buf.subscribers buf.channels
  { buf with
    records := Ring.push buf.capacity buf.records rec
    subscribers := kept.1
    channels := kept.2 }

/-- The last records, up to `n`. -/
def snapshot (buf : LogBuffer α) (n : Nat) : List α :=
  buf.records.drop (buf.records.length - n)

def subscribe (buf : LogBuffer α) (channelCapacity : Capacity) : Nat × LogBuffer α :=
  let id := buf.nextSubscriberId
  (id, { buf with
    nextSubscriberId := id + 1
    subscribers := buf.subscribers ++ [id]
    channels := Function.update buf.channels id (.new channelCapacity) })

def unsubscribe (buf : LogBuffer α) (id : Nat) : LogBuffer α :=
  { buf with subscribers := buf.subscribers.filter (· ≠ id) }

/-- A subscriber receives. -/
def recv (buf : LogBuffer α) (id : Nat) : Option α × LogBuffer α :=
  let r := (buf.channels id).recv
  (r.1, { buf with channels := Function.update buf.channels id r.2 })

/-- A subscriber drops its receiver. -/
def dropReceiver (buf : LogBuffer α) (id : Nat) : LogBuffer α :=
  { buf with channels := Function.update buf.channels id (buf.channels id).drop }

/-! ## What a push does -/

/-- A push sends to each subscriber once, whatever comes of the others. -/
theorem fanOut_channels {rec : α} {ids : List Nat} (hids : ids.Nodup) (channels : Nat → Channel α)
    (id : Nat) :
    (fanOut rec ids channels).2 id =
      if id ∈ ids then ((channels id).trySend rec).2 else channels id := by
  induction ids generalizing channels with
  | nil => exact (if_neg List.not_mem_nil).symm
  | cons first ids ih =>
      obtain ⟨hfirst, hrest⟩ := List.nodup_cons.mp hids
      have hsend (ch : Channel α) (hch : ch = ((channels first).trySend rec).2) :
          (fanOut rec ids (Function.update channels first ch)).2 id =
            if id ∈ first :: ids then ((channels id).trySend rec).2 else channels id := by
        rw [ih hrest]
        rcases eq_or_ne id first with rfl | hne
        · rw [if_neg hfirst, if_pos List.mem_cons_self, Function.update_self, hch]
        · rw [Function.update_of_ne hne]
          simp only [List.mem_cons, hne, false_or]
      rw [fanOut]
      split
      · rename_i ch hresult
        exact hsend ch (by rw [hresult])
      · rename_i ch _ hresult
        exact hsend ch (by rw [hresult])

/-- Those stay whose receiver is there. -/
theorem fanOut_kept {rec : α} {ids : List Nat} (hids : ids.Nodup) (channels : Nat → Channel α) :
    (fanOut rec ids channels).1 = ids.filter fun id => (channels id).alive := by
  induction ids generalizing channels with
  | nil => rfl
  | cons first ids ih =>
      obtain ⟨hfirst, hrest⟩ := List.nodup_cons.mp hids
      have hothers (ch : Channel α) :
          (fanOut rec ids (Function.update channels first ch)).1 =
            ids.filter fun id => (channels id).alive := by
        rw [ih hrest]
        refine List.filter_congr fun id hid => ?_
        rw [Function.update_of_ne]
        rintro rfl
        exact hfirst hid
      rw [fanOut, List.filter_cons]
      split
      · rename_i ch hresult
        have hgone : (channels first).alive = false :=
          Channel.disconnected_iff.mp (congrArg Prod.fst hresult)
        rw [if_neg (by rw [hgone]; decide)]
        exact hothers ch
      · rename_i ch hother hresult
        have halive : (channels first).alive = true := by
          rw [← Bool.not_eq_false, ← @Channel.disconnected_iff _ _ rec, hresult]
          exact hother
        rw [if_pos halive]
        exact congrArg (first :: ·) (hothers ch)

end LogBuffer

end WaterController
