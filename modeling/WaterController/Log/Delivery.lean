import WaterController.Core.LogBuffer

/-!
# Who gets what of the log

Any number of tasks push to the log buffer, follow it and leave it again.  The channel of a
subscriber is the one that there would be if there were no other (`channel_eq_own`), and what
is sent to it is what is pushed while it is subscribed and its channel has room
(`delivered_exactly`).
-/

namespace WaterController

namespace Log

variable {α : Type*}

/-! ## Runs -/

/-- What is done to the buffer, one lock after the other. -/
inductive Op (α : Type*) where
  | push (rec : α)
  | subscribe (channelCapacity : Capacity)
  | unsubscribe (id : Nat)
  | recv (id : Nat)
  | dropReceiver (id : Nat)

def step (buf : LogBuffer α) : Op α → LogBuffer α
  | .push rec => buf.push rec
  | .subscribe channelCapacity => (buf.subscribe channelCapacity).2
  | .unsubscribe id => buf.unsubscribe id
  | .recv id => (buf.recv id).2
  | .dropReceiver id => buf.dropReceiver id

def run (buf : LogBuffer α) (ops : List (Op α)) : LogBuffer α := ops.foldl step buf

theorem run_append (buf : LogBuffer α) (ops more : List (Op α)) :
    run buf (ops ++ more) = run (run buf ops) more := List.foldl_append

/-- The records that were pushed. -/
def pushed : List (Op α) → List α
  | [] => []
  | .push rec :: ops => rec :: pushed ops
  | _ :: ops => pushed ops

/-! ## One subscriber -/

/-- What is done that a subscriber has to do with. -/
inductive Own (α : Type*) where
  | push (rec : α)
  | subscribe (channelCapacity : Capacity)
  | unsubscribe
  | recv
  | dropReceiver

/-- A subscriber on its own: whether the buffer has its sender, and its channel. -/
structure Subscription (α : Type*) where
  subscribed : Bool
  channel : Channel α

namespace Subscription

def none : Subscription α := ⟨false, .absent⟩

def step (sub : Subscription α) : Own α → Subscription α
  | .push rec =>
      if sub.subscribed then ⟨sub.channel.alive, (sub.channel.trySend rec).2⟩ else sub
  | .subscribe channelCapacity => ⟨true, .new channelCapacity⟩
  | .unsubscribe => { sub with subscribed := false }
  | .recv => { sub with channel := sub.channel.recv.2 }
  | .dropReceiver => { sub with channel := sub.channel.drop }

def run (sub : Subscription α) (own : List (Own α)) : Subscription α := own.foldl step sub

end Subscription

/-- What an operation is to a subscriber, where `next` is the next id. -/
def own (id next : Nat) : Op α → Option (Own α)
  | .push rec => some (.push rec)
  | .subscribe channelCapacity => if next = id then some (.subscribe channelCapacity) else none
  | .unsubscribe id' => if id' = id then some .unsubscribe else none
  | .recv id' => if id' = id then some .recv else none
  | .dropReceiver id' => if id' = id then some .dropReceiver else none

def nextId (next : Nat) : Op α → Nat
  | .subscribe _ => next + 1
  | _ => next

/-- What a run is to a subscriber. -/
def ownOps (id : Nat) : Nat → List (Op α) → List (Own α)
  | _, [] => []
  | next, op :: ops => (own id next op).toList ++ ownOps id (nextId next op) ops

/-! ## The buffer as a subscriber sees it -/

/-- No id is on the list twice, and of those that are still to come there is nothing. -/
structure Wf (buf : LogBuffer α) : Prop where
  nodup : buf.subscribers.Nodup
  below : ∀ id ∈ buf.subscribers, id < buf.nextSubscriberId
  fresh : ∀ id, buf.nextSubscriberId ≤ id → buf.channels id = .absent

theorem Wf.new (capacity : Capacity) : Wf (LogBuffer.new capacity : LogBuffer α) :=
  ⟨List.nodup_nil, fun _ hid => absurd hid List.not_mem_nil, fun _ _ => rfl⟩

/-- What is done to one channel leaves nothing where nothing is. -/
theorem Wf.update {buf : LogBuffer α} (h : Wf buf) (id : Nat) {f : Channel α → Channel α}
    (hf : f .absent = .absent) :
    Wf { buf with channels := Function.update buf.channels id (f (buf.channels id)) } := by
  refine ⟨h.nodup, h.below, fun other hother => ?_⟩
  show Function.update buf.channels id (f (buf.channels id)) other = .absent
  rcases eq_or_ne other id with rfl | hne
  · rw [Function.update_self, h.fresh other hother, hf]
  · rw [Function.update_of_ne hne, h.fresh other hother]

/-- The buffer, as a subscriber sees it. -/
def view (id : Nat) (buf : LogBuffer α) : Subscription α :=
  ⟨decide (id ∈ buf.subscribers), buf.channels id⟩

theorem Wf.step {buf : LogBuffer α} (h : Wf buf) (op : Op α) : Wf (Log.step buf op) := by
  cases op with
  | push rec =>
      have hkept : (buf.push rec).subscribers =
          buf.subscribers.filter fun id => (buf.channels id).alive :=
        LogBuffer.fanOut_kept h.nodup buf.channels
      refine ⟨?_, fun id hid => h.below id ?_, fun id hid => ?_⟩
      · rw [Log.step, hkept]
        exact h.nodup.filter _
      · rw [Log.step, hkept] at hid
        exact (List.mem_filter.mp hid).1
      · have hout : id ∉ buf.subscribers := fun hmem =>
          absurd (h.below id hmem) (Nat.not_lt.mpr hid)
        exact (LogBuffer.fanOut_channels h.nodup buf.channels id).trans
          ((if_neg hout).trans (h.fresh id hid))
  | subscribe channelCapacity =>
      refine ⟨?_, fun id hid => ?_, fun id hid => ?_⟩
      · refine List.nodup_append.mpr ⟨h.nodup, List.pairwise_singleton _ _,
          fun id hid other hother => ?_⟩
        rw [List.mem_singleton.mp hother]
        exact Nat.ne_of_lt (h.below id hid)
      · rcases List.mem_append.mp hid with hid | hid
        · exact Nat.lt_succ_of_lt (h.below id hid)
        · rw [List.mem_singleton.mp hid]
          exact Nat.lt_succ_self _
      · have hlt : buf.nextSubscriberId < id := hid
        exact (Function.update_of_ne (Nat.ne_of_gt hlt) ..).trans (h.fresh id (Nat.le_of_lt hlt))
  | unsubscribe id =>
      exact ⟨h.nodup.filter _, fun other hother => h.below other (List.mem_filter.mp hother).1,
        h.fresh⟩
  | recv id => exact h.update id (f := fun ch => ch.recv.2) rfl
  | dropReceiver id => exact h.update id (f := Channel.drop) rfl

theorem nextSubscriberId_step (buf : LogBuffer α) (op : Op α) :
    (step buf op).nextSubscriberId = nextId buf.nextSubscriberId op := by
  cases op <;> rfl

/-- What is done to a channel is done to its subscriber alone. -/
theorem view_update (id other : Nat) (buf : LogBuffer α) (f : Channel α → Channel α) :
    view id { buf with
        channels := Function.update buf.channels other (f (buf.channels other)) } =
      if other = id then { view id buf with channel := f (view id buf).channel }
      else view id buf := by
  split
  · rename_i hid
    subst hid
    exact congrArg (Subscription.mk _) (Function.update_self ..)
  · rename_i hid
    exact congrArg (Subscription.mk _) (Function.update_of_ne (Ne.symm hid) ..)

/-- A step is to a subscriber what its own part of it is. -/
theorem view_step {buf : LogBuffer α} (h : Wf buf) (id : Nat) (op : Op α) :
    view id (step buf op) =
      (view id buf).run (own id buf.nextSubscriberId op).toList := by
  cases op with
  | push rec =>
      have hchannel : (buf.push rec).channels id =
          if id ∈ buf.subscribers then ((buf.channels id).trySend rec).2 else buf.channels id :=
        LogBuffer.fanOut_channels h.nodup buf.channels id
      have hkept : (buf.push rec).subscribers =
          buf.subscribers.filter fun id => (buf.channels id).alive :=
        LogBuffer.fanOut_kept h.nodup buf.channels
      show view id (buf.push rec) = (view id buf).step (.push rec)
      rw [view, hchannel, hkept, view, Subscription.step]
      by_cases hid : id ∈ buf.subscribers
      · simp [hid]
      · simp [hid]
  | subscribe channelCapacity =>
      rw [own]
      split
      · rename_i hid
        subst hid
        show Subscription.mk _ _ = Subscription.mk _ _
        congr 1
        · exact decide_eq_true (List.mem_append_right _ (List.mem_singleton_self _))
        · exact Function.update_self ..
      · rename_i hid
        show Subscription.mk _ _ = Subscription.mk _ _
        congr 1
        · have hmem : id ∈ buf.subscribers ++ [buf.nextSubscriberId] ↔ id ∈ buf.subscribers := by
            rw [List.mem_append, List.mem_singleton]
            exact or_iff_left fun heq => hid heq.symm
          exact decide_eq_decide.mpr hmem
        · exact Function.update_of_ne (Ne.symm hid) ..
  | unsubscribe other =>
      rw [own]
      split
      · rename_i hid
        subst hid
        show Subscription.mk _ _ = Subscription.mk _ _
        congr 1
        refine decide_eq_false fun hmem => ?_
        exact of_decide_eq_true (List.mem_filter.mp hmem).2 rfl
      · rename_i hid
        show Subscription.mk _ _ = Subscription.mk _ _
        congr 1
        have hmem : id ∈ buf.subscribers.filter (· ≠ other) ↔ id ∈ buf.subscribers := by
          rw [List.mem_filter]
          exact and_iff_left (decide_eq_true (Ne.symm hid))
        exact decide_eq_decide.mpr hmem
  | recv other =>
      rw [own]
      refine (view_update id other buf fun ch => ch.recv.2).trans ?_
      split <;> rfl
  | dropReceiver other =>
      rw [own]
      refine (view_update id other buf Channel.drop).trans ?_
      split <;> rfl

theorem Wf.run {buf : LogBuffer α} (h : Wf buf) (ops : List (Op α)) : Wf (Log.run buf ops) := by
  induction ops generalizing buf with
  | nil => exact h
  | cons op ops ih => exact ih (h.step op)

/-- A run is to a subscriber what its own part of it is. -/
theorem view_run {buf : LogBuffer α} (h : Wf buf) (id : Nat) (ops : List (Op α)) :
    view id (run buf ops) = (view id buf).run (ownOps id buf.nextSubscriberId ops) := by
  induction ops generalizing buf with
  | nil => rfl
  | cons op ops ih =>
      have hstep := ih (h.step op)
      rw [nextSubscriberId_step, view_step h] at hstep
      rw [ownOps, Subscription.run, List.foldl_append]
      exact hstep

/-! ## Who is subscribed -/

/-- Whether the subscriber is subscribed, with its receiver. -/
def subscribedAfter (on : Bool) : Own α → Bool
  | .push _ => on
  | .subscribe _ => true
  | .unsubscribe => false
  | .recv => on
  | .dropReceiver => false

/-- Whether a subscriber is subscribed behind a run: its subscription is in it, and neither the
end of it nor of its receiver is behind that. -/
def subscribedBy (id : Nat) (ops : List (Op α)) : Bool :=
  (ownOps id 0 ops).foldl subscribedAfter false

def Subscription.follows (sub : Subscription α) : Bool := sub.subscribed && sub.channel.alive

theorem Subscription.follows_step (sub : Subscription α) (op : Own α) :
    (sub.step op).follows = subscribedAfter sub.follows op := by
  obtain ⟨subscribed, channel⟩ := sub
  cases op with
  | push rec =>
      cases subscribed with
      | false => rfl
      | true =>
          show (channel.alive && (channel.trySend rec).2.alive) = (true && channel.alive)
          rw [Channel.alive_trySend, Bool.and_self, Bool.true_and]
  | subscribe channelCapacity => rfl
  | unsubscribe => rfl
  | recv => exact congrArg (subscribed && ·) (Channel.alive_recv channel)
  | dropReceiver => exact Bool.and_false _

theorem Subscription.follows_run (sub : Subscription α) (ops : List (Own α)) :
    (sub.run ops).follows = ops.foldl subscribedAfter sub.follows := by
  induction ops generalizing sub with
  | nil => rfl
  | cons op ops ih =>
      rw [List.foldl_cons, ← sub.follows_step op]
      exact ih (sub.step op)

/-- Those who are subscribed are on the list and have their receivers. -/
theorem subscribedBy_eq (capacity : Capacity) (id : Nat) (ops : List (Op α)) :
    subscribedBy id ops = (view id (run (.new capacity) ops)).follows := by
  rw [view_run (Wf.new capacity), Subscription.follows_run]
  rfl

/-! ## What is sent -/

/-- What a subscriber with a channel is sent by a step. -/
def sentBy (subscribed : Bool) (ch : Channel α) : Op α → Option α
  | .push rec => if subscribed = true ∧ ¬ ch.Full then some rec else none
  | _ => none

/-- What a subscriber is sent at a position of a run. -/
def sentAt (capacity : Capacity) (ops : List (Op α)) (id k : Nat) : Option α :=
  ops[k]?.bind (sentBy (subscribedBy id (ops.take k))
    ((run (.new capacity) (ops.take k)).channels id))

/-- What operations give at their positions, where each gives something by those before it. -/
theorem filterMap_positions {β : Type*} (f : List (Op α) → Op α → Option β) (ops : List (Op α))
    (op : Op α) :
    (List.range (ops ++ [op]).length).filterMap
        (fun k => (ops ++ [op])[k]?.bind (f ((ops ++ [op]).take k))) =
      (List.range ops.length).filterMap (fun k => ops[k]?.bind (f (ops.take k))) ++
        (f ops op).toList := by
  have hbefore : (List.range ops.length).filterMap
        (fun k => (ops ++ [op])[k]?.bind (f ((ops ++ [op]).take k))) =
      (List.range ops.length).filterMap (fun k => ops[k]?.bind (f (ops.take k))) := by
    refine List.filterMap_congr fun k hk => ?_
    have hlt := List.mem_range.mp hk
    rw [List.getElem?_append_left hlt, List.take_append_of_le_length (Nat.le_of_lt hlt)]
  have hlast : (ops ++ [op])[ops.length]?.bind (f ((ops ++ [op]).take ops.length)) = f ops op := by
    rw [List.getElem?_append_right (Nat.le_refl _), Nat.sub_self, List.take_left' rfl]
    rfl
  rw [List.length_append, List.length_singleton, List.range_succ, List.filterMap_append, hbefore]
  cases hop : f ops op with
  | none => exact congrArg (_ ++ ·) (List.filterMap_cons_none (hlast.trans hop))
  | some b => exact congrArg (_ ++ ·) (List.filterMap_cons_some (hlast.trans hop))

/-- A step adds to what was sent what is sent by it. -/
theorem sent_step {buf : LogBuffer α} (h : Wf buf) (op : Op α) (id : Nat) :
    ((step buf op).channels id).sent = (buf.channels id).sent ++
      (sentBy (view id buf).follows (buf.channels id) op).toList := by
  have hkeep (other : Nat) {f : Channel α → Channel α} (hf : ∀ ch, (f ch).sent = ch.sent) :
      (Function.update buf.channels other (f (buf.channels other)) id).sent =
        (buf.channels id).sent ++ [] := by
    rw [List.append_nil]
    rcases eq_or_ne id other with rfl | hne
    · rw [Function.update_self, hf]
    · rw [Function.update_of_ne hne]
  cases op with
  | push rec =>
      have hchannel : (buf.push rec).channels id =
          if id ∈ buf.subscribers then ((buf.channels id).trySend rec).2 else buf.channels id :=
        LogBuffer.fanOut_channels h.nodup buf.channels id
      rw [step, hchannel, sentBy, Subscription.follows, view]
      by_cases hid : id ∈ buf.subscribers
      · rw [if_pos hid, Channel.sent_trySend]
        simp only [hid, decide_true, Bool.true_and]
        split
        · rfl
        · exact (List.append_nil _).symm
      · simp [hid]
  | subscribe channelCapacity =>
      show (Function.update buf.channels _ (Channel.new _) id).sent = _ ++ []
      rw [List.append_nil]
      rcases eq_or_ne id buf.nextSubscriberId with rfl | hne
      · rw [Function.update_self, h.fresh _ (Nat.le_refl _), Channel.sent_new, Channel.sent_absent]
      · rw [Function.update_of_ne hne]
  | unsubscribe other => exact (List.append_nil _).symm
  | recv other => exact hkeep other Channel.sent_recv
  | dropReceiver other => exact hkeep other Channel.sent_drop

/-- What was sent to a subscriber, position by position. -/
theorem sent_run (capacity : Capacity) (ops : List (Op α)) (id : Nat) :
    ((run (.new capacity) ops).channels id).sent =
      (List.range ops.length).filterMap (sentAt capacity ops id) := by
  induction ops using List.reverseRecOn with
  | nil => rfl
  | append_singleton ops op ih =>
      refine Eq.trans ?_ (filterMap_positions (fun before =>
        sentBy (subscribedBy id before) ((run (.new capacity) before).channels id)) ops op).symm
      rw [run_append, subscribedBy_eq capacity]
      exact (sent_step ((Wf.new capacity).run ops) op id).trans (congrArg (· ++ _) ih)

/-! ## What is received -/

/-- What a step hands out to a subscriber. -/
def handedBy (id : Nat) (buf : LogBuffer α) : Op α → Option α
  | .recv id' => if id' = id then (buf.recv id).1 else none
  | _ => none

/-- What a subscriber is handed at a position of a run. -/
def handedAt (capacity : Capacity) (ops : List (Op α)) (id k : Nat) : Option α :=
  ops[k]?.bind (handedBy id (run (.new capacity) (ops.take k)))

/-- A step adds to what was received what it hands out. -/
theorem received_step {buf : LogBuffer α} (h : Wf buf) (op : Op α) (id : Nat) :
    ((step buf op).channels id).received =
      (buf.channels id).received ++ (handedBy id buf op).toList := by
  cases op with
  | push rec =>
      have hchannel : (buf.push rec).channels id =
          if id ∈ buf.subscribers then ((buf.channels id).trySend rec).2 else buf.channels id :=
        LogBuffer.fanOut_channels h.nodup buf.channels id
      rw [step, hchannel]
      show _ = (buf.channels id).received ++ []
      rw [List.append_nil]
      split
      · exact Channel.received_trySend _ rec
      · rfl
  | subscribe channelCapacity =>
      show (Function.update buf.channels _ (Channel.new _) id).received = _ ++ []
      rw [List.append_nil]
      rcases eq_or_ne id buf.nextSubscriberId with rfl | hne
      · rw [Function.update_self, h.fresh _ (Nat.le_refl _)]
        rfl
      · rw [Function.update_of_ne hne]
  | unsubscribe other => exact (List.append_nil _).symm
  | recv other =>
      rw [handedBy]
      show (Function.update buf.channels other (buf.channels other).recv.2 id).received = _
      split
      · rename_i hid
        subst hid
        rw [Function.update_self]
        exact Channel.received_recv _
      · rename_i hid
        rw [Function.update_of_ne (Ne.symm hid), Option.toList_none, List.append_nil]
  | dropReceiver other =>
      show (Function.update buf.channels other (buf.channels other).drop id).received = _ ++ []
      rw [List.append_nil]
      rcases eq_or_ne id other with rfl | hne
      · rw [Function.update_self]
        rfl
      · rw [Function.update_of_ne hne]

/-- What a subscriber received, position by position. -/
theorem received_run (capacity : Capacity) (ops : List (Op α)) (id : Nat) :
    ((run (.new capacity) ops).channels id).received =
      (List.range ops.length).filterMap (handedAt capacity ops id) := by
  induction ops using List.reverseRecOn with
  | nil => rfl
  | append_singleton ops op ih =>
      refine Eq.trans ?_ (filterMap_positions (fun before =>
        handedBy id (run (.new capacity) before)) ops op).symm
      rw [run_append]
      exact (received_step ((Wf.new capacity).run ops) op id).trans (congrArg (· ++ _) ih)

/-! ## The ring -/

/-- The buffer has the last records that were pushed. -/
theorem records_run (buf : LogBuffer α) (ops : List (Op α)) (before : List α)
    (h : buf.records = before.rtake buf.capacity) :
    (run buf ops).records = (before ++ pushed ops).rtake buf.capacity := by
  induction ops generalizing buf before with
  | nil => rw [pushed, List.append_nil]; exact h
  | cons op ops ih =>
      cases op with
      | push rec =>
          have hpush : (buf.push rec).records = (before ++ [rec]).rtake buf.capacity := by
            rw [LogBuffer.push, h, Ring.push_rtake buf.capacity.2]
          have hrest := ih (buf.push rec) (before ++ [rec]) hpush
          rw [List.append_assoc] at hrest
          exact hrest
      | subscribe channelCapacity => exact ih (buf.subscribe channelCapacity).2 before h
      | unsubscribe id => exact ih (buf.unsubscribe id) before h
      | recv id => exact ih (buf.recv id).2 before h
      | dropReceiver id => exact ih (buf.dropReceiver id) before h

theorem snapshot_run (capacity : Capacity) (ops : List (Op α)) (n : Nat) :
    (run (.new capacity) ops).snapshot n =
      (pushed ops).rtake (min n (min capacity (pushed ops).length)) := by
  have hrecords := records_run (.new capacity) ops [] (List.rtake_nil _).symm
  rw [← Nat.min_assoc, Ring.rtake_min_length, ← Ring.rtake_rtake]
  exact congrArg (List.rtake · n) hrecords

/-- The channel of a subscriber is the one there would be without the others. -/
theorem channel_eq_own (capacity : Capacity) (ops : List (Op α)) (id : Nat) :
    (run (.new capacity) ops).channels id =
      (Subscription.none.run (ownOps id 0 ops)).channel :=
  congrArg Subscription.channel (view_run (Wf.new capacity) id ops)

/-- The capacity asked for, behind an operation of a subscriber. -/
def askedAfter (asked : Nat) : Own α → Nat
  | .subscribe channelCapacity => channelCapacity
  | _ => asked

theorem Subscription.capacity_run (sub : Subscription α) (ops : List (Own α)) :
    (sub.run ops).channel.capacity = ops.foldl askedAfter sub.channel.capacity := by
  induction ops generalizing sub with
  | nil => rfl
  | cons op ops ih =>
      have hstep : (sub.step op).channel.capacity = askedAfter sub.channel.capacity op := by
        cases op with
        | push rec =>
            rw [Subscription.step]
            split
            · exact Channel.capacity_trySend _ rec
            · rfl
        | recv => exact Channel.capacity_recv _
        | subscribe channelCapacity | unsubscribe | dropReceiver => rfl
      rw [List.foldl_cons, ← hstep]
      exact ih (sub.step op)

/-- The capacity that a subscriber asked for in a run. -/
def asked (id : Nat) (ops : List (Op α)) : Nat := (ownOps id 0 ops).foldl askedAfter 0

theorem capacity_run (capacity : Capacity) (ops : List (Op α)) (id : Nat) :
    ((run (.new capacity) ops).channels id).capacity = asked id ops := by
  rw [channel_eq_own]
  exact Subscription.none.capacity_run (ownOps id 0 ops)

/-- **Log.**  A snapshot has the last records that were pushed.  The channel of a new subscriber
is new and empty, and keeps the capacity that was asked for.  What a subscriber received is what
its receives handed out.  With what was lost with its receiver, and what waits for it, that is
the records that were pushed while it was subscribed and its channel had room, in the order of
the pushes; and its channel is the same whatever the others do. -/
theorem ring_and_delivery (capacity : Capacity) (ops : List (Op α)) :
    (∀ n, (run (.new capacity) ops).snapshot n =
      (pushed ops).rtake (min n (min capacity (pushed ops).length))) ∧
    (∀ channelCapacity,
      let new := (run (.new capacity) ops).subscribe channelCapacity
      (run (.new capacity) ops).channels new.1 = .absent ∧
        new.2.channels new.1 = .new channelCapacity) ∧
    ∀ id,
      let ch := (run (.new capacity) ops).channels id
      ch.capacity = asked id ops ∧
      ch.received = (List.range ops.length).filterMap (handedAt capacity ops id) ∧
      ch.received ++ ch.lost ++ ch.queue =
        (List.range ops.length).filterMap (sentAt capacity ops id) ∧
      ∀ ops', ownOps id 0 ops' = ownOps id 0 ops →
        (run (.new capacity) ops').channels id = ch := by
  refine ⟨snapshot_run capacity ops, fun channelCapacity => ⟨?_, Function.update_self ..⟩,
    fun id => ⟨capacity_run capacity ops id, received_run capacity ops id,
      sent_run capacity ops id, fun ops' hown => ?_⟩⟩
  · exact ((Wf.new capacity).run ops).fresh _ (Nat.le_refl _)
  · rw [channel_eq_own, hown, ← channel_eq_own]

/-- Two subscribers.  One has no room for the second record, the other none for the third. -/
example :
    let ops : List (Op Nat) := [.subscribe ⟨1, by decide⟩, .subscribe ⟨2, by decide⟩, .push 1,
      .push 2, .recv 0, .push 3, .recv 1, .recv 1, .recv 1, .push 4]
    let buf := run (.new ⟨2, by decide⟩) ops
    (buf.channels 0).received = [1] ∧ (buf.channels 0).queue = [3] ∧
      (buf.channels 1).received = [1, 2] ∧ (buf.channels 1).queue = [4] ∧
      buf.snapshot 5 = [3, 4] := by
  decide

end Log

end WaterController
