import WaterController.Log.WsFanout

/-!
# What a WebSocket session is sent

A session is sent a piece of the log by its handler first, the last records that there were when
it came, up to a send that fails.  What the thread sends it comes behind that, in the log's order,
no record twice, and no two within 200 milliseconds (`frames_in_order`).

The thread can be behind the log when the session comes, so a record can be sent by both, and the
first records of the thread can be older than the last one of the handler.
-/

namespace WaterController

open Machines (Machine Transition)
open scoped List

namespace Log

namespace Ws

/-! ## The handlers and the thread -/

def WsEvent.replay? (session : Nat) : WsEvent → Option Entry
  | .replayed session' rec => if session' = session then some rec else none
  | .visited _ => none

/-- What its handler sent to a session. -/
def replayedTo (session : Nat) (events : List WsEvent) : List Entry :=
  events.filterMap (WsEvent.replay? session)

/-- A frame went to a session. -/
def WsEvent.sentTo (session : Nat) : WsEvent → Bool
  | .replayed session' _ => session' = session
  | .visited v => v.session = session ∧ v.sent = true

/-- What was sent to a session. -/
def sentTo (session : Nat) (events : List WsEvent) : List WsEvent :=
  events.filter (WsEvent.sentTo session)

/-- The thread has no part in what the handlers read. -/
theorem thread_frame (s : WsLog) (closed : Nat → Bool) :
    (s.thread closed).1.handlers = s.handlers ∧ (s.thread closed).1.opened = s.opened ∧
      (s.thread closed).1.log = s.log ∧ (s.thread closed).1.buf.capacity = s.buf.capacity ∧
      (s.thread closed).1.buf.records = s.buf.records := by
  rw [WsLog.thread]
  split
  · exact ⟨rfl, rfl, rfl, rfl, rfl⟩
  · rename_i id _
    rw [WsLog.receive]
    split
    · rename_i rec buf hrecv
      have hbuf : (s.buf.recv id).2 = buf := congrArg Prod.snd hrecv
      rw [← hbuf]
      exact ⟨rfl, rfl, rfl, rfl, rfl⟩
    · split <;> exact ⟨rfl, rfl, rfl, rfl, rfl⟩
  · exact ⟨rfl, rfl, rfl, rfl, rfl⟩
  · exact ⟨rfl, rfl, rfl, rfl, rfl⟩
  · rw [WsLog.send]
    split
    · split <;> exact ⟨rfl, rfl, rfl, rfl, rfl⟩
    · exact ⟨rfl, rfl, rfl, rfl, rfl⟩
  · exact ⟨rfl, rfl, rfl, rfl, rfl⟩

/-- The thread follows the log.  What a handler has sent, and is still to send, is a part of the
snapshot from its start on, and comes in front of what the thread sends. -/
structure Served (events : List WsEvent) (s : WsLog) : Prop where
  follows : Follows (visitsOf events) s
  records : s.buf.records = s.log.rtake s.buf.capacity
  replayed : ∀ n, ∃ k ≤ s.log.length, replayedTo n events ++ (s.handlers n).getD [] <+:
    (s.log.take k).rtake (min 200 s.buf.capacity)
  later : ∀ n, s.opened ≤ n → replayedTo n events = []
  first : ∀ n, sentTo n events =
    (replayedTo n events).map (.replayed n) ++ (framesTo n (visitsOf events)).map .visited

/-- A step that sends nothing, and leaves the handlers. -/
theorem Served.quiet {events : List WsEvent} {s s' : WsLog} (h : Served events s)
    (hfollows : Follows (visitsOf events) s') (hhandlers : s'.handlers = s.handlers)
    (hopened : s'.opened = s.opened) (hcapacity : s'.buf.capacity = s.buf.capacity)
    (hrecords : s'.buf.records = s'.log.rtake s'.buf.capacity) (hlog : s.log <+: s'.log) :
    Served events s' := by
  refine ⟨hfollows, hrecords, fun n => ?_, fun n hn => h.later n (hopened ▸ hn), h.first⟩
  obtain ⟨k, hk, hprefix⟩ := h.replayed n
  obtain ⟨more, hmore⟩ := hlog
  refine ⟨k, by rw [← hmore, List.length_append]; omega, ?_⟩
  rw [hhandlers, hcapacity, ← hmore, List.take_append_of_le_length hk]
  exact hprefix

theorem Served.connect {events : List WsEvent} {s : WsLog} (h : Served events s) :
    Served events s.connect := by
  refine ⟨h.follows.connect, h.records, fun n => ?_,
    fun n hn => h.later n (Nat.le_of_succ_le hn), h.first⟩
  show ∃ k ≤ s.log.length, replayedTo n events ++
    (Function.update s.handlers s.opened (some (s.buf.snapshot 200)) n).getD [] <+: _
  rcases eq_or_ne n s.opened with rfl | hne
  · have hsnapshot : s.buf.snapshot 200 = s.log.rtake (min 200 s.buf.capacity) := by
      rw [← Ring.rtake_rtake, ← h.records]
      rfl
    rw [h.later _ (Nat.le_refl _), Function.update_self, Option.getD_some, List.nil_append,
      hsnapshot]
    refine ⟨s.log.length, Nat.le_refl _, ?_⟩
    show _ <+: (s.log.take s.log.length).rtake _
    rw [List.take_length]
    exact List.prefix_rfl
  · rw [Function.update_of_ne hne]
    exact h.replayed n

/-- A handler goes on with what it has to send. -/
theorem Served.update {events : List WsEvent} {s : WsLog} (h : Served events s) {session : Nat}
    (hsession : (s.handlers session).isSome = true) {pending : Option (List Entry)}
    (hpending : pending.getD [] <+: (s.handlers session).getD []) :
    Served events { s with handlers := Function.update s.handlers session pending } := by
  refine ⟨h.follows.update hsession pending, h.records, fun n => ?_, h.later, h.first⟩
  show ∃ k ≤ s.log.length,
    replayedTo n events ++ (Function.update s.handlers session pending n).getD [] <+: _
  rcases eq_or_ne n session with rfl | hne
  · obtain ⟨k, hk, hprefix⟩ := h.replayed n
    rw [Function.update_self]
    exact ⟨k, hk, (List.prefix_append_right_inj _ |>.mpr hpending).trans hprefix⟩
  · rw [Function.update_of_ne hne]
    exact h.replayed n

theorem Served.register {events : List WsEvent} {s : WsLog} (h : Served events s) {session : Nat}
    (hsession : s.handlers session = some []) :
    Served events ({ s with handlers := Function.update s.handlers session none }.register
      session) := by
  have hsome : (s.handlers session).isSome = true := by rw [hsession]; rfl
  have hreturn : Served events { s with handlers := Function.update s.handlers session none } :=
    h.update hsome List.nil_prefix
  exact ⟨h.follows.register hsome, hreturn.records, hreturn.replayed, hreturn.later,
    hreturn.first⟩

/-- A handler sends the next record. -/
theorem Served.replay {events : List WsEvent} {s : WsLog} (h : Served events s) {session : Nat}
    {rec : Entry} {rest : List Entry} (hsession : s.handlers session = some (rec :: rest)) :
    Served (events ++ [.replayed session rec])
      { s with handlers := Function.update s.handlers session (some rest) } := by
  have hsome : (s.handlers session).isSome = true := by rw [hsession]; rfl
  obtain ⟨hlt, -, hunsent⟩ := h.follows.unregistered session hsome
  have hvisits : visitsOf (events ++ [.replayed session rec]) = visitsOf events := by
    rw [visitsOf, List.filterMap_append]
    exact List.append_nil _
  have hreplayed (n : Nat) : replayedTo n (events ++ [.replayed session rec]) =
      replayedTo n events ++ if session = n then [rec] else [] := by
    rw [replayedTo, List.filterMap_append, List.filterMap_cons, WsEvent.replay?]
    split_ifs <;> rfl
  refine ⟨hvisits ▸ h.follows.update hsome (some rest), h.records, fun n => ?_, fun n hn => ?_,
    fun n => ?_⟩
  · rw [hreplayed]
    show ∃ k ≤ s.log.length, _ ++
      (Function.update s.handlers session (some rest) n).getD [] <+: _
    obtain ⟨k, hk, hprefix⟩ := h.replayed n
    refine ⟨k, hk, ?_⟩
    rcases eq_or_ne session n with rfl | hne
    · rw [hsession] at hprefix
      rw [if_pos rfl, Function.update_self, List.append_assoc]
      exact hprefix
    · rw [if_neg hne, Function.update_of_ne hne.symm, List.append_nil]
      exact hprefix
  · have hne : session ≠ n := Nat.ne_of_lt (Nat.lt_of_lt_of_le hlt hn)
    rw [hreplayed, if_neg hne, List.append_nil]
    exact h.later n hn
  · rw [hreplayed, hvisits, sentTo, List.filter_append, ← sentTo, h.first n]
    rcases eq_or_ne session n with rfl | hne
    · -- the thread has sent it nothing yet
      have hnone : framesTo session (visitsOf events) = [] := framesTo_eq_nil hunsent
      rw [if_pos rfl, hnone, List.map_append]
      simp [WsEvent.sentTo]
    · simp [WsEvent.sentTo, hne]

/-- The thread comes to a sender. -/
theorem Served.visit {events : List WsEvent} {s s' : WsLog} (h : Served events s) {v : Visit}
    (hfollows : Follows (visitsOf events ++ [v]) s') (hhandlers : s'.handlers = s.handlers)
    (hopened : s'.opened = s.opened) (hlog : s'.log = s.log)
    (hcapacity : s'.buf.capacity = s.buf.capacity) (hrecords : s'.buf.records = s.buf.records) :
    Served (events ++ [.visited v]) s' := by
  have hvisits : visitsOf (events ++ [.visited v]) = visitsOf events ++ [v] :=
    List.filterMap_append
  have hreplayed (n : Nat) : replayedTo n (events ++ [.visited v]) = replayedTo n events := by
    rw [replayedTo, List.filterMap_append]
    exact List.append_nil _
  refine ⟨hvisits ▸ hfollows, ?_, fun n => ?_, fun n hn => ?_, fun n => ?_⟩
  · rw [hrecords, hlog, hcapacity]
    exact h.records
  · rw [hreplayed, hhandlers, hlog, hcapacity]
    exact h.replayed n
  · rw [hreplayed]
    exact h.later n (hopened ▸ hn)
  · rw [hvisits, hreplayed, framesTo_concat, sentTo, List.filter_append, ← sentTo, h.first n]
    split
    · rename_i hv
      simp [WsEvent.sentTo, hv]
    · rename_i hv
      simp [WsEvent.sentTo, hv]

theorem Served.next {events : List WsEvent} {s : WsLog} (h : Served events s) (step : WsStep) :
    Served (events ++ (machine.out s step).toList) (machine.next s step) := by
  have hquiet {s' : WsLog} (h' : Served events s') :
      Served (events ++ (none : Option WsEvent).toList) s' := by
    rw [Option.toList_none, List.append_nil]
    exact h'
  cases step with
  | wait ms =>
      exact hquiet (h.quiet (h.follows.wait ms) rfl rfl rfl h.records List.prefix_rfl)
  | other op =>
      refine hquiet ?_
      show Served events (s.other op)
      have hfollows := h.follows.other op
      rw [WsLog.other] at hfollows ⊢
      split at hfollows
      · rw [if_pos ‹_›]
        exact h
      · rw [if_neg ‹_›]
        exact h.quiet hfollows rfl rfl (Telnet.capacity_step _ _)
          (Telnet.records_step h.records _) (List.prefix_append _ _)
  | connect => exact hquiet h.connect
  | handler session ok =>
      show Served (events ++ (s.handler session ok).2.toList) (s.handler session ok).1
      obtain ⟨-, hstep⟩ | ⟨-, hsome, hstep⟩ | ⟨rec, rest, hsession, hstep⟩ |
        ⟨-, hsession, hstep⟩ := s.handler_cases session ok <;> rw [hstep]
      · exact hquiet h
      · exact hquiet (h.update hsome List.nil_prefix)
      · exact h.replay hsession
      · exact hquiet (h.register hsession)
  | fanout closed =>
      show Served (events ++ ((s.thread closed).2.map .visited).toList) (s.thread closed).1
      obtain ⟨hhandlers, hopened, hlog, hcapacity, hrecords⟩ := thread_frame s closed
      have hfollows := h.follows.thread_next closed
      cases hvisit : (s.thread closed).2 with
      | none =>
          rw [hvisit, Option.toList_none, List.append_nil] at hfollows
          refine hquiet (h.quiet hfollows hhandlers hopened hcapacity ?_ (hlog ▸ List.prefix_rfl))
          rw [hrecords, hlog, hcapacity]
          exact h.records
      | some v =>
          rw [hvisit] at hfollows
          exact h.visit hfollows hhandlers hopened hlog hcapacity hrecords

/-- The capacity of the log stays. -/
theorem capacity_run (capacity : Capacity) (steps : List WsStep) :
    (machine.run (start capacity) steps).buf.capacity = capacity := by
  refine machine.run_invariant (P := fun s => s.buf.capacity = capacity) (G := fun _ _ => True)
    (fun s step _ hs => ?_) rfl fun _ _ => trivial
  rw [← hs]
  cases step with
  | wait ms | connect => rfl
  | other op =>
      show (s.other op).buf.capacity = _
      rw [WsLog.other]
      split
      · rfl
      · exact Telnet.capacity_step _ _
  | handler session ok =>
      show (s.handler session ok).1.buf.capacity = _
      obtain ⟨-, hstep⟩ | ⟨-, -, hstep⟩ | ⟨_, _, -, hstep⟩ | ⟨-, -, hstep⟩ :=
        s.handler_cases session ok <;> rw [hstep]
      rfl
  | fanout closed => exact (thread_frame s closed).2.2.2.1

end Ws

end Log

end WaterController
