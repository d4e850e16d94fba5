import WaterController.Library.Cursor
import WaterController.Log.WsFanout

/-!
# A pass over the WebSocket sessions

The thread counts the senders, and then comes to one after the other by index.  A sender that is
taken off the front meanwhile moves the others, so that one of them is passed over.

A pass misses no more of the sessions that it counted than senders were taken off the list in it,
and none if none was (`missed_le_evictions`).
-/

namespace WaterController

open Machines (Machine Transition)
open scoped List

namespace Log

namespace Ws

/-! ## The list of the senders -/

theorem length_makeRoom_lt (senders : List Sender) : (makeRoom senders).length < wsSenderCap := by
  induction senders with
  | nil => decide
  | cons first rest ih =>
      rw [makeRoom]
      split
      · exact ih
      · rename_i hroom
        exact Nat.not_le.mp hroom

theorem makeRoom_of_lt {senders : List Sender} (h : senders.length < wsSenderCap) :
    makeRoom senders = senders := by
  cases senders with
  | nil => rfl
  | cons first rest => exact if_neg (Nat.not_le.mpr h)

/-- Of a list that is not too long one sender goes at most. -/
theorem makeRoom_full {first : Sender} {rest : List Sender}
    (hfull : wsSenderCap ≤ (first :: rest).length) (h : (first :: rest).length ≤ wsSenderCap) :
    makeRoom (first :: rest) = rest := by
  rw [makeRoom, if_pos hfull]
  exact makeRoom_of_lt h

theorem length_register_le (s : WsLog) (session : Nat) :
    (s.register session).senders.length ≤ wsSenderCap := by
  rw [WsLog.register, List.length_append]
  exact length_makeRoom_lt s.senders

theorem length_send_le {s : WsLog} (h : s.senders.length ≤ wsSenderCap) (id : Nat) (rec : Entry)
    (i nSenders : Nat) (closed : Nat → Bool) :
    (s.send id rec i nSenders closed).1.senders.length ≤ wsSenderCap := by
  rw [WsLog.send]
  split
  · split <;> exact h
  · exact h

theorem length_senders_next {s : WsLog} (h : s.senders.length ≤ wsSenderCap) (step : WsStep) :
    (machine.next s step).senders.length ≤ wsSenderCap := by
  cases step with
  | wait ms | connect => exact h
  | other op =>
      show (s.other op).senders.length ≤ wsSenderCap
      rw [WsLog.other]
      split <;> exact h
  | handler session ok =>
      show (s.handler session ok).1.senders.length ≤ wsSenderCap
      obtain ⟨-, hstep⟩ | ⟨-, -, hstep⟩ | ⟨_, _, -, hstep⟩ | ⟨-, -, hstep⟩ :=
        s.handler_cases session ok <;> rw [hstep]
      · exact h
      · exact h
      · exact h
      · exact length_register_le _ session
  | fanout closed =>
      show (s.thread closed).1.senders.length ≤ wsSenderCap
      rw [WsLog.thread]
      split
      · exact h
      · rw [WsLog.receive]
        split
        · exact h
        · split <;> exact h
      · exact Nat.le_trans (List.length_filter_le _ _) h
      · exact h
      · exact length_send_le h _ _ _ _ _
      · exact h

def Reachable (s : WsLog) : Prop := ∃ capacity steps, machine.run (start capacity) steps = s

theorem Reachable.length_senders {s : WsLog} (h : Reachable s) :
    s.senders.length ≤ wsSenderCap := by
  obtain ⟨capacity, steps, rfl⟩ := h
  exact machine.run_invariant (P := fun s => s.senders.length ≤ wsSenderCap) (G := fun _ _ => True)
    (fun _ step _ hs => length_senders_next hs step) (Nat.zero_le _) fun _ _ => trivial

/-- The thread is in the loop over the senders. -/
def WsLog.isSending (s : WsLog) : Bool :=
  match s.fanout with
  | .running _ (.sending _ _ _) => true
  | _ => false

/-- The handler of a session registers its sender. -/
def WsLog.registers (s : WsLog) (session : Nat) (ok : Bool) : Bool :=
  ok && (s.handlers session).any List.isEmpty

theorem WsLog.registers_iff {s : WsLog} {session : Nat} {ok : Bool} :
    s.registers session ok = true ↔ ok = true ∧ s.handlers session = some [] := by
  rw [registers, Bool.and_eq_true]
  refine and_congr_right fun _ => ?_
  cases s.handlers session with
  | none => simp
  | some pending => simp

/-- A handler that registers no sender leaves the list and the thread. -/
theorem WsLog.handler_quiet {s : WsLog} {session : Nat} {ok : Bool}
    (h : s.registers session ok = false) :
    (s.handler session ok).1.senders = s.senders ∧ (s.handler session ok).1.fanout = s.fanout ∧
      (s.handler session ok).2.bind WsEvent.visit? = none := by
  obtain ⟨-, hstep⟩ | ⟨-, -, hstep⟩ | ⟨_, _, -, hstep⟩ | ⟨hok, hsession, -⟩ :=
    s.handler_cases session ok
  · rw [hstep]
    exact ⟨rfl, rfl, rfl⟩
  · rw [hstep]
    exact ⟨rfl, rfl, rfl⟩
  · rw [hstep]
    exact ⟨rfl, rfl, rfl⟩
  · rw [registers_iff.mpr ⟨hok, hsession⟩] at h
    cases h

/-- A sender is taken off the list for a new one. -/
def evicts (t : WsTransition) : Bool :=
  match t.input with
  | .handler session ok =>
      t.before.registers session ok && decide (wsSenderCap ≤ t.before.senders.length)
  | _ => false

/-- The sessions that the thread came to. -/
def visited (ts : List WsTransition) : List Nat :=
  (visitsOf (ts.filterMap Transition.output)).map Visit.session

/-- The pass that began with these sessions is at a position. -/
structure Going (first : List Nat) (ts : List WsTransition)
    (s : WsLog) (i : Nat) : Prop where
  walk : ∃ all, first <+: all ∧
    Walk all (visited ts) (s.senders.map Sender.session) i (ts.countP evicts)
  le : i ≤ first.length
  bounded : s.senders.length ≤ wsSenderCap

/-- It goes on there, or it has come to an end. -/
def OnPass (first : List Nat) (ts : List WsTransition)
    (s : WsLog) : Prop :=
  ∃ i, Going first ts s i ∧
    ((∃ id rec, s.fanout = .running id (.sending rec i first.length)) ∨
      s.isSending = false ∧ (first.length ≤ i ∨ s.senders.length ≤ i))

theorem visited_concat (ts : List WsTransition) (t : WsTransition) :
    visited (ts ++ [t]) =
      visited ts ++ ((t.output.bind WsEvent.visit?).map Visit.session).toList := by
  rw [visited, List.filterMap_append, visitsOf, List.filterMap_append, List.map_append]
  cases hout : t.output with
  | none => simp [visited, visitsOf, hout]
  | some event => cases event <;> simp [visited, visitsOf, hout, WsEvent.visit?]

/-- A step that is not of the pass, and registers no session. -/
theorem Going.quiet {first : List Nat} {ts : List WsTransition} {s : WsLog} {i : Nat}
    (h : Going first ts s i) {step : WsStep}
    (hout : (machine.out s step).bind WsEvent.visit? = none)
    (hevicts : evicts (machine.transition s step) = false)
    (hsenders : (machine.next s step).senders = s.senders) :
    Going first (ts ++ [machine.transition s step]) (machine.next s step) i := by
  refine ⟨?_, h.le, hsenders ▸ h.bounded⟩
  rw [visited_concat, List.countP_append, hsenders]
  rw [show (machine.transition s step).output.bind WsEvent.visit? = none from hout,
    show [machine.transition s step].countP evicts = 0 by simp [hevicts]]
  simpa using h.walk

/-- A handler registers a sender, at the end of the list. -/
theorem Going.register {first : List Nat} {ts : List WsTransition} {s : WsLog} {i : Nat}
    (h : Going first ts s i) {session : Nat} (hsession : s.handlers session = some [])
    (hstep : machine.step s (.handler session true) =
      ({ s with handlers := Function.update s.handlers session none }.register session, none)) :
    Going first (ts ++ [machine.transition s (.handler session true)])
      (machine.next s (.handler session true)) i := by
  obtain ⟨all, hfirst, hwalk⟩ := h.walk
  have hsenders : (machine.next s (.handler session true)).senders =
      makeRoom s.senders ++ [⟨session, s.now⟩] := by
    rw [Machine.next, hstep]
    rfl
  have hout : (machine.transition s (.handler session true)).output = none :=
    congrArg Prod.snd hstep
  have hevicts : evicts (machine.transition s (.handler session true)) =
      decide (wsSenderCap ≤ s.senders.length) := by
    show (s.registers session true && _) = _
    rw [WsLog.registers, hsession]
    rfl
  refine ⟨⟨all ++ [session], hfirst.trans (List.prefix_append _ _), ?_⟩, h.le, ?_⟩
  · rw [visited_concat, List.countP_append, hsenders, List.map_append, hout, Option.bind_none,
      Option.map_none, Option.toList_none, List.append_nil]
    refine Walk.append ?_ _
    rcases Nat.lt_or_ge s.senders.length wsSenderCap with hroom | hfull
    · have hno : evicts (machine.transition s (.handler session true)) = false :=
        hevicts.trans (decide_eq_false (Nat.not_le.mpr hroom))
      rw [makeRoom_of_lt hroom]
      simpa [hno] using hwalk
    · have hyes : evicts (machine.transition s (.handler session true)) = true :=
        hevicts.trans (decide_eq_true hfull)
      rw [show [machine.transition s (.handler session true)].countP evicts = 1 by simp [hyes]]
      cases hlist : s.senders with
      | nil =>
          rw [hlist] at hfull
          exact absurd hfull (by decide)
      | cons gone rest =>
          have hbounded := h.bounded
          rw [hlist] at hfull hbounded hwalk
          rw [makeRoom_full hfull hbounded]
          exact hwalk.evict
  · rw [hsenders, List.length_append]
    exact length_makeRoom_lt s.senders

theorem OnPass.send {first : List Nat} {ts : List WsTransition}
    {s : WsLog} {id : Nat} {rec : Entry} {i : Nat} (h : Going first ts s i)
    (hfanout : s.fanout = .running id (.sending rec i first.length)) (closed : Nat → Bool) :
    OnPass first (ts ++ [machine.transition s (.fanout closed)])
      (machine.next s (.fanout closed)) := by
  have hstep : machine.step s (.fanout closed) =
      ((s.send id rec i first.length closed).1,
        (s.send id rec i first.length closed).2.map WsEvent.visited) := by
    show ((s.thread closed).1, (s.thread closed).2.map WsEvent.visited) = _
    rw [WsLog.thread, hfanout]
  have hlength : (s.senders.map Sender.session).length = s.senders.length := List.length_map _
  have hdone (hstep : machine.step s (.fanout closed) = (s.endPass id, none))
      (hend : first.length ≤ i ∨ s.senders.length ≤ i) :
      OnPass first (ts ++ [machine.transition s (.fanout closed)])
        (machine.next s (.fanout closed)) := by
    have hnext : machine.next s (.fanout closed) = s.endPass id := congrArg Prod.fst hstep
    refine ⟨i, h.quiet (by rw [Machine.out, hstep]; rfl) rfl (by rw [hnext]; rfl), .inr ⟨?_, ?_⟩⟩
    · rw [hnext]
      rfl
    · rw [hnext]
      exact hend
  rw [WsLog.send] at hstep
  split at hstep
  · rename_i hi
    split at hstep
    · rename_i hnone
      exact hdone hstep (.inr (List.getElem?_eq_none_iff.mp hnone))
    · rename_i x hx
      obtain ⟨all, hfirst, hwalk⟩ := h.walk
      have hnext : machine.next s (.fanout closed) =
          { s with fanout := .running id (.sending rec (i + 1) first.length) } :=
        congrArg Prod.fst hstep
      have hout : (machine.transition s (.fanout closed)).output =
          some (.visited ⟨x.session, rec, s.now, !closed x.session⟩) := congrArg Prod.snd hstep
      have hget : (s.senders.map Sender.session)[i]? = some x.session := by
        rw [List.getElem?_map, hx]
        rfl
      refine ⟨i + 1, ⟨⟨all, hfirst, ?_⟩, hi, ?_⟩, .inl ⟨id, rec, ?_⟩⟩
      · rw [visited_concat, List.countP_append, hout, hnext]
        exact hwalk.visit hget
      · rw [hnext]
        exact h.bounded
      · rw [hnext]
  · rename_i hi
    exact hdone hstep (.inl (Nat.not_lt.mp hi))

theorem OnPass.next {first : List Nat} {ts : List WsTransition}
    {s : WsLog} (hsending : s.isSending = true) (h : OnPass first ts s) (step : WsStep) :
    OnPass first (ts ++ [machine.transition s step]) (machine.next s step) := by
  obtain ⟨i, hgoing, ⟨id, rec, hfanout⟩ | ⟨hended, -⟩⟩ := h
  · cases step with
    | wait ms | connect => exact ⟨i, hgoing.quiet rfl rfl rfl, .inl ⟨id, rec, hfanout⟩⟩
    | other op =>
        have hother : (s.other op).senders = s.senders ∧ (s.other op).fanout = s.fanout := by
          rw [WsLog.other]
          split <;> exact ⟨rfl, rfl⟩
        exact ⟨i, hgoing.quiet rfl rfl hother.1, .inl ⟨id, rec, hother.2.trans hfanout⟩⟩
    | handler session ok =>
        cases hregisters : s.registers session ok with
        | false =>
            obtain ⟨hsenders, hsame, hvisit⟩ := WsLog.handler_quiet hregisters
            have hevicts : evicts (machine.transition s (.handler session ok)) = false := by
              show (s.registers session ok && _) = false
              rw [hregisters, Bool.false_and]
            exact ⟨i, hgoing.quiet hvisit hevicts hsenders, .inl ⟨id, rec, hsame.trans hfanout⟩⟩
        | true =>
            obtain ⟨rfl, hsession⟩ := WsLog.registers_iff.mp hregisters
            have hstep : s.handler session true =
                ({ s with handlers := Function.update s.handlers session none }.register session,
                  none) := by
              rw [WsLog.handler, hsession]
              rfl
            refine ⟨i, hgoing.register hsession hstep, .inl ⟨id, rec, ?_⟩⟩
            rw [show machine.next s (.handler session true) = _ from congrArg Prod.fst hstep]
            exact hfanout
    | fanout closed => exact OnPass.send hgoing hfanout closed
  · exact absurd (hsending.symm.trans hended) (by decide)

/-- **Passes.**  Let the thread count the senders, and any steps follow up to the end of its loop
over them.  It misses no more of the sessions that it counted than senders were taken off the list
meanwhile, and it comes to all of them in order if none was. -/
theorem missed_le_evictions {s : WsLog} (hreachable : Reachable s) {id : Nat} {rec : Entry}
    (hcount : s.fanout = .running id (.counting rec)) (closed : Nat → Bool) (steps : List WsStep)
    (hpass : ∀ t ∈ machine.trace (machine.next s (.fanout closed)) steps, t.before.isSending = true)
    (hend : (machine.run (machine.next s (.fanout closed)) steps).isSending = false) :
    let counted := s.senders.map Sender.session
    let ts := machine.trace (machine.next s (.fanout closed)) steps
    (counted.filter fun n => n ∉ visited ts).length ≤ ts.countP evicts ∧
      (ts.countP evicts = 0 → visited ts = counted) := by
  intro counted ts
  have hnext : machine.next s (.fanout closed) =
      { s with fanout := .running id (.sending rec 0 s.senders.length) } := by
    show (s.thread closed).1 = _
    rw [WsLog.thread, hcount]
  have hbegin : OnPass counted [] (machine.next s (.fanout closed)) := by
    rw [hnext]
    refine ⟨0, ⟨⟨counted, List.prefix_rfl, Walk.start _⟩, Nat.zero_le _,
      hreachable.length_senders⟩, .inl ⟨id, rec, ?_⟩⟩
    rw [List.length_map]
  have honPass : OnPass counted ts (machine.run (machine.next s (.fanout closed)) steps) := by
    refine machine.trace_history (J := OnPass counted)
      (G := fun _ s _ => s.isSending = true) (fun _ _ step hsending h => h.next hsending step)
      hbegin fun pre t post hsplit => hpass t ?_
    rw [hsplit]
    exact List.mem_append_right _ List.mem_cons_self
  obtain ⟨i, hgoing, ⟨id', rec', hfanout⟩ | ⟨-, hdone⟩⟩ := honPass
  · rw [WsLog.isSending, hfanout] at hend
    cases hend
  · obtain ⟨all, hfirst, hwalk⟩ := hgoing.walk
    rw [← List.length_map Sender.session] at hdone
    refine ⟨hwalk.missed_le hfirst hdone, fun hnone => ?_⟩
    rw [hnone] at hwalk
    exact hwalk.visited_eq hfirst hdone hgoing.le

/-- A session is new, and its handler goes on. -/
def opens (session : Nat) (rounds : Nat) : List WsStep :=
  .connect :: List.replicate rounds (.handler session true)

/-- Four sessions, and a record for them. -/
def fourSessions : List WsStep :=
  opens 0 1 ++ opens 1 1 ++ opens 2 1 ++ opens 3 1 ++
    [.fanout fun _ => false, .other (.push (Telnet.line "connected")), .fanout fun _ => false,
      .fanout fun _ => false]

/-- A fifth comes behind the first send, and the second session is missed.  The fifth has the
record from its handler already. -/
def fifthSession : List WsStep :=
  [.fanout fun _ => false] ++ opens 4 2 ++ [.fanout fun _ => false, .fanout fun _ => false,
    .fanout fun _ => false, .fanout fun _ => false]

theorem missed_le_evictions_fifth :
    let s := machine.run (start ⟨8, by decide⟩) fourSessions
    let ts := machine.trace (machine.next s (.fanout fun _ => false)) fifthSession
    visited ts = [0, 2, 3, 4] ∧
      ((s.senders.map Sender.session).filter fun n => n ∉ visited ts).length ≤ ts.countP evicts :=
  ⟨by decide +kernel, (@missed_le_evictions (machine.run (start ⟨8, by decide⟩) fourSessions)
    ⟨_, _, rfl⟩ 0 (0, Telnet.line "connected") (by decide +kernel) (fun _ => false) fifthSession
    (by decide +kernel) (by decide +kernel)).1⟩

end Ws

end Log

end WaterController
