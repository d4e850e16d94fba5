import WaterController.Library.Machine
import WaterController.Log.Telnet

/-!
# The log over WebSockets

The handler of a new session sends it the last records of the log, and then puts its sender on a
list.  One thread follows the log and sends what it receives to every sender.  It has the list
locked for one send at a time, and goes through it by index.  In between a handler may take the
first sender off the list and put a new one at its end.

Whatever comes between, what the thread sends to a session is in the log's order, no record twice,
and no two within 200 milliseconds (`Follows`).
-/

namespace WaterController

open Machines (Machine Transition)
open scoped List

namespace Log

namespace Ws

/-! ## The senders and the thread -/

abbrev Entry : Type := Telnet.Entry

def wsSenderCap : Nat := 4

/-- In milliseconds. -/
def wsSenderMaxAge : Nat := 120 * 1000

structure Sender where
  session : Nat
  since : Nat
deriving DecidableEq, Repr

/-- Where the thread is between a record and the next.  What it does under one lock is one step. -/
inductive Pass where
  | waiting
  | sweeping (rec : Entry)
  | counting (rec : Entry)
  | sending (rec : Entry) (i nSenders : Nat)
deriving DecidableEq

/-- The thread, with the id that it subscribed under. -/
inductive Fanout where
  | starting
  | running (id : Nat) (pass : Pass)
  | ended
deriving DecidableEq

def Fanout.id? : Fanout → Option Nat
  | .running id _ => some id
  | _ => none

structure WsLog where
  now : Nat
  buf : LogBuffer Entry
  /-- What was pushed. -/
  log : List Entry
  senders : List Sender
  /-- How many sessions there were. -/
  opened : Nat
  /-- What the handler of a session has still to send, while it runs. -/
  handlers : Nat → Option (List Entry)
  fanout : Fanout
  lastSend : Int

def start (capacity : Capacity) : WsLog :=
  ⟨0, .new capacity, [], [], 0, fun _ => none, .starting, 0⟩

/-- What happens: time goes by, another task uses the log, a session is new, its handler goes on
with success or not, or the thread goes on and is told which sessions are closed. -/
inductive WsStep where
  | wait (ms : Nat)
  | other (op : Op LogRecord)
  | connect
  | handler (session : Nat) (ok : Bool)
  | fanout (closed : Nat → Bool)

/-- The thread has come to a sender, and sent the record unless the session is closed. -/
structure Visit where
  session : Nat
  entry : Entry
  time : Nat
  sent : Bool
deriving DecidableEq

inductive WsEvent where
  /-- A handler has sent a record of the snapshot. -/
  | replayed (session : Nat) (entry : Entry)
  | visited (v : Visit)
deriving DecidableEq

/-- The loop in front of a registration. -/
def makeRoom : List Sender → List Sender
  | [] => []
  | first :: rest =>
      if wsSenderCap ≤ (first :: rest).length then makeRoom rest else first :: rest

namespace WsLog

/-- Another task has no id of the thread's. -/
def other (s : WsLog) (op : Op LogRecord) : WsLog :=
  if op.subscriber.isSome = true ∧ op.subscriber = s.fanout.id? then s
  else
    let op := op.map fun rec => (s.log.length, rec)
    { s with buf := step s.buf op, log := s.log ++ pushed [op] }

/-- A session is new, and its handler takes a snapshot. -/
def connect (s : WsLog) : WsLog :=
  { s with
    handlers := Function.update s.handlers s.opened (some (s.buf.snapshot 200))
    opened := s.opened + 1 }

def register (s : WsLog) (session : Nat) : WsLog :=
  { s with senders := makeRoom s.senders ++ [⟨session, s.now⟩] }

/-- A handler sends a record, or registers the sender behind the last.  It returns where it
fails. -/
def handler (s : WsLog) (session : Nat) (ok : Bool) : WsLog × Option WsEvent :=
  match s.handlers session with
  | none => (s, none)
  | some pending =>
      if ok then
        match pending with
        | rec :: rest =>
            ({ s with handlers := Function.update s.handlers session (some rest) },
              some (.replayed session rec))
        | [] =>
            ({ s with handlers := Function.update s.handlers session none }.register session, none)
      else ({ s with handlers := Function.update s.handlers session none }, none)

/-- The end of a pass. -/
def endPass (s : WsLog) (id : Nat) : WsLog :=
  { s with fanout := .running id .waiting, lastSend := s.now }

def subscribe (s : WsLog) : WsLog :=
  let sub := s.buf.subscribe Telnet.clientCapacity
  { s with buf := sub.2, fanout := .running sub.1 .waiting, lastSend := s.now - 1000 }

/-- Receive a record.  It is dropped shortly behind a pass. -/
def receive (s : WsLog) (id : Nat) : WsLog :=
  match s.buf.recv id with
  | (some rec, buf) =>
      let pass := if (s.now : Int) - s.lastSend < 200 then .waiting else .sweeping rec
      { s with buf, fanout := .running id pass }
  -- it waits for a record as long as there is a sender
  | (none, _) =>
      if id ∈ s.buf.subscribers then s
      else { s with buf := s.buf.dropReceiver id, fanout := .ended }

/-- Keep the senders that are neither closed nor old. -/
def sweep (s : WsLog) (id : Nat) (rec : Entry) (closed : Nat → Bool) : WsLog :=
  { s with
    senders := s.senders.filter fun x =>
      !closed x.session && decide (s.now - x.since < wsSenderMaxAge)
    fanout := .running id (.counting rec) }

/-- One round of the loop over the senders. -/
def send (s : WsLog) (id : Nat) (rec : Entry) (i nSenders : Nat) (closed : Nat → Bool) :
    WsLog × Option Visit :=
  if i < nSenders then
    match s.senders[i]? with
    | none => (s.endPass id, none)
    | some x =>
        ({ s with fanout := .running id (.sending rec (i + 1) nSenders) },
          some ⟨x.session, rec, s.now, !closed x.session⟩)
  else (s.endPass id, none)

def thread (s : WsLog) (closed : Nat → Bool) : WsLog × Option Visit :=
  match s.fanout with
  | .starting => (s.subscribe, none)
  | .running id .waiting => (s.receive id, none)
  | .running id (.sweeping rec) => (s.sweep id rec closed, none)
  | .running id (.counting rec) =>
      ({ s with fanout := .running id (.sending rec 0 s.senders.length) }, none)
  | .running id (.sending rec i nSenders) => s.send id rec i nSenders closed
  | .ended => (s, none)

end WsLog

/-- The servers and the thread.  What is put out is what they do to the sessions. -/
def machine : Machine WsLog WsStep (Option WsEvent) where
  step s
    | .wait ms => ({ s with now := s.now + ms }, none)
    | .other op => (s.other op, none)
    | .connect => (s.connect, none)
    | .handler session ok => s.handler session ok
    | .fanout closed => ((s.thread closed).1, (s.thread closed).2.map .visited)

abbrev WsTransition := Transition WsLog WsStep (Option WsEvent)

/-- What a handler can do. -/
theorem WsLog.handler_cases (s : WsLog) (session : Nat) (ok : Bool) :
    (s.handlers session = none ∧ s.handler session ok = (s, none)) ∨
    (ok = false ∧ (s.handlers session).isSome = true ∧ s.handler session ok =
      ({ s with handlers := Function.update s.handlers session none }, none)) ∨
    (∃ rec rest, s.handlers session = some (rec :: rest) ∧ s.handler session ok =
      ({ s with handlers := Function.update s.handlers session (some rest) },
        some (.replayed session rec))) ∨
    (ok = true ∧ s.handlers session = some [] ∧ s.handler session ok =
      ({ s with handlers := Function.update s.handlers session none }.register session, none)) := by
  rw [handler]
  cases s.handlers session with
  | none => exact .inl ⟨rfl, rfl⟩
  | some pending =>
      cases ok with
      | false => exact .inr (.inl ⟨rfl, rfl, rfl⟩)
      | true =>
          cases pending with
          | nil => exact .inr (.inr (.inr ⟨rfl, rfl, rfl⟩))
          | cons rec rest => exact .inr (.inr (.inl ⟨rec, rest, rfl, rfl⟩))

/-! ## What a session is sent -/

def WsEvent.visit? : WsEvent → Option Visit
  | .replayed _ _ => none
  | .visited v => some v

/-- What the thread did. -/
def visitsOf (events : List WsEvent) : List Visit := events.filterMap WsEvent.visit?

/-- What the thread sent to a session. -/
def framesTo (session : Nat) (visits : List Visit) : List Visit :=
  visits.filter fun v => v.session = session ∧ v.sent = true

def recordsTo (session : Nat) (visits : List Visit) : List Entry :=
  (framesTo session visits).map Visit.entry

/-! ## The channel of the thread -/

/-- What another task does leaves what was received from a channel. -/
theorem received_other {buf : LogBuffer Entry} (hwf : Wf buf) {id : Nat} {op : Op Entry}
    (hop : op.subscriber ≠ some id) :
    ((step buf op).channels id).received = (buf.channels id).received := by
  rw [received_step hwf]
  cases op with
  | recv other =>
      rw [handedBy, if_neg fun heq => hop (congrArg some heq)]
      exact List.append_nil _
  | push | subscribe | unsubscribe | dropReceiver => exact List.append_nil _

theorem nextId_le {α : Type*} (next : Nat) (op : Op α) : next ≤ nextId next op := by
  cases op with
  | subscribe channelCapacity => exact Nat.le_succ next
  | _ => exact Nat.le_refl next

/-- What is sent over the channels comes of the log. -/
theorem sent_sublist {buf : LogBuffer Entry} (hwf : Wf buf) {log : List Entry}
    (h : ∀ id, (buf.channels id).sent <+ log) (op : Op Entry) (id : Nat) :
    ((step buf op).channels id).sent <+ log ++ pushed [op] := by
  rw [sent_step hwf]
  refine (h id).append ?_
  cases op with
  | push rec =>
      rw [sentBy]
      split
      · exact .refl _
      · exact List.nil_sublist _
  | _ => exact List.nil_sublist _

/-- The thread itself pushes nothing. -/
theorem sent_own {buf : LogBuffer Entry} (hwf : Wf buf) {log : List Entry}
    (h : ∀ id, (buf.channels id).sent <+ log) {op : Op Entry} (hop : pushed [op] = []) (id : Nat) :
    ((step buf op).channels id).sent <+ log := by
  have hsent := sent_sublist hwf h op id
  rwa [hop, List.append_nil] at hsent

/-! ## What a session was sent -/

theorem framesTo_concat (n : Nat) (out : List Visit) (v : Visit) :
    framesTo n (out ++ [v]) =
      if v.session = n ∧ v.sent = true then framesTo n out ++ [v] else framesTo n out := by
  simp only [framesTo, List.filter_append, List.filter_cons, List.filter_nil]
  split
  · rename_i h
    rw [if_pos (of_decide_eq_true h)]
  · rename_i h
    rw [if_neg fun h' => h (decide_eq_true h'), List.append_nil]

/-- A session that the thread has not come to was sent nothing by it. -/
theorem framesTo_eq_nil {n : Nat} {out : List Visit} (h : ∀ v ∈ out, v.session ≠ n) :
    framesTo n out = [] :=
  List.filter_eq_nil_iff.mpr fun v hv hn => h v hv (of_decide_eq_true hn).1

/-- Room is made at the front. -/
theorem makeRoom_suffix (senders : List Sender) : makeRoom senders <:+ senders := by
  induction senders with
  | nil => exact List.suffix_rfl
  | cons first rest ih =>
      rw [makeRoom]
      split
      · exact ih.trans (List.suffix_cons first rest)
      · exact List.suffix_rfl

/-- What comes behind a position of a suffix comes behind it in the list. -/
theorem drop_sublist_drop {α : Type*} {xs ys : List α} (h : xs <:+ ys) (i : Nat) :
    xs.drop i <+ ys.drop i := by
  obtain ⟨front, rfl⟩ := h
  rw [List.drop_append]
  exact ((List.drop_sublist_drop_left xs (Nat.sub_le i front.length))).trans
    (List.sublist_append_right _ _)

/-! ## What holds in every state -/

/-- The session is still to come in the pass. -/
def Due (s : WsLog) (i n : Nat) : Prop := n ∈ (s.senders.drop i).map Sender.session

/-- The thread has what it received, and the record of a pass last of it.  A session that is
still to come in the pass has not got that record, and nothing for a while. -/
def AtPass (out : List Visit) (s : WsLog) (received : List Entry) : Pass → Prop
  | .waiting =>
      (∀ v ∈ out, (v.time : Int) ≤ s.lastSend) ∧ ∀ n, recordsTo n out <+ received
  | .sweeping rec | .counting rec =>
      s.lastSend + 200 ≤ s.now ∧ (∀ v ∈ out, (v.time : Int) ≤ s.lastSend) ∧
        ∃ prior, received = prior ++ [rec] ∧ ∀ n, recordsTo n out <+ prior
  | .sending rec i _ =>
      s.lastSend + 200 ≤ s.now ∧
        ∃ prior, received = prior ++ [rec] ∧ ∀ n, recordsTo n out <+ received ∧
          (Due s i n → recordsTo n out <+ prior ∧
            ∀ v ∈ framesTo n out, (v.time : Int) ≤ s.lastSend)

def AtFanout (out : List Visit) (s : WsLog) : Fanout → Prop
  | .starting => out = []
  | .running id pass =>
      id < s.buf.nextSubscriberId ∧ AtPass out s (s.buf.channels id).received pass
  | .ended => True

structure Follows (out : List Visit) (s : WsLog) : Prop where
  wf : Wf s.buf
  sent : ∀ id, (s.buf.channels id).sent <+ s.log
  numbered : s.log.map Prod.fst = List.range s.log.length
  nodup : (s.senders.map Sender.session).Nodup
  below : ∀ x ∈ s.senders, x.session < s.opened
  unregistered : ∀ n, (s.handlers n).isSome = true →
    n < s.opened ∧ (∀ x ∈ s.senders, x.session ≠ n) ∧ ∀ v ∈ out, v.session ≠ n
  known : ∀ v ∈ out, v.session < s.opened ∧ v.time ≤ s.now
  inLog : ∀ n, recordsTo n out <+ s.log
  spaced : ∀ n, (framesTo n out).Pairwise fun v w => v.time + 200 ≤ w.time
  thread : AtFanout out s s.fanout

theorem follows_start (capacity : Capacity) : Follows [] (start capacity) where
  wf := .new capacity
  sent _ := List.nil_sublist _
  numbered := rfl
  nodup := .nil
  below _ hx := absurd hx List.not_mem_nil
  unregistered _ hn := by cases hn
  known _ hv := absurd hv List.not_mem_nil
  inLog _ := List.nil_sublist _
  spaced _ := .nil
  thread := rfl

/-- Time that goes by, and sessions that come and go without one more being due, change nothing
for the thread. -/
theorem AtPass.mono {out : List Visit} {s s' : WsLog} {received : List Entry} {pass : Pass}
    (h : AtPass out s received pass) (hnow : s.now ≤ s'.now) (hlast : s'.lastSend = s.lastSend)
    (hdue : ∀ i n, Due s' i n → framesTo n out = [] ∨ Due s i n) : AtPass out s' received pass := by
  have hnow' : (s.now : Int) ≤ s'.now := Int.ofNat_le.mpr hnow
  cases pass with
  | waiting =>
      rw [AtPass, hlast]
      exact h
  | sweeping rec | counting rec =>
      rw [AtPass, hlast]
      exact ⟨Int.le_trans h.1 hnow', h.2⟩
  | sending rec i nSenders =>
      obtain ⟨hpause, prior, hreceived, hall⟩ := h
      rw [AtPass, hlast]
      refine ⟨Int.le_trans hpause hnow', prior, hreceived, fun n => ⟨(hall n).1, fun hn => ?_⟩⟩
      rcases hdue i n hn with hnil | hold
      · rw [recordsTo, hnil]
        exact ⟨List.nil_sublist _, fun _ hv => absurd hv List.not_mem_nil⟩
      · exact (hall n).2 hold

theorem Follows.wait {out : List Visit} {s : WsLog} (h : Follows out s) (ms : Nat) :
    Follows out { s with now := s.now + ms } := by
  refine ⟨h.wf, h.sent, h.numbered, h.nodup, h.below, h.unregistered, fun v hv => ?_, h.inLog,
    h.spaced, ?_⟩
  · exact ⟨(h.known v hv).1, Nat.le_add_right_of_le (h.known v hv).2⟩
  · have hthread := h.thread
    cases hfanout : s.fanout with
    | starting =>
        rw [hfanout] at hthread
        exact hthread
    | running id pass =>
        rw [hfanout] at hthread
        exact ⟨hthread.1, hthread.2.mono (Nat.le_add_right _ _) rfl fun _ _ => .inr⟩
    | ended => trivial

theorem Follows.other {out : List Visit} {s : WsLog} (h : Follows out s) (op : Op LogRecord) :
    Follows out (s.other op) := by
  rw [WsLog.other]
  split
  · exact h
  rename_i hforeign
  have hmore (records : List Entry) (hrecords : records <+ s.log) :
      records <+ s.log ++ pushed [op.map fun rec => (s.log.length, rec)] :=
    hrecords.trans (List.sublist_append_left _ _)
  refine ⟨h.wf.step _, sent_sublist h.wf h.sent _, Telnet.numbered_step h.numbered op, h.nodup,
    h.below, h.unregistered, h.known, fun n => hmore _ (h.inLog n), h.spaced, ?_⟩
  have hthread := h.thread
  show AtFanout out _ s.fanout
  cases hfanout : s.fanout with
  | starting =>
      rw [hfanout] at hthread
      exact hthread
  | running id pass =>
      rw [hfanout] at hthread hforeign
      obtain ⟨hid, hpass⟩ := hthread
      have hop : (op.map fun rec => (s.log.length, rec)).subscriber ≠ some id := by
        rw [Op.subscriber_map]
        exact fun heq => hforeign ⟨by rw [heq]; rfl, heq⟩
      refine ⟨?_, ?_⟩
      · show id < (step s.buf _).nextSubscriberId
        rw [nextSubscriberId_step]
        exact Nat.lt_of_lt_of_le hid (nextId_le _ _)
      · show AtPass out _ ((step s.buf _).channels id).received pass
        rw [received_other h.wf hop]
        exact hpass.mono (Nat.le_refl _) rfl fun _ _ => .inr
  | ended => trivial

/-- The handlers change nothing for the thread. -/
theorem AtFanout.mono {out : List Visit} {s s' : WsLog} (h : AtFanout out s s.fanout)
    (hbuf : s'.buf = s.buf) (hnow : s'.now = s.now) (hlast : s'.lastSend = s.lastSend)
    (hdue : ∀ i n, Due s' i n → framesTo n out = [] ∨ Due s i n) :
    AtFanout out s' s.fanout := by
  cases hfanout : s.fanout with
  | starting =>
      rw [hfanout] at h
      exact h
  | running id pass =>
      rw [hfanout] at h
      obtain ⟨hid, hpass⟩ := h
      rw [AtFanout, hbuf]
      exact ⟨hid, hpass.mono hnow.ge hlast hdue⟩
  | ended => trivial

theorem Follows.connect {out : List Visit} {s : WsLog} (h : Follows out s) :
    Follows out s.connect := by
  refine ⟨h.wf, h.sent, h.numbered, h.nodup, fun x hx => Nat.lt_succ_of_lt (h.below x hx),
    fun n hn => ?_, fun v hv => ⟨Nat.lt_succ_of_lt (h.known v hv).1, (h.known v hv).2⟩, h.inLog,
    h.spaced, h.thread.mono rfl rfl rfl fun _ _ => .inr⟩
  rcases eq_or_ne n s.opened with rfl | hne
  · exact ⟨Nat.lt_succ_self _, fun x hx => Nat.ne_of_lt (h.below x hx),
      fun v hv => Nat.ne_of_lt (h.known v hv).1⟩
  · replace hn : (Function.update s.handlers s.opened _ n).isSome = true := hn
    rw [Function.update_of_ne hne] at hn
    obtain ⟨hlt, hrest⟩ := h.unregistered n hn
    exact ⟨Nat.lt_succ_of_lt hlt, hrest⟩

/-- A handler goes on, or returns. -/
theorem Follows.update {out : List Visit} {s : WsLog} (h : Follows out s) {session : Nat}
    (hsession : (s.handlers session).isSome = true) (pending : Option (List Entry)) :
    Follows out { s with handlers := Function.update s.handlers session pending } := by
  refine ⟨h.wf, h.sent, h.numbered, h.nodup, h.below, fun n hn => ?_, h.known, h.inLog, h.spaced,
    h.thread.mono rfl rfl rfl fun _ _ => .inr⟩
  rcases eq_or_ne n session with rfl | hne
  · exact h.unregistered n hsession
  · replace hn : (Function.update s.handlers session pending n).isSome = true := hn
    rw [Function.update_of_ne hne] at hn
    exact h.unregistered n hn

theorem Follows.register {out : List Visit} {s : WsLog} (h : Follows out s) {session : Nat}
    (hsession : (s.handlers session).isSome = true) :
    Follows out ({ s with handlers := Function.update s.handlers session none }.register
      session) := by
  obtain ⟨hlt, hfresh, hunsent⟩ := h.unregistered session hsession
  have hroom := makeRoom_suffix s.senders
  have hnone : framesTo session out = [] := framesTo_eq_nil hunsent
  refine ⟨h.wf, h.sent, h.numbered, ?_, fun x hx => ?_, fun n hn => ?_, h.known, h.inLog, h.spaced,
    h.thread.mono rfl rfl rfl fun i n hn => ?_⟩
  · rw [WsLog.register, List.map_append]
    refine List.nodup_append.mpr ⟨h.nodup.sublist (hroom.sublist.map _),
      List.pairwise_singleton _ _, fun n hn m hm => ?_⟩
    obtain ⟨x, hx, rfl⟩ := List.mem_map.mp hn
    rw [List.mem_singleton.mp hm]
    exact hfresh x (hroom.subset hx)
  · rcases List.mem_append.mp hx with hold | hnew
    · exact h.below x (hroom.subset hold)
    · rw [List.mem_singleton.mp hnew]
      exact hlt
  · replace hn : (Function.update s.handlers session none n).isSome = true := hn
    rcases eq_or_ne n session with rfl | hne
    · rw [Function.update_self] at hn
      cases hn
    · rw [Function.update_of_ne hne] at hn
      obtain ⟨hlt', hfresh', hunsent'⟩ := h.unregistered n hn
      refine ⟨hlt', fun x hx => ?_, hunsent'⟩
      rcases List.mem_append.mp hx with hold | hnew
      · exact hfresh' x (hroom.subset hold)
      · rw [List.mem_singleton.mp hnew]
        exact hne.symm
  · rw [Due, List.map_drop, WsLog.register, List.map_append, List.drop_append] at hn
    rcases List.mem_append.mp hn with hold | hnew
    · rw [← List.map_drop] at hold
      exact .inr (((drop_sublist_drop hroom i).map Sender.session).subset hold)
    · rw [List.mem_singleton.mp (List.mem_of_mem_drop hnew)]
      exact .inl hnone

theorem Follows.handler {out : List Visit} {s : WsLog} (h : Follows out s) (session : Nat)
    (ok : Bool) : Follows out (s.handler session ok).1 := by
  obtain ⟨-, hstep⟩ | ⟨-, hsome, hstep⟩ | ⟨rec, rest, hsession, hstep⟩ | ⟨-, hsession, hstep⟩ :=
    s.handler_cases session ok <;> rw [hstep]
  · exact h
  · exact h.update hsome none
  · exact h.update (by rw [hsession]; rfl) (some rest)
  · exact h.register (by rw [hsession]; rfl)

/-! ## Steps of the thread -/

theorem Follows.subscribe {s : WsLog} (h : Follows [] s) : Follows [] s.subscribe := by
  exact ⟨h.wf.step (.subscribe _), @sent_own _ h.wf _ h.sent (.subscribe Telnet.clientCapacity) rfl,
    h.numbered, h.nodup, h.below, h.unregistered, h.known, h.inLog, h.spaced, Nat.lt_succ_self _,
    fun _ hv => absurd hv List.not_mem_nil, fun _ => List.nil_sublist _⟩

/-- What is received comes behind what was. -/
theorem received_recv {α : Type*} {ch ch' : Channel α} {x : α} (h : ch.recv = (some x, ch')) :
    ch'.received = ch.received ++ [x] := by
  rw [Channel.recv] at h
  split at h
  · cases h
    rfl
  · cases h

theorem Follows.receive {out : List Visit} {s : WsLog} (h : Follows out s) {id : Nat}
    (hfanout : s.fanout = .running id .waiting) : Follows out (s.receive id) := by
  have hthread := h.thread
  rw [hfanout] at hthread
  obtain ⟨hid, hlast, hrecords⟩ := hthread
  rw [WsLog.receive]
  split
  · rename_i rec buf hrecv
    have hbuf : step s.buf (.recv id) = buf := congrArg Prod.snd hrecv
    have hreceived : (buf.channels id).received = (s.buf.channels id).received ++ [rec] := by
      have hfirst : (s.buf.channels id).recv.1 = some rec := congrArg Prod.fst hrecv
      have hchannel : buf.channels id = (s.buf.channels id).recv.2 := by
        rw [← hbuf]
        exact Function.update_self ..
      rw [hchannel]
      exact received_recv (Prod.ext hfirst rfl)
    have hnext : buf.nextSubscriberId = s.buf.nextSubscriberId := by
      rw [← hbuf]
      rfl
    have hsent := @sent_own _ h.wf _ h.sent (.recv id) rfl
    have hwf := h.wf.step (.recv id)
    rw [hbuf] at hsent hwf
    refine ⟨hwf, hsent, h.numbered, h.nodup, h.below, h.unregistered, h.known, h.inLog,
      h.spaced, hnext ▸ hid, ?_⟩
    show AtPass out _ (buf.channels id).received _
    rw [hreceived]
    split
    · exact ⟨hlast, fun n => (hrecords n).trans (List.sublist_append_left _ _)⟩
    · rename_i hsoon
      have hpause : s.lastSend + 200 ≤ s.now := by omega
      exact ⟨hpause, hlast, _, rfl, hrecords⟩
  · split
    · exact h
    · have hsent := @sent_own _ h.wf _ h.sent (.dropReceiver id) rfl
      exact ⟨h.wf.step (.dropReceiver id), hsent, h.numbered, h.nodup, h.below, h.unregistered,
        h.known, h.inLog, h.spaced, trivial⟩

theorem Follows.sweep {out : List Visit} {s : WsLog} (h : Follows out s) {id : Nat} {rec : Entry}
    (hfanout : s.fanout = .running id (.sweeping rec)) (closed : Nat → Bool) :
    Follows out (s.sweep id rec closed) := by
  have hthread := h.thread
  rw [hfanout] at hthread
  refine ⟨h.wf, h.sent, h.numbered, h.nodup.sublist (List.filter_sublist.map _),
    fun x hx => h.below x (List.mem_of_mem_filter hx), fun n hn => ?_, h.known, h.inLog, h.spaced,
    hthread⟩
  obtain ⟨hlt, hfresh, hunsent⟩ := h.unregistered n hn
  exact ⟨hlt, fun x hx => hfresh x (List.mem_of_mem_filter hx), hunsent⟩

theorem Follows.count {out : List Visit} {s : WsLog} (h : Follows out s) {id : Nat} {rec : Entry}
    (hfanout : s.fanout = .running id (.counting rec)) :
    Follows out { s with fanout := .running id (.sending rec 0 s.senders.length) } := by
  have hthread := h.thread
  rw [hfanout] at hthread
  obtain ⟨hid, hpause, hlast, prior, hreceived, hrecords⟩ := hthread
  refine ⟨h.wf, h.sent, h.numbered, h.nodup, h.below, h.unregistered, h.known, h.inLog, h.spaced,
    hid, hpause, prior, hreceived, fun n => ⟨?_, fun _ => ⟨hrecords n, fun v hv => ?_⟩⟩⟩
  · rw [hreceived]
    exact (hrecords n).trans (List.sublist_append_left _ _)
  · exact hlast v (List.mem_of_mem_filter hv)

theorem Follows.endPass {out : List Visit} {s : WsLog} (h : Follows out s) {id : Nat} {rec : Entry}
    {i nSenders : Nat} (hfanout : s.fanout = .running id (.sending rec i nSenders)) :
    Follows out (s.endPass id) := by
  have hthread := h.thread
  rw [hfanout] at hthread
  obtain ⟨hid, -, prior, -, hall⟩ := hthread
  exact ⟨h.wf, h.sent, h.numbered, h.nodup, h.below, h.unregistered, h.known, h.inLog, h.spaced,
    hid, fun v hv => Int.ofNat_le.mpr (h.known v hv).2, fun n => (hall n).1⟩

/-- The sessions that are due at a position: the one at the position, and those behind it. -/
theorem due_iff {s : WsLog} {i : Nat} {x : Sender} (hx : s.senders[i]? = some x) (n : Nat) :
    Due s i n ↔ n = x.session ∨ Due s (i + 1) n := by
  obtain ⟨hi, hget⟩ := List.getElem?_eq_some_iff.mp hx
  rw [Due, List.drop_eq_getElem_cons hi, hget, List.map_cons, List.mem_cons, Due]

/-- A session that is still to come is another. -/
theorem ne_of_due {s : WsLog} (hnodup : (s.senders.map Sender.session).Nodup) {i : Nat}
    {x : Sender} (hx : s.senders[i]? = some x) {n : Nat} (hn : Due s (i + 1) n) :
    n ≠ x.session := by
  obtain ⟨hi, hget⟩ := List.getElem?_eq_some_iff.mp hx
  have hrest := hnodup.sublist ((List.drop_sublist i s.senders).map Sender.session)
  rw [List.drop_eq_getElem_cons hi, hget, List.map_cons] at hrest
  intro heq
  exact (List.nodup_cons.mp hrest).1 (heq ▸ hn)

/-- A visit adds to what was sent to its session, or to nothing. -/
theorem framesTo_visit (n : Nat) (out : List Visit) (v : Visit) :
    framesTo n (out ++ [v]) = framesTo n out ∨
      n = v.session ∧ framesTo n (out ++ [v]) = framesTo n out ++ [v] := by
  rw [framesTo_concat]
  split
  · rename_i hsent
    exact .inr ⟨hsent.1.symm, rfl⟩
  · exact .inl rfl

/-- What the thread received comes of the log. -/
theorem Follows.received {out : List Visit} {s : WsLog} (h : Follows out s) (id : Nat) :
    (s.buf.channels id).received <+ s.log := by
  refine .trans ?_ (h.sent id)
  rw [Channel.sent, List.append_assoc]
  exact List.sublist_append_left _ _

/-- The record goes to a session that has not got it. -/
theorem Follows.visit {out : List Visit} {s : WsLog} (h : Follows out s) {id : Nat} {rec : Entry}
    {i nSenders : Nat} (hfanout : s.fanout = .running id (.sending rec i nSenders)) {x : Sender}
    (hx : s.senders[i]? = some x) (sent : Bool) :
    Follows (out ++ [⟨x.session, rec, s.now, sent⟩])
      { s with fanout := .running id (.sending rec (i + 1) nSenders) } := by
  have hthread := h.thread
  rw [hfanout] at hthread
  obtain ⟨hid, hpause, prior, hreceived, hall⟩ := hthread
  obtain ⟨hprior, hpast⟩ := (hall x.session).2 ((due_iff hx _).mpr (.inl rfl))
  have hframes (n : Nat) := framesTo_visit n out ⟨x.session, rec, s.now, sent⟩
  have hsub (n : Nat) : recordsTo n (out ++ [⟨x.session, rec, s.now, sent⟩]) <+
      (s.buf.channels id).received := by
    rw [recordsTo]
    rcases hframes n with hsame | ⟨rfl, hnew⟩
    · rw [hsame]
      exact (hall n).1
    · rw [hnew, List.map_append, hreceived]
      exact hprior.append (.refl _)
  refine ⟨h.wf, h.sent, h.numbered, h.nodup, h.below, fun n hn => ?_, fun v hv => ?_,
    fun n => (hsub n).trans (h.received id), fun n => ?_, hid, hpause, prior, hreceived,
    fun n => ⟨hsub n, fun hn => ?_⟩⟩
  · obtain ⟨hlt, hfresh, hunsent⟩ := h.unregistered n hn
    refine ⟨hlt, hfresh, fun v hv => ?_⟩
    rcases List.mem_append.mp hv with hold | hnew
    · exact hunsent v hold
    · rw [List.mem_singleton.mp hnew]
      exact hfresh x (List.mem_of_getElem? hx)
  · rcases List.mem_append.mp hv with hold | hnew
    · exact h.known v hold
    · rw [List.mem_singleton.mp hnew]
      exact ⟨h.below x (List.mem_of_getElem? hx), Nat.le_refl _⟩
  · rcases hframes n with hsame | ⟨rfl, hnew⟩
    · rw [hsame]
      exact h.spaced n
    · rw [hnew]
      refine List.pairwise_append.mpr ⟨h.spaced _, List.pairwise_singleton _ _,
        fun v hv w hw => ?_⟩
      rw [List.mem_singleton.mp hw]
      have hv' := hpast v hv
      show v.time + 200 ≤ s.now
      omega
  · rcases hframes n with hsame | ⟨heq, -⟩
    · rw [recordsTo, hsame]
      exact (hall n).2 ((due_iff hx n).mpr (.inr hn))
    · exact absurd heq (ne_of_due h.nodup hx hn)

theorem Follows.thread_next {out : List Visit} {s : WsLog} (h : Follows out s)
    (closed : Nat → Bool) :
    Follows (out ++ (s.thread closed).2.toList) (s.thread closed).1 := by
  have hquiet {s' : WsLog} (h' : Follows out s') :
      Follows (out ++ (none : Option Visit).toList) s' := by
    rw [Option.toList_none, List.append_nil]
    exact h'
  rw [WsLog.thread]
  split
  · rename_i hfanout
    have hnil := h.thread
    rw [hfanout] at hnil
    obtain rfl : out = [] := hnil
    exact hquiet h.subscribe
  · rename_i hfanout
    exact hquiet (h.receive hfanout)
  · rename_i hfanout
    exact hquiet (h.sweep hfanout closed)
  · rename_i hfanout
    exact hquiet (h.count hfanout)
  · rename_i hfanout
    rw [WsLog.send]
    split
    · split
      · exact hquiet (h.endPass hfanout)
      · rename_i hx
        exact h.visit hfanout hx _
    · exact hquiet (h.endPass hfanout)
  · exact hquiet h

end Ws

end Log

end WaterController
