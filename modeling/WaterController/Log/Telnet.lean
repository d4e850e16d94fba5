import Mathlib.Data.List.Nodup
import WaterController.Log.Delivery

/-!
# The log over telnet

A client is sent the last records of the log, and then those that are pushed.  The log is locked
once for the one and once for the other, and all of the last records are written in between.
What other tasks push there is in neither: the client sees a contiguous part of the log just if
nothing is pushed between the two, or one of them is empty (`contiguous_iff`).
-/

namespace WaterController

namespace Log

/-- The same operation on other records. -/
def Op.map {α β : Type*} (f : α → β) : Op α → Op β
  | .push rec => .push (f rec)
  | .subscribe channelCapacity => .subscribe channelCapacity
  | .unsubscribe id => .unsubscribe id
  | .recv id => .recv id
  | .dropReceiver id => .dropReceiver id

/-- The subscriber that an operation is about. -/
def Op.subscriber {α : Type*} : Op α → Option Nat
  | .push _ => none
  | .subscribe _ => none
  | .unsubscribe id => some id
  | .recv id => some id
  | .dropReceiver id => some id

theorem Op.subscriber_map {α β : Type*} (f : α → β) (op : Op α) :
    (op.map f).subscriber = op.subscriber := by
  cases op <;> rfl

namespace Telnet

/-! ## A client -/

/-- A record with its number in the log, so that one is told from another. -/
abbrev Entry : Type := Nat × LogRecord

/-- Where `handle_client` is. -/
inductive Client where
  | connected
  /-- Writing the last records, with those that are still to write. -/
  | replaying (rest : List Entry)
  /-- Subscribed, with the record that was received and not yet written. -/
  | streaming (id : Nat) (pending : Option Entry)
  | leaving (id : Nat)
  | gone
deriving DecidableEq

/-- The subscription of a client. -/
def Client.id? : Client → Option Nat
  | .streaming id _ => some id
  | .leaving id => some id
  | _ => none

def Client.isReplaying : Client → Bool
  | .replaying _ => true
  | _ => false

structure Session where
  buf : LogBuffer Entry
  client : Client
  /-- What was written to the client. -/
  written : List Entry
  /-- What was pushed. -/
  log : List Entry
  /-- What the snapshot had. -/
  snapshot : List Entry
  /-- What was pushed between the snapshot and the subscription. -/
  missed : List Entry
  /-- What was written of what was received. -/
  live : List Entry

def start (capacity : Capacity) : Session := ⟨.new capacity, .connected, [], [], [], [], []⟩

/-- A step of another task, or of the client.  A write succeeds or fails. -/
inductive Event where
  | other (op : Op LogRecord)
  | takeSnapshot
  | write (ok : Bool)
  | subscribe
  | recv
  | leave

/-- The capacity of the channel of a client. -/
def clientCapacity : Capacity := ⟨256, by decide⟩

/-- Another task has no id of the client's. -/
def other (st : Session) (op : Op LogRecord) : Session :=
  if op.subscriber.isSome = true ∧ op.subscriber = st.client.id? then st
  else
    let op := op.map fun rec => (st.log.length, rec)
    { st with
      buf := step st.buf op
      log := st.log ++ pushed [op]
      missed := if st.client.isReplaying then st.missed ++ pushed [op] else st.missed }

def step (st : Session) : Event → Session
  | .other op => other st op
  | .takeSnapshot =>
      match st.client with
      | .connected =>
          { st with client := .replaying (st.buf.snapshot 200), snapshot := st.buf.snapshot 200 }
      | _ => st
  | .write ok =>
      match st.client with
      | .replaying (rec :: rest) =>
          if ok then { st with client := .replaying rest, written := st.written ++ [rec] }
          else { st with client := .gone }
      | .streaming id (some rec) =>
          if ok then
            { st with
              client := .streaming id none, written := st.written ++ [rec]
              live := st.live ++ [rec] }
          else { st with client := .leaving id }
      | _ => st
  | .subscribe =>
      match st.client with
      | .replaying [] =>
          { st with
            buf := (st.buf.subscribe clientCapacity).2
            client := .streaming (st.buf.subscribe clientCapacity).1 none }
      | _ => st
  | .recv =>
      match st.client with
      | .streaming id none =>
          match st.buf.recv id with
          | (some rec, buf) => { st with buf, client := .streaming id (some rec) }
          -- it waits for a record as long as there is a sender
          | (none, _) =>
              if id ∈ st.buf.subscribers then st else { st with client := .leaving id }
      | _ => st
  | .leave =>
      match st.client with
      | .leaving id =>
          { st with buf := (st.buf.unsubscribe id).dropReceiver id, client := .gone }
      | _ => st

def run (st : Session) (events : List Event) : Session := events.foldl step st

/-- The channel of the client, if it has one, has room. -/
def Client.HasRoom (buf : LogBuffer Entry) : Client → Prop
  | .streaming id _ => ¬ (buf.channels id).Full
  | _ => True

instance (buf : LogBuffer Entry) : ∀ client, Decidable (Client.HasRoom buf client)
  | .streaming _ _ => inferInstanceAs (Decidable (¬ _))
  | .connected => .isTrue trivial
  | .replaying _ => .isTrue trivial
  | .leaving _ => .isTrue trivial
  | .gone => .isTrue trivial

/-- What is pushed finds room. -/
def Room (st : Session) : Event → Prop
  | .other (.push _) => st.client.HasRoom st.buf
  | _ => True

/-- The channel never fills. -/
def Roomy (st : Session) : List Event → Prop
  | [] => True
  | event :: events => Room st event ∧ Roomy (step st event) events

instance (st : Session) : ∀ event, Decidable (Room st event)
  | .other (.push _) => inferInstanceAs (Decidable (st.client.HasRoom st.buf))
  | .other (.subscribe _) => .isTrue trivial
  | .other (.unsubscribe _) => .isTrue trivial
  | .other (.recv _) => .isTrue trivial
  | .other (.dropReceiver _) => .isTrue trivial
  | .takeSnapshot => .isTrue trivial
  | .write _ => .isTrue trivial
  | .subscribe => .isTrue trivial
  | .recv => .isTrue trivial
  | .leave => .isTrue trivial

instance decidableRoomy : ∀ (st : Session) (events : List Event), Decidable (Roomy st events)
  | _, [] => .isTrue trivial
  | st, event :: events =>
      have := decidableRoomy (step st event) events
      inferInstanceAs (Decidable (Room st event ∧ Roomy (step st event) events))

/-- A record is pushed between the snapshot, which had something, and the subscription. -/
def GapPush (st : Session) : Event → Prop
  | .other (.push _) => st.client.isReplaying = true ∧ st.snapshot ≠ []
  | _ => False

/-- No record is pushed between the snapshot and the subscription, unless the snapshot is empty. -/
def Gapless (st : Session) : List Event → Prop
  | [] => True
  | event :: events => ¬ GapPush st event ∧ Gapless (step st event) events

/-! ## What a client is at -/

/-- The client has its channel, and nothing was lost of it. -/
def Linked (buf : LogBuffer Entry) (id : Nat) : Prop :=
  id ∈ buf.subscribers ∧ (buf.channels id).alive = true

/-- What was written and what is still to write, by where the client is. -/
def Shape (st : Session) : Prop :=
  match st.client with
  | .connected => st.written = [] ∧ st.snapshot = [] ∧ st.missed = [] ∧ st.live = []
  | .replaying rest =>
      st.snapshot = st.written ++ rest ∧ st.live = [] ∧
        st.snapshot ++ st.missed <:+ st.log
  | .streaming id pending =>
      st.written = st.snapshot ++ st.live ∧ Linked st.buf id ∧
        st.snapshot ++ st.missed ++ st.live ++ pending.toList ++ (st.buf.channels id).queue <:+
          st.log
  | .leaving _ | .gone =>
      ((∃ rest, st.snapshot = st.written ++ rest) ∧ st.live = [] ∨
          st.written = st.snapshot ++ st.live) ∧
        st.snapshot ++ st.missed ++ st.live <:+: st.log

structure Inv (st : Session) : Prop where
  wf : Wf st.buf
  records : st.buf.records = st.log.rtake st.buf.capacity
  numbered : st.log.map Prod.fst = List.range st.log.length
  shape : Shape st

theorem Inv.start (capacity : Capacity) : Inv (Telnet.start capacity) :=
  ⟨Wf.new capacity, (List.rtake_nil _).symm, rfl, rfl, rfl, rfl, rfl⟩

/-! ## Steps of other tasks -/

theorem capacity_step (buf : LogBuffer Entry) (op : Op Entry) :
    (Log.step buf op).capacity = buf.capacity := by
  cases op <;> rfl

/-- The records are the last of the log, behind any step. -/
theorem records_step {buf : LogBuffer Entry} {log : List Entry}
    (h : buf.records = log.rtake buf.capacity) (op : Op Entry) :
    (Log.step buf op).records = (log ++ pushed [op]).rtake (Log.step buf op).capacity := by
  rw [capacity_step]
  exact records_run buf [op] log h

/-- A step that has nothing to do with a subscriber but what is pushed leaves it its channel, and
what is pushed comes behind what waits there. -/
theorem linked_step {buf : LogBuffer Entry} (hwf : Wf buf) {id : Nat} (h : Linked buf id)
    {op : Op Entry} (hop : op.subscriber ≠ some id)
    (hroom : ∀ rec, op = .push rec → ¬ (buf.channels id).Full) :
    Linked (Log.step buf op) id ∧
      ((Log.step buf op).channels id).queue = (buf.channels id).queue ++ pushed [op] := by
  obtain ⟨hmem, halive⟩ := h
  have hsame {channels : Nat → Channel Entry} (hch : channels id = buf.channels id) :
      (channels id).alive = true ∧ (channels id).queue = (buf.channels id).queue ++ [] := by
    rw [hch, List.append_nil]
    exact ⟨halive, rfl⟩
  cases op with
  | push rec =>
      have hchannel : (buf.push rec).channels id = ((buf.channels id).trySend rec).2 :=
        (LogBuffer.fanOut_channels hwf.nodup buf.channels id).trans (if_pos hmem)
      rw [Channel.trySend_ok halive (hroom rec rfl)] at hchannel
      have hkept : id ∈ (buf.push rec).subscribers := by
        rw [show (buf.push rec).subscribers = _ from LogBuffer.fanOut_kept hwf.nodup buf.channels]
        exact List.mem_filter.mpr ⟨hmem, halive⟩
      refine ⟨⟨hkept, ?_⟩, ?_⟩
      · rw [Log.step, hchannel]
        exact halive
      · rw [Log.step, hchannel]
        rfl
  | subscribe channelCapacity =>
      have hne : id ≠ buf.nextSubscriberId := Nat.ne_of_lt (hwf.below id hmem)
      obtain ⟨halive', hqueue⟩ := hsame (Function.update_of_ne hne (.new channelCapacity) _)
      exact ⟨⟨List.mem_append_left _ hmem, halive'⟩, hqueue⟩
  | unsubscribe other =>
      have hne : id ≠ other := fun heq => hop (congrArg some heq.symm)
      exact ⟨⟨List.mem_filter.mpr ⟨hmem, decide_eq_true hne⟩, halive⟩, (List.append_nil _).symm⟩
  | recv other =>
      have hne : id ≠ other := fun heq => hop (congrArg some heq.symm)
      obtain ⟨halive', hqueue⟩ := hsame (Function.update_of_ne hne (buf.channels other).recv.2 _)
      exact ⟨⟨hmem, halive'⟩, hqueue⟩
  | dropReceiver other =>
      have hne : id ≠ other := fun heq => hop (congrArg some heq.symm)
      obtain ⟨halive', hqueue⟩ := hsame (Function.update_of_ne hne (buf.channels other).drop _)
      exact ⟨⟨hmem, halive'⟩, hqueue⟩

/-- What is pushed is numbered on. -/
theorem numbered_step {log : List Entry} (h : log.map Prod.fst = List.range log.length)
    (op : Op LogRecord) :
    (log ++ pushed [op.map fun rec => (log.length, rec)]).map Prod.fst =
      List.range (log ++ pushed [op.map fun rec => (log.length, rec)]).length := by
  cases op with
  | push rec =>
      rw [List.map_append, h, List.length_append]
      exact List.range_succ.symm
  | _ =>
      show (log ++ []).map Prod.fst = List.range (log ++ []).length
      rw [List.append_nil, h]

theorem suffix_append {xs ys : List Entry} (h : xs <:+ ys) (zs : List Entry) :
    xs ++ zs <:+ ys ++ zs := by
  obtain ⟨front, rfl⟩ := h
  exact ⟨front, (List.append_assoc _ _ _).symm⟩

theorem Inv.other {st : Session} (h : Inv st) {op : Op LogRecord} (hroom : Room st (.other op)) :
    Inv (Telnet.other st op) := by
  rw [Telnet.other]
  split
  · exact h
  rename_i hforeign
  dsimp only
  refine ⟨h.wf.step _, records_step h.records _, numbered_step h.numbered op, ?_⟩
  have hshape := h.shape
  unfold Shape at hshape ⊢
  dsimp only
  cases hclient : st.client with
  | connected =>
      rw [hclient] at hshape
      exact hshape
  | replaying rest =>
      rw [hclient] at hshape
      obtain ⟨hsnapshot, hlive, hlog⟩ := hshape
      refine ⟨hsnapshot, hlive, ?_⟩
      have hmore := suffix_append hlog (pushed [op.map fun rec => (st.log.length, rec)])
      rwa [List.append_assoc] at hmore
  | streaming id pending =>
      rw [hclient] at hshape hforeign
      obtain ⟨hwritten, hlinked, hlog⟩ := hshape
      have hop : (op.map fun rec => (st.log.length, rec)).subscriber ≠ some id := by
        rw [Op.subscriber_map]
        exact fun heq => hforeign ⟨by rw [heq]; rfl, heq⟩
      have hfits : ∀ rec, (op.map fun rec => (st.log.length, rec)) = .push rec →
          ¬ (st.buf.channels id).Full := by
        intro rec heq
        cases op with
        | push rec' =>
            rw [Room, hclient] at hroom
            exact hroom
        | _ => cases heq
      obtain ⟨hlinked', hqueue⟩ := linked_step h.wf hlinked hop hfits
      refine ⟨hwritten, hlinked', ?_⟩
      have hmore := suffix_append hlog (pushed [op.map fun rec => (st.log.length, rec)])
      rwa [List.append_assoc _ (st.buf.channels id).queue, ← hqueue] at hmore
  | leaving id =>
      rw [hclient] at hshape
      exact ⟨hshape.1, hshape.2.trans (List.prefix_append _ _).isInfix⟩
  | gone =>
      rw [hclient] at hshape
      exact ⟨hshape.1, hshape.2.trans (List.prefix_append _ _).isInfix⟩

/-! ## Steps of the client -/

/-- A step of the client on its own channel leaves the records alone. -/
theorem Inv.own {st : Session} (h : Inv st) (op : Op Entry) (hop : pushed [op] = []) :
    Wf (Log.step st.buf op) ∧
      (Log.step st.buf op).records = st.log.rtake (Log.step st.buf op).capacity := by
  have hrecords := records_step h.records op
  rw [hop, List.append_nil] at hrecords
  exact ⟨h.wf.step op, hrecords⟩

theorem Inv.takeSnapshot {st : Session} (h : Inv st) : Inv (step st .takeSnapshot) := by
  rw [step]
  split
  · rename_i hclient
    have hshape := h.shape
    rw [Shape, hclient] at hshape
    obtain ⟨hwritten, -, hmissed, hlive⟩ := hshape
    have hlast : st.buf.snapshot 200 <:+ st.log := by
      refine (List.drop_suffix _ _).trans ?_
      rw [h.records]
      exact List.drop_suffix _ _
    generalize st.buf.snapshot 200 = snapshot at hlast ⊢
    refine ⟨h.wf, h.records, h.numbered, ?_, hlive, ?_⟩
    · show snapshot = st.written ++ snapshot
      rw [hwritten, List.nil_append]
    · show snapshot ++ st.missed <:+ st.log
      rw [hmissed, List.append_nil]
      exact hlast
  · exact h

theorem Inv.write {st : Session} (h : Inv st) (ok : Bool) : Inv (step st (.write ok)) := by
  have hshape := h.shape
  rw [step]
  split
  · rename_i rec rest hclient
    rw [Shape, hclient] at hshape
    obtain ⟨hsnapshot, hlive, hlog⟩ := hshape
    split
    · refine ⟨h.wf, h.records, h.numbered, ?_, hlive, hlog⟩
      show st.snapshot = st.written ++ [rec] ++ rest
      rw [hsnapshot, List.append_assoc]
      rfl
    · refine ⟨h.wf, h.records, h.numbered, .inl ⟨⟨_, hsnapshot⟩, hlive⟩, ?_⟩
      show st.snapshot ++ st.missed ++ st.live <:+: st.log
      rw [hlive, List.append_nil]
      exact hlog.isInfix
  · rename_i id rec hclient
    rw [Shape, hclient] at hshape
    obtain ⟨hwritten, hlinked, hlog⟩ := hshape
    split
    · refine ⟨h.wf, h.records, h.numbered, ?_, hlinked, ?_⟩
      · show st.written ++ [rec] = st.snapshot ++ (st.live ++ [rec])
        rw [hwritten, List.append_assoc]
      · show st.snapshot ++ st.missed ++ (st.live ++ [rec]) ++ [] ++ _ <:+ st.log
        rw [List.append_nil, ← List.append_assoc]
        exact hlog
    · refine ⟨h.wf, h.records, h.numbered, .inr hwritten, ?_⟩
      show st.snapshot ++ st.missed ++ st.live <:+: st.log
      exact ((List.prefix_append _ _).trans (List.prefix_append _ _)).isInfix.trans hlog.isInfix
  · exact h

theorem Inv.subscribe {st : Session} (h : Inv st) : Inv (step st .subscribe) := by
  rw [step]
  split
  · rename_i hclient
    have hshape := h.shape
    rw [Shape, hclient] at hshape
    obtain ⟨hsnapshot, hlive, hlog⟩ := hshape
    obtain ⟨hwf, hrecords⟩ := h.own (.subscribe clientCapacity) rfl
    have hchannel : (st.buf.subscribe clientCapacity).2.channels st.buf.nextSubscriberId =
        .new clientCapacity := Function.update_self ..
    refine ⟨hwf, hrecords, h.numbered, ?_, ⟨?_, ?_⟩, ?_⟩
    · show st.written = st.snapshot ++ st.live
      rw [hsnapshot, hlive, List.append_nil, List.append_nil]
    · exact List.mem_append_right _ (List.mem_singleton_self _)
    · exact (congrArg Channel.alive hchannel).trans rfl
    · show st.snapshot ++ st.missed ++ st.live ++ [] ++
        ((st.buf.subscribe clientCapacity).2.channels st.buf.nextSubscriberId).queue <:+ st.log
      rw [hchannel, hlive, List.append_nil, List.append_nil]
      exact (List.append_nil (st.snapshot ++ st.missed)).symm ▸ hlog
  · exact h

theorem Inv.recv {st : Session} (h : Inv st) : Inv (step st .recv) := by
  rw [step]
  split
  · rename_i id hclient
    have hshape := h.shape
    rw [Shape, hclient] at hshape
    obtain ⟨hwritten, ⟨hmem, halive⟩, hlog⟩ := hshape
    obtain ⟨hwf, hrecords⟩ := h.own (.recv id) rfl
    split
    · rename_i rec buf hrecv
      have hbuf : (st.buf.recv id).2 = buf := congrArg Prod.snd hrecv
      have hfirst : (st.buf.channels id).recv.1 = some rec := congrArg Prod.fst hrecv
      have hreceived : (st.buf.channels id).recv = (some rec, (st.buf.channels id).recv.2) :=
        Prod.ext hfirst rfl
      obtain ⟨hqueue, halive'⟩ := Channel.recv_eq_some hreceived
      have hchannel : buf.channels id = (st.buf.channels id).recv.2 := by
        rw [← hbuf]
        exact Function.update_self ..
      rw [Log.step, hbuf] at hwf hrecords
      refine ⟨hwf, hrecords, h.numbered, hwritten, ⟨?_, ?_⟩, ?_⟩
      · show id ∈ buf.subscribers
        rw [← hbuf]
        exact hmem
      · show (buf.channels id).alive = true
        rw [hchannel, halive', halive]
      · show st.snapshot ++ st.missed ++ st.live ++ [rec] ++ (buf.channels id).queue <:+ st.log
        rw [hchannel, List.append_assoc, List.singleton_append, ← hqueue]
        rwa [Option.toList_none, List.append_nil] at hlog
    · rw [if_pos hmem]
      exact h
  · exact h

theorem Inv.leave {st : Session} (h : Inv st) : Inv (step st .leave) := by
  rw [step]
  split
  · rename_i id hclient
    have hshape := h.shape
    rw [Shape, hclient] at hshape
    obtain ⟨hwf, hrecords⟩ := h.own (.unsubscribe id) rfl
    have hrecords' := records_step hrecords (.dropReceiver id)
    rw [show pushed [Op.dropReceiver id] = ([] : List Entry) from rfl, List.append_nil] at hrecords'
    exact ⟨hwf.step (.dropReceiver id), hrecords', h.numbered, hshape⟩
  · exact h

theorem Inv.step {st : Session} (h : Inv st) (event : Event) (hroom : Room st event) :
    Inv (Telnet.step st event) := by
  cases event with
  | other op => exact h.other hroom
  | takeSnapshot => exact h.takeSnapshot
  | write ok => exact h.write ok
  | subscribe => exact h.subscribe
  | recv => exact h.recv
  | leave => exact h.leave

theorem Inv.run {st : Session} (h : Inv st) {events : List Event} (hroom : Roomy st events) :
    Inv (Telnet.run st events) := by
  induction events generalizing st with
  | nil => exact h
  | cons event events ih => exact ih (h.step event hroom.1) hroom.2

/-! ## What a client sees -/

/-- In a list without repetition, what is next to each other has nothing between. -/
theorem infix_gap {α : Type*} {l xs ys zs : List α} (hl : l.Nodup) (hall : xs ++ ys ++ zs <:+: l)
    (hends : xs ++ zs <:+: l) : ys = [] ∨ xs = [] ∨ zs = [] := by
  rcases xs.eq_nil_or_concat with rfl | ⟨front, a, rfl⟩
  · exact .inr (.inl rfl)
  cases ys with
  | nil => exact .inl rfl
  | cons c ys =>
      cases zs with
      | nil => exact .inr (.inr rfl)
      | cons b zs =>
          obtain ⟨before, after, hafter⟩ := hall
          obtain ⟨before', after', rfl⟩ := hends
          simp only [List.concat_eq_append, List.append_assoc, List.cons_append,
            List.nil_append] at hl hafter
          rw [← List.append_assoc before' front] at hl hafter
          rw [← List.append_assoc before front] at hafter
          rw [← hafter] at hl
          have hnot := (List.nodup_cons.mp (List.nodup_middle.mp hl)).1
          obtain ⟨hfront, hback⟩ := not_or.mp (mt List.mem_append.mpr hnot)
          have htail := ((List.append_cons_inj_of_notMem hfront hback).mp hafter).2.2
          -- what comes next would be twice in what follows
          have hcb := (List.cons.inj htail).1
          have hrest := (List.nodup_append.mp hl).2.1
          rw [hcb] at hrest
          have htwice := (List.nodup_cons.mp (List.nodup_cons.mp hrest).2).1
          exact absurd (List.mem_append_right _ List.mem_cons_self) htwice

/-- What was written and what there is to write are in the log. -/
theorem Inv.pieces {st : Session} (h : Inv st) :
    ((∃ rest, st.snapshot = st.written ++ rest) ∧ st.live = [] ∨
        st.written = st.snapshot ++ st.live) ∧
      st.snapshot ++ st.missed ++ st.live <:+: st.log := by
  have hshape := h.shape
  rw [Shape] at hshape
  split at hshape
  · obtain ⟨hwritten, hsnapshot, hmissed, hlive⟩ := hshape
    rw [hwritten, hsnapshot, hmissed, hlive]
    exact ⟨.inr rfl, List.nil_infix⟩
  · obtain ⟨hsnapshot, hlive, hlog⟩ := hshape
    rw [hlive, List.append_nil, List.append_nil]
    exact ⟨.inl ⟨⟨_, hsnapshot⟩, rfl⟩, hlog.isInfix⟩
  · obtain ⟨hwritten, -, hlog⟩ := hshape
    exact ⟨.inr hwritten,
      ((List.prefix_append _ _).trans (List.prefix_append _ _)).isInfix.trans hlog.isInfix⟩
  · exact hshape
  · exact hshape

theorem Inv.nodup {st : Session} (h : Inv st) : st.log.Nodup := by
  refine List.Nodup.of_map Prod.fst ?_
  rw [h.numbered]
  exact List.nodup_range

theorem Inv.written_infix_iff {st : Session} (h : Inv st) :
    st.written <:+: st.log ↔ st.missed = [] ∨ st.snapshot = [] ∨ st.live = [] := by
  obtain ⟨hwritten, hlog⟩ := h.pieces
  constructor
  · intro hcontiguous
    rcases hwritten with ⟨-, hlive⟩ | hwritten
    · exact .inr (.inr hlive)
    · exact infix_gap h.nodup hlog (hwritten ▸ hcontiguous)
  · intro hempty
    rcases hwritten with ⟨⟨rest, hrest⟩, hlive⟩ | hwritten
    · refine List.IsInfix.trans ?_ hlog
      rw [hrest, List.append_assoc, List.append_assoc]
      exact (List.prefix_append _ _).isInfix
    · rw [hwritten]
      refine List.IsInfix.trans ?_ hlog
      rcases hempty with hmissed | hsnapshot | hlive
      · exact ⟨[], [], by simp [hmissed]⟩
      · rw [hsnapshot]
        exact (List.suffix_append _ _).isInfix
      · rw [hlive, List.append_nil, List.append_nil]
        exact (List.prefix_append _ _).isInfix

/-- Only what is pushed in the gap, behind a snapshot that had something, is missed. -/
theorem missed_step {st : Session} (h : Inv st) (event : Event) :
    ((step st event).missed = [] ∨ (step st event).snapshot = []) ↔
      (st.missed = [] ∨ st.snapshot = []) ∧ ¬ GapPush st event := by
  have hkeep : (st.missed = [] ∨ st.snapshot = []) ↔
      (st.missed = [] ∨ st.snapshot = []) ∧ ¬ False := (and_iff_left not_false).symm
  cases event with
  | other op =>
      cases op with
      | push rec =>
          have hmissed : (step st (.other (.push rec))).missed =
              if st.client.isReplaying then st.missed ++ [(st.log.length, rec)]
              else st.missed := rfl
          have hsnapshot : (step st (.other (.push rec))).snapshot = st.snapshot := rfl
          rw [hmissed, hsnapshot, GapPush]
          cases st.client.isReplaying with
          | false => exact (and_iff_left fun hgap => Bool.false_ne_true hgap.1).symm
          | true =>
              constructor
              · rintro (hnil | hsnapshot)
                · exact absurd (List.append_eq_nil_iff.mp hnil).2 (List.cons_ne_nil _ _)
                · exact ⟨.inr hsnapshot, fun hgap => hgap.2 hsnapshot⟩
              · rintro ⟨-, hgap⟩
                exact .inr (by_contra fun hsnapshot => hgap ⟨rfl, hsnapshot⟩)
      | _ =>
          rw [step, Telnet.other]
          split
          · exact hkeep
          · show ((if st.client.isReplaying then st.missed ++ [] else st.missed) = [] ∨
              st.snapshot = []) ↔ _
            rw [List.append_nil, ite_self]
            exact hkeep
  | takeSnapshot =>
      rw [step]
      split
      · rename_i hclient
        have hshape := h.shape
        rw [Shape, hclient] at hshape
        exact iff_of_true (.inl hshape.2.2.1) ⟨.inl hshape.2.2.1, not_false⟩
      · exact hkeep
  | write ok =>
      rw [step]
      split
      · split <;> exact hkeep
      · split <;> exact hkeep
      · exact hkeep
  | subscribe =>
      rw [step]
      split <;> exact hkeep
  | recv =>
      rw [step]
      split
      · split
        · exact hkeep
        · split <;> exact hkeep
      · exact hkeep
  | leave =>
      rw [step]
      split <;> exact hkeep

theorem missed_run {st : Session} (h : Inv st) {events : List Event} (hroom : Roomy st events) :
    ((run st events).missed = [] ∨ (run st events).snapshot = []) ↔
      (st.missed = [] ∨ st.snapshot = []) ∧ Gapless st events := by
  induction events generalizing st with
  | nil => exact (and_iff_left trivial).symm
  | cons event events ih =>
      rw [run, List.foldl_cons, ← run, ih (h.step event hroom.1) hroom.2, missed_step h, and_assoc]
      rfl

/-- **Telnet.**  As long as its channel never fills, a client sees a contiguous part of the log,
record by record, just if nothing is pushed between its snapshot, unless that is empty, and its
subscription, or nothing live was written to it. -/
theorem contiguous_iff (capacity : Capacity) {events : List Event}
    (hroom : Roomy (start capacity) events) :
    (run (start capacity) events).written <:+: (run (start capacity) events).log ↔
      Gapless (start capacity) events ∨ (run (start capacity) events).live = [] := by
  have hmissed := missed_run (Inv.start capacity) hroom
  rw [((Inv.start capacity).run hroom).written_infix_iff, ← or_assoc, hmissed]
  exact or_congr_left (and_iff_right (.inl rfl))

def line (message : String) : LogRecord := ⟨0, 3, "app", message⟩

/-- A record that is pushed while the snapshot is written. -/
def pushedBetween : List Event :=
  [.other (.push (line "a")), .takeSnapshot, .other (.push (line "b")), .write true, .subscribe,
    .other (.push (line "c")), .recv, .write true]

/-- A client without such a record sees all of the log. -/
theorem contiguous_iff_without :
    let events : List Event := [.other (.push (line "a")), .takeSnapshot, .write true, .subscribe,
      .other (.push (line "c")), .recv, .write true]
    (run (start ⟨2, by decide⟩) events).written = (run (start ⟨2, by decide⟩) events).log ∧
      (run (start ⟨2, by decide⟩) events).written <:+: (run (start ⟨2, by decide⟩) events).log :=
  ⟨by decide, (contiguous_iff ⟨2, by decide⟩ (by decide)).mpr (.inl
    ⟨fun h => absurd h.1 (by decide), not_false, not_false, not_false,
      fun h => absurd h.1 (by decide), not_false, not_false, trivial⟩)⟩

/-- The second of three records is not written to the client, though its channel never fills. -/
theorem second_missing :
    Roomy (start ⟨2, by decide⟩) pushedBetween ∧
      ¬ (run (start ⟨2, by decide⟩) pushedBetween).written <:+:
        (run (start ⟨2, by decide⟩) pushedBetween).log := by
  decide

end Telnet

end Log

end WaterController
