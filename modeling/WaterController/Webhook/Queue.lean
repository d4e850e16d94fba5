import WaterController.App.Run
import WaterController.Library.Channel
import WaterController.Library.Ring

/-!
# From an event to the requests

The application hands its events to a dispatcher, which offers each of them to a bounded queue
and never waits.  A task takes them off and sends a request to every subscriber it finds in the
configuration at that time (`handle_event`).  The dispatchers of the builds differ in the
bound only: 16 events, or 8 in the no_std build.

The application, its callers and the task interleave in any order here.  Every event that found
room is handled once, in the order in which the events were emitted, and one is lost just when
the queue is full (`accepted_once`).
-/

namespace WaterController

open Machines (Machine Transition)

/-! ## The pipeline -/

structure Pipeline where
  app : App
  queue : Channel WebhookEvent

inductive PipelineStep where
  | call (c : Call)
  /-- The task takes an event off the queue. -/
  | handle

/-- What a step did: it offered the events of a call to the queue, or handled one with the
configuration it read. -/
structure PipelineOutput where
  offered : List (WebhookEvent × TrySend) := []
  handled : List (WebhookEvent × Config) := []

namespace Pipeline

variable (serde : Serde (List AlarmEvent))

/-- The pipeline behind a boot. -/
def start (app : App) (capacity : Nat) : Pipeline := ⟨app, .new capacity⟩

/-- A call, with what it hands to the dispatcher. -/
def call (s : Pipeline) (c : Call) : Pipeline × PipelineOutput :=
  let app := (appMachine serde).next s.app c
  let offers := s.queue.offer (app.dispatched.drop s.app.dispatched.length)
  (⟨app, offers.2⟩, { offered := offers.1 })

/-- `handle_event`, up to the requests. -/
def handle (s : Pipeline) : Pipeline × PipelineOutput :=
  let taken := s.queue.recv
  ({ s with queue := taken.2 }, { handled := taken.1.toList.map fun ev => (ev, s.app.config) })

def machine : Machine Pipeline PipelineStep PipelineOutput where
  step s
    | .call c => s.call serde c
    | .handle => s.handle

/-- A step of the pipeline. -/
abbrev PipelineTransition := Transition Pipeline PipelineStep PipelineOutput

/-- The events a run offered, with what came of each. -/
def offered (ts : List PipelineTransition) : List (WebhookEvent × TrySend) :=
  ts.flatMap fun t => t.output.offered

/-- The events a run handled, with the configuration each was handled with. -/
def handled (ts : List PipelineTransition) : List (WebhookEvent × Config) :=
  ts.flatMap fun t => t.output.handled

/-- The configuration a step installs. -/
def installed (t : PipelineTransition) : Option Config :=
  match t.input with
  | .call ⟨_, .replaceConfigSection cfg _⟩ => some cfg
  | _ => none

/-! ## What a call emits -/

/-- A call emits one event at most. -/
theorem dispatched_next (app : App) (c : Call) :
    ∃ ev : Option WebhookEvent,
      ((appMachine serde).next app c).dispatched = app.dispatched ++ ev.toList := by
  obtain ⟨env, op⟩ := c
  cases op with
  | switchCommand cmd =>
      obtain ⟨s₁, s₂, v, hs⟩ := App.switchCommand_frame app env cmd
      exact ⟨none, (congrArg (·.dispatched) hs).trans (List.append_nil _).symm⟩
  | fireScheduleSprinkler id d =>
      obtain ⟨s₁, s₂, hs⟩ := App.fireScheduleSprinkler_frame app env id d
      exact ⟨none, (congrArg (·.dispatched) hs).trans (List.append_nil _).symm⟩
  | replaceConfigSection cfg section_ => exact ⟨some _, rfl⟩
  | clearFlowAlarm =>
      show ∃ ev : Option WebhookEvent,
        (app.clearFlowAlarm env).dispatched = app.dispatched ++ ev.toList
      simp only [App.clearFlowAlarm]
      split
      · exact ⟨some _, rfl⟩
      · exact ⟨none, (List.append_nil _).symm⟩
  | updateState f hf => exact ⟨none, (List.append_nil _).symm⟩
  | emitEvent ev => exact ⟨some _, rfl⟩
  | tick =>
      have hp := App.persistValve_spec
        ((app.ticked env.monotonicMs).evaluateFlowAlarm serde env env.monotonicMs) env
      have hevs : ∃ ev : Option WebhookEvent,
          ((app.ticked env.monotonicMs).evaluateFlowAlarm serde env env.monotonicMs).dispatched =
            app.dispatched ++ ev.toList := by
        rw [App.evaluateFlowAlarm_eq]
        split
        · exact ⟨some _, rfl⟩
        · exact ⟨none, (List.append_nil _).symm⟩
      obtain ⟨ev, hev⟩ := hevs
      exact ⟨ev, (congrArg (·.dispatched) hp.frame).trans hev⟩

/-- What a call offers: one event at most, which is refused when the queue is full. -/
theorem offered_call {s : Pipeline} (halive : s.queue.alive = true) (c : Call) :
    ∀ o ∈ (s.call serde c).2.offered,
      o.2 = if s.queue.capacity ≤ s.queue.queue.length then .full else .ok := by
  obtain ⟨ev, hev⟩ := dispatched_next serde s.app c
  intro o ho
  simp only [call, hev, List.drop_left] at ho
  cases ev with
  | none => cases ho
  | some ev =>
      rw [List.mem_singleton.mp ho]
      show (s.queue.trySend ev).1 = _
      split
      · rename_i hfull
        rw [Channel.trySend_full halive hfull]
      · rename_i hroom
        rw [Channel.trySend_ok halive hroom]

/-! ## One step -/

/-- What the pipeline has done so far.  It started with the application `app`. -/
structure Accounted (app : App) (capacity : Nat) (ts : List PipelineTransition) (s : Pipeline) :
    Prop where
  alive : s.queue.alive = true
  capacity : s.queue.capacity = capacity
  bounded : s.queue.Bounded
  /-- Every event was offered, in order. -/
  emitted : s.app.dispatched = app.dispatched ++ (offered ts).map Prod.fst
  /-- Every event that was not refused was handled or waits, in order. -/
  accepted : Channel.accepted (offered ts) = (handled ts).map Prod.fst ++ s.queue.queue
  config : s.app.config = ((ts.filterMap installed).getLast?).getD app.config

theorem offered_concat (ts : List PipelineTransition) (t : PipelineTransition) :
    offered (ts ++ [t]) = offered ts ++ t.output.offered := by
  rw [offered, List.flatMap_append, List.flatMap_singleton]
  rfl

theorem handled_concat (ts : List PipelineTransition) (t : PipelineTransition) :
    handled (ts ++ [t]) = handled ts ++ t.output.handled := by
  rw [handled, List.flatMap_append, List.flatMap_singleton]
  rfl

/-- The configuration behind a call is the one it installs, if it does. -/
theorem config_call (s : Pipeline) (c : Call) :
    (s.call serde c).1.app.config =
      (installed ((machine serde).transition s (.call c))).getD s.app.config := by
  obtain ⟨env, op⟩ := c
  cases op with
  | replaceConfigSection cfg section_ => rfl
  | switchCommand | fireScheduleSprinkler | clearFlowAlarm | updateState | emitEvent | tick =>
      exact App.next_config serde s.app rfl

theorem Accounted.call {app : App} {capacity : Nat} {ts : List PipelineTransition} {s : Pipeline}
    (h : Accounted app capacity ts s) (c : Call) :
    Accounted app capacity (ts ++ [(machine serde).transition s (.call c)]) (s.call serde c).1 := by
  obtain ⟨ev, hev⟩ := dispatched_next serde s.app c
  obtain ⟨halive, hcapacity, hbounded, -, hqueue⟩ := Channel.offer_spec h.alive h.bounded
    (((appMachine serde).next s.app c).dispatched.drop s.app.dispatched.length)
  have hoffered : offered (ts ++ [(machine serde).transition s (.call c)]) =
      offered ts ++ (s.call serde c).2.offered := offered_concat ts _
  have hhandled : handled (ts ++ [(machine serde).transition s (.call c)]) = handled ts :=
    (handled_concat ts _).trans (List.append_nil _)
  refine ⟨halive, hcapacity.trans h.capacity, hbounded, ?_, ?_, ?_⟩
  · rw [hoffered, List.map_append, ← List.append_assoc, ← h.emitted]
    show ((appMachine serde).next s.app c).dispatched = _ ++ List.map Prod.fst (Channel.offer _ _).1
    rw [Channel.map_fst_offer, hev, List.drop_left]
  · rw [hoffered, hhandled, Channel.accepted_append, h.accepted, List.append_assoc]
    exact congrArg _ hqueue.symm
  · rw [Ring.getLast?_filterMap_concat, config_call, h.config]
    cases installed ((machine serde).transition s (.call c)) <;> rfl

theorem Accounted.handle {app : App} {capacity : Nat} {ts : List PipelineTransition}
    {s : Pipeline} (h : Accounted app capacity ts s) :
    Accounted app capacity (ts ++ [(machine serde).transition s .handle]) s.handle.1 := by
  have hoffered : offered (ts ++ [(machine serde).transition s .handle]) = offered ts :=
    (offered_concat ts _).trans (List.append_nil _)
  have hhandled : handled (ts ++ [(machine serde).transition s .handle]) =
      handled ts ++ s.handle.2.handled := handled_concat ts _
  refine ⟨(Channel.alive_recv _).trans h.alive, (Channel.capacity_recv _).trans h.capacity,
    h.bounded.recv, by rw [hoffered]; exact h.emitted, ?_, ?_⟩
  · rw [hoffered, hhandled, h.accepted, List.map_append, List.append_assoc]
    refine congrArg _ ?_
    show s.queue.queue = List.map Prod.fst (s.queue.recv.1.toList.map _) ++ s.queue.recv.2.queue
    have hfst : List.map Prod.fst (s.queue.recv.1.toList.map fun ev => (ev, s.app.config)) =
        s.queue.recv.1.toList := by
      rw [List.map_map]
      exact List.map_id _
    rw [hfst]
    exact Channel.queue_recv s.queue
  · rw [Ring.getLast?_filterMap_concat]
    exact h.config

/-! ## Runs -/

theorem accounted_run (app : App) (capacity : Nat) (steps : List PipelineStep) :
    Accounted app capacity ((machine serde).trace (start app capacity) steps)
      ((machine serde).run (start app capacity) steps) := by
  refine (machine serde).trace_history (J := Accounted app capacity) (G := fun _ _ _ => True)
    (fun ts s i _ h => ?_) ⟨rfl, rfl, Nat.zero_le _, (List.append_nil _).symm, rfl, rfl⟩
    fun _ _ _ _ => trivial
  cases i with
  | call c => exact h.call serde c
  | handle => exact h.handle serde

/-- **Delivery.**  Whatever the order of the calls and of the task's turns, each event that the
application emits is offered once, in order.  It is refused when the queue is full, and otherwise
it is handled once or waits, again in order, and no more wait than the queue holds.  The requests
it leads to are those of the configuration that was installed last when its turn came. -/
theorem accepted_once (app : App) (capacity : Nat) (steps : List PipelineStep) :
    let ts := (machine serde).trace (start app capacity) steps
    let s := (machine serde).run (start app capacity) steps
    s.app.dispatched = app.dispatched ++ (offered ts).map Prod.fst ∧
    Channel.accepted (offered ts) = (handled ts).map Prod.fst ++ s.queue.queue ∧
    s.queue.queue.length ≤ capacity ∧
    (∀ t ∈ ts, ∀ o ∈ t.output.offered,
      o.2 = if capacity ≤ t.before.queue.queue.length then .full else .ok) ∧
    ∀ pre t post, ts = pre ++ t :: post → ∀ h ∈ t.output.handled,
      h.2 = ((pre.filterMap installed).getLast?).getD app.config := by
  intro ts s
  have hrun : Accounted app capacity ts s := accounted_run serde app capacity steps
  have hbefore : ∀ pre t post, ts = pre ++ t :: post → Accounted app capacity pre t.before := by
    intro pre t post hsplit
    obtain ⟨is₁, i, is₂, rfl, rfl, rfl, rfl⟩ := (machine serde).trace_split hsplit
    exact accounted_run serde app capacity is₁
  refine ⟨hrun.emitted, hrun.accepted, hrun.capacity ▸ hrun.bounded, fun t ht o ho => ?_,
    fun pre t post hsplit h hh => ?_⟩
  · obtain ⟨pre, post, hsplit⟩ := List.append_of_mem ht
    have hacc := hbefore pre t post hsplit
    rw [(machine serde).eq_transition ht] at ho
    cases hi : t.input with
    | call c =>
        rw [hi] at ho
        rw [← hacc.capacity]
        exact offered_call serde hacc.alive c o ho
    | handle => rw [hi] at ho; cases ho
  · have hmem : t ∈ ts := by rw [hsplit]; simp
    rw [(machine serde).eq_transition hmem] at hh
    cases hi : t.input with
    | call c => rw [hi] at hh; cases hh
    | handle =>
        rw [hi] at hh
        obtain ⟨ev, -, rfl⟩ := List.mem_map.mp hh
        exact (hbefore pre t post hsplit).config

end Pipeline

end WaterController
