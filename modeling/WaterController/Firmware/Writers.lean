import Mathlib.Data.Fintype.Basic
import Mathlib.Data.List.Induction
import Mathlib.Logic.Function.Basic
import WaterController.Firmware.ConfigWrites

/-!
# Configuration writers that interleave

The handlers of the two servers and the console run in tasks of their own.  A
write reads the configuration, computes a new one from what it read, saves it, and
installs it with one lock after another: the two sprinklers, the valve, the
configuration.  Nothing keeps another writer out between these steps.

A state is a device and the program counter of every writer.  A writer that runs
alone does what the write does as one step (`run_alone`).

Installing is where a write takes effect, so the order that matters is that of the
installations.  A run of writers has the result of the same writes one after
another in this order if no writer saves a configuration that it computed from an
old one, or while another is between its save and its installation
(`writers_serializable`).  The invariant of such a run is `Serial`.

A writer that checks a token does so in front of all of this, against the
configuration of that time.  The check is no part of the writes that are put in
order: a token that another writer changes meanwhile does not refuse a write.
-/

namespace WaterController

open Machines (Machine Transition)

/-! ## Settings -/

/-- The settings a write changes, wherever the device keeps them. -/
structure Settings where
  config : Config
  stored : Option Bytes
  autoOff1 : Option Nat
  autoOff2 : Option Nat
  timing : ValveTiming

namespace Firmware

def settings (fw : Firmware) : Settings where
  config := fw.app.config
  stored := fw.nvs.get Config.nvsKey
  autoOff1 := fw.app.sprinkler1.autoOff
  autoOff2 := fw.app.sprinkler2.autoOff
  timing := fw.app.valve.timing

/-! ## The lock steps of an installation -/

def pushSprinkler1 (fw : Firmware) (cfg : Config) : Firmware :=
  { fw with
    app := { fw.app with
      sprinkler1 :=
        fw.app.sprinkler1.setAutoOff (App.autoOffOrNone cfg.switches.sprinkler1AutoOffSecs) }
    hasStore := fw.hasStore }

def pushSprinkler2 (fw : Firmware) (cfg : Config) : Firmware :=
  { fw with
    app := { fw.app with
      sprinkler2 :=
        fw.app.sprinkler2.setAutoOff (App.autoOffOrNone cfg.switches.sprinkler2AutoOffSecs) }
    hasStore := fw.hasStore }

def pushValve (fw : Firmware) (cfg : Config) : Firmware :=
  { fw with
    app := { fw.app with valve := fw.app.valve.setTiming cfg.switches.valveTiming }
    hasStore := fw.hasStore }

def pushConfig (fw : Firmware) (cfg : Config) : Firmware :=
  { fw with app := { fw.app with config := cfg }, hasStore := fw.hasStore }

/-- The event behind an installation. -/
def emitConfigChanged (fw : Firmware) (env : Env) : Firmware :=
  { fw with
    app := fw.app.emitEvent env ((WebhookEvent.new .configChanged).withVar "section" "all")
    hasStore := fw.hasStore }

/-- The lock steps in their order are the installation. -/
theorem replaceConfig_eq (fw : Firmware) (env : Env) (cfg : Config) :
    fw.replaceConfig env cfg =
      ((((fw.pushSprinkler1 cfg).pushSprinkler2 cfg).pushValve cfg).pushConfig
        cfg).emitConfigChanged env := rfl

variable (fw : Firmware) (cfg : Config)

@[simp] theorem settings_pushSprinkler1 : (fw.pushSprinkler1 cfg).settings =
    { fw.settings with
      autoOff1 := App.autoOffOrNone cfg.switches.sprinkler1AutoOffSecs } := rfl

@[simp] theorem settings_pushSprinkler2 : (fw.pushSprinkler2 cfg).settings =
    { fw.settings with
      autoOff2 := App.autoOffOrNone cfg.switches.sprinkler2AutoOffSecs } := rfl

@[simp] theorem settings_pushValve : (fw.pushValve cfg).settings =
    { fw.settings with timing := cfg.switches.valveTiming } := rfl

@[simp] theorem settings_pushConfig : (fw.pushConfig cfg).settings =
    { fw.settings with config := cfg } := rfl

@[simp] theorem settings_emitConfigChanged (env : Env) :
    (fw.emitConfigChanged env).settings = fw.settings := rfl

@[simp] theorem settings_wifi (wifi : WifiSupervisor) :
    { fw with wifi := wifi }.settings = fw.settings := rfl

@[simp] theorem settings_withNvs (nvs : NvsStore) : (fw.withNvs nvs).settings =
    { fw.settings with stored := nvs.get Config.nvsKey } := rfl

end Firmware

/-! ## Writers -/

/-- How far a writer has come with a configuration it has saved. -/
inductive Published where
  | saved
  | sprinkler1
  | sprinkler2
  | valve
deriving DecidableEq, Repr

/-- The program counter of a writer, with its local variables. -/
inductive WriterPc where
  | start
  /-- The request was refused, or the save failed. -/
  | refused
  | checked
  | read (base : Config)
  | computed (base new : Config)
  | publishing (done : Published) (new : Config)
  | installed (new : Config)
  | announced (new : Config)
  | finished

namespace WriterPc

/-- Between the save and the installation. -/
def Publishing : WriterPc → Prop
  | .publishing _ _ => True
  | _ => False

instance : DecidablePred Publishing
  | .publishing _ _ => .isTrue trivial
  | .start | .refused | .checked | .read _ | .computed _ _ | .installed _ | .announced _
  | .finished => .isFalse id

/-- Behind the installation. -/
def Installed : WriterPc → Prop
  | .installed _ | .announced _ | .finished => True
  | _ => False

end WriterPc

/-- A device and its writers. -/
structure Writers (ι : Type) where
  fw : Firmware
  pc : ι → WriterPc

namespace Writers

variable {ι : Type} [DecidableEq ι]

/-- No writer has done a step. -/
def start (fw : Firmware) : Writers ι := ⟨fw, fun _ => .start⟩

/-- A writer moves on, and leaves the device as given. -/
def goto (s : Writers ι) (i : ι) (pc : WriterPc) (fw : Firmware) : Writers ι :=
  ⟨fw, Function.update s.pc i pc⟩

variable (codecs : Codecs) (writes : ι → ConfigWrite)

/-- The next atomic step of a writer. -/
def step (s : Writers ι) (i : ι) (env : Env) : Writers ι :=
  match s.pc i with
  | .start =>
      if (writes i).admitted s.fw.app && ((writes i).edit? codecs).isSome then
        s.goto i .checked s.fw
      else s.goto i .refused s.fw
  | .checked => s.goto i (.read s.fw.app.config) s.fw
  | .read base =>
      let new := (writes i).apply codecs base
      s.goto i (.computed base new) { s.fw with wifi := (writes i).notifyEarly s.fw.wifi new }
  | .computed _ new =>
      let saved := new.save codecs.config env s.fw.nvs
      match saved.2 with
      | .error _ => s.goto i .refused (s.fw.withNvs saved.1)
      | .ok () => s.goto i (.publishing .saved new) (s.fw.withNvs saved.1)
  | .publishing .saved new => s.goto i (.publishing .sprinkler1 new) (s.fw.pushSprinkler1 new)
  | .publishing .sprinkler1 new => s.goto i (.publishing .sprinkler2 new) (s.fw.pushSprinkler2 new)
  | .publishing .sprinkler2 new => s.goto i (.publishing .valve new) (s.fw.pushValve new)
  | .publishing .valve new => s.goto i (.installed new) (s.fw.pushConfig new)
  | .installed new => s.goto i (.announced new) (s.fw.emitConfigChanged env)
  | .announced new =>
      s.goto i .finished { s.fw with wifi := (writes i).notifyLate s.fw.wifi new }
  | .refused | .finished => s

/-- The interleavings: each input lets one writer do a step. -/
def machine : Machine (Writers ι) (ι × Env) Unit where
  step s i := (s.step codecs writes i.1 i.2, ())

variable {codecs writes}

@[simp] theorem goto_fw (s : Writers ι) (i : ι) (pc : WriterPc) (fw : Firmware) :
    (s.goto i pc fw).fw = fw := rfl

@[simp] theorem goto_pc_self (s : Writers ι) (i : ι) (pc : WriterPc) (fw : Firmware) :
    (s.goto i pc fw).pc i = pc := Function.update_self ..

theorem goto_pc_of_ne (s : Writers ι) {i j : ι} (h : j ≠ i) (pc : WriterPc) (fw : Firmware) :
    (s.goto i pc fw).pc j = s.pc j := Function.update_of_ne h ..

/-! ## A writer alone -/

/-- The steps of one writer, from its first to its last. -/
def alone (i : ι) (env : Env) : List (ι × Env) := List.replicate 10 (i, env)

theorem run_refused {s : Writers ι} {i : ι} (h : s.pc i = .refused) (env : Env) (n : Nat) :
    (machine codecs writes).run s (List.replicate n (i, env)) = s := by
  induction n with
  | zero => rfl
  | succ n ih =>
      have hstay : (machine codecs writes).next s (i, env) = s := by
        simp only [Machine.next, machine, step, h]
      rw [List.replicate_succ, Machine.run_cons, hstay, ih]

@[simp] theorem goto_goto (s : Writers ι) (i : ι) (pc pc' : WriterPc) (fw fw' : Firmware) :
    (s.goto i pc fw).goto i pc' fw' = s.goto i pc' fw' := by
  simp [goto]

@[simp] theorem next_eq (s : Writers ι) (i : ι) (env : Env) :
    (machine codecs writes).next s (i, env) = s.step codecs writes i env := rfl

/-- A writer whose request passes the checks computes its configuration in three steps. -/
theorem run_computed {s : Writers ι} {i : ι} (h : s.pc i = .start) (env : Env)
    {edit : Config → Config} (hadmitted : (writes i).admitted s.fw.app = true)
    (hedit : (writes i).edit? codecs = some edit) :
    (machine codecs writes).run s (List.replicate 3 (i, env)) =
      s.goto i (.computed s.fw.app.config (edit s.fw.app.config))
        { s.fw with wifi := (writes i).notifyEarly s.fw.wifi (edit s.fw.app.config) } := by
  simp [List.replicate_succ, step, h, hadmitted, hedit, ConfigWrite.apply]

/-- A writer that runs alone does what its write does. -/
theorem run_alone {s : Writers ι} {i : ι} (h : s.pc i = .start) (env : Env) :
    ((machine codecs writes).run s (alone i env)).fw = (writes i).perform codecs env s.fw := by
  have hstep := (writes i).perform_step codecs env s.fw
  generalize (writes i).perform codecs env s.fw = fw' at hstep
  generalize (writes i).succeeds codecs env s.fw = ok at hstep
  cases hstep with
  | refused hnone =>
      have hfirst : (machine codecs writes).next s (i, env) = s.goto i .refused s.fw := by
        cases hadmitted : (writes i).admitted s.fw.app with
        | false => simp [step, h, hadmitted]
        | true => simp [step, h, hadmitted, hnone hadmitted]
      rw [alone, List.replicate_succ, Machine.run_cons, hfirst, run_refused (goto_pc_self ..)]
      rfl
  | unsaved edit e hadmitted hedit hsave =>
      rw [alone, show List.replicate 10 (i, env) = List.replicate 3 (i, env) ++
        (i, env) :: List.replicate 6 (i, env) from rfl, Machine.run_append,
        run_computed h env hadmitted hedit, Machine.run_cons]
      have hsaved : ((edit s.fw.app.config).save codecs.config env
          (Firmware.nvs { s.fw with
            wifi := (writes i).notifyEarly s.fw.wifi (edit s.fw.app.config) })).2 =
          .error e := hsave
      simp only [next_eq, step, goto_pc_self, goto_fw, hsaved, goto_goto,
        Firmware.save_error hsaved, Firmware.withNvs_nvs]
      rw [run_refused (goto_pc_self ..)]
      rfl
  | written edit hadmitted hedit hsave =>
      rw [alone, show List.replicate 10 (i, env) = List.replicate 3 (i, env) ++
        List.replicate 7 (i, env) from rfl, Machine.run_append,
        run_computed h env hadmitted hedit]
      have hsaved : ((edit s.fw.app.config).save codecs.config env
          (Firmware.nvs { s.fw with
            wifi := (writes i).notifyEarly s.fw.wifi (edit s.fw.app.config) })).2 = .ok () := hsave
      simp only [List.replicate_succ, List.replicate_zero, Machine.run_cons, Machine.run_nil,
        next_eq, step, goto_pc_self, goto_fw, hsaved, goto_goto]
      rfl

end Writers

/-! ## Published settings -/

/-- The bytes of a configuration are stored. -/
def Settings.Stores (codecs : Codecs) (st : Settings) (cfg : Config) : Prop :=
  ∃ bytes, codecs.config.toVec cfg = .ok bytes ∧ st.stored = some bytes

/-- What a writer that is so far has published of its configuration. -/
def Published.Holds (codecs : Codecs) : Published → Settings → Config → Prop
  | .saved, st, cfg => st.Stores codecs cfg
  | .sprinkler1, st, cfg =>
      st.Stores codecs cfg ∧ st.autoOff1 = App.autoOffOrNone cfg.switches.sprinkler1AutoOffSecs
  | .sprinkler2, st, cfg =>
      st.Stores codecs cfg ∧ st.autoOff1 = App.autoOffOrNone cfg.switches.sprinkler1AutoOffSecs ∧
        st.autoOff2 = App.autoOffOrNone cfg.switches.sprinkler2AutoOffSecs
  | .valve, st, cfg =>
      st.Stores codecs cfg ∧ st.autoOff1 = App.autoOffOrNone cfg.switches.sprinkler1AutoOffSecs ∧
        st.autoOff2 = App.autoOffOrNone cfg.switches.sprinkler2AutoOffSecs ∧
        st.timing = cfg.switches.valveTiming

/-- The configuration in force is the stored one, and its timings are installed. -/
def Settings.Synced (codecs : Codecs) (st : Settings) : Prop :=
  Published.valve.Holds codecs st st.config

namespace Writers

variable {ι : Type} [DecidableEq ι] {codecs : Codecs} {writes : ι → ConfigWrite}

/-- What a writer is about to save comes from what it has read. -/
def ComputedAt (codecs : Codecs) (writes : ι → ConfigWrite) (i : ι) (pc : WriterPc) : Prop :=
  ∀ base new, pc = .computed base new → new = (writes i).apply codecs base

/-- Everything a step of a writer can do to the settings. -/
inductive StepOf (codecs : Codecs) (writes : ι → ConfigWrite) (s : Writers ι) (i : ι) :
    Writers ι → Prop where
  | stays : StepOf codecs writes s i s
  /-- A local step, or one that only touches the supervisor or the dispatcher. -/
  | moves (was pc : WriterPc) (fw : Firmware) : s.pc i = was → ¬ was.Publishing →
      ¬ pc.Publishing → (pc.Installed ↔ was.Installed) → fw.settings = s.fw.settings →
      ComputedAt codecs writes i pc → StepOf codecs writes s i (s.goto i pc fw)
  | saves (base new : Config) (bytes : Bytes) (fw : Firmware) : s.pc i = .computed base new →
      codecs.config.toVec new = .ok bytes →
      fw.settings = { s.fw.settings with stored := some bytes } →
      StepOf codecs writes s i (s.goto i (.publishing .saved new) fw)
  | pushes (done next : Published) (new : Config) (fw : Firmware) :
      s.pc i = .publishing done new →
      fw.settings.config = s.fw.settings.config →
      (done.Holds codecs s.fw.settings new → next.Holds codecs fw.settings new) →
      StepOf codecs writes s i (s.goto i (.publishing next new) fw)
  | installs (new : Config) (fw : Firmware) : s.pc i = .publishing .valve new →
      fw.settings = { s.fw.settings with config := new } →
      StepOf codecs writes s i (s.goto i (.installed new) fw)

theorem stepOf_step (s : Writers ι) (i : ι) (env : Env) :
    StepOf codecs writes s i (s.step codecs writes i env) := by
  rw [step]
  cases hpc : s.pc i with
  | start =>
      dsimp only
      split <;> exact .moves _ _ _ hpc id id .rfl rfl fun _ _ => WriterPc.noConfusion
  | checked => exact .moves _ _ _ hpc id id .rfl rfl fun _ _ => WriterPc.noConfusion
  | read base =>
      refine .moves _ _ _ hpc id id .rfl rfl ?_
      rintro _ _ ⟨⟩
      rfl
  | computed base new =>
      dsimp only
      cases hsave : (new.save codecs.config env s.fw.nvs).2 with
      | error e =>
          rw [Firmware.save_error hsave, Firmware.withNvs_nvs]
          exact .moves _ _ _ hpc id id .rfl rfl fun _ _ => WriterPc.noConfusion
      | ok u =>
          obtain ⟨bytes, hto, hnvs⟩ := Firmware.save_ok hsave
          refine .saves base new bytes _ hpc hto ?_
          rw [hnvs, Firmware.settings_withNvs, NvsStore.get_set_ok]
  | publishing done new =>
      cases done with
      | saved =>
          refine .pushes _ _ _ _ hpc rfl ?_
          intro h
          exact ⟨h, rfl⟩
      | sprinkler1 =>
          refine .pushes _ _ _ _ hpc rfl ?_
          rintro ⟨hstored, h1⟩
          exact ⟨hstored, h1, rfl⟩
      | sprinkler2 =>
          refine .pushes _ _ _ _ hpc rfl ?_
          rintro ⟨hstored, h1, h2⟩
          exact ⟨hstored, h1, h2, rfl⟩
      | valve => exact .installs new _ hpc rfl
  | installed new => exact .moves _ _ _ hpc id id .rfl rfl fun _ _ => WriterPc.noConfusion
  | announced new => exact .moves _ _ _ hpc id id .rfl rfl fun _ _ => WriterPc.noConfusion
  | refused | finished => exact .stays

/-! ## The serial order -/

/-- The result of writes one after another. -/
def serial (codecs : Codecs) (writes : ι → ConfigWrite) (order : List ι) (cfg : Config) : Config :=
  order.foldl (fun cfg i => (writes i).apply codecs cfg) cfg

omit [DecidableEq ι] in
theorem serial_append_singleton (order : List ι) (i : ι) (cfg : Config) :
    serial codecs writes (order ++ [i]) cfg =
      (writes i).apply codecs (serial codecs writes order cfg) := by
  simp [serial]

/-- A writer that is about to save has read the configuration in force, and nobody
else is between save and installation. -/
def Undisturbed (s : Writers ι) (i : ι) : Prop :=
  ∀ base new, s.pc i = .computed base new →
    base = s.fw.app.config ∧ ∀ j, ¬ (s.pc j).Publishing

instance [Fintype ι] (s : Writers ι) (i : ι) : Decidable (s.Undisturbed i) :=
  match hpc : s.pc i with
  | .computed base _ =>
      decidable_of_iff (base = s.fw.app.config ∧ ∀ j, ¬ (s.pc j).Publishing)
        ⟨fun h base' new' hpc' => by cases hpc.symm.trans hpc'; exact h, fun h => h _ _ hpc⟩
  | .start | .refused | .checked | .read _ | .publishing _ _ | .installed _ | .announced _
  | .finished => .isTrue fun _ _ hpc' => by cases hpc.symm.trans hpc'

/-- What a writer publishes comes from the configuration in force, and is in place as
far as it is published. -/
def PublishingAt (codecs : Codecs) (writes : ι → ConfigWrite) (st : Settings) (i : ι)
    (pc : WriterPc) : Prop :=
  ∀ done new, pc = .publishing done new →
    new = (writes i).apply codecs st.config ∧ done.Holds codecs st new

/-- The settings are those of the installed writes in an order, and only the active
writer, if there is one, has more under way. -/
structure Serial (codecs : Codecs) (writes : ι → ConfigWrite) (cfg₀ : Config) (order : List ι)
    (active : Option ι) (s : Writers ι) : Prop where
  nodup : order.Nodup
  mem : ∀ i, i ∈ order ↔ (s.pc i).Installed
  config : s.fw.settings.config = serial codecs writes order cfg₀
  computed : ∀ i, ComputedAt codecs writes i (s.pc i)
  busy : ∀ i, (s.pc i).Publishing ↔ active = some i
  publishing : ∀ i, PublishingAt codecs writes s.fw.settings i (s.pc i)
  quiet : active = none → order ≠ [] → s.fw.settings.Synced codecs

/-- A property of all program counters, when one of them moves. -/
theorem forall_goto {s : Writers ι} {i : ι} {pc : WriterPc} {fw : Firmware}
    {P : ι → WriterPc → Prop} (hself : P i pc) (hothers : ∀ j, j ≠ i → P j (s.pc j)) :
    ∀ j, P j ((s.goto i pc fw).pc j) := by
  intro j
  rcases eq_or_ne j i with rfl | hne
  · rw [goto_pc_self]
    exact hself
  · rw [goto_pc_of_ne s hne]
    exact hothers j hne

omit [DecidableEq ι] in
theorem publishingAt_of_not {st : Settings} {i : ι} {pc : WriterPc} (h : ¬ pc.Publishing) :
    PublishingAt codecs writes st i pc := by
  rintro done new rfl
  exact absurd trivial h

omit [DecidableEq ι] in
theorem serial_start (fw : Firmware) :
    Serial codecs writes fw.app.config [] none (start fw : Writers ι) where
  nodup := .nil
  mem i := iff_of_false List.not_mem_nil id
  config := rfl
  computed _ _ _ h := by cases h
  busy _ := iff_of_false id nofun
  publishing _ := publishingAt_of_not id
  quiet _ h := absurd rfl h

namespace Serial

variable {cfg₀ : Config} {order : List ι} {active : Option ι} {s : Writers ι} {i : ι}

/-! What the rules below share: the writers that do not move, and the one that does. -/

theorem mem_goto (h : Serial codecs writes cfg₀ order active s) {pc : WriterPc}
    (hinstalled : pc.Installed ↔ (s.pc i).Installed) (fw : Firmware) (j : ι) :
    j ∈ order ↔ ((s.goto i pc fw).pc j).Installed :=
  forall_goto (P := fun j pc => j ∈ order ↔ pc.Installed) ((h.mem i).trans hinstalled.symm)
    (fun j _ => h.mem j) j

theorem computed_goto (h : Serial codecs writes cfg₀ order active s) {pc : WriterPc}
    (hcomputed : ComputedAt codecs writes i pc) (fw : Firmware) (j : ι) :
    ComputedAt codecs writes j ((s.goto i pc fw).pc j) :=
  forall_goto hcomputed (fun j _ => h.computed j) j

omit [DecidableEq ι] in
theorem active_eq (h : Serial codecs writes cfg₀ order active s) {done : Published}
    {new : Config} (hpc : s.pc i = .publishing done new) : active = some i := by
  refine (h.busy i).mp ?_
  rw [hpc]
  trivial

omit [DecidableEq ι] in
/-- No writer is under way beside the active one. -/
theorem not_publishing (h : Serial codecs writes cfg₀ order active s) (hactive : active = some i)
    (j : ι) (hne : j ≠ i) : ¬ (s.pc j).Publishing := by
  intro hj
  have hj' := (h.busy j).mp hj
  exact hne (Option.some.inj (hj'.symm.trans hactive))

theorem moves (h : Serial codecs writes cfg₀ order active s) {was pc : WriterPc} {fw : Firmware}
    (hpc : s.pc i = was) (hwas : ¬ was.Publishing) (hnot : ¬ pc.Publishing)
    (hinstalled : pc.Installed ↔ was.Installed) (hsettings : fw.settings = s.fw.settings)
    (hcomputed : ComputedAt codecs writes i pc) :
    Serial codecs writes cfg₀ order active (s.goto i pc fw) where
  nodup := h.nodup
  mem := h.mem_goto (by rw [hpc, hinstalled]) fw
  config := by rw [goto_fw, hsettings, h.config]
  computed := h.computed_goto hcomputed fw
  busy := by
    refine forall_goto (P := fun j pc => pc.Publishing ↔ active = some j) ?_ fun j _ => h.busy j
    refine iff_of_false hnot fun hactive => hwas ?_
    rw [← hpc]
    exact (h.busy i).mpr hactive
  publishing := by
    rw [goto_fw, hsettings]
    exact forall_goto (publishingAt_of_not hnot) fun j _ => h.publishing j
  quiet := by
    rw [goto_fw, hsettings]
    exact h.quiet

theorem saves (h : Serial codecs writes cfg₀ order active s) {base new : Config} {bytes : Bytes}
    {fw : Firmware} (hpc : s.pc i = .computed base new) (hto : codecs.config.toVec new = .ok bytes)
    (hsettings : fw.settings = { s.fw.settings with stored := some bytes })
    (hguard : s.Undisturbed i) :
    Serial codecs writes cfg₀ order (some i) (s.goto i (.publishing .saved new) fw) where
  nodup := h.nodup
  mem := h.mem_goto (by rw [hpc]; rfl) fw
  config := by rw [goto_fw, hsettings, h.config]
  computed := h.computed_goto (fun _ _ => WriterPc.noConfusion) fw
  busy := by
    refine forall_goto (P := fun j pc => pc.Publishing ↔ some i = some j)
      (iff_of_true trivial rfl) ?_
    intro j hne
    refine iff_of_false ((hguard base new hpc).2 j) ?_
    rintro ⟨⟩
    exact hne rfl
  publishing := by
    rw [goto_fw, hsettings]
    refine forall_goto (P := PublishingAt codecs writes _) ?_ ?_
    · rintro done new' ⟨⟩
      refine ⟨?_, bytes, hto, rfl⟩
      rw [h.computed i base new hpc, (hguard base new hpc).1]
      rfl
    · exact fun j _ => publishingAt_of_not ((hguard base new hpc).2 j)
  quiet hnone := by cases hnone

theorem pushes (h : Serial codecs writes cfg₀ order active s) {done next : Published}
    {new : Config} {fw : Firmware} (hpc : s.pc i = .publishing done new)
    (hconfig : fw.settings.config = s.fw.settings.config)
    (hholds : done.Holds codecs s.fw.settings new → next.Holds codecs fw.settings new) :
    Serial codecs writes cfg₀ order active (s.goto i (.publishing next new) fw) := by
  have hactive := h.active_eq hpc
  refine ⟨h.nodup, ?_, hconfig.trans h.config, ?_, ?_, ?_, ?_⟩
  · exact h.mem_goto (by rw [hpc]; rfl) fw
  · exact h.computed_goto (fun _ _ => WriterPc.noConfusion) fw
  · exact forall_goto (P := fun j pc => pc.Publishing ↔ active = some j)
      (iff_of_true trivial hactive) fun j _ => h.busy j
  · refine forall_goto (P := PublishingAt codecs writes _) ?_ ?_
    · rintro done' new' ⟨⟩
      have hold := h.publishing i done new hpc
      rw [goto_fw, hconfig]
      exact ⟨hold.1, hholds hold.2⟩
    · exact fun j hne => publishingAt_of_not (h.not_publishing hactive j hne)
  · intro hnone
    cases hactive.symm.trans hnone

/-- The step that puts a write into the order. -/
theorem installs (h : Serial codecs writes cfg₀ order active s) {new : Config} {fw : Firmware}
    (hpc : s.pc i = .publishing .valve new)
    (hsettings : fw.settings = { s.fw.settings with config := new }) :
    Serial codecs writes cfg₀ (order ++ [i]) none (s.goto i (.installed new) fw) := by
  have hfresh : i ∉ order := by
    rw [h.mem i, hpc]
    exact id
  have hothers := h.not_publishing (h.active_eq hpc)
  obtain ⟨hnew, hholds⟩ := h.publishing i .valve new hpc
  refine ⟨?_, ?_, ?_, ?_, ?_, ?_, ?_⟩
  · exact List.nodup_append.mpr ⟨h.nodup, List.nodup_singleton i, by
      rintro a ha b hb rfl
      cases List.mem_singleton.mp hb
      exact hfresh ha⟩
  · refine forall_goto (P := fun j pc => j ∈ order ++ [i] ↔ pc.Installed) ?_ ?_
    · exact iff_of_true (by simp) trivial
    · intro j hne
      rw [List.mem_append, List.mem_singleton, ← h.mem j]
      simp [hne]
  · rw [goto_fw, hsettings, serial_append_singleton, ← h.config]
    exact hnew
  · exact h.computed_goto (fun _ _ => WriterPc.noConfusion) fw
  · refine forall_goto (P := fun j pc => pc.Publishing ↔ none = some j) (iff_of_false id nofun) ?_
    exact fun j hne => iff_of_false (hothers j hne) nofun
  · refine forall_goto (P := PublishingAt codecs writes _) (publishingAt_of_not id) ?_
    exact fun j hne => publishingAt_of_not (hothers j hne)
  · intro _ _
    rw [goto_fw, hsettings]
    exact hholds

/-- A step of a writer that saves undisturbed keeps the order, or ends it with the
writer. -/
theorem next (h : Serial codecs writes cfg₀ order active s) (hguard : s.Undisturbed i)
    (env : Env) : ∃ order' active',
      Serial codecs writes cfg₀ order' active' ((machine codecs writes).next s (i, env)) := by
  have hstep : StepOf codecs writes s i (s.step codecs writes i env) := stepOf_step s i env
  rw [next_eq]
  generalize s.step codecs writes i env = s' at hstep
  cases hstep with
  | stays => exact ⟨order, active, h⟩
  | moves was pc fw hpc hwas hnot hinstalled hsettings hcomputed =>
      exact ⟨order, active, h.moves hpc hwas hnot hinstalled hsettings hcomputed⟩
  | saves base new bytes fw hpc hto hsettings =>
      exact ⟨order, some i, h.saves hpc hto hsettings hguard⟩
  | pushes done next new fw hpc hconfig hholds =>
      exact ⟨order, active, h.pushes hpc hconfig hholds⟩
  | installs new fw hpc hsettings => exact ⟨order ++ [i], none, h.installs hpc hsettings⟩

end Serial

/-- **Serializability.**  In every run of writers, of any number and in any
interleaving, in which each saves undisturbed: when no writer is between save and
installation, the configuration in force is the result of the writes that were
installed, one after another in some order.  And once there is one, the store holds
that configuration, and the sprinklers and the valve have its timings. -/
theorem writers_serializable (codecs : Codecs) (writes : ι → ConfigWrite) (fw : Firmware)
    (steps : List (ι × Env))
    (hguard : ∀ t ∈ (machine codecs writes).trace (start fw) steps, t.before.Undisturbed t.input.1)
    (hquiet : ∀ i, ¬ (((machine codecs writes).run (start fw) steps).pc i).Publishing) :
    ∃ order : List ι, order.Nodup ∧
      (∀ i, i ∈ order ↔ (((machine codecs writes).run (start fw) steps).pc i).Installed) ∧
      ((machine codecs writes).run (start fw) steps).fw.app.config =
        serial codecs writes order fw.app.config ∧
      (order ≠ [] →
        ((machine codecs writes).run (start fw) steps).fw.settings.Synced codecs) := by
  obtain ⟨order, active, h⟩ := (machine codecs writes).run_invariant
    (P := fun s => ∃ order active, Serial codecs writes fw.app.config order active s)
    (G := fun s input => s.Undisturbed input.1)
    (fun s input hundisturbed ⟨_, _, h⟩ => h.next hundisturbed input.2)
    ⟨[], none, serial_start fw⟩ hguard
  refine ⟨order, h.nodup, h.mem, h.config, h.quiet ?_⟩
  cases active with
  | none => rfl
  | some i => exact absurd ((h.busy i).mpr rfl) (hquiet i)

/-! ## Two writers -/

/-- The configuration behind `https off` on a device with the defaults. -/
def httpsOff : Config := { Config.default {} with https.enabled := false }

/-- The configuration behind `wifi add` on such a device. -/
def homeAdded : Config := { Config.default {} with wifi.networks := [⟨"home", "secret"⟩] }

/-- Codecs that store the two configurations, and the one that has both edits. -/
def twoCodecs : Codecs :=
  { Codecs.fails with
    config :=
      { toVec := fun cfg =>
          if cfg = httpsOff then .ok (asciiBytes "https off")
          else if cfg = homeAdded then .ok (asciiBytes "home added")
          else if cfg = { homeAdded with https.enabled := false } then .ok (asciiBytes "both")
          else .error "another configuration"
        fromSlice := fun _ => .error "not read" } }

/-- Two writers at the console and at the server that edit different sections. -/
def twoWrites : Bool → ConfigWrite
  | false => .setHttps false
  | true => .modifyNetworks fun nets => nets ++ [⟨"home", "secret"⟩]

/-- A device with the defaults and two writers. -/
def twoWriters : Writers Bool := start (Firmware.ofConfig twoCodecs (.default {}))

/-- One writer after the other. -/
def inTurn : List (Bool × Env) := alone false (.plain 0) ++ alone true (.plain 0)

/-- The second writer computes its configuration in front of the save of the first. -/
def overlapping : List (Bool × Env) :=
  List.replicate 3 (true, .plain 0) ++ alone false (.plain 0) ++ List.replicate 7 (true, .plain 0)

theorem writers_serializable_in_turn :
    let s := (machine twoCodecs twoWrites).run twoWriters inTurn
    ∃ order : List Bool, order.Nodup ∧ (∀ i, i ∈ order ↔ (s.pc i).Installed) ∧
      s.fw.app.config = serial twoCodecs twoWrites order twoWriters.fw.app.config ∧
      (order ≠ [] → s.fw.settings.Synced twoCodecs) := by
  intro s
  refine writers_serializable twoCodecs twoWrites _ inTurn ?_ ?_
  · decide +kernel
  · decide +kernel

/-- Whatever the order, `https off` is not undone. -/
theorem https_off_of_mem (cfg : Config) {order : List Bool} (h : false ∈ order) :
    (serial twoCodecs twoWrites order cfg).https.enabled = false := by
  induction order using List.reverseRecOn with
  | nil => cases h
  | append_singleton order i ih =>
      rw [serial_append_singleton]
      cases i with
      | false => rfl
      | true => exact ih (by simpa using h)

/-- Both overlapping writes are saved and installed, and one edit is lost. -/
theorem overlapping_writers_lose :
    let s := (machine twoCodecs twoWrites).run twoWriters overlapping
    (∀ i, (s.pc i).Installed) ∧
      ¬ ∃ order : List Bool, order.Nodup ∧ (∀ i, i ∈ order ↔ (s.pc i).Installed) ∧
        s.fw.app.config = serial twoCodecs twoWrites order twoWriters.fw.app.config := by
  intro s
  have hinstalled : ∀ i, (s.pc i).Installed := by
    rintro (_ | _) <;> exact trivial
  refine ⟨hinstalled, ?_⟩
  rintro ⟨order, -, hmem, hconfig⟩
  have hon : s.fw.app.config.https.enabled = true := by decide +kernel
  rw [hconfig, https_off_of_mem _ ((hmem false).mpr (hinstalled false))] at hon
  cases hon

end Writers

end WaterController
