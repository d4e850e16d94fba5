import WaterController.Calibration.Usable
import WaterController.Firmware.Held

/-!
# The calibrations a device holds

The constructor of a calibration is not what a calibration comes in through.  The
handlers deserialise it, the store gives it back at the next boot, and both take
what they find.  So a device holds usable calibrations if and only if every body
it accepts has usable ones (`calibrations_usable_iff`).

The proof is an invariant of the configuration in force and of what the next boot
would load (`Sound`).  It is the general one, since nothing but an accepted body
replaces the sensors.
-/

namespace WaterController

open Machines (Machine Transition)

/-- All calibrations of a section are usable. -/
def SensorsConfig.Usable (s : SensorsConfig) : Prop := ∀ c ∈ s.calibrations, c.Usable

instance (s : SensorsConfig) : Decidable s.Usable := inferInstanceAs (Decidable (∀ c ∈ _, _))

/-- All calibrations of a section are usable, and so can be applied. -/
def SensorsConfig.Applies (s : SensorsConfig) : Prop :=
  ∀ c ∈ s.calibrations, c.Usable ∧ c.Applies

theorem SensorsConfig.applies_iff {s : SensorsConfig} : s.Applies ↔ s.Usable :=
  ⟨fun h c hc => (h c hc).1, fun h c hc => ⟨h c hc, (h c hc).applies⟩⟩

theorem SensorsConfig.usable_default : SensorsConfig.default.Usable := by decide

namespace Firmware

variable (codecs : Codecs) (build : BuildEnv) (certgen : CertGen)

/-! ## Accepted requests -/

/-- Where the sensors of an accepted body come from: the whole configuration, or
their section. -/
inductive Uploads (fw : Firmware) : FirmwareEvent → SensorsConfig → Prop where
  | config (env : Env) (req : Request) (new : Config) :
      Admits codecs codecs.config Config.mergePreservingSecrets env fw req new →
      Uploads fw (.putConfig env req) new.sensors
  | sensors (env : Env) (req : Request) (new : SensorsConfig) :
      Admits codecs codecs.sensors applySensors env fw req new →
      Uploads fw (.putSection .sensors env req) new

/-! ## What is kept -/

/-- The calibrations of a configuration are usable, and those a store loads. -/
structure SoundAt (cfg : Config) (nvs : NvsStore) : Prop where
  live : cfg.sensors.Usable
  stored : ∀ c, Config.load build codecs.config nvs = .ok c → c.sensors.Usable

/-- The calibrations in force are usable, and those the next boot loads. -/
abbrev Sound (fw : Firmware) : Prop := SoundAt codecs build fw.app.config fw.nvs

variable {codecs build}

/-- Usable calibrations are a property of the sensors. -/
theorem kept_usable : Config.Kept build fun cfg => cfg.sensors.Usable :=
  ⟨SensorsConfig.usable_default, fun _ _ h => h, fun _ _ h => h⟩

theorem sound_iff_holds {fw : Firmware} :
    Sound codecs build fw ↔ Holds codecs build (fun cfg => cfg.sensors.Usable) fw :=
  ⟨fun h => ⟨h.live, h.stored⟩, fun h => ⟨h.live, h.stored⟩⟩

/-! ## Runs -/

/-- The request of an event, if it is accepted, brings usable calibrations. -/
def UploadsUsable (codecs : Codecs) (fw : Firmware) (e : FirmwareEvent) : Prop :=
  ∀ s, Uploads codecs fw e s → s.Usable

/-- An event keeps a device sound, unless it brings calibrations that are not usable. -/
theorem Sound.next {fw : Firmware} (h : Sound codecs build fw)
    (hfaithful : codecs.config.Faithful) {e : FirmwareEvent} (he : UploadsUsable codecs fw e) :
    Sound codecs build ((firmwareMachine codecs build certgen).next fw e) := by
  rw [sound_iff_holds] at h ⊢
  refine h.next certgen kept_usable hfaithful fun cfg hcfg => ?_
  cases hcfg with
  | config env req new hnew => exact he _ (.config env req new hnew)
  | «section» s env req new hnew =>
      cases s with
      | sensors => exact he _ (.sensors env req new hnew)
      | wifi | mqtt | switches | schedule | https | wireguard | time | auth | flowAlarm
      | webhooks => exact h.live

/-- The sensors of an accepted body are in force behind it. -/
theorem Uploads.sensors_next {fw : Firmware} {e : FirmwareEvent} {s : SensorsConfig}
    (h : Uploads codecs fw e s) :
    ((firmwareMachine codecs build certgen).next fw e).app.config.sensors = s := by
  cases h with
  | config env req new hnew =>
      exact congrArg (·.sensors) ((Installs.config env req new hnew).config_next certgen)
  | sensors env req new hnew =>
      exact congrArg (·.sensors) ((Installs.section .sensors env req s hnew).config_next certgen)

/-- **Calibrations.**  What the constructor builds is usable, and can be applied to
every reading, if and only if the infinite raw values it is given differ.  What a
device holds, from its first boot on a blank store and in every state it reaches,
is usable if and only if the calibrations of every body it accepts are. -/
theorem calibrations_usable_iff (codecs : Codecs) (hfaithful : codecs.config.Faithful)
    (build : BuildEnv) (certgen : CertGen) (env : Env) (events : List FirmwareEvent) :
    (∀ points c, Calibration.new points = some c →
      (c.Usable ∧ c.Applies ↔ Calibration.InfinitiesDiffer points)) ∧
    ((∀ reached, reached <+: events →
        ((firmwareMachine codecs build certgen).run (boot codecs build certgen env .blank)
          reached).app.config.sensors.Applies) ↔
      ∀ t ∈ (firmwareMachine codecs build certgen).trace (boot codecs build certgen env .blank)
        events, UploadsUsable codecs t.before t.input) := by
  constructor
  · intro points c hnew
    rw [← Calibration.usable_new_iff hnew]
    exact ⟨fun h => h.1, fun h => ⟨h, h.applies⟩⟩
  constructor
  · intro hheld t ht s hs
    have hreached := (firmwareMachine codecs build certgen).next_of_prefixes
      (P := fun fw => fw.app.config.sensors.Applies) hheld ht
    rw [hs.sensors_next certgen, SensorsConfig.applies_iff] at hreached
    exact hreached
  · intro huploads reached hreached
    rw [SensorsConfig.applies_iff]
    exact ((firmwareMachine codecs build certgen).prefix_invariant (P := Sound codecs build)
      (G := UploadsUsable codecs) (fun fw e he h => h.next certgen hfaithful he)
      (sound_iff_holds.mpr (holds_boot_blank certgen kept_usable hfaithful env)) huploads
      hreached).live

/-! ## A device that is sent its sensors -/

/-- The JSON text of a calibration with points of a given text. -/
def calibrationJson (points : String) : String := "\x7b\"points\":" ++ points ++ "\x7d"

/-- The body of a sensors section in JSON. -/
def sensorsBody (battery pressure : String) : Bytes :=
  let json := "\x7b\"battery\":" ++ calibrationJson battery ++
    ",\"pressure_stage1\":" ++ calibrationJson pressure ++
    ",\"pressure_stage2\":" ++ calibrationJson pressure ++
    ",\"flow_l_per_pulse\":1.0,\"flow_lph_per_pps\":1.0\x7d"
  json.toList.map fun c => c.toNat.toUInt8

/-- Codecs that read one body as a sensors section, and can store the default
configuration with that section.  The body stands for the text it is stored as. -/
def sensorsCodecs (body : Bytes) (sensors : SensorsConfig) : Codecs where
  alarmHistory := .fails _
  config := .single { Config.default {} with sensors := sensors } body
  wifi := .fails _
  mqtt := .fails _
  switches := .fails _
  sensors := .single sensors body
  schedule := .fails _
  https := .fails _
  wireguard := .fails _
  time := .fails _
  auth := .fails _
  flowAlarm := .fails _
  webhooks := .fails _

/-- A battery calibration of three points is sent, and held behind a reboot. -/
theorem calibrations_usable_three_points :
    let body := sensorsBody "[[0.0,0.0],[1.0,2.0],[4.0,3.0]]" "[[0.0,0.0],[1.0,1.0]]"
    let unit : Calibration Float32 := .deserialize [(0.0, 0.0), (1.0, 1.0)]
    let sensors : SensorsConfig :=
      ⟨.deserialize [(0.0, 0.0), (1.0, 2.0), (4.0, 3.0)], unit, unit, 1.0, 1.0⟩
    let codecs := sensorsCodecs body sensors
    let events : List FirmwareEvent :=
      [.putSection .sensors (.plain 0) { body := body }, .reboot (.plain 0)]
    ((firmwareMachine codecs {} noCerts).run (boot codecs {} noCerts (.plain 0) .blank)
      events).app.config.sensors.Applies := by
  intro body unit sensors codecs events
  refine (calibrations_usable_iff codecs (Serde.faithful_single _ _) {} noCerts (.plain 0)
    events).2.mpr (fun t ht s hs => ?_) events (List.prefix_refl _)
  simp only [events, Machine.trace_cons, Machine.trace_nil, List.mem_cons, List.not_mem_nil,
    or_false] at ht
  rcases ht with rfl | rfl
  · cases hs with
    | sensors env req new hnew =>
        have hparsed := hnew.parsed
        simp only [codecs, sensorsCodecs, Serde.single, if_true, Except.ok.injEq] at hparsed
        rw [← hparsed]
        decide
  · cases hs

/-- A sensors section without points is accepted, stored and loaded again, and the
sensor loop dies of it. -/
theorem apply_panics_behind_put :
    let body := sensorsBody "[]" "[]"
    let empty : Calibration Float32 := .deserialize []
    let codecs := sensorsCodecs body ⟨empty, empty, empty, 1.0, 1.0⟩
    let fw := (firmwareMachine codecs {} noCerts).run (boot codecs {} noCerts (.plain 0) .blank)
      [.putSection .sensors (.plain 0) { body := body }, .reboot (.plain 0)]
    ¬ fw.app.config.sensors.battery.Usable ∧
      fw.app.config.sensors.battery.apply 1130.0 = .error .indexOutOfBounds := by
  intro body empty codecs fw
  have hbattery : fw.app.config.sensors.battery = empty := by decide +kernel
  rw [hbattery]
  exact ⟨by decide, rfl⟩

end Firmware

end WaterController
