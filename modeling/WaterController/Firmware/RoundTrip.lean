import WaterController.Config.JsonRoundTrip
import WaterController.Firmware.ConfigWrites

/-!
# What is accepted, and what the next boot loads

A number in a body is narrowed to 32 bits, and one that is too large becomes an
infinity.  The handlers take it, the store gets `null` for it, and the next boot
reads no float from `null`: the load fails, and the defaults take the place of the
whole configuration.

So the next boot loads what a write has saved if and only if all its floats are
finite (`loads_back_iff`).

The text of JSON and its numbers are parameters: how a value is written as bytes
and read from them, and what the reader makes of a number.
-/

namespace WaterController

open Json (Numbers)
open JsonCodec (list string)

variable {ν : Type}

/-! ## Codecs -/

/-- The codec of a type whose JSON is known, over the codec of JSON text. -/
def Serde.ofJson {α : Type} (text : Serde (Json ν)) (c : JsonCodec ν α) : Serde α where
  toVec a := text.toVec (c.toJson a)
  fromSlice bytes :=
    match text.fromSlice bytes with
    | .ok j => (c.fromJson j).mapError Json.DeError.display
    | .error e => .error e

namespace ConfigJson

def time : JsonCodec ν TimeSection where
  toJson t := .obj [
    ("timezone", string.toJson t.timezone),
    ("sntp_servers", (list string).toJson t.sntpServers)]
  fromJson j := do
    let f ← j.fields ["timezone", "sntp_servers"]
    let timezone ← string.required "timezone" (f "timezone")
    let sntpServers ← (list string).required "sntp_servers" (f "sntp_servers")
    return { timezone, sntpServers }

def auth : JsonCodec ν AuthSection where
  toJson a := .obj [("admin_token", string.toJson a.adminToken)]
  fromJson j := do
    let f ← j.fields ["admin_token"]
    let adminToken ← string.required "admin_token" (f "admin_token")
    return { adminToken }

end ConfigJson

/-- The codecs of the device.  The alarm history has one of its own. -/
def Codecs.ofJson (text : Serde (Json ν)) (N : Numbers ν) (build : BuildEnv)
    (alarmHistory : Serde (List AlarmEvent)) : Codecs where
  alarmHistory := alarmHistory
  config := .ofJson text (ConfigJson.config N build)
  wifi := .ofJson text ConfigJson.wifi
  mqtt := .ofJson text ConfigJson.mqtt
  switches := .ofJson text (ConfigJson.switches N)
  sensors := .ofJson text (ConfigJson.sensors N)
  schedule := .ofJson text (ConfigJson.schedule N)
  https := .ofJson text ConfigJson.https
  wireguard := .ofJson text (ConfigJson.wireguard N)
  time := .ofJson text ConfigJson.time
  auth := .ofJson text ConfigJson.auth
  flowAlarm := .ofJson text (ConfigJson.flowAlarm N)
  webhooks := .ofJson text (list ConfigJson.webhook)

/-- What is written of a configuration is read as the JSON that was written. -/
def WritesText (text : Serde (Json ν)) (c : JsonCodec ν Config) : Prop :=
  ∀ cfg bytes, text.toVec (c.toJson cfg) = .ok bytes → text.fromSlice bytes = .ok (c.toJson cfg)

/-! ## Saving and loading -/

/-- What loads behind a save is what was saved if and only if its floats are finite. -/
theorem Config.load_save_iff {text : Serde (Json ν)} {N : Numbers ν} (hN : N.Faithful)
    {build : BuildEnv} (htext : WritesText text (ConfigJson.config N build)) {cfg : Config}
    {env : Env} {nvs : NvsStore}
    (hsave : (cfg.save (.ofJson text (ConfigJson.config N build)) env nvs).2 = .ok ()) :
    Config.load build (.ofJson text (ConfigJson.config N build))
        (cfg.save (.ofJson text (ConfigJson.config N build)) env nvs).1 = .ok cfg ↔
      cfg.Finite := by
  obtain ⟨bytes, hto, hnvs⟩ := Firmware.save_ok hsave
  rw [← ConfigJson.reads_config_iff hN build, JsonCodec.Reads, hnvs, Config.load,
    NvsStore.get_set_ok]
  simp only [Serde.ofJson, htext cfg bytes hto]
  cases (ConfigJson.config N build).fromJson ((ConfigJson.config N build).toJson cfg) with
  | error e => simp [Except.mapError]
  | ok c => simp [Except.mapError]

/-- **Accepted and loaded.**  Behind every successful write of the configuration, the
next boot loads the configuration that is in force if and only if its floats are
finite. -/
theorem loads_back_iff (text : Serde (Json ν)) (N : Numbers ν) (hN : N.Faithful)
    (build : BuildEnv) (htext : WritesText text (ConfigJson.config N build))
    (alarmHistory : Serde (List AlarmEvent)) (env : Env) (fw : Firmware) (w : ConfigWrite)
    (hok : w.succeeds (.ofJson text N build alarmHistory) env fw = true) :
    let codecs := Codecs.ofJson text N build alarmHistory
    let cfg := w.apply codecs fw.app.config
    (w.perform codecs env fw).app.config = cfg ∧
      (Config.load build codecs.config (w.perform codecs env fw).nvs = .ok cfg ↔ cfg.Finite) := by
  intro codecs cfg
  obtain ⟨hconfig, hnvs, hsave⟩ := ConfigWrite.perform_of_succeeds hok
  refine ⟨hconfig, ?_⟩
  rw [hnvs]
  exact Config.load_save_iff hN htext hsave

/-! ## Two thresholds -/

/-- A number of a JSON text: an integer, a decimal fraction, or what the writer makes
of a float. -/
inductive JsonNumber where
  | int (n : Int)
  | decimal (mantissa : Nat) (negative : Bool) (exponent : Nat)
  | float (x : Float32)
deriving DecidableEq

/-- The reader rounds a decimal fraction to the nearest float, and what the writer made
of a float to that float. -/
def jsonNumbers : Numbers JsonNumber where
  ofNat n := .int n
  ofF32 := .float
  toInt
    | .int n => some n
    | .decimal _ _ _ | .float _ => none
  toF32
    | .int n => Float32.ofInt n
    | .decimal mantissa negative exponent => Float32.ofScientific mantissa negative exponent
    | .float x => x

theorem jsonNumbers_faithful : jsonNumbers.Faithful := ⟨fun _ _ => rfl, fun _ _ => rfl⟩

/-- The body of an alarm section with a threshold of a given text. -/
def alarmBody (threshold : String) : Bytes :=
  asciiBytes ("\x7b\"enabled\":true,\"threshold_lph\":" ++ threshold ++
    ",\"duration_secs\":60\x7d")

def alarmJson (threshold : JsonNumber) : Json JsonNumber :=
  .obj [("enabled", .bool true), ("threshold_lph", .num threshold),
    ("duration_secs", .num (.int 60))]

/-- The defaults with an alarm threshold. -/
def withThreshold (x : Float32) : Config :=
  { Config.default {} with flowAlarm := ⟨true, x, 60⟩ }

/-- The text of a body, and that of the defaults with its threshold.  The second stands
for what the device stores. -/
def thresholdText (threshold : String) (n : JsonNumber) : Serde (Json JsonNumber) :=
  .table [
    (alarmJson n, alarmBody threshold),
    ((ConfigJson.config jsonNumbers {}).toJson (withThreshold (jsonNumbers.toF32 n)),
      asciiBytes ("the defaults, and the threshold " ++ threshold))]

/-- The write of the alarm section. -/
def putThreshold (threshold : String) : ConfigWrite :=
  .putSection .flowAlarm { body := alarmBody threshold }

/-- The device the body is sent to. -/
def thresholdDevice (codecs : Codecs) : Firmware := Firmware.ofConfig codecs (.default {})

theorem writesText_thresholdText {threshold : String} {n : JsonNumber}
    (h : alarmBody threshold ≠ asciiBytes ("the defaults, and the threshold " ++ threshold)) :
    WritesText (thresholdText threshold n) (ConfigJson.config jsonNumbers {}) :=
  fun _ _ hto => Serde.table_reads (by simpa using h) hto

/-- A threshold of 250.5 l/h is loaded again. -/
theorem loads_back_threshold :
    let text := thresholdText "250.5" (.decimal 2505 true 1)
    let codecs := Codecs.ofJson text jsonNumbers {} (.fails _)
    let cfg := (putThreshold "250.5").apply codecs (.default {})
    Config.load {} codecs.config
        ((putThreshold "250.5").perform codecs (.plain 0) (thresholdDevice codecs)).nvs =
      .ok cfg := by
  intro text codecs cfg
  refine (loads_back_iff text jsonNumbers jsonNumbers_faithful {}
    (writesText_thresholdText (by decide +kernel)) (.fails _) (.plain 0) (thresholdDevice codecs)
    (putThreshold "250.5") (by decide +kernel)).2.mpr ?_
  decide +kernel

/-- A threshold of 10³⁹ l/h is accepted, saved and in force, and the next boot has
the defaults. -/
theorem put_1e39_boots_defaults :
    let codecs :=
      Codecs.ofJson (thresholdText "1e39" (.decimal 1 false 39)) jsonNumbers {} (.fails _)
    let fw := (putThreshold "1e39").perform codecs (.plain 0) (thresholdDevice codecs)
    (putThreshold "1e39").succeeds codecs (.plain 0) (thresholdDevice codecs) = true ∧
      fw.app.config = withThreshold (Float32.ofScientific 1 false 39) ∧
      (Config.load {} codecs.config fw.nvs).isOk = false ∧
      (Firmware.loadOrDefault codecs {} (.plain 0) fw.nvs).1 = .default {} := by
  intro codecs fw
  decide +kernel

end WaterController
