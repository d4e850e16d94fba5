import WaterController.Core.App
import WaterController.Core.ConfigJson
import WaterController.Nostd.FlashRuns
import WaterController.Nostd.Ota

/-!
# The HTTP API of the no_std firmware

A handful of prefix routes capture the last segment of the path, and the handlers
dispatch on it.  Errors are reported in the body, with a status of 200.

The handlers share the application, the flash store and the update slots.  The
store that the application has a handle to is the flash store, so a change of the
one is a change of the other (`AppState.withKv`).

The JSON codecs are parameters, as are the answers of the platform to one request.
-/

namespace WaterController

open FlashKv (FlashOutcome)

/-! ## Errors -/

/-- `{:?}` of a store error. -/
def NvsError.debug : NvsError → String
  | .notFound => "NotFound"
  | .full => "Full"
  | .io s => "Io(\"" ++ s ++ "\")"

/-- `{:?}` of a configuration error. -/
def ConfigError.debug : ConfigError → String
  | .nvs e => "Nvs(" ++ e.debug ++ ")"
  | .json e => "Json(" ++ e ++ ")"

/-! ## The configuration in the flash store -/

/-- Store a configuration. -/
def Config.saveTo (cfg : Config) (serde : Serde Config) (kv : FlashKv) (outcome : FlashOutcome) :
    Except ConfigError Unit × FlashKv :=
  match serde.toVec cfg with
  | .error e => (.error (.json e), kv)
  | .ok bytes =>
      let (result, kv) := kv.set Config.nvsKey bytes outcome
      (result.mapError .nvs, kv)

/-- Erase the stored configuration. -/
def Config.factoryResetIn (kv : FlashKv) (outcome : FlashOutcome) :
    Except ConfigError Unit × FlashKv :=
  let (result, kv) := kv.remove Config.nvsKey outcome
  (result.mapError .nvs, kv)

/-! ## State and environment -/

/-- What the handlers share.  The reboot is a signal another task waits for. -/
structure AppState where
  app : App
  flashKv : FlashKv
  ota : OtaFlash
  rebootRequested : Bool

/-- The state with the store as it is now. -/
def AppState.withKv (st : AppState) (kv : FlashKv) : AppState :=
  { st with flashKv := kv, app := { st.app with nvs := some ⟨kv.get⟩ } }

/-- What one request reads from the platform. -/
structure WebEnv where
  env : Env
  uptimeSecs : Nat
  heapFree : Nat
  heapUsed : Nat
  /-- How the flash takes a rewrite of the store. -/
  flash : FlashOutcome
  /-- The JSON of the networks a scan finds. -/
  scan : String
  ota : OtaEnv

/-- The body of a webhook test. -/
structure TestReq where
  kind : EventKind
  vars : Std.TreeMap String String

/-- The JSON of the API.  `value` reads a body as a value, in which an object has
every name once. -/
structure WebCodecs (ν : Type) where
  numbers : Json.Numbers ν
  build : BuildEnv
  config : Serde Config
  value : Bytes → Except String (Json ν)
  toValue : Config → Except String (Json ν)
  fromValue : Json ν → Except String Config
  switchCommand : Bytes → Except String SwitchCommand
  testReq : Bytes → Except String TestReq
  outcome : CommandOutcome → Except String String
  snapshot : DeviceSnapshot → Except String String

namespace WebApi

variable {ν : Type}

/-! ## Responses -/

/-- A section of the configuration, by its name in the path. -/
inductive Section where
  | wifi
  | mqtt
  | https
  | switches
  | sensors
  | flowAlarm
  | timezone
  | sntpServers
  | schedule
  | wireguard
  | adminToken
  | webhooks
deriving DecidableEq, Repr

def Section.parse (name : String) : Option Section :=
  match name with
  | "wifi" => some .wifi
  | "mqtt" => some .mqtt
  | "https" => some .https
  | "switches" => some .switches
  | "sensors" => some .sensors
  | "flow_alarm" => some .flowAlarm
  | "timezone" => some .timezone
  | "sntp_servers" => some .sntpServers
  | "schedule" => some .schedule
  | "wireguard" => some .wireguard
  | "admin_token" => some .adminToken
  | "webhooks" => some .webhooks
  | _ => none

/-- A body that is streamed.  A section is taken from the configuration that comes
with it, which is a redacted one. -/
inductive JsonView where
  | fullConfig (cfg : Config)
  | redactedConfig (cfg : Config)
  | «section» (cfg : Config) (sec : Section)

namespace JsonView

def serialize (N : Json.Numbers ν) (build : BuildEnv) : JsonView → Json ν
  | .fullConfig cfg | .redactedConfig cfg => (ConfigJson.config N build).toJson cfg
  | .section cfg sec =>
      match sec with
      | .wifi => ConfigJson.wifi.toJson cfg.wifi
      | .mqtt => ConfigJson.mqtt.toJson cfg.mqtt
      | .https => ConfigJson.https.toJson cfg.https
      | .switches => (ConfigJson.switches N).toJson cfg.switches
      | .sensors => (ConfigJson.sensors N).toJson cfg.sensors
      | .flowAlarm => (ConfigJson.flowAlarm N).toJson cfg.flowAlarm
      | .timezone => JsonCodec.string.toJson cfg.timezone
      | .sntpServers => (JsonCodec.list JsonCodec.string).toJson cfg.sntpServers
      | .schedule => (ConfigJson.schedule N).toJson cfg.schedule
      | .wireguard => (ConfigJson.wireguard N).toJson cfg.wireguard
      | .adminToken => JsonCodec.string.toJson cfg.adminToken
      | .webhooks => (JsonCodec.list ConfigJson.webhook).toJson cfg.webhooks

end JsonView

inductive ApiResp where
  | json (text : String)
  | noContent
  | stream (view : JsonView)

def notFound : String := "\x7b\"error\":\"unknown endpoint\"\x7d"

def errorJson (text : String) : String := "\x7b\"error\":\"" ++ text ++ "\"\x7d"

def resultOk : String := "\x7b\"result\":\"ok\"\x7d"

/-- `.unwrap_or_default()` of a text. -/
def orEmpty : Except String String → String
  | .ok text => text
  | .error _ => ""

/-! ## `/api/<seg>` -/

section Handlers

variable (codecs : WebCodecs ν) (env : WebEnv)

/-- The heap and uptime figures. -/
def diag (st : AppState) : String :=
  let diagnostics := st.app.state.diagnostics
  let minFree := (diagnostics.minFreeHeapBytes.getD 0).toNat
  let reset := diagnostics.resetReason.getD "unknown"
  "\x7b\"uptime_s\":" ++ toString env.uptimeSecs ++
    ",\"heap\":\x7b\"total_free_bytes\":" ++ toString env.heapFree ++
    ",\"total_used_bytes\":" ++ toString env.heapUsed ++
    ",\"total_allocated_bytes\":" ++ toString env.heapUsed ++
    ",\"capacity_bytes\":" ++ toString (env.heapFree + env.heapUsed) ++
    ",\"min_ever_free_bytes\":" ++ toString minFree ++
    "\x7d,\"reset_reason\":\"" ++ reset ++ "\",\"fw\":\"wc-nostd\"\x7d"

def apiGet (seg : String) (st : AppState) (all : Bool) : ApiResp :=
  match seg with
  | "diag" => .json (diag env st)
  | "status" => .json (orEmpty (codecs.snapshot st.app.state))
  | "config" =>
      if all then .stream (.fullConfig st.app.config)
      else .stream (.redactedConfig st.app.config.redactSecretsForApi)
  | _ => .json notFound

/-- The end of both configuration `PUT`s: fill the blank secrets, save, install. -/
def saveAndReplace (st : AppState) (incoming : Config) : AppState × String :=
  let cfg := incoming.restoreSecretsFrom st.app.config
  let (result, kv) := cfg.saveTo codecs.config st.flashKv env.flash
  let st := st.withKv kv
  match result with
  | .error e => (st, errorJson ("nvs save failed: " ++ e.debug))
  | .ok () => ({ st with app := st.app.replaceConfig env.env cfg }, resultOk)

def apiPut (seg : String) (st : AppState) (body : Bytes) : AppState × String :=
  match seg with
  | "config" =>
      match codecs.config.fromSlice body with
      | .ok incoming => saveAndReplace codecs env st incoming
      | .error e => (st, errorJson ("bad config json: " ++ e))
  | _ => (st, notFound)

def apiPost (seg : String) (st : AppState) (body : Bytes) : AppState × String :=
  match seg with
  | "switch" =>
      match codecs.switchCommand body with
      | .ok cmd =>
          let (app, outcome) := st.app.switchCommand env.env cmd
          ({ st with app }, orEmpty (codecs.outcome outcome))
      | .error e => (st, errorJson ("bad switch command: " ++ e))
  | "factory_reset" =>
      let (result, kv) := Config.factoryResetIn st.flashKv env.flash
      let st := st.withKv kv
      match result with
      | .error e => (st, errorJson ("erase failed: " ++ e.debug))
      | .ok () =>
          ({ st with rebootRequested := true },
            "\x7b\"result\":\"ok\",\"detail\":\"rebooting\"\x7d")
  | _ => (st, notFound)

/-! ## `/api/wifi`, `/api/alarm`, `/api/webhooks` -/

def wifiGet (action : String) : String :=
  match action with
  | "scan" => "\x7b\"networks\":[]\x7d"
  | _ => notFound

def wifiPost (action : String) : ApiResp :=
  match action with
  | "reconnect" => .noContent
  | _ => .json notFound

def alarmPost (action : String) (st : AppState) : AppState × ApiResp :=
  match action with
  | "clear" => ({ st with app := st.app.clearFlowAlarm env.env }, .noContent)
  | _ => (st, .json notFound)

def webhooksPost (action : String) (st : AppState) (body : Bytes) : AppState × String :=
  if action ≠ "test" then (st, notFound)
  else
    match codecs.testReq body with
    | .ok tr =>
        let ev := { WebhookEvent.new tr.kind with vars := tr.vars }
        ({ st with app := st.app.emitEvent env.env ev }, resultOk)
    | .error e => (st, errorJson ("bad json: " ++ e))

/-! ## `/api/config/<section>` -/

def configSectionGet (name : String) (st : AppState) : ApiResp :=
  match Section.parse name with
  | some sec => .stream (.section st.app.config.redactSecretsForApi sec)
  | none => .json (errorJson "unknown config section")

/-- The members with the value of a name replaced. -/
def setMember (members : List (String × Json ν)) (name : String) (value : Json ν) :
    List (String × Json ν) :=
  members.map fun m => if m.1 = name then (name, value) else m

mutual

/-- Merge `overlay` into `target`.  A blank string of the overlay is skipped. -/
def merge : Json ν → Json ν → Json ν
  | .obj t, .obj o => .obj (mergeMembers t o)
  | _, o => o

def mergeMembers : List (String × Json ν) → List (String × Json ν) → List (String × Json ν)
  | t, [] => t
  | t, (_, .str "") :: o => mergeMembers t o
  | t, (k, v) :: o =>
      match t.lookup k with
      | some tv => mergeMembers (setMember t k (merge tv v)) o
      | none => mergeMembers (t ++ [(k, v)]) o

end

/-- The configuration a section `PUT` asks for, before its blank secrets are
filled, or the text of its error. -/
def mergedConfig (name : String) (live : Config) (body : Bytes) : Except String Config :=
  match codecs.value body with
  | .error e => .error ("bad json: " ++ e)
  | .ok incoming =>
      match codecs.toValue live with
      | .ok (.obj members) =>
          match members.lookup name with
          | none => .error "unknown config section"
          | some target =>
              match codecs.fromValue (.obj (setMember members name (merge target incoming))) with
              | .ok cfg => .ok cfg
              | .error e => .error ("invalid config: " ++ e)
      | .ok _ => .error "unknown config section"
      | .error _ => .error "config serialize failed"

def configSectionPut (name : String) (st : AppState) (body : Bytes) : AppState × String :=
  match mergedConfig codecs name st.app.config body with
  | .error text => (st, errorJson text)
  | .ok cfg => saveAndReplace codecs env st cfg

end Handlers

end WebApi

/-! ## The router -/

inductive Method where
  | get
  | put
  | post
  | other (name : String)
deriving DecidableEq, Repr

/-- A request.  The query is what the extractor makes of it: nothing where it
refuses it, and else the value of `all`. -/
structure WebRequest where
  method : Method
  path : List String
  query : Option (Option String) := some none
  authorization : Option String := none
  body : Body

inductive WebResponse where
  | page
  /-- The log stream, over a websocket. -/
  | logs
  | api (response : WebApi.ApiResp)
  /-- An extractor refused the request. -/
  | rejected
  | methodNotAllowed
  | notFound

/-- The routes, with the segment they capture. -/
inductive Route where
  | index
  | logs
  | ota
  | api (seg : String)
  | config (seg : String)
  | wifi (seg : String)
  | alarm (seg : String)
  | webhooks (seg : String)
deriving DecidableEq, Repr

/-- A segment is captured in a string of 24 bytes. -/
def Route.capture (route : String → Route) (seg : String) : Option Route :=
  if seg.utf8ByteSize ≤ 24 then some (route seg) else none

def Route.parse : List String → Option Route
  | [] => some .index
  | ["ws", "logs"] => some .logs
  | ["api", "ota"] => some .ota
  | ["api", seg] => capture .api seg
  | ["api", "config", seg] => capture .config seg
  | ["api", "wifi", seg] => capture .wifi seg
  | ["api", "alarm", seg] => capture .alarm seg
  | ["api", "webhooks", seg] => capture .webhooks seg
  | _ => none

namespace AppState

variable {ν : Type} (codecs : WebCodecs ν) (env : WebEnv)

/-- A handler that answers with JSON and takes the whole body. -/
def withBody (handler : AppState → Bytes → AppState × String) (st : AppState) (body : Body) :
    AppState × WebResponse :=
  match body.readAll with
  | none => (st, .rejected)
  | some bytes =>
      let (st, text) := handler st bytes
      (st, .api (.json text))

/-- `POST /api/ota`. -/
def otaPost (st : AppState) (body : Body) : AppState × WebResponse :=
  let (report, ota, rebootRequested) := Ota.writeImage env.ota st.ota st.rebootRequested body
  ({ st with ota, rebootRequested },
    .api (.json
      (if report.ok then
        "\x7b\"result\":\"ok\",\"detail\":\"" ++ report.detail ++ "\"\x7d"
      else WebApi.errorJson report.detail)))

/-- Answer a request. -/
def call (st : AppState) (req : WebRequest) : AppState × WebResponse :=
  match Route.parse req.path with
  | none => (st, .notFound)
  | some route =>
      match route, req.method with
      | .index, .get => (st, .page)
      | .logs, .get => (st, .logs)
      | .ota, .post => otaPost env st req.body
      | .api seg, .get =>
          match req.query with
          | none => (st, .rejected)
          | some all => (st, .api (WebApi.apiGet codecs env seg st all.isSome))
      | .api seg, .put => withBody (WebApi.apiPut codecs env seg) st req.body
      | .api seg, .post => withBody (WebApi.apiPost codecs env seg) st req.body
      | .config seg, .get => (st, .api (WebApi.configSectionGet seg st))
      | .config seg, .put => withBody (WebApi.configSectionPut codecs env seg) st req.body
      | .wifi seg, .get =>
          (st, .api (.json (if seg = "scan" then env.scan else WebApi.wifiGet seg)))
      | .wifi seg, .post => (st, .api (WebApi.wifiPost seg))
      | .alarm seg, .post =>
          let (st, response) := WebApi.alarmPost env seg st
          (st, .api response)
      | .webhooks seg, .post => withBody (WebApi.webhooksPost codecs env seg) st req.body
      | _, _ => (st, .methodNotAllowed)

end AppState

end WaterController
