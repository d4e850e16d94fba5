import WaterController.Firmware.ConfigReads
import WaterController.Firmware.Sections
import WaterController.Firmware.WifiFollows

/-!
# The HTTP server of the std firmware

A handler is registered for a path and a method, and the server gives a request to
the handler of its path and method (`serve`).  The plain server and the one with TLS
register the same handlers.

The token is checked by the handlers, one by one: by each that changes something, and
by the read of the configuration that asks for all of it.  So what a request without
the token can do follows from what each handler does without it (`safe_of_mem`).  The
only thing that it changes is the list of the log subscribers.

An answer always reaches the client here.  Firmware images go to the driver of the
slots, which is a parameter.
-/

namespace WaterController

/-! ## Routes -/

namespace Routes

def status : String := "/api/status"
def config : String := "/api/config"
def switch : String := "/api/switch"
def logsWs : String := "/ws/logs"
def otaUpload : String := "/api/ota"
def factoryReset : String := "/api/factory_reset"
def wifiScan : String := "/api/wifi/scan"
def alarmClear : String := "/api/alarm/clear"
def alarmHistory : String := "/api/alarm/history"
def webhooksTest : String := "/api/webhooks/test"

end Routes

/-- The path of a section. -/
def Firmware.ConfigSection.path : ConfigSection → String
  | wifi => "/api/config/wifi"
  | mqtt => "/api/config/mqtt"
  | switches => "/api/config/switches"
  | sensors => "/api/config/sensors"
  | schedule => "/api/config/schedule"
  | https => "/api/config/https"
  | wireguard => "/api/config/wireguard"
  | time => "/api/config/time"
  | auth => "/api/config/auth"
  | flowAlarm => "/api/config/flow_alarm"
  | webhooks => "/api/config/webhooks"

/-- The sections, in the order they are registered in. -/
def Firmware.ConfigSection.all : List ConfigSection :=
  [wifi, mqtt, switches, sensors, schedule, https, wireguard, time, auth, flowAlarm, webhooks]

theorem Firmware.ConfigSection.mem_all (s : ConfigSection) : s ∈ all := by
  cases s <;> decide

namespace HttpServer

open Firmware (ConfigSection)

/-- The pages that phones and desktops ask for in a network they have just joined. -/
def captiveProbePaths : List String :=
  ["/generate_204", "/gen_204", "/hotspot-detect.html", "/library/test/success.html",
    "/connecttest.txt", "/ncsi.txt", "/redirect", "/success.txt"]

/-! ## Requests and answers -/

inductive HttpMethod where
  | get
  | put
  | post
  | other
deriving DecidableEq, Repr

/-- A request.  The server finds the handler by `path`, which is what `uri` has in front
of the query.  `reads` is what the reads of the body return, one after the other; when
they are through, the body is at its end. -/
structure HttpRequest where
  method : HttpMethod
  path : String
  uri : String
  header : String → Option String
  reads : List (Except String Bytes)

/-- The request as the reads of the configuration see it. -/
def HttpRequest.toGet (req : HttpRequest) : GetRequest := ⟨req.uri, req.header "Authorization"⟩

/-- The request with the body that was read. -/
def HttpRequest.withBody (req : HttpRequest) (body : Bytes) : Request :=
  ⟨req.header "Authorization", body⟩

/-- Read the body.  Reading stops behind the chunk that makes it too large. -/
def readBody : List (Except String Bytes) → Bytes → Except String Bytes
  | [], buf => .ok buf
  | .error e :: _, _ => .error e
  | .ok chunk :: reads, buf =>
      if chunk.isEmpty then .ok buf
      else if maxBody < (buf ++ chunk).length then .ok (buf ++ chunk)
      else readBody reads (buf ++ chunk)

/-- An answer.  `failed` is that of a handler whose read failed, `unmatched` that of a
server without a handler for the request. -/
inductive HttpResponse where
  | page
  | json (status : Nat) (body : Bytes)
  | message (response : Response)
  | redirect (location : String)
  | logs
  | failed (error : String)
  | unmatched
deriving DecidableEq, Repr

/-- What a read of the configuration answers. -/
def HttpResponse.ofRead : ReadResponse → HttpResponse
  | .refused response => .message response
  | .json body => .json 200 body

structure WifiScanResult where
  ssid : String
  rssiDbm : Int8
  auth : String
  channel : UInt8
deriving DecidableEq

/-- The body of a webhook test. -/
structure TestReq where
  kind : EventKind
  vars : Std.TreeMap String String

/-- The codecs of all that the server reads and writes. -/
structure ApiCodecs extends Codecs where
  snapshot : Serde DeviceSnapshot
  switchCommand : Serde SwitchCommand
  outcome : Serde CommandOutcome
  history : Serde (List AlarmEvent)
  scan : Serde (List WifiScanResult)
  testReq : Serde TestReq

/-! ## The state -/

/-- The driver of the slots.  Every operation may change them, also when it fails. -/
structure OtaDriver (σ : Type) where
  new : σ → σ × Except String Unit
  initiateUpdate : σ → σ × Except String Unit
  write : Bytes → σ → σ × Except String Unit
  abort : σ → σ
  complete : σ → σ × Except String Unit

/-- A device behind its servers.  `wsSenders` has the instants at which the log
subscribers came, oldest first. -/
structure ServerState (σ : Type) where
  fw : Firmware
  ota : σ
  rebootScheduled : Bool
  wsSenders : List Nat

/-- A scan waits for the supervisor.  One that finds another scan waiting does not. -/
inductive ScanRun where
  | inFlight
  | timedOut
  | replied (reply : Except String (List WifiScanResult))

/-- `Wifi::scan`.  It has the supervisor look around, and no more. -/
def ScanRun.result : ScanRun → Except String (List WifiScanResult)
  | inFlight => .error "scan already in flight"
  | timedOut => .error "scan timed out"
  | replied reply => reply

/-- How a call of the log socket goes: whether the session is new, whether it takes the
records of the past, and whether it can be kept. -/
structure WsConn where
  isNew : Bool
  replayed : Bool
  detached : Bool

/-- What a request meets: the platform, the diagnostics, the radio and the log session. -/
structure ServerEnv where
  env : Env
  diag : Bytes
  scan : ScanRun
  ws : WsConn

variable {σ : Type}

namespace ServerState

/-- The token is not needed, or the request shows it. -/
def authorizes (st : ServerState σ) (req : HttpRequest) : Bool :=
  requireAuth st.fw.app (req.withBody [])

/-- The state after a call of the application. -/
def call (st : ServerState σ) (codecs : Codecs) (c : Call) : ServerState σ :=
  { st with fw := st.fw.call codecs c }

end ServerState

/-! ## Handlers -/

/-- What a handler does with a request. -/
abbrev Run (σ : Type) := ServerState σ → HttpRequest → ServerState σ × HttpResponse

variable (codecs : ApiCodecs) (driver : OtaDriver σ) (e : ServerEnv)

def getIndex : Run σ := fun st _ => (st, .page)

def getStatus : Run σ := fun st _ => (st, .json 200 (jsonBody codecs.snapshot st.fw.app.state))

def getConfig : Run σ := fun st req =>
  (st, .ofRead (st.fw.getConfig codecs.toCodecs req.toGet))

def getDiag : Run σ := fun st _ => (st, .json 200 e.diag)

/-- `PUT` of the configuration or of a section.  A body that is too large comes to `put`
as far as it was read. -/
def putBody (put : Env → Firmware → Request → Firmware × Response) : Run σ := fun st req =>
  if !st.authorizes req then (st, .message unauthorized)
  else
    match readBody req.reads [] with
    | .error err => (st, .failed err)
    | .ok body =>
        let r := put e.env st.fw (req.withBody body)
        ({ st with fw := r.1 }, .message r.2)

def getSection (s : ConfigSection) : Run σ := fun st _ =>
  (st, .ofRead (Firmware.getSection codecs.toCodecs s st.fw))

def outcomeStatus : CommandOutcome → Nat
  | .ok => 200
  | .busy _ => 409

def postSwitch : Run σ := fun st req =>
  if !st.authorizes req then (st, .message unauthorized)
  else
    match readBody req.reads [] with
    | .error err => (st, .failed err)
    | .ok body =>
        match codecs.switchCommand.fromSlice body with
        | .error err => (st, .message ⟨400, some ("invalid json: " ++ err)⟩)
        | .ok cmd =>
            let outcome := (st.fw.app.switchCommand e.env cmd).2
            (st.call codecs.toCodecs ⟨e.env, .switchCommand cmd⟩,
              .json (outcomeStatus outcome) (jsonBody codecs.outcome outcome))

def wsSenderCap : Nat := 4

/-- A new subscriber.  At the cap the oldest ones go. -/
def subscribe (senders : List Nat) (now : Nat) : List Nat :=
  senders.drop (senders.length + 1 - wsSenderCap) ++ [now]

def wsLogs : Run σ := fun st _ =>
  if e.ws.isNew && e.ws.replayed && e.ws.detached then
    ({ st with wsSenders := subscribe st.wsSenders e.env.monotonicMs }, .logs)
  else (st, .logs)

/-- Write an image as it arrives, and give its length. -/
def writeImage : List (Except String Bytes) → Nat → σ → σ × Except String Nat
  | [], total, ota => (ota, .ok total)
  | .error err :: _, total, ota =>
      (driver.abort ota, .error ("ota recv @ " ++ toString total ++ ": " ++ err))
  | .ok chunk :: reads, total, ota =>
      if chunk.isEmpty then (ota, .ok total)
      else
        match driver.write chunk ota with
        | (ota, .error err) =>
            (driver.abort ota, .error ("ota write @ " ++ toString total ++ ": " ++ err))
        | (ota, .ok ()) => writeImage reads (total + chunk.length) ota

/-- Bring an image into the slot that does not run, and make it the one that boots. -/
def applyImage (reads : List (Except String Bytes)) (ota : σ) : σ × Except Response Nat :=
  match driver.new ota with
  | (ota, .error err) => (ota, .error ⟨500, some ("ota init: " ++ err)⟩)
  | (ota, .ok ()) =>
      match driver.initiateUpdate ota with
      | (ota, .error err) => (ota, .error ⟨500, some ("ota initiate: " ++ err)⟩)
      | (ota, .ok ()) =>
          match writeImage driver reads 0 ota with
          | (ota, .error err) => (ota, .error ⟨500, some err⟩)
          | (ota, .ok 0) => (driver.abort ota, .error ⟨400, some "empty image"⟩)
          | (ota, .ok total) =>
              match driver.complete ota with
              | (ota, .error err) => (ota, .error ⟨500, some ("ota complete: " ++ err)⟩)
              | (ota, .ok ()) => (ota, .ok total)

def postOta : Run σ := fun st req =>
  if !st.authorizes req then (st, .message unauthorized)
  else
    match applyImage driver req.reads st.ota with
    | (ota, .error response) => ({ st with ota }, .message response)
    | (ota, .ok total) =>
        ({ st with ota, rebootScheduled := true },
          .json 202 (asciiBytes ("\x7b\"bytes\":" ++ toString total ++ ",\"result\":\"ok\"\x7d")))

def getProbe : Run σ := fun st _ => (st, .redirect "/")

def getScan : Run σ := fun st _ =>
  match e.scan.result with
  | .ok networks => (st, .json 200 (jsonBody codecs.scan networks))
  | .error msg => (st, .message ⟨503, some msg⟩)

def postReconnect : Run σ := fun st req =>
  if !st.authorizes req then (st, .message unauthorized)
  else ({ st with fw.wifi := st.fw.wifi.reconnect }, .message ⟨204, none⟩)

def postAlarmClear : Run σ := fun st req =>
  if !st.authorizes req then (st, .message unauthorized)
  else (st.call codecs.toCodecs ⟨e.env, .clearFlowAlarm⟩, .message ⟨204, none⟩)

def getAlarmHistory : Run σ := fun st _ =>
  (st, .json 200 (jsonBody codecs.history st.fw.app.alarmHistory))

def postWebhooksTest : Run σ := fun st req =>
  if !st.authorizes req then (st, .message unauthorized)
  else
    match readBody req.reads [] with
    | .error err => (st, .failed err)
    | .ok body =>
        match codecs.testReq.fromSlice body with
        | .ok tr =>
            let ev := { WebhookEvent.new tr.kind with vars := tr.vars }
            (st.call codecs.toCodecs ⟨e.env, .emitEvent ev⟩, .message ⟨202, none⟩)
        | .error err => (st, .message ⟨400, some ("invalid: " ++ err)⟩)

def postFactoryReset : Run σ := fun st req =>
  if !st.authorizes req then (st, .message unauthorized)
  else
    let erased := Config.factoryReset e.env st.fw.nvs
    let st := { st with fw := st.fw.withNvs erased.1 }
    match erased.2 with
    | .error err => (st, .message ⟨500, some ("erase failed: " ++ err.display)⟩)
    | .ok () => ({ st with rebootScheduled := true }, .message ⟨202, none⟩)

/-! ## The server -/

/-- A handler as it is registered. -/
structure Handler (σ : Type) where
  path : String
  method : HttpMethod
  run : Run σ

/-- What a handler is found by. -/
def Handler.key (h : Handler σ) : String × HttpMethod := (h.path, h.method)

def registerSection (s : ConfigSection) : List (Handler σ) :=
  [⟨s.path, .get, getSection codecs s⟩,
    ⟨s.path, .put, putBody e (Firmware.putSection codecs.toCodecs s)⟩]

/-- All handlers, in the order they are registered in. -/
def registerHandlers : List (Handler σ) :=
  [⟨"/", .get, getIndex⟩,
    ⟨Routes.status, .get, getStatus codecs⟩,
    ⟨Routes.config, .get, getConfig codecs⟩,
    ⟨"/api/diag", .get, getDiag e⟩,
    ⟨Routes.config, .put, putBody e fun env fw req => fw.putConfig codecs.toCodecs env req⟩] ++
  ConfigSection.all.flatMap (registerSection codecs e) ++
  [⟨Routes.switch, .post, postSwitch codecs e⟩,
    ⟨Routes.logsWs, .get, wsLogs e⟩,
    ⟨Routes.otaUpload, .post, postOta driver⟩] ++
  captiveProbePaths.map (fun path => ⟨path, .get, getProbe⟩) ++
  [⟨Routes.wifiScan, .get, getScan codecs e⟩,
    ⟨"/api/wifi/reconnect", .post, postReconnect⟩,
    ⟨Routes.alarmClear, .post, postAlarmClear codecs e⟩,
    ⟨Routes.alarmHistory, .get, getAlarmHistory codecs⟩,
    ⟨Routes.webhooksTest, .post, postWebhooksTest codecs e⟩,
    ⟨Routes.factoryReset, .post, postFactoryReset e⟩]

/-- Answer a request. -/
def serve : Run σ := fun st req =>
  match (registerHandlers codecs driver e).find?
      fun h => decide (h.key = (req.path, req.method)) with
  | some h => h.run st req
  | none => (st, .unmatched)

/-! ## Look-up -/

/-- Where no two elements have the same key, a look-up by its key finds an element. -/
theorem find?_key {α κ : Type} [DecidableEq κ] (key : α → κ) {xs : List α}
    (hnodup : (xs.map key).Nodup) {x : α} (hx : x ∈ xs) :
    xs.find? (fun y => decide (key y = key x)) = some x := by
  induction xs with
  | nil => cases hx
  | cons y ys ih =>
      rw [List.map_cons, List.nodup_cons] at hnodup
      cases hx with
      | head => exact List.find?_cons_of_pos (decide_eq_true rfl)
      | tail _ hx =>
          have hne : key y ≠ key x := fun heq =>
            hnodup.1 (heq ▸ List.mem_map_of_mem hx)
          rw [List.find?_cons_of_neg (by simpa using hne)]
          exact ih hnodup.2 hx

/-- Codecs, slots and surroundings in which nothing works. -/
def ApiCodecs.fails : ApiCodecs where
  toCodecs := .fails
  snapshot := .fails _
  switchCommand := .fails _
  outcome := .fails _
  history := .fails _
  scan := .fails _
  testReq := .fails _

def OtaDriver.fails : OtaDriver Unit where
  new _ := ((), .error "no slots")
  initiateUpdate _ := ((), .error "no slots")
  write _ _ := ((), .error "no slots")
  abort _ := ()
  complete _ := ((), .error "no slots")

def ServerEnv.plain (t : Nat) : ServerEnv where
  env := .plain t
  diag := []
  scan := .timedOut
  ws := ⟨true, true, true⟩

/-- Every path and method is registered once. -/
theorem keys_nodup : ((registerHandlers codecs driver e).map Handler.key).Nodup := by
  -- the keys are the same for all parameters
  have hkeys : (registerHandlers codecs driver e).map Handler.key =
      (registerHandlers .fails .fails (.plain 0)).map Handler.key := rfl
  rw [hkeys]
  decide +kernel

/-- A registered handler answers the requests of its path and method. -/
theorem serve_of_mem {h : Handler σ} (hmem : h ∈ registerHandlers codecs driver e)
    (st : ServerState σ) {req : HttpRequest} (hkey : h.key = (req.path, req.method)) :
    serve codecs driver e st req = h.run st req := by
  rw [serve, ← hkey, find?_key Handler.key (keys_nodup codecs driver e) hmem]

/-! ## Without the token -/

/-- A request is refused by a device that has a token, when it does not show it. -/
theorem authorizes_eq_false_iff (st : ServerState σ) (req : HttpRequest) :
    st.authorizes req = false ↔
      st.fw.app.config.adminToken ≠ "" ∧
        req.header "Authorization" ≠ some ("Bearer " ++ st.fw.app.config.adminToken) := by
  rw [ServerState.authorizes, requireAuth, Bool.or_eq_false_iff, decide_eq_false_iff_not]
  refine and_congr ?_ ?_
  · rw [← Bool.not_eq_true, String.isEmpty_iff]
  · show ¬ (req.header "Authorization").getD "" = _ ↔ _
    cases req.header "Authorization" with
    | none =>
        -- no header counts as an empty one, and an empty one shows no token
        simp
    | some header => simp

/-- Nothing changes but the log subscribers: neither the application, with its
configuration, its store, its outputs, its alarm and the events it has dispatched, nor
the supervisor, the slots, or whether a reboot is to come. -/
structure ServerState.Untouched (st st' : ServerState σ) : Prop where
  fw : st'.fw = st.fw
  ota : st'.ota = st.ota
  rebootScheduled : st'.rebootScheduled = st.rebootScheduled

theorem ServerState.Untouched.refl (st : ServerState σ) : st.Untouched st := ⟨rfl, rfl, rfl⟩

/-- What a handler may do, for the token to protect the device. -/
inductive Safe (run : Run σ) : Prop where
  /-- It turns away everybody without the token. -/
  | guarded : (∀ (st : ServerState σ) (req : HttpRequest), st.authorizes req = false →
      run st req = (st, .message unauthorized)) → Safe run
  /-- It changes nothing. -/
  | reads : (∀ (st : ServerState σ) (req : HttpRequest), st.Untouched (run st req).1) → Safe run

theorem Safe.untouched {run : Run σ} (h : Safe run) {st : ServerState σ} {req : HttpRequest}
    (hauth : st.authorizes req = false) : st.Untouched (run st req).1 := by
  cases h with
  | guarded h =>
      rw [h st req hauth]
      exact .refl st
  | reads h => exact h st req

/-- A handler that begins with the check. -/
theorem safe_of_check {run rest : Run σ}
    (h : ∀ (st : ServerState σ) (req : HttpRequest),
      run st req = if !st.authorizes req then (st, .message unauthorized) else rest st req) :
    Safe run :=
  .guarded fun st req hauth => by rw [h, hauth]; rfl

/-- A handler that keeps the state. -/
theorem safe_of_keeps {run : Run σ}
    (h : ∀ (st : ServerState σ) (req : HttpRequest), (run st req).1 = st) : Safe run :=
  .reads fun st req => (h st req).symm ▸ .refl st

theorem safe_getScan : Safe (getScan codecs e : Run σ) :=
  safe_of_keeps fun st req => by
    rw [getScan]
    split <;> rfl

theorem safe_wsLogs : Safe (wsLogs e : Run σ) :=
  .reads fun st req => by
    rw [wsLogs]
    split <;> exact ⟨rfl, rfl, rfl⟩

theorem safe_registerSection (s : ConfigSection) :
    ∀ h ∈ (registerSection codecs e s : List (Handler σ)), Safe h.run := by
  simp only [registerSection, List.forall_mem_cons, List.not_mem_nil, IsEmpty.forall_iff,
    implies_true, and_true]
  exact ⟨safe_of_keeps fun _ _ => rfl, safe_of_check fun _ _ => rfl⟩

/-- Every registered handler protects the device. -/
theorem safe_of_mem : ∀ h ∈ registerHandlers codecs driver e, Safe h.run := by
  simp only [registerHandlers, List.forall_mem_append, List.forall_mem_cons, List.forall_mem_map,
    List.forall_mem_flatMap, List.not_mem_nil, IsEmpty.forall_iff, implies_true, and_true]
  refine ⟨⟨⟨⟨?base, ?sections⟩, ?control⟩, ?probes⟩, ?rest⟩
  case base =>
    exact ⟨safe_of_keeps fun _ _ => rfl, safe_of_keeps fun _ _ => rfl,
      safe_of_keeps fun _ _ => rfl, safe_of_keeps fun _ _ => rfl, safe_of_check fun _ _ => rfl⟩
  case sections => exact fun s _ => safe_registerSection codecs e s
  case control =>
    exact ⟨safe_of_check fun _ _ => rfl, safe_wsLogs e, safe_of_check fun _ _ => rfl⟩
  case probes => exact fun _ _ => safe_of_keeps fun _ _ => rfl
  case rest =>
    exact ⟨safe_getScan codecs e, safe_of_check fun _ _ => rfl, safe_of_check fun _ _ => rfl,
      safe_of_keeps fun _ _ => rfl, safe_of_check fun _ _ => rfl, safe_of_check fun _ _ => rfl⟩

/-- A request that is refused leaves the device alone. -/
theorem serve_untouched {st : ServerState σ} {req : HttpRequest}
    (hauth : st.authorizes req = false) : st.Untouched (serve codecs driver e st req).1 := by
  rw [serve]
  split
  · rename_i h hfind
    exact (safe_of_mem codecs driver e h (List.mem_of_find?_eq_some hfind)).untouched hauth
  · exact .refl st

/-- The `GET` of the configuration without the token. -/
theorem serve_getConfig {st : ServerState σ} {req : HttpRequest}
    (hauth : st.authorizes req = false) (hmethod : req.method = .get)
    (hpath : req.path = Routes.config) :
    (serve codecs driver e st req).2 =
      if req.toGet.wantsAll then .message unauthorized
      else .json 200 (jsonBody codecs.config st.fw.app.config.redactSecretsForApi) := by
  have hmem : ⟨Routes.config, .get, getConfig codecs⟩ ∈ registerHandlers codecs driver e := by
    simp [registerHandlers]
  rw [serve_of_mem codecs driver e hmem st (by rw [hmethod, hpath]; rfl)]
  show HttpResponse.ofRead (st.fw.getConfig codecs.toCodecs req.toGet) = _
  rw [Firmware.getConfig]
  split
  · have hrefused : requireAuth st.fw.app ⟨req.toGet.authorization, []⟩ = false := hauth
    rw [hrefused]
    rfl
  · rfl

/-- The `GET` of a section. -/
theorem serve_getSection (s : ConfigSection) (st : ServerState σ) {req : HttpRequest}
    (hmethod : req.method = .get) (hpath : req.path = s.path) :
    (serve codecs driver e st req).2 =
      .json 200 (jsonBody (s.serde codecs.toCodecs)
        (s.read st.fw.app.config.redactSecretsForApi)) := by
  have hmem : ⟨s.path, .get, getSection codecs s⟩ ∈ registerHandlers codecs driver e := by
    have hsection : ⟨s.path, .get, getSection codecs s⟩ ∈
        ConfigSection.all.flatMap (registerSection (σ := σ) codecs e) :=
      List.mem_flatMap.mpr ⟨s, s.mem_all, List.mem_cons_self⟩
    simp only [registerHandlers, List.mem_append]
    exact .inl (.inl (.inl (.inr hsection)))
  rw [serve_of_mem codecs driver e hmem st (by rw [hmethod, hpath]; rfl)]
  cases s <;> rfl

/-- **The admin token.**  Where a device has a token and a request does not show it, the
request leaves the device alone, whatever it asks for.  A `GET` of the configuration or
of a section is answered with the redacted view of it, or not at all. -/
theorem admin_token_guards (st : ServerState σ) (req : HttpRequest)
    (htoken : st.fw.app.config.adminToken ≠ "")
    (hheader : req.header "Authorization" ≠ some ("Bearer " ++ st.fw.app.config.adminToken)) :
    st.Untouched (serve codecs driver e st req).1 ∧
      (req.method = .get → req.path = Routes.config →
        (serve codecs driver e st req).2 =
          if req.toGet.wantsAll then .message unauthorized
          else .json 200 (jsonBody codecs.config st.fw.app.config.redactSecretsForApi)) ∧
      ∀ s : ConfigSection, req.method = .get → req.path = s.path →
        (serve codecs driver e st req).2 =
          .json 200 (jsonBody (s.serde codecs.toCodecs)
            (s.read st.fw.app.config.redactSecretsForApi)) := by
  have hauth : st.authorizes req = false := (authorizes_eq_false_iff st req).mpr ⟨htoken, hheader⟩
  exact ⟨serve_untouched codecs driver e hauth,
    serve_getConfig codecs driver e hauth,
    fun s => serve_getSection codecs driver e s st⟩

/-- A device with a token, and a request for a factory reset with a header. -/
def guardedDevice : ServerState Unit :=
  ⟨.ofConfig .fails { Config.default {} with adminToken := "token" }, (), false, []⟩

def resetRequest (authorization : Option String) : HttpRequest :=
  ⟨.post, Routes.factoryReset, Routes.factoryReset, fun _ => authorization, []⟩

/-- The token alone is no header, and a guess opens no backup. -/
theorem admin_token_guards_guess :
    let backup : HttpRequest :=
      ⟨.get, Routes.config, "/api/config?all", fun _ => some "Bearer guess", []⟩
    guardedDevice.Untouched
        (serve .fails .fails (.plain 0) guardedDevice (resetRequest (some "token"))).1 ∧
      (serve .fails .fails (.plain 0) guardedDevice backup).2 = .message unauthorized := by
  intro backup
  have hreset := admin_token_guards .fails .fails (.plain 0) guardedDevice
    (resetRequest (some "token")) (by decide) (by decide)
  have hbackup := admin_token_guards .fails .fails (.plain 0) guardedDevice backup
    (by decide) (by decide)
  exact ⟨hreset.1, (hbackup.2.1 rfl rfl).trans (if_pos (by decide))⟩

/-- With the token the store is erased, and the device is to boot. -/
example :
    let r := serve .fails .fails (.plain 0) guardedDevice (resetRequest (some "Bearer token"))
    r.1.rebootScheduled = true := by
  decide +kernel

/-! ## The device behind the server -/

/-- What the device does at a factory reset is what the handler does, and the boot that
it schedules. -/
theorem factoryReset_eq (build : BuildEnv) (certgen : Firmware.CertGen) {st : ServerState σ}
    (h : st.rebootScheduled = false) (req : HttpRequest) :
    let after := (postFactoryReset e st req).1
    (st.fw.factoryReset codecs.toCodecs build certgen e.env (req.withBody [])).1 =
      if after.rebootScheduled then
        Firmware.boot codecs.toCodecs build certgen e.env after.fw.nvs
      else after.fw := by
  have hcheck : requireAuth st.fw.app (req.withBody []) = st.authorizes req := rfl
  rw [Firmware.factoryReset, postFactoryReset, hcheck]
  cases st.authorizes req with
  | false => simp [h]
  | true =>
      simp only [Bool.not_true, Bool.false_eq_true, if_false]
      cases (Config.factoryReset e.env st.fw.nvs).2 with
      | error err => simp [h]
      | ok => rfl

end HttpServer

end WaterController
