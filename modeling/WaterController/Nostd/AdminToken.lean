import WaterController.Config.Redaction
import WaterController.Firmware.RoundTrip
import WaterController.Nostd.Device

/-!
# The admin token and the no_std API

A device with a token should do nothing for a request that does not show it.  The
no_std API reads the token nowhere.  So what a request without it does is what any
request does, and the question is which requests do nothing at all.

`Harmless` lists them, route by route.  A request without the token leaves the
device untouched and learns no secret if and only if it is one of these
(`guarded_iff`).
-/

namespace WaterController

open FlashKv (FlashOutcome)

/-! ## Writes that keep the store -/

namespace FlashKv

/-- The map a call leaves fits the region, and the flash takes it. -/
def Accepts (kv : FlashKv) (call : Call) (outcome : FlashOutcome) : Prop :=
  (image (call.apply kv.cache)).length ≤ regionLen ∧ outcome = .stored

/-- A rewrite of the region ends with what it held. -/
def RewritesSame (kv : FlashKv) : FlashOutcome → Prop
  | .stored => Region.erased.write (image kv.cache) = kv.flash
  | .eraseFails left | .writeFails left => left = kv.flash

/-- A call asks for what the store holds already, and the region ends as it was. -/
def Keeps (kv : FlashKv) (call : Call) (outcome : FlashOutcome) : Prop :=
  kv.get call.key = call.value ∧
    ((image kv.cache).length ≤ regionLen → kv.RewritesSame outcome)

theorem perform_ok_iff (kv : FlashKv) (call : Call) (outcome : FlashOutcome) :
    (kv.perform call outcome).1 = .ok () ↔ kv.Accepts call outcome := by
  rw [perform_eq]
  exact flush_eq_ok_iff _ _ _

/-- A call leaves the store as it was if and only if it keeps it. -/
theorem perform_keeps_iff (kv : FlashKv) (call : Call) (outcome : FlashOutcome) :
    ((∀ key, (kv.perform call outcome).2.get key = kv.get key) ∧
      (kv.perform call outcome).2.flash = kv.flash) ↔ kv.Keeps call outcome := by
  rw [reads_same_iff, Keeps]
  refine and_congr_right fun hheld => ?_
  have himage : image (call.apply kv.cache) = image kv.cache := by
    have h := cache_equiv_of_held hheld outcome
    rw [perform_eq] at h
    exact image_congr h
  rw [perform_eq]
  simp only [flush, himage]
  by_cases hfit : (image kv.cache).length ≤ regionLen
  · rw [if_neg (Nat.not_lt.mpr hfit), forall_prop_of_true hfit]
    cases outcome <;> exact .rfl
  · rw [if_pos (Nat.lt_of_not_le hfit)]
    exact iff_of_true rfl fun h => absurd h hfit

end FlashKv

/-! ## Commands that change nothing -/

/-- The switch is as a command would leave it. -/
def TimedSwitch.Rests (s : TimedSwitch) : Bool → Prop
  | true => s.on = true
  | false => s.on = false ∧ s.onSince = none ∧ s.overrideAutoOff = none

/-- The valve refuses or ignores a command: it is in a sequence, or where the
command would take it. -/
def WaterValve.Rests (v : WaterValve) (on : Bool) : Prop :=
  match v.phase with
  | .idle => v.userState = on
  | .draining _ => on = false
  | .turningOn _ | .turningOff _ => True

/-- A command finds its switch as it would leave it. -/
def App.Rests (app : App) : SwitchCommand → Prop
  | .sprinkler1 on => app.sprinkler1.Rests on
  | .sprinkler2 on => app.sprinkler2.Rests on
  | .waterControl on => app.valve.Rests on

/-- The components run with the values of the configuration. -/
def App.InSync (app : App) : Prop :=
  app.sprinkler1.autoOff = App.autoOffOrNone app.config.switches.sprinkler1AutoOffSecs ∧
    app.sprinkler2.autoOff = App.autoOffOrNone app.config.switches.sprinkler2AutoOffSecs ∧
    app.valve.timing = app.config.switches.valveTiming

theorem setSprinkler_eq_iff (s : TimedSwitch) (now : Nat) (on : Bool) :
    App.setSprinkler s now on = s ↔ s.Rests on := by
  obtain ⟨isOn, onSince, autoOff, overrideAutoOff⟩ := s
  cases on with
  | true => cases isOn <;> simp [App.setSprinkler, TimedSwitch.turnOn, TimedSwitch.Rests]
  | false =>
      simp [App.setSprinkler, TimedSwitch.turnOff, TimedSwitch.Rests, eq_comm]

theorem waterControl_eq_iff (v : WaterValve) (now : Nat) (on : Bool) :
    (if on then v.turnOn now else v.turnOff now) = v ↔ v.Rests on := by
  obtain ⟨phase, userState, timing⟩ := v
  cases phase with
  | idle =>
      cases on <;> cases userState <;>
        simp [WaterValve.turnOn, WaterValve.turnOff, WaterValve.Rests]
  | draining startMs =>
      cases on <;> simp [WaterValve.turnOn, WaterValve.turnOff, WaterValve.Rests]
  | turningOn startMs | turningOff startMs =>
      cases on <;> simp [WaterValve.turnOn, WaterValve.turnOff, WaterValve.Rests]

/-! ## What a request leaves -/

namespace AppState

/-- Nothing that the token protects has changed: the configuration, the valve, the
switches and the alarm of the application, what the store holds in memory and in
flash, the update slots and the reboot signal. -/
@[mk_iff]
structure Untouched (st st' : AppState) : Prop where
  config : st'.app.config = st.app.config
  valve : st'.app.valve = st.app.valve
  sprinkler1 : st'.app.sprinkler1 = st.app.sprinkler1
  sprinkler2 : st'.app.sprinkler2 = st.app.sprinkler2
  state : st'.app.state = st.app.state
  alarmHistory : st'.app.alarmHistory = st.app.alarmHistory
  reads : ∀ key, st'.flashKv.get key = st.flashKv.get key
  flash : st'.flashKv.flash = st.flashKv.flash
  ota : st'.ota = st.ota
  rebootRequested : st'.rebootRequested = st.rebootRequested

theorem Untouched.refl (st : AppState) : st.Untouched st :=
  ⟨rfl, rfl, rfl, rfl, rfl, rfl, fun _ => rfl, rfl, rfl, rfl⟩

end AppState

namespace WebApi

variable {ν : Type}

/-- The view of the redacted configuration. -/
def JsonView.redacted : JsonView → JsonView
  | .fullConfig cfg => .fullConfig cfg.redactSecretsForApi
  | .redactedConfig cfg => .redactedConfig cfg.redactSecretsForApi
  | .section cfg sec => .section cfg.redactSecretsForApi sec

/-- The response shows a field that redaction blanks: redacted, it is another.  The
texts that are not streamed are made without the configuration, or quote the
request. -/
def ApiResp.Discloses (N : Json.Numbers ν) (build : BuildEnv) : ApiResp → Prop
  | .stream view => view.serialize N build ≠ view.redacted.serialize N build
  | .json _ | .noContent => False

end WebApi

def WebResponse.Discloses {ν : Type} (N : Json.Numbers ν) (build : BuildEnv) :
    WebResponse → Prop
  | .api response => response.Discloses N build
  | _ => False

/-! ## The requests that do no harm -/

namespace AppState

open WebApi

variable {ν : Type} (codecs : WebCodecs ν) (env : WebEnv)

/-- A configuration that a `PUT` brings is not written, or is the one in the store
and, where the flash takes it, the one in use. -/
def SaveHarmless (st : AppState) (incoming : Config) : Prop :=
  ∀ bytes, codecs.config.toVec (incoming.restoreSecretsFrom st.app.config) = .ok bytes →
    st.flashKv.Keeps (.set Config.nvsKey bytes) env.flash ∧
      (st.flashKv.Accepts (.set Config.nvsKey bytes) env.flash →
        incoming.restoreSecretsFrom st.app.config = st.app.config ∧ st.app.InSync)

/-- `PUT /api/<seg>`. -/
def PutHarmless (st : AppState) (seg : String) (body : Bytes) : Prop :=
  seg = "config" → ∀ incoming, codecs.config.fromSlice body = .ok incoming →
    st.SaveHarmless codecs env incoming

/-- `PUT /api/config/<section>`. -/
def SectionHarmless (st : AppState) (seg : String) (body : Bytes) : Prop :=
  ∀ incoming, mergedConfig codecs seg st.app.config body = .ok incoming →
    st.SaveHarmless codecs env incoming

/-- `POST /api/<seg>`. -/
def PostHarmless (st : AppState) (seg : String) (body : Bytes) : Prop :=
  (seg = "switch" → ∀ cmd, codecs.switchCommand body = .ok cmd → st.app.Rests cmd) ∧
    (seg = "factory_reset" →
      st.flashKv.Keeps (.remove Config.nvsKey) env.flash ∧
        (st.flashKv.Accepts (.remove Config.nvsKey) env.flash → st.rebootRequested = true))

/-- The requests that do no harm. -/
def Harmless (st : AppState) (req : WebRequest) : Prop :=
  match Route.parse req.path, req.method with
  | some (.api seg), .get => seg = "config" → ∀ all, req.query ≠ some (some all)
  | some (.api seg), .put =>
      ∀ body, req.body.readAll = some body → st.PutHarmless codecs env seg body
  | some (.api seg), .post =>
      ∀ body, req.body.readAll = some body → st.PostHarmless codecs env seg body
  | some (.config seg), .put =>
      ∀ body, req.body.readAll = some body → st.SectionHarmless codecs env seg body
  | some (.alarm seg), .post => seg = "clear" → st.app.state.alarm = {}
  | some .ota, .post => Ota.Harmless env.ota st.ota st.rebootRequested req.body
  | _, _ => True

/-! ## Saves -/

theorem untouched_withKv_iff (st : AppState) (call : FlashKv.Call) (outcome : FlashOutcome) :
    st.Untouched (st.withKv (st.flashKv.perform call outcome).2) ↔
      st.flashKv.Keeps call outcome := by
  rw [untouched_iff, ← FlashKv.perform_keeps_iff]
  simp [withKv]

/-- What a call of the store leaves that something follows where the flash takes it. -/
theorem untouched_perform_iff {st after : AppState} {call : FlashKv.Call} {outcome : FlashOutcome}
    {P : Prop}
    (hafter : st.Untouched after ↔
      st.Untouched (st.withKv (st.flashKv.perform call outcome).2) ∧ P) :
    st.Untouched
        (match (st.flashKv.perform call outcome).1 with
          | .error _ => st.withKv (st.flashKv.perform call outcome).2
          | .ok () => after) ↔
      st.flashKv.Keeps call outcome ∧ (st.flashKv.Accepts call outcome → P) := by
  have haccepts := FlashKv.perform_ok_iff st.flashKv call outcome
  rw [← untouched_withKv_iff]
  cases hresult : (st.flashKv.perform call outcome).1 with
  | error e =>
      have hrefused : ¬ st.flashKv.Accepts call outcome := by
        rw [← haccepts, hresult]
        simp
      simp only [hrefused, false_implies, and_true]
  | ok u => simp only [hafter, haccepts.mp hresult, true_implies]

/-- What installing the configuration behind a save leaves. -/
theorem untouched_replaceConfig_iff (st : AppState) (kv : FlashKv) (clock : Env)
    (cfg : Config) :
    st.Untouched { st.withKv kv with app := (st.withKv kv).app.replaceConfig clock cfg } ↔
      st.Untouched (st.withKv kv) ∧ cfg = st.app.config ∧ st.app.InSync := by
  constructor
  · intro h
    have hcfg : cfg = st.app.config := h.config
    have hone := congrArg (·.autoOff) h.sprinkler1
    have htwo := congrArg (·.autoOff) h.sprinkler2
    have hvalve := congrArg (·.timing) h.valve
    subst hcfg
    exact ⟨{ Untouched.refl st with reads := h.reads, flash := h.flash }, rfl, hone.symm,
      htwo.symm, hvalve.symm⟩
  · rintro ⟨h, rfl, hone, htwo, hvalve⟩
    refine { h with valve := ?_, sprinkler1 := ?_, sprinkler2 := ?_ }
    · simp [App.replaceConfig, App.replaceConfigSection, App.emitEvent, withKv,
        WaterValve.setTiming, ← hvalve]
    · simp [App.replaceConfig, App.replaceConfigSection, App.emitEvent, withKv,
        TimedSwitch.setAutoOff, ← hone]
    · simp [App.replaceConfig, App.replaceConfigSection, App.emitEvent, withKv,
        TimedSwitch.setAutoOff, ← htwo]

/-- A configuration that cannot be written as JSON is not saved. -/
theorem saveAndReplace_error {st : AppState} {incoming : Config} {e : String}
    (hto : codecs.config.toVec (incoming.restoreSecretsFrom st.app.config) = .error e) :
    (saveAndReplace codecs env st incoming).1 = st.withKv st.flashKv := by
  simp only [saveAndReplace, Config.saveTo, hto]

/-- A configuration is installed behind a save that the store takes. -/
theorem saveAndReplace_saved {st : AppState} {incoming : Config} {bytes : Bytes}
    (hto : codecs.config.toVec (incoming.restoreSecretsFrom st.app.config) = .ok bytes) :
    (saveAndReplace codecs env st incoming).1 =
      let saved := st.flashKv.perform (.set Config.nvsKey bytes) env.flash
      match saved.1 with
      | .error _ => st.withKv saved.2
      | .ok () =>
          { st.withKv saved.2 with
            app := (st.withKv saved.2).app.replaceConfig env.env
              (incoming.restoreSecretsFrom st.app.config) } := by
  simp only [saveAndReplace, Config.saveTo, hto, FlashKv.perform]
  cases (st.flashKv.set Config.nvsKey bytes env.flash).1 with
  | error e => rfl
  | ok u => rfl

theorem saveAndReplace_untouched_iff (st : AppState) (incoming : Config) :
    st.Untouched (saveAndReplace codecs env st incoming).1 ↔
      st.SaveHarmless codecs env incoming := by
  rw [SaveHarmless]
  cases hto : codecs.config.toVec (incoming.restoreSecretsFrom st.app.config) with
  | error e =>
      rw [saveAndReplace_error codecs env hto]
      refine iff_of_true ?_ fun bytes h => by cases h
      exact { Untouched.refl st with }
  | ok bytes =>
      rw [saveAndReplace_saved codecs env hto]
      simp only [Except.ok.injEq, forall_eq']
      exact untouched_perform_iff (untouched_replaceConfig_iff st _ env.env _)

/-! ## Handlers -/

theorem apiPut_untouched_iff (st : AppState) (seg : String) (body : Bytes) :
    st.Untouched (apiPut codecs env seg st body).1 ↔ st.PutHarmless codecs env seg body := by
  rw [PutHarmless]
  by_cases hseg : seg = "config"
  · subst hseg
    cases hfrom : codecs.config.fromSlice body with
    | error e => simp [apiPut, hfrom, Untouched.refl]
    | ok incoming => simp [apiPut, hfrom, saveAndReplace_untouched_iff]
  · have hother : (apiPut codecs env seg st body).1 = st := by
      simp [apiPut]
    rw [hother]
    exact iff_of_true (.refl st) fun h => absurd h hseg

theorem configSectionPut_untouched_iff (st : AppState) (seg : String) (body : Bytes) :
    st.Untouched (configSectionPut codecs env seg st body).1 ↔
      st.SectionHarmless codecs env seg body := by
  rw [SectionHarmless]
  cases hmerged : mergedConfig codecs seg st.app.config body with
  | error text => simp [configSectionPut, hmerged, Untouched.refl]
  | ok cfg => simp [configSectionPut, hmerged, saveAndReplace_untouched_iff]

/-- A command leaves the device alone exactly when its switch rests. -/
theorem switchCommand_untouched_iff (st : AppState) (clock : Env) (cmd : SwitchCommand) :
    st.Untouched { st with app := (st.app.switchCommand clock cmd).1 } ↔ st.app.Rests cmd := by
  cases cmd with
  | sprinkler1 on =>
      rw [App.Rests, ← setSprinkler_eq_iff _ clock.monotonicMs]
      exact ⟨fun h => h.sprinkler1,
        fun h => { Untouched.refl st with sprinkler1 := h }⟩
  | sprinkler2 on =>
      rw [App.Rests, ← setSprinkler_eq_iff _ clock.monotonicMs]
      exact ⟨fun h => h.sprinkler2,
        fun h => { Untouched.refl st with sprinkler2 := h }⟩
  | waterControl on =>
      rw [App.Rests, ← waterControl_eq_iff st.app.valve clock.monotonicMs]
      rw [App.switchCommand_waterControl]
      exact ⟨fun h => h.valve,
        fun h => { Untouched.refl st with valve := h }⟩

/-- What a factory reset leaves. -/
theorem factoryReset_untouched_iff (st : AppState) (body : Bytes) :
    st.Untouched (apiPost codecs env "factory_reset" st body).1 ↔
      st.flashKv.Keeps (.remove Config.nvsKey) env.flash ∧
        (st.flashKv.Accepts (.remove Config.nvsKey) env.flash → st.rebootRequested = true) := by
  have hreset : (apiPost codecs env "factory_reset" st body).1 =
      let erased := st.flashKv.perform (.remove Config.nvsKey) env.flash
      match erased.1 with
      | .error _ => st.withKv erased.2
      | .ok () => { st.withKv erased.2 with rebootRequested := true } := by
    simp only [apiPost, Config.factoryResetIn, FlashKv.perform]
    cases (st.flashKv.remove Config.nvsKey env.flash).1 with
    | error e => rfl
    | ok u => rfl
  rw [hreset]
  refine untouched_perform_iff ⟨fun h => ?_, fun ⟨h, hreboot⟩ => ?_⟩
  · exact ⟨{ Untouched.refl st with reads := h.reads, flash := h.flash }, h.rebootRequested.symm⟩
  · exact { h with rebootRequested := hreboot.symm }

theorem apiPost_untouched_iff (st : AppState) (seg : String) (body : Bytes) :
    st.Untouched (apiPost codecs env seg st body).1 ↔ st.PostHarmless codecs env seg body := by
  rw [PostHarmless]
  by_cases hswitch : seg = "switch"
  · subst hswitch
    cases hcmd : codecs.switchCommand body with
    | error e => simp [apiPost, hcmd, Untouched.refl]
    | ok cmd => simp [apiPost, hcmd, switchCommand_untouched_iff]
  by_cases hreset : seg = "factory_reset"
  · subst hreset
    simp [factoryReset_untouched_iff]
  · have hother : (apiPost codecs env seg st body).1 = st := by
      simp [apiPost]
    rw [hother]
    exact iff_of_true (.refl st) ⟨fun h => absurd h hswitch, fun h => absurd h hreset⟩

theorem alarmPost_untouched_iff (st : AppState) (seg : String) :
    st.Untouched (alarmPost env seg st).1 ↔ (seg = "clear" → st.app.state.alarm = {}) := by
  by_cases hseg : seg = "clear"
  · subst hseg
    have hclear := App.clearFlowAlarm_frame st.app env.env
    rw [forall_prop_of_true rfl]
    constructor
    · intro h
      have halarm := congrArg (·.alarm) h.state
      simp only [alarmPost] at halarm
      rw [hclear] at halarm
      exact halarm.symm
    · intro h
      simp only [alarmPost]
      rw [hclear]
      refine { Untouched.refl st with state := ?_ }
      simp only [← h]
  · have hother : (alarmPost env seg st).1 = st := by
      simp [alarmPost]
    rw [hother]
    exact iff_of_true (.refl st) fun h => absurd h hseg

theorem webhooksPost_untouched (st : AppState) (seg : String) (body : Bytes) :
    st.Untouched (webhooksPost codecs env seg st body).1 := by
  rw [webhooksPost]
  split
  · exact .refl st
  · cases codecs.testReq body with
    | error e => exact .refl st
    | ok tr => exact { Untouched.refl st with }

theorem otaPost_untouched_iff (st : AppState) (body : Body) :
    st.Untouched (otaPost env st body).1 ↔
      Ota.Harmless env.ota st.ota st.rebootRequested body := by
  rw [← Ota.writeImage_eq_iff]
  constructor
  · intro h
    exact Prod.ext h.ota h.rebootRequested
  · intro h
    exact
      { Untouched.refl st with
        ota := congrArg Prod.fst h
        rebootRequested := congrArg Prod.snd h }

/-- A handler behind the extractor of the whole body is as its calls are. -/
theorem withBody_untouched_iff {handler : AppState → Bytes → AppState × String} {st : AppState}
    {P : Bytes → Prop} (h : ∀ bytes, st.Untouched (handler st bytes).1 ↔ P bytes) (body : Body) :
    st.Untouched (withBody handler st body).1 ↔ ∀ bytes, body.readAll = some bytes → P bytes := by
  rw [withBody]
  cases hread : body.readAll with
  | none => exact iff_of_true (.refl st) fun bytes hbytes => by cases hbytes
  | some bytes => simp [h bytes]

/-! ## Responses -/

/-- Only the whole configuration, read with its token, shows what redaction
blanks. -/
theorem not_discloses_redacted (N : Json.Numbers ν) (build : BuildEnv) (cfg : Config) :
    ¬ (ApiResp.stream (.redactedConfig cfg.redactSecretsForApi)).Discloses N build := by
  intro h
  refine h ?_
  rw [JsonView.redacted, (Config.redacted_redactSecretsForApi cfg).blank]

theorem not_discloses_section (N : Json.Numbers ν) (build : BuildEnv) (seg : String)
    (st : AppState) : ¬ (configSectionGet seg st).Discloses N build := by
  rw [configSectionGet]
  cases Section.parse seg with
  | none => exact id
  | some sec =>
      intro h
      refine h ?_
      rw [JsonView.redacted, (Config.redacted_redactSecretsForApi st.app.config).blank]

/-- The whole configuration of a device with a token shows the token. -/
theorem discloses_fullConfig (N : Json.Numbers ν) (build : BuildEnv) {cfg : Config}
    (htoken : cfg.adminToken ≠ "") : (ApiResp.stream (.fullConfig cfg)).Discloses N build := by
  intro h
  refine htoken ?_
  have hmember := congrArg (List.lookup "admin_token") (Json.obj.inj h)
  have hstr : (Json.str cfg.adminToken : Json ν) = Json.str "" := Option.some.inj hmember
  exact Json.str.inj hstr

theorem not_discloses_withBody (N : Json.Numbers ν) (build : BuildEnv)
    (handler : AppState → Bytes → AppState × String) (st : AppState) (body : Body) :
    ¬ (withBody handler st body).2.Discloses N build := by
  rw [withBody]
  cases body.readAll with
  | none => exact id
  | some bytes => exact id

theorem not_discloses_alarmPost (st : AppState) (seg : String) :
    ¬ (alarmPost env seg st).2.Discloses codecs.numbers codecs.build := by
  unfold alarmPost
  split <;> exact id

theorem not_discloses_wifiPost (N : Json.Numbers ν) (build : BuildEnv) (seg : String) :
    ¬ (wifiPost seg).Discloses N build := by
  unfold wifiPost
  split <;> exact id

/-- A request with a body does no harm exactly when its handler does none. -/
theorem withBody_harmless_iff (N : Json.Numbers ν) (build : BuildEnv)
    {handler : AppState → Bytes → AppState × String} {st : AppState} {P : Bytes → Prop}
    (h : ∀ bytes, st.Untouched (handler st bytes).1 ↔ P bytes) (body : Body) :
    (st.Untouched (withBody handler st body).1 ∧
      ¬ (withBody handler st body).2.Discloses N build) ↔
      ∀ bytes, body.readAll = some bytes → P bytes :=
  (and_iff_left (not_discloses_withBody N build handler st body)).trans
    (withBody_untouched_iff h body)

/-- What a `GET` of the prefix route answers. -/
theorem apiGet_discloses_iff (st : AppState) (seg : String) (all : Bool)
    (htoken : st.app.config.adminToken ≠ "") :
    (apiGet codecs env seg st all).Discloses codecs.numbers codecs.build ↔
      seg = "config" ∧ all = true := by
  by_cases hconfig : seg = "config"
  · subst hconfig
    cases all with
    | true => exact iff_of_true (discloses_fullConfig _ _ htoken) ⟨rfl, rfl⟩
    | false => exact iff_of_false (not_discloses_redacted _ _ _) (by simp)
  · refine iff_of_false ?_ fun h => hconfig h.1
    unfold apiGet
    split <;> first | exact id | exact absurd rfl hconfig

/-! ## The token -/

/-- A request that does not show the token of a device that has one leaves the
device untouched, and its response shows nothing that redaction blanks. -/
def Guarded (st : AppState) (req : WebRequest) : Prop :=
  requireAuth st.app ⟨req.authorization, req.body.arrived⟩ = false →
    st.Untouched (st.call codecs env req).1 ∧
      ¬ (st.call codecs env req).2.Discloses codecs.numbers codecs.build

/-- Whether a request does harm has nothing to do with the header it comes with. -/
theorem call_harmless_iff (st : AppState) (req : WebRequest)
    (htoken : st.app.config.adminToken ≠ "") :
    (st.Untouched (st.call codecs env req).1 ∧
      ¬ (st.call codecs env req).2.Discloses codecs.numbers codecs.build) ↔
      st.Harmless codecs env req := by
  unfold call Harmless
  have hidle : ∀ response : WebResponse,
      ¬ response.Discloses codecs.numbers codecs.build →
        (st.Untouched st ∧ ¬ response.Discloses codecs.numbers codecs.build) :=
    fun _ h => ⟨.refl st, h⟩
  cases Route.parse req.path with
  | none => exact iff_of_true (hidle .notFound id) trivial
  | some route =>
      cases hmethod : req.method with
      | get =>
          cases route with
          | api seg =>
              cases hquery : req.query with
              | none => exact iff_of_true (hidle .rejected id) (by simp)
              | some all =>
                  simp only [WebResponse.Discloses, apiGet_discloses_iff codecs env st seg _ htoken]
                  cases all <;> simp [Untouched.refl]
          | config seg =>
              exact iff_of_true (hidle (.api _) (not_discloses_section _ _ seg st)) trivial
          | index | logs | ota | wifi seg | alarm seg | webhooks seg =>
              exact iff_of_true ⟨.refl st, id⟩ trivial
      | put =>
          cases route with
          | api seg =>
              exact withBody_harmless_iff _ _ (apiPut_untouched_iff codecs env st seg) req.body
          | config seg =>
              exact withBody_harmless_iff _ _ (configSectionPut_untouched_iff codecs env st seg)
                req.body
          | index | logs | ota | wifi seg | alarm seg | webhooks seg =>
              exact iff_of_true ⟨.refl st, id⟩ trivial
      | post =>
          cases route with
          | ota =>
              exact (and_iff_left id).trans (otaPost_untouched_iff env st req.body)
          | api seg =>
              exact withBody_harmless_iff _ _ (apiPost_untouched_iff codecs env st seg) req.body
          | alarm seg =>
              exact (and_iff_left (not_discloses_alarmPost codecs env st seg)).trans
                (alarmPost_untouched_iff env st seg)
          | webhooks seg =>
              have hbytes := fun bytes =>
                iff_true_intro (webhooksPost_untouched codecs env st seg bytes)
              exact (withBody_harmless_iff _ _ hbytes req.body).trans (by simp)
          | wifi seg =>
              exact iff_of_true (hidle (.api _) (not_discloses_wifiPost _ _ seg)) trivial
          | index | logs | config seg => exact iff_of_true ⟨.refl st, id⟩ trivial
      | other name => cases route <;> exact iff_of_true ⟨.refl st, id⟩ trivial

/-- The token protects the device from a request if and only if the request shows
it, the device has none, or the request does no harm whoever sends it. -/
theorem guarded_iff (st : AppState) (req : WebRequest) :
    st.Guarded codecs env req ↔
      requireAuth st.app ⟨req.authorization, req.body.arrived⟩ = true ∨
        st.Harmless codecs env req := by
  rw [Guarded]
  cases hauth : requireAuth st.app ⟨req.authorization, req.body.arrived⟩ with
  | true => exact iff_of_true (fun h => by cases h) (.inl rfl)
  | false =>
      have htoken : st.app.config.adminToken ≠ "" := by
        intro hnone
        simp [requireAuth, hnone] at hauth
      rw [forall_prop_of_true rfl, call_harmless_iff codecs env st req htoken]
      simp

end AppState

/-! ## A device with a token -/

/-- The text that opens the valve. -/
def openValve : Bytes := asciiBytes "\x7b\"kind\":\"water_control\",\"on\":true\x7d"

/-- Codecs that read this text and nothing else. -/
def valveCodecs : WebCodecs JsonNumber where
  numbers := jsonNumbers
  build := {}
  config := .fails _
  value _ := .error "other bytes"
  toValue _ := .error "another value"
  fromValue _ := .error "another value"
  switchCommand bytes :=
    if bytes = openValve then .ok (.waterControl true) else .error "other bytes"
  testReq _ := .error "other bytes"
  outcome _ := .error "another value"
  snapshot _ := .error "another value"

/-- The defaults with a token, at the first boot. -/
def AppState.locked : AppState where
  app := .withNvs (.fails _) { Config.default {} with adminToken := "token" }
    (some ⟨fun _ => none⟩)
  flashKv := ⟨.erased, ∅⟩
  ota := ⟨.error "no slot", []⟩
  rebootRequested := false

/-- Without the token a request reads it, another opens the valve, and another
erases the configuration and reboots. -/
theorem AppState.token_unread :
    let read : WebRequest :=
      { method := .get, path := ["api", "config"]
        query := some (some "1")
        body := ⟨0, [], false, true⟩ }
    let command : WebRequest :=
      { method := .post, path := ["api", "switch"]
        body := ⟨openValve.length, openValve, false, true⟩ }
    let reset : WebRequest :=
      { method := .post, path := ["api", "factory_reset"]
        body := ⟨0, [], false, true⟩ }
    ¬ AppState.locked.Guarded valveCodecs .plain read ∧
      ¬ AppState.locked.Guarded valveCodecs .plain command ∧
      ¬ AppState.locked.Guarded valveCodecs .plain reset := by
  intro read command reset
  refine ⟨fun h => ?_, fun h => ?_, fun h => ?_⟩
  · have hshown := (h (by decide)).2
    exact hshown (AppState.discloses_fullConfig _ _ (by decide))
  · have hvalve := (h (by decide)).1.valve
    revert hvalve
    decide +kernel
  · have hreboot := (h (by decide)).1.rebootRequested
    revert hreboot
    decide +kernel

end WaterController
