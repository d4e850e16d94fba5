import WaterController.App.Run
import WaterController.Nostd.WebApi

/-!
# A no_std device

The device answers requests, ticks its application, stores the keys of its other tasks,
and is reset.  A reset loads what the flash holds, or falls back to the defaults.

What is in force comes from a request that is accepted, from a reset, or was there
before.  So where every reset finds a configuration that was accepted before it, or none,
a property of the defaults is one of all configurations in force, as long as those that
are accepted have it (`holds_run`).  Every reset finds one where no call of the store
fails (`reloads_of_storeOk`).
-/

namespace WaterController

open Machines (Machine Transition)
open FlashKv (FlashOutcome)

/-- A platform whose flash stores what it is given. -/
def WebEnv.plain : WebEnv where
  env := .plain 0
  uptimeSecs := 0
  heapFree := 0
  heapUsed := 0
  flash := .stored
  scan := "\x7b\"networks\":[]\x7d"
  ota := ⟨fun _ => none, .error "no slot", []⟩

namespace AppState

variable {ν : Type} (history : Serde (List AlarmEvent)) (codecs : WebCodecs ν)

/-! ## Boot and reset -/

/-- The configuration a boot starts from.  The store is left as it is. -/
def loadOrDefault (kv : FlashKv) : Config :=
  match Config.load codecs.build codecs.config ⟨kv.get⟩ with
  | .ok cfg => cfg
  | .error _ => .default codecs.build

def boot (ota : OtaFlash) (kv : FlashKv) : AppState where
  app := .withNvs history (loadOrDefault codecs kv) (some ⟨kv.get⟩)
  flashKv := kv
  ota := ota
  rebootRequested := false

/-- A reset.  A boot that panics is followed by another one, and the device does not get
any further. -/
def reset (st : AppState) (ota : OtaFlash) : AppState :=
  match FlashKv.boot st.flashKv.flash with
  | .ok kv => boot history codecs ota kv
  | .error _ => st

end AppState

/-! ## The machine -/

/-- What happens to a device.  The calls install no configuration, and the keys that its
tasks store follow as events of their own. -/
inductive DeviceEvent where
  | request (env : WebEnv) (req : WebRequest)
  | call (c : Call) (h : c.op.installs = false)
  | store (call : FlashKv.Call) (h : call.key ≠ Config.nvsKey) (outcome : FlashOutcome)
  /-- `config reset` at the serial console. -/
  | configReset (outcome : FlashOutcome)
  | reset (ota : OtaFlash)

/-- The device. -/
def deviceMachine {ν : Type} (history : Serde (List AlarmEvent)) (codecs : WebCodecs ν) :
    Machine AppState DeviceEvent (Option WebResponse) where
  step st
    | .request env req =>
        let r := st.call codecs env req
        (r.1, some r.2)
    | .call c _ =>
        ({ st with app := (appMachine history).next st.app c }.withKv st.flashKv, none)
    | .store call _ outcome => (st.withKv (st.flashKv.perform call outcome).2, none)
    | .configReset outcome => (st.withKv (Config.factoryResetIn st.flashKv outcome).2, none)
    | .reset ota => (st.reset history codecs ota, none)

/-- A transition of the device. -/
abbrev DeviceTransition := Transition AppState DeviceEvent (Option WebResponse)

namespace AppState

open WebApi (saveAndReplace)

variable {ν : Type} (codecs : WebCodecs ν)

/-! ## What a request asks for -/

/-- The configuration that a request asks to save, before its blank secrets are filled. -/
def incoming? (st : AppState) (req : WebRequest) : Option Config :=
  match Route.parse req.path, req.method, req.body.readAll with
  | some (.api seg), .put, some body =>
      if seg = "config" then (codecs.config.fromSlice body).toOption else none
  | some (.config seg), .put, some body =>
      (WebApi.mergedConfig codecs seg st.app.config body).toOption
  | _, _, _ => none

/-- The request erases the stored configuration. -/
def Erases (req : WebRequest) : Prop :=
  Route.parse req.path = some (.api "factory_reset") ∧ req.method = .post ∧
    req.body.readAll.isSome = true

/-- What a request that saves no configuration leaves. -/
structure LeavesConfig (env : WebEnv) (st : AppState) (req : WebRequest) (st' : AppState) :
    Prop where
  config : st'.app.config = st.app.config
  flashKv : st'.flashKv = st.flashKv ∨
    Erases req ∧ st'.flashKv = (st.flashKv.perform (.remove Config.nvsKey) env.flash).2

/-- A request saves and installs the configuration it asks for, or leaves the one in
force alone. -/
inductive RequestStep (env : WebEnv) (st : AppState) (req : WebRequest) (st' : AppState) :
    Prop where
  | saves (incoming : Config) : st.incoming? codecs req = some incoming →
      st' = (saveAndReplace codecs env st incoming).1 → RequestStep env st req st'
  | leaves : st.incoming? codecs req = none → LeavesConfig env st req st' →
      RequestStep env st req st'

theorem leavesConfig_self (env : WebEnv) (st : AppState) (req : WebRequest) :
    LeavesConfig env st req st := ⟨rfl, .inl rfl⟩

/-- A `POST` may erase the stored configuration. -/
theorem leavesConfig_apiPost {env : WebEnv} {st : AppState} {req : WebRequest} {seg : String}
    {body : Bytes} (hroute : Route.parse req.path = some (.api seg)) (hmethod : req.method = .post)
    (hbody : req.body.readAll = some body) :
    LeavesConfig env st req (WebApi.apiPost codecs env seg st body).1 := by
  unfold WebApi.apiPost
  split
  · cases codecs.switchCommand body with
    | error e => exact leavesConfig_self env st req
    | ok cmd =>
        have hconfig := App.next_config (.fails _) st.app
          (show (Call.mk env.env (.switchCommand cmd)).op.installs = false from rfl)
        exact ⟨hconfig, .inl rfl⟩
  · have herases : Erases req := ⟨hroute, hmethod, by rw [hbody]; rfl⟩
    dsimp only
    split <;> exact ⟨rfl, .inr ⟨herases, rfl⟩⟩
  · exact leavesConfig_self env st req

theorem leavesConfig_alarmPost (env : WebEnv) (st : AppState) (req : WebRequest) (seg : String) :
    LeavesConfig env st req (WebApi.alarmPost env seg st).1 := by
  unfold WebApi.alarmPost
  split
  · have hconfig := App.next_config (.fails _) st.app
      (show (Call.mk env.env .clearFlowAlarm).op.installs = false from rfl)
    exact ⟨hconfig, .inl rfl⟩
  · exact leavesConfig_self env st req

theorem leavesConfig_webhooksPost (env : WebEnv) (st : AppState) (req : WebRequest) (seg : String)
    (body : Bytes) : LeavesConfig env st req (WebApi.webhooksPost codecs env seg st body).1 := by
  rw [WebApi.webhooksPost]
  split
  · exact leavesConfig_self env st req
  · cases codecs.testReq body with
    | error e => exact leavesConfig_self env st req
    | ok tr => exact ⟨rfl, .inl rfl⟩

/-- A `PUT` saves the whole configuration, if that is what its segment names. -/
theorem requestStep_apiPut {env : WebEnv} {st : AppState} {req : WebRequest} {seg : String}
    {body : Bytes} (hroute : Route.parse req.path = some (.api seg)) (hmethod : req.method = .put)
    (hbody : req.body.readAll = some body) :
    RequestStep codecs env st req (WebApi.apiPut codecs env seg st body).1 := by
  have hincoming : st.incoming? codecs req =
      if seg = "config" then (codecs.config.fromSlice body).toOption else none := by
    simp only [incoming?, hroute, hmethod, hbody]
  rw [WebApi.apiPut.eq_def]
  split
  · rw [if_pos rfl] at hincoming
    cases hparse : codecs.config.fromSlice body with
    | error e => exact .leaves (by rw [hincoming, hparse]; rfl) (leavesConfig_self env st req)
    | ok incoming => exact .saves incoming (by rw [hincoming, hparse]; rfl) rfl
  · rename_i hseg
    exact .leaves (hincoming.trans (if_neg hseg)) (leavesConfig_self env st req)

/-- A `PUT` of a section saves the configuration with the section merged into it. -/
theorem requestStep_configSectionPut {env : WebEnv} {st : AppState} {req : WebRequest}
    {seg : String} {body : Bytes} (hroute : Route.parse req.path = some (.config seg))
    (hmethod : req.method = .put) (hbody : req.body.readAll = some body) :
    RequestStep codecs env st req (WebApi.configSectionPut codecs env seg st body).1 := by
  have hincoming : st.incoming? codecs req =
      (WebApi.mergedConfig codecs seg st.app.config body).toOption := by
    simp only [incoming?, hroute, hmethod, hbody]
  rw [WebApi.configSectionPut]
  cases hmerged : WebApi.mergedConfig codecs seg st.app.config body with
  | error text => exact .leaves (by rw [hincoming, hmerged]; rfl) (leavesConfig_self env st req)
  | ok incoming => exact .saves incoming (by rw [hincoming, hmerged]; rfl) rfl

/-- A handler behind the extractor of a whole body makes a step if it does on the bodies
that are read. -/
theorem requestStep_withBody {env : WebEnv} {st : AppState} {req : WebRequest}
    {handler : AppState → Bytes → AppState × String}
    (h : ∀ body, req.body.readAll = some body →
      RequestStep codecs env st req (handler st body).1) :
    RequestStep codecs env st req (withBody handler st req.body).1 := by
  rw [withBody]
  cases hbody : req.body.readAll with
  | none =>
      refine .leaves ?_ (leavesConfig_self env st req)
      rw [incoming?, hbody]
      split <;> first | rfl | contradiction
  | some body => exact h body hbody

/-- Nothing but a `PUT` of the configuration or of a section asks to save one. -/
theorem incoming?_of_not_put {st : AppState} {req : WebRequest} (h : req.method ≠ .put) :
    st.incoming? codecs req = none := by
  rw [incoming?]
  split <;> first | rfl | contradiction

/-- Every request is one of these steps. -/
theorem call_step (env : WebEnv) (st : AppState) (req : WebRequest) :
    RequestStep codecs env st req (st.call codecs env req).1 := by
  have hself := leavesConfig_self env st req
  rw [call]
  cases hroute : Route.parse req.path with
  | none => exact .leaves (by simp only [incoming?, hroute]) hself
  | some route =>
      cases hmethod : req.method with
      | get =>
          have hnone : st.incoming? codecs req = none :=
            incoming?_of_not_put codecs (by simp [hmethod])
          cases route with
          | api seg =>
              dsimp only
              split <;> exact .leaves hnone hself
          | index | logs | ota | config seg | wifi seg | alarm seg | webhooks seg =>
              exact .leaves hnone hself
      | put =>
          cases route with
          | api seg =>
              exact requestStep_withBody codecs fun body hbody =>
                requestStep_apiPut codecs hroute hmethod hbody
          | config seg =>
              exact requestStep_withBody codecs fun body hbody =>
                requestStep_configSectionPut codecs hroute hmethod hbody
          | index | logs | ota | wifi seg | alarm seg | webhooks seg =>
              exact .leaves (by simp only [incoming?, hroute]) hself
      | post =>
          have hnone : st.incoming? codecs req = none :=
            incoming?_of_not_put codecs (by simp [hmethod])
          cases route with
          | ota => exact .leaves hnone ⟨rfl, .inl rfl⟩
          | api seg =>
              exact requestStep_withBody codecs fun body hbody =>
                .leaves hnone (leavesConfig_apiPost codecs hroute hmethod hbody)
          | alarm seg => exact .leaves hnone (leavesConfig_alarmPost env st req seg)
          | webhooks seg =>
              exact requestStep_withBody codecs fun body _ =>
                .leaves hnone (leavesConfig_webhooksPost codecs env st req seg body)
          | wifi seg | index | logs | config seg => exact .leaves hnone hself
      | other name =>
          have hnone : st.incoming? codecs req = none :=
            incoming?_of_not_put codecs (by simp [hmethod])
          cases route <;> exact .leaves hnone hself

/-! ## Accepted requests -/

/-- The configuration of a request that is accepted: it is filled, and saved. -/
inductive Accepts (st : AppState) : DeviceEvent → Config → Prop where
  | put (env : WebEnv) (req : WebRequest) (incoming : Config) :
      st.incoming? codecs req = some incoming →
      ((incoming.restoreSecretsFrom st.app.config).saveTo codecs.config st.flashKv env.flash).1 =
        .ok () →
      Accepts st (.request env req) (incoming.restoreSecretsFrom st.app.config)

/-- What an event asks of the store. -/
inductive Asks (st : AppState) : DeviceEvent → FlashKv.Call → FlashOutcome → Prop where
  | put (env : WebEnv) (req : WebRequest) (incoming : Config) (bytes : Bytes) :
      st.incoming? codecs req = some incoming →
      codecs.config.toVec (incoming.restoreSecretsFrom st.app.config) = .ok bytes →
      Asks st (.request env req) (.set Config.nvsKey bytes) env.flash
  | erase (env : WebEnv) (req : WebRequest) : Erases req →
      Asks st (.request env req) (.remove Config.nvsKey) env.flash
  | store (call : FlashKv.Call) (h : call.key ≠ Config.nvsKey) (outcome : FlashOutcome) :
      Asks st (.store call h outcome) call outcome
  | configReset (outcome : FlashOutcome) :
      Asks st (.configReset outcome) (.remove Config.nvsKey) outcome

theorem saveTo_eq {cfg : Config} {serde : Serde Config}
    {bytes : Bytes} (h : serde.toVec cfg = .ok bytes) (kv : FlashKv) (outcome : FlashOutcome) :
    cfg.saveTo serde kv outcome =
      ((kv.perform (.set Config.nvsKey bytes) outcome).1.mapError .nvs,
        (kv.perform (.set Config.nvsKey bytes) outcome).2) := by
  simp only [Config.saveTo, h]
  rfl

/-- A save that the store takes installs the configuration. -/
theorem config_saveAndReplace (env : WebEnv) (st : AppState) (incoming : Config) :
    (saveAndReplace codecs env st incoming).1.app.config =
      if ((incoming.restoreSecretsFrom st.app.config).saveTo codecs.config st.flashKv
          env.flash).1 = .ok () then incoming.restoreSecretsFrom st.app.config
      else st.app.config := by
  rw [saveAndReplace]
  dsimp only
  split
  · rename_i hsaved
    rw [hsaved, if_neg (by simp)]
    rfl
  · rename_i hsaved
    rw [if_pos hsaved]
    rfl

theorem flashKv_saveAndReplace (env : WebEnv) (st : AppState) (incoming : Config) :
    (saveAndReplace codecs env st incoming).1.flashKv =
      ((incoming.restoreSecretsFrom st.app.config).saveTo codecs.config st.flashKv
        env.flash).2 := by
  rw [saveAndReplace]
  dsimp only
  split <;> rfl

section Steps

variable (history : Serde (List AlarmEvent)) {st : AppState}

/-- Where the configuration in force behind an event comes from. -/
theorem config_next (e : DeviceEvent) :
    (∃ cfg, st.Accepts codecs e cfg ∧ ((deviceMachine history codecs).next st e).app.config = cfg) ∨
      ((∀ cfg, ¬ st.Accepts codecs e cfg) ∧
        ((deviceMachine history codecs).next st e).app.config = st.app.config) ∨
      ∃ ota, e = .reset ota := by
  cases e with
  | request env req =>
      have hstep := call_step codecs env st req
      show _ ∨ (_ ∧ (st.call codecs env req).1.app.config = _) ∨ _
      generalize hafter : (st.call codecs env req).1 = st' at hstep
      cases hstep with
      | saves incoming hincoming hst' =>
          have hconfig := config_saveAndReplace codecs env st incoming
          rw [← hst'] at hconfig
          split at hconfig
          · rename_i hsaved
            refine .inl ⟨_, .put env req incoming hincoming hsaved, ?_⟩
            show (st.call codecs env req).1.app.config = _
            rw [hafter, hconfig]
          · rename_i hrefused
            refine .inr (.inl ⟨fun cfg hcfg => ?_, hconfig⟩)
            cases hcfg with
            | put _ _ incoming' hincoming' hsaved =>
                cases hincoming.symm.trans hincoming'
                exact hrefused hsaved
      | leaves hnone hleaves =>
          refine .inr (.inl ⟨fun cfg hcfg => ?_, hleaves.config⟩)
          cases hcfg with
          | put _ _ incoming hincoming => cases hnone.symm.trans hincoming
  | call c h =>
      refine .inr (.inl ⟨fun cfg hcfg => (by cases hcfg), ?_⟩)
      exact App.next_config history st.app h
  | store call h outcome => exact .inr (.inl ⟨fun cfg hcfg => (by cases hcfg), rfl⟩)
  | configReset outcome => exact .inr (.inl ⟨fun cfg hcfg => (by cases hcfg), rfl⟩)
  | reset ota => exact .inr (.inr ⟨ota, rfl⟩)

/-- What an accepted request makes is in force behind it. -/
theorem Accepts.config_next {codecs : WebCodecs ν} {e : DeviceEvent} {cfg : Config}
    (h : st.Accepts codecs e cfg) :
    ((deviceMachine history codecs).next st e).app.config = cfg := by
  cases h with
  | put env req incoming hincoming hsaved =>
      have hstep := call_step codecs env st req
      show (st.call codecs env req).1.app.config = _
      generalize (st.call codecs env req).1 = st' at hstep
      cases hstep with
      | saves incoming' hincoming' hst' =>
          cases hincoming.symm.trans hincoming'
          rw [hst', config_saveAndReplace, if_pos hsaved]
      | leaves hnone => cases hnone.symm.trans hincoming

/-- Where the store behind an event comes from. -/
theorem flashKv_next (e : DeviceEvent) :
    ((deviceMachine history codecs).next st e).flashKv = st.flashKv ∨
      (∃ call outcome, st.Asks codecs e call outcome ∧
        ((deviceMachine history codecs).next st e).flashKv =
          (st.flashKv.perform call outcome).2) ∨
      ∃ ota, e = .reset ota := by
  cases e with
  | request env req =>
      have hstep := call_step codecs env st req
      show (st.call codecs env req).1.flashKv = _ ∨
        (∃ call outcome, _ ∧ (st.call codecs env req).1.flashKv = _) ∨ _
      generalize (st.call codecs env req).1 = st' at hstep
      cases hstep with
      | saves incoming hincoming hst' =>
          rw [hst', flashKv_saveAndReplace]
          cases hto : codecs.config.toVec (incoming.restoreSecretsFrom st.app.config) with
          | error e => exact .inl (by simp only [Config.saveTo, hto])
          | ok bytes =>
              rw [saveTo_eq hto]
              exact .inr (.inl ⟨_, _, .put env req incoming bytes hincoming hto, rfl⟩)
      | leaves hnone hleaves =>
          rcases hleaves.flashKv with hsame | ⟨herases, hremoved⟩
          · exact .inl hsame
          · exact .inr (.inl ⟨_, _, .erase env req herases, hremoved⟩)
  | call c h => exact .inl rfl
  | store call h outcome => exact .inr (.inl ⟨_, _, .store call h outcome, rfl⟩)
  | configReset outcome => exact .inr (.inl ⟨_, _, .configReset outcome, rfl⟩)
  | reset ota => exact .inr (.inr ⟨ota, rfl⟩)

end Steps

/-! ## Resets -/

/-- A request before was accepted, and its configuration was stored as these bytes. -/
def Saved (h : List DeviceTransition) (bytes : Bytes) : Prop :=
  ∃ t ∈ h, ∃ cfg, t.before.Accepts codecs t.input cfg ∧ codecs.config.toVec cfg = .ok bytes

/-- A reset finds a configuration that was accepted before, or none. -/
def Reloads (h : List DeviceTransition) (st : AppState) (e : DeviceEvent) : Prop :=
  ∀ ota, e = .reset ota → ∀ kv bytes, FlashKv.boot st.flashKv.flash = .ok kv →
    kv.get Config.nvsKey = some bytes → Saved codecs h bytes

/-- What an event asks of the store is done. -/
def StoreOk (st : AppState) (e : DeviceEvent) : Prop :=
  ∀ call outcome, st.Asks codecs e call outcome → (st.flashKv.perform call outcome).1 = .ok ()

/-- A device at its first boot. -/
def fresh (history : Serde (List AlarmEvent)) (ota : OtaFlash) : AppState :=
  boot history codecs ota ⟨.erased, ∅⟩

/-- The flash mirrors the map, and what the map has is a configuration that was accepted. -/
structure StoreInv (h : List DeviceTransition) (st : AppState) : Prop where
  mirrors : st.flashKv.Mirrors
  saved : ∀ bytes, st.flashKv.get Config.nvsKey = some bytes → Saved codecs h bytes

variable {codecs} (history : Serde (List AlarmEvent))

theorem Saved.append {h : List DeviceTransition} {bytes : Bytes} (hsaved : Saved codecs h bytes)
    (t : DeviceTransition) : Saved codecs (h ++ [t]) bytes := by
  obtain ⟨t', ht', hcfg⟩ := hsaved
  exact ⟨t', List.mem_append_left _ ht', hcfg⟩

/-- A call of the store that is done stores an accepted configuration, or none. -/
theorem StoreInv.saved_perform {h : List DeviceTransition} {st : AppState}
    (hinv : StoreInv codecs h st) {e : DeviceEvent} {call : FlashKv.Call} {outcome : FlashOutcome}
    (hasks : st.Asks codecs e call outcome)
    (hdone : (st.flashKv.perform call outcome).1 = .ok ()) {bytes : Bytes}
    (hget : (st.flashKv.perform call outcome).2.get Config.nvsKey = some bytes) :
    Saved codecs (h ++ [(deviceMachine history codecs).transition st e]) bytes := by
  rw [FlashKv.perform_get] at hget
  cases hasks with
  | put env req incoming bytes' hincoming hto =>
      cases hget
      refine ⟨_, List.mem_append_right _ List.mem_cons_self, _,
        .put env req incoming hincoming ?_, hto⟩
      rw [Machine.transition_before, saveTo_eq hto, hdone]
      rfl
  | store call hkey outcome =>
      rw [if_neg hkey] at hget
      exact (hinv.saved bytes hget).append _
  | erase env req herases => cases hget
  | configReset outcome => cases hget

/-- An event whose call of the store is done keeps what the store holds. -/
theorem StoreInv.next {h : List DeviceTransition} {st : AppState} (hinv : StoreInv codecs h st)
    {e : DeviceEvent} (hok : st.StoreOk codecs e) :
    StoreInv codecs (h ++ [(deviceMachine history codecs).transition st e])
      ((deviceMachine history codecs).next st e) := by
  rcases flashKv_next codecs history e with hsame | ⟨call, outcome, hasks, hkv⟩ | ⟨ota, rfl⟩
  · constructor
    · rw [hsame]
      exact hinv.mirrors
    · intro bytes hget
      rw [hsame] at hget
      exact (hinv.saved bytes hget).append _
  · constructor
    · rw [hkv]
      exact FlashKv.perform_mirrors (hok call outcome hasks)
    · intro bytes hget
      rw [hkv] at hget
      exact hinv.saved_perform history hasks (hok call outcome hasks) hget
  · obtain ⟨kv, hboot, hkv⟩ := hinv.mirrors
    have hnext : ((deviceMachine history codecs).next st (.reset ota)).flashKv = kv := by
      show (st.reset history codecs ota).flashKv = kv
      rw [reset, hboot]
      rfl
    constructor
    · rw [hnext]
      exact FlashKv.mirrors_of_boot hboot
    · intro bytes hget
      rw [hnext, hkv] at hget
      exact (hinv.saved bytes hget).append _

theorem storeInv_fresh (ota : OtaFlash) : StoreInv codecs [] (fresh codecs history ota) where
  mirrors := FlashKv.mirrors_of_boot FlashKv.boot_erased
  saved := by
    intro bytes hget
    have hnone : (∅ : FlashKv.Cache)[Config.nvsKey]? = none := Std.TreeMap.getElem?_emptyc
    cases hnone.symm.trans hget

/-- Where no call of the store fails, every reset finds what was accepted. -/
theorem reloads_of_storeOk {ota : OtaFlash} {events : List DeviceEvent}
    (hok : ∀ t ∈ (deviceMachine history codecs).trace (fresh codecs history ota) events,
      t.before.StoreOk codecs t.input)
    {pre post : List DeviceTransition} {t : DeviceTransition}
    (hsplit : (deviceMachine history codecs).trace (fresh codecs history ota) events =
      pre ++ t :: post) : Reloads codecs pre t.before t.input := by
  have hinv := ((deviceMachine history codecs).trace_history_before
    (J := StoreInv codecs) (G := fun _ st e => st.StoreOk codecs e)
    (fun _ _ _ hdone hinv => hinv.next history hdone) (storeInv_fresh history ota)
    (fun pre' t' post' hsplit' => hok t' (by simp [hsplit'])) hsplit).1
  intro ota' _ kv bytes hboot hget
  obtain ⟨kv', hboot', hkv'⟩ := hinv.mirrors
  cases hboot.symm.trans hboot'
  rw [hkv'] at hget
  exact hinv.saved bytes hget

/-! ## What a device holds -/

section Holds

variable {P : Config → Prop}

/-- A boot from a configuration that was accepted before, or from none. -/
theorem holds_loadOrDefault (hdefault : P (.default codecs.build))
    (hfaithful : codecs.config.Faithful) {h : List DeviceTransition}
    (hheld : ∀ t ∈ h, ∀ cfg, t.before.Accepts codecs t.input cfg → P cfg) {kv : FlashKv}
    (hsaved : ∀ bytes, kv.get Config.nvsKey = some bytes → Saved codecs h bytes) :
    P (loadOrDefault codecs kv) := by
  unfold loadOrDefault Config.load
  cases hget : kv.get Config.nvsKey with
  | none =>
      simp only [NvsStore.get, hget]
      exact hdefault
  | some bytes =>
      obtain ⟨t, ht, cfg, hcfg, hto⟩ := hsaved bytes hget
      simp only [NvsStore.get, hget]
      cases hfrom : codecs.config.fromSlice bytes with
      | error e => exact hdefault
      | ok cfg' =>
          rw [hfaithful cfg bytes cfg' hto hfrom]
          exact hheld t ht cfg hcfg

/-- Where every reset finds a configuration that was accepted, or none, a property of the
defaults holds of the configuration in force, as long as what is accepted keeps it. -/
theorem holds_run (hdefault : P (.default codecs.build)) (hfaithful : codecs.config.Faithful)
    {ota : OtaFlash} {events : List DeviceEvent}
    (hreloads : ∀ pre t post,
      (deviceMachine history codecs).trace (fresh codecs history ota) events = pre ++ t :: post →
        Reloads codecs pre t.before t.input)
    (haccepted : ∀ t ∈ (deviceMachine history codecs).trace (fresh codecs history ota) events,
      ∀ cfg, t.before.Accepts codecs t.input cfg → P t.before.app.config → P cfg) :
    P ((deviceMachine history codecs).run (fresh codecs history ota) events).app.config := by
  refine ((deviceMachine history codecs).trace_history
    (J := fun h st => P st.app.config ∧
      ∀ t ∈ h, ∀ cfg, t.before.Accepts codecs t.input cfg → P cfg)
    (G := fun h st e => Reloads codecs h st e ∧
      ∀ cfg, st.Accepts codecs e cfg → P st.app.config → P cfg)
    ?step ?start ?guard).1
  case step =>
    rintro h st e ⟨hreload, haccept⟩ ⟨hlive, hheld⟩
    refine ⟨?_, fun t ht cfg hcfg => ?_⟩
    · rcases config_next codecs history e with ⟨cfg, hcfg, hnext⟩ | ⟨-, hnext⟩ | ⟨ota', rfl⟩
      · rw [hnext]
        exact haccept cfg hcfg hlive
      · rw [hnext]
        exact hlive
      · show P (st.reset history codecs ota').app.config
        rw [reset]
        split
        · rename_i kv hboot
          exact holds_loadOrDefault hdefault hfaithful hheld
            fun bytes hget => hreload ota' rfl kv bytes hboot hget
        · exact hlive
    · rcases List.mem_append.mp ht with hold | hlast
      · exact hheld t hold cfg hcfg
      · rw [List.mem_singleton.mp hlast] at hcfg
        exact haccept cfg hcfg hlive
  case start =>
    have hlive : P (loadOrDefault codecs ⟨.erased, ∅⟩) :=
      holds_loadOrDefault hdefault hfaithful (by simp) (storeInv_fresh history ota).saved
    exact ⟨hlive, by simp⟩
  case guard =>
    intro pre t post hsplit
    exact ⟨hreloads pre t post hsplit, haccepted t (by simp [hsplit])⟩

end Holds

end AppState

end WaterController
