import WaterController.Firmware.Held
import WaterController.Host.HttpApi
import WaterController.Nostd.SectionPut

/-!
# The cap on the webhooks

A configuration should have at most `webhooksMax` webhooks.  The `PUT` of the webhooks
cuts its list on the device and on the host.  The `PUT` of the whole configuration does
not, and neither does any of the no_std firmware.

So in each of the builds the cap holds in every state that is reached if and only if the
bodies that bring webhooks past the cut bring no more than that
(`webhooks_capped_iff`).
-/

namespace WaterController

open Machines (Machine)
open JsonCodec (list)

/-- There are no more webhooks than the cap. -/
def Config.WebhooksCapped (cfg : Config) : Prop := cfg.webhooks.length ≤ webhooksMax

instance (cfg : Config) : Decidable cfg.WebhooksCapped := inferInstanceAs (Decidable (_ ≤ _))

/-- The defaults have no webhooks, and the other sections none to add. -/
theorem Config.kept_webhooksCapped (build : BuildEnv) : Config.Kept build Config.WebhooksCapped :=
  ⟨Nat.zero_le _, fun _ _ h => h, fun _ _ h => h⟩

/-- The edit of a section keeps the cap. -/
theorem Firmware.ConfigSection.webhooksCapped_apply (s : Firmware.ConfigSection) {cfg : Config}
    (h : cfg.WebhooksCapped) (new : s.Value) : (s.apply cfg new).WebhooksCapped := by
  cases s with
  | webhooks => exact List.length_take_le _ _
  | wifi | mqtt | switches | sensors | schedule | https | wireguard | time | auth | flowAlarm =>
      exact h

/-! ## The device -/

namespace Firmware

variable {codecs : Codecs}

/-- The webhooks of an accepted body of the whole configuration. -/
inductive BringsWebhooks (codecs : Codecs) (fw : Firmware) :
    FirmwareEvent → List WebhookConfig → Prop where
  | config (env : Env) (req : Request) (new : Config) :
      Admits codecs codecs.config Config.mergePreservingSecrets env fw req new →
      BringsWebhooks codecs fw (.putConfig env req) new.webhooks

/-- The webhooks of an accepted body are in force behind it. -/
theorem BringsWebhooks.webhooks_next {fw : Firmware} {e : FirmwareEvent}
    {hooks : List WebhookConfig} (h : BringsWebhooks codecs fw e hooks) (build : BuildEnv)
    (certgen : CertGen) :
    ((firmwareMachine codecs build certgen).next fw e).app.config.webhooks = hooks := by
  cases h with
  | config env req new hnew =>
      exact congrArg (·.webhooks) ((Installs.config env req new hnew).config_next certgen)

theorem capped_iff (hfaithful : codecs.config.Faithful) (build : BuildEnv) (certgen : CertGen)
    (env : Env) (events : List FirmwareEvent) :
    (∀ reached, reached <+: events →
        ((firmwareMachine codecs build certgen).run (boot codecs build certgen env .blank)
          reached).app.config.WebhooksCapped) ↔
      ∀ t ∈ (firmwareMachine codecs build certgen).trace (boot codecs build certgen env .blank)
        events, ∀ hooks, BringsWebhooks codecs t.before t.input hooks →
          hooks.length ≤ webhooksMax := by
  have hkept := Config.kept_webhooksCapped build
  constructor
  · intro hheld t ht hooks hbrings
    have hnext := (firmwareMachine codecs build certgen).next_of_prefixes
      (P := fun fw => fw.app.config.WebhooksCapped) hheld ht
    rw [Config.WebhooksCapped, hbrings.webhooks_next] at hnext
    exact hnext
  · intro hbrings reached hreached
    refine ((firmwareMachine codecs build certgen).prefix_invariant
      (P := Holds codecs build Config.WebhooksCapped)
      (G := fun fw e => ∀ hooks, BringsWebhooks codecs fw e hooks → hooks.length ≤ webhooksMax)
      (fun fw e he h => ?_) (holds_boot_blank certgen hkept hfaithful env) hbrings hreached).live
    refine h.next certgen hkept hfaithful fun cfg hcfg => ?_
    cases hcfg with
    | config env' req new hnew => exact he _ (.config env' req new hnew)
    | «section» s env' req new hnew => exact s.webhooksCapped_apply h.live new

end Firmware

/-! ## The host -/

namespace Host

variable {codecs : Codecs}

/-- The webhooks of a body of the whole configuration. -/
inductive BringsWebhooks (codecs : Codecs) : HostEvent → List WebhookConfig → Prop where
  | config (env : Env) (body : Bytes) (new : Config) : codecs.config.fromSlice body = .ok new →
      BringsWebhooks codecs (.putConfig env body) new.webhooks

theorem BringsWebhooks.webhooks_next {app : App} {e : HostEvent} {hooks : List WebhookConfig}
    (h : BringsWebhooks codecs e hooks) (build : BuildEnv) :
    ((hostMachine codecs build).next app e).config.webhooks = hooks := by
  cases h with
  | config env body new hparse =>
      have hconfig : (putConfig codecs env app body).1.config =
          app.config.mergePreservingSecrets new := config_putConfig codecs hparse
      exact congrArg (·.webhooks) hconfig

/-- An event keeps the cap, unless it brings more. -/
theorem webhooksCapped_next {app : App} (h : app.config.WebhooksCapped) (build : BuildEnv)
    {e : HostEvent}
    (he : ∀ hooks, BringsWebhooks codecs e hooks → hooks.length ≤ webhooksMax) :
    ((hostMachine codecs build).next app e).config.WebhooksCapped := by
  cases e with
  | call c hc =>
      have hconfig := App.next_config codecs.alarmHistory app hc
      exact hconfig ▸ h
  | putConfig env body =>
      cases hparse : codecs.config.fromSlice body with
      | error e =>
          have hsame : (putConfig codecs env app body).1 = app := handlePut_rejected hparse
          change (putConfig codecs env app body).1.config.WebhooksCapped
          rw [hsame]
          exact h
      | ok new =>
          have hbrings : BringsWebhooks codecs (.putConfig env body) new.webhooks :=
            .config env body new hparse
          rw [Config.WebhooksCapped, hbrings.webhooks_next]
          exact he _ hbrings
  | putSection s env body =>
      cases hparse : (s.serde codecs).fromSlice body with
      | error e =>
          change (putSection codecs s env app body).1.config.WebhooksCapped
          rw [putSection_rejected codecs hparse]
          exact h
      | ok new =>
          change (putSection codecs s env app body).1.config.WebhooksCapped
          rw [config_putSection codecs hparse]
          exact s.webhooksCapped_apply h new
  | restart => exact Nat.zero_le _

theorem capped_iff (build : BuildEnv) (events : List HostEvent) :
    (∀ reached, reached <+: events →
        ((hostMachine codecs build).run (boot codecs build) reached).config.WebhooksCapped) ↔
      ∀ t ∈ (hostMachine codecs build).trace (boot codecs build) events,
        ∀ hooks, BringsWebhooks codecs t.input hooks → hooks.length ≤ webhooksMax := by
  constructor
  · intro hheld t ht hooks hbrings
    have hnext := (hostMachine codecs build).next_of_prefixes
      (P := fun app => app.config.WebhooksCapped) hheld ht
    rw [Config.WebhooksCapped, hbrings.webhooks_next] at hnext
    exact hnext
  · intro hbrings reached hreached
    exact (hostMachine codecs build).prefix_invariant (P := fun app => app.config.WebhooksCapped)
      (G := fun _ e => ∀ hooks, BringsWebhooks codecs e hooks → hooks.length ≤ webhooksMax)
      (fun _ _ he h => webhooksCapped_next h build he) (Nat.zero_le _) hbrings hreached

end Host

/-! ## The no_std firmware -/

namespace AppState

open WebApi (Section mergedConfig)

variable {ν : Type} {codecs : WebCodecs ν}

/-- The webhooks that an accepted request brings, with the whole configuration or on
their own. -/
inductive BringsWebhooks (codecs : WebCodecs ν) (st : AppState) :
    DeviceEvent → List WebhookConfig → Prop where
  | config (env : WebEnv) (req : WebRequest) (body : Bytes) (new cfg : Config) :
      Route.parse req.path = some (.api "config") → req.body.readAll = some body →
      codecs.config.fromSlice body = .ok new → st.Accepts codecs (.request env req) cfg →
      BringsWebhooks codecs st (.request env req) new.webhooks
  | «section» (env : WebEnv) (req : WebRequest) (body : Bytes) (j : Json ν)
      (hooks : List WebhookConfig) (cfg : Config) :
      Route.parse req.path = some (.config "webhooks") → req.body.readAll = some body →
      codecs.value body = .ok j → (list ConfigJson.webhook).fromJson j = .ok hooks →
      st.Accepts codecs (.request env req) cfg →
      BringsWebhooks codecs st (.request env req) hooks

theorem of_toOption {α : Type} {x : Except String α} {a : α} (h : x.toOption = some a) :
    x = .ok a := by
  cases x with
  | error e => cases h
  | ok a' =>
      cases h
      rfl

/-- A `PUT` of the whole configuration asks for what its body holds. -/
theorem of_incoming_config {st : AppState} {req : WebRequest} {body : Bytes} {incoming : Config}
    (hroute : Route.parse req.path = some (.api "config")) (hbody : req.body.readAll = some body)
    (h : st.incoming? codecs req = some incoming) :
    codecs.config.fromSlice body = .ok incoming := by
  simp only [incoming?, hroute, hbody] at h
  split at h
  · rename_i hroute' _ hbody'
    cases hroute'
    cases hbody'
    rw [if_pos rfl] at h
    exact of_toOption h
  · rename_i hroute' _ _
    cases hroute'
  · cases h

/-- A `PUT` of a section asks for the configuration that it is merged into. -/
theorem of_incoming_section {st : AppState} {req : WebRequest} {seg : String} {body : Bytes}
    {incoming : Config} (hroute : Route.parse req.path = some (.config seg))
    (hbody : req.body.readAll = some body) (h : st.incoming? codecs req = some incoming) :
    mergedConfig codecs seg st.app.config body = .ok incoming := by
  simp only [incoming?, hroute, hbody] at h
  split at h
  · rename_i hroute' _ _
    cases hroute'
  · rename_i hroute' _ hbody'
    cases hroute'
    cases hbody'
    exact of_toOption h
  · cases h

/-- What the webhooks of a merged configuration were read from. -/
theorem webhooks_of_mergedConfig (hderived : codecs.Derived) {sec : Section} {live cfg : Config}
    {body : Bytes} {j : Json ν} (hbody : codecs.value body = .ok j)
    (h : mergedConfig codecs sec.name live body = .ok cfg) :
    if sec = .webhooks then (list ConfigJson.webhook).fromJson j = .ok cfg.webhooks
    else cfg.webhooks = live.webhooks := by
  obtain ⟨hsection, hothers⟩ := WebApi.of_mergedConfig hderived hbody h
  split
  · rename_i hsec
    subst hsec
    have hreplaced : WebApi.merge ((list ConfigJson.webhook).toJson live.webhooks) j = j := by
      cases j <;> rfl
    change (list ConfigJson.webhook).fromJson
      (WebApi.merge ((list ConfigJson.webhook).toJson live.webhooks) j) = _ at hsection
    rw [hreplaced] at hsection
    exact hsection
  · rename_i hsec
    have hread := hothers .webhooks fun h => hsec h.symm
    have hback := JsonCodec.reads_list (ConfigJson.reads_webhook (ν := ν)) live.webhooks
    exact Except.ok.inj (hread.symm.trans hback)

/-- An accepted request brings its webhooks, or keeps those in force. -/
theorem Accepts.webhooks (hderived : codecs.Derived) {st : AppState} {e : DeviceEvent}
    {cfg : Config} (h : st.Accepts codecs e cfg) :
    st.BringsWebhooks codecs e cfg.webhooks ∨ cfg.webhooks = st.app.config.webhooks := by
  have haccepts := h
  cases h with
  | put env req incoming hincoming hsaved =>
      have hasks := hincoming
      unfold incoming? at hincoming
      split at hincoming
      · rename_i seg body hroute hmethod hbody
        split at hincoming
        · rename_i hseg
          subst hseg
          exact .inl (.config env req body incoming _ hroute hbody (of_toOption hincoming) haccepts)
        · cases hincoming
      · rename_i seg body hroute hmethod hbody
        have hmerged := of_toOption hincoming
        obtain ⟨sec, rfl, j, hj⟩ := WebApi.section_of_mergedConfig hderived hmerged
        have hwebhooks := webhooks_of_mergedConfig hderived hj hmerged
        split at hwebhooks
        · rename_i hsec
          subst hsec
          exact .inl (.section env req body j _ _ hroute hbody hj hwebhooks haccepts)
        · exact .inr hwebhooks
      · cases hincoming

/-- The webhooks that are brought are those of the configuration that is accepted. -/
theorem BringsWebhooks.accepts (hderived : codecs.Derived) {st : AppState} {e : DeviceEvent}
    {hooks : List WebhookConfig} (h : st.BringsWebhooks codecs e hooks) :
    ∃ cfg, st.Accepts codecs e cfg ∧ cfg.webhooks = hooks := by
  cases h with
  | config env req body new cfg hroute hbody hparse haccepts =>
      refine ⟨cfg, haccepts, ?_⟩
      cases haccepts with
      | put _ _ incoming hincoming hsaved =>
          have hbrought := of_incoming_config hroute hbody hincoming
          cases hbrought.symm.trans hparse
          rfl
  | «section» env req body j hooks cfg hroute hbody hj hhooks haccepts =>
      refine ⟨cfg, haccepts, ?_⟩
      cases haccepts with
      | put _ _ incoming hincoming hsaved =>
          have hmerged := of_incoming_section hroute hbody hincoming
          have hwebhooks := webhooks_of_mergedConfig hderived hj
            (show mergedConfig codecs (Section.name .webhooks) _ body = _ from hmerged)
          rw [if_pos rfl] at hwebhooks
          exact Except.ok.inj (hwebhooks.symm.trans hhooks)

theorem capped_iff (history : Serde (List AlarmEvent)) (hderived : codecs.Derived)
    (hfaithful : codecs.config.Faithful) {ota : OtaFlash} {events : List DeviceEvent}
    (hreloads : ∀ pre t post,
      (deviceMachine history codecs).trace (fresh codecs history ota) events = pre ++ t :: post →
        Reloads codecs pre t.before t.input) :
    (∀ reached, reached <+: events →
        ((deviceMachine history codecs).run (fresh codecs history ota)
          reached).app.config.WebhooksCapped) ↔
      ∀ t ∈ (deviceMachine history codecs).trace (fresh codecs history ota) events,
        ∀ hooks, t.before.BringsWebhooks codecs t.input hooks → hooks.length ≤ webhooksMax := by
  constructor
  · intro hheld t ht hooks hbrings
    obtain ⟨cfg, haccepts, rfl⟩ := hbrings.accepts hderived
    have hnext := (deviceMachine history codecs).next_of_prefixes
      (P := fun st => st.app.config.WebhooksCapped) hheld ht
    rw [haccepts.config_next history] at hnext
    exact hnext
  · rintro hbrings reached ⟨rest, rfl⟩
    rw [Machine.trace_append] at hbrings
    refine holds_run history (Nat.zero_le _) hfaithful (fun pre t post hsplit => ?_)
      fun t ht cfg hcfg hlive => ?_
    · refine hreloads pre t (post ++ (deviceMachine history codecs).trace
        ((deviceMachine history codecs).run (fresh codecs history ota) reached) rest) ?_
      rw [Machine.trace_append, hsplit]
      simp
    · rcases hcfg.webhooks hderived with hbrought | hkept
      · exact hbrings t (List.mem_append_left _ ht) _ hbrought
      · rw [Config.WebhooksCapped, hkept]
        exact hlive

end AppState

/-! ## All builds -/

/-- **The cap.**  On each of the builds, from the defaults on and in every state that is
reached, the configuration has no more webhooks than the cap if and only if the accepted
bodies of the whole configuration bring no more than that, and on the no_std firmware
those of the webhooks as well.  There a reset is one that finds a configuration that was
accepted, or none. -/
theorem webhooks_capped_iff {ν : Type} (codecs : Codecs) (webCodecs : WebCodecs ν)
    (build : BuildEnv) (certgen : Firmware.CertGen) (env : Env) (history : Serde (List AlarmEvent))
    (ota : OtaFlash) :
    (∀ events : List FirmwareEvent, codecs.config.Faithful →
      let M := firmwareMachine codecs build certgen
      let start := Firmware.boot codecs build certgen env .blank
      ((∀ reached, reached <+: events → (M.run start reached).app.config.WebhooksCapped) ↔
        ∀ t ∈ M.trace start events, ∀ hooks,
          Firmware.BringsWebhooks codecs t.before t.input hooks → hooks.length ≤ webhooksMax)) ∧
    (∀ events : List Host.HostEvent,
      let M := Host.hostMachine codecs build
      let start := Host.boot codecs build
      ((∀ reached, reached <+: events → (M.run start reached).config.WebhooksCapped) ↔
        ∀ t ∈ M.trace start events, ∀ hooks,
          Host.BringsWebhooks codecs t.input hooks → hooks.length ≤ webhooksMax)) ∧
    (∀ events : List DeviceEvent, webCodecs.Derived → webCodecs.config.Faithful →
      let M := deviceMachine history webCodecs
      let start := AppState.fresh webCodecs history ota
      (∀ pre t post, M.trace start events = pre ++ t :: post →
        AppState.Reloads webCodecs pre t.before t.input) →
      ((∀ reached, reached <+: events → (M.run start reached).app.config.WebhooksCapped) ↔
        ∀ t ∈ M.trace start events, ∀ hooks,
          t.before.BringsWebhooks webCodecs t.input hooks → hooks.length ≤ webhooksMax)) :=
  ⟨fun events hfaithful => Firmware.capped_iff hfaithful build certgen env events,
    fun events => Host.capped_iff build events,
    fun _ hderived hfaithful hreloads => AppState.capped_iff history hderived hfaithful hreloads⟩

/-! ## One webhook, and five -/

def hook : WebhookConfig where
  enabled := true
  url := "http://hub.local/hook"
  kind := .generic
  events := [.flowAlarmFire]
  method := "POST"
  headers := []
  bodyTemplate := ConfigJson.defaultBodyTemplate

/-- The defaults with a number of webhooks, and a text that stands for their JSON. -/
def hookedConfig (n : Nat) : Config := { Config.default {} with webhooks := List.replicate n hook }

def hookedBody : Bytes := asciiBytes "the defaults, and the webhooks"

def hookedSerde (n : Nat) : Serde Config := .single (hookedConfig n) hookedBody

def hookedCodecs (n : Nat) : Codecs := { Codecs.fails with config := hookedSerde n }

/-- The webhooks on their own, and a text that stands for them. -/
def hooksBody : Bytes := asciiBytes "the webhooks"

def hookedWebCodecs (n : Nat) : WebCodecs JsonNumber :=
  .ofJson jsonNumbers {} (hookedSerde n) fun bytes =>
    if bytes = hooksBody then
      .ok ((list ConfigJson.webhook).toJson (List.replicate n hook))
    else .error "other bytes"

def noSlots : OtaFlash := ⟨.error "no slot", []⟩

def putHooked : WebRequest where
  method := .put
  path := ["api", "config"]
  body := ⟨hookedBody.length, hookedBody, false, true⟩

def putHooks : WebRequest where
  method := .put
  path := ["api", "config", "webhooks"]
  body := ⟨hooksBody.length, hooksBody, false, true⟩

/-- One webhook is accepted by each of the builds, and loaded again behind a reboot. -/
theorem webhooks_capped_one :
    (∀ reached, reached <+: [.putConfig (.plain 0) { body := hookedBody }, .reboot (.plain 0)] →
      ((firmwareMachine (hookedCodecs 1) {} Firmware.noCerts).run
        (Firmware.boot (hookedCodecs 1) {} Firmware.noCerts (.plain 0) .blank)
          reached).app.config.WebhooksCapped) ∧
    (∀ reached, reached <+: [.putConfig (.plain 0) hookedBody] →
      ((Host.hostMachine (hookedCodecs 1) {}).run (Host.boot (hookedCodecs 1) {})
        reached).config.WebhooksCapped) ∧
    (∀ reached, reached <+: [.request .plain putHooked, .reset noSlots] →
      ((deviceMachine (.fails _) (hookedWebCodecs 1)).run
        (AppState.fresh (hookedWebCodecs 1) (.fails _) noSlots)
          reached).app.config.WebhooksCapped) := by
  have hread : ∀ {new}, (hookedSerde 1).fromSlice hookedBody = .ok new →
      new.webhooks.length ≤ webhooksMax := by
    rintro new h
    cases h
    decide
  have hcapped := webhooks_capped_iff (hookedCodecs 1) (hookedWebCodecs 1) {} Firmware.noCerts
    (.plain 0) (.fails _) noSlots
  refine ⟨?_, ?_, ?_⟩
  · refine (hcapped.1 _ (Serde.faithful_single _ _)).mpr ?_
    simp only [Machine.trace_cons, Machine.trace_nil, List.mem_cons, List.not_mem_nil, or_false]
    rintro t (rfl | rfl) hooks hbrings
    · cases hbrings with
      | config env req new hnew => exact hread hnew.parsed
    · cases hbrings
  · refine (hcapped.2.1 _).mpr ?_
    simp only [Machine.trace_cons, Machine.trace_nil, List.mem_cons, List.not_mem_nil, or_false]
    rintro t rfl hooks hbrings
    cases hbrings with
    | config env body new hparse => exact hread hparse
  · have hderived : (hookedWebCodecs 1).Derived := WebCodecs.derived_ofJson _ _ _ _
    refine (hcapped.2.2 _ hderived (Serde.faithful_single _ _) fun pre t post hsplit => ?_).mpr ?_
    · refine AppState.reloads_of_storeOk (.fails _) ?_ hsplit
      simp only [Machine.trace_cons, Machine.trace_nil, List.mem_cons, List.not_mem_nil, or_false]
      rintro t (rfl | rfl) call outcome hasks
      · cases hasks with
        | put env req incoming bytes hincoming hto =>
            have hbytes : bytes = hookedBody := by
              simp only [hookedWebCodecs, WebCodecs.ofJson, hookedSerde, Serde.single] at hto
              split at hto
              · cases hto
                rfl
              · cases hto
            rw [hbytes]
            decide +kernel
        | erase env req herases => cases herases.2.1
      · cases hasks
    · simp only [Machine.trace_cons, Machine.trace_nil, List.mem_cons, List.not_mem_nil, or_false]
      rintro t (rfl | rfl) hooks hbrings
      · cases hbrings with
        | config env req body new cfg hroute hbody hparse haccepts =>
            cases hbody
            exact hread hparse
        | «section» env req body j hooks cfg hroute => cases hroute
      · cases hbrings

/-- Five webhooks are accepted with the whole configuration by each of the builds, and on
their own by the no_std firmware. -/
theorem five_webhooks :
    let reboots := (firmwareMachine (hookedCodecs 5) {} Firmware.noCerts).run
      (Firmware.boot (hookedCodecs 5) {} Firmware.noCerts (.plain 0) .blank)
      [.putConfig (.plain 0) { body := hookedBody }, .reboot (.plain 0)]
    let host := (Host.hostMachine (hookedCodecs 5) {}).run (Host.boot (hookedCodecs 5) {})
      [.putConfig (.plain 0) hookedBody]
    let start := AppState.fresh (hookedWebCodecs 5) (.fails _) noSlots
    let M := deviceMachine (.fails _) (hookedWebCodecs 5)
    ¬ reboots.app.config.WebhooksCapped ∧ ¬ host.config.WebhooksCapped ∧
      ¬ (M.run start [.request .plain putHooked]).app.config.WebhooksCapped ∧
      ¬ (M.run start [.request .plain putHooks]).app.config.WebhooksCapped := by
  intro reboots host start M
  refine ⟨?_, ?_, ?_, ?_⟩
  · decide +kernel
  · decide +kernel
  · decide +kernel
  · decide +kernel

end WaterController
