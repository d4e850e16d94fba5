import Mathlib.Data.List.Infix
import WaterController.Config.Redaction
import WaterController.Firmware.ConfigApi

/-!
# Configuration reads of the std firmware

A `GET` of the configuration or of a section of it answers with the redacted
configuration, and checks no token.  Only a `GET` that asks for everything does,
and a device refuses it to those who do not show its token.

So what a client without a token reads depends on the redacted configuration
alone.  Redaction blanks fewer fields than hold secrets: the password of the
fallback access point and the values of the webhook headers go out.  Two devices
that differ in their secrets only are told apart if and only if they differ in
one of these (`reads_agree_iff`).
-/

namespace WaterController

/-! ## Routes -/

structure GetRequest where
  uri : String
  authorization : Option String := none

/-- The answer to a `GET`: a refusal, or JSON. -/
inductive ReadResponse where
  | refused (response : Response)
  | json (body : Bytes)
deriving DecidableEq, Repr

/-- The JSON of a value.  A value that cannot be written is an empty body. -/
def jsonBody {α : Type} (serde : Serde α) (a : α) : Bytes :=
  match serde.toVec a with
  | .ok bytes => bytes
  | .error _ => []

/-- `req.uri().contains("all")`. -/
def GetRequest.wantsAll (req : GetRequest) : Bool := decide ("all".toList <:+: req.uri.toList)

namespace Firmware

variable (codecs : Codecs)

/-- `GET /api/config`. -/
def getConfig (fw : Firmware) (req : GetRequest) : ReadResponse :=
  if req.wantsAll then
    if !requireAuth fw.app ⟨req.authorization, []⟩ then .refused unauthorized
    else .json (jsonBody codecs.config fw.app.config)
  else .json (jsonBody codecs.config fw.app.config.redactSecretsForApi)

/-- Answer the `GET` of what `get` takes from the redacted configuration. -/
def handleGet {α : Type} (serde : Serde α) (get : Config → α) (fw : Firmware) : ReadResponse :=
  .json (jsonBody serde (get fw.app.config.redactSecretsForApi))

/-- `GET /api/config/<section>`. -/
def getSection : ConfigSection → Firmware → ReadResponse
  | .wifi => handleGet codecs.wifi (·.wifi)
  | .mqtt => handleGet codecs.mqtt (·.mqtt)
  | .switches => handleGet codecs.switches (·.switches)
  | .sensors => handleGet codecs.sensors (·.sensors)
  | .schedule => handleGet codecs.schedule (·.schedule)
  | .https => handleGet codecs.https (·.https)
  | .wireguard => handleGet codecs.wireguard (·.wireguard)
  | .time => handleGet codecs.time fun cfg => ⟨cfg.timezone, cfg.sntpServers⟩
  | .auth => handleGet codecs.auth fun _ => ⟨""⟩
  | .flowAlarm => handleGet codecs.flowAlarm (·.flowAlarm)
  | .webhooks => handleGet codecs.webhooks (·.webhooks)

/-- The request does not ask for everything, or shows no token the device takes. -/
def Unauthenticated (fw : Firmware) (req : GetRequest) : Prop :=
  req.wantsAll = true → requireAuth fw.app ⟨req.authorization, []⟩ = false

theorem getSection_congr {fw₁ fw₂ : Firmware}
    (h : fw₁.app.config.redactSecretsForApi = fw₂.app.config.redactSecretsForApi)
    (s : ConfigSection) : getSection codecs s fw₁ = getSection codecs s fw₂ := by
  cases s <;> simp only [getSection, handleGet, h]

theorem getConfig_congr {fw₁ fw₂ : Firmware}
    (h : fw₁.app.config.redactSecretsForApi = fw₂.app.config.redactSecretsForApi)
    {req : GetRequest} (h₁ : fw₁.Unauthenticated req) (h₂ : fw₂.Unauthenticated req) :
    fw₁.getConfig codecs req = fw₂.getConfig codecs req := by
  unfold getConfig
  split
  · rename_i hall
    simp [h₁ hall, h₂ hall]
  · rw [h]

end Firmware

/-! ## What is secret -/

/-- A webhook without the values of its headers, which carry tokens. -/
def WebhookConfig.withoutSecrets (w : WebhookConfig) : WebhookConfig :=
  { w with headers := w.headers.map fun h => { h with value := "" } }

def WebhookConfig.headerValues (w : WebhookConfig) : List String := w.headers.map (·.value)

namespace Config

/-- A configuration without any of its secrets. -/
def withoutSecrets (cfg : Config) : Config :=
  { cfg with
    wifi := { cfg.wifi with
      networks := cfg.wifi.networks.map fun net => { net with password := "" }
      apPassword := "" }
    mqtt := { cfg.mqtt with password := "", clientKeyPem := "" }
    https := { cfg.https with keyPem := "" }
    wireguard := { cfg.wireguard with privateKey := "", peerPresharedKey := "" }
    adminToken := ""
    webhooks := cfg.webhooks.map (·.withoutSecrets) }

/-- The values of all webhook headers. -/
def headerValues (cfg : Config) : List (List String) := cfg.webhooks.map (·.headerValues)

end Config

/-! ## What redaction leaves -/

/-- Two lists are equal if what two functions that tell all elements apart make of them is. -/
theorem map_pair_injective {α β γ : Type} {f : α → β} {g : α → γ}
    (hpair : ∀ a b, f a = f b → g a = g b → a = b) {xs ys : List α} (hf : xs.map f = ys.map f)
    (hg : xs.map g = ys.map g) : xs = ys := by
  induction xs generalizing ys with
  | nil => exact (List.map_eq_nil_iff.mp hf.symm).symm
  | cons x xs ih =>
      cases ys with
      | nil => cases hf
      | cons y ys =>
          simp only [List.map_cons, List.cons.injEq] at hf hg
          rw [hpair x y hf.1 hg.1, ih hf.2 hg.2]

/-- A webhook is what it is without its header values, and these. -/
theorem WebhookConfig.eq_of_withoutSecrets {a b : WebhookConfig}
    (h : a.withoutSecrets = b.withoutSecrets) (hvalues : a.headerValues = b.headerValues) :
    a = b := by
  obtain ⟨enabled, url, kind, events, method, headers, template⟩ := a
  obtain ⟨enabled', url', kind', events', method', headers', template'⟩ := b
  simp only [withoutSecrets, WebhookConfig.mk.injEq] at h
  obtain ⟨rfl, rfl, rfl, rfl, rfl, hheaders, rfl⟩ := h
  have hsame : headers = headers' := by
    refine map_pair_injective (fun x y hname hvalue => ?_) hheaders hvalues
    obtain ⟨name, value⟩ := x
    obtain ⟨name', value'⟩ := y
    simp only [HeaderEntry.mk.injEq, and_true] at hname hvalue ⊢
    exact ⟨hname, hvalue⟩
  rw [hsame]

/-- Configurations that differ in secrets only are redacted to the same if and only
if the secrets that redaction leaves are the same. -/
theorem Config.redact_eq_iff {c₁ c₂ : Config} (h : c₁.withoutSecrets = c₂.withoutSecrets) :
    c₁.redactSecretsForApi = c₂.redactSecretsForApi ↔
      c₁.wifi.apPassword = c₂.wifi.apPassword ∧ c₁.headerValues = c₂.headerValues := by
  constructor
  · intro hredact
    have hwebhooks : c₁.webhooks = c₂.webhooks := congrArg (·.webhooks) hredact
    exact ⟨congrArg (·.wifi.apPassword) hredact, by simp only [headerValues, hwebhooks]⟩
  · rintro ⟨hap, hvalues⟩
    have hwebhooks : c₁.webhooks = c₂.webhooks :=
      map_pair_injective (fun a b => WebhookConfig.eq_of_withoutSecrets)
        (congrArg (·.webhooks) h) hvalues
    -- redaction is what has no secrets, with those of them put back that it leaves
    have hput : ∀ c : Config, c.redactSecretsForApi =
        { c.withoutSecrets with
          wifi := { c.withoutSecrets.wifi with apPassword := c.wifi.apPassword }
          webhooks := c.webhooks } := fun _ => rfl
    rw [hput c₁, hput c₂, h, hap, hwebhooks]

namespace Firmware

/-- **Redaction.**  Two devices that differ in secrets only have the same redacted
configuration, and give the same answers to every `GET` without a token, if and only
if the password of the access point and the values of the webhook headers are the
same. -/
theorem reads_agree_iff (codecs : Codecs) (fw₁ fw₂ : Firmware)
    (h : fw₁.app.config.withoutSecrets = fw₂.app.config.withoutSecrets) :
    (fw₁.app.config.redactSecretsForApi = fw₂.app.config.redactSecretsForApi ∧
      (∀ req, fw₁.Unauthenticated req → fw₂.Unauthenticated req →
        fw₁.getConfig codecs req = fw₂.getConfig codecs req) ∧
      ∀ s, getSection codecs s fw₁ = getSection codecs s fw₂) ↔
    fw₁.app.config.wifi.apPassword = fw₂.app.config.wifi.apPassword ∧
      fw₁.app.config.headerValues = fw₂.app.config.headerValues := by
  rw [← Config.redact_eq_iff h]
  constructor
  · intro hagree
    exact hagree.1
  · intro hredact
    exact ⟨hredact, fun _ h₁ h₂ => getConfig_congr codecs hredact h₁ h₂,
      getSection_congr codecs hredact⟩

/-- Codecs that write what the broker section says of its user. -/
def brokerCodecs : Codecs :=
  { Codecs.fails with
    mqtt :=
      { toVec := fun m => .ok (asciiBytes (m.username ++ ":" ++ m.password))
        fromSlice := fun _ => .error "not read" } }

/-- A broker password and a token do not show. -/
theorem reads_agree_broker_password :
    let bare := Config.default {}
    let secret := { bare with mqtt.password := "broker-secret", adminToken := "token" }
    let device := ofConfig brokerCodecs
    (device bare).app.config.redactSecretsForApi = (device secret).app.config.redactSecretsForApi ∧
      (∀ req, (device bare).Unauthenticated req → (device secret).Unauthenticated req →
        (device bare).getConfig brokerCodecs req = (device secret).getConfig brokerCodecs req) ∧
      ∀ s, getSection brokerCodecs s (device bare) = getSection brokerCodecs s (device secret) := by
  intro bare secret device
  exact (reads_agree_iff brokerCodecs (device bare) (device secret) rfl).mpr ⟨rfl, rfl⟩

/-- The password of the access point shows, and so does the value of a header. -/
theorem redaction_reveals :
    let bare := Config.default {}
    let hook (value : String) : WebhookConfig :=
      ⟨true, "http://hooks", .generic, [.boot], "POST", [⟨"Authorization", value⟩], ""⟩
    let locked := { bare with wifi.apPassword := "ap-secret" }
    let signed (value : String) := { bare with webhooks := [hook value] }
    (bare.withoutSecrets = locked.withoutSecrets ∧
      bare.redactSecretsForApi ≠ locked.redactSecretsForApi) ∧
    ((signed "Bearer a").withoutSecrets = (signed "Bearer b").withoutSecrets ∧
      (signed "Bearer a").redactSecretsForApi ≠ (signed "Bearer b").redactSecretsForApi) := by
  intro bare hook locked signed
  refine ⟨⟨rfl, fun h => ?_⟩, ⟨rfl, fun h => ?_⟩⟩
  · have hap := congrArg (·.wifi.apPassword) h
    revert hap
    decide
  · have hvalues := congrArg (·.headerValues) h
    revert hvalues
    decide

end Firmware

end WaterController
