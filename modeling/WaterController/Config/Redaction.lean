import WaterController.Core.Config

/-!
# The round trip of a redacted configuration

A client reads the configuration with its secrets blank, edits it and sends it
back.  Each blank secret is then filled from the stored configuration.  The
scalar secrets are filled field by field, so all of them come back
(`mergePreservingSecrets_eq`).  A network has no field that names it but its SSID,
and the search takes the first network of that SSID.  So the passwords come back
if and only if networks of one SSID share their password (`SsidsDetermine`).
-/

namespace WaterController.Config

/-! ## Edits of a redacted configuration -/

/-- A configuration as a client sends it that has edited a redacted one: every
secret is blank, and the networks have the names of the given ones, in their order. -/
structure Redacted (nets : List WifiCreds) (r : Config) : Prop where
  blank : r.redactSecretsForApi = r
  ssids : r.wifi.networks.map (·.ssid) = nets.map (·.ssid)

/-- The edited configuration with the secrets of the stored one and the given
networks. -/
def withSecretsOf (r stored : Config) (nets : List WifiCreds) : Config :=
  { r with
    wifi := { r.wifi with networks := nets }
    mqtt := { r.mqtt with
      password := stored.mqtt.password, clientKeyPem := stored.mqtt.clientKeyPem }
    https := { r.https with keyPem := stored.https.keyPem }
    wireguard := { r.wireguard with
      privateKey := stored.wireguard.privateKey
      peerPresharedKey := stored.wireguard.peerPresharedKey }
    adminToken := stored.adminToken }

/-- Networks of one SSID share their password. -/
def SsidsDetermine (cfg : Config) : Prop :=
  ∀ net ∈ cfg.wifi.networks, ∀ other ∈ cfg.wifi.networks,
    net.ssid = other.ssid → net.password = other.password

instance (cfg : Config) : Decidable cfg.SsidsDetermine :=
  inferInstanceAs (Decidable (∀ net ∈ _, ∀ other ∈ _, _ → _))

/-! ## Passwords -/

/-- The first stored network of the name of a stored network. -/
theorem exists_find {stored : List WifiCreds} {net : WifiCreds} (h : net ∈ stored) :
    ∃ first ∈ stored, stored.find? (·.ssid = net.ssid) = some first ∧ first.ssid = net.ssid := by
  cases hfind : stored.find? (·.ssid = net.ssid) with
  | none =>
      have hother := List.find?_eq_none.mp hfind net h
      simp at hother
  | some first =>
      exact ⟨first, List.mem_of_find?_eq_some hfind, rfl, by simpa using List.find?_some hfind⟩

/-- A blank password is filled with that of the first network of its name. -/
theorem restorePassword_blank {stored : List WifiCreds} {first : WifiCreds} {ssid : String}
    (h : stored.find? (·.ssid = ssid) = some first) :
    restorePassword stored ⟨ssid, ""⟩ = ⟨ssid, first.password⟩ := by
  simp [restorePassword, h]

/-- The stored networks come back if and only if networks of one SSID share their
password. -/
theorem map_restorePassword_blank_iff {stored nets : List WifiCreds} (h : nets.Perm stored) :
    (nets.map fun net => restorePassword stored ⟨net.ssid, ""⟩) = nets ↔
      ∀ net ∈ stored, ∀ other ∈ stored, net.ssid = other.ssid → net.password = other.password := by
  have hpointwise : (nets.map fun net => restorePassword stored ⟨net.ssid, ""⟩) = nets ↔
      ∀ net ∈ nets, restorePassword stored ⟨net.ssid, ""⟩ = net := by
    conv_lhs => rhs; rw [← List.map_id nets]
    exact List.map_inj_left
  rw [hpointwise]
  constructor
  · intro hback net hnet other hother hssid
    have hfirst : ∀ n ∈ stored, ∀ first, stored.find? (·.ssid = n.ssid) = some first →
        n.password = first.password := by
      intro n hn first hfind
      have hn' := hback n (h.mem_iff.mpr hn)
      rw [restorePassword_blank hfind] at hn'
      exact (congrArg (·.password) hn').symm
    obtain ⟨first, -, hfind, -⟩ := exists_find hnet
    rw [hfirst net hnet first hfind]
    rw [hssid] at hfind
    exact (hfirst other hother first hfind).symm
  · intro hshare net hnet
    have hmem := h.mem_iff.mp hnet
    obtain ⟨first, hstored, hfind, hssid⟩ := exists_find hmem
    rw [restorePassword_blank hfind, hshare first hstored net hmem hssid]

/-! ## The whole configuration -/

theorem keepBlank_blank (stored : String) : keepBlank "" stored = stored := rfl

namespace Redacted

variable {nets : List WifiCreds} {r : Config}

/-- The networks of an edited configuration: the given names with blank passwords. -/
theorem networks_eq (h : Redacted nets r) :
    r.wifi.networks = nets.map fun net => ⟨net.ssid, ""⟩ := by
  have hblank : r.wifi.networks = r.wifi.networks.map fun net => ⟨net.ssid, ""⟩ :=
    (congrArg (·.wifi.networks) h.blank).symm
  have hssids := congrArg (List.map fun ssid => (⟨ssid, ""⟩ : WifiCreds)) h.ssids
  rw [List.map_map, List.map_map] at hssids
  exact hblank.trans hssids

/-- All but the passwords of the networks comes back. -/
theorem mergePreservingSecrets_eq (h : Redacted nets r) (stored : Config) :
    stored.mergePreservingSecrets r =
      r.withSecretsOf stored
        (nets.map fun net => restorePassword stored.wifi.networks ⟨net.ssid, ""⟩) := by
  have hmqtt : r.mqtt.password = "" := (congrArg (·.mqtt.password) h.blank).symm
  have hclient : r.mqtt.clientKeyPem = "" := (congrArg (·.mqtt.clientKeyPem) h.blank).symm
  have hkey : r.https.keyPem = "" := (congrArg (·.https.keyPem) h.blank).symm
  have hprivate : r.wireguard.privateKey = "" :=
    (congrArg (·.wireguard.privateKey) h.blank).symm
  have hshared : r.wireguard.peerPresharedKey = "" :=
    (congrArg (·.wireguard.peerPresharedKey) h.blank).symm
  have htoken : r.adminToken = "" := (congrArg (·.adminToken) h.blank).symm
  simp only [mergePreservingSecrets, restoreSecretsFrom, withSecretsOf, hmqtt, hclient, hkey,
    hprivate, hshared, htoken, keepBlank_blank, h.networks_eq, List.map_map]
  rfl

end Redacted

/-- A redacted configuration is one that was edited nowhere. -/
theorem redacted_redactSecretsForApi (cfg : Config) :
    Redacted cfg.wifi.networks cfg.redactSecretsForApi where
  blank := by simp [redactSecretsForApi]
  ssids := by simp [redactSecretsForApi]

theorem withSecretsOf_redact (cfg : Config) :
    cfg.redactSecretsForApi.withSecretsOf cfg cfg.wifi.networks = cfg := rfl

theorem withSecretsOf_injective {r stored : Config} {nets nets' : List WifiCreds} :
    r.withSecretsOf stored nets = r.withSecretsOf stored nets' ↔ nets = nets' := by
  constructor
  · intro h
    exact congrArg (·.wifi.networks) h
  · rintro rfl
    rfl

/-- **Round trip.**  A redacted configuration that comes back changes nothing, and
one that comes back with edits changes what was edited and nothing else, if and
only if stored networks of one SSID share their password.  The edits may put the
networks into another order. -/
theorem redacted_round_trip_iff (stored : Config) :
    (stored.mergePreservingSecrets stored.redactSecretsForApi = stored ↔
      stored.SsidsDetermine) ∧
    ∀ nets r, nets.Perm stored.wifi.networks → Redacted nets r →
      (stored.mergePreservingSecrets r = r.withSecretsOf stored nets ↔
        stored.SsidsDetermine) := by
  have hedited : ∀ nets r, nets.Perm stored.wifi.networks → Redacted nets r →
      (stored.mergePreservingSecrets r = r.withSecretsOf stored nets ↔
        stored.SsidsDetermine) := by
    intro nets r hperm hr
    rw [hr.mergePreservingSecrets_eq stored, withSecretsOf_injective,
      map_restorePassword_blank_iff hperm]
    rfl
  refine ⟨?_, hedited⟩
  have hsame := hedited _ _ (.refl _) (redacted_redactSecretsForApi stored)
  rwa [withSecretsOf_redact] at hsame

/-- Two networks of one name that differ in their password. -/
def twoPasswords : Config :=
  { Config.default {} with
    wifi.networks := [⟨"home", "first-secret"⟩, ⟨"home", "second-secret"⟩] }

/-- An edited time zone comes back with the passwords of two networks, in another order. -/
theorem redacted_round_trip_reordered :
    let stored := { Config.default {} with wifi.networks := [⟨"home", "a"⟩, ⟨"guest", "b"⟩] }
    let r :=
      { Config.default {} with
        timezone := "UTC", wifi.networks := [⟨"guest", ""⟩, ⟨"home", ""⟩] }
    stored.mergePreservingSecrets r =
      r.withSecretsOf stored [⟨"guest", "b"⟩, ⟨"home", "a"⟩] := by
  intro stored r
  refine ((redacted_round_trip_iff stored).2 _ r ?_ ⟨?_, ?_⟩).mpr ?_
  · exact .swap _ _ _
  · rfl
  · rfl
  · decide

/-- The second of two networks of one name comes back with the password of the first. -/
theorem redacted_round_trip_loses :
    twoPasswords.mergePreservingSecrets twoPasswords.redactSecretsForApi ≠ twoPasswords := by
  intro h
  have hnetworks := congrArg (·.wifi.networks) h
  revert hnetworks
  decide

end WaterController.Config
