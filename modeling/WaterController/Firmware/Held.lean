import WaterController.Firmware.Sections

/-!
# The configurations a device holds

A configuration comes into force by an accepted body, by an edit of the console, or
at a boot, which loads what was saved or falls back to the defaults.  The console
edits the networks and the HTTPS section, and so does the boot.

So a property that the defaults have, and that the networks and the HTTPS section do
not enter (`Kept`), is one of every configuration a device holds, as long as the
bodies it accepts make configurations that have it (`Holds.next`).  The invariant is
about the configuration in force and about what the next boot would load (`Holds`).  A
save replaces what would be loaded by what is saved (`load_save`).
-/

namespace WaterController

open Machines (Machine)

/-! ## Saving and loading -/

namespace Config

/-- What loads behind a save is what was saved, or what would have loaded before. -/
theorem load_save {serde : Serde Config} (hfaithful : serde.Faithful) {build : BuildEnv}
    {cfg c : Config} {env : Env} {nvs : NvsStore}
    (h : load build serde (cfg.save serde env nvs).1 = .ok c) :
    c = cfg ∨ load build serde nvs = .ok c := by
  unfold save at h
  cases hto : serde.toVec cfg with
  | error e =>
      rw [hto] at h
      exact .inr h
  | ok bytes =>
      rw [hto] at h
      cases hset : env.nvsSet nvsKey with
      | error e =>
          simp only [hset] at h
          exact .inr h
      | ok u =>
          cases u
          simp only [hset, load, NvsStore.get_set_ok] at h
          cases hfrom : serde.fromSlice bytes with
          | error e =>
              rw [hfrom] at h
              cases h
          | ok c' =>
              rw [hfrom] at h
              cases h
              exact .inl (hfaithful cfg bytes c hto hfrom)

/-- What loads depends on one key. -/
theorem load_congr (build : BuildEnv) (serde : Serde Config) {nvs nvs' : NvsStore}
    (h : nvs.get nvsKey = nvs'.get nvsKey) : load build serde nvs = load build serde nvs' := by
  rw [load, h, load]

/-- A property that the defaults have, and that neither the networks nor the HTTPS
section enter. -/
structure Kept (build : BuildEnv) (P : Config → Prop) : Prop where
  default : P (.default build)
  networks : ∀ cfg networks, P cfg → P { cfg with wifi.networks := networks }
  https : ∀ cfg https, P cfg → P { cfg with https := https }

end Config

namespace Firmware

/-! ## Accepted requests -/

section Requests

variable (codecs : Codecs)

/-- The request passes every check, and its configuration is saved. -/
structure Admits {α : Type} (serde : Serde α) (apply : Config → α → Config) (env : Env)
    (fw : Firmware) (req : Request) (new : α) : Prop where
  authorized : requireAuth fw.app req = true
  fits : req.body.length ≤ maxBody
  parsed : serde.fromSlice req.body = .ok new
  saved : ((apply fw.app.config new).save codecs.config env fw.nvs).2 = .ok ()

/-- Everything the answer to a `PUT` can do to the configuration and to what the
next boot loads. -/
inductive PutStep {α : Type} (serde : Serde α) (apply : Config → α → Config) (env : Env)
    (fw : Firmware) (req : Request) (fw' : Firmware) : Prop where
  | installed (new : α) : Admits codecs serde apply env fw req new →
      fw'.app.config = apply fw.app.config new →
      fw'.nvs = ((apply fw.app.config new).save codecs.config env fw.nvs).1 →
      PutStep serde apply env fw req fw'
  | refused : (∀ new, ¬ Admits codecs serde apply env fw req new) →
      fw'.app.config = fw.app.config → fw'.nvs = fw.nvs →
      PutStep serde apply env fw req fw'

theorem handlePut_step {α : Type} (serde : Serde α) (apply : Config → α → Config)
    (notify : WifiSupervisor → Config → WifiSupervisor) (env : Env) (fw : Firmware)
    (req : Request) :
    PutStep codecs serde apply env fw req
      (handlePut codecs serde apply notify env fw req).1 := by
  have hstep := handlePut_writeStep codecs serde apply notify env fw req
  generalize (handlePut codecs serde apply notify env fw req).1 = fw' at hstep
  generalize ((handlePut codecs serde apply notify env fw req).2.status == 204) = ok at hstep
  cases hstep with
  | refused hnone =>
      refine .refused (fun new h => ?_) rfl rfl
      have hedit := hnone (by simp [h.authorized, h.fits])
      cases hedit.symm.trans (ConfigWrite.bodyEdit_ok h.parsed apply)
  | unsaved edit e hadmitted hedit hsave =>
      obtain ⟨new, hparse, rfl⟩ := ConfigWrite.of_bodyEdit hedit
      refine .refused (fun new' h => ?_) rfl rfl
      cases hparse.symm.trans h.parsed
      cases hsave.symm.trans h.saved
  | written edit hadmitted hedit hsave =>
      obtain ⟨new, hparse, rfl⟩ := ConfigWrite.of_bodyEdit hedit
      simp only [Bool.and_eq_true, decide_eq_true_eq] at hadmitted
      exact .installed new ⟨hadmitted.1, hadmitted.2, hparse, hsave⟩ rfl rfl

theorem putSection_step (s : ConfigSection) (env : Env) (fw : Firmware) (req : Request) :
    PutStep codecs (s.serde codecs) s.apply env fw req (putSection codecs s env fw req).1 := by
  cases s <;> exact handlePut_step codecs _ _ _ env fw req

/-- An accepted request puts its configuration in force. -/
theorem PutStep.config {codecs : Codecs} {α : Type} {serde : Serde α}
    {apply : Config → α → Config} {env : Env} {fw fw' : Firmware} {req : Request}
    (h : PutStep codecs serde apply env fw req fw') {new : α}
    (hnew : Admits codecs serde apply env fw req new) :
    fw'.app.config = apply fw.app.config new := by
  cases h with
  | installed new' hnew' hconfig =>
      cases hnew.parsed.symm.trans hnew'.parsed
      exact hconfig
  | refused hnone => exact absurd hnew (hnone new)

/-- The configuration that an accepted request makes. -/
inductive Installs (fw : Firmware) : FirmwareEvent → Config → Prop where
  | config (env : Env) (req : Request) (new : Config) :
      Admits codecs codecs.config Config.mergePreservingSecrets env fw req new →
      Installs fw (.putConfig env req) (fw.app.config.mergePreservingSecrets new)
  | «section» (s : ConfigSection) (env : Env) (req : Request) (new : s.Value) :
      Admits codecs (s.serde codecs) s.apply env fw req new →
      Installs fw (.putSection s env req) (s.apply fw.app.config new)

end Requests

/-! ## What is kept -/

section Invariant

variable (codecs : Codecs) (build : BuildEnv) (certgen : CertGen) (P : Config → Prop)

/-- A configuration has the property, and so has what a store loads. -/
structure HoldsAt (cfg : Config) (nvs : NvsStore) : Prop where
  live : P cfg
  stored : ∀ c, Config.load build codecs.config nvs = .ok c → P c

/-- The configuration in force has the property, and so has what the next boot loads. -/
abbrev Holds (fw : Firmware) : Prop := HoldsAt codecs build P fw.app.config fw.nvs

variable {codecs build P}

theorem HoldsAt.save {cfg cfg' : Config} {nvs : NvsStore} (h : HoldsAt codecs build P cfg nvs)
    (hfaithful : codecs.config.Faithful) (hcfg : P cfg') (env : Env) :
    HoldsAt codecs build P cfg (cfg'.save codecs.config env nvs).1 where
  live := h.live
  stored := by
    intro c hc
    rcases Config.load_save hfaithful hc with rfl | hold
    · exact hcfg
    · exact h.stored c hold

theorem HoldsAt.install {cfg cfg' : Config} {nvs : NvsStore} (h : HoldsAt codecs build P cfg nvs)
    (hcfg : P cfg') : HoldsAt codecs build P cfg' nvs :=
  ⟨hcfg, h.stored⟩

theorem Holds.putStep {fw fw' : Firmware} (h : Holds codecs build P fw)
    (hfaithful : codecs.config.Faithful) {α : Type} {serde : Serde α}
    {apply : Config → α → Config} {env : Env} {req : Request}
    (hnew : ∀ new, Admits codecs serde apply env fw req new → P (apply fw.app.config new))
    (hstep : PutStep codecs serde apply env fw req fw') : Holds codecs build P fw' := by
  cases hstep with
  | installed new hadmits hconfig hnvs =>
      rw [Holds, hconfig, hnvs]
      exact (h.save hfaithful (hnew new hadmits) env).install (hnew new hadmits)
  | refused _ hconfig hnvs =>
      rw [Holds, hconfig, hnvs]
      exact h

theorem Holds.editConfig {fw : Firmware} (h : Holds codecs build P fw)
    (hfaithful : codecs.config.Faithful) (edit : Config → Config)
    (hedit : ∀ cfg, P cfg → P (edit cfg))
    (notify : WifiSupervisor → Config → WifiSupervisor) (env : Env) :
    Holds codecs build P (fw.editConfig codecs edit notify env) := by
  have hcfg : P (edit fw.app.config) := hedit _ h.live
  rw [Firmware.editConfig]
  dsimp only
  cases ((edit fw.app.config).save codecs.config env fw.nvs).2 with
  | error e => exact h.save hfaithful hcfg env
  | ok u => exact (h.save hfaithful hcfg env).install hcfg

theorem holdsAt_loadOrDefault (hkept : Config.Kept build P) (hfaithful : codecs.config.Faithful)
    {nvs : NvsStore} (h : ∀ c, Config.load build codecs.config nvs = .ok c → P c) (env : Env) :
    HoldsAt codecs build P (loadOrDefault codecs build env nvs).1
      (loadOrDefault codecs build env nvs).2 := by
  rw [loadOrDefault]
  cases hload : Config.load build codecs.config nvs with
  | ok cfg => exact ⟨h cfg hload, h⟩
  | error e =>
      have hdefault : HoldsAt codecs build P (.default build) nvs := ⟨hkept.default, h⟩
      exact hdefault.save hfaithful hkept.default env

theorem HoldsAt.ensureCert {cfg : Config} {nvs : NvsStore} (h : HoldsAt codecs build P cfg nvs)
    (hhttps : ∀ cfg https, P cfg → P { cfg with https := https })
    (hfaithful : codecs.config.Faithful) (env : Env) :
    HoldsAt codecs build P (ensureCert codecs certgen env cfg nvs).1
      (ensureCert codecs certgen env cfg nvs).2 := by
  rw [Firmware.ensureCert]
  split
  · cases certgen (certName cfg) with
    | error e => exact h
    | ok pair =>
        obtain ⟨cert, key⟩ := pair
        have hcert : P { cfg with https.certPem := cert, https.keyPem := key } :=
          hhttps cfg _ h.live
        exact (h.install hcert).save hfaithful hcert env
  · exact h

/-- A boot from a store that loads what has the property. -/
theorem holds_boot (hkept : Config.Kept build P) (hfaithful : codecs.config.Faithful)
    {nvs : NvsStore} (h : ∀ c, Config.load build codecs.config nvs = .ok c → P c) (env : Env) :
    Holds codecs build P (boot codecs build certgen env nvs) :=
  (holdsAt_loadOrDefault hkept hfaithful h env).ensureCert certgen hkept.https hfaithful env

/-- A store that was never written loads the defaults. -/
theorem holds_boot_blank (hkept : Config.Kept build P) (hfaithful : codecs.config.Faithful)
    (env : Env) : Holds codecs build P (boot codecs build certgen env .blank) := by
  refine holds_boot certgen hkept hfaithful (fun c hc => ?_) env
  cases hc
  exact hkept.default

/-- An erased store loads the defaults. -/
theorem HoldsAt.factoryReset {cfg : Config} {nvs : NvsStore} (h : HoldsAt codecs build P cfg nvs)
    (hkept : Config.Kept build P) (env : Env) :
    HoldsAt codecs build P cfg (Config.factoryReset env nvs).1 where
  live := h.live
  stored := by
    intro c hc
    unfold Config.factoryReset at hc
    cases hset : env.nvsSet Config.nvsKey with
    | error e =>
        rw [hset] at hc
        exact h.stored c hc
    | ok u =>
        have hnone : (nvs.remove Config.nvsKey (.ok u)).get Config.nvsKey = none := by
          simp [NvsStore.remove, NvsStore.get]
        rw [hset, Config.load, hnone] at hc
        cases hc
        exact hkept.default

/-! ## Steps -/

/-- A call that installs no configuration leaves what is held alone. -/
theorem Holds.call {fw : Firmware} (h : Holds codecs build P fw) {c : Call}
    (hc : c.op.installs = false) :
    Holds codecs build P ((firmwareMachine codecs build certgen).next fw (.call c hc)) := by
  have hconfig := App.next_config codecs.alarmHistory fw.app hc
  have hget : ((firmwareMachine codecs build certgen).next fw (.call c hc)).nvs.get
      Config.nvsKey = fw.nvs.get Config.nvsKey := by
    have hothers := App.others_next codecs.alarmHistory fw.app c
      (show Config.nvsKey ≠ App.nvsValveState by decide)
      (show Config.nvsKey ≠ App.nvsAlarmHistory by decide)
    have hnext : ((appMachine codecs.alarmHistory).next fw.app c).nvs = some _ :=
      app_nvs ((firmwareMachine codecs build certgen).next fw (.call c hc))
    rw [hnext, fw.app_nvs] at hothers
    exact hothers
  constructor
  · show P ((appMachine codecs.alarmHistory).next fw.app c).config
    rw [hconfig]
    exact h.live
  · intro loaded hloaded
    refine h.stored loaded ?_
    rw [← Config.load_congr build codecs.config hget]
    exact hloaded

/-- An event keeps what is held, unless it installs what has not the property. -/
theorem Holds.next {fw : Firmware} (h : Holds codecs build P fw) (hkept : Config.Kept build P)
    (hfaithful : codecs.config.Faithful) {e : FirmwareEvent}
    (he : ∀ cfg, Installs codecs fw e cfg → P cfg) :
    Holds codecs build P ((firmwareMachine codecs build certgen).next fw e) := by
  cases e with
  | call c hc => exact h.call certgen hc
  | putConfig env req =>
      refine h.putStep hfaithful (fun new hnew => ?_)
        (handlePut_step codecs codecs.config Config.mergePreservingSecrets _ env fw req)
      exact he _ (.config env req new hnew)
  | putSection s env req =>
      refine h.putStep hfaithful (fun new hnew => ?_) (putSection_step codecs s env fw req)
      exact he _ (.section s env req new hnew)
  | modifyNetworks f env =>
      exact h.editConfig hfaithful (fun cfg => { cfg with wifi.networks := f cfg.wifi.networks })
        (fun cfg => hkept.networks cfg _) (fun w cfg => w.connect cfg.wifi.networks) env
  | setHttps on env =>
      exact h.editConfig hfaithful (fun cfg => { cfg with https.enabled := on })
        (fun cfg => hkept.https cfg _) (fun w _ => w) env
  | factoryReset env req =>
      have herased := h.factoryReset hkept env
      show Holds codecs build P (fw.factoryReset codecs build certgen env req).1
      rw [Firmware.factoryReset]
      split
      · exact h
      · dsimp only
        split
        · exact herased
        · exact holds_boot certgen hkept hfaithful herased.stored env
  | reboot env => exact holds_boot certgen hkept hfaithful h.stored env

/-- What an accepted request makes is in force behind it. -/
theorem Installs.config_next {fw : Firmware} {e : FirmwareEvent} {cfg : Config}
    (h : Installs codecs fw e cfg) :
    ((firmwareMachine codecs build certgen).next fw e).app.config = cfg := by
  cases h with
  | config env req new hnew =>
      exact (handlePut_step codecs codecs.config Config.mergePreservingSecrets
        (fun w _ => w) env fw req).config hnew
  | «section» s env req new hnew => exact (putSection_step codecs s env fw req).config hnew

end Invariant

end Firmware

end WaterController
