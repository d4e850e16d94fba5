import WaterController.Library.Machine
import WaterController.Nostd.FlashImage

/-!
# Runs of the flash store

A `Call` is a `set` or a `remove`.  A call changes the map in memory and then
flushes it, whatever comes of the flush.

Two things follow.  After calls that all returned `Ok` the region mirrors the map,
and a reboot reads back what was last said of every key (`reboot_after_calls`).
A call that fails has changed the map already: it goes unseen if and only if it
did not change the map to begin with (`failed_call_unseen_iff`).
-/

namespace WaterController

open Machines

namespace FlashKv

inductive Call where
  | set (key : String) (value : Bytes)
  | remove (key : String)
deriving DecidableEq

namespace Call

/-- What a call makes of the map. -/
def apply : Call → Cache → Cache
  | set key value, cache => cache.insert key value
  | remove key, cache => cache.erase key

/-- The key a call names. -/
def key : Call → String
  | set key _ => key
  | remove key => key

/-- What a call makes of the key it names. -/
def value : Call → Option Bytes
  | set _ value => some value
  | remove _ => none

theorem getElem?_apply (call : Call) (cache : Cache) (k : String) :
    (call.apply cache)[k]? = if call.key = k then call.value else cache[k]? := by
  cases call with
  | set key value =>
      simp only [apply, Call.key, Call.value, Std.TreeMap.getElem?_insert]
      by_cases h : key = k <;> simp [h]
  | remove key =>
      simp only [apply, Call.key, Call.value, Std.TreeMap.getElem?_erase]
      by_cases h : key = k <;> simp [h]

theorem apply_congr (call : Call) {cache cache' : Cache} (h : cache.Equiv cache') :
    (call.apply cache).Equiv (call.apply cache') := by
  refine Std.TreeMap.Equiv.of_forall_constGet?_eq fun k => ?_
  have hcall := call.getElem?_apply cache k
  have hcall' := call.getElem?_apply cache' k
  rw [h.getElem?_eq] at hcall
  exact hcall.trans hcall'.symm

end Call

/-! ## One call -/

/-- A call with the outcome the flash gives its flush. -/
def perform (kv : FlashKv) (call : Call) (outcome : FlashOutcome) :
    Except NvsError Unit × FlashKv :=
  match call with
  | .set key value => kv.set key value outcome
  | .remove key => kv.remove key outcome

/-- Every call flushes the map it leaves. -/
theorem perform_eq (kv : FlashKv) (call : Call) (outcome : FlashOutcome) :
    kv.perform call outcome =
      ((flush kv.flash (call.apply kv.cache) outcome).1,
        ⟨(flush kv.flash (call.apply kv.cache) outcome).2, call.apply kv.cache⟩) := by
  cases call <;> rfl

theorem perform_get (kv : FlashKv) (call : Call) (outcome : FlashOutcome) (k : String) :
    (kv.perform call outcome).2.get k = if call.key = k then call.value else kv.get k := by
  rw [perform_eq]
  exact call.getElem?_apply kv.cache k

theorem flush_eq_ok_iff (flash : Region) (cache : Cache) (outcome : FlashOutcome) :
    (flush flash cache outcome).1 = .ok () ↔
      (image cache).length ≤ regionLen ∧ outcome = .stored := by
  by_cases hfull : regionLen < (image cache).length
  · simp [flush, hfull, Nat.not_le.mpr hfull]
  · cases outcome <;> simp [flush, hfull, Nat.le_of_not_lt hfull]

/-- A flush that succeeds leaves the image of the map. -/
theorem flush_ok {flash : Region} {cache : Cache} {outcome : FlashOutcome}
    (h : (flush flash cache outcome).1 = .ok ()) :
    (image cache).length ≤ regionLen ∧
      (flush flash cache outcome).2 = Region.erased.write (image cache) := by
  obtain ⟨hfit, rfl⟩ := (flush_eq_ok_iff flash cache outcome).mp h
  exact ⟨hfit, by rw [flush, if_neg (Nat.not_lt.mpr hfit)]⟩

/-! ## Runs -/

/-- The store as a machine.  It puts out what a call returns. -/
def machine : Machine FlashKv (Call × FlashOutcome) (Except NvsError Unit) where
  step kv i := ((kv.perform i.1 i.2).2, (kv.perform i.1 i.2).1)

@[simp] theorem machine_next (kv : FlashKv) (i : Call × FlashOutcome) :
    machine.next kv i = (kv.perform i.1 i.2).2 := rfl

/-- Calls that all return `Ok`. -/
def AllOk (kv : FlashKv) (calls : List (Call × FlashOutcome)) : Prop :=
  ∀ t ∈ machine.trace kv calls, t.output = .ok ()

/-- What calls last said of a key, if they named it. -/
def lastSaid (calls : List (Call × FlashOutcome)) (key : String) : Option (Option Bytes) :=
  (calls.reverse.find? fun i => i.1.key = key).map fun i => i.1.value

/-- A reboot of the store reads back a map. -/
def Holds (flash : Region) (cache : Cache) : Prop :=
  ∃ kv, boot flash = .ok kv ∧ ∀ key, kv.get key = cache[key]?

/-- The region mirrors the map. -/
def Mirrors (kv : FlashKv) : Prop := Holds kv.flash kv.cache

theorem flash_of_boot {flash : Region} {kv : FlashKv} (h : boot flash = .ok kv) :
    kv.flash = flash := by
  simp only [boot, new] at h
  cases hload : load flash true with
  | error panic =>
      rw [hload] at h
      cases h
  | ok cache =>
      rw [hload] at h
      cases h
      rfl

theorem mirrors_of_boot {flash : Region} {kv : FlashKv} (h : boot flash = .ok kv) :
    kv.Mirrors :=
  ⟨kv, (flash_of_boot h).symm ▸ h, fun _ => rfl⟩

theorem holds_write_image {cache : Cache} (hfit : (image cache).length ≤ regionLen) {n : Nat}
    (hn : (image cache).length ≤ n) :
    Holds (Region.erased.write ((image cache).take n)) cache := by
  obtain ⟨map, hload, hmap⟩ := load_write_image hfit hn
  have hboot : boot (Region.erased.write ((image cache).take n)) =
      .ok ⟨Region.erased.write ((image cache).take n), map⟩ := by
    rw [boot, new, hload]
    rfl
  exact ⟨_, hboot, fun key => hmap.getElem?_eq⟩

theorem perform_mirrors {kv : FlashKv} {call : Call} {outcome : FlashOutcome}
    (h : (kv.perform call outcome).1 = .ok ()) : (kv.perform call outcome).2.Mirrors := by
  rw [perform_eq] at h ⊢
  obtain ⟨hfit, hflash⟩ := flush_ok h
  rw [Mirrors]
  rw [hflash]
  simpa using holds_write_image hfit (Nat.le_refl _)

theorem run_mirrors {kv : FlashKv} (h0 : kv.Mirrors) {calls : List (Call × FlashOutcome)}
    (hok : AllOk kv calls) : (machine.run kv calls).Mirrors :=
  machine.run_invariant (P := Mirrors) (G := fun kv i => machine.out kv i = .ok ())
    (fun _ _ hout _ => perform_mirrors hout) h0 fun t ht => by
      rw [← hok t ht, machine.eq_transition ht]
      rfl

theorem run_get (kv : FlashKv) (calls : List (Call × FlashOutcome)) (key : String) :
    (machine.run kv calls).get key = (lastSaid calls key).getD (kv.get key) := by
  induction calls using List.reverseRecOn with
  | nil => rfl
  | append_singleton calls i ih =>
      rw [Machine.run_append, Machine.run_cons, Machine.run_nil, machine_next, perform_get, ih]
      simp only [lastSaid, List.reverse_append, List.reverse_singleton, List.singleton_append,
        List.find?_cons]
      by_cases hkey : i.1.key = key <;> simp [hkey]

/-! ## Reboots -/

/-- A store boots with what was last said of every key, and with what it booted
with before where nothing was said.  Loading an image is the identity on every map
whose image fits. -/
theorem reboot_after_calls {flash : Region} {kv : FlashKv} (hboot : boot flash = .ok kv)
    {calls : List (Call × FlashOutcome)} (hok : AllOk kv calls) :
    (∃ kv', boot (machine.run kv calls).flash = .ok kv' ∧
      ∀ key, kv'.get key = (lastSaid calls key).getD (kv.get key)) ∧
    ∀ cache, (image cache).length ≤ regionLen →
      ∃ map, load (Region.erased.write (image cache)) true = .ok (some map) ∧
        ∀ key : String, map[key]? = cache[key]? := by
  constructor
  · obtain ⟨kv', hreboot, hget⟩ := run_mirrors (mirrors_of_boot hboot) hok
    exact ⟨kv', hreboot, fun key => (hget key).trans (run_get kv calls key)⟩
  · intro cache hfit
    obtain ⟨map, hload, hmap⟩ := load_write_image hfit (Nat.le_refl _)
    rw [List.take_length] at hload
    exact ⟨map, hload, fun key => hmap.getElem?_eq⟩

/-- A fresh region is an empty store. -/
theorem boot_erased : boot Region.erased = .ok ⟨Region.erased, ∅⟩ := by
  have hmagic : Region.erased.bytes.extract 0 4 ≠ magic := by
    rw [Region.erased, List.extract_eq_take_drop, List.drop_replicate, List.take_replicate]
    decide
  simp only [boot, new, load, Bool.not_true, Bool.false_eq_true, if_false, if_pos hmagic]
  rfl

/-- On a fresh store a key is set, another one is set to nothing, and the first
is removed. -/
theorem reboot_after_calls_fresh :
    (∃ kv', boot (machine.run ⟨Region.erased, ∅⟩ [(.set "wc.valve" [1], .stored),
        (.set "wc.cfg" [], .stored), (.remove "wc.valve", .stored)]).flash = .ok kv' ∧
      ∀ key, kv'.get key = (lastSaid [(.set "wc.valve" [1], .stored),
        (.set "wc.cfg" [], .stored), (.remove "wc.valve", .stored)] key).getD none) ∧
    ∀ cache, (image cache).length ≤ regionLen →
      ∃ map, load (Region.erased.write (image cache)) true = .ok (some map) ∧
        ∀ key : String, map[key]? = cache[key]? :=
  reboot_after_calls boot_erased (by unfold AllOk; decide +kernel)

/-! ## Calls that fail -/

/-- Equal maps have equal images. -/
theorem image_congr {cache cache' : Cache} (h : cache.Equiv cache') :
    image cache = image cache' := by
  rw [image_eq, image_eq, h.size_eq, h.toList_eq]

/-- Whether a call succeeds is up to the map and the flash. -/
theorem perform_ok_congr {kv kv' : FlashKv} (h : kv.cache.Equiv kv'.cache) (call : Call)
    (outcome : FlashOutcome) :
    (kv.perform call outcome).1 = .ok () ↔ (kv'.perform call outcome).1 = .ok () := by
  rw [perform_eq, perform_eq, flush_eq_ok_iff, flush_eq_ok_iff,
    image_congr (call.apply_congr h)]

theorem run_congr {kv kv' : FlashKv} (h : kv.cache.Equiv kv'.cache)
    (calls : List (Call × FlashOutcome)) :
    (machine.run kv calls).cache.Equiv (machine.run kv' calls).cache := by
  induction calls generalizing kv kv' with
  | nil => exact h
  | cons i calls ih =>
      refine ih ?_
      rw [machine_next, machine_next, perform_eq, perform_eq]
      exact i.1.apply_congr h

/-- A call that nothing later can tell: every read is as before, and a later
`set`, whatever comes in between, that would have returned `Ok` without it still
does. -/
def Unseen (kv : FlashKv) (call : Call) (outcome : FlashOutcome) : Prop :=
  (∀ key, (kv.perform call outcome).2.get key = kv.get key) ∧
    ∀ between key value outcome',
      ((machine.run kv between).set key value outcome').1 = .ok () →
        ((machine.run (kv.perform call outcome).2 between).set key value outcome').1 = .ok ()

/-- Every read is as before exactly when the call asks for what the map already
holds. -/
theorem reads_same_iff (kv : FlashKv) (call : Call) (outcome : FlashOutcome) :
    (∀ key, (kv.perform call outcome).2.get key = kv.get key) ↔
      kv.get call.key = call.value := by
  constructor
  · intro h
    have hkey := h call.key
    rw [perform_get, if_pos rfl] at hkey
    exact hkey.symm
  · intro h key
    rw [perform_get]
    by_cases hkey : call.key = key
    · rw [if_pos hkey, ← hkey, h]
    · rw [if_neg hkey]

/-- Such a call leaves the map as it was. -/
theorem cache_equiv_of_held {kv : FlashKv} {call : Call} (h : kv.get call.key = call.value)
    (outcome : FlashOutcome) : (kv.perform call outcome).2.cache.Equiv kv.cache :=
  Std.TreeMap.Equiv.of_forall_constGet?_eq ((reads_same_iff kv call outcome).mpr h)

/-- Such a call goes unseen. -/
theorem unseen_of_held {kv : FlashKv} {call : Call} (h : kv.get call.key = call.value)
    (outcome : FlashOutcome) : kv.Unseen call outcome := by
  refine ⟨(reads_same_iff kv call outcome).mpr h, fun between key value outcome' hset => ?_⟩
  have hrun := run_congr (cache_equiv_of_held h outcome).symm between
  exact (perform_ok_congr hrun (.set key value) outcome').mp hset

/-- A call that is unseen asked for what the map held. -/
theorem held_of_unseen {kv : FlashKv} {call : Call} {outcome : FlashOutcome}
    (h : kv.Unseen call outcome) : kv.get call.key = call.value :=
  (reads_same_iff kv call outcome).mp h.1

/-- A call that fails goes unseen exactly when it asked for what the map already
held.  It fails exactly when the image of the map it leaves does not fit, or the
erase or the write fails. -/
theorem failed_call_unseen_iff (kv : FlashKv) (call : Call) (outcome : FlashOutcome) :
    ((kv.perform call outcome).1 ≠ .ok () → kv.Unseen call outcome) ↔
      ((image (call.apply kv.cache)).length ≤ regionLen ∧ outcome = .stored) ∨
        kv.get call.key = call.value := by
  have hfails : (kv.perform call outcome).1 ≠ .ok () ↔
      ¬ ((image (call.apply kv.cache)).length ≤ regionLen ∧ outcome = .stored) := by
    rw [perform_eq, ne_eq, flush_eq_ok_iff]
  rw [hfails]
  constructor
  · intro h
    by_cases hok : (image (call.apply kv.cache)).length ≤ regionLen ∧ outcome = .stored
    · exact .inl hok
    · exact .inr (held_of_unseen (h hok))
  · rintro (hok | hheld) hfail
    · exact absurd hok hfail
    · exact unseen_of_held hheld outcome

/-- A value takes its room in the image. -/
theorem length_value_lt_image {cache : Cache} {key : String} {v : Bytes}
    (h : cache[key]? = some v) : v.length < (image cache).length := by
  have hmem : (key, v) ∈ cache.toList := Std.TreeMap.mem_toList_iff_getElem?_eq_some.mpr h
  have hsub : (entryBytes (key, v)).Sublist (cache.toList.flatMap entryBytes) := by
    rw [List.flatMap_def]
    exact List.sublist_flatten_of_mem (List.mem_map_of_mem hmem)
  have hle := hsub.length_le
  have hpad := le_pad4 v.length
  rw [length_entryBytes] at hle
  rw [image_eq, List.length_append, length_header]
  omega

/-- A configuration that does not fit is refused, and reads as saved.  The valve's
next position is refused after it. -/
theorem failed_set_is_seen :
    let kv : FlashKv := ⟨Region.erased, ∅⟩
    let call : Call := .set "wc.cfg" (List.replicate 8192 0)
    (kv.perform call .stored).1 = .error .full ∧ ¬ kv.Unseen call .stored ∧
      (kv.set "wc.valve" [1] .stored).1 = .ok () ∧
      ((kv.perform call .stored).2.set "wc.valve" [1] .stored).1 = .error .full := by
  intro kv call
  have hfull : ∀ (flash : Region) (cache : Cache),
      cache["wc.cfg"]? = some (List.replicate 8192 0) →
        flush flash cache .stored = (.error .full, flash) := by
    intro flash cache hget
    have hlt := length_value_lt_image hget
    rw [List.length_replicate] at hlt
    exact if_pos hlt
  have hcfg : (call.apply kv.cache)["wc.cfg"]? = some (List.replicate 8192 0) :=
    call.getElem?_apply kv.cache "wc.cfg"
  refine ⟨?_, ?_, ?_, ?_⟩
  · rw [perform_eq, hfull _ _ hcfg]
  · intro hunseen
    have hheld := held_of_unseen hunseen
    cases hheld
  · decide +kernel
  · have hkept : ((Call.set "wc.valve" [1]).apply (call.apply kv.cache))["wc.cfg"]? =
        some (List.replicate 8192 0) := by
      rw [Call.getElem?_apply, hcfg]
      rfl
    show ((kv.perform call .stored).2.perform (.set "wc.valve" [1]) .stored).1 = .error .full
    rw [perform_eq, perform_eq kv call, hfull _ _ hkept]

end FlashKv

end WaterController
