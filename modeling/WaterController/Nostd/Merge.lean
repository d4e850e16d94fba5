import WaterController.Nostd.WebApi

/-!
# What a merge makes of a value

The no_std firmware writes a section by merging the JSON of the body into the JSON of
the stored section, and reading the result.  `fields_merge` says what the merge makes of
each member of an object, and `Fills` what is read of it: a string that comes in blank
is filled from the stored one, and everything else is replaced.

A value that is no object, such as a record that comes in as the array of its fields,
replaces what was there (`merge_of_not_obj`).
-/

namespace WaterController

namespace WebApi

open Json (Numbers bind_eq_ok)
open JsonCodec (list pair string bool u16 u32 f32)

variable {ν : Type}

/-! ## Members -/

theorem map_fst_setMember (members : List (String × Json ν)) (name : String) (value : Json ν) :
    (setMember members name value).map Prod.fst = members.map Prod.fst := by
  induction members with
  | nil => rfl
  | cons m members ih =>
      simp only [setMember, List.map_cons, List.cons.injEq] at ih ⊢
      refine ⟨?_, ih⟩
      split
      · rename_i hname
        exact hname.symm
      · rfl

theorem lookup_setMember (members : List (String × Json ν)) (name k : String) (value : Json ν) :
    (setMember members name value).lookup k =
      if k = name then (members.lookup name).map fun _ => value else members.lookup k := by
  induction members with
  | nil => simp [setMember]
  | cons m members ih =>
      obtain ⟨k', v⟩ := m
      simp only [setMember, List.map_cons, List.lookup_cons] at ih ⊢
      by_cases hk' : k' = name
      · subst hk'
        by_cases hk : k = k'
        · simp [hk]
        · have hbeq : (k == k') = false := by simpa using hk
          simp [hk, hbeq, List.lookup_cons, ih]
      · have hname : (name == k') = false := by simpa using fun h => hk' h.symm
        by_cases hk : k = k'
        · simp [hk, hk']
        · have hbeq : (k == k') = false := by simpa using hk
          simp [hk', hbeq, hname, List.lookup_cons, ih]

/-- What a merge makes of a member: nothing where the overlay has none, or a blank
string. -/
def mergedMember : Option (Json ν) → Option (Json ν) → Option (Json ν)
  | target, none => target
  | target, some (.str "") => target
  | none, some v => some v
  | some tv, some v => some (merge tv v)

theorem mergedMember_of_ne {v : Json ν} (h : v ≠ .str "") (tv : Json ν) :
    mergedMember (some tv) (some v) = some (merge tv v) :=
  mergedMember.eq_4 tv v (by simpa using h)

theorem mergeMembers_of_ne {v : Json ν} (h : v ≠ .str "") (t o : List (String × Json ν))
    (k : String) :
    mergeMembers t ((k, v) :: o) =
      match t.lookup k with
      | some tv => mergeMembers (setMember t k (merge tv v)) o
      | none => mergeMembers (t ++ [(k, v)]) o :=
  mergeMembers.eq_3 t k v o h

theorem nodup_mergeMembers {t : List (String × Json ν)} (h : (t.map Prod.fst).Nodup)
    (o : List (String × Json ν)) : ((mergeMembers t o).map Prod.fst).Nodup := by
  induction o generalizing t with
  | nil => simpa [mergeMembers] using h
  | cons m o ih =>
      obtain ⟨k, v⟩ := m
      by_cases hv : v = .str ""
      · subst hv
        rw [mergeMembers]
        exact ih h
      rw [mergeMembers_of_ne hv]
      cases hk : t.lookup k with
      | some tv => exact ih (by rwa [map_fst_setMember])
      | none =>
          refine ih ?_
          rw [List.map_append, List.nodup_append]
          refine ⟨h, by simp, fun a ha b hb => ?_⟩
          rintro rfl
          simp only [List.map_cons, List.map_nil, List.mem_singleton] at hb
          obtain ⟨m, hm, rfl⟩ := List.mem_map.mp ha
          have habsent := List.lookup_eq_none_iff.mp hk m hm
          simp [hb] at habsent

/-- A name that members have once at most is not among those behind it. -/
theorem lookup_eq_none_of_count {o : List (String × Json ν)} {k : String} {v : Json ν}
    (h : (((k, v) :: o).map Prod.fst).count k ≤ 1) : o.lookup k = none := by
  have hcount : (o.map Prod.fst).count k = 0 := by
    rw [List.map_cons, List.count_cons_self] at h
    omega
  rw [List.lookup_eq_none_iff]
  intro m hm
  refine bne_iff_ne.mpr ?_
  rintro rfl
  exact List.count_eq_zero.mp hcount (List.mem_map_of_mem hm)

/-- What the first member of an overlay makes of the members, as a look-up sees it. -/
theorem lookup_mergeMembers_cons (k' : String) (v : Json ν) (t o : List (String × Json ν)) :
    ∃ t', mergeMembers t ((k', v) :: o) = mergeMembers t' o ∧
      t'.lookup k' = mergedMember (t.lookup k') (some v) ∧
      ∀ k, k ≠ k' → t'.lookup k = t.lookup k := by
  rcases eq_or_ne v (.str "") with rfl | hv
  · refine ⟨t, by rw [mergeMembers], ?_, fun _ _ => rfl⟩
    cases t.lookup k' <;> rfl
  rw [mergeMembers_of_ne hv]
  cases htk : t.lookup k' with
  | some tv =>
      refine ⟨_, rfl, ?_, fun k hk => ?_⟩
      · rw [lookup_setMember, if_pos rfl, htk, mergedMember_of_ne hv]
        rfl
      · rw [lookup_setMember, if_neg hk]
  | none =>
      refine ⟨_, rfl, ?_, fun k hk => ?_⟩
      · simp [List.lookup_append, htk, mergedMember]
      · have hbeq : (k == k') = false := beq_false_of_ne hk
        simp [List.lookup_append, List.lookup_cons, hbeq]

/-- A name that the overlay has once at most is merged once at most. -/
theorem lookup_mergeMembers {o : List (String × Json ν)} {k : String}
    (h : (o.map Prod.fst).count k ≤ 1) (t : List (String × Json ν)) :
    (mergeMembers t o).lookup k = mergedMember (t.lookup k) (o.lookup k) := by
  induction o generalizing t with
  | nil => simp [mergeMembers, mergedMember]
  | cons m o ih =>
      obtain ⟨k', v⟩ := m
      obtain ⟨t', hmerge, hsame, hother⟩ := lookup_mergeMembers_cons k' v t o
      have htail : (o.map Prod.fst).count k ≤ 1 := by
        rw [List.map_cons, List.count_cons] at h
        omega
      rw [hmerge, ih htail, List.lookup_cons]
      rcases eq_or_ne k k' with rfl | hk
      · rw [hsame, lookup_eq_none_of_count h]
        simp [mergedMember]
      · rw [hother k hk, beq_false_of_ne hk]

/-- A value that is no object replaces what was there. -/
theorem merge_of_not_obj {j : Json ν} (hj : ∀ o, j ≠ .obj o) (target : Json ν) :
    merge target j = j := by
  cases j with
  | obj o => exact absurd rfl (hj o)
  | null | bool | num | str | arr => cases target <;> rfl

/-! ## Fields -/

/-- The fields of a record behind a merge. -/
def MergedFields (names : List String) (t o : List (String × Json ν))
    (f : String → Option (Json ν)) : Prop :=
  ∀ name ∈ names, f name = mergedMember (t.lookup name) (o.lookup name)

theorem fields_merge {names : List String} {t o : List (String × Json ν)}
    {f : String → Option (Json ν)} (hf : (Json.obj o).fields names = .ok f) (target : Json ν)
    (htarget : target = .obj t) (ht : (t.map Prod.fst).Nodup) :
    f = (fun name => o.lookup name) ∧
      ∃ f', (merge target (.obj o)).fields names = .ok f' ∧ MergedFields names t o f' := by
  have hcount : ∀ name ∈ names, (o.map Prod.fst).count name ≤ 1 := by
    cases hfind : names.find? fun name => 1 < (o.map Prod.fst).count name with
    | some name => simp [Json.fields, hfind] at hf
    | none => simpa using List.find?_eq_none.mp hfind
  have hnone : (names.find? fun name => 1 < (o.map Prod.fst).count name) = none := by
    simpa using hcount
  simp only [Json.fields, hnone, Except.ok.injEq] at hf
  refine ⟨hf.symm, ?_⟩
  rw [htarget, merge]
  exact ⟨_, Json.fields_obj (nodup_mergeMembers ht o) names,
    fun name hname => lookup_mergeMembers (hcount name hname) t⟩

section Fills

variable {α : Type}

/-- Behind a merge a value is read as what came in, filled from what was stored. -/
def Fills (c : JsonCodec ν α) (fill : α → α → α) : Prop :=
  ∀ stored j a, c.fromJson j = .ok a →
    ∃ j', mergedMember (some (c.toJson stored)) (some j) = some j' ∧
      c.fromJson j' = .ok (fill a stored)

theorem fills_string : Fills (string : JsonCodec ν String) Config.keepBlank := by
  intro stored j a h
  cases j with
  | str s =>
      cases h
      by_cases ha : a = ""
      · subst ha
        exact ⟨_, rfl, rfl⟩
      · refine ⟨.str a, ?_, ?_⟩
        · rw [mergedMember_of_ne (by simpa using ha)]
          rfl
        · simp [Config.keepBlank, ha]
  | null | bool | num | arr | obj => cases h

/-- A value that is neither written as an object nor read from a blank string is
replaced. -/
theorem fills_leaf {c : JsonCodec ν α} (hobj : ∀ a members, c.toJson a ≠ .obj members)
    (hblank : ∀ a, c.fromJson (.str "") ≠ .ok a) : Fills c fun a _ => a := by
  intro stored j a h
  have hj : j ≠ .str "" := by
    rintro rfl
    exact hblank a h
  refine ⟨j, ?_, h⟩
  rw [mergedMember_of_ne hj]
  cases hstored : c.toJson stored with
  | obj members => exact absurd hstored (hobj stored members)
  | null | bool | num | str | arr => cases j <;> rfl

theorem fills_bool : Fills (bool : JsonCodec ν Bool) fun a _ => a :=
  fills_leaf (fun _ _ h => by cases h) fun _ h => by cases h

theorem fills_list (c : JsonCodec ν α) : Fills (list c) fun a _ => a :=
  fills_leaf (fun _ _ h => by cases h) fun _ h => by cases h

theorem fills_u16 (N : Numbers ν) : Fills (u16 N) fun a _ => a :=
  fills_leaf (fun _ _ h => by cases h) fun _ h => by cases h

theorem fills_u32 (N : Numbers ν) : Fills (u32 N) fun a _ => a :=
  fills_leaf (fun _ _ h => by cases h) fun _ h => by cases h

theorem fills_f32 (N : Numbers ν) : Fills (f32 N) fun a _ => a := by
  refine fills_leaf (fun a members h => ?_) fun _ h => by cases h
  simp only [f32] at h
  split at h <;> cases h

namespace MergedFields

variable {names : List String} {t o : List (String × Json ν)} {f : String → Option (Json ν)}
  {c : JsonCodec ν α} {fill : α → α → α} {name : String} {stored a : α}

theorem required (hm : MergedFields names t o f) (hfills : Fills c fill) (hname : name ∈ names)
    (ht : t.lookup name = some (c.toJson stored))
    (hread : c.required name (o.lookup name) = .ok a) :
    c.required name (f name) = .ok (fill a stored) := by
  rw [hm name hname, ht]
  cases ho : o.lookup name with
  | none =>
      rw [ho] at hread
      cases hread
  | some j =>
      rw [ho] at hread
      obtain ⟨j', hj', hread'⟩ := hfills stored j a hread
      rw [hj']
      exact hread'

theorem orDefault {value : α} (hm : MergedFields names t o f) (hfills : Fills c fill)
    (hname : name ∈ names) (ht : t.lookup name = some (c.toJson stored))
    (ho : (o.lookup name).isSome = true) (hread : c.orDefault value (o.lookup name) = .ok a) :
    c.orDefault value (f name) = .ok (fill a stored) := by
  obtain ⟨j, hj⟩ := Option.isSome_iff_exists.mp ho
  rw [hj] at hread
  obtain ⟨j', hj', hread'⟩ := hfills stored j a hread
  rw [hm name hname, ht, hj, hj']
  exact hread'

end MergedFields

/-- A record is replaced where its fields are. -/
theorem fills_record {c : JsonCodec ν α} (hblank : ∀ a, c.fromJson (.str "") ≠ .ok a)
    (hobj : ∀ stored o a, c.fromJson (.obj o) = .ok a →
      c.fromJson (merge (c.toJson stored) (.obj o)) = .ok a) :
    Fills c fun a _ => a := by
  intro stored j a h
  have hj : j ≠ .str "" := by
    rintro rfl
    exact hblank a h
  refine ⟨_, mergedMember_of_ne hj _, ?_⟩
  by_cases hrecord : ∃ o, j = .obj o
  · obtain ⟨o, rfl⟩ := hrecord
    exact hobj stored o a h
  · rw [merge_of_not_obj fun o ho => hrecord ⟨o, ho⟩]
    exact h

theorem fills_valveTiming (N : Numbers ν) :
    Fills (ConfigJson.valveTiming N) fun a _ => a := by
  refine fills_record (fun a h => by cases h) fun stored o a h => ?_
  simp only [ConfigJson.valveTiming, bind_eq_ok] at h ⊢
  obtain ⟨f, hf, motorRunSecs, hmotor, drainSecs, hdrain, hnew⟩ := h
  obtain ⟨rfl, f', hf', hm⟩ :=
    fields_merge hf ((ConfigJson.valveTiming N).toJson stored) rfl (by simp)
  exact ⟨f', hf', _, hm.required (fills_u32 N) (by simp) rfl hmotor, _,
    hm.required (fills_u32 N) (by simp) rfl hdrain, hnew⟩

theorem fills_calibration (N : Numbers ν) :
    Fills (ConfigJson.calibration N) fun a _ => a := by
  refine fills_record (fun a h => by cases h) fun stored o a h => ?_
  simp only [ConfigJson.calibration, bind_eq_ok] at h ⊢
  obtain ⟨f, hf, points, hpoints, hnew⟩ := h
  obtain ⟨rfl, f', hf', hm⟩ :=
    fields_merge hf ((ConfigJson.calibration N).toJson stored) rfl (by simp)
  exact ⟨f', hf', _, hm.required (fills_list _) (by simp) rfl hpoints, hnew⟩

end Fills

end WebApi

end WaterController
