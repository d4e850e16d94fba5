import WaterController.Core.Webhook

/-!
# One substitution, or one after the other

A template stands for one substitution: its placeholders are found in one scan from
left to right, and each is replaced by the value of its key.  `renderTemplate` goes
over the whole text once for each variable instead, and the texts that it puts in are
searched for the placeholders of later keys.

To say which letters a replaced placeholder consists of, a text is taken as a list
of cells, letters that know their place in the template.  The loop substitutes at
once exactly where every key, with the values of the keys before it in place, is
found at its own placeholders only.
-/

namespace WaterController

/-! ## The substitution -/

/-- The letters to find for a key. -/
def pattern (key : String) : List Char := (placeholder key).toList

theorem pattern_ne_nil (key : String) : pattern key ≠ [] := by
  rw [pattern, placeholder, String.toList_append, String.toList_append, List.append_assoc]
  exact List.cons_ne_nil _ _

/-- The template with the value of its key in the place of each placeholder that one
scan finds.  A placeholder without a variable is no match and stays. -/
def substituted (template : String) (vars : Std.TreeMap String String) : String :=
  String.ofList (Replace.fill (fun k => vars[k]?.map String.toList)
    (Replace.scan id pattern vars.keys template.toList))

/-! ## Letters that know where they come from -/

/-- A letter, with its place in the template if it comes from there. -/
abbrev Cell := Char × Option Nat

def templateCells (template : String) : List Cell :=
  template.toList.zipIdx.map fun c => (c.1, some c.2)

def valueCells (vars : Std.TreeMap String String) (key : String) : List Cell :=
  (vars.getD key "").toList.map fun c => (c, none)

/-- The parts of a template: its placeholders, and the letters between them. -/
def parts (template : String) (vars : Std.TreeMap String String) :
    List (Replace.Token String Cell) :=
  Replace.scan Prod.fst pattern vars.keys (templateCells template)

/-- The text of `renderTemplate` behind some keys, cell by cell. -/
def renderedCells (template : String) (vars : Std.TreeMap String String) (done : List String) :
    List Cell :=
  Replace.loop Prod.fst pattern (valueCells vars) done (templateCells template)

/-- The template with the placeholders of some keys replaced at once. -/
def substitutedCells (template : String) (vars : Std.TreeMap String String) (done : List String) :
    List Cell :=
  Replace.fillSome (valueCells vars) done (parts template vars)

/-- Whatever the loop replaces for a key is a placeholder of the key in the template, and
no letter of it comes from a value. -/
def ExpandsTemplateOnly (template : String) (vars : Std.TreeMap String String) : Prop :=
  Replace.FindsOwn Prod.fst pattern vars.keys (parts template vars) (renderedCells template vars)

/-- Where the values of the smaller keys stand in the place of their placeholders, the
search for a key finds placeholders of the key in the template and nothing else. -/
def PlaceholdersApart (template : String) (vars : Std.TreeMap String String) : Prop :=
  Replace.FindsOwn Prod.fst pattern vars.keys (parts template vars)
    (substitutedCells template vars)

/-! ## The cells and the text -/

theorem map_fst_templateCells (template : String) :
    (templateCells template).map Prod.fst = template.toList := by
  rw [templateCells, List.map_map]
  exact List.zipIdx_map_fst 0 _

theorem nodup_templateCells (template : String) : (templateCells template).Nodup := by
  refine List.Nodup.of_map Prod.snd ?_
  rw [templateCells, List.map_map, show (Prod.snd ∘ fun c : Char × Nat => (c.1, some c.2)) =
    some ∘ Prod.snd from rfl, ← List.map_map, List.zipIdx_map_snd]
  exact List.Nodup.map (fun _ _ h => Option.some.inj h) List.nodup_range'

theorem map_fst_valueCells (vars : Std.TreeMap String String) (key : String) :
    (valueCells vars key).map Prod.fst = (vars.getD key "").toList := by
  rw [valueCells, List.map_map]
  exact List.map_id _

/-- A letter of a value is no letter of the template. -/
theorem not_mem_templateCells (template : String) (vars : Std.TreeMap String String)
    (key : String) : ∀ x ∈ valueCells vars key, x ∉ templateCells template := by
  intro x hx hmem
  obtain ⟨c, _, rfl⟩ := List.mem_map.mp hx
  obtain ⟨d, _, hd⟩ := List.mem_map.mp hmem
  exact nomatch congrArg Prod.snd hd

/-- The letters of a value. -/
def valueLetters (vars : Std.TreeMap String String) (key : String) : List Char :=
  (vars.getD key "").toList

theorem getD_of_mem_toList {vars : Std.TreeMap String String} {kv : String × String}
    (h : kv ∈ vars.toList) : vars.getD kv.1 "" = kv.2 := by
  rw [Std.TreeMap.getD_eq_getD_getElem?, Std.TreeMap.mem_toList_iff_getElem?_eq_some.mp h]
  rfl

theorem toList_foldl_strReplace (vars : Std.TreeMap String String) (l : List (String × String))
    (hl : ∀ kv ∈ l, vars.getD kv.1 "" = kv.2) (out : String) :
    (l.foldl (fun out kv => strReplace out (placeholder kv.1) kv.2) out).toList =
      Replace.loop id pattern (valueLetters vars) (l.map Prod.fst) out.toList := by
  induction l generalizing out with
  | nil => rfl
  | cons kv l ih =>
      obtain ⟨hkv, hl⟩ := List.forall_mem_cons.mp hl
      refine (ih hl _).trans (congrArg (Replace.loop id pattern (valueLetters vars) _) ?_)
      show _ = Replace.replace id (pattern kv.1) (valueLetters vars kv.1) out.toList
      rw [show valueLetters vars kv.1 = kv.2.toList from congrArg String.toList hkv]
      exact String.toList_ofList

/-- The loop over the variables is the loop over their keys. -/
theorem toList_renderTemplate (template : String) (vars : Std.TreeMap String String) :
    (renderTemplate template vars).toList =
      Replace.loop id pattern (valueLetters vars) vars.keys template.toList := by
  rw [renderTemplate, ← Std.TreeMap.map_fst_toList_eq_keys]
  exact toList_foldl_strReplace vars _ (fun kv => getD_of_mem_toList) template

/-- The cells of the loop have the letters of the rendered text. -/
theorem map_fst_renderedCells (template : String) (vars : Std.TreeMap String String) :
    (renderedCells template vars vars.keys).map Prod.fst =
      (renderTemplate template vars).toList := by
  rw [renderedCells, Replace.map_loop pattern_ne_nil, map_fst_templateCells, toList_renderTemplate]
  exact congrArg (Replace.loop id pattern · vars.keys template.toList)
    (funext fun k => map_fst_valueCells vars k)

theorem toList_substituted (template : String) (vars : Std.TreeMap String String) :
    (substituted template vars).toList =
      (Replace.fill (fun k => some (valueCells vars k)) (parts template vars)).map Prod.fst := by
  rw [substituted, String.toList_ofList, Replace.map_fill, parts,
    ← Replace.scan_map pattern_ne_nil, map_fst_templateCells]
  refine List.flatMap_congr fun t ht => ?_
  cases t with
  | kept c => rfl
  | hit k cells =>
      have hmem := Std.TreeMap.mem_keys.mp (Replace.hit_mem_scan pattern_ne_nil ht).1
      show (vars[k]?.map String.toList).getD cells = (valueCells vars k).map Prod.fst
      rw [map_fst_valueCells, Std.TreeMap.getD_eq_getD_getElem?,
        Std.TreeMap.getElem?_eq_some_getElem hmem]
      rfl

/-! ## The result -/

/-- Rendering is one substitution, in which no text that comes from a value is expanded,
exactly if the placeholders of the keys stay apart. -/
theorem renderTemplate_substitutes_iff (template : String) (vars : Std.TreeMap String String) :
    (renderTemplate template vars = substituted template vars ∧ ExpandsTemplateOnly template vars) ↔
      PlaceholdersApart template vars := by
  have hloop := Replace.findsOwn_loop_iff (f := Prod.fst) pattern_ne_nil
    (nodup_templateCells template) (not_mem_templateCells template vars) vars.nodup_keys
  constructor
  · exact fun h => hloop.mp h.2
  · intro hapart
    refine ⟨?_, hloop.mpr hapart⟩
    have hfill := Replace.loop_eq_fill pattern_ne_nil (nodup_templateCells template)
      (not_mem_templateCells template vars) vars.nodup_keys hapart
    rw [← String.toList_inj, ← map_fst_renderedCells, toList_substituted]
    exact congrArg (List.map Prod.fst) hfill

/-- A value that is a placeholder of a later key is expanded. -/
theorem not_renderTemplate_substitutes :
    ¬ ∀ (template : String) (vars : Std.TreeMap String String),
      renderTemplate template vars = substituted template vars := by
  intro hall
  have hchain := hall "\x7b\x7ba\x7d\x7d"
    (((∅ : Std.TreeMap String String).insert "a" "\x7b\x7bb\x7d\x7d").insert "b" "x")
  exact absurd hchain (by decide +kernel)

end WaterController
