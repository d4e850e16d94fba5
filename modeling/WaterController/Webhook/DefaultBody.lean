import WaterController.Core.App
import WaterController.Core.ConfigJson
import WaterController.Library.JsonText
import WaterController.Webhook.Template

/-!
# The body of the default template

The default template is a JSON object with a placeholder in each member, and the
device's host name is pasted between two quotes as it is.  The quotes of the template
separate its parts, because no placeholder has one, so that each part is rendered by
itself.  All values but the host name are plain.

The body decodes to the event exactly for the host names that need no escape and have
no placeholder of a later variable in them.  For the converse, two things are counted.
A quote, a backslash or a control character of a string needs a backslash in the text,
and the body has no others than the host name's own.  An expanded placeholder takes
two braces away.
-/

namespace WaterController

open JsonText (quote backslash special)

/-! ## The variables of an event -/

/-- The variables that `App::emit_event` fills in. -/
def standardVars (kind : EventKind) (ts hostname : String) (uptime : Nat) :
    Std.TreeMap String String :=
  (((((∅ : Std.TreeMap String String).insertIfNew "event" kind.asStr).insertIfNew
    "event_label" kind.label).insertIfNew "iso_ts" ts).insertIfNew "device" hostname).insertIfNew
    "uptime_s" (toString uptime)

/-- The keys behind `device`, in their order. -/
def laterKeys : List String := ["event", "event_label", "iso_ts", "uptime_s"]

section Vars

variable (kind : EventKind) (ts hostname : String) (uptime : Nat)

theorem standardVars_toList : (standardVars kind ts hostname uptime).toList =
    [("device", hostname), ("event", kind.asStr), ("event_label", kind.label), ("iso_ts", ts),
      ("uptime_s", toString uptime)] := rfl

theorem standardVars_keys :
    (standardVars kind ts hostname uptime).keys = "device" :: laterKeys := by
  rw [← Std.TreeMap.map_fst_toList_eq_keys, standardVars_toList]
  rfl

theorem standardVars_getD : (standardVars kind ts hostname uptime).getD "event" "" = kind.asStr ∧
    (standardVars kind ts hostname uptime).getD "event_label" "" = kind.label ∧
    (standardVars kind ts hostname uptime).getD "iso_ts" "" = ts ∧
    (standardVars kind ts hostname uptime).getD "device" "" = hostname ∧
    (standardVars kind ts hostname uptime).getD "uptime_s" "" = toString uptime := by
  have hgetD : ∀ kv ∈ (standardVars kind ts hostname uptime).toList,
      (standardVars kind ts hostname uptime).getD kv.1 "" = kv.2 := fun kv => getD_of_mem_toList
  rw [standardVars_toList] at hgetD
  simp only [List.forall_mem_cons] at hgetD
  obtain ⟨hdevice, hevent, hlabel, hts, huptime, _⟩ := hgetD
  exact ⟨hevent, hlabel, hts, hdevice, huptime⟩

end Vars

theorem emitEvent_new (app : App) (env : Env) (kind : EventKind) :
    (app.emitEvent env (WebhookEvent.new kind)).dispatched = app.dispatched ++
      [⟨kind, standardVars kind env.now.rfc3339 app.config.wifi.hostname
        (env.monotonicMs / 1000)⟩] := rfl

/-! ## The parts of the body -/

/-- The parts of the template between its quotes. -/
def defaultParts : List (List Char) :=
  ["\x7b", "event", ":", placeholder "event", ",", "label", ":", placeholder "event_label", ",",
    "device", ":", placeholder "device", ",", "ts", ":", placeholder "iso_ts", ",", "uptime_s",
    ":" ++ placeholder "uptime_s" ++ "\x7d"].map String.toList

theorem defaultBodyTemplate_eq :
    ConfigJson.defaultBodyTemplate.toList = [quote].intercalate defaultParts := by
  decide +kernel

/-- The loop over the keys behind `device`, which the host name goes through. -/
def expanded (vars : Std.TreeMap String String) (text : List Char) : List Char :=
  Replace.loop id pattern (valueLetters vars) laterKeys text

/-- The parts of the rendered body. -/
def renderedParts (vars : Std.TreeMap String String) : List (List Char) :=
  ["\x7b".toList, "event".toList, ":".toList, valueLetters vars "event", ",".toList,
    "label".toList, ":".toList, valueLetters vars "event_label", ",".toList,
    "device".toList, ":".toList, expanded vars (valueLetters vars "device"), ",".toList,
    "ts".toList, ":".toList, valueLetters vars "iso_ts", ",".toList,
    "uptime_s".toList, ':' :: (valueLetters vars "uptime_s" ++ ['\x7d'])]

/-- The parts without a value. -/
def literals : List String := ["\x7b", "event", ":", ",", "label", "device", "ts", "uptime_s"]

/-- A text that needs no escape and has no opening brace. -/
def Tame (text : List Char) : Prop := ∀ c ∈ text, special c = false ∧ c ≠ '\x7b'

instance decidableTame (text : List Char) : Decidable (Tame text) :=
  List.decidableBAll (fun c => special c = false ∧ c ≠ '\x7b') text

/-- A placeholder has two opening braces. -/
theorem count_brace_pattern {key : String} (hkey : key ∈ laterKeys) :
    (pattern key).count '\x7b' = 2 := by
  revert key
  decide +kernel

/-- No placeholder occurs in a text with less than two opening braces. -/
theorem no_match_of_count {key : String} (hkey : key ∈ laterKeys) {text : List Char}
    (h : text.count '\x7b' ≤ 1) : ¬ pattern key <:+: text := by
  intro hin
  have hle := hin.sublist.count_le '\x7b'
  rw [count_brace_pattern hkey] at hle
  omega

theorem Tame.count_brace {text : List Char} (h : Tame text) : text.count '\x7b' = 0 :=
  List.count_eq_zero.mpr fun hmem => (h _ hmem).2 rfl

/-! ## The rendered body -/

section Render

variable {vars : Std.TreeMap String String}

/-- A placeholder becomes its value, which no later key changes. -/
theorem loop_placeholder {before after : List String} {key : String}
    (hsplit : "device" :: laterKeys = before ++ key :: after)
    (hbefore : ∀ k ∈ before, ¬ pattern k <:+: pattern key) (hafter : ∀ k ∈ after, k ∈ laterKeys)
    (htame : Tame (valueLetters vars key)) :
    Replace.loop id pattern (valueLetters vars) ("device" :: laterKeys) (pattern key) =
      valueLetters vars key := by
  rw [hsplit, Replace.loop_pattern pattern_ne_nil hbefore]
  exact Replace.loop_of_no_match pattern_ne_nil fun k hk =>
    no_match_of_count (hafter k hk) (by rw [htame.count_brace]; decide)

/-- The number stands between a colon and a brace. -/
theorem loop_uptime : Replace.loop id pattern (valueLetters vars) ("device" :: laterKeys)
    (":" ++ placeholder "uptime_s" ++ "\x7d").toList =
      ':' :: (valueLetters vars "uptime_s" ++ ['\x7d']) := by
  have hearlier : ∀ k ∈ ["device", "event", "event_label", "iso_ts"],
      ¬ pattern k <:+: (":" ++ placeholder "uptime_s" ++ "\x7d").toList := by decide +kernel
  have hparts : (":" ++ placeholder "uptime_s" ++ "\x7d").toList =
      ':' :: (pattern "uptime_s" ++ ['\x7d']) := by decide +kernel
  rw [show "device" :: laterKeys = ["device", "event", "event_label", "iso_ts"] ++ ["uptime_s"] from
    rfl, Replace.loop_append, Replace.loop_of_no_match pattern_ne_nil hearlier, hparts]
  show Replace.replace id (pattern "uptime_s") (valueLetters vars "uptime_s")
    (':' :: (pattern "uptime_s" ++ ['\x7d'])) = _
  rw [(Replace.replace_cons_of_not_match (by rw [List.map_id]; decide +kernel)).1,
    (Replace.replace_append_of_match (List.map_id _) (pattern_ne_nil _) _).1,
    Replace.replace_of_no_match (pattern_ne_nil _) (by decide +kernel)]

/-- Each part of the body is rendered by itself. -/
theorem toList_default_body (hkeys : vars.keys = "device" :: laterKeys)
    (htame : ∀ key ∈ laterKeys, Tame (valueLetters vars key)) :
    (renderTemplate ConfigJson.defaultBodyTemplate vars).toList =
      [quote].intercalate (renderedParts vars) := by
  have hquote : ∀ k ∈ "device" :: laterKeys, quote ∉ pattern k := by decide +kernel
  have hliteral : ∀ part ∈ literals,
      Replace.loop id pattern (valueLetters vars) ("device" :: laterKeys) part.toList =
        part.toList := by
    have hnone : ∀ part ∈ literals, ∀ k ∈ "device" :: laterKeys, ¬ pattern k <:+: part.toList := by decide +kernel
    exact fun part hpart => Replace.loop_of_no_match pattern_ne_nil (hnone part hpart)
  have hdevice : Replace.loop id pattern (valueLetters vars) ("device" :: laterKeys)
      (pattern "device") = expanded vars (valueLetters vars "device") :=
    @Replace.loop_pattern _ _ _ _ _ pattern_ne_nil [] laterKeys "device" (fun k hk => nomatch hk)
  have hevent := @loop_placeholder vars ["device"] ["event_label", "iso_ts", "uptime_s"] "event" rfl
    (by decide +kernel) (by decide) (htame "event" (by decide))
  have hlabel := @loop_placeholder vars ["device", "event"] ["iso_ts", "uptime_s"] "event_label" rfl
    (by decide +kernel) (by decide) (htame "event_label" (by decide))
  have hts := @loop_placeholder vars ["device", "event", "event_label"] ["uptime_s"] "iso_ts" rfl
    (by decide +kernel) (by decide) (htame "iso_ts" (by decide))
  rw [toList_renderTemplate, defaultBodyTemplate_eq, hkeys,
    Replace.loop_intercalate pattern_ne_nil hquote]
  refine congrArg [quote].intercalate ?_
  simp only [defaultParts, List.map_cons, List.map_nil, renderedParts]
  simp only [pattern] at hdevice hevent hlabel hts
  simp only [literals, List.forall_mem_cons] at hliteral
  simp only [hliteral, hdevice, hevent, hlabel, hts, loop_uptime]

end Render

/-! ## What the members decode to -/

/-- One member has the name, and its value is `v`. -/
def HasMember (members : List (String × Json JsonText.Decimal)) (name : String)
    (v : Json JsonText.Decimal) : Prop :=
  members.filter (fun member => member.1 = name) = [(name, v)]

/-- The members of an event are those of its variables and its uptime. -/
structure EventMembers (members : List (String × Json JsonText.Decimal))
    (vars : Std.TreeMap String String) (uptime : Nat) : Prop where
  event : HasMember members "event" (.str (vars.getD "event" ""))
  label : HasMember members "label" (.str (vars.getD "event_label" ""))
  device : HasMember members "device" (.str (vars.getD "device" ""))
  ts : HasMember members "ts" (.str (vars.getD "iso_ts" ""))
  uptime : HasMember members "uptime_s" (.num ⟨uptime, 0⟩)

/-- The body is a JSON object with the members of the event. -/
def DecodesToEvent (body : String) (vars : Std.TreeMap String String) (uptime : Nat) : Prop :=
  ∃ members, JsonText.parse body = some (.obj members) ∧ EventMembers members vars uptime

/-- The host name needs no escape, and no placeholder of a later key is in it. -/
def PlainHostname (hostname : String) : Prop :=
  JsonText.Plain hostname.toList ∧ ∀ key ∈ laterKeys, ¬ pattern key <:+: hostname.toList

instance decidablePlainHostname (hostname : String) : Decidable (PlainHostname hostname) :=
  @instDecidableAnd _ _ (JsonText.decidablePlain hostname.toList)
    (List.decidableBAll (fun key => ¬ pattern key <:+: hostname.toList) laterKeys)

section Decode

variable {vars : Std.TreeMap String String}

/-- With a plain host name the body is a plain object. -/
theorem intercalate_renderedParts {uptime : Nat}
    (hhostname : ∀ key ∈ laterKeys, ¬ pattern key <:+: valueLetters vars "device")
    (huptime : valueLetters vars "uptime_s" = (toString uptime).toList) :
    [quote].intercalate (renderedParts vars) = JsonText.plainObject
      [("event".toList, valueLetters vars "event"),
        ("label".toList, valueLetters vars "event_label"),
        ("device".toList, valueLetters vars "device"), ("ts".toList, valueLetters vars "iso_ts")]
      "uptime_s".toList uptime := by
  have hdevice : expanded vars (valueLetters vars "device") = valueLetters vars "device" :=
    Replace.loop_of_no_match pattern_ne_nil hhostname
  have hbrace : "\x7b".toList = ['\x7b'] := rfl
  have hcolon : ":".toList = [':'] := rfl
  have hcomma : ",".toList = [','] := rfl
  simp only [renderedParts, hdevice, huptime, hbrace, hcolon, hcomma, List.intercalate_cons_cons,
    List.intercalate_singleton, JsonText.plainObject, JsonText.quoted, List.flatMap_cons,
    List.flatMap_nil, List.append_assoc, List.cons_append, List.nil_append, List.append_nil]

theorem decodesToEvent_of_plain {uptime : Nat}
    (htame : ∀ key ∈ laterKeys, Tame (valueLetters vars key))
    (huptime : valueLetters vars "uptime_s" = (toString uptime).toList) {body : String}
    (hbody : body.toList = [quote].intercalate (renderedParts vars))
    (hhostname : PlainHostname (vars.getD "device" "")) : DecodesToEvent body vars uptime := by
  have hplain : ∀ key ∈ laterKeys, JsonText.Plain (valueLetters vars key) :=
    fun key hkey c hc => (htame key hkey c hc).1
  have hname : ∀ name ∈ ["event", "label", "device", "ts", "uptime_s"],
      JsonText.Plain name.toList := by decide +kernel
  have hstrings : ∀ kv ∈ [("event".toList, valueLetters vars "event"),
      ("label".toList, valueLetters vars "event_label"),
      ("device".toList, valueLetters vars "device"), ("ts".toList, valueLetters vars "iso_ts")],
      JsonText.Plain kv.1 ∧ JsonText.Plain kv.2 := by
    simp only [List.forall_mem_cons]
    exact ⟨⟨hname "event" (by decide), hplain "event" (by decide)⟩,
      ⟨hname "label" (by decide), hplain "event_label" (by decide)⟩,
      ⟨hname "device" (by decide), hhostname.1⟩,
      ⟨hname "ts" (by decide), hplain "iso_ts" (by decide)⟩, List.forall_mem_nil _⟩
  have hparse := JsonText.parse_plainObject uptime hstrings (hname "uptime_s" (by decide))
  rw [← intercalate_renderedParts hhostname.2 huptime, ← hbody, String.ofList_toList] at hparse
  refine ⟨_, hparse, ?_⟩
  constructor <;> simp [HasMember, JsonText.plainMembers, valueLetters]

/-! ## The host name is plain -/

/-- A part without a special letter and with one opening brace at most. -/
def Harmless (part : List Char) : Prop := JsonText.Plain part ∧ part.count '\x7b' ≤ 1

theorem Tame.harmless {text : List Char} (h : Tame text) : Harmless text :=
  ⟨fun c hc => (h c hc).1, by rw [h.count_brace]; decide⟩

theorem count_special {text : List Char} (h : JsonText.Plain text) {c : Char}
    (hc : special c = true) : text.count c = 0 :=
  List.count_eq_zero.mpr fun hmem => nomatch hc.symm.trans (h c hmem)

/-- The parts of the body but the one of the host name are harmless. -/
theorem renderedParts_split (htame : ∀ key ∈ laterKeys, Tame (valueLetters vars key)) :
    ∃ before after, renderedParts vars =
      before ++ expanded vars (valueLetters vars "device") :: after ∧
      ∀ part ∈ before ++ after, Harmless part := by
  have hliteral : ∀ part ∈ literals,
      JsonText.Plain part.toList ∧ part.toList.count '\x7b' ≤ 1 := by decide +kernel
  have hends : Tame [':'] ∧ Tame ['\x7d'] := by decide
  have hlast : Tame (':' :: (valueLetters vars "uptime_s" ++ ['\x7d'])) :=
    List.forall_mem_append.mpr ⟨hends.1,
      List.forall_mem_append.mpr ⟨htame "uptime_s" (by decide), hends.2⟩⟩
  have hkind : ∀ part ∈ (renderedParts vars).take 11 ++ (renderedParts vars).drop 12,
      (∃ text ∈ literals, part = text.toList) ∨ (∃ key ∈ laterKeys, part = valueLetters vars key) ∨
        part = ':' :: (valueLetters vars "uptime_s" ++ ['\x7d']) := by
    simp [renderedParts, literals, laterKeys]
  refine ⟨(renderedParts vars).take 11, (renderedParts vars).drop 12, rfl, fun part hpart => ?_⟩
  rcases hkind part hpart with ⟨text, htext, rfl⟩ | ⟨key, hkey, rfl⟩ | rfl
  · exact hliteral text htext
  · exact (htame key hkey).harmless
  · exact hlast.harmless

/-- The loop leaves the letters of a text that need an escape. -/
theorem count_expanded (htame : ∀ key ∈ laterKeys, Tame (valueLetters vars key)) {c : Char}
    (hc : special c = true) (text : List Char) : (expanded vars text).count c = text.count c := by
  have hpattern : ∀ key ∈ laterKeys, JsonText.Plain (pattern key) := by decide +kernel
  exact Replace.count_loop pattern_ne_nil (fun key hkey =>
    ⟨count_special (hpattern key hkey) hc, count_special (htame key hkey).harmless.1 hc⟩) text

/-- Where the expanded text has no fewer braces, nothing was expanded. -/
theorem no_match_of_count_le (htame : ∀ key ∈ laterKeys, Tame (valueLetters vars key))
    {text : List Char} (h : text.count '\x7b' ≤ (expanded vars text).count '\x7b') :
    ∀ key ∈ laterKeys, ¬ pattern key <:+: text := by
  refine (Replace.count_loop_le pattern_ne_nil (fun key hkey => ?_) text).2 h
  rw [(htame key hkey).count_brace, count_brace_pattern hkey]
  decide

theorem plain_flatten {parts : List (List Char)} (h : ∀ part ∈ parts, Harmless part) :
    JsonText.Plain parts.flatten := by
  intro c hc
  obtain ⟨part, hpart, hmem⟩ := List.mem_flatten.mp hc
  exact (h part hpart).1 c hmem

/-- All backslashes of the body are those of the host name. -/
theorem count_backslash (htame : ∀ key ∈ laterKeys, Tame (valueLetters vars key)) :
    ([quote].intercalate (renderedParts vars)).count backslash =
      (valueLetters vars "device").count backslash := by
  obtain ⟨before, after, hsplit, hharmless⟩ := renderedParts_split htame
  obtain ⟨hbefore, hafter⟩ := List.forall_mem_append.mp hharmless
  rw [JsonText.count_intercalate (by decide), hsplit, List.flatten_append, List.flatten_cons,
    List.count_append, List.count_append, count_special (plain_flatten hbefore) rfl,
    count_special (plain_flatten hafter) rfl, count_expanded htame rfl, Nat.zero_add, Nat.add_zero]

/-- A host name that is written in the body is plain. -/
theorem plainHostname_of_written (htame : ∀ key ∈ laterKeys, Tame (valueLetters vars key))
    (hwritten : JsonText.Written ([quote].intercalate (renderedParts vars))
      (vars.getD "device" "")) : PlainHostname (vars.getD "device" "") := by
  obtain ⟨raw, hraw, hin⟩ := hwritten
  obtain ⟨before, after, hsplit, hharmless⟩ := renderedParts_split htame
  change JsonText.Unescape raw (valueLetters vars "device") at hraw
  have hle : raw.count backslash ≤ (valueLetters vars "device").count backslash := by
    have hinside := (List.prefix_append raw [quote]).isInfix.trans (List.suffix_cons quote _).isInfix
    rw [← count_backslash htame]
    exact (hinside.trans hin).sublist.count_le backslash
  have hbackslash := hraw.eq_backslash hle
  have hquote : quote ∉ valueLetters vars "device" := fun hmem =>
    absurd (hbackslash quote hmem rfl) (by decide)
  -- so the letters between the two quotes are one part of the body
  have hpart : raw ∈ renderedParts vars := by
    refine JsonText.mem_of_infix_intercalate (fun part hpart => ?_) (hraw.quote_not_mem hquote) hin
    rw [hsplit, List.mem_append, List.mem_cons] at hpart
    rw [← List.count_eq_zero]
    rcases hpart with hpart | hpart | hpart
    · exact count_special (hharmless part (List.mem_append_left _ hpart)).1 rfl
    · rw [hpart, count_expanded htame rfl]
      exact List.count_eq_zero.mpr hquote
    · exact count_special (hharmless part (List.mem_append_right _ hpart)).1 rfl
  suffices hplain : (valueLetters vars "device").count backslash = 0 ∧
      ∀ key ∈ laterKeys, ¬ pattern key <:+: valueLetters vars "device" by
    refine ⟨fun c hc => ?_, hplain.2⟩
    by_contra hspecial
    obtain rfl := hbackslash c hc (Bool.not_eq_false _ ▸ hspecial)
    exact List.count_eq_zero.mp hplain.1 hc
  have hbrace := hraw.count_add_count_le (b := '\x7b') (by decide)
  rw [hsplit, List.mem_append, List.mem_cons, or_left_comm, ← List.mem_append] at hpart
  rcases hpart with hown | hother
  · -- the part of the host name, where nothing was expanded
    have hcount := count_expanded htame (rfl : special backslash = true) (valueLetters vars "device")
    rw [hown] at hbrace
    have hnone := @no_match_of_count_le vars htame (valueLetters vars "device") (by omega)
    have hlength := hraw.length_add_count_le
    rw [hown, expanded, Replace.loop_of_no_match pattern_ne_nil hnone] at hlength
    exact ⟨by omega, hnone⟩
  · -- a harmless part
    obtain ⟨hplain, hone⟩ := hharmless raw hother
    have hspecial := Nat.le_trans (JsonText.count_backslash_le _) hraw.countP_special_le
    rw [count_special (c := backslash) hplain rfl] at hspecial hbrace
    exact ⟨Nat.le_zero.mp hspecial, fun key hkey => no_match_of_count hkey (by omega)⟩

end Decode

/-! ## The result -/

/-- The letters of an RFC 3339 date and time. -/
def IsTimestamp (ts : String) : Prop := ∀ c ∈ ts.toList, c ∈ "0123456789-:.+TZ".toList

instance decidableIsTimestamp (ts : String) : Decidable (IsTimestamp ts) :=
  List.decidableBAll (· ∈ "0123456789-:.+TZ".toList) ts.toList

theorem tame_timestamp {ts : String} (h : IsTimestamp ts) : Tame ts.toList := by
  have hletters : Tame "0123456789-:.+TZ".toList := by decide +kernel
  exact fun c hc => hletters c (h c hc)

theorem tame_toString (n : Nat) : Tame (toString n).toList := by
  intro c hc
  have hdigit := Text.isDigit_of_mem_toString hc
  have hne : ∀ d : Char, d.isDigit = false → c ≠ d := fun d hd h => by
    rw [h, hd] at hdigit
    exact Bool.false_ne_true hdigit
  have hrange := Char.isDigit_iff_toNat.mp hdigit
  exact ⟨JsonText.special_eq_false_iff.mpr ⟨hne quote rfl, hne backslash rfl,
    Nat.le_trans (by decide) hrange.1⟩, hne _ rfl⟩

theorem tame_kind (kind : EventKind) : Tame kind.asStr.toList ∧ Tame kind.label.toList := by
  cases kind <;> decide +kernel

/-- All the variables of an event but the host name are tame. -/
theorem tame_standardVars (kind : EventKind) {ts : String} (hostname : String) (uptime : Nat)
    (hts : IsTimestamp ts) :
    ∀ key ∈ laterKeys, Tame (valueLetters (standardVars kind ts hostname uptime) key) := by
  obtain ⟨hevent, hlabel, htime, _, huptime⟩ := standardVars_getD kind ts hostname uptime
  simp only [laterKeys, List.forall_mem_cons, valueLetters, hevent, hlabel, htime, huptime]
  exact ⟨(tame_kind kind).1, (tame_kind kind).2, tame_timestamp hts, tame_toString uptime,
    List.forall_mem_nil _⟩

section Event

variable {kind : EventKind} {ts hostname : String} {uptime : Nat}

theorem toList_event_body (hts : IsTimestamp ts) :
    (renderTemplate ConfigJson.defaultBodyTemplate (standardVars kind ts hostname uptime)).toList =
      [quote].intercalate (renderedParts (standardVars kind ts hostname uptime)) :=
  toList_default_body (standardVars_keys kind ts hostname uptime)
    (tame_standardVars kind hostname uptime hts)

theorem plainHostname_of_decodes (hts : IsTimestamp ts)
    (h : DecodesToEvent (renderTemplate ConfigJson.defaultBodyTemplate
      (standardVars kind ts hostname uptime)) (standardVars kind ts hostname uptime) uptime) :
    PlainHostname hostname := by
  obtain ⟨members, hparse, hmembers⟩ := h
  obtain ⟨_, _, _, hdevice, _⟩ := standardVars_getD kind ts hostname uptime
  have hmem := List.mem_of_mem_filter (hmembers.device.symm ▸ List.mem_singleton_self _)
  have hwritten := JsonText.written_of_parse hparse hmem
  rw [toList_event_body hts] at hwritten
  exact hdevice ▸ plainHostname_of_written (tame_standardVars kind hostname uptime hts) hwritten

end Event

/-- The default body decodes to its event exactly for the plain host names. -/
theorem default_body_decodes_iff (app : App) (env : Env) (kind : EventKind)
    (hts : IsTimestamp env.now.rfc3339) :
    ∃ ev, (app.emitEvent env (WebhookEvent.new kind)).dispatched = app.dispatched ++ [ev] ∧
      (DecodesToEvent (renderTemplate ConfigJson.defaultBodyTemplate ev.vars) ev.vars
          (env.monotonicMs / 1000) ↔ PlainHostname app.config.wifi.hostname) := by
  refine ⟨_, emitEvent_new app env kind, plainHostname_of_decodes hts, fun hplain => ?_⟩
  obtain ⟨_, _, _, hdevice, huptime⟩ := standardVars_getD kind env.now.rfc3339
    app.config.wifi.hostname (env.monotonicMs / 1000)
  exact decodesToEvent_of_plain (tame_standardVars kind _ _ hts) (congrArg String.toList huptime)
    (toList_event_body hts) (hdevice ▸ hplain)

/-- With the default host name, the body of an event at boot decodes to it. -/
theorem default_body_at_boot :
    let env : Env := ⟨5000, ⟨0, "1970-01-01T00:00:05+00:00"⟩, fun _ => .ok ()⟩
    ∃ ev, ((App.new (.fails _) (Config.default {})).emitEvent env
        (WebhookEvent.new .boot)).dispatched = [ev] ∧
      DecodesToEvent (renderTemplate ConfigJson.defaultBodyTemplate ev.vars) ev.vars
        (env.monotonicMs / 1000) := by
  intro env
  have hts : IsTimestamp env.now.rfc3339 := by decide +kernel
  have hplain : PlainHostname (Config.default {}).wifi.hostname := by decide +kernel
  obtain ⟨ev, hev, hdecodes⟩ := default_body_decodes_iff
    (App.new (.fails _) (Config.default {})) env .boot hts
  exact ⟨ev, hev, hdecodes.mpr hplain⟩

/-- A quote in the host name ends the string of the device early. -/
theorem not_default_body_decodes :
    ¬ ∀ (app : App) (env : Env) (kind : EventKind), IsTimestamp env.now.rfc3339 →
      ∃ ev, (app.emitEvent env (WebhookEvent.new kind)).dispatched = app.dispatched ++ [ev] ∧
        DecodesToEvent (renderTemplate ConfigJson.defaultBodyTemplate ev.vars) ev.vars
          (env.monotonicMs / 1000) := by
  intro hall
  have hts : IsTimestamp "1970-01-01T00:00:05+00:00" := by decide +kernel
  obtain ⟨ev, hev, hdecodes⟩ := hall
    (App.new (.fails _) { Config.default {} with wifi.hostname := "a\"b" })
    ⟨5000, ⟨0, "1970-01-01T00:00:05+00:00"⟩, fun _ => .ok ()⟩ .boot hts
  rw [emitEvent_new] at hev
  obtain rfl := List.singleton_inj.mp (List.append_cancel_left hev)
  have hquote : ¬ JsonText.Plain "a\"b".toList := by decide +kernel
  exact hquote (plainHostname_of_decodes hts hdecodes).1

end WaterController
