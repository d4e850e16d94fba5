import Mathlib.Data.List.Basic
import Mathlib.Tactic.Common
import WaterController.Library.Text
import WaterController.Library.Utf8

/-!
# Requests of HTTP/1.1

A reader of requests, on bytes.  A request is a request line, header fields up to an empty
line, and a body of the length that they say.  The reader takes no request that another
reader may take for a different one: one without exactly one `Host`, with two lengths, with a
transfer coding, with a field that is folded, or with a control character.

What it reads is well-formed (`fields_valid`, `parse_eq_some`), and a well-formed request that
is written out is read as it is (`fields_render`).
-/

namespace Http

open Utf8 (ofAscii)

/-! ## Bytes -/

/-- The bytes of a token. -/
def isTokenByte (b : UInt8) : Bool :=
  let c := ofAscii b
  c.isAlphanum || "!#$%&'*+-.^_|~".toList.contains c || b == 96

/-- The bytes that are seen, with those that are not ASCII. -/
def isVisible (b : UInt8) : Bool := 0x21 ≤ b && b != 0x7f

/-- A space or a tab. -/
def isBlank (b : UInt8) : Bool := b == 32 || b == 9

/-- The bytes of a field value. -/
def isFieldByte (b : UInt8) : Bool := isVisible b || isBlank b

/-- The bytes without the blanks at their ends. -/
def trimBlanks (bs : List UInt8) : List UInt8 :=
  ((bs.dropWhile isBlank).reverse.dropWhile isBlank).reverse

def lower (bs : List UInt8) : List UInt8 := bs.map fun b => if 65 ≤ b ∧ b ≤ 90 then b + 32 else b

/-- The bytes of a text of ASCII characters. -/
def ascii (s : String) : List UInt8 := s.toList.map fun c => UInt8.ofNat c.toNat

theorem isAscii_of_token {b : UInt8} (hb : isTokenByte b = true) : Utf8.IsAscii b := by
  have hall : ∀ n < 256, isTokenByte (UInt8.ofNat n) = true → n < 128 := by decide +kernel
  have h := hall b.toNat b.toNat_lt
  rw [UInt8.ofNat_toNat] at h
  exact h hb

/-- Lower case is the same of the bytes as of their characters. -/
theorem map_toLower_ofAscii {bs : List UInt8} (hbs : ∀ b ∈ bs, Utf8.IsAscii b) :
    (bs.map ofAscii).map Char.toLower = (lower bs).map ofAscii := by
  have hall : ∀ n < 128, (ofAscii (UInt8.ofNat n)).toLower =
      ofAscii (if 65 ≤ UInt8.ofNat n ∧ UInt8.ofNat n ≤ 90 then UInt8.ofNat n + 32
        else UInt8.ofNat n) := by decide +kernel
  rw [lower, List.map_map, List.map_map]
  refine List.map_congr_left fun b hb => ?_
  have h := hall b.toNat (hbs b hb)
  rw [UInt8.ofNat_toNat] at h
  exact h

/-! ## Blanks -/

theorem trimBlanks_sublist (bs : List UInt8) : (trimBlanks bs).Sublist bs := by
  have hback := (List.dropWhile_sublist isBlank (l := (bs.dropWhile isBlank).reverse)).reverse
  rw [List.reverse_reverse] at hback
  exact hback.trans (List.dropWhile_sublist isBlank)

theorem dropWhile_of_head {bs : List UInt8} (h : ∀ b ∈ bs.head?, isBlank b = false) :
    bs.dropWhile isBlank = bs := by
  cases bs with
  | nil => rfl
  | cons b bs => rw [List.dropWhile_cons, h b rfl]; rfl

theorem head_dropWhile (bs : List UInt8) : ∀ b ∈ (bs.dropWhile isBlank).head?, isBlank b = false := by
  intro b hb
  have hhead := List.head?_dropWhile_not isBlank bs
  rw [hb] at hhead
  exact hhead

/-- Bytes are trimmed where no blank is at their ends. -/
theorem trimBlanks_of_ends {bs : List UInt8} (hhead : ∀ b ∈ bs.head?, isBlank b = false)
    (hlast : ∀ b ∈ bs.getLast?, isBlank b = false) : trimBlanks bs = bs := by
  rw [trimBlanks, dropWhile_of_head hhead, dropWhile_of_head, List.reverse_reverse]
  rw [List.head?_reverse]
  exact hlast

theorem trimBlanks_trimBlanks (bs : List UInt8) : trimBlanks (trimBlanks bs) = trimBlanks bs := by
  refine trimBlanks_of_ends (fun b hb => ?_) fun b hb => ?_
  · have hprefix : trimBlanks bs <+: bs.dropWhile isBlank := by
      have hsuffix := List.dropWhile_suffix isBlank (l := (bs.dropWhile isBlank).reverse)
      rw [← List.reverse_prefix, List.reverse_reverse] at hsuffix
      exact hsuffix
    obtain ⟨rest, hrest⟩ := hprefix
    refine head_dropWhile bs b ?_
    rw [← hrest, List.head?_append, hb]
    rfl
  · rw [trimBlanks, List.getLast?_reverse] at hb
    exact head_dropWhile _ b hb

theorem trimBlanks_cons_blank (bs : List UInt8) : trimBlanks (32 :: bs) = trimBlanks bs := rfl

/-- Only blanks are lost. -/
theorem mem_trimBlanks {bs : List UInt8} {b : UInt8} (hb : b ∈ bs) (hblank : isBlank b = false) :
    b ∈ trimBlanks bs := by
  have hkeep {cs : List UInt8} (hmem : b ∈ cs) : b ∈ cs.dropWhile isBlank := by
    rw [← List.takeWhile_append_dropWhile (p := isBlank) (l := cs)] at hmem
    rcases List.mem_append.mp hmem with htake | hdrop
    · exact absurd (List.all_eq_true.mp List.all_takeWhile b htake) (Bool.eq_false_iff.mp hblank)
    · exact hdrop
  exact List.mem_reverse.mpr (hkeep (List.mem_reverse.mpr (hkeep hb)))

/-! ## Lines -/

/-- The bytes in front of the first `c`, and those behind it. -/
def cut (c : UInt8) : List UInt8 → Option (List UInt8 × List UInt8)
  | [] => none
  | b :: bs => if b = c then some ([], bs) else (cut c bs).map fun r => (b :: r.1, r.2)

/-- The line in front of the first line break, and what is behind it. -/
def splitLine : List UInt8 → Option (List UInt8 × List UInt8)
  | 13 :: 10 :: rest => some ([], rest)
  | b :: bs => (splitLine bs).map fun r => (b :: r.1, r.2)
  | [] => none

theorem cut_eq_some {c : UInt8} {bs pre post : List UInt8} :
    cut c bs = some (pre, post) ↔ bs = pre ++ c :: post ∧ c ∉ pre := by
  induction bs generalizing pre with
  | nil => simp [cut]
  | cons b bs ih =>
      rw [cut]
      split
      · rename_i hbc
        subst hbc
        cases pre with
        | nil => simp [eq_comm]
        | cons p pre =>
            refine ⟨nofun, fun ⟨hsplit, hnot⟩ => ?_⟩
            exact absurd (List.cons.inj hsplit).1 fun hp => hnot (hp ▸ List.mem_cons_self)
      · rename_i hbc
        rw [Option.map_eq_some_iff]
        constructor
        · rintro ⟨⟨pre', post'⟩, hcut, heq⟩
          obtain ⟨rfl, rfl⟩ := Prod.mk.inj heq
          obtain ⟨rfl, hnot⟩ := ih.mp hcut
          exact ⟨rfl, fun hmem => (List.mem_cons.mp hmem).elim (fun h => hbc h.symm) hnot⟩
        · rintro ⟨hsplit, hnot⟩
          cases pre with
          | nil => exact absurd (List.cons.inj hsplit).1 hbc
          | cons p pre =>
              obtain ⟨rfl, htail⟩ := List.cons.inj hsplit
              exact ⟨(pre, post), ih.mpr ⟨htail, fun h => hnot (List.mem_cons_of_mem _ h)⟩, rfl⟩

theorem cut_inj {c : UInt8} {as bs as' bs' : List UInt8} (has : c ∉ as) (has' : c ∉ as')
    (h : as ++ c :: bs = as' ++ c :: bs') : as = as' ∧ bs = bs' := by
  have hcut : cut c (as ++ c :: bs) = some (as, bs) := cut_eq_some.mpr ⟨rfl, has⟩
  rw [cut_eq_some.mpr ⟨h, has'⟩] at hcut
  obtain ⟨hfront, hback⟩ := Prod.mk.inj (Option.some.inj hcut)
  exact ⟨hfront.symm, hback.symm⟩

theorem splitLine_eq_some {bs line rest : List UInt8} (h : splitLine bs = some (line, rest)) :
    bs = line ++ 13 :: 10 :: rest := by
  fun_induction splitLine bs generalizing line with
  | case1 rest =>
      obtain ⟨rfl, rfl⟩ := Prod.mk.inj (Option.some.inj h)
      rfl
  | case2 b bs _ ih =>
      obtain ⟨⟨line', rest'⟩, hsplit, heq⟩ := Option.map_eq_some_iff.mp h
      obtain ⟨rfl, rfl⟩ := Prod.mk.inj heq
      rw [ih hsplit]
      rfl
  | case3 => cases h

theorem splitLine_append {line : List UInt8} (hline : 13 ∉ line) (rest : List UInt8) :
    splitLine (line ++ 13 :: 10 :: rest) = some (line, rest) := by
  induction line with
  | nil => rfl
  | cons b line ih =>
      obtain ⟨hb, hline⟩ := not_or.mp (mt List.mem_cons.mpr hline)
      rw [List.cons_append, splitLine.eq_2 _ _ fun _ hbreak => absurd hbreak (Ne.symm hb), ih hline]
      rfl

/-! ## Fields -/

structure Field where
  name : List UInt8
  value : List UInt8
deriving DecidableEq, Repr

/-- A field that is read as it is. -/
structure Field.Valid (f : Field) : Prop where
  nonempty : f.name ≠ []
  name : f.name.all isTokenByte = true
  value : f.value.all isFieldByte = true
  trimmed : trimBlanks f.value = f.value

theorem valid_of_visible {name value : List UInt8} (hne : name ≠ [])
    (hname : name.all isTokenByte = true)
    (hvalue : ∀ b ∈ value, isVisible b = true ∧ isBlank b = false) : Field.Valid ⟨name, value⟩ := by
  refine ⟨hne, hname, ?_, trimBlanks_of_ends ?_ ?_⟩
  · exact List.all_eq_true.mpr fun b hb => Bool.or_eq_true_iff.mpr (.inl (hvalue b hb).1)
  · exact fun b hb => (hvalue b (List.mem_of_mem_head? hb)).2
  · exact fun b hb => (hvalue b (List.mem_of_mem_getLast? hb)).2

def parseField (line : List UInt8) : Option Field :=
  match cut 58 line with
  | none => none
  | some (name, value) =>
      if name ≠ [] ∧ name.all isTokenByte ∧ value.all isFieldByte then some ⟨name, trimBlanks value⟩
      else none

/-- The fields up to the empty line, and what is behind it.  `line` is what was read of the
first line. -/
def parseFields (line : List UInt8) : List UInt8 → Option (List Field × List UInt8)
  | 13 :: 10 :: rest =>
      if line = [] then some ([], rest)
      else
        match parseField line with
        | none => none
        | some f => (parseFields [] rest).map fun r => (f :: r.1, r.2)
  | b :: bs => parseFields (line ++ [b]) bs
  | [] => none

theorem parseField_valid {line : List UInt8} {f : Field} (h : parseField line = some f) :
    f.Valid := by
  rw [parseField] at h
  split at h
  · cases h
  · split at h
    · rename_i hbytes
      cases h
      refine ⟨hbytes.1, hbytes.2.1, ?_, trimBlanks_trimBlanks _⟩
      refine List.all_eq_true.mpr fun b hb => ?_
      exact List.all_eq_true.mp hbytes.2.2 b ((trimBlanks_sublist _).subset hb)
    · cases h

/-- The fields that are read are valid. -/
theorem fields_valid {line bs rest : List UInt8} {fs : List Field}
    (h : parseFields line bs = some (fs, rest)) : ∀ f ∈ fs, f.Valid := by
  fun_induction parseFields line bs generalizing fs with
  | case1 => cases h; exact fun f hf => absurd hf List.not_mem_nil
  | case2 => cases h
  | case3 line rest hline f hfield ih =>
      obtain ⟨⟨fs', rest'⟩, hrest, heq⟩ := Option.map_eq_some_iff.mp h
      obtain ⟨rfl, rfl⟩ := Prod.mk.inj heq
      exact List.forall_mem_cons.mpr ⟨parseField_valid hfield, ih hrest⟩
  | case4 line b bs _ ih => exact ih h
  | case5 => cases h

/-- Bytes that end in a line break. -/
def breakLines (lines : List (List UInt8)) : List UInt8 := lines.flatMap fun line => line ++ [13, 10]

theorem breakLines_cons (line : List UInt8) (lines : List (List UInt8)) :
    breakLines (line :: lines) = line ++ 13 :: 10 :: breakLines lines := by
  rw [breakLines, List.flatMap_cons, List.append_assoc]
  rfl

/-- Behind a line break there are whole lines. -/
theorem breakLines_split {lines : List (List UInt8)} (hlines : ∀ line ∈ lines, 13 ∉ line)
    {front back : List UInt8} (h : breakLines lines = front ++ 13 :: 10 :: back) :
    ∃ first second, lines = first ++ second ∧ breakLines first = front ++ [13, 10] ∧
      breakLines second = back := by
  induction lines generalizing front with
  | nil => exact absurd h.symm (List.append_ne_nil_of_right_ne_nil _ (List.cons_ne_nil _ _))
  | cons line lines ih =>
      obtain ⟨hline, hlines⟩ := List.forall_mem_cons.mp hlines
      rw [breakLines_cons] at h
      rcases List.append_eq_append_iff.mp h with ⟨more, hfront, hrest⟩ | ⟨more, hfront, hrest⟩
      · -- the break is behind this line
        match more, hfront, hrest with
        | [], hfront, hrest =>
            have hback : breakLines lines = back := by simpa using hrest
            refine ⟨[line], lines, rfl, ?_, hback⟩
            rw [breakLines_cons, hfront, List.append_nil]
            rfl
        | [b], hfront, hrest => exact absurd hrest (by simp)
        | b :: c :: more, hfront, hrest =>
            obtain ⟨rfl, hrest'⟩ := List.cons.inj hrest
            obtain ⟨rfl, hrest''⟩ := List.cons.inj hrest'
            obtain ⟨first, second, rfl, hfirst, hsecond⟩ := ih hlines hrest''
            refine ⟨line :: first, second, rfl, ?_, hsecond⟩
            rw [breakLines_cons, hfirst, hfront, List.append_assoc]
            rfl
      · cases more with
        | nil =>
            have hback : back = breakLines lines := by simpa using hrest
            refine ⟨[line], lines, rfl, ?_, hback.symm⟩
            rw [breakLines_cons, hfront, List.append_nil]
            rfl
        | cons b more =>
            obtain ⟨rfl, -⟩ := List.cons.inj hrest
            exact absurd (hfront ▸ List.mem_append_right _ List.mem_cons_self) hline

/-- Lines that start with bytes and a line break: the first of them starts as these do. -/
theorem breakLines_first {lines : List (List UInt8)} (hlines : ∀ line ∈ lines, 13 ∉ line)
    {front back : List UInt8} (h : breakLines lines = front ++ 13 :: 10 :: back) :
    ∃ line more second, lines = line :: (more ++ second) ∧
      line ++ 13 :: 10 :: breakLines more = front ++ [13, 10] ∧ breakLines second = back := by
  obtain ⟨first, second, rfl, hfirst, hsecond⟩ := breakLines_split hlines h
  cases first with
  | nil => exact absurd hfirst.symm (List.append_ne_nil_of_right_ne_nil _ (List.cons_ne_nil _ _))
  | cons line more => exact ⟨line, more, second, rfl, breakLines_cons line more ▸ hfirst, hsecond⟩

/-- What a field is read from. -/
theorem parseField_eq_some {line : List UInt8} {f : Field} (h : parseField line = some f) :
    ∃ value, line = f.name ++ 58 :: value ∧ 58 ∉ f.name ∧ f.value = trimBlanks value := by
  rw [parseField] at h
  split at h
  · cases h
  · rename_i name value hcut
    obtain ⟨rfl, hcolon⟩ := cut_eq_some.mp hcut
    split at h
    · cases h
      exact ⟨value, rfl, hcolon, rfl⟩
    · cases h

theorem parseField_no_break {line : List UInt8} {f : Field} (h : parseField line = some f) :
    13 ∉ line := by
  rw [parseField] at h
  split at h
  · cases h
  · rename_i name value hcut
    split at h
    · rename_i hbytes
      obtain ⟨rfl, -⟩ := cut_eq_some.mp hcut
      intro hmem
      rcases List.mem_append.mp hmem with hname | hrest
      · exact absurd (List.all_eq_true.mp hbytes.2.1 _ hname) (by decide)
      · rcases List.mem_cons.mp hrest with hcolon | hvalue
        · exact absurd hcolon (by decide)
        · exact absurd (List.all_eq_true.mp hbytes.2.2 _ hvalue) (by decide)
    · cases h

/-- What fields are read from. -/
theorem fields_lines {line bs rest : List UInt8} {fs : List Field}
    (h : parseFields line bs = some (fs, rest)) :
    ∃ lines, line ++ bs = breakLines lines ++ 13 :: 10 :: rest ∧
      lines.map parseField = fs.map some := by
  fun_induction parseFields line bs generalizing fs with
  | case1 => cases h; exact ⟨[], rfl, rfl⟩
  | case2 => cases h
  | case3 line rest hline f hfield ih =>
      obtain ⟨⟨fs', rest'⟩, hrest, heq⟩ := Option.map_eq_some_iff.mp h
      obtain ⟨rfl, rfl⟩ := Prod.mk.inj heq
      obtain ⟨lines, hbytes, hfields⟩ := ih hrest
      refine ⟨line :: lines, ?_, congrArg₂ List.cons hfield hfields⟩
      rw [breakLines_cons, List.append_assoc, List.cons_append, List.cons_append, ← hbytes]
      rfl
  | case4 line b bs _ ih =>
      obtain ⟨lines, hbytes, hfields⟩ := ih h
      rw [List.append_assoc] at hbytes
      exact ⟨lines, hbytes, hfields⟩
  | case5 => cases h

/-- The fields are read line by line. -/
theorem parseFields_eq {line bs : List UInt8} :
    parseFields line bs =
      match splitLine bs with
      | none => none
      | some (more, rest) =>
          if line ++ more = [] then some ([], rest)
          else
            match parseField (line ++ more) with
            | none => none
            | some f => (parseFields [] rest).map fun r => (f :: r.1, r.2) := by
  fun_induction parseFields line bs with
  | case1 => rfl
  | case2 line rest hline hfield =>
      rw [splitLine]
      dsimp only
      rw [List.append_nil, if_neg hline, hfield]
  | case3 line rest hline f hfield ih =>
      rw [splitLine]
      dsimp only
      rw [List.append_nil, if_neg hline, hfield]
  | case4 line b bs hbreak ih =>
      rw [ih, splitLine.eq_2 b bs hbreak]
      cases splitLine bs with
      | none => rfl
      | some r =>
          dsimp only [Option.map_some]
          rw [List.append_assoc]
          rfl
  | case5 => rfl

/-- What starts with a line and a field starts, as it is read, with no more of them. -/
theorem first_lines {line behind front name value rest body : List UInt8} {fs : List Field}
    (hline : 13 ∉ line) (hname : 58 ∉ name) (hfields : parseFields [] behind = some (fs, body))
    (h : line ++ 13 :: 10 :: behind =
      front ++ 13 :: 10 :: (name ++ 58 :: 32 :: value ++ 13 :: 10 :: (rest ++ 13 :: 10 :: body))) :
    ∃ more value' more', line ++ 13 :: 10 :: breakLines more = front ++ [13, 10] ∧
      value' ++ 13 :: 10 :: breakLines more' = value ++ [13, 10] ∧
      ⟨name, trimBlanks value'⟩ ∈ fs := by
  obtain ⟨lines, hbytes, hlines⟩ := fields_lines hfields
  have hread : ∀ l ∈ lines, ∃ f ∈ fs, parseField l = some f := fun l hl => by
    obtain ⟨f, hf, hsome⟩ := List.mem_map.mp (hlines ▸ List.mem_map_of_mem hl)
    exact ⟨f, hf, hsome.symm⟩
  have hno : ∀ l ∈ lines, 13 ∉ l := fun l hl => by
    obtain ⟨f, -, hf⟩ := hread l hl
    exact parseField_no_break hf
  have hall : breakLines (line :: lines) =
      front ++ 13 :: 10 :: (name ++ 58 :: 32 :: value ++ 13 :: 10 :: rest) := by
    rw [List.nil_append] at hbytes
    have hbody : breakLines (line :: lines) ++ 13 :: 10 :: body =
        (front ++ 13 :: 10 :: (name ++ 58 :: 32 :: value ++ 13 :: 10 :: rest)) ++
          13 :: 10 :: body := by
      rw [hbytes] at h
      rw [breakLines_cons]
      simpa only [List.append_assoc, List.cons_append] using h
    exact List.append_cancel_right hbody
  obtain ⟨line', more, second, heq, hfirst, hsecond⟩ :=
    breakLines_first (List.forall_mem_cons.mpr ⟨hline, hno⟩) hall
  obtain ⟨rfl, rfl⟩ := List.cons.inj heq
  have hno' : ∀ l ∈ second, 13 ∉ l := fun l hl => hno l (List.mem_append_right _ hl)
  obtain ⟨l, more', second', rfl, hl, -⟩ := breakLines_first hno' hsecond
  obtain ⟨f, hf, hparse⟩ := hread l (List.mem_append_right _ List.mem_cons_self)
  obtain ⟨text, rfl, hcolon, htext⟩ := parseField_eq_some hparse
  rw [List.append_assoc, List.append_assoc, List.cons_append, List.cons_append] at hl
  obtain ⟨hname', hvalue⟩ := cut_inj hcolon hname hl
  have hmem : ⟨name, trimBlanks text⟩ ∈ fs := by
    rw [← hname', ← htext]
    exact hf
  cases text with
  | nil => exact absurd (List.cons.inj hvalue).1 (by decide)
  | cons b text =>
      obtain ⟨rfl, hrest⟩ := List.cons.inj hvalue
      exact ⟨more, text, more', hfirst, hrest, hmem⟩

/-- A field as it is written. -/
def fieldLine (f : Field) : List UInt8 := f.name ++ 58 :: 32 :: f.value

theorem isTokenByte_ne {b : UInt8} (hb : isTokenByte b = true) : b ≠ 13 ∧ b ≠ 58 := by
  constructor <;> rintro rfl <;> exact absurd hb (by decide)

theorem isFieldByte_ne {b : UInt8} (hb : isFieldByte b = true) : b ≠ 13 := by
  rintro rfl
  exact absurd hb (by decide)

theorem Field.Valid.not_mem_fieldLine {f : Field} (h : f.Valid) : 13 ∉ fieldLine f := by
  intro hmem
  rcases List.mem_append.mp hmem with hname | hrest
  · exact (isTokenByte_ne (List.all_eq_true.mp h.name _ hname)).1 rfl
  · rcases List.mem_cons.mp hrest with hcolon | hrest
    · exact absurd hcolon (by decide)
    · rcases List.mem_cons.mp hrest with hspace | hvalue
      · exact absurd hspace (by decide)
      · exact isFieldByte_ne (List.all_eq_true.mp h.value _ hvalue) rfl

theorem Field.Valid.parseField_fieldLine {f : Field} (h : f.Valid) :
    parseField (fieldLine f) = some f := by
  have hcut : cut 58 (fieldLine f) = some (f.name, 32 :: f.value) :=
    cut_eq_some.mpr ⟨rfl, fun hmem => (isTokenByte_ne (List.all_eq_true.mp h.name _ hmem)).2 rfl⟩
  have hvalue : (32 :: f.value).all isFieldByte = true := by
    rw [List.all_cons, h.value]
    rfl
  rw [parseField, hcut]
  dsimp only
  rw [if_pos ⟨h.nonempty, h.name, hvalue⟩, trimBlanks_cons_blank, h.trimmed]

/-- Valid fields that are written out are read as they are. -/
theorem fields_render {fs : List Field} (h : ∀ f ∈ fs, f.Valid) (rest : List UInt8) :
    parseFields [] (breakLines (fs.map fieldLine) ++ 13 :: 10 :: rest) = some (fs, rest) := by
  induction fs with
  | nil => rfl
  | cons f fs ih =>
      obtain ⟨hf, hfs⟩ := List.forall_mem_cons.mp h
      have hne : fieldLine f ≠ [] := fun hnil => hf.nonempty (List.append_eq_nil_iff.mp hnil).1
      rw [List.map_cons, breakLines_cons, List.append_assoc, List.cons_append, List.cons_append,
        parseFields_eq, splitLine_append hf.not_mem_fieldLine]
      dsimp only
      rw [List.nil_append, if_neg hne, hf.parseField_fieldLine, ih hfs]
      rfl

/-- The values of the fields of a name, in any case. -/
def values (name : List UInt8) (fields : List Field) : List (List UInt8) :=
  (fields.filter fun f => lower f.name == lower name).map Field.value

theorem values_cons (name : List UInt8) (f : Field) (fs : List Field) :
    values name (f :: fs) =
      if lower f.name = lower name then f.value :: values name fs else values name fs := by
  simp only [values, List.filter_cons, beq_iff_eq]
  split <;> rfl

theorem values_append (name : List UInt8) (fs gs : List Field) :
    values name (fs ++ gs) = values name fs ++ values name gs := by
  rw [values, List.filter_append, List.map_append]
  rfl

theorem mem_values {name : List UInt8} {f : Field} {fs : List Field} (hf : f ∈ fs)
    (hname : lower f.name = lower name) : f.value ∈ values name fs :=
  List.mem_map_of_mem (List.mem_filter.mpr ⟨hf, beq_iff_eq.mpr hname⟩)

theorem values_eq_nil {name : List UInt8} {fs : List Field} :
    values name fs = [] ↔ ∀ f ∈ fs, lower f.name ≠ lower name := by
  simp [values]

/-! ## Requests -/

structure Request where
  method : List UInt8
  target : List UInt8
  fields : List Field
  body : List UInt8
deriving DecidableEq, Repr

def parseRequestLine (line : List UInt8) : Option (List UInt8 × List UInt8) :=
  match cut 32 line with
  | none => none
  | some (method, rest) =>
      match cut 32 rest with
      | none => none
      | some (target, version) =>
          if method ≠ [] ∧ method.all isTokenByte ∧ target ≠ [] ∧ target.all isVisible ∧
              version = ascii "HTTP/1.1" then some (method, target)
          else none

/-- A length, in decimal digits. -/
def parseLength (value : List UInt8) : Option Nat :=
  let digits := value.map ofAscii
  if digits ≠ [] ∧ digits.all Char.isDigit then some (Text.digitsValue digits) else none

theorem parseLength_encode {digits : List Char} (hne : digits ≠ [])
    (hdigits : ∀ c ∈ digits, c.isDigit = true) :
    parseLength (Utf8.encode digits) = some (Text.digitsValue digits) := by
  rw [parseLength, Utf8.map_ofAscii_encode fun c hc => Text.toNat_of_isDigit (hdigits c hc)]
  exact if_pos ⟨hne, List.all_eq_true.mpr hdigits⟩

/-- The length of the body. -/
def bodyLength (fields : List Field) : Option Nat :=
  if (values (ascii "Host") fields).length ≠ 1 ∨
      values (ascii "Transfer-Encoding") fields ≠ [] then none
  else
    match values (ascii "Content-Length") fields with
    | [] => some 0
    | [value] => parseLength value
    | _ => none

/-- A request, and what is behind it. -/
def parse (bytes : List UInt8) : Option (Request × List UInt8) := do
  let (line, rest) ← splitLine bytes
  let (method, target) ← parseRequestLine line
  let (fields, rest) ← parseFields [] rest
  let length ← bodyLength fields
  if rest.length < length then none
  else some (⟨method, target, fields, rest.take length⟩, rest.drop length)

/-- What a request that is read consists of. -/
theorem parse_eq_some {bytes rest : List UInt8} {req : Request}
    (h : parse bytes = some (req, rest)) :
    ∃ line behind tail n, splitLine bytes = some (line, behind) ∧
      parseRequestLine line = some (req.method, req.target) ∧
      parseFields [] behind = some (req.fields, tail) ∧ bodyLength req.fields = some n ∧
      n ≤ tail.length ∧ req.body = tail.take n ∧ rest = tail.drop n := by
  simp only [parse, Option.bind_eq_bind, Option.bind_eq_some_iff, Prod.exists] at h
  obtain ⟨line, behind, hline, method, target, hrequest, fields, tail, hfields, n, hlength, h⟩ := h
  split at h
  · cases h
  · cases h
    exact ⟨line, behind, tail, n, hline, hrequest, hfields, hlength, by omega, rfl, rfl⟩

theorem parse_of_parts {bytes line behind tail method target : List UInt8} {fields : List Field}
    {n : Nat} (hline : splitLine bytes = some (line, behind))
    (hrequest : parseRequestLine line = some (method, target))
    (hfields : parseFields [] behind = some (fields, tail))
    (hlength : bodyLength fields = some n) (hn : n ≤ tail.length) :
    parse bytes = some (⟨method, target, fields, tail.take n⟩, tail.drop n) := by
  simp only [parse, hline, hrequest, hfields, hlength, Option.bind_eq_bind, Option.bind_some]
  rw [if_neg (Nat.not_lt_of_le hn)]

/-- What a request line that is read consists of. -/
theorem parseRequestLine_eq_some {line method target : List UInt8} :
    parseRequestLine line = some (method, target) ↔
      line = method ++ 32 :: (target ++ 32 :: ascii "HTTP/1.1") ∧ method ≠ [] ∧
        method.all isTokenByte = true ∧ target ≠ [] ∧ target.all isVisible = true := by
  have htoken : isTokenByte 32 = false := by decide
  have hvisible : isVisible 32 = false := by decide
  rw [parseRequestLine]
  constructor
  · intro h
    split at h
    · cases h
    · rename_i method' rest hmethod
      split at h
      · cases h
      · rename_i target' version htarget
        split at h
        · rename_i hparts
          obtain ⟨rfl, rfl⟩ := Prod.mk.inj (Option.some.inj h)
          obtain ⟨hm, hmall, ht, htall, rfl⟩ := hparts
          obtain ⟨rfl, -⟩ := cut_eq_some.mp hmethod
          obtain ⟨rfl, -⟩ := cut_eq_some.mp htarget
          exact ⟨rfl, hm, hmall, ht, htall⟩
        · cases h
  · rintro ⟨rfl, hm, hmall, ht, htall⟩
    have hmethod : cut 32 (method ++ 32 :: (target ++ 32 :: ascii "HTTP/1.1")) =
        some (method, target ++ 32 :: ascii "HTTP/1.1") :=
      cut_eq_some.mpr ⟨rfl, fun hmem => absurd (List.all_eq_true.mp hmall _ hmem)
        (by rw [htoken]; exact Bool.false_ne_true)⟩
    have htarget : cut 32 (target ++ 32 :: ascii "HTTP/1.1") = some (target, ascii "HTTP/1.1") :=
      cut_eq_some.mpr ⟨rfl, fun hmem => absurd (List.all_eq_true.mp htall _ hmem)
        (by rw [hvisible]; exact Bool.false_ne_true)⟩
    rw [hmethod]
    dsimp only
    rw [htarget]
    exact if_pos ⟨hm, hmall, ht, htall, rfl⟩

theorem requestLine_no_break {line : List UInt8} {r : List UInt8 × List UInt8}
    (h : parseRequestLine line = some r) : 13 ∉ line := by
  obtain ⟨rfl, -, hmethod, -, htarget⟩ := parseRequestLine_eq_some.mp h
  have hversion : (13 : UInt8) ∉ ascii "HTTP/1.1" := by decide
  intro hmem
  rcases List.mem_append.mp hmem with hmem | hmem
  · exact (isTokenByte_ne (List.all_eq_true.mp hmethod _ hmem)).1 rfl
  · rcases List.mem_cons.mp hmem with hspace | hmem
    · exact absurd hspace (by decide)
    · rcases List.mem_append.mp hmem with hmem | hmem
      · exact absurd (List.all_eq_true.mp htarget _ hmem) (by decide)
      · exact (List.mem_cons.mp hmem).elim (fun hspace => absurd hspace (by decide)) hversion

end Http
