import WaterController.Library.Utf8
import WaterController.Nostd.Webhook

/-!
# The status of a delivery

`readStatus` makes one read of at most 64 bytes and takes the second word of them for the
status.  The transport can split a response anywhere, so these bytes may end in the code,
or in a character.  The status that is read is the one of the response just if the code is
among them and they are UTF-8 (`read_status_iff`).
-/

namespace WaterController

open FlashKv (fromUtf8)
open Utf8 (IsAscii ofAscii)

namespace Webhook

/-! ## Responses -/

def digit (d : Fin 10) : UInt8 := UInt8.ofNat (48 + d)

/-- A response that begins with a status line.  The reason is what is behind the space
that follows on the code. -/
structure HttpResponse where
  major : Fin 10
  minor : Fin 10
  hundreds : Fin 10
  tens : Fin 10
  ones : Fin 10
  reason : Option Bytes
  noBreak : ∀ b ∈ reason.getD [], b ≠ 13 ∧ b ≠ 10
  rest : Bytes

namespace HttpResponse

def version (r : HttpResponse) : Bytes := [72, 84, 84, 80, 47, digit r.major, 46, digit r.minor]

def code (r : HttpResponse) : Nat := 100 * r.hundreds + 10 * r.tens + r.ones

def codeDigits (r : HttpResponse) : Bytes := [digit r.hundreds, digit r.tens, digit r.ones]

/-- What is behind the code. -/
def behind (r : HttpResponse) : Bytes :=
  (match r.reason with
    | none => []
    | some reason => 32 :: reason) ++ [13, 10] ++ r.rest

def bytes (r : HttpResponse) : Bytes := r.version ++ 32 :: r.codeDigits ++ r.behind

/-- The code is in some first bytes, and these are UTF-8.  The zeros of the code 000 need not
all be there. -/
def CodeIn (r : HttpResponse) (bs : Bytes) : Prop :=
  (12 ≤ bs.length ∨ r.code = 0 ∧ 10 ≤ bs.length) ∧ (fromUtf8 bs).isSome = true

end HttpResponse

/-- A way the transport can split a response into reads. -/
structure Reads (r : HttpResponse) where
  chunks : List Bytes
  flatten : chunks.flatten = r.bytes
  fits : ∀ chunk ∈ chunks, chunk ≠ [] ∧ chunk.length ≤ 64

namespace Reads

variable {r : HttpResponse}

/-- What is read first. -/
def first (reads : Reads r) : Bytes := reads.chunks.headD []

theorem first_prefix (reads : Reads r) : reads.first <+: r.bytes := by
  rw [← reads.flatten, first]
  cases reads.chunks with
  | nil => exact List.nil_prefix
  | cons chunk chunks => exact ⟨chunks.flatten, rfl⟩

end Reads

/-! ## Words of ASCII bytes -/

theorem isAscii_digit (d : Fin 10) : IsAscii (digit d) := by
  revert d
  decide

theorem not_whitespace_digit (d : Fin 10) : Text.isWhitespace (ofAscii (digit d)) = false := by
  revert d
  decide

theorem isDigit_digit (d : Fin 10) : (ofAscii (digit d)).isDigit = true := by
  revert d
  decide

theorem toNat_digit (d : Fin 10) : (ofAscii (digit d)).toNat - 48 = d := by
  revert d
  decide

/-- What some digits are read as. -/
def valueOf (digits : List (Fin 10)) : Nat := digits.foldl (fun n (d : Fin 10) => 10 * n + d) 0

theorem digitsValue_digits (digits : List (Fin 10)) :
    Text.digitsValue (digits.map fun d => ofAscii (digit d)) = valueOf digits := by
  rw [Text.digitsValue, Nat.ofDigitChars_eq_foldl, List.foldl_map, valueOf]
  congr 1
  funext n d
  show _ + ((ofAscii (digit d)).toNat - 48) = _
  rw [toNat_digit]

/-- ASCII bytes in front of others are characters in front of their text. -/
theorem readStatus_append {as : Bytes} (has : ∀ a ∈ as, IsAscii a) (bs : Bytes) :
    (fromUtf8 (as ++ bs)).isSome = (fromUtf8 bs).isSome ∧
      readStatus (.data (as ++ bs)) =
        match fromUtf8 bs with
        | none => .error "non-utf8"
        | some line => statusIn (as.map ofAscii ++ line.toList) := by
  have happend (s : String) := @Utf8.fromUTF8?_append as bs has s
  rw [readStatus]
  cases hbs : fromUtf8 bs with
  | none =>
      have hnone : fromUtf8 (as ++ bs) = none := by
        rw [Option.eq_none_iff_forall_not_mem]
        intro s hs
        obtain ⟨t, ht, -⟩ := (happend s).mp hs
        exact nomatch hbs.symm.trans ht
      rw [hnone]
      exact ⟨rfl, rfl⟩
  | some line =>
      have hsome : fromUtf8 (as ++ bs) = some (String.ofList (as.map ofAscii ++ line.toList)) :=
        (happend _).mpr ⟨line, hbs, String.toList_ofList⟩
      rw [hsome]
      refine ⟨rfl, ?_⟩
      show statusIn (String.ofList _).toList = _
      rw [String.toList_ofList]

/-- Without bytes behind them, ASCII bytes are a text. -/
theorem readStatus_ascii {as : Bytes} (has : ∀ a ∈ as, IsAscii a) :
    readStatus (.data as) = statusIn (as.map ofAscii) := by
  have hempty : fromUtf8 [] = some "" := Utf8.fromUTF8?_eq_some.mpr rfl
  obtain ⟨-, hstatus⟩ := readStatus_append has []
  rw [List.append_nil, hempty] at hstatus
  refine hstatus.trans ?_
  show statusIn (as.map ofAscii ++ "".toList) = _
  rw [String.toList_empty, List.append_nil]

/-- A text that begins with white space does so in bytes. -/
theorem head_of_fromUtf8 {bs : Bytes} {line : String} (hline : fromUtf8 bs = some line)
    (hbs : ∀ b ∈ bs.head?, b = 32 ∨ b = 13) :
    ∀ c ∈ line.toList.head?, Text.isWhitespace c = true := by
  have hencode := Utf8.fromUTF8?_eq_some.mp hline
  cases bs with
  | nil =>
      cases hchars : line.toList with
      | nil => exact fun c hc => nomatch hc
      | cons c cs =>
          rw [hchars, Utf8.encode_cons] at hencode
          exact absurd (List.append_eq_nil_iff.mp hencode).1 String.utf8EncodeChar_ne_nil
  | cons b bs =>
      have hb := hbs b rfl
      obtain ⟨ds, hchars, -⟩ := (Utf8.encode_eq_cons (by rcases hb with rfl | rfl <;> decide)).mp
        hencode
      rw [hchars]
      rintro c ⟨⟩
      rcases hb with rfl | rfl <;> decide

namespace HttpResponse

variable (r : HttpResponse)

theorem isAscii_version : ∀ b ∈ r.version, IsAscii b := by
  simp only [version, List.forall_mem_cons, isAscii_digit, true_and, List.not_mem_nil,
    false_imp_iff, implies_true, and_true]
  decide

theorem not_whitespace_version :
    ∀ c ∈ r.version.map ofAscii, Text.isWhitespace c = false := by
  simp only [version, List.map_cons, List.map_nil, List.forall_mem_cons, not_whitespace_digit,
    true_and, List.not_mem_nil, false_imp_iff, implies_true, and_true]
  decide

/-- The status is the number behind the version. -/
theorem statusIn_digits {ds : List (Fin 10)} (hne : ds ≠ []) (hval : valueOf ds < 65536)
    {tail : List Char} (htail : ∀ c ∈ tail.head?, Text.isWhitespace c = true) :
    statusIn (r.version.map ofAscii ++ ' ' :: (ds.map (fun d => ofAscii (digit d)) ++ tail)) =
      .ok (valueOf ds) := by
  have hwords : (Text.splitWhitespace (r.version.map ofAscii ++
      ' ' :: (ds.map (fun d => ofAscii (digit d)) ++ tail)))[1]? =
        some (ds.map fun d => ofAscii (digit d)) := by
    have hword : ∀ c ∈ ds.map (fun d => ofAscii (digit d)), Text.isWhitespace c = false := by
      intro c hc
      obtain ⟨d, -, rfl⟩ := List.mem_map.mp hc
      exact not_whitespace_digit d
    have hdigits : ds.map (fun d => ofAscii (digit d)) ≠ [] := fun hnil =>
      hne (List.map_eq_nil_iff.mp hnil)
    rw [Text.splitWhitespace_append_cons r.not_whitespace_version (List.cons_ne_nil _ _) (by decide)]
    cases tail with
    | nil => rw [List.append_nil, Text.splitWhitespace_of_word hword hdigits]; rfl
    | cons c tail =>
        rw [Text.splitWhitespace_append_cons hword hdigits (htail c rfl)]
        rfl
  have hparse := @Text.parseUnsigned_of_digits 65536 (ds.map fun d => ofAscii (digit d))
    (fun hnil => hne (List.map_eq_nil_iff.mp hnil))
    (fun c hc => by obtain ⟨d, -, rfl⟩ := List.mem_map.mp hc; exact isDigit_digit d)
    (by rw [digitsValue_digits]; exact hval)
  rw [digitsValue_digits] at hparse
  rw [statusIn, hwords, Option.bind_some, hparse]

/-- A part of the version is one word. -/
theorem statusIn_version {part : Bytes} (hpart : part <+: r.version) :
    statusIn (part.map ofAscii) = .error "no status" := by
  rcases eq_or_ne part [] with rfl | hne
  · rfl
  · rw [statusIn, Text.splitWhitespace_of_word]
    · rfl
    · exact fun c hc => r.not_whitespace_version c ((hpart.map ofAscii).subset hc)
    · exact fun hnil => hne (List.map_eq_nil_iff.mp hnil)

theorem statusIn_space : statusIn ((r.version ++ [32]).map ofAscii) = .error "no status" := by
  rw [List.map_append, List.map_singleton, statusIn,
    Text.splitWhitespace_append_cons r.not_whitespace_version (List.cons_ne_nil _ _) (by decide)]
  rfl

theorem isAscii_status (ds : List (Fin 10)) : ∀ b ∈ r.version ++ 32 :: ds.map digit, IsAscii b := by
  intro b hb
  rcases List.mem_append.mp hb with hversion | hrest
  · exact r.isAscii_version b hversion
  · rcases List.mem_cons.mp hrest with rfl | hdigit
    · decide
    · obtain ⟨d, -, rfl⟩ := List.mem_map.mp hdigit
      exact isAscii_digit d

/-- Some digits behind the version are the status that is read, if the bytes are UTF-8. -/
theorem readStatus_digits {ds : List (Fin 10)} (hne : ds ≠ []) (hval : valueOf ds < 65536)
    {tail : Bytes} (htail : ∀ b ∈ tail.head?, b = 32 ∨ b = 13) (n : Nat) :
    readStatus (.data (r.version ++ 32 :: ds.map digit ++ tail)) = .ok n ↔
      valueOf ds = n ∧ (fromUtf8 (r.version ++ 32 :: ds.map digit ++ tail)).isSome = true := by
  obtain ⟨hsome, hstatus⟩ := readStatus_append (r.isAscii_status ds) tail
  rw [hsome, hstatus]
  cases hline : fromUtf8 tail with
  | none => exact ⟨nofun, fun h => nomatch h.2⟩
  | some line =>
      have hdigits := r.statusIn_digits hne hval (head_of_fromUtf8 hline htail)
      have hchars : (r.version ++ 32 :: ds.map digit).map ofAscii ++ line.toList =
          r.version.map ofAscii ++ ' ' :: (ds.map (fun d => ofAscii (digit d)) ++ line.toList) := by
        rw [List.map_append, List.map_cons, List.map_map, List.append_assoc]
        rfl
      show statusIn ((r.version ++ 32 :: ds.map digit).map ofAscii ++ line.toList) = _ ↔ _
      rw [hchars, hdigits, Except.ok.injEq]
      exact ⟨fun h => ⟨h, rfl⟩, And.left⟩

/-- Behind the code comes a space or the end of the line. -/
theorem head_of_prefix_behind {tail : Bytes} (htail : tail <+: r.behind) :
    ∀ b ∈ tail.head?, b = 32 ∨ b = 13 := by
  cases tail with
  | nil => exact fun b hb => nomatch hb
  | cons b tail =>
      rintro _ ⟨⟩
      rw [behind] at htail
      cases hreason : r.reason with
      | none =>
          rw [hreason] at htail
          exact .inr (List.cons_prefix_cons.mp htail).1
      | some reason =>
          rw [hreason] at htail
          exact .inl (List.cons_prefix_cons.mp htail).1

/-- A prefix ends in the first of two parts, or behind it. -/
theorem prefix_append_cases {bs as cs : Bytes} (h : bs <+: as ++ cs) :
    bs <+: as ∨ ∃ tail, bs = as ++ tail ∧ tail <+: cs := by
  rcases List.prefix_or_prefix_of_prefix h (List.prefix_append as cs) with hshort | ⟨tail, rfl⟩
  · exact .inl hshort
  · exact .inr ⟨tail, rfl, (List.prefix_append_right_inj as).mp h⟩

theorem length_version : r.version.length = 8 := rfl

/-- Some of the digits of the code are the code only if it is 0. -/
theorem readStatus_part {ds : List (Fin 10)} (hne : ds ≠ []) (hval : valueOf ds < 65536)
    (hlength : ds.length < 3) (hcode : valueOf ds = r.code ↔ r.code = 0) :
    readStatus (.data (r.version ++ 32 :: ds.map digit)) = .ok r.code ↔
      r.CodeIn (r.version ++ 32 :: ds.map digit) := by
  have hstatus := r.readStatus_digits hne hval (fun b (hb : b ∈ [].head?) => nomatch hb) r.code
  have hpos := List.length_pos_iff.mpr hne
  rw [List.append_nil, hcode] at hstatus
  rw [hstatus, CodeIn, List.length_append, List.length_cons, List.length_map, r.length_version]
  refine and_congr_left fun _ => ⟨fun hzero => .inr ⟨hzero, by omega⟩, fun hlong => ?_⟩
  rcases hlong with hlong | ⟨hzero, -⟩
  · omega
  · exact hzero

/-- The status in the first bytes of a response is its code just if the code is in them. -/
theorem readStatus_prefix {bs : Bytes} (h : bs <+: r.bytes) :
    readStatus (.data bs) = .ok r.code ↔ r.CodeIn bs := by
  have hcode : valueOf [r.hundreds, r.tens, r.ones] = r.code := by
    simp only [valueOf, List.foldl_cons, List.foldl_nil, code]
    omega
  have hsmall (part : Bytes) (hpart : part <+: r.version) :
      readStatus (.data part) = .ok r.code ↔ r.CodeIn part := by
    have hlength := hpart.length_le
    rw [r.length_version] at hlength
    rw [readStatus_ascii fun b hb => r.isAscii_version b (hpart.subset hb),
      r.statusIn_version hpart, CodeIn]
    exact ⟨nofun, fun hin => by omega⟩
  have hwhole (tail : Bytes) (htail : tail <+: r.behind) :
      readStatus (.data (r.version ++ 32 :: r.codeDigits ++ tail)) = .ok r.code ↔
        r.CodeIn (r.version ++ 32 :: r.codeDigits ++ tail) := by
    have hval : valueOf [r.hundreds, r.tens, r.ones] < 65536 := by
      rw [hcode, code]
      omega
    have hstatus := r.readStatus_digits (List.cons_ne_nil _ _) hval (r.head_of_prefix_behind htail)
      r.code
    have hlength : 12 ≤ (r.version ++ 32 :: r.codeDigits ++ tail).length := by
      rw [List.length_append]
      exact Nat.le_add_right 12 _
    refine hstatus.trans ⟨fun hboth => ⟨.inl hlength, hboth.2⟩, fun hin => ⟨hcode, hin.2⟩⟩
  rcases prefix_append_cases h with hhead | ⟨tail, rfl, htail⟩
  · rcases prefix_append_cases hhead with hversion | ⟨tail, rfl, htail⟩
    · exact hsmall bs hversion
    · rcases List.prefix_cons_iff.mp htail with rfl | ⟨digits, rfl, hdigits⟩
      · rw [List.append_nil]
        exact hsmall _ (List.prefix_refl _)
      · -- the space, and the digits of the code one by one
        rcases List.prefix_cons_iff.mp hdigits with rfl | ⟨digits, rfl, htens⟩
        · have hspace : readStatus (.data (r.version ++ [32])) = .error "no status" :=
            (readStatus_ascii (r.isAscii_status [])).trans r.statusIn_space
          rw [hspace, CodeIn]
          exact ⟨nofun, fun hin => by simp [r.length_version] at hin⟩
        · rcases List.prefix_cons_iff.mp htens with rfl | ⟨digits, rfl, hones⟩
          · refine @readStatus_part r [r.hundreds] (List.cons_ne_nil _ _) ?_ (by simp) ?_
            · simp only [valueOf, List.foldl_cons, List.foldl_nil]
              omega
            · simp only [valueOf, List.foldl_cons, List.foldl_nil, code]
              omega
          · rcases List.prefix_cons_iff.mp hones with rfl | ⟨digits, rfl, hnil⟩
            · refine @readStatus_part r [r.hundreds, r.tens] (List.cons_ne_nil _ _) ?_ (by simp) ?_
              · simp only [valueOf, List.foldl_cons, List.foldl_nil]
                omega
              · simp only [valueOf, List.foldl_cons, List.foldl_nil, code]
                omega
            · cases List.prefix_nil.mp hnil
              exact hwhole [] List.nil_prefix
  · exact hwhole tail htail

end HttpResponse

/-! ## Deliveries -/

/-- The network, with a response that is read so. -/
def Net.responds (net : Net) (bytes : Bytes) : Net := { net with recv := .data bytes }

/-- Deliveries whose first reads have the same status are reported alike. -/
theorem report_deliver (kind : EventKind) (net : Net) (wh : WebhookConfig) {bytes bytes' : Bytes}
    (h : readStatus (.data bytes) = readStatus (.data bytes')) :
    report kind wh (deliver (net.responds bytes) wh) =
      report kind wh (deliver (net.responds bytes') wh) := by
  have hhttps (url : Url) :
      deliverHttps (net.responds bytes) url = deliverHttps (net.responds bytes') url := by
    simp only [deliverHttps, Net.responds, h, resolve]
  have hdeliver : deliver (net.responds bytes) wh = deliver (net.responds bytes') wh := by
    rw [deliver, deliver]
    cases parseUrl wh.url with
    | none => rfl
    | some url =>
        simp only [hhttps]
        simp only [Net.responds, h, resolve]
        rfl
  rw [hdeliver]

/-- So are the events that make such deliveries. -/
theorem handleEvent_deliver (cfg : Config) (event : WebhookEvent) (net : WebhookConfig → Net)
    {bytes bytes' : WebhookConfig → Bytes}
    (h : ∀ wh, readStatus (.data (bytes wh)) = readStatus (.data (bytes' wh))) :
    handleEvent cfg (fun wh => (net wh).responds (bytes wh)) event =
      handleEvent cfg (fun wh => (net wh).responds (bytes' wh)) event := by
  simp only [handleEvent, report_deliver event.kind (net _) _ (h _)]

/-- **Status.**  However a response is split, its code is what is read just if the first read
has it and is UTF-8, and deliveries whose first reads do are reported alike, alone and for all
that follow an event. -/
theorem read_status_iff (r : HttpResponse) :
    (∀ reads : Reads r, readStatus (.data reads.first) = .ok r.code ↔ r.CodeIn reads.first) ∧
    ∀ reads reads' : Reads r, r.CodeIn reads.first → r.CodeIn reads'.first →
      ∀ (kind : EventKind) (net : Net) (wh : WebhookConfig),
        report kind wh (deliver (net.responds reads.first) wh) =
            report kind wh (deliver (net.responds reads'.first) wh) ∧
          ∀ (cfg : Config) (event : WebhookEvent) (nets : WebhookConfig → Net),
            handleEvent cfg (fun wh => (nets wh).responds reads.first) event =
              handleEvent cfg (fun wh => (nets wh).responds reads'.first) event := by
  have hstatus (reads : Reads r) := r.readStatus_prefix reads.first_prefix
  refine ⟨hstatus, fun reads reads' hcode hcode' kind net wh => ?_⟩
  have hread : readStatus (.data reads.first) = readStatus (.data reads'.first) := by
    rw [(hstatus reads).mpr hcode, (hstatus reads').mpr hcode']
  exact ⟨report_deliver kind net wh hread,
    fun cfg event nets => handleEvent_deliver cfg event nets fun _ => hread⟩

/-- `HTTP/1.1 200`, and nothing else. -/
def okResponse : HttpResponse :=
  ⟨1, 1, 2, 0, 0, none, fun _ hb => absurd hb List.not_mem_nil, [13, 10]⟩

/-- The response in two reads, the first of which ends in the code. -/
def cutReads : Reads okResponse where
  chunks := [asciiBytes "HTTP/1.1 20", asciiBytes "0\r\n\r\n"]
  flatten := by decide
  fits := by decide

/-- A code that is cut is read as another one. -/
theorem status_cut :
    ¬ ∀ reads : Reads okResponse, readStatus (.data reads.first) = .ok okResponse.code := by
  intro hall
  have hcut := hall cutReads
  have hascii : ∀ b ∈ cutReads.first, IsAscii b :=
    @of_decide_eq_true _ (List.decidableBAll _ _) (by decide)
  rw [readStatus_ascii hascii] at hcut
  exact absurd hcut (by decide)

end Webhook

end WaterController
