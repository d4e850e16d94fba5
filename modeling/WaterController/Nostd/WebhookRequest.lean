import Mathlib.Data.List.TakeWhile
import WaterController.Library.Http
import WaterController.Nostd.Webhook

/-!
# The request of a delivery

A request is built from what is configured, with no check of it.  So a reader of HTTP reads
what was configured only from some configurations (`request_reads_back_iff`): a URL without a
port, and with neither a query in front of its path nor a fragment; a host and a path without
characters that end them; header fields that are fields, and none that the request has of its
own.
-/

namespace WaterController

open Http (Field Request breakLines fieldLine)

namespace Webhook

/-! ## What is configured -/

/-- The bytes of a text. -/
def utf8 (s : String) : Bytes := Utf8.encode s.toList

/-- What ends the authority of a URL. -/
def isUrlBreak (c : Char) : Bool := c == '/' || c == '?' || c == '#'

/-- A URL behind its scheme. -/
def restOf (url : String) : List Char :=
  match stripScheme url with
  | some (_, rest) => rest.toList
  | none => []

/-- The host of a URL and, where it is given, the port. -/
def authorityOf (rest : List Char) : List Char := rest.takeWhile fun c => !isUrlBreak c

/-- The path of a URL with its query, but without its fragment. -/
def targetOf (rest : List Char) : List Char :=
  let path := (rest.dropWhile fun c => !isUrlBreak c).takeWhile (· ≠ '#')
  if path.head? = some '/' then path else '/' :: path

/-- What is in front of the path, as `parseUrl` takes a URL apart. -/
def hostPart (rest : List Char) : List Char := rest.takeWhile (· ≠ '/')

/-- The path, with the query and the fragment. -/
def pathPart (rest : List Char) : List Char := rest.dropWhile (· ≠ '/')

def field (h : HeaderEntry) : Field := ⟨utf8 h.name, utf8 h.value⟩

/-- What a request says is what was configured. -/
structure SaysConfigured (wh : WebhookConfig) (body : String) (req : Request) : Prop where
  method : req.method = Http.ascii (if sameIgnoringCase wh.method "put" then "PUT" else "POST")
  target : req.target = Utf8.encode (targetOf (restOf wh.url))
  host : Http.values (Http.ascii "Host") req.fields =
    [Utf8.encode (authorityOf (restOf wh.url))]
  headers : (wh.headers.map field).Sublist req.fields
  contentType : Http.values (Http.ascii "Content-Type") req.fields =
    [match wh.headers.find? fun h => sameIgnoringCase h.name "content-type" with
      | some h => utf8 h.value
      | none => Http.ascii "application/json"]
  contentLength : ∃ value, Http.values (Http.ascii "Content-Length") req.fields = [value] ∧
    Http.parseLength value = some body.utf8ByteSize
  body : req.body = utf8 body

/-- The request is read, with nothing behind it, and says what was configured. -/
def ReadsBack (wh : WebhookConfig) (url : Url) (body : String) : Prop :=
  ∃ req, Http.parse (utf8 (buildRequest wh url body)) = some (req, []) ∧
    SaysConfigured wh body req

/-- The fields that a request has of its own, in any case. -/
def reservedNames : List Bytes :=
  ["Host", "Content-Length", "Transfer-Encoding"].map fun name => Http.lower (Http.ascii name)

/-- What is configured so that it reads back. -/
structure Plain (wh : WebhookConfig) (body : String) : Prop where
  noPort : ':' ∉ hostPart (restOf wh.url)
  noQuery : '?' ∉ hostPart (restOf wh.url)
  noFragment : '#' ∉ restOf wh.url
  host : (Utf8.encode (hostPart (restOf wh.url))).all Http.isFieldByte = true
  hostTrimmed : Http.trimBlanks (Utf8.encode (hostPart (restOf wh.url))) =
    Utf8.encode (hostPart (restOf wh.url))
  path : (Utf8.encode (pathPart (restOf wh.url))).all Http.isVisible = true
  headers : ∀ h ∈ wh.headers, (field h).Valid
  names : ∀ h ∈ wh.headers, Http.lower (utf8 h.name) ∉ reservedNames
  contentType : (wh.headers.filter fun h => sameIgnoringCase h.name "content-type").length ≤ 1
  length : body.utf8ByteSize < 10000000000

/-! ## The pieces of a URL -/

/-- The path that a URL is taken apart to. -/
def sentPath (rest : List Char) : List Char :=
  if pathPart rest = [] then ['/'] else pathPart rest

theorem toList_splitPath (rest : String) :
    (splitPath rest).1.toList = hostPart rest.toList ∧
      (splitPath rest).2.toList = sentPath rest.toList := by
  rw [splitPath, hostPart, sentPath, pathPart]
  split
  · rename_i hnil
    have hslash : "/".toList = ['/'] := by decide
    rw [if_pos hnil]
    refine ⟨?_, hslash⟩
    conv_lhs => rw [← List.takeWhile_append_dropWhile (p := (· ≠ '/')) (l := rest.toList), hnil,
      List.append_nil]
  · rename_i hnil
    rw [if_neg hnil, String.toList_ofList, String.toList_ofList]
    exact ⟨rfl, rfl⟩

/-- The pieces of a URL that is taken apart.  Where a port is given, it is what comes last of
the authority. -/
theorem parseUrl_eq_some {u : String} {url : Url} (h : parseUrl u = some url) :
    url.path.toList = sentPath (restOf u) ∧
      ((':' ∉ hostPart (restOf u) ∧ url.host.toList = hostPart (restOf u)) ∨
        ∃ port n, hostPart (restOf u) = url.host.toList ++ ':' :: port ∧
          Text.parseUnsigned 65536 port = some n) := by
  simp only [parseUrl, Option.bind_eq_bind, Option.bind_eq_some_iff, Prod.exists] at h
  obtain ⟨https, rest, hscheme, host, port, hport, h⟩ := h
  have hrest : restOf u = rest.toList := by rw [restOf, hscheme]
  obtain ⟨hauthority, hpath⟩ := toList_splitPath rest
  split at h
  · cases h
  · cases h
    rw [hrest]
    refine ⟨hpath, ?_⟩
    rw [← hauthority]
    rw [splitPort] at hport
    split at hport
    · rename_i hsplit
      obtain ⟨n, hparse, heq⟩ := Option.map_eq_some_iff.mp hport
      obtain ⟨rfl, rfl⟩ := Prod.mk.inj heq
      exact .inr ⟨_, n, Text.rsplitOnce_eq_some hsplit, hparse⟩
    · rename_i hsplit
      obtain ⟨rfl, -⟩ := Prod.mk.inj (Option.some.inj hport)
      exact .inl ⟨Text.rsplitOnce_eq_none.mp hsplit, rfl⟩

theorem hostPart_append_pathPart (rest : List Char) : hostPart rest ++ pathPart rest = rest :=
  List.takeWhile_append_dropWhile

/-- The authority is what is in front of the path, or a query or a fragment comes in front of
the path. -/
theorem authorityOf_cases (rest : List Char) :
    ('?' ∉ hostPart rest ∧ '#' ∉ hostPart rest ∧ authorityOf rest = hostPart rest ∧
        (rest.dropWhile fun c => !isUrlBreak c) = pathPart rest) ∨
      ∃ q more, (q = '?' ∨ q = '#') ∧ hostPart rest = authorityOf rest ++ q :: more := by
  induction rest with
  | nil => exact .inl ⟨List.not_mem_nil, List.not_mem_nil, rfl, rfl⟩
  | cons c rest ih =>
      rw [hostPart, pathPart, authorityOf, List.takeWhile_cons, List.dropWhile_cons,
        List.takeWhile_cons, List.dropWhile_cons]
      rcases eq_or_ne c '/' with rfl | hslash
      · exact .inl ⟨List.not_mem_nil, List.not_mem_nil, rfl, rfl⟩
      · rw [if_pos (decide_eq_true hslash), if_pos (decide_eq_true hslash)]
        by_cases hbreak : c = '?' ∨ c = '#'
        · have hstop : (!isUrlBreak c) = false := by rcases hbreak with rfl | rfl <;> rfl
          rw [hstop]
          exact .inr ⟨c, hostPart rest, hbreak, rfl⟩
        · obtain ⟨hquery, hfragment⟩ := not_or.mp hbreak
          have hgo : (!isUrlBreak c) = true := by simp [isUrlBreak, hslash, hquery, hfragment]
          rw [hgo]
          rcases ih with ⟨hq, hf, hauthority, hpath⟩ | ⟨q, more, hq, hhost⟩
          · refine .inl ⟨?_, ?_, congrArg (c :: ·) hauthority, hpath⟩
            · exact fun hmem => (List.mem_cons.mp hmem).elim (fun h => hquery h.symm) hq
            · exact fun hmem => (List.mem_cons.mp hmem).elim (fun h => hfragment h.symm) hf
          · exact .inr ⟨q, more, hq, congrArg (c :: ·) hhost⟩

theorem authorityOf_eq {rest : List Char} (hquery : '?' ∉ hostPart rest)
    (hfragment : '#' ∉ hostPart rest) :
    authorityOf rest = hostPart rest ∧ (rest.dropWhile fun c => !isUrlBreak c) = pathPart rest := by
  rcases authorityOf_cases rest with ⟨-, -, hauthority, hpath⟩ | ⟨q, more, rfl | rfl, hhost⟩
  · exact ⟨hauthority, hpath⟩
  · exact absurd (hhost ▸ List.mem_append_right _ List.mem_cons_self) hquery
  · exact absurd (hhost ▸ List.mem_append_right _ List.mem_cons_self) hfragment

/-- Where neither is there, the target is the path up to a fragment. -/
theorem targetOf_eq {rest : List Char} (hquery : '?' ∉ hostPart rest)
    (hfragment : '#' ∉ hostPart rest) : targetOf rest = (sentPath rest).takeWhile (· ≠ '#') := by
  rw [targetOf, (authorityOf_eq hquery hfragment).2, sentPath]
  have hhead := List.head?_dropWhile_not (fun c : Char => decide (c ≠ '/')) rest
  rcases hcases : pathPart rest with _ | ⟨c, path⟩
  · rfl
  · rw [← pathPart, hcases] at hhead
    have hslash : c = '/' := by simpa using hhead
    subst hslash
    rfl

/-! ## The bytes of a request -/

def methodOf (wh : WebhookConfig) : String :=
  if sameIgnoringCase wh.method "put" then "PUT" else "POST"

def requestLine (method target : Bytes) : Bytes :=
  method ++ 32 :: (target ++ 32 :: Http.ascii "HTTP/1.1")

/-- The fields behind `Host`. -/
def laterFields (wh : WebhookConfig) (body : String) : List Field :=
  wh.headers.map field ++
    (if hasContentType wh.headers then []
      else [⟨Http.ascii "Content-Type", Http.ascii "application/json"⟩]) ++
    [⟨Http.ascii "Content-Length", utf8 (lenBuf body.utf8ByteSize)⟩,
      ⟨Http.ascii "Connection", Http.ascii "close"⟩]

theorem utf8_append (s t : String) : utf8 (s ++ t) = utf8 s ++ utf8 t := by
  rw [utf8, String.toList_append, Utf8.encode_append]
  rfl

theorem breakLines_nil : breakLines [] = [] := rfl

theorem breakLines_append (as bs : List Bytes) :
    breakLines (as ++ bs) = breakLines as ++ breakLines bs := List.flatMap_append

theorem foldl_headerLine (req : String) (headers : List HeaderEntry) :
    headers.foldl (fun req h => req ++ h.name ++ ": " ++ h.value ++ "\r\n") req =
      req ++ headerLines headers := by
  induction headers generalizing req with
  | nil => exact String.append_empty.symm
  | cons h headers ih =>
      have hrest := ih ("" ++ h.name ++ ": " ++ h.value ++ "\r\n")
      rw [List.foldl_cons, ih, headerLines, headerLines, List.foldl_cons, hrest, headerLines]
      simp only [String.append_assoc, String.empty_append]

theorem headerLines_cons (h : HeaderEntry) (headers : List HeaderEntry) :
    headerLines (h :: headers) = h.name ++ ": " ++ h.value ++ "\r\n" ++ headerLines headers := by
  rw [headerLines, List.foldl_cons, foldl_headerLine, String.empty_append]

theorem utf8_headerLines (headers : List HeaderEntry) :
    utf8 (headerLines headers) = breakLines ((headers.map field).map fieldLine) := by
  induction headers with
  | nil => rfl
  | cons h headers ih =>
      rw [headerLines_cons, List.map_cons, List.map_cons, Http.breakLines_cons, ← ih, fieldLine]
      simp only [utf8_append, List.append_assoc, field, List.cons_append]
      rfl

/-- A request is its request line, its fields line by line, and the body. -/
theorem utf8_buildRequest (wh : WebhookConfig) (url : Url) (body : String) :
    utf8 (buildRequest wh url body) =
      requestLine (Http.ascii (methodOf wh)) (utf8 url.path) ++
        13 :: 10 :: (breakLines (fieldLine ⟨Http.ascii "Host", utf8 url.host⟩ ::
          (laterFields wh body).map fieldLine) ++ 13 :: 10 :: utf8 body) := by
  have hmethod : utf8 (methodOf wh) = Http.ascii (methodOf wh) := by
    rw [methodOf]
    split <;> rfl
  have hcontentType : utf8 (if hasContentType wh.headers then ""
      else "Content-Type: application/json\r\n") =
      breakLines ((if hasContentType wh.headers then []
        else [⟨Http.ascii "Content-Type", Http.ascii "application/json"⟩] : List Field).map
          fieldLine) := by
    split <;> rfl
  have hversion : utf8 " HTTP/1.1\r\nHost: " =
      32 :: (Http.ascii "HTTP/1.1" ++ 13 :: 10 :: (Http.ascii "Host" ++ [58, 32])) := rfl
  have hlength : utf8 "Content-Length: " = Http.ascii "Content-Length" ++ [58, 32] := rfl
  have hend : utf8 "\r\nConnection: close\r\n\r\n" =
      13 :: 10 :: (Http.ascii "Connection" ++ 58 :: 32 :: (Http.ascii "close" ++
        [13, 10, 13, 10])) := rfl
  have hspace : utf8 " " = [32] := rfl
  have hbreak : utf8 "\r\n" = [13, 10] := rfl
  rw [buildRequest]
  show utf8 (methodOf wh ++ _ ++ _ ++ _ ++ _ ++ _ ++ _ ++ _ ++ _ ++ _ ++ _ ++ _) = _
  simp only [utf8_append, hmethod, hcontentType, hversion, hlength, hend, hspace, hbreak,
    utf8_headerLines, laterFields, List.map_append, breakLines_append, Http.breakLines_cons,
    fieldLine, requestLine, List.map_cons, List.map_nil, breakLines_nil, List.append_assoc,
    List.cons_append, List.nil_append]

/-! ## What is read of the URL -/

theorem isUrlBreak_of_mem_authorityOf {rest : List Char} {c : Char} (hc : c ∈ authorityOf rest) :
    isUrlBreak c = false := by
  have hall := List.all_eq_true.mp List.all_takeWhile c hc
  simpa using hall

/-- What ends an authority in front of the path is in the host, not in the port. -/
theorem host_of_break {authority host port more : List Char} {q : Char} {n : Nat}
    (hq : q = '?' ∨ q = '#') (hparse : Text.parseUnsigned 65536 port = some n)
    (h : host ++ ':' :: port = authority ++ q :: more) : ∃ more', host = authority ++ q :: more' := by
  have hnot : q ∉ ':' :: port := by
    intro hmem
    rcases List.mem_cons.mp hmem with hcolon | hmem
    · rcases hq with hq | hq <;> exact absurd (hq.symm.trans hcolon) (by decide)
    · rcases Text.mem_of_parseUnsigned hparse hmem with hsign | hdigit
      · rcases hq with hq | hq <;> exact absurd (hq.symm.trans hsign) (by decide)
      · rcases hq with rfl | rfl <;> exact absurd hdigit (by decide)
  rcases List.append_eq_append_iff.mp h with ⟨mid, -, hrest⟩ | ⟨mid, hmid, hrest⟩
  · exact absurd (hrest ▸ List.mem_append_right _ List.mem_cons_self) hnot
  · cases mid with
    | nil =>
        rw [List.nil_append] at hrest
        exact absurd (hrest ▸ List.mem_cons_self) hnot
    | cons c mid =>
        obtain ⟨rfl, -⟩ := List.cons.inj hrest
        exact ⟨mid, hmid⟩

/-- A value that goes on behind the authority is not read as the authority. -/
theorem value_of_break {rest more : List Char} {value behind : Bytes} {b : UInt8}
    (hascii : Utf8.IsAscii b) (hbreak : isUrlBreak (Utf8.ofAscii b) = true)
    (hblank : Http.isBlank b = false) (hcr : b ≠ 13)
    (hline : value ++ 13 :: 10 :: behind =
      Utf8.encode (authorityOf rest ++ Utf8.ofAscii b :: more) ++ [13, 10]) :
    Http.trimBlanks value ≠ Utf8.encode (authorityOf rest) := by
  intro hvalue
  have htrim := (Http.trimBlanks_sublist value).length_le
  rw [hvalue] at htrim
  rw [Utf8.encode_append, Utf8.encode_cons, Utf8.encodeChar_ascii hascii, List.append_assoc]
    at hline
  have hmem : b ∈ value := by
    rcases List.append_eq_append_iff.mp hline with ⟨mid, hmid, hrest⟩ | ⟨mid, hmid, hrest⟩
    · rw [hmid, List.length_append] at htrim
      have hnil : mid = [] := List.eq_nil_of_length_eq_zero (by omega)
      subst hnil
      exact absurd (List.cons.inj hrest).1 fun h => hcr h.symm
    · cases mid with
      | nil => exact absurd (List.cons.inj hrest).1 hcr
      | cons c mid =>
          obtain ⟨rfl, -⟩ := List.cons.inj hrest
          exact hmid ▸ List.mem_append_right _ List.mem_cons_self
  have hread := Http.mem_trimBlanks hmem hblank
  rw [hvalue, Utf8.mem_encode hascii] at hread
  rw [isUrlBreak_of_mem_authorityOf hread] at hbreak
  cases hbreak

/-- The `Host` that is read is the authority only where the authority is the host and nothing
else. -/
theorem host_read {rest host : List Char} {value behind : Bytes}
    (hpieces : (':' ∉ hostPart rest ∧ host = hostPart rest) ∨
      ∃ port n, hostPart rest = host ++ ':' :: port ∧ Text.parseUnsigned 65536 port = some n)
    (hline : value ++ 13 :: 10 :: behind = Utf8.encode host ++ [13, 10])
    (hvalue : Http.trimBlanks value = Utf8.encode (authorityOf rest)) :
    ':' ∉ hostPart rest ∧ '?' ∉ hostPart rest ∧ '#' ∉ hostPart rest ∧ host = hostPart rest ∧
      value = Utf8.encode host := by
  have hlength := congrArg List.length hline
  have htrim := (Http.trimBlanks_sublist value).length_le
  simp only [List.length_append, List.length_cons, List.length_nil] at hlength
  rw [hvalue] at htrim
  rcases authorityOf_cases rest with ⟨hquery, hfragment, hauthority, -⟩ | ⟨q, more, hq, hhost⟩
  · rw [hauthority] at hvalue htrim
    rcases hpieces with ⟨hport, rfl⟩ | ⟨port, n, hport, -⟩
    · have hlen : value.length = (Utf8.encode (hostPart rest)).length := by omega
      exact ⟨hport, hquery, hfragment, rfl, (List.append_inj hline hlen).1⟩
    · -- the port would have to fit into the value as well
      have hcolon : (String.utf8EncodeChar ':').length = 1 := rfl
      rw [hport, Utf8.encode_append, List.length_append, Utf8.encode_cons, List.length_append,
        hcolon] at htrim
      omega
  · have hhost' : ∃ more', host = authorityOf rest ++ q :: more' := by
      rcases hpieces with ⟨-, rfl⟩ | ⟨port, n, hport, hparse⟩
      · exact ⟨more, hhost⟩
      · exact host_of_break hq hparse (hport ▸ hhost)
    obtain ⟨more', rfl⟩ := hhost'
    have hne : Http.trimBlanks value ≠ Utf8.encode (authorityOf rest) := by
      rcases hq with rfl | rfl
      · exact @value_of_break rest more' value behind 63 (by decide) rfl rfl (by decide) hline
      · exact @value_of_break rest more' value behind 35 (by decide) rfl rfl (by decide) hline
    exact absurd hvalue hne

/-- The target that is read is the path only where the path has no fragment. -/
theorem target_read {path : List Char} {front behind : Bytes}
    (h : Utf8.encode (path.takeWhile (· ≠ '#')) ++ 32 :: behind = Utf8.encode path ++ 32 :: front) :
    '#' ∉ path := by
  rcases hdrop : path.dropWhile (· ≠ '#') with _ | ⟨c, more⟩
  · intro hmem
    exact absurd (List.dropWhile_eq_nil_iff.mp hdrop _ hmem) (by decide)
  · have hhead := List.head?_dropWhile_not (fun c : Char => decide (c ≠ '#')) path
    rw [hdrop] at hhead
    have hc : c = '#' := by simpa using hhead
    subst hc
    have hpath : path = path.takeWhile (· ≠ '#') ++ '#' :: more := by
      rw [← hdrop, List.takeWhile_append_dropWhile]
    have hsplit : Utf8.encode path =
        Utf8.encode (path.takeWhile (· ≠ '#')) ++ 35 :: Utf8.encode more := by
      conv_lhs => rw [hpath, Utf8.encode_append]
      rfl
    rw [hsplit, List.append_assoc] at h
    have hbytes := (List.cons.inj (List.append_cancel_left h)).1
    exact absurd hbytes (by decide)

/-! ## Names and lengths -/

/-- The case of a name that is a token is ignored here as a reader ignores it. -/
theorem sameIgnoringCase_contentType {h : HeaderEntry} (hvalid : (field h).Valid) :
    sameIgnoringCase h.name "content-type" = true ↔
      Http.lower (utf8 h.name) = Http.lower (Http.ascii "Content-Type") := by
  have hascii : ∀ b ∈ utf8 h.name, Utf8.IsAscii b := fun b hb =>
    Http.isAscii_of_token (List.all_eq_true.mp hvalid.name b hb)
  have hname : h.name.toList = (utf8 h.name).map Utf8.ofAscii :=
    (Utf8.encode_eq_ascii hascii).mp rfl
  have hlower : "content-type".toList.map Char.toLower =
      (Http.lower (Http.ascii "Content-Type")).map Utf8.ofAscii := by decide
  rw [sameIgnoringCase, beq_iff_eq, hname, hlower, Http.map_toLower_ofAscii hascii]
  exact (List.map_injective_iff.mpr Utf8.ofAscii_injective).eq_iff

theorem values_contentType {headers : List HeaderEntry}
    (hvalid : ∀ h ∈ headers, (field h).Valid) :
    Http.values (Http.ascii "Content-Type") (headers.map field) =
      (headers.filter fun h => sameIgnoringCase h.name "content-type").map fun h =>
        utf8 h.value := by
  induction headers with
  | nil => rfl
  | cons h headers ih =>
      obtain ⟨hh, hrest⟩ := List.forall_mem_cons.mp hvalid
      have hsame := sameIgnoringCase_contentType hh
      rw [List.map_cons, Http.values_cons, ih hrest]
      split
      · rename_i hname
        rw [List.filter_cons, if_pos (hsame.mpr hname)]
        rfl
      · rename_i hname
        rw [List.filter_cons, if_neg (mt hsame.mp hname)]

/-- A length of up to 10 digits is sent, and of a longer one nothing is. -/
theorem utf8_lenBuf (n : Nat) :
    utf8 (lenBuf n) = if n < 10000000000 then Utf8.encode (toString n).toList else [] := by
  have hascii : ∀ c ∈ (toString n).toList, c.toNat < 128 := fun c hc =>
    Text.toNat_of_isDigit (Text.isDigit_of_mem_toString hc)
  have hlength : (toString n).toList.length ≤ 10 ↔ n < 10000000000 := by
    rw [Nat.toString_eq_ofList_toDigits, String.toList_ofList]
    exact Nat.length_toDigits_le_iff (by decide) (by decide)
  rw [utf8, lenBuf, textSize_ascii hascii]
  by_cases hn : n < 10000000000
  · rw [if_pos hn, if_pos (hlength.mpr hn), String.toList_ofList]
  · rw [if_neg hn, if_neg (mt hlength.mp hn)]
    rfl

theorem parseLength_lenBuf (n : Nat) :
    Http.parseLength (utf8 (lenBuf n)) = if n < 10000000000 then some n else none := by
  rw [utf8_lenBuf]
  split
  · have hne : (toString n).toList ≠ [] := by
      rw [Nat.toString_eq_ofList_toDigits, String.toList_ofList]
      exact Nat.toDigits_ne_nil
    rw [Http.parseLength_encode hne fun c hc => Text.isDigit_of_mem_toString hc,
      Text.digitsValue_toString]
  · rfl

theorem isDigit_of_mem_lenBuf {n : Nat} {b : UInt8} (hb : b ∈ utf8 (lenBuf n)) :
    (Utf8.ofAscii b).isDigit = true := by
  rw [utf8_lenBuf] at hb
  split at hb
  · have hmap := List.mem_map_of_mem (f := Utf8.ofAscii) hb
    rw [Utf8.map_ofAscii_encode fun c hc =>
      Text.toNat_of_isDigit (Text.isDigit_of_mem_toString hc)] at hmap
    exact Text.isDigit_of_mem_toString hmap
  · cases hb

theorem visible_of_digit {b : UInt8} (hb : (Utf8.ofAscii b).isDigit = true) :
    Http.isVisible b = true ∧ Http.isBlank b = false := by
  have hall : ∀ n < 256, (Utf8.ofAscii (UInt8.ofNat n)).isDigit = true →
      Http.isVisible (UInt8.ofNat n) = true ∧ Http.isBlank (UInt8.ofNat n) = false := by
    decide +kernel
  have h := hall b.toNat b.toNat_lt
  rw [UInt8.ofNat_toNat] at h
  exact h hb

theorem valid_lenBuf (n : Nat) : Field.Valid ⟨Http.ascii "Content-Length", utf8 (lenBuf n)⟩ :=
  Http.valid_of_visible (by decide) (by decide) fun _ hb =>
    visible_of_digit (isDigit_of_mem_lenBuf hb)

theorem valid_laterFields {wh : WebhookConfig} (hvalid : ∀ h ∈ wh.headers, (field h).Valid)
    (body : String) : ∀ f ∈ laterFields wh body, f.Valid := by
  intro f hf
  rw [laterFields, List.mem_append, List.mem_append] at hf
  rcases hf with (hf | hf) | hf
  · obtain ⟨h, hh, rfl⟩ := List.mem_map.mp hf
    exact hvalid h hh
  · split at hf
    · cases hf
    · rw [List.mem_singleton.mp hf]
      exact ⟨by decide, by decide, by decide, by decide⟩
  · rcases List.mem_cons.mp hf with rfl | hf
    · exact valid_lenBuf _
    · rw [List.mem_singleton.mp hf]
      exact ⟨by decide, by decide, by decide, by decide⟩

/-! ## The fields of a request -/

/-- The content type is the one that is configured, if one is. -/
def contentTypeOf (headers : List HeaderEntry) : Bytes :=
  match headers.find? fun h => sameIgnoringCase h.name "content-type" with
  | some h => utf8 h.value
  | none => Http.ascii "application/json"

/-- A content type is sent once where one is configured at most once. -/
theorem contentType_once (headers : List HeaderEntry) :
    ((headers.filter fun h => sameIgnoringCase h.name "content-type").map fun h =>
        utf8 h.value) ++
      (if hasContentType headers then [] else [Http.ascii "application/json"]) =
        [contentTypeOf headers] ↔
      (headers.filter fun h => sameIgnoringCase h.name "content-type").length ≤ 1 := by
  have hhas : hasContentType headers =
      (headers.filter fun h => sameIgnoringCase h.name "content-type").head?.isSome := by
    rw [hasContentType, List.head?_filter, List.isSome_find?]
  rw [hhas, contentTypeOf, ← List.head?_filter]
  generalize (headers.filter fun h => sameIgnoringCase h.name "content-type") = types
  rcases types with _ | ⟨h, _ | ⟨h', types⟩⟩
  · exact iff_of_true rfl (Nat.zero_le 1)
  · exact iff_of_true rfl (Nat.le_refl 1)
  · refine iff_of_false (fun heq => ?_) (by rw [List.length_cons, List.length_cons]; omega)
    have hlength := congrArg List.length heq
    simp at hlength

/-- What is configured under a name. -/
def configured (wh : WebhookConfig) (name : String) : List Bytes :=
  Http.values (Http.ascii name) (wh.headers.map field)

/-- What the fields have under the names that matter. -/
theorem values_fields {wh : WebhookConfig} (hvalid : ∀ h ∈ wh.headers, (field h).Valid)
    (host : Bytes) (body : String) :
    let fields := ⟨Http.ascii "Host", host⟩ :: laterFields wh body
    Http.values (Http.ascii "Host") fields = host :: configured wh "Host" ∧
      Http.values (Http.ascii "Transfer-Encoding") fields = configured wh "Transfer-Encoding" ∧
      Http.values (Http.ascii "Content-Length") fields =
        configured wh "Content-Length" ++ [utf8 (lenBuf body.utf8ByteSize)] ∧
      Http.values (Http.ascii "Content-Type") fields =
        ((wh.headers.filter fun h => sameIgnoringCase h.name "content-type").map fun h =>
          utf8 h.value) ++
        (if hasContentType wh.headers then [] else [Http.ascii "application/json"]) := by
  dsimp only
  rw [← values_contentType hvalid]
  simp only [laterFields, Http.values_cons, Http.values_append]
  have hnil (values : List Bytes) : values ++ [] ++ [] = values := by
    rw [List.append_nil, List.append_nil]
  cases hasContentType wh.headers with
  | false =>
      exact ⟨congrArg (host :: ·) (hnil _), hnil _, congrArg (· ++ _) (List.append_nil _),
        List.append_nil _⟩
  | true =>
      exact ⟨congrArg (host :: ·) (hnil _), hnil _, congrArg (· ++ _) (List.append_nil _),
        List.append_nil _⟩

/-- No name of a configured field is one of those that a request has of its own. -/
theorem reserved_iff (wh : WebhookConfig) :
    (∀ h ∈ wh.headers, Http.lower (utf8 h.name) ∉ reservedNames) ↔
      configured wh "Host" = [] ∧ configured wh "Content-Length" = [] ∧
        configured wh "Transfer-Encoding" = [] := by
  simp only [configured, Http.values_eq_nil, List.forall_mem_map, ← forall_and]
  refine forall_congr' fun h => imp_congr_right fun _ => ?_
  simp [reservedNames, field]

/-- The fields frame the body where none of those that do is configured, no content type twice,
and the length fits. -/
theorem framing_iff {wh : WebhookConfig} (hvalid : ∀ h ∈ wh.headers, (field h).Valid)
    (host : Bytes) (body : String) :
    let fields := ⟨Http.ascii "Host", host⟩ :: laterFields wh body
    (Http.values (Http.ascii "Host") fields = [host] ∧
        Http.values (Http.ascii "Transfer-Encoding") fields = [] ∧
        (∃ value, Http.values (Http.ascii "Content-Length") fields = [value] ∧
          Http.parseLength value = some body.utf8ByteSize) ∧
        Http.values (Http.ascii "Content-Type") fields = [contentTypeOf wh.headers]) ↔
      (∀ h ∈ wh.headers, Http.lower (utf8 h.name) ∉ reservedNames) ∧
        (wh.headers.filter fun h => sameIgnoringCase h.name "content-type").length ≤ 1 ∧
        body.utf8ByteSize < 10000000000 := by
  obtain ⟨hhost, hcoding, hlength, htype⟩ := values_fields hvalid host body
  dsimp only
  rw [hhost, hcoding, hlength, htype, reserved_iff, contentType_once]
  constructor
  · rintro ⟨hhost', hcoding', ⟨value, hvalue, hparse⟩, htype'⟩
    obtain ⟨hlength', rfl⟩ : _ = [] ∧ utf8 (lenBuf body.utf8ByteSize) = value := by
      simpa [List.append_eq_singleton_iff] using hvalue
    rw [parseLength_lenBuf] at hparse
    refine ⟨⟨(List.cons.inj hhost').2, hlength', hcoding'⟩, htype', ?_⟩
    by_contra hlong
    rw [if_neg hlong] at hparse
    cases hparse
  · rintro ⟨⟨hhost', hlength', hcoding'⟩, htype', hshort⟩
    refine ⟨by rw [hhost'], hcoding', ⟨_, by rw [hlength']; rfl, ?_⟩, htype'⟩
    rw [parseLength_lenBuf, if_pos hshort]

/-- The length that a reader takes of the fields. -/
theorem bodyLength_eq_some {fields : List Field} {n : Nat} (hlength : Http.bodyLength fields = some n) :
    (Http.values (Http.ascii "Host") fields).length = 1 ∧
      Http.values (Http.ascii "Transfer-Encoding") fields = [] := by
  rw [Http.bodyLength] at hlength
  split at hlength
  · cases hlength
  · rename_i hfields
    exact ⟨by_contra fun h => hfields (.inl h), by_contra fun h => hfields (.inr h)⟩

theorem bodyLength_of_values {fields : List Field} {host value : Bytes}
    (hhost : Http.values (Http.ascii "Host") fields = [host])
    (hcoding : Http.values (Http.ascii "Transfer-Encoding") fields = [])
    (hlength : Http.values (Http.ascii "Content-Length") fields = [value]) :
    Http.bodyLength fields = Http.parseLength value := by
  rw [Http.bodyLength, hhost, hcoding, hlength]
  rfl

/-! ## The request is read -/

/-- What is read of the request line and of `Host`, where it is what is configured: the URL has
nothing that another reader takes apart in another way. -/
theorem url_read {wh : WebhookConfig} {url : Url} {body : String} {behind : Bytes}
    {req : Request} (hurl : parseUrl wh.url = some url) (hsaid : SaysConfigured wh body req)
    (hrequest : Http.parseRequestLine (requestLine req.method req.target) =
      some (req.method, req.target))
    (hfields : Http.parseFields [] behind = some (req.fields, utf8 body))
    (hbytes : utf8 (buildRequest wh url body) =
      requestLine req.method req.target ++ 13 :: 10 :: behind) :
    ':' ∉ hostPart (restOf wh.url) ∧ '?' ∉ hostPart (restOf wh.url) ∧ '#' ∉ restOf wh.url ∧
      url.host.toList = hostPart (restOf wh.url) ∧ Field.Valid ⟨Http.ascii "Host", utf8 url.host⟩ ∧
      req.target = utf8 url.path := by
  obtain ⟨hpath, hpieces⟩ := parseUrl_eq_some hurl
  have hstart : requestLine req.method req.target ++ 13 :: 10 :: behind =
      requestLine (Http.ascii (methodOf wh)) (utf8 url.path) ++ 13 :: 10 ::
        (Http.ascii "Host" ++ 58 :: 32 :: utf8 url.host ++ 13 :: 10 ::
          (breakLines ((laterFields wh body).map fieldLine) ++ 13 :: 10 :: utf8 body)) := by
    rw [← hbytes, utf8_buildRequest, Http.breakLines_cons, fieldLine]
    simp only [List.append_assoc, List.cons_append]
  obtain ⟨more, value, more', hfirst, hhost, hmem⟩ :=
    Http.first_lines (Http.requestLine_no_break hrequest) (by decide) hfields hstart
  have hauthority : Http.trimBlanks value = Utf8.encode (authorityOf (restOf wh.url)) := by
    have hvalue := Http.mem_values hmem rfl
    rw [hsaid.host] at hvalue
    exact List.mem_singleton.mp hvalue
  obtain ⟨hport, hquery, hhash, hhostPart, rfl⟩ := host_read hpieces hhost hauthority
  have htrimmed : Http.trimBlanks (utf8 url.host) = utf8 url.host := by
    rw [utf8, hauthority, (authorityOf_eq hquery hhash).1, hhostPart]
  have hmethod : req.method = Http.ascii (methodOf wh) := hsaid.method
  have htarget : req.target = Utf8.encode ((sentPath (restOf wh.url)).takeWhile (· ≠ '#')) := by
    rw [hsaid.target, targetOf_eq hquery hhash]
  rw [requestLine, requestLine, hmethod, htarget, utf8, hpath] at hfirst
  simp only [List.append_assoc, List.cons_append] at hfirst
  have hfragment := target_read (List.cons.inj (List.append_cancel_left hfirst)).2
  refine ⟨hport, hquery, ?_, hhostPart, ?_, ?_⟩
  · rw [← hostPart_append_pathPart (restOf wh.url)]
    intro hmem
    refine (List.mem_append.mp hmem).elim hhash fun hmem => hfragment ?_
    rw [sentPath, if_neg (List.ne_nil_of_mem hmem)]
    exact hmem
  · have hvalid := Http.fields_valid hfields _ hmem
    rwa [show Utf8.encode url.host.toList = utf8 url.host from rfl, htrimmed] at hvalid
  · rw [htarget, utf8, hpath, List.takeWhile_eq_self_iff.mpr]
    exact fun c hc => decide_eq_true fun h => hfragment (h ▸ hc)

/-- Only what is plain reads back. -/
theorem plain_of_readsBack {wh : WebhookConfig} {url : Url} {body : String}
    (hurl : parseUrl wh.url = some url) (h : ReadsBack wh url body) : Plain wh body := by
  obtain ⟨req, hparse, hsaid⟩ := h
  obtain ⟨hpath, -⟩ := parseUrl_eq_some hurl
  obtain ⟨line, behind, tail, n, hline, hrequest, hfields, hlength, -, hbody, hrest⟩ :=
    Http.parse_eq_some hparse
  have htail : tail = utf8 body := by
    rw [← List.take_append_drop n tail, ← hbody, ← hrest, List.append_nil, hsaid.body]
  subst htail
  have hbytes := Http.splitLine_eq_some hline
  obtain ⟨rfl, -, -, -, hvisible⟩ := Http.parseRequestLine_eq_some.mp hrequest
  obtain ⟨hport, hquery, hfragment, hhost, hhostValid, htarget⟩ :=
    url_read hurl hsaid hrequest hfields hbytes
  have hheaders : ∀ h ∈ wh.headers, (field h).Valid := fun h hh =>
    Http.fields_valid hfields _ (hsaid.headers.subset (List.mem_map_of_mem hh))
  have hbehind : behind = breakLines ((⟨Http.ascii "Host", utf8 url.host⟩ ::
      laterFields wh body).map fieldLine) ++ 13 :: 10 :: utf8 body := by
    rw [utf8_buildRequest, hsaid.method, htarget] at hbytes
    exact (List.cons.inj (List.cons.inj (List.append_cancel_left hbytes)).2).2.symm
  rw [hbehind, Http.fields_render (List.forall_mem_cons.mpr
    ⟨hhostValid, valid_laterFields hheaders body⟩)] at hfields
  have hread := (Prod.mk.inj (Option.some.inj hfields)).1
  obtain ⟨hone, hcoding⟩ := bodyLength_eq_some hlength
  rw [← hread] at hone hcoding
  have honly : Http.values (Http.ascii "Host") (⟨Http.ascii "Host", utf8 url.host⟩ ::
      laterFields wh body) = [utf8 url.host] := by
    rw [(values_fields hheaders (utf8 url.host) body).1] at hone ⊢
    exact congrArg _ (List.eq_nil_of_length_eq_zero (Nat.succ.inj hone))
  obtain ⟨hnames, htype, hshort⟩ := (framing_iff hheaders (utf8 url.host) body).mp
    ⟨honly, hcoding, hread ▸ hsaid.contentLength, hread ▸ hsaid.contentType⟩
  have hpathVisible : (Utf8.encode (pathPart (restOf wh.url))).all Http.isVisible = true := by
    rw [htarget, utf8, hpath, sentPath] at hvisible
    split at hvisible
    · rename_i hnil
      rw [hnil]
      rfl
    · exact hvisible
  have hvalue := hhostValid.value
  have htrimmed := hhostValid.trimmed
  rw [utf8, hhost] at hvalue htrimmed
  exact {
    noPort := hport
    noQuery := hquery
    noFragment := hfragment
    host := hvalue
    hostTrimmed := htrimmed
    path := hpathVisible
    headers := hheaders
    names := hnames
    contentType := htype
    length := hshort }

/-- What is plain reads back. -/
theorem readsBack_of_plain {wh : WebhookConfig} {url : Url} {body : String}
    (hurl : parseUrl wh.url = some url) (h : Plain wh body) : ReadsBack wh url body := by
  obtain ⟨hpath, hpieces⟩ := parseUrl_eq_some hurl
  have hhash : '#' ∉ hostPart (restOf wh.url) := fun hmem =>
    h.noFragment (List.takeWhile_subset _ hmem)
  have hhost : url.host.toList = hostPart (restOf wh.url) := by
    rcases hpieces with ⟨-, hhost⟩ | ⟨port, n, hport, -⟩
    · exact hhost
    · exact absurd (hport ▸ List.mem_append_right _ List.mem_cons_self) h.noPort
  have hauthority := authorityOf_eq h.noQuery hhash
  have hsent : '#' ∉ sentPath (restOf wh.url) := by
    rw [sentPath]
    split
    · decide
    · exact fun hmem => h.noFragment (List.dropWhile_subset _ hmem)
  have htarget : targetOf (restOf wh.url) = sentPath (restOf wh.url) := by
    rw [targetOf_eq h.noQuery hhash, List.takeWhile_eq_self_iff.mpr]
    exact fun c hc => decide_eq_true fun heq => hsent (heq ▸ hc)
  have hrequest : Http.parseRequestLine
      (requestLine (Http.ascii (methodOf wh)) (utf8 url.path)) =
        some (Http.ascii (methodOf wh), utf8 url.path) := by
    have hmethod : Http.ascii (methodOf wh) ≠ [] ∧
        (Http.ascii (methodOf wh)).all Http.isTokenByte = true := by
      rw [methodOf]
      split
      · decide
      · decide
    have hvisible : utf8 url.path ≠ [] ∧ (utf8 url.path).all Http.isVisible = true := by
      rw [utf8, hpath, sentPath]
      split
      · decide
      · rename_i hne
        refine ⟨fun hnil => hne ?_, h.path⟩
        exact (Utf8.encode_eq_ascii (List.forall_mem_nil Utf8.IsAscii)).mp hnil
    exact Http.parseRequestLine_eq_some.mpr
      ⟨rfl, hmethod.1, hmethod.2, hvisible.1, hvisible.2⟩
  have hvalidHost : Field.Valid ⟨Http.ascii "Host", utf8 url.host⟩ := by
    rw [utf8, hhost]
    exact ⟨show Http.ascii "Host" ≠ [] by decide,
      show (Http.ascii "Host").all Http.isTokenByte = true by decide, h.host, h.hostTrimmed⟩
  have hfields := Http.fields_render
    (List.forall_mem_cons.mpr ⟨hvalidHost, valid_laterFields h.headers body⟩) (utf8 body)
  have hline := Http.splitLine_append (Http.requestLine_no_break hrequest)
    (breakLines ((⟨Http.ascii "Host", utf8 url.host⟩ :: laterFields wh body).map fieldLine) ++
      13 :: 10 :: utf8 body)
  obtain ⟨honly, hcoding, ⟨value, hvalue, hlength⟩, htype⟩ :=
    (framing_iff h.headers (utf8 url.host) body).mpr ⟨h.names, h.contentType, h.length⟩
  have hbodyLength := bodyLength_of_values honly hcoding hvalue
  have hsize : (utf8 body).length = body.utf8ByteSize := Utf8.length_encode body
  have hparse := Http.parse_of_parts hline hrequest hfields (hbodyLength.trans hlength)
    (Nat.le_of_eq hsize.symm)
  rw [← hsize, List.take_length, List.drop_length] at hparse
  refine ⟨_, (utf8_buildRequest wh url body).symm ▸ hparse, ?_⟩
  exact {
    method := rfl
    target := by rw [htarget, ← hpath]; rfl
    host := by rw [hauthority.1, ← hhost]; exact honly
    headers := by
      refine List.Sublist.cons _ ?_
      rw [laterFields, List.append_assoc]
      exact List.sublist_append_left _ _
    contentType := htype
    contentLength := ⟨value, hvalue, hlength⟩
    body := rfl }

/-- **Request.**  A request reads back as what was configured just if what was configured is
plain. -/
theorem request_reads_back_iff (wh : WebhookConfig) {url : Url} (hurl : parseUrl wh.url = some url)
    (body : String) : ReadsBack wh url body ↔ Plain wh body :=
  ⟨plain_of_readsBack hurl, readsBack_of_plain hurl⟩

/-- A webhook with nothing but a URL. -/
def postTo (url : String) : WebhookConfig := ⟨true, url, .generic, [], "POST", [], ""⟩

theorem request_reads_back_iff_plain_host :
    ReadsBack (postTo "http://h/") ⟨false, "h", 80, "/"⟩ "" :=
  (request_reads_back_iff (postTo "http://h/") (by decide) "").mpr {
    noPort := by decide
    noQuery := by decide
    noFragment := by decide
    host := by decide
    hostTrimmed := by decide
    path := by decide
    headers := List.forall_mem_nil _
    names := List.forall_mem_nil _
    contentType := Nat.zero_le 1
    length := by decide }

/-- The port of a URL is connected to, but the request does not name it. -/
theorem port_left_out :
    parseUrl (postTo "http://h:8080/").url = some ⟨false, "h", 8080, "/"⟩ ∧
      ¬ ReadsBack (postTo "http://h:8080/") ⟨false, "h", 8080, "/"⟩ "" := by
  have hurl : parseUrl (postTo "http://h:8080/").url = some ⟨false, "h", 8080, "/"⟩ := by decide
  exact ⟨hurl, fun hread => absurd (plain_of_readsBack hurl hread).noPort (by decide)⟩

end Webhook

end WaterController
