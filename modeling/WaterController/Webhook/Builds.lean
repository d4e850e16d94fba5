import Mathlib.Tactic.SplitIfs
import WaterController.Nostd.WebhookRequest

/-!
# The requests of the two builds

The std build gives its client a method, a URL, a list of header fields and the body.  The no_std
build writes the request itself, and puts a `Host` in front of its fields and a `Connection`
behind them.  The method, the fields between these and the body are the ones that the std build
gives its client just if the method is one that it takes, whatever the case
(`builds_agree_iff`).  For any other method the std build sends nothing, where the no_std build
sends a `POST`.
-/

namespace WaterController

namespace Webhook

/-- `to_ascii_uppercase`. -/
def toAsciiUppercase (s : String) : String := String.ofList (s.toList.map Char.toUpper)

/-- What the std build gives its client. -/
structure PostRequest where
  method : String
  url : String
  headers : List HeaderEntry
  body : String
deriving DecidableEq, Repr

/-- The header fields of `post`: the configured ones, a type for the body where none of them is,
and its length. -/
def postHeaders (wh : WebhookConfig) (body : String) : List HeaderEntry :=
  wh.headers ++
    (if hasContentType wh.headers then [] else [⟨"Content-Type", "application/json"⟩]) ++
    [⟨"Content-Length", toString body.utf8ByteSize⟩]

/-- `post`, up to what the network does. -/
def post (wh : WebhookConfig) (body : String) : Except String PostRequest :=
  let method := toAsciiUppercase wh.method
  if method = "PUT" ∨ method = "POST" then
    .ok { method, url := wh.url, headers := postHeaders wh body, body }
  else .error ("unsupported method " ++ method)

/-! ## The case of a method -/

theorem toNat_toLower (c : Char) :
    c.toLower.toNat = if 65 ≤ c.toNat ∧ c.toNat ≤ 90 then c.toNat + 32 else c.toNat := by
  unfold Char.toLower Char.toNat
  split
  · rename_i h
    have hrange : 65 ≤ c.val.toNat ∧ c.val.toNat ≤ 90 := h
    rw [if_pos hrange]
    show (c.val + 32).toNat = _
    rw [UInt32.toNat_add]
    show (c.val.toNat + 32) % _ = _
    omega
  · rename_i h
    have hrange : ¬ (65 ≤ c.val.toNat ∧ c.val.toNat ≤ 90) := h
    rw [if_neg hrange]

theorem toNat_toUpper (c : Char) :
    c.toUpper.toNat = if 97 ≤ c.toNat ∧ c.toNat ≤ 122 then c.toNat - 32 else c.toNat := by
  unfold Char.toUpper Char.toNat
  split
  · rename_i h
    have hrange : 97 ≤ c.val.toNat ∧ c.val.toNat ≤ 122 := h
    rw [if_pos hrange]
    -- the subtraction is an addition that wraps around
    show (c.val + 4294967264).toNat = _
    rw [UInt32.toNat_add]
    show (c.val.toNat + 4294967264) % _ = _
    omega
  · rename_i h
    have hrange : ¬ (97 ≤ c.val.toNat ∧ c.val.toNat ≤ 122) := h
    rw [if_neg hrange]

theorem toUpper_toLower (c : Char) : c.toLower.toUpper = c.toUpper := by
  refine Char.toNat_inj.mp ?_
  simp only [toNat_toUpper, toNat_toLower]
  split_ifs <;> omega

theorem toLower_toUpper (c : Char) : c.toUpper.toLower = c.toLower := by
  refine Char.toNat_inj.mp ?_
  simp only [toNat_toUpper, toNat_toLower]
  split_ifs <;> omega

/-- Two texts are the same up to their case when they are in upper case. -/
theorem sameIgnoringCase_iff (a b : String) :
    sameIgnoringCase a b = true ↔ toAsciiUppercase a = toAsciiUppercase b := by
  rw [sameIgnoringCase, beq_iff_eq, toAsciiUppercase, toAsciiUppercase, String.ofList_inj]
  have hupper (l : List Char) : (l.map Char.toLower).map Char.toUpper = l.map Char.toUpper := by
    rw [List.map_map]
    exact List.map_congr_left fun c _ => toUpper_toLower c
  have hlower (l : List Char) : (l.map Char.toUpper).map Char.toLower = l.map Char.toLower := by
    rw [List.map_map]
    exact List.map_congr_left fun c _ => toLower_toUpper c
  constructor
  · intro h
    rw [← hupper, h, hupper]
  · intro h
    rw [← hlower, h, hlower]

/-! ## The two requests -/

theorem headerLines_append (headers more : List HeaderEntry) :
    headerLines (headers ++ more) = headerLines headers ++ headerLines more := by
  rw [headerLines, List.foldl_append]
  exact foldl_headerLine _ more

/-- A length of ten digits fits. -/
theorem lenBuf_eq {n : Nat} (h : n < 10 ^ 10) : lenBuf n = toString n := by
  have hascii : ∀ c ∈ (toString n).toList, c.toNat < 128 := fun c hc =>
    Text.toNat_of_isDigit (Text.isDigit_of_mem_toString hc)
  have hlength : (toString n).toList.length ≤ 10 := by
    rw [Nat.toString_eq_ofList_toDigits, String.toList_ofList]
    exact (Nat.length_toDigits_le_iff (by decide) (by decide)).mpr h
  rw [lenBuf, textSize_ascii hascii]
  exact (if_pos hlength).trans String.ofList_toList

/-- What the no_std build writes for a method, some header fields and a body. -/
def requestText (method : String) (url : Url) (headers : List HeaderEntry) (body : String) :
    String :=
  method ++ " " ++ url.path ++ " HTTP/1.1\r\nHost: " ++ url.host ++ "\r\n" ++
    headerLines headers ++ "Connection: close\r\n\r\n" ++ body

/-- The no_std build writes the fields of the std build. -/
theorem buildRequest_eq (wh : WebhookConfig) (url : Url) {body : String}
    (hsmall : body.utf8ByteSize < 10 ^ 10) :
    buildRequest wh url body = requestText (methodOf wh) url (postHeaders wh body) body := by
  have hline (h : HeaderEntry) : headerLines [h] = h.name ++ ": " ++ h.value ++ "\r\n" := by
    rw [headerLines, List.foldl_cons, List.foldl_nil, String.empty_append]
  simp only [buildRequest, requestText, methodOf, postHeaders, headerLines_append, hline,
    lenBuf_eq hsmall]
  cases hasContentType wh.headers
  · simp only [Bool.false_eq_true, if_false, hline, String.append_assoc]
    rfl
  · simp only [if_true, String.append_assoc]
    rfl

/-- A method that the std build takes is the one that the no_std build writes. -/
theorem methodOf_eq {wh : WebhookConfig}
    (h : toAsciiUppercase wh.method = "PUT" ∨ toAsciiUppercase wh.method = "POST") :
    methodOf wh = toAsciiUppercase wh.method := by
  have hput : sameIgnoringCase wh.method "put" = true ↔ toAsciiUppercase wh.method = "PUT" :=
    sameIgnoringCase_iff wh.method "put"
  rw [methodOf]
  rcases h with h | h
  · rw [if_pos (hput.mpr h), h]
  · rw [if_neg, h]
    rw [hput, h]
    decide

/-- Any other method is written as a `POST`. -/
theorem methodOf_other {wh : WebhookConfig} (h : toAsciiUppercase wh.method ≠ "PUT") :
    methodOf wh = "POST" := by
  have hput : sameIgnoringCase wh.method "put" = true ↔ toAsciiUppercase wh.method = "PUT" :=
    sameIgnoringCase_iff wh.method "put"
  rw [methodOf, if_neg (mt hput.mp h)]

/-- **The two builds.**  What the std build gives its client is what the no_std build writes for
the same URL exactly when the method is one that the std build takes, in any case.  Any other one
it refuses, and the no_std build writes a `POST` with the same fields and body. -/
theorem builds_agree_iff (wh : WebhookConfig) {body : String}
    (hsmall : body.utf8ByteSize < 10 ^ 10) :
    ((∃ req, post wh body = .ok req ∧ ∀ url, parseUrl req.url = some url →
        buildRequest wh url body = requestText req.method url req.headers req.body) ↔
      toAsciiUppercase wh.method = "PUT" ∨ toAsciiUppercase wh.method = "POST") ∧
    (¬ (toAsciiUppercase wh.method = "PUT" ∨ toAsciiUppercase wh.method = "POST") →
      post wh body = .error ("unsupported method " ++ toAsciiUppercase wh.method) ∧
      ∀ url, buildRequest wh url body = requestText "POST" url (postHeaders wh body) body) := by
  refine ⟨⟨?_, fun hmethod => ?_⟩, fun hother => ⟨if_neg hother, fun url => ?_⟩⟩
  · rintro ⟨req, hpost, -⟩
    rw [post] at hpost
    split at hpost
    · assumption
    · cases hpost
  · refine ⟨_, if_pos hmethod, fun url _ => ?_⟩
    rw [buildRequest_eq wh url hsmall, methodOf_eq hmethod]
  · rw [buildRequest_eq wh url hsmall, methodOf_other fun hput => hother (.inl hput)]

/-- A webhook with a method in lower case, and one with a method that only the no_std build
takes. -/
theorem builds_agree_iff_put :
    let wh (method : String) : WebhookConfig :=
      ⟨true, "http://hub/in", .generic, [], method, [], ""⟩
    (∃ req, post (wh "put") "on" = .ok req ∧ ∀ url, parseUrl req.url = some url →
      buildRequest (wh "put") url "on" = requestText req.method url req.headers req.body) ∧
    post (wh "get") "on" = .error "unsupported method GET" := by
  intro wh
  refine ⟨(@builds_agree_iff (wh "put") "on" (by decide)).1.mpr (.inl (by decide)), ?_⟩
  exact ((@builds_agree_iff (wh "get") "on" (by decide)).2 (by decide)).1.trans
    (congrArg Except.error (by decide))

end Webhook

end WaterController
