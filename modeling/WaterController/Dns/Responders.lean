import WaterController.Calibration.Usable
import WaterController.Library.Dns
import WaterController.Nostd.FlashKv

/-!
# The DNS responders

There are three of them, written by hand.  `CaptiveDns` is the captive portal's
resolver in the std firmware, `Ap` the one in the no_std firmware, and `Mdns` the
no_std firmware's responder for `<hostname>.local`.

Each reads a datagram from the network by index, walks the labels of its first
question with a loop of its own, and writes an answer.  Reads and writes are
checked, so that a panic of the code is an error of the model.  The three `_cases`
theorems say what each responder does with every datagram.
-/

namespace WaterController

/-! ## Bytes -/

/-- `u16::from_be_bytes([bytes[i], bytes[i + 1]])`. -/
def u16FromBeBytes (bytes : Bytes) (i : Nat) : Except Panic Nat := do
  return Dns.be16 (← index bytes i) (← index bytes (i + 1))

def u16ToBeBytes (n : Nat) : Bytes := [UInt8.ofNat (n / 256), UInt8.ofNat n]

def u32ToBeBytes (n : Nat) : Bytes := u16ToBeBytes (n / 65536) ++ u16ToBeBytes n

theorem u16FromBeBytes_of_lt {bytes : Bytes} {i : Nat} (h : i + 1 < bytes.length) :
    u16FromBeBytes bytes i = .ok (Dns.be16At bytes i) := by
  rw [u16FromBeBytes, index_of_lt (Nat.lt_of_succ_lt h), index_of_lt h, Dns.be16At,
    List.getD_eq_getElem _ _ (Nat.lt_of_succ_lt h), List.getD_eq_getElem _ _ h]
  rfl

/-- The two top bits of a length byte are clear when the length is below 64. -/
theorem and_c0_eq_zero_iff {n : Nat} (h : n < 256) : n &&& 0xC0 = 0 ↔ n < 64 := by
  revert n
  decide +kernel

theorem and_80_ne_zero_iff (b : UInt8) : b &&& 0x80 ≠ 0 ↔ 128 ≤ b.toNat := by
  have hall : ∀ n < 256, (n &&& 0x80 = 0 ↔ n < 128) := by decide +kernel
  have hb := hall b.toNat b.toNat_lt
  rw [← UInt8.toNat_inj.ne, UInt8.toNat_and]
  show b.toNat &&& 128 ≠ 0 ↔ 128 ≤ b.toNat
  omega

/-- The record of a reply: the name is a pointer to the question's, and the address is
kept for 60 s. -/
def answerRecord : Option (Vector UInt8 4) → Bytes
  | none => []
  | some ip => [0xC0, 0x0C, 0, 1, 0, 1, 0, 0, 0, 60, 0, 4] ++ ip.toList

/-- The reply of a captive resolver: the id, the flags and the counts, the question,
and the record of the answer, if there is one. -/
def captiveReply (id question : Bytes) (ip : Option (Vector UInt8 4)) : Bytes :=
  id ++ [0x81, 0x80, 0, 1, 0, if ip.isSome then 1 else 0, 0, 0, 0, 0] ++ question ++
    answerRecord ip

/-! ## The captive resolver of the std firmware -/

namespace CaptiveDns

/-- The walk over the labels of the question: where it stops, or `none` where the
request is given up. -/
def walkLabels (req : Bytes) (i : Nat) : Except Panic (Option Nat) :=
  if _h : i < req.length then do
    let len := (← index req i).toNat
    if len = 0 then return some (i + 1)
    -- pointers in the question section are not followed
    else if len &&& 0xC0 ≠ 0 then return none
    else if req.length ≤ i + (len + 1) then return none
    else walkLabels req (i + (len + 1))
  else return some i
termination_by req.length - i

/-- The walk stops behind the name, where one with labels of at most 63 bytes is
written out. -/
theorem walkLabels_spec {req : Bytes} {i : Nat} (h : i < req.length) :
    ∃ r, walkLabels req i = .ok r ∧
      ∀ next, r = some next ↔ ∃ name, Dns.NameAt 63 req i name next := by
  have hbyte : req[i]? = some req[i] := List.getElem?_eq_getElem h
  rw [walkLabels, dif_pos h, index_of_lt h]
  simp only [bind, Except.bind]
  rcases eq_or_ne req[i] 0 with hzero | hne
  · rw [hzero] at hbyte ⊢
    refine ⟨some (i + 1), rfl, fun next => ?_⟩
    simp only [Dns.NameAt.of_zero hbyte, Option.some.injEq, exists_eq_left]
    exact eq_comm
  · have hlen : ¬ req[i].toNat = 0 := fun hlen => hne (UInt8.toNat_inj.mp hlen)
    have hbits := and_c0_eq_zero_iff req[i].toNat_lt
    rw [if_neg hlen]
    simp only [Dns.NameAt.of_ne_zero hbyte hne]
    rcases Nat.lt_or_ge req[i].toNat 64 with hsmall | hbig
    · rw [if_neg (not_not.mpr (hbits.mpr hsmall))]
      rcases Nat.lt_or_ge (i + (req[i].toNat + 1)) req.length with hin | hout
      · rw [if_neg (Nat.not_le.mpr hin)]
        obtain ⟨r, hr, hspec⟩ := walkLabels_spec hin
        refine ⟨r, hr, fun next => (hspec next).trans ?_⟩
        rw [show i + (req[i].toNat + 1) = i + 1 + req[i].toNat by omega]
        constructor
        · rintro ⟨rest, hrest⟩
          exact ⟨_, Nat.le_of_lt_succ hsmall, rest, rfl, hrest⟩
        · rintro ⟨_, _, rest, _, hrest⟩
          exact ⟨rest, hrest⟩
      · -- the name would go on outside of the request
        rw [if_pos hout]
        refine ⟨none, rfl, fun next => iff_of_false (nomatch ·) ?_⟩
        rintro ⟨_, _, rest, _, hrest⟩
        have hlt := hrest.pos_lt
        omega
    · rw [if_pos (hbits.not.mpr (Nat.not_lt.mpr hbig))]
      refine ⟨none, rfl, fun next => iff_of_false (nomatch ·) ?_⟩
      rintro ⟨_, hle, _⟩
      omega
termination_by req.length - i

def buildAResponse (req : Bytes) (ip : Vector UInt8 4) : Except Panic (Option Bytes) :=
  if req.length < 12 then return none
  else do
    let qdcount ← u16FromBeBytes req 4
    if qdcount ≠ 1 then return none
    else
      match ← walkLabels req 12 with
      | none => return none
      | some i =>
          if req.length < i + 4 then return none
          else do
            let qtype ← u16FromBeBytes req i
            let qclass ← u16FromBeBytes req (i + 2)
            if qtype ≠ 1 ∨ qclass ≠ 1 then return none
            else do
              let qEnd := i + 4
              let out ← FlashKv.slice req 0 2
              let out := out ++ [0x81, 0x80] ++ [0x00, 0x01] ++ [0x00, 0x01]
              let out := out ++ [0x00, 0x00] ++ [0x00, 0x00]
              let out := out ++ (← FlashKv.slice req 12 qEnd)
              -- the answer's name is a pointer to the question's
              let out := out ++ [0xC0, 0x0C] ++ [0x00, 0x01] ++ [0x00, 0x01]
              return some (out ++ [0x00, 0x00, 0x00, 0x3C] ++ [0x00, 0x04] ++ ip.toList)

/-- The requests that are answered, and the answer.  The others are passed over. -/
theorem buildAResponse_cases (req : Bytes) (ip : Vector UInt8 4) :
    (∃ name next, Dns.be16At req 4 = 1 ∧ Dns.FirstQuestion 63 req ⟨name, 1, 1⟩ next ∧
      buildAResponse req ip =
        .ok (some (captiveReply (req.extract 0 2) (req.extract 12 (next + 4)) (some ip)))) ∨
    ((∀ name next, Dns.be16At req 4 = 1 → ¬ Dns.FirstQuestion 63 req ⟨name, 1, 1⟩ next) ∧
      buildAResponse req ip = .ok none) := by
  rw [buildAResponse]
  rcases Nat.lt_or_ge req.length 12 with hshort | hlong
  · refine .inr ⟨fun name next _ hq => ?_, if_pos hshort⟩
    have hlt := hq.1.pos_lt
    omega
  rw [if_neg (Nat.not_lt.mpr hlong), u16FromBeBytes_of_lt (by omega)]
  simp only [bind, Except.bind]
  rcases eq_or_ne (Dns.be16At req 4) 1 with hcount | hcount
  swap
  · exact .inr ⟨fun name next hone => absurd hone hcount, if_pos hcount⟩
  rw [if_neg (not_not.mpr hcount)]
  rcases Nat.eq_or_lt_of_le hlong with hheader | hlong
  · -- nothing behind the header
    refine .inr ⟨fun name next _ hq => ?_, ?_⟩
    · have hlt := hq.1.pos_lt
      omega
    · rw [walkLabels, dif_neg (by omega)]
      exact if_pos (by omega)
  obtain ⟨r, hr, hspec⟩ := walkLabels_spec hlong
  rw [hr]
  cases r with
  | none =>
      refine .inr ⟨fun name next _ hq => ?_, rfl⟩
      exact absurd ((hspec next).mpr ⟨name, hq.1⟩) (nomatch ·)
  | some i =>
      obtain ⟨name, hname⟩ := (hspec i).mp rfl
      -- a question of the request is the one the walk has found
      have hfound : ∀ {name' next}, Dns.FirstQuestion 63 req ⟨name', 1, 1⟩ next → next = i :=
        fun hq => (hq.1.unique hname).2
      simp only
      rcases Nat.lt_or_ge req.length (i + 4) with hcut | hfits
      · refine .inr ⟨fun name' next _ hq => ?_, if_pos hcut⟩
        obtain rfl := hfound hq
        have hle := hq.2.1
        omega
      rw [if_neg (Nat.not_lt.mpr hfits), u16FromBeBytes_of_lt (by omega),
        u16FromBeBytes_of_lt (by omega)]
      simp only
      by_cases hkind : Dns.be16At req i = 1 ∧ Dns.be16At req (i + 2) = 1
      · refine .inl ⟨name, i, hcount, ⟨hname, hfits, hkind.1.symm, hkind.2.symm⟩, ?_⟩
        have hlt := hname.next_bounds.1
        rw [if_neg (by omega), FlashKv.slice, if_pos (by omega), FlashKv.slice, if_pos (by omega)]
        simp only [captiveReply, answerRecord, pure, Except.pure, List.append_assoc]
        rfl
      · refine .inr ⟨fun name' next _ hq => ?_, if_pos (by omega)⟩
        obtain rfl := hfound hq
        exact hkind ⟨hq.2.2.1.symm, hq.2.2.2.symm⟩

end CaptiveDns

/-! ## The captive resolver of the no_std firmware -/

namespace Ap

/-- The address of the access point. -/
def apIp : Vector UInt8 4 := #v[192, 168, 4, 1]

/-- `out[pos..pos + src.len()].copy_from_slice(src)`. -/
def copyFromSlice (out : Bytes) (pos : Nat) (src : Bytes) : Except Panic Bytes :=
  if pos + src.length ≤ out.length then
    .ok (out.take pos ++ src ++ out.drop (pos + src.length))
  else .error .indexOutOfBounds

/-- Writes into the output, one after the other. -/
def copyAll (out : Bytes) (writes : List (Nat × Bytes)) : Except Panic Bytes :=
  writes.foldlM (fun out write => copyFromSlice out write.1 write.2) out

/-- Texts laid out one behind the other, with the place of each. -/
def layOut : Nat → List Bytes → List (Nat × Bytes)
  | _, [] => []
  | pos, src :: srcs => (pos, src) :: layOut (pos + src.length) srcs

/-- Writes that follow on one another are one write. -/
theorem copyAll_layOut (out : Bytes) (pos : Nat) (srcs : List Bytes)
    (h : pos + srcs.flatten.length ≤ out.length) :
    copyAll out (layOut pos srcs) =
      .ok (out.take pos ++ srcs.flatten ++ out.drop (pos + srcs.flatten.length)) := by
  induction srcs generalizing out pos with
  | nil => simp [layOut, copyAll, pure, Except.pure]
  | cons src srcs ih =>
      rw [List.flatten_cons, List.length_append] at h
      have hpos : pos ≤ out.length := by omega
      have htake : (out.take pos ++ src).length = pos + src.length := by
        rw [List.length_append, List.length_take, Nat.min_eq_left hpos]
      have hfirst : copyFromSlice out pos src = .ok _ := if_pos (by omega)
      rw [layOut, copyAll, List.foldlM_cons]
      show copyFromSlice out pos src >>= _ = _
      rw [hfirst]
      show copyAll (out.take pos ++ src ++ out.drop (pos + src.length)) _ = _
      rw [ih _ _ (by simp only [List.length_append, List.length_drop, List.length_take]; omega),
        List.take_left' htake, List.drop_append, htake, List.drop_eq_nil_of_le (by omega),
        List.drop_drop]
      simp only [List.flatten_cons, List.append_assoc, List.nil_append, List.length_append]
      rw [show pos + src.length + (pos + src.length + srcs.flatten.length - (pos + src.length)) =
        pos + (src.length + srcs.flatten.length) by omega]

/-- The writes of a header and a question. -/
theorem copyAll_header (id0 id1 ancount : UInt8) {question out : Bytes}
    (h : 12 + question.length ≤ out.length) :
    copyAll out [(0, [id0]), (1, [id1]), (2, [0x81]), (3, [0x80]), (4, [0]), (5, [1]), (6, [0]),
        (7, [ancount]), (8, [0, 0, 0, 0]), (12, question)] =
      .ok ([id0, id1, 0x81, 0x80, 0, 1, 0, ancount, 0, 0, 0, 0] ++ question ++
        out.drop (12 + question.length)) := by
  have hlength : ([[id0], [id1], [0x81], [0x80], [0], [1], [0], [ancount], [0, 0, 0, 0],
      question].flatten).length = 12 + question.length := by
    simp only [List.flatten_cons, List.flatten_nil, List.length_append, List.length_cons,
      List.length_nil]
    omega
  have hall := copyAll_layOut out 0 [[id0], [id1], [0x81], [0x80], [0], [1], [0], [ancount],
    [0, 0, 0, 0], question] (by rw [hlength]; omega)
  rw [hlength, Nat.zero_add] at hall
  simpa [layOut] using hall

/-- The writes of a record behind a reply's head. -/
theorem copyAll_record (head out : Bytes) (ip : Vector UInt8 4)
    (h : head.length + 16 ≤ out.length) :
    copyAll (head ++ out.drop head.length)
        [(head.length, [0xC0, 0x0C]), (head.length + 2, [0, 1]), (head.length + 4, [0, 1]),
          (head.length + 6, u32ToBeBytes 60), (head.length + 10, [0, 4]),
          (head.length + 12, ip.toList)] =
      .ok (head ++ ([0xC0, 0x0C, 0, 1, 0, 1, 0, 0, 0, 60, 0, 4] ++ ip.toList) ++
        out.drop (head.length + 16)) := by
  have hlength : ([[0xC0, 0x0C], [0, 1], [0, 1], u32ToBeBytes 60, [0, 4], ip.toList].flatten).length
      = 16 := by
    simp only [List.flatten_cons, List.flatten_nil, List.length_append, List.length_cons,
      List.length_nil, Vector.length_toList, u32ToBeBytes, u16ToBeBytes]
  have hall := copyAll_layOut (head ++ out.drop head.length) head.length [[0xC0, 0x0C], [0, 1],
    [0, 1], u32ToBeBytes 60, [0, 4], ip.toList]
    (by rw [hlength, List.length_append, List.length_drop]; omega)
  rw [hlength, List.take_left, List.drop_length_add_append, List.drop_drop] at hall
  simpa [layOut, u32ToBeBytes, u16ToBeBytes] using hall

/-- The walk over the labels of the question: where it stops. -/
def walkLabels (q : Bytes) (i : Nat) : Except Panic Nat :=
  if _h : i < q.length then do
    let len := (← index q i).toNat
    if len ≠ 0 then walkLabels q (i + (1 + len)) else return i
  else return i
termination_by q.length - i

/-- Where the walk stops inside the query, a name with labels of any length has been
written out up to there. -/
theorem walkLabels_spec {q : Bytes} {i : Nat} :
    ∃ stop, walkLabels q i = .ok stop ∧
      (stop < q.length → ∃ name, Dns.NameAt 255 q i name (stop + 1)) ∧
      ∀ name next, Dns.NameAt 255 q i name next → next = stop + 1 := by
  rw [walkLabels]
  rcases Nat.lt_or_ge i q.length with h | h
  swap
  · rw [dif_neg (Nat.not_lt.mpr h)]
    exact ⟨i, rfl, fun hlt => absurd hlt (Nat.not_lt.mpr h),
      fun name next hname => absurd hname.pos_lt (Nat.not_lt.mpr h)⟩
  have hbyte : q[i]? = some q[i] := List.getElem?_eq_getElem h
  rw [dif_pos h, index_of_lt h]
  simp only [bind, Except.bind]
  rcases eq_or_ne q[i] 0 with hzero | hne
  · rw [hzero] at hbyte ⊢
    exact ⟨i, rfl, fun _ => ⟨[], .nil hbyte⟩,
      fun name next hname => ((Dns.NameAt.of_zero hbyte).mp hname).2⟩
  · have hlen : q[i].toNat ≠ 0 := fun hlen => hne (UInt8.toNat_inj.mp hlen)
    obtain ⟨stop, hstop, hfound, honly⟩ := walkLabels_spec (q := q) (i := i + (1 + q[i].toNat))
    rw [if_pos hlen]
    rw [show i + (1 + q[i].toNat) = i + 1 + q[i].toNat by omega] at hfound honly
    refine ⟨stop, hstop, fun hlt => ?_, fun name next hname => ?_⟩
    · obtain ⟨rest, hrest⟩ := hfound hlt
      exact ⟨_, .cons hbyte hne (Nat.le_of_lt_succ q[i].toNat_lt) rfl hrest⟩
    · obtain ⟨_, rest, _, hrest⟩ := (Dns.NameAt.of_ne_zero hbyte hne).mp hname
      exact honly rest next hrest
termination_by q.length - i

/-- The length of the reply, and the output that holds it. -/
def buildDnsReply (q out : Bytes) : Except Panic (Option (Nat × Bytes)) :=
  if q.length < 12 then return none
  else do
    if (← index q 2) &&& 0x80 ≠ 0 then return none
    else
      let qdcount ← u16FromBeBytes q 4
      if qdcount ≠ 1 then return none
      else
        let i ← walkLabels q 12
        let qEnd := i + 5
        if q.length < qEnd ∨ out.length < qEnd + 16 then return none
        else
          let qtype ← u16FromBeBytes q (i + 1)
          let answer := decide (qtype = 1)
          let out ← copyAll out
            [(0, [← index q 0]), (1, [← index q 1]), (2, [0x81]), (3, [0x80]), (4, [0]), (5, [1]),
              (6, [0]), (7, [if answer then 1 else 0]), (8, [0, 0, 0, 0]),
              (12, ← FlashKv.slice q 12 qEnd)]
          let o := qEnd
          if answer then
            let out ← copyAll out
              [(o, [0xC0, 0x0C]), (o + 2, [0, 1]), (o + 4, [0, 1]), (o + 6, u32ToBeBytes 60),
                (o + 10, [0, 4]), (o + 12, apIp.toList)]
            return some (o + 16, out)
          else return some (o, out)

/-- The query's id and question as the replies take them. -/
theorem length_captiveReply {q : Bytes} {stop : Nat} (hstop : 12 ≤ stop) (hle : stop ≤ q.length)
    (ip : Option (Vector UInt8 4)) :
    (captiveReply (q.extract 0 2) (q.extract 12 stop) ip).length =
      stop + if ip.isSome then 16 else 0 := by
  have hid : (q.extract 0 2).length = 2 := by
    rw [List.extract_eq_take_drop, List.length_take, List.length_drop]
    omega
  have hquestion : (q.extract 12 stop).length = stop - 12 := by
    rw [List.extract_eq_take_drop, List.length_take, List.length_drop]
    omega
  cases ip <;>
    simp only [captiveReply, answerRecord, List.length_append, hid, hquestion, List.length_cons, List.length_nil,
      Vector.length_toList, Option.isSome_none, Option.isSome_some, Bool.false_eq_true, if_true,
      if_false] <;>
    omega

/-- The queries that are replied to, and the reply at the start of the output.  The
others are passed over. -/
theorem buildDnsReply_cases (q out : Bytes) :
    (∃ question next, Dns.be16At q 4 = 1 ∧ Dns.isResponse q = false ∧
      Dns.FirstQuestion 255 q question next ∧ next + 20 ≤ out.length ∧
      ∃ reply, reply = captiveReply (q.extract 0 2) (q.extract 12 (next + 4))
          (if question.qtype = 1 then some apIp else none) ∧
        buildDnsReply q out = .ok (some (reply.length, reply ++ out.drop reply.length))) ∨
    ((∀ question next, Dns.be16At q 4 = 1 → Dns.isResponse q = false →
        Dns.FirstQuestion 255 q question next → out.length < next + 20) ∧
      buildDnsReply q out = .ok none) := by
  rw [buildDnsReply]
  rcases Nat.lt_or_ge q.length 12 with hshort | hlong
  · refine .inr ⟨fun question next _ _ hq => ?_, if_pos hshort⟩
    have hlt := hq.1.pos_lt
    omega
  rw [if_neg (Nat.not_lt.mpr hlong), index_of_lt (by omega : 2 < q.length),
    u16FromBeBytes_of_lt (by omega)]
  simp only [bind, Except.bind]
  have hflag : q[2] &&& 0x80 ≠ 0 ↔ Dns.isResponse q = true := by
    rw [and_80_ne_zero_iff, Dns.isResponse, List.getD_eq_getElem _ _ (by omega), decide_eq_true_iff]
  rcases Bool.eq_false_or_eq_true (Dns.isResponse q) with hresponse | hquery
  · rw [if_pos (hflag.mpr hresponse)]
    exact .inr ⟨fun question next _ hno => absurd (hresponse.symm.trans hno) (nomatch ·), rfl⟩
  rw [if_neg (hflag.not.mpr (by rw [hquery]; exact Bool.false_ne_true))]
  rcases eq_or_ne (Dns.be16At q 4) 1 with hcount | hcount
  swap
  · exact .inr ⟨fun question next hone => absurd hone hcount, if_pos hcount⟩
  rw [if_neg (not_not.mpr hcount)]
  obtain ⟨i, hi, hfound, honly⟩ := walkLabels_spec (q := q) (i := 12)
  rw [hi]
  simp only
  by_cases hroom : q.length < i + 5 ∨ out.length < i + 5 + 16
  · refine .inr ⟨fun question next _ _ hq => ?_, if_pos hroom⟩
    have hnext := honly _ _ hq.1
    have hle := hq.2.1
    omega
  rw [if_neg hroom, u16FromBeBytes_of_lt (by omega)]
  obtain ⟨name, hname⟩ := hfound (by omega)
  have hpos := hname.next_bounds.1
  have hslice : FlashKv.slice q 12 (i + 5) = .ok (q.extract 12 (i + 5)) := if_pos (by omega)
  rw [index_of_lt (by omega : 0 < q.length), index_of_lt (by omega : 1 < q.length), hslice]
  refine .inl ⟨⟨name, Dns.be16At q (i + 1), Dns.be16At q (i + 1 + 2)⟩, i + 1, hcount, hquery,
    ⟨hname, by omega, rfl, rfl⟩, by omega, _, rfl, ?_⟩
  have hid : q.extract 0 2 = [q[0], q[1]] := by
    rw [List.extract_eq_take_drop, List.drop_zero, List.take_succ_eq_append_getElem (by omega),
      List.take_succ_eq_append_getElem (by omega), List.take_zero]
    rfl
  have hquestion : 12 + (q.extract 12 (i + 5)).length = i + 5 := by
    rw [List.extract_eq_take_drop, List.length_take, List.length_drop]
    omega
  rw [length_captiveReply (by omega) (by omega), hid]
  simp only
  rcases eq_or_ne (Dns.be16At q (i + 1)) 1 with htype | htype
  · simp only [htype, decide_true, if_true]
    rw [copyAll_header _ _ _ (by omega), hquestion]
    have hhead : ([q[0], q[1], 0x81, 0x80, 0, 1, 0, 1, 0, 0, 0, 0] ++
        q.extract 12 (i + 5)).length = i + 5 := by
      rw [List.length_append]
      exact hquestion
    have hrecord := copyAll_record _ out apIp (by rw [hhead]; omega)
    rw [hhead] at hrecord
    simp only [hrecord]
    simp [captiveReply, answerRecord, pure, Except.pure]
  · rw [copyAll_header _ _ _ (by omega), hquestion]
    simp [htype, captiveReply, answerRecord, pure, Except.pure]

end Ap

/-! ## The mDNS responder -/

namespace Mdns

def typeA : Nat := 1

def typeAny : Nat := 255

def ttl : Nat := 120

/-- `bytes.get(start..stop)`. -/
def getRange (bytes : Bytes) (start stop : Nat) : Option Bytes :=
  if start ≤ stop ∧ stop ≤ bytes.length then some (bytes.extract start stop) else none

/-- `labels[i] = label`. -/
def setLabel (labels : Vector Bytes 4) (i : Nat) (label : Bytes) :
    Except Panic (Vector Bytes 4) :=
  if h : i < 4 then .ok (labels.set i label) else .error .indexOutOfBounds

/-- The loop over the labels of the question at `pos`: the labels, how many there
are, and the place behind the name. -/
def walkLabels (query : Bytes) (pos : Nat) (labels : Vector Bytes 4) (labelCount : Nat) :
    Except Panic (Option (Vector Bytes 4 × Nat × Nat)) :=
  match _h : query[pos]? with
  | none => return none
  | some b =>
      let len := b.toNat
      if len = 0 then return some (labels, labelCount, pos + 1)
      else if len &&& 0xC0 ≠ 0 ∨ labelCount = 4 then return none
      else
        let start := pos + 1
        let stop := start + len
        match getRange query start stop with
        | none => return none
        | some label => do
            let labels ← setLabel labels labelCount label
            walkLabels query stop labels (labelCount + 1)
termination_by query.length - pos
decreasing_by
  have hlt := (List.getElem?_eq_some_iff.mp _h).1
  omega

/-- The labels up to and with one that is set. -/
theorem take_setLabel {labels : Vector Bytes 4} {i : Nat} (h : i < 4) (label : Bytes) :
    (labels.set i label).toList.take (i + 1) = labels.toList.take i ++ [label] := by
  have hlt : i < labels.toList.length := by
    rw [Vector.length_toList]
    exact h
  rw [Vector.toList_set, List.take_succ_eq_append_getElem (by rwa [List.length_set]),
    List.take_set_of_le (Nat.le_refl i), List.getElem_set_self]

/-- The loop puts the labels of the name behind those it has.  It gives up where there
is no name with labels of at most 63 bytes, or where they are too many. -/
theorem walkLabels_spec {query : Bytes} {pos : Nat} {labels : Vector Bytes 4} {labelCount : Nat}
    (hcount : labelCount ≤ 4) :
    ∃ r, walkLabels query pos labels labelCount = .ok r ∧
      (∀ labels' count next, r = some (labels', count, next) → count ≤ 4 ∧
        ∃ name, Dns.NameAt 63 query pos name next ∧
          labels'.toList.take count = labels.toList.take labelCount ++ name) ∧
      (r = none → ∀ name next, Dns.NameAt 63 query pos name next → 4 < labelCount + name.length) := by
  rw [walkLabels]
  split
  case h_1 hnone =>
    refine ⟨none, rfl, fun _ _ _ hsome => (nomatch hsome), fun _ name next hname => ?_⟩
    exact absurd hname.pos_lt (Nat.not_lt.mpr (List.getElem?_eq_none_iff.mp hnone))
  case h_2 b hbyte =>
    simp only
    rcases eq_or_ne b 0 with rfl | hne
    · rw [if_pos (by rfl)]
      refine ⟨_, rfl, fun labels' count next hsome => ?_, fun hnone => nomatch hnone⟩
      obtain ⟨rfl, rfl, rfl⟩ : labels = labels' ∧ labelCount = count ∧ pos + 1 = next := by
        simpa using hsome
      exact ⟨hcount, [], .nil hbyte, (List.append_nil _).symm⟩
    have hlen : ¬ b.toNat = 0 := fun hlen => hne (UInt8.toNat_inj.mp hlen)
    have hbits := and_c0_eq_zero_iff b.toNat_lt
    rw [if_neg hlen]
    simp only [Dns.NameAt.of_ne_zero hbyte hne]
    rcases Nat.lt_or_ge b.toNat 64 with hsmall | hbig
    swap
    · rw [if_pos (.inl (hbits.not.mpr (Nat.not_lt.mpr hbig)))]
      refine ⟨none, rfl, fun _ _ _ hsome => (nomatch hsome), ?_⟩
      rintro _ name next ⟨hle, _⟩
      omega
    rcases Nat.eq_or_lt_of_le hcount with hfull | hroom
    · rw [if_pos (.inr hfull)]
      refine ⟨none, rfl, fun _ _ _ hsome => (nomatch hsome), ?_⟩
      rintro _ _ next ⟨_, rest, rfl, _⟩
      rw [List.length_cons]
      omega
    rw [if_neg (by rintro (hmark | hfull); exacts [hmark (hbits.mpr hsmall), absurd hfull (by omega)]),
      getRange]
    rcases Nat.lt_or_ge query.length (pos + 1 + b.toNat) with hcut | hfits
    · rw [if_neg (by omega)]
      refine ⟨none, rfl, fun _ _ _ hsome => (nomatch hsome), ?_⟩
      rintro _ _ next ⟨_, rest, _, hrest⟩
      have hlt := hrest.pos_lt
      omega
    obtain ⟨r, hr, hsome, hnone⟩ := @walkLabels_spec query (pos + 1 + b.toNat)
      (labels.set labelCount (query.extract (pos + 1) (pos + 1 + b.toNat))) (labelCount + 1) hroom
    rw [if_pos (by omega)]
    simp only [setLabel, dif_pos hroom]
    refine ⟨r, hr, fun labels' count next hr => ?_, ?_⟩
    · obtain ⟨hle, rest, hrest, htake⟩ := hsome labels' count next hr
      refine ⟨hle, _, ⟨Nat.le_of_lt_succ hsmall, rest, rfl, hrest⟩, ?_⟩
      rw [htake, take_setLabel hroom, List.append_assoc]
      rfl
    · rintro hr _ next ⟨_, rest, rfl, hrest⟩
      have hmany := hnone hr rest next hrest
      rw [List.length_cons]
      omega
termination_by query.length - pos

def toAsciiLowercase (b : UInt8) : UInt8 := if 0x41 ≤ b ∧ b ≤ 0x5A then b + 0x20 else b

def eqIgnoreAsciiCase (a b : Bytes) : Bool :=
  a.map toAsciiLowercase == b.map toAsciiLowercase

/-- `heapless::Vec::extend_from_slice(..).ok()`, at a capacity of 256. -/
def extendFromSlice (out bytes : Bytes) : Option Bytes :=
  if out.length + bytes.length ≤ 256 then some (out ++ bytes) else none

/-- `heapless::Vec::push(..).ok()`. -/
def push (out : Bytes) (b : UInt8) : Option Bytes :=
  if out.length < 256 then some (out ++ [b]) else none

def writeLabel (out label : Bytes) : Option Bytes :=
  if label = [] ∨ 63 < label.length then none
  else do
    let out ← push out (UInt8.ofNat label.length)
    extendFromSlice out label

/-- The answer packet of `build_response`. -/
def writeResponse (hostname : Bytes) (ip : Vector UInt8 4) : Option Bytes := do
  let out ← extendFromSlice [] [0, 0, 0x84, 0x00, 0, 0, 0, 1, 0, 0, 0, 0]
  let out ← writeLabel out hostname
  let out ← writeLabel out (asciiBytes "local")
  let out ← push out 0
  let out ← extendFromSlice out (u16ToBeBytes typeA)
  -- class IN with the cache-flush bit
  let out ← extendFromSlice out (u16ToBeBytes 0x8001)
  let out ← extendFromSlice out (u32ToBeBytes ttl)
  let out ← extendFromSlice out (u16ToBeBytes 4)
  extendFromSlice out ip.toList

theorem extendFromSlice_of_le {out bytes : Bytes} (h : out.length + bytes.length ≤ 256) :
    extendFromSlice out bytes = some (out ++ bytes) := if_pos h

theorem push_of_lt {out : Bytes} {b : UInt8} (h : out.length < 256) :
    push out b = some (out ++ [b]) := if_pos h

theorem writeLabel_of_le {out label : Bytes} (hne : label ≠ []) (hle : label.length ≤ 63)
    (hroom : out.length + 1 + label.length ≤ 256) :
    writeLabel out label = some (out ++ [UInt8.ofNat label.length] ++ label) := by
  rw [writeLabel, if_neg (by simp only [hne, false_or]; omega), push_of_lt (by omega)]
  exact extendFromSlice_of_le (by rwa [List.length_append])

/-- The packet of a host name that is a label fits. -/
theorem writeResponse_fits {hostname : Bytes} (ip : Vector UInt8 4) (hne : hostname ≠ [])
    (hle : hostname.length ≤ 63) : ∃ reply, writeResponse hostname ip = some reply := by
  rw [writeResponse, extendFromSlice_of_le (by decide)]
  simp only [bind, Option.bind]
  rw [writeLabel_of_le hne hle (by simp; omega)]
  simp only
  rw [writeLabel_of_le (by decide) (by decide) (by simp [asciiBytes]; omega)]
  simp only
  rw [push_of_lt (by simp [asciiBytes]; omega)]
  simp only
  rw [extendFromSlice_of_le (by simp [asciiBytes, u16ToBeBytes]; omega)]
  simp only
  rw [extendFromSlice_of_le (by simp [asciiBytes, u16ToBeBytes]; omega)]
  simp only
  rw [extendFromSlice_of_le (by simp [asciiBytes, u16ToBeBytes, u32ToBeBytes]; omega)]
  simp only
  rw [extendFromSlice_of_le (by simp [asciiBytes, u16ToBeBytes, u32ToBeBytes]; omega)]
  exact ⟨_, extendFromSlice_of_le (by simp [asciiBytes, u16ToBeBytes, u32ToBeBytes]; omega)⟩

def buildResponse (query hostname : Bytes) (ip : Vector UInt8 4) :
    Except Panic (Option Bytes) :=
  if query.length < 12 then return none
  else do
    let qdcount ← u16FromBeBytes query 4
    if qdcount = 0 then return none
    else
      match ← walkLabels query 12 (Vector.replicate 4 []) 0 with
      | none => return none
      | some (labels, labelCount, pos) =>
          match query[pos]?, query[pos + 1]? with
          | some high, some low =>
              let qtype := Dns.be16 high low
              if qtype ≠ typeA ∧ qtype ≠ typeAny then return none
              else if labelCount ≠ 2 ∨ eqIgnoreAsciiCase labels[0] hostname = false ∨
                  eqIgnoreAsciiCase labels[1] (asciiBytes "local") = false then return none
              else return writeResponse hostname ip
          | _, _ => return none

/-- A name is `<hostname>.local` up to ASCII case. -/
def IsLocal (hostname : Bytes) (name : Dns.Name) : Prop :=
  ∃ host domain, name = [host, domain] ∧ eqIgnoreAsciiCase host hostname = true ∧
    eqIgnoreAsciiCase domain (asciiBytes "local") = true

/-- What the responder looks for in a query: the device's name, up to a place where
the type is one of the two. -/
def Asks (hostname query : Bytes) (name : Dns.Name) (next : Nat) : Prop :=
  Dns.be16At query 4 ≠ 0 ∧ Dns.NameAt 63 query 12 name next ∧ next + 2 ≤ query.length ∧
    (Dns.be16At query next = typeA ∨ Dns.be16At query next = typeAny) ∧ IsLocal hostname name

/-- The host name of an answered query is a label. -/
theorem Asks.hostname_label {hostname query : Bytes} {name : Dns.Name} {next : Nat}
    (h : Asks hostname query name next) : hostname ≠ [] ∧ hostname.length ≤ 63 := by
  obtain ⟨_, hname, _, _, host, domain, rfl, hhost, _⟩ := h
  obtain ⟨hpos, hle⟩ := hname.labels host List.mem_cons_self
  have hlength : host.length = hostname.length := by
    simpa using congrArg List.length (eq_of_beq hhost)
  rw [← hlength]
  refine ⟨fun hnil => ?_, hle⟩
  rw [hnil, List.length_nil] at hlength
  omega

/-- The name of the labels that the loop has found is compared label by label. -/
theorem isLocal_iff {hostname : Bytes} {labels : Vector Bytes 4} {labelCount : Nat}
    (hle : labelCount ≤ 4) : IsLocal hostname (labels.toList.take labelCount) ↔
      labelCount = 2 ∧ eqIgnoreAsciiCase labels[0] hostname = true ∧
        eqIgnoreAsciiCase labels[1] (asciiBytes "local") = true := by
  have hlength : (labels.toList.take labelCount).length = labelCount := by
    rw [List.length_take, Vector.length_toList]
    omega
  have htwo : labels.toList.take 2 = [labels[0], labels[1]] := by
    rw [List.take_succ_eq_append_getElem (by simp), List.take_succ_eq_append_getElem (by simp)]
    simp
  constructor
  · rintro ⟨host, domain, hname, hhost, hdomain⟩
    rw [hname] at hlength
    obtain rfl : 2 = labelCount := hlength
    rw [htwo] at hname
    obtain ⟨rfl, rfl⟩ : labels[0] = host ∧ labels[1] = domain := by simpa using hname
    exact ⟨rfl, hhost, hdomain⟩
  · rintro ⟨rfl, hhost, hdomain⟩
    exact ⟨labels[0], labels[1], htwo, hhost, hdomain⟩

/-- The queries that are answered.  The others are passed over. -/
theorem buildResponse_cases (query hostname : Bytes) (ip : Vector UInt8 4) :
    (∃ name next, Asks hostname query name next ∧
      ∃ reply, buildResponse query hostname ip = .ok (some reply)) ∨
    ((∀ name next, ¬ Asks hostname query name next) ∧
      buildResponse query hostname ip = .ok none) := by
  rw [buildResponse]
  rcases Nat.lt_or_ge query.length 12 with hshort | hlong
  · refine .inr ⟨fun name next hasks => ?_, if_pos hshort⟩
    have hlt := hasks.2.1.pos_lt
    omega
  rw [if_neg (Nat.not_lt.mpr hlong), u16FromBeBytes_of_lt (by omega)]
  simp only [bind, Except.bind]
  rcases eq_or_ne (Dns.be16At query 4) 0 with hcount | hcount
  · exact .inr ⟨fun name next hasks => hasks.1 hcount, if_pos hcount⟩
  rw [if_neg hcount]
  obtain ⟨r, hr, hsome, hnone⟩ := @walkLabels_spec query 12 (Vector.replicate 4 []) 0 (by decide)
  rw [hr]
  cases r with
  | none =>
      refine .inr ⟨fun name next hasks => ?_, rfl⟩
      obtain ⟨_, hname, _, _, host, domain, rfl, _⟩ := hasks
      have hmany := hnone rfl _ next hname
      simp at hmany
  | some found =>
      obtain ⟨labels, labelCount, pos⟩ := found
      obtain ⟨hle, name, hname, htake⟩ := hsome labels labelCount pos rfl
      rw [List.take_zero, List.nil_append] at htake
      have hfound : ∀ {name' next}, Dns.NameAt 63 query 12 name' next → name' = name ∧ next = pos :=
        fun hname' => hname'.unique hname
      simp only
      rcases Nat.lt_or_ge query.length (pos + 2) with hcut | hfits
      · refine .inr ⟨fun name' next hasks => ?_, ?_⟩
        · obtain ⟨_, hname', htype, _⟩ := hasks
          obtain ⟨rfl, rfl⟩ := hfound hname'
          omega
        · rw [List.getElem?_eq_none (l := query) (i := pos + 1) (by omega)]
          cases query[pos]? <;> rfl
      have hqtype : Dns.be16At query pos = Dns.be16 query[pos] query[pos + 1] := by
        rw [Dns.be16At, List.getD_eq_getElem _ _ (by omega), List.getD_eq_getElem _ _ (by omega)]
      rw [List.getElem?_eq_getElem (by omega), List.getElem?_eq_getElem (by omega)]
      simp only
      rw [← hqtype]
      have hlocal := @isLocal_iff hostname labels labelCount hle
      rw [htake] at hlocal
      by_cases htype : Dns.be16At query pos = typeA ∨ Dns.be16At query pos = typeAny
      swap
      · refine .inr ⟨fun name' next hasks => ?_, if_pos (not_or.mp htype)⟩
        obtain ⟨_, hname', _, htype', _⟩ := hasks
        obtain ⟨rfl, rfl⟩ := hfound hname'
        exact htype htype'
      rw [if_neg (by rwa [← not_or, not_not])]
      by_cases hmatch : IsLocal hostname name
      · have hasks : Asks hostname query name pos := ⟨hcount, hname, hfits, htype, hmatch⟩
        refine .inl ⟨name, pos, hasks, ?_⟩
        obtain ⟨htwo, hhost, hdomain⟩ := hlocal.mp hmatch
        obtain ⟨reply, hreply⟩ :=
          writeResponse_fits ip hasks.hostname_label.1 hasks.hostname_label.2
        rw [if_neg (by simp [htwo, hhost, hdomain]), hreply]
        exact ⟨reply, rfl⟩
      · refine .inr ⟨fun name' next hasks => ?_, ?_⟩
        · obtain ⟨_, hname', _, _, hlocal'⟩ := hasks
          obtain ⟨rfl, rfl⟩ := hfound hname'
          exact hmatch hlocal'
        · refine if_pos ?_
          by_contra hall
          simp only [not_or, Bool.not_eq_false, not_not] at hall
          exact hmatch (hlocal.mpr hall)

end Mdns

end WaterController
