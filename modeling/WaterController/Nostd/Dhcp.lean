import WaterController.Dns.Responders
import WaterController.Library.Tlv

/-!
# The DHCP server of the access point

A message is a fixed head of 240 bytes, the last four of them a cookie, and a field of
options.  `dhcpMsgType` walks the options of a request by index, and `buildDhcpReply`
writes a reply into a buffer of 300 bytes.  Reads and writes are checked.

`dhcpMsgType_eq` says that the walk reads the options as `Tlv.options` does, and
`buildDhcpReply_eq` what the buffer holds.  The server answers the discovers and
requests among the datagrams, and no others (`dhcpAnswer_cases`).
-/

namespace WaterController.Ap

/-! ## The code -/

/-- The address for a client that joins. -/
def clientIp : Vector UInt8 4 := #v[192, 168, 4, 2]

/-- The time of a lease in seconds. -/
def leaseSecs : Nat := 2 * 60 * 60

/-- The cookie in front of the options. -/
def dhcpMagic : Bytes := [0x63, 0x82, 0x53, 0x63]

/-- Write an option.  It gives the output and the offset behind the option. -/
def putOpt (out : Bytes) (i : Nat) (code : UInt8) (data : Bytes) : Except Panic (Bytes × Nat) := do
  let out ← copyFromSlice out i [code]
  let out ← copyFromSlice out (i + 1) [UInt8.ofNat data.length]
  let out ← copyFromSlice out (i + 2) data
  return (out, i + 2 + data.length)

/-- The walk over the options, from an offset on. -/
def walkOptions (req : Bytes) (i : Nat) : Except Panic (Option UInt8) :=
  if _h : i + 1 < req.length then do
    let code ← index req i
    if code = 255 then return none
    else if code = 0 then walkOptions req (i + 1)
    else
      let len := (← index req (i + 1)).toNat
      if code = 53 ∧ 1 ≤ len ∧ i + 2 < req.length then return some (← index req (i + 2))
      else walkOptions req (i + (2 + len))
  else return none
termination_by req.length - i

/-- The message type of a request, if it has one. -/
def dhcpMsgType (req : Bytes) : Except Panic (Option UInt8) :=
  if req.length < 240 then return none
  else do
    if (← FlashKv.slice req 236 240) ≠ dhcpMagic then return none
    else walkOptions req 240

/-- Write a reply to a request.  It gives the output and the length of the reply. -/
def buildDhcpReply (req : Bytes) (msgType : UInt8) (out : Vector UInt8 300) :
    Except Panic (Bytes × Nat) := do
  let out := out.toList.map fun _ => 0
  let out ← copyFromSlice out 0 [2]
  let out ← copyFromSlice out 1 [1]
  let out ← copyFromSlice out 2 [6]
  let out ← copyFromSlice out 4 (← FlashKv.slice req 4 8)
  let out ← copyFromSlice out 10 (← FlashKv.slice req 10 12)
  let out ← copyFromSlice out 16 clientIp.toList
  let out ← copyFromSlice out 20 apIp.toList
  let out ← copyFromSlice out 28 (← FlashKv.slice req 28 44)
  let out ← copyFromSlice out 236 dhcpMagic
  let (out, i) ← putOpt out 240 53 [msgType]
  let (out, i) ← putOpt out i 54 apIp.toList
  let (out, i) ← putOpt out i 51 (u32ToBeBytes leaseSecs)
  let (out, i) ← putOpt out i 1 [255, 255, 255, 0]
  let (out, i) ← putOpt out i 3 apIp.toList
  let (out, i) ← putOpt out i 6 apIp.toList
  let out ← copyFromSlice out i [255]
  return (out, i + 1)

/-- What the server sends for a datagram. -/
def dhcpAnswer (req : Bytes) (reply : Vector UInt8 300) : Except Panic (Option Bytes) :=
  if req.length < 240 then return none
  else do
    if (← index req 0) ≠ 1 then return none
    else
      let send (replyType : UInt8) : Except Panic (Option Bytes) := do
        let (out, len) ← buildDhcpReply req replyType reply
        return some (out.take len)
      match ← dhcpMsgType req with
      | some 1 => send 2
      | some 3 => send 5
      | _ => return none

/-! ## The type of a message -/

/-- The type that a field of options names: the first byte of the first option of code
53 that is not empty, if it is there. -/
def messageType (field : List UInt8) : Option UInt8 :=
  ((Tlv.options field).1.find? fun o => o.code = 53 ∧ 1 ≤ o.len).bind fun o => o.data.head?

theorem messageType_closed (rest : List UInt8) : messageType (255 :: rest) = none := by
  rw [messageType, Tlv.options_closed]
  rfl

theorem messageType_pad (rest : List UInt8) : messageType (0 :: rest) = messageType rest := by
  rw [messageType, Tlv.options_pad, messageType]

/-- A field of one byte has no option. -/
theorem messageType_of_length_le {field : List UInt8} (h : field.length ≤ 1) :
    messageType field = none := by
  match field with
  | [] => rw [messageType, Tlv.options_nil]; rfl
  | [code] =>
      rcases eq_or_ne code 255 with rfl | hend
      · exact messageType_closed []
      · rw [messageType, Tlv.options_singleton hend]
        rfl
  | _ :: _ :: _ => exact absurd h (by simp)

theorem messageType_cons {code : UInt8} (hend : code ≠ 255) (hpad : code ≠ 0) (len : UInt8)
    (rest : List UInt8) : messageType (code :: len :: rest) =
      if code = 53 ∧ 1 ≤ len.toNat then rest.head? else messageType (rest.drop len.toNat) := by
  rw [messageType, Tlv.options_cons hend hpad, List.find?_cons]
  split_ifs with hfound
  · obtain ⟨rfl, hlen⟩ := hfound
    rw [decide_eq_true ⟨rfl, hlen⟩]
    show (rest.take len.toNat).head? = rest.head?
    rw [List.head?_take, if_neg (by omega)]
  · rw [decide_eq_false hfound, messageType]

/-- The walk reads the options of what is left of the request. -/
theorem walkOptions_eq (req : Bytes) (i : Nat) :
    walkOptions req i = .ok (messageType (req.drop i)) := by
  rw [walkOptions]
  rcases Nat.lt_or_ge (i + 1) req.length with h | h
  swap
  · rw [dif_neg (Nat.not_lt.mpr h), messageType_of_length_le (by rw [List.length_drop]; omega)]
    rfl
  have hfield : req.drop i = req[i] :: req[i + 1] :: req.drop (i + 2) := by
    rw [List.drop_eq_getElem_cons (by omega), List.drop_eq_getElem_cons h]
  rw [dif_pos h, index_of_lt (by omega), index_of_lt h, hfield]
  simp only [bind, Except.bind]
  rcases eq_or_ne req[i] 255 with hend | hend
  · rw [if_pos hend, hend, messageType_closed]
    rfl
  rw [if_neg hend]
  rcases eq_or_ne req[i] 0 with hpad | hpad
  · rw [if_pos hpad, walkOptions_eq req (i + 1), hpad, messageType_pad, ← List.drop_eq_getElem_cons]
  rw [if_neg hpad, messageType_cons hend hpad, List.head?_drop, List.drop_drop]
  by_cases hfound : req[i] = 53 ∧ 1 ≤ req[i + 1].toNat
  · rw [if_pos hfound]
    rcases Nat.lt_or_ge (i + 2) req.length with hin | hout
    · rw [if_pos ⟨hfound.1, hfound.2, hin⟩, index_of_lt hin, List.getElem?_eq_getElem hin]
      rfl
    · -- the data lies outside of the request, and the walk ends behind it
      rw [if_neg fun hall => absurd hall.2.2 (Nat.not_lt.mpr hout), walkOptions_eq,
        messageType_of_length_le (by rw [List.length_drop]; omega), List.getElem?_eq_none hout]
  · rw [if_neg hfound, if_neg fun hall => hfound ⟨hall.1, hall.2.1⟩, walkOptions_eq, Nat.add_assoc]
termination_by req.length - i

theorem dhcpMsgType_eq (req : Bytes) : dhcpMsgType req =
    .ok (if 240 ≤ req.length ∧ req.extract 236 240 = dhcpMagic then messageType (req.drop 240)
      else none) := by
  rw [dhcpMsgType]
  rcases Nat.lt_or_ge req.length 240 with hshort | hlong
  · rw [if_pos hshort, if_neg fun h => absurd h.1 (Nat.not_le.mpr hshort)]
    rfl
  rw [if_neg (Nat.not_lt.mpr hlong), FlashKv.slice, if_pos ⟨by decide, hlong⟩, walkOptions_eq]
  simp only [bind, Except.bind]
  rcases eq_or_ne (req.extract 236 240) dhcpMagic with hmagic | hmagic
  · rw [if_neg (not_not.mpr hmagic), if_pos ⟨hlong, hmagic⟩]
  · rw [if_pos hmagic, if_neg fun h => hmagic h.2]
    rfl

/-! ## The reply -/

/-- A write replaces as many bytes as it has. -/
theorem copyFromSlice_middle {before middle src : Bytes} (after : Bytes)
    (h : middle.length = src.length) :
    copyFromSlice (before ++ middle ++ after) before.length src = .ok (before ++ src ++ after) := by
  have hbehind : (before ++ middle).length = before.length + src.length := by
    rw [List.length_append, h]
  rw [copyFromSlice, if_pos (by simp only [List.length_append]; omega), ← hbehind, List.drop_left,
    List.append_assoc before middle after, List.take_left]

/-- A buffer of 300 bytes of which the first are written and the others are zero. -/
def blankBehind (written : Bytes) : Bytes := written ++ List.replicate (300 - written.length) 0

/-- A write into the zeros, with a gap in front of it. -/
theorem copyFromSlice_blankBehind {written src : Bytes} {pos : Nat} (gap : Nat)
    (hpos : written.length + gap = pos) (hfits : pos + src.length ≤ 300) :
    copyFromSlice (blankBehind written) pos src =
      .ok (blankBehind (written ++ List.replicate gap 0 ++ src)) := by
  have hzeros : 300 - written.length = gap + (src.length + (300 - pos - src.length)) := by omega
  have hsplit : blankBehind written = written ++ List.replicate gap 0 ++
      List.replicate src.length 0 ++ List.replicate (300 - pos - src.length) 0 := by
    rw [blankBehind, hzeros, List.replicate_add, List.replicate_add]
    simp only [List.append_assoc]
  have hbefore : pos = (written ++ List.replicate gap 0).length := by
    rw [List.length_append, List.length_replicate, hpos]
  have hrest : 300 - (written ++ List.replicate gap 0 ++ src).length = 300 - pos - src.length := by
    rw [List.length_append, ← hbefore]
    omega
  rw [hsplit, blankBehind, hrest]
  subst hbefore
  rw [copyFromSlice_middle _ List.length_replicate]

/-- A write that follows on what is written. -/
theorem copyFromSlice_next {written src : Bytes} {pos : Nat} (hpos : written.length = pos)
    (hfits : pos + src.length ≤ 300) :
    copyFromSlice (blankBehind written) pos src = .ok (blankBehind (written ++ src)) := by
  rw [copyFromSlice_blankBehind 0 hpos hfits, List.replicate_zero, List.append_nil]

/-- An option behind what is written. -/
theorem putOpt_next {written data : Bytes} {i : Nat} (code : UInt8) (hi : written.length = i)
    (hfits : i + 2 + data.length ≤ 300) : putOpt (blankBehind written) i code data =
      .ok (blankBehind (written ++ Tlv.encode code data), i + 2 + data.length) := by
  have hcode := @copyFromSlice_next written [code] i hi (by rw [List.length_singleton]; omega)
  have hlen := @copyFromSlice_next (written ++ [code]) [UInt8.ofNat data.length] (i + 1)
    (by rw [List.length_append, hi]; rfl) (by rw [List.length_singleton]; omega)
  have hdata := @copyFromSlice_next (written ++ [code] ++ [UInt8.ofNat data.length]) data (i + 2)
    (by rw [List.length_append, List.length_append, hi]; rfl) hfits
  rw [putOpt, hcode]
  show copyFromSlice _ (i + 1) _ >>= _ = _
  rw [hlen]
  show copyFromSlice _ (i + 2) _ >>= _ = _
  rw [hdata, Tlv.encode]
  simp only [List.append_assoc, List.singleton_append]
  rfl

/-- The head of a reply up to the transaction. -/
def headToXid (req : Bytes) : Bytes := [2, 1, 6] ++ [0] ++ req.extract 4 8

def headToFlags (req : Bytes) : Bytes :=
  headToXid req ++ List.replicate 2 0 ++ req.extract 10 12

def headToChaddr (req : Bytes) : Bytes :=
  headToFlags req ++ List.replicate 4 0 ++ clientIp.toList ++ apIp.toList ++ List.replicate 4 0 ++
    req.extract 28 44

/-- The head of a reply. -/
def dhcpHead (req : Bytes) : Bytes := headToChaddr req ++ List.replicate 192 0 ++ dhcpMagic

/-- The options of a reply, and what they say: the type, the server, the time of the
lease, the subnet mask, the router and the name server. -/
def dhcpOptions (msgType : UInt8) : List (UInt8 × Bytes) :=
  [(53, [msgType]), (54, apIp.toList), (51, u32ToBeBytes leaseSecs), (1, [255, 255, 255, 0]),
    (3, apIp.toList), (6, apIp.toList)]

/-- The field of options of a reply. -/
def dhcpField (msgType : UInt8) : Bytes :=
  ((dhcpOptions msgType).flatMap fun o => Tlv.encode o.1 o.2) ++ [255]

theorem length_extract_of_le {bytes : Bytes} {start stop : Nat} (h : stop ≤ bytes.length) :
    (bytes.extract start stop).length = stop - start := by
  rw [List.extract_eq_take_drop, List.length_take, List.length_drop]
  omega

section Lengths

variable {req : Bytes} (h : 240 ≤ req.length)

include h

theorem length_headToXid : (headToXid req).length = 8 := by
  rw [headToXid, List.length_append, length_extract_of_le (by omega)]
  rfl

theorem length_headToFlags : (headToFlags req).length = 12 := by
  rw [headToFlags, List.length_append, List.length_append, length_headToXid h,
    length_extract_of_le (by omega), List.length_replicate]

theorem length_headToChaddr : (headToChaddr req).length = 44 := by
  simp only [headToChaddr, List.length_append, length_headToFlags h,
    length_extract_of_le (show 44 ≤ req.length by omega), List.length_replicate]
  rfl

theorem length_dhcpHead : (dhcpHead req).length = 240 := by
  rw [dhcpHead, List.length_append, List.length_append, length_headToChaddr h,
    List.length_replicate]
  rfl

end Lengths

section Bind

variable {β : Type} {f : Bytes → Except Panic β}

theorem slice_bind {req : Bytes} {start stop : Nat} (hle : start ≤ stop) (h : stop ≤ req.length) :
    (FlashKv.slice req start stop >>= f) = f (req.extract start stop) := by
  rw [FlashKv.slice, if_pos ⟨hle, h⟩]
  rfl

theorem copyFromSlice_bind {written src : Bytes} {pos : Nat} (gap : Nat)
    (hpos : written.length + gap = pos) (hfits : pos + src.length ≤ 300) :
    (copyFromSlice (blankBehind written) pos src >>= f) =
      f (blankBehind (written ++ List.replicate gap 0 ++ src)) := by
  rw [copyFromSlice_blankBehind gap hpos hfits]
  rfl

theorem putOpt_bind {g : Bytes × Nat → Except Panic β} {written data : Bytes} {i : Nat}
    (code : UInt8) (hi : written.length = i) (hfits : i + 2 + data.length ≤ 300) :
    (putOpt (blankBehind written) i code data >>= g) =
      g (blankBehind (written ++ Tlv.encode code data), i + 2 + data.length) := by
  rw [putOpt_next code hi hfits]
  rfl

end Bind

/-- What the buffer holds behind the call, and the length of the reply in it. -/
theorem buildDhcpReply_eq {req : Bytes} (h : 240 ≤ req.length) (msgType : UInt8)
    (out : Vector UInt8 300) : buildDhcpReply req msgType out =
      .ok (blankBehind (dhcpHead req ++ dhcpField msgType), 274) := by
  have hblank : out.toList.map (fun _ => (0 : UInt8)) = blankBehind [] := by
    rw [List.map_const', Vector.length_toList]
    rfl
  have hxid := @length_extract_of_le req 4 8 (by omega)
  have hflags := @length_extract_of_le req 10 12 (by omega)
  have hchaddr := @length_extract_of_le req 28 44 (by omega)
  rw [buildDhcpReply, hblank]
  -- the head
  refine (copyFromSlice_bind 0 (by rfl) (by decide)).trans ?_
  refine (copyFromSlice_bind 0 (by rfl) (by decide)).trans ?_
  refine (copyFromSlice_bind 0 (by rfl) (by decide)).trans ?_
  refine (slice_bind (by decide) (by omega)).trans ?_
  refine (copyFromSlice_bind 1 (by rfl) (by omega)).trans ?_
  refine (slice_bind (by decide) (by omega)).trans ?_
  refine (copyFromSlice_bind 2 (by simp [hxid]) (by omega)).trans ?_
  refine (copyFromSlice_bind 4 (by simp [hxid, hflags]) (by decide)).trans ?_
  refine (copyFromSlice_bind 0 (by simp [hxid, hflags]) (by decide)).trans ?_
  refine (slice_bind (by decide) (by omega)).trans ?_
  refine (copyFromSlice_bind 4 (by simp [hxid, hflags]) (by omega)).trans ?_
  refine (copyFromSlice_bind 192 (by simp [hxid, hflags, hchaddr]) (by decide)).trans ?_
  have hhead : [] ++ List.replicate 0 0 ++ [2] ++ List.replicate 0 0 ++ [1] ++ List.replicate 0 0 ++
      [6] ++ List.replicate 1 0 ++ req.extract 4 8 ++ List.replicate 2 0 ++ req.extract 10 12 ++
      List.replicate 4 0 ++ clientIp.toList ++ List.replicate 0 0 ++ apIp.toList ++
      List.replicate 4 0 ++ req.extract 28 44 ++ List.replicate 192 0 ++ dhcpMagic =
      dhcpHead req := by
    simp only [dhcpHead, headToChaddr, headToFlags, headToXid, List.replicate_zero, List.append_nil,
      List.nil_append]
    rfl
  rw [hhead]
  -- the options
  have hlength := length_dhcpHead h
  have hlease : (u32ToBeBytes leaseSecs).length = 4 := rfl
  refine (putOpt_bind 53 (by simp [hlength]) (by simp)).trans ?_
  refine (putOpt_bind 54 (by simp [hlength, Tlv.encode]) (by simp)).trans ?_
  refine (putOpt_bind 51 (by simp [hlength, Tlv.encode]) (by simp [hlease])).trans ?_
  refine (putOpt_bind 1 (by simp [hlength, hlease, Tlv.encode]) (by simp [hlease])).trans ?_
  refine (putOpt_bind 3 (by simp [hlength, hlease, Tlv.encode]) (by simp [hlease])).trans ?_
  refine (putOpt_bind 6 (by simp [hlength, hlease, Tlv.encode]) (by simp [hlease])).trans ?_
  refine (copyFromSlice_bind 0 (by simp [hlength, hlease, Tlv.encode]) (by simp [hlease])).trans ?_
  simp only [dhcpField, dhcpOptions, List.flatMap_cons, List.flatMap_nil, List.append_assoc,
    List.nil_append, List.replicate_zero]
  rfl

/-! ### What the reply says -/

/-- A reply of a type to a request: its options say what they should, and it has the
request's transaction, flags and hardware address. -/
structure DhcpReplyTo (req : Bytes) (msgType : UInt8) (reply : Bytes) : Prop where
  op : reply.head? = some 2
  replyType : dhcpMsgType reply = .ok (some msgType)
  options : Tlv.options (reply.drop 240) =
    ([.of 53 [msgType], .of 54 [192, 168, 4, 1], .of 51 [0, 0, 0x1C, 0x20],
      .of 1 [255, 255, 255, 0], .of 3 [192, 168, 4, 1], .of 6 [192, 168, 4, 1]], .closed [])
  xid : reply.extract 4 8 = req.extract 4 8
  flags : reply.extract 10 12 = req.extract 10 12
  chaddr : reply.extract 28 44 = req.extract 28 44

theorem extract_end {before middle : Bytes} {start stop : Nat} (hstart : before.length = start)
    (hstop : (before ++ middle).length = stop) : (before ++ middle).extract start stop = middle := by
  rw [List.extract_eq_take_drop, ← hstart, List.drop_left, List.take_of_length_le]
  rw [List.length_append] at hstop
  omega

theorem extract_append_of_le {before after : Bytes} (start : Nat) {stop : Nat}
    (h : stop ≤ before.length) : (before ++ after).extract start stop = before.extract start stop := by
  rw [List.extract_eq_take_drop, List.extract_eq_take_drop, ← List.drop_take, ← List.drop_take,
    List.take_append_of_le_length h]

theorem options_dhcpField (msgType : UInt8) : Tlv.options (dhcpField msgType) =
    ((dhcpOptions msgType).map fun o => .of o.1 o.2, .closed []) := by
  refine Tlv.options_encode ?_ []
  simp only [dhcpOptions, List.forall_mem_cons, List.length_singleton, Vector.length_toList]
  decide

theorem dhcpReplyTo_reply {req : Bytes} (h : 240 ≤ req.length) (msgType : UInt8) :
    DhcpReplyTo req msgType (dhcpHead req ++ dhcpField msgType) := by
  have hhead := length_dhcpHead h
  have hfield : (dhcpHead req ++ dhcpField msgType).drop 240 = dhcpField msgType := by
    rw [← hhead, List.drop_left]
  have hmagic : (dhcpHead req ++ dhcpField msgType).extract 236 240 = dhcpMagic := by
    rw [extract_append_of_le _ (by rw [hhead]), dhcpHead]
    exact extract_end (by rw [List.length_append, length_headToChaddr h, List.length_replicate])
      (length_dhcpHead h)
  -- what stands in front of the zeros stands in the reply
  have hfront : ∀ start stop, stop ≤ 44 → (dhcpHead req ++ dhcpField msgType).extract start stop =
      (headToChaddr req).extract start stop := by
    intro start stop hstop
    rw [extract_append_of_le _ (by omega), dhcpHead,
      extract_append_of_le _ (by rw [List.length_append, length_headToChaddr h]; omega),
      extract_append_of_le _ (by rw [length_headToChaddr h]; omega)]
  have hflags : ∀ start stop, stop ≤ 12 → (headToChaddr req).extract start stop =
      (headToFlags req).extract start stop := by
    intro start stop hstop
    rw [headToChaddr, List.append_assoc, List.append_assoc, List.append_assoc, List.append_assoc,
      extract_append_of_le _ (by rw [length_headToFlags h]; omega)]
  refine ⟨rfl, ?_, ?_, ?_, ?_, ?_⟩
  · rw [dhcpMsgType_eq, if_pos ⟨by rw [List.length_append, hhead]; omega, hmagic⟩, hfield,
      messageType, options_dhcpField]
    rfl
  · rw [hfield, options_dhcpField]
    rfl
  · rw [hfront 4 8 (by decide), hflags 4 8 (by decide), headToFlags, List.append_assoc,
      extract_append_of_le _ (by rw [length_headToXid h])]
    exact extract_end rfl (length_headToXid h)
  · rw [hfront 10 12 (by decide), hflags 10 12 (by decide)]
    exact extract_end (by rw [List.length_append, length_headToXid h, List.length_replicate])
      (length_headToFlags h)
  · have hbefore : (headToFlags req ++ List.replicate 4 0 ++ clientIp.toList ++ apIp.toList ++
        List.replicate 4 0).length = 28 := by
      simp only [List.length_append, length_headToFlags h, List.length_replicate,
        Vector.length_toList]
    rw [hfront 28 44 (by decide)]
    exact extract_end hbefore (length_headToChaddr h)

theorem dhcpReply_written {req : Bytes} (h : 240 ≤ req.length) (msgType : UInt8)
    (out : Vector UInt8 300) :
    ∃ out' len, buildDhcpReply req msgType out = .ok (out', len) ∧ out'.length = 300 ∧
      len ≤ 300 ∧ DhcpReplyTo req msgType (out'.take len) := by
  have hlength : (dhcpHead req ++ dhcpField msgType).length = 274 := by
    rw [List.length_append, length_dhcpHead h]
    rfl
  refine ⟨_, _, buildDhcpReply_eq h msgType out, ?_, by decide, ?_⟩
  · rw [blankBehind, List.length_append, List.length_replicate, hlength]
  · rw [blankBehind, ← hlength, List.take_left]
    exact dhcpReplyTo_reply h msgType

/-! ## The results -/

/-- The server and the client agree on the options.  A message type is read as the options
say, whatever the bytes of a datagram are, and a reply is written inside of its buffer
and has all that it should. -/
theorem dhcp_options_agree :
    (∀ req : Bytes, dhcpMsgType req =
      .ok (if 240 ≤ req.length ∧ req.extract 236 240 = dhcpMagic then messageType (req.drop 240)
        else none)) ∧
    ∀ (req : Bytes) (msgType : UInt8) (out : Vector UInt8 300), 240 ≤ req.length →
      ∃ out' len, buildDhcpReply req msgType out = .ok (out', len) ∧ out'.length = 300 ∧
        len ≤ 300 ∧ DhcpReplyTo req msgType (out'.take len) := by
  exact ⟨dhcpMsgType_eq, fun req msgType out h => dhcpReply_written h msgType out⟩

/-- A discover without options but its type. -/
theorem dhcp_options_agree_discover :
    let req : Bytes := 1 :: List.replicate 235 0 ++ dhcpMagic ++ [53, 1, 1, 255]
    dhcpMsgType req = .ok (some 1) ∧
      ∃ out' len, buildDhcpReply req 2 (.replicate 300 0) = .ok (out', len) ∧
        out'.length = 300 ∧ len ≤ 300 ∧ DhcpReplyTo req 2 (out'.take len) := by
  intro req
  refine ⟨?_, dhcp_options_agree.2 req 2 (.replicate 300 0) (by decide +kernel)⟩
  rw [dhcpMsgType_eq]
  decide +kernel

/-- The server answers the requests of a client that have a type it knows, and passes over
all other datagrams. -/
theorem dhcpAnswer_cases (req : Bytes) (reply : Vector UInt8 300) :
    (∃ replyType answer, dhcpAnswer req reply = .ok (some answer) ∧
      DhcpReplyTo req replyType answer ∧ req.head? = some 1 ∧
      (dhcpMsgType req = .ok (some 1) ∧ replyType = 2 ∨
        dhcpMsgType req = .ok (some 3) ∧ replyType = 5)) ∨
    dhcpAnswer req reply = .ok none ∧
      (240 ≤ req.length → req.head? = some 1 →
        dhcpMsgType req ≠ .ok (some 1) ∧ dhcpMsgType req ≠ .ok (some 3)) := by
  rw [dhcpAnswer]
  rcases Nat.lt_or_ge req.length 240 with hshort | hlong
  · exact .inr ⟨if_pos hshort, fun h => absurd h (Nat.not_le.mpr hshort)⟩
  obtain ⟨op, rest, hreq⟩ := List.exists_cons_of_ne_nil (List.ne_nil_of_length_pos (show 0 < req.length by omega))
  have hindex : index req 0 = .ok op := by rw [hreq]; rfl
  have hhead : req.head? = some op := by rw [hreq]; rfl
  rw [if_neg (Nat.not_lt.mpr hlong), hindex]
  simp only [bind, Except.bind]
  rcases eq_or_ne op 1 with rfl | hop
  swap
  · rw [if_pos hop]
    refine .inr ⟨rfl, fun _ h => ?_⟩
    exact absurd (Option.some.inj (hhead.symm.trans h)) hop
  rw [if_neg (not_not.mpr rfl)]
  obtain ⟨msgType, hmsgType⟩ : ∃ msgType, dhcpMsgType req = .ok msgType := ⟨_, dhcpMsgType_eq req⟩
  have hsend : ∀ replyType, ∃ answer, (Except.ok (some answer) : Except Panic (Option Bytes)) =
      (do
        let (out, len) ← buildDhcpReply req replyType reply
        return some (out.take len)) ∧ DhcpReplyTo req replyType answer := by
    intro replyType
    obtain ⟨out', len, hbuild, -, -, hreply⟩ := dhcpReply_written hlong replyType reply
    exact ⟨out'.take len, by rw [hbuild]; rfl, hreply⟩
  simp only [hmsgType]
  split
  · obtain ⟨answer, hanswer, hreply⟩ := hsend 2
    exact .inl ⟨2, answer, hanswer.symm, hreply, hhead, .inl ⟨rfl, rfl⟩⟩
  · obtain ⟨answer, hanswer, hreply⟩ := hsend 5
    exact .inl ⟨5, answer, hanswer.symm, hreply, hhead, .inr ⟨rfl, rfl⟩⟩
  · next hdiscover hrequest =>
      refine .inr ⟨rfl, fun _ _ => ⟨fun h => hdiscover ?_, fun h => hrequest ?_⟩⟩
      · exact Except.ok.inj h
      · exact Except.ok.inj h

end WaterController.Ap
