import WaterController.Dns.Responders

/-!
# What the replies say

No responder reads or writes out of range, whatever it receives.  A reply of a
captive resolver echoes the question of its query, so that the name of the question
is written out in the reply at the place where it is in the query, and the record
behind it points back to that place.  A decoder reads the query's id and question
and the record of the answer.
-/

namespace WaterController

/-- The reply to a query whose question ends at a place. -/
def replyTo (q : Bytes) (stop : Nat) (ip : Option (Vector UInt8 4)) : Bytes :=
  captiveReply (q.extract 0 2) (q.extract 12 stop) ip

theorem length_answerRecord (addr : Vector UInt8 4) : (answerRecord (some addr)).length = 16 := by
  rw [answerRecord, List.length_append, Vector.length_toList]
  rfl

/-- The records of a reply. -/
def answersOf (name : Dns.Name) (ip : Option (Vector UInt8 4)) : List Dns.Record :=
  ip.toList.map fun ip => ⟨name, 1, 1, 60, ip.toList⟩

section Reply

variable {q : Bytes} {stop : Nat} {ip : Option (Vector UInt8 4)}

/-! ## The bytes of a reply -/

/-- The header of a reply. -/
theorem replyTo_header (stop : Nat) (ip : Option (Vector UInt8 4)) (hlong : 2 ≤ q.length) :
    Dns.be16At (replyTo q stop ip) 0 = Dns.be16At q 0 ∧
      Dns.isResponse (replyTo q stop ip) = true ∧ Dns.be16At (replyTo q stop ip) 4 = 1 ∧
      Dns.be16At (replyTo q stop ip) 6 = ip.toList.length ∧
      Dns.be16At (replyTo q stop ip) 8 = 0 ∧ Dns.be16At (replyTo q stop ip) 10 = 0 := by
  match q, hlong with
  | id0 :: id1 :: rest, _ =>
      refine ⟨rfl, rfl, (rfl : Dns.be16 0 1 = 1), ?_, (rfl : Dns.be16 0 0 = 0),
        (rfl : Dns.be16 0 0 = 0)⟩
      cases ip with
      | none => exact (rfl : Dns.be16 0 0 = 0)
      | some => exact (rfl : Dns.be16 0 1 = 1)

theorem length_extract_id (hlong : 2 ≤ q.length) : (q.extract 0 2).length = 2 := by
  rw [List.extract_eq_take_drop, List.length_take, List.length_drop]
  omega

/-- What is in front of the record ends where the question ends in the query. -/
theorem length_replyTo_head (hstart : 12 ≤ stop) (hle : stop ≤ q.length) (flags : Bytes)
    (hflags : flags.length = 10) :
    (q.extract 0 2 ++ flags ++ q.extract 12 stop).length = stop := by
  rw [List.length_append, List.length_append, length_extract_id (by omega), hflags,
    List.extract_eq_take_drop, List.length_take, List.length_drop]
  omega

/-- The question is where it is in the query. -/
theorem getElem?_replyTo_question (hle : stop ≤ q.length) {i : Nat} (h : 12 ≤ i) (hlt : i < stop) :
    (replyTo q stop ip)[i]? = q[i]? := by
  rw [replyTo, captiveReply,
    List.getElem?_append_left (by rw [length_replyTo_head (by omega) hle _ rfl]; exact hlt),
    List.getElem?_append_right (by rw [List.length_append, length_extract_id (by omega)]; exact h),
    List.length_append, length_extract_id (by omega), List.extract_eq_take_drop]
  show ((q.drop 12).take (stop - 12))[i - 12]? = q[i]?
  rw [List.getElem?_take_of_lt (by omega), List.getElem?_drop]
  exact congrArg (q[·]?) (by omega)

/-- The record is behind the question. -/
theorem getElem?_replyTo_record (hstart : 12 ≤ stop) (hle : stop ≤ q.length) (k : Nat) :
    (replyTo q stop ip)[stop + k]? = (answerRecord ip)[k]? := by
  have hhead := length_replyTo_head hstart hle
    [0x81, 0x80, 0, 1, 0, if ip.isSome then 1 else 0, 0, 0, 0, 0] rfl
  rw [replyTo, captiveReply, List.getElem?_append_right (by rw [hhead]; omega), hhead,
    Nat.add_sub_cancel_left]

theorem length_replyTo (hstart : 12 ≤ stop) (hle : stop ≤ q.length) :
    (replyTo q stop ip).length = stop + (answerRecord ip).length := by
  rw [replyTo, captiveReply, List.length_append, length_replyTo_head hstart hle _ rfl]

/-! ## The reply, decoded -/

theorem readQuestion_replyTo {question : Dns.Question} {next limit : Nat}
    (hq : Dns.FirstQuestion 63 q question next) (hlimit : Dns.wireLength question.name ≤ limit) :
    Dns.readQuestion limit (replyTo q (next + 4) ip) 12 = some (question, next + 4) := by
  obtain ⟨hname, hle, htype, hclass⟩ := hq
  have hstart := hname.next_bounds.1
  have hsame : ∀ i, 12 ≤ i → i < next + 4 → (replyTo q (next + 4) ip)[i]? = q[i]? :=
    fun i hi hlt => getElem?_replyTo_question hle hi hlt
  have hread := Dns.readName_of_nameAt
    (hname.congr fun i hi hlt => hsame i hi (by omega)) hlimit
  rw [Dns.readQuestion, hread]
  show (if _ then _ else _) = _
  rw [if_pos (by rw [length_replyTo (by omega) hle]; omega),
    Dns.be16At_congr (hsame next (by omega) (by omega)) (hsame (next + 1) (by omega) (by omega)),
    Dns.be16At_congr (hsame (next + 2) (by omega) (by omega))
      (hsame (next + 2 + 1) (by omega) (by omega)), ← htype, ← hclass]
  rfl

theorem readRecord_replyTo {question : Dns.Question} {next limit : Nat} (addr : Vector UInt8 4)
    (hq : Dns.FirstQuestion 63 q question next) (hlimit : Dns.wireLength question.name ≤ limit) :
    Dns.readRecord limit (replyTo q (next + 4) (some addr)) (next + 4) =
      some (⟨question.name, 1, 1, 60, addr.toList⟩, next + 4 + 16) := by
  obtain ⟨hname, hle, _⟩ := hq
  have hstart := hname.next_bounds.1
  have hsame : ∀ i, 12 ≤ i → i < next + 4 → (replyTo q (next + 4) (some addr))[i]? = q[i]? :=
    fun i hi hlt => getElem?_replyTo_question hle hi hlt
  have hrecord : ∀ k, (replyTo q (next + 4) (some addr))[next + 4 + k]? =
      (answerRecord (some addr))[k]? := getElem?_replyTo_record (by omega) hle
  have hread := Dns.readName_pointer (hname.congr fun i hi hlt => hsame i hi (by omega)) hlimit
    (hrecord 0) (hrecord 1) (by omega) (by decide)
  have hfield : ∀ k, Dns.be16At (replyTo q (next + 4) (some addr)) (next + 4 + k) =
      Dns.be16At (answerRecord (some addr)) k := fun k => Dns.be16At_congr (hrecord k) (hrecord (k + 1))
  rw [Dns.readRecord, hread]
  show (if _ then _ else _) = _
  have hdata : (replyTo q (next + 4) (some addr)).extract (next + 4 + 12) (next + 4 + 16) =
      addr.toList := by
    have hdrop : (replyTo q (next + 4) (some addr)).drop (next + 4) = answerRecord (some addr) :=
      List.ext_getElem? fun k => by rw [List.getElem?_drop, hrecord]
    rw [List.extract_eq_take_drop, ← List.drop_drop, hdrop,
      show next + 4 + 16 - (next + 4 + 12) = addr.toList.length by
        rw [Vector.length_toList]; omega]
    exact List.take_length
  have hrdlength : Dns.be16At (answerRecord (some addr)) 10 = 4 := (rfl : Dns.be16 0 4 = 4)
  have htype : Dns.be16At (answerRecord (some addr)) 2 = 1 := (rfl : Dns.be16 0 1 = 1)
  have hclass : Dns.be16At (answerRecord (some addr)) 4 = 1 := (rfl : Dns.be16 0 1 = 1)
  have hhigh : Dns.be16At (answerRecord (some addr)) 6 = 0 := (rfl : Dns.be16 0 0 = 0)
  have hlow : Dns.be16At (answerRecord (some addr)) 8 = 60 := (rfl : Dns.be16 0 60 = 60)
  rw [show next + 4 + 0 + 2 + 8 = next + 4 + 10 from rfl, hfield, hrdlength,
    if_pos (by rw [length_replyTo (by omega) hle, length_answerRecord])]
  show some _ = some _
  rw [Dns.be32At, show next + 4 + 0 + 2 = next + 4 + 2 from rfl,
    show next + 4 + 2 + 2 = next + 4 + 4 from rfl, show next + 4 + 2 + 4 = next + 4 + 6 from rfl,
    show next + 4 + 6 + 2 = next + 4 + 8 from rfl, show next + 4 + 2 + 10 = next + 4 + 12 from rfl,
    show next + 4 + 12 + 4 = next + 4 + 16 from rfl, hfield, hfield, hfield, hfield, htype, hclass,
    hhigh, hlow, hdata]

/-- A decoder reads what the reply was built from. -/
theorem decode_replyTo {question : Dns.Question} {next limit : Nat}
    (hq : Dns.FirstQuestion 63 q question next) (hlimit : Dns.wireLength question.name ≤ limit) :
    Dns.decode limit (replyTo q (next + 4) ip) =
      some ⟨Dns.be16At q 0, true, [question], answersOf question.name ip, [], []⟩ := by
  have hstart := hq.1.next_bounds.1
  have hlength : (replyTo q (next + 4) ip).length = _ := length_replyTo (by omega) hq.2.1
  have hquestion : Dns.readQuestion limit (replyTo q (next + 4) ip) 12 = _ :=
    readQuestion_replyTo hq hlimit
  obtain ⟨hid, hresponse, hqdcount, hancount, hnscount, harcount⟩ :=
    replyTo_header (next + 4) ip (Nat.le_trans (by omega) hq.2.1)
  rw [Dns.decode, if_neg (by omega), hid, hresponse, hqdcount, hancount, hnscount, harcount]
  cases ip with
  | none =>
      simp only [Dns.readMany, hquestion]
      exact if_pos hlength.symm
  | some addr =>
      have hrecord := readRecord_replyTo addr hq hlimit
      simp only [Dns.readMany, hquestion, Option.bind_eq_bind, Option.bind_some, Option.pure_def,
        Option.toList_some, List.length_cons, List.length_nil, hrecord]
      exact if_pos (by rw [hlength, length_answerRecord])

end Reply

/-! ## Every datagram -/

/-- A reply read by a decoder is a response with the query's id and question.  Where the
question is for an address, the one record of the answer gives it under the question's
name, and elsewhere there is none. -/
def AnswersQuestion (limit : Nat) (q : Bytes) (question : Dns.Question) (addr : Vector UInt8 4)
    (reply : Bytes) : Prop :=
  ∃ m, Dns.decode limit reply = some m ∧ m.id = Dns.be16At q 0 ∧ m.response = true ∧
    m.questions = [question] ∧ m.answers.length = Dns.be16At reply 6 ∧
    m.answers = if question.qtype = 1 then [⟨question.name, 1, 1, 60, addr.toList⟩] else []

theorem answersQuestion_replyTo {limit : Nat} {q : Bytes} {question : Dns.Question} {next : Nat}
    (addr : Vector UInt8 4) (hq : Dns.FirstQuestion 63 q question next)
    (hlimit : Dns.wireLength question.name ≤ limit) :
    AnswersQuestion limit q question addr
      (replyTo q (next + 4) (if question.qtype = 1 then some addr else none)) := by
  have hstart := hq.1.next_bounds.1
  obtain ⟨_, _, _, hancount, _⟩ := replyTo_header (next + 4)
    (if question.qtype = 1 then some addr else none) (Nat.le_trans (by omega : 2 ≤ next + 4) hq.2.1)
  refine ⟨_, decode_replyTo hq hlimit, rfl, rfl, rfl, ?_, ?_⟩
  · rw [hancount, answersOf, List.length_map]
  · split_ifs <;> rfl

/-- No responder reads or writes out of range, and the captive resolvers' replies to a
query with one well-formed question decode to its answer.  A decoder may limit the
bytes of a name, to 255 as usual or to any number that the question's name keeps to. -/
theorem dns_replies_well_formed (msg out hostname : Bytes) (ip : Vector UInt8 4) :
    (∃ r, CaptiveDns.buildAResponse msg ip = .ok r) ∧ (∃ r, Ap.buildDnsReply msg out = .ok r) ∧
      (∃ r, Mdns.buildResponse msg hostname ip = .ok r) ∧
      ∀ question next limit, Dns.FirstQuestion 63 msg question next →
        Dns.wireLength question.name ≤ limit →
        (∀ reply, CaptiveDns.buildAResponse msg ip = .ok (some reply) →
          AnswersQuestion limit msg question ip reply) ∧
        ∀ n out', Ap.buildDnsReply msg out = .ok (some (n, out')) →
          AnswersQuestion limit msg question Ap.apIp (out'.take n) := by
  refine ⟨?_, ?_, ?_, fun question next limit hq hlimit => ⟨fun reply hreply => ?_,
    fun n out' hrun => ?_⟩⟩
  · rcases CaptiveDns.buildAResponse_cases msg ip with ⟨_, _, _, _, hreply⟩ | ⟨_, hnone⟩
    exacts [⟨_, hreply⟩, ⟨_, hnone⟩]
  · rcases Ap.buildDnsReply_cases msg out with ⟨_, _, _, _, _, _, _, _, hreply⟩ | ⟨_, hnone⟩
    exacts [⟨_, hreply⟩, ⟨_, hnone⟩]
  · rcases Mdns.buildResponse_cases msg hostname ip with ⟨_, _, _, _, hreply⟩ | ⟨_, hnone⟩
    exacts [⟨_, hreply⟩, ⟨_, hnone⟩]
  · rcases CaptiveDns.buildAResponse_cases msg ip with ⟨name, next', _, hq', hrun⟩ | ⟨_, hnone⟩
    · obtain ⟨_, rfl⟩ := hq.1.unique hq'.1
      obtain rfl : replyTo msg (next + 4) (some ip) = reply :=
        Option.some.inj (Except.ok.inj (hrun.symm.trans hreply))
      have htype : question.qtype = 1 := hq.2.2.1.trans hq'.2.2.1.symm
      have hanswer := answersQuestion_replyTo ip hq hlimit
      rwa [if_pos htype] at hanswer
    · exact absurd (hnone.symm.trans hreply) (nomatch ·)
  · rcases Ap.buildDnsReply_cases msg out with
      ⟨question', next', _, _, hq', _, reply, hreply, hrun'⟩ | ⟨_, hnone⟩
    · obtain ⟨_, rfl⟩ := (hq.1.mono (by decide : 63 ≤ 255)).unique hq'.1
      obtain ⟨rfl, rfl⟩ : reply.length = n ∧ reply ++ out.drop reply.length = out' := by
        simpa using hrun'.symm.trans hrun
      have htype : question'.qtype = question.qtype := hq'.2.2.1.trans hq.2.2.1.symm
      rw [List.take_left, hreply, htype]
      exact answersQuestion_replyTo Ap.apIp hq hlimit
    · exact absurd (hnone.symm.trans hrun) (nomatch ·)

/-- A query for the address of the name `a`. -/
def addressQuery : Bytes :=
  [0x12, 0x34, 1, 0, 0, 1, 0, 0, 0, 0, 0, 0, 1, 0x61, 0, 0, 1, 0, 1]

theorem firstQuestion_addressQuery : Dns.FirstQuestion 63 addressQuery ⟨[[0x61]], 1, 1⟩ 15 :=
  ⟨.cons rfl (by decide) (by decide) rfl (.nil rfl), by decide, by decide, by decide⟩

/-- The query is answered, and its answer decodes. -/
theorem dns_reply_to_addressQuery :
    ∃ reply, CaptiveDns.buildAResponse addressQuery Ap.apIp = .ok (some reply) ∧
      AnswersQuestion 255 addressQuery ⟨[[0x61]], 1, 1⟩ Ap.apIp reply := by
  rcases CaptiveDns.buildAResponse_cases addressQuery Ap.apIp with
    ⟨name, next, _, _, hreply⟩ | ⟨hnot, _⟩
  · exact ⟨_, hreply, ((dns_replies_well_formed addressQuery [] [] Ap.apIp).2.2.2 _ _ 255
      firstQuestion_addressQuery (by decide)).1 _ hreply⟩
  · exact absurd firstQuestion_addressQuery (hnot [[0x61]] 15 (by decide))

end WaterController
