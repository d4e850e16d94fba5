import WaterController.Dns.Responders

/-!
# Which datagrams the responders answer

A responder should answer a query with one question that it knows the answer of
(`CaptiveQuery`, `Mdns.Query`).  Each of the three answers these, and each answers
others too: the resolver of the std firmware takes a response for a query, the one
of the no_std firmware looks neither at the class nor at the two top bits of a
length, and the mDNS responder looks neither at the class nor at the response bit.
The main result gives these datagrams exactly.
-/

namespace WaterController

/-! ## The queries -/

/-- What a captive resolver should answer: a query with one question, for the IPv4
address of a well-formed name. -/
def CaptiveQuery (msg : Bytes) : Prop :=
  Dns.isResponse msg = false ∧ Dns.be16At msg 4 = 1 ∧
    ∃ name next, Dns.FirstQuestion 63 msg ⟨name, 1, 1⟩ next

/-- What the mDNS responder should answer: a query whose first question is for the
address of the device's own name.  The top bit of the class asks for a unicast
answer. -/
def Mdns.Query (hostname msg : Bytes) : Prop :=
  Dns.isResponse msg = false ∧ Dns.be16At msg 4 ≠ 0 ∧
    ∃ question next, Dns.FirstQuestion 63 msg question next ∧
      (question.qtype = typeA ∨ question.qtype = typeAny) ∧ question.qclass % 32768 = 1 ∧
      IsLocal hostname question.name

/-! ## The others -/

/-- A response to a query. -/
def CaptiveDns.Misanswered (msg : Bytes) : Prop :=
  Dns.isResponse msg = true ∧ Dns.be16At msg 4 = 1 ∧
    ∃ name next, Dns.FirstQuestion 63 msg ⟨name, 1, 1⟩ next

/-- A query that the output has room for, of another class than IN or with a label of
more than 63 bytes. -/
def Ap.Misanswered (outLen : Nat) (msg : Bytes) : Prop :=
  Dns.isResponse msg = false ∧ Dns.be16At msg 4 = 1 ∧
    ∃ question next, Dns.FirstQuestion 255 msg question next ∧ next + 20 ≤ outLen ∧
      question.qtype = 1 ∧ (question.qclass ≠ 1 ∨ ∃ label ∈ question.name, 63 < label.length)

/-- A response, or a query of another class than IN or of none. -/
def Mdns.Misanswered (hostname msg : Bytes) : Prop :=
  ∃ name next, Asks hostname msg name next ∧
    (Dns.isResponse msg = true ∨ msg.length < next + 4 ∨ Dns.be16At msg (next + 2) % 32768 ≠ 1)

/-! ## Each responder -/

theorem CaptiveDns.answers_queries_iff (msg : Bytes) (ip : Vector UInt8 4) :
    (∀ reply, buildAResponse msg ip = .ok (some reply) → CaptiveQuery msg) ↔ ¬ Misanswered msg := by
  rcases buildAResponse_cases msg ip with ⟨name, next, hcount, hq, hreply⟩ | ⟨hnot, hnone⟩
  · constructor
    · rintro hall ⟨hresponse, _⟩
      exact absurd (hresponse.symm.trans (hall _ hreply).1) (nomatch ·)
    · intro hgood _ _
      rcases Bool.eq_false_or_eq_true (Dns.isResponse msg) with hresponse | hquery
      · exact absurd ⟨hresponse, hcount, name, next, hq⟩ hgood
      · exact ⟨hquery, hcount, name, next, hq⟩
  · refine iff_of_true (fun reply hreply => ?_) ?_
    · exact absurd (hnone.symm.trans hreply) (nomatch ·)
    · rintro ⟨_, hcount, name, next, hq⟩
      exact hnot name next hcount hq

/-- The answer count of a reply. -/
theorem ancount_captiveReply {id : Bytes} (hid : id.length = 2) (question : Bytes)
    (ip : Option (Vector UInt8 4)) :
    Dns.be16At (captiveReply id question ip) 6 = if ip.isSome then 1 else 0 := by
  obtain ⟨id0, id1, rfl⟩ := List.length_eq_two.mp hid
  cases ip with
  | none => exact (rfl : Dns.be16 0 0 = 0)
  | some => exact (rfl : Dns.be16 0 1 = 1)

theorem Ap.answers_queries_iff (msg out : Bytes) :
    (∀ n out', buildDnsReply msg out = .ok (some (n, out')) → Dns.be16At (out'.take n) 6 = 1 →
      CaptiveQuery msg) ↔ ¬ Misanswered out.length msg := by
  rcases buildDnsReply_cases msg out with
    ⟨question, next, hcount, hquery, hq, hroom, reply, hreply, hrun⟩ | ⟨hnot, hnone⟩
  · have hid : (msg.extract 0 2).length = 2 := by
      have hlt := hq.1.pos_lt
      rw [List.extract_eq_take_drop, List.length_take, List.length_drop]
      omega
    have hancount := ancount_captiveReply hid (msg.extract 12 (next + 4))
      (if question.qtype = 1 then some apIp else none)
    rw [← hreply] at hancount
    constructor
    · rintro hall ⟨_, _, question', next', hq', _, htype, hwrong⟩
      -- the two questions are one
      obtain ⟨hname, rfl⟩ := hq.1.unique hq'.1
      have htype' : question.qtype = 1 := by rw [hq.2.2.1, ← hq'.2.2.1, htype]
      rw [if_pos htype'] at hancount
      obtain ⟨_, _, name, next'', hgood⟩ := hall _ _ hrun (by rw [List.take_left]; exact hancount)
      obtain ⟨hname', rfl⟩ := (hgood.1.mono (by decide : 63 ≤ 255)).unique hq'.1
      rcases hwrong with hclass | ⟨label, hmem, hlong⟩
      · exact hclass (hq'.2.2.2.trans hgood.2.2.2.symm)
      · have hle := (hgood.1.labels label (hname' ▸ hmem)).2
        omega
    · intro hgood n out' hrun' hone
      obtain ⟨rfl, rfl⟩ : reply.length = n ∧ reply ++ out.drop reply.length = out' := by
        simpa using hrun.symm.trans hrun'
      rw [List.take_left, hancount] at hone
      have htype : question.qtype = 1 := by
        by_contra htype
        rw [if_neg htype] at hone
        exact absurd hone (by decide)
      have hright : question.qclass = 1 ∧ ∀ label ∈ question.name, label.length ≤ 63 := by
        by_contra hwrong
        refine hgood ⟨hquery, hcount, question, next, hq, hroom, htype, ?_⟩
        by_cases hclass : question.qclass = 1
        · refine .inr ?_
          by_contra hshort
          exact hwrong ⟨hclass, fun label hmem => not_lt.mp fun hlt => hshort ⟨label, hmem, hlt⟩⟩
        · exact .inl hclass
      exact ⟨hquery, hcount, question.name, next, hq.1.of_labels hright.2, hq.2.1,
        htype.symm.trans hq.2.2.1, hright.1.symm.trans hq.2.2.2⟩
  · refine iff_of_true (fun n out' hrun => ?_) ?_
    · exact absurd (hnone.symm.trans hrun) (nomatch ·)
    · rintro ⟨hquery, hcount, question, next, hq, hroom, _⟩
      have hlt := hnot question next hcount hquery hq
      omega

theorem Mdns.answers_queries_iff (msg hostname : Bytes) (ip : Vector UInt8 4) :
    (∀ reply, buildResponse msg hostname ip = .ok (some reply) → Query hostname msg) ↔
      ¬ Misanswered hostname msg := by
  rcases buildResponse_cases msg hostname ip with
    ⟨name, next, hasks, reply, hreply⟩ | ⟨hnot, hnone⟩
  · constructor
    · rintro hall ⟨name', next', hasks', hwrong⟩
      obtain ⟨hquery, _, question, next'', hq, _, hclass, _⟩ := hall reply hreply
      obtain ⟨_, rfl⟩ := hq.1.unique hasks'.2.1
      rcases hwrong with hresponse | hcut | hclass'
      · exact absurd (hresponse.symm.trans hquery) (nomatch ·)
      · exact absurd hq.2.1 (Nat.not_le.mpr hcut)
      · exact hclass' (hq.2.2.2 ▸ hclass)
    · intro hgood _ _
      have hright : Dns.isResponse msg = false ∧ next + 4 ≤ msg.length ∧
          Dns.be16At msg (next + 2) % 32768 = 1 := by
        refine ⟨?_, ?_, ?_⟩
        · by_contra hresponse
          exact hgood ⟨name, next, hasks, .inl (Bool.not_eq_false _ ▸ hresponse)⟩
        · by_contra hcut
          exact hgood ⟨name, next, hasks, .inr (.inl (not_le.mp hcut))⟩
        · by_contra hclass
          exact hgood ⟨name, next, hasks, .inr (.inr hclass)⟩
      obtain ⟨hcount, hname, _, htype, hlocal⟩ := hasks
      exact ⟨hright.1, hcount, ⟨name, _, _⟩, next, ⟨hname, hright.2.1, rfl, rfl⟩, htype,
        hright.2.2, hlocal⟩
  · refine iff_of_true (fun reply hreply => ?_) ?_
    · exact absurd (hnone.symm.trans hreply) (nomatch ·)
    · rintro ⟨name, next, hasks, _⟩
      exact hnot name next hasks

/-- The responders answer nothing but the queries they should, except for the
datagrams that each of them answers by mistake. -/
theorem responders_answer_queries_iff (msg out hostname : Bytes) (ip : Vector UInt8 4) :
    ((∀ reply, CaptiveDns.buildAResponse msg ip = .ok (some reply) → CaptiveQuery msg) ↔
      ¬ CaptiveDns.Misanswered msg) ∧
    ((∀ n out', Ap.buildDnsReply msg out = .ok (some (n, out')) →
        Dns.be16At (out'.take n) 6 = 1 → CaptiveQuery msg) ↔
      ¬ Ap.Misanswered out.length msg) ∧
    ((∀ reply, Mdns.buildResponse msg hostname ip = .ok (some reply) → Mdns.Query hostname msg) ↔
      ¬ Mdns.Misanswered hostname msg) :=
  ⟨CaptiveDns.answers_queries_iff msg ip, Ap.answers_queries_iff msg out,
    Mdns.answers_queries_iff msg hostname ip⟩

/-! ## A response that is answered -/

/-- A response for the root name. -/
def rootResponse : Bytes :=
  [0x12, 0x34, 0x81, 0x80, 0, 1, 0, 0, 0, 0, 0, 0, 0, 0, 1, 0, 1]

theorem firstQuestion_rootResponse : Dns.FirstQuestion 63 rootResponse ⟨[], 1, 1⟩ 13 :=
  ⟨.nil rfl, by decide, by decide, by decide⟩

/-- The std firmware answers a response. -/
theorem not_responders_answer_queries_only :
    ¬ ∀ (msg : Bytes) (ip : Vector UInt8 4) (reply : Bytes),
      CaptiveDns.buildAResponse msg ip = .ok (some reply) → CaptiveQuery msg := by
  intro hall
  rcases CaptiveDns.buildAResponse_cases rootResponse Ap.apIp with ⟨_, _, _, _, hreply⟩ | ⟨hnot, _⟩
  · exact absurd (hall _ _ _ hreply).1 (by decide)
  · exact hnot [] 13 (by decide) firstQuestion_rootResponse

end WaterController
