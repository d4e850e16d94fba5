import Mathlib.Data.List.Basic
import Mathlib.Tactic.Common

/-!
# The wire format of DNS

A name is a list of labels.  On the wire each label has its length in front, and
an empty label ends the name.  A reader of a message also follows *pointers*, two
bytes that continue a name at an earlier place of the message.

`NameAt` says that a name is written out at a place, and `readName` reads the
names that are (`readName_of_nameAt`) and the pointers to them (`readName_pointer`).
`decode` reads a whole message, with a limit on the bytes of a name, and takes no
message with bytes left over.
-/

namespace Dns

/-! ## Names -/

/-- A name, as its labels. -/
abbrev Name := List (List UInt8)

/-- The bytes of a name on the wire, without pointers. -/
def wireLength : Name → Nat
  | [] => 1
  | label :: name => label.length + 1 + wireLength name

@[simp] theorem wireLength_nil : wireLength [] = 1 := rfl

@[simp] theorem wireLength_cons (label : List UInt8) (name : Name) :
    wireLength (label :: name) = label.length + 1 + wireLength name := rfl

/-- A name whose labels have 1 to `maxLabel` bytes is written out at a place of a
message, up to another place. -/
inductive NameAt (maxLabel : Nat) (msg : List UInt8) : Nat → Name → Nat → Prop where
  | nil {pos : Nat} (hbyte : msg[pos]? = some 0) : NameAt maxLabel msg pos [] (pos + 1)
  | cons {pos next : Nat} {b : UInt8} {label : List UInt8} {name : Name}
      (hbyte : msg[pos]? = some b) (hne : b ≠ 0) (hle : b.toNat ≤ maxLabel)
      (hlabel : label = msg.extract (pos + 1) (pos + 1 + b.toNat))
      (hrest : NameAt maxLabel msg (pos + 1 + b.toNat) name next) :
      NameAt maxLabel msg pos (label :: name) next

namespace NameAt

variable {maxLabel : Nat} {msg : List UInt8} {pos next : Nat} {name : Name}

theorem mono {maxLabel' : Nat} (h : NameAt maxLabel msg pos name next)
    (hle : maxLabel ≤ maxLabel') : NameAt maxLabel' msg pos name next := by
  induction h with
  | nil hbyte => exact .nil hbyte
  | cons hbyte hne hle' hlabel hrest ih => exact .cons hbyte hne (Nat.le_trans hle' hle) hlabel ih

/-- A name starts inside its message. -/
theorem pos_lt (h : NameAt maxLabel msg pos name next) : pos < msg.length := by
  cases h with
  | nil hbyte | cons hbyte => exact (List.getElem?_eq_some_iff.mp hbyte).1

/-- A name is not empty on the wire and ends inside its message. -/
theorem next_bounds (h : NameAt maxLabel msg pos name next) : pos < next ∧ next ≤ msg.length := by
  induction h with
  | nil hbyte => exact ⟨Nat.lt_succ_self _, (List.getElem?_eq_some_iff.mp hbyte).1⟩
  | cons hbyte hne hle hlabel hrest ih => exact ⟨by omega, ih.2⟩

/-- The bytes at a place make one name. -/
theorem unique {name' : Name} {next' : Nat} (h : NameAt maxLabel msg pos name next)
    (h' : NameAt maxLabel msg pos name' next') : name = name' ∧ next = next' := by
  induction h generalizing name' next' with
  | nil hbyte =>
      cases h' with
      | nil => exact ⟨rfl, rfl⟩
      | cons hbyte' hne' => exact absurd (Option.some.inj (hbyte'.symm.trans hbyte)) hne'
  | cons hbyte hne hle hlabel hrest ih =>
      cases h' with
      | nil hbyte' => exact absurd (Option.some.inj (hbyte.symm.trans hbyte')) hne
      | cons hbyte' hne' hle' hlabel' hrest' =>
          obtain rfl := Option.some.inj (hbyte.symm.trans hbyte')
          obtain ⟨rfl, rfl⟩ := ih hrest'
          exact ⟨by rw [hlabel, hlabel'], rfl⟩

/-- A zero byte is the end of a name. -/
theorem of_zero (hbyte : msg[pos]? = some 0) :
    NameAt maxLabel msg pos name next ↔ name = [] ∧ next = pos + 1 := by
  constructor
  · intro h
    exact h.unique (.nil hbyte)
  · rintro ⟨rfl, rfl⟩
    exact .nil hbyte

/-- Another byte starts a label. -/
theorem of_ne_zero {b : UInt8} (hbyte : msg[pos]? = some b) (hne : b ≠ 0) :
    NameAt maxLabel msg pos name next ↔ b.toNat ≤ maxLabel ∧
      ∃ rest, name = msg.extract (pos + 1) (pos + 1 + b.toNat) :: rest ∧
        NameAt maxLabel msg (pos + 1 + b.toNat) rest next := by
  constructor
  · intro h
    cases h with
    | nil hbyte' => exact absurd (Option.some.inj (hbyte.symm.trans hbyte')) hne
    | cons hbyte' hne' hle hlabel hrest =>
        obtain rfl := Option.some.inj (hbyte.symm.trans hbyte')
        exact ⟨hle, _, by rw [hlabel], hrest⟩
  · rintro ⟨hle, rest, rfl, hrest⟩
    exact .cons hbyte hne hle rfl hrest

/-- A label has as many bytes as its length says. -/
theorem length_label {msg : List UInt8} {pos : Nat} {b : UInt8}
    (h : pos + 1 + b.toNat ≤ msg.length) :
    (msg.extract (pos + 1) (pos + 1 + b.toNat)).length = b.toNat := by
  rw [List.extract_eq_take_drop, List.length_take, List.length_drop]
  omega

theorem labels (h : NameAt maxLabel msg pos name next) :
    ∀ label ∈ name, 0 < label.length ∧ label.length ≤ maxLabel := by
  induction h with
  | nil hbyte => exact fun label hmem => absurd hmem List.not_mem_nil
  | cons hbyte hne hle hlabel hrest ih =>
      intro label hmem
      rcases List.mem_cons.mp hmem with rfl | hmem
      · rw [hlabel, length_label (Nat.le_of_lt hrest.pos_lt)]
        exact ⟨Nat.pos_of_ne_zero fun hzero => hne (UInt8.toNat_inj.mp hzero), hle⟩
      · exact ih label hmem

/-- The labels of a name may be longer by another bound where they are not. -/
theorem of_labels {maxLabel' : Nat} (h : NameAt maxLabel msg pos name next)
    (hlabels : ∀ label ∈ name, label.length ≤ maxLabel') : NameAt maxLabel' msg pos name next := by
  induction h with
  | nil hbyte => exact .nil hbyte
  | cons hbyte hne hle hlabel hrest ih =>
      obtain ⟨hhead, htail⟩ := List.forall_mem_cons.mp hlabels
      rw [hlabel, length_label (Nat.le_of_lt hrest.pos_lt)] at hhead
      exact .cons hbyte hne hhead hlabel (ih htail)

/-- A name depends on its own bytes only. -/
theorem congr {msg' : List UInt8} (h : NameAt maxLabel msg pos name next)
    (hsame : ∀ i, pos ≤ i → i < next → msg'[i]? = msg[i]?) : NameAt maxLabel msg' pos name next := by
  induction h with
  | nil hbyte => exact .nil ((hsame _ (Nat.le_refl _) (Nat.lt_succ_self _)).trans hbyte)
  | @cons pos next b label name hbyte hne hle hlabel hrest ih =>
      have hend := hrest.next_bounds.1
      refine .cons ((hsame pos (Nat.le_refl _) (by omega)).trans hbyte) hne hle (hlabel.trans ?_)
        (ih fun i hi hlt => hsame i (by omega) hlt)
      rw [List.extract_eq_take_drop, List.extract_eq_take_drop]
      refine List.ext_getElem? fun k => ?_
      rw [List.getElem?_take, List.getElem?_take]
      split_ifs with hk
      · rw [List.getElem?_drop, List.getElem?_drop]
        exact (hsame _ (by omega) (by omega)).symm
      · rfl

/-- A name ends behind its bytes. -/
theorem next_eq (h : NameAt maxLabel msg pos name next) : next = pos + wireLength name := by
  induction h with
  | nil hbyte => rfl
  | cons hbyte hne hle hlabel hrest ih =>
      rw [wireLength_cons, hlabel, length_label (Nat.le_of_lt hrest.pos_lt), ih]
      omega

end NameAt

/-! ## Reading a name -/

/-- Read the name at a place, of at most `limit` bytes, and the place behind it.  A
pointer has to point back. -/
def readName (msg : List UInt8) (limit pos : Nat) : Option (Name × Nat) :=
  match msg[pos]? with
  | none => none
  | some b =>
      if b.toNat = 0 then if 1 ≤ limit then some ([], pos + 1) else none
      else if b.toNat < 64 then
        if b.toNat + 1 ≤ limit then do
          let (name, next) ← readName msg (limit - (b.toNat + 1)) (pos + 1 + b.toNat)
          return (msg.extract (pos + 1) (pos + 1 + b.toNat) :: name, next)
        else none
      else if b.toNat < 192 then none
      else
        match msg[pos + 1]? with
        | none => none
        | some c =>
            let target := (b.toNat - 192) * 256 + c.toNat
            if target < pos then do
              let (name, _) ← readName msg limit target
              return (name, pos + 2)
            else none
termination_by (limit, pos)

/-- A name that is written out is read. -/
theorem readName_of_nameAt {msg : List UInt8} {limit pos next : Nat} {name : Name}
    (h : NameAt 63 msg pos name next) (hlimit : wireLength name ≤ limit) :
    readName msg limit pos = some (name, next) := by
  induction h generalizing limit with
  | nil hbyte =>
      rw [readName, hbyte]
      exact if_pos hlimit
  | @cons pos next b label name hbyte hne hle hlabel hrest ih =>
      have hlength := NameAt.length_label (Nat.le_of_lt hrest.pos_lt)
      rw [wireLength_cons, hlabel, hlength] at hlimit
      have hzero : ¬ b.toNat = 0 := fun hzero => hne (UInt8.toNat_inj.mp hzero)
      rw [readName, hbyte]
      simp only
      rw [if_neg hzero, if_pos (by omega), if_pos (by omega), ih (by omega), hlabel]
      rfl

/-- A pointer back to a name that is written out is that name. -/
theorem readName_pointer {msg : List UInt8} {limit pos target next : Nat} {name : Name}
    (h : NameAt 63 msg target name next) (hlimit : wireLength name ≤ limit)
    (hmark : msg[pos]? = some 0xC0) (hbyte : msg[pos + 1]? = some (UInt8.ofNat target))
    (hback : target < pos) (hsmall : target < 256) :
    readName msg limit pos = some (name, pos + 2) := by
  have htarget : (UInt8.ofNat target).toNat = target :=
    UInt8.toNat_ofNat_of_lt' (by simp only [UInt8.size]; omega)
  rw [readName, hmark, hbyte]
  simp only
  rw [if_neg (by decide), if_neg (by decide), if_neg (by decide), htarget,
    show (192 : UInt8).toNat - 192 = 0 from rfl, Nat.zero_mul, Nat.zero_add, if_pos hback,
    readName_of_nameAt h hlimit]
  rfl

/-! ## Messages -/

/-- Two bytes, the high one first. -/
def be16 (high low : UInt8) : Nat := high.toNat * 256 + low.toNat

/-- The number in two bytes of a message. -/
def be16At (msg : List UInt8) (pos : Nat) : Nat := be16 (msg.getD pos 0) (msg.getD (pos + 1) 0)

theorem be16At_congr {msg msg' : List UInt8} {pos pos' : Nat} (h0 : msg'[pos']? = msg[pos]?)
    (h1 : msg'[pos' + 1]? = msg[pos + 1]?) : be16At msg' pos' = be16At msg pos := by
  rw [be16At, be16At, List.getD_eq_getElem?_getD, List.getD_eq_getElem?_getD, h0, h1,
    List.getD_eq_getElem?_getD, List.getD_eq_getElem?_getD]

/-- The number in four bytes of a message. -/
def be32At (msg : List UInt8) (pos : Nat) : Nat := be16At msg pos * 65536 + be16At msg (pos + 2)

/-- The top bit of the flags, which makes a message a response. -/
def isResponse (msg : List UInt8) : Bool := 128 ≤ (msg.getD 2 0).toNat

/-- A question.  Type 1 is an IPv4 address and class 1 the internet. -/
structure Question where
  name : Name
  qtype : Nat
  qclass : Nat
deriving DecidableEq, Repr

/-- A resource record. -/
structure Record where
  owner : Name
  rtype : Nat
  rclass : Nat
  ttl : Nat
  data : List UInt8
deriving DecidableEq, Repr

/-- A message. -/
structure Message where
  id : Nat
  response : Bool
  questions : List Question
  answers : List Record
  authorities : List Record
  additionals : List Record
deriving DecidableEq, Repr

def readQuestion (limit : Nat) (msg : List UInt8) (pos : Nat) : Option (Question × Nat) := do
  let (name, pos) ← readName msg limit pos
  if pos + 4 ≤ msg.length then
    return (⟨name, be16At msg pos, be16At msg (pos + 2)⟩, pos + 4)
  else none

def readRecord (limit : Nat) (msg : List UInt8) (pos : Nat) : Option (Record × Nat) := do
  let (owner, pos) ← readName msg limit pos
  let stop := pos + 10 + be16At msg (pos + 8)
  if stop ≤ msg.length then
    return (⟨owner, be16At msg pos, be16At msg (pos + 2), be32At msg (pos + 4),
      msg.extract (pos + 10) stop⟩, stop)
  else none

/-- Read as many items as a count says. -/
def readMany {α : Type} (read : Nat → Option (α × Nat)) : Nat → Nat → Option (List α × Nat)
  | 0, pos => some ([], pos)
  | count + 1, pos => do
      let (item, pos) ← read pos
      let (items, pos) ← readMany read count pos
      return (item :: items, pos)

/-- Read a message, with a limit on the bytes of a name. -/
def decode (limit : Nat) (msg : List UInt8) : Option Message :=
  if msg.length < 12 then none
  else do
    let (questions, pos) ← readMany (readQuestion limit msg) (be16At msg 4) 12
    let (answers, pos) ← readMany (readRecord limit msg) (be16At msg 6) pos
    let (authorities, pos) ← readMany (readRecord limit msg) (be16At msg 8) pos
    let (additionals, pos) ← readMany (readRecord limit msg) (be16At msg 10) pos
    if pos = msg.length then
      return ⟨be16At msg 0, isResponse msg, questions, answers, authorities, additionals⟩
    else none

/-- The first question of a message is written out, in labels of at most `maxLabel`
bytes, up to a place. -/
def FirstQuestion (maxLabel : Nat) (msg : List UInt8) (question : Question) (next : Nat) : Prop :=
  NameAt maxLabel msg 12 question.name next ∧ next + 4 ≤ msg.length ∧
    question.qtype = be16At msg next ∧ question.qclass = be16At msg (next + 2)

end Dns
