import Mathlib.Data.List.Basic

/-!
# Tagged options

A field of options is a list of bytes.  Each option has a code, a length and as many
bytes of data.  The code 0 pads, and the code 255 ends the field.

`options` reads a field from the front, whatever its bytes are, and says how it ended.
`options_encode` says that it reads back what is written.
-/

namespace Tlv

/-- An option, with the data that is there. -/
structure Opt where
  code : UInt8
  /-- The announced length. -/
  len : Nat
  data : List UInt8
deriving DecidableEq, Repr

/-- An option with all of its data. -/
def Opt.of (code : UInt8) (data : List UInt8) : Opt := ⟨code, data.length, data⟩

/-- How a field ends: with the code for it and the bytes behind, or cut off. -/
inductive Ending where
  | closed (rest : List UInt8)
  | cut
deriving DecidableEq, Repr

/-- The options of a field and its ending. -/
def options : List UInt8 → List Opt × Ending
  | [] => ([], .cut)
  | code :: rest =>
      if code = 255 then ([], .closed rest)
      else if code = 0 then options rest
      else
        match rest with
        | [] => ([], .cut)
        | len :: rest =>
            let more := options (rest.drop len.toNat)
            (⟨code, len.toNat, rest.take len.toNat⟩ :: more.1, more.2)
termination_by bytes => bytes.length
decreasing_by
  all_goals simp only [List.length_cons, List.length_drop]
  all_goals omega

theorem options_nil : options [] = ([], .cut) := by rw [options]

theorem options_closed (rest : List UInt8) : options (255 :: rest) = ([], .closed rest) := by
  rw [options.eq_def]
  exact if_pos rfl

theorem options_pad (rest : List UInt8) : options (0 :: rest) = options rest := by
  rw [options.eq_def]
  exact (if_neg (by decide)).trans (if_pos rfl)

/-- An option without a length is none. -/
theorem options_singleton {code : UInt8} (h : code ≠ 255) : options [code] = ([], .cut) := by
  rw [options, if_neg h, options_nil]
  split_ifs <;> rfl

theorem options_cons {code : UInt8} (hend : code ≠ 255) (hpad : code ≠ 0) (len : UInt8)
    (rest : List UInt8) : options (code :: len :: rest) =
      (⟨code, len.toNat, rest.take len.toNat⟩ :: (options (rest.drop len.toNat)).1,
        (options (rest.drop len.toNat)).2) := by
  rw [options, if_neg hend, if_neg hpad]

/-- The bytes of an option. -/
def encode (code : UInt8) (data : List UInt8) : List UInt8 :=
  code :: UInt8.ofNat data.length :: data

/-- An option is read back, in front of others. -/
theorem options_encode_append {code : UInt8} {data : List UInt8} (hend : code ≠ 255)
    (hpad : code ≠ 0) (hlen : data.length < 256) (rest : List UInt8) :
    options (encode code data ++ rest) = (.of code data :: (options rest).1, (options rest).2) := by
  have hlength : (UInt8.ofNat data.length).toNat = data.length := by
    rw [UInt8.toNat_ofNat']
    exact Nat.mod_eq_of_lt hlen
  rw [encode, List.cons_append, List.cons_append, options_cons hend hpad, hlength, List.take_left,
    List.drop_left]
  rfl

/-- Options that are written are read back, up to the end of their field. -/
theorem options_encode {opts : List (UInt8 × List UInt8)}
    (h : ∀ o ∈ opts, o.1 ≠ 255 ∧ o.1 ≠ 0 ∧ o.2.length < 256) (rest : List UInt8) :
    options ((opts.flatMap fun o => encode o.1 o.2) ++ 255 :: rest) =
      (opts.map fun o => .of o.1 o.2, .closed rest) := by
  induction opts with
  | nil => exact options_closed rest
  | cons o opts ih =>
      obtain ⟨⟨hend, hpad, hlen⟩, hopts⟩ := List.forall_mem_cons.mp h
      rw [List.flatMap_cons, List.append_assoc, options_encode_append hend hpad hlen, ih hopts]
      rfl

end Tlv
