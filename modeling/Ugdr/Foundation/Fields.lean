import Ugdr.Foundation.Codec

/-! # Fields behind each other

A string of numbers of known widths in network byte order, and the numbers at an offset of a
buffer. Nothing here names a particular program.
-/

namespace Ugdr

namespace Wire

open Checked

/-- Numbers with their widths, one behind the other. -/
def encodeFields : List (Nat × Nat) → Bytes
  | [] => []
  | (width, value) :: fields => encode width value ++ encodeFields fields

/-- The numbers of these widths from an offset on. -/
def fieldsAt (bytes : Bytes) : Nat → List Nat → List Nat
  | _, [] => []
  | offset, width :: widths =>
      decode (chunk bytes offset width) :: fieldsAt bytes (offset + width) widths

@[simp] theorem length_encodeFields (fields : List (Nat × Nat)) :
    (encodeFields fields).length = (fields.map Prod.fst).sum := by
  induction fields with
  | nil => rfl
  | cons field fields induction =>
      rw [encodeFields, List.length_append, length_encode, induction, List.map_cons,
        List.sum_cons]

/-- Writing the numbers that were read. -/
theorem encodeFields_fieldsAt {bytes : Bytes} {offset : Nat} {widths : List Nat}
    (inside : offset + widths.sum ≤ bytes.length) :
    encodeFields (widths.zip (fieldsAt bytes offset widths)) = chunk bytes offset widths.sum := by
  induction widths generalizing offset with
  | nil => rfl
  | cons width widths induction =>
      rw [List.sum_cons] at inside ⊢
      have first : offset + width ≤ bytes.length := by omega
      rw [fieldsAt, List.zip_cons_cons, encodeFields, induction (by omega),
        encode_decode_of_length (length_chunk first), chunk_append]

/-- Reading the numbers that were written. -/
theorem fieldsAt_encodeFields {fields : List (Nat × Nat)}
    (fits : ∀ field ∈ fields, field.2 < 256 ^ field.1) (before rest : Bytes) :
    fieldsAt (before ++ (encodeFields fields ++ rest)) before.length (fields.map Prod.fst) =
      fields.map Prod.snd := by
  induction fields generalizing before with
  | nil => rfl
  | cons field fields induction =>
      obtain ⟨width, value⟩ := field
      have small := fits (width, value) (List.mem_cons_self ..)
      have later := induction (fun field member => fits field (List.mem_cons_of_mem _ member))
        (before ++ encode width value)
      rw [List.length_append, length_encode, List.append_assoc, ← List.append_assoc (encode ..)]
        at later
      have here : chunk (before ++ (encode width value ++ encodeFields fields ++ rest))
          before.length width = encode width value := by
        rw [chunk, List.drop_left' rfl, List.append_assoc, List.take_left' (length_encode ..)]
      rw [List.map_cons, List.map_cons, fieldsAt, encodeFields, here, decode_encode small, later]

theorem chunk_whole (bytes : Bytes) : chunk bytes 0 bytes.length = bytes := by
  rw [chunk, List.drop_zero, List.take_length]

/-- A string that is made of these fields and nothing else. -/
theorem encodeFields_whole {bytes : Bytes} {widths : List Nat}
    (size : bytes.length = widths.sum) :
    encodeFields (widths.zip (fieldsAt bytes 0 widths)) = bytes := by
  rw [encodeFields_fieldsAt (by omega), ← size, chunk_whole]

theorem encodeFields_of_fieldsAt {bytes : Bytes} {widths values : List Nat}
    (size : bytes.length = widths.sum) (same : fieldsAt bytes 0 widths = values) :
    encodeFields (widths.zip values) = bytes := by
  rw [← same, encodeFields_whole size]

theorem fieldsAt_whole {widths values : List Nat} (same : widths.length = values.length)
    (fits : ∀ field ∈ widths.zip values, field.2 < 256 ^ field.1) :
    fieldsAt (encodeFields (widths.zip values)) 0 widths = values := by
  have read := fieldsAt_encodeFields fits [] []
  rwa [List.append_nil, List.map_fst_zip (by omega), List.map_snd_zip (by omega)] at read

theorem length_encodeFields_zip {widths values : List Nat}
    (same : widths.length = values.length) :
    (encodeFields (widths.zip values)).length = widths.sum := by
  rw [length_encodeFields, List.map_fst_zip (by omega)]

theorem fieldsAt_lt {bytes : Bytes} {offset : Nat} {widths : List Nat}
    (inside : offset + widths.sum ≤ bytes.length) :
    ∀ field ∈ widths.zip (fieldsAt bytes offset widths), field.2 < 256 ^ field.1 := by
  induction widths generalizing offset with
  | nil => nofun
  | cons width widths induction =>
      rw [List.sum_cons] at inside
      intro field member
      rw [fieldsAt, List.zip_cons_cons] at member
      rcases List.mem_cons.mp member with rfl | later
      · have bound := decode_lt (chunk bytes offset width)
        rwa [length_chunk (by omega)] at bound
      · exact induction (by omega) field later

end Wire

namespace Codec

open Wire

variable {Error Value : Type} {codec : Codec Error Value} {carried : Value → Value}

/-- The numbers of a value fit their fields. -/
def Fits (widths : List Nat) (fields : Value → List Nat) (value : Value) : Prop :=
  ∀ field ∈ widths.zip (fields value), field.2 < 256 ^ field.1

/-- A codec of fixed fields is lawful when the reader gives back the value with these fields
and refuses all else. -/
theorem Lawful.of_fields {reader : Bytes → Option Value → Checked Error Value}
    {widths : List Nat} {fields : Value → List Nat}
    (assigns : ∀ bytes output, codec.decode bytes output = .assign (reader bytes output) output)
    (count : ∀ value, widths.length = (fields value).length)
    (written : ∀ value bytes, codec.encode value = .ok bytes →
      bytes = encodeFields (widths.zip (fields value)))
    (reads : ∀ value bytes output, codec.encode value = .ok bytes →
      bytes.length = widths.sum → fieldsAt bytes 0 widths = fields value →
      reader bytes (some output) = .ok (carried value))
    (only : ∀ bytes output, (∃ error, reader bytes output = Checked.fail error) ∨
      ∃ value, reader bytes output = .ok value ∧ bytes.length = widths.sum ∧
        fieldsAt bytes 0 widths = fields value ∧ carried value = value ∧
        ∃ encoded, codec.encode value = .ok encoded) :
    codec.Lawful (Fits widths fields) carried := by
  refine .of_reader assigns (fun value bytes output fits encoded => ?_) (fun bytes output => ?_)
  · have same := written value bytes encoded
    refine reads value bytes output encoded ?_ ?_
    · rw [same, length_encodeFields_zip (count value)]
    · rw [same, fieldsAt_whole (count value) fits]
  · refine (only bytes output).imp_right ?_
    rintro ⟨value, read, size, same, kept, encoded, encodes⟩
    have fits : Fits widths fields value := by
      intro field member
      rw [← same] at member
      exact fieldsAt_lt (by omega) field member
    refine ⟨value, read, fits, kept, ?_⟩
    rw [encodes, written _ _ encodes, encodeFields_of_fieldsAt size same]

end Codec

end Ugdr
