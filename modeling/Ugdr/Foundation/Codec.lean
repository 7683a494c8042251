import Ugdr.Foundation.Checked

/-! # Codecs

An encoder that may refuse a value, and a decoder that assigns what it has read to an output.
A lawful codec is a bijection between the values it carries and the strings it accepts.
Nothing here names a particular program.
-/

namespace Ugdr

open Wire

variable {Error Value : Type}

/-- What a decoder returned and what its output holds afterwards. A null pointer holds
nothing. -/
structure Decoded (Error Value : Type) where
  returned : Checked Error Unit
  output : Option Value
  deriving DecidableEq, Repr

/-- The output is assigned at the end, when nothing before has failed. -/
def Decoded.assign (computed : Checked Error Value) (output : Option Value) :
    Decoded Error Value :=
  match computed with
  | .ok value => ⟨.ok (), some value⟩
  | .error failure => ⟨.error failure, output⟩

theorem Decoded.assign_eq_ok_iff {computed : Checked Error Value} {output value : Option Value} :
    assign computed output = ⟨.ok (), value⟩ ↔
      ∃ read, computed = .ok read ∧ value = some read := by
  cases computed with
  | ok read =>
      constructor
      · intro assigned
        injection assigned with _ same
        exact ⟨read, rfl, same.symm⟩
      · rintro ⟨other, same, rfl⟩
        injection same with same
        rw [same]
        rfl
  | error failure =>
      constructor
      · intro assigned
        injection assigned with returned _
        cases returned
      · rintro ⟨_, same, _⟩
        cases same

theorem Decoded.assign_returned {computed : Checked Error Value} {output : Option Value}
    (safe : computed.Safe) : (assign computed output).returned.Safe := by
  cases computed with
  | ok value => exact Checked.safe_ok ()
  | error failure =>
      cases failure with
      | outOfBounds => exact absurd rfl safe.1
      | overflow => exact absurd rfl safe.2
      | failed error => exact Checked.safe_fail error

theorem Decoded.assign_unwritten {computed : Checked Error Value} {output : Option Value}
    (failed : (assign computed output).returned ≠ .ok ()) :
    (assign computed output).output = output := by
  cases computed with
  | ok value => exact absurd rfl failed
  | error failure => rfl

structure Codec (Error Value : Type) where
  encode : Value → Except Error Bytes
  decode : Bytes → Option Value → Decoded Error Value

namespace Codec

variable {codec : Codec Error Value} {fits : Value → Prop} {carried : Value → Value}

/-- Encoding and decoding are inverse on the values that fit, up to the fields that the
format does not carry, and decoding is safe on all other strings. -/
structure Lawful (codec : Codec Error Value) (fits : Value → Prop)
    (carried : Value → Value) : Prop where
  roundTrip : ∀ value bytes output, fits value → codec.encode value = .ok bytes →
    codec.decode bytes (some output) = ⟨.ok (), some (carried value)⟩
  canonical : ∀ bytes output value, codec.decode bytes output = ⟨.ok (), some value⟩ →
    fits value ∧ carried value = value ∧ codec.encode value = .ok bytes
  safe : ∀ bytes output, (codec.decode bytes output).returned.Safe
  unwritten : ∀ bytes output, (codec.decode bytes output).returned ≠ .ok () →
    (codec.decode bytes output).output = output

/-- A decoder that assigns what a reader returns is lawful when the reader succeeds on the
encodings of the carried values, and on nothing else. -/
theorem Lawful.of_reader {reader : Bytes → Option Value → Checked Error Value}
    (assigns : ∀ bytes output, codec.decode bytes output = .assign (reader bytes output) output)
    (reads : ∀ value bytes output, fits value → codec.encode value = .ok bytes →
      reader bytes (some output) = .ok (carried value))
    (only : ∀ bytes output, (∃ error, reader bytes output = Checked.fail error) ∨
      ∃ value, reader bytes output = .ok value ∧
        fits value ∧ carried value = value ∧ codec.encode value = .ok bytes) :
    codec.Lawful fits carried where
  roundTrip value bytes output fitting encoded := by
    rw [assigns]
    exact Decoded.assign_eq_ok_iff.mpr ⟨_, reads value bytes output fitting encoded, rfl⟩
  canonical bytes output value decoded := by
    rw [assigns] at decoded
    obtain ⟨read, returned, same⟩ := Decoded.assign_eq_ok_iff.mp decoded
    injection same with same
    rw [same]
    rcases only bytes output with ⟨error, failed⟩ | ⟨found, here, holds⟩
    · rw [failed] at returned
      cases returned
    · rw [here] at returned
      injection returned with returned
      rwa [returned] at holds
  safe bytes output := by
    rw [assigns]
    refine Decoded.assign_returned ?_
    rcases only bytes output with ⟨error, failed⟩ | ⟨value, read, -⟩
    · rw [failed]
      exact Checked.safe_fail error
    · rw [read]
      exact Checked.safe_ok value
  unwritten bytes output failed := by
    rw [assigns] at failed ⊢
    exact Decoded.assign_unwritten failed

/-- A lawful codec, in whose format every value has one string at most. -/
structure Bijective (codec : Codec Error Value) (fits : Value → Prop)
    (carried : Value → Value) : Prop extends codec.Lawful fits carried where
  distinct : ∀ left right leftOutput rightOutput value,
    codec.decode left leftOutput = ⟨.ok (), some value⟩ →
    codec.decode right rightOutput = ⟨.ok (), some value⟩ → left = right

theorem Lawful.bijective (lawful : codec.Lawful fits carried) : codec.Bijective fits carried where
  toLawful := lawful
  distinct left right leftOutput rightOutput value leftDecoded rightDecoded := by
    have leftEncoded := (lawful.canonical _ _ _ leftDecoded).2.2
    have rightEncoded := (lawful.canonical _ _ _ rightDecoded).2.2
    rw [leftEncoded] at rightEncoded
    exact Except.ok.inj rightEncoded

end Codec

end Ugdr
