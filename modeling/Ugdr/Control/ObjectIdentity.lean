import Mathlib.Data.Nat.Bitwise

/-! # Object identities

The 64-bit handle of a control-plane object packs its type, the generation of
its registry slot and the slot index.
-/

namespace Ugdr.Control

inductive ObjectType
  | invalid
  | context
  | pd
  | mr
  | cq
  | qp
  deriving DecidableEq, Repr

namespace ObjectType

/-- The underlying 8-bit value of the enumerator. -/
def code : ObjectType → Nat
  | invalid => 0
  | context => 1
  | pd => 2
  | mr => 3
  | cq => 4
  | qp => 5

theorem code_ne_zero {type : ObjectType} (valid : type ≠ .invalid) :
    type.code ≠ 0 := by
  cases type <;> simp_all [code]

end ObjectType

def maxObjectSlot : Nat := 0x00ffffff

/-- The type is kept as its 8-bit code, since decoding an arbitrary identity may
produce a value that names no enumerator. -/
structure ObjectIdentityParts where
  type : Nat
  generation : Nat
  slot : Nat
  deriving DecidableEq, Repr

/-- The bit pattern that `encodeObjectIdentity` returns for acceptable parts. -/
def packIdentity (type generation slot : Nat) : Nat :=
  (type <<< 56) ||| (generation <<< 24) ||| slot

def encodeObjectIdentity (parts : ObjectIdentityParts) : Option Nat :=
  if parts.type = ObjectType.invalid.code ∨ parts.generation = 0 ∨
      maxObjectSlot < parts.slot then
    none
  else
    some (packIdentity parts.type parts.generation parts.slot)

def decodeObjectIdentity (identity : Nat) : Option ObjectIdentityParts :=
  if identity = 0 then
    none
  else
    let parts : ObjectIdentityParts :=
      { type := identity >>> 56
        generation := (identity >>> 24) % 2 ^ 32
        slot := identity &&& maxObjectSlot }
    if parts.type = ObjectType.invalid.code ∨ parts.generation = 0 then
      none
    else
      some parts

theorem packIdentity_eq {type generation slot : Nat}
    (generationLt : generation < 2 ^ 32) (slotLt : slot < 2 ^ 24) :
    packIdentity type generation slot =
      type * 2 ^ 56 + generation * 2 ^ 24 + slot := by
  have lower : (generation <<< 24) ||| slot = generation <<< 24 + slot :=
    (Nat.shiftLeft_add_eq_or_of_lt slotLt generation).symm
  have lowerLt : generation <<< 24 + slot < 2 ^ 56 := by
    rw [Nat.shiftLeft_eq]
    omega
  have whole : (type <<< 56) ||| (generation <<< 24 + slot) =
      type <<< 56 + (generation <<< 24 + slot) :=
    (Nat.shiftLeft_add_eq_or_of_lt lowerLt type).symm
  rw [packIdentity, Nat.or_assoc, lower, whole, Nat.shiftLeft_eq, Nat.shiftLeft_eq]
  omega

theorem maxObjectSlot_and (identity : Nat) :
    identity &&& maxObjectSlot = identity % 2 ^ 24 :=
  Nat.and_two_pow_sub_one_eq_mod identity 24

/-- Decoding succeeds on exactly the packed form of the parts it returns. -/
theorem decodeObjectIdentity_eq_some_iff {identity : Nat}
    {parts : ObjectIdentityParts} :
    decodeObjectIdentity identity = some parts ↔
      parts.type ≠ 0 ∧ parts.generation ≠ 0 ∧ parts.generation < 2 ^ 32 ∧
        parts.slot < 2 ^ 24 ∧
        identity = packIdentity parts.type parts.generation parts.slot := by
  obtain ⟨type, generation, slot⟩ := parts
  simp only [decodeObjectIdentity, maxObjectSlot_and, Nat.shiftRight_eq_div_pow,
    ObjectType.code]
  constructor
  · intro decoded
    split at decoded
    · cases decoded
    · split at decoded
      · cases decoded
      · rename_i accepted
        simp only [Option.some.injEq, ObjectIdentityParts.mk.injEq] at decoded
        obtain ⟨rfl, rfl, rfl⟩ := decoded
        rw [packIdentity_eq (by omega) (by omega)]
        omega
  · rintro ⟨typeNonzero, generationNonzero, generationLt, slotLt, packed⟩
    rw [packIdentity_eq generationLt slotLt] at packed
    have typeEq : identity / 2 ^ 56 = type := by omega
    have generationEq : identity / 2 ^ 24 % 2 ^ 32 = generation := by omega
    have slotEq : identity % 2 ^ 24 = slot := by omega
    rw [if_neg (by omega), typeEq, generationEq, slotEq, if_neg (by omega)]

/-- Two acceptable triples of parts with the same identity are equal. -/
theorem packIdentity_injective {type generation slot generation' slot' : Nat}
    (generationLt : generation < 2 ^ 32) (slotLt : slot < 2 ^ 24)
    (generationLt' : generation' < 2 ^ 32) (slotLt' : slot' < 2 ^ 24)
    (equal : packIdentity type generation slot =
      packIdentity type generation' slot') :
    generation = generation' ∧ slot = slot' := by
  rw [packIdentity_eq generationLt slotLt,
    packIdentity_eq generationLt' slotLt'] at equal
  omega

theorem encodeObjectIdentity_eq_some {type : ObjectType} {generation slot : Nat}
    (valid : type ≠ .invalid) (generationNonzero : generation ≠ 0)
    (slotLt : slot < 2 ^ 24) :
    encodeObjectIdentity ⟨type.code, generation, slot⟩ =
      some (packIdentity type.code generation slot) := by
  have inRange : ¬maxObjectSlot < slot := by
    simp only [maxObjectSlot]
    omega
  have typeNonzero := ObjectType.code_ne_zero valid
  simp [encodeObjectIdentity, ObjectType.code, generationNonzero, inRange] at typeNonzero ⊢
  exact typeNonzero

end Ugdr.Control
