import Ugdr.Control.ObjectRegistry
import Mathlib.Data.List.Nodup
import Mathlib.Data.List.Perm.Basic

/-! # The live entries of a registry

The laws of `GenerationRegistry`, stated on the list of its live records: what
each operation adds, removes or rewrites, and that the registry stays well
formed.
-/

namespace Ugdr.Control.GenerationRegistry

universe u

variable {Record : Type u} {type : ObjectType}

/-- A live record together with its identity and owner. -/
structure Entry (Record : Type u) where
  identity : Nat
  owner : OwnerSessionId
  record : Record
  deriving DecidableEq, Repr

def slotEntry (type : ObjectType) (index : Nat) (slot : Slot Record) :
    List (Entry Record) :=
  match slot.value with
  | none => []
  | some record =>
      [⟨packIdentity type.code slot.generation index, slot.ownerSession, record⟩]

def entriesFrom (type : ObjectType) (start : Nat) :
    List (Slot Record) → List (Entry Record)
  | [] => []
  | slot :: slots => slotEntry type start slot ++ entriesFrom type (start + 1) slots

/-- The live records in slot order. Everything later proofs need to know about a
registry is said in terms of this list. -/
def entries (registry : GenerationRegistry Record type) : List (Entry Record) :=
  entriesFrom type 0 registry.slots

theorem entriesFrom_append (start : Nat) (left right : List (Slot Record)) :
    entriesFrom type start (left ++ right) =
      entriesFrom type start left ++ entriesFrom type (start + left.length) right := by
  induction left generalizing start with
  | nil => simp [entriesFrom]
  | cons slot left induction =>
      simp [entriesFrom, induction, Nat.add_assoc, Nat.add_comm 1]

theorem mem_entriesFrom {start : Nat} {slots : List (Slot Record)}
    {entry : Entry Record} :
    entry ∈ entriesFrom type start slots ↔
      ∃ index slot, slots[index]? = some slot ∧
        entry ∈ slotEntry type (start + index) slot := by
  induction slots generalizing start with
  | nil => simp [entriesFrom]
  | cons head slots induction =>
      simp only [entriesFrom, List.mem_append, induction]
      constructor
      · rintro (member | ⟨index, slot, found, member⟩)
        · exact ⟨0, head, rfl, member⟩
        · exact ⟨index + 1, slot, by simpa using found,
            by simpa [Nat.add_assoc, Nat.add_comm 1] using member⟩
      · rintro ⟨index, slot, found, member⟩
        cases index with
        | zero =>
            simp only [List.getElem?_cons_zero, Option.some.injEq] at found
            subst found
            exact .inl member
        | succ index =>
            refine .inr ⟨index, slot, by simpa using found, ?_⟩
            simpa [Nat.add_assoc, Nat.add_comm 1] using member

/-- Replacing one slot replaces that slot's entry and leaves the others. -/
theorem entriesFrom_set (type : ObjectType) (start : Nat) {index : Nat}
    {slots : List (Slot Record)} {old : Slot Record} (found : slots[index]? = some old)
    (new : Slot Record) :
    ∃ before after,
      entriesFrom type start slots =
        before ++ slotEntry type (start + index) old ++ after ∧
      entriesFrom type start (slots.set index new) =
        before ++ slotEntry type (start + index) new ++ after := by
  induction slots generalizing start index with
  | nil => simp at found
  | cons head slots induction =>
      cases index with
      | zero =>
          simp only [List.getElem?_cons_zero, Option.some.injEq] at found
          subst found
          exact ⟨[], entriesFrom type (start + 1) slots, by simp [entriesFrom],
            by simp [entriesFrom]⟩
      | succ index =>
          obtain ⟨before, after, unchanged, changed⟩ :=
            induction (start + 1) (by simpa using found)
          refine ⟨slotEntry type start head ++ before, after, ?_, ?_⟩
          · simp [entriesFrom, unchanged, Nat.add_assoc, Nat.add_comm 1]
          · simp [entriesFrom, changed, Nat.add_assoc, Nat.add_comm 1]

@[simp] theorem slotEntry_none {index : Nat} {slot : Slot Record}
    (empty : slot.value = none) : slotEntry type index slot = [] := by
  simp [slotEntry, empty]

theorem slotEntry_some {index : Nat} {slot : Slot Record} {record : Record}
    (occupied : slot.value = some record) :
    slotEntry type index slot =
      [⟨packIdentity type.code slot.generation index, slot.ownerSession, record⟩] := by
  simp [slotEntry, occupied]

/-! ## Well-formed registries -/

structure WellFormed (registry : GenerationRegistry Record type) : Prop where
  initialNonzero : registry.initialGeneration ≠ 0
  initialLt : registry.initialGeneration < 2 ^ 32
  lengthLe : registry.slots.length ≤ 2 ^ 24
  generationNonzero : ∀ {index : Nat} {slot : Slot Record},
    registry.slots[index]? = some slot → slot.generation ≠ 0
  generationLt : ∀ {index : Nat} {slot : Slot Record},
    registry.slots[index]? = some slot → slot.generation < 2 ^ 32
  retiredEmpty : ∀ {index : Nat} {slot : Slot Record},
    registry.slots[index]? = some slot → slot.retired = true → slot.value = none
  freeNodup : registry.freeSlots.Nodup
  free : ∀ index, index ∈ registry.freeSlots ↔
    ∃ slot, registry.slots[index]? = some slot ∧
      slot.value = none ∧ slot.retired = false
  live : registry.liveCount = registry.entries.length

namespace WellFormed

variable {registry : GenerationRegistry Record type}

theorem index_lt (wellFormed : registry.WellFormed) {index : Nat}
    {slot : Slot Record} (found : registry.slots[index]? = some slot) :
    index < 2 ^ 24 := by
  have bound := (List.getElem?_eq_some_iff.mp found).1
  have := wellFormed.lengthLe
  omega

theorem not_retired (wellFormed : registry.WellFormed) {index : Nat}
    {slot : Slot Record} {record : Record}
    (found : registry.slots[index]? = some slot)
    (occupied : slot.value = some record) : slot.retired = false := by
  by_contra retired
  have empty := wellFormed.retiredEmpty found (by simpa using retired)
  rw [empty] at occupied
  cases occupied

end WellFormed

theorem create_wellFormed (initialGeneration : UInt32) :
    (create initialGeneration : GenerationRegistry Record type).WellFormed := by
  have bound := initialGeneration.toNat_lt
  constructor <;> simp [create, entries, entriesFrom]
  all_goals split <;> omega

theorem mem_entries {registry : GenerationRegistry Record type}
    {entry : Entry Record} :
    entry ∈ registry.entries ↔
      ∃ index slot, registry.slots[index]? = some slot ∧
        slot.value = some entry.record ∧ slot.ownerSession = entry.owner ∧
        entry.identity = packIdentity type.code slot.generation index := by
  simp only [entries, mem_entriesFrom, Nat.zero_add]
  constructor
  · rintro ⟨index, slot, found, member⟩
    cases occupied : slot.value with
    | none => simp [slotEntry, occupied] at member
    | some record =>
        simp only [slotEntry, occupied, List.mem_singleton] at member
        subst member
        exact ⟨index, slot, found, occupied, rfl, rfl⟩
  · rintro ⟨index, slot, found, occupied, owned, identity⟩
    refine ⟨index, slot, found, ?_⟩
    simp [slotEntry, occupied, ← identity, owned]

theorem locate_eq_some_iff {registry : GenerationRegistry Record type}
    (wellFormed : registry.WellFormed) (valid : type ≠ .invalid) {identity index : Nat}
    {slot : Slot Record} :
    registry.locate identity = some (index, slot) ↔
      registry.slots[index]? = some slot ∧ slot.retired = false ∧
        identity = packIdentity type.code slot.generation index := by
  constructor
  · intro located
    unfold locate at located
    split at located
    · cases located
    · rename_i parts decoded
      have packed := decodeObjectIdentity_eq_some_iff.mp decoded
      split at located
      · cases located
      · rename_i sameType
        split at located
        · cases located
        · rename_i found
          split at located
          · cases located
          · rename_i current
            simp only [Option.some.injEq, Prod.mk.injEq] at located
            obtain ⟨rfl, rfl⟩ := located
            simp only [not_or, Bool.not_eq_true, not_not] at current sameType
            exact ⟨found, current.1, by rw [current.2, ← sameType]; exact packed.2.2.2.2⟩
  · rintro ⟨found, notRetired, rfl⟩
    have decoded : decodeObjectIdentity (packIdentity type.code slot.generation index) =
        some ⟨type.code, slot.generation, index⟩ :=
      decodeObjectIdentity_eq_some_iff.mpr
        ⟨ObjectType.code_ne_zero valid, wellFormed.generationNonzero found,
          wellFormed.generationLt found, wellFormed.index_lt found, rfl⟩
    simp [locate, decoded, found, notRetired]

/-- An identity resolves to a record for an owner exactly when the registry has
that live entry. -/
theorem resolve_eq_some_iff {registry : GenerationRegistry Record type}
    (wellFormed : registry.WellFormed) (valid : type ≠ .invalid) {owner identity : Nat}
    {record : Record} :
    registry.resolve owner identity = some record ↔
      ⟨identity, owner, record⟩ ∈ registry.entries := by
  rw [mem_entries]
  constructor
  · intro resolved
    unfold resolve at resolved
    split at resolved
    · cases resolved
    · rename_i index slot located
      have facts := (locate_eq_some_iff wellFormed valid).mp located
      split at resolved
      · cases resolved
      · rename_i owned
        exact ⟨index, slot, facts.1, resolved, not_not.mp owned, facts.2.2⟩
  · rintro ⟨index, slot, found, occupied, owned, identified⟩
    have notRetired := wellFormed.not_retired found occupied
    have located := (locate_eq_some_iff wellFormed valid).mpr
      ⟨found, notRetired, identified⟩
    simp [resolve, located, owned, occupied]

theorem resolveAny_eq_some_iff {registry : GenerationRegistry Record type}
    (wellFormed : registry.WellFormed) (valid : type ≠ .invalid) {identity : Nat}
    {record : Record} :
    registry.resolveAny identity = some record ↔
      ∃ owner, ⟨identity, owner, record⟩ ∈ registry.entries := by
  constructor
  · intro resolved
    unfold resolveAny at resolved
    split at resolved
    · cases resolved
    · rename_i index slot located
      have facts := (locate_eq_some_iff wellFormed valid).mp located
      exact ⟨slot.ownerSession, mem_entries.mpr
        ⟨index, slot, facts.1, resolved, rfl, facts.2.2⟩⟩
  · rintro ⟨owner, member⟩
    have resolved := (resolve_eq_some_iff wellFormed valid).mpr member
    unfold resolve at resolved
    unfold resolveAny
    split at resolved
    · cases resolved
    · split at resolved
      · cases resolved
      · exact resolved

/-! ## Effect of the operations on the entries -/

/-- Replacing one slot keeps a registry well formed when the free stack and the
live count are adjusted to it. -/
theorem WellFormed.set {registry : GenerationRegistry Record type}
    (wellFormed : registry.WellFormed) {index : Nat} {old : Slot Record}
    (found : registry.slots[index]? = some old) {new : Slot Record}
    {freeSlots : List Nat} {liveCount : Nat}
    (generationNonzero : new.generation ≠ 0)
    (generationLt : new.generation < 2 ^ 32)
    (retiredEmpty : new.retired = true → new.value = none)
    (freeNodup : freeSlots.Nodup)
    (freeHere : index ∈ freeSlots ↔ new.value = none ∧ new.retired = false)
    (freeElsewhere : ∀ other, other ≠ index →
      (other ∈ freeSlots ↔ other ∈ registry.freeSlots))
    (live : liveCount = (entriesFrom type 0 (registry.slots.set index new)).length) :
    ({ registry with
        slots := registry.slots.set index new
        freeSlots := freeSlots
        liveCount := liveCount } : GenerationRegistry Record type).WellFormed := by
  have inRange : index < registry.slots.length :=
    (List.getElem?_eq_some_iff.mp found).1
  have lookup : ∀ {other : Nat} {slot : Slot Record},
      (registry.slots.set index new)[other]? = some slot →
        other = index ∧ slot = new ∨
          other ≠ index ∧ registry.slots[other]? = some slot := by
    intro other slot found'
    by_cases same : index = other
    · subst same
      rw [List.getElem?_set_self inRange] at found'
      exact .inl ⟨rfl, (Option.some.inj found').symm⟩
    · rw [List.getElem?_set_ne same] at found'
      exact .inr ⟨Ne.symm same, found'⟩
  refine ⟨wellFormed.initialNonzero, wellFormed.initialLt, ?_, ?_, ?_, ?_,
    freeNodup, ?_, live⟩
  · simpa using wellFormed.lengthLe
  · intro other slot found'
    rcases lookup found' with ⟨-, rfl⟩ | ⟨-, found''⟩
    · exact generationNonzero
    · exact wellFormed.generationNonzero found''
  · intro other slot found'
    rcases lookup found' with ⟨-, rfl⟩ | ⟨-, found''⟩
    · exact generationLt
    · exact wellFormed.generationLt found''
  · intro other slot found'
    rcases lookup found' with ⟨-, rfl⟩ | ⟨-, found''⟩
    · exact retiredEmpty
    · exact wellFormed.retiredEmpty found''
  · intro other
    by_cases same : other = index
    · subst same
      rw [freeHere, List.getElem?_set_self inRange]
      simp
    · rw [freeElsewhere other same, wellFormed.free other,
        List.getElem?_set_ne (Ne.symm same)]

/-- The three outcomes of `insert`: reuse of a free slot, growth, or exhaustion. -/
theorem insert_cases {registry : GenerationRegistry Record type}
    (wellFormed : registry.WellFormed) (valid : type ≠ .invalid)
    (owner : OwnerSessionId) (record : Record) :
    (∃ index slot remaining,
      registry.freeSlots = index :: remaining ∧
      registry.slots[index]? = some slot ∧ slot.value = none ∧
      slot.retired = false ∧
      registry.insert owner record =
        (some (packIdentity type.code slot.generation index),
          { registry with
            slots := registry.slots.set index
              { slot with ownerSession := owner, value := some record }
            freeSlots := remaining
            liveCount := registry.liveCount + 1 })) ∨
    (registry.freeSlots = [] ∧ registry.slots.length < 2 ^ 24 ∧
      registry.insert owner record =
        (some (packIdentity type.code registry.initialGeneration registry.slots.length),
          { registry with
            slots := registry.slots ++
              [{ generation := registry.initialGeneration
                 ownerSession := owner, value := some record }]
            liveCount := registry.liveCount + 1 })) ∨
    (registry.freeSlots = [] ∧ registry.slots.length = 2 ^ 24 ∧
      registry.insert owner record = (none, registry)) := by
  cases stack : registry.freeSlots with
  | cons index remaining =>
      obtain ⟨slot, found, empty, notRetired⟩ :=
        (wellFormed.free index).mp (by rw [stack]; exact List.mem_cons_self)
      refine .inl ⟨index, slot, remaining, rfl, found, empty, notRetired, ?_⟩
      have encoded := encodeObjectIdentity_eq_some valid
        (wellFormed.generationNonzero found) (wellFormed.index_lt found)
      simp [insert, occupy, stack, found, encoded]
  | nil =>
      have bound := wellFormed.lengthLe
      by_cases full : registry.slots.length = 2 ^ 24
      · exact .inr (.inr ⟨rfl, full, by simp [insert, stack, full, maxObjectSlot]⟩)
      · have room : registry.slots.length < 2 ^ 24 := by omega
        refine .inr (.inl ⟨rfl, room, ?_⟩)
        have notAbove : ¬maxObjectSlot < registry.slots.length := by
          simp only [maxObjectSlot]
          omega
        have encoded := encodeObjectIdentity_eq_some valid wellFormed.initialNonzero room
        simp [insert, occupy, stack, notAbove, encoded]

theorem insert_wellFormed {registry : GenerationRegistry Record type}
    (wellFormed : registry.WellFormed) (valid : type ≠ .invalid)
    (owner : OwnerSessionId) (record : Record) :
    (registry.insert owner record).2.WellFormed := by
  rcases insert_cases wellFormed valid owner record with
    ⟨index, slot, remaining, stack, found, empty, notRetired, result⟩ |
    ⟨stack, room, result⟩ | ⟨-, -, result⟩
  · rw [result]
    have nodup := wellFormed.freeNodup
    rw [stack, List.nodup_cons] at nodup
    have generationNonzero := wellFormed.generationNonzero found
    have generationLt := wellFormed.generationLt found
    apply wellFormed.set found
    · exact generationNonzero
    · exact generationLt
    · simp [notRetired]
    · exact nodup.2
    · simp [nodup.1]
    · intro other different
      simp [stack, different]
    · obtain ⟨before, after, unchanged, changed⟩ := entriesFrom_set type 0 found
        { slot with ownerSession := owner, value := some record }
      rw [changed, wellFormed.live, entries, unchanged]
      simp [slotEntry, empty]
      omega
  · rw [result]
    have lookup : ∀ {index : Nat} {slot : Slot Record},
        (registry.slots ++ [{ generation := registry.initialGeneration
                              ownerSession := owner, value := some record }])[index]? =
            some slot →
          registry.slots[index]? = some slot ∨
            slot = { generation := registry.initialGeneration
                     ownerSession := owner, value := some record } := by
      intro index slot found
      by_cases inside : index < registry.slots.length
      · rw [List.getElem?_append_left inside] at found
        exact .inl found
      · rw [List.getElem?_append_right (by omega)] at found
        have := List.mem_of_getElem? found
        exact .inr (by simpa using this)
    refine ⟨wellFormed.initialNonzero, wellFormed.initialLt, ?_, ?_, ?_, ?_,
      wellFormed.freeNodup, ?_, ?_⟩
    · simp only [List.length_append, List.length_singleton]
      omega
    · intro index slot found
      rcases lookup found with found | rfl
      · exact wellFormed.generationNonzero found
      · exact wellFormed.initialNonzero
    · intro index slot found
      rcases lookup found with found | rfl
      · exact wellFormed.generationLt found
      · exact wellFormed.initialLt
    · intro index slot found
      rcases lookup found with found | rfl
      · exact wellFormed.retiredEmpty found
      · simp
    · intro index
      rw [wellFormed.free index]
      constructor
      · rintro ⟨slot, found, empty⟩
        have inside := (List.getElem?_eq_some_iff.mp found).1
        exact ⟨slot, by rw [List.getElem?_append_left inside]; exact found, empty⟩
      · rintro ⟨slot, found, empty, notRetired⟩
        rcases lookup found with found | rfl
        · exact ⟨slot, found, empty, notRetired⟩
        · cases empty
    · simp [entries, entriesFrom_append, wellFormed.live, entriesFrom, slotEntry]
  · rw [result]
    exact wellFormed

/-- A successful insertion adds exactly the new entry. -/
theorem insert_entries {registry : GenerationRegistry Record type}
    (wellFormed : registry.WellFormed) (valid : type ≠ .invalid)
    {owner : OwnerSessionId} {record : Record} {identity : Nat}
    (inserted : (registry.insert owner record).1 = some identity) :
    (registry.insert owner record).2.entries.Perm
      (⟨identity, owner, record⟩ :: registry.entries) := by
  rcases insert_cases wellFormed valid owner record with
    ⟨index, slot, remaining, -, found, empty, -, result⟩ |
    ⟨-, -, result⟩ | ⟨-, -, result⟩
  · rw [result] at inserted ⊢
    obtain ⟨before, after, unchanged, changed⟩ := entriesFrom_set type 0 found
      { slot with ownerSession := owner, value := some record }
    simp only [Option.some.injEq] at inserted
    simp only [entries, changed, unchanged, slotEntry, empty, Nat.zero_add, inserted,
      List.append_nil, List.append_assoc, List.singleton_append]
    exact List.perm_middle
  · rw [result] at inserted ⊢
    simp only [Option.some.injEq] at inserted
    simp only [entries, entriesFrom_append, entriesFrom, slotEntry, Nat.zero_add, inserted,
      List.append_nil]
    exact List.perm_append_singleton _ _
  · rw [result] at inserted
    cases inserted

/-- A failed insertion changes nothing. -/
theorem insert_none {registry : GenerationRegistry Record type}
    (wellFormed : registry.WellFormed) (valid : type ≠ .invalid)
    {owner : OwnerSessionId} {record : Record}
    (failed : (registry.insert owner record).1 = none) :
    (registry.insert owner record).2 = registry ∧ registry.freeSlots = [] ∧
      registry.slots.length = 2 ^ 24 := by
  rcases insert_cases wellFormed valid owner record with
    ⟨index, slot, remaining, -, -, -, -, result⟩ | ⟨-, -, result⟩ | ⟨stack, full, result⟩
  · rw [result] at failed
    cases failed
  · rw [result] at failed
    cases failed
  · rw [result]
    exact ⟨rfl, stack, full⟩

/-- Releasing an occupied slot removes its entry. -/
theorem release_entries {registry : GenerationRegistry Record type} {index : Nat}
    {slot : Slot Record} {record : Record}
    (found : registry.slots[index]? = some slot)
    (occupied : slot.value = some record) :
    ∃ before after,
      registry.entries = before ++
        ⟨packIdentity type.code slot.generation index, slot.ownerSession, record⟩ ::
          after ∧
      (registry.release index).entries = before ++ after := by
  unfold release
  rw [found]
  dsimp only
  split
  · obtain ⟨before, after, unchanged, changed⟩ := entriesFrom_set type 0 found
      { slot with value := none, ownerSession := 0, retired := true }
    refine ⟨before, after, ?_, ?_⟩
    · simp [entries, unchanged, slotEntry_some occupied]
    · simp [entries, changed]
  · obtain ⟨before, after, unchanged, changed⟩ := entriesFrom_set type 0 found
      { slot with value := none, ownerSession := 0, generation := slot.generation + 1 }
    refine ⟨before, after, ?_, ?_⟩
    · simp [entries, unchanged, slotEntry_some occupied]
    · simp [entries, changed]

theorem release_wellFormed {registry : GenerationRegistry Record type}
    (wellFormed : registry.WellFormed) {index : Nat} {slot : Slot Record}
    {record : Record} (found : registry.slots[index]? = some slot)
    (occupied : slot.value = some record) :
    (registry.release index).WellFormed := by
  have notFree : index ∉ registry.freeSlots := by
    intro member
    obtain ⟨slot', found', empty, -⟩ := (wellFormed.free index).mp member
    rw [found] at found'
    cases found'
    rw [occupied] at empty
    cases empty
  obtain ⟨before, after, whole, remaining⟩ :=
    release_entries found occupied
  have count : registry.liveCount - 1 = (registry.release index).entries.length := by
    rw [wellFormed.live, whole, remaining]
    simp
  unfold release at count ⊢
  rw [found] at count ⊢
  dsimp only at count ⊢
  have generationNonzero := wellFormed.generationNonzero found
  have generationLt := wellFormed.generationLt found
  split at count
  · rename_i last
    rw [if_pos last]
    refine wellFormed.set found generationNonzero generationLt (by simp)
      wellFormed.freeNodup (by simpa using notFree) (fun _ _ => Iff.rfl) ?_
    simpa [entries] using count
  · rename_i notLast
    rw [if_neg notLast]
    refine wellFormed.set found (by simp) (by simp only; omega) (fun _ => rfl)
      (List.nodup_cons.mpr ⟨notFree, wellFormed.freeNodup⟩) ?_ ?_ ?_
    · have notRetired := wellFormed.not_retired found occupied
      simp [notRetired]
    · intro other different
      simp [different]
    · simpa [entries] using count

/-- `erase` succeeds exactly on identities that resolve for the owner, and then
removes exactly that entry. -/
theorem erase_of_resolve {registry : GenerationRegistry Record type}
    (wellFormed : registry.WellFormed) (valid : type ≠ .invalid)
    {owner : OwnerSessionId} {identity : Nat} {record : Record}
    (resolved : registry.resolve owner identity = some record) :
    (registry.erase owner identity).1 = none ∧
      (registry.erase owner identity).2.WellFormed ∧
      registry.entries.Perm
        (⟨identity, owner, record⟩ :: (registry.erase owner identity).2.entries) := by
  obtain ⟨index, slot, found, occupied, owned, identified⟩ :=
    mem_entries.mp ((resolve_eq_some_iff wellFormed valid).mp resolved)
  dsimp only at occupied owned identified
  have decoded : decodeObjectIdentity identity =
      some ⟨type.code, slot.generation, index⟩ :=
    decodeObjectIdentity_eq_some_iff.mpr
      ⟨ObjectType.code_ne_zero valid, wellFormed.generationNonzero found,
        wellFormed.generationLt found, wellFormed.index_lt found, identified⟩
  have erased : registry.erase owner identity = (none, registry.release index) := by
    simp [erase, decoded, resolved]
  obtain ⟨before, after, whole, remaining⟩ :=
    release_entries found occupied
  rw [erased]
  refine ⟨rfl, release_wellFormed wellFormed found occupied, ?_⟩
  rw [whole, remaining, identified, owned]
  exact List.perm_middle

theorem erase_of_resolve_none {registry : GenerationRegistry Record type}
    {owner : OwnerSessionId} {identity : Nat}
    (unresolved : registry.resolve owner identity = none) :
    registry.erase owner identity = (some .einval, registry) := by
  unfold erase
  split
  · rfl
  · rw [unresolved]

/-- Storing through the resolved pointer rewrites that entry's record only. -/
theorem modify_entries {registry : GenerationRegistry Record type}
    (wellFormed : registry.WellFormed) (valid : type ≠ .invalid)
    {owner : OwnerSessionId} {identity : Nat} {record : Record}
    (resolved : registry.resolve owner identity = some record)
    (update : Record → Record) :
    (registry.modify owner identity update).WellFormed ∧
      ∃ before after,
        registry.entries = before ++ ⟨identity, owner, record⟩ :: after ∧
        (registry.modify owner identity update).entries =
          before ++ ⟨identity, owner, update record⟩ :: after := by
  obtain ⟨index, slot, found, occupied, owned, identified⟩ :=
    mem_entries.mp ((resolve_eq_some_iff wellFormed valid).mp resolved)
  dsimp only at occupied owned identified
  have notRetired := wellFormed.not_retired found occupied
  have located := (locate_eq_some_iff wellFormed valid).mpr
    ⟨found, notRetired, identified⟩
  have modified : registry.modify owner identity update =
      { registry with
        slots := registry.slots.set index
          { slot with value := slot.value.map update } } := by
    simp [modify, located, owned]
  obtain ⟨before, after, unchanged, changed⟩ :=
    entriesFrom_set type 0 found { slot with value := slot.value.map update }
  have whole : registry.entries =
      before ++ ⟨identity, owner, record⟩ :: after := by
    simp [entries, unchanged, slotEntry_some occupied, identified, owned]
  have rewritten : (registry.modify owner identity update).entries =
      before ++ ⟨identity, owner, update record⟩ :: after := by
    rw [modified]
    simp only [entries]
    rw [changed]
    simp [slotEntry, occupied, identified, owned]
  refine ⟨?_, before, after, whole, rewritten⟩
  have count := wellFormed.live
  rw [whole] at count
  rw [modified] at rewritten ⊢
  have generationNonzero := wellFormed.generationNonzero found
  have generationLt := wellFormed.generationLt found
  refine wellFormed.set found generationNonzero generationLt (by simp [notRetired])
    wellFormed.freeNodup ?_ (fun _ _ => Iff.rfl) ?_
  · rw [wellFormed.free index, found]
    simp
  · have length := congrArg List.length rewritten
    simp only [entries] at length
    rw [length, count]
    simp

theorem modify_of_resolve_none {registry : GenerationRegistry Record type}
    (wellFormed : registry.WellFormed) (valid : type ≠ .invalid)
    {owner : OwnerSessionId} {identity : Nat}
    (unresolved : registry.resolve owner identity = none)
    (update : Record → Record) :
    registry.modify owner identity update = registry := by
  unfold modify
  unfold resolve at unresolved
  split
  · rfl
  · rename_i index slot located
    rw [located] at unresolved
    dsimp only at unresolved
    split
    · rfl
    · rename_i owned
      rw [if_neg owned] at unresolved
      have found := ((locate_eq_some_iff wellFormed valid).mp located).1
      have inRange := (List.getElem?_eq_some_iff.mp found).1
      have same : ({ slot with value := slot.value.map update } : Slot Record) = slot := by
        cases slot
        simp_all
      have keep : registry.slots.set index slot = registry.slots := by
        apply List.ext_getElem?
        intro other
        by_cases equal : index = other
        · subst equal
          rw [List.getElem?_set_self inRange, found]
        · rw [List.getElem?_set_ne equal]
      rw [same, keep]

/-- The identities of the live entries are pairwise distinct. -/
theorem entries_identity_nodup {registry : GenerationRegistry Record type}
    (wellFormed : registry.WellFormed) :
    (registry.entries.map Entry.identity).Nodup := by
  have general : ∀ (slots : List (Slot Record)) (start : Nat),
      start + slots.length ≤ 2 ^ 24 →
      (∀ slot ∈ slots, slot.generation < 2 ^ 32) →
      ((entriesFrom type start slots).map Entry.identity).Nodup := by
    intro slots
    induction slots with
    | nil => intro _ _ _; simp [entriesFrom]
    | cons head slots induction =>
        intro start bound generations
        simp only [List.length_cons] at bound
        have rest := induction (start + 1) (by omega)
          fun slot member => generations slot (List.mem_cons_of_mem head member)
        cases occupied : head.value with
        | none => simpa [entriesFrom, slotEntry, occupied] using rest
        | some record =>
            simp only [entriesFrom, slotEntry_some occupied, List.singleton_append,
              List.map_cons, List.nodup_cons]
            refine ⟨?_, rest⟩
            rintro member
            obtain ⟨entry, later, equal⟩ := List.mem_map.mp member
            obtain ⟨index, slot, found, here⟩ := mem_entriesFrom.mp later
            have inRange := (List.getElem?_eq_some_iff.mp found).1
            cases occupied' : slot.value with
            | none => simp [slotEntry, occupied'] at here
            | some record' =>
                rw [slotEntry_some occupied', List.mem_singleton] at here
                subst here
                have slots := packIdentity_injective
                  (generations slot (List.mem_cons_of_mem _ (List.mem_of_getElem? found)))
                  (by omega) (generations head List.mem_cons_self) (by omega) equal
                omega
  apply general
  · simpa using wellFormed.lengthLe
  · intro slot member
    obtain ⟨index, found⟩ := List.getElem?_of_mem member
    exact wellFormed.generationLt found

/-- At most one owner and record answer to an identity. -/
theorem entry_unique {registry : GenerationRegistry Record type}
    (wellFormed : registry.WellFormed) {left right : Entry Record}
    (leftMember : left ∈ registry.entries) (rightMember : right ∈ registry.entries)
    (equal : left.identity = right.identity) : left = right :=
  List.inj_on_of_nodup_map (entries_identity_nodup wellFormed) leftMember rightMember equal

/-- `eraseSession` keeps exactly the entries of the other sessions. -/
theorem eraseSession_entries {registry : GenerationRegistry Record type}
    (wellFormed : registry.WellFormed) (owner : OwnerSessionId) :
    (registry.eraseSession owner).2.WellFormed ∧
      (registry.eraseSession owner).2.entries =
        registry.entries.filter fun entry => entry.owner ≠ owner := by
  -- After the first `count` indices no slot below `count` is owned by the
  -- session, and the entries of the other sessions are as before.
  have general : ∀ count,
      let state := (List.range count).foldl (releaseOwned owner) (0, registry)
      state.2.WellFormed ∧ state.2.slots.length = registry.slots.length ∧
        (state.2.entries.filter fun entry => entry.owner ≠ owner) =
          registry.entries.filter (fun entry => entry.owner ≠ owner) ∧
        ∀ (index : Nat) (slot : Slot Record), index < count →
          state.2.slots[index]? = some slot →
            ¬(slot.value.isSome ∧ slot.ownerSession = owner) := by
    intro count
    induction count with
    | zero => exact ⟨wellFormed, rfl, rfl, by intro _ _ impossible; omega⟩
    | succ count induction =>
        obtain ⟨kept, length, others, cleared⟩ := induction
        simp only [List.range_succ, List.foldl_append, List.foldl_cons, List.foldl_nil]
        generalize (List.range count).foldl (releaseOwned owner) (0, registry) = state
          at kept length others cleared
        unfold releaseOwned
        cases found : state.2.slots[count]? with
        | none =>
            refine ⟨kept, length, others, ?_⟩
            intro index slot below found'
            by_cases here : index = count
            · subst here
              rw [found] at found'
              cases found'
            · exact cleared index slot (by omega) found'
        | some slot =>
            dsimp only
            by_cases owned : slot.value.isSome ∧ slot.ownerSession = owner
            · rw [if_pos owned]
              obtain ⟨record, occupied⟩ := Option.isSome_iff_exists.mp owned.1
              obtain ⟨before, after, whole, remaining⟩ :=
                release_entries found occupied
              refine ⟨release_wellFormed kept found occupied, ?_, ?_, ?_⟩
              · rw [← length]
                unfold release
                rw [found]
                dsimp only
                split <;> simp
              · rw [← others, whole, remaining]
                simp [owned.2]
              · have inRange := (List.getElem?_eq_some_iff.mp found).1
                intro index slot' below found'
                unfold release at found'
                rw [found] at found'
                dsimp only at found'
                by_cases here : index = count
                · subst here
                  split at found'
                  · rw [List.getElem?_set_self inRange] at found'
                    cases found'
                    simp
                  · rw [List.getElem?_set_self inRange] at found'
                    cases found'
                    simp
                · apply cleared index slot' (by omega)
                  split at found'
                  · rwa [List.getElem?_set_ne (Ne.symm here)] at found'
                  · rwa [List.getElem?_set_ne (Ne.symm here)] at found'
            · rw [if_neg owned]
              refine ⟨kept, length, others, ?_⟩
              intro index slot' below found'
              by_cases here : index = count
              · subst here
                rw [found] at found'
                cases found'
                exact owned
              · exact cleared index slot' (by omega) found'
  obtain ⟨kept, length, others, cleared⟩ := general registry.slots.length
  refine ⟨kept, ?_⟩
  rw [← others]
  symm
  apply List.filter_eq_self.mpr
  intro entry member
  obtain ⟨index, slot, found, occupied, owned, -⟩ := mem_entries.mp member
  have below : index < registry.slots.length := by
    rw [← length]
    exact (List.getElem?_eq_some_iff.mp found).1
  have notOwned := cleared index slot below found
  simp only [occupied, Option.isSome_some, true_and] at notOwned
  simpa [← owned] using notOwned

/-- Rewrite the record of the entry with a given identity. -/
def Entry.adjust (identity : Nat) (update : Record → Record) (entry : Entry Record) :
    Entry Record :=
  if entry.identity = identity then { entry with record := update entry.record } else entry

@[simp] theorem Entry.adjust_identity (identity : Nat) (update : Record → Record)
    (entry : Entry Record) : (entry.adjust identity update).identity = entry.identity := by
  unfold adjust
  split <;> rfl

@[simp] theorem Entry.adjust_owner (identity : Nat) (update : Record → Record)
    (entry : Entry Record) : (entry.adjust identity update).owner = entry.owner := by
  unfold adjust
  split <;> rfl

theorem Entry.adjust_record (identity : Nat) (update : Record → Record)
    (entry : Entry Record) :
    (entry.adjust identity update).record =
      if entry.identity = identity then update entry.record else entry.record := by
  unfold adjust
  split <;> rfl

theorem modify_entries_map {registry : GenerationRegistry Record type}
    (wellFormed : registry.WellFormed) (valid : type ≠ .invalid)
    {owner : OwnerSessionId} {identity : Nat} {record : Record}
    (resolved : registry.resolve owner identity = some record)
    (update : Record → Record) :
    (registry.modify owner identity update).entries =
      registry.entries.map (Entry.adjust identity update) := by
  obtain ⟨-, before, after, whole, rewritten⟩ :=
    modify_entries wellFormed valid resolved update
  have nodup := entries_identity_nodup wellFormed
  rw [whole, List.map_append, List.map_cons, List.nodup_append, List.nodup_cons] at nodup
  obtain ⟨-, ⟨absentAfter, -⟩, apart⟩ := nodup
  have others : ∀ entries : List (Entry Record), identity ∉ entries.map Entry.identity →
      entries.map (Entry.adjust identity update) = entries := by
    intro entries absent
    have unchanged : ∀ entry ∈ entries, entry.adjust identity update = id entry := by
      intro entry member
      refine if_neg fun same => absent ?_
      rw [← same]
      exact List.mem_map_of_mem member
    rw [List.map_congr_left unchanged, List.map_id]
  rw [rewritten, whole, List.map_append, List.map_cons, others after absentAfter,
    others before fun present => apart _ present _ (List.mem_cons_self ..) rfl]
  simp [Entry.adjust]

/-- The loop of `forEachSession` visits the entries of the session. -/
theorem mem_forEachSession {registry : GenerationRegistry Record type}
    (wellFormed : registry.WellFormed) (valid : type ≠ .invalid)
    {owner : OwnerSessionId} {identity : Nat} {record : Record} :
    (identity, record) ∈ registry.forEachSession owner ↔
      ⟨identity, owner, record⟩ ∈ registry.entries := by
  have codeNonzero := ObjectType.code_ne_zero valid
  simp only [forEachSession, List.mem_filterMap, List.mem_range, mem_entries]
  constructor
  · rintro ⟨index, -, visited⟩
    split at visited
    · cases visited
    · rename_i slot found
      split at visited
      · cases visited
      · rename_i kept
        split at visited
        · rename_i current encoded occupied packed
          simp only [Option.some.injEq, Prod.mk.injEq] at visited
          obtain ⟨rfl, rfl⟩ := visited
          refine ⟨index, slot, found, occupied, by tauto, ?_⟩
          unfold encodeObjectIdentity at packed
          split at packed
          · cases packed
          · exact (Option.some.inj packed).symm
        · cases visited
  · rintro ⟨index, slot, found, occupied, owned, rfl⟩
    have nonzero := wellFormed.generationNonzero found
    have inRange := wellFormed.index_lt found
    refine ⟨index, (List.getElem?_eq_some_iff.mp found).1, ?_⟩
    have packed : encodeObjectIdentity ⟨type.code, slot.generation, index⟩ =
        some (packIdentity type.code slot.generation index) := by
      refine if_neg ?_
      rintro (invalid | zero | far)
      · exact codeNonzero invalid
      · exact nonzero zero
      · simp only [maxObjectSlot] at far
        omega
    have notRetired := wellFormed.not_retired found occupied
    simp only [found, notRetired, occupied, packed]
    rw [if_neg (by simpa using owned)]

/-- A walk over the slots that yields the identity of each slot yields none twice. -/
theorem identity_nodup {visit : Nat → Option (Nat × Record)} {slots : Nat}
    (place : ∀ {index identity record}, visit index = some (identity, record) →
      ∃ generation, generation < 2 ^ 32 ∧ index < 2 ^ 24 ∧
        identity = packIdentity type.code generation index) :
    (((List.range slots).filterMap visit).map Prod.fst).Nodup := by
  rw [List.map_filterMap]
  refine List.Nodup.filterMap ?_ List.nodup_range
  intro left right identity leftVisit rightVisit
  obtain ⟨⟨_, leftRecord⟩, leftFound, rfl⟩ := Option.mem_map.mp leftVisit
  obtain ⟨⟨_, rightRecord⟩, rightFound, same⟩ := Option.mem_map.mp rightVisit
  obtain ⟨leftGeneration, leftLt, leftInside, leftIdentity⟩ := place leftFound
  obtain ⟨rightGeneration, rightLt, rightInside, rightIdentity⟩ := place rightFound
  simp only at same
  rw [leftIdentity, rightIdentity] at same
  exact (packIdentity_injective rightLt rightInside leftLt leftInside same).2.symm

/-- No entry is visited twice. -/
theorem forEachSession_identity_nodup {registry : GenerationRegistry Record type}
    (wellFormed : registry.WellFormed) (owner : OwnerSessionId) :
    ((registry.forEachSession owner).map Prod.fst).Nodup := by
  rw [forEachSession]
  apply @identity_nodup _ type
  intro index identity record visited
  split at visited
  · cases visited
  · rename_i slot found
    split at visited
    · cases visited
    · split at visited
      · rename_i current encoded occupied packed
        injection visited with same
        injection same with same
        rw [← same]
        refine ⟨slot.generation, wellFormed.generationLt found, wellFormed.index_lt found, ?_⟩
        unfold encodeObjectIdentity at packed
        split at packed
        · cases packed
        · exact (Option.some.inj packed).symm
      · cases visited

end Ugdr.Control.GenerationRegistry
