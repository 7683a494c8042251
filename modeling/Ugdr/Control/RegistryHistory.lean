import Ugdr.Foundation.Execution
import Ugdr.Control.RegistryEntries

/-! # Handle histories

What a registry promises over a whole history of calls. A `Ledger` is the
abstract registry: it remembers which identities were handed out and which
owner and record each live one stands for. The slots, generations and free
stack of `GenerationRegistry` refine it.
-/

namespace Ugdr.Control

universe u

/-- The abstract registry. The most recently issued identity comes first. -/
structure Ledger (Record : Type u) where
  live : Nat → Option (OwnerSessionId × Record) := fun _ => none
  issued : List Nat := []

namespace Ledger

variable {Record : Type u}

def resolve (ledger : Ledger Record) (ownerSession : OwnerSessionId)
    (identity : Nat) : Option Record :=
  match ledger.live identity with
  | none => none
  | some (owner, record) => if owner = ownerSession then some record else none

/-- A new handle, under an identity chosen by the registry. -/
def issue (ledger : Ledger Record) (ownerSession : OwnerSessionId)
    (record : Record) (identity : Nat) : Ledger Record where
  live := Function.update ledger.live identity (some (ownerSession, record))
  issued := identity :: ledger.issued

def erase (ledger : Ledger Record) (ownerSession : OwnerSessionId)
    (identity : Nat) : Ledger Record :=
  match ledger.resolve ownerSession identity with
  | none => ledger
  | some _ => { ledger with live := Function.update ledger.live identity none }

def eraseSession (ledger : Ledger Record) (ownerSession : OwnerSessionId) :
    Ledger Record :=
  { ledger with
    live := fun identity =>
      (ledger.live identity).filter fun entry => entry.1 ≠ ownerSession }

def store (ledger : Ledger Record) (ownerSession : OwnerSessionId)
    (identity : Nat) (update : Record → Record) : Ledger Record :=
  match ledger.resolve ownerSession identity with
  | none => ledger
  | some record =>
      { ledger with
        live := Function.update ledger.live identity
          (some (ownerSession, update record)) }

end Ledger

namespace GenerationRegistry

variable {Record : Type u} {type : ObjectType}

/-- The calls a registry serves. A `resolve` call may be followed by stores
through the returned pointer, which are collected in `update`. -/
inductive Call (Record : Type u)
  | insert (ownerSession : OwnerSessionId) (record : Record)
  | erase (ownerSession : OwnerSessionId) (identity : Nat)
  | eraseSession (ownerSession : OwnerSessionId)
  | resolve (ownerSession : OwnerSessionId) (identity : Nat)
      (update : Record → Record)

/-- A registry next to the ledger of its history. -/
structure Tracked (Record : Type u) (type : ObjectType) where
  registry : GenerationRegistry Record type
  ledger : Ledger Record

namespace Tracked

def start (initialGeneration : UInt32) : Tracked Record type where
  registry := create initialGeneration
  ledger := {}

def perform (state : Tracked Record type) : Call Record → Tracked Record type
  | .insert ownerSession record =>
      let result := state.registry.insert ownerSession record
      { registry := result.2
        ledger :=
          match result.1 with
          | none => state.ledger
          | some identity => state.ledger.issue ownerSession record identity }
  | .erase ownerSession identity =>
      { registry := (state.registry.erase ownerSession identity).2
        ledger := state.ledger.erase ownerSession identity }
  | .eraseSession ownerSession =>
      { registry := (state.registry.eraseSession ownerSession).2
        ledger := state.ledger.eraseSession ownerSession }
  | .resolve ownerSession identity update =>
      { registry := state.registry.modify ownerSession identity update
        ledger := state.ledger.store ownerSession identity update }

end Tracked

/-! ## Used generations -/

/-- The slot has handed out this generation of itself, now or earlier. -/
def SlotUsed (slot : Slot Record) (generation : Nat) : Prop :=
  generation < slot.generation ∨
    generation = slot.generation ∧ (slot.retired = true ∨ slot.value.isSome = true)

/-- The identity belongs to a used generation of its slot. -/
def Used (registry : GenerationRegistry Record type) (identity : Nat) : Prop :=
  ∃ index slot generation, registry.slots[index]? = some slot ∧
    generation < 2 ^ 32 ∧ identity = packIdentity type.code generation index ∧
    SlotUsed slot generation

theorem used_set {registry changed : GenerationRegistry Record type} {index : Nat}
    {old new : Slot Record} (found : registry.slots[index]? = some old)
    (slots : changed.slots = registry.slots.set index new)
    (advances : ∀ generation, SlotUsed old generation → SlotUsed new generation)
    {identity : Nat} (used : registry.Used identity) : changed.Used identity := by
  obtain ⟨other, slot, generation, found', bound, identified, slotUsed⟩ := used
  rw [Used, slots]
  by_cases same : index = other
  · subst same
    rw [found] at found'
    cases found'
    have inRange := (List.getElem?_eq_some_iff.mp found).1
    exact ⟨index, new, generation, List.getElem?_set_self inRange, bound, identified,
      advances generation slotUsed⟩
  · exact ⟨other, slot, generation, by rw [List.getElem?_set_ne same]; exact found',
      bound, identified, slotUsed⟩

theorem used_insert {registry : GenerationRegistry Record type}
    (wellFormed : registry.WellFormed) (valid : type ≠ .invalid)
    (owner : OwnerSessionId) (record : Record) {identity : Nat}
    (used : registry.Used identity) :
    (registry.insert owner record).2.Used identity := by
  rcases insert_cases wellFormed valid owner record with
    ⟨index, slot, remaining, -, found, empty, notRetired, result⟩ |
    ⟨-, -, result⟩ | ⟨-, -, result⟩
  · rw [result]
    refine used_set found rfl ?_ used
    rintro generation (earlier | ⟨-, retired | occupied⟩)
    · exact .inl earlier
    · simp [notRetired] at retired
    · simp [empty] at occupied
  · rw [result]
    obtain ⟨index, slot, generation, found, rest⟩ := used
    have inRange := (List.getElem?_eq_some_iff.mp found).1
    exact ⟨index, slot, generation,
      by rw [List.getElem?_append_left inRange]; exact found, rest⟩
  · rw [result]
    exact used

/-- The identity of a new handle was never used before and is used afterwards. -/
theorem insert_fresh {registry : GenerationRegistry Record type}
    (wellFormed : registry.WellFormed) (valid : type ≠ .invalid)
    {owner : OwnerSessionId} {record : Record} {identity : Nat}
    (inserted : (registry.insert owner record).1 = some identity) :
    ¬registry.Used identity ∧ (registry.insert owner record).2.Used identity := by
  rcases insert_cases wellFormed valid owner record with
    ⟨index, slot, remaining, -, found, empty, notRetired, result⟩ |
    ⟨-, room, result⟩ | ⟨-, -, result⟩
  · rw [result] at inserted ⊢
    cases inserted
    have generationLt := wellFormed.generationLt found
    have inRange := (List.getElem?_eq_some_iff.mp found).1
    constructor
    · rintro ⟨other, slot', generation, found', bound, identified, slotUsed⟩
      obtain ⟨rfl, rfl⟩ := packIdentity_injective generationLt
        (wellFormed.index_lt found) bound (wellFormed.index_lt found') identified
      rw [found] at found'
      cases found'
      rcases slotUsed with earlier | ⟨-, retired | occupied⟩
      · omega
      · simp [notRetired] at retired
      · simp [empty] at occupied
    · exact ⟨index, _, slot.generation, List.getElem?_set_self inRange, generationLt,
        rfl, .inr ⟨rfl, .inr rfl⟩⟩
  · rw [result] at inserted ⊢
    cases inserted
    constructor
    · rintro ⟨other, slot', generation, found', bound, identified, -⟩
      have inRange := (List.getElem?_eq_some_iff.mp found').1
      have equal := packIdentity_injective wellFormed.initialLt room bound
        (wellFormed.index_lt found') identified
      omega
    · refine ⟨registry.slots.length,
        { generation := registry.initialGeneration
          ownerSession := owner, value := some record },
        registry.initialGeneration, ?_, wellFormed.initialLt, rfl, .inr ⟨rfl, .inr rfl⟩⟩
      simp
  · rw [result] at inserted
    cases inserted

theorem used_release {registry : GenerationRegistry Record type} {index : Nat}
    {identity : Nat} (used : registry.Used identity) :
    (registry.release index).Used identity := by
  unfold release
  split
  · exact used
  · rename_i slot found
    split
    · refine used_set found rfl ?_ used
      rintro generation (earlier | ⟨rfl, -⟩)
      · exact .inl earlier
      · exact .inr ⟨rfl, .inl rfl⟩
    · refine used_set found rfl ?_ used
      rintro generation (earlier | ⟨rfl, -⟩)
      · exact .inl (by simp only; omega)
      · exact .inl (Nat.lt_succ_self _)

theorem used_erase {registry : GenerationRegistry Record type}
    (owner : OwnerSessionId) (target : Nat) {identity : Nat}
    (used : registry.Used identity) : (registry.erase owner target).2.Used identity := by
  unfold erase
  split
  · exact used
  · split
    · exact used
    · exact used_release used

theorem used_eraseSession {registry : GenerationRegistry Record type}
    (owner : OwnerSessionId) {identity : Nat} (used : registry.Used identity) :
    (registry.eraseSession owner).2.Used identity := by
  unfold eraseSession
  suffices general : ∀ (indices : List Nat)
      (state : Nat × GenerationRegistry Record type), state.2.Used identity →
        (indices.foldl (releaseOwned owner) state).2.Used identity from
    general _ _ used
  intro indices
  induction indices with
  | nil => exact fun _ used => used
  | cons index indices induction =>
      intro state used
      apply induction
      unfold releaseOwned
      split
      · exact used
      · split
        · exact used_release used
        · exact used

theorem used_modify {registry : GenerationRegistry Record type}
    (wellFormed : registry.WellFormed) (valid : type ≠ .invalid)
    (owner : OwnerSessionId) (target : Nat) (update : Record → Record)
    {identity : Nat} (used : registry.Used identity) :
    (registry.modify owner target update).Used identity := by
  unfold modify
  split
  · exact used
  · rename_i index slot located
    split
    · exact used
    · have found := ((locate_eq_some_iff wellFormed valid).mp located).1
      refine used_set found rfl ?_ used
      intro generation slotUsed
      simpa [SlotUsed] using slotUsed

/-! ## Refinement -/

/-- The registry represents its ledger. -/
structure Tracked.Refines (state : Tracked Record type) : Prop where
  wellFormed : state.registry.WellFormed
  agrees : ∀ identity owner record,
    ⟨identity, owner, record⟩ ∈ state.registry.entries ↔
      state.ledger.live identity = some (owner, record)
  issuedUsed : ∀ identity ∈ state.ledger.issued, state.registry.Used identity
  issuedNodup : state.ledger.issued.Nodup
  liveIssued : ∀ identity, (state.ledger.live identity).isSome →
    identity ∈ state.ledger.issued

namespace Tracked

variable {state : Tracked Record type}

theorem Refines.resolve_eq (refines : state.Refines) (valid : type ≠ .invalid)
    (owner : OwnerSessionId) (identity : Nat) :
    state.registry.resolve owner identity = state.ledger.resolve owner identity := by
  apply Option.ext
  intro record
  rw [resolve_eq_some_iff refines.wellFormed valid, refines.agrees, Ledger.resolve]
  cases state.ledger.live identity with
  | none => simp
  | some entry =>
      obtain ⟨owner', record'⟩ := entry
      by_cases same : owner' = owner <;> simp [same]

theorem start_refines (initialGeneration : UInt32) :
    (start initialGeneration : Tracked Record type).Refines where
  wellFormed := create_wellFormed initialGeneration
  agrees := by simp [start, create, entries, entriesFrom]
  issuedUsed := by simp [start]
  issuedNodup := by simp [start]
  liveIssued := by simp [start]

private theorem insert_refines (refines : state.Refines) (valid : type ≠ .invalid)
    (owner : OwnerSessionId) (record : Record) :
    (state.perform (.insert owner record)).Refines := by
  simp only [perform]
  cases result : (state.registry.insert owner record).1 with
  | none =>
      rw [(insert_none refines.wellFormed valid result).1]
      exact refines
  | some identity =>
      have added := insert_entries refines.wellFormed valid result
      have fresh := insert_fresh refines.wellFormed valid result
      have notIssued : identity ∉ state.ledger.issued :=
        fun member => fresh.1 (refines.issuedUsed identity member)
      refine ⟨insert_wellFormed refines.wellFormed valid owner record, ?_, ?_, ?_, ?_⟩
      · intro other owner' record'
        rw [added.mem_iff, List.mem_cons, refines.agrees]
        by_cases same : other = identity
        · subst same
          have notLive : state.ledger.live other = none := by
            by_contra live
            exact notIssued (refines.liveIssued other (Option.isSome_iff_ne_none.mpr live))
          simp [Ledger.issue, notLive, eq_comm]
        · simp [Ledger.issue, same]
      · intro other member
        rcases List.mem_cons.mp member with rfl | earlier
        · exact fresh.2
        · exact used_insert refines.wellFormed valid owner record
            (refines.issuedUsed other earlier)
      · exact List.nodup_cons.mpr ⟨notIssued, refines.issuedNodup⟩
      · intro other live
        by_cases same : other = identity
        · exact List.mem_cons.mpr (.inl same)
        · simp only [Ledger.issue, ne_eq, same, not_false_eq_true,
            Function.update_of_ne] at live
          exact List.mem_cons_of_mem _ (refines.liveIssued other live)

private theorem erase_refines (refines : state.Refines) (valid : type ≠ .invalid)
    (owner : OwnerSessionId) (identity : Nat) :
    (state.perform (.erase owner identity)).Refines := by
  simp only [perform, Ledger.erase, ← refines.resolve_eq valid]
  cases resolved : state.registry.resolve owner identity with
  | none =>
      rw [erase_of_resolve_none resolved]
      exact refines
  | some record =>
      have member := (resolve_eq_some_iff refines.wellFormed valid).mp resolved
      obtain ⟨-, wellFormed, removed⟩ := erase_of_resolve refines.wellFormed valid resolved
      have unique := entries_identity_nodup refines.wellFormed
      rw [(removed.map Entry.identity).nodup_iff, List.map_cons, List.nodup_cons] at unique
      refine ⟨wellFormed, ?_, fun other issued =>
        used_erase owner identity (refines.issuedUsed other issued),
        refines.issuedNodup, ?_⟩
      · intro other owner' record'
        by_cases same : other = identity
        · subst same
          simp only [Function.update_self, reduceCtorEq, iff_false]
          intro remains
          exact unique.1 (List.mem_map.mpr ⟨_, remains, rfl⟩)
        · simp only [ne_eq, same, not_false_eq_true, Function.update_of_ne]
          rw [← refines.agrees, removed.mem_iff, List.mem_cons]
          simp [same]
      · intro other live
        by_cases same : other = identity
        · simp [same] at live
        · simp only [ne_eq, same, not_false_eq_true, Function.update_of_ne] at live
          exact refines.liveIssued other live

private theorem eraseSession_refines (refines : state.Refines)
    (owner : OwnerSessionId) : (state.perform (.eraseSession owner)).Refines := by
  obtain ⟨wellFormed, remaining⟩ := eraseSession_entries refines.wellFormed owner
  refine ⟨wellFormed, ?_, fun other issued =>
    used_eraseSession owner (refines.issuedUsed other issued), refines.issuedNodup, ?_⟩
  · intro identity owner' record
    simp only [perform, Ledger.eraseSession, remaining, List.mem_filter, refines.agrees]
    cases state.ledger.live identity with
    | none => simp
    | some entry =>
        obtain ⟨owner'', record'⟩ := entry
        simp only [Option.some.injEq, Prod.mk.injEq, Option.filter_some]
        by_cases same : owner'' = owner
        · simp only [same, ne_eq, not_true_eq_false, decide_false, Bool.false_eq_true,
            if_false, reduceCtorEq, iff_false]
          rintro ⟨⟨rfl, -⟩, different⟩
          simp at different
        · simp only [ne_eq, same, not_false_eq_true, decide_true, if_true,
            Option.some.injEq, Prod.mk.injEq, and_iff_left_iff_imp]
          rintro ⟨rfl, -⟩
          simpa using same
  · intro identity live
    apply refines.liveIssued identity
    simp only [perform, Ledger.eraseSession] at live
    cases known : state.ledger.live identity with
    | none => simp [known] at live
    | some entry => rfl

private theorem resolve_refines (refines : state.Refines) (valid : type ≠ .invalid)
    (owner : OwnerSessionId) (identity : Nat) (update : Record → Record) :
    (state.perform (.resolve owner identity update)).Refines := by
  simp only [perform, Ledger.store, ← refines.resolve_eq valid]
  cases resolved : state.registry.resolve owner identity with
  | none =>
      rw [modify_of_resolve_none refines.wellFormed valid resolved]
      exact refines
  | some record =>
      obtain ⟨wellFormed, before, after, whole, rewritten⟩ :=
        modify_entries refines.wellFormed valid resolved update
      have unique := entries_identity_nodup refines.wellFormed
      rw [whole] at unique
      simp only [List.map_append, List.map_cons] at unique
      have distinct := List.nodup_middle.mp unique
      rw [List.nodup_cons, List.mem_append] at distinct
      have member := (resolve_eq_some_iff refines.wellFormed valid).mp resolved
      have live := (refines.agrees identity owner record).mp member
      refine ⟨wellFormed, ?_, fun other issued =>
        used_modify refines.wellFormed valid owner identity update
          (refines.issuedUsed other issued), refines.issuedNodup, ?_⟩
      · intro other owner' record'
        rw [rewritten]
        by_cases same : other = identity
        · subst same
          have notBefore : ⟨other, owner', record'⟩ ∉ before := fun here =>
            distinct.1 (.inl (List.mem_map.mpr ⟨_, here, rfl⟩))
          have notAfter : ⟨other, owner', record'⟩ ∉ after := fun here =>
            distinct.1 (.inr (List.mem_map.mpr ⟨_, here, rfl⟩))
          simp [notBefore, notAfter, eq_comm]
        · simp only [ne_eq, same, not_false_eq_true, Function.update_of_ne]
          rw [← refines.agrees, whole]
          simp [same]
      · intro other live'
        apply refines.liveIssued other
        by_cases same : other = identity
        · simp [same, live]
        · simpa [same] using live'

theorem perform_refines (valid : type ≠ .invalid) (state : Tracked Record type)
    (call : Call Record) (refines : state.Refines) : (state.perform call).Refines := by
  cases call with
  | insert owner record => exact insert_refines refines valid owner record
  | erase owner identity => exact erase_refines refines valid owner identity
  | eraseSession owner => exact eraseSession_refines refines owner
  | resolve owner identity update => exact resolve_refines refines valid owner identity update

/-- An issued identity that is no longer live stays dead. -/
theorem run_keeps_dead (valid : type ≠ .invalid) {identity : Nat}
    (calls : List (Call Record)) (refines : state.Refines)
    (issued : identity ∈ state.ledger.issued)
    (dead : state.ledger.live identity = none) :
    (Execution.run perform state calls).ledger.live identity = none := by
  induction calls generalizing state with
  | nil => exact dead
  | cons call calls induction =>
      have next := perform_refines valid state call refines
      have kept : identity ∈ (state.perform call).ledger.issued ∧
          (state.perform call).ledger.live identity = none := by
        cases call with
        | insert owner record =>
            simp only [perform]
            cases result : (state.registry.insert owner record).1 with
            | none => exact ⟨issued, dead⟩
            | some fresh =>
                have different : identity ≠ fresh := by
                  rintro rfl
                  exact (insert_fresh refines.wellFormed valid result).1
                    (refines.issuedUsed identity issued)
                exact ⟨List.mem_cons_of_mem _ issued, by simp [Ledger.issue, different, dead]⟩
        | erase owner target =>
            simp only [perform, Ledger.erase]
            split
            · exact ⟨issued, dead⟩
            · refine ⟨issued, ?_⟩
              by_cases same : identity = target <;> simp [same, dead]
        | eraseSession owner => exact ⟨issued, by simp [perform, Ledger.eraseSession, dead]⟩
        | resolve owner target update =>
            simp only [perform, Ledger.store]
            cases resolved : state.ledger.resolve owner target with
            | none => exact ⟨issued, dead⟩
            | some record =>
                have different : identity ≠ target := by
                  rintro rfl
                  simp [Ledger.resolve, dead] at resolved
                exact ⟨issued, by simp [different, dead]⟩
      exact induction next kept.1 kept.2

end Tracked

/-! ## The promise of a registry -/

/-- What holds of a registry after any history of calls. -/
structure Tracked.NeverAlias (state : Tracked Record type) : Prop where
  /-- An identity resolves exactly as long, for the owner and to the record that
  its insertion and the calls since then say. -/
  resolves : ∀ owner identity,
    state.registry.resolve owner identity = state.ledger.resolve owner identity
  /-- No two insertions returned the same identity. -/
  issuedOnce : state.ledger.issued.Nodup
  liveIssued : ∀ owner identity, (state.registry.resolve owner identity).isSome →
    identity ∈ state.ledger.issued
  /-- An issued identity that resolves no more never resolves again. -/
  staleForever : ∀ identity ∈ state.ledger.issued,
    (∀ owner, state.registry.resolve owner identity = none) →
    ∀ (calls : List (Call Record)) owner,
      (Execution.run Tracked.perform state calls).registry.resolve owner identity = none
  eraseIff : ∀ owner identity,
    (state.registry.erase owner identity).1 = none ↔
      (state.registry.resolve owner identity).isSome
  sizeEq : ∃ identities : List Nat, identities.Nodup ∧
    (∀ identity, identity ∈ identities ↔
      ∃ owner, (state.registry.resolve owner identity).isSome) ∧
    state.registry.size = identities.length
  freeOnce : state.registry.freeSlots.Nodup
  freeIff : ∀ index, index ∈ state.registry.freeSlots ↔
    ∃ slot, state.registry.slots[index]? = some slot ∧
      slot.value = none ∧ slot.retired = false
  exhausted : ∀ owner record, (state.registry.insert owner record).1 = none →
    state.registry.slots.length = 2 ^ 24 ∧
      ∀ slot ∈ state.registry.slots, slot.value.isSome ∨ slot.retired = true

private theorem insert_exhausted {registry : GenerationRegistry Record type}
    (wellFormed : registry.WellFormed) (valid : type ≠ .invalid)
    {owner : OwnerSessionId} {record : Record}
    (failed : (registry.insert owner record).1 = none) :
    registry.slots.length = 2 ^ 24 ∧
      ∀ slot ∈ registry.slots, slot.value.isSome ∨ slot.retired = true := by
  obtain ⟨-, empty, full⟩ := insert_none wellFormed valid failed
  refine ⟨full, ?_⟩
  intro slot member
  obtain ⟨index, found⟩ := List.getElem?_of_mem member
  by_contra vacant
  rw [not_or, Option.not_isSome_iff_eq_none, Bool.not_eq_true] at vacant
  have free := (wellFormed.free index).mpr ⟨slot, found, vacant⟩
  rw [empty] at free
  cases free

private theorem size_eq_resolving {registry : GenerationRegistry Record type}
    (wellFormed : registry.WellFormed) (valid : type ≠ .invalid) :
    ∃ identities : List Nat, identities.Nodup ∧
      (∀ identity, identity ∈ identities ↔
        ∃ owner, (registry.resolve owner identity).isSome) ∧
      registry.size = identities.length := by
  refine ⟨registry.entries.map Entry.identity, entries_identity_nodup wellFormed, ?_, ?_⟩
  · intro identity
    simp only [List.mem_map, Option.isSome_iff_exists,
      resolve_eq_some_iff wellFormed valid]
    constructor
    · rintro ⟨⟨identity, owner, record⟩, member, rfl⟩
      exact ⟨owner, record, member⟩
    · rintro ⟨owner, record, member⟩
      exact ⟨_, member, rfl⟩
  · rw [size, wellFormed.live, List.length_map]

/-- Generation handles never alias, over any history of calls. -/
theorem handles_never_alias (valid : type ≠ .invalid) (initialGeneration : UInt32)
    (calls : List (Call Record)) :
    (Execution.run Tracked.perform
      (Tracked.start initialGeneration : Tracked Record type) calls).NeverAlias := by
  have refines : (Execution.run Tracked.perform
      (Tracked.start initialGeneration : Tracked Record type) calls).Refines :=
    Execution.run_invariant (Tracked.perform_refines valid)
      (Tracked.start_refines initialGeneration) calls
  generalize Execution.run Tracked.perform
    (Tracked.start initialGeneration : Tracked Record type) calls = state at refines
  have liveIssued : ∀ owner identity, (state.registry.resolve owner identity).isSome →
      identity ∈ state.ledger.issued := by
    intro owner identity resolves
    apply refines.liveIssued
    rw [refines.resolve_eq valid, Ledger.resolve] at resolves
    cases known : state.ledger.live identity with
    | none => simp [known] at resolves
    | some entry => rfl
  refine ⟨refines.resolve_eq valid, refines.issuedNodup, liveIssued, ?_, ?_,
    size_eq_resolving refines.wellFormed valid, refines.wellFormed.freeNodup,
    refines.wellFormed.free, fun owner record => insert_exhausted refines.wellFormed valid⟩
  · intro identity issued unresolved calls owner
    have dead : state.ledger.live identity = none := by
      cases known : state.ledger.live identity with
      | none => rfl
      | some entry =>
          have here := unresolved entry.1
          simp [refines.resolve_eq valid, Ledger.resolve, known] at here
    rw [(Execution.run_invariant (Tracked.perform_refines valid) refines calls).resolve_eq
      valid, Ledger.resolve, Tracked.run_keeps_dead valid calls refines issued dead]
  · intro owner identity
    cases resolved : state.registry.resolve owner identity with
    | none => simp [erase_of_resolve_none resolved]
    | some record => simp [(erase_of_resolve refines.wellFormed valid resolved).1]

/-- Slot 0 is reused at the last 32-bit generation after its first handle has
been erased. -/
theorem handles_never_alias_context :
    (Execution.run Tracked.perform
      (Tracked.start 4294967294 : Tracked Nat .context)
      [.insert 7 10, .erase 7 (packIdentity 1 4294967294 0), .insert 7 20]).NeverAlias :=
  handles_never_alias (by decide) 4294967294 _

end GenerationRegistry

end Ugdr.Control
