import Mathlib.Data.Nat.ModEq
import Mathlib.Logic.Function.Basic

/-! # Slots with sequence numbers

Every slot has a number that says whose turn it is: the writer of an entry waits for the index of
the entry, the reader for the index behind it, and the reader gives the slot to the entry that is
`depth` further on. The numbers count on without bound. This file is independent of what is handed
over.
-/

namespace Ugdr.Sequenced

universe u

structure Slot (α : Type u) where
  value : α
  sequence : Nat

variable {α : Type u} {depth : Nat} {slots : Nat → Slot α} {index other : Nat}

/-- The writer of an entry may write its slot. -/
def Open (depth : Nat) (slots : Nat → Slot α) (index : Nat) : Prop :=
  (slots (index % depth)).sequence = index

/-- The reader of an entry may read its slot. -/
def Full (depth : Nat) (slots : Nat → Slot α) (index : Nat) : Prop :=
  (slots (index % depth)).sequence = index + 1

/-- The entry was handed over. -/
def Filled (depth : Nat) (slots : Nat → Slot α) (index : Nat) : Prop :=
  index < (slots (index % depth)).sequence

/-- The slot of the entry was given back. -/
def Taken (depth : Nat) (slots : Nat → Slot α) (index : Nat) : Prop :=
  index + depth ≤ (slots (index % depth)).sequence

/-! ## Indices of one slot -/

theorem not_succ_mod (many : 2 ≤ depth) : (index + 1) % depth ≠ index % depth := by
  intro same
  have modulo : 1 ≡ 0 [MOD depth] := Nat.ModEq.add_left_cancel' index same
  have zero := (Nat.modEq_zero_iff_dvd.mp modulo)
  have := Nat.le_of_dvd Nat.one_pos zero
  omega

/-- Entries that use the same slot are whole rounds apart. -/
theorem near_of_mod_eq (same : other % depth = index % depth) (below : other < index + depth) :
    other ≤ index ∧ (other = index ∨ other + depth ≤ index) := by
  rcases Nat.lt_trichotomy other index with less | equal | greater
  · have apart := (Nat.modEq_iff_dvd' less.le).mp same
    have := Nat.le_of_dvd (Nat.sub_pos_of_lt less) apart
    omega
  · omega
  · have apart := (Nat.modEq_iff_dvd' greater.le).mp same.symm
    have := Nat.le_of_dvd (Nat.sub_pos_of_lt greater) apart
    omega

/-! ## Channels -/

/-- The numbers of the slots are those of their entries, and an entry stays in its slot until the
slot is given back. -/
structure Channel (depth : Nat) (slots : Nat → Slot α) (value : Nat → α) : Prop where
  sound : ∀ place < depth, ∃ index, index % depth = place ∧
    (Open depth slots index ∨ Full depth slots index)
  holds : ∀ index, Filled depth slots index → ¬Taken depth slots index →
    (slots (index % depth)).value = value index

theorem initial_channel (initial : α) (value : Nat → α) :
    Channel depth (fun place => { value := initial, sequence := place }) value where
  sound := fun place inside => ⟨place, Nat.mod_eq_of_lt inside, .inl (Nat.mod_eq_of_lt inside)⟩
  holds := fun index filled => absurd filled (Nat.not_lt.mpr (Nat.mod_le index depth))

theorem not_filled_initial (initial : α) :
    ¬Filled depth (fun place => { value := initial, sequence := place }) index :=
  Nat.not_lt.mpr (Nat.mod_le index depth)

theorem not_taken_initial (initial : α) (positive : 0 < depth) :
    ¬Taken depth (fun place => { value := initial, sequence := place }) index := by
  unfold Taken
  have := Nat.mod_le index depth
  dsimp only
  omega

theorem filled_of_taken (positive : 0 < depth) (taken : Taken depth slots index) :
    Filled depth slots index :=
  Nat.lt_of_lt_of_le (Nat.lt_add_of_pos_right positive) taken

theorem Full.filled (full : Full depth slots index) : Filled depth slots index :=
  Nat.lt_of_lt_of_eq (Nat.lt_succ_self index) full.symm

theorem Full.not_taken (many : 2 ≤ depth) (full : Full depth slots index) :
    ¬Taken depth slots index := by
  unfold Taken
  rw [full]
  omega

namespace Channel

variable {value : Nat → α} (channel : Channel depth slots value)

theorem congr {value' : Nat → α} (channel : Channel depth slots value)
    (values : ∀ index, Filled depth slots index → ¬Taken depth slots index →
      value' index = value index) : Channel depth slots value' where
  sound := channel.sound
  holds := fun index filled untaken =>
    (channel.holds index filled untaken).trans (values index filled untaken).symm

include channel

theorem full_of_filled (positive : 0 < depth) (filled : Filled depth slots index)
    (untaken : ¬Taken depth slots index) : Full depth slots index := by
  unfold Filled at filled
  unfold Taken at untaken
  obtain ⟨entry, place, shown⟩ := channel.sound (index % depth) (Nat.mod_lt index positive)
  unfold Open Full at shown
  rw [place] at shown
  unfold Full
  rcases shown with open_ | full
  · have near := near_of_mod_eq place (by omega)
    omega
  · have near := near_of_mod_eq place (by omega)
    omega

theorem open_of_taken (positive : 0 < depth) (unfilled : ¬Filled depth slots index)
    (previous : depth ≤ index → Taken depth slots (index - depth)) :
    Open depth slots index := by
  unfold Filled at unfilled
  unfold Open
  by_cases far : depth ≤ index
  · have taken := previous far
    unfold Taken at taken
    rw [← Nat.mod_eq_sub_mod far] at taken
    omega
  · obtain ⟨entry, place, shown⟩ := channel.sound (index % depth) (Nat.mod_lt index positive)
    unfold Open Full at shown
    rw [place] at shown
    have first := Nat.mod_eq_of_lt (Nat.not_le.mp far)
    have := Nat.mod_le entry depth
    omega

end Channel

/-! ## Slots of different entries -/

/-- The slot of the writer of one entry is not the slot of another reader or writer. -/
theorem Open.place_ne (many : 2 ≤ depth) (open_ : Open depth slots index)
    (used : Full depth slots other ∨ Open depth slots other ∧ other ≠ index) :
    other % depth ≠ index % depth := by
  intro same
  unfold Open Full at *
  rcases used with full | ⟨open_', different⟩
  · rw [same, open_] at full
    rw [full] at same
    exact not_succ_mod many same.symm
  · rw [same, open_] at open_'
    exact different open_'.symm

/-- The slot of the reader of one entry is not the slot of another reader or writer. -/
theorem Full.place_ne (many : 2 ≤ depth) (full : Full depth slots index)
    (used : Open depth slots other ∨ Full depth slots other ∧ other ≠ index) :
    other % depth ≠ index % depth := by
  intro same
  unfold Open Full at *
  rcases used with open_ | ⟨full', different⟩
  · rw [same, full] at open_
    rw [← open_] at same
    exact not_succ_mod many same
  · rw [same, full] at full'
    exact different (Nat.succ_injective full').symm

/-! ## Steps -/

section

variable {value : Nat → α} (channel : Channel depth slots value) (many : 2 ≤ depth)

/-- The writer writes. -/
def write (depth : Nat) (slots : Nat → Slot α) (index : Nat) (written : α) : Nat → Slot α :=
  Function.update slots (index % depth) { slots (index % depth) with value := written }

/-- The next number of a slot. -/
def store (depth : Nat) (slots : Nat → Slot α) (index sequence : Nat) : Nat → Slot α :=
  Function.update slots (index % depth) { slots (index % depth) with sequence }

theorem sequence_write (written : α) (place : Nat) :
    (write depth slots index written place).sequence = (slots place).sequence := by
  unfold write
  rw [Function.update_apply]
  split_ifs with same
  · rw [same]
  · rfl

theorem filled_write (written : α) :
    Filled depth (write depth slots index written) other ↔ Filled depth slots other := by
  unfold Filled
  rw [sequence_write]

theorem taken_write (written : α) :
    Taken depth (write depth slots index written) other ↔ Taken depth slots other := by
  unfold Taken
  rw [sequence_write]

theorem filled_publish (open_ : Open depth slots index) :
    Filled depth (store depth slots index (index + 1)) other ↔
      other = index ∨ Filled depth slots other := by
  unfold Filled store
  unfold Open at open_
  rw [Function.update_apply]
  split_ifs with same
  · rw [same, open_]
    dsimp only
    omega
  · refine (or_iff_right ?_).symm
    rintro rfl
    exact same rfl

theorem taken_publish (many : 2 ≤ depth) (open_ : Open depth slots index) :
    Taken depth (store depth slots index (index + 1)) other ↔ Taken depth slots other := by
  unfold Taken store
  unfold Open at open_
  rw [Function.update_apply]
  split_ifs with same
  · rw [same, open_]
    dsimp only
    constructor
    · intro taken
      rcases Nat.le_succ_iff.mp taken with less | equal
      · exact less
      · have shifted : (other + depth) % depth = index % depth := by
          rw [Nat.add_mod_right, same]
        rw [equal] at shifted
        exact absurd shifted (not_succ_mod many)
    · omega
  · rfl

theorem filled_release (many : 2 ≤ depth) (full : Full depth slots index) :
    Filled depth (store depth slots index (index + depth)) other ↔ Filled depth slots other := by
  unfold Filled store
  unfold Full at full
  rw [Function.update_apply]
  split_ifs with same
  · rw [same, full]
    dsimp only
    constructor
    · intro below
      have near := near_of_mod_eq same below
      omega
    · omega
  · rfl

theorem taken_release (many : 2 ≤ depth) (full : Full depth slots index) :
    Taken depth (store depth slots index (index + depth)) other ↔
      other = index ∨ Taken depth slots other := by
  unfold Taken store
  unfold Full at full
  rw [Function.update_apply]
  split_ifs with same
  · rw [same, full]
    dsimp only
    constructor
    · intro taken
      have near := near_of_mod_eq same (by omega)
      omega
    · omega
  · refine (or_iff_right ?_).symm
    rintro rfl
    exact same rfl

include channel many

theorem Channel.write (open_ : Open depth slots index) (written : α) :
    Channel depth (write depth slots index written) value where
  sound := fun place inside => by
    obtain ⟨entry, here, shown⟩ := channel.sound place inside
    refine ⟨entry, here, ?_⟩
    unfold Open Full at *
    rw [sequence_write]
    exact shown
  holds := fun entry filled untaken => by
    rw [filled_write] at filled
    rw [taken_write] at untaken
    have full := channel.full_of_filled (by omega) filled untaken
    have apart := open_.place_ne many (.inl full)
    unfold Sequenced.write
    rw [Function.update_of_ne apart]
    exact channel.holds entry filled untaken

theorem Channel.publish (open_ : Open depth slots index)
    (written : (slots (index % depth)).value = value index) :
    Channel depth (store depth slots index (index + 1)) value where
  sound := fun place inside => by
    by_cases here : place = index % depth
    · refine ⟨index, here.symm, .inr ?_⟩
      unfold Full store
      rw [Function.update_self]
    · obtain ⟨entry, rfl, shown⟩ := channel.sound place inside
      refine ⟨entry, rfl, ?_⟩
      unfold Open Full store at *
      rw [Function.update_of_ne here]
      exact shown
  holds := fun entry filled untaken => by
    rw [filled_publish open_] at filled
    rw [taken_publish many open_] at untaken
    unfold store
    rcases filled with rfl | filled
    · rw [Function.update_self]
      exact written
    · have full := channel.full_of_filled (by omega) filled untaken
      rw [Function.update_of_ne (open_.place_ne many (.inl full))]
      exact channel.holds entry filled untaken

theorem Channel.release (full : Full depth slots index) :
    Channel depth (store depth slots index (index + depth)) value where
  sound := fun place inside => by
    by_cases here : place = index % depth
    · refine ⟨index + depth, by rw [Nat.add_mod_right, here], .inl ?_⟩
      unfold Open store
      rw [Nat.add_mod_right, Function.update_self]
    · obtain ⟨entry, rfl, shown⟩ := channel.sound place inside
      refine ⟨entry, rfl, ?_⟩
      unfold Open Full store at *
      rw [Function.update_of_ne here]
      exact shown
  holds := fun entry filled untaken => by
    rw [filled_release many full] at filled
    rw [taken_release many full, not_or] at untaken
    have waiting := channel.full_of_filled (by omega) filled untaken.2
    unfold store
    rw [Function.update_of_ne (full.place_ne many (.inr ⟨waiting, untaken.1⟩))]
    exact channel.holds entry filled untaken.2

end

end Ugdr.Sequenced
