import Mathlib.Algebra.Group.Nat.Defs
import Mathlib.Data.Nat.ModEq
import Mathlib.Logic.Function.Basic

/-! # Cells handed over with phase barriers

Every cell has a barrier that the writer arrives at when the cell is filled, and one that the
reader arrives at when it has been read. Both count on without bound, and both sides look at
the parity of their phases only. The entries go round robin to the workers, and each worker has
`depth` cells. This file is independent of what is handed over.
-/

namespace Ugdr.Handshake

universe u

/-! ## Barriers -/

/-- Whether the wait for the phase of this parity returns, when so many phases are complete. -/
def passed (completed : Nat) (parity : Bool) : Bool :=
  decide (completed % 2 = 1) != parity

theorem passed_iff {completed : Nat} {parity : Bool} :
    passed completed parity = true ↔ decide (completed % 2 = 1) ≠ parity :=
  bne_iff_ne

/-- The parity of the phase that a turn uses. -/
def parity (turn : Nat) : Bool :=
  decide (turn % 2 = 1)

/-- The wait for the phase before that of a turn. -/
theorem eq_of_passed_not {completed turn : Nat} (near : turn ≤ completed + 1)
    (bound : completed ≤ turn) (passes : passed completed (!parity turn) = true) :
    completed = turn := by
  rw [passed_iff, parity, ne_eq, Bool.eq_not, not_not, decide_eq_decide] at passes
  omega

/-- The wait for the phase of a turn. -/
theorem eq_of_passed {completed turn : Nat} (near : turn ≤ completed)
    (bound : completed ≤ turn + 1) (passes : passed completed (parity turn) = true) :
    completed = turn + 1 := by
  rw [passed_iff, parity, ne_eq, decide_eq_decide] at passes
  omega

/-- The phase before that of a turn is complete. -/
theorem passed_not_parity (turn : Nat) : passed turn (!parity turn) = true := by
  rw [passed_iff, parity]
  exact Bool.self_ne_not _

/-- The phase of a turn is complete, and the one after it is not. -/
theorem passed_parity (turn : Nat) : passed (turn + 1) (parity turn) = true := by
  rw [passed_iff, parity, ne_eq, decide_eq_decide]
  omega

/-! ## Cells and turns -/

structure Cell (α : Type u) where
  value : α
  /-- The phases of the barrier at which the writer arrives. -/
  ready : Nat := 0
  /-- The phases of the barrier at which the reader arrives. -/
  consumed : Nat := 0

/-- The cell of an entry. -/
def cell (workers depth index : Nat) : Nat :=
  index % workers * depth + index / workers % depth

/-- How often the cell of an entry has been used before it. -/
def turn (workers depth index : Nat) : Nat :=
  index / workers / depth

variable {workers depth : Nat}

theorem eq_of_cell_turn {left right : Nat} (positive : 0 < depth)
    (cells : cell workers depth left = cell workers depth right)
    (turns : turn workers depth left = turn workers depth right) : left = right := by
  unfold cell at cells
  unfold turn at turns
  have places := congrArg (· % depth) cells
  rw [Nat.mul_add_mod_self_right, Nat.mul_add_mod_self_right, Nat.mod_mod, Nat.mod_mod] at places
  have owners : left % workers = right % workers := by
    rw [places] at cells
    exact Nat.eq_of_mul_eq_mul_right positive (Nat.add_right_cancel cells)
  have locals : left / workers = right / workers := by
    rw [← Nat.div_add_mod (left / workers) depth, ← Nat.div_add_mod (right / workers) depth, turns,
      places]
  rw [← Nat.div_add_mod left workers, ← Nat.div_add_mod right workers, locals, owners]

/-- Entries that share a cell are whole turns of all cells apart. -/
theorem cell_ne_of_near {left right : Nat} (positive : 0 < depth) (less : left < right)
    (near : right < left + workers * depth) :
    cell workers depth left ≠ cell workers depth right := by
  intro cells
  unfold cell at cells
  have places := congrArg (· % depth) cells
  rw [Nat.mul_add_mod_self_right, Nat.mul_add_mod_self_right, Nat.mod_mod, Nat.mod_mod] at places
  have owners : left % workers = right % workers := by
    rw [places] at cells
    exact Nat.eq_of_mul_eq_mul_right positive (Nat.add_right_cancel cells)
  have same : left % (workers * depth) = right % (workers * depth) := by
    rw [Nat.mod_mul, Nat.mod_mul, owners, places]
  have apart := (Nat.modEq_iff_dvd' less.le).mp same
  have := Nat.eq_zero_of_dvd_of_lt apart (by omega)
  omega

theorem previous_cell (workersPos : 0 < workers) {index : Nat} (later : workers * depth ≤ index) :
    cell workers depth (index - workers * depth) = cell workers depth index := by
  obtain ⟨earlier, rfl⟩ := Nat.exists_eq_add_of_le' later
  rw [Nat.add_sub_cancel, cell, cell, Nat.add_mul_mod_self_left,
    Nat.add_mul_div_left _ _ workersPos,
    Nat.add_mod_right]

theorem previous_turn (workersPos : 0 < workers) (depthPos : 0 < depth) {index : Nat}
    (later : workers * depth ≤ index) :
    turn workers depth (index - workers * depth) + 1 = turn workers depth index := by
  obtain ⟨earlier, rfl⟩ := Nat.exists_eq_add_of_le' later
  rw [Nat.add_sub_cancel, turn, turn, Nat.add_mul_div_left _ _ workersPos,
    Nat.add_div_right _ depthPos]

theorem later_of_turn {index : Nat} (used : turn workers depth index ≠ 0) :
    workers * depth ≤ index := by
  by_contra early
  apply used
  rw [turn, Nat.div_div_eq_div_mul]
  exact Nat.div_eq_of_lt (Nat.not_le.mp early)

/-! ## Counters -/

/-- A counter for each cell counts the turns of the entries that are done. -/
def Tracks (workers depth : Nat) (count : Nat → Nat) (done : Nat → Prop) : Prop :=
  ∀ index, done index ↔ turn workers depth index < count (cell workers depth index)

namespace Tracks

variable {count : Nat → Nat} {done later : Nat → Prop} {index : Nat}

theorem congr (tracks : Tracks workers depth count done)
    (same : ∀ index, later index ↔ done index) : Tracks workers depth count later :=
  fun index => (same index).trans (tracks index)

theorem le_turn (tracks : Tracks workers depth count done) (undone : ¬done index) :
    count (cell workers depth index) ≤ turn workers depth index :=
  Nat.not_lt.mp (mt (tracks index).mpr undone)

theorem turn_le (tracks : Tracks workers depth count done) (workersPos : 0 < workers)
    (depthPos : 0 < depth)
    (previous : workers * depth ≤ index → done (index - workers * depth)) :
    turn workers depth index ≤ count (cell workers depth index) := by
  by_cases first : turn workers depth index = 0
  · omega
  · have far := later_of_turn first
    have counted := (tracks _).mp (previous far)
    rw [previous_cell workersPos far] at counted
    have := previous_turn workersPos depthPos far
    omega

/-- The counter of a cell when its next entry is due. -/
theorem eq_turn (tracks : Tracks workers depth count done) (workersPos : 0 < workers)
    (depthPos : 0 < depth) (undone : ¬done index)
    (previous : workers * depth ≤ index → done (index - workers * depth)) :
    count (cell workers depth index) = turn workers depth index :=
  Nat.le_antisymm (tracks.le_turn undone) (tracks.turn_le workersPos depthPos previous)

theorem push (tracks : Tracks workers depth count done) (depthPos : 0 < depth)
    (due : count (cell workers depth index) = turn workers depth index)
    (also : ∀ other, later other ↔ other = index ∨ done other) :
    Tracks workers depth
      (Function.update count (cell workers depth index) (turn workers depth index + 1)) later := by
  intro other
  rw [also, tracks, Function.update_apply]
  split_ifs with same
  · rw [same, due]
    constructor
    · rintro (rfl | before)
      · exact Nat.lt_succ_self _
      · omega
    · intro before
      rcases Nat.lt_succ_iff_lt_or_eq.mp before with less | equal
      · exact .inr less
      · exact .inl (eq_of_cell_turn depthPos same equal)
  · refine or_iff_right ?_
    rintro rfl
    exact same rfl

end Tracks

/-! ## Channels -/

variable {α : Type u}

/-- The cells hand over the entries that are filled and not taken yet. -/
structure Channel (workers depth : Nat) (cells : Nat → Cell α) (filled taken : Nat → Prop)
    (value : Nat → α) : Prop where
  ready : Tracks workers depth (fun cell => (cells cell).ready) filled
  consumed : Tracks workers depth (fun cell => (cells cell).consumed) taken
  ordered : ∀ index, taken index → filled index
  /-- The writer has waited for the reader of the entry that was in the cell before. -/
  waited : ∀ index, filled index → workers * depth ≤ index → taken (index - workers * depth)
  holds : ∀ index, filled index → ¬taken index →
    (cells (cell workers depth index)).value = value index

theorem channel_empty (value : Nat → α) (initial : α) :
    Channel workers depth (fun _ => { value := initial }) (fun _ => False) (fun _ => False)
      value where
  ready := fun _ => iff_of_false id (Nat.not_lt_zero _)
  consumed := fun _ => iff_of_false id (Nat.not_lt_zero _)
  ordered := fun _ => id
  waited := fun _ filled => filled.elim
  holds := fun _ filled => filled.elim

namespace Channel

variable {cells : Nat → Cell α} {filled taken : Nat → Prop} {value : Nat → α} {index : Nat}

theorem congr (channel : Channel workers depth cells filled taken value)
    {filled' taken' : Nat → Prop} {value' : Nat → α} (same : ∀ index, filled' index ↔ filled index)
    (sameTaken : ∀ index, taken' index ↔ taken index)
    (values : ∀ index, filled index → ¬taken index → value' index = value index) :
    Channel workers depth cells filled' taken' value' where
  ready := channel.ready.congr same
  consumed := channel.consumed.congr sameTaken
  ordered := fun index before =>
    (same index).mpr (channel.ordered index ((sameTaken index).mp before))
  waited := fun index before far =>
    (sameTaken _).mpr (channel.waited index ((same index).mp before) far)
  holds := fun index before untaken => by
    rw [same] at before
    rw [sameTaken] at untaken
    rw [values index before untaken]
    exact channel.holds index before untaken

section

variable (channel : Channel workers depth cells filled taken value) (workersPos : 0 < workers)
  (depthPos : 0 < depth)

include channel workersPos depthPos

/-- The wait of the writer returns when the entry before was taken. -/
theorem previous_taken (unfilled : ¬filled index)
    (previous : workers * depth ≤ index → filled (index - workers * depth))
    (passes : passed (cells (cell workers depth index)).consumed
      (!parity (turn workers depth index)) = true) (far : workers * depth ≤ index) :
    taken (index - workers * depth) := by
  have untaken : ¬taken index := mt (channel.ordered index) unfilled
  have bound := channel.consumed.le_turn untaken
  have near : turn workers depth index ≤ (cells (cell workers depth index)).consumed + 1 := by
    have counted := @Tracks.turn_le workers depth _ taken (index - workers * depth)
      channel.consumed workersPos depthPos (channel.waited _ (previous far))
    rw [previous_cell workersPos far] at counted
    have step := previous_turn workersPos depthPos far
    omega
  have equal := eq_of_passed_not near bound passes
  rw [channel.consumed, previous_cell workersPos far]
  dsimp only
  rw [equal]
  have step := previous_turn workersPos depthPos far
  omega

/-- The writer is at most one turn ahead of the reader. -/
theorem ready_le (untaken : ¬taken index) :
    (cells (cell workers depth index)).ready ≤ turn workers depth index + 1 := by
  have unfilled : ¬filled (index + workers * depth) := by
    intro later
    have waited := channel.waited _ later (Nat.le_add_left ..)
    rw [Nat.add_sub_cancel] at waited
    exact untaken waited
  have far : workers * depth ≤ index + workers * depth := Nat.le_add_left ..
  have limit := channel.ready.le_turn unfilled
  have same := previous_cell workersPos far
  have step := previous_turn workersPos depthPos far
  rw [Nat.add_sub_cancel] at same step
  rw [← same, ← step] at limit
  exact limit

/-- The wait of the reader returns when the entry is filled. -/
theorem filled_of_passed (untaken : ¬taken index)
    (previous : workers * depth ≤ index → taken (index - workers * depth))
    (passes : passed (cells (cell workers depth index)).ready
      (parity (turn workers depth index)) = true) : filled index := by
  have near : turn workers depth index ≤ (cells (cell workers depth index)).ready :=
    channel.ready.turn_le workersPos depthPos
      fun far => channel.ordered _ (previous far)
  have bound := channel.ready_le workersPos depthPos untaken
  have equal := eq_of_passed near bound passes
  rw [channel.ready]
  dsimp only
  rw [equal]
  exact Nat.lt_succ_self _

/-- The writer does not wait when the entry before was taken. -/
theorem writer_passes (unfilled : ¬filled index)
    (previous : workers * depth ≤ index → taken (index - workers * depth)) :
    passed (cells (cell workers depth index)).consumed
      (!parity (turn workers depth index)) = true := by
  have untaken : ¬taken index := mt (channel.ordered index) unfilled
  have due : (cells (cell workers depth index)).consumed = turn workers depth index :=
    channel.consumed.eq_turn workersPos depthPos untaken previous
  rw [due]
  exact passed_not_parity _

/-- The reader does not wait when the entry is filled. -/
theorem reader_passes (waiting : filled index) (untaken : ¬taken index) :
    passed (cells (cell workers depth index)).ready
      (parity (turn workers depth index)) = true := by
  have bound := channel.ready_le workersPos depthPos untaken
  have counted : turn workers depth index < (cells (cell workers depth index)).ready :=
    (channel.ready index).mp waiting
  have equal : (cells (cell workers depth index)).ready = turn workers depth index + 1 := by
    omega
  rw [equal]
  exact passed_parity _

/-- A cell whose entry was taken shows no other entry. -/
theorem cell_ne {other : Nat} (unfilled : ¬filled index)
    (previous : workers * depth ≤ index → taken (index - workers * depth))
    (waiting : filled other) (untaken : ¬taken other) :
    cell workers depth other ≠ cell workers depth index := by
  intro same
  have before := (channel.ready other).mp waiting
  have limit := channel.ready.le_turn unfilled
  have reached := channel.consumed.turn_le workersPos depthPos previous
  rw [same] at before
  apply untaken
  rw [channel.consumed, same]
  dsimp only at before limit reached ⊢
  omega

/-- The writer fills a cell whose entry was taken. -/
theorem write (unfilled : ¬filled index)
    (previous : workers * depth ≤ index → taken (index - workers * depth)) (written : α) :
    Channel workers depth
      (Function.update cells (cell workers depth index)
        { cells (cell workers depth index) with value := written }) filled taken value := by
  have ready : (fun other => (Function.update cells (cell workers depth index)
      { cells (cell workers depth index) with value := written } other).ready) =
        fun other => (cells other).ready := by
    funext other
    rw [Function.update_apply]
    split_ifs with same
    · rw [same]
    · rfl
  have consumed : (fun other => (Function.update cells (cell workers depth index)
      { cells (cell workers depth index) with value := written } other).consumed) =
        fun other => (cells other).consumed := by
    funext other
    rw [Function.update_apply]
    split_ifs with same
    · rw [same]
    · rfl
  refine ⟨?_, ?_, channel.ordered, channel.waited, fun other waiting untaken => ?_⟩
  · rw [ready]
    exact channel.ready
  · rw [consumed]
    exact channel.consumed
  · rw [Function.update_of_ne
      (channel.cell_ne workersPos depthPos unfilled previous waiting untaken)]
    exact channel.holds other waiting untaken

/-- The writer arrives at the barrier of a cell that it has written. -/
theorem fill {later : Nat → Prop} (unfilled : ¬filled index)
    (previous : workers * depth ≤ index → taken (index - workers * depth))
    (written : (cells (cell workers depth index)).value = value index)
    (also : ∀ other, later other ↔ other = index ∨ filled other) :
    Channel workers depth
      (Function.update cells (cell workers depth index)
        { cells (cell workers depth index) with
          ready := (cells (cell workers depth index)).ready + 1 }) later taken value := by
  have due := channel.ready.eq_turn workersPos depthPos unfilled
    fun far => channel.ordered _ (previous far)
  have ready : (fun other => (Function.update cells (cell workers depth index)
      { cells (cell workers depth index) with
        ready := (cells (cell workers depth index)).ready + 1 } other).ready) =
      Function.update (fun other => (cells other).ready) (cell workers depth index)
        (turn workers depth index + 1) := by
    funext other
    rw [Function.update_apply, Function.update_apply]
    split_ifs with same
    · exact congrArg (· + 1) due
    · rfl
  have consumed : (fun other => (Function.update cells (cell workers depth index)
      { cells (cell workers depth index) with
        ready := (cells (cell workers depth index)).ready + 1 } other).consumed) =
        fun other => (cells other).consumed := by
    funext other
    rw [Function.update_apply]
    split_ifs with same
    · rw [same]
    · rfl
  refine ⟨?_, ?_, fun other before => (also other).mpr (.inr (channel.ordered other before)),
    fun other before far => ?_, fun other before untaken => ?_⟩
  · rw [ready]
    exact channel.ready.push depthPos due also
  · rw [consumed]
    exact channel.consumed
  · rcases (also other).mp before with rfl | old
    · exact previous far
    · exact channel.waited other old far
  · rcases (also other).mp before with rfl | old
    · rw [Function.update_self]
      exact written
    · rw [Function.update_of_ne
        (channel.cell_ne workersPos depthPos unfilled previous old untaken)]
      exact channel.holds other old untaken

/-- The reader arrives at the barrier of a cell that it has read. -/
theorem take {later : Nat → Prop} (waiting : filled index) (untaken : ¬taken index)
    (previous : workers * depth ≤ index → taken (index - workers * depth))
    (also : ∀ other, later other ↔ other = index ∨ taken other) :
    Channel workers depth
      (Function.update cells (cell workers depth index)
        { cells (cell workers depth index) with
          consumed := (cells (cell workers depth index)).consumed + 1 }) filled later value := by
  have due := channel.consumed.eq_turn workersPos depthPos untaken previous
  have ready : (fun other => (Function.update cells (cell workers depth index)
      { cells (cell workers depth index) with
        consumed := (cells (cell workers depth index)).consumed + 1 } other).ready) =
        fun other => (cells other).ready := by
    funext other
    rw [Function.update_apply]
    split_ifs with same
    · rw [same]
    · rfl
  have consumed : (fun other => (Function.update cells (cell workers depth index)
      { cells (cell workers depth index) with
        consumed := (cells (cell workers depth index)).consumed + 1 } other).consumed) =
      Function.update (fun other => (cells other).consumed) (cell workers depth index)
        (turn workers depth index + 1) := by
    funext other
    rw [Function.update_apply, Function.update_apply]
    split_ifs with same
    · exact congrArg (· + 1) due
    · rfl
  refine ⟨?_, ?_, fun other before => ?_, fun other before far => ?_,
    fun other before untaken => ?_⟩
  · rw [ready]
    exact channel.ready
  · rw [consumed]
    exact channel.consumed.push depthPos due also
  · rcases (also other).mp before with rfl | old
    · exact waiting
    · exact channel.ordered other old
  · exact (also _).mpr (.inr (channel.waited other before far))
  · rw [also, not_or] at untaken
    rw [Function.update_apply]
    split_ifs with same
    · rw [← same]
      exact channel.holds other before untaken.2
    · exact channel.holds other before untaken.2

end

end Channel

end Ugdr.Handshake
