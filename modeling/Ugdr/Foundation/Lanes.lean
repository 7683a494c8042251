import Mathlib.Algebra.BigOperators.Group.Finset.Piecewise
import Mathlib.Data.Fintype.Basic
import Mathlib.Data.List.Count
import Ugdr.Foundation.Execution
import Ugdr.Foundation.Memory

/-! # Lanes that copy memory

Lanes that run at the same time, each with a list of accesses. An access loads bytes into a
register of its lane and stores them elsewhere, in two steps, with steps of other lanes between
them. As long as nothing is stored where something is loaded, the order does not matter.
-/

namespace Ugdr.Lanes

/-- Bytes to move. -/
structure Access where
  source : Nat
  target : Nat
  width : Nat
  deriving DecidableEq, Repr

namespace Access

/-- The access stores a byte there. -/
def Covers (access : Access) (position : Nat) : Prop :=
  access.target ≤ position ∧ position < access.target + access.width

instance (access : Access) (position : Nat) : Decidable (access.Covers position) :=
  inferInstanceAs (Decidable (_ ∧ _))

def Aligned (access : Access) : Prop :=
  access.width ∣ access.source ∧ access.width ∣ access.target

/-- The access moves bytes from one range to the same place in the other. -/
def Within (source target length : Nat) (access : Access) : Prop :=
  ∃ offset, access.source = source + offset ∧ access.target = target + offset ∧
    offset + access.width ≤ length

end Access

variable {Lane : Type*} [DecidableEq Lane]

structure State (Lane : Type*) where
  memory : Memory
  /-- The accesses that a lane has not begun. -/
  remaining : Lane → List Access
  /-- The access that a lane has loaded, with what it loaded. -/
  register : Lane → Option (Access × Nat) := fun _ => none
  stored : List (Lane × Access) := []

def step (state : State Lane) (lane : Lane) : State Lane :=
  match state.register lane with
  | some (access, value) =>
      { state with
        memory := state.memory.store access.target access.width value
        register := Function.update state.register lane none
        stored := state.stored ++ [(lane, access)] }
  | none =>
      match state.remaining lane with
      | [] => state
      | access :: accesses =>
          { state with
            remaining := Function.update state.remaining lane accesses
            register :=
              Function.update state.register lane
                (some (access, state.memory.load access.source access.width)) }

def Finished (state : State Lane) : Prop :=
  ∀ lane, state.remaining lane = [] ∧ state.register lane = none

/-- The cases of a step. -/
theorem step_cases (state : State Lane) (lane : Lane) :
    (∃ access value, state.register lane = some (access, value) ∧
      step state lane =
        { state with
          memory := state.memory.store access.target access.width value
          register := Function.update state.register lane none
          stored := state.stored ++ [(lane, access)] }) ∨
    (state.register lane = none ∧ state.remaining lane = [] ∧ step state lane = state) ∨
    ∃ access accesses, state.register lane = none ∧ state.remaining lane = access :: accesses ∧
      step state lane =
        { state with
          remaining := Function.update state.remaining lane accesses
          register :=
            Function.update state.register lane
              (some (access, state.memory.load access.source access.width)) } := by
  unfold step
  cases register : state.register lane with
  | some loaded => exact .inl ⟨loaded.1, loaded.2, rfl, rfl⟩
  | none =>
      cases remaining : state.remaining lane with
      | nil => exact .inr (.inl ⟨rfl, rfl, rfl⟩)
      | cons access accesses => exact .inr (.inr ⟨access, accesses, rfl, rfl, rfl⟩)

/-! ## Turns -/

/-- The steps that a lane has left. -/
def State.turns (state : State Lane) (lane : Lane) : Nat :=
  2 * (state.remaining lane).length + (state.register lane).toList.length

theorem turns_step (state : State Lane) (lane other : Lane) :
    (step state lane).turns other =
      if other = lane then state.turns lane - 1 else state.turns other := by
  rcases step_cases state lane with
    ⟨access, value, register, stores⟩ | ⟨register, remaining, same⟩ |
    ⟨access, accesses, register, remaining, loads⟩
  · rw [stores]
    split
    · rename_i own
      subst own
      simp [State.turns, register]
    · rename_i different
      simp [State.turns, Function.update_of_ne different]
  · rw [same]
    split
    · rename_i own
      subst own
      simp [State.turns, register, remaining]
    · rfl
  · rw [loads]
    split
    · rename_i own
      subst own
      simp only [State.turns, register, remaining, Function.update_self, Option.toList_some,
        Option.toList_none, List.length_cons, List.length_nil]
      omega
    · rename_i different
      simp [State.turns, Function.update_of_ne different]

theorem turns_run (state : State Lane) (schedule : List Lane) (lane : Lane) :
    (Execution.run step state schedule).turns lane = state.turns lane - schedule.count lane := by
  induction schedule generalizing state with
  | nil => rfl
  | cons first schedule induction =>
      rw [Execution.run_cons, induction, turns_step, List.count_cons]
      by_cases own : lane = first
      · subst own
        rw [if_pos rfl, if_pos (beq_self_eq_true lane)]
        omega
      · rw [if_neg own, if_neg (by simpa using Ne.symm own), Nat.add_zero]

/-- Every lane that gets enough turns comes to its end. -/
theorem finished_of_turns {state : State Lane} {schedule : List Lane}
    (enough : ∀ lane, state.turns lane ≤ schedule.count lane) :
    Finished (Execution.run step state schedule) := by
  intro lane
  have none : (Execution.run step state schedule).turns lane = 0 := by
    rw [turns_run]
    exact Nat.sub_eq_zero_of_le (enough lane)
  unfold State.turns at none
  constructor
  · exact List.length_eq_zero_iff.mp (by omega)
  · cases register : (Execution.run step state schedule).register lane with
    | none => rfl
    | some loaded =>
        rw [register] at none
        cases none

/-! ## Stores -/

/-- The accesses of a lane: those made, that in its register and those to come. -/
def State.accesses (state : State Lane) (lane : Lane) : List Access :=
  (state.stored.filter fun entry => entry.1 = lane).map Prod.snd ++
    ((state.register lane).toList.map Prod.fst ++ state.remaining lane)

theorem accesses_step (state : State Lane) (lane other : Lane) :
    (step state lane).accesses other = state.accesses other := by
  rcases step_cases state lane with
    ⟨access, value, register, stores⟩ | ⟨register, remaining, same⟩ |
    ⟨access, accesses, register, remaining, loads⟩
  · rw [stores]
    by_cases own : other = lane
    · subst own
      simp [State.accesses, register]
    · simp [State.accesses, Function.update_of_ne own, Ne.symm own]
  · rw [same]
  · rw [loads]
    by_cases own : other = lane
    · subst own
      simp [State.accesses, register, remaining]
    · simp [State.accesses, Function.update_of_ne own]

theorem accesses_run (state : State Lane) (schedule : List Lane) (lane : Lane) :
    (Execution.run step state schedule).accesses lane = state.accesses lane := by
  induction schedule generalizing state with
  | nil => rfl
  | cons first schedule induction => rw [Execution.run_cons, induction, accesses_step]

theorem countP_eq_sum [Fintype Lane] (entries : List (Lane × Access)) (chosen : Access → Bool) :
    entries.countP (fun entry => chosen entry.2) =
      ∑ lane, ((entries.filter fun entry => entry.1 = lane).map Prod.snd).countP chosen := by
  induction entries with
  | nil => simp
  | cons entry entries induction =>
      have split : ∀ lane, (((entry :: entries).filter fun entry => entry.1 = lane).map
          Prod.snd).countP chosen =
          ((entries.filter fun entry => entry.1 = lane).map Prod.snd).countP chosen +
            if entry.1 = lane then (if chosen entry.2 then 1 else 0) else 0 := by
        intro lane
        by_cases own : entry.1 = lane <;> simp [own, List.countP_cons]
      rw [List.countP_cons, induction, Finset.sum_congr rfl fun lane _ => split lane,
        Finset.sum_add_distrib, Finset.sum_ite_eq, if_pos (Finset.mem_univ _)]

/-- At the end every lane has stored what it had to, once. -/
theorem countP_stored [Fintype Lane] {state : State Lane} (fresh : state.stored = [])
    (idle : ∀ lane, state.register lane = none) {schedule : List Lane}
    (finished : Finished (Execution.run step state schedule)) (chosen : Access → Bool) :
    (Execution.run step state schedule).stored.countP (fun entry => chosen entry.2) =
      ∑ lane, (state.remaining lane).countP chosen := by
  rw [countP_eq_sum]
  refine Finset.sum_congr rfl fun lane _ => ?_
  have same := accesses_run state schedule lane
  obtain ⟨remaining, register⟩ := finished lane
  simp only [State.accesses, remaining, register, fresh, idle, Option.toList_none, List.map_nil,
    List.filter_nil, List.nil_append, List.append_nil] at same
  rw [same]

/-! ## Memory -/

/-- Bytes of the target range are copied unless an access that covers them has still to be
stored, and nothing else changes. -/
structure Copying (initial : Memory) (source target length : Nat) (state : State Lane) : Prop where
  remaining : ∀ lane, ∀ access ∈ state.remaining lane, access.Within source target length
  register : ∀ lane access value, state.register lane = some (access, value) →
    access.Within source target length ∧ value = initial.load access.source access.width
  outside : ∀ position, ¬(target ≤ position ∧ position < target + length) →
    state.memory position = initial position
  copied : ∀ offset < length, state.memory (target + offset) = initial (source + offset) ∨
    ∃ lane, (∃ access ∈ state.remaining lane, access.Covers (target + offset)) ∨
      ∃ access value, state.register lane = some (access, value) ∧
        access.Covers (target + offset)

namespace Copying

variable {initial : Memory} {source target length : Nat} {state : State Lane}

theorem store (copying : Copying initial source target length state) {lane : Lane}
    {access : Access} {value : Nat} (loaded : state.register lane = some (access, value)) :
    Copying initial source target length
      { state with
        memory := state.memory.store access.target access.width value
        register := Function.update state.register lane none
        stored := state.stored ++ [(lane, access)] } := by
  obtain ⟨⟨start, from_, onto, inside⟩, rfl⟩ := copying.register lane access value loaded
  have kept : ∀ {other : Lane} {entry : Access × Nat},
      Function.update state.register lane none other = some entry →
        other ≠ lane ∧ state.register other = some entry := by
    intro other entry held
    by_cases own : other = lane
    · rw [own, Function.update_self] at held
      cases held
    · rw [Function.update_of_ne own] at held
      exact ⟨own, held⟩
  refine ⟨copying.remaining, fun other moved value held => ?_, fun position apart => ?_,
    fun offset below => ?_⟩
  · exact copying.register other moved value (kept held).2
  · have free : position < access.target ∨ access.target + access.width ≤ position := by
      omega
    exact (Memory.store_outside free).trans (copying.outside position apart)
  · by_cases covered : access.Covers (target + offset)
    · left
      obtain ⟨first, last⟩ := covered
      have place : target + offset = access.target + (offset - start) := by omega
      change state.memory.store access.target access.width _ (target + offset) = _
      rw [place, Memory.store_inside (by omega), Memory.load_byte (by omega), from_]
      congr 1
      omega
    · have free : target + offset < access.target ∨
          access.target + access.width ≤ target + offset := by
        unfold Access.Covers at covered
        omega
      have same : (state.memory.store access.target access.width
          (initial.load access.source access.width)) (target + offset) =
            state.memory (target + offset) :=
        Memory.store_outside free
      rcases copying.copied offset below with copied | ⟨other, waits | ⟨moved, value, held, covers⟩⟩
      · exact .inl (same.trans copied)
      · exact .inr ⟨other, .inl waits⟩
      · refine .inr ⟨other, .inr ⟨moved, value, ?_, covers⟩⟩
        have different : other ≠ lane := by
          rintro rfl
          rw [loaded] at held
          injection held with held
          injection held with held
          exact covered (held ▸ covers)
        exact (Function.update_of_ne different _ _).trans held

theorem load (copying : Copying initial source target length state)
    (disjoint : source + length ≤ target ∨ target + length ≤ source) {lane : Lane}
    {access : Access} {accesses : List Access}
    (remaining : state.remaining lane = access :: accesses) (free : state.register lane = none) :
    Copying initial source target length
      { state with
        remaining := Function.update state.remaining lane accesses
        register :=
          Function.update state.register lane
            (some (access, state.memory.load access.source access.width)) } := by
  have within := copying.remaining lane access (by rw [remaining]; exact List.mem_cons_self)
  refine ⟨fun other moved member => ?_, fun other moved value held => ?_, copying.outside,
    fun offset below => ?_⟩
  · change moved ∈ Function.update state.remaining lane accesses other at member
    by_cases own : other = lane
    · subst own
      rw [Function.update_self] at member
      apply copying.remaining other moved
      rw [remaining]
      exact List.mem_cons_of_mem _ member
    · rw [Function.update_of_ne own] at member
      exact copying.remaining other moved member
  · change Function.update state.register lane _ other = _ at held
    by_cases own : other = lane
    · subst own
      rw [Function.update_self] at held
      injection held with held
      injection held with same held
      subst same
      refine ⟨within, held.symm.trans (Memory.load_congr fun place inside => ?_)⟩
      -- What is loaded was never stored to.
      obtain ⟨offset, from_, -, bound⟩ := within
      apply copying.outside
      omega
    · rw [Function.update_of_ne own] at held
      exact copying.register other moved value held
  · rcases copying.copied offset below with copied | ⟨other, ⟨moved, member, covers⟩ |
      ⟨moved, value, held, covers⟩⟩
    · exact .inl copied
    · right
      by_cases own : other = lane
      · subst own
        rw [remaining] at member
        rcases List.mem_cons.mp member with rfl | member
        · exact ⟨other, .inr ⟨moved, _, Function.update_self _ _ _, covers⟩⟩
        · refine ⟨other, .inl ⟨moved, ?_, covers⟩⟩
          simp only [Function.update_self]
          exact member
      · refine ⟨other, .inl ⟨moved, ?_, covers⟩⟩
        simp only [Function.update_of_ne own]
        exact member
    · right
      refine ⟨other, .inr ⟨moved, value, ?_, covers⟩⟩
      have different : other ≠ lane := by
        rintro rfl
        rw [free] at held
        cases held
      exact (Function.update_of_ne different _ _).trans held

theorem step (copying : Copying initial source target length state)
    (disjoint : source + length ≤ target ∨ target + length ≤ source) (lane : Lane) :
    Copying initial source target length (Lanes.step state lane) := by
  rcases step_cases state lane with
    ⟨access, value, register, stores⟩ | ⟨-, -, same⟩ |
    ⟨access, accesses, register, remaining, loads⟩
  · rw [stores]
    exact copying.store register
  · rw [same]
    exact copying
  · rw [loads]
    exact copying.load disjoint remaining register

end Copying

/-- Lanes whose accesses lie in two disjoint ranges and cover the second one copy the first one
there, in whatever order they run. -/
theorem copied_of_finished {initial : Memory} {source target length : Nat}
    {programs : Lane → List Access}
    (disjoint : source + length ≤ target ∨ target + length ≤ source)
    (within : ∀ lane, ∀ access ∈ programs lane, access.Within source target length)
    (covered : ∀ offset < length, ∃ lane, ∃ access ∈ programs lane,
      access.Covers (target + offset))
    {schedule : List Lane}
    (finished : Finished
      (Execution.run step { memory := initial, remaining := programs } schedule)) :
    (∀ offset < length,
      (Execution.run step { memory := initial, remaining := programs } schedule).memory
        (target + offset) = initial (source + offset)) ∧
    ∀ position, ¬(target ≤ position ∧ position < target + length) →
      (Execution.run step { memory := initial, remaining := programs } schedule).memory
        position = initial position := by
  have start : Copying initial source target length
      { memory := initial, remaining := programs } :=
    ⟨within, nofun, fun _ _ => rfl, fun offset below => by
      obtain ⟨lane, covers⟩ := covered offset below
      exact .inr ⟨lane, .inl covers⟩⟩
  have copying := @Execution.run_invariant _ _ step (Copying initial source target length) _
    (fun state lane copying => copying.step disjoint lane) start schedule
  refine ⟨fun offset below => ?_, copying.outside⟩
  rcases copying.copied offset below with copied | ⟨lane, ⟨access, member, -⟩ |
    ⟨access, value, held, -⟩⟩
  · exact copied
  · rw [(finished lane).1] at member
    cases member
  · rw [(finished lane).2] at held
    cases held

end Ugdr.Lanes
