import Ugdr.Gpu.StaticPartition

/-! # What the parties of the static partition queue know

A warp goes through the indices of its partition in order. How far it has read, copied and
published says everything about its tasks.
-/

namespace Ugdr.Gpu.StaticPartition

open Machine

/-! ## Sizes -/

namespace Shape

variable (shape : Shape)

theorem accepted : isSupportedCopyWarps shape.copyWarps = true ∧
    isPowerOfTwo shape.capacity = true ∧ shape.copyWarps ≤ shape.capacity ∧
      64 + shape.capacity * 64 < 2 ^ 64 := by
  have allocates := shape.allocates
  unfold staticPartitionSpscAllocationSize at allocates
  dsimp only at allocates
  split_ifs at allocates with refused large
  · exact absurd allocates Bool.false_ne_true
  · exact absurd allocates Bool.false_ne_true
  · simp only [not_or, Bool.not_eq_false, Nat.not_lt] at refused
    exact ⟨refused.1, refused.2.1, refused.2.2.1, by omega⟩

theorem capacity_pos : 0 < shape.capacity :=
  isPowerOfTwo_pos shape.accepted.2.1

theorem warps_cases : shape.copyWarps = 4 ∨ shape.copyWarps = 8 ∨ shape.copyWarps = 16 ∨
    shape.copyWarps = 32 :=
  isSupportedCopyWarps_cases shape.accepted.1

theorem warps_pos : 0 < shape.copyWarps := by
  have cases := shape.warps_cases
  omega

end Shape

namespace System

variable {shape : Shape}

theorem slot_eq (shape : Shape) (index : Nat) : slot shape index = index % shape.capacity :=
  and_mask shape.accepted.2.1 index

theorem shift_eq (shape : Shape) (value : Nat) :
    value >>> copyWarpShift shape.copyWarps = value / shape.copyWarps := by
  rcases shape.warps_cases with four | eight | sixteen | more
  · rw [four]
    exact Nat.shiftRight_eq_div_pow value 2
  · rw [eight]
    exact Nat.shiftRight_eq_div_pow value 3
  · rw [sixteen]
    exact Nat.shiftRight_eq_div_pow value 4
  · rw [more]
    exact Nat.shiftRight_eq_div_pow value 5

/-- A batch is not empty, and all of its tasks are below the tail. -/
theorem taskCount_spec {ownedIndex taskTail : Nat} (below : ownedIndex < taskTail)
    (bounded : taskTail < 2 ^ 64) :
    0 < taskCount shape ownedIndex taskTail ∧
      ownedIndex + taskCount shape ownedIndex taskTail * shape.copyWarps <
        taskTail + shape.copyWarps := by
  have positive := shape.warps_pos
  have batch := (isSupportedDeviceBatch_bounds shape.batch).1
  have distance : wrapSub 64 (wrapSub 64 taskTail 1) ownedIndex = taskTail - 1 - ownedIndex := by
    rw [wrapSub_of_le (by omega) bounded, wrapSub_of_le (by omega) (by omega)]
  have fewer := Nat.div_le_self (taskTail - 1 - ownedIndex) shape.copyWarps
  have within := Nat.div_mul_le_self (taskTail - 1 - ownedIndex) shape.copyWarps
  have next := Nat.add_one_mul ((taskTail - 1 - ownedIndex) / shape.copyWarps) shape.copyWarps
  unfold taskCount
  dsimp only
  rw [distance, shift_eq, wrapAdd_of_lt (by omega)]
  split_ifs with few
  · exact ⟨Nat.succ_pos _, by omega⟩
  · have less := Nat.mul_le_mul_right shape.copyWarps (Nat.not_lt.mp few)
    exact ⟨batch, by omega⟩

end System

/-! ## Warps -/

namespace Warp

/-- The tasks of the partition below this index have been read. -/
def readTo (copyWarps : Nat) (warp : Warp) : Nat :=
  match warp.phase with
  | .loadTask _ tasks | .copy tasks _ | .writeCompletion tasks _ | .publish tasks _ =>
      warp.ownedIndex + tasks.length * copyWarps
  | _ => warp.ownedIndex

/-- The copies of the tasks below this index have been made. -/
def copiedTo (copyWarps : Nat) (warp : Warp) : Nat :=
  match warp.phase with
  | .copy _ batchIndex => warp.ownedIndex + batchIndex * copyWarps
  | .writeCompletion tasks _ | .publish tasks _ => warp.ownedIndex + tasks.length * copyWarps
  | _ => warp.ownedIndex

/-- The completions of the tasks below this index have been published. -/
def publishedTo (copyWarps : Nat) (warp : Warp) : Nat :=
  match warp.phase with
  | .writeCompletion _ lane | .publish _ lane => warp.ownedIndex + lane * copyWarps
  | _ => warp.ownedIndex

end Warp

namespace System

variable {shape : Shape}

/-- The tasks that a warp has in its lanes are those of its batch. -/
def Loaded (system : System shape) (ownedIndex : Nat) (tasks : List CopyTask) : Prop :=
  ∀ lane task, tasks[lane]? = some task →
    system.submitted[ownedIndex + lane * shape.copyWarps]? = some task

/-- What a warp has seen agrees with the tail and with the request to stop. -/
structure Fits (system : System shape) (warp : Fin shape.copyWarps) (state : Warp) : Prop where
  residue : state.ownedIndex % shape.copyWarps = warp
  near : state.ownedIndex < system.control.taskTail + shape.copyWarps
  phase : match state.phase with
    | .loadTail | .loadStop => True
    | .loadFinalTail => system.control.stopRequested ≠ 0
    | .loadTask taskCount tasks =>
        tasks.length < taskCount ∧
          state.ownedIndex + taskCount * shape.copyWarps <
            system.control.taskTail + shape.copyWarps ∧
          system.Loaded state.ownedIndex tasks
    | .copy tasks position | .writeCompletion tasks position | .publish tasks position =>
        position < tasks.length ∧
          state.ownedIndex + tasks.length * shape.copyWarps <
            system.control.taskTail + shape.copyWarps ∧
          system.Loaded state.ownedIndex tasks
    | .stopped =>
        system.control.stopRequested ≠ 0 ∧ system.control.taskTail ≤ state.ownedIndex

/-- The warp whose partition the index belongs to. -/
def owner (shape : Shape) (index : Nat) : Fin shape.copyWarps :=
  ⟨index % shape.copyWarps, Nat.mod_lt index shape.warps_pos⟩

def Read (system : System shape) (index : Nat) : Prop :=
  index < (system.warps (owner shape index)).readTo shape.copyWarps

def Copied (system : System shape) (index : Nat) : Prop :=
  index < (system.warps (owner shape index)).copiedTo shape.copyWarps

def Published (system : System shape) (index : Nat) : Prop :=
  index < (system.warps (owner shape index)).publishedTo shape.copyWarps

/-- The slot of an index has the completion of its task. -/
def Shows (system : System shape) (index : Nat) : Prop :=
  ∀ task, system.submitted[index]? = some task →
    (system.completionSlots (index % shape.capacity)).completion = completionOf task

/-- The counters that the host keeps agree with what it is doing. -/
def HostFits (system : System shape) : Prop :=
  match system.host with
  | .idle | .loadSequence =>
      system.submitTail = system.submitted.length ∧
        system.control.taskTail = system.submitted.length
  | .writeTask tasks index =>
      system.accepting = true ∧ index < tasks.length ∧
        system.submitted.length = system.submitTail + index ∧
        system.submitTail + tasks.length ≤ system.completionHead + shape.capacity ∧
        system.control.taskTail = system.submitTail
  | .storeTail _ =>
      system.accepting = true ∧ system.submitTail = system.submitted.length ∧
        system.control.taskTail ≤ system.submitted.length
  | .readCompletion =>
      system.submitTail = system.submitted.length ∧
        system.control.taskTail = system.submitted.length ∧
        system.Published system.completionHead
  | .storeStop =>
      system.accepting = false ∧ system.submitTail = system.submitted.length ∧
        system.control.taskTail = system.submitted.length

structure CompletionSlots (system : System shape) : Prop where
  written : ∀ warp tasks lane, (system.warps warp).phase = .publish tasks lane →
    system.Shows ((system.warps warp).publishedTo shape.copyWarps)
  stored : ∀ index, system.completionHead ≤ index → system.Published index →
    (system.completionSlots (index % shape.capacity)).sequence = index + 1 ∧ system.Shows index
  sequences : ∀ slot < shape.capacity, (system.completionSlots slot).sequence = 0 ∨
    ∃ index, system.Published index ∧ index % shape.capacity = slot ∧
      (system.completionSlots slot).sequence = index + 1

structure Ledger (system : System shape) : Prop where
  once : (system.copied.map CopyRecord.index).Nodup
  sound : ∀ copy ∈ system.copied, copy.warp = copy.index % shape.copyWarps ∧
    system.submitted[copy.index]? = some copy.task ∧ system.Copied copy.index
  complete : ∀ index, system.Copied index → index ∈ system.copied.map CopyRecord.index
  polled : system.polled = (system.submitted.take system.completionHead).map completionOf

structure Invariant (system : System shape) : Prop where
  bounded : system.submitted.length + shape.copyWarps ≤ 2 ^ 64
  host : system.HostFits
  stopping : system.control.stopRequested ≠ 0 → system.accepting = false
  room : system.submitted.length ≤ system.completionHead + shape.capacity
  warps : ∀ warp, system.Fits warp (system.warps warp)
  released : ∀ index < system.completionHead, system.Published index
  taskSlots : RingLog.Holds system.taskSlots shape.capacity system.submitted
  completionSlots : system.CompletionSlots
  ledger : system.Ledger

theorem initial_invariant : Invariant ({} : System shape) where
  bounded := by
    have cases := shape.warps_cases
    change 0 + shape.copyWarps ≤ 2 ^ 64
    omega
  host := ⟨rfl, rfl⟩
  stopping := fun stopped => absurd rfl stopped
  room := Nat.zero_le _
  warps := fun warp => ⟨Nat.mod_eq_of_lt warp.isLt, by
    change (warp : Nat) < 0 + shape.copyWarps
    omega, trivial⟩
  released := fun index below => absurd below (Nat.not_lt_zero index)
  taskSlots := RingLog.holds_nil _
  completionSlots :=
    { written := fun warp tasks lane publishing => by cases publishing
      stored := fun index _ published =>
        absurd (Nat.mod_le index shape.copyWarps) (Nat.not_le.mpr published)
      sequences := fun _ _ => .inl rfl }
  ledger :=
    { once := List.nodup_nil
      sound := List.forall_mem_nil _
      complete := fun index copied =>
        absurd (Nat.mod_le index shape.copyWarps) (Nat.not_le.mpr copied)
      polled := rfl }

end System

end Ugdr.Gpu.StaticPartition
