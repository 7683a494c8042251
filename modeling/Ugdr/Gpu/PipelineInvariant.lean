import Ugdr.Gpu.Pipeline

/-! # What the warps of the pipeline kernel know

The entries of both channels are the indices of the tasks. Which of them the ingress warp has
filled, a copy warp has taken and answered, and the egress warp has released is read off what
the warps do next.
-/

namespace Ugdr.Gpu.Pipeline

open Machine Handshake WarpSpecialized

/-! ## Sizes -/

namespace Shape

variable (shape : Shape)

theorem warpsPos : 0 < shape.copyWarps :=
  shape.warpBounds.1

theorem depthPos : 0 < shape.sharedQueueDepth :=
  Nat.zero_lt_of_lt shape.depthBounds.1

/-- No two lanes of a batch use the same slot. -/
theorem batch_le :
    warpSpecializedMetaBatch ≤ shape.copyWarps * shape.sharedQueueDepth := by
  have fits := Nat.lt_succ_of_le shape.batchFits
  rw [Nat.div_lt_iff_lt_mul shape.warpsPos, Nat.succ_eq_add_one, Nat.add_one_mul] at fits
  have positive := shape.warpsPos
  rw [Nat.mul_comm]
  omega

theorem warps_le : shape.copyWarps ≤ shape.copyWarps * shape.sharedQueueDepth :=
  Nat.le_mul_of_pos_right _ shape.depthPos

end Shape

/-! ## Progress -/

namespace Ingress

/-- The slots that the ingress warp has handed over. -/
def Filled (copyWarps : Nat) (ingress : Ingress) (index : Nat) : Prop :=
  match ingress.phase with
  | .fetch _ => index < ingress.taskHead
  | .fill _ taskCount lanes =>
      index < ingress.taskHead ∨
        index < ingress.taskHead + taskCount ∧ lanes (index - ingress.taskHead) = .done
  | .stopped => index < ingress.taskHead + copyWarps

end Ingress

namespace CopyWarp

/-- The local indices below this one have been taken. -/
def takenTo (warp : CopyWarp) : Nat :=
  match warp.phase with
  | .waitReady | .readTask | .arriveConsumed _ => warp.localIndex
  | _ => warp.localIndex + 1

/-- The local indices below this one have been copied. -/
def copiedTo (warp : CopyWarp) : Nat :=
  match warp.phase with
  | .waitConsumed _ | .writeCompletion _ | .arriveReady => warp.localIndex + 1
  | _ => warp.localIndex

theorem localIndex_le_copiedTo (warp : CopyWarp) : warp.localIndex ≤ warp.copiedTo := by
  unfold copiedTo
  split <;> omega

theorem copiedTo_le_takenTo (warp : CopyWarp) : warp.copiedTo ≤ warp.takenTo := by
  unfold copiedTo takenTo
  split <;> split <;> simp_all

end CopyWarp

namespace Egress

/-- The slots that the egress warp has given back. -/
def Freed (egress : Egress) (index : Nat) : Prop :=
  match egress.phase with
  | .release completionCount _ arrived =>
      index < egress.completionHead ∨
        index < egress.completionHead + completionCount ∧
          arrived (index - egress.completionHead) = true
  | _ => index < egress.completionHead

end Egress

namespace System

variable {shape : Shape}

/-- The warp that an index goes to. -/
def owner (shape : Shape) (index : Nat) : Fin shape.copyWarps :=
  ⟨index % shape.copyWarps, Nat.mod_lt index shape.warpsPos⟩

/-- The index that a copy warp is at. -/
def current (system : System shape) (warp : Fin shape.copyWarps) : Nat :=
  (system.copyWarps warp).localIndex * shape.copyWarps + warp

def Filled (system : System shape) (index : Nat) : Prop :=
  system.ingress.Filled shape.copyWarps index

def Taken (system : System shape) (index : Nat) : Prop :=
  index / shape.copyWarps < (system.copyWarps (owner shape index)).takenTo

def Copied (system : System shape) (index : Nat) : Prop :=
  index / shape.copyWarps < (system.copyWarps (owner shape index)).copiedTo

def Done (system : System shape) (index : Nat) : Prop :=
  index / shape.copyWarps < (system.copyWarps (owner shape index)).localIndex

def Freed (system : System shape) (index : Nat) : Prop :=
  system.egress.Freed index

/-- The task of an index; behind the last one, the task that stops a copy warp. -/
def taskAt (system : System shape) (index : Nat) : CopyTask :=
  system.queue.taskAt index

/-- The cell of an index that ingress, copy warps and egress use. -/
def cellOf (shape : Shape) (index : Nat) : Nat :=
  cell shape.copyWarps shape.sharedQueueDepth index

/-- The entry that was in the cell of an index before it. -/
def Previous (shape : Shape) (holds : Nat → Prop) (index : Nat) : Prop :=
  shape.copyWarps * shape.sharedQueueDepth ≤ index →
    holds (index - shape.copyWarps * shape.sharedQueueDepth)

/-! ## The invariant -/

def LaneFits (system : System shape) (stopping : Bool) (index : Nat) : FillLane → Prop
  | .wait | .done => True
  | .read => stopping = false ∧ Previous shape system.Taken index
  | .write task => Previous shape system.Taken index ∧ task = system.taskAt index
  | .arrive =>
      Previous shape system.Taken index ∧
        (system.sharedTasks (cellOf shape index)).value = system.taskAt index

structure IngressFits (system : System shape) : Prop where
  head : system.ingress.taskHead ≤ system.queue.control.taskTail
  phase : match system.ingress.phase with
    | .fetch fetch => fetch = .loadFinalTail → system.queue.control.stopRequested ≠ 0
    | .fill stopping taskCount lanes =>
        (stopping = false → taskCount ≤ warpSpecializedMetaBatch ∧
          system.ingress.taskHead + taskCount ≤ system.queue.control.taskTail) ∧
        (stopping = true → taskCount = shape.copyWarps ∧
          system.queue.control.stopRequested ≠ 0 ∧
          system.queue.control.taskTail ≤ system.ingress.taskHead) ∧
        ∀ lane < taskCount, system.LaneFits stopping (system.ingress.taskHead + lane) (lanes lane)
    | .stopped => system.queue.control.stopRequested ≠ 0 ∧
        system.queue.control.taskTail ≤ system.ingress.taskHead

def PhaseFits (system : System shape) (index : Nat) : CopyPhase → Prop
  | .waitReady | .readTask => True
  | .arriveConsumed task => task = system.taskAt index
  | .copy task | .waitConsumed task => task = system.taskAt index ∧ task.length ≠ 0
  | .writeCompletion task =>
      (task = system.taskAt index ∧ task.length ≠ 0) ∧ Previous shape system.Freed index
  | .arriveReady =>
      (system.taskAt index).length ≠ 0 ∧ Previous shape system.Freed index ∧
        (system.sharedCompletions (cellOf shape index)).value =
          completionOf (system.taskAt index)
  | .stopped =>
      system.queue.control.stopRequested ≠ 0 ∧ system.queue.submitted.length ≤ index

structure WarpFits (system : System shape) (warp : Fin shape.copyWarps) : Prop where
  filled : (system.copyWarps warp).phase ≠ .waitReady → system.Filled (system.current warp)
  phase : system.PhaseFits (system.current warp) (system.copyWarps warp).phase

def CollectFits (system : System shape) (index : Nat) : CollectLane → Prop
  | .wait => True
  | .read => system.Done index
  | .write completion => system.Done index ∧ completion = completionOf (system.taskAt index)
  | .done => system.Done index ∧ system.queue.Shows shape.capacity index

structure EgressFits (system : System shape) : Prop where
  head : system.egress.completionHead ≤ system.queue.control.taskTail
  phase : match system.egress.phase with
    | .fetch fetch => (fetch = .loadFinalTail → system.queue.control.stopRequested ≠ 0) ∧
        system.queue.control.completionTail = system.egress.completionHead
    | .collect completionCount lanes =>
        system.queue.control.completionTail = system.egress.completionHead ∧
        (completionCount ≤ warpSpecializedMetaBatch ∧
          system.egress.completionHead + completionCount ≤ system.queue.control.taskTail) ∧
        ∀ lane < completionCount,
          system.CollectFits (system.egress.completionHead + lane) (lanes lane)
    | .release completionCount stored arrived =>
        (completionCount ≤ warpSpecializedMetaBatch ∧
          system.egress.completionHead + completionCount ≤ system.queue.control.taskTail) ∧
        (∀ lane < completionCount, system.Done (system.egress.completionHead + lane)) ∧
        (stored = false →
          system.queue.control.completionTail = system.egress.completionHead ∧
          arrived 0 = false ∧ ∀ lane < completionCount,
            system.queue.Shows shape.capacity (system.egress.completionHead + lane)) ∧
        (stored = true → system.queue.control.completionTail =
          system.egress.completionHead + completionCount)
    | .stopped => (system.queue.control.stopRequested ≠ 0 ∧
        system.queue.control.taskTail ≤ system.egress.completionHead) ∧
        system.queue.control.completionTail = system.egress.completionHead

structure Ledger (system : System shape) : Prop where
  once : (system.copied.map CopyRecord.index).Nodup
  sound : ∀ copy ∈ system.copied, copy.warp = copy.index % shape.copyWarps ∧
    system.queue.submitted[copy.index]? = some copy.task ∧ system.Copied copy.index
  complete : ∀ index, system.Copied index → index ∈ system.copied.map CopyRecord.index

structure Invariant (system : System shape) : Prop where
  queue : system.queue.Invariant shape.capacity
  tasks : Channel shape.copyWarps shape.sharedQueueDepth system.sharedTasks system.Filled
    system.Taken system.taskAt
  completions : Channel shape.copyWarps shape.sharedQueueDepth system.sharedCompletions
    system.Done system.Freed fun index => completionOf (system.taskAt index)
  ingress : system.IngressFits
  warps : ∀ warp, system.WarpFits warp
  egress : system.EgressFits
  ledger : system.Ledger

theorem initial_invariant : Invariant ({} : System shape) where
  queue := Queue.initial_invariant shape.capacity
  tasks := (channel_empty _ _).congr (fun index => iff_of_false (Nat.not_lt_zero index) id)
    (fun index => iff_of_false (Nat.not_lt_zero _) id) fun _ _ _ => rfl
  completions := (channel_empty _ _).congr (fun index => iff_of_false (Nat.not_lt_zero _) id)
    (fun index => iff_of_false (Nat.not_lt_zero index) id) fun _ _ _ => rfl
  ingress := ⟨Nat.le_refl 0, fun final => by cases final⟩
  warps := fun warp => ⟨fun other => absurd rfl other, trivial⟩
  egress := ⟨Nat.le_refl 0, fun final => (by cases final), rfl⟩
  ledger := ⟨List.nodup_nil, List.forall_mem_nil _, fun index copied =>
    absurd copied (Nat.not_lt_zero _)⟩

/-! ## Slots and indices -/

theorem indexSlot_eq (shape : Shape) (index : Nat) :
    indexSlot shape index = cellOf shape index := by
  unfold indexSlot slotIndex
  rw [and_mask shape.depthPower]
  rfl

theorem phase_eq (shape : Shape) (localIndex : Nat) :
    phase shape localIndex = parity (localIndex / shape.sharedQueueDepth) := by
  unfold phase parity
  rw [Nat.and_one_is_mod]
  exact decide_eq_decide.mpr (by omega)

theorem indexPhase_eq (shape : Shape) (index : Nat) :
    indexPhase shape index = parity (turn shape.copyWarps shape.sharedQueueDepth index) :=
  phase_eq shape _

variable (system : System shape) (warp : Fin shape.copyWarps)

theorem current_div : system.current warp / shape.copyWarps =
    (system.copyWarps warp).localIndex := by
  unfold current
  rw [Nat.mul_comm, Nat.mul_add_div shape.warpsPos, Nat.div_eq_of_lt warp.isLt, Nat.add_zero]

theorem current_mod : system.current warp % shape.copyWarps = warp := by
  unfold current
  rw [Nat.mul_add_mod_self_right, Nat.mod_eq_of_lt warp.isLt]

theorem owner_current : owner shape (system.current warp) = warp :=
  Fin.ext (system.current_mod warp)

theorem slotIndex_eq : slotIndex shape warp (system.copyWarps warp).localIndex =
    cellOf shape (system.current warp) := by
  unfold slotIndex cellOf cell
  rw [and_mask shape.depthPower, current_div, current_mod]

theorem phase_current : phase shape (system.copyWarps warp).localIndex =
    parity (turn shape.copyWarps shape.sharedQueueDepth (system.current warp)) := by
  rw [phase_eq, turn, current_div]

/-- An index of a warp is below the bound on its local indices, or at it. -/
theorem div_lt_succ_iff {index : Nat} (owned : owner shape index = warp) :
    index / shape.copyWarps < (system.copyWarps warp).localIndex + 1 ↔
      index = system.current warp ∨
        index / shape.copyWarps < (system.copyWarps warp).localIndex := by
  have split := Nat.div_add_mod' index shape.copyWarps
  have residue : index % shape.copyWarps = warp := congrArg Fin.val owned
  constructor
  · intro below
    rcases Nat.lt_succ_iff_lt_or_eq.mp below with less | equal
    · exact .inr less
    · left
      rw [← split, equal, residue]
      rfl
  · rintro (rfl | less)
    · rw [current_div]
      exact Nat.lt_succ_self _
    · exact Nat.lt_succ_of_lt less

end System

end Ugdr.Gpu.Pipeline
