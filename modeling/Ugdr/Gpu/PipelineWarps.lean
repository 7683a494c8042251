import Ugdr.Gpu.PipelineSteps

/-! # Steps of the copy warps

A copy warp takes the tasks of its indices one after another, copies each of them and hands
over its completion.
-/

namespace Ugdr.Gpu.Pipeline

open Machine Handshake WarpSpecialized

namespace System

variable {shape : Shape} {system : System shape}

/-- One warp is in another state. -/
def withWarp (system : System shape) (warp : Fin shape.copyWarps) (next : CopyWarp) :
    System shape :=
  { system with copyWarps := Function.update system.copyWarps warp next }

/-! ## How far a warp is -/

variable {warp : Fin shape.copyWarps} {next : CopyWarp}

theorem current_same (same : next.localIndex = (system.copyWarps warp).localIndex) :
    (system.withWarp warp next).current warp = system.current warp := by
  unfold current withWarp
  dsimp only
  rw [Function.update_self, same]

section

variable (system warp next) (bound : CopyWarp → Nat)

/-- A warp that is as far as before. -/
theorem below_same (same : bound next = bound (system.copyWarps warp))
    (index : Nat) :
    index / shape.copyWarps < bound ((system.withWarp warp next).copyWarps (owner shape index)) ↔
      index / shape.copyWarps < bound (system.copyWarps (owner shape index)) := by
  unfold withWarp
  dsimp only
  rw [Function.update_apply]
  split_ifs with owned
  · rw [owned, same]
  · rfl

/-- A warp that is one index further. -/
theorem below_next
    (before : bound (system.copyWarps warp) = (system.copyWarps warp).localIndex)
    (after : bound next = (system.copyWarps warp).localIndex + 1) (index : Nat) :
    index / shape.copyWarps < bound ((system.withWarp warp next).copyWarps (owner shape index)) ↔
      index = system.current warp ∨
        index / shape.copyWarps < bound (system.copyWarps (owner shape index)) := by
  unfold withWarp
  dsimp only
  rw [Function.update_apply]
  split_ifs with owned
  · rw [owned, after, before]
    exact system.div_lt_succ_iff warp owned
  · refine (or_iff_right ?_).symm
    rintro rfl
    exact owned (system.owner_current warp)

/-- Where a warp is not taken, copied or done. -/
theorem not_below
    (here : bound (system.copyWarps warp) = (system.copyWarps warp).localIndex) :
    ¬system.current warp / shape.copyWarps <
      bound (system.copyWarps (owner shape (system.current warp))) := by
  rw [owner_current, current_div, here]
  exact Nat.lt_irrefl _

/-- A warp has gone through the indices before its own. -/
theorem previous_below
    (here : bound (system.copyWarps warp) = (system.copyWarps warp).localIndex) :
    Previous shape (fun index => index / shape.copyWarps <
      bound (system.copyWarps (owner shape index))) (system.current warp) := by
  intro far
  have owned : owner shape (system.current warp - shape.copyWarps * shape.sharedQueueDepth) =
      warp := by
    apply Fin.ext
    exact (Nat.sub_mul_mod far).trans (system.current_mod warp)
  have rounds : shape.sharedQueueDepth ≤ (system.copyWarps warp).localIndex := by
    rw [← system.current_div warp, Nat.le_div_iff_mul_le shape.warpsPos, Nat.mul_comm]
    exact far
  have depth := shape.depthPos
  rw [owned, here, Nat.sub_mul_div, current_div]
  omega

end

/-- The cells that warps are at are those of different warps. -/
theorem cell_current_ne {other : Fin shape.copyWarps} (different : other ≠ warp) :
    cellOf shape (system.current other) ≠ cellOf shape (system.current warp) := by
  intro same
  unfold cellOf cell at same
  have places := congrArg (· % shape.sharedQueueDepth) same
  rw [Nat.mul_add_mod_self_right, Nat.mul_add_mod_self_right, Nat.mod_mod, Nat.mod_mod] at places
  rw [places, current_mod, current_mod] at same
  exact different
    (Fin.ext (Nat.eq_of_mul_eq_mul_right shape.depthPos (Nat.add_right_cancel same)))

/-- Only the tasks that stop the warps have no length. -/
theorem submitted_of_length {index : Nat} (some_ : (system.taskAt index).length ≠ 0) :
    system.queue.submitted[index]? = some (system.taskAt index) := by
  unfold taskAt Queue.taskAt at some_ ⊢
  cases found : system.queue.submitted[index]? with
  | none =>
      rw [found] at some_
      exact absurd rfl some_
  | some task => rfl

namespace Invariant

variable (invariant : system.Invariant)

include invariant

/-- A copy warp makes a step. -/
theorem updateWarp (tasks : Nat → Cell CopyTask) (completions : Nat → Cell CopyCompletion)
    (copied : List CopyRecord) (next : CopyWarp) {later : System shape}
    (changed : later =
      { system with
        sharedTasks := tasks, sharedCompletions := completions, copied }.withWarp warp next)
    (taken : ∀ index, system.Taken index → later.Taken index)
    (done : ∀ index, system.Done index → later.Done index)
    (taskCells : Channel shape.copyWarps shape.sharedQueueDepth tasks system.Filled later.Taken
      system.taskAt)
    (completionCells : Channel shape.copyWarps shape.sharedQueueDepth completions later.Done
      system.Freed fun index => completionOf (system.taskAt index))
    (taskValues : ∀ cell, (tasks cell).value = (system.sharedTasks cell).value)
    (completionValues : ∀ other ≠ warp,
      (completions (cellOf shape (system.current other))).value =
        (system.sharedCompletions (cellOf shape (system.current other))).value)
    (fits : later.WarpFits warp) (ledger : Ledger ({ system with copied }.withWarp warp next)) :
    later.Invariant := by
  subst changed
  have after := Later.ofDevice system ({ system with
      sharedTasks := tasks, sharedCompletions := completions, copied }.withWarp warp next)
    rfl rfl rfl (fun _ => id) taken done fun _ => id
  exact
    { queue := invariant.queue
      tasks := taskCells
      completions := completionCells
      ingress := after.ingressFits invariant rfl taskValues
      warps := fun other => by
        by_cases same : other = warp
        · exact same ▸ fits
        · exact after.warpFits invariant (Function.update_of_ne same ..)
            (completionValues other same)
      egress := after.egressFits invariant rfl rfl rfl
      ledger := ⟨ledger.once, ledger.sound, ledger.complete⟩ }

omit invariant in
/-- A warp stays at its index. -/
theorem fitsAt (same : next.localIndex = (system.copyWarps warp).localIndex)
    (filled : system.Filled (system.current warp))
    (fits : system.PhaseFits (system.current warp) next.phase) :
    (system.withWarp warp next).WarpFits warp := by
  refine ⟨fun _ => ?_, ?_⟩
  · rw [current_same same]
    exact filled
  · rw [current_same same]
    unfold withWarp
    dsimp only
    rw [Function.update_self]
    exact fits

/-- A copy warp goes on without touching anything that is shared. -/
theorem moveCopy {phase : CopyPhase}
    (taken : CopyWarp.takenTo { system.copyWarps warp with phase } =
      (system.copyWarps warp).takenTo)
    (copied : CopyWarp.copiedTo { system.copyWarps warp with phase } =
      (system.copyWarps warp).copiedTo)
    (filled : system.Filled (system.current warp))
    (fits : system.PhaseFits (system.current warp) phase) :
    (system.moveCopy warp phase).Invariant := by
  have sameTaken := below_same system warp { system.copyWarps warp with phase }
    CopyWarp.takenTo taken
  have sameCopied := below_same system warp { system.copyWarps warp with phase }
    CopyWarp.copiedTo copied
  have sameDone := below_same system warp { system.copyWarps warp with phase }
    CopyWarp.localIndex rfl
  have after := Later.ofDevice system (system.moveCopy warp phase) rfl rfl rfl (fun _ => id)
    (fun index => (sameTaken index).mpr)
    (fun index => (sameDone index).mpr) fun _ => id
  exact invariant.updateWarp system.sharedTasks system.sharedCompletions system.copied
    { system.copyWarps warp with phase } rfl after.taken after.done
    (invariant.tasks.congr (fun _ => Iff.rfl) sameTaken fun _ _ _ => rfl)
    (invariant.completions.congr sameDone (fun _ => Iff.rfl) fun _ _ _ => rfl) (fun _ => rfl)
    (fun _ _ => rfl) (fitsAt rfl filled fits) (after.ledger invariant.ledger rfl sameCopied)

/-- The wait of a copy warp returns when its slot is filled. -/
theorem filled_of_ready (waiting : (system.copyWarps warp).takenTo =
      (system.copyWarps warp).localIndex)
    (passes : passed (system.sharedTasks (cellOf shape (system.current warp))).ready
      (parity (turn shape.copyWarps shape.sharedQueueDepth (system.current warp))) = true) :
    system.Filled (system.current warp) :=
  invariant.tasks.filled_of_passed shape.warpsPos shape.depthPos 
    (not_below system warp CopyWarp.takenTo waiting)
    (previous_below system warp CopyWarp.takenTo waiting) passes

/-- A task without length says that no more tasks are submitted. -/
theorem stop_of_length (filled : system.Filled (system.current warp))
    (empty : (system.taskAt (system.current warp)).length = 0) :
    system.queue.control.stopRequested ≠ 0 ∧
      system.queue.submitted.length ≤ system.current warp := by
  have beyond : ¬system.current warp < system.queue.control.taskTail := by
    intro below
    exact invariant.queue.valid _
      (List.mem_of_getElem? (invariant.queue.submitted_of_lt below)) empty
  have stop := (invariant.known_of_filled filled).resolve_left beyond
  have final := invariant.queue.tail_of_stopped stop
  exact ⟨stop, final ▸ Nat.not_lt.mp beyond⟩

/-- A copy warp gives the slot of its task back. -/
theorem takeTask {task : CopyTask} {phase : CopyPhase}
    (here : (system.copyWarps warp).phase = .arriveConsumed task)
    (taken : CopyWarp.takenTo { system.copyWarps warp with phase } =
      (system.copyWarps warp).localIndex + 1)
    (copied : CopyWarp.copiedTo { system.copyWarps warp with phase } =
      (system.copyWarps warp).localIndex)
    (fits : system.PhaseFits (system.current warp) phase) :
    Invariant ({ system with
      sharedTasks := Function.update system.sharedTasks (cellOf shape (system.current warp))
        { system.sharedTasks (cellOf shape (system.current warp)) with
          consumed := (system.sharedTasks (cellOf shape (system.current warp))).consumed + 1 }
      }.moveCopy warp phase) := by
  have filled := (invariant.warps warp).filled (by rw [here]; rintro ⟨⟩)
  have takenBefore : (system.copyWarps warp).takenTo = (system.copyWarps warp).localIndex := by
    unfold CopyWarp.takenTo
    rw [here]
  have copiedBefore : (system.copyWarps warp).copiedTo = (system.copyWarps warp).localIndex := by
    unfold CopyWarp.copiedTo
    rw [here]
  have nextTaken := below_next system warp { system.copyWarps warp with phase } CopyWarp.takenTo
    takenBefore taken
  have sameCopied := below_same system warp { system.copyWarps warp with phase }
    CopyWarp.copiedTo (copied.trans copiedBefore.symm)
  have sameDone := below_same system warp { system.copyWarps warp with phase }
    CopyWarp.localIndex rfl
  have after := Later.ofDevice system (system.moveCopy warp phase) rfl rfl rfl (fun _ => id)
    (fun index before => (nextTaken index).mpr (.inr before))
    (fun index => (sameDone index).mpr) fun _ => id
  refine invariant.updateWarp _ system.sharedCompletions system.copied
    { system.copyWarps warp with phase } rfl after.taken after.done
    (invariant.tasks.take shape.warpsPos shape.depthPos filled
      (not_below system warp CopyWarp.takenTo takenBefore)
      (previous_below system warp CopyWarp.takenTo takenBefore) nextTaken)
    (invariant.completions.congr sameDone (fun _ => Iff.rfl) fun _ _ _ => rfl) (fun cell => ?_)
    (fun _ _ => rfl) (fitsAt rfl filled fits) (after.ledger invariant.ledger rfl sameCopied)
  rw [Function.update_apply]
  split_ifs with same
  · rw [same]
  · rfl

/-- A copy warp copies its task. -/
theorem copyTask {task : CopyTask} (here : (system.copyWarps warp).phase = .copy task) :
    Invariant ({ system with
      copied := system.copied ++
        [CopyRecord.mk warp (system.current warp) task] }.moveCopy warp (.waitConsumed task)) := by
  have filled := (invariant.warps warp).filled (by rw [here]; rintro ⟨⟩)
  have fits := (invariant.warps warp).phase
  rw [here] at fits
  obtain ⟨rfl, length⟩ := fits
  have takenBefore : (system.copyWarps warp).takenTo =
      (system.copyWarps warp).localIndex + 1 := by
    unfold CopyWarp.takenTo
    rw [here]
  have copiedBefore : (system.copyWarps warp).copiedTo = (system.copyWarps warp).localIndex := by
    unfold CopyWarp.copiedTo
    rw [here]
  let next : CopyWarp :=
    { system.copyWarps warp with phase := .waitConsumed (system.taskAt (system.current warp)) }
  have sameTaken := below_same system warp next CopyWarp.takenTo takenBefore.symm
  have nextCopied := below_next system warp next CopyWarp.copiedTo copiedBefore rfl
  have sameDone := below_same system warp next CopyWarp.localIndex rfl
  have fresh := not_below system warp CopyWarp.copiedTo copiedBefore
  refine invariant.updateWarp system.sharedTasks system.sharedCompletions _ next rfl
    (fun index => (sameTaken index).mpr) (fun index => (sameDone index).mpr)
    (invariant.tasks.congr (fun _ => Iff.rfl) sameTaken fun _ _ _ => rfl)
    (invariant.completions.congr sameDone (fun _ => Iff.rfl) fun _ _ _ => rfl) (fun _ => rfl)
    (fun _ _ => rfl) (fitsAt rfl filled ⟨rfl, length⟩) ⟨?_, fun copy member => ?_, ?_⟩
  · unfold withWarp
    dsimp only
    rw [List.map_append, List.map_singleton]
    refine List.nodup_append.mpr ⟨invariant.ledger.once, List.nodup_singleton _, ?_⟩
    intro index before other same
    rw [List.mem_singleton] at same
    rw [same]
    rintro rfl
    obtain ⟨copy, member, equal⟩ := List.mem_map.mp before
    have known := (invariant.ledger.sound copy member).2.2
    rw [equal] at known
    exact fresh known
  · rcases List.mem_append.mp member with old | new
    · obtain ⟨owned, submitted, known⟩ := invariant.ledger.sound copy old
      exact ⟨owned, submitted, (nextCopied _).mpr (.inr known)⟩
    · rw [List.mem_singleton] at new
      rw [new]
      exact ⟨(system.current_mod warp).symm, submitted_of_length length,
        (nextCopied _).mpr (.inl rfl)⟩
  · intro index known
    unfold withWarp
    dsimp only
    rw [List.map_append, List.mem_append, List.map_singleton, List.mem_singleton]
    rcases (nextCopied index).mp known with here | before
    · exact .inr here
    · exact .inl (invariant.ledger.complete index before)

/-- A copy warp writes its completion, whose slot it has waited for. -/
theorem writeCompletion {task : CopyTask}
    (here : (system.copyWarps warp).phase = .writeCompletion task) :
    Invariant ({ system with
      sharedCompletions := Function.update system.sharedCompletions
        (cellOf shape (system.current warp))
        { system.sharedCompletions (cellOf shape (system.current warp)) with
          value := completionOf task } }.moveCopy warp .arriveReady) := by
  have filled := (invariant.warps warp).filled (by rw [here]; rintro ⟨⟩)
  have fits := (invariant.warps warp).phase
  rw [here] at fits
  obtain ⟨⟨rfl, length⟩, previous⟩ := fits
  have takenBefore : (system.copyWarps warp).takenTo =
      (system.copyWarps warp).localIndex + 1 := by
    unfold CopyWarp.takenTo
    rw [here]
  have copiedBefore : (system.copyWarps warp).copiedTo =
      (system.copyWarps warp).localIndex + 1 := by
    unfold CopyWarp.copiedTo
    rw [here]
  let next : CopyWarp := { system.copyWarps warp with phase := .arriveReady }
  have sameTaken := below_same system warp next CopyWarp.takenTo takenBefore.symm
  have sameCopied := below_same system warp next CopyWarp.copiedTo copiedBefore.symm
  have sameDone := below_same system warp next CopyWarp.localIndex rfl
  have after := Later.ofDevice system (system.moveCopy warp .arriveReady)
    rfl rfl rfl (fun _ => id) (fun index => (sameTaken index).mpr)
    (fun index => (sameDone index).mpr) fun _ => id
  have written := invariant.completions.write shape.warpsPos shape.depthPos
    (not_below system warp CopyWarp.localIndex rfl) previous
    (completionOf (system.taskAt (system.current warp)))
  refine invariant.updateWarp system.sharedTasks _ system.copied next rfl after.taken after.done
    (invariant.tasks.congr (fun _ => Iff.rfl) sameTaken fun _ _ _ => rfl)
    (written.congr sameDone (fun _ => Iff.rfl) fun _ _ _ => rfl) (fun _ => rfl)
    (fun other different => ?_) (fitsAt rfl filled ⟨length, previous, ?_⟩)
    (after.ledger invariant.ledger rfl sameCopied)
  · exact congrArg Cell.value (Function.update_of_ne (cell_current_ne different) ..)
  · exact congrArg Cell.value
      (Function.update_self (cellOf shape (system.current warp)) _ system.sharedCompletions)

/-- A copy warp hands its completion over and goes on to its next index. -/
theorem arriveReady (here : (system.copyWarps warp).phase = .arriveReady) :
    Invariant ({ system with
      sharedCompletions := Function.update system.sharedCompletions
        (cellOf shape (system.current warp))
        { system.sharedCompletions (cellOf shape (system.current warp)) with
          ready := (system.sharedCompletions (cellOf shape (system.current warp))).ready + 1 }
      }.withWarp warp { localIndex := (system.copyWarps warp).localIndex + 1 }) := by
  have fits := (invariant.warps warp).phase
  rw [here] at fits
  obtain ⟨length, previous, written⟩ := fits
  have takenBefore : (system.copyWarps warp).takenTo =
      (system.copyWarps warp).localIndex + 1 := by
    unfold CopyWarp.takenTo
    rw [here]
  have copiedBefore : (system.copyWarps warp).copiedTo =
      (system.copyWarps warp).localIndex + 1 := by
    unfold CopyWarp.copiedTo
    rw [here]
  let next : CopyWarp := { localIndex := (system.copyWarps warp).localIndex + 1 }
  have sameTaken := below_same system warp next CopyWarp.takenTo takenBefore.symm
  have sameCopied := below_same system warp next CopyWarp.copiedTo copiedBefore.symm
  have nextDone := below_next system warp next CopyWarp.localIndex rfl rfl
  have after := Later.ofDevice system (system.withWarp warp next)
    rfl rfl rfl (fun _ => id) (fun index => (sameTaken index).mpr)
    (fun index before => (nextDone index).mpr (.inr before)) fun _ => id
  refine invariant.updateWarp system.sharedTasks _ system.copied next rfl
    after.taken after.done (invariant.tasks.congr (fun _ => Iff.rfl) sameTaken fun _ _ _ => rfl)
    (invariant.completions.fill shape.warpsPos shape.depthPos
      (not_below system warp CopyWarp.localIndex rfl) previous
      written nextDone) (fun _ => rfl)
    (fun other different => congrArg Cell.value (Function.update_of_ne
      (cell_current_ne different) ..)) ⟨fun other => ?_, ?_⟩
    (after.ledger invariant.ledger rfl sameCopied)
  · unfold withWarp at other
    dsimp only at other
    rw [Function.update_self] at other
    exact absurd rfl other
  · unfold withWarp
    dsimp only
    rw [Function.update_self]
    trivial

theorem copyStep (warp : Fin shape.copyWarps) : (system.copyStep warp).Invariant := by
  have known := invariant.warps warp
  have fits := known.phase
  unfold System.copyStep
  dsimp only
  rw [slotIndex_eq, phase_current]
  cases here : (system.copyWarps warp).phase with
  | waitReady =>
      have waiting : (system.copyWarps warp).takenTo = (system.copyWarps warp).localIndex := by
        unfold CopyWarp.takenTo
        rw [here]
      have uncopied : (system.copyWarps warp).copiedTo = (system.copyWarps warp).localIndex := by
        unfold CopyWarp.copiedTo
        rw [here]
      dsimp only
      split_ifs with passes
      · exact invariant.moveCopy waiting.symm uncopied.symm
          (invariant.filled_of_ready waiting passes) trivial
      · exact invariant
  | readTask =>
      have waiting : (system.copyWarps warp).takenTo = (system.copyWarps warp).localIndex := by
        unfold CopyWarp.takenTo
        rw [here]
      have uncopied : (system.copyWarps warp).copiedTo = (system.copyWarps warp).localIndex := by
        unfold CopyWarp.copiedTo
        rw [here]
      have filled := known.filled (by rw [here]; rintro ⟨⟩)
      exact invariant.moveCopy waiting.symm uncopied.symm filled
        (invariant.tasks.holds _ filled 
          (not_below system warp CopyWarp.takenTo waiting))
  | arriveConsumed task =>
      have filled := known.filled (by rw [here]; rintro ⟨⟩)
      rw [here] at fits
      dsimp only
      split_ifs with empty
      · exact invariant.takeTask here rfl rfl (invariant.stop_of_length filled (fits ▸ empty))
      · exact invariant.takeTask here rfl rfl ⟨fits, empty⟩
  | copy task => exact invariant.copyTask here
  | waitConsumed task =>
      have taken : (system.copyWarps warp).takenTo =
          (system.copyWarps warp).localIndex + 1 := by
        unfold CopyWarp.takenTo
        rw [here]
      have copied : (system.copyWarps warp).copiedTo =
          (system.copyWarps warp).localIndex + 1 := by
        unfold CopyWarp.copiedTo
        rw [here]
      have filled := known.filled (by rw [here]; rintro ⟨⟩)
      rw [here] at fits
      dsimp only
      split_ifs with passes
      · exact invariant.moveCopy taken.symm copied.symm filled ⟨fits,
          invariant.completions.previous_taken shape.warpsPos shape.depthPos
            (not_below system warp CopyWarp.localIndex rfl)
            (previous_below system warp CopyWarp.localIndex rfl) passes⟩
      · exact invariant
  | writeCompletion task => exact invariant.writeCompletion here
  | arriveReady =>
      have next : wrapAdd 64 (system.copyWarps warp).localIndex 1 =
          (system.copyWarps warp).localIndex + 1 := by
        rw [here] at fits
        have submitted := (List.getElem?_eq_some_iff.mp (submitted_of_length fits.1)).1
        have bounded := invariant.queue.bounded
        have batch : warpSpecializedMetaBatch = 32 := rfl
        have reached : (system.copyWarps warp).localIndex ≤ system.current warp :=
          (Nat.le_mul_of_pos_right _ shape.warpsPos).trans (Nat.le_add_right ..)
        exact wrapAdd_of_lt (by omega)
      dsimp only
      rw [next]
      exact invariant.arriveReady here
  | stopped => exact invariant

end Invariant

end System

end Ugdr.Gpu.Pipeline
