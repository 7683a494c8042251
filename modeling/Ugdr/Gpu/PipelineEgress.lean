import Ugdr.Gpu.PipelineWarps

/-! # Steps of the egress warp

The egress warp publishes the completions of a batch when all of its lanes have written theirs,
and gives the slots back afterwards.
-/

namespace Ugdr.Gpu.Pipeline

open Machine Handshake WarpSpecialized

namespace System

variable {shape : Shape} {system : System shape}

/-- The egress warp makes a step. -/
theorem Invariant.updateEgress (invariant : system.Invariant) {queue : Queue}
    {cells : Nat → Cell CopyCompletion} {egress : Egress}
    (kept : queue.Invariant shape.capacity)
    (tail : queue.control.taskTail = system.queue.control.taskTail)
    (stop : queue.control.stopRequested = system.queue.control.stopRequested)
    (submitted : queue.submitted = system.queue.submitted)
    (freed : ∀ index, system.Freed index → egress.Freed index)
    (completions : Channel shape.copyWarps shape.sharedQueueDepth cells system.Done egress.Freed
      fun index => completionOf (system.taskAt index))
    (values : ∀ cell, (cells cell).value = (system.sharedCompletions cell).value)
    (fits : EgressFits { system with queue, sharedCompletions := cells, egress }) :
    Invariant { system with queue, sharedCompletions := cells, egress } := by
  have after := Later.ofDevice system { system with queue, sharedCompletions := cells, egress }
    tail stop submitted (fun _ => id) (fun _ => id) (fun _ => id) freed
  exact
    { queue := kept
      tasks := after.tasks invariant rfl (fun _ => Iff.rfl) fun _ => Iff.rfl
      completions := completions.congr (fun _ => Iff.rfl) (fun _ => Iff.rfl)
        fun index done _ => congrArg completionOf
          (after.taskAt invariant (invariant.known_of_filled (invariant.filled_of_done done)))
      ingress := after.ingressFits invariant rfl fun _ => rfl
      warps := fun warp => after.warpFits invariant rfl (values _)
      egress := fits
      ledger := after.ledger invariant.ledger rfl fun _ => Iff.rfl }

/-! ## Batches -/

/-- The tasks that the egress warp collects completions of. -/
structure Batch (system : System shape) (completionCount : Nat) : Prop where
  few : completionCount ≤ warpSpecializedMetaBatch
  below : system.egress.completionHead + completionCount ≤ system.queue.control.taskTail

namespace Batch

variable {completionCount lane : Nat} (batch : system.Batch completionCount)

include batch

theorem index_eq (invariant : system.Invariant) (inside : lane ≤ completionCount) :
    wrapAdd 64 system.egress.completionHead lane = system.egress.completionHead + lane := by
  have below := batch.below
  have tail := invariant.queue.tail_le
  have bounded := invariant.queue.bounded
  have positive : warpSpecializedMetaBatch = 32 := rfl
  exact wrapAdd_of_lt (by omega)

/-- What is before the batch is given back. -/
theorem previous_freed (inside : lane < completionCount) :
    Previous shape system.Freed (system.egress.completionHead + lane) := by
  intro far
  have few := batch.few
  have near := shape.batch_le
  unfold Freed Egress.Freed
  split
  · left
    omega
  · omega

/-- The lanes of a batch use different external slots. -/
theorem slot_ne (invariant : system.Invariant) {other : Nat}
    (unpublished : system.queue.control.completionTail = system.egress.completionHead)
    (inside : lane < completionCount) (otherInside : other < completionCount)
    (different : other ≠ lane) :
    (system.egress.completionHead + other) % shape.capacity ≠
      (system.egress.completionHead + lane) % shape.capacity := by
  intro same
  have below := batch.below
  have tail := invariant.queue.tail_le
  have room := invariant.queue.room
  have polled := invariant.queue.polledBelow
  have := RingLog.eq_of_mod_eq (by omega) (by omega) same
  omega

end Batch

/-! ## Collecting -/

/-- A lane writes its completion to its external slot. -/
theorem Invariant.writeLane (invariant : system.Invariant) {completionCount lane : Nat}
    {lanes : Nat → CollectLane} {completion : CopyCompletion}
    (collecting : system.egress.phase = .collect completionCount lanes)
    (batch : system.Batch completionCount) (inside : lane < completionCount)
    (state : lanes lane = .write completion) :
    Invariant { system with
      queue := system.queue.writeCompletion shape.capacity
        (system.egress.completionHead + lane) completion
      egress := collected system.egress.completionHead completionCount
        (Function.update lanes lane .done) } := by
  obtain ⟨head, phase⟩ := invariant.egress
  rw [collecting] at phase
  obtain ⟨unpublished, -, known⟩ := phase
  have own := known lane inside
  rw [state] at own
  obtain ⟨done, rfl⟩ := own
  have below := batch.below
  have shows_ : Queue.Shows shape.capacity
      (system.queue.writeCompletion shape.capacity (system.egress.completionHead + lane)
        (completionOf (system.taskAt (system.egress.completionHead + lane))))
      (system.egress.completionHead + lane) := by
    intro task found
    unfold Queue.writeCompletion
    dsimp only
    rw [Queue.slot, and_mask shape.power, Function.update_self]
    exact congrArg completionOf (Queue.taskAt_of_submitted found)
  have keeps : ∀ other < completionCount, other ≠ lane →
      system.queue.Shows shape.capacity (system.egress.completionHead + other) →
        Queue.Shows shape.capacity
          (system.queue.writeCompletion shape.capacity (system.egress.completionHead + lane)
            (completionOf (system.taskAt (system.egress.completionHead + lane))))
          (system.egress.completionHead + other) := by
    intro other otherInside different shown task found
    unfold Queue.writeCompletion
    dsimp only
    rw [Queue.slot, and_mask shape.power, Function.update_of_ne
      (batch.slot_ne invariant unpublished inside otherInside different)]
    exact shown task found
  have lanes_ : ∀ other < completionCount, CollectFits
      { system with
        queue := system.queue.writeCompletion shape.capacity
          (system.egress.completionHead + lane)
          (completionOf (system.taskAt (system.egress.completionHead + lane)))
        egress := collected system.egress.completionHead completionCount
          (Function.update lanes lane .done) }
      (system.egress.completionHead + other) (Function.update lanes lane .done other) := by
    intro other otherInside
    by_cases here : other = lane
    · rw [here, Function.update_self]
      exact ⟨done, shows_⟩
    · rw [Function.update_of_ne here]
      have before := known other otherInside
      cases otherState : lanes other with
      | wait => trivial
      | read =>
          rw [otherState] at before
          exact before
      | write completion =>
          rw [otherState] at before
          exact before
      | done =>
          rw [otherState] at before
          exact ⟨before.1, keeps other otherInside here before.2⟩
  have freed : ∀ index, Egress.Freed (collected system.egress.completionHead completionCount
      (Function.update lanes lane .done)) index ↔ system.Freed index := by
    intro index
    have before : system.Freed index ↔ index < system.egress.completionHead := by
      unfold Freed Egress.Freed
      rw [collecting]
    rw [before]
    unfold collected Egress.Freed
    dsimp only
    split_ifs with all
    · simp only [Bool.false_eq_true, and_false, or_false]
    · rfl
  refine invariant.updateEgress
    (invariant.queue.writeCompletion shape.power (by omega) (by omega) _) rfl rfl rfl
    (fun index => (freed index).mpr)
    (invariant.completions.congr (fun _ => Iff.rfl) freed fun _ _ _ => rfl) (fun _ => rfl)
    ⟨head, ?_⟩
  unfold collected at lanes_ ⊢
  dsimp only at lanes_ ⊢
  by_cases all : (List.range completionCount).all fun other =>
      Function.update lanes lane CollectLane.done other = .done
  · have every : ∀ other < completionCount, Function.update lanes lane .done other = .done :=
      fun other otherInside =>
        of_decide_eq_true (List.all_eq_true.mp all other (List.mem_range.mpr otherInside))
    rw [if_pos all] at lanes_ ⊢
    refine ⟨⟨batch.few, below⟩, fun other otherInside => ?_,
      fun _ => ⟨unpublished, rfl, fun other otherInside => ?_⟩, fun stored => ?_⟩
    · have fits := lanes_ other otherInside
      rw [every other otherInside] at fits
      exact fits.1
    · have fits := lanes_ other otherInside
      rw [every other otherInside] at fits
      exact fits.2
    · cases stored
  · rw [if_neg all] at lanes_ ⊢
    exact ⟨unpublished, ⟨batch.few, below⟩, lanes_⟩

/-! ## Publishing -/

theorem freed_release {completionHead completionCount : Nat} {stored : Bool} {arrived : Nat → Bool}
    (index : Nat) :
    Egress.Freed { completionHead, phase := .release completionCount stored arrived } index ↔
      index < completionHead ∨
        ∃ lane < completionCount, index = completionHead + lane ∧ arrived lane = true := by
  constructor
  · rintro (before | ⟨inside, arrives⟩)
    · exact .inl before
    · by_cases before : index < completionHead
      · exact .inl before
      · dsimp only at inside
        exact .inr ⟨index - completionHead, by omega, by omega, arrives⟩
  · rintro (before | ⟨lane, inside, rfl, arrives⟩)
    · exact .inl before
    · refine .inr ⟨Nat.add_lt_add_left inside completionHead, ?_⟩
      dsimp only
      rw [Nat.add_sub_cancel_left]
      exact arrives

/-- The first lane publishes the batch. -/
theorem Invariant.publish (invariant : system.Invariant) {completionCount : Nat}
    {arrived : Nat → Bool}
    (releasing : system.egress.phase = .release completionCount false arrived)
    (batch : system.Batch completionCount) :
    Invariant { system with
      queue := system.queue.storeCompletionTail (system.egress.completionHead + completionCount)
      egress :=
        { completionHead := system.egress.completionHead
          phase := .release completionCount true arrived } } := by
  obtain ⟨head, phase⟩ := invariant.egress
  rw [releasing] at phase
  obtain ⟨bounds, done, waiting, -⟩ := phase
  obtain ⟨unpublished, -, shown⟩ := waiting rfl
  have freed : ∀ index, Egress.Freed
      { completionHead := system.egress.completionHead
        phase := .release completionCount true arrived } index ↔ system.Freed index := by
    intro index
    unfold Freed Egress.Freed
    rw [releasing]
  refine invariant.updateEgress (invariant.queue.storeCompletionTail (by omega) batch.below
      fun index inside below => ?_) rfl rfl rfl (fun index => (freed index).mpr)
    (invariant.completions.congr (fun _ => Iff.rfl) freed fun _ _ _ => rfl) (fun _ => rfl)
    ⟨head, bounds, done, fun open_ => ?_, fun _ => rfl⟩
  · have lane := shown (index - system.egress.completionHead) (by omega)
    rw [Nat.add_sub_cancel' (by omega)] at lane
    exact lane
  · cases open_

/-- A lane gives the slot of its completion back. -/
theorem Invariant.releaseLane (invariant : system.Invariant) {completionCount lane : Nat}
    {stored : Bool} {arrived : Nat → Bool}
    (releasing : system.egress.phase = .release completionCount stored arrived)
    (batch : system.Batch completionCount) (inside : lane < completionCount)
    (order : ¬(lane = 0 ∧ stored = false)) (open_ : ¬arrived lane = true) :
    Invariant { system with
      sharedCompletions := Function.update system.sharedCompletions
        (cellOf shape (system.egress.completionHead + lane))
        { system.sharedCompletions (cellOf shape (system.egress.completionHead + lane)) with
          consumed := (system.sharedCompletions
            (cellOf shape (system.egress.completionHead + lane))).consumed + 1 }
      egress := released system.egress.completionHead completionCount stored
        (Function.update arrived lane true) } := by
  obtain ⟨head, phase⟩ := invariant.egress
  rw [releasing] at phase
  obtain ⟨bounds, done, waiting, published⟩ := phase
  have before : ∀ index, system.Freed index ↔ index < system.egress.completionHead ∨
      ∃ other < completionCount,
        index = system.egress.completionHead + other ∧ arrived other = true := by
    intro index
    have same : system.egress =
        { completionHead := system.egress.completionHead
          phase := .release completionCount stored arrived } := by
      rw [← releasing]
    unfold Freed
    rw [same]
    exact freed_release index
  have untaken : ¬system.Freed (system.egress.completionHead + lane) := by
    rw [before]
    rintro (early | ⟨other, -, same, arrives⟩)
    · omega
    · have equal : other = lane := by omega
      exact open_ (equal ▸ arrives)
  have states : ∀ other, Function.update arrived lane true other = true ↔
      other = lane ∨ arrived other = true := by
    intro other
    rw [Function.update_apply]
    split_ifs with here
    · exact iff_of_true rfl (.inl here)
    · exact (or_iff_right here).symm
  have also : ∀ index, Egress.Freed (released system.egress.completionHead completionCount stored
      (Function.update arrived lane true)) index ↔
        index = system.egress.completionHead + lane ∨ system.Freed index := by
    intro index
    have lanes : (index < system.egress.completionHead ∨ ∃ other < completionCount,
        index = system.egress.completionHead + other ∧
          Function.update arrived lane true other = true) ↔
        index = system.egress.completionHead + lane ∨ system.Freed index := by
      rw [before]
      constructor
      · rintro (early | ⟨other, otherInside, rfl, arrives⟩)
        · exact .inr (.inl early)
        · rcases (states other).mp arrives with rfl | old
          · exact .inl rfl
          · exact .inr (.inr ⟨other, otherInside, rfl, old⟩)
      · rintro (rfl | early | ⟨other, otherInside, rfl, old⟩)
        · exact .inr ⟨lane, inside, rfl, Function.update_self ..⟩
        · exact .inl early
        · exact .inr ⟨other, otherInside, rfl, (states other).mpr (.inr old)⟩
    rw [← lanes]
    unfold released
    split_ifs with all
    · rw [List.all_eq_true] at all
      rw [batch.index_eq invariant (Nat.le_refl _)]
      constructor
      · intro below
        have below : index < system.egress.completionHead + completionCount := below
        by_cases early : index < system.egress.completionHead
        · exact .inl early
        · exact .inr ⟨index - system.egress.completionHead, by omega, by omega,
            all _ (List.mem_range.mpr (by omega))⟩
      · rintro (early | ⟨other, otherInside, rfl, -⟩)
        · exact Nat.lt_add_right _ early
        · exact Nat.add_lt_add_left otherInside _
    · exact freed_release index
  have first : stored = false → Function.update arrived lane true 0 = false := by
    intro unstored
    have other : (0 : Nat) ≠ lane := fun same => order ⟨same.symm, unstored⟩
    rw [Function.update_of_ne other]
    exact (waiting unstored).2.1
  refine invariant.updateEgress invariant.queue rfl rfl rfl
    (fun index old => (also index).mpr (.inr old))
    (invariant.completions.take shape.warpsPos shape.depthPos (done lane inside) untaken
      (batch.previous_freed inside) also) (fun cell => ?_) ?_
  · rw [Function.update_apply]
    split_ifs with same
    · rw [same]
    · rfl
  · unfold released
    split_ifs with all
    · rw [batch.index_eq invariant (Nat.le_refl _)]
      -- The first lane has arrived, so the tail is stored.
      have stored_ : stored = true := by
        by_contra unstored
        have arrives := List.all_eq_true.mp all 0 (List.mem_range.mpr (Nat.zero_lt_of_lt inside))
        rw [first (Bool.not_eq_true _ ▸ unstored)] at arrives
        exact Bool.false_ne_true arrives
      exact ⟨batch.below, fun final => (by cases final), published stored_⟩
    · exact ⟨head, bounds, done, fun unstored => ⟨(waiting unstored).1, first unstored,
        (waiting unstored).2.2⟩, published⟩

theorem Invariant.egressStep (invariant : system.Invariant) (lane : Nat) :
    (system.egressStep lane).Invariant := by
  obtain ⟨head, known⟩ := invariant.egress
  unfold System.egressStep
  dsimp only
  cases phase : system.egress.phase with
  | fetch fetch =>
      rw [phase] at known
      have freed : ∀ index, system.Freed index ↔ index < system.egress.completionHead := by
        intro index
        unfold Freed Egress.Freed
        rw [phase]
      have start : ∀ next, (∀ index, Egress.Freed
          { completionHead := system.egress.completionHead, phase := next } index ↔
            index < system.egress.completionHead) →
          EgressFits { system with
            egress := { completionHead := system.egress.completionHead, phase := next } } →
          Invariant { system with
            egress := { completionHead := system.egress.completionHead, phase := next } } :=
        fun next same fits => invariant.updateEgress invariant.queue rfl rfl rfl
          (fun index old => (same index).mpr ((freed index).mp old))
          (invariant.completions.congr (fun _ => Iff.rfl)
            (fun index => (same index).trans (freed index).symm) fun _ _ _ => rfl)
          (fun _ => rfl) fits
      dsimp only
      by_cases other : lane ≠ 0
      · rw [if_pos other]
        exact invariant
      · rw [if_neg other]
        cases fetched : system.queue.fetch system.egress.completionHead fetch with
        | again next =>
            refine start _ (fun _ => Iff.rfl) ⟨head, ?_, known.2⟩
            rintro rfl
            exact Queue.fetch_again fetched
        | batch completionCount =>
            obtain ⟨-, few, below⟩ := invariant.queue.fetch_batch fetched
            exact start _ (fun _ => Iff.rfl) ⟨head, known.2, ⟨few, below⟩, fun _ _ => trivial⟩
        | stop =>
            obtain ⟨final, none⟩ := Queue.fetch_stop fetched
            exact start _ (fun _ => Iff.rfl) ⟨head, ⟨known.1 final, none⟩, known.2⟩
  | collect completionCount lanes =>
      rw [phase] at known
      obtain ⟨unpublished, bounds, fits⟩ := known
      have batch : system.Batch completionCount := ⟨bounds.1, bounds.2⟩
      dsimp only
      by_cases outside : completionCount ≤ lane
      · rw [if_pos outside]
        exact invariant
      · rw [if_neg outside]
        have inside := Nat.not_le.mp outside
        have own := fits lane inside
        have freed : ∀ index, system.Freed index ↔ index < system.egress.completionHead := by
          intro index
          unfold Freed Egress.Freed
          rw [phase]
        have untaken : ¬system.Freed (system.egress.completionHead + lane) := by
          rw [freed]
          omega
        -- A lane that reads leaves everything else as it is.
        have move : ∀ next : CollectLane,
            system.CollectFits (system.egress.completionHead + lane) next →
              Invariant { system with
                egress :=
                  { completionHead := system.egress.completionHead
                    phase := .collect completionCount (Function.update lanes lane next) } } := by
          intro next fit
          refine invariant.updateEgress invariant.queue rfl rfl rfl
            (fun index => (freed index).mp)
            (invariant.completions.congr (fun _ => Iff.rfl) (fun index => (freed index).symm)
              fun _ _ _ => rfl)
            (fun _ => rfl) ⟨head, unpublished, bounds, fun other otherInside => ?_⟩
          by_cases here : other = lane
          · rw [here, Function.update_self]
            exact fit
          · rw [Function.update_of_ne here]
            exact fits other otherInside
        rw [batch.index_eq invariant inside.le, indexSlot_eq, indexPhase_eq]
        cases state : lanes lane with
        | wait =>
            dsimp only
            split_ifs with passes
            · exact move _ (invariant.completions.filled_of_passed shape.warpsPos shape.depthPos
                untaken (batch.previous_freed inside) passes)
            · exact invariant
        | read =>
            rw [state] at own
            exact move _ ⟨own, invariant.completions.holds _ own untaken⟩
        | write completion => exact invariant.writeLane phase batch inside state
        | done => exact invariant
  | release completionCount stored arrived =>
      rw [phase] at known
      have batch : system.Batch completionCount := ⟨known.1.1, known.1.2⟩
      dsimp only
      by_cases outside : completionCount ≤ lane
      · rw [if_pos outside]
        exact invariant
      · rw [if_neg outside]
        have inside := Nat.not_le.mp outside
        rw [batch.index_eq invariant inside.le, batch.index_eq invariant (Nat.le_refl _),
          indexSlot_eq]
        split_ifs with first arrives
        · rw [first.2] at phase
          exact invariant.publish phase batch
        · exact invariant
        · exact invariant.releaseLane phase batch inside first arrives
  | stopped => exact invariant

end System

end Ugdr.Gpu.Pipeline
