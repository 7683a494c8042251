import Ugdr.Gpu.WarpSpecializedKernelWarps

/-! # Steps of the egress warp

The egress warp collects the completions of a batch wave by wave, gives their slots back, and
publishes the batch when all of its lanes have written theirs.
-/

namespace Ugdr.Gpu.WarpSpecializedKernel

open Machine Sequenced WarpSpecialized

namespace System

variable {shape : Shape} {system : System shape}

/-- The egress warp makes a step. -/
theorem Invariant.updateEgress (invariant : system.Invariant) {queue : Queue}
    {slots : Nat → Slot CopyCompletion} {egress : Egress}
    (kept : queue.Invariant shape.capacity)
    (tail : queue.control.taskTail = system.queue.control.taskTail)
    (stop : queue.control.stopRequested = system.queue.control.stopRequested)
    (submitted : queue.submitted = system.queue.submitted)
    (channel : Channel shape.sharedQueueDepth slots
      fun index => completionOf (system.taskAt index))
    (filled : ∀ index, Filled shape.sharedQueueDepth slots index ↔
      Filled shape.sharedQueueDepth system.sharedCompletions index)
    (freed : ∀ index, Taken shape.sharedQueueDepth slots index ↔ egress.Freed index)
    (stable : ∀ index, Open shape.sharedQueueDepth system.sharedCompletions index →
      slots (index % shape.sharedQueueDepth) =
        system.sharedCompletions (index % shape.sharedQueueDepth))
    (fits : EgressFits { system with queue, sharedCompletions := slots, egress }) :
    Invariant { system with queue, sharedCompletions := slots, egress } := by
  have after := Later.ofDevice system { system with queue, sharedCompletions := slots, egress }
    tail stop submitted
  exact
    { queue := kept
      tasks := after.tasks invariant invariant.tasks fun _ => invariant.known_of_filled
      completions := after.completions invariant channel
        fun index full => invariant.known_of_answered ((filled index).mp full)
      handed := invariant.handed
      taken := invariant.taken
      answered := fun index => (filled index).trans (invariant.answered index)
      freed := freed
      claimed := invariant.claimed
      published := invariant.published
      apart := invariant.apart
      ingress := after.ingressFits invariant rfl rfl fun _ _ => rfl
      warps := fun warp => after.warpFits invariant rfl (Nat.le_refl _) (Nat.le_refl _) id
        (fun _ _ _ => rfl) fun index _ open_ => stable index open_
      egress := fits
      ledger := after.ledger invariant.ledger rfl fun _ => Iff.rfl }

/-- The egress warp changes only what it does next. -/
theorem Invariant.moveEgress (invariant : system.Invariant) {egress : Egress}
    (freed : ∀ index, egress.Freed index ↔ system.egress.Freed index)
    (fits : EgressFits { system with egress }) : Invariant { system with egress } :=
  invariant.updateEgress invariant.queue rfl rfl rfl invariant.completions (fun _ => Iff.rfl)
    (fun index => (invariant.freed index).trans (freed index).symm) (fun _ _ => rfl) fits

/-! ## Batches -/

namespace BatchFits

variable {completionCount waveBase lane : Nat}
  (batch : system.BatchFits system.egress.completionHead completionCount waveBase)

include batch

theorem index_eq (invariant : system.Invariant) (inside : lane ≤ completionCount) :
    wrapAdd 64 system.egress.completionHead lane = system.egress.completionHead + lane := by
  have below := batch.below
  have tail := invariant.queue.tail_le
  have bounded := invariant.queue.bounded
  have few : warpSpecializedMetaBatch = 32 := rfl
  exact wrapAdd_of_lt (by omega)

/-- The numbers of the slots of a batch do not wrap. -/
theorem sequence_eq (invariant : system.Invariant) (inside : lane < completionCount) {offset : Nat}
    (near : offset ≤ shape.sharedQueueDepth) :
    wrapAdd 64 (system.egress.completionHead + lane) offset =
      system.egress.completionHead + lane + offset := by
  have below := batch.below
  have tail := invariant.queue.tail_le
  have bounded := invariant.queue.bounded
  have few : warpSpecializedMetaBatch = 32 := rfl
  have depth := shape.depthBounds.2
  exact wrapAdd_of_lt (by omega)

/-- The lanes of a batch use different external slots. -/
theorem slot_ne (invariant : system.Invariant) {other : Nat} (inside : lane < completionCount)
    (otherInside : other < completionCount) (different : other ≠ lane) :
    (system.egress.completionHead + other) % shape.capacity ≠
      (system.egress.completionHead + lane) % shape.capacity := by
  intro same
  have published := invariant.egress.published
  have below := batch.below
  have tail := invariant.queue.tail_le
  have room := invariant.queue.room
  have polled := invariant.queue.polledBelow
  have := RingLog.eq_of_mod_eq (by omega) (by omega) same
  omega

end BatchFits

/-! ## Waves -/

/-- A lane of an earlier wave has given its slot back. -/
theorem CollectFits.freed_of_lt {completionCount waveBase lane : Nat} {state : CollectLane}
    (fits : system.CollectFits completionCount waveBase lane state) (before : lane < waveBase) :
    state.isFreed = true := by
  cases state with
  | wait =>
      have : waveBase ≤ lane := fits
      omega
  | read =>
      have := fits.1.1
      omega
  | hold completion =>
      have := fits.1.1
      omega
  | freed completion => rfl
  | written => exact fits.elim

theorem freed_collecting {completionCount waveBase : Nat} {lanes : Nat → CollectLane}
    (phase : system.egress.phase = .collect completionCount waveBase lanes ∨
      system.egress.phase = .free completionCount waveBase lanes) (index : Nat) :
    system.egress.Freed index ↔ index < system.egress.completionHead ∨
      index < system.egress.completionHead + completionCount ∧
        (lanes (index - system.egress.completionHead)).isFreed = true := by
  unfold Egress.Freed
  rcases phase with phase | phase
  · rw [phase]
  · rw [phase]

theorem freed_collected {completionHead completionCount waveBase : Nat}
    {lanes : Nat → CollectLane} (index : Nat) :
    (collected shape completionHead completionCount waveBase lanes).Freed index ↔
      index < completionHead ∨ index < completionHead + completionCount ∧
        (lanes (index - completionHead)).isFreed = true := by
  unfold collected Egress.Freed
  split_ifs <;> rfl

/-- A lane waits for its completion or reads it. -/
theorem Invariant.collectLane (invariant : system.Invariant) {completionCount waveBase : Nat}
    {lanes : Nat → CollectLane} {egress : Egress} (lane : Nat) (next : CollectLane)
    (phase : system.egress.phase = .collect completionCount waveBase lanes)
    (held : (lanes lane).isFreed = false) (holds : next.isFreed = false)
    (fits : system.CollectFits completionCount waveBase lane next)
    (shown : egress = ⟨system.egress.completionHead,
        .collect completionCount waveBase (Function.update lanes lane next)⟩ ∨
      egress = collected shape system.egress.completionHead completionCount waveBase
        (Function.update lanes lane next)) : Invariant { system with egress } := by
  obtain ⟨head, published, known⟩ := invariant.egress
  rw [phase] at known
  obtain ⟨batch, known⟩ := known
  have states : ∀ other, (Function.update lanes lane next other).isFreed =
      (lanes other).isFreed := by
    intro other
    rw [Function.update_apply]
    split_ifs with here
    · rw [here, held, holds]
    · rfl
  have lanes_ : ∀ other < completionCount,
      system.CollectFits completionCount waveBase other (Function.update lanes lane next other) ∧
        ((Function.update lanes lane next other).isFreed = true → other < waveBase) := by
    intro other inside
    rw [states]
    refine ⟨?_, (known other inside).2⟩
    by_cases here : other = lane
    · rw [here, Function.update_self]
      exact fits
    · rw [Function.update_of_ne here]
      exact (known other inside).1
  refine invariant.moveEgress (fun index => ?_) ?_
  · rw [freed_collecting (.inl phase)]
    simp only [← states]
    rcases shown with rfl | rfl
    · rfl
    · exact freed_collected index
  · rcases shown with rfl | rfl
    · exact ⟨head, published, ⟨batch.few, batch.below, batch.inside⟩, lanes_⟩
    · refine ⟨head, published, ?_⟩
      unfold collected
      dsimp only
      split_ifs with all
      · refine ⟨⟨batch.few, batch.below, batch.inside⟩, fun other inside =>
          ⟨(lanes_ other inside).1, fun wave => ?_⟩⟩
        have own := of_decide_eq_true
          (List.all_eq_true.mp all other (List.mem_range.mpr wave))
        rcases own with before | here
        · exact .inl ((lanes_ other inside).1.freed_of_lt before)
        · exact .inr here
      · exact ⟨⟨batch.few, batch.below, batch.inside⟩, lanes_⟩

/-! ## Slots -/

/-- The slots of a wave that are given back. -/
theorem freed_freed {completionHead completionCount waveBase : Nat} {lanes : Nat → CollectLane}
    (before : ∀ lane < completionCount, lane < waveBase → (lanes lane).isFreed = true)
    (index : Nat) :
    (System.freed shape completionHead completionCount waveBase lanes).Freed index ↔
      index < completionHead ∨ index < completionHead + completionCount ∧
        (lanes (index - completionHead)).isFreed = true := by
  unfold System.freed Egress.Freed
  split_ifs with all last
  · constructor
    · intro below
      have below : index < completionHead + completionCount := below
      by_cases early : index < completionHead
      · exact .inl early
      · refine .inr ⟨below, ?_⟩
        have wave : index - completionHead < waveEnd shape completionCount waveBase := by
          unfold waveEnd
          split_ifs <;> omega
        have own := of_decide_eq_true (List.all_eq_true.mp all _ (List.mem_range.mpr wave))
        exact own.elim (before _ (by omega)) id
    · rintro (early | ⟨below, -⟩)
      · exact Nat.lt_add_right _ early
      · exact below
  · rfl
  · rfl

/-- When all slots of a wave are given back, the next wave begins, or the completions are
written. -/
theorem Invariant.fits_freed (invariant : system.Invariant) {completionCount waveBase : Nat}
    {lanes : Nat → CollectLane} {slots : Nat → Slot CopyCompletion}
    (batch : system.BatchFits system.egress.completionHead completionCount waveBase)
    (fits : ∀ lane < completionCount,
      CollectFits { system with sharedCompletions := slots } completionCount waveBase lane
          (lanes lane) ∧
        (lane < waveEnd shape completionCount waveBase → (lanes lane).isFreed = true ∨
          (lanes lane).isHold = true)) :
    EgressFits { system with
      sharedCompletions := slots
      egress := System.freed shape system.egress.completionHead completionCount waveBase
        lanes } := by
  refine ⟨invariant.egress.head, invariant.egress.published, ?_⟩
  have bounds : ∀ {base : Nat}, base < completionCount → BatchFits
      { system with
        sharedCompletions := slots
        egress := System.freed shape system.egress.completionHead completionCount waveBase lanes }
      system.egress.completionHead completionCount base :=
    fun inside => ⟨batch.few, batch.below, inside⟩
  unfold System.freed at bounds ⊢
  dsimp only at bounds ⊢
  by_cases all : ((List.range (waveEnd shape completionCount waveBase)).all fun lane =>
      lane < waveBase ∨ (lanes lane).isFreed = true) = true
  · rw [if_pos all] at bounds ⊢
    have given : ∀ lane < completionCount, lane < waveEnd shape completionCount waveBase →
        (lanes lane).isFreed = true := by
      intro lane inside wave
      have own := of_decide_eq_true (List.all_eq_true.mp all lane (List.mem_range.mpr wave))
      exact own.elim (fits lane inside).1.freed_of_lt id
    by_cases last : completionCount ≤ waveBase + shape.sharedQueueDepth
    · rw [if_pos last] at bounds ⊢
      refine ⟨bounds (Nat.zero_lt_of_lt batch.inside), fun lane inside => ?_⟩
      have state := given lane inside (by unfold waveEnd; split_ifs <;> omega)
      have own := (fits lane inside).1
      cases here : lanes lane with
      | freed completion =>
          rw [here] at own
          exact own.2
      | _ =>
          rw [here] at state
          cases state
    · rw [if_neg last] at bounds ⊢
      have whole : waveEnd shape completionCount waveBase =
          waveBase + shape.sharedQueueDepth := by
        unfold waveEnd
        rw [if_pos (by omega)]
      have next := lt_waveEnd shape (Nat.not_le.mp last)
      rw [whole] at given
      refine ⟨bounds (Nat.not_le.mp last), fun lane inside => ?_⟩
      have own := (fits lane inside).1
      cases here : lanes lane with
      | freed completion =>
          rw [here] at own
          have wave := own.1
          rw [whole] at wave
          exact ⟨⟨wave.trans next, own.2⟩, fun _ => wave⟩
      | wait =>
          refine ⟨Nat.not_lt.mp fun wave => ?_, fun state => by cases state⟩
          have state := given lane inside wave
          rw [here] at state
          cases state
      | read =>
          rw [here] at own
          have state := given lane inside (whole ▸ own.1.2)
          rw [here] at state
          cases state
      | hold completion =>
          rw [here] at own
          have state := given lane inside (whole ▸ own.1.2)
          rw [here] at state
          cases state
      | written =>
          rw [here] at own
          exact own.elim
  · rw [if_neg all] at bounds ⊢
    exact ⟨bounds batch.inside, fits⟩

/-- A lane gives the slot of its completion back. -/
theorem Invariant.freeLane (invariant : system.Invariant) {completionCount waveBase lane : Nat}
    {lanes : Nat → CollectLane} {completion : CopyCompletion}
    (phase : system.egress.phase = .free completionCount waveBase lanes)
    (inside : lane < completionCount) (state : lanes lane = .hold completion) :
    Invariant { system with
      sharedCompletions := store shape.sharedQueueDepth system.sharedCompletions
        (system.egress.completionHead + lane)
        (system.egress.completionHead + lane + shape.sharedQueueDepth)
      egress := System.freed shape system.egress.completionHead completionCount waveBase
        (Function.update lanes lane (.freed completion)) } := by
  have known := invariant.egress.phase
  rw [phase] at known
  obtain ⟨batch, known⟩ := known
  have own := (known lane inside).1
  rw [state] at own
  obtain ⟨wave, full, same⟩ := own
  have many := shape.depthBounds.1
  have states : ∀ other, (Function.update lanes lane (.freed completion) other).isFreed = true ↔
      other = lane ∨ (lanes other).isFreed = true := by
    intro other
    rw [Function.update_apply]
    split_ifs with here
    · exact iff_of_true rfl (.inl here)
    · exact (or_iff_right here).symm
  -- The other lanes of the wave hold other slots.
  have fits : ∀ other < completionCount,
      CollectFits { system with
          sharedCompletions := store shape.sharedQueueDepth system.sharedCompletions
            (system.egress.completionHead + lane)
            (system.egress.completionHead + lane + shape.sharedQueueDepth) }
          completionCount waveBase other (Function.update lanes lane (.freed completion) other) ∧
        (other < waveEnd shape completionCount waveBase →
          (Function.update lanes lane (.freed completion) other).isFreed = true ∨
            (Function.update lanes lane (.freed completion) other).isHold = true) := by
    intro other otherInside
    by_cases here : other = lane
    · rw [here, Function.update_self]
      exact ⟨⟨wave.2, same⟩, fun _ => .inl rfl⟩
    · rw [Function.update_of_ne here]
      obtain ⟨before, held⟩ := known other otherInside
      refine ⟨?_, held⟩
      have stays : Full shape.sharedQueueDepth system.sharedCompletions
          (system.egress.completionHead + other) →
          Full shape.sharedQueueDepth (store shape.sharedQueueDepth system.sharedCompletions
            (system.egress.completionHead + lane)
            (system.egress.completionHead + lane + shape.sharedQueueDepth))
            (system.egress.completionHead + other) := by
        intro full'
        unfold Full store
        rw [Function.update_of_ne (full.place_ne many (.inr ⟨full', by omega⟩))]
        exact full'
      cases otherState : lanes other with
      | read =>
          rw [otherState] at before
          exact ⟨before.1, stays before.2⟩
      | hold completion =>
          rw [otherState] at before
          exact ⟨before.1, stays before.2.1, before.2.2⟩
      | _ =>
          rw [otherState] at before
          exact before
  refine invariant.updateEgress invariant.queue rfl rfl rfl
    (invariant.completions.release many full) (fun _ => filled_release many full)
    (fun index => ?_) (fun _ open_ => Function.update_of_ne (full.place_ne many (.inl open_)) ..)
    (invariant.fits_freed batch fits)
  rw [taken_release many full, invariant.freed, freed_collecting (.inr phase), freed_freed
    fun other otherInside => (fits other otherInside).1.freed_of_lt, states]
  constructor
  · rintro (rfl | before | ⟨below, given⟩)
    · refine .inr ⟨Nat.add_lt_add_left inside _, .inl ?_⟩
      rw [Nat.add_sub_cancel_left]
    · exact .inl before
    · exact .inr ⟨below, .inr given⟩
  · rintro (before | ⟨below, here | given⟩)
    · exact .inr (.inl before)
    · by_cases early : index < system.egress.completionHead
      · exact .inr (.inl early)
      · exact .inl (by omega)
    · exact .inr (.inr ⟨below, given⟩)

/-! ## External slots -/

theorem freed_written {completionHead completionCount : Nat} {lanes : Nat → CollectLane}
    (index : Nat) : (written completionHead completionCount lanes).Freed index ↔
      index < completionHead + completionCount := by
  unfold written Egress.Freed
  split_ifs <;> rfl

/-- A lane writes its completion to its external slot. -/
theorem Invariant.writeLane (invariant : system.Invariant) {completionCount lane : Nat}
    {lanes : Nat → CollectLane} {completion : CopyCompletion}
    (phase : system.egress.phase = .write completionCount lanes)
    (inside : lane < completionCount) (state : lanes lane = .freed completion) :
    Invariant { system with
      queue := system.queue.writeCompletion shape.capacity
        (system.egress.completionHead + lane) completion
      egress := written system.egress.completionHead completionCount
        (Function.update lanes lane .written) } := by
  obtain ⟨head, published, known⟩ := invariant.egress
  rw [phase] at known
  obtain ⟨batch, known⟩ := known
  have own := known lane inside
  rw [state] at own
  have own : completion = completionOf (system.taskAt (system.egress.completionHead + lane)) := own
  have below := batch.below
  have lanes_ : ∀ other < completionCount, WriteFits
      { system with
        queue := system.queue.writeCompletion shape.capacity
          (system.egress.completionHead + lane) completion
        egress := written system.egress.completionHead completionCount
          (Function.update lanes lane .written) }
      (system.egress.completionHead + other) (Function.update lanes lane .written other) := by
    intro other otherInside
    by_cases here : other = lane
    · rw [here, Function.update_self]
      intro task found
      unfold Queue.writeCompletion
      dsimp only
      rw [Queue.slot, and_mask shape.power, Function.update_self, own]
      exact congrArg completionOf (Queue.taskAt_of_submitted found)
    · rw [Function.update_of_ne here]
      have before := known other otherInside
      cases otherState : lanes other with
      | freed completion =>
          rw [otherState] at before
          exact before
      | written =>
          rw [otherState] at before
          intro task found
          unfold Queue.writeCompletion
          dsimp only
          rw [Queue.slot, and_mask shape.power, Function.update_of_ne
            (batch.slot_ne invariant inside otherInside here)]
          exact before task found
      | _ =>
          rw [otherState] at before
          exact before.elim
  have freed : ∀ index, system.egress.Freed index ↔
      index < system.egress.completionHead + completionCount := by
    intro index
    unfold Egress.Freed
    rw [phase]
  refine invariant.updateEgress
    (invariant.queue.writeCompletion shape.power (by omega) (by omega) _) rfl rfl rfl
    invariant.completions (fun _ => Iff.rfl)
    (fun index => (invariant.freed index).trans ((freed index).trans (freed_written index).symm))
    (fun _ _ => rfl) ⟨head, published, ?_⟩
  unfold written at lanes_ ⊢
  dsimp only at lanes_ ⊢
  by_cases all : ((List.range completionCount).all fun other =>
      Function.update lanes lane CollectLane.written other = .written) = true
  · rw [if_pos all] at lanes_ ⊢
    refine ⟨⟨batch.few, below, batch.inside⟩, fun other otherInside => ?_⟩
    have every := of_decide_eq_true
      (List.all_eq_true.mp all other (List.mem_range.mpr otherInside))
    have fits := lanes_ other otherInside
    rw [every] at fits
    exact fits
  · rw [if_neg all] at lanes_ ⊢
    exact ⟨⟨batch.few, below, batch.inside⟩, lanes_⟩

/-- The egress warp publishes a batch. -/
theorem Invariant.publish (invariant : system.Invariant) {completionCount : Nat}
    (phase : system.egress.phase = .storeTail completionCount) :
    Invariant { system with
      queue := system.queue.storeCompletionTail (system.egress.completionHead + completionCount)
      egress := { completionHead := system.egress.completionHead + completionCount } } := by
  obtain ⟨head, published, known⟩ := invariant.egress
  rw [phase] at known
  obtain ⟨batch, shown⟩ := known
  have freed : ∀ index, system.egress.Freed index ↔
      index < system.egress.completionHead + completionCount := by
    intro index
    unfold Egress.Freed
    rw [phase]
  refine invariant.updateEgress (invariant.queue.storeCompletionTail (by omega) batch.below
      fun index inside below => ?_) rfl rfl rfl invariant.completions (fun _ => Iff.rfl)
    (fun index => (invariant.freed index).trans (freed index)) (fun _ _ => rfl)
    ⟨batch.below, rfl, fun final => by cases final⟩
  have lane := shown (index - system.egress.completionHead) (by omega)
  rw [Nat.add_sub_cancel' (by omega)] at lane
  exact lane

/-! ## Steps -/

theorem Invariant.egressStep (invariant : system.Invariant) (lane : Nat) :
    (system.egressStep lane).Invariant := by
  obtain ⟨head, published, known⟩ := invariant.egress
  unfold System.egressStep
  dsimp only
  cases phase : system.egress.phase with
  | fetch fetch =>
      rw [phase] at known
      have freed : ∀ index, system.egress.Freed index ↔ index < system.egress.completionHead := by
        intro index
        unfold Egress.Freed
        rw [phase]
      dsimp only
      by_cases other : lane ≠ 0
      · rw [if_pos other]
        exact invariant
      · rw [if_neg other]
        cases fetched : system.queue.fetch system.egress.completionHead fetch with
        | again next =>
            refine invariant.moveEgress (fun index => (freed index).symm) ⟨head, published, ?_⟩
            rintro rfl
            exact Queue.fetch_again fetched
        | batch completionCount =>
            obtain ⟨some_, few, below⟩ := invariant.queue.fetch_batch fetched
            refine invariant.moveEgress (fun index => ?_) ⟨head, published, ⟨few, below, some_⟩,
              fun lane _ => ⟨Nat.zero_le lane, fun state => by cases state⟩⟩
            rw [freed]
            refine or_iff_left ?_
            rintro ⟨-, ⟨⟩⟩
        | stop =>
            obtain ⟨final, none⟩ := Queue.fetch_stop fetched
            exact invariant.moveEgress (fun index => (freed index).symm)
              ⟨head, published, known final, none⟩
  | collect completionCount waveBase lanes =>
      rw [phase] at known
      obtain ⟨batch, known⟩ := known
      have ends := waveEnd_le shape completionCount waveBase
      have depth := shape.depthPos
      dsimp only
      by_cases outside : lane < waveBase ∨ waveEnd shape completionCount waveBase ≤ lane
      · rw [if_pos outside]
        exact invariant
      · rw [if_neg outside]
        rw [not_or, Nat.not_lt, Nat.not_le] at outside
        have inside : lane < completionCount := by omega
        have own := (known lane inside).1
        rw [batch.index_eq invariant inside.le, sharedSlot_eq,
          batch.sequence_eq invariant inside (by omega)]
        cases state : lanes lane with
        | wait =>
            dsimp only
            split_ifs with full
            · exact invariant.collectLane lane .read phase (state ▸ rfl) rfl ⟨outside, full⟩
                (.inl rfl)
            · exact invariant
        | read =>
            rw [state] at own
            have value := invariant.completions.holds _ own.2.filled
              (own.2.not_taken shape.depthBounds.1)
            exact invariant.collectLane lane (.hold _) phase (state ▸ rfl) rfl
              ⟨outside, own.2, value⟩
              (.inr rfl)
        | _ => exact invariant
  | free completionCount waveBase lanes =>
      rw [phase] at known
      obtain ⟨batch, known⟩ := known
      have ends := waveEnd_le shape completionCount waveBase
      dsimp only
      by_cases outside : lane < waveBase ∨ waveEnd shape completionCount waveBase ≤ lane
      · rw [if_pos outside]
        exact invariant
      · rw [if_neg outside]
        have inside : lane < completionCount := by omega
        rw [batch.index_eq invariant inside.le, sharedSlot_eq,
          batch.sequence_eq invariant inside (Nat.le_refl _)]
        cases state : lanes lane with
        | hold completion => exact invariant.freeLane phase inside state
        | _ => exact invariant
  | write completionCount lanes =>
      rw [phase] at known
      have batch := known.1
      dsimp only
      by_cases outside : completionCount ≤ lane
      · rw [if_pos outside]
        exact invariant
      · rw [if_neg outside]
        have inside := Nat.not_le.mp outside
        rw [batch.index_eq invariant inside.le]
        cases state : lanes lane with
        | freed completion => exact invariant.writeLane phase inside state
        | _ => exact invariant
  | storeTail completionCount =>
      rw [phase] at known
      dsimp only
      by_cases other : lane ≠ 0
      · rw [if_pos other]
        exact invariant
      · rw [if_neg other, known.1.index_eq invariant (Nat.le_refl _)]
        exact invariant.publish phase
  | stopped => exact invariant

end System

end Ugdr.Gpu.WarpSpecializedKernel
