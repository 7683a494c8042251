import Ugdr.Gpu.WarpSpecializedKernelInvariant

/-! # Steps of the host and of the ingress warp

A party leaves the slots alone that another one may write or read at the moment, so what the
others know stays as it is.
-/

namespace Ugdr.Gpu.WarpSpecializedKernel

open Machine Sequenced WarpSpecialized

namespace System

variable {shape : Shape} {system : System shape}

/-! ## What stays -/

/-- Nothing that has happened is undone, and nothing is submitted after a request to stop. -/
structure Later (system later : System shape) : Prop where
  tail : system.queue.control.taskTail ≤ later.queue.control.taskTail
  submitted : ∀ (index : Nat) task, system.queue.submitted[index]? = some task →
    later.queue.submitted[index]? = some task
  final : system.queue.control.stopRequested ≠ 0 → later.queue.control.stopRequested ≠ 0 ∧
    later.queue.control.taskTail = system.queue.control.taskTail

/-- A step of the device, which submits nothing. -/
theorem Later.ofDevice (system later : System shape) (tail : later.queue.control.taskTail =
      system.queue.control.taskTail)
    (stop : later.queue.control.stopRequested = system.queue.control.stopRequested)
    (submitted : later.queue.submitted = system.queue.submitted) : Later system later where
  tail := tail.ge
  submitted := fun _ _ found => submitted ▸ found
  final := fun stopped => ⟨stop ▸ stopped, tail⟩

namespace Invariant

variable (invariant : system.Invariant)

include invariant

/-- What is handed over is published by the host. -/
theorem known_of_handed {index : Nat} (handed : system.ingress.Handed index) :
    index < system.queue.control.taskTail := by
  obtain ⟨head, -, phase⟩ := invariant.ingress
  unfold Ingress.Handed at handed
  split at handed
  · omega
  · omega
  · omega
  · rename_i taskCount waveBase lanes waving
    rw [waving] at phase
    have := phase.1.below
    omega
  · rename_i taskCount waveBase lanes publishing
    rw [publishing] at phase
    have := phase.1.below
    omega

theorem known_of_filled {index : Nat}
    (filled : Filled shape.sharedQueueDepth system.sharedTasks index) :
    index < system.queue.control.taskTail :=
  invariant.known_of_handed ((invariant.handed index).mp filled)

/-- The tasks made known to the copy warps are handed over. -/
theorem handed_of_published {index : Nat} (published : index < system.control.taskPublish) :
    system.ingress.Handed index := by
  rw [invariant.published] at published
  have phase := invariant.ingress.phase
  unfold Ingress.published at published
  unfold Ingress.Handed
  have lanes_done : ∀ {taskCount waveBase : Nat} {lanes : Nat → LoadLane},
      waveBase < taskCount → (∀ lane < taskCount,
        system.LaneFits taskCount waveBase lane (lanes lane)) →
      index < system.ingress.taskHead + waveBase → index < system.ingress.taskHead ∨
        index < system.ingress.taskHead + taskCount ∧
          lanes (index - system.ingress.taskHead) = .done := by
    intro taskCount waveBase lanes inside fits below
    by_cases before : index < system.ingress.taskHead
    · exact .inl before
    · have lane := fits (index - system.ingress.taskHead) (by omega)
      refine .inr ⟨by omega, ?_⟩
      cases state : lanes (index - system.ingress.taskHead) with
      | done => rfl
      | read =>
          rw [state] at lane
          unfold LaneFits at lane
          omega
      | wait task =>
          rw [state] at lane
          have := lane.1
          omega
      | write task =>
          rw [state] at lane
          have := lane.1.1
          omega
      | store =>
          rw [state] at lane
          have := lane.1.1
          omega
  cases state : system.ingress.phase with
  | fetch fetch =>
      rw [state] at published
      exact published
  | wave taskCount waveBase lanes =>
      rw [state] at published phase
      exact lanes_done phase.1.inside phase.2 published
  | publish taskCount waveBase lanes =>
      rw [state] at published phase
      exact lanes_done phase.1.inside (fun lane inside => (phase.2 lane inside).1) published
  | storeDone =>
      rw [state] at published
      exact published
  | stopped =>
      rw [state] at published
      exact published

theorem known_of_published {index : Nat} (published : index < system.control.taskPublish) :
    index < system.queue.control.taskTail :=
  invariant.known_of_handed (invariant.handed_of_published published)

theorem known_of_claimed {index : Nat} (claimed : index < system.control.taskClaim) :
    index < system.queue.control.taskTail :=
  invariant.known_of_published (Nat.lt_of_lt_of_le claimed invariant.claimed)

theorem known_of_answered {index : Nat}
    (answered : Filled shape.sharedQueueDepth system.sharedCompletions index) :
    index < system.queue.control.taskTail :=
  invariant.known_of_claimed ((invariant.answered index).mp answered).1

/-- A task that a warp holds is published by the host. -/
theorem known_of_holds {warp : Fin shape.copyWarps} {index : Nat}
    (holds : (system.copyWarps warp).Holds index) : index < system.queue.control.taskTail :=
  invariant.known_of_claimed (Nat.lt_of_lt_of_le holds.2 (invariant.warps warp).within)

/-- A working warp holds the task that it is at. -/
theorem holds_of_working {warp : Fin shape.copyWarps}
    (working : (system.copyWarps warp).phase.working = true) :
    (system.copyWarps warp).Holds (system.copyWarps warp).answeredTo := by
  exact ⟨Nat.le_refl _, Nat.add_lt_add_left ((invariant.warps warp).busy working) _⟩

/-- What is published by the egress warp is answered. -/
theorem answered_of_tail {index : Nat} (below : index < system.queue.control.completionTail) :
    Filled shape.sharedQueueDepth system.sharedCompletions index := by
  rw [invariant.egress.published] at below
  apply filled_of_taken shape.depthPos
  rw [invariant.freed]
  unfold Egress.Freed
  split
  · exact below
  · exact below
  · exact .inl below
  · exact .inl below
  · exact Nat.lt_add_right _ below
  · exact Nat.lt_add_right _ below

end Invariant

namespace Later

variable {later : System shape} (after : Later system later) (invariant : system.Invariant)

include after invariant

theorem taskAt {index : Nat} (known : index < system.queue.control.taskTail) :
    later.taskAt index = system.taskAt index :=
  Queue.taskAt_of_submitted (after.submitted _ _ (invariant.queue.submitted_of_lt known))

omit invariant in
theorem batchFits {head count waveBase : Nat} (fits : system.BatchFits head count waveBase) :
    later.BatchFits head count waveBase :=
  ⟨fits.few, fits.below.trans after.tail, fits.inside⟩

theorem laneFits (same : later.ingress = system.ingress)
    (slots : ∀ index, Open shape.sharedQueueDepth system.sharedTasks index →
      later.sharedTasks (index % shape.sharedQueueDepth) =
        system.sharedTasks (index % shape.sharedQueueDepth))
    {taskCount waveBase lane : Nat} {state : LoadLane}
    (known : system.ingress.taskHead + lane < system.queue.control.taskTail)
    (fits : system.LaneFits taskCount waveBase lane state) :
    later.LaneFits taskCount waveBase lane state := by
  cases state with
  | read => exact fits
  | wait task =>
      unfold LaneFits
      rw [same, after.taskAt invariant known]
      exact fits
  | write task =>
      unfold LaneFits Open
      rw [same, after.taskAt invariant known, slots _ fits.2.1]
      exact fits
  | store =>
      unfold LaneFits Open
      rw [same, after.taskAt invariant known, slots _ fits.2.1]
      exact fits
  | done => exact fits

theorem ingressFits (same : later.ingress = system.ingress)
    (done : later.control.ingressDone = system.control.ingressDone)
    (slots : ∀ index, Open shape.sharedQueueDepth system.sharedTasks index →
      later.sharedTasks (index % shape.sharedQueueDepth) =
        system.sharedTasks (index % shape.sharedQueueDepth)) : later.IngressFits := by
  obtain ⟨head, stopped, phase⟩ := invariant.ingress
  refine ⟨same ▸ head.trans after.tail, fun stored => ?_, ?_⟩
  · rw [same]
    exact stopped (done ▸ stored)
  · rw [same]
    split at phase
    · exact fun final => (after.final (phase final)).1
    · obtain ⟨batch, lanes⟩ := phase
      have below := batch.below
      exact ⟨after.batchFits batch, fun lane inside =>
        after.laneFits invariant same slots (by omega) (lanes lane inside)⟩
    · obtain ⟨batch, lanes⟩ := phase
      have below := batch.below
      refine ⟨after.batchFits batch, fun lane inside => ⟨?_, (lanes lane inside).2⟩⟩
      exact after.laneFits invariant same slots (by omega) (lanes lane inside).1
    · exact ⟨(after.final phase.1).1, (after.final phase.1).2 ▸ phase.2⟩
    · exact ⟨(after.final phase.1).1, (after.final phase.1).2 ▸ phase.2⟩

theorem warpFits {warp : Fin shape.copyWarps}
    (same : later.copyWarps warp = system.copyWarps warp)
    (claim : system.control.taskClaim ≤ later.control.taskClaim)
    (publish : system.control.taskPublish ≤ later.control.taskPublish)
    (done : system.control.ingressDone ≠ 0 → later.control.ingressDone ≠ 0)
    (tasks : ∀ index, (system.copyWarps warp).Holds index →
      Full shape.sharedQueueDepth system.sharedTasks index →
        later.sharedTasks (index % shape.sharedQueueDepth) =
          system.sharedTasks (index % shape.sharedQueueDepth))
    (completions : ∀ index, (system.copyWarps warp).Holds index →
      Open shape.sharedQueueDepth system.sharedCompletions index →
        later.sharedCompletions (index % shape.sharedQueueDepth) =
          system.sharedCompletions (index % shape.sharedQueueDepth)) : later.WarpFits warp := by
  obtain ⟨busy, idle, within, phase⟩ := invariant.warps warp
  have held : (system.copyWarps warp).phase.working = true → _ := invariant.holds_of_working
  refine ⟨?_, ?_, ?_, ?_⟩
  · rw [same]
    exact busy
  · rw [same]
    exact idle
  · rw [same]
    exact within.trans claim
  · rw [same]
    cases next : (system.copyWarps warp).phase with
    | loadClaim => trivial
    | waitTask => trivial
    | loadPublish taskClaim =>
        rw [next] at phase
        exact Nat.le_trans phase claim
    | loadDone taskClaim taskPublish =>
        rw [next] at phase
        exact ⟨phase.1, phase.2.1.trans claim, phase.2.2.trans publish⟩
    | claim taskClaim taskCount =>
        rw [next] at phase
        exact ⟨phase.1, phase.2.trans publish⟩
    | readTask =>
        rw [next] at phase held
        unfold PhaseFits Full
        rw [tasks _ (held rfl) phase]
        exact phase
    | copy task =>
        rw [next] at phase held
        unfold PhaseFits Full
        rw [tasks _ (held rfl) phase.1,
          after.taskAt invariant (invariant.known_of_holds (held rfl))]
        exact phase
    | storeTask task =>
        rw [next] at phase held
        unfold PhaseFits Full
        rw [tasks _ (held rfl) phase.1,
          after.taskAt invariant (invariant.known_of_holds (held rfl))]
        exact phase
    | waitCompletion task =>
        rw [next] at phase held
        exact phase.trans (after.taskAt invariant (invariant.known_of_holds (held rfl))).symm
    | writeCompletion task =>
        rw [next] at phase held
        unfold PhaseFits Open
        rw [completions _ (held rfl) phase.1,
          after.taskAt invariant (invariant.known_of_holds (held rfl))]
        exact phase
    | storeCompletion =>
        rw [next] at phase held
        unfold PhaseFits Open
        rw [completions _ (held rfl) phase.1,
          after.taskAt invariant (invariant.known_of_holds (held rfl))]
        exact phase
    | stopped =>
        rw [next] at phase
        exact done phase

theorem collectFits (same : later.egress = system.egress)
    (slots : ∀ index, Full shape.sharedQueueDepth system.sharedCompletions index →
      later.sharedCompletions (index % shape.sharedQueueDepth) =
        system.sharedCompletions (index % shape.sharedQueueDepth))
    {completionCount waveBase lane : Nat} {state : CollectLane}
    (known : system.egress.completionHead + lane < system.queue.control.taskTail)
    (fits : system.CollectFits completionCount waveBase lane state) :
    later.CollectFits completionCount waveBase lane state := by
  cases state with
  | wait => exact fits
  | read =>
      unfold CollectFits Full
      rw [same, slots _ fits.2]
      exact fits
  | hold completion =>
      unfold CollectFits Full
      rw [same, slots _ fits.2.1, after.taskAt invariant known]
      exact fits
  | freed completion =>
      unfold CollectFits
      rw [same, after.taskAt invariant known]
      exact fits
  | written => exact fits

theorem egressFits (same : later.egress = system.egress)
    (answered : later.queue.control.completionTail = system.queue.control.completionTail)
    (external : later.queue.completionSlots = system.queue.completionSlots)
    (slots : ∀ index, Full shape.sharedQueueDepth system.sharedCompletions index →
      later.sharedCompletions (index % shape.sharedQueueDepth) =
        system.sharedCompletions (index % shape.sharedQueueDepth)) : later.EgressFits := by
  obtain ⟨head, published, phase⟩ := invariant.egress
  refine ⟨same ▸ head.trans after.tail, answered.trans (same ▸ published), ?_⟩
  rw [same]
  split at phase
  · exact fun final => (after.final (phase final)).1
  · obtain ⟨batch, lanes⟩ := phase
    have below := batch.below
    refine ⟨after.batchFits batch, fun lane inside => ⟨?_, (lanes lane inside).2⟩⟩
    exact after.collectFits invariant same slots (by omega) (lanes lane inside).1
  · obtain ⟨batch, lanes⟩ := phase
    have below := batch.below
    refine ⟨after.batchFits batch, fun lane inside => ⟨?_, (lanes lane inside).2⟩⟩
    exact after.collectFits invariant same slots (by omega) (lanes lane inside).1
  · obtain ⟨batch, lanes⟩ := phase
    have below := batch.below
    refine ⟨after.batchFits batch, fun lane inside => ?_⟩
    rename_i completionCount states writing
    have fits := lanes lane inside
    cases state : states lane with
    | wait =>
        rw [state] at fits
        exact fits
    | read =>
        rw [state] at fits
        exact fits
    | hold completion =>
        rw [state] at fits
        exact fits
    | freed completion =>
        rw [state] at fits
        exact fits.trans (congrArg completionOf (after.taskAt invariant (by omega)).symm)
    | written =>
        rw [state] at fits
        exact invariant.queue.shows_of_lt after.submitted external (by omega) fits
  · obtain ⟨batch, lanes⟩ := phase
    have below := batch.below
    exact ⟨after.batchFits batch, fun lane inside =>
      invariant.queue.shows_of_lt after.submitted external (by omega) (lanes lane inside)⟩
  · exact ⟨(after.final phase.1).1, (after.final phase.1).2 ▸ phase.2⟩

omit invariant in
theorem ledger (before : system.Ledger) (same : later.copied = system.copied)
    (past : ∀ index, Past CopyWarp.copiedTo later index ↔ Past CopyWarp.copiedTo system index) :
    later.Ledger := by
  refine ⟨same ▸ before.once, fun copy member => ?_, fun index => ?_⟩
  · exact after.submitted _ _ (before.sound copy (same ▸ member))
  · rw [same, past]
    exact before.exact index

theorem tasks {slots : Nat → Slot CopyTask}
    (channel : Channel shape.sharedQueueDepth slots system.taskAt)
    (known : ∀ index, Filled shape.sharedQueueDepth slots index →
      index < system.queue.control.taskTail) :
    Channel shape.sharedQueueDepth slots later.taskAt :=
  channel.congr fun index filled _ => after.taskAt invariant (known index filled)

theorem completions {slots : Nat → Slot CopyCompletion}
    (channel : Channel shape.sharedQueueDepth slots
      fun index => completionOf (system.taskAt index))
    (known : ∀ index, Filled shape.sharedQueueDepth slots index →
      index < system.queue.control.taskTail) :
    Channel shape.sharedQueueDepth slots fun index => completionOf (later.taskAt index) :=
  channel.congr fun index filled _ =>
    congrArg completionOf (after.taskAt invariant (known index filled))

end Later

/-! ## Steps of the host -/

theorem Invariant.hostLater (invariant : system.Invariant) {queue : Queue}
    (kept : queue.Invariant shape.capacity)
    (host : Queue.HostLater shape.capacity system.queue queue) :
    Invariant { system with queue } := by
  have after : Later system { system with queue } :=
    { tail := host.tail
      submitted := host.submitted
      final := fun stop => ⟨(host.final stop).1, (host.final stop).2.1⟩ }
  exact
    { queue := kept
      tasks := after.tasks invariant invariant.tasks fun _ => invariant.known_of_filled
      completions := after.completions invariant invariant.completions
        fun _ => invariant.known_of_answered
      handed := invariant.handed
      taken := invariant.taken
      answered := invariant.answered
      freed := invariant.freed
      claimed := invariant.claimed
      published := invariant.published
      apart := invariant.apart
      ingress := after.ingressFits invariant rfl rfl fun _ _ => rfl
      warps := fun warp => after.warpFits invariant rfl (Nat.le_refl _) (Nat.le_refl _) id
        (fun _ _ _ => rfl) fun _ _ _ => rfl
      egress := after.egressFits invariant rfl host.completionTail host.completionSlots
        fun _ _ => rfl
      ledger := after.ledger invariant.ledger rfl fun _ => Iff.rfl }

/-! ## Steps of the ingress warp -/

/-- The ingress warp makes a step. -/
theorem Invariant.updateIngress (invariant : system.Invariant) {control : SharedControl}
    {slots : Nat → Slot CopyTask} {ingress : Ingress}
    (claim : control.taskClaim = system.control.taskClaim)
    (publish : system.control.taskPublish ≤ control.taskPublish)
    (done : system.control.ingressDone ≠ 0 → control.ingressDone ≠ 0)
    (published : control.taskPublish = ingress.published)
    (channel : Channel shape.sharedQueueDepth slots system.taskAt)
    (handed : ∀ index, Filled shape.sharedQueueDepth slots index ↔ ingress.Handed index)
    (taken : ∀ index, Taken shape.sharedQueueDepth slots index ↔
      Taken shape.sharedQueueDepth system.sharedTasks index)
    (stable : ∀ index, Full shape.sharedQueueDepth system.sharedTasks index →
      slots (index % shape.sharedQueueDepth) =
        system.sharedTasks (index % shape.sharedQueueDepth))
    (fits : IngressFits { system with control, sharedTasks := slots, ingress }) :
    Invariant { system with control, sharedTasks := slots, ingress } := by
  have after : Later system { system with control, sharedTasks := slots, ingress } :=
    Later.ofDevice _ _ rfl rfl rfl
  have past : ∀ bound index,
      Past bound { system with control, sharedTasks := slots, ingress } index ↔
        Past bound system index := by
    intro bound index
    unfold Past
    dsimp only
    rw [claim]
  exact
    { queue := invariant.queue
      tasks := channel
      completions := invariant.completions
      handed := handed
      taken := fun index => (taken index).trans ((invariant.taken index).trans (past _ index).symm)
      answered := fun index => (invariant.answered index).trans (past _ index).symm
      freed := invariant.freed
      claimed := claim ▸ invariant.claimed.trans publish
      published := published
      apart := invariant.apart
      ingress := fits
      warps := fun warp => after.warpFits invariant rfl claim.ge publish done
        (fun index _ full => stable index full) fun _ _ _ => rfl
      egress := after.egressFits invariant rfl rfl rfl fun _ _ => rfl
      ledger := after.ledger invariant.ledger rfl (past _) }

/-- The ingress warp changes only what it does next. -/
theorem Invariant.moveIngress (invariant : system.Invariant) {ingress : Ingress}
    (published : ingress.published = system.ingress.published)
    (handed : ∀ index, ingress.Handed index ↔ system.ingress.Handed index)
    (fits : IngressFits { system with ingress }) : Invariant { system with ingress } :=
  invariant.updateIngress rfl (Nat.le_refl _) id (invariant.published.trans published.symm)
    invariant.tasks (fun index => (invariant.handed index).trans (handed index).symm)
    (fun _ => Iff.rfl) (fun _ _ => rfl) fits

theorem Invariant.not_done (invariant : system.Invariant)
    (going : system.ingress.phase ≠ .stopped) : ¬system.control.ingressDone ≠ 0 :=
  fun stored => going (invariant.ingress.done stored)

/-! ### Lanes -/

/-- The ingress warp hands over the tasks of a wave. -/
structure Waving (system : System shape) (taskCount waveBase : Nat) (lanes : Nat → LoadLane) :
    Prop where
  phase : system.ingress.phase = .wave taskCount waveBase lanes
  batch : system.BatchFits system.ingress.taskHead taskCount waveBase
  lanes : ∀ lane < taskCount, system.LaneFits taskCount waveBase lane (lanes lane)

namespace Waving

variable {taskCount waveBase lane : Nat} {lanes : Nat → LoadLane}
  (waving : system.Waving taskCount waveBase lanes)

include waving

theorem handed_iff (index : Nat) : system.ingress.Handed index ↔
    index < system.ingress.taskHead ∨ index < system.ingress.taskHead + taskCount ∧
      lanes (index - system.ingress.taskHead) = .done := by
  unfold Ingress.Handed
  rw [waving.phase]

theorem published_eq : system.ingress.published = system.ingress.taskHead + waveBase := by
  unfold Ingress.published
  rw [waving.phase]

theorem index_eq (invariant : system.Invariant) (inside : lane < taskCount) :
    wrapAdd 64 system.ingress.taskHead lane = system.ingress.taskHead + lane := by
  have below := waving.batch.below
  have tail := invariant.queue.tail_le
  have bounded := invariant.queue.bounded
  exact wrapAdd_of_lt (by omega)

/-- What a lane has not stored is not handed over. -/
theorem not_handed (undone : lanes lane ≠ .done) :
    ¬system.ingress.Handed (system.ingress.taskHead + lane) := by
  rw [waving.handed_iff]
  rintro (before | ⟨-, done⟩)
  · omega
  · rw [Nat.add_sub_cancel_left] at done
    exact undone done

/-- The other lanes go on with their slots when one lane has used its own. -/
theorem otherLanes {slots : Nat → Slot CopyTask} {next : LoadLane} {ingress : Ingress}
    (head : ingress.taskHead = system.ingress.taskHead)
    (stable : ∀ index ≠ system.ingress.taskHead + lane,
      Open shape.sharedQueueDepth system.sharedTasks index →
        slots (index % shape.sharedQueueDepth) =
          system.sharedTasks (index % shape.sharedQueueDepth))
    (fits : LaneFits { system with sharedTasks := slots, ingress } taskCount waveBase lane next)
    {other : Nat} (inside : other < taskCount) :
    LaneFits { system with sharedTasks := slots, ingress } taskCount waveBase other
      (Function.update lanes lane next other) := by
  by_cases same : other = lane
  · rw [same, Function.update_self]
    exact fits
  · rw [Function.update_of_ne same]
    have before := waving.lanes other inside
    cases state : lanes other with
    | read =>
        rw [state] at before
        exact before
    | wait task =>
        rw [state] at before
        unfold LaneFits
        dsimp only
        rw [head]
        exact before
    | write task =>
        rw [state] at before
        unfold LaneFits Open
        dsimp only
        rw [head, stable _ (by omega) before.2.1]
        exact before
    | store =>
        rw [state] at before
        unfold LaneFits Open
        dsimp only
        rw [head, stable _ (by omega) before.2.1]
        exact before
    | done =>
        rw [state] at before
        exact before

end Waving

theorem handed_loaded {taskHead taskCount waveBase : Nat} {lanes : Nat → LoadLane} (index : Nat) :
    (loaded shape taskHead taskCount waveBase lanes).Handed index ↔
      index < taskHead ∨ index < taskHead + taskCount ∧ lanes (index - taskHead) = .done := by
  unfold loaded Ingress.Handed
  split_ifs <;> rfl

theorem published_loaded {taskHead taskCount waveBase : Nat} {lanes : Nat → LoadLane} :
    (loaded shape taskHead taskCount waveBase lanes).published = taskHead + waveBase := by
  unfold loaded Ingress.published
  split_ifs <;> rfl

/-- The lanes of a wave fit, whether it is over or not. -/
theorem Invariant.fits_loaded (invariant : system.Invariant) {taskCount waveBase : Nat}
    {lanes : Nat → LoadLane} {slots : Nat → Slot CopyTask}
    (going : system.ingress.phase ≠ .stopped)
    (batch : system.BatchFits system.ingress.taskHead taskCount waveBase)
    (fits : ∀ lane < taskCount, LaneFits
      { system with
        sharedTasks := slots
        ingress := loaded shape system.ingress.taskHead taskCount waveBase lanes }
      taskCount waveBase lane (lanes lane)) :
    IngressFits { system with
      sharedTasks := slots
      ingress := loaded shape system.ingress.taskHead taskCount waveBase lanes } := by
  refine ⟨invariant.ingress.head, fun stored => absurd stored (invariant.not_done going), ?_⟩
  unfold loaded
  dsimp only
  split_ifs with all
  · refine ⟨⟨batch.few, batch.below, batch.inside⟩, fun lane inside => ⟨fits lane inside, ?_⟩⟩
    have own := List.all_eq_true.mp all lane (List.mem_range.mpr inside)
    by_cases wave : lane < waveEnd shape taskCount waveBase
    · rw [if_pos wave] at own
      have done := of_decide_eq_true own
      exact ⟨fun _ => done, by rw [done]; rintro ⟨⟩⟩
    · rw [if_neg wave] at own
      exact ⟨fun now => absurd now wave, of_decide_eq_true own⟩
  · exact ⟨⟨batch.few, batch.below, batch.inside⟩, fits⟩

/-! ### Tasks -/

/-- The task that a lane loads is still in its slot. -/
theorem Waving.loaded_task {taskCount waveBase lane : Nat} {lanes : Nat → LoadLane}
    (waving : system.Waving taskCount waveBase lanes) (invariant : system.Invariant)
    (inside : lane < taskCount) (reading : lanes lane ≠ .done) :
    system.queue.taskSlots ((system.ingress.taskHead + lane) % shape.capacity) =
      system.taskAt (system.ingress.taskHead + lane) := by
  have below := waving.batch.below
  have tail := invariant.queue.tail_le
  have room := invariant.queue.room
  have polled := invariant.queue.polledBelow
  -- What is not handed over is not answered, so its slot is not used again yet.
  have unanswered : system.queue.control.completionTail ≤ system.ingress.taskHead + lane := by
    refine Nat.not_lt.mp fun answered => waving.not_handed reading ?_
    have past := (invariant.answered _).mp (invariant.answered_of_tail answered)
    exact invariant.handed_of_published (Nat.lt_of_lt_of_le past.1 invariant.claimed)
  have found := invariant.queue.submitted_of_lt
    (show system.ingress.taskHead + lane < system.queue.control.taskTail by omega)
  exact invariant.queue.taskSlots _ _ found (by omega)

theorem open_stable {index : Nat} (slot : Slot CopyTask)
    (open_ : Open shape.sharedQueueDepth system.sharedTasks index) :
    (∀ other, Full shape.sharedQueueDepth system.sharedTasks other →
      Function.update system.sharedTasks (index % shape.sharedQueueDepth) slot
          (other % shape.sharedQueueDepth) =
        system.sharedTasks (other % shape.sharedQueueDepth)) ∧
    ∀ other ≠ index, Open shape.sharedQueueDepth system.sharedTasks other →
      Function.update system.sharedTasks (index % shape.sharedQueueDepth) slot
          (other % shape.sharedQueueDepth) =
        system.sharedTasks (other % shape.sharedQueueDepth) :=
  ⟨fun _ full => Function.update_of_ne (open_.place_ne shape.depthBounds.1 (.inl full)) ..,
    fun _ different open' =>
      Function.update_of_ne (open_.place_ne shape.depthBounds.1 (.inr ⟨open', different⟩)) ..⟩

/-- A lane makes a step that does not hand over its slot. -/
theorem Invariant.moveLane (invariant : system.Invariant) {taskCount waveBase lane : Nat}
    {lanes : Nat → LoadLane} {next : LoadLane} {slots : Nat → Slot CopyTask}
    (waving : system.Waving taskCount waveBase lanes) (undone : lanes lane ≠ .done)
    (unfinished : next ≠ .done) {ingress : Ingress}
    (shown : ingress = ⟨system.ingress.taskHead,
        .wave taskCount waveBase (Function.update lanes lane next)⟩ ∨
      ingress = loaded shape system.ingress.taskHead taskCount waveBase
        (Function.update lanes lane next))
    (channel : Channel shape.sharedQueueDepth slots system.taskAt)
    (sequences : ∀ place, (slots place).sequence = (system.sharedTasks place).sequence)
    (stable : (∀ index, Full shape.sharedQueueDepth system.sharedTasks index →
        slots (index % shape.sharedQueueDepth) =
          system.sharedTasks (index % shape.sharedQueueDepth)) ∧
      ∀ index ≠ system.ingress.taskHead + lane,
        Open shape.sharedQueueDepth system.sharedTasks index →
          slots (index % shape.sharedQueueDepth) =
            system.sharedTasks (index % shape.sharedQueueDepth))
    (fits : LaneFits
      { system with
        sharedTasks := slots
        ingress := { taskHead := system.ingress.taskHead, phase := system.ingress.phase } }
      taskCount waveBase lane next) :
    Invariant { system with sharedTasks := slots, ingress } := by
  have going : system.ingress.phase ≠ .stopped := by
    rw [waving.phase]
    rintro ⟨⟩
  have head : ingress.taskHead = system.ingress.taskHead := by
    rcases shown with rfl | rfl <;> rfl
  have lane_iff : ∀ other, Function.update lanes lane next other = .done ↔
      lanes other = .done := by
    intro other
    rw [Function.update_apply]
    split_ifs with here
    · rw [here]
      exact iff_of_false unfinished undone
    · rfl
  have handed : ∀ index, ingress.Handed index ↔ system.ingress.Handed index := by
    intro index
    rw [waving.handed_iff]
    rcases shown with rfl | rfl
    · unfold Ingress.Handed
      simp only [lane_iff]
    · rw [handed_loaded]
      simp only [lane_iff]
  have published : ingress.published = system.ingress.published := by
    rw [waving.published_eq]
    rcases shown with rfl | rfl
    · rfl
    · exact published_loaded
  have others : ∀ other < taskCount, LaneFits { system with sharedTasks := slots, ingress }
      taskCount waveBase other (Function.update lanes lane next other) := by
    refine fun other inside => waving.otherLanes head stable.2 ?_ inside
    cases next with
    | read => exact fits
    | wait task =>
        unfold LaneFits
        dsimp only
        rw [head]
        exact fits
    | write task =>
        unfold LaneFits
        dsimp only
        rw [head]
        exact fits
    | store =>
        unfold LaneFits
        dsimp only
        rw [head]
        exact fits
    | done => exact absurd rfl unfinished
  refine invariant.updateIngress rfl (Nat.le_refl _) id (invariant.published.trans published.symm)
    channel (fun index => ?_) (fun index => ?_) stable.1 ?_
  · unfold Filled
    rw [sequences, handed]
    exact invariant.handed index
  · unfold Taken
    rw [sequences]
  · rcases shown with rfl | rfl
    · exact ⟨invariant.ingress.head, fun stored => absurd stored (invariant.not_done going),
        ⟨waving.batch.few, waving.batch.below, waving.batch.inside⟩, others⟩
    · exact invariant.fits_loaded going waving.batch others

/-- A lane hands over its slot. -/
theorem Invariant.storeLane (invariant : system.Invariant) {taskCount waveBase lane : Nat}
    {lanes : Nat → LoadLane} (waving : system.Waving taskCount waveBase lanes)
    (inside : lane < taskCount) (storing : lanes lane = .store) :
    Invariant { system with
      sharedTasks := store shape.sharedQueueDepth system.sharedTasks
        (system.ingress.taskHead + lane) (system.ingress.taskHead + lane + 1)
      ingress := loaded shape system.ingress.taskHead taskCount waveBase
        (Function.update lanes lane .done) } := by
  have going : system.ingress.phase ≠ .stopped := by
    rw [waving.phase]
    rintro ⟨⟩
  have own := waving.lanes lane inside
  rw [storing] at own
  obtain ⟨wave, open_, written⟩ := own
  have many := shape.depthBounds.1
  have stable := open_stable
    { system.sharedTasks ((system.ingress.taskHead + lane) % shape.sharedQueueDepth) with
      sequence := system.ingress.taskHead + lane + 1 } open_
  refine invariant.updateIngress rfl (Nat.le_refl _) id ?_
    (invariant.tasks.publish many open_ written) (fun index => ?_)
    (fun index => taken_publish many open_) stable.1
    (invariant.fits_loaded going waving.batch fun other otherInside => ?_)
  · rw [published_loaded, invariant.published, waving.published_eq]
  · rw [filled_publish open_, handed_loaded, invariant.handed, waving.handed_iff]
    constructor
    · rintro (rfl | before | ⟨below, done⟩)
      · refine .inr ⟨Nat.add_lt_add_left inside _, ?_⟩
        rw [Nat.add_sub_cancel_left, Function.update_self]
      · exact .inl before
      · refine .inr ⟨below, ?_⟩
        rw [Function.update_apply]
        split_ifs
        · rfl
        · exact done
    · rintro (before | ⟨below, done⟩)
      · exact .inr (.inl before)
      · by_cases early : index < system.ingress.taskHead
        · exact .inr (.inl early)
        · rw [Function.update_apply] at done
          split_ifs at done with same
          · exact .inl (by omega)
          · exact .inr (.inr ⟨below, done⟩)
  · refine waving.otherLanes rfl stable.2 ?_ otherInside
    exact wave.2

/-! ### Waves -/

/-- The ingress warp makes a wave known to the copy warps. -/
theorem Invariant.publishWave (invariant : system.Invariant) {taskCount waveBase : Nat}
    {lanes : Nat → LoadLane} (phase : system.ingress.phase = .publish taskCount waveBase lanes) :
    Invariant { system with
      control :=
        { system.control with
          taskPublish := system.ingress.taskHead + waveEnd shape taskCount waveBase }
      ingress :=
        if taskCount ≤ waveBase + shape.sharedQueueDepth then
          { taskHead := system.ingress.taskHead + taskCount }
        else
          { taskHead := system.ingress.taskHead
            phase := .wave taskCount (waveBase + shape.sharedQueueDepth) lanes } } := by
  have known := invariant.ingress.phase
  rw [phase] at known
  obtain ⟨batch, fits⟩ := known
  have going : system.ingress.phase ≠ .stopped := by
    rw [phase]
    rintro ⟨⟩
  have handed : ∀ index, system.ingress.Handed index ↔ index < system.ingress.taskHead ∨
      index < system.ingress.taskHead + taskCount ∧
        lanes (index - system.ingress.taskHead) = .done := by
    intro index
    unfold Ingress.Handed
    rw [phase]
  have published : system.control.taskPublish = system.ingress.taskHead + waveBase := by
    rw [invariant.published]
    unfold Ingress.published
    rw [phase]
  have further := lt_waveEnd shape batch.inside
  have below := batch.below
  refine invariant.updateIngress rfl ?_ id ?_ invariant.tasks (fun index => ?_) (fun _ => Iff.rfl)
    (fun _ _ => rfl) ?_
  · rw [published]
    exact Nat.add_le_add_left further.le _
  · unfold waveEnd
    split_ifs with last more
    · omega
    · rfl
    · rfl
    · omega
  · rw [invariant.handed, handed]
    split_ifs with last
    · constructor
      · intro before
        change index < system.ingress.taskHead + taskCount
        omega
      · intro before
        have before : index < system.ingress.taskHead + taskCount := before
        by_cases early : index < system.ingress.taskHead
        · exact .inl early
        · have lane := (fits (index - system.ingress.taskHead) (by omega)).2.1
          unfold waveEnd at lane
          rw [if_neg (by omega)] at lane
          exact .inr ⟨before, lane (by omega)⟩
    · rfl
  · split_ifs with last
    · exact ⟨below, fun stored => absurd stored (invariant.not_done going),
        fun final => by cases final⟩
    · have all : waveEnd shape taskCount waveBase = waveBase + shape.sharedQueueDepth := by
        unfold waveEnd
        rw [if_pos (by omega)]
      have next := lt_waveEnd shape
        (show waveBase + shape.sharedQueueDepth < taskCount by omega)
      refine ⟨invariant.ingress.head, fun stored => absurd stored (invariant.not_done going),
        ⟨batch.few, below, by omega⟩, fun lane inside => ?_⟩
      obtain ⟨own, done, loaded_⟩ := fits lane inside
      rw [all] at done
      cases state : lanes lane with
      | read => exact absurd state loaded_
      | wait task =>
          rw [state] at own
          refine ⟨Nat.not_lt.mp fun early => ?_, own.2⟩
          have finished := done early
          rw [state] at finished
          cases finished
      | write task =>
          rw [state] at own
          have finished := done (all ▸ own.1.2)
          rw [state] at finished
          cases finished
      | store =>
          rw [state] at own
          have finished := done (all ▸ own.1.2)
          rw [state] at finished
          cases finished
      | done =>
          rw [state] at own
          have own : lane < waveEnd shape taskCount waveBase := own
          change lane < waveEnd shape taskCount (waveBase + shape.sharedQueueDepth)
          omega

theorem Invariant.ingressStep (invariant : system.Invariant) (lane : Nat) :
    (system.ingressStep lane).Invariant := by
  have known := invariant.ingress.phase
  have head := invariant.ingress.head
  unfold System.ingressStep
  dsimp only
  cases phase : system.ingress.phase with
  | fetch fetch =>
      rw [phase] at known
      have going : system.ingress.phase ≠ .stopped := by
        rw [phase]
        rintro ⟨⟩
      have published : system.ingress.published = system.ingress.taskHead := by
        unfold Ingress.published
        rw [phase]
      have handed : ∀ index, system.ingress.Handed index ↔ index < system.ingress.taskHead := by
        intro index
        unfold Ingress.Handed
        rw [phase]
      dsimp only
      by_cases other : lane ≠ 0
      · rw [if_pos other]
        exact invariant
      · rw [if_neg other]
        cases fetched : system.queue.fetch system.ingress.taskHead fetch with
        | again next =>
            refine invariant.moveIngress published.symm (fun index => (handed index).symm)
              ⟨head, fun stored => absurd stored (invariant.not_done going), ?_⟩
            rintro rfl
            exact Queue.fetch_again fetched
        | batch taskCount =>
            obtain ⟨some_, few, below⟩ := invariant.queue.fetch_batch fetched
            refine invariant.moveIngress published.symm (fun index => ?_)
              ⟨head, fun stored => absurd stored (invariant.not_done going),
                ⟨few, below, some_⟩, fun lane _ => Nat.zero_le lane⟩
            rw [handed]
            refine or_iff_left ?_
            rintro ⟨-, ⟨⟩⟩
        | stop =>
            obtain ⟨final, none⟩ := Queue.fetch_stop fetched
            exact invariant.moveIngress published.symm (fun index => (handed index).symm)
              ⟨head, fun stored => absurd stored (invariant.not_done going), known final, none⟩
  | wave taskCount waveBase lanes =>
      rw [phase] at known
      have waving : system.Waving taskCount waveBase lanes := ⟨phase, known.1, known.2⟩
      dsimp only
      by_cases outside : taskCount ≤ lane
      · rw [if_pos outside]
        exact invariant
      · rw [if_neg outside]
        have inside := Nat.not_le.mp outside
        have fits := waving.lanes lane inside
        have below := waving.batch.below
        have tail := invariant.queue.tail_le
        have bounded := invariant.queue.bounded
        have batch : warpSpecializedMetaBatch = 32 := rfl
        rw [waving.index_eq invariant inside, sharedSlot_eq]
        cases state : lanes lane with
        | read =>
            rw [state] at fits
            have undone : lanes lane ≠ .done := by
              rw [state]
              rintro ⟨⟩
            refine invariant.moveLane waving undone (by rintro ⟨⟩) (.inr rfl) invariant.tasks
              (fun _ => rfl) ⟨fun _ _ => rfl, fun _ _ _ => rfl⟩ ⟨fits, ?_⟩
            rw [Queue.slot, and_mask shape.power]
            exact waving.loaded_task invariant inside undone
        | wait task =>
            rw [state] at fits
            have undone : lanes lane ≠ .done := by
              rw [state]
              rintro ⟨⟩
            dsimp only
            split_ifs with passes
            · exact invariant.moveLane waving undone (by rintro ⟨⟩) (.inl rfl) invariant.tasks
                (fun _ => rfl) ⟨fun _ _ => rfl, fun _ _ _ => rfl⟩
                ⟨⟨fits.1, passes.1⟩, passes.2, fits.2⟩
            · exact invariant
        | write task =>
            rw [state] at fits
            have undone : lanes lane ≠ .done := by
              rw [state]
              rintro ⟨⟩
            obtain ⟨wave, open_, same⟩ := fits
            refine invariant.moveLane waving undone (by rintro ⟨⟩) (.inl rfl)
              (invariant.tasks.write shape.depthBounds.1 open_ task) (sequence_write task)
              (open_stable _ open_) ⟨wave, ?_, ?_⟩
            · exact (sequence_write task _).trans open_
            · dsimp only
              rw [Function.update_self]
              exact same
        | store =>
            rw [wrapAdd_of_lt (by omega)]
            exact invariant.storeLane waving inside state
        | done => exact invariant
  | publish taskCount waveBase lanes =>
      rw [phase] at known
      have below := known.1.below
      have tail := invariant.queue.tail_le
      have bounded := invariant.queue.bounded
      have batch : warpSpecializedMetaBatch = 32 := rfl
      have ends := waveEnd_le shape taskCount waveBase
      dsimp only
      by_cases other : lane ≠ 0
      · rw [if_pos other]
        exact invariant
      · rw [if_neg other, wrapAdd_of_lt (by omega), wrapAdd_of_lt (by omega)]
        exact invariant.publishWave phase
  | storeDone =>
      rw [phase] at known
      dsimp only
      by_cases other : lane ≠ 0
      · rw [if_pos other]
        exact invariant
      · rw [if_neg other]
        refine invariant.updateIngress rfl (Nat.le_refl _) (fun _ => Nat.one_ne_zero) ?_
          invariant.tasks (fun index => ?_) (fun _ => Iff.rfl) (fun _ _ => rfl)
          ⟨head, fun _ => rfl, known⟩
        · refine invariant.published.trans ?_
          unfold Ingress.published
          rw [phase]
        · refine (invariant.handed index).trans ?_
          unfold Ingress.Handed
          rw [phase]
  | stopped => exact invariant

end System

end Ugdr.Gpu.WarpSpecializedKernel
