import Ugdr.Gpu.WarpSpecializedKernelSteps

/-! # Steps of the copy warps

A copy warp claims a few tasks, and takes, copies and answers them one after another.
-/

namespace Ugdr.Gpu.WarpSpecializedKernel

open Machine Sequenced WarpSpecialized

namespace System

variable {shape : Shape} {system : System shape} {warp : Fin shape.copyWarps}

namespace Invariant

variable (invariant : system.Invariant)

include invariant

/-- A copy warp makes a step. -/
theorem updateWarp {later : System shape} (taskClaim : Nat) (tasks : Nat → Slot CopyTask)
    (completions : Nat → Slot CopyCompletion) (copied : List CopyRecord) (next : CopyWarp)
    (changed : later =
      { system with
        control := { system.control with taskClaim }
        sharedTasks := tasks
        sharedCompletions := completions
        copied }.withWarp warp next)
    (claim : system.control.taskClaim ≤ taskClaim)
    (claimed : taskClaim ≤ system.control.taskPublish)
    (taskChannel : Channel shape.sharedQueueDepth tasks system.taskAt)
    (completionChannel : Channel shape.sharedQueueDepth completions
      fun index => completionOf (system.taskAt index))
    (filled : ∀ index, Filled shape.sharedQueueDepth tasks index ↔
      Filled shape.sharedQueueDepth system.sharedTasks index)
    (taken : ∀ index, Taken shape.sharedQueueDepth tasks index ↔
      Past CopyWarp.takenTo later index)
    (answered : ∀ index, Filled shape.sharedQueueDepth completions index ↔
      Past CopyWarp.answeredTo later index)
    (freed : ∀ index, Taken shape.sharedQueueDepth completions index ↔
      Taken shape.sharedQueueDepth system.sharedCompletions index)
    (apart : ∀ index, next.Holds index → ∀ other ≠ warp, ¬(system.copyWarps other).Holds index)
    (taskOpen : ∀ index, Open shape.sharedQueueDepth system.sharedTasks index →
      tasks (index % shape.sharedQueueDepth) =
        system.sharedTasks (index % shape.sharedQueueDepth))
    (taskFull : ∀ other ≠ warp, ∀ index, (system.copyWarps other).Holds index →
      Full shape.sharedQueueDepth system.sharedTasks index →
        tasks (index % shape.sharedQueueDepth) =
          system.sharedTasks (index % shape.sharedQueueDepth))
    (completionFull : ∀ index, Full shape.sharedQueueDepth system.sharedCompletions index →
      completions (index % shape.sharedQueueDepth) =
        system.sharedCompletions (index % shape.sharedQueueDepth))
    (completionOpen : ∀ other ≠ warp, ∀ index, (system.copyWarps other).Holds index →
      Open shape.sharedQueueDepth system.sharedCompletions index →
        completions (index % shape.sharedQueueDepth) =
          system.sharedCompletions (index % shape.sharedQueueDepth))
    (fits : later.WarpFits warp) (ledger : later.Ledger) : later.Invariant := by
  subst changed
  have after := Later.ofDevice system ({ system with
      control := { system.control with taskClaim }
      sharedTasks := tasks
      sharedCompletions := completions
      copied }.withWarp warp next) rfl rfl rfl
  have others : ∀ other ≠ warp, Function.update system.copyWarps warp next other =
      system.copyWarps other := fun _ different => Function.update_of_ne different ..
  exact
    { queue := invariant.queue
      tasks := taskChannel
      completions := completionChannel
      handed := fun index => (filled index).trans (invariant.handed index)
      taken := taken
      answered := answered
      freed := fun index => (freed index).trans (invariant.freed index)
      claimed := claimed
      published := invariant.published
      apart := fun one other different index holds => by
        unfold withWarp at holds ⊢
        dsimp only at holds ⊢
        by_cases first : one = warp
        · rw [first, Function.update_self] at holds
          rw [others other (first ▸ different)]
          exact apart index holds other (first ▸ different)
        · rw [others one first] at holds
          by_cases second : other = warp
          · rw [second, Function.update_self]
            exact fun taken => apart index taken one first holds
          · rw [others other second]
            exact invariant.apart one other different index holds
      ingress := after.ingressFits invariant rfl rfl taskOpen
      warps := fun other => by
        by_cases same : other = warp
        · exact same ▸ fits
        · exact after.warpFits invariant (others other same) claim (Nat.le_refl _) id
            (taskFull other same) (completionOpen other same)
      egress := after.egressFits invariant rfl rfl rfl completionFull
      ledger := ledger }

/-- A copy warp stays at its task. -/
theorem fitsAt {later : System shape} {phase : CopyPhase}
    (self : later.copyWarps warp = { system.copyWarps warp with phase })
    (working : phase.working = (system.copyWarps warp).phase.working)
    (claim : later.control.taskClaim = system.control.taskClaim)
    (fits : later.PhaseFits (system.copyWarps warp).answeredTo phase) : later.WarpFits warp := by
  obtain ⟨busy, idle, within, -⟩ := invariant.warps warp
  refine ⟨?_, ?_, ?_, ?_⟩
  · rw [self, working]
    exact busy
  · rw [self, working]
    exact idle
  · rw [self, claim]
    exact within
  · rw [self]
    exact fits

/-- A copy warp goes on without touching anything that is shared. -/
theorem moveCopy {old phase : CopyPhase} (shown : (system.copyWarps warp).phase = old)
    (taken : phase.taken = old.taken) (copied : phase.copied = old.copied)
    (working : phase.working = old.working)
    (fits : system.PhaseFits (system.copyWarps warp).answeredTo phase) :
    (system.moveCopy warp phase).Invariant := by
  subst shown
  have takenTo : CopyWarp.takenTo { system.copyWarps warp with phase } =
      (system.copyWarps warp).takenTo :=
    congrArg ((system.copyWarps warp).answeredTo + ·) taken
  have copiedTo : CopyWarp.copiedTo { system.copyWarps warp with phase } =
      (system.copyWarps warp).copiedTo :=
    congrArg ((system.copyWarps warp).answeredTo + ·) copied
  have self : (system.moveCopy warp phase).copyWarps warp =
      { system.copyWarps warp with phase } := Function.update_self ..
  have after := Later.ofDevice system (system.moveCopy warp phase) rfl rfl rfl
  refine invariant.updateWarp system.control.taskClaim system.sharedTasks
    system.sharedCompletions system.copied { system.copyWarps warp with phase } rfl
    (Nat.le_refl _) invariant.claimed invariant.tasks invariant.completions (fun _ => Iff.rfl)
    (fun index => (invariant.taken index).trans
      (past_same system warp { system.copyWarps warp with phase } _ takenTo rfl index).symm)
    (fun index => (invariant.answered index).trans
      (past_same system warp { system.copyWarps warp with phase } _ rfl rfl index).symm)
    (fun _ => Iff.rfl) (fun index holds other different =>
      invariant.apart warp other different index holds)
    (fun _ _ => rfl) (fun _ _ _ _ _ => rfl) (fun _ _ => rfl) (fun _ _ _ _ _ => rfl)
    (invariant.fitsAt self working rfl ?_) (after.ledger invariant.ledger rfl
      (past_same system warp { system.copyWarps warp with phase } _ copiedTo rfl))
  cases phase <;> exact fits

/-! ## Claims -/

/-- A copy warp claims the next tasks. -/
theorem claimTasks {count : Nat}
    (claiming : (system.copyWarps warp).phase = .claim system.control.taskClaim count) :
    Invariant { system with
      control := { system.control with taskClaim := system.control.taskClaim + count }
      copyWarps := Function.update system.copyWarps warp
        ⟨system.control.taskClaim, count, 0, .waitTask⟩ } := by
  obtain ⟨-, idle, within, phase⟩ := invariant.warps warp
  have batch := idle (by rw [claiming]; rfl)
  rw [claiming] at phase
  obtain ⟨some_, below⟩ := phase
  have claimed := invariant.claimed
  have done : (system.copyWarps warp).answeredTo = (system.copyWarps warp).limit :=
    congrArg ((system.copyWarps warp).taskBase + ·) batch
  -- The new tasks are claimed and held by the warp, so nobody has got past them.
  have past : ∀ bound : CopyWarp → Nat,
      bound (system.copyWarps warp) = (system.copyWarps warp).answeredTo →
      bound ⟨system.control.taskClaim, count, 0, .waitTask⟩ = system.control.taskClaim →
      ∀ index, Past bound
        ({ system with
          control := { system.control with taskClaim := system.control.taskClaim + count }
          copyWarps := Function.update system.copyWarps warp
            ⟨system.control.taskClaim, count, 0, .waitTask⟩ } : System shape) index ↔
        Past bound system index := by
    intro bound here there index
    constructor
    · rintro ⟨within, bounds⟩
      have own := bounds warp
      dsimp only at within own
      rw [Function.update_self, there] at own
      change _ ∨ system.control.taskClaim + count ≤ index at own
      refine ⟨by omega, fun other => ?_⟩
      by_cases same : other = warp
      · rw [same, here, done]
        omega
      · have old := bounds other
        dsimp only at old
        rw [Function.update_of_ne same] at old
        exact old
    · rintro ⟨within, bounds⟩
      refine ⟨Nat.lt_add_right _ within, fun other => ?_⟩
      dsimp only
      by_cases same : other = warp
      · rw [same, Function.update_self, there]
        exact .inl within
      · rw [Function.update_of_ne same]
        exact bounds other
  have self : Function.update system.copyWarps warp
      ⟨system.control.taskClaim, count, 0, .waitTask⟩ warp =
        ⟨system.control.taskClaim, count, 0, .waitTask⟩ := Function.update_self ..
  have taken : (system.copyWarps warp).takenTo = (system.copyWarps warp).answeredTo := by
    unfold CopyWarp.takenTo
    rw [claiming]
    rfl
  have copied : (system.copyWarps warp).copiedTo = (system.copyWarps warp).answeredTo := by
    unfold CopyWarp.copiedTo
    rw [claiming]
    rfl
  refine invariant.updateWarp (system.control.taskClaim + count) system.sharedTasks
    system.sharedCompletions system.copied ⟨system.control.taskClaim, count, 0, .waitTask⟩ rfl
    (Nat.le_add_right ..) below invariant.tasks invariant.completions (fun _ => Iff.rfl)
    (fun index => (invariant.taken index).trans (past _ taken rfl index).symm)
    (fun index => (invariant.answered index).trans (past _ rfl rfl index).symm)
    (fun _ => Iff.rfl) (fun index holds other _ held => ?_)
    (fun _ _ => rfl) (fun _ _ _ _ _ => rfl) (fun _ _ => rfl) (fun _ _ _ _ _ => rfl)
    ⟨?_, ?_, ?_, ?_⟩ ⟨invariant.ledger.once, invariant.ledger.sound, fun index =>
      (invariant.ledger.exact index).trans (past _ copied rfl index).symm⟩
  · have from_ : system.control.taskClaim ≤ index := holds.1
    have before := Nat.lt_of_lt_of_le held.2 (invariant.warps other).within
    omega
  · dsimp only
    rw [self]
    exact fun _ => some_
  · dsimp only
    rw [self]
    exact fun idle => by cases idle
  · dsimp only
    rw [self]
    exact Nat.le_refl _
  · dsimp only
    rw [self]
    trivial

/-! ## Tasks -/

section

variable (working : (system.copyWarps warp).phase.working = true)

include working

theorem index_eq : wrapAdd 64 (system.copyWarps warp).taskBase (system.copyWarps warp).batchIndex =
    (system.copyWarps warp).answeredTo := by
  have known := invariant.known_of_holds (invariant.holds_of_working working)
  have tail := invariant.queue.tail_le
  have bounded := invariant.queue.bounded
  unfold CopyWarp.answeredTo at known ⊢
  exact wrapAdd_of_lt (by omega)

/-- The numbers of the slots of a task do not wrap. -/
theorem sequence_eq {offset : Nat} (near : offset ≤ shape.sharedQueueDepth) :
    wrapAdd 64 (system.copyWarps warp).answeredTo offset =
      (system.copyWarps warp).answeredTo + offset := by
  have known := invariant.known_of_holds (invariant.holds_of_working working)
  have tail := invariant.queue.tail_le
  have bounded := invariant.queue.bounded
  have batch : warpSpecializedMetaBatch = 32 := rfl
  have depth := shape.depthBounds.2
  exact wrapAdd_of_lt (by omega)

omit working in
/-- The wait for a task returns when the task is handed over. -/
theorem readTask_value (full : Full shape.sharedQueueDepth system.sharedTasks
      (system.copyWarps warp).answeredTo) :
    (system.sharedTasks ((system.copyWarps warp).answeredTo % shape.sharedQueueDepth)).value =
      system.taskAt (system.copyWarps warp).answeredTo :=
  invariant.tasks.holds _ full.filled (full.not_taken shape.depthBounds.1)

/-- A warp is one task further with something. -/
theorem past_step (next : CopyWarp) (bound : CopyWarp → Nat)
    (before : bound (system.copyWarps warp) = (system.copyWarps warp).answeredTo)
    (after : bound next = (system.copyWarps warp).answeredTo + 1)
    (limit : next.limit = (system.copyWarps warp).limit)
    (lower : ∀ other : CopyWarp, other.answeredTo ≤ bound other) (index : Nat) :
    Past bound (system.withWarp warp next) index ↔
      index = (system.copyWarps warp).answeredTo ∨ Past bound system index :=
  past_next system warp next bound before after limit (invariant.holds_of_working working)
    (invariant.warps warp).within (fun _ => lower _)
    (fun other different => invariant.apart warp other different _
      (invariant.holds_of_working working)) index

/-- A copy warp copies its task. -/
theorem copyTask {task : CopyTask} (phase : (system.copyWarps warp).phase = .copy task) :
    ({ system with
      copied := system.copied ++
        [CopyRecord.mk warp (system.copyWarps warp).answeredTo task] }.moveCopy warp
          (.storeTask task)).Invariant := by
  have fits := (invariant.warps warp).phase
  rw [phase] at fits
  have moved : CopyPhase.working (.storeTask task) = (system.copyWarps warp).phase.working :=
    working.symm
  have self : ({ system with
      copied := system.copied ++
        [CopyRecord.mk warp (system.copyWarps warp).answeredTo task] }.moveCopy warp
          (.storeTask task)).copyWarps warp =
      { system.copyWarps warp with phase := .storeTask task } := Function.update_self ..
  have taken : CopyWarp.takenTo { system.copyWarps warp with phase := .storeTask task } =
      (system.copyWarps warp).takenTo := by
    unfold CopyWarp.takenTo
    rw [phase]
    rfl
  have before : (system.copyWarps warp).copiedTo = (system.copyWarps warp).answeredTo := by
    unfold CopyWarp.copiedTo
    rw [phase]
    rfl
  have uncopied := not_past system warp CopyWarp.copiedTo before
    (invariant.holds_of_working working)
  refine invariant.updateWarp system.control.taskClaim system.sharedTasks
    system.sharedCompletions _ { system.copyWarps warp with phase := .storeTask task } rfl
    (Nat.le_refl _) invariant.claimed invariant.tasks invariant.completions (fun _ => Iff.rfl)
    (fun index => (invariant.taken index).trans
      (past_same system warp { system.copyWarps warp with phase := .storeTask task } _ taken rfl
        index).symm)
    (fun index => (invariant.answered index).trans
      (past_same system warp { system.copyWarps warp with phase := .storeTask task } _ rfl rfl
        index).symm)
    (fun _ => Iff.rfl) (fun index holds other different =>
      invariant.apart warp other different index holds)
    (fun _ _ => rfl) (fun _ _ _ _ _ => rfl) (fun _ _ => rfl) (fun _ _ _ _ _ => rfl)
    (invariant.fitsAt self moved rfl fits) ⟨?_, ?_, fun index => ?_⟩
  · change ((system.copied ++ _).map CopyRecord.index).Nodup
    rw [List.map_append, List.nodup_append]
    refine ⟨invariant.ledger.once, List.pairwise_singleton _ _, fun index old index' new same => ?_⟩
    rw [List.map_singleton, List.mem_singleton] at new
    rw [same, new] at old
    exact uncopied ((invariant.ledger.exact _).mp old)
  · intro copy member
    rcases List.mem_append.mp member with old | new
    · exact invariant.ledger.sound copy old
    · rw [List.mem_singleton.mp new, fits.2]
      exact invariant.queue.submitted_of_lt
        (invariant.known_of_holds (invariant.holds_of_working working))
  · have further := invariant.past_step working
      { system.copyWarps warp with phase := .storeTask task } CopyWarp.copiedTo before rfl rfl
      (fun other => other.answeredTo_le_takenTo.trans other.takenTo_le_copiedTo) index
    refine Iff.trans ?_ further.symm
    change index ∈ (system.copied ++ _).map CopyRecord.index ↔ _
    rw [List.map_append, List.mem_append, List.map_singleton, List.mem_singleton,
      invariant.ledger.exact, or_comm]

/-- A copy warp gives the slot of its task back. -/
theorem storeTask {task : CopyTask} (phase : (system.copyWarps warp).phase = .storeTask task) :
    ({ system with
      sharedTasks := store shape.sharedQueueDepth system.sharedTasks
        (system.copyWarps warp).answeredTo
        ((system.copyWarps warp).answeredTo + shape.sharedQueueDepth) }.moveCopy warp
          (.waitCompletion task)).Invariant := by
  have fits := (invariant.warps warp).phase
  rw [phase] at fits
  obtain ⟨full, same⟩ := fits
  have many := shape.depthBounds.1
  have holds := invariant.holds_of_working working
  have moved : CopyPhase.working (.waitCompletion task) = (system.copyWarps warp).phase.working :=
    working.symm
  have self : ({ system with
      sharedTasks := store shape.sharedQueueDepth system.sharedTasks
        (system.copyWarps warp).answeredTo
        ((system.copyWarps warp).answeredTo + shape.sharedQueueDepth) }.moveCopy warp
          (.waitCompletion task)).copyWarps warp =
      { system.copyWarps warp with phase := .waitCompletion task } := Function.update_self ..
  have before : (system.copyWarps warp).takenTo = (system.copyWarps warp).answeredTo := by
    unfold CopyWarp.takenTo
    rw [phase]
    rfl
  have copied : CopyWarp.copiedTo { system.copyWarps warp with phase := .waitCompletion task } =
      (system.copyWarps warp).copiedTo := by
    unfold CopyWarp.copiedTo
    rw [phase]
    rfl
  have after := Later.ofDevice system ({ system with
      sharedTasks := store shape.sharedQueueDepth system.sharedTasks
        (system.copyWarps warp).answeredTo
        ((system.copyWarps warp).answeredTo + shape.sharedQueueDepth) }.moveCopy warp
          (.waitCompletion task)) rfl rfl rfl
  refine invariant.updateWarp system.control.taskClaim _ system.sharedCompletions system.copied
    { system.copyWarps warp with phase := .waitCompletion task } rfl (Nat.le_refl _)
    invariant.claimed (invariant.tasks.release many full) invariant.completions
    (fun _ => filled_release many full) (fun index => ?_)
    (fun index => (invariant.answered index).trans
      (past_same system warp { system.copyWarps warp with phase := .waitCompletion task } _ rfl
        rfl index).symm)
    (fun _ => Iff.rfl) (fun index held other different =>
      invariant.apart warp other different index held)
    (fun _ open_ => Function.update_of_ne (full.place_ne many (.inl open_)) ..)
    (fun other different index held full' => ?_) (fun _ _ => rfl) (fun _ _ _ _ _ => rfl)
    (invariant.fitsAt self moved rfl same) (after.ledger invariant.ledger rfl
      (past_same system warp { system.copyWarps warp with phase := .waitCompletion task } _ copied
        rfl))
  · have further := invariant.past_step working
      { system.copyWarps warp with phase := .waitCompletion task } CopyWarp.takenTo before rfl rfl
      CopyWarp.answeredTo_le_takenTo index
    exact (taken_release many full).trans
      ((or_congr_right (invariant.taken index)).trans further.symm)
  · refine Function.update_of_ne (full.place_ne many (.inr ⟨full', ?_⟩)) ..
    rintro rfl
    exact invariant.apart warp other different _ holds held

/-! ## Completions -/

/-- A copy warp writes the completion of its task. -/
theorem writeCompletion {task : CopyTask}
    (phase : (system.copyWarps warp).phase = .writeCompletion task) :
    ({ system with
      sharedCompletions := Sequenced.write shape.sharedQueueDepth system.sharedCompletions
        (system.copyWarps warp).answeredTo (completionOf task) }.moveCopy warp
          .storeCompletion).Invariant := by
  have fits := (invariant.warps warp).phase
  rw [phase] at fits
  obtain ⟨open_, same⟩ := fits
  have many := shape.depthBounds.1
  have holds := invariant.holds_of_working working
  have moved : CopyPhase.working .storeCompletion = (system.copyWarps warp).phase.working :=
    working.symm
  have self : ({ system with
      sharedCompletions := Sequenced.write shape.sharedQueueDepth system.sharedCompletions
        (system.copyWarps warp).answeredTo (completionOf task) }.moveCopy warp
          .storeCompletion).copyWarps warp =
      { system.copyWarps warp with phase := .storeCompletion } := Function.update_self ..
  have taken : CopyWarp.takenTo { system.copyWarps warp with phase := .storeCompletion } =
      (system.copyWarps warp).takenTo := by
    unfold CopyWarp.takenTo
    rw [phase]
    rfl
  have copied : CopyWarp.copiedTo { system.copyWarps warp with phase := .storeCompletion } =
      (system.copyWarps warp).copiedTo := by
    unfold CopyWarp.copiedTo
    rw [phase]
    rfl
  have after := Later.ofDevice system ({ system with
      sharedCompletions := Sequenced.write shape.sharedQueueDepth system.sharedCompletions
        (system.copyWarps warp).answeredTo (completionOf task) }.moveCopy warp
          .storeCompletion) rfl rfl rfl
  refine invariant.updateWarp system.control.taskClaim system.sharedTasks _ system.copied
    { system.copyWarps warp with phase := .storeCompletion } rfl (Nat.le_refl _)
    invariant.claimed invariant.tasks (invariant.completions.write many open_ (completionOf task))
    (fun _ => Iff.rfl)
    (fun index => (invariant.taken index).trans
      (past_same system warp { system.copyWarps warp with phase := .storeCompletion } _ taken rfl
        index).symm)
    (fun index => (filled_write _).trans ((invariant.answered index).trans
      (past_same system warp { system.copyWarps warp with phase := .storeCompletion } _ rfl rfl
        index).symm))
    (fun _ => taken_write _) (fun index held other different =>
      invariant.apart warp other different index held)
    (fun _ _ => rfl) (fun _ _ _ _ _ => rfl)
    (fun _ full => Function.update_of_ne (open_.place_ne many (.inl full)) ..)
    (fun other different index held open' => ?_)
    (invariant.fitsAt self moved rfl ⟨?_, ?_⟩) (after.ledger invariant.ledger rfl
      (past_same system warp { system.copyWarps warp with phase := .storeCompletion } _ copied
        rfl))
  · refine Function.update_of_ne (open_.place_ne many (.inr ⟨open', ?_⟩)) ..
    rintro rfl
    exact invariant.apart warp other different _ holds held
  · exact (sequence_write _ _).trans open_
  · unfold System.moveCopy Sequenced.write
    dsimp only
    rw [Function.update_self]
    exact congrArg completionOf same

/-- A copy warp hands over the completion of its task, and goes to the next one of its claim. -/
theorem storeCompletion (phase : (system.copyWarps warp).phase = .storeCompletion) :
    Invariant { system with
      sharedCompletions := store shape.sharedQueueDepth system.sharedCompletions
        (system.copyWarps warp).answeredTo ((system.copyWarps warp).answeredTo + 1)
      copyWarps := Function.update system.copyWarps warp
        ⟨(system.copyWarps warp).taskBase, (system.copyWarps warp).taskCount,
          (system.copyWarps warp).batchIndex + 1,
          if (system.copyWarps warp).batchIndex + 1 < (system.copyWarps warp).taskCount then
            .waitTask
          else .loadClaim⟩ } := by
  obtain ⟨busy, -, within, fits⟩ := invariant.warps warp
  rw [phase] at fits
  obtain ⟨open_, written⟩ := fits
  have many := shape.depthBounds.1
  have holds := invariant.holds_of_working working
  generalize moved : CopyWarp.mk (system.copyWarps warp).taskBase (system.copyWarps warp).taskCount
    ((system.copyWarps warp).batchIndex + 1)
    (if (system.copyWarps warp).batchIndex + 1 < (system.copyWarps warp).taskCount then
      .waitTask else .loadClaim) = next
  have further : next.answeredTo = (system.copyWarps warp).answeredTo + 1 := by
    rw [← moved]
    rfl
  have limit : next.limit = (system.copyWarps warp).limit := by
    rw [← moved]
    rfl
  have taken : next.takenTo = (system.copyWarps warp).takenTo := by
    rw [← moved]
    unfold CopyWarp.takenTo
    rw [phase]
    split_ifs <;> rfl
  have copied : next.copiedTo = (system.copyWarps warp).copiedTo := by
    rw [← moved]
    unfold CopyWarp.copiedTo
    rw [phase]
    split_ifs <;> rfl
  have self : Function.update system.copyWarps warp next warp = next := Function.update_self ..
  have after := Later.ofDevice system ({ system with
      sharedCompletions := store shape.sharedQueueDepth system.sharedCompletions
        (system.copyWarps warp).answeredTo
        ((system.copyWarps warp).answeredTo + 1) }.withWarp warp next) rfl rfl rfl
  refine invariant.updateWarp system.control.taskClaim system.sharedTasks _ system.copied next rfl
    (Nat.le_refl _) invariant.claimed invariant.tasks
    (invariant.completions.publish many open_ written) (fun _ => Iff.rfl)
    (fun index => (invariant.taken index).trans
      (past_same system warp next _ taken limit index).symm)
    (fun index => ?_) (fun _ => taken_publish many open_) (fun index held other different => ?_)
    (fun _ _ => rfl) (fun _ _ _ _ _ => rfl)
    (fun _ full => Function.update_of_ne (open_.place_ne many (.inl full)) ..)
    (fun other different index held open' => ?_) ⟨?_, ?_, ?_, ?_⟩
    (after.ledger invariant.ledger rfl (past_same system warp next _ copied limit))
  · have step := invariant.past_step working next CopyWarp.answeredTo rfl further limit
      (fun _ => Nat.le_refl _) index
    exact (filled_publish open_).trans
      ((or_congr_right (invariant.answered index)).trans step.symm)
  · have inside : (system.copyWarps warp).Holds index :=
      ⟨(Nat.le_succ _).trans (further.symm.trans_le held.1), limit ▸ held.2⟩
    exact invariant.apart warp other different index inside
  · refine Function.update_of_ne (open_.place_ne many (.inr ⟨open', ?_⟩)) ..
    rintro rfl
    exact invariant.apart warp other different _ holds held
  · dsimp only
    rw [self, ← moved]
    split_ifs with more
    · exact fun _ => more
    · exact fun working => by cases working
  · dsimp only
    rw [self, ← moved]
    have inside := busy working
    split_ifs with more
    · exact fun idle => by cases idle
    · intro _
      dsimp only
      omega
  · dsimp only
    rw [self, limit]
    exact within
  · dsimp only
    rw [self, ← moved]
    split_ifs <;> trivial

end

/-! ## Steps -/

theorem copyStep (warp : Fin shape.copyWarps) : (system.copyStep warp).Invariant := by
  have fits := (invariant.warps warp).phase
  unfold System.copyStep
  dsimp only
  cases phase : (system.copyWarps warp).phase with
  | loadClaim =>
      exact invariant.moveCopy phase rfl rfl rfl
        (Nat.le_refl _)
  | loadPublish taskClaim =>
      rw [phase] at fits
      have reached : taskClaim ≤ system.control.taskClaim := fits
      dsimp only
      by_cases some_ : taskClaim < system.control.taskPublish
      · rw [if_pos some_]
        have bounded := invariant.queue.bounded
        have tail := invariant.queue.tail_le
        have last := invariant.known_of_published
          (show system.control.taskPublish - 1 < system.control.taskPublish by omega)
        have claims := shape.claimBounds.1
        have batch : warpSpecializedMetaBatch = 32 := rfl
        rw [wrapSub_of_le some_.le (by omega)]
        refine invariant.moveCopy phase rfl rfl rfl ⟨?_, ?_⟩
        · split_ifs <;> omega
        · split_ifs <;> omega
      · rw [if_neg some_]
        exact invariant.moveCopy phase rfl rfl rfl
          ⟨Nat.not_lt.mp some_, reached, Nat.le_refl _⟩
  | loadDone taskClaim taskPublish =>
      dsimp only
      split_ifs with leaves
      · exact invariant.moveCopy phase rfl rfl rfl
          leaves.1
      · exact invariant.moveCopy phase rfl rfl rfl
          trivial
  | claim taskClaim count =>
      rw [phase] at fits
      obtain ⟨some_, below⟩ := fits
      dsimp only
      by_cases current : system.control.taskClaim = taskClaim
      · have bounded := invariant.queue.bounded
        have tail := invariant.queue.tail_le
        have last := invariant.known_of_published
          (show taskClaim + count - 1 < system.control.taskPublish by omega)
        have batch : warpSpecializedMetaBatch = 32 := rfl
        rw [if_pos current, wrapAdd_of_lt (by omega), ← current]
        exact invariant.claimTasks (current ▸ phase)
      · rw [if_neg current]
        exact invariant.moveCopy phase rfl rfl rfl
          trivial
  | waitTask =>
      have working : (system.copyWarps warp).phase.working = true := by
        rw [phase]
        rfl
      have depth := shape.depthPos
      rw [invariant.index_eq working, sharedSlot_eq, invariant.sequence_eq working (by omega)]
      dsimp only
      split_ifs with full
      · exact invariant.moveCopy phase rfl rfl rfl full
      · exact invariant
  | readTask =>
      have working : (system.copyWarps warp).phase.working = true := by
        rw [phase]
        rfl
      rw [phase] at fits
      rw [invariant.index_eq working, sharedSlot_eq, invariant.readTask_value fits]
      exact invariant.moveCopy phase rfl rfl rfl
        ⟨fits, rfl⟩
  | copy task =>
      have working : (system.copyWarps warp).phase.working = true := by
        rw [phase]
        rfl
      rw [invariant.index_eq working]
      exact invariant.copyTask working phase
  | storeTask task =>
      have working : (system.copyWarps warp).phase.working = true := by
        rw [phase]
        rfl
      rw [invariant.index_eq working, sharedSlot_eq, invariant.sequence_eq working (Nat.le_refl _)]
      exact invariant.storeTask working phase
  | waitCompletion task =>
      have working : (system.copyWarps warp).phase.working = true := by
        rw [phase]
        rfl
      rw [phase] at fits
      rw [invariant.index_eq working, sharedSlot_eq]
      dsimp only
      split_ifs with open_
      · exact invariant.moveCopy phase rfl rfl rfl
          ⟨open_, fits⟩
      · exact invariant
  | writeCompletion task =>
      have working : (system.copyWarps warp).phase.working = true := by
        rw [phase]
        rfl
      rw [invariant.index_eq working, sharedSlot_eq]
      exact invariant.writeCompletion working phase
  | storeCompletion =>
      have working : (system.copyWarps warp).phase.working = true := by
        rw [phase]
        rfl
      have depth := shape.depthPos
      rw [invariant.index_eq working, sharedSlot_eq, invariant.sequence_eq working (by omega)]
      exact invariant.storeCompletion working phase
  | stopped => exact invariant

end Invariant

end System

end Ugdr.Gpu.WarpSpecializedKernel
