import Mathlib.Data.List.Nodup
import Ugdr.Gpu.PipelineInvariant

/-! # Steps of the host and of the ingress warp

A step of one party leaves what the others know as it is. So every step keeps the invariant,
and from it follows what a run has done.
-/

namespace Ugdr.Gpu.Pipeline

open Machine Handshake WarpSpecialized

namespace System

variable {shape : Shape} {system : System shape}

/-! ## What stays -/

/-- Nothing that has happened is undone, and nothing is submitted after a request to stop. -/
structure Later (system later : System shape) : Prop where
  tail : system.queue.control.taskTail ≤ later.queue.control.taskTail
  submitted : ∀ (index : Nat) task, system.queue.submitted[index]? = some task →
    later.queue.submitted[index]? = some task
  final : system.queue.control.stopRequested ≠ 0 → later.queue.control.stopRequested ≠ 0 ∧
    later.queue.control.taskTail = system.queue.control.taskTail ∧
      later.queue.submitted = system.queue.submitted
  filled : ∀ index, system.Filled index → later.Filled index
  taken : ∀ index, system.Taken index → later.Taken index
  done : ∀ index, system.Done index → later.Done index
  freed : ∀ index, system.Freed index → later.Freed index

/-- A step of the device, which submits nothing. -/
theorem Later.ofDevice (system later : System shape) (tail : later.queue.control.taskTail =
      system.queue.control.taskTail)
    (stop : later.queue.control.stopRequested = system.queue.control.stopRequested)
    (submitted : later.queue.submitted = system.queue.submitted)
    (filled : ∀ index, system.Filled index → later.Filled index)
    (taken : ∀ index, system.Taken index → later.Taken index)
    (done : ∀ index, system.Done index → later.Done index)
    (freed : ∀ index, system.Freed index → later.Freed index) : Later system later where
  tail := tail.ge
  submitted := fun _ _ found => submitted ▸ found
  final := fun stopped => ⟨stop ▸ stopped, tail, submitted⟩
  filled := filled
  taken := taken
  done := done
  freed := freed

theorem taken_of_done {index : Nat} (done : system.Done index) : system.Taken index :=
  Nat.lt_of_lt_of_le done ((system.copyWarps _).localIndex_le_copiedTo.trans
    (system.copyWarps _).copiedTo_le_takenTo)

theorem copied_of_done {index : Nat} (done : system.Done index) : system.Copied index :=
  Nat.lt_of_lt_of_le done (system.copyWarps _).localIndex_le_copiedTo

namespace Invariant

variable (invariant : system.Invariant)

include invariant

/-- A slot is filled with a submitted task, or after a request to stop. -/
theorem known_of_filled {index : Nat} (filled : system.Filled index) :
    index < system.queue.control.taskTail ∨ system.queue.control.stopRequested ≠ 0 := by
  obtain ⟨head, phase⟩ := invariant.ingress
  unfold Filled Ingress.Filled at filled
  split at filled
  · omega
  · rename_i stopping taskCount lanes filling
    rw [filling] at phase
    cases stopping with
    | false =>
        have := (phase.1 rfl).2
        omega
    | true => exact .inr (phase.2.1 rfl).2.1
  · rename_i stopped
    rw [stopped] at phase
    exact .inr phase.1

theorem filled_of_done {index : Nat} (done : system.Done index) : system.Filled index :=
  invariant.tasks.ordered index (taken_of_done done)

/-- What is published is done. -/
theorem done_of_answered {index : Nat}
    (answered : index < system.queue.control.completionTail) : system.Done index := by
  have freed : index < system.egress.completionHead → system.Done index := by
    intro below
    apply invariant.completions.ordered
    unfold Freed Egress.Freed
    split
    · exact .inl below
    · exact below
  obtain ⟨-, phase⟩ := invariant.egress
  split at phase
  · exact freed (phase.2 ▸ answered)
  · exact freed (phase.1 ▸ answered)
  · obtain ⟨-, done, waiting, stored⟩ := phase
    by_cases below : index < system.egress.completionHead
    · exact freed below
    · rename_i completionCount stored_ arrived releasing
      cases stored_ with
      | false => exact freed ((waiting rfl).1 ▸ answered)
      | true =>
          have here := stored rfl
          have lane := done (index - system.egress.completionHead) (by omega)
          rw [Nat.add_sub_cancel' (by omega)] at lane
          exact lane
  · exact freed (phase.2 ▸ answered)

end Invariant

namespace Later

variable {later : System shape} (after : Later system later) (invariant : system.Invariant)

include after invariant

theorem taskAt {index : Nat}
    (known : index < system.queue.control.taskTail ∨ system.queue.control.stopRequested ≠ 0) :
    later.taskAt index = system.taskAt index := by
  rcases known with below | stop
  · exact Queue.taskAt_of_submitted (after.submitted _ _ (invariant.queue.submitted_of_lt below))
  · unfold System.taskAt Queue.taskAt
    rw [(after.final stop).2.2]

theorem ingressFits (same : later.ingress = system.ingress)
    (values : ∀ cell, (later.sharedTasks cell).value = (system.sharedTasks cell).value) :
    later.IngressFits := by
  obtain ⟨head, phase⟩ := invariant.ingress
  refine ⟨same ▸ head.trans after.tail, ?_⟩
  rw [same]
  split at phase
  · exact fun final => (after.final (phase final)).1
  · obtain ⟨going, stops, lanes⟩ := phase
    refine ⟨fun running => ⟨(going running).1, (going running).2.trans after.tail⟩,
      fun stopping => ?_, fun lane inside => ?_⟩
    · obtain ⟨count, stop, final⟩ := stops stopping
      exact ⟨count, (after.final stop).1, (after.final stop).2.1 ▸ final⟩
    · rename_i stopping taskCount states filling
      have fits := lanes lane inside
      have known : system.ingress.taskHead + lane < system.queue.control.taskTail ∨
          system.queue.control.stopRequested ≠ 0 := by
        cases stopping with
        | false =>
            have := (going rfl).2
            omega
        | true => exact .inr (stops rfl).2.1
      cases state : states lane with
      | wait => trivial
      | done => trivial
      | read =>
          rw [state] at fits
          exact ⟨fits.1, fun far => after.taken _ (fits.2 far)⟩
      | write task =>
          rw [state] at fits
          exact ⟨fun far => after.taken _ (fits.1 far),
            fits.2.trans (after.taskAt invariant known).symm⟩
      | arrive =>
          rw [state] at fits
          refine ⟨fun far => after.taken _ (fits.1 far), ?_⟩
          rw [values, after.taskAt invariant known]
          exact fits.2
  · exact ⟨(after.final phase.1).1, (after.final phase.1).2.1 ▸ phase.2⟩

theorem warpFits {warp : Fin shape.copyWarps}
    (same : later.copyWarps warp = system.copyWarps warp)
    (value : (later.sharedCompletions (cellOf shape (system.current warp))).value =
      (system.sharedCompletions (cellOf shape (system.current warp))).value) :
    later.WarpFits warp := by
  obtain ⟨filled, phase⟩ := invariant.warps warp
  have current : later.current warp = system.current warp := by
    unfold System.current
    rw [same]
  refine ⟨fun other => ?_, ?_⟩
  · rw [same] at other
    rw [current]
    exact after.filled _ (filled other)
  · have known : (system.copyWarps warp).phase ≠ .waitReady →
        later.taskAt (system.current warp) = system.taskAt (system.current warp) :=
      fun other => after.taskAt invariant (invariant.known_of_filled (filled other))
    rw [same, current]
    cases next : (system.copyWarps warp).phase with
    | waitReady => trivial
    | readTask => trivial
    | arriveConsumed task =>
        rw [next] at phase known
        exact phase.trans (known (by rintro ⟨⟩)).symm
    | copy task =>
        rw [next] at phase known
        exact ⟨phase.1.trans (known (by rintro ⟨⟩)).symm, phase.2⟩
    | waitConsumed task =>
        rw [next] at phase known
        exact ⟨phase.1.trans (known (by rintro ⟨⟩)).symm, phase.2⟩
    | writeCompletion task =>
        rw [next] at phase known
        exact ⟨⟨phase.1.1.trans (known (by rintro ⟨⟩)).symm, phase.1.2⟩,
          fun far => after.freed _ (phase.2 far)⟩
    | arriveReady =>
        rw [next] at phase known
        unfold PhaseFits
        rw [known (by rintro ⟨⟩), value]
        exact ⟨phase.1, fun far => after.freed _ (phase.2.1 far), phase.2.2⟩
    | stopped =>
        rw [next] at phase
        exact ⟨(after.final phase.1).1, (after.final phase.1).2.2 ▸ phase.2⟩

theorem egressFits (same : later.egress = system.egress)
    (answered : later.queue.control.completionTail = system.queue.control.completionTail)
    (slots : later.queue.completionSlots = system.queue.completionSlots) : later.EgressFits := by
  obtain ⟨head, phase⟩ := invariant.egress
  refine ⟨same ▸ head.trans after.tail, ?_⟩
  rw [same]
  split at phase
  · exact ⟨fun final => (after.final (phase.1 final)).1, answered.trans phase.2⟩
  · obtain ⟨published, ⟨count, below⟩, lanes⟩ := phase
    refine ⟨answered.trans published, ⟨count, below.trans after.tail⟩, fun lane inside => ?_⟩
    rename_i completionCount states collecting
    have fits := lanes lane inside
    cases state : states lane with
    | wait => trivial
    | read =>
        rw [state] at fits
        exact after.done _ fits
    | write completion =>
        rw [state] at fits
        refine ⟨after.done _ fits.1, ?_⟩
        rw [after.taskAt invariant (.inl (by omega))]
        exact fits.2
    | done =>
        rw [state] at fits
        exact ⟨after.done _ fits.1,
          invariant.queue.shows_of_lt after.submitted slots (by omega) fits.2⟩
  · obtain ⟨⟨count, below⟩, done, waiting, stored⟩ := phase
    refine ⟨⟨count, below.trans after.tail⟩, fun lane inside => after.done _ (done lane inside),
      fun open_ => ?_, fun closed => answered.trans (stored closed)⟩
    obtain ⟨published, first, shown⟩ := waiting open_
    exact ⟨answered.trans published, first, fun lane inside =>
      invariant.queue.shows_of_lt after.submitted slots (by omega) (shown lane inside)⟩
  · exact ⟨⟨(after.final phase.1.1).1, (after.final phase.1.1).2.1 ▸ phase.1.2⟩,
      answered.trans phase.2⟩

omit invariant in
theorem ledger (before : system.Ledger) (same : later.copied = system.copied)
    (copied : ∀ index, later.Copied index ↔ system.Copied index) : later.Ledger := by
  refine ⟨same ▸ before.once, fun copy member => ?_, fun index done => ?_⟩
  · obtain ⟨owned, submitted, found⟩ := before.sound copy (same ▸ member)
    exact ⟨owned, after.submitted _ _ submitted, (copied _).mpr found⟩
  · rw [same]
    exact before.complete index ((copied index).mp done)

theorem tasks (cells : later.sharedTasks = system.sharedTasks)
    (filled : ∀ index, later.Filled index ↔ system.Filled index)
    (taken : ∀ index, later.Taken index ↔ system.Taken index) :
    Channel shape.copyWarps shape.sharedQueueDepth later.sharedTasks later.Filled later.Taken
      later.taskAt := by
  rw [cells]
  exact invariant.tasks.congr filled taken fun index before _ =>
    after.taskAt invariant (invariant.known_of_filled before)

theorem completions (cells : later.sharedCompletions = system.sharedCompletions)
    (done : ∀ index, later.Done index ↔ system.Done index)
    (freed : ∀ index, later.Freed index ↔ system.Freed index) :
    Channel shape.copyWarps shape.sharedQueueDepth later.sharedCompletions later.Done later.Freed
      fun index => completionOf (later.taskAt index) := by
  rw [cells]
  exact invariant.completions.congr done freed fun index before _ =>
    congrArg completionOf
      (after.taskAt invariant (invariant.known_of_filled (invariant.filled_of_done before)))

end Later

/-! ## Steps of the host -/

theorem Invariant.hostLater (invariant : system.Invariant) {queue : Queue}
    (kept : queue.Invariant shape.capacity)
    (host : Queue.HostLater shape.capacity system.queue queue) :
    Invariant { system with queue } := by
  have after : Later system { system with queue } :=
    { tail := host.tail
      submitted := host.submitted
      final := host.final
      filled := fun _ => id
      taken := fun _ => id
      done := fun _ => id
      freed := fun _ => id }
  exact
    { queue := kept
      tasks := after.tasks invariant rfl (fun _ => Iff.rfl) fun _ => Iff.rfl
      completions := after.completions invariant rfl (fun _ => Iff.rfl) fun _ => Iff.rfl
      ingress := after.ingressFits invariant rfl fun _ => rfl
      warps := fun warp => after.warpFits invariant rfl rfl
      egress := after.egressFits invariant rfl host.completionTail host.completionSlots
      ledger := after.ledger invariant.ledger rfl fun _ => Iff.rfl }

/-! ## Steps of the ingress warp -/

theorem Invariant.updateIngress (invariant : system.Invariant) {cells : Nat → Cell CopyTask}
    {ingress : Ingress}
    (filled : ∀ index, system.Filled index → ingress.Filled shape.copyWarps index)
    (tasks : Channel shape.copyWarps shape.sharedQueueDepth cells
      (ingress.Filled shape.copyWarps) system.Taken system.taskAt)
    (fits : IngressFits { system with sharedTasks := cells, ingress }) :
    Invariant { system with sharedTasks := cells, ingress } := by
  have after : Later system { system with sharedTasks := cells, ingress } :=
    Later.ofDevice _ _ rfl rfl rfl filled (fun _ => id) (fun _ => id) fun _ => id
  exact
    { queue := invariant.queue
      tasks := tasks
      completions := after.completions invariant rfl (fun _ => Iff.rfl) fun _ => Iff.rfl
      ingress := fits
      warps := fun warp => after.warpFits invariant rfl rfl
      egress := after.egressFits invariant rfl rfl rfl
      ledger := after.ledger invariant.ledger rfl fun _ => Iff.rfl }

/-- A warp that looks for a batch has handed over what is before its head. -/
theorem filled_fetch {taskHead : Nat} {fetch : Queue.Fetch} (index : Nat) :
    Ingress.Filled shape.copyWarps { taskHead, phase := .fetch fetch } index ↔
      index < taskHead :=
  Iff.rfl

/-- The lane of a batch that an index belongs to. -/
theorem filled_fill {taskHead taskCount : Nat} {stopping : Bool} {lanes : Nat → FillLane}
    (index : Nat) :
    Ingress.Filled shape.copyWarps { taskHead, phase := .fill stopping taskCount lanes } index ↔
      index < taskHead ∨ ∃ lane < taskCount, index = taskHead + lane ∧ lanes lane = .done := by
  constructor
  · rintro (before | ⟨inside, done⟩)
    · exact .inl before
    · by_cases before : index < taskHead
      · exact .inl before
      · dsimp only at inside
        exact .inr ⟨index - taskHead, by omega, by omega, done⟩
  · rintro (before | ⟨lane, inside, rfl, done⟩)
    · exact .inl before
    · refine .inr ⟨Nat.add_lt_add_left inside taskHead, ?_⟩
      dsimp only
      rw [Nat.add_sub_cancel_left]
      exact done

theorem filled_of_phase {taskCount : Nat} {stopping : Bool} {lanes : Nat → FillLane}
    (filling : system.ingress.phase = .fill stopping taskCount lanes) (index : Nat) :
    system.Filled index ↔ index < system.ingress.taskHead ∨
      ∃ lane < taskCount, index = system.ingress.taskHead + lane ∧ lanes lane = .done := by
  have same : system.ingress =
      { taskHead := system.ingress.taskHead, phase := .fill stopping taskCount lanes } := by
    rw [← filling]
  unfold Filled
  rw [same]
  exact filled_fill index

/-- The lanes of a batch. -/
structure Filling (system : System shape) (stopping : Bool) (taskCount : Nat)
    (lanes : Nat → FillLane) : Prop where
  phase : system.ingress.phase = .fill stopping taskCount lanes
  few : taskCount ≤ warpSpecializedMetaBatch
  near : taskCount ≤ shape.copyWarps * shape.sharedQueueDepth
  going : stopping = false →
    system.ingress.taskHead + taskCount ≤ system.queue.control.taskTail
  stops : stopping = true → taskCount = shape.copyWarps ∧
    system.queue.control.stopRequested ≠ 0 ∧
      system.queue.control.taskTail ≤ system.ingress.taskHead
  lanes : ∀ lane < taskCount, system.LaneFits stopping (system.ingress.taskHead + lane) (lanes lane)

theorem Invariant.filling (invariant : system.Invariant) {stopping : Bool} {taskCount : Nat}
    {lanes : Nat → FillLane}
    (phase : system.ingress.phase = .fill stopping taskCount lanes) :
    system.Filling stopping taskCount lanes := by
  have known := invariant.ingress.phase
  rw [phase] at known
  obtain ⟨going, stops, fits⟩ := known
  have batch := shape.batch_le
  have warps := shape.warps_le
  have bounds := shape.warpBounds.2
  have meta_ : warpSpecializedMetaBatch = 32 := rfl
  have few : taskCount ≤ warpSpecializedMetaBatch ∧
      taskCount ≤ shape.copyWarps * shape.sharedQueueDepth := by
    cases stopping with
    | false =>
        have := (going rfl).1
        omega
    | true =>
        have := (stops rfl).1
        omega
  exact ⟨phase, few.1, few.2, fun running => (going running).2, stops, fits⟩

namespace Filling

variable {stopping : Bool} {taskCount lane : Nat} {lanes : Nat → FillLane}
  (filling : system.Filling stopping taskCount lanes)

include filling

theorem index_eq (invariant : system.Invariant) (inside : lane < taskCount) :
    wrapAdd 64 system.ingress.taskHead lane = system.ingress.taskHead + lane := by
  have few := filling.few
  have head := invariant.ingress.head
  have tail := invariant.queue.tail_le
  have bounded := invariant.queue.bounded
  exact wrapAdd_of_lt (by omega)

theorem index_eq_count (invariant : system.Invariant) :
    wrapAdd 64 system.ingress.taskHead taskCount = system.ingress.taskHead + taskCount := by
  have few := filling.few
  have head := invariant.ingress.head
  have tail := invariant.queue.tail_le
  have bounded := invariant.queue.bounded
  cases stopping with
  | false =>
      have going := filling.going rfl
      have meta_ : warpSpecializedMetaBatch = 32 := rfl
      exact wrapAdd_of_lt (by omega)
  | true =>
      have count := (filling.stops rfl).1
      have bounds := shape.warpBounds.2
      have meta_ : warpSpecializedMetaBatch = 32 := rfl
      exact wrapAdd_of_lt (by omega)

theorem unfilled (undone : lanes lane ≠ .done) :
    ¬system.Filled (system.ingress.taskHead + lane) := by
  rw [filled_of_phase filling.phase]
  rintro (before | ⟨other, -, same, done⟩)
  · omega
  · have equal : other = lane := by omega
    exact undone (equal ▸ done)

theorem previous_filled (inside : lane < taskCount) :
    Previous shape system.Filled (system.ingress.taskHead + lane) := by
  intro far
  have near := filling.near
  rw [filled_of_phase filling.phase]
  left
  omega

/-- The lanes of a batch use different slots. -/
theorem cell_ne {other : Nat} (inside : lane < taskCount) (otherInside : other < taskCount)
    (different : other ≠ lane) :
    cellOf shape (system.ingress.taskHead + other) ≠
      cellOf shape (system.ingress.taskHead + lane) := by
  have near := filling.near
  rcases Nat.lt_or_gt_of_ne different with less | greater
  · exact cell_ne_of_near shape.depthPos (by omega) (by omega)
  · exact (cell_ne_of_near shape.depthPos (by omega) (by omega)).symm

end Filling

/-- A lane makes a step that does not hand over its slot. -/
theorem Invariant.moveLane (invariant : system.Invariant) {stopping : Bool} {taskCount lane : Nat}
    {lanes : Nat → FillLane} {next : FillLane} {cells : Nat → Cell CopyTask}
    (filling : system.Filling stopping taskCount lanes) (undone : lanes lane ≠ .done)
    (unfinished : next ≠ .done)
    (tasks : Channel shape.copyWarps shape.sharedQueueDepth cells system.Filled system.Taken
      system.taskAt)
    (values : ∀ other < taskCount, other ≠ lane →
      (cells (cellOf shape (system.ingress.taskHead + other))).value =
        (system.sharedTasks (cellOf shape (system.ingress.taskHead + other))).value)
    (fits : lane < taskCount → LaneFits
      { system with
        sharedTasks := cells
        ingress :=
          { taskHead := system.ingress.taskHead
            phase := .fill stopping taskCount (Function.update lanes lane next) } }
      stopping (system.ingress.taskHead + lane) next) :
    Invariant { system with
      sharedTasks := cells
      ingress :=
        { taskHead := system.ingress.taskHead
          phase := .fill stopping taskCount (Function.update lanes lane next) } } := by
  have same : ∀ index, Ingress.Filled shape.copyWarps
      { taskHead := system.ingress.taskHead
        phase := .fill stopping taskCount (Function.update lanes lane next) } index ↔
        system.Filled index := by
    intro index
    rw [filled_fill, filled_of_phase filling.phase]
    have lane_iff : ∀ other, Function.update lanes lane next other = .done ↔
        lanes other = .done := by
      intro other
      rw [Function.update_apply]
      split_ifs with here
      · rw [here]
        exact iff_of_false unfinished undone
      · rfl
    simp only [lane_iff]
  refine invariant.updateIngress (fun index before => (same index).mpr before)
    (tasks.congr same (fun _ => Iff.rfl) fun _ _ _ => rfl) ⟨invariant.ingress.head, ?_⟩
  refine ⟨fun running => ⟨filling.few, filling.going running⟩, filling.stops,
    fun other inside => ?_⟩
  dsimp only
  by_cases here : other = lane
  · rw [here, Function.update_self]
    exact fits (here ▸ inside)
  · rw [Function.update_of_ne here]
    have before := filling.lanes other inside
    cases state : lanes other with
    | wait => trivial
    | done => trivial
    | read =>
        rw [state] at before
        exact before
    | write task =>
        rw [state] at before
        exact before
    | arrive =>
        rw [state] at before
        refine ⟨before.1, ?_⟩
        dsimp only
        rw [values other inside here]
        exact before.2

/-- A lane hands over its slot. -/
theorem Invariant.arriveLane (invariant : system.Invariant) {stopping : Bool}
    {taskCount lane : Nat} {lanes : Nat → FillLane}
    (filling : system.Filling stopping taskCount lanes) (inside : lane < taskCount)
    (arriving : lanes lane = .arrive) :
    Invariant { system with
      sharedTasks := Function.update system.sharedTasks
        (cellOf shape (system.ingress.taskHead + lane))
        { system.sharedTasks (cellOf shape (system.ingress.taskHead + lane)) with
          ready :=
            (system.sharedTasks (cellOf shape (system.ingress.taskHead + lane))).ready + 1 }
      ingress :=
        filled system.ingress.taskHead stopping taskCount (Function.update lanes lane .done) } := by
  have undone : lanes lane ≠ .done := by
    rw [arriving]
    rintro ⟨⟩
  have unfilled := filling.unfilled undone
  have before := filling.lanes lane inside
  rw [arriving] at before
  obtain ⟨previous, written⟩ := before
  have states : ∀ other < taskCount, Function.update lanes lane .done other = .done ↔
      other = lane ∨ lanes other = .done := by
    intro other _
    rw [Function.update_apply]
    split_ifs with here
    · exact iff_of_true rfl (.inl here)
    · exact (or_iff_right here).symm
  have also : ∀ index, Ingress.Filled shape.copyWarps
      (filled system.ingress.taskHead stopping taskCount (Function.update lanes lane .done))
        index ↔ index = system.ingress.taskHead + lane ∨ system.Filled index := by
    intro index
    have batch : (index < system.ingress.taskHead ∨ ∃ other < taskCount,
        index = system.ingress.taskHead + other ∧
          Function.update lanes lane .done other = .done) ↔
        index = system.ingress.taskHead + lane ∨ system.Filled index := by
      rw [filled_of_phase filling.phase]
      constructor
      · rintro (before | ⟨other, otherInside, rfl, done⟩)
        · exact .inr (.inl before)
        · rcases (states other otherInside).mp done with rfl | old
          · exact .inl rfl
          · exact .inr (.inr ⟨other, otherInside, rfl, old⟩)
      · rintro (rfl | before | ⟨other, otherInside, rfl, old⟩)
        · exact .inr ⟨lane, inside, rfl, Function.update_self ..⟩
        · exact .inl before
        · exact .inr ⟨other, otherInside, rfl, (states other otherInside).mpr (.inr old)⟩
    rw [← batch]
    unfold filled
    split_ifs with all stop
    · rw [List.all_eq_true] at all
      have count := (filling.stops stop).1
      constructor
      · intro below
        have below : index < system.ingress.taskHead + shape.copyWarps := below
        by_cases early : index < system.ingress.taskHead
        · exact .inl early
        · refine .inr ⟨index - system.ingress.taskHead, by omega, by omega, ?_⟩
          exact of_decide_eq_true (all _ (List.mem_range.mpr (by omega)))
      · rintro (early | ⟨other, otherInside, rfl, -⟩)
        · exact Nat.lt_add_right _ early
        · exact Nat.add_lt_add_left (count ▸ otherInside) _
    · rw [List.all_eq_true] at all
      rw [filling.index_eq_count invariant]
      constructor
      · intro below
        have below : index < system.ingress.taskHead + taskCount := below
        by_cases early : index < system.ingress.taskHead
        · exact .inl early
        · refine .inr ⟨index - system.ingress.taskHead, by omega, by omega, ?_⟩
          exact of_decide_eq_true (all _ (List.mem_range.mpr (by omega)))
      · rintro (early | ⟨other, otherInside, rfl, -⟩)
        · exact Nat.lt_add_right _ early
        · exact Nat.add_lt_add_left otherInside _
    · exact filled_fill index
  have value : ∀ cell, (Function.update system.sharedTasks
      (cellOf shape (system.ingress.taskHead + lane))
      { system.sharedTasks (cellOf shape (system.ingress.taskHead + lane)) with
        ready :=
          (system.sharedTasks (cellOf shape (system.ingress.taskHead + lane))).ready + 1 }
        cell).value = (system.sharedTasks cell).value := by
    intro cell
    rw [Function.update_apply]
    split_ifs with same
    · rw [same]
    · rfl
  refine invariant.updateIngress (fun index before => (also index).mpr (.inr before))
    (invariant.tasks.fill shape.warpsPos shape.depthPos unfilled previous written also) ?_
  have head := invariant.ingress.head
  unfold filled
  split_ifs with all stop
  · exact ⟨head, (filling.stops stop).2⟩
  · rw [Bool.not_eq_true] at stop
    have going := filling.going stop
    refine ⟨?_, fun final => by cases final⟩
    dsimp only
    rw [filling.index_eq_count invariant]
    exact going
  · refine ⟨head, fun running => ⟨filling.few, filling.going running⟩, filling.stops,
      fun other otherInside => ?_⟩
    dsimp only
    by_cases here : other = lane
    · rw [here, Function.update_self]
      trivial
    · rw [Function.update_of_ne here]
      have before := filling.lanes other otherInside
      cases state : lanes other with
      | wait => trivial
      | done => trivial
      | read =>
          rw [state] at before
          exact before
      | write task =>
          rw [state] at before
          exact before
      | arrive =>
          rw [state] at before
          refine ⟨before.1, ?_⟩
          dsimp only
          rw [value]
          exact before.2

/-- The ingress warp goes from looking for a batch to another phase with the same head. -/
theorem Invariant.ingressFetched (invariant : system.Invariant) {fetch : Queue.Fetch}
    {next : IngressPhase} (fetching : system.ingress.phase = .fetch fetch)
    (same : ∀ index, Ingress.Filled shape.copyWarps
      { taskHead := system.ingress.taskHead, phase := next } index ↔
        index < system.ingress.taskHead)
    (fits : IngressFits { system with
      ingress := { taskHead := system.ingress.taskHead, phase := next } }) :
    Invariant
      { system with ingress := { taskHead := system.ingress.taskHead, phase := next } } := by
  have before : ∀ index, system.Filled index ↔ index < system.ingress.taskHead := by
    intro index
    unfold Filled Ingress.Filled
    rw [fetching]
  exact invariant.updateIngress
    (fun index filled => (same index).mpr ((before index).mp filled))
    (invariant.tasks.congr (fun index => (same index).trans (before index).symm)
      (fun _ => Iff.rfl) fun _ _ _ => rfl) fits

/-- The lanes of a new batch have handed over nothing. -/
theorem filled_waiting {taskHead taskCount : Nat} {stopping : Bool} (index : Nat) :
    Ingress.Filled shape.copyWarps
      { taskHead, phase := .fill stopping taskCount fun _ => .wait } index ↔ index < taskHead := by
  rw [filled_fill]
  refine or_iff_left ?_
  rintro ⟨_, _, _, ⟨⟩⟩

theorem Invariant.ingressStep (invariant : system.Invariant) (lane : Nat) :
    (system.ingressStep lane).Invariant := by
  have known := invariant.ingress.phase
  have head := invariant.ingress.head
  unfold System.ingressStep
  dsimp only
  cases phase : system.ingress.phase with
  | fetch fetch =>
      rw [phase] at known
      dsimp only
      by_cases other : lane ≠ 0
      · rw [if_pos other]
        exact invariant
      · rw [if_neg other]
        cases fetched : system.queue.fetch system.ingress.taskHead fetch with
        | again next =>
            refine invariant.ingressFetched phase filled_fetch ⟨head, ?_⟩
            rintro rfl
            exact Queue.fetch_again fetched
        | batch taskCount =>
            obtain ⟨-, few, below⟩ := invariant.queue.fetch_batch fetched
            refine invariant.ingressFetched phase filled_waiting ⟨head, ?_⟩
            exact ⟨fun _ => ⟨few, below⟩, fun stopping => absurd stopping Bool.false_ne_true,
              fun _ _ => trivial⟩
        | stop =>
            obtain ⟨final, none⟩ := Queue.fetch_stop fetched
            refine invariant.ingressFetched phase filled_waiting ⟨head, ?_⟩
            exact ⟨fun going => absurd going.symm Bool.false_ne_true,
              fun _ => ⟨rfl, known final, none⟩, fun _ _ => trivial⟩
  | fill stopping taskCount lanes =>
      dsimp only
      by_cases outside : taskCount ≤ lane
      · rw [if_pos outside]
        exact invariant
      · rw [if_neg outside]
        have inside := Nat.not_le.mp outside
        have filling := invariant.filling phase
        have fits := filling.lanes lane inside
        rw [filling.index_eq invariant inside, indexSlot_eq, indexPhase_eq]
        cases state : lanes lane with
        | wait =>
            have undone : lanes lane ≠ .done := by
              rw [state]
              rintro ⟨⟩
            dsimp only
            split_ifs with passes stop
            · refine invariant.moveLane filling undone (by rintro ⟨⟩) invariant.tasks
                (fun _ _ _ => rfl) fun _ => ⟨?_, ?_⟩
              · exact invariant.tasks.previous_taken shape.warpsPos shape.depthPos
                  (filling.unfilled undone) (filling.previous_filled inside) passes
              · obtain ⟨-, -, none⟩ := filling.stops stop
                have final := invariant.queue.tail_of_stopped (filling.stops stop).2.1
                unfold taskAt Queue.taskAt
                dsimp only
                rw [List.getElem?_eq_none (by omega)]
                rfl
            · rw [Bool.not_eq_true] at stop
              exact invariant.moveLane filling undone (by rintro ⟨⟩) invariant.tasks
                (fun _ _ _ => rfl) fun _ => ⟨stop,
                  invariant.tasks.previous_taken shape.warpsPos shape.depthPos
                    (filling.unfilled undone) (filling.previous_filled inside) passes⟩
            · exact invariant
        | read =>
            rw [state] at fits
            obtain ⟨running, previous⟩ := fits
            have undone : lanes lane ≠ .done := by
              rw [state]
              rintro ⟨⟩
            have below := filling.going running
            have tail := invariant.queue.tail_le
            have room := invariant.queue.room
            have polled := invariant.queue.polledBelow
            -- What is not handed over is not answered, so its slot is not used again yet.
            have unanswered : system.queue.control.completionTail ≤
                system.ingress.taskHead + lane := by
              by_contra answered
              exact filling.unfilled undone
                (invariant.filled_of_done (invariant.done_of_answered (Nat.not_le.mp answered)))
            have found := invariant.queue.submitted_of_lt
              (show system.ingress.taskHead + lane < system.queue.control.taskTail by omega)
            have slot := invariant.queue.taskSlots _ _ found (by omega)
            refine invariant.moveLane filling undone (by rintro ⟨⟩) invariant.tasks
              (fun _ _ _ => rfl) fun _ => ⟨previous, ?_⟩
            rw [Queue.slot, and_mask shape.power]
            exact slot
        | write task =>
            rw [state] at fits
            have undone : lanes lane ≠ .done := by
              rw [state]
              rintro ⟨⟩
            refine invariant.moveLane filling undone (by rintro ⟨⟩)
              (invariant.tasks.write shape.warpsPos shape.depthPos (filling.unfilled undone)
                fits.1 task) (fun other otherInside different => ?_) fun _ => ⟨fits.1, ?_⟩
            · rw [Function.update_of_ne (filling.cell_ne inside otherInside different)]
            · dsimp only
              rw [Function.update_self]
              exact fits.2
        | arrive => exact invariant.arriveLane filling inside state
        | done => exact invariant
  | stopped => exact invariant

end System

end Ugdr.Gpu.Pipeline
