import Ugdr.Gpu.DynamicShardedInvariant

/-! # Runs of the dynamic sharded queue

Every step is a step of one lane, and leaves the other lanes as they are.
-/

namespace Ugdr.Gpu.DynamicSharded

open Machine LaneLogs

namespace System

variable {shape : Shape} {system : System shape}

/-! ## Lanes -/

/-- A lane that the step does not touch. -/
theorem lane_unchanged {later : System shape} {lane : Nat}
    (fits : (system.lane lane).Invariant shape.laneCapacity)
    (control : later.controls lane = system.controls lane)
    (warp : later.warps lane = system.warps lane)
    (submitTail : later.submitTails lane = system.submitTails lane)
    (completionHead : later.completionHeads lane = system.completionHeads lane)
    (submitted : ofLane lane later.submitted = ofLane lane system.submitted)
    (copied : ofLane lane later.copied = ofLane lane system.copied)
    (polled : ofLane lane later.polled = ofLane lane system.polled)
    (tasks : ∀ place < shape.laneCapacity,
      later.taskSlots (lane * shape.laneCapacity + place) =
        system.taskSlots (lane * shape.laneCapacity + place))
    (completions : ∀ place < shape.laneCapacity,
      later.completionSlots (lane * shape.laneCapacity + place) =
        system.completionSlots (lane * shape.laneCapacity + place)) :
    (later.lane lane).Invariant shape.laneCapacity := by
  have same := fits.congr shape.laneCapacity_pos tasks completions
  unfold System.lane at same ⊢
  rw [control, warp, submitTail, completionHead, submitted, copied, polled]
  exact same

/-- A slot of a lane is written. -/
theorem slot_update {α : Type} {slots : Nat → α} {lane index place : Nat} {item : α} :
    Function.update slots (slotIndex shape lane index) item (lane * shape.laneCapacity + place) =
      Function.update (fun place => slots (lane * shape.laneCapacity + place))
        (index % shape.laneCapacity) item place := by
  rw [slotIndex_eq, Function.update_apply, Function.update_apply]
  simp only [Nat.add_left_cancel_iff]

/-- A slot of another lane is written. -/
theorem slot_unchanged {α : Type} {slots : Nat → α} {lane other index place : Nat} {item : α}
    (different : lane ≠ other) (inside : place < shape.laneCapacity) :
    Function.update slots (slotIndex shape other index) item
      (lane * shape.laneCapacity + place) = slots (lane * shape.laneCapacity + place) :=
  Function.update_of_ne (slot_ne different inside) ..

theorem inside_push {α : Type} {log : List (Nat × α)} {lane : Nat} (inside : Inside shape log)
    (own : lane < shape.laneCount) (item : α) : Inside shape (log ++ [(lane, item)]) := by
  intro entry member
  rcases List.mem_append.mp member with old | new
  · exact inside entry old
  · rw [List.mem_singleton] at new
    rw [new]
    exact own

theorem length_ofLane_le {α : Type} (lane : Nat) (log : List (Nat × α)) :
    (ofLane lane log).length ≤ log.length :=
  List.length_filterMap_le _ _

namespace Invariant

variable (invariant : system.Invariant)

include invariant

theorem polled_le {lane : Nat} (inside : lane < shape.laneCount) :
    (ofLane lane system.polled).length ≤ (ofLane lane system.submitted).length := by
  have fits := invariant.lanes lane inside
  obtain ⟨written, copies, begins⟩ := fits.bounds
  exact fits.polledBelow.trans (written.trans (copies.trans (begins.trans
    (fits.begun.trans fits.tail))))

theorem push_lane {lane : Nat} (inside : lane < shape.laneCount)
    (room : wrapSub 64 (system.submitTails lane) (system.completionHeads lane) <
      shape.laneCapacity) (bounded : system.submitted.length + 1 < 2 ^ 64) (task : CopyTask)
    {other : Nat} (otherInside : other < shape.laneCount) :
    ((system.push lane task).lane other).Invariant shape.laneCapacity := by
  by_cases same : other = lane
  · subst same
    have fits := invariant.lanes other inside
    have submitTail : system.submitTails other = (ofLane other system.submitted).length :=
      fits.submitTail
    have head : system.completionHeads other = (ofLane other system.polled).length :=
      fits.completionHead
    have below := invariant.polled_le inside
    have few := length_ofLane_le other system.submitted
    rw [submitTail, head, wrapSub_of_le below fits.bounded] at room
    have near : (ofLane other system.submitted).length <
        (ofLane other system.polled).length + shape.laneCapacity := by omega
    have pushed := fits.push near (lt_of_le_of_lt (Nat.add_le_add_right few 1) bounded) task
    unfold System.lane System.push
    dsimp only
    rw [Function.update_self, ofLane_push]
    exact pushed.congr shape.laneCapacity_pos (fun _ _ => slot_update) fun _ _ => rfl
  · exact lane_unchanged (invariant.lanes other otherInside) rfl rfl
      (Function.update_of_ne same ..) rfl (ofLane_push_of_ne same task) rfl rfl
      (fun _ inside => slot_unchanged same inside) fun _ _ => rfl

theorem pop_lane {lane : Nat} (inside : lane < shape.laneCount)
    (waiting : system.completionHeads lane < (system.controls lane).completionTail)
    {other : Nat} (otherInside : other < shape.laneCount) :
    ((system.pop lane).lane other).Invariant shape.laneCapacity := by
  by_cases same : other = lane
  · subst same
    have popped := (invariant.lanes other inside).pop waiting
    unfold System.lane System.pop
    dsimp only
    rw [Function.update_self, ofLane_push, slotIndex_eq]
    exact popped
  · exact lane_unchanged (invariant.lanes other otherInside) rfl rfl rfl
      (Function.update_of_ne same ..) rfl rfl (ofLane_push_of_ne same _)
      (fun _ _ => rfl) fun _ _ => rfl

/-- A control of one lane is stored. -/
theorem store_lane {lane : Nat} {control : Control}
    (stored : lane < shape.laneCount →
      Lane.Invariant shape.laneCapacity { system.lane lane with control })
    {other : Nat} (otherInside : other < shape.laneCount) :
    (({ system with controls := Function.update system.controls lane control } :
      System shape).lane other).Invariant shape.laneCapacity := by
  by_cases same : other = lane
  · subst same
    unfold System.lane
    dsimp only
    rw [Function.update_self]
    exact stored otherInside
  · exact lane_unchanged (invariant.lanes other otherInside) (Function.update_of_ne same ..)
      rfl rfl rfl rfl rfl rfl (fun _ _ => rfl) fun _ _ => rfl

/-- The host changes nothing but its own fields. -/
theorem withHost {host : Host} {accepting : Bool} {status : Status} {submittedCount : Nat}
    (fits : HostFits ({ system with host, accepting, status, submittedCount } : System shape) host)
    (stopping : ∀ lane < shape.laneCount,
      (system.controls lane).stopRequested ≠ 0 → accepting = false)
    (neverFails : status ≠ some .eio) :
    Invariant ({ system with host, accepting, status, submittedCount } : System shape) :=
  { bounded := invariant.bounded
    lanes := invariant.lanes
    submitted := invariant.submitted
    copied := invariant.copied
    polled := invariant.polled
    submitCursor := invariant.submitCursor
    completionCursor := invariant.completionCursor
    room := invariant.room
    completed := invariant.completed
    host := fits
    stopping := stopping
    neverFails := neverFails }

theorem idle (idle : system.host = .idle) : system.Settled := by
  have host := invariant.host
  rw [idle] at host
  exact host

/-! ## Calls -/

theorem trySubmitBatch (idle : system.host = .idle) (tasks : List CopyTask) :
    (system.trySubmitBatch tasks).Invariant := by
  have settled := invariant.idle idle
  have room := invariant.room
  have completed := invariant.completed
  have bounded := invariant.bounded
  have quiet : ∀ status submittedCount, status ≠ some .eio →
      Invariant
        ({ system with status := status, submittedCount := submittedCount } : System shape) := by
    intro status submittedCount fine
    refine invariant.withHost ?_ invariant.stopping fine
    rw [idle]
    exact settled
  have below : system.polled.length ≤ system.submitted.length := by
    rw [← sum_length_ofLane invariant.polled, ← sum_length_ofLane invariant.submitted]
    exact Finset.sum_le_sum fun lane member => invariant.polled_le (Finset.mem_range.mp member)
  have outstanding : wrapSub 64 system.acceptedTasks system.completedTasks =
      system.submitted.length - system.polled.length := by
    rw [settled.1, completed, wrapSub_of_le below bounded]
  unfold System.trySubmitBatch
  dsimp only
  by_cases refused : system.accepting = false ∨ tasks = []
  · rw [if_pos refused]
    exact quiet _ _ (by rintro ⟨⟩)
  · rw [if_neg refused]
    rw [not_or, Bool.not_eq_false] at refused
    have some_ := List.length_pos_iff.mpr refused.2
    rw [outstanding]
    by_cases full : shape.capacity ≤ system.submitted.length - system.polled.length
    · rw [if_pos full]
      exact quiet _ _ (by rintro ⟨⟩)
    · rw [if_neg full]
      generalize chosen : (if tasks.length <
          shape.capacity - (system.submitted.length - system.polled.length) then tasks.length
        else shape.capacity - (system.submitted.length - system.polled.length)) = count
      have counted : 0 < count ∧ count ≤ tasks.length ∧
          system.submitted.length + count ≤ system.polled.length + shape.capacity := by
        rw [← chosen]
        split_ifs <;> omega
      have length : (tasks.take count).length = count := by
        rw [List.length_take]
        omega
      split_ifs
      · exact quiet _ _ (by rintro ⟨⟩)
      · refine invariant.withHost ⟨refused.1, ?_, settled.1.symm, ?_, fun lane inside _ => ?_⟩
          invariant.stopping invariant.neverFails
        · rw [length]
          exact counted.1
        · rw [length]
          exact settled.1 ▸ counted.2.2
        · exact settled.2 lane inside

theorem call (call : Call) : (system.call call).Invariant := by
  unfold System.call
  by_cases busy : system.host ≠ .idle
  · rw [if_pos busy]
    exact invariant
  · rw [if_neg busy]
    have idle := not_not.mp busy
    have settled := invariant.idle idle
    cases call with
    | trySubmitBatch tasks => exact invariant.trySubmitBatch idle tasks
    | tryPoll =>
        exact invariant.withHost ⟨settled, invariant.completionCursor⟩ invariant.stopping
          invariant.neverFails
    | requestStop =>
        dsimp only
        split_ifs with stopped
        · refine invariant.withHost ?_ invariant.stopping (by rintro ⟨⟩)
          rw [idle]
          exact settled
        · exact invariant.withHost ⟨settled, rfl, shape.lanes_pos⟩ (fun _ _ _ => rfl)
            invariant.neverFails

/-! ## Steps of the host -/

theorem writeTask {tasks : List CopyTask} {index dirtyLanes lane : Nat} {task : CopyTask}
    {host : Host} (writing : system.host = .writeTask tasks index dirtyLanes)
    (selected : system.selectLane shape.laneCount system.submitCursor = some lane)
    (bounded : system.submitted.length + 1 < 2 ^ 64)
    (fits : HostFits ({ system.push lane task with host } : System shape) host) :
    Invariant ({ system.push lane task with host } : System shape) := by
  have known := invariant.host
  rw [writing] at known
  obtain ⟨accepting, inside, length, more, clean⟩ := known
  obtain ⟨own, room⟩ := selectLane_some invariant.submitCursor selected
  have longer : (system.submitted ++ [(lane, task)]).length = system.submitted.length + 1 :=
    List.length_append
  exact
    { bounded := lt_of_eq_of_lt longer bounded
      lanes := fun other otherInside => invariant.push_lane own room bounded task otherInside
      submitted := inside_push invariant.submitted own task
      copied := invariant.copied
      polled := invariant.polled
      submitCursor := nextLane_lt own
      completionCursor := invariant.completionCursor
      room := by
        unfold System.push
        dsimp only
        omega
      completed := invariant.completed
      host := fits
      stopping := invariant.stopping
      neverFails := invariant.neverFails }

/-- Some controls are stored, and the host goes on. -/
theorem withControls {controls : Nat → Control} {host : Host} {acceptedTasks : Nat}
    {status : Status} {submittedCount : Nat}
    (lanes : ∀ lane < shape.laneCount,
      (({ system with controls } : System shape).lane lane).Invariant shape.laneCapacity)
    (fits : HostFits ({ system with
      controls, host, acceptedTasks, status, submittedCount } : System shape) host)
    (stopping : ∀ lane < shape.laneCount,
      (controls lane).stopRequested ≠ 0 → system.accepting = false)
    (neverFails : status ≠ some .eio) :
    Invariant ({ system with
      controls, host, acceptedTasks, status, submittedCount } : System shape) :=
  { bounded := invariant.bounded
    lanes := lanes
    submitted := invariant.submitted
    copied := invariant.copied
    polled := invariant.polled
    submitCursor := invariant.submitCursor
    completionCursor := invariant.completionCursor
    room := invariant.room
    completed := invariant.completed
    host := fits
    stopping := stopping
    neverFails := neverFails }

theorem hostStep (bounded : system.hostStep.submitted.length < 2 ^ 64) :
    system.hostStep.Invariant := by
  have known := invariant.host
  have room := invariant.room
  unfold System.hostStep at bounded ⊢
  cases phase : system.host with
  | idle => exact invariant
  | writeTask tasks index dirtyLanes =>
      rw [phase] at known bounded
      obtain ⟨accepting, inside, length, more, clean⟩ := known
      have found : tasks[index]? = some tasks[index] := List.getElem?_eq_getElem _
      obtain ⟨lane, selected⟩ := invariant.exists_lane (by omega)
      simp only [found, selected] at bounded ⊢
      have longer : (system.push lane tasks[index]).submitted.length =
          system.submitted.length + 1 :=
        List.length_append
      have unmarked : ∀ other < shape.laneCount,
          (dirtyLanes ||| (1 <<< lane)).testBit other = false →
            (system.push lane tasks[index]).Published other := by
        intro other otherInside bit
        have neither := mt (testBit_mark dirtyLanes lane other).mpr
          (Bool.eq_false_iff.mp bit)
        rw [not_or, Bool.not_eq_true] at neither
        have before := clean other otherInside neither.1
        unfold Published at before ⊢
        unfold System.push
        dsimp only
        rw [ofLane_push_of_ne (Ne.symm neither.2)]
        exact before
      refine invariant.writeTask phase selected (longer ▸ bounded) ?_
      split_ifs with rest
      · refine ⟨accepting, rest, ?_, more, unmarked⟩
        rw [longer, length]
        rfl
      · refine ⟨accepting, shape.lanes_pos, ?_, fun other otherInside published => ?_⟩
        · rw [longer, length]
          have last : tasks.length = index + 1 := by omega
          rw [last]
          rfl
        · exact unmarked other otherInside
            (published.resolve_left (Nat.not_lt_zero other))
  | storeTail count dirtyLanes lane =>
      rw [phase] at known
      obtain ⟨accepting, inside, length, published⟩ := known
      have running : (system.controls lane).stopRequested = 0 := by
        by_contra stop
        rw [invariant.stopping lane inside stop] at accepting
        exact Bool.false_ne_true accepting
      have submitTail : system.submitTails lane = (ofLane lane system.submitted).length :=
        (invariant.lanes lane inside).submitTail
      generalize stored : (if dirtyLanes &&& (1 <<< lane) ≠ 0 then
          Function.update system.controls lane
            { system.controls lane with taskTail := system.submitTails lane }
        else system.controls) = controls
      have lanes : ∀ other < shape.laneCount,
          (({ system with controls } : System shape).lane other).Invariant
            shape.laneCapacity := by
        intro other otherInside
        rw [← stored]
        split_ifs
        · exact invariant.store_lane
            (fun _ => (invariant.lanes lane inside).publish running) otherInside
        · exact invariant.lanes other otherInside
      have shown : ∀ other < shape.laneCount,
          other < lane + 1 ∨ dirtyLanes.testBit other = false →
            Published ({ system with controls } : System shape) other := by
        intro other otherInside seen
        unfold Published
        dsimp only
        rw [← stored]
        by_cases dirty : dirtyLanes &&& (1 <<< lane) ≠ 0
        · rw [if_pos dirty]
          by_cases same : other = lane
          · rw [same, Function.update_self]
            exact submitTail
          · rw [Function.update_of_ne same]
            rcases seen with below | bit
            · exact published other otherInside (.inl (by omega))
            · exact published other otherInside (.inr bit)
        · rw [if_neg dirty]
          by_cases same : other = lane
          · rw [same]
            rw [dirty_iff, Bool.not_eq_true] at dirty
            exact published lane inside (.inr dirty)
          · rcases seen with below | bit
            · exact published other otherInside (.inl (by omega))
            · exact published other otherInside (.inr bit)
      have stopping : ∀ other < shape.laneCount,
          (controls other).stopRequested ≠ 0 → system.accepting = false := by
        intro other otherInside
        rw [← stored]
        split_ifs
        · rw [Function.update_apply]
          split_ifs with same
          · rw [same] at otherInside
            exact invariant.stopping lane otherInside
          · exact invariant.stopping other otherInside
        · exact invariant.stopping other otherInside
      dsimp only
      rw [stored]
      split_ifs with rest
      · exact invariant.withControls lanes ⟨accepting, rest, length, shown⟩ stopping
          invariant.neverFails
      · have now := invariant.bounded
        refine invariant.withControls lanes ⟨?_, fun other otherInside => ?_⟩ stopping
          (by rintro ⟨⟩)
        · dsimp only
          rw [wrapAdd_of_lt (by omega), length]
        · exact shown other otherInside (.inl (by omega))
  | loadTail visited selectedLane =>
      rw [phase] at known
      obtain ⟨settled, inside⟩ := known
      dsimp only
      split_ifs with waiting rest
      · exact invariant.withHost ⟨settled, inside, waiting⟩ invariant.stopping
          invariant.neverFails
      · exact invariant.withHost ⟨settled, nextLane_lt inside⟩ invariant.stopping
          invariant.neverFails
      · exact invariant.withHost settled invariant.stopping (by rintro ⟨⟩)
  | readCompletion selectedLane =>
      rw [phase] at known
      obtain ⟨settled, inside, waiting⟩ := known
      have now := invariant.bounded
      have lanes := fun other (otherInside : other < shape.laneCount) =>
        invariant.pop_lane inside waiting otherInside
      have below : (system.pop selectedLane).polled.length ≤ system.submitted.length := by
        have popped := inside_push invariant.polled inside
          (system.completionSlots (slotIndex shape selectedLane
            (system.completionHeads selectedLane)))
        rw [System.pop, ← sum_length_ofLane popped, ← sum_length_ofLane invariant.submitted]
        refine Finset.sum_le_sum fun other member => ?_
        have fits := lanes other (Finset.mem_range.mp member)
        obtain ⟨written, copies, begins⟩ := fits.bounds
        exact fits.polledBelow.trans (written.trans (copies.trans (begins.trans
          (fits.begun.trans fits.tail))))
      have longer : (system.pop selectedLane).polled.length = system.polled.length + 1 :=
        List.length_append
      exact
        { bounded := now
          lanes := lanes
          submitted := invariant.submitted
          copied := invariant.copied
          polled := inside_push invariant.polled inside _
          submitCursor := invariant.submitCursor
          completionCursor := nextLane_lt inside
          room := room.trans (by
            rw [longer]
            omega)
          completed := by
            have completed := invariant.completed
            rw [longer]
            unfold System.pop
            dsimp only
            rw [completed, wrapAdd_of_lt (by omega)]
          host := settled
          stopping := invariant.stopping
          neverFails := by rintro ⟨⟩ }
  | storeStop lane =>
      rw [phase] at known
      obtain ⟨settled, accepting, inside⟩ := known
      have lanes := fun other (otherInside : other < shape.laneCount) =>
        invariant.store_lane
          (fun _ => (invariant.lanes lane inside).requestStop) otherInside
      have published : ∀ other < shape.laneCount, (Function.update system.controls lane
          { system.controls lane with stopRequested := 1 } other).taskTail =
            (ofLane other system.submitted).length := by
        intro other otherInside
        rw [Function.update_apply]
        split_ifs with same
        · rw [same]
          exact settled.2 lane inside
        · exact settled.2 other otherInside
      dsimp only
      split_ifs with rest
      · exact invariant.withControls lanes ⟨⟨settled.1, published⟩, accepting, rest⟩
          (fun _ _ _ => accepting) invariant.neverFails
      · exact invariant.withControls lanes ⟨settled.1, published⟩
          (fun _ _ _ => accepting) (by rintro ⟨⟩)

/-! ## Steps of the warps -/

/-- A warp makes a step, which the host does not notice. -/
theorem updateWarp {controls : Nat → Control} {completionSlots : Nat → CopyCompletion}
    {warps : Nat → Warp} {copied : List (Nat × CopyTask)}
    (lanes : ∀ lane < shape.laneCount,
      (({ system with controls, completionSlots, warps, copied } : System shape).lane
        lane).Invariant shape.laneCapacity)
    (inside : Inside shape copied)
    (taskTail : ∀ lane, (controls lane).taskTail = (system.controls lane).taskTail)
    (stop : ∀ lane, (controls lane).stopRequested = (system.controls lane).stopRequested)
    (completionTail : ∀ lane < shape.laneCount,
      (system.controls lane).completionTail ≤ (controls lane).completionTail) :
    Invariant ({ system with controls, completionSlots, warps, copied } : System shape) := by
  have known := invariant.host
  have host : HostFits ({ system with controls, completionSlots, warps, copied } : System shape)
      system.host := by
    have published : ∀ lane, system.Published lane → Published
        ({ system with controls, completionSlots, warps, copied } : System shape) lane :=
      fun lane before => (taskTail lane).trans before
    have settled : system.Settled → Settled
        ({ system with controls, completionSlots, warps, copied } : System shape) :=
      fun before => ⟨before.1, fun lane own => published lane (before.2 lane own)⟩
    cases phase : system.host with
    | idle =>
        rw [phase] at known
        exact settled known
    | writeTask tasks index dirtyLanes =>
        rw [phase] at known
        obtain ⟨accepting, less, length, more, clean⟩ := known
        exact ⟨accepting, less, length, more,
          fun lane own bit => published lane (clean lane own bit)⟩
    | storeTail count dirtyLanes lane =>
        rw [phase] at known
        obtain ⟨accepting, own, length, shown⟩ := known
        exact ⟨accepting, own, length, fun other otherInside seen =>
          published other (shown other otherInside seen)⟩
    | loadTail visited selectedLane =>
        rw [phase] at known
        exact ⟨settled known.1, known.2⟩
    | readCompletion selectedLane =>
        rw [phase] at known
        exact ⟨settled known.1, known.2.1,
          Nat.lt_of_lt_of_le known.2.2 (completionTail selectedLane known.2.1)⟩
    | storeStop lane =>
        rw [phase] at known
        exact ⟨settled known.1, known.2⟩
  exact
    { bounded := invariant.bounded
      lanes := lanes
      submitted := invariant.submitted
      copied := inside
      polled := invariant.polled
      submitCursor := invariant.submitCursor
      completionCursor := invariant.completionCursor
      room := invariant.room
      completed := invariant.completed
      host := host
      stopping := fun lane own stopped => invariant.stopping lane own (stop lane ▸ stopped)
      neverFails := invariant.neverFails }

theorem moveWarp {warp : Nat} (inside : warp < shape.laneCount) {phase : Phase}
    (copied : Warp.copiedTo { system.warps warp with phase } = (system.warps warp).copiedTo)
    (written : Warp.writtenTo { system.warps warp with phase } = (system.warps warp).writtenTo)
    (begun : Warp.begunTo { system.warps warp with phase } ≤ (system.controls warp).taskTail)
    (fits : (system.lane warp).PhaseFits phase) : (system.move warp phase).Invariant := by
  refine invariant.updateWarp (fun other otherInside => ?_) invariant.copied (fun _ => rfl)
    (fun _ => rfl) fun _ _ => Nat.le_refl _
  by_cases same : other = warp
  · subst same
    have moved := (invariant.lanes other inside).move copied written begun fits
    unfold System.lane
    dsimp only
    rw [Function.update_self]
    exact moved
  · exact lane_unchanged (invariant.lanes other otherInside) rfl (Function.update_of_ne same ..)
      rfl rfl rfl rfl rfl (fun _ _ => rfl) fun _ _ => rfl

omit invariant in
theorem taskCount_bounds {taskHead taskTail : Nat} (some_ : taskHead < taskTail)
    (bounded : taskTail < 2 ^ 64) : 0 < taskCount shape taskHead taskTail ∧
      taskHead + taskCount shape taskHead taskTail ≤ taskTail := by
  have batch := isSupportedDeviceBatch_bounds shape.batch
  unfold taskCount
  rw [wrapSub_of_le some_.le bounded]
  dsimp only
  split_ifs <;> omega

/-- A warp begins a batch. -/
theorem begin {warp : Nat} (inside : warp < shape.laneCount)
    (copied : (system.warps warp).copiedTo = (system.warps warp).taskHead)
    (written : (system.warps warp).writtenTo = (system.warps warp).taskHead)
    (some_ : (system.warps warp).taskHead < (system.controls warp).taskTail) :
    (system.move warp (.readTask
      (taskCount shape (system.warps warp).taskHead (system.controls warp).taskTail)
      0)).Invariant := by
  have fits := invariant.lanes warp inside
  have bounds := @taskCount_bounds shape _ _ some_ (lt_of_le_of_lt fits.tail fits.bounded)
  exact invariant.moveWarp inside copied.symm written.symm bounds.2 bounds.1

theorem copyStep {warp taskCount batchIndex : Nat} {task : CopyTask}
    (inside : warp < shape.laneCount)
    (here : (system.warps warp).phase = .copy taskCount batchIndex task) :
    Invariant ({ system with copied := system.copied ++ [(warp, task)] }.move warp
      (.writeCompletion taskCount batchIndex task) : System shape) := by
  refine invariant.updateWarp (fun other otherInside => ?_)
    (inside_push invariant.copied inside task) (fun _ => rfl) (fun _ => rfl)
    fun _ _ => Nat.le_refl _
  by_cases same : other = warp
  · subst same
    have copied := (invariant.lanes other inside).copyTask here
    unfold System.lane
    dsimp only
    rw [Function.update_self, ofLane_push]
    exact copied
  · exact lane_unchanged (invariant.lanes other otherInside) rfl (Function.update_of_ne same ..)
      rfl rfl rfl (ofLane_push_of_ne same task) rfl (fun _ _ => rfl) fun _ _ => rfl

theorem writeStep {warp taskCount batchIndex : Nat} {task : CopyTask}
    (inside : warp < shape.laneCount)
    (here : (system.warps warp).phase = .writeCompletion taskCount batchIndex task) :
    Invariant ({ system with
      completionSlots := Function.update system.completionSlots
        (slotIndex shape warp ((system.warps warp).taskHead + batchIndex))
        (completionOf task) }.move warp
      (if batchIndex + 1 < taskCount then .readTask taskCount (batchIndex + 1)
        else .storeTail taskCount) : System shape) := by
  refine invariant.updateWarp (fun other otherInside => ?_) invariant.copied (fun _ => rfl)
    (fun _ => rfl) fun _ _ => Nat.le_refl _
  by_cases same : other = warp
  · subst same
    have written := (invariant.lanes other inside).writeCompletion here
    unfold System.lane
    dsimp only
    rw [Function.update_self]
    exact written.congr shape.laneCapacity_pos (fun _ _ => rfl) fun _ _ => slot_update
  · exact lane_unchanged (invariant.lanes other otherInside) rfl (Function.update_of_ne same ..)
      rfl rfl rfl rfl rfl (fun _ _ => rfl) fun _ within => slot_unchanged same within

theorem storeStep {warp taskCount : Nat} (inside : warp < shape.laneCount)
    (here : (system.warps warp).phase = .storeTail taskCount) :
    Invariant ({ system with
      controls := Function.update system.controls warp
        { system.controls warp with
          completionTail := (system.warps warp).taskHead + taskCount }
      warps := Function.update system.warps warp
        { taskHead := (system.warps warp).taskHead + taskCount } } : System shape) := by
  refine invariant.updateWarp (fun other otherInside => ?_) invariant.copied (fun other => ?_)
    (fun other => ?_) fun other otherInside => ?_
  · by_cases same : other = warp
    · subst same
      have stored := (invariant.lanes other inside).storeTail here
      unfold System.lane
      dsimp only
      rw [Function.update_self, Function.update_self]
      exact stored
    · exact lane_unchanged (invariant.lanes other otherInside) (Function.update_of_ne same ..)
        (Function.update_of_ne same ..) rfl rfl rfl rfl rfl (fun _ _ => rfl) fun _ _ => rfl
  · rw [Function.update_apply]
    split_ifs with same
    · rw [same]
    · rfl
  · rw [Function.update_apply]
    split_ifs with same
    · rw [same]
    · rfl
  · rw [Function.update_apply]
    split_ifs with same
    · have answered := (invariant.lanes warp inside).answered
      rw [same]
      exact answered.le.trans (Nat.le_add_right ..)
    · exact Nat.le_refl _

/-- A warp that looks for a batch has answered everything that it has begun. -/
theorem looking {warp : Nat} (inside : warp < shape.laneCount)
    (here : (system.warps warp).phase = .loadTail ∨ (system.warps warp).phase = .loadStop ∨
      (system.warps warp).phase = .loadFinalTail) :
    (system.warps warp).copiedTo = (system.warps warp).taskHead ∧
      (system.warps warp).writtenTo = (system.warps warp).taskHead ∧
        (system.warps warp).taskHead ≤ (system.controls warp).taskTail := by
  have begun : (system.warps warp).begunTo ≤ (system.controls warp).taskTail :=
    (invariant.lanes warp inside).begun
  unfold Warp.begunTo at begun
  unfold Warp.copiedTo Warp.writtenTo
  rcases here with here | here | here
  · rw [here] at begun ⊢
    exact ⟨rfl, rfl, begun⟩
  · rw [here] at begun ⊢
    exact ⟨rfl, rfl, begun⟩
  · rw [here] at begun ⊢
    exact ⟨rfl, rfl, begun⟩

theorem warpStep (warp : Fin shape.laneCount) : (system.warpStep warp).Invariant := by
  have inside := warp.isLt
  have fits := invariant.lanes warp inside
  have tail : (system.controls warp).taskTail ≤ (ofLane warp system.submitted).length := fits.tail
  have bounded : (ofLane warp system.submitted).length < 2 ^ 64 := fits.bounded
  have phase : (system.lane warp).PhaseFits (system.warps warp).phase := fits.phase
  have begun : (system.warps warp).begunTo ≤ (system.controls warp).taskTail := fits.begun
  unfold System.warpStep
  dsimp only
  cases here : (system.warps warp).phase with
  | loadTail =>
      obtain ⟨copied, written, below⟩ := invariant.looking inside (.inl here)
      dsimp only
      split_ifs with some_
      · exact invariant.begin inside copied written some_
      · exact invariant.moveWarp inside copied.symm written.symm below trivial
  | loadStop =>
      obtain ⟨copied, written, below⟩ := invariant.looking inside (.inr (.inl here))
      dsimp only
      split_ifs with stop
      · exact invariant.moveWarp inside copied.symm written.symm below stop
      · exact invariant.moveWarp inside copied.symm written.symm below trivial
  | loadFinalTail =>
      obtain ⟨copied, written, below⟩ := invariant.looking inside (.inr (.inr here))
      rw [here] at phase
      dsimp only
      split_ifs with none_
      · exact invariant.moveWarp inside copied.symm written.symm below ⟨phase, none_⟩
      · exact invariant.begin inside copied written (Nat.not_le.mp none_)
  | readTask taskCount batchIndex =>
      have copied : (system.warps warp).copiedTo = (system.warps warp).taskHead + batchIndex := by
        unfold Warp.copiedTo
        rw [here]
      have written : (system.warps warp).writtenTo =
          (system.warps warp).taskHead + batchIndex := by
        unfold Warp.writtenTo
        rw [here]
      unfold Warp.begunTo at begun
      rw [here] at phase begun
      have less : batchIndex < taskCount := phase
      dsimp only at begun ⊢
      rw [wrapAdd_of_lt (by omega)]
      refine invariant.moveWarp inside copied.symm written.symm begun ⟨less, ?_⟩
      rw [slotIndex_eq]
      have below : (system.warps warp).taskHead + batchIndex <
          (system.controls warp).taskTail := by omega
      exact fits.read (Nat.le_add_right ..) below
  | copy taskCount batchIndex task => exact invariant.copyStep inside here
  | writeCompletion taskCount batchIndex task =>
      unfold Warp.begunTo at begun
      rw [here] at phase begun
      have less := phase.1
      dsimp only at begun ⊢
      rw [wrapAdd_of_lt (by omega)]
      exact invariant.writeStep inside here
  | storeTail taskCount =>
      unfold Warp.begunTo at begun
      rw [here] at begun
      dsimp only at begun ⊢
      rw [wrapAdd_of_lt (by omega)]
      exact invariant.storeStep inside here
  | stopped => exact invariant

theorem step (action : Action shape)
    (bounded : (step system action).submitted.length < 2 ^ 64) :
    (step system action).Invariant := by
  cases action with
  | call call => exact invariant.call call
  | host => exact invariant.hostStep bounded
  | warp warp => exact invariant.warpStep warp

end Invariant

/-! ## Slots -/

theorem submitted_call (system : System shape) (call : Call) :
    (system.call call).submitted = system.submitted ∧
      (system.call call).taskSlots = system.taskSlots ∧
        (system.call call).completionSlots = system.completionSlots := by
  unfold System.call
  by_cases busy : system.host ≠ .idle
  · rw [if_pos busy]
    exact ⟨rfl, rfl, rfl⟩
  · rw [if_neg busy]
    cases call with
    | trySubmitBatch tasks =>
        dsimp only
        unfold System.trySubmitBatch
        dsimp only
        split_ifs <;> exact ⟨rfl, rfl, rfl⟩
    | tryPoll => exact ⟨rfl, rfl, rfl⟩
    | requestStop =>
        dsimp only
        split_ifs <;> exact ⟨rfl, rfl, rfl⟩

/-- The host writes a task to the lane that it selects, and nothing else. -/
theorem submitted_hostStep (system : System shape) :
    system.hostStep.completionSlots = system.completionSlots ∧
      (system.hostStep.submitted = system.submitted ∧
          system.hostStep.taskSlots = system.taskSlots ∨
        ∃ lane task, system.selectLane shape.laneCount system.submitCursor = some lane ∧
          system.hostStep.submitted = system.submitted ++ [(lane, task)] ∧
          system.hostStep.taskSlots = Function.update system.taskSlots
            (slotIndex shape lane (system.submitTails lane)) task) := by
  unfold System.hostStep
  cases system.host with
  | writeTask tasks index dirtyLanes =>
      dsimp only
      cases tasks[index]? with
      | none => exact ⟨rfl, .inl ⟨rfl, rfl⟩⟩
      | some task =>
          dsimp only
          cases selected : system.selectLane shape.laneCount system.submitCursor with
          | none => exact ⟨rfl, .inl ⟨rfl, rfl⟩⟩
          | some lane => exact ⟨rfl, .inr ⟨lane, task, rfl, rfl, rfl⟩⟩
  | storeTail count dirtyLanes lane =>
      dsimp only
      split_ifs <;> exact ⟨rfl, .inl ⟨rfl, rfl⟩⟩
  | loadTail visited selectedLane =>
      dsimp only
      split_ifs <;> exact ⟨rfl, .inl ⟨rfl, rfl⟩⟩
  | storeStop lane =>
      dsimp only
      split_ifs <;> exact ⟨rfl, .inl ⟨rfl, rfl⟩⟩
  | _ => exact ⟨rfl, .inl ⟨rfl, rfl⟩⟩

/-- A warp writes completions to its own lane, and nothing else. -/
theorem submitted_warpStep (system : System shape) (warp : Nat) :
    (system.warpStep warp).submitted = system.submitted ∧
      (system.warpStep warp).taskSlots = system.taskSlots ∧
        ((system.warpStep warp).completionSlots = system.completionSlots ∨
          ∃ taskCount batchIndex task,
            (system.warps warp).phase = .writeCompletion taskCount batchIndex task ∧
              (system.warpStep warp).completionSlots = Function.update system.completionSlots
                (slotIndex shape warp (wrapAdd 64 (system.warps warp).taskHead batchIndex))
                (completionOf task)) := by
  unfold System.warpStep
  dsimp only
  cases (system.warps warp).phase with
  | loadTail =>
      dsimp only
      split_ifs <;> exact ⟨rfl, rfl, .inl rfl⟩
  | loadFinalTail =>
      dsimp only
      split_ifs <;> exact ⟨rfl, rfl, .inl rfl⟩
  | writeCompletion taskCount batchIndex task =>
      exact ⟨rfl, rfl, .inr ⟨taskCount, batchIndex, task, rfl, rfl⟩⟩
  | _ => exact ⟨rfl, rfl, .inl rfl⟩

/-- A step leaves alone the slots of the tasks and completions that are not polled. -/
structure KeepsSlots (system : System shape) (action : Action shape) : Prop where
  tasks : ∀ lane < shape.laneCount, ∀ index, (ofLane lane system.polled).length ≤ index →
    index < (ofLane lane system.submitted).length →
      (step system action).taskSlots (slotIndex shape lane index) =
        system.taskSlots (slotIndex shape lane index)
  completions : ∀ lane < shape.laneCount, ∀ index, (ofLane lane system.polled).length ≤ index →
    index < (system.controls lane).completionTail →
      (step system action).completionSlots (slotIndex shape lane index) =
        system.completionSlots (slotIndex shape lane index)

/-- Indices that share a slot are those of one lane, a whole turn apart. -/
theorem slotIndex_ne {lane other index otherIndex : Nat}
    (near : other = lane → index < otherIndex ∧ otherIndex < index + shape.laneCapacity) :
    slotIndex shape lane index ≠ slotIndex shape other otherIndex := by
  have place := Nat.mod_lt index shape.laneCapacity_pos
  by_cases same : other = lane
  · obtain ⟨less, within⟩ := near same
    rw [slotIndex_eq, slotIndex_eq, same]
    intro slots
    have := RingLog.eq_of_mod_eq (by omega) (by omega) (Nat.add_left_cancel slots)
    omega
  · rw [slotIndex_eq]
    exact slot_ne (Ne.symm same) place

theorem Invariant.keepsSlots (invariant : system.Invariant) (action : Action shape) :
    KeepsSlots system action where
  tasks := by
    intro lane inside index unpolled below
    cases action with
    | call call => exact congrFun (system.submitted_call call).2.1 _
    | warp warp => exact congrFun (system.submitted_warpStep warp).2.1 _
    | host =>
        rcases system.submitted_hostStep.2 with ⟨-, same⟩ | ⟨selected, task, chosen, -, same⟩
        · exact congrFun same _
        · obtain ⟨own, room⟩ := selectLane_some invariant.submitCursor chosen
          have fits := invariant.lanes selected own
          have submitTail : system.submitTails selected =
              (ofLane selected system.submitted).length := fits.submitTail
          have head : system.completionHeads selected =
              (ofLane selected system.polled).length := fits.completionHead
          rw [head, submitTail, wrapSub_of_le (invariant.polled_le own) fits.bounded] at room
          refine (congrFun same _).trans (Function.update_of_ne (slotIndex_ne fun equal => ?_) ..)
          subst equal
          rw [submitTail]
          omega
  completions := by
    intro lane inside index unpolled below
    cases action with
    | call call => exact congrFun (system.submitted_call call).2.2 _
    | host => exact congrFun system.submitted_hostStep.1 _
    | warp warp =>
        rcases (system.submitted_warpStep warp).2.2 with
          same | ⟨taskCount, batchIndex, task, here, same⟩
        · exact congrFun same _
        · have fits := invariant.lanes warp warp.isLt
          have answered : (system.controls warp).completionTail =
              (system.warps warp).taskHead := fits.answered
          have begun : (system.warps warp).begunTo ≤ (system.controls warp).taskTail :=
            fits.begun
          have phase : (system.lane warp).PhaseFits (system.warps warp).phase := fits.phase
          have tail : (system.controls warp).taskTail ≤ (ofLane warp system.submitted).length :=
            fits.tail
          have room : (ofLane warp system.submitted).length ≤
              (ofLane warp system.polled).length + shape.laneCapacity := fits.room
          have bounded : (ofLane warp system.submitted).length < 2 ^ 64 := fits.bounded
          unfold Warp.begunTo at begun
          rw [here] at begun phase
          have less := phase.1
          dsimp only at begun
          rw [wrapAdd_of_lt (by omega)] at same
          refine (congrFun same _).trans (Function.update_of_ne (slotIndex_ne fun equal => ?_) ..)
          subst equal
          omega

/-! ## Runs -/

theorem length_submitted_step (system : System shape) (action : Action shape) :
    system.submitted.length ≤ (System.step system action).submitted.length := by
  cases action with
  | call call => exact (congrArg List.length (system.submitted_call call).1).ge
  | warp warp => exact (congrArg List.length (system.submitted_warpStep warp).1).ge
  | host =>
      rcases system.submitted_hostStep.2 with ⟨same, -⟩ | ⟨lane, task, -, longer, -⟩
      · exact (congrArg List.length same).ge
      · have length := congrArg List.length longer
        rw [List.length_append] at length
        exact (Nat.le_add_right ..).trans length.ge

/-- A run that stays below the bound keeps the invariant. -/
theorem run_keeps {actions : List (Action shape)} (invariant : system.Invariant)
    (bounded : (Execution.run System.step system actions).submitted.length < 2 ^ 64) :
    (Execution.run System.step system actions).Invariant :=
  Execution.run_invariant_below (fun system => system.submitted.length + 1)
    (fun system action => Nat.add_le_add_right (length_submitted_step system action) _)
    (fun _ action bounded invariant => invariant.step action bounded) invariant bounded

/-- What a run has done with the tasks that were submitted. -/
structure LosesNothing (system : System shape) : Prop where
  /-- The search for a lane with room never fails. -/
  neverFails : system.status ≠ some .eio
  room : system.submitted.length ≤ system.polled.length + shape.capacity
  laneRoom : ∀ lane < shape.laneCount, (ofLane lane system.submitted).length ≤
    (ofLane lane system.polled).length + shape.laneCapacity
  /-- The warp of a lane copies its tasks in order, with the fields that were submitted. -/
  copied : ∀ lane < shape.laneCount, ofLane lane system.copied =
    (ofLane lane system.submitted).take (ofLane lane system.copied).length
  /-- The completions of a lane are polled in order, each after its copy. -/
  polled : ∀ lane < shape.laneCount, ofLane lane system.polled =
    ((ofLane lane system.submitted).take (ofLane lane system.polled).length).map completionOf
  copiedFirst : ∀ lane < shape.laneCount,
    (ofLane lane system.polled).length ≤ (ofLane lane system.copied).length
  exits : ∀ lane < shape.laneCount, (system.warps lane).phase = .stopped →
    ofLane lane system.copied = ofLane lane system.submitted ∧
      (system.controls lane).completionTail = (ofLane lane system.submitted).length
  drained : system.host = .idle → system.acceptedTasks = system.completedTasks →
    system.copied.Perm system.submitted ∧
      system.polled.Perm (system.submitted.map fun entry => (entry.1, completionOf entry.2))

theorem Invariant.tail_of_stopped (invariant : system.Invariant) {lane : Nat}
    (inside : lane < shape.laneCount) (stop : (system.controls lane).stopRequested ≠ 0) :
    system.Published lane := by
  have host := invariant.host
  have accepting := invariant.stopping lane inside stop
  cases phase : system.host with
  | idle =>
      rw [phase] at host
      exact host.2 lane inside
  | writeTask tasks index dirtyLanes =>
      rw [phase] at host
      rw [host.1] at accepting
      exact absurd accepting.symm Bool.false_ne_true
  | storeTail count dirtyLanes other =>
      rw [phase] at host
      rw [host.1] at accepting
      exact absurd accepting.symm Bool.false_ne_true
  | loadTail visited selectedLane =>
      rw [phase] at host
      exact host.1.2 lane inside
  | readCompletion selectedLane =>
      rw [phase] at host
      exact host.1.2 lane inside
  | storeStop other =>
      rw [phase] at host
      exact host.1.2 lane inside

theorem ofLane_eq_nil {α : Type} {log : List (Nat × α)} (inside : Inside shape log) {lane : Nat}
    (outside : ¬lane < shape.laneCount) : ofLane lane log = [] := by
  apply List.filterMap_eq_nil_iff.mpr
  intro entry member
  apply if_neg
  rintro rfl
  exact outside (inside entry member)

theorem Invariant.losesNothing (invariant : system.Invariant) : system.LosesNothing := by
  have copied : ∀ lane < shape.laneCount, ofLane lane system.copied =
      (ofLane lane system.submitted).take (system.warps lane).copiedTo :=
    fun lane inside => (invariant.lanes lane inside).copied
  have copiedLength : ∀ lane < shape.laneCount,
      (ofLane lane system.copied).length = (system.warps lane).copiedTo ∧
        (ofLane lane system.polled).length ≤ (system.warps lane).copiedTo := by
    intro lane inside
    have fits := invariant.lanes lane inside
    obtain ⟨written, copies, begins⟩ := fits.bounds
    have whole := copies.trans (begins.trans (fits.begun.trans fits.tail))
    have below : (system.warps lane).copiedTo ≤ (ofLane lane system.submitted).length :=
      begins.trans (fits.begun.trans fits.tail)
    rw [copied lane inside, List.length_take, Nat.min_eq_left below]
    exact ⟨rfl, fits.polledBelow.trans (written.trans copies)⟩
  refine ⟨invariant.neverFails, invariant.room,
    fun lane inside => (invariant.lanes lane inside).room,
    fun lane inside => ?_, fun lane inside => (invariant.lanes lane inside).polled,
    fun lane inside => ?_, fun lane inside stopped => ?_, fun idle drained => ?_⟩
  · rw [(copiedLength lane inside).1]
    exact copied lane inside
  · rw [(copiedLength lane inside).1]
    exact (copiedLength lane inside).2
  · have fits := invariant.lanes lane inside
    have phase : (system.lane lane).PhaseFits (system.warps lane).phase := fits.phase
    have begun : (system.warps lane).begunTo ≤ (system.controls lane).taskTail := fits.begun
    have answered : (system.controls lane).completionTail = (system.warps lane).taskHead :=
      fits.answered
    unfold Warp.begunTo at begun
    rw [stopped] at phase begun
    have published := invariant.tail_of_stopped inside phase.1
    have all : (system.warps lane).taskHead = (ofLane lane system.submitted).length :=
      (Nat.le_antisymm begun phase.2).trans published
    constructor
    · rw [copied lane inside, Warp.copiedTo, stopped]
      dsimp only
      rw [all, List.take_length]
    · exact answered.trans all
  · have settled := invariant.idle idle
    have total : system.submitted.length = system.polled.length := by
      rw [← settled.1, drained, invariant.completed]
    -- No lane has more completions than tasks, and together they have as many.
    have lanes : ∀ lane < shape.laneCount,
        (ofLane lane system.polled).length = (ofLane lane system.submitted).length := by
      have sums : ∑ lane ∈ Finset.range shape.laneCount, (ofLane lane system.polled).length =
          ∑ lane ∈ Finset.range shape.laneCount, (ofLane lane system.submitted).length := by
        rw [sum_length_ofLane invariant.polled, sum_length_ofLane invariant.submitted, total]
      intro lane inside
      exact (Finset.sum_eq_sum_iff_of_le fun other member =>
        invariant.polled_le (Finset.mem_range.mp member)).mp sums lane
          (Finset.mem_range.mpr inside)
    constructor
    · apply perm_of_ofLane
      intro lane
      by_cases inside : lane < shape.laneCount
      · rw [copied lane inside]
        apply List.take_of_length_le
        rw [← lanes lane inside]
        exact (copiedLength lane inside).2
      · rw [ofLane_eq_nil invariant.copied inside, ofLane_eq_nil invariant.submitted inside]
    · apply perm_of_ofLane
      intro lane
      rw [ofLane_map]
      by_cases inside : lane < shape.laneCount
      · have polled : ofLane lane system.polled =
            ((ofLane lane system.submitted).take (ofLane lane system.polled).length).map
              completionOf := (invariant.lanes lane inside).polled
        rw [polled, lanes lane inside, List.take_length]
      · rw [ofLane_eq_nil invariant.polled inside, ofLane_eq_nil invariant.submitted inside]
        rfl

/-- In every run that submits fewer tasks than the counters can count, some lane has room for
every task that is accepted, and every task is copied once by the warp of its lane and polled
once, in the order of its lane. -/
theorem sharded_loses_nothing (shape : Shape) (actions : List (Action shape))
    (bounded : (Execution.run System.step ({} : System shape) actions).submitted.length <
      2 ^ 64) :
    Execution.Along System.step KeepsSlots ({} : System shape) actions ∧
      (Execution.run System.step ({} : System shape) actions).LosesNothing := by
  refine ⟨?_, (run_keeps initial_invariant bounded).losesNothing⟩
  exact Execution.along_of_invariant_below (fun system => system.submitted.length + 1)
    (fun system action => Nat.add_le_add_right (length_submitted_step system action) _)
    (fun _ action bounded invariant => Invariant.step invariant action bounded)
    (fun _ action invariant => invariant.keepsSlots action) initial_invariant bounded

/-- Four lanes of two slots each. -/
def narrow : Shape where
  capacity := 8
  laneCount := 4
  deviceBatch := 2
  batch := rfl
  fits := of_decide_eq_true rfl
  allocates := rfl

instance : NeZero narrow.laneCount :=
  ⟨of_decide_eq_true rfl⟩

def pollOne : List (Action narrow) :=
  .call .tryPoll :: List.replicate 6 .host

/-- Eight tasks fill the lanes, and all warps copy theirs by turns. -/
def fillLanes : List (Action narrow) :=
  .call (.trySubmitBatch ((List.range 8).map adjacentTask)) :: List.replicate 12 .host ++
    (List.replicate 8 [0, 1, 2, 3]).flatten.map .warp

/-- Two completions are polled, and two more tasks take their slots. -/
def submitTwoMore : List (Action narrow) :=
  pollOne ++ pollOne ++ .call (.trySubmitBatch [adjacentTask 8, adjacentTask 9]) ::
    List.replicate 6 .host

/-- The second lane is done with its last task, and the first one is not. -/
def reusedSlots : List (Action narrow) :=
  fillLanes ++ submitTwoMore ++ List.replicate 5 (.warp 1) ++
    (List.replicate 7 pollOne).flatten

theorem sharded_loses_nothing_reusedSlots :
    (Execution.Along System.step KeepsSlots ({} : System narrow) reusedSlots ∧
      (Execution.run System.step ({} : System narrow) reusedSlots).LosesNothing) ∧
        ofLane 1 ((Execution.run System.step ({} : System narrow) reusedSlots).polled.map
          fun record => (record.1, record.2.taskId)) = [1, 5, 9] :=
  ⟨sharded_loses_nothing narrow reusedSlots (by decide +kernel), by decide +kernel⟩

end System

end Ugdr.Gpu.DynamicSharded
