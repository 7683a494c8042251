import Mathlib.Data.List.Nodup
import Ugdr.Gpu.StaticPartitionInvariant

/-! # Runs of the static partition queue

Every step keeps the invariant, and from it follows what a run has done.
-/

namespace Ugdr.Gpu.StaticPartition

open Machine

namespace System

variable {shape : Shape} {system : System shape}

/-! ## How far a warp is -/

/-- The next index of a partition is a whole round away. -/
theorem add_le_of_lt {round left right : Nat} (same : left % round = right % round)
    (less : left < right) : left + round ≤ right := by
  by_contra near
  exact absurd (RingLog.eq_of_mod_eq (by omega) (by omega) same) (by omega)

theorem owner_eq_iff {warp : Fin shape.copyWarps} {index : Nat} :
    owner shape index = warp ↔ index % shape.copyWarps = warp :=
  Fin.ext_iff

namespace Fits

variable {warp : Fin shape.copyWarps} {state : Warp} (fits : system.Fits warp state)

include fits

theorem readTo_mod : state.readTo shape.copyWarps % shape.copyWarps = warp := by
  rw [← fits.residue]
  unfold Warp.readTo
  split <;> first | rfl | exact Nat.add_mul_mod_self_right ..

theorem readTo_lt : state.readTo shape.copyWarps <
    system.control.taskTail + shape.copyWarps := by
  obtain ⟨-, near, phase⟩ := fits
  obtain ⟨ownedIndex, next⟩ := state
  cases next with
  | loadTask taskCount tasks =>
      have fewer := Nat.mul_le_mul_right shape.copyWarps phase.1.le
      exact (Nat.add_le_add_left fewer ownedIndex).trans_lt phase.2.1
  | copy => exact phase.2.1
  | writeCompletion => exact phase.2.1
  | publish => exact phase.2.1
  | _ => exact near

theorem copiedTo_le : state.copiedTo shape.copyWarps ≤ state.readTo shape.copyWarps := by
  obtain ⟨-, -, phase⟩ := fits
  obtain ⟨ownedIndex, next⟩ := state
  cases next with
  | loadTask => exact Nat.le_add_right ..
  | copy =>
      exact Nat.add_le_add_left (Nat.mul_le_mul_right shape.copyWarps phase.1.le) ownedIndex
  | _ => exact Nat.le_refl _

theorem publishedTo_le : state.publishedTo shape.copyWarps ≤ state.copiedTo shape.copyWarps := by
  obtain ⟨-, -, phase⟩ := fits
  obtain ⟨ownedIndex, next⟩ := state
  cases next with
  | copy => exact Nat.le_add_right ..
  | writeCompletion =>
      exact Nat.add_le_add_left (Nat.mul_le_mul_right shape.copyWarps phase.1.le) ownedIndex
  | publish =>
      exact Nat.add_le_add_left (Nat.mul_le_mul_right shape.copyWarps phase.1.le) ownedIndex
  | _ => exact Nat.le_refl _

/-- What a warp has seen stays true as the host goes on. -/
theorem mono {later : System shape}
    (tail : system.control.taskTail ≤ later.control.taskTail)
    (stop : system.control.stopRequested ≠ 0 → later.control.stopRequested ≠ 0 ∧
      later.control.taskTail ≤ system.control.taskTail)
    (submitted : ∀ (index : Nat) task, system.submitted[index]? = some task →
      later.submitted[index]? = some task) : later.Fits warp state := by
  obtain ⟨residue, near, phase⟩ := fits
  refine ⟨residue, by omega, ?_⟩
  have loaded : ∀ {ownedIndex : Nat} {tasks : List CopyTask}, system.Loaded ownedIndex tasks →
      later.Loaded ownedIndex tasks := by
    intro ownedIndex tasks loaded lane task found
    exact submitted _ _ (loaded lane task found)
  obtain ⟨ownedIndex, next⟩ := state
  cases next with
  | loadFinalTail => exact (stop phase).1
  | loadTask => exact ⟨phase.1, phase.2.1.trans_le (Nat.add_le_add_right tail _), loaded phase.2.2⟩
  | copy => exact ⟨phase.1, phase.2.1.trans_le (Nat.add_le_add_right tail _), loaded phase.2.2⟩
  | writeCompletion =>
      exact ⟨phase.1, phase.2.1.trans_le (Nat.add_le_add_right tail _), loaded phase.2.2⟩
  | publish =>
      exact ⟨phase.1, phase.2.1.trans_le (Nat.add_le_add_right tail _), loaded phase.2.2⟩
  | stopped => exact ⟨(stop phase.1).1, (stop phase.1).2.trans phase.2⟩
  | _ => trivial

end Fits

namespace Invariant

variable (invariant : system.Invariant) {index : Nat}

include invariant

theorem copied_of_published (published : system.Published index) : system.Copied index :=
  Nat.lt_of_lt_of_le published (invariant.warps _).publishedTo_le

theorem read_of_copied (copied : system.Copied index) : system.Read index :=
  Nat.lt_of_lt_of_le copied (invariant.warps _).copiedTo_le

theorem lt_tail_of_read (read : system.Read index) : index < system.control.taskTail := by
  have fits := invariant.warps (owner shape index)
  have whole := add_le_of_lt fits.readTo_mod.symm read
  have near := fits.readTo_lt
  omega

theorem tail_le : system.control.taskTail ≤ system.submitted.length := by
  have host := invariant.host
  unfold HostFits at host
  split at host <;> omega

theorem lt_of_published (published : system.Published index) :
    index < system.control.taskTail :=
  invariant.lt_tail_of_read (invariant.read_of_copied (invariant.copied_of_published published))

theorem head_le : system.completionHead ≤ system.control.taskTail := by
  rcases Nat.eq_zero_or_pos system.completionHead with none | some
  · omega
  · have last := invariant.lt_of_published
      (invariant.released (system.completionHead - 1) (by omega))
    omega

/-- Tasks that are not polled have different slots. -/
theorem slot_ne {other : Nat} (inside : system.completionHead ≤ index)
    (below : index < system.control.taskTail) (otherInside : system.completionHead ≤ other)
    (otherBelow : other < system.control.taskTail) (different : index ≠ other) :
    index % shape.capacity ≠ other % shape.capacity := by
  have room := invariant.room
  have tail := invariant.tail_le
  exact fun same => different (RingLog.eq_of_mod_eq (by omega) (by omega) same)

theorem head_le_of_unpublished (unpublished : ¬system.Published index) :
    system.completionHead ≤ index := by
  by_contra below
  exact unpublished (invariant.released index (Nat.not_le.mp below))

end Invariant

/-! ## Steps of a warp -/

theorem published_update {later : System shape} {warp : Fin shape.copyWarps} {state : Warp}
    (warps : later.warps = Function.update system.warps warp state) (index : Nat) :
    later.Published index ↔
      if index % shape.copyWarps = warp then index < state.publishedTo shape.copyWarps
      else system.Published index := by
  unfold Published
  rw [warps, Function.update_apply]
  simp only [owner_eq_iff]
  split_ifs <;> rfl

theorem copied_update {later : System shape} {warp : Fin shape.copyWarps} {state : Warp}
    (warps : later.warps = Function.update system.warps warp state) (index : Nat) :
    later.Copied index ↔
      if index % shape.copyWarps = warp then index < state.copiedTo shape.copyWarps
      else system.Copied index := by
  unfold Copied
  rw [warps, Function.update_apply]
  simp only [owner_eq_iff]
  split_ifs <;> rfl

theorem published_iff {warp : Fin shape.copyWarps} {index : Nat}
    (owned : index % shape.copyWarps = warp) :
    system.Published index ↔ index < (system.warps warp).publishedTo shape.copyWarps := by
  unfold Published
  rw [owner_eq_iff.mpr owned]

theorem copied_iff {warp : Fin shape.copyWarps} {index : Nat}
    (owned : index % shape.copyWarps = warp) :
    system.Copied index ↔ index < (system.warps warp).copiedTo shape.copyWarps := by
  unfold Copied
  rw [owner_eq_iff.mpr owned]

/-- A step of one warp, apart from the completion slots and the ledger. -/
theorem Invariant.update (invariant : system.Invariant) {warp : Fin shape.copyWarps}
    {state : Warp} {completionSlots : Nat → CompletionSlot} {copied : List CopyRecord}
    (fits : system.Fits warp state)
    (published : (system.warps warp).publishedTo shape.copyWarps ≤
      state.publishedTo shape.copyWarps)
    (slots : CompletionSlots { system with
      completionSlots, copied, warps := Function.update system.warps warp state })
    (ledger : Ledger { system with
      completionSlots, copied, warps := Function.update system.warps warp state }) :
    Invariant { system with
      completionSlots, copied, warps := Function.update system.warps warp state } := by
  have later : ∀ index, system.Published index → Published { system with
      completionSlots, copied, warps := Function.update system.warps warp state } index := by
    intro index before
    rw [published_update rfl]
    split_ifs with owned
    · exact ((published_iff owned).mp before).trans_le published
    · exact before
  refine ⟨invariant.bounded, ?_, invariant.stopping, invariant.room, fun other => ?_,
    fun index below => later index (invariant.released index below), invariant.taskSlots, slots,
    ledger⟩
  · have host := invariant.host
    unfold HostFits at host ⊢
    dsimp only
    split at host
    all_goals simp_all only [and_self]
  · by_cases same : other = warp
    · subst same
      have here := @Function.update_self _ _ _ other state system.warps
      dsimp only
      rw [here]
      exact ⟨fits.residue, fits.near, fits.phase⟩
    · dsimp only
      rw [Function.update_of_ne same]
      have other := invariant.warps other
      exact ⟨other.residue, other.near, other.phase⟩

/-- The completion slots of a warp that publishes nothing. -/
theorem CompletionSlots.update (slots : system.CompletionSlots) {warp : Fin shape.copyWarps}
    {state : Warp} (copied : List CopyRecord)
    (published : state.publishedTo shape.copyWarps =
      (system.warps warp).publishedTo shape.copyWarps)
    (quiet : ∀ tasks lane, state.phase ≠ .publish tasks lane) :
    CompletionSlots { system with
      copied, warps := Function.update system.warps warp state } := by
  have same : ∀ index, Published { system with
      copied, warps := Function.update system.warps warp state } index ↔
        system.Published index := by
    intro index
    rw [published_update rfl]
    split_ifs with owned
    · rw [published_iff owned, published]
    · rfl
  refine ⟨fun other tasks lane publishing => ?_, fun index inside before => ?_,
    fun slot inside => ?_⟩
  · dsimp only at publishing ⊢
    by_cases here : other = warp
    · rw [here, Function.update_self] at publishing
      exact absurd publishing (quiet tasks lane)
    · rw [Function.update_of_ne here] at publishing ⊢
      exact slots.written other tasks lane publishing
  · exact slots.stored index inside ((same index).mp before)
  · simp only [same]
    exact slots.sequences slot inside

/-- The ledger of a warp that copies nothing. -/
theorem Ledger.update (ledger : system.Ledger) {warp : Fin shape.copyWarps} {state : Warp}
    (completionSlots : Nat → CompletionSlot)
    (copied : state.copiedTo shape.copyWarps = (system.warps warp).copiedTo shape.copyWarps) :
    Ledger { system with
      completionSlots, warps := Function.update system.warps warp state } := by
  have same : ∀ index, Copied { system with
      completionSlots, warps := Function.update system.warps warp state } index ↔
        system.Copied index := by
    intro index
    rw [copied_update rfl]
    split_ifs with owned
    · rw [copied_iff owned, copied]
    · rfl
  refine ⟨ledger.once, fun copy member => ?_, fun index before => ?_, ledger.polled⟩
  · rw [same]
    exact ledger.sound copy member
  · exact ledger.complete index ((same index).mp before)

/-- A warp looks at the shared words, or reads a task. -/
theorem Invariant.look (invariant : system.Invariant) {warp : Fin shape.copyWarps} {state : Warp}
    (fits : system.Fits warp state)
    (published : state.publishedTo shape.copyWarps =
      (system.warps warp).publishedTo shape.copyWarps)
    (copied : state.copiedTo shape.copyWarps = (system.warps warp).copiedTo shape.copyWarps)
    (quiet : ∀ tasks lane, state.phase ≠ .publish tasks lane) :
    Invariant { system with warps := Function.update system.warps warp state } :=
  invariant.update fits published.ge
    (invariant.completionSlots.update system.copied published quiet)
    (invariant.ledger.update system.completionSlots copied)

/-! ### Batches -/

/-- The index of a lane of a batch. -/
theorem laneTaskIndex_eq (invariant : system.Invariant) {ownedIndex count position : Nat}
    (inside : position < count)
    (near : ownedIndex + count * shape.copyWarps < system.control.taskTail + shape.copyWarps) :
    laneTaskIndex shape ownedIndex position = ownedIndex + position * shape.copyWarps ∧
      ownedIndex + position * shape.copyWarps < system.control.taskTail := by
  have next := Nat.mul_le_mul_right shape.copyWarps (Nat.succ_le_of_lt inside)
  have split := Nat.add_one_mul position shape.copyWarps
  have tail := invariant.tail_le
  have bounded := invariant.bounded
  rw [Nat.succ_eq_add_one] at next
  have below : ownedIndex + position * shape.copyWarps < system.control.taskTail := by omega
  exact ⟨wrapAdd_of_lt (by omega), below⟩

/-- A partition has nothing between an index and the next one. -/
theorem lt_add_iff {round left right : Nat} (positive : 0 < round)
    (same : left % round = right % round) :
    left < right + round ↔ left = right ∨ left < right := by
  constructor
  · intro near
    by_contra neither
    have whole := @add_le_of_lt round right left same.symm (by omega)
    omega
  · omega

/-- The task at a lane of a batch, once it is loaded. -/
theorem Fits.lane {warp : Fin shape.copyWarps} {state : Warp} (fits : system.Fits warp state)
    (lane : Nat) : (state.ownedIndex + lane * shape.copyWarps) % shape.copyWarps = warp := by
  rw [Nat.add_mul_mod_self_right]
  exact fits.residue

theorem Invariant.copy (invariant : system.Invariant) {warp : Fin shape.copyWarps}
    {tasks : List CopyTask} {batchIndex : Nat} {task : CopyTask}
    (copying : (system.warps warp).phase = .copy tasks batchIndex)
    (found : tasks[batchIndex]? = some task) :
    Invariant (move
      { system with
        copied := system.copied ++
          [⟨warp, (system.warps warp).ownedIndex + batchIndex * shape.copyWarps, task⟩] }
      warp (if batchIndex + 1 < tasks.length then .copy tasks (batchIndex + 1)
        else .writeCompletion tasks 0)) := by
  have fits := invariant.warps warp
  have phase := fits.phase
  rw [copying] at phase
  obtain ⟨inside, near, loaded⟩ := phase
  have residue := fits.lane batchIndex
  have before : (system.warps warp).copiedTo shape.copyWarps =
      (system.warps warp).ownedIndex + batchIndex * shape.copyWarps := by
    rw [Warp.copiedTo, copying]
  have published : (system.warps warp).publishedTo shape.copyWarps =
      (system.warps warp).ownedIndex := by
    rw [Warp.publishedTo, copying]
  have after : ∃ next, (if batchIndex + 1 < tasks.length then .copy tasks (batchIndex + 1)
      else .writeCompletion tasks 0) = next ∧
      system.Fits warp { system.warps warp with phase := next } ∧
      Warp.copiedTo shape.copyWarps { system.warps warp with phase := next } =
        (system.warps warp).ownedIndex + batchIndex * shape.copyWarps + shape.copyWarps ∧
      Warp.publishedTo shape.copyWarps { system.warps warp with phase := next } =
        (system.warps warp).ownedIndex ∧
      ∀ tasks lane, next ≠ .publish tasks lane := by
    refine ⟨_, rfl, ?_⟩
    split_ifs with more
    · refine ⟨⟨fits.residue, fits.near, more, near, loaded⟩, ?_, rfl, by rintro _ _ ⟨⟩⟩
      rw [Nat.add_assoc, ← Nat.add_one_mul]
      rfl
    · have all : tasks.length = batchIndex + 1 := by omega
      refine ⟨⟨fits.residue, fits.near, Nat.zero_lt_of_lt inside, near, loaded⟩, ?_, ?_,
        by rintro _ _ ⟨⟩⟩
      · rw [Nat.add_assoc, ← Nat.add_one_mul, ← all]
        rfl
      · exact congrArg (_ + ·) (Nat.zero_mul _)
  obtain ⟨next, chosen, fitsNext, copiedNext, publishedNext, quiet⟩ := after
  rw [chosen]
  refine invariant.update fitsNext (by rw [published, publishedNext])
    (invariant.completionSlots.update _ (publishedNext.trans published.symm) quiet) ?_
  have later : ∀ index, Copied (move
      { system with
        copied := system.copied ++
          [⟨warp, (system.warps warp).ownedIndex + batchIndex * shape.copyWarps, task⟩] }
      warp next) index ↔
        index = (system.warps warp).ownedIndex + batchIndex * shape.copyWarps ∨
          system.Copied index := by
    intro index
    rw [copied_update rfl, copiedNext]
    split_ifs with owned
    · rw [lt_add_iff shape.warps_pos (owned.trans residue.symm), copied_iff owned, before]
    · refine (or_iff_right ?_).symm
      rintro rfl
      exact owned residue
  have fresh : ¬system.Copied
      ((system.warps warp).ownedIndex + batchIndex * shape.copyWarps) := by
    rw [copied_iff residue, before]
    exact Nat.lt_irrefl _
  refine ⟨?_, fun copy member => ?_, fun index copied => ?_, invariant.ledger.polled⟩
  · rw [List.map_append, List.map_singleton, ← List.concat_eq_append]
    refine List.Nodup.concat (fun member => ?_) invariant.ledger.once
    obtain ⟨copy, copied, same⟩ := List.mem_map.mp member
    have done := (invariant.ledger.sound copy copied).2.2
    rw [same] at done
    exact fresh done
  · rcases List.mem_append.mp member with old | new
    · obtain ⟨owned, submitted, copied⟩ := invariant.ledger.sound copy old
      exact ⟨owned, submitted, (later _).mpr (.inr copied)⟩
    · rw [List.mem_singleton.mp new]
      exact ⟨residue.symm, loaded batchIndex task found, (later _).mpr (.inl rfl)⟩
  · rw [List.map_append, List.mem_append]
    rcases (later index).mp copied with rfl | copied
    · exact .inr (List.mem_singleton_self _)
    · exact .inl (invariant.ledger.complete index copied)

/-- A warp is to answer the task at a lane of its batch. -/
structure AtLane (system : System shape) (warp : Fin shape.copyWarps) (tasks : List CopyTask)
    (lane : Nat) : Prop where
  inside : lane < tasks.length
  near : (system.warps warp).ownedIndex + tasks.length * shape.copyWarps <
    system.control.taskTail + shape.copyWarps
  loaded : system.Loaded (system.warps warp).ownedIndex tasks
  published : (system.warps warp).publishedTo shape.copyWarps =
    (system.warps warp).ownedIndex + lane * shape.copyWarps
  copied : (system.warps warp).copiedTo shape.copyWarps =
    (system.warps warp).ownedIndex + tasks.length * shape.copyWarps

theorem Invariant.atLane (invariant : system.Invariant) {warp : Fin shape.copyWarps}
    {tasks : List CopyTask} {lane : Nat}
    (phase : (system.warps warp).phase = .writeCompletion tasks lane ∨
      (system.warps warp).phase = .publish tasks lane) : system.AtLane warp tasks lane := by
  have known := (invariant.warps warp).phase
  rcases phase with writing | publishing
  · rw [writing] at known
    refine ⟨known.1, known.2.1, known.2.2, ?_, ?_⟩
    · rw [Warp.publishedTo, writing]
    · rw [Warp.copiedTo, writing]
  · rw [publishing] at known
    refine ⟨known.1, known.2.1, known.2.2, ?_, ?_⟩
    · rw [Warp.publishedTo, publishing]
    · rw [Warp.copiedTo, publishing]

namespace AtLane

variable {warp : Fin shape.copyWarps} {tasks : List CopyTask} {lane : Nat}
  (atLane : system.AtLane warp tasks lane) (invariant : system.Invariant)

include atLane invariant

theorem below : (system.warps warp).ownedIndex + lane * shape.copyWarps <
    system.control.taskTail :=
  (laneTaskIndex_eq invariant atLane.inside atLane.near).2

theorem unpublished :
    ¬system.Published ((system.warps warp).ownedIndex + lane * shape.copyWarps) := by
  rw [published_iff ((invariant.warps warp).lane lane), atLane.published]
  exact Nat.lt_irrefl _

/-- The slot does not show any other completion that is waiting. -/
theorem slot_ne {index : Nat} (inside : system.completionHead ≤ index)
    (below : index < system.control.taskTail)
    (different : index ≠ (system.warps warp).ownedIndex + lane * shape.copyWarps) :
    index % shape.capacity ≠
      ((system.warps warp).ownedIndex + lane * shape.copyWarps) % shape.capacity :=
  invariant.slot_ne inside below
    (invariant.head_le_of_unpublished (atLane.unpublished invariant)) (atLane.below invariant)
    different

theorem slot_ne_published {index : Nat} (inside : system.completionHead ≤ index)
    (published : system.Published index) :
    index % shape.capacity ≠
      ((system.warps warp).ownedIndex + lane * shape.copyWarps) % shape.capacity := by
  apply atLane.slot_ne invariant inside (invariant.lt_of_published published)
  rintro rfl
  exact atLane.unpublished invariant published

theorem slot_ne_publishing {other : Fin shape.copyWarps} {others : List CopyTask}
    {position : Nat} (publishing : (system.warps other).phase = .publish others position)
    (different : other ≠ warp) :
    (system.warps other).publishedTo shape.copyWarps % shape.capacity ≠
      ((system.warps warp).ownedIndex + lane * shape.copyWarps) % shape.capacity := by
  have atOther := invariant.atLane (.inr publishing)
  rw [atOther.published]
  apply atLane.slot_ne invariant
    (invariant.head_le_of_unpublished (atOther.unpublished invariant)) (atOther.below invariant)
  intro same
  have residue := (invariant.warps other).lane position
  rw [same, (invariant.warps warp).lane lane] at residue
  exact different (Fin.ext residue.symm)

omit invariant in
/-- The task whose completion is written. -/
theorem task_eq {task other : CopyTask} (found : tasks[lane]? = some task)
    (submitted : system.submitted[(system.warps warp).ownedIndex + lane * shape.copyWarps]? =
      some other) : other = task := by
  rw [atLane.loaded lane task found] at submitted
  exact (Option.some_inj.mp submitted).symm

end AtLane

theorem Invariant.writeCompletion (invariant : system.Invariant) {warp : Fin shape.copyWarps}
    {tasks : List CopyTask} {lane : Nat} {task : CopyTask}
    (writing : (system.warps warp).phase = .writeCompletion tasks lane)
    (found : tasks[lane]? = some task) {slot : Nat}
    (slot_eq : slot = ((system.warps warp).ownedIndex + lane * shape.copyWarps) %
      shape.capacity) :
    Invariant (move
      { system with
        completionSlots := Function.update system.completionSlots slot
          { system.completionSlots slot with completion := ⟨task.taskId, .success⟩ } }
      warp (.publish tasks lane)) := by
  have atLane := invariant.atLane (.inl writing)
  have fits := invariant.warps warp
  have fitsNext : system.Fits warp { system.warps warp with phase := .publish tasks lane } :=
    ⟨fits.residue, fits.near, atLane.inside, atLane.near, atLane.loaded⟩
  have samePublished : ∀ index, Published { system with
      completionSlots := Function.update system.completionSlots slot
        { system.completionSlots slot with completion := ⟨task.taskId, .success⟩ }
      warps := Function.update system.warps warp
        { system.warps warp with phase := .publish tasks lane } } index ↔
        system.Published index := by
    intro index
    rw [published_update rfl]
    split_ifs with owned
    · rw [published_iff owned, atLane.published]
      rfl
    · rfl
  refine invariant.update fitsNext atLane.published.le ?_
    (invariant.ledger.update _ atLane.copied.symm)
  refine ⟨fun other others position publishing => ?_, fun index inside published => ?_,
    fun index inside => ?_⟩
  · dsimp only at publishing ⊢
    unfold Shows
    dsimp only
    by_cases here : other = warp
    · subst here
      rw [Function.update_self]
      intro other submitted
      have target : Warp.publishedTo shape.copyWarps
          { system.warps _ with phase := .publish tasks lane } % shape.capacity = slot :=
        slot_eq.symm
      rw [target, Function.update_self, atLane.task_eq found submitted]
      rfl
    · rw [Function.update_of_ne here] at publishing ⊢
      have apart := atLane.slot_ne_publishing invariant publishing here
      rw [← slot_eq] at apart
      rw [Function.update_of_ne apart]
      exact invariant.completionSlots.written other others position publishing
  · have before := (samePublished index).mp published
    have apart := atLane.slot_ne_published invariant inside before
    rw [← slot_eq] at apart
    unfold Shows
    dsimp only
    rw [Function.update_of_ne apart]
    exact invariant.completionSlots.stored index inside before
  · have sequence : ∀ other, (Function.update system.completionSlots slot
        { system.completionSlots slot with completion := ⟨task.taskId, .success⟩ }
          other).sequence = (system.completionSlots other).sequence := by
      intro other
      rw [Function.update_apply]
      split_ifs with same
      · rw [same]
      · rfl
    dsimp only
    rw [sequence]
    simp only [samePublished]
    exact invariant.completionSlots.sequences index inside

theorem Invariant.publish (invariant : system.Invariant) {warp : Fin shape.copyWarps}
    {tasks : List CopyTask} {lane slot index : Nat} {state : Warp}
    (publishing : (system.warps warp).phase = .publish tasks lane)
    (index_eq : (system.warps warp).ownedIndex + lane * shape.copyWarps = index)
    (slot_eq : slot = index % shape.capacity) (fits : system.Fits warp state)
    (published : state.publishedTo shape.copyWarps = index + shape.copyWarps)
    (copied : state.copiedTo shape.copyWarps =
      (system.warps warp).ownedIndex + tasks.length * shape.copyWarps)
    (quiet : ∀ tasks lane, state.phase ≠ .publish tasks lane) :
    Invariant { system with
      completionSlots := Function.update system.completionSlots slot
        { system.completionSlots slot with sequence := index + 1 }
      warps := Function.update system.warps warp state } := by
  have atLane := invariant.atLane (.inr publishing)
  have later : ∀ other, Published { system with
      completionSlots := Function.update system.completionSlots slot
        { system.completionSlots slot with sequence := index + 1 }
      warps := Function.update system.warps warp state } other ↔
        other = index ∨ system.Published other := by
    have residue := (invariant.warps warp).lane lane
    have before := atLane.published
    rw [index_eq] at residue before
    intro other
    rw [published_update rfl, published]
    split_ifs with owned
    · rw [lt_add_iff shape.warps_pos (owned.trans residue.symm), published_iff owned, before]
    · refine (or_iff_right ?_).symm
      rintro rfl
      exact owned residue
  have completion : ∀ other, (Function.update system.completionSlots slot
      { system.completionSlots slot with sequence := index + 1 } other).completion =
        (system.completionSlots other).completion := by
    intro other
    rw [Function.update_apply]
    split_ifs with same
    · rw [same]
    · rfl
  refine invariant.update fits (by rw [atLane.published, published, index_eq]; omega) ?_
    (invariant.ledger.update _ (copied.trans atLane.copied.symm))
  refine ⟨fun other others position publishes => ?_, fun other inside before => ?_,
    fun other inside => ?_⟩
  · dsimp only at publishes ⊢
    unfold Shows
    dsimp only
    by_cases here : other = warp
    · rw [here, Function.update_self] at publishes
      exact absurd publishes (quiet others position)
    · rw [Function.update_of_ne here] at publishes ⊢
      simp only [completion]
      exact invariant.completionSlots.written other others position publishes
  · unfold Shows
    dsimp only
    simp only [completion]
    rcases (later other).mp before with rfl | old
    · have shown := invariant.completionSlots.written warp tasks lane publishing
      rw [atLane.published, index_eq] at shown
      rw [← slot_eq, Function.update_self]
      exact ⟨rfl, slot_eq ▸ shown⟩
    · have apart := atLane.slot_ne_published invariant inside old
      rw [index_eq, ← slot_eq] at apart
      rw [Function.update_of_ne apart]
      exact invariant.completionSlots.stored other inside old
  · dsimp only
    simp only [later]
    by_cases same : other = slot
    · rw [same, Function.update_self]
      exact .inr ⟨index, .inl rfl, slot_eq.symm, rfl⟩
    · rw [Function.update_of_ne same]
      rcases invariant.completionSlots.sequences other inside with zero | ⟨found, old, rest⟩
      · exact .inl zero
      · exact .inr ⟨found, .inr old, rest⟩

/-! ### Every step of a warp -/

/-- A warp that has nothing in flight moves to another phase without any. -/
theorem Invariant.moveIdle (invariant : system.Invariant) {warp : Fin shape.copyWarps}
    {next : Phase} (fits : system.Fits warp { system.warps warp with phase := next })
    (before : (system.warps warp).publishedTo shape.copyWarps = (system.warps warp).ownedIndex ∧
      (system.warps warp).copiedTo shape.copyWarps = (system.warps warp).ownedIndex)
    (after : Warp.publishedTo shape.copyWarps { system.warps warp with phase := next } =
        (system.warps warp).ownedIndex ∧
      Warp.copiedTo shape.copyWarps { system.warps warp with phase := next } =
        (system.warps warp).ownedIndex)
    (quiet : ∀ tasks lane, next ≠ .publish tasks lane) : Invariant (system.move warp next) :=
  invariant.look fits (after.1.trans before.1.symm) (after.2.trans before.2.symm) quiet

/-- A warp starts a batch. -/
theorem Invariant.start (invariant : system.Invariant) {warp : Fin shape.copyWarps}
    (before : (system.warps warp).publishedTo shape.copyWarps = (system.warps warp).ownedIndex ∧
      (system.warps warp).copiedTo shape.copyWarps = (system.warps warp).ownedIndex)
    (some_ : (system.warps warp).ownedIndex < system.control.taskTail) :
    Invariant (system.move warp
      (.loadTask (taskCount shape (system.warps warp).ownedIndex system.control.taskTail) [])) := by
  have fits := invariant.warps warp
  have tail := invariant.tail_le
  have bounded := invariant.bounded
  have positive := shape.warps_pos
  obtain ⟨count, near⟩ := @taskCount_spec shape _ _ some_ (by omega)
  refine invariant.moveIdle ⟨fits.residue, fits.near, count, near, ?_⟩ before ?_ (by rintro _ _ ⟨⟩)
  · intro lane task found
    exact absurd found (by rw [List.getElem?_nil]; exact Option.some_ne_none task ∘ Eq.symm)
  · exact ⟨rfl, rfl⟩

/-- The task in the slot of an index that is not read yet. -/
theorem Invariant.load (invariant : system.Invariant) {index : Nat}
    (below : index < system.control.taskTail) (unread : ¬system.Read index) :
    system.submitted[index]? = some (system.taskSlots (index % shape.capacity)) := by
  have tail := invariant.tail_le
  have room := invariant.room
  have unpublished : ¬system.Published index := fun published =>
    unread (invariant.read_of_copied (invariant.copied_of_published published))
  have inside := invariant.head_le_of_unpublished unpublished
  have submitted : index < system.submitted.length := by omega
  have found : system.submitted[index]? = some system.submitted[index] :=
    List.getElem?_eq_getElem _
  rw [found, invariant.taskSlots index _ found (by omega)]

theorem Invariant.loadTask (invariant : system.Invariant) {warp : Fin shape.copyWarps}
    {taskCount : Nat} {tasks : List CopyTask} {task : CopyTask}
    (loading : (system.warps warp).phase = .loadTask taskCount tasks)
    (read : system.taskSlots (slot shape
      (laneTaskIndex shape (system.warps warp).ownedIndex tasks.length)) = task) :
    Invariant (system.move warp
      (if (tasks ++ [task]).length < taskCount then .loadTask taskCount (tasks ++ [task])
        else .copy (tasks ++ [task]) 0)) := by
  have fits := invariant.warps warp
  have phase := fits.phase
  rw [loading] at phase
  obtain ⟨inside, near, loaded⟩ := phase
  obtain ⟨index, below⟩ := laneTaskIndex_eq invariant inside near
  have unread : ¬system.Read
      ((system.warps warp).ownedIndex + tasks.length * shape.copyWarps) := by
    unfold Read
    rw [owner_eq_iff.mpr (fits.lane tasks.length), Warp.readTo, loading]
    exact Nat.lt_irrefl _
  have found := invariant.load below unread
  rw [slot_eq, index] at read
  rw [read] at found
  have later : system.Loaded (system.warps warp).ownedIndex (tasks ++ [task]) := by
    intro lane other member
    by_cases last : lane = tasks.length
    · rw [last, List.getElem?_concat_length] at member
      rw [last, ← Option.some_inj.mp member]
      exact found
    · have bound := (List.getElem?_eq_some_iff.mp member).1
      rw [List.length_append, List.length_singleton] at bound
      rw [List.getElem?_append_left (by omega)] at member
      exact loaded lane other member
  have before : (system.warps warp).publishedTo shape.copyWarps =
      (system.warps warp).ownedIndex ∧
        (system.warps warp).copiedTo shape.copyWarps = (system.warps warp).ownedIndex := by
    constructor
    · rw [Warp.publishedTo, loading]
    · rw [Warp.copiedTo, loading]
  split_ifs with more
  · exact invariant.moveIdle ⟨fits.residue, fits.near, more, near, later⟩ before ⟨rfl, rfl⟩
      (by rintro _ _ ⟨⟩)
  · have all : (tasks ++ [task]).length = taskCount := by
      rw [List.length_append, List.length_singleton] at more ⊢
      omega
    refine invariant.moveIdle ⟨fits.residue, fits.near, ?_, ?_, later⟩ before ⟨rfl, ?_⟩
      (by rintro _ _ ⟨⟩)
    · omega
    · rw [all]
      exact near
    · exact congrArg (_ + ·) (Nat.zero_mul _)

theorem Invariant.warpStep (invariant : system.Invariant) (warp : Fin shape.copyWarps) :
    (system.warpStep warp).Invariant := by
  have fits := invariant.warps warp
  have known := fits.phase
  have tail := invariant.tail_le
  have bounded := invariant.bounded
  have positive := shape.warps_pos
  unfold System.warpStep
  dsimp only
  cases phase : (system.warps warp).phase with
  | loadTail =>
      have before : (system.warps warp).publishedTo shape.copyWarps =
          (system.warps warp).ownedIndex ∧
            (system.warps warp).copiedTo shape.copyWarps = (system.warps warp).ownedIndex := by
        constructor
        · rw [Warp.publishedTo, phase]
        · rw [Warp.copiedTo, phase]
      dsimp only
      split_ifs with none
      · exact invariant.moveIdle ⟨fits.residue, fits.near, trivial⟩ before ⟨rfl, rfl⟩
          (by rintro _ _ ⟨⟩)
      · exact invariant.start before (Nat.not_le.mp none)
  | loadStop =>
      have before : (system.warps warp).publishedTo shape.copyWarps =
          (system.warps warp).ownedIndex ∧
            (system.warps warp).copiedTo shape.copyWarps = (system.warps warp).ownedIndex := by
        constructor
        · rw [Warp.publishedTo, phase]
        · rw [Warp.copiedTo, phase]
      dsimp only
      split_ifs with stop
      · exact invariant.moveIdle ⟨fits.residue, fits.near, stop⟩ before ⟨rfl, rfl⟩
          (by rintro _ _ ⟨⟩)
      · exact invariant.moveIdle ⟨fits.residue, fits.near, trivial⟩ before ⟨rfl, rfl⟩
          (by rintro _ _ ⟨⟩)
  | loadFinalTail =>
      rw [phase] at known
      have before : (system.warps warp).publishedTo shape.copyWarps =
          (system.warps warp).ownedIndex ∧
            (system.warps warp).copiedTo shape.copyWarps = (system.warps warp).ownedIndex := by
        constructor
        · rw [Warp.publishedTo, phase]
        · rw [Warp.copiedTo, phase]
      dsimp only
      split_ifs with none
      · exact invariant.moveIdle ⟨fits.residue, fits.near, known, none⟩ before ⟨rfl, rfl⟩
          (by rintro _ _ ⟨⟩)
      · exact invariant.start before (Nat.not_le.mp none)
  | loadTask taskCount tasks => exact invariant.loadTask phase rfl
  | copy tasks batchIndex =>
      rw [phase] at known
      dsimp only
      cases found : tasks[batchIndex]? with
      | none => exact invariant
      | some task =>
          dsimp only
          rw [(laneTaskIndex_eq invariant known.1 known.2.1).1]
          exact invariant.copy phase found
  | writeCompletion tasks lane =>
      rw [phase] at known
      dsimp only
      cases found : tasks[lane]? with
      | none => exact invariant
      | some task =>
          dsimp only
          rw [(laneTaskIndex_eq invariant known.1 known.2.1).1]
          exact invariant.writeCompletion phase found (slot_eq shape _)
  | publish tasks lane =>
      rw [phase] at known
      obtain ⟨inside, near, loaded⟩ := known
      obtain ⟨index, below⟩ := laneTaskIndex_eq invariant inside near
      have sequence : wrapAdd 64
          ((system.warps warp).ownedIndex + lane * shape.copyWarps) 1 =
            (system.warps warp).ownedIndex + lane * shape.copyWarps + 1 :=
        wrapAdd_of_lt (by omega)
      have following : (system.warps warp).ownedIndex + (lane + 1) * shape.copyWarps =
          (system.warps warp).ownedIndex + lane * shape.copyWarps + shape.copyWarps := by
        rw [Nat.add_one_mul, Nat.add_assoc]
      dsimp only
      rw [index, sequence]
      split_ifs with more
      · refine invariant.publish phase rfl (slot_eq shape _)
          ⟨fits.residue, fits.near, more, near, loaded⟩ ?_ rfl (by rintro _ _ ⟨⟩)
        exact following
      · have all : tasks.length = lane + 1 := by omega
        have next : wrapAdd 64 (system.warps warp).ownedIndex (tasks.length * shape.copyWarps) =
            (system.warps warp).ownedIndex + tasks.length * shape.copyWarps :=
          wrapAdd_of_lt (by omega)
        rw [next]
        refine invariant.publish phase rfl (slot_eq shape _)
          ⟨fits.lane tasks.length, near, trivial⟩ ?_ rfl (by rintro _ _ ⟨⟩)
        rw [all]
        exact following
  | stopped => exact invariant

/-! ## Steps of the host -/

/-- The host changes nothing but its own fields. -/
theorem Invariant.private_ (invariant : system.Invariant) {host : Host} {accepting : Bool}
    {status : Status} {submittedCount : Nat}
    (fits : HostFits { system with host, accepting, status, submittedCount })
    (stopping : system.control.stopRequested ≠ 0 → accepting = false) :
    Invariant { system with host, accepting, status, submittedCount } where
  bounded := invariant.bounded
  host := fits
  stopping := stopping
  room := invariant.room
  warps := fun warp =>
    ⟨(invariant.warps warp).residue, (invariant.warps warp).near, (invariant.warps warp).phase⟩
  released := invariant.released
  taskSlots := invariant.taskSlots
  completionSlots :=
    { written := invariant.completionSlots.written
      stored := invariant.completionSlots.stored
      sequences := invariant.completionSlots.sequences }
  ledger :=
    { once := invariant.ledger.once
      sound := invariant.ledger.sound
      complete := invariant.ledger.complete
      polled := invariant.ledger.polled }

theorem Invariant.idle (invariant : system.Invariant) (idle : system.host = .idle) :
    system.submitTail = system.submitted.length ∧
      system.control.taskTail = system.submitted.length := by
  have host := invariant.host
  unfold HostFits at host
  rw [idle] at host
  exact host

theorem Invariant.trySubmitBatch (invariant : system.Invariant) (idle : system.host = .idle)
    (tasks : List CopyTask) : (system.trySubmitBatch tasks).Invariant := by
  obtain ⟨submitTail, taskTail⟩ := invariant.idle idle
  have bounded := invariant.bounded
  have head := invariant.head_le
  have room := invariant.room
  have positive := shape.warps_pos
  have quiet : ∀ status submittedCount,
      Invariant { system with status := status, submittedCount := submittedCount } := by
    intro status submittedCount
    refine invariant.private_ ?_ invariant.stopping
    unfold HostFits
    dsimp only
    rw [idle]
    exact ⟨submitTail, taskTail⟩
  have outstanding : wrapSub 64 system.submitTail system.completionHead =
      system.submitted.length - system.completionHead := by
    rw [submitTail, wrapSub_of_le (by omega) (by omega)]
  unfold System.trySubmitBatch
  dsimp only
  split_ifs with refused full few invalid invalid
  · exact quiet _ _
  · exact quiet _ _
  · exact quiet _ _
  · rw [not_or, Bool.not_eq_false] at refused
    rw [outstanding] at full few
    refine invariant.private_ ⟨refused.1, ?_, by rw [submitTail]; rfl, ?_, ?_⟩ invariant.stopping
    · rw [List.take_length]
      exact List.length_pos_iff.mpr refused.2
    · dsimp only
      rw [List.take_length]
      omega
    · exact taskTail.trans submitTail.symm
  · exact quiet _ _
  · rw [not_or, Bool.not_eq_false] at refused
    rw [outstanding] at full few ⊢
    refine invariant.private_ ⟨refused.1, ?_, by rw [submitTail]; rfl, ?_, ?_⟩ invariant.stopping
    · rw [List.length_take]
      omega
    · dsimp only
      rw [List.length_take]
      omega
    · exact taskTail.trans submitTail.symm

theorem Invariant.call (invariant : system.Invariant) (call : Call) :
    (system.call call).Invariant := by
  unfold System.call
  by_cases busy : system.host ≠ .idle
  · rw [if_pos busy]
    exact invariant
  · rw [if_neg busy]
    have idle := not_not.mp busy
    obtain ⟨submitTail, taskTail⟩ := invariant.idle idle
    cases call with
    | trySubmitBatch tasks => exact invariant.trySubmitBatch idle tasks
    | tryPoll => exact invariant.private_ ⟨submitTail, taskTail⟩ invariant.stopping
    | requestStop =>
        dsimp only
        split_ifs with stopped
        · refine invariant.private_ ?_ invariant.stopping
          unfold HostFits
          dsimp only
          rw [idle]
          exact ⟨submitTail, taskTail⟩
        · exact invariant.private_ ⟨rfl, submitTail, taskTail⟩ fun _ => rfl

/-- What has been submitted stays. -/
theorem getElem?_append {index : Nat} {task : CopyTask}
    (found : system.submitted[index]? = some task) (more : List CopyTask) :
    (system.submitted ++ more)[index]? = some task := by
  rw [List.getElem?_append_left (List.getElem?_eq_some_iff.mp found).1]
  exact found

theorem Invariant.writeTask (invariant : system.Invariant) {task : CopyTask}
    (room : system.submitted.length < system.completionHead + shape.capacity)
    (bounded : system.submitted.length + 1 + shape.copyWarps ≤ 2 ^ 64) {host : Host}
    {submitTail : Nat}
    (fits : HostFits { system with
      taskSlots := Function.update system.taskSlots
        (system.submitted.length % shape.capacity) task
      submitted := system.submitted ++ [task]
      host, submitTail }) :
    Invariant { system with
      taskSlots := Function.update system.taskSlots
        (system.submitted.length % shape.capacity) task
      submitted := system.submitted ++ [task]
      host, submitTail } := by
  have tail := invariant.tail_le
  have head := invariant.head_le
  have shown : ∀ index, index < system.control.taskTail → system.Shows index →
      ∀ other, (system.submitted ++ [task])[index]? = some other →
        (system.completionSlots (index % shape.capacity)).completion = completionOf other := by
    intro index below shown other found
    rw [List.getElem?_append_left (by omega)] at found
    exact shown other found
  refine ⟨?_, fits, invariant.stopping, ?_, fun warp => ?_, invariant.released,
    invariant.taskSlots.push task, ⟨fun warp others lane publishing => ?_,
      fun other inside published => ?_, invariant.completionSlots.sequences⟩,
    ⟨invariant.ledger.once, fun copy member => ?_, invariant.ledger.complete, ?_⟩⟩
  · rw [List.length_append, List.length_singleton]
    exact bounded
  · rw [List.length_append, List.length_singleton]
    exact room
  · exact (invariant.warps warp).mono (Nat.le_refl _) (fun stop => ⟨stop, Nat.le_refl _⟩)
      fun index other found => getElem?_append found [task]
  · have atLane := invariant.atLane (.inr publishing)
    have below := atLane.below invariant
    rw [← atLane.published] at below
    exact shown _ below (invariant.completionSlots.written warp others lane publishing)
  · obtain ⟨sequence, shows_⟩ := invariant.completionSlots.stored other inside published
    exact ⟨sequence, shown other (invariant.lt_of_published published) shows_⟩
  · obtain ⟨owned, submitted, copied⟩ := invariant.ledger.sound copy member
    exact ⟨owned, getElem?_append submitted [task], copied⟩
  · dsimp only
    rw [List.take_append_of_le_length (by omega)]
    exact invariant.ledger.polled

/-- The host stores a shared word that the warps look at. -/
theorem Invariant.store (invariant : system.Invariant) {control : Control} {submittedCount : Nat}
    (submitTail : system.submitTail = system.submitted.length)
    (taskTail : control.taskTail = system.submitted.length)
    (stopping : control.stopRequested ≠ 0 → system.accepting = false)
    (stop : system.control.stopRequested ≠ 0 → control.stopRequested ≠ 0 ∧
      control.taskTail ≤ system.control.taskTail) :
    Invariant { system with control, submittedCount, status := none, host := .idle } where
  bounded := invariant.bounded
  host := ⟨submitTail, taskTail⟩
  stopping := stopping
  room := invariant.room
  warps := fun warp => (invariant.warps warp).mono (taskTail ▸ invariant.tail_le) stop
    fun _ _ found => found
  released := invariant.released
  taskSlots := invariant.taskSlots
  completionSlots :=
    { written := invariant.completionSlots.written
      stored := invariant.completionSlots.stored
      sequences := invariant.completionSlots.sequences }
  ledger :=
    { once := invariant.ledger.once
      sound := invariant.ledger.sound
      complete := invariant.ledger.complete
      polled := invariant.ledger.polled }

/-- The sequence that `try_poll` waits for is that of the next task. -/
theorem Invariant.published_of_sequence (invariant : system.Invariant)
    (sequence : (system.completionSlots (system.completionHead % shape.capacity)).sequence =
      system.completionHead + 1) : system.Published system.completionHead := by
  have inside := Nat.mod_lt system.completionHead shape.capacity_pos
  rcases invariant.completionSlots.sequences _ inside with zero | ⟨index, published, -, stored⟩
  · rw [zero] at sequence
    exact absurd sequence.symm (Nat.succ_ne_zero _)
  · have same : index = system.completionHead := by omega
    exact same ▸ published

theorem Invariant.readCompletion (invariant : system.Invariant)
    (reading : system.host = .readCompletion) :
    Invariant { system with
      polled := system.polled ++
        [(system.completionSlots (system.completionHead % shape.capacity)).completion]
      completionHead := system.completionHead + 1
      status := none
      host := .idle } := by
  have host := invariant.host
  unfold HostFits at host
  rw [reading] at host
  obtain ⟨submitTail, taskTail, published⟩ := host
  have below := invariant.lt_of_published published
  have room := invariant.room
  have shown := (invariant.completionSlots.stored _ (Nat.le_refl _) published).2
  have submitted : system.completionHead < system.submitted.length := by omega
  have found : system.submitted[system.completionHead]? =
      some system.submitted[system.completionHead] := List.getElem?_eq_getElem _
  refine ⟨invariant.bounded, ⟨submitTail, taskTail⟩, invariant.stopping, ?_, fun warp => ?_,
    fun index less => ?_, invariant.taskSlots, ⟨invariant.completionSlots.written,
      fun index inside => ?_, invariant.completionSlots.sequences⟩,
    ⟨invariant.ledger.once, invariant.ledger.sound, invariant.ledger.complete, ?_⟩⟩
  · dsimp only
    omega
  · exact ⟨(invariant.warps warp).residue, (invariant.warps warp).near,
      (invariant.warps warp).phase⟩
  · rcases Nat.lt_succ_iff_lt_or_eq.mp less with before | rfl
    · exact invariant.released index before
    · exact published
  · exact invariant.completionSlots.stored index (Nat.le_of_succ_le inside)
  · dsimp only
    rw [List.take_add_one, found, Option.toList_some, List.map_append, List.map_singleton,
      shown _ found, invariant.ledger.polled]

theorem Invariant.hostStep (invariant : system.Invariant)
    (bounded : system.hostStep.submitted.length + shape.copyWarps ≤ 2 ^ 64) :
    system.hostStep.Invariant := by
  have host := invariant.host
  have head := invariant.head_le
  have tail := invariant.tail_le
  have now := invariant.bounded
  have warps := shape.warps_cases
  have room := invariant.room
  unfold HostFits at host
  unfold System.hostStep at bounded ⊢
  cases phase : system.host with
  | idle => exact invariant
  | writeTask tasks index =>
      rw [phase] at host
      obtain ⟨accepting, inside, length, more, taskTail⟩ := host
      have found : tasks[index]? = some tasks[index] := List.getElem?_eq_getElem _
      rw [phase] at bounded
      simp only [found] at bounded ⊢
      have target : slot shape (wrapAdd 64 system.submitTail index) =
          system.submitted.length % shape.capacity := by
        rw [slot_eq, wrapAdd_of_lt (by omega), length]
      rw [target] at bounded ⊢
      split_ifs at bounded ⊢ with rest
      · dsimp only at bounded
        rw [List.length_append, List.length_singleton] at bounded
        refine invariant.writeTask (by omega) bounded ⟨accepting, rest, ?_, more, taskTail⟩
        dsimp only
        rw [List.length_append, List.length_singleton]
        omega
      · dsimp only at bounded
        rw [List.length_append, List.length_singleton] at bounded
        have submitTail : wrapAdd 64 system.submitTail tasks.length =
            system.submitted.length + 1 := by
          rw [wrapAdd_of_lt (by omega)]
          omega
        rw [submitTail]
        refine invariant.writeTask (by omega) bounded ⟨accepting, ?_, ?_⟩
        · dsimp only
          rw [List.length_append, List.length_singleton]
        · dsimp only
          rw [List.length_append, List.length_singleton]
          omega
  | storeTail count =>
      rw [phase] at host
      obtain ⟨accepting, submitTail, taskTail⟩ := host
      have running : ¬system.control.stopRequested ≠ 0 := by
        intro stop
        rw [invariant.stopping stop] at accepting
        exact Bool.false_ne_true accepting
      exact invariant.store submitTail submitTail invariant.stopping
        fun stop => absurd stop running
  | loadSequence =>
      rw [phase] at host
      obtain ⟨submitTail, taskTail⟩ := host
      have next : wrapAdd 64 system.completionHead 1 = system.completionHead + 1 :=
        wrapAdd_of_lt (by omega)
      dsimp only
      rw [next, slot_eq]
      split_ifs with waiting
      · exact invariant.private_ ⟨submitTail, taskTail⟩ invariant.stopping
      · refine invariant.private_ ⟨submitTail, taskTail, ?_⟩ invariant.stopping
        exact invariant.published_of_sequence (not_not.mp waiting)
  | readCompletion =>
      have next : wrapAdd 64 system.completionHead 1 = system.completionHead + 1 :=
        wrapAdd_of_lt (by omega)
      dsimp only
      rw [next, slot_eq]
      exact invariant.readCompletion phase
  | storeStop =>
      rw [phase] at host
      obtain ⟨accepting, submitTail, taskTail⟩ := host
      exact invariant.store submitTail taskTail (fun _ => accepting)
        fun _ => ⟨Nat.one_ne_zero, Nat.le_refl _⟩

theorem Invariant.step (invariant : system.Invariant) (action : Action shape)
    (bounded : (step system action).submitted.length + shape.copyWarps ≤ 2 ^ 64) :
    (step system action).Invariant := by
  cases action with
  | call call => exact invariant.call call
  | host => exact invariant.hostStep bounded
  | warp warp => exact invariant.warpStep warp

/-! ## Runs -/

theorem length_submitted_step (system : System shape) (action : Action shape) :
    system.submitted.length ≤ (step system action).submitted.length := by
  cases action with
  | call call =>
      change _ ≤ (system.call call).submitted.length
      unfold System.call
      by_cases busy : system.host ≠ .idle
      · rw [if_pos busy]
      · rw [if_neg busy]
        cases call with
        | trySubmitBatch tasks =>
            dsimp only
            unfold System.trySubmitBatch
            dsimp only
            split_ifs <;> exact Nat.le_refl _
        | tryPoll => exact Nat.le_refl _
        | requestStop =>
            dsimp only
            split_ifs <;> exact Nat.le_refl _
  | host =>
      change _ ≤ system.hostStep.submitted.length
      unfold System.hostStep
      cases system.host with
      | writeTask tasks index =>
          dsimp only
          cases tasks[index]? with
          | none => exact Nat.le_refl _
          | some task =>
              dsimp only
              split_ifs <;> (dsimp only; rw [List.length_append]; exact Nat.le_add_right ..)
      | loadSequence =>
          dsimp only
          split_ifs <;> exact Nat.le_refl _
      | _ => exact Nat.le_refl _
  | warp warp =>
      change _ ≤ (system.warpStep warp).submitted.length
      unfold System.warpStep
      dsimp only
      cases (system.warps warp).phase with
      | copy tasks batchIndex =>
          dsimp only
          cases tasks[batchIndex]? <;> exact Nat.le_refl _
      | writeCompletion tasks lane =>
          dsimp only
          cases tasks[lane]? <;> exact Nat.le_refl _
      | publish tasks lane =>
          dsimp only
          split_ifs <;> exact Nat.le_refl _
      | loadTail =>
          dsimp only
          split_ifs <;> exact Nat.le_refl _
      | loadFinalTail =>
          dsimp only
          split_ifs <;> exact Nat.le_refl _
      | _ => exact Nat.le_refl _

theorem run_keeps {actions : List (Action shape)} (invariant : system.Invariant)
    (bounded : (Execution.run step system actions).submitted.length + shape.copyWarps ≤ 2 ^ 64) :
    (Execution.run step system actions).Invariant :=
  Execution.run_invariant_below (fun system => system.submitted.length + shape.copyWarps)
    (fun system action => Nat.add_le_add_right (length_submitted_step system action) _)
    (fun _ action bounded invariant => invariant.step action bounded) invariant bounded

/-- A step leaves alone the tasks that are not read and the completions that are not polled. -/
structure KeepsSlots (system : System shape) (action : Action shape) : Prop where
  tasks : ∀ index < system.submitted.length, ¬system.Read index →
    (step system action).taskSlots (slot shape index) = system.taskSlots (slot shape index)
  completions : ∀ index, system.completionHead ≤ index → system.Published index →
    (step system action).completionSlots (slot shape index) =
      system.completionSlots (slot shape index)

/-- The host is the only one that writes tasks. -/
theorem taskSlots_step (system : System shape) (action : Action shape) :
    (step system action).taskSlots = system.taskSlots ∨
      ∃ tasks index task, action = .host ∧ system.host = .writeTask tasks index ∧
        (step system action).taskSlots = Function.update system.taskSlots
          (slot shape (wrapAdd 64 system.submitTail index)) task := by
  cases action with
  | call call =>
      left
      change (system.call call).taskSlots = _
      unfold System.call
      by_cases busy : system.host ≠ .idle
      · rw [if_pos busy]
      · rw [if_neg busy]
        cases call with
        | trySubmitBatch tasks =>
            dsimp only
            unfold System.trySubmitBatch
            dsimp only
            split_ifs <;> rfl
        | tryPoll => rfl
        | requestStop =>
            dsimp only
            split_ifs <;> rfl
  | host =>
      change system.hostStep.taskSlots = _ ∨ ∃ tasks index task, _ ∧ _ ∧
        system.hostStep.taskSlots = _
      unfold System.hostStep
      cases phase : system.host with
      | writeTask tasks index =>
          dsimp only
          cases found : tasks[index]? with
          | none => exact .inl rfl
          | some task =>
              refine .inr ⟨tasks, index, task, rfl, rfl, ?_⟩
              dsimp only
              split_ifs <;> rfl
      | loadSequence =>
          left
          dsimp only
          split_ifs <;> rfl
      | _ => exact .inl rfl
  | warp warp =>
      left
      change (system.warpStep warp).taskSlots = _
      unfold System.warpStep
      dsimp only
      cases (system.warps warp).phase with
      | copy tasks batchIndex =>
          dsimp only
          cases tasks[batchIndex]? <;> rfl
      | writeCompletion tasks lane =>
          dsimp only
          cases tasks[lane]? <;> rfl
      | publish tasks lane =>
          dsimp only
          split_ifs <;> rfl
      | loadTail =>
          dsimp only
          split_ifs <;> rfl
      | loadFinalTail =>
          dsimp only
          split_ifs <;> rfl
      | _ => rfl

/-- The warps are the only ones that write completions, each in the lane it is at. -/
theorem completionSlots_step (system : System shape) (action : Action shape) :
    (step system action).completionSlots = system.completionSlots ∨
      ∃ warp tasks lane written, ((system.warps warp).phase = .writeCompletion tasks lane ∨
          (system.warps warp).phase = .publish tasks lane) ∧
        (step system action).completionSlots = Function.update system.completionSlots
          (slot shape (laneTaskIndex shape (system.warps warp).ownedIndex lane)) written := by
  cases action with
  | call call =>
      left
      change (system.call call).completionSlots = _
      unfold System.call
      by_cases busy : system.host ≠ .idle
      · rw [if_pos busy]
      · rw [if_neg busy]
        cases call with
        | trySubmitBatch tasks =>
            dsimp only
            unfold System.trySubmitBatch
            dsimp only
            split_ifs <;> rfl
        | tryPoll => rfl
        | requestStop =>
            dsimp only
            split_ifs <;> rfl
  | host =>
      left
      change system.hostStep.completionSlots = _
      unfold System.hostStep
      cases system.host with
      | writeTask tasks index =>
          dsimp only
          cases tasks[index]? with
          | none => rfl
          | some task =>
              dsimp only
              split_ifs <;> rfl
      | loadSequence =>
          dsimp only
          split_ifs <;> rfl
      | _ => rfl
  | warp warp =>
      change (system.warpStep warp).completionSlots = _ ∨ ∃ other tasks lane written, _ ∧
        (system.warpStep warp).completionSlots = _
      unfold System.warpStep
      dsimp only
      cases phase : (system.warps warp).phase with
      | copy tasks batchIndex =>
          left
          dsimp only
          cases tasks[batchIndex]? <;> rfl
      | writeCompletion tasks lane =>
          dsimp only
          cases tasks[lane]? with
          | none => exact .inl rfl
          | some task => exact .inr ⟨warp, tasks, lane, _, .inl phase, rfl⟩
      | publish tasks lane =>
          refine .inr ⟨warp, tasks, lane,
            { system.completionSlots
                (slot shape (laneTaskIndex shape (system.warps warp).ownedIndex lane)) with
              sequence :=
                wrapAdd 64 (laneTaskIndex shape (system.warps warp).ownedIndex lane) 1 },
            .inr phase, ?_⟩
          dsimp only
          split_ifs <;> rfl
      | loadTail =>
          left
          dsimp only
          split_ifs <;> rfl
      | loadFinalTail =>
          left
          dsimp only
          split_ifs <;> rfl
      | _ => exact .inl rfl

theorem Invariant.keepsSlots (invariant : system.Invariant) (action : Action shape) :
    KeepsSlots system action where
  tasks := by
    intro index below unread
    rcases taskSlots_step system action with same | ⟨tasks, position, task, -, writing, same⟩
    · rw [same]
    · have host := invariant.host
      unfold HostFits at host
      rw [writing] at host
      obtain ⟨-, inside, length, more, -⟩ := host
      have bounded := invariant.bounded
      have warps := shape.warps_cases
      have unpublished : ¬system.Published index := fun published =>
        unread (invariant.read_of_copied (invariant.copied_of_published published))
      have released := invariant.head_le_of_unpublished unpublished
      rw [same, wrapAdd_of_lt (by omega), slot_eq, slot_eq, Function.update_of_ne]
      intro equal
      have := RingLog.eq_of_mod_eq (by omega) (by omega) equal
      omega
  completions := by
    intro index inside published
    rcases completionSlots_step system action with same | ⟨warp, tasks, lane, written, phase, same⟩
    · rw [same]
    · have atLane := invariant.atLane phase
      rw [same, (laneTaskIndex_eq invariant atLane.inside atLane.near).1, slot_eq, slot_eq,
        Function.update_of_ne (atLane.slot_ne_published invariant inside published)]

/-- What a run has done with the tasks that were submitted. -/
structure LosesNothing (system : System shape) : Prop where
  room : system.submitted.length ≤ system.completionHead + shape.capacity
  /-- The warp that owns the partition makes the copy, with the fields that were submitted. -/
  copies : ∀ copy ∈ system.copied, copy.warp = copy.index % shape.copyWarps ∧
    system.submitted[copy.index]? = some copy.task
  once : (system.copied.map CopyRecord.index).Nodup
  /-- Completions are polled in the order of submission, each after its copy. -/
  polled : system.polled = (system.submitted.take system.polled.length).map completionOf
  copiedFirst : ∀ index < system.polled.length, index ∈ system.copied.map CopyRecord.index
  exits : ∀ warp, (system.warps warp).phase = .stopped → ∀ index < system.submitted.length,
    index % shape.copyWarps = warp →
      index ∈ system.copied.map CopyRecord.index ∧ system.Published index
  drained : system.host = .idle → system.submitTail = system.completionHead →
    (system.copied.map CopyRecord.index).Perm (List.range system.submitted.length) ∧
      system.polled = system.submitted.map completionOf

/-- After a request to stop the tail does not move any more. -/
theorem Invariant.tail_of_stopped (invariant : system.Invariant)
    (stop : system.control.stopRequested ≠ 0) :
    system.control.taskTail = system.submitted.length := by
  have host := invariant.host
  have accepting := invariant.stopping stop
  unfold HostFits at host
  rw [accepting] at host
  split at host
  · exact host.2
  · exact host.2
  · exact absurd host.1 Bool.false_ne_true
  · exact absurd host.1 Bool.false_ne_true
  · exact host.2.1
  · exact host.2.2

theorem Invariant.losesNothing (invariant : system.Invariant) : system.LosesNothing := by
  have head := invariant.head_le
  have tail := invariant.tail_le
  have polled := invariant.ledger.polled
  have length : system.polled.length = system.completionHead := by
    rw [polled, List.length_map, List.length_take]
    omega
  have copied : ∀ index < system.completionHead, index ∈ system.copied.map CopyRecord.index :=
    fun index below => invariant.ledger.complete index
      (invariant.copied_of_published (invariant.released index below))
  refine ⟨invariant.room, fun copy member => ?_, invariant.ledger.once, ?_, ?_, ?_, ?_⟩
  · obtain ⟨owned, submitted, -⟩ := invariant.ledger.sound copy member
    exact ⟨owned, submitted⟩
  · rw [length]
    exact polled
  · rw [length]
    exact copied
  · intro warp stopped index below owned
    have fits := invariant.warps warp
    have known := fits.phase
    rw [stopped] at known
    obtain ⟨stop, final⟩ := known
    have published : system.Published index := by
      rw [published_iff owned, Warp.publishedTo, stopped]
      dsimp only
      rw [invariant.tail_of_stopped stop] at final
      omega
    exact ⟨invariant.ledger.complete index (invariant.copied_of_published published), published⟩
  · intro idle drained
    obtain ⟨submitTail, -⟩ := invariant.idle idle
    have all : system.completionHead = system.submitted.length := by omega
    constructor
    · refine (List.perm_ext_iff_of_nodup invariant.ledger.once List.nodup_range).mpr fun index => ?_
      rw [List.mem_range]
      constructor
      · intro member
        obtain ⟨copy, found, rfl⟩ := List.mem_map.mp member
        exact (List.getElem?_eq_some_iff.mp (invariant.ledger.sound copy found).2.1).1
      · intro below
        exact copied index (by omega)
    · rw [polled, all, List.take_length]

/-- In every run that submits fewer tasks than the counters can count, every task is copied
once by the warp of its partition and polled once, in order. -/
theorem partition_loses_nothing (shape : Shape) (actions : List (Action shape))
    (bounded : (Execution.run step ({} : System shape) actions).submitted.length +
      shape.copyWarps ≤ 2 ^ 64) :
    Execution.Along step KeepsSlots ({} : System shape) actions ∧
      (Execution.run step ({} : System shape) actions).LosesNothing := by
  refine ⟨?_, (run_keeps initial_invariant bounded).losesNothing⟩
  exact Execution.along_of_invariant_below
    (fun system => system.submitted.length + shape.copyWarps)
    (fun system action => Nat.add_le_add_right (length_submitted_step system action) _)
    (fun _ action bounded invariant => Invariant.step invariant action bounded)
    (fun _ action invariant => invariant.keepsSlots action) initial_invariant bounded

/-- Four partitions of one slot each. -/
def narrow : Shape where
  capacity := 4
  copyWarps := 4
  deviceBatch := 1
  batch := rfl
  fits := of_decide_eq_true rfl
  allocates := rfl

instance : NeZero narrow.copyWarps :=
  ⟨of_decide_eq_true rfl⟩

def poll (count : Nat) : List (Action narrow) :=
  (List.replicate count [.call .tryPoll, .host, .host]).flatten

/-- Four tasks fill the slots, and two warps copy theirs by turns. -/
def fillSlots : List (Action narrow) :=
  .call (.trySubmitBatch ((List.range 4).map adjacentTask)) :: List.replicate 5 .host ++
    (List.replicate 5 [0, 1]).flatten.map .warp

/-- Two completions are polled, and two more tasks take their slots. -/
def submitTwoMore : List (Action narrow) :=
  poll 2 ++ .call (.trySubmitBatch [adjacentTask 4, adjacentTask 5]) :: List.replicate 3 .host

/-- The second partition is done before the first. -/
def reusedSlots : List (Action narrow) :=
  fillSlots ++ submitTwoMore ++
    ([1, 0, 2, 3].flatMap (List.replicate 5)).map .warp ++ poll 4

theorem partition_loses_nothing_reusedSlots :
    (Execution.Along step KeepsSlots ({} : System narrow) reusedSlots ∧
      (Execution.run step ({} : System narrow) reusedSlots).LosesNothing) ∧
        (Execution.run step ({} : System narrow) reusedSlots).polled.map
          CopyCompletion.taskId = [0, 1, 2, 3, 4, 5] :=
  ⟨partition_loses_nothing narrow reusedSlots (by decide +kernel), by decide +kernel⟩

end System

end Ugdr.Gpu.StaticPartition
