import Mathlib.Algebra.Order.BigOperators.Group.Finset
import Ugdr.Gpu.DirectAtomic

/-! # What the parties of the direct atomic queue hold

The tasks that a warp has claimed and the completions it has reserved are its own until it
publishes them. What one step of a party changes is said once, without the wrapping
arithmetic of the counters.
-/

namespace Ugdr.Gpu.DirectAtomic

open Machine

/-! ## Slots -/

theorem Shape.capacity_power (shape : Shape) : ∃ bits, shape.capacity = 2 ^ bits := by
  have power := shape.power
  simp only [isPowerOfTwo, decide_eq_true_eq] at power
  exact Nat.ne_zero_and_sub_one_eq_zero_iff_isPowerOfTwo.mp power

theorem System.slot_eq (shape : Shape) (index : Nat) :
    System.slot shape index = index % shape.capacity := by
  obtain ⟨bits, capacity⟩ := shape.capacity_power
  rw [System.slot, capacity, Nat.and_two_pow_sub_one_eq_mod]

/-- Two indices that are less than a round apart have different slots. -/
theorem System.slot_inj {shape : Shape} {left right : Nat}
    (leftNear : left < right + shape.capacity)
    (rightNear : right < left + shape.capacity)
    (same : System.slot shape left = System.slot shape right) : left = right := by
  rw [slot_eq, slot_eq] at same
  have leftSplit := Nat.mod_add_div left shape.capacity
  have rightSplit := Nat.mod_add_div right shape.capacity
  have quotient : left / shape.capacity = right / shape.capacity := by
    by_contra different
    rcases Nat.lt_or_gt_of_ne different with less | less
    · have := Nat.mul_le_mul_left shape.capacity less
      rw [Nat.mul_succ] at this
      omega
    · have := Nat.mul_le_mul_left shape.capacity less
      rw [Nat.mul_succ] at this
      omega
  rw [← leftSplit, ← rightSplit, same, quotient]

theorem getElem?_append {α : Type} {items : List α} {index : Nat} {item : α}
    (found : items[index]? = some item) (later : List α) :
    (items ++ later)[index]? = some item := by
  rw [List.getElem?_append_left (List.getElem?_eq_some_iff.mp found).1]
  exact found

/-! ## The parties -/

namespace Warp

/-- The number of claimed tasks that have no completions yet. -/
def unreserved : Warp → Nat
  | .reserve _ taskCount => taskCount
  | _ => 0

/-- The task is claimed and its completion is not published. -/
def Claims : Warp → Nat → Prop
  | .reserve taskBase taskCount, task => taskBase ≤ task ∧ task < taskBase + taskCount
  | .loadTask batch, task | .copy batch _, task | .writeCompletion batch _, task
  | .publish batch, task =>
      batch.taskBase + batch.batchIndex ≤ task ∧ task < batch.taskBase + batch.taskCount
  | _, _ => False

/-- The task is claimed and its slot is not read. -/
def Unread : Warp → Nat → Prop
  | .reserve taskBase taskCount, task => taskBase ≤ task ∧ task < taskBase + taskCount
  | .loadTask batch, task =>
      batch.taskBase + batch.batchIndex ≤ task ∧ task < batch.taskBase + batch.taskCount
  | .copy batch _, task | .writeCompletion batch _, task | .publish batch, task =>
      batch.taskBase + batch.batchIndex < task ∧ task < batch.taskBase + batch.taskCount
  | _, _ => False

/-- The task is claimed and its copy is not made. -/
def Uncopied : Warp → Nat → Prop
  | .reserve taskBase taskCount, task => taskBase ≤ task ∧ task < taskBase + taskCount
  | .loadTask batch, task | .copy batch _, task =>
      batch.taskBase + batch.batchIndex ≤ task ∧ task < batch.taskBase + batch.taskCount
  | .writeCompletion batch _, task | .publish batch, task =>
      batch.taskBase + batch.batchIndex < task ∧ task < batch.taskBase + batch.taskCount
  | _, _ => False

/-- The copy is made and its completion is not published. -/
def Copied : Warp → Nat → Prop
  | .writeCompletion batch _, task | .publish batch, task =>
      task = batch.taskBase + batch.batchIndex
  | _, _ => False

/-- The completion is reserved and not published. -/
def Reserves : Warp → Nat → Prop
  | .loadTask batch, completion | .copy batch _, completion | .writeCompletion batch _, completion
  | .publish batch, completion =>
      batch.completionBase + batch.batchIndex ≤ completion ∧
        completion < batch.completionBase + batch.taskCount
  | _, _ => False

/-- The completion is not reserved here, nor is the task claimed. -/
structure Without (completion task : Nat) (warp : Warp) : Prop where
  reserves : ¬warp.Reserves completion
  claims : ¬warp.Claims task

/-- The task that was read from its slot and is still needed. -/
def Loaded (submitted : List CopyTask) : Warp → Prop
  | .copy batch task | .writeCompletion batch task =>
      submitted[batch.taskBase + batch.batchIndex]? = some task
  | _ => True

/-- The local values of a warp agree with the counters. -/
def Fits (control : Control) : Warp → Prop
  | .loadHead tail => tail ≤ control.taskTail
  | .claim head taskCount => 0 < taskCount ∧ head + taskCount ≤ control.taskTail
  | .reserve taskBase taskCount => 0 < taskCount ∧ taskBase + taskCount ≤ control.taskHead
  | .loadTask batch | .copy batch _ | .writeCompletion batch _ | .publish batch =>
      batch.batchIndex < batch.taskCount ∧
        batch.taskBase + batch.taskCount ≤ control.taskHead ∧
          batch.completionBase + batch.taskCount ≤ control.completionTail
  | _ => True

/-- The warp is looking for tasks. -/
def Looking : Warp → Prop
  | .reserve .. | .loadTask .. | .copy .. | .writeCompletion .. | .publish .. => False
  | _ => True

section

variable {warp : Warp} {control : Control} {task completion : Nat}

theorem Claims.lt (claims : warp.Claims task) (fits : warp.Fits control) :
    task < control.taskHead := by
  cases warp <;> simp only [Claims, Fits] at * <;> omega

theorem Reserves.lt (reserves : warp.Reserves completion) (fits : warp.Fits control) :
    completion < control.completionTail := by
  cases warp <;> simp only [Reserves, Fits] at * <;> omega

theorem Unread.claims (unread : warp.Unread task) : warp.Claims task := by
  cases warp <;> simp only [Unread, Claims] at * <;> omega

theorem Uncopied.claims (uncopied : warp.Uncopied task) : warp.Claims task := by
  cases warp <;> simp only [Uncopied, Claims] at * <;> omega

theorem Fits.mono {later : Control} (fits : warp.Fits control)
    (tail : control.taskTail ≤ later.taskTail) (head : control.taskHead ≤ later.taskHead)
    (completions : control.completionTail ≤ later.completionTail) : warp.Fits later := by
  cases warp <;> simp only [Fits] at * <;> omega

theorem Loaded.mono {submitted : List CopyTask} (loaded : warp.Loaded submitted)
    (later : List CopyTask) : warp.Loaded (submitted ++ later) := by
  cases warp with
  | copy batch task => exact getElem?_append loaded later
  | writeCompletion batch task => exact getElem?_append loaded later
  | _ => trivial

namespace Looking

variable (looking : warp.Looking)

include looking

theorem not_claims (task : Nat) : ¬warp.Claims task := by
  cases warp <;> simp_all [Looking, Claims]

theorem not_reserves (completion : Nat) : ¬warp.Reserves completion := by
  cases warp <;> simp_all [Looking, Reserves]

theorem not_copied (task : Nat) : ¬warp.Copied task := by
  cases warp <;> simp_all [Looking, Copied]

theorem unreserved : warp.unreserved = 0 := by
  cases warp <;> simp_all [Looking, Warp.unreserved]

theorem loaded (submitted : List CopyTask) : warp.Loaded submitted := by
  cases warp <;> simp_all [Looking, Loaded]

end Looking

end

end Warp

/-! ## The invariant -/

namespace System

variable {shape : Shape}

/-- The counters that the host keeps agree with what it is doing. -/
def HostFits (system : System shape) : Prop :=
  match system.host with
  | .writeTask tasks index =>
      system.submitted.length = system.submitTail + index ∧ index < tasks.length ∧
        system.submitTail + tasks.length ≤ system.completionHead + shape.capacity
  | .readCompletion =>
      system.submitted.length = system.submitTail ∧
        ∃ task, (system.completionHead, task) ∈ system.published
  | _ => system.submitted.length = system.submitTail

/-- The slot of a completion is filled in for the task. -/
def Shows (system : System shape) (completion task : Nat) : Prop :=
  ∃ submitted, system.submitted[task]? = some submitted ∧
    (system.completionSlots (slot shape completion)).completion = ⟨submitted.taskId, .success⟩

structure Counters (system : System shape) : Prop where
  host : system.HostFits
  completed : system.completionHead ≤ system.control.completionTail
  reserved : (∑ warp, (system.warps warp).unreserved) + system.control.completionTail =
    system.control.taskHead
  claimed : system.control.taskHead ≤ system.control.taskTail
  published : system.control.taskTail ≤ system.submitTail
  room : system.submitted.length ≤ system.completionHead + shape.capacity
  bounded : system.submitted.length + 1 < 2 ^ 64
  warps : ∀ warp, (system.warps warp).Fits system.control

/-- Every task and every completion belongs to one warp until it is published. -/
structure Owners (system : System shape) : Prop where
  claims : ∀ left right task, (system.warps left).Claims task →
    (system.warps right).Claims task → left = right
  reserves : ∀ left right completion, (system.warps left).Reserves completion →
    (system.warps right).Reserves completion → left = right
  below : ∀ entry ∈ system.published,
    entry.1 < system.control.completionTail ∧ entry.2 < system.control.taskHead
  given : ∀ entry ∈ system.published, ∀ warp,
    Warp.Without entry.1 entry.2 (system.warps warp)
  completions : (system.published.map Prod.fst).Nodup
  tasks : (system.published.map Prod.snd).Nodup

structure TaskSlots (system : System shape) : Prop where
  unread : ∀ warp task, (system.warps warp).Unread task →
    system.submitted.length ≤ task + shape.capacity
  slots : ∀ index task, system.submitted[index]? = some task →
    system.submitted.length ≤ index + shape.capacity →
      system.taskSlots (slot shape index) = task
  loaded : ∀ warp, (system.warps warp).Loaded system.submitted

structure CompletionSlots (system : System shape) : Prop where
  written : ∀ warp batch, system.warps warp = .publish batch →
    system.Shows (batch.completionBase + batch.batchIndex) (batch.taskBase + batch.batchIndex)
  stored : ∀ entry ∈ system.published, system.completionHead ≤ entry.1 →
    (system.completionSlots (slot shape entry.1)).sequence = entry.1 + 1 ∧
      system.Shows entry.1 entry.2
  sequences : ∀ index, (system.completionSlots index).sequence = 0 ∨
    ∃ entry ∈ system.published, (system.completionSlots index).sequence = entry.1 + 1

structure Ledger (system : System shape) : Prop where
  once : (system.copied.map Prod.fst).Nodup
  fields : ∀ copy ∈ system.copied, system.submitted[copy.1]? = some copy.2
  below : ∀ copy ∈ system.copied, copy.1 < system.control.taskHead
  uncopied : ∀ warp task, (system.warps warp).Uncopied task → task ∉ system.copied.map Prod.fst
  copied : ∀ warp task, (system.warps warp).Copied task → task ∈ system.copied.map Prod.fst
  published : ∀ entry ∈ system.published, entry.2 ∈ system.copied.map Prod.fst
  /-- The tasks of the completions that were polled, in order. -/
  polled : ∃ tasks : List Nat, tasks.length = system.completionHead ∧
    (∀ completion task, tasks[completion]? = some task →
      (completion, task) ∈ system.published) ∧
    List.Forall₂ (fun task completion => ∃ submitted, system.submitted[task]? = some submitted ∧
      completion = ⟨submitted.taskId, .success⟩) tasks system.polled

structure Invariant (system : System shape) : Prop where
  counters : system.Counters
  owners : system.Owners
  taskSlots : system.TaskSlots
  completionSlots : system.CompletionSlots
  ledger : system.Ledger

theorem initial_invariant : Invariant ({} : System shape) where
  counters :=
    { host := rfl
      completed := Nat.le_refl 0
      reserved := by simp [Warp.unreserved]
      claimed := Nat.le_refl 0
      published := Nat.le_refl 0
      room := Nat.zero_le _
      bounded := Nat.one_lt_two_pow (by decide)
      warps := fun _ => trivial }
  owners := ⟨nofun, nofun, nofun, nofun, .nil, .nil⟩
  taskSlots := ⟨nofun, nofun, fun _ => trivial⟩
  completionSlots := ⟨nofun, nofun, fun _ => .inl rfl⟩
  ledger := ⟨.nil, nofun, nofun, nofun, nofun, nofun, [], rfl, nofun, .nil⟩

/-! ## Changes -/

/-- Nothing that the invariant speaks of has changed, apart from what the host does next. -/
structure Agrees (system next : System shape) : Prop where
  taskTail : next.control.taskTail = system.control.taskTail
  taskHead : next.control.taskHead = system.control.taskHead
  completionTail : next.control.completionTail = system.control.completionTail
  taskSlots : next.taskSlots = system.taskSlots
  completionSlots : next.completionSlots = system.completionSlots
  warps : next.warps = system.warps
  submitTail : next.submitTail = system.submitTail
  completionHead : next.completionHead = system.completionHead
  submitted : next.submitted = system.submitted
  copied : next.copied = system.copied
  published : next.published = system.published
  polled : next.polled = system.polled

/-- The task that was in the slot the host writes next has had its completion published. -/
structure Reclaims (system : System shape) : Prop where
  bounded : system.submitted.length + 2 < 2 ^ 64
  reclaimed : ∀ task, task + shape.capacity = system.submitted.length →
    ∃ completion, (completion, task) ∈ system.published

/-- What a step of some party changes. -/
inductive Change (system : System shape) : System shape → Prop
  | quiet {next : System shape} (agrees : Agrees system next) (fits : next.HostFits) :
      Change system next
  | wrote {task : CopyTask} (host : Host) (submitTail : Nat)
      (later : system.submitTail ≤ submitTail) (reclaims : system.Reclaims)
      (room : system.submitted.length < system.completionHead + shape.capacity)
      (fits : HostFits { system with submitted := system.submitted ++ [task], host, submitTail }) :
      Change system
        { system with
          taskSlots := Function.update system.taskSlots (slot shape system.submitted.length) task
          submitted := system.submitted ++ [task]
          host
          submitTail }
  | storedTail (count : Nat) (storing : system.host = .storeTail count) :
      Change system
        { system with
          control := { system.control with taskTail := system.submitTail }
          submittedCount := count
          status := none
          host := .idle }
  | polled (batches : Nat) (reading : system.host = .readCompletion) :
      Change system
        { system with
          polled := system.polled ++
            [(system.completionSlots (slot shape system.completionHead)).completion]
          completedDeviceBatches := batches
          completionHead := system.completionHead + 1
          status := none
          host := .idle }
  | looked (warp : Fin shape.copyWarps) (next : Warp) (before : (system.warps warp).Looking)
      (after : next.Looking) (fits : next.Fits system.control) :
      Change system (system.move warp next)
  | claimed (warp : Fin shape.copyWarps) (taskCount : Nat)
      (claiming : system.warps warp = .claim system.control.taskHead taskCount) :
      Change system
        (System.move
          { system with
            control :=
              { system.control with taskHead := system.control.taskHead + taskCount } }
          warp (.reserve system.control.taskHead taskCount))
  | reserved (warp : Fin shape.copyWarps) (taskBase taskCount : Nat)
      (reserving : system.warps warp = .reserve taskBase taskCount) :
      Change system
        (System.move
          { system with
            control :=
              { system.control with
                completionTail := system.control.completionTail + taskCount } }
          warp (.loadTask { taskBase, taskCount, completionBase := system.control.completionTail }))
  | loaded (warp : Fin shape.copyWarps) (batch : Batch)
      (loading : system.warps warp = .loadTask batch) :
      Change system (system.move warp
        (.copy batch (system.taskSlots (slot shape (batch.taskBase + batch.batchIndex)))))
  | copied (warp : Fin shape.copyWarps) (batch : Batch) (task : CopyTask)
      (copying : system.warps warp = .copy batch task) :
      Change system
        (System.move
          { system with
            copied := system.copied ++ [(batch.taskBase + batch.batchIndex, task)] }
          warp (.writeCompletion batch task))
  | wroteCompletion (warp : Fin shape.copyWarps) (batch : Batch) (task : CopyTask)
      (batchStart : Nat) (writing : system.warps warp = .writeCompletion batch task) :
      Change system
        (System.move
          { system with
            completionSlots := Function.update system.completionSlots
              (slot shape (batch.completionBase + batch.batchIndex))
              { system.completionSlots (slot shape (batch.completionBase + batch.batchIndex)) with
                completion := ⟨task.taskId, .success⟩
                batchStart } }
          warp (.publish batch))
  | published (warp : Fin shape.copyWarps) (batch : Batch)
      (publishing : system.warps warp = .publish batch) :
      Change system
        (System.move
          { system with
            completionSlots := Function.update system.completionSlots
              (slot shape (batch.completionBase + batch.batchIndex))
              { system.completionSlots (slot shape (batch.completionBase + batch.batchIndex)) with
                sequence := batch.completionBase + batch.batchIndex + 1 }
            published := system.published ++
              [(batch.completionBase + batch.batchIndex, batch.taskBase + batch.batchIndex)] }
          warp (nextTask { batch with batchIndex := batch.batchIndex + 1 }))

theorem Counters.order {system : System shape} (counters : system.Counters) :
    system.completionHead ≤ system.control.completionTail ∧
      system.control.completionTail ≤ system.control.taskHead ∧
      system.control.taskHead ≤ system.control.taskTail ∧
      system.control.taskTail ≤ system.submitTail ∧
      system.submitTail ≤ system.submitted.length := by
  refine ⟨counters.completed, ?_, counters.claimed, counters.published, ?_⟩
  · have := counters.reserved
    omega
  · have fits := counters.host
    unfold HostFits at fits
    split at fits <;> omega

/-- A step that the run condition allows. -/
def Admissible (system : System shape) : Action shape → Prop
  | .host =>
      match system.host with
      | .writeTask _ _ => system.Reclaims
      | _ => True
  | _ => True

section Steps

variable {system : System shape}

theorem call_change (counters : system.Counters) (call : Call) :
    Change system (system.call call) := by
  have order := counters.order
  have fits := counters.host
  unfold System.call
  split
  · exact .quiet ⟨rfl, rfl, rfl, rfl, rfl, rfl, rfl, rfl, rfl, rfl, rfl, rfl⟩ fits
  · rename_i idle
    rw [not_not] at idle
    have settled : system.submitted.length = system.submitTail := by
      rw [HostFits, idle] at fits
      exact fits
    have waiting : HostFits { system with submittedCount := 0 } := by
      rw [HostFits, idle]
      exact settled
    cases call with
    | tryPoll =>
        exact .quiet ⟨rfl, rfl, rfl, rfl, rfl, rfl, rfl, rfl, rfl, rfl, rfl, rfl⟩ settled
    | requestStop =>
        dsimp only
        split
        · exact .quiet ⟨rfl, rfl, rfl, rfl, rfl, rfl, rfl, rfl, rfl, rfl, rfl, rfl⟩ fits
        · exact .quiet ⟨rfl, rfl, rfl, rfl, rfl, rfl, rfl, rfl, rfl, rfl, rfl, rfl⟩ settled
    | trySubmitBatch tasks =>
        unfold trySubmitBatch
        dsimp only
        split
        · exact .quiet ⟨rfl, rfl, rfl, rfl, rfl, rfl, rfl, rfl, rfl, rfl, rfl, rfl⟩ waiting
        · rename_i accepted
          have outstanding : wrapSub 64 system.submitTail system.completionHead =
              system.submitTail - system.completionHead :=
            wrapSub_of_le (by omega) (by have := counters.bounded; omega)
          split
          · exact .quiet ⟨rfl, rfl, rfl, rfl, rfl, rfl, rfl, rfl, rfl, rfl, rfl, rfl⟩ waiting
          · rename_i room
            generalize counted : (if tasks.length <
              shape.capacity - wrapSub 64 system.submitTail system.completionHead then
                tasks.length else
              shape.capacity - wrapSub 64 system.submitTail system.completionHead) = count
            have positive : 0 < tasks.length :=
              List.length_pos_iff.mpr fun empty => accepted (.inr empty)
            have inside : 0 < count ∧ count ≤ tasks.length ∧
                system.submitTail + count ≤ system.completionHead + shape.capacity := by
              split at counted <;> omega
            split
            · exact .quiet ⟨rfl, rfl, rfl, rfl, rfl, rfl, rfl, rfl, rfl, rfl, rfl, rfl⟩ waiting
            · refine .quiet ⟨rfl, rfl, rfl, rfl, rfl, rfl, rfl, rfl, rfl, rfl, rfl, rfl⟩
                ⟨settled, ?_, ?_⟩
              · rw [List.length_take]
                omega
              · dsimp only
                rw [List.length_take]
                omega

theorem host_change (invariant : system.Invariant) (admissible : Admissible system .host) :
    Change system system.hostStep := by
  have counters := invariant.counters
  have order := counters.order
  have bounded := counters.bounded
  have fits := counters.host
  unfold System.hostStep
  split
  · exact .quiet ⟨rfl, rfl, rfl, rfl, rfl, rfl, rfl, rfl, rfl, rfl, rfl, rfl⟩ fits
  · rename_i tasks index writing
    rw [HostFits, writing] at fits
    simp only [Admissible, writing] at admissible
    obtain ⟨length, inside, room⟩ := fits
    have below := admissible.bounded
    split
    · exact .quiet ⟨rfl, rfl, rfl, rfl, rfl, rfl, rfl, rfl, rfl, rfl, rfl, rfl⟩ counters.host
    · rename_i task found
      have place : wrapAdd 64 system.submitTail index = system.submitted.length := by
        rw [wrapAdd_of_lt (by omega), length]
      dsimp only
      rw [place]
      split
      · rename_i more
        refine .wrote _ system.submitTail (Nat.le_refl _) admissible (by omega) ?_
        refine ⟨?_, more, room⟩
        dsimp only
        rw [List.length_append, List.length_singleton]
        omega
      · have whole : wrapAdd 64 system.submitTail tasks.length =
            system.submitTail + tasks.length := wrapAdd_of_lt (by omega)
        rw [whole]
        refine .wrote _ _ (by omega) admissible (by omega) ?_
        rw [HostFits]
        dsimp only
        rw [List.length_append, List.length_singleton]
        omega
  · rename_i count storing
    exact .storedTail count storing
  · rename_i polling
    rw [HostFits, polling] at fits
    dsimp only at fits
    split
    · exact .quiet ⟨rfl, rfl, rfl, rfl, rfl, rfl, rfl, rfl, rfl, rfl, rfl, rfl⟩ fits
    · rename_i found
      refine .quiet ⟨rfl, rfl, rfl, rfl, rfl, rfl, rfl, rfl, rfl, rfl, rfl, rfl⟩ ⟨fits, ?_⟩
      rw [ne_eq, not_not, wrapAdd_of_lt (by omega)] at found
      rcases invariant.completionSlots.sequences (slot shape system.completionHead) with
        unused | ⟨⟨completion, task⟩, member, sequence⟩
      · omega
      · have same : completion = system.completionHead := by
          simp only at sequence
          omega
        subst same
        exact ⟨task, member⟩
  · rename_i reading
    rw [HostFits, reading] at fits
    obtain ⟨-, task, member⟩ := fits
    have less := (invariant.owners.below _ member).1
    have next : wrapAdd 64 system.completionHead 1 = system.completionHead + 1 :=
      wrapAdd_of_lt (by omega)
    rw [next]
    exact .polled _ reading
  · rename_i stopping
    rw [HostFits, stopping] at fits
    exact .quiet ⟨rfl, rfl, rfl, rfl, rfl, rfl, rfl, rfl, rfl, rfl, rfl, rfl⟩ fits

theorem warp_change (counters : system.Counters) (warp : Fin shape.copyWarps) :
    Change system (system.warpStep warp) := by
  have order := counters.order
  have bounded := counters.bounded
  have fits := counters.warps warp
  unfold warpStep
  split
  · rename_i pc
    exact .looked warp _ (by rw [pc]; trivial) trivial (Nat.le_refl _)
  · rename_i tail pc
    rw [pc, Warp.Fits] at fits
    dsimp only
    split
    · rename_i some_left
      have available : wrapSub 64 tail system.control.taskHead =
          tail - system.control.taskHead := wrapSub_of_le (by omega) (by omega)
      have batch : 0 < shape.deviceBatch := by
        have := shape.batch
        simp only [List.mem_cons, List.not_mem_nil, or_false] at this
        omega
      refine .looked warp _ (by rw [pc]; trivial) trivial ?_
      rw [available, Warp.Fits]
      split <;> omega
    · exact .looked warp _ (by rw [pc]; trivial) trivial trivial
  · rename_i head taskCount pc
    rw [pc, Warp.Fits] at fits
    split
    · rename_i current
      subst current
      have next : wrapAdd 64 system.control.taskHead taskCount =
          system.control.taskHead + taskCount := wrapAdd_of_lt (by omega)
      rw [next]
      exact .claimed warp taskCount pc
    · exact .looked warp _ (by rw [pc]; trivial) trivial trivial
  · rename_i pc
    split
    · exact .looked warp _ (by rw [pc]; trivial) trivial trivial
    · exact .looked warp _ (by rw [pc]; trivial) trivial trivial
  · rename_i pc
    exact .looked warp _ (by rw [pc]; trivial) trivial trivial
  · rename_i finalTail pc
    split
    · exact .looked warp _ (by rw [pc]; trivial) trivial trivial
    · exact .looked warp _ (by rw [pc]; trivial) trivial trivial
  · rename_i taskBase taskCount pc
    rw [pc, Warp.Fits] at fits
    have share : (system.warps warp).unreserved ≤ ∑ warp, (system.warps warp).unreserved :=
      Finset.single_le_sum (f := fun warp => (system.warps warp).unreserved)
        (fun _ _ => Nat.zero_le _) (Finset.mem_univ warp)
    rw [pc, Warp.unreserved] at share
    have reserved := counters.reserved
    have next : wrapAdd 64 system.control.completionTail taskCount =
        system.control.completionTail + taskCount := wrapAdd_of_lt (by omega)
    dsimp only
    rw [next, nextTask, if_pos fits.1]
    exact .reserved warp taskBase taskCount pc
  · rename_i batch pc
    rw [pc, Warp.Fits] at fits
    have index : batch.taskIndex = batch.taskBase + batch.batchIndex :=
      wrapAdd_of_lt (by omega)
    rw [index]
    exact .loaded warp batch pc
  · rename_i batch task pc
    rw [pc, Warp.Fits] at fits
    have index : batch.taskIndex = batch.taskBase + batch.batchIndex :=
      wrapAdd_of_lt (by omega)
    rw [index]
    exact .copied warp batch task pc
  · rename_i batch task pc
    rw [pc, Warp.Fits] at fits
    have index : batch.completionIndex = batch.completionBase + batch.batchIndex :=
      wrapAdd_of_lt (by omega)
    dsimp only
    rw [index]
    exact .wroteCompletion warp batch task _ pc
  · rename_i batch pc
    rw [pc, Warp.Fits] at fits
    have taskIndex : batch.taskIndex = batch.taskBase + batch.batchIndex :=
      wrapAdd_of_lt (by omega)
    have completionIndex : batch.completionIndex = batch.completionBase + batch.batchIndex :=
      wrapAdd_of_lt (by omega)
    have sequence : wrapAdd 64 (batch.completionBase + batch.batchIndex) 1 =
        batch.completionBase + batch.batchIndex + 1 := wrapAdd_of_lt (by omega)
    dsimp only
    rw [taskIndex, completionIndex, sequence]
    exact .published warp batch pc
  · exact .quiet ⟨rfl, rfl, rfl, rfl, rfl, rfl, rfl, rfl, rfl, rfl, rfl, rfl⟩ counters.host

theorem step_change (invariant : system.Invariant) (action : Action shape)
    (admissible : Admissible system action) : Change system (system.step action) := by
  cases action with
  | call call => exact call_change invariant.counters call
  | host => exact host_change invariant admissible
  | warp warp => exact warp_change invariant.counters warp

end Steps

end System

end Ugdr.Gpu.DirectAtomic
