import Ugdr.Gpu.DirectAtomicInvariant

/-! # Runs of the direct atomic queue

The invariant is kept by every change as long as the host reuses the slots of tasks whose
own completions are published. Without that, the kernel can copy a task that it has not
claimed, and lose one that it has.
-/

namespace Ugdr.Gpu.DirectAtomic

open Machine

namespace System

variable {shape : Shape} {system next : System shape}

/-! ## Moving one warp -/

theorem forall_move {holds : Fin shape.copyWarps → Warp → Prop}
    (all : ∀ warp, holds warp (system.warps warp)) {warp : Fin shape.copyWarps} {pc : Warp}
    (moved : holds warp pc) (other : Fin shape.copyWarps) :
    holds other (Function.update system.warps warp pc other) := by
  rw [Function.update_apply]
  split
  · rename_i same
    rw [same]
    exact moved
  · exact all other

theorem items_move {holds : Warp → Nat → Prop} {good : Nat → Prop}
    (all : ∀ warp item, holds (system.warps warp) item → good item)
    {warp : Fin shape.copyWarps} {pc : Warp} (gains : ∀ item, holds pc item → good item)
    (other : Fin shape.copyWarps) (item : Nat)
    (has : holds (Function.update system.warps warp pc other) item) : good item := by
  rw [Function.update_apply] at has
  split at has
  · exact gains item has
  · exact all other item has

/-- What a warp has that no other warp has stays so, when it gets nothing from the others. -/
theorem once_move {holds : Warp → Nat → Prop}
    (once : ∀ left right item, holds (system.warps left) item →
      holds (system.warps right) item → left = right)
    {warp : Fin shape.copyWarps} {pc : Warp}
    (gains : ∀ item, holds pc item → holds (system.warps warp) item ∨
      ∀ other, ¬holds (system.warps other) item)
    (left right : Fin shape.copyWarps) (item : Nat)
    (leftHolds : holds (Function.update system.warps warp pc left) item)
    (rightHolds : holds (Function.update system.warps warp pc right) item) : left = right := by
  rw [Function.update_apply] at leftHolds rightHolds
  split at leftHolds
  · rename_i leftHere
    split at rightHolds
    · rename_i rightHere
      rw [leftHere, rightHere]
    · rcases gains item leftHolds with had | nobody
      · rw [leftHere]
        exact once warp right item had rightHolds
      · exact absurd rightHolds (nobody right)
  · split at rightHolds
    · rename_i rightHere
      rcases gains item rightHolds with had | nobody
      · rw [rightHere]
        exact once left warp item leftHolds had
      · exact absurd leftHolds (nobody left)
    · exact once left right item leftHolds rightHolds

theorem unreserved_move (system : System shape) (warp : Fin shape.copyWarps) (pc : Warp) :
    (∑ other, (Function.update system.warps warp pc other).unreserved) +
        (system.warps warp).unreserved =
      (∑ other, (system.warps other).unreserved) + pc.unreserved := by
  have before := Finset.add_sum_erase Finset.univ (fun other => (system.warps other).unreserved)
    (Finset.mem_univ warp)
  have after := Finset.add_sum_erase Finset.univ
    (fun other => (Function.update system.warps warp pc other).unreserved) (Finset.mem_univ warp)
  have rest : ∑ other ∈ Finset.univ.erase warp,
        (Function.update system.warps warp pc other).unreserved =
      ∑ other ∈ Finset.univ.erase warp, (system.warps other).unreserved := by
    refine Finset.sum_congr rfl fun other member => ?_
    rw [Function.update_of_ne (Finset.ne_of_mem_erase member)]
  simp only [Function.update_self] at after
  omega

theorem nextTask_fits {batch : Batch} {control : Control}
    (fits : (Warp.publish batch).Fits control) :
    (nextTask { batch with batchIndex := batch.batchIndex + 1 }).Fits control := by
  unfold nextTask
  split
  · rename_i more
    exact ⟨more, fits.2⟩
  · trivial

theorem nodup_concat {α β : Type} {items : List α} {view : α → β} {item : α}
    (nodup : (items.map view).Nodup) (fresh : view item ∉ items.map view) :
    ((items ++ [item]).map view).Nodup := by
  rw [List.map_append, List.map_singleton, ← List.concat_eq_append]
  exact nodup.concat fresh

/-- The rest of a batch after its next task. -/
theorem nextTask_rest (batch : Batch) :
    (∀ task, (nextTask { batch with batchIndex := batch.batchIndex + 1 }).Claims task →
      batch.taskBase + batch.batchIndex < task ∧ task < batch.taskBase + batch.taskCount) ∧
    ∀ completion,
      (nextTask { batch with batchIndex := batch.batchIndex + 1 }).Reserves completion →
        batch.completionBase + batch.batchIndex < completion ∧
          completion < batch.completionBase + batch.taskCount := by
  unfold nextTask
  split
  · exact ⟨fun task claims => ⟨Nat.lt_of_succ_le claims.1, claims.2⟩,
      fun completion reserves => ⟨Nat.lt_of_succ_le reserves.1, reserves.2⟩⟩
  · exact ⟨nofun, nofun⟩

/-! ## Counters -/

theorem HostFits.of_agrees (fits : system.HostFits) (host : next.host = system.host)
    (submitted : next.submitted.length = system.submitted.length)
    (submitTail : next.submitTail = system.submitTail)
    (completionHead : next.completionHead = system.completionHead)
    (published : ∀ entry ∈ system.published, entry ∈ next.published) : next.HostFits := by
  unfold HostFits at fits ⊢
  rw [host, submitted, submitTail, completionHead]
  split at fits
  · exact fits
  · obtain ⟨length, task, member⟩ := fits
    exact ⟨length, task, published _ member⟩
  · exact fits

theorem Change.counters (change : Change system next) (invariant : system.Invariant) :
    next.Counters := by
  have counters := invariant.counters
  have order := counters.order
  obtain ⟨host, completed, reserved, claimed, published, room, bounded, warps⟩ := counters
  cases change with
  | quiet agrees fits =>
      have control : ∀ {warp : Warp}, warp.Fits system.control → warp.Fits next.control :=
        fun fits => fits.mono agrees.taskTail.ge agrees.taskHead.ge agrees.completionTail.ge
      refine ⟨fits, ?_, ?_, ?_, ?_, ?_, ?_, fun warp => ?_⟩
      · rw [agrees.completionHead, agrees.completionTail]
        exact completed
      · rw [agrees.warps, agrees.completionTail, agrees.taskHead]
        exact reserved
      · rw [agrees.taskHead, agrees.taskTail]
        exact claimed
      · rw [agrees.taskTail, agrees.submitTail]
        exact published
      · rw [agrees.submitted, agrees.completionHead]
        exact room
      · rw [agrees.submitted]
        exact bounded
      · rw [agrees.warps]
        exact control (warps warp)
  | wrote _ submitTail later reclaims space fits =>
      refine ⟨fits, completed, reserved, claimed, published.trans later, ?_, ?_, warps⟩
      · rw [List.length_append, List.length_singleton]
        exact space
      · rw [List.length_append, List.length_singleton]
        exact reclaims.bounded
  | storedTail count storing =>
      rw [HostFits, storing] at host
      exact ⟨host, completed, reserved, claimed.trans published, Nat.le_refl _, room, bounded,
        fun warp => (warps warp).mono published (Nat.le_refl _) (Nat.le_refl _)⟩
  | polled batches reading =>
      rw [HostFits, reading] at host
      obtain ⟨length, task, member⟩ := host
      have less := (invariant.owners.below _ member).1
      exact ⟨length, less, reserved, claimed, published, by dsimp only; omega, bounded, warps⟩
  | looked warp pc before after fits =>
      refine ⟨host.of_agrees rfl rfl rfl rfl fun _ => id, completed, ?_, claimed, published, room,
        bounded, forall_move warps fits⟩
      have sum := unreserved_move system warp pc
      rw [before.unreserved, after.unreserved] at sum
      exact (congrArg (· + _) sum).trans reserved
  | claimed warp taskCount claiming =>
      have claim := warps warp
      rw [claiming] at claim
      have sum := unreserved_move system warp
        (.reserve system.control.taskHead taskCount)
      rw [claiming] at sum
      change _ + 0 = _ + taskCount at sum
      have later : ∀ other, (system.warps other).Fits
          { system.control with taskHead := system.control.taskHead + taskCount } :=
        fun other => (warps other).mono (Nat.le_refl _) (Nat.le_add_right ..) (Nat.le_refl _)
      refine ⟨host.of_agrees rfl rfl rfl rfl fun _ => id, completed, ?_, claim.2, published, room,
        bounded, ?_⟩
      · dsimp only [move]
        omega
      · refine forall_move later ?_
        exact ⟨claim.1, Nat.le_refl _⟩
  | reserved warp taskBase taskCount reserving =>
      have reserve := warps warp
      rw [reserving] at reserve
      have sum := unreserved_move system warp
        (.loadTask { taskBase, taskCount, completionBase := system.control.completionTail })
      rw [reserving] at sum
      change _ + taskCount = _ + 0 at sum
      have later : ∀ other, (system.warps other).Fits
          { system.control with
            completionTail := system.control.completionTail + taskCount } :=
        fun other => (warps other).mono (Nat.le_refl _) (Nat.le_refl _) (Nat.le_add_right ..)
      refine ⟨host.of_agrees rfl rfl rfl rfl fun _ => id, completed.trans (Nat.le_add_right ..), ?_,
        claimed, published, room, bounded, ?_⟩
      · dsimp only [move]
        omega
      · refine forall_move later ?_
        exact ⟨reserve.1, reserve.2, Nat.le_refl _⟩
  | loaded warp batch loading =>
      have fits := warps warp
      rw [loading] at fits
      have sum := unreserved_move system warp
        (.copy batch (system.taskSlots (slot shape (batch.taskBase + batch.batchIndex))))
      rw [loading] at sum
      exact ⟨host.of_agrees rfl rfl rfl rfl fun _ => id, completed,
        (congrArg (· + _) sum).trans reserved,
        claimed, published, room, bounded, forall_move warps fits⟩
  | copied warp batch task copying =>
      have fits := warps warp
      rw [copying] at fits
      have sum := unreserved_move system warp (.writeCompletion batch task)
      rw [copying] at sum
      exact ⟨host.of_agrees rfl rfl rfl rfl fun _ => id, completed,
        (congrArg (· + _) sum).trans reserved,
        claimed, published, room, bounded, forall_move warps fits⟩
  | wroteCompletion warp batch task batchStart writing =>
      have fits := warps warp
      rw [writing] at fits
      have sum := unreserved_move system warp (.publish batch)
      rw [writing] at sum
      exact ⟨host.of_agrees rfl rfl rfl rfl fun _ => id, completed,
        (congrArg (· + _) sum).trans reserved,
        claimed, published, room, bounded, forall_move warps fits⟩
  | published warp batch publishing =>
      have fits := warps warp
      rw [publishing] at fits
      have sum := unreserved_move system warp
        (nextTask { batch with batchIndex := batch.batchIndex + 1 })
      have none_left :
          (nextTask { batch with batchIndex := batch.batchIndex + 1 }).unreserved = 0 := by
        unfold nextTask
        split <;> rfl
      rw [publishing, none_left] at sum
      exact ⟨host.of_agrees rfl rfl rfl rfl fun _ => List.mem_append_left _, completed,
        (congrArg (· + _) sum).trans reserved, claimed, published, room, bounded,
        forall_move warps (nextTask_fits fits)⟩

/-! ## Owners -/

theorem Change.owners (change : Change system next) (invariant : system.Invariant) :
    next.Owners := by
  have fits := invariant.counters.warps
  obtain ⟨claims, reserves, below, given, completions, tasks⟩ := invariant.owners
  cases change with
  | quiet agrees _ =>
      constructor
      all_goals
        simp only [agrees.warps, agrees.published, agrees.completionTail, agrees.taskHead]
        assumption
  | wrote => exact ⟨claims, reserves, below, given, completions, tasks⟩
  | storedTail => exact ⟨claims, reserves, below, given, completions, tasks⟩
  | polled => exact ⟨claims, reserves, below, given, completions, tasks⟩
  | looked warp pc before after _ =>
      refine ⟨once_move claims fun item has => absurd has (after.not_claims item),
        once_move reserves fun item has => absurd has (after.not_reserves item), below,
        fun entry member => forall_move (given entry member) ?_, completions, tasks⟩
      exact ⟨after.not_reserves entry.1, after.not_claims entry.2⟩
  | claimed warp taskCount claiming =>
      refine ⟨once_move claims fun item has => .inr fun other held => ?_,
        once_move reserves nofun, fun entry member => ?_,
        fun entry member => forall_move (given entry member) ?_, completions, tasks⟩
      · exact absurd (held.lt (fits other)) (Nat.not_lt.mpr has.1)
      · obtain ⟨completion, task⟩ := below entry member
        exact ⟨completion, task.trans_le (Nat.le_add_right ..)⟩
      · exact ⟨nofun, fun has => absurd (below entry member).2 (Nat.not_lt.mpr has.1)⟩
  | reserved warp taskBase taskCount reserving =>
      refine ⟨once_move claims fun item has => .inl ?_,
        once_move reserves fun item has => .inr fun other held => ?_, fun entry member => ?_,
        fun entry member => forall_move (given entry member) ?_, completions, tasks⟩
      · rw [reserving]
        exact has
      · exact absurd (held.lt (fits other)) (Nat.not_lt.mpr has.1)
      · obtain ⟨completion, task⟩ := below entry member
        exact ⟨completion.trans_le (Nat.le_add_right ..), task⟩
      · have before := given entry member warp
        rw [reserving] at before
        exact ⟨fun has => absurd (below entry member).1 (Nat.not_lt.mpr has.1), before.claims⟩
  | loaded warp batch loading =>
      refine ⟨once_move claims fun item has => .inl ?_, once_move reserves fun item has => .inl ?_,
        below, fun entry member => forall_move (given entry member) ?_, completions, tasks⟩
      · rw [loading]
        exact has
      · rw [loading]
        exact has
      · have before := given entry member warp
        rw [loading] at before
        exact ⟨before.reserves, before.claims⟩
  | copied warp batch task copying =>
      refine ⟨once_move claims fun item has => .inl ?_, once_move reserves fun item has => .inl ?_,
        below, fun entry member => forall_move (given entry member) ?_, completions, tasks⟩
      · rw [copying]
        exact has
      · rw [copying]
        exact has
      · have before := given entry member warp
        rw [copying] at before
        exact ⟨before.reserves, before.claims⟩
  | wroteCompletion warp batch task batchStart writing =>
      refine ⟨once_move claims fun item has => .inl ?_, once_move reserves fun item has => .inl ?_,
        below, fun entry member => forall_move (given entry member) ?_, completions, tasks⟩
      · rw [writing]
        exact has
      · rw [writing]
        exact has
      · have before := given entry member warp
        rw [writing] at before
        exact ⟨before.reserves, before.claims⟩
  | published warp batch publishing =>
      have own := fits warp
      rw [publishing] at own
      obtain ⟨inside, taskBound, completionBound⟩ := own
      obtain ⟨restClaims, restReserves⟩ := nextTask_rest batch
      have claimed : (system.warps warp).Claims (batch.taskBase + batch.batchIndex) := by
        rw [publishing]
        exact ⟨Nat.le_refl _, by omega⟩
      have reserved : (system.warps warp).Reserves (batch.completionBase + batch.batchIndex) := by
        rw [publishing]
        exact ⟨Nat.le_refl _, by omega⟩
      refine ⟨once_move claims fun item has => .inl ?_, once_move reserves fun item has => .inl ?_,
        ?_, ?_, ?_, ?_⟩
      · rw [publishing]
        exact ⟨(restClaims item has).1.le, (restClaims item has).2⟩
      · rw [publishing]
        exact ⟨(restReserves item has).1.le, (restReserves item has).2⟩
      · intro entry member
        rcases List.mem_append.mp member with old | new
        · exact below entry old
        · rw [List.mem_singleton.mp new]
          exact ⟨by dsimp only [move]; omega, by dsimp only [move]; omega⟩
      · intro entry member
        rcases List.mem_append.mp member with old | new
        · refine forall_move (given entry old) ⟨fun has => ?_, fun has => ?_⟩
          · refine (given entry old warp).reserves ?_
            rw [publishing]
            exact ⟨(restReserves _ has).1.le, (restReserves _ has).2⟩
          · refine (given entry old warp).claims ?_
            rw [publishing]
            exact ⟨(restClaims _ has).1.le, (restClaims _ has).2⟩
        · rw [List.mem_singleton.mp new]
          intro other
          dsimp only [move]
          rw [Function.update_apply]
          split
          · exact ⟨fun has => absurd (restReserves _ has).1 (Nat.lt_irrefl _),
              fun has => absurd (restClaims _ has).1 (Nat.lt_irrefl _)⟩
          · rename_i different
            exact ⟨fun has => different (reserves other warp _ has reserved),
              fun has => different (claims other warp _ has claimed)⟩
      · refine nodup_concat completions fun inside => ?_
        obtain ⟨entry, member, same⟩ := List.mem_map.mp inside
        refine (given entry member warp).reserves ?_
        rwa [same]
      · refine nodup_concat tasks fun inside => ?_
        obtain ⟨entry, member, same⟩ := List.mem_map.mp inside
        refine (given entry member warp).claims ?_
        rwa [same]

/-! ## Task slots -/

theorem nextTask_parts (batch : Batch) :
    (∀ task, (nextTask { batch with batchIndex := batch.batchIndex + 1 }).Unread task →
      (Warp.publish batch).Unread task) ∧
    (∀ task, (nextTask { batch with batchIndex := batch.batchIndex + 1 }).Uncopied task →
      (Warp.publish batch).Uncopied task) ∧
    (∀ task, ¬(nextTask { batch with batchIndex := batch.batchIndex + 1 }).Copied task) ∧
    (∀ submitted, (nextTask { batch with batchIndex := batch.batchIndex + 1 }).Loaded submitted) ∧
    ∀ other, nextTask { batch with batchIndex := batch.batchIndex + 1 } ≠ .publish other := by
  unfold nextTask
  split
  · exact ⟨fun task unread => ⟨Nat.lt_of_succ_le unread.1, unread.2⟩,
      fun task uncopied => ⟨Nat.lt_of_succ_le uncopied.1, uncopied.2⟩, fun _ => id,
      fun _ => trivial, nofun⟩
  · exact ⟨nofun, nofun, fun _ => id, fun _ => trivial, nofun⟩

theorem Change.taskSlots (change : Change system next) (invariant : system.Invariant) :
    next.TaskSlots := by
  have order := invariant.counters.order
  have fits := invariant.counters.warps
  have room := invariant.counters.room
  obtain ⟨unread, slots, loaded⟩ := invariant.taskSlots
  cases change with
  | quiet agrees _ =>
      constructor
      all_goals
        simp only [agrees.warps, agrees.submitted, agrees.taskSlots]
        assumption
  | @wrote task host submitTail later reclaims space _ =>
      refine ⟨fun warp index reads => ?_, fun index stored found near => ?_,
        fun warp => (loaded warp).mono [task]⟩
      · have kept := unread warp index reads
        rw [List.length_append, List.length_singleton]
        by_contra full
        obtain ⟨completion, member⟩ := reclaims.reclaimed index (by omega)
        exact (invariant.owners.given _ member warp).claims reads.claims
      · rw [List.length_append, List.length_singleton] at near
        dsimp only at found ⊢
        rw [List.getElem?_append] at found
        split at found
        · rename_i inside
          rw [Function.update_of_ne]
          · exact slots index stored found (by omega)
          · intro same
            have := slot_inj (by omega) (by omega) same
            omega
        · rw [List.getElem?_singleton] at found
          split at found <;> cases found
          have last : index = system.submitted.length := by omega
          rw [last, Function.update_self]
  | storedTail => exact ⟨unread, slots, loaded⟩
  | polled => exact ⟨unread, slots, loaded⟩
  | looked warp pc before after _ =>
      exact ⟨items_move unread fun task reads => absurd reads.claims (after.not_claims task), slots,
        forall_move loaded (after.loaded _)⟩
  | claimed warp taskCount claiming =>
      refine ⟨items_move unread fun task reads => ?_, slots, forall_move loaded trivial⟩
      have := reads.1
      omega
  | reserved warp taskBase taskCount reserving =>
      refine ⟨items_move unread fun task reads => unread warp task ?_, slots,
        forall_move loaded trivial⟩
      rw [reserving]
      exact reads
  | loaded warp batch loading =>
      have own := fits warp
      rw [loading] at own
      obtain ⟨inside, taskBound, -⟩ := own
      refine ⟨items_move unread fun task reads => unread warp task ?_, slots,
        forall_move loaded ?_⟩
      · rw [loading]
        exact ⟨reads.1.le, reads.2⟩
      · have near := unread warp (batch.taskBase + batch.batchIndex) (by
          rw [loading]
          exact ⟨Nat.le_refl _, by omega⟩)
        obtain ⟨stored, found⟩ : ∃ stored,
            system.submitted[batch.taskBase + batch.batchIndex]? = some stored :=
          ⟨_, List.getElem?_eq_getElem (by omega)⟩
        rw [Warp.Loaded, slots _ _ found near]
        exact found
  | copied warp batch task copying =>
      have own := loaded warp
      rw [copying] at own
      refine ⟨items_move unread fun index reads => unread warp index ?_, slots,
        forall_move loaded own⟩
      rw [copying]
      exact reads
  | wroteCompletion warp batch task batchStart writing =>
      refine ⟨items_move unread fun index reads => unread warp index ?_, slots,
        forall_move loaded trivial⟩
      rw [writing]
      exact reads
  | published warp batch publishing =>
      obtain ⟨restUnread, -, -, restLoaded, -⟩ := nextTask_parts batch
      refine ⟨items_move unread fun index reads => unread warp index ?_, slots,
        forall_move loaded (restLoaded _)⟩
      rw [publishing]
      exact restUnread index reads

/-! ## Completion slots -/

/-- A completion that is reserved is not polled. -/
theorem Invariant.not_polled (invariant : system.Invariant) {warp : Fin shape.copyWarps}
    {completion : Nat} (reserves : (system.warps warp).Reserves completion) :
    system.completionHead ≤ completion := by
  by_contra polled
  obtain ⟨tasks, length, published, -⟩ := invariant.ledger.polled
  obtain ⟨task, found⟩ : ∃ task, tasks[completion]? = some task :=
    ⟨_, List.getElem?_eq_getElem (by omega)⟩
  exact (invariant.owners.given _ (published _ _ found) warp).reserves reserves

/-- Two completions that are not polled have different slots. -/
theorem Invariant.slots_apart (invariant : system.Invariant) {left right : Nat}
    (leftBelow : left < system.control.completionTail)
    (rightBelow : right < system.control.completionTail) (leftNew : system.completionHead ≤ left)
    (rightNew : system.completionHead ≤ right) (different : left ≠ right) :
    slot shape left ≠ slot shape right := by
  have order := invariant.counters.order
  have room := invariant.counters.room
  exact fun same => different (slot_inj (by omega) (by omega) same)

theorem Shows.append {completion task : Nat} (shows : system.Shows completion task)
    (submitted : next.submitted = system.submitted ∨
      ∃ later, next.submitted = system.submitted ++ later)
    (slots : (next.completionSlots (slot shape completion)).completion =
      (system.completionSlots (slot shape completion)).completion) :
    next.Shows completion task := by
  obtain ⟨stored, found, shown⟩ := shows
  refine ⟨stored, ?_, slots.trans shown⟩
  rcases submitted with same | ⟨later, more⟩
  · rw [same]
    exact found
  · rw [more]
    exact getElem?_append found later

/-- A step that leaves the completion slots and the published completions alone. -/
theorem CompletionSlots.of_same (completionSlots : system.CompletionSlots)
    (slots : next.completionSlots = system.completionSlots)
    (published : next.published = system.published)
    (completionHead : system.completionHead ≤ next.completionHead)
    (submitted : next.submitted = system.submitted ∨
      ∃ later, next.submitted = system.submitted ++ later)
    (warps : ∀ warp batch, next.warps warp = .publish batch →
      system.warps warp = .publish batch) : next.CompletionSlots where
  written := fun warp batch pc =>
    (completionSlots.written warp batch (warps warp batch pc)).append submitted (by rw [slots])
  stored := by
    intro entry member later
    rw [published] at member
    obtain ⟨sequence, shows⟩ := completionSlots.stored entry member (completionHead.trans later)
    rw [slots]
    exact ⟨sequence, shows.append submitted (by rw [slots])⟩
  sequences := by
    rw [slots, published]
    exact completionSlots.sequences

theorem publish_of_move {warp other : Fin shape.copyWarps} {pc : Warp} {batch : Batch}
    (moved : (system.move warp pc).warps other = .publish batch)
    (elsewhere : ∀ batch, pc ≠ .publish batch) : system.warps other = .publish batch := by
  dsimp only [move] at moved
  rw [Function.update_apply] at moved
  split at moved
  · exact absurd moved (elsewhere batch)
  · exact moved

theorem Change.completionSlots (change : Change system next) (invariant : system.Invariant) :
    next.CompletionSlots := by
  have fits := invariant.counters.warps
  have slots := invariant.completionSlots
  cases change with
  | quiet agrees _ =>
      exact slots.of_same agrees.completionSlots agrees.published agrees.completionHead.ge
        (.inl agrees.submitted) fun warp batch pc => by rwa [agrees.warps] at pc
  | wrote => exact slots.of_same rfl rfl (Nat.le_refl _) (.inr ⟨_, rfl⟩) fun _ _ => id
  | storedTail => exact slots.of_same rfl rfl (Nat.le_refl _) (.inl rfl) fun _ _ => id
  | polled => exact slots.of_same rfl rfl (Nat.le_succ _) (.inl rfl) fun _ _ => id
  | looked warp pc before after _ =>
      refine slots.of_same rfl rfl (Nat.le_refl _) (.inl rfl) fun other batch moved =>
        publish_of_move moved fun batch same => ?_
      rw [same] at after
      exact after
  | claimed =>
      exact slots.of_same rfl rfl (Nat.le_refl _) (.inl rfl) fun other batch moved =>
        publish_of_move moved nofun
  | reserved =>
      exact slots.of_same rfl rfl (Nat.le_refl _) (.inl rfl) fun other batch moved =>
        publish_of_move moved nofun
  | loaded =>
      exact slots.of_same rfl rfl (Nat.le_refl _) (.inl rfl) fun other batch moved =>
        publish_of_move moved nofun
  | copied =>
      exact slots.of_same rfl rfl (Nat.le_refl _) (.inl rfl) fun other batch moved =>
        publish_of_move moved nofun
  | wroteCompletion warp batch task batchStart writing =>
      have own := fits warp
      have loaded := invariant.taskSlots.loaded warp
      rw [writing] at own loaded
      obtain ⟨inside, -, bound⟩ := own
      have reserves : (system.warps warp).Reserves (batch.completionBase + batch.batchIndex) := by
        rw [writing]
        exact ⟨Nat.le_refl _, by omega⟩
      have new := invariant.not_polled reserves
      refine ⟨fun other otherBatch moved => ?_, fun entry member later => ?_, fun index => ?_⟩
      · dsimp only [move] at moved
        rw [Function.update_apply] at moved
        split at moved
        · cases moved
          exact ⟨task, loaded, by dsimp only [move]; rw [Function.update_self]⟩
        · rename_i different
          have otherFits := fits other
          rw [moved] at otherFits
          have otherReserves : (system.warps other).Reserves
              (otherBatch.completionBase + otherBatch.batchIndex) := by
            rw [moved]
            exact ⟨Nat.le_refl _, by have := otherFits.1; omega⟩
          refine (slots.written other otherBatch moved).append (.inl rfl) ?_
          dsimp only [move]
          rw [Function.update_of_ne]
          refine invariant.slots_apart (otherReserves.lt (fits other)) (by omega)
            (invariant.not_polled otherReserves) new fun same => different ?_
          rw [same] at otherReserves
          exact invariant.owners.reserves other warp _ otherReserves reserves
      · obtain ⟨sequence, shows⟩ := slots.stored entry member later
        have apart := invariant.slots_apart (invariant.owners.below entry member).1
          (reserves.lt (fits warp)) later new fun same => by
            have given := (invariant.owners.given entry member warp).reserves
            rw [same] at given
            exact given reserves
        refine ⟨?_, shows.append (.inl rfl) ?_⟩
        · dsimp only [move]
          rw [Function.update_of_ne apart]
          exact sequence
        · dsimp only [move]
          rw [Function.update_of_ne apart]
      · dsimp only [move]
        rw [Function.update_apply]
        split
        · exact slots.sequences _
        · exact slots.sequences index
  | published warp batch publishing =>
      have own := fits warp
      rw [publishing] at own
      obtain ⟨inside, -, bound⟩ := own
      have reserves : (system.warps warp).Reserves (batch.completionBase + batch.batchIndex) := by
        rw [publishing]
        exact ⟨Nat.le_refl _, by omega⟩
      have new := invariant.not_polled reserves
      have contents : ∀ index, (Function.update system.completionSlots
          (slot shape (batch.completionBase + batch.batchIndex))
          { system.completionSlots (slot shape (batch.completionBase + batch.batchIndex)) with
            sequence := batch.completionBase + batch.batchIndex + 1 } index).completion =
          (system.completionSlots index).completion := by
        intro index
        rw [Function.update_apply]
        split
        · rename_i same
          rw [same]
        · rfl
      obtain ⟨-, -, -, -, elsewhere⟩ := nextTask_parts batch
      refine ⟨fun other otherBatch moved => ?_, fun entry member later => ?_, fun index => ?_⟩
      · exact (slots.written other otherBatch (publish_of_move moved
          elsewhere)).append (.inl rfl) (contents _)
      · rcases List.mem_append.mp member with old | added
        · obtain ⟨sequence, shows⟩ := slots.stored entry old later
          have apart := invariant.slots_apart (invariant.owners.below entry old).1
            (reserves.lt (fits warp)) later new fun same => by
              have given := (invariant.owners.given entry old warp).reserves
              rw [same] at given
              exact given reserves
          refine ⟨?_, shows.append (.inl rfl) (contents _)⟩
          dsimp only [move]
          rw [Function.update_of_ne apart]
          exact sequence
        · rw [List.mem_singleton.mp added]
          refine ⟨?_, (slots.written warp batch publishing).append (.inl rfl) (contents _)⟩
          dsimp only [move]
          rw [Function.update_self]
      · dsimp only [move]
        rw [Function.update_apply]
        split
        · exact .inr ⟨_, List.mem_append_right _ (List.mem_singleton.mpr rfl), rfl⟩
        · rcases slots.sequences index with unused | ⟨entry, member, sequence⟩
          · exact .inl unused
          · exact .inr ⟨entry, List.mem_append_left _ member, sequence⟩

/-! ## Ledger -/

theorem nextTask_not_copied (batch : Batch) (task : Nat) :
    ¬(nextTask { batch with batchIndex := batch.batchIndex + 1 }).Copied task :=
  (nextTask_parts batch).2.2.1 task

/-- The completions that were polled belong to tasks that are still there. -/
theorem polled_append {tasks : List Nat} {polled : List CopyCompletion}
    {submitted : List CopyTask} (later : List CopyTask)
    (matched : List.Forall₂ (fun task completion => ∃ stored, submitted[task]? = some stored ∧
      completion = ⟨stored.taskId, .success⟩) tasks polled) :
    List.Forall₂ (fun task completion => ∃ stored, (submitted ++ later)[task]? = some stored ∧
      completion = ⟨stored.taskId, .success⟩) tasks polled :=
  matched.imp fun _ _ ⟨stored, found, same⟩ => ⟨stored, getElem?_append found later, same⟩

/-- A step in which no copy is made and nothing is published or polled. -/
theorem Ledger.of_same (ledger : system.Ledger) (copied : next.copied = system.copied)
    (published : next.published = system.published) (polled : next.polled = system.polled)
    (completionHead : next.completionHead = system.completionHead)
    (taskHead : system.control.taskHead ≤ next.control.taskHead)
    (submitted : ∃ later, next.submitted = system.submitted ++ later)
    (uncopied : ∀ warp task, (next.warps warp).Uncopied task →
      (∃ other, (system.warps other).Uncopied task) ∨ system.control.taskHead ≤ task)
    (copies : ∀ warp task, (next.warps warp).Copied task →
      ∃ other, (system.warps other).Copied task) : next.Ledger := by
  obtain ⟨later, submitted⟩ := submitted
  refine ⟨?_, ?_, ?_, ?_, ?_, ?_, ?_⟩
  · rw [copied]
    exact ledger.once
  · intro copy member
    rw [copied] at member
    rw [submitted]
    exact getElem?_append (ledger.fields copy member) later
  · intro copy member
    rw [copied] at member
    exact (ledger.below copy member).trans_le taskHead
  · intro warp task waits
    rw [copied]
    rcases uncopied warp task waits with ⟨other, before⟩ | new
    · exact ledger.uncopied other task before
    · intro inside
      obtain ⟨copy, member, same⟩ := List.mem_map.mp inside
      have := ledger.below copy member
      omega
  · intro warp task made
    rw [copied]
    obtain ⟨other, before⟩ := copies warp task made
    exact ledger.copied other task before
  · intro entry member
    rw [published] at member
    rw [copied]
    exact ledger.published entry member
  · obtain ⟨tasks, length, order, matched⟩ := ledger.polled
    rw [completionHead, published, polled, submitted]
    exact ⟨tasks, length, order, polled_append later matched⟩

theorem exists_move {holds : Warp → Nat → Prop} {warp : Fin shape.copyWarps} {pc : Warp}
    {elsewhere : Nat → Prop}
    (gains : ∀ item, holds pc item → holds (system.warps warp) item ∨ elsewhere item)
    (other : Fin shape.copyWarps) (item : Nat)
    (has : holds (Function.update system.warps warp pc other) item) :
    (∃ other, holds (system.warps other) item) ∨ elsewhere item := by
  rw [Function.update_apply] at has
  split at has
  · exact (gains item has).imp_left fun before => ⟨warp, before⟩
  · exact .inl ⟨other, has⟩

theorem had_move {holds : Warp → Nat → Prop} {warp : Fin shape.copyWarps} {pc : Warp}
    (gains : ∀ item, holds pc item → holds (system.warps warp) item)
    (other : Fin shape.copyWarps) (item : Nat)
    (has : holds (Function.update system.warps warp pc other) item) :
    ∃ other, holds (system.warps other) item := by
  rw [Function.update_apply] at has
  split at has
  · exact ⟨warp, gains item has⟩
  · exact ⟨other, has⟩

theorem Change.ledger (change : Change system next) (invariant : system.Invariant) :
    next.Ledger := by
  have fits := invariant.counters.warps
  have ledger := invariant.ledger
  cases change with
  | quiet agrees _ =>
      refine ledger.of_same agrees.copied agrees.published agrees.polled agrees.completionHead
        agrees.taskHead.ge ⟨[], by rw [agrees.submitted, List.append_nil]⟩ ?_ ?_
      · rw [agrees.warps]
        exact fun warp task waits => .inl ⟨warp, waits⟩
      · rw [agrees.warps]
        exact fun warp task made => ⟨warp, made⟩
  | wrote =>
      exact ledger.of_same rfl rfl rfl rfl (Nat.le_refl _) ⟨_, rfl⟩
        (fun warp _ waits => .inl ⟨warp, waits⟩) fun warp _ made => ⟨warp, made⟩
  | storedTail =>
      exact ledger.of_same rfl rfl rfl rfl (Nat.le_refl _) ⟨[], (List.append_nil _).symm⟩
        (fun warp _ waits => .inl ⟨warp, waits⟩) fun warp _ made => ⟨warp, made⟩
  | polled batches reading =>
      have host := invariant.counters.host
      rw [HostFits, reading] at host
      obtain ⟨-, task, member⟩ := host
      obtain ⟨stored, found, shown⟩ :=
        (invariant.completionSlots.stored _ member (Nat.le_refl _)).2
      obtain ⟨tasks, length, order, matched⟩ := ledger.polled
      refine ⟨ledger.once, ledger.fields, ledger.below, ledger.uncopied, ledger.copied,
        ledger.published, tasks ++ [task], ?_, ?_, ?_⟩
      · rw [List.length_append, List.length_singleton, length]
      · intro completion polledTask place
        rw [List.getElem?_append] at place
        split at place
        · exact order completion polledTask place
        · rw [List.getElem?_singleton] at place
          split at place <;> cases place
          have here : completion = system.completionHead := by omega
          rwa [here]
      · exact List.rel_append matched (.cons ⟨stored, found, shown⟩ .nil)
  | looked warp pc before after _ =>
      refine ledger.of_same rfl rfl rfl rfl (Nat.le_refl _) ⟨[], (List.append_nil _).symm⟩
        (exists_move fun task waits => absurd waits.claims (after.not_claims task))
        (had_move fun task made => absurd made (after.not_copied task))
  | claimed warp taskCount claiming =>
      exact ledger.of_same rfl rfl rfl rfl (Nat.le_add_right ..) ⟨[], (List.append_nil _).symm⟩
        (exists_move fun task waits => .inr waits.1)
        (had_move (by rintro task ⟨⟩))
  | reserved warp taskBase taskCount reserving =>
      refine ledger.of_same rfl rfl rfl rfl (Nat.le_refl _) ⟨[], (List.append_nil _).symm⟩
        (exists_move fun task waits => .inl ?_)
        (had_move (by rintro task ⟨⟩))
      rw [reserving]
      exact waits
  | loaded warp batch loading =>
      refine ledger.of_same rfl rfl rfl rfl (Nat.le_refl _) ⟨[], (List.append_nil _).symm⟩
        (exists_move fun task waits => .inl ?_)
        (had_move (by rintro task ⟨⟩))
      rw [loading]
      exact waits
  | copied warp batch task copying =>
      have own := fits warp
      have loaded := invariant.taskSlots.loaded warp
      rw [copying] at own loaded
      obtain ⟨inside, bound, -⟩ := own
      have waits : (system.warps warp).Uncopied (batch.taskBase + batch.batchIndex) := by
        rw [copying]
        exact ⟨Nat.le_refl _, by omega⟩
      have fresh := ledger.uncopied warp _ waits
      refine ⟨nodup_concat ledger.once fresh, ?_, ?_, ?_, ?_, ?_, ledger.polled⟩
      · intro copy member
        rcases List.mem_append.mp member with old | new
        · exact ledger.fields copy old
        · rw [List.mem_singleton.mp new]
          exact loaded
      · intro copy member
        rcases List.mem_append.mp member with old | new
        · exact ledger.below copy old
        · rw [List.mem_singleton.mp new]
          dsimp only [move]
          omega
      · intro other index still
        dsimp only [move] at still ⊢
        rw [List.map_append, List.mem_append, not_or, List.map_singleton, List.mem_singleton]
        rw [Function.update_apply] at still
        split at still
        · refine ⟨ledger.uncopied warp index ?_, Nat.ne_of_gt still.1⟩
          rw [copying]
          exact ⟨still.1.le, still.2⟩
        · rename_i different
          refine ⟨ledger.uncopied other index still, fun same => different ?_⟩
          subst same
          exact invariant.owners.claims other warp _ still.claims waits.claims
      · intro other index made
        dsimp only [move] at made ⊢
        rw [List.map_append, List.mem_append]
        rw [Function.update_apply] at made
        split at made
        · rw [show index = batch.taskBase + batch.batchIndex from made]
          exact .inr (List.mem_singleton.mpr rfl)
        · exact .inl (ledger.copied other index made)
      · intro entry member
        dsimp only [move]
        rw [List.map_append]
        exact List.mem_append_left _ (ledger.published entry member)
  | wroteCompletion warp batch task batchStart writing =>
      refine ledger.of_same rfl rfl rfl rfl (Nat.le_refl _) ⟨[], (List.append_nil _).symm⟩
        (exists_move fun index waits => .inl ?_)
        (had_move fun index made => ?_)
      · rw [writing]
        exact waits
      · rw [writing]
        exact made
  | published warp batch publishing =>
      obtain ⟨-, restUncopied, -, -, -⟩ := nextTask_parts batch
      have made : batch.taskBase + batch.batchIndex ∈ system.copied.map Prod.fst := by
        refine ledger.copied warp _ ?_
        rw [publishing]
        exact rfl
      obtain ⟨tasks, length, order, matched⟩ := ledger.polled
      refine ⟨ledger.once, ledger.fields, ledger.below,
        items_move ledger.uncopied fun task waits => ledger.uncopied warp task ?_,
        items_move ledger.copied fun task made => absurd made (nextTask_not_copied batch task),
        fun entry member => ?_, tasks, length, fun completion task place =>
          List.mem_append_left _ (order completion task place), matched⟩
      · rw [publishing]
        exact restUncopied task waits
      · rcases List.mem_append.mp member with old | new
        · exact ledger.published entry old
        · rw [List.mem_singleton.mp new]
          exact made

theorem Change.invariant (change : Change system next) (invariant : system.Invariant) :
    next.Invariant :=
  ⟨change.counters invariant, change.owners invariant, change.taskSlots invariant,
    change.completionSlots invariant, change.ledger invariant⟩

/-! ## Exactly once -/

/-- When the host writes a slot, no warp has claimed the task in it without having read it. -/
def KeepsTasks (system : System shape) : Action shape → Prop
  | .host =>
      match system.host with
      | .writeTask _ index =>
          ∀ warp task, (system.warps warp).Unread task →
            slot shape task ≠ slot shape (wrapAdd 64 system.submitTail index)
      | _ => True
  | _ => True

structure ExactlyOnce (system : System shape) : Prop where
  /-- When a warp writes a completion slot, the completion in it was polled. -/
  completions : ∀ warp batch task, system.warps warp = .writeCompletion batch task →
    ∀ entry ∈ system.published, slot shape entry.1 = slot shape batch.completionIndex →
      entry.1 < system.completionHead
  once : (system.copied.map Prod.fst).Nodup
  fields : ∀ copy ∈ system.copied, system.submitted[copy.1]? = some copy.2
  drained : system.host = .idle → system.submitTail = system.completionHead →
    (system.copied.map Prod.fst).Perm (List.range system.submitted.length) ∧
    (system.polled.map CopyCompletion.taskId).Perm (system.submitted.map CopyTask.taskId)

theorem Invariant.keepsTasks (invariant : system.Invariant) {action : Action shape}
    (admissible : Admissible system action) : KeepsTasks system action := by
  cases action with
  | call call => trivial
  | warp warp => trivial
  | host =>
      have fits := invariant.counters.host
      have order := invariant.counters.order
      have bounded := invariant.counters.bounded
      unfold KeepsTasks
      dsimp only
      split
      · rename_i tasks index writing
        simp only [Admissible, writing] at admissible
        rw [HostFits, writing] at fits
        obtain ⟨length, inside, room⟩ := fits
        intro warp task unread same
        have near := invariant.taskSlots.unread warp task unread
        have below := unread.claims.lt (invariant.counters.warps warp)
        rw [wrapAdd_of_lt (by omega)] at same
        by_cases last : system.submitted.length = task + shape.capacity
        · obtain ⟨completion, member⟩ := admissible.reclaimed task last.symm
          exact (invariant.owners.given _ member warp).claims unread.claims
        · have := slot_inj (by omega) (by omega) same
          omega
      · trivial

/-- The tasks of the polled completions, once all are polled. -/
theorem polled_all {tasks : List Nat} {polled : List CopyCompletion} {submitted : List CopyTask}
    (matched : List.Forall₂ (fun task completion => ∃ stored, submitted[task]? = some stored ∧
      completion = ⟨stored.taskId, .success⟩) tasks polled)
    (all : tasks.Perm (List.range submitted.length)) :
    (polled.map CopyCompletion.taskId).Perm (submitted.map CopyTask.taskId) := by
  have ids : polled.map CopyCompletion.taskId =
      tasks.map fun task => (submitted.map CopyTask.taskId)[task]?.getD 0 := by
    clear all
    induction matched with
    | nil => rfl
    | cons here _ induction =>
        obtain ⟨stored, found, rfl⟩ := here
        rw [List.map_cons, List.map_cons, induction, List.getElem?_map, found]
        rfl
  have whole : (List.range submitted.length).map
      (fun task => (submitted.map CopyTask.taskId)[task]?.getD 0) =
      submitted.map CopyTask.taskId := by
    refine List.ext_getElem? fun index => ?_
    rw [List.getElem?_map, List.getElem?_map]
    by_cases inside : index < submitted.length
    · simp [inside]
    · simp [inside]
  have permuted := all.map fun task => (submitted.map CopyTask.taskId)[task]?.getD 0
  rw [whole] at permuted
  rwa [ids]

theorem Invariant.exactlyOnce (invariant : system.Invariant) : system.ExactlyOnce where
  completions := by
    intro warp batch task writing entry member same
    have fits := invariant.counters.warps warp
    rw [writing] at fits
    obtain ⟨inside, -, bound⟩ := fits
    have order := invariant.counters.order
    have bounded := invariant.counters.bounded
    have reserves : (system.warps warp).Reserves (batch.completionBase + batch.batchIndex) := by
      rw [writing]
      exact ⟨Nat.le_refl _, by omega⟩
    have index : batch.completionIndex = batch.completionBase + batch.batchIndex :=
      wrapAdd_of_lt (by omega)
    rw [index] at same
    by_contra later
    refine invariant.slots_apart (invariant.owners.below entry member).1
      (reserves.lt (invariant.counters.warps warp)) (Nat.not_lt.mp later)
      (invariant.not_polled reserves) (fun equal => ?_) same
    have given := (invariant.owners.given entry member warp).reserves
    rw [equal] at given
    exact given reserves
  once := invariant.ledger.once
  fields := invariant.ledger.fields
  drained := by
    intro idle drained
    have host := invariant.counters.host
    rw [HostFits, idle] at host
    have length : system.submitted.length = system.submitTail := host
    have order := invariant.counters.order
    obtain ⟨tasks, count, published, matched⟩ := invariant.ledger.polled
    have nodup : tasks.Nodup := by
      refine List.nodup_iff_injective_get.mpr fun left right same => ?_
      have leftEntry := published left _ (List.getElem?_eq_getElem left.isLt)
      have rightEntry := published right _ (List.getElem?_eq_getElem right.isLt)
      have equal := List.inj_on_of_nodup_map invariant.owners.tasks leftEntry rightEntry same
      exact Fin.ext (congrArg Prod.fst equal)
    have inside : tasks ⊆ List.range system.submitted.length := by
      intro task member
      obtain ⟨completion, found⟩ := List.mem_iff_getElem?.mp member
      have below := (invariant.owners.below _ (published _ _ found)).2
      exact List.mem_range.mpr (by omega)
    have all : tasks.Perm (List.range system.submitted.length) :=
      (List.subperm_of_subset nodup inside).perm_of_length_le (by
        rw [List.length_range]
        omega)
    refine ⟨?_, polled_all matched all⟩
    refine (List.perm_ext_iff_of_nodup invariant.ledger.once List.nodup_range).mpr fun task => ?_
    rw [List.mem_range]
    constructor
    · intro member
      obtain ⟨copy, copied, rfl⟩ := List.mem_map.mp member
      have below := invariant.ledger.below copy copied
      omega
    · intro small
      obtain ⟨completion, found⟩ :=
        List.mem_iff_getElem?.mp (all.mem_iff.mpr (List.mem_range.mpr small))
      exact invariant.ledger.published _ (published _ _ found)

theorem run_keeps {actions : List (Action shape)} (invariant : system.Invariant)
    (admissible : Execution.Along step Admissible system actions) :
    Execution.Along step KeepsTasks system actions ∧
      (Execution.run step system actions).Invariant := by
  induction actions generalizing system with
  | nil => exact ⟨trivial, invariant⟩
  | cons action actions induction =>
      have change := step_change invariant action admissible.1
      obtain ⟨keeps, final⟩ := induction (change.invariant invariant) admissible.2
      exact ⟨⟨invariant.keepsTasks admissible.1, keeps⟩, final⟩

/-- When the host fills a slot again only after the completion of the task in it was
published, every task is copied and polled exactly once. -/
theorem exactly_once (shape : Shape) (actions : List (Action shape))
    (admissible : Execution.Along step Admissible {} actions) :
    Execution.Along step KeepsTasks {} actions ∧ (Execution.run step {} actions).ExactlyOnce := by
  obtain ⟨keeps, invariant⟩ := run_keeps initial_invariant admissible
  exact ⟨keeps, invariant.exactlyOnce⟩

theorem reclaims_iff (system : System shape) :
    system.Reclaims ↔ system.submitted.length + 2 < 2 ^ 64 ∧
      (shape.capacity ≤ system.submitted.length →
        system.submitted.length - shape.capacity ∈ system.published.map Prod.snd) := by
  constructor
  · intro reclaims
    refine ⟨reclaims.bounded, fun full => ?_⟩
    obtain ⟨completion, member⟩ := reclaims.reclaimed _ (Nat.sub_add_cancel full)
    exact List.mem_map.mpr ⟨_, member, rfl⟩
  · rintro ⟨bounded, reclaimed⟩
    refine ⟨bounded, fun task same => ?_⟩
    obtain ⟨⟨completion, found⟩, member, equal⟩ := List.mem_map.mp (reclaimed (by omega))
    refine ⟨completion, ?_⟩
    have here : found = task := by
      rw [← same] at equal
      simpa using equal
    rwa [here] at member

instance decidableReclaims (system : System shape) : Decidable system.Reclaims :=
  decidable_of_iff _ (reclaims_iff system).symm

instance decidableAdmissible (system : System shape) (action : Action shape) :
    Decidable (Admissible system action) :=
  match action with
  | .host =>
      match found : system.host with
      | .writeTask _ _ => decidable_of_iff system.Reclaims (by simp only [Admissible, found])
      | .idle | .storeTail _ | .loadSequence | .readCompletion | .storeStop =>
          isTrue (by simp only [Admissible, found])
  | .call _ => isTrue trivial
  | .warp _ => isTrue trivial

/-! ## Two slots, four warps -/

def twoSlots : Shape where
  capacity := 2
  copyWarps := 4
  deviceBatch := 1
  power := by decide
  warps := by decide
  batch := by decide
  fits := by decide

def sampleTask (taskId : Nat) : CopyTask :=
  ⟨taskId, 4096, 8, 0⟩

def submit (tasks : List CopyTask) : List (Action twoSlots) :=
  .call (.trySubmitBatch tasks) :: List.replicate (tasks.length + 1) .host

def poll : List (Action twoSlots) :=
  [.call .tryPoll, .host, .host]

def work (warp : Fin 4) (steps : Nat) : List (Action twoSlots) :=
  List.replicate steps (.warp warp)

/-- One warp, one task at a time: the slots are used again after the completions. -/
def orderlyRun : List (Action twoSlots) :=
  submit [sampleTask 1, sampleTask 2] ++ work 0 8 ++ work 0 8 ++ poll ++ poll ++
    submit [sampleTask 3] ++ work 1 8 ++ poll

theorem exactly_once_orderly :
    let system := Execution.run step {} orderlyRun
    system.submitted.length = 3 ∧ system.ExactlyOnce ∧
      (system.polled.map CopyCompletion.taskId).Perm [1, 2, 3] := by
  intro system
  have once := (exactly_once twoSlots orderlyRun (by decide +kernel)).2
  refine ⟨by decide +kernel, once, ?_⟩
  exact (once.drained (by decide +kernel) (by decide +kernel)).2

/-- Two warps claim the two tasks, and the second one finishes first. The host then fills the
slot of the first task, which is not read yet. -/
def overtakingRun : List (Action twoSlots) :=
  submit [sampleTask 1, sampleTask 2] ++ work 0 3 ++ work 1 8 ++ poll ++
    submit [sampleTask 3] ++ work 2 8 ++ work 0 5 ++ poll ++ poll

/-- The third task is copied and polled twice, and the first one never. -/
theorem overtaken_slot :
    let system := Execution.run step ({} : System twoSlots) overtakingRun
    (system.submitted.map CopyTask.taskId = [1, 2, 3] ∧
        system.copied = [(1, sampleTask 2), (2, sampleTask 3), (0, sampleTask 3)] ∧
        system.polled.map CopyCompletion.taskId = [2, 3, 3]) ∧
      ¬∀ (shape : Shape) (actions : List (Action shape)),
        Execution.Along step KeepsTasks {} actions ∧
          (Execution.run step {} actions).ExactlyOnce := by
  intro system
  refine ⟨by decide +kernel, fun always => ?_⟩
  have once := (always twoSlots overtakingRun).2
  have drained := (once.drained (by decide +kernel) (by decide +kernel)).2
  have polled : (Execution.run step ({} : System twoSlots) overtakingRun).polled.map
      CopyCompletion.taskId = [2, 3, 3] := by decide +kernel
  have submitted : (Execution.run step ({} : System twoSlots) overtakingRun).submitted.map
      CopyTask.taskId = [1, 2, 3] := by decide +kernel
  rw [polled, submitted] at drained
  exact absurd drained (by decide)

end System

end Ugdr.Gpu.DirectAtomic
