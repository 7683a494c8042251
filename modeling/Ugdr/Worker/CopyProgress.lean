import Ugdr.Worker.Agreement

/-! # Progress of a parent through the backend

What has become of the last parent issued under a request id: the backend requests
made for it, those the backend accepted, and the completions popped. The bitmap,
the counter and the results that the responder keeps for a parent record exactly
the completions popped since it was issued.
-/

namespace Ugdr.Worker

open Ugdr.Queue Ugdr.Control
open Ugdr.Control.QpService (WorkerQpView)

variable {permitted : World → Event → Prop} {world next : World}

/-! ## Progress -/

/-- The last parent issued under a request id and what happened under the id since. -/
structure Progress where
  parent : Option PendingSend := none
  created : List BackendRequest := []
  accepted : List BackendRequest := []
  popped : List BackendCompletion := []

@[simp] def Progress.step (requestId : Nat) (progress : Progress) : Event → Progress
  | .issued _ _ _ parent =>
      if parent.parentRequestId = requestId then { parent := some parent } else progress
  | .disposed _ (.backendRequest request) =>
      if request.parentRequestId = requestId then
        { progress with created := progress.created ++ [request] }
      else
        progress
  | .accepted request =>
      if request.parentRequestId = requestId then
        { progress with accepted := progress.accepted ++ [request] }
      else
        progress
  | .popped completion =>
      if completion.parentRequestId = requestId then
        { progress with popped := progress.popped ++ [completion] }
      else
        progress
  | _ => progress

def progress (requestId : Nat) (trace : List Event) : Progress :=
  trace.foldl (Progress.step requestId) {}

section Progress

variable (requestId : Nat) (trace : List Event)

theorem progress_append (events : List Event) :
    progress requestId (trace ++ events) =
      events.foldl (Progress.step requestId) (progress requestId trace) :=
  List.foldl_append

@[simp] theorem progress_concat (event : Event) :
    progress requestId (trace ++ [event]) = (progress requestId trace).step requestId event :=
  progress_append requestId trace [event]

theorem progress_accepted (requests : List BackendRequest) :
    progress requestId (trace ++ requests.map Event.accepted) =
      { progress requestId trace with
        accepted := (progress requestId trace).accepted ++
          requests.filter fun request => request.parentRequestId = requestId } := by
  induction requests using List.reverseRecOn with
  | nil => simp
  | append_singleton requests request induction =>
      rw [List.map_append, List.map_singleton, ← List.append_assoc, progress_concat, induction,
        List.filter_append]
      by_cases own : request.parentRequestId = requestId <;> simp [Progress.step, own]

/-- Popping completions leaves the other parts as they are. -/
theorem progress_accepted_of_popped (completions : List BackendCompletion) :
    (progress requestId (trace ++ completions.map Event.popped)).accepted =
      (progress requestId trace).accepted := by
  induction completions using List.reverseRecOn with
  | nil => simp
  | append_singleton completions completion induction =>
      rw [List.map_append, List.map_singleton, ← List.append_assoc, progress_concat,
        Progress.step]
      split <;> exact induction

/-- The parent is the last one issued under the id. -/
theorem progress_parent :
    (progress requestId trace).parent =
      (trace.filterMap Event.issued?).reverse.find?
        fun parent => parent.parentRequestId = requestId := by
  induction trace using List.reverseRecOn with
  | nil => rfl
  | append_singleton trace event induction =>
      rw [progress_concat, List.filterMap_append, List.reverse_append]
      cases event with
      | issued service view wqe parent =>
          by_cases own : parent.parentRequestId = requestId <;>
            simp [Progress.step, own, induction]
      | disposed request disposal =>
          cases disposal <;> simp only [Progress.step]
          case backendRequest => split <;> simpa using induction
          all_goals simpa using induction
      | accepted | popped =>
          simp only [Progress.step]
          split <;> simpa using induction
      | _ => simpa [Progress.step] using induction

theorem progress_popped_id :
    ∀ completion ∈ (progress requestId trace).popped,
      completion.parentRequestId = requestId := by
  induction trace using List.reverseRecOn with
  | nil => nofun
  | append_singleton trace event induction =>
      rw [progress_concat]
      cases event with
      | popped popped =>
          rw [Progress.step]
          split
          · rename_i own
            intro completion member
            rcases List.mem_append.mp member with member | member
            · exact induction completion member
            · rwa [List.mem_singleton.mp member]
          · exact induction
      | issued =>
          rw [Progress.step]
          split
          · nofun
          · exact induction
      | accepted =>
          rw [Progress.step]
          split <;> exact induction
      | disposed request disposal =>
          cases disposal <;> simp only [Progress.step]
          case backendRequest => split <;> exact induction
          all_goals exact induction
      | _ => exact induction

/-- A parent that is open under an id is the last one issued under it. -/
theorem progress_parent_of_open {parent : PendingSend}
    (opened : openParent requestId trace = some parent) :
    (progress requestId trace).parent = some parent := by
  rw [progress_parent]
  induction trace using List.reverseRecOn with
  | nil => cases opened
  | append_singleton trace event induction =>
      rw [openParent_concat] at opened
      rw [List.filterMap_append, List.reverse_append]
      cases event with
      | issued service view wqe issued =>
          by_cases own : issued.parentRequestId = requestId
          · simpa [own] using opened
          · simpa [own] using induction (by simpa [own] using opened)
      | consumed response answer =>
          by_cases own : response.parentRequestId = requestId
          · simp [own] at opened
          · simpa using induction (by simpa [own] using opened)
      | _ => simpa using induction opened

end Progress

/-! ## Recorded completions -/

/-- The bitmap, the counter and the results kept for a parent are those of the
completions popped for it. As long as no error is noted, no payload was completed
twice. -/
structure Recorded (inflight : ResponderInflight) (popped : List BackendCompletion) :
    Prop where
  terminalLength : inflight.terminal.length = inflight.payloadCount
  resultsLength : inflight.results.length = inflight.payloadCount
  terminalCount : inflight.terminalCount = inflight.terminal.count true
  terminal : ∀ index, inflight.terminal[index]? = some true ↔
    index < inflight.payloadCount ∧ index ∈ popped.map BackendCompletion.payloadIndex
  clean : inflight.parentError = .success →
    (popped.map BackendCompletion.payloadIndex).Nodup ∧
      ∀ completion ∈ popped,
        inflight.results[completion.payloadIndex]? = some completion.result

namespace Recorded

theorem fresh (request : RequestDatagram) (target : Nat) (receive : Option ReceiveWqeHeader) :
    Recorded (responderInflightOf request target receive) [] := by
  constructor <;> simp [responderInflightOf, List.getElem?_replicate, List.count_replicate]

variable {inflight : ResponderInflight} {popped : List BackendCompletion}

/-- Only an error that is noted later matters. -/
theorem congr {other : ResponderInflight} (recorded : Recorded inflight popped)
    (payloadCount : other.payloadCount = inflight.payloadCount)
    (terminal : other.terminal = inflight.terminal)
    (terminalCount : other.terminalCount = inflight.terminalCount)
    (results : other.results = inflight.results)
    (parentError : other.parentError = .success → inflight.parentError = .success) :
    Recorded other popped := by
  constructor
  · rw [terminal, payloadCount]
    exact recorded.terminalLength
  · rw [results, payloadCount]
    exact recorded.resultsLength
  · rw [terminalCount, terminal]
    exact recorded.terminalCount
  · rw [terminal, payloadCount]
    exact recorded.terminal
  · rw [results]
    exact fun success => recorded.clean (parentError success)

/-- One step of the loop over popped completions. -/
theorem record (recorded : Recorded inflight popped) (completion : BackendCompletion) :
    Recorded (inflight.record completion) (popped ++ [completion]) := by
  obtain ⟨terminalLength, resultsLength, terminalCount, terminal, clean⟩ := recorded
  unfold ResponderInflight.record
  split
  · rename_i refused
    refine ⟨terminalLength, resultsLength, terminalCount, fun index => ?_, nofun⟩
    dsimp only
    rw [List.map_append, List.mem_append, terminal, List.map_singleton, List.mem_singleton]
    refine ⟨fun ⟨below, member⟩ => ⟨below, .inl member⟩, fun ⟨below, member⟩ => ⟨below, ?_⟩⟩
    rcases member with member | same
    · exact member
    · rcases refused with above | marked
      · omega
      · rw [same]
        exact ((terminal _).mp marked).2
  · rename_i accepted
    obtain ⟨below, unmarked⟩ := not_or.mp accepted
    rw [Nat.not_le] at below
    have inside : completion.payloadIndex < inflight.terminal.length := by omega
    have unseen : completion.payloadIndex ∉ popped.map BackendCompletion.payloadIndex :=
      fun member => unmarked ((terminal _).mpr ⟨below, member⟩)
    have clear : inflight.terminal[completion.payloadIndex] = false := by
      rw [List.getElem?_eq_getElem inside] at unmarked
      simpa using unmarked
    refine ⟨?_, ?_, ?_, fun index => ?_, fun success => ?_⟩
    · rwa [List.length_set]
    · rwa [List.length_set]
    · rw [List.count_set inside, clear, terminalCount]
      simp
    · rw [List.getElem?_set, List.map_append, List.mem_append, List.map_singleton,
        List.mem_singleton]
      by_cases same : completion.payloadIndex = index
      · subst same
        simp [inside, below]
      · rw [if_neg same, terminal]
        simp [Ne.symm same]
    · obtain ⟨distinct, results⟩ := clean success
      refine ⟨?_, fun other member => ?_⟩
      · rw [List.map_append, List.map_singleton, ← List.concat_eq_append]
        exact distinct.concat unseen
      · rcases List.mem_append.mp member with member | member
        · have different : completion.payloadIndex ≠ other.payloadIndex := by
            intro same
            exact unseen (same ▸ List.mem_map_of_mem member)
          rw [List.getElem?_set_ne different]
          exact results other member
        · rw [List.mem_singleton.mp member]
          exact List.getElem?_set_self (by omega)

/-- When the counter says so, a completion was popped for every payload. -/
theorem all_popped (recorded : Recorded inflight popped)
    (counted : inflight.terminalCount = inflight.payloadCount) {index : Nat}
    (below : index < inflight.payloadCount) :
    index ∈ popped.map BackendCompletion.payloadIndex := by
  have full : inflight.terminal.count true = inflight.terminal.length := by
    rw [← recorded.terminalCount, counted, recorded.terminalLength]
  have inside : index < inflight.terminal.length := by
    rw [recorded.terminalLength]
    exact below
  have marked := List.count_eq_length.mp full _ (List.getElem_mem inside)
  exact ((recorded.terminal index).mp (by rw [List.getElem?_eq_getElem inside, ← marked])).2

end Recorded

theorem ResponderInflight.success_of_result {inflight : ResponderInflight}
    (success : inflight.result = .success) :
    inflight.parentError = .success ∧ ∀ result ∈ inflight.results, result = .success := by
  unfold ResponderInflight.result at success
  split at success
  · rename_i clean
    refine ⟨clean, fun result member => ?_⟩
    cases found : inflight.results.find? (· ≠ .success) with
    | none => simpa using List.find?_eq_none.mp found result member
    | some other =>
        rw [found] at success
        have different := List.find?_some found
        simp only [Option.getD_some] at success
        simp [success] at different
  · rename_i failed
    exact absurd success failed

end Ugdr.Worker
