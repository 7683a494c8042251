import Ugdr.Control.KeyResolution
import Ugdr.Control.QpStates

/-! # Numbers and keys are used once

Queue-pair numbers and keys are taken from two counters that only count up, also when a
request fails later. A number or key that has been given out is never given out again,
and what it named is gone for good when its object goes.
-/

namespace Ugdr.Control.QpService

open GenerationRegistry ObjectGraph Wire

variable {service : QpService} {session : OwnerSessionId} {request : ControlRequest}
  {environment : Environment} {event : Event}

/-! ## What an event takes from the counters -/

/-- The number that an event takes. -/
def numberTaken (service : QpService) (event : Event) : List Nat :=
  if (service.step event).nextQpNum = service.nextQpNum then [] else [service.nextQpNum]

def numbersAlong (service : QpService) : List Event → List Nat
  | [] => []
  | event :: events => numberTaken service event ++ numbersAlong (service.step event) events

/-- The local and the remote key that an event takes. -/
def keysTaken (service : QpService) (event : Event) : List (Nat × Nat) :=
  if (service.step event).nextKey = service.nextKey then []
  else [(service.nextKey, service.nextKey + 1)]

def keysAlong (service : QpService) : List Event → List (Nat × Nat)
  | [] => []
  | event :: events => keysTaken service event ++ keysAlong (service.step event) events

/-- The keys of both kinds in one list. -/
def bothKeys (pairs : List (Nat × Nat)) : List Nat :=
  pairs.flatMap fun pair => [pair.1, pair.2]

theorem step_nextKey (valid : service.Valid) (event : Event) :
    (service.step event).nextKey = service.nextKey ∨
      service.nextKey ≤ 2 ^ 32 - 2 ∧ (service.step event).nextKey = service.nextKey + 2 := by
  cases event with
  | disconnect session => exact .inl rfl
  | request session request environment =>
      have outcome := handle_outcome valid session request environment
      by_cases answered : (handle service session request environment).1.status = none
      · obtain ⟨graph, applied, same⟩ := outcome.applied answered
        have key : (service.step (.request session request environment)).nextKey =
          graph.nextKey := same.nextKey
        rw [key]
        cases applied with
        | registerMr pd memory mapping method parent opened available fresh =>
            exact .inr ⟨available.2, rfl⟩
        | _ => exact .inl rfl
      · exact (outcome.refused answered).nextKey

/-- Where the record of a live memory region comes from. -/
inductive MrOrigin (service : QpService) (event : Event) (after : Entry MrRecord) : Prop
  | registered (fresh : after.identity ∉ service.mrs.entries.map Entry.identity)
      (lkey : after.record.lkey = service.nextKey)
      (rkey : after.record.rkey = service.nextKey + 1)
      (advanced : (service.step event).nextKey = service.nextKey + 2)
  | kept (member : after ∈ service.mrs.entries)

theorem step_mrOrigin (valid : service.Valid) (event : Event) {after : Entry MrRecord}
    (member : after ∈ (service.step event).mrs.entries) : MrOrigin service event after := by
  cases event with
  | disconnect session =>
      have remaining := (eraseSession_entries valid.mrs session).2
      simp only [step, onDisconnect] at member
      rw [remaining] at member
      exact .kept (List.mem_of_mem_filter member)
  | request session request environment =>
      have outcome := handle_outcome valid session request environment
      by_cases answered : (handle service session request environment).1.status = none
      · obtain ⟨graph, applied, same⟩ := outcome.applied answered
        have live := same.mrs.subset member
        cases applied with
        | registerMr pd memory mapping method parent opened available fresh =>
            rcases List.mem_cons.mp live with rfl | before
            · exact .registered fresh rfl rfl same.nextKey
            · exact .kept before
        | deregisterMr mr mrs method closed removed =>
            exact .kept (removed.symm.subset (List.mem_cons_of_mem _ live))
        | _ => exact .kept live
      · exact .kept ((outcome.refused answered).same.mrs.subset member)

/-! ## The numbers of a run -/

theorem numbersAlong_exhausted (events : List Event) (valid : service.Valid)
    (exhausted : service.nextQpNum = 0) :
    numbersAlong service events = [] ∧ (Execution.run step service events).nextQpNum = 0 := by
  induction events generalizing service with
  | nil => exact ⟨rfl, exhausted⟩
  | cons event events induction =>
      rcases step_nextQpNum valid event with same | ⟨available, -⟩
      · obtain ⟨none, last⟩ := induction (step_valid valid event) (same.trans exhausted)
        refine ⟨?_, last⟩
        rw [numbersAlong, numberTaken, if_pos same, List.nil_append, none]
      · exact absurd exhausted available

/-- The numbers of a run are consecutive and end below the width of the counter. -/
theorem numbersAlong_eq_range (events : List Event) (valid : service.Valid)
    (available : service.nextQpNum ≠ 0) :
    ∃ count, numbersAlong service events = List.range' service.nextQpNum count ∧
      service.nextQpNum + count ≤ 2 ^ 32 ∧
      (Execution.run step service events).nextQpNum = (service.nextQpNum + count) % 2 ^ 32 := by
  have bounded := valid.nextQpNum
  induction events generalizing service with
  | nil => exact ⟨0, rfl, by omega, (Nat.mod_eq_of_lt bounded).symm⟩
  | cons event events induction =>
      have validAfter := step_valid valid event
      rcases step_nextQpNum valid event with same | ⟨-, next⟩
      · obtain ⟨count, numbers, limit, last⟩ :=
          induction validAfter (by rwa [same]) (by rwa [same])
        rw [same] at numbers limit last
        refine ⟨count, ?_, limit, last⟩
        rw [numbersAlong, numberTaken, if_pos same, List.nil_append, numbers]
      · have taken : numberTaken service event = [service.nextQpNum] := by
          refine if_neg ?_
          rw [next]
          omega
        by_cases final : service.nextQpNum + 1 = 2 ^ 32
        · have exhausted : (service.step event).nextQpNum = 0 := by
            rw [next, final, Nat.mod_self]
          obtain ⟨none, last⟩ := numbersAlong_exhausted events validAfter exhausted
          refine ⟨1, ?_, by omega, ?_⟩
          · rw [numbersAlong, taken, none]
            rfl
          · rw [Execution.run_cons, last, final, Nat.mod_self]
        · rw [Nat.mod_eq_of_lt (by omega)] at next
          obtain ⟨count, numbers, limit, last⟩ :=
            induction validAfter (by omega) (by omega)
          rw [next] at numbers limit last
          refine ⟨count + 1, ?_, by omega, ?_⟩
          · rw [numbersAlong, taken, numbers, List.range'_succ]
            rfl
          · rw [Execution.run_cons, last, Nat.add_assoc, Nat.add_comm 1 count]

/-- Every live queue pair has one of the numbers of the run. -/
theorem qpNum_taken (events : List Event) (valid : service.Valid) (staged : service.QpsStaged)
    {qp : Entry QpRecord} (live : qp ∈ (Execution.run step service events).qps.entries) :
    qp.record.qpNum ∈ numbersAlong service events ∨
      ∃ old ∈ service.qps.entries, old.record.qpNum = qp.record.qpNum := by
  induction events generalizing service with
  | nil => exact .inr ⟨qp, live, rfl⟩
  | cons event events induction =>
      rw [numbersAlong, List.mem_append]
      rcases induction (step_valid valid event) (run_staged valid staged [event]) live with
        later | ⟨old, oldLive, named⟩
      · exact .inl (.inr later)
      · rw [← named]
        cases step_origin valid staged event oldLive with
        | created fresh state binding available number advanced =>
            have bounded := valid.nextQpNum
            have changed : (service.step event).nextQpNum ≠ service.nextQpNum := by
              rw [advanced]
              omega
            left
            left
            rw [numberTaken, if_neg changed, number]
            exact List.mem_singleton_self _
        | moved before member identity owner transition =>
            exact .inr ⟨before, member, transition.qpNum.symm⟩

/-! ## The keys of a run -/

theorem keysAlong_eq_range (events : List Event) (valid : service.Valid)
    (bounded : service.nextKey ≤ 2 ^ 32 - 1) (odd : service.nextKey % 2 = 1) :
    ∃ count, bothKeys (keysAlong service events) = List.range' service.nextKey (2 * count) ∧
      (keysAlong service events).length = count ∧
      service.nextKey + 2 * count ≤ 2 ^ 32 - 1 ∧
      (Execution.run step service events).nextKey = service.nextKey + 2 * count := by
  induction events generalizing service with
  | nil => exact ⟨0, rfl, rfl, bounded, rfl⟩
  | cons event events induction =>
      have validAfter := step_valid valid event
      rcases step_nextKey valid event with same | ⟨available, next⟩
      · obtain ⟨count, keys, size, limit, last⟩ :=
          induction validAfter (by rwa [same]) (by rwa [same])
        rw [same] at keys limit last
        have none : keysAlong service (event :: events) =
            keysAlong (service.step event) events := by
          rw [keysAlong, keysTaken, if_pos same, List.nil_append]
        rw [none]
        exact ⟨count, keys, size, limit, last⟩
      · have taken : keysAlong service (event :: events) =
            (service.nextKey, service.nextKey + 1) ::
              keysAlong (service.step event) events := by
          rw [keysAlong, keysTaken, if_neg (by omega), List.singleton_append]
        obtain ⟨count, keys, size, limit, last⟩ :=
          induction validAfter (by omega) (by omega)
        rw [next] at keys limit last
        refine ⟨count + 1, ?_, by rw [taken, List.length_cons, size], by omega, ?_⟩
        · rw [taken, bothKeys, List.flatMap_cons]
          rw [bothKeys] at keys
          rw [keys, Nat.mul_add, List.range'_succ, List.range'_succ]
          rfl
        · rw [Execution.run_cons, last]
          omega

theorem keysAlong_append (service : QpService) (before after : List Event) :
    keysAlong service (before ++ after) =
      keysAlong service before ++ keysAlong (Execution.run step service before) after := by
  induction before generalizing service with
  | nil => rfl
  | cons event before induction =>
      rw [List.cons_append, keysAlong, keysAlong, induction, Execution.run_cons,
        List.append_assoc]

theorem keys_taken (events : List Event) (valid : service.Valid) {mr : Entry MrRecord}
    (live : mr ∈ (Execution.run step service events).mrs.entries) :
    (mr.record.lkey, mr.record.rkey) ∈ keysAlong service events ∨
      mr ∈ service.mrs.entries := by
  induction events generalizing service with
  | nil => exact .inr live
  | cons event events induction =>
      rw [keysAlong, List.mem_append]
      rcases induction (step_valid valid event) live with later | old
      · exact .inl (.inr later)
      · cases step_mrOrigin valid event old with
        | registered fresh lkey rkey advanced =>
            left
            left
            rw [keysTaken, if_neg (by omega), lkey, rkey]
            exact List.mem_singleton_self _
        | kept member => exact .inr member

/-! ## When a counter is used up -/

/-- A request to create a queue pair that passes every check before the number is
taken. -/
structure AcceptableQp (service : QpService) (session : OwnerSessionId)
    (request : ControlRequest) (environment : Environment) (attributes : QpCreateAttributes)
    (pd : PdRecord) (sendCq recvCq : CqRecord) (queues : QpQueues) : Prop where
  method : ControlMethod.ofCode request.method = some .createQp
  shape : emptyShapeExceptPayload request = true
  decoded : decodeQpCreateAttributes request.payload = .ok attributes
  validAttributes : validQpCreateAttributes attributes = true
  pdFound : service.resolvePd session request.objectIdentity = some pd
  sendCqFound : service.resolveCq session attributes.sendCqIdentity = some sendCq
  recvCqFound : service.resolveCq session attributes.recvCqIdentity = some recvCq
  contexts : sendCq.contextIdentity = pd.contextIdentity ∧
    recvCq.contextIdentity = pd.contextIdentity
  queuesMade : createQpQueues environment.rings attributes = .ok queues

/-- A registration that passes every check before the keys are taken. -/
structure AcceptableMr (service : QpService) (session : OwnerSessionId)
    (request : ControlRequest) (environment : Environment) (pd : PdRecord)
    (memory : ExportedCudaMemory) (mapping : CudaIpcMapping) : Prop where
  method : ControlMethod.ofCode request.method = some .registerMr
  descriptors : request.fdIndices = [] ∧ request.fileDescriptors = []
  access : validAccess request.access = true
  pdFound : service.pds.resolve session request.objectIdentity = some pd
  decoded : decodeMrRegistration request.payload request.length = .ok memory
  opened : environment.openMemory memory = .ok mapping
  usable : mapping.daemonBaseAddress ≠ 0 ∧ mapping.gpuUuid = memory.gpuUuid ∧
    mapping.daemonBaseAddress + memory.allocationOffset ≤ 2 ^ 64 - 1

theorem createQp_exhausted (valid : service.Valid) {attributes : QpCreateAttributes}
    {pd : PdRecord} {sendCq recvCq : CqRecord} {queues : QpQueues}
    (acceptable : AcceptableQp service session request environment attributes pd sendCq recvCq
      queues)
    (exhausted : service.nextQpNum = 0) :
    (handle service session request environment).1.status = some .enospc ∧
      Unchanged service (handle service session request environment).2 := by
  have status : (handle service session request environment).1.status = some .enospc := by
    have sameContext : ¬ (pd.contextIdentity ≠ sendCq.contextIdentity ∨
        pd.contextIdentity ≠ recvCq.contextIdentity) := by
      rw [acceptable.contexts.1, acceptable.contexts.2]
      simp
    simp only [handle, acceptable.method, handleCreateQp, acceptable.shape, acceptable.decoded,
      acceptable.validAttributes, acceptable.pdFound, acceptable.sendCqFound,
      acceptable.recvCqFound, acceptable.queuesMade, publishQp, exhausted, Bool.true_eq_false,
      if_false, if_true]
    rw [if_neg sameContext]
    rfl
  have outcome := handle_outcome valid session request environment
  have refused := outcome.refused (by rw [status]; exact Option.some_ne_none _)
  exact ⟨status, refused.unchanged outcome.catalog valid (handle_valid valid)⟩

theorem registerMr_exhausted (valid : service.Valid) {pd : PdRecord}
    {memory : ExportedCudaMemory} {mapping : CudaIpcMapping}
    (acceptable : AcceptableMr service session request environment pd memory mapping)
    (exhausted : 2 ^ 32 - 2 < service.nextKey) :
    (handle service session request environment).1.status = some .enospc ∧
      Unchanged service (handle service session request environment).2 := by
  have status : (handle service session request environment).1.status = some .enospc := by
    have shaped : ¬ (request.fdIndices ≠ [] ∨ request.fileDescriptors ≠ [] ∨
        validAccess request.access = false) := by
      rw [acceptable.descriptors.1, acceptable.descriptors.2, acceptable.access]
      simp
    have usable : ¬ (mapping.daemonBaseAddress = 0 ∨ mapping.gpuUuid ≠ memory.gpuUuid ∨
        2 ^ 64 - 1 - memory.allocationOffset < mapping.daemonBaseAddress) := by
      obtain ⟨base, uuid, inside⟩ := acceptable.usable
      simp only [uuid, ne_eq, not_true_eq_false, false_or, not_or]
      omega
    have none : allocateKeys service.nextKey = none := if_pos (.inr exhausted)
    simp only [handle, acceptable.method, handlePdMrCq, handleRegisterMr]
    rw [if_neg shaped]
    simp only [acceptable.pdFound, acceptable.decoded, acceptable.opened]
    rw [if_neg usable, none]
    rfl
  have outcome := handle_outcome valid session request environment
  have refused := outcome.refused (by rw [status]; exact Option.some_ne_none _)
  exact ⟨status, refused.unchanged outcome.catalog valid (handle_valid valid)⟩

/-! ## Numbers and keys of objects that are gone -/

/-- A number that was given out and names no queue pair any more. -/
structure NumberRetired (number : Nat) (service : QpService) : Prop where
  given : service.nextQpNum = 0 ∨ number < service.nextQpNum
  unused : ∀ qp ∈ service.qps.entries, qp.record.qpNum ≠ number

theorem NumberRetired.step {number : Nat} (retired : NumberRetired number service)
    (valid : service.Valid) (staged : service.QpsStaged) (event : Event) :
    NumberRetired number (service.step event) where
  given := given_step valid retired.given
  unused := by
    intro after live named
    cases step_origin valid staged event live with
    | created fresh state binding available given advanced =>
        have below := retired.given
        rw [← named, given] at below
        omega
    | moved before member identity owner transition =>
        exact retired.unused before member (transition.qpNum ▸ named)

theorem NumberRetired.run {number : Nat} (retired : NumberRetired number service)
    (valid : service.Valid) (staged : service.QpsStaged) (events : List Event) :
    NumberRetired number (Execution.run QpService.step service events) := by
  induction events generalizing service with
  | nil => exact retired
  | cons event events induction =>
      exact induction (retired.step valid staged event) (step_valid valid event)
        (run_staged valid staged [event])

/-- The number of a queue pair that an event removes is retired. -/
theorem removed_number_retired (valid : service.Valid) (staged : service.QpsStaged)
    {qp : Entry QpRecord} (live : qp ∈ service.qps.entries)
    (removed : qp.identity ∉ (service.step event).qps.entries.map Entry.identity) :
    NumberRetired qp.record.qpNum (service.step event) where
  given := given_step valid (valid.consistent.qpNumsBelow.imp_right fun below => below qp live)
  unused := by
    intro after afterLive named
    cases step_origin valid staged event afterLive with
    | created fresh state binding available given advanced =>
        have below := valid.consistent.qpNumsBelow.imp_right fun below => below qp live
        simp only [graph] at below
        omega
    | moved before member identity owner transition =>
        rw [transition.qpNum] at named
        rw [qpNum_unique valid member live named] at identity
        exact removed (List.mem_map.mpr ⟨after, afterLive, identity⟩)

/-- What a number that names no queue pair any more is good for. -/
structure NumberDead (number : Nat) (service : QpService) : Prop where
  index : service.qpNumIndex number = none
  view : service.workerQpView number = .error .enoent
  connect : ∀ session request environment attributes qp,
    ControlMethod.ofCode request.method = some .connectQp →
    emptyShapeExceptPayload request = true →
    decodeConnectPayload request.payload = .ok (number, attributes, qpConnectMask) →
    validRetryAttributes attributes = true →
    service.qps.resolve session request.objectIdentity = some qp →
    qp.state = qpStateInit →
      (handle service session request environment).1.status = some .enoent

theorem NumberRetired.dead {number : Nat} (retired : NumberRetired number service)
    (valid : service.Valid) (staged : service.QpsStaged) (nonzero : number ≠ 0) :
    NumberDead number service := by
  have index : service.qpNumIndex number = none := by
    cases found : service.qpNumIndex number with
    | none => rfl
    | some identity =>
        obtain ⟨qp, live, named, -⟩ :=
          ((accounted_of_valid valid).qpNumIndex _ _).mp found
        exact absurd named (retired.unused qp live)
  refine ⟨index, by simp only [workerQpView, index, if_neg nonzero], ?_⟩
  intro session request environment attributes qp method shaped decoded encoded resolved ready
  have peer : qp.peerQpNum = 0 := by
    cases staged _ (mem_qps valid resolved) with
    | reset state empty => exact congrArg Binding.peerQpNum empty
    | init state empty => exact congrArg Binding.peerQpNum empty
    | rts state bound => simp only [ready] at state; cases state
    | err state => simp only [ready] at state; cases state
  simp only [handle, method, handleConnectQp, shaped, decoded, resolved, encoded, peer, ready,
    index, Bool.true_eq_false, if_false, ne_eq, not_true_eq_false, nonzero, false_or,
    false_and]
  rfl

/-- A key that was given out and that no memory region has any more. -/
structure KeyRetired (key : Nat) (service : QpService) : Prop where
  given : key < service.nextKey
  unused : ∀ mr ∈ service.mrs.entries, mr.record.lkey ≠ key ∧ mr.record.rkey ≠ key

theorem KeyRetired.step {key : Nat} (retired : KeyRetired key service)
    (valid : service.Valid) (event : Event) : KeyRetired key (service.step event) := by
  have given := retired.given
  refine ⟨?_, fun after live => ?_⟩
  · rcases step_nextKey valid event with same | ⟨-, next⟩ <;> omega
  · cases step_mrOrigin valid event live with
    | registered fresh lkey rkey advanced => omega
    | kept member => exact retired.unused after member

theorem KeyRetired.run {key : Nat} (retired : KeyRetired key service) (valid : service.Valid)
    (events : List Event) : KeyRetired key (Execution.run QpService.step service events) := by
  induction events generalizing service with
  | nil => exact retired
  | cons event events induction =>
      exact induction (retired.step valid event) (step_valid valid event)

/-- Both lookups refuse the key, for every session, domain and range. -/
structure KeyDead (key : Nat) (service : QpService) : Prop where
  lkey : ∀ session pdIdentity address length,
    service.resolveLkey session pdIdentity key address length = .error .einval
  rkey : ∀ session pdIdentity address length,
    service.resolveRkey session pdIdentity key address length = .error .einval

theorem KeyRetired.resolveKey {key : Nat} (retired : KeyRetired key service)
    (valid : service.Valid) (session pdIdentity address length : Nat) (remote : Bool) :
    service.resolveKey session pdIdentity key address length remote = .error .einval := by
  unfold QpService.resolveKey
  split
  · rfl
  · split
    · rfl
    · rename_i pd pdResolved
      have parent := mem_pds valid pdResolved
      have accounted := accounted_of_valid valid
      have missing : (if remote then pd.remoteKeyIndex else pd.localKeyIndex) key = none := by
        rw [Option.eq_none_iff_forall_ne_some]
        intro identity found
        cases remote with
        | false =>
            obtain ⟨mr, live, -, -, named⟩ :=
              (accounted.localKeyIndex _ parent key identity).mp found
            exact (retired.unused mr live).1 named
        | true =>
            obtain ⟨mr, live, -, -, named⟩ :=
              (accounted.remoteKeyIndex _ parent key identity).mp found
            exact (retired.unused mr live).2 named
      simp only [missing]

theorem KeyRetired.dead {key : Nat} (retired : KeyRetired key service)
    (valid : service.Valid) : KeyDead key service where
  lkey := fun _ _ _ _ => retired.resolveKey valid _ _ _ _ _
  rkey := fun _ _ _ _ => retired.resolveKey valid _ _ _ _ _

/-- Local keys are odd, and the remote key of a region follows its local key. -/
structure KeysPaired (service : QpService) : Prop where
  next : service.nextKey % 2 = 1
  regions : ∀ mr ∈ service.mrs.entries,
    mr.record.lkey % 2 = 1 ∧ mr.record.rkey = mr.record.lkey + 1

theorem KeysPaired.step (paired : service.KeysPaired) (valid : service.Valid) (event : Event) :
    (service.step event).KeysPaired := by
  have next := paired.next
  refine ⟨?_, fun after live => ?_⟩
  · rcases step_nextKey valid event with same | ⟨-, next⟩ <;> omega
  · cases step_mrOrigin valid event live with
    | registered fresh lkey rkey advanced => omega
    | kept member => exact paired.regions after member

theorem removed_keys_retired (reachable : service.Reachable) (paired : service.KeysPaired)
    {mr : Entry MrRecord} (live : mr ∈ service.mrs.entries)
    (removed : mr.identity ∉ (service.step event).mrs.entries.map Entry.identity) {key : Nat}
    (named : key = mr.record.lkey ∨ key = mr.record.rkey) :
    KeyRetired key (service.step event) := by
  have valid := reachable.valid
  have below := valid.consistent.keysBelow mr live
  have pair := paired.regions mr live
  simp only [graph] at below
  refine ⟨?_, fun after afterLive => ?_⟩
  · rcases step_nextKey valid event with same | ⟨-, next⟩ <;> omega
  · cases step_mrOrigin valid event afterLive with
    | registered fresh lkey rkey advanced => omega
    | kept member =>
        have otherPair := paired.regions after member
        have different : after.record.lkey ≠ mr.record.lkey := by
          intro same
          rw [reachable.keysDistinct after member mr live (.inl same)] at afterLive
          exact removed (List.mem_map.mpr ⟨mr, afterLive, rfl⟩)
        omega

/-! ## Runs of the service -/

/-- The numbers and keys of a run. -/
structure UsedOnce (catalog : List DeviceDescriptor) (events : List Event) : Prop where
  numbers : (numbersAlong (create catalog) events).Nodup ∧
    ∀ number ∈ numbersAlong (create catalog) events, number ≠ 0 ∧ number < 2 ^ 32
  keys : (bothKeys (keysAlong (create catalog) events)).Nodup ∧
    ∀ key ∈ bothKeys (keysAlong (create catalog) events), key ≠ 0 ∧ key < 2 ^ 32
  /-- Queue pairs and memory regions carry the numbers and keys of the run. -/
  qps : ∀ qp ∈ (Execution.run step (create catalog) events).qps.entries,
    qp.record.qpNum ∈ numbersAlong (create catalog) events
  mrs : ∀ mr ∈ (Execution.run step (create catalog) events).mrs.entries,
    (mr.record.lkey, mr.record.rkey) ∈ keysAlong (create catalog) events

/-- An object that an event creates carries what the event takes from the counter. -/
structure TakesForNew (service : QpService) (event : Event) : Prop where
  qp : ∀ qp ∈ (service.step event).qps.entries,
    qp.identity ∉ service.qps.entries.map Entry.identity →
      numberTaken service event = [qp.record.qpNum]
  mr : ∀ mr ∈ (service.step event).mrs.entries,
    mr.identity ∉ service.mrs.entries.map Entry.identity →
      keysTaken service event = [(mr.record.lkey, mr.record.rkey)]

/-- Requests that would be accepted otherwise fail and leave nothing behind. -/
structure Exhausted (service : QpService) (numbersLeft keysLeft : Prop) : Prop where
  createQp : ¬ numbersLeft → ∀ session request environment attributes pd sendCq recvCq queues,
    AcceptableQp service session request environment attributes pd sendCq recvCq queues →
      (handle service session request environment).1.status = some .enospc ∧
        Unchanged service (handle service session request environment).2
  registerMr : ¬ keysLeft → ∀ session request environment pd memory mapping,
    AcceptableMr service session request environment pd memory mapping →
      (handle service session request environment).1.status = some .enospc ∧
        Unchanged service (handle service session request environment).2

/-- What is left of an object that an event removes, after any later events. -/
structure RemovedForGood (service : QpService) (event : Event) (later : List Event) : Prop where
  qp : ∀ qp ∈ service.qps.entries,
    qp.identity ∉ (service.step event).qps.entries.map Entry.identity →
      NumberDead qp.record.qpNum (Execution.run step service (event :: later))
  mr : ∀ mr ∈ service.mrs.entries,
    mr.identity ∉ (service.step event).mrs.entries.map Entry.identity →
      KeyDead mr.record.lkey (Execution.run step service (event :: later)) ∧
        KeyDead mr.record.rkey (Execution.run step service (event :: later))

theorem create_numbers (catalog : List DeviceDescriptor) (events : List Event) :
    ∃ count, numbersAlong (create catalog) events = List.range' 1 count ∧
      1 + count ≤ 2 ^ 32 ∧
      (Execution.run step (create catalog) events).nextQpNum = (1 + count) % 2 ^ 32 :=
  numbersAlong_eq_range events (create_valid catalog) Nat.one_ne_zero

theorem create_keys (catalog : List DeviceDescriptor) (events : List Event) :
    ∃ count, bothKeys (keysAlong (create catalog) events) = List.range' 1 (2 * count) ∧
      (keysAlong (create catalog) events).length = count ∧ 1 + 2 * count ≤ 2 ^ 32 - 1 ∧
      (Execution.run step (create catalog) events).nextKey = 1 + 2 * count := by
  have small : (create catalog).nextKey ≤ 2 ^ 32 - 1 := show 1 ≤ 2 ^ 32 - 1 by decide
  exact keysAlong_eq_range events (create_valid catalog) small rfl

theorem run_paired (catalog : List DeviceDescriptor) (events : List Event) :
    (Execution.run step (create catalog) events).KeysPaired := by
  have initial : (create catalog).KeysPaired := ⟨rfl, nofun⟩
  refine run_records ?_ (create_valid catalog) initial fun _ _ => trivial
  intro service event valid _ paired
  exact paired.step valid event

theorem used_once (catalog : List DeviceDescriptor) (events : List Event) :
    UsedOnce catalog events := by
  obtain ⟨numberCount, numbers, numberLimit, -⟩ := create_numbers catalog events
  obtain ⟨keyCount, keys, -, keyLimit, -⟩ := create_keys catalog events
  refine ⟨?_, ?_, fun qp live => ?_, fun mr live => ?_⟩
  · rw [numbers]
    refine ⟨List.nodup_range', fun number member => ?_⟩
    rw [List.mem_range'_1] at member
    omega
  · rw [keys]
    refine ⟨List.nodup_range', fun key member => ?_⟩
    rw [List.mem_range'_1] at member
    omega
  · rcases qpNum_taken events (create_valid catalog) (create_staged catalog) live with
      taken | ⟨old, none, -⟩
    · exact taken
    · cases none
  · rcases keys_taken events (create_valid catalog) live with taken | none
    · exact taken
    · cases none

theorem takes_for_new (valid : service.Valid) (staged : service.QpsStaged) (event : Event) :
    service.TakesForNew event := by
  refine ⟨fun qp live new => ?_, fun mr live new => ?_⟩
  · cases step_origin valid staged event live with
    | created fresh state binding available number advanced =>
        have bounded := valid.nextQpNum
        have changed : (service.step event).nextQpNum ≠ service.nextQpNum := by
          rw [advanced]
          omega
        rw [numberTaken, if_neg changed, number]
    | moved before member identity owner transition =>
        exact absurd (List.mem_map.mpr ⟨before, member, identity.symm⟩) new
  · cases step_mrOrigin valid event live with
    | registered fresh lkey rkey advanced => rw [keysTaken, if_neg (by omega), lkey, rkey]
    | kept member => exact absurd (List.mem_map.mpr ⟨mr, member, rfl⟩) new

/-- There are 2^32 - 1 numbers and 2^31 - 1 pairs of keys. -/
theorem exhausted_run (catalog : List DeviceDescriptor) (events later : List Event) :
    (Execution.run step (create catalog) (events ++ later)).Exhausted
      ((numbersAlong (create catalog) events).length < 2 ^ 32 - 1)
      ((keysAlong (create catalog) events).length < 2 ^ 31 - 1) := by
  have valid := run_valid catalog events
  have validLater := run_valid catalog (events ++ later)
  obtain ⟨numberCount, numbers, numberLimit, lastNumber⟩ := create_numbers catalog events
  obtain ⟨keyCount, keys, pairs, keyLimit, lastKey⟩ := create_keys catalog events
  refine ⟨fun none session request environment attributes pd sendCq recvCq queues acceptable =>
    createQp_exhausted validLater acceptable ?_,
    fun none session request environment pd memory mapping acceptable =>
    registerMr_exhausted validLater acceptable ?_⟩
  · rw [numbers, List.length_range'] at none
    have all : 1 + numberCount = 2 ^ 32 := by omega
    rw [all, Nat.mod_self] at lastNumber
    rw [Execution.run_append]
    exact (numbersAlong_exhausted later valid lastNumber).2
  · obtain ⟨total, -, totalPairs, -, last⟩ := create_keys catalog (events ++ later)
    have grown : keyCount ≤ total := by
      rw [← pairs, ← totalPairs, keysAlong_append, List.length_append]
      exact Nat.le_add_right _ _
    omega

theorem removed_for_good (reachable : service.Reachable) (staged : service.QpsStaged)
    (paired : service.KeysPaired) (nonzero : ∀ qp ∈ service.qps.entries, qp.record.qpNum ≠ 0)
    (event : Event) (later : List Event) : service.RemovedForGood event later := by
  have valid := reachable.valid
  have validAfter := step_valid valid event
  have kept : ∀ (service : QpService) (event : Event), service.Valid →
      (service.step event).Valid := fun _ event valid => step_valid valid event
  have validLast := Execution.run_invariant kept validAfter later
  have stagedAfter := run_staged valid staged [event]
  refine ⟨fun qp live removed => ?_, fun mr live removed => ⟨?_, ?_⟩⟩
  · have retired := (removed_number_retired valid staged live removed).run validAfter
      stagedAfter later
    exact retired.dead validLast (run_staged validAfter stagedAfter later) (nonzero qp live)
  · exact ((removed_keys_retired reachable paired live removed (.inl rfl)).run validAfter
      later).dead validLast
  · exact ((removed_keys_retired reachable paired live removed (.inr rfl)).run validAfter
      later).dead validLast

/-- In every run numbers and keys are taken once, run out without wrapping around, and are
never good for anything again once their object is gone. -/
theorem numbers_and_keys_used_once (catalog : List DeviceDescriptor) (events : List Event) :
    let service := Execution.run step (create catalog) events
    UsedOnce catalog events ∧ (∀ event, service.TakesForNew event) ∧
      (∀ later, (Execution.run step service later).Exhausted
        ((numbersAlong (create catalog) events).length < 2 ^ 32 - 1)
        ((keysAlong (create catalog) events).length < 2 ^ 31 - 1)) ∧
      ∀ event later, service.RemovedForGood event later := by
  intro service
  have staged := run_staged (create_valid catalog) (create_staged catalog) events
  have once := used_once catalog events
  have nonzero : ∀ qp ∈ service.qps.entries, qp.record.qpNum ≠ 0 := fun qp live =>
    (once.numbers.2 _ (once.qps qp live)).1
  refine ⟨once, takes_for_new (run_valid catalog events) staged, fun later => ?_,
    removed_for_good ⟨catalog, events, rfl⟩ staged (run_paired catalog events) nonzero⟩
  have exhausted := exhausted_run catalog events later
  rwa [Execution.run_append] at exhausted

end Ugdr.Control.QpService
