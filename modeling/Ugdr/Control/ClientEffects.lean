import Ugdr.Control.SharedDaemon

/-! # What a client does to its queue pairs

For each function that makes a control request: either the connection is closed in the end,
or the daemon's queue pairs of the session are what the result says they are.
-/

namespace Ugdr.Control

open GenerationRegistry QpService Wire Daemon

/-! ## Payloads -/

theorem readHeader_encode {size : Nat} {rest : Bytes} (length : rest.length + 4 = size) :
    readHeader (encode 2 qpPayloadVersion ++ (encode 2 0 ++ rest)) size = .ok rest := by
  have whole : (encode 2 qpPayloadVersion ++ (encode 2 0 ++ rest)).length = size := by
    simp only [List.length_append, length_encode]
    omega
  have version : qpPayloadVersion < 256 ^ 2 := by decide
  have reserved : 0 < 256 ^ 2 := by decide
  rw [readHeader, if_neg (not_not.mpr whole)]
  simp [read_encode version, read_encode reserved]

/-- The fields of these attributes have the widths that the payload gives them. -/
structure QpAttributes.Fits (attributes : QpAttributes) : Prop where
  state : attributes.state < 256 ^ 4
  currentState : attributes.currentState < 256 ^ 4
  accessFlags : attributes.accessFlags < 256 ^ 4
  timeout : attributes.timeout < 256 ^ 1
  retryCount : attributes.retryCount < 256 ^ 1
  rnrRetry : attributes.rnrRetry < 256 ^ 1
  minRnrTimer : attributes.minRnrTimer < 256 ^ 1

theorem decodeModifyPayload_encode {attributes : QpAttributes} (fits : attributes.Fits)
    (mask : UInt32) :
    decodeModifyPayload (encodeModifyPayload attributes mask) = .ok (attributes, mask) := by
  have maskFits : mask.toNat < 256 ^ 4 := mask.toNat_lt
  have last : Wire.read 1 (encode 1 attributes.minRnrTimer) =
      some (attributes.minRnrTimer, []) := by
    simpa using read_encode fits.minRnrTimer []
  rw [encodeModifyPayload]
  simp only [List.append_assoc]
  rw [decodeModifyPayload, readHeader_encode (by simp [qpModifyPayloadSize])]
  simp [read_encode maskFits, read_encode fits.state, read_encode fits.currentState,
    read_encode fits.accessFlags, read_encode fits.timeout, read_encode fits.retryCount,
    read_encode fits.rnrRetry, last]

theorem read_bind {Value : Type} {size : Nat} {bytes : Bytes}
    {next : Nat × Bytes → Option Value} {value : Value}
    (found : (Wire.read size bytes >>= next) = some value) :
    ∃ number, Wire.read size bytes = some (number, bytes.drop size) ∧
      next (number, bytes.drop size) = some value := by
  obtain ⟨⟨number, rest⟩, taken, after⟩ := Option.bind_eq_some_iff.mp found
  have place : rest = bytes.drop size := by
    unfold Wire.read at taken
    split at taken <;> cases taken
    rfl
  subst place
  exact ⟨number, taken, after⟩

theorem readHeader_rest {size : Nat} {bytes rest : Bytes}
    (taken : readHeader bytes size = .ok rest) : rest = bytes.drop 4 := by
  unfold readHeader at taken
  split at taken
  · cases taken
  · split at taken
    · cases taken
    · rename_i found
      obtain ⟨version, -, found⟩ := read_bind found
      obtain ⟨reserved, -, found⟩ := read_bind found
      cases found
      split at taken
      · cases taken
      · split at taken <;> cases taken
        rw [List.drop_drop]

/-- The state in a snapshot stands behind the 48 bytes of the other fields. -/
theorem decodeSnapshot_state {bytes : Bytes} {snapshot : QpSnapshot}
    (decoded : decodeSnapshot bytes = .ok snapshot) :
    (Wire.read 4 (bytes.drop 48)).map Prod.fst = some snapshot.attributes.state := by
  unfold decodeSnapshot at decoded
  split at decoded
  · cases decoded
  · rename_i rest header
    split at decoded
    · cases decoded
    · rename_i found
      cases decoded
      obtain ⟨qpNum, -, found⟩ := read_bind found
      obtain ⟨sendCq, -, found⟩ := read_bind found
      obtain ⟨recvCq, -, found⟩ := read_bind found
      obtain ⟨maxSendWr, -, found⟩ := read_bind found
      obtain ⟨maxRecvWr, -, found⟩ := read_bind found
      obtain ⟨maxSendSge, -, found⟩ := read_bind found
      obtain ⟨maxRecvSge, -, found⟩ := read_bind found
      obtain ⟨qpType, -, found⟩ := read_bind found
      obtain ⟨sqSigAll, -, found⟩ := read_bind found
      obtain ⟨state, stateRead, found⟩ := read_bind found
      obtain ⟨currentState, -, found⟩ := read_bind found
      obtain ⟨accessFlags, -, found⟩ := read_bind found
      obtain ⟨timeout, -, found⟩ := read_bind found
      obtain ⟨retryCount, -, found⟩ := read_bind found
      obtain ⟨rnrRetry, -, found⟩ := read_bind found
      obtain ⟨minRnrTimer, -, found⟩ := read_bind found
      cases found
      rw [readHeader_rest header] at stateRead
      simp only [List.drop_drop] at stateRead
      rw [stateRead]
      rfl

/-! ## Calls -/

section Calls

variable {transport : Transport Daemon} {client middle after : ControlClient Daemon}
  {request : ControlRequest} {identities : List Obtained} {touched : List Nat}

/-- As long as the connection is open, the queue pairs of the session are the same ones,
except for those in `touched`. -/
structure Kept (touched : List Nat) (before after : ControlClient Daemon) : Prop where
  connections : after.connections = before.connections
  connectionEpoch : after.connectionEpoch = before.connectionEpoch
  sound : after.world.Sound
  connected : after.connected = true → before.connected = true
  keeps : after.connected = true → Keeps touched before.world after.world

theorem Kept.refl (touched : List Nat) (sound : client.world.Sound) : Kept touched client client :=
  ⟨rfl, rfl, sound, id, fun _ => .refl touched client.world⟩

theorem Kept.trans (first : Kept touched client middle) (second : Kept touched middle after) :
    Kept touched client after where
  connections := second.connections.trans first.connections
  connectionEpoch := second.connectionEpoch.trans first.connectionEpoch
  sound := second.sound
  connected := fun connected => first.connected (second.connected connected)
  keeps := fun connected =>
    (first.keeps (second.connected connected)).trans (second.keeps connected)

/-- How a call ends: the connection is closed, or the daemon has answered. -/
inductive Called (request : ControlRequest) (client : ControlClient Daemon) :
    Except Errno ControlResponse × ControlClient Daemon → Prop
  | closed {status : Errno} {after : ControlClient Daemon} (kept : Kept [] client after)
      (closed : after.connected = false) : Called request client (.error status, after)
  | answered {middle : Daemon} {after : ControlClient Daemon} {session : OwnerSessionId}
      (environment : Environment) (connected : client.connected = true)
      (same : after.connections = client.connections ∧
        after.connectionEpoch = client.connectionEpoch)
      (opened : middle.session = some session) (sound : middle.Sound)
      (moved : Keeps [] client.world middle)
      (later : Moved (middle.handled session request environment) after.world) :
      Called request client
        (.ok (middle.service.handle session request environment).1, after)

theorem Called.close {status : Errno}
    (same : after.connections = client.connections ∧
      after.connectionEpoch = client.connectionEpoch) (sound : after.world.Sound) :
    Called request client (.error status, after.close) :=
  .closed ⟨same.1, same.2, sound, nofun, nofun⟩ rfl

theorem call_called (faithful : Faithful transport) (sound : client.world.Sound) :
    Called request client (client.call transport request identities) := by
  unfold ControlClient.call
  split
  · exact .close ⟨rfl, rfl⟩ sound
  · rename_i connected
    have exchanged := faithful.exchange client.world request
    generalize transport.exchange client.world request = answered at exchanged
    cases exchanged with
    | lost status moved => exact .close ⟨rfl, rfl⟩ (moved_sound moved sound)
    | unanswered environment status moved opened later =>
        have known := moved_sound moved sound
        exact .close ⟨rfl, rfl⟩ (moved_sound later (handled_sound known))
    | answered environment moved opened later =>
        have known := moved_sound moved sound
        dsimp only
        split
        · exact .close ⟨rfl, rfl⟩ (moved_sound later (handled_sound known))
        · exact .answered environment (Bool.eq_true_of_not_eq_false connected) ⟨rfl, rfl⟩ opened
            known (moved_keeps moved sound) later

theorem callPlain_called (faithful : Faithful transport) (sound : client.world.Sound) :
    Called request client (client.callPlain transport request identities) := by
  have called : Called request client (client.call transport request identities) :=
    call_called faithful sound
  unfold ControlClient.callPlain
  split
  · rename_i result
    rwa [result] at called
  · rename_i result
    rw [result] at called
    split
    · cases called with
      | answered environment connected same opened sound moved later =>
          exact .close same (moved_sound later (handled_sound sound))
    · exact called

namespace Called

variable {response : ControlResponse}

theorem keeps_of (called : Called request client (.ok response, after))
    (keeps : ∀ {middle : Daemon} {session : OwnerSessionId} {environment : Environment},
      middle.session = some session → middle.Sound →
      response = (middle.service.handle session request environment).1 →
      Keeps touched middle (middle.handled session request environment)) :
    Kept touched client after := by
  cases called with
  | answered environment connected same opened sound moved later =>
      refine ⟨same.1, same.2, moved_sound later (handled_sound sound), fun _ => connected,
        fun _ => ?_⟩
      have changed := (moved.weaken touched).trans (keeps opened sound rfl)
      exact changed.trans ((moved_keeps later (handled_sound sound)).weaken touched)

/-- A request that changes no queue pair, or is refused. -/
theorem kept (called : Called request client (.ok response, after))
    (harmless : response.status = none → ¬changesQp request.method) : Kept [] client after := by
  refine called.keeps_of fun opened sound same => ?_
  subst same
  exact handled_keeps sound opened harmless

theorem kept_others (called : Called request client (.ok response, after)) :
    Kept [request.objectIdentity] client after :=
  called.keeps_of fun opened sound _ => handled_keeps_others sound opened

end Called

theorem call_kept (faithful : Faithful transport) (sound : client.world.Sound)
    (harmless : ¬changesQp request.method) :
    Kept [] client (client.call transport request identities).2 := by
  have called : Called request client (client.call transport request identities) :=
    call_called faithful sound
  generalize client.call transport request identities = result at called
  obtain ⟨status | response, after⟩ := result
  · cases called
    assumption
  · exact called.kept fun _ => harmless

theorem callPlain_kept (faithful : Faithful transport) (sound : client.world.Sound)
    (harmless : ¬changesQp request.method) :
    Kept [] client (client.callPlain transport request identities).2 := by
  have called : Called request client (client.callPlain transport request identities) :=
    callPlain_called faithful sound
  generalize client.callPlain transport request identities = result at called
  obtain ⟨status | response, after⟩ := result
  · cases called
    assumption
  · exact called.kept fun _ => harmless

/-! ## Requests that are not about queue pairs -/

theorem clientListDevices_kept (faithful : Faithful transport) (sound : client.world.Sound) :
    Kept [] client (clientListDevices transport client).2 := by
  have kept : Kept [] client (client.callPlain transport { method := 1 } []).2 :=
    callPlain_kept faithful sound (by decide)
  unfold clientListDevices
  split
  · rename_i result
    rwa [result] at kept
  · rename_i result
    rw [result] at kept
    split <;> exact kept

theorem clientCreateContext_kept (faithful : Faithful transport) (sound : client.world.Sound)
    (device : Obtained) : Kept [] client (clientCreateContext transport client device).2 := by
  have kept : Kept [] client (client.callPlain transport
      { method := 2, objectIdentity := device.value } [device]).2 :=
    callPlain_kept faithful sound (show ¬changesQp 2 by decide)
  unfold clientCreateContext
  split
  · exact .refl [] sound
  · split
    · rename_i result
      rwa [result] at kept
    · rename_i result
      rw [result] at kept
      split
      · exact kept
      · split <;> exact kept

theorem clientDestroyContext_kept (faithful : Faithful transport) (sound : client.world.Sound)
    (context : Obtained) : Kept [] client (clientDestroyContext transport client context).2 := by
  have kept : Kept [] client (client.callPlain transport
      { method := 3, objectIdentity := context.value } [context]).2 :=
    callPlain_kept faithful sound (show ¬changesQp 3 by decide)
  unfold clientDestroyContext
  split
  · exact .refl [] sound
  · split
    · rename_i result
      rwa [result] at kept
    · rename_i result
      rw [result] at kept
      split <;> exact kept

theorem callIdentity_kept (faithful : Faithful transport) (sound : client.world.Sound)
    (harmless : ¬changesQp request.method) (type : ObjectType) :
    Kept [] client (callIdentity transport client request identities type).2 := by
  have kept : Kept [] client (client.callPlain transport request identities).2 :=
    callPlain_kept faithful sound harmless
  unfold callIdentity
  split
  · rename_i result
    rwa [result] at kept
  · rename_i result
    rw [result] at kept
    split
    · exact kept
    · split <;> exact kept

theorem callDestroy_kept (faithful : Faithful transport) (sound : client.world.Sound)
    (harmless : ¬changesQp request.method) :
    Kept [] client (callDestroy transport client request identities).2 := by
  have kept : Kept [] client (client.callPlain transport request identities).2 :=
    callPlain_kept faithful sound harmless
  unfold callDestroy
  split
  · rename_i result
    rwa [result] at kept
  · rename_i result
    rw [result] at kept
    split
    · exact kept
    · split <;> exact kept

theorem clientDestroy_kept (faithful : Faithful transport) (sound : client.world.Sound)
    {method : Nat} (harmless : ¬changesQp method) (identity : Obtained) :
    Kept [] client (clientDestroy transport client method identity).2 := by
  unfold clientDestroy
  split
  · exact .refl [] sound
  · exact callDestroy_kept faithful sound harmless

theorem clientCreatePd_kept (faithful : Faithful transport) (sound : client.world.Sound)
    (context : Obtained) : Kept [] client (clientCreatePd transport client context).2 := by
  unfold clientCreatePd
  split
  · exact .refl [] sound
  · exact callIdentity_kept faithful sound (show ¬changesQp 4 by decide) .pd

theorem clientRegisterMr_kept (faithful : Faithful transport) (sound : client.world.Sound)
    (pd : Obtained) (memory : ExportedCudaMemory) (access : UInt32) :
    Kept [] client (clientRegisterMr transport client pd memory access).2 := by
  have kept : Kept [] client (client.callPlain transport
      { method := 6
        objectIdentity := pd.value
        length := memory.length
        access
        payload := encodeMrRegistration memory } [pd]).2 :=
    callPlain_kept faithful sound (show ¬changesQp 6 by decide)
  unfold clientRegisterMr
  split
  · exact .refl [] sound
  · split
    · rename_i result
      rwa [result] at kept
    · rename_i result
      rw [result] at kept
      split
      · exact kept
      · split
        · exact kept
        · split
          · exact kept
          · split <;> exact kept

theorem clientCreateCq_kept (faithful : Faithful transport) (sound : client.world.Sound)
    (context : Obtained) (cqe : Nat) (mapRing : Queue.QueueDescriptor → Status) :
    Kept [] client (clientCreateCq transport client context cqe mapRing).2 := by
  have kept : Kept [] client (client.call transport
      { method := 8, objectIdentity := context.value, length := cqe } [context]).2 :=
    call_kept faithful sound (show ¬changesQp 8 by decide)
  unfold clientCreateCq
  split
  · exact .refl [] sound
  · split
    · rename_i result
      rwa [result] at kept
    · rename_i result
      rw [result] at kept
      have abandoned (identity : Obtained) (status : Errno) :
          Kept [] client (abandon transport _ 9 identity status).2 :=
        kept.trans (clientDestroy_kept faithful kept.sound (by decide) identity)
      split
      · exact kept
      · dsimp only
        split
        · exact kept
        · split
          · exact abandoned _ _
          · split
            · exact abandoned _ _
            · exact kept

/-! ## Requests on queue pairs -/

/-- The daemon's record of the queue pair is in this state. -/
def Daemon.Shows (daemon : Daemon) (identity state : Nat) : Prop :=
  ∀ session, daemon.session = some session →
    ∃ qp, ⟨identity, session, qp⟩ ∈ daemon.service.qps.entries ∧ qp.state = state

theorem Daemon.Shows.keeps {before after : Daemon} {identity state : Nat}
    (shows : before.Shows identity state) (keeps : Keeps touched before after)
    (outside : identity ∉ touched) : after.Shows identity state := by
  intro session opened
  obtain ⟨openedBefore, kept⟩ := keeps session opened
  obtain ⟨qp, member, state⟩ := shows session openedBefore
  exact ⟨qp, kept _ member rfl outside, state⟩

theorem Daemon.handled_shows {daemon : Daemon} {session : OwnerSessionId}
    {environment : Environment} {identity state : Nat} {qp : QpRecord}
    (member : ⟨identity, session, qp⟩ ∈
      (daemon.service.handle session request environment).2.qps.entries)
    (shown : qp.state = state) :
    (daemon.handled session request environment).Shows identity state := by
  rintro other ⟨⟩
  exact ⟨qp, member, shown⟩

/-- A function ends with an error, and then nothing has changed, or with a result. -/
inductive Finished {Result : Type} (client : ControlClient Daemon) (touched : List Nat)
    (good : Result → ControlClient Daemon → Prop) :
    Except Errno Result × ControlClient Daemon → Prop
  | failed {status : Errno} {after : ControlClient Daemon} (kept : Kept [] client after) :
      Finished client touched good (.error status, after)
  | done {value : Result} {after : ControlClient Daemon} (kept : Kept touched client after)
      (holds : good value after) : Finished client touched good (.ok value, after)

theorem callDestroy_finished (faithful : Faithful transport) (sound : client.world.Sound)
    {identity : Nat} (target : request.objectIdentity = identity)
    (changing : changesQp request.method) (good : Daemon → Prop)
    (stable : ∀ {before after : Daemon}, Keeps [] before after → good before → good after)
    (effect : ∀ {middle : Daemon} {session : OwnerSessionId} {environment : Environment},
      middle.Sound → (middle.service.handle session request environment).1.status = none →
        good (middle.handled session request environment)) :
    Finished client [identity] (fun _ after => good after.world)
      (callDestroy transport client request identities) := by
  have called : Called request client (client.callPlain transport request identities) :=
    callPlain_called faithful sound
  unfold callDestroy
  split
  · rename_i result
    rw [result] at called
    cases called with
    | closed kept closed => exact .failed kept
  · rename_i response after result
    rw [result] at called
    split
    · rename_i refused
      exact .failed (called.kept fun answered => by rw [answered] at refused; cases refused)
    · rename_i answered
      have others := called.kept_others
      rw [target] at others
      cases called with
      | answered environment connected same opened sound moved later =>
          -- The checks on the rest of the answer cannot fail here.
          have bare := handle_bare changing answered
          rw [if_neg (by rw [bare]; simp [responseFor])]
          exact .done others
            (stable (moved_keeps later (handled_sound sound)) (effect sound answered))

theorem clientDestroyQp_finished (faithful : Faithful transport) (sound : client.world.Sound)
    (qp : Obtained) :
    Finished client [qp.value] (fun _ _ => True) (clientDestroyQp transport client qp) := by
  unfold clientDestroyQp clientDestroy
  split
  · exact .failed (.refl [] sound)
  · refine callDestroy_finished faithful sound (by rfl) ?_ (fun _ => True) (fun _ _ => trivial)
      fun _ _ => trivial
    exact show changesQp 11 by decide

theorem clientModifyQp_finished (faithful : Faithful transport) (sound : client.world.Sound)
    (qp : Obtained) {attributes : QpAttributes} (fits : attributes.Fits) (mask : UInt32) :
    Finished client [qp.value]
      (fun _ after => mask &&& qpMaskState ≠ 0 ∧ after.world.Shows qp.value attributes.state)
      (clientModifyQp transport client qp attributes mask) := by
  unfold clientModifyQp
  split
  · exact .failed (.refl [] sound)
  · refine callDestroy_finished faithful sound (by rfl) ?_
      (fun daemon => mask &&& qpMaskState ≠ 0 ∧ daemon.Shows qp.value attributes.state)
      (fun keeps holds => ⟨holds.1, holds.2.keeps keeps List.not_mem_nil⟩) ?_
    · exact show changesQp 13 by decide
    · intro middle session environment sound answered
      obtain ⟨masked, record, member, state⟩ :=
        handle_modifyQp sound.valid answered rfl (decodeModifyPayload_encode fits mask)
      exact ⟨masked, handled_shows member state⟩

theorem clientConnectQp_finished (faithful : Faithful transport) (sound : client.world.Sound)
    (qp : Obtained) (remoteQpNum : Nat) (attributes : QpAttributes) (mask : UInt32) :
    Finished client [qp.value] (fun _ after => after.world.Shows qp.value qpStateRts)
      (clientConnectQp transport client qp remoteQpNum attributes mask) := by
  unfold clientConnectQp
  split
  · exact .failed (.refl [] sound)
  · refine callDestroy_finished faithful sound (by rfl) ?_
      (fun daemon => daemon.Shows qp.value qpStateRts)
      (fun keeps holds => holds.keeps keeps List.not_mem_nil) ?_
    · exact show changesQp 15 by decide
    · intro middle session environment sound answered
      obtain ⟨record, member, state⟩ := handle_connectQp sound.valid answered rfl
      exact handled_shows member state

theorem clientQueryQp_finished (faithful : Faithful transport) (sound : client.world.Sound)
    (qp : Obtained) (mask : UInt32) :
    Finished client []
      (fun snapshot after => after.world.Shows qp.value snapshot.attributes.state)
      (clientQueryQp transport client qp mask) := by
  have called : Called _ client (client.callPlain transport
      { method := 12, objectIdentity := qp.value, payload := encodeQueryPayload mask } [qp]) :=
    callPlain_called faithful sound
  have kept : Kept [] client (client.callPlain transport
      { method := 12, objectIdentity := qp.value, payload := encodeQueryPayload mask } [qp]).2 :=
    callPlain_kept faithful sound (show ¬changesQp 12 by decide)
  unfold clientQueryQp
  split
  · exact .failed (.refl [] sound)
  · split
    · rename_i result
      rw [result] at kept
      exact .failed kept
    · rename_i response after result
      rw [result] at called kept
      split
      · exact .failed kept
      · rename_i answered
        split
        · exact .failed kept
        · cases decoded : decodeSnapshot response.payload with
          | error status => exact .failed kept
          | ok snapshot =>
              refine .done kept ?_
              cases called with
              | @answered middle _ session environment _ _ opened sound _ later =>
                  obtain ⟨record, member, shown⟩ :=
                    handleQueryQp_shows sound.valid sound.staged rfl answered
                  have state := (shown 48 (by simp)).symm.trans (decodeSnapshot_state decoded)
                  have stays := moved_keeps later (handled_sound sound)
                  refine Shows.keeps (handled_shows (handle_keeps_qp sound.valid member ?_)
                    (Option.some.inj state)) stays List.not_mem_nil
                  exact fun _ changing => absurd changing (show ¬changesQp 12 by decide)

theorem clientQueryQpConnInfo_kept (faithful : Faithful transport) (sound : client.world.Sound)
    (qp : Obtained) : Kept [] client (clientQueryQpConnInfo transport client qp).2 := by
  have kept : Kept [] client (client.callPlain transport
      { method := 14, objectIdentity := qp.value } [qp]).2 :=
    callPlain_kept faithful sound (show ¬changesQp 14 by decide)
  unfold clientQueryQpConnInfo
  split
  · exact .refl [] sound
  · split
    · rename_i result
      rwa [result] at kept
    · rename_i result
      rw [result] at kept
      split
      · exact kept
      · split
        · exact kept
        · split
          · exact kept
          · split <;> exact kept

/-- The daemon had no queue pair with this number in the session. -/
def Fresh (client : ControlClient Daemon) (identity : Nat) : Prop :=
  client.connected = true ∧ ∃ session, client.world.session = some session ∧
    ∀ qp ∈ client.world.service.qps.entries, qp.owner = session → qp.identity ≠ identity

/-- What is done to a new queue pair does not concern those that were there before. -/
theorem Kept.trans_fresh {identity : Nat} (first : Kept [] client middle)
    (second : Kept [identity] middle after) (fresh : Fresh client identity) :
    Kept [] client after where
  connections := second.connections.trans first.connections
  connectionEpoch := second.connectionEpoch.trans first.connectionEpoch
  sound := second.sound
  connected := fun connected => first.connected (second.connected connected)
  keeps := by
    intro connected session opened
    obtain ⟨openedMiddle, keptMiddle⟩ := second.keeps connected session opened
    obtain ⟨openedBefore, kept⟩ := first.keeps (second.connected connected) session openedMiddle
    refine ⟨openedBefore, fun qp member owner outside => ?_⟩
    refine keptMiddle qp (kept qp member owner outside) owner fun same => ?_
    obtain ⟨-, known, openedKnown, unused⟩ := fresh
    cases openedBefore.symm.trans openedKnown
    exact unused qp member owner (List.mem_singleton.mp same)

theorem Called.created {response : ControlResponse}
    (called : Called request client (.ok response, after)) (answered : response.status = none)
    (method : ControlMethod.ofCode request.method = some .createQp) :
    Fresh client response.objectIdentity ∧
      after.world.Shows response.objectIdentity qpStateReset := by
  cases called with
  | answered environment connected same opened sound moved later =>
      obtain ⟨⟨record, member, state⟩, unused⟩ := handle_createQp sound.valid answered method
      obtain ⟨openedBefore, kept⟩ := moved _ opened
      refine ⟨⟨connected, _, openedBefore, fun qp member owner => ?_⟩,
        (handled_shows member state).keeps (moved_keeps later (handled_sound sound))
          List.not_mem_nil⟩
      exact unused qp (kept qp member owner List.not_mem_nil)

theorem clientCreateQp_finished (faithful : Faithful transport) (sound : client.world.Sound)
    (pd sendCq recvCq : Obtained) (attributes : QpCreateAttributes)
    (mapRing : Queue.QueueDescriptor → Status) :
    Finished client [] (fun qp after =>
        Fresh client qp.value ∧ after.world.Shows qp.value qpStateReset)
      (clientCreateQp transport client pd sendCq recvCq attributes mapRing) := by
  have called : Called _ client (client.call transport
      { method := 10
        objectIdentity := pd.value
        payload := encodeQpCreateAttributes attributes } [pd, sendCq, recvCq]) :=
    call_called faithful sound
  have kept : Kept [] client (client.call transport
      { method := 10
        objectIdentity := pd.value
        payload := encodeQpCreateAttributes attributes } [pd, sendCq, recvCq]).2 :=
    call_kept faithful sound (show ¬changesQp 10 by decide)
  unfold clientCreateQp
  split
  · exact .failed (.refl [] sound)
  · split
    · rename_i result
      rw [result] at kept
      exact .failed kept
    · rename_i response after result
      rw [result] at called kept
      split
      · exact .failed kept
      · rename_i answered
        obtain ⟨fresh, shows⟩ := called.created answered rfl
        have abandoned (status : Errno) :
            Finished client [] (fun qp after =>
                Fresh client qp.value ∧ after.world.Shows qp.value qpStateReset)
              (abandon transport after 11 (after.obtained response.objectIdentity) status) := by
          refine .failed ?_
          have destroyed := clientDestroyQp_finished faithful kept.sound
            (after.obtained response.objectIdentity)
          unfold clientDestroyQp at destroyed
          generalize clientDestroy transport after 11 _ = ended at destroyed
          cases destroyed with
          | failed nothing => exact kept.trans nothing
          | done removed _ => exact kept.trans_fresh removed fresh
        dsimp only
        split
        · exact .failed kept
        · split
          · exact abandoned _
          · split
            · exact abandoned _
            · split
              · exact abandoned _
              · exact .done kept ⟨fresh, shows⟩

end Calls

end Ugdr.Control
