import Ugdr.Control.ControlIpc
import Ugdr.Control.RequestEffects
import Ugdr.Control.WireFormat

/-! # Which answers the client understands

An answer that carries the fixed part of a response is read back by the client with the
status that the daemon has decided. An answer that is made of a bare envelope is not: the
client takes it for a violation of the protocol and closes the connection. The same happens
when the socket does not take the answer, because the server then closes the session.
-/

namespace Ugdr

/-- A positive `int`, as every errno value is. -/
def Errno.Positive (status : Errno) : Prop :=
  0 < status.number ∧ status.number < 2 ^ 31

instance (status : Errno) : Decidable status.Positive := by
  unfold Errno.Positive
  infer_instance

namespace Control

open Wire Checked Ipc Queue

/-- The errors that the daemon gets to hear from outside are errno values. -/
structure Environment.ReportsErrno (environment : Environment) : Prop where
  pageSize : ∀ status, environment.rings.pageSize = .error status → status.Positive
  mapMemory : ∀ descriptor size status,
    environment.rings.mapMemory descriptor size = some status → status.Positive
  duplicateFd : ∀ descriptor status,
    environment.rings.duplicateFd descriptor = some status → status.Positive
  openMemory : ∀ memory status,
    environment.openMemory memory = .error status → status.Positive
  closeMemory : ∀ mapping status,
    environment.closeMemory mapping = some status → status.Positive

/-! ## Errors of the decoders and encoders -/

theorem decodeMrRegistration_error {bytes : Bytes} {length : Nat} {status : Errno}
    (failed : decodeMrRegistration bytes length = .error status) : status.Positive := by
  unfold decodeMrRegistration at failed
  repeat' split at failed
  all_goals
    cases failed
    try decide

theorem decodeQpCreateAttributes_error {bytes : Bytes} {status : Errno}
    (failed : decodeQpCreateAttributes bytes = .error status) : status.Positive := by
  unfold decodeQpCreateAttributes at failed
  repeat' split at failed
  all_goals
    cases failed
    try decide

theorem readHeader_error {bytes : Bytes} {size : Nat} {status : Errno}
    (failed : readHeader bytes size = .error status) : status.Positive := by
  unfold readHeader at failed
  repeat' split at failed
  all_goals
    cases failed
    try decide

theorem decodeQueryPayload_error {bytes : Bytes} {status : Errno}
    (failed : decodeQueryPayload bytes = .error status) : status.Positive := by
  unfold decodeQueryPayload at failed
  split at failed
  · cases failed
    exact readHeader_error ‹_›
  · split at failed <;> cases failed
    decide

theorem decodeModifyPayload_error {bytes : Bytes} {status : Errno}
    (failed : decodeModifyPayload bytes = .error status) : status.Positive := by
  unfold decodeModifyPayload at failed
  split at failed
  · cases failed
    exact readHeader_error ‹_›
  · split at failed <;> cases failed
    decide

theorem decodeConnectPayload_error {bytes : Bytes} {status : Errno}
    (failed : decodeConnectPayload bytes = .error status) : status.Positive := by
  unfold decodeConnectPayload at failed
  split at failed
  · cases failed
    exact readHeader_error ‹_›
  · split at failed <;> cases failed
    decide

theorem deviceListSize_error {size : Nat} {devices : List DeviceDescriptor} {status : Errno}
    (failed : deviceListSize size devices = .error status) : status.Positive := by
  induction devices generalizing size with
  | nil => cases failed
  | cons device devices induction =>
      unfold deviceListSize at failed
      split at failed
      · cases failed
        decide
      · dsimp only at failed
        split at failed
        · cases failed
          decide
        · exact induction failed

theorem encodeDeviceList_error {devices : List DeviceDescriptor} {status : Errno}
    (failed : encodeDeviceList devices = .error status) : status.Positive := by
  unfold encodeDeviceList at failed
  split at failed
  · cases failed
    decide
  · split at failed
    · cases failed
      exact deviceListSize_error ‹_›
    · cases failed

theorem encodeMrRegistrationResult_error {result : MrRegistrationResult} {status : Errno}
    (failed : encodeMrRegistrationResult result = .error status) : status.Positive := by
  unfold encodeMrRegistrationResult at failed
  split at failed <;> cases failed
  decide

theorem encodeQueueDescriptors_error {descriptors : List QueueDescriptor} {status : Errno}
    (failed : encodeQueueDescriptors descriptors = .error status) : status.Positive := by
  unfold encodeQueueDescriptors at failed
  split at failed <;> cases failed
  decide

theorem alignedSlotStride_error {headerSize maxSge : Nat} {status : Errno}
    (failed : alignedSlotStride headerSize maxSge = .error status) : status.Positive := by
  unfold alignedSlotStride at failed
  dsimp only at failed
  repeat' split at failed
  all_goals
    cases failed
    try decide

theorem sharedRingMappingSize_error {descriptor : QueueDescriptor} {pageSize : Nat}
    {status : Errno} (failed : sharedRingMappingSize descriptor pageSize = .error status) :
    status.Positive := by
  unfold sharedRingMappingSize at failed
  split at failed
  · cases failed
    decide
  · split at failed
    · cases failed
      decide
    · dsimp only at failed
      split at failed <;> cases failed
      decide

theorem modifiedQp_error {qp : QpRecord} {attributes : QpAttributes} {mask : UInt32}
    {status : Errno} (failed : QpService.modifiedQp qp attributes mask = .error status) :
    status.Positive := by
  unfold QpService.modifiedQp at failed
  dsimp only at failed
  repeat' split at failed
  all_goals
    cases failed
    try decide

theorem erase_error {Record : Type} {type : ObjectType}
    {registry : GenerationRegistry Record type} {session identity : Nat} {status : Errno}
    (failed : (registry.erase session identity).1 = some status) : status.Positive := by
  unfold GenerationRegistry.erase at failed
  repeat' split at failed
  all_goals
    cases failed
    try decide

section Environment

variable {environment : Environment} (reports : environment.ReportsErrno)
include reports

theorem createSharedRing_error {descriptor : QueueDescriptor} {status : Errno}
    (failed : createSharedRing environment.rings descriptor = .error status) :
    status.Positive := by
  unfold createSharedRing at failed
  split at failed
  · cases failed
    exact reports.pageSize _ ‹_›
  · split at failed
    · cases failed
      exact sharedRingMappingSize_error ‹_›
    · split at failed
      · cases failed
        decide
      · split at failed <;> cases failed
        exact reports.mapMemory _ _ _ ‹_›

theorem createQpQueues_error {attributes : QpCreateAttributes} {status : Errno}
    (failed : QpService.createQpQueues environment.rings attributes = .error status) :
    status.Positive := by
  unfold QpService.createQpQueues sendSlotStride receiveSlotStride at failed
  simp only [bind, Except.bind] at failed
  split at failed
  · cases failed
    exact alignedSlotStride_error ‹_›
  split at failed
  · cases failed
    exact alignedSlotStride_error ‹_›
  split at failed
  · cases failed
    exact createSharedRing_error reports ‹_›
  split at failed
  · cases failed
    exact createSharedRing_error reports ‹_›
  split at failed
  · cases failed
    exact reports.duplicateFd _ _ ‹_›
  split at failed
  · cases failed
    exact reports.duplicateFd _ _ ‹_›
  split at failed <;> cases failed
  exact encodeQueueDescriptors_error ‹_›

end Environment

/-! ## The shape of the responses -/

/-- A response that fits into a message with room to spare. -/
structure Small (response : ControlResponse) : Prop where
  status : ∀ status, response.status = some status → status.Positive
  payload : response.payload.length ≤ 64
  fdIndices : response.fdIndices = List.range response.fileDescriptors.length
  count : response.fileDescriptors.length ≤ 2

theorem small_refused {request : ControlRequest} {status : Errno}
    (positive : status.Positive) : Small (responseFor request (some status)) where
  status := fun _ same => Option.some.inj same ▸ positive
  payload := Nat.zero_le _
  fdIndices := rfl
  count := Nat.zero_le _

theorem small_responseFor {request : ControlRequest} {status : Status}
    (positive : ∀ error, status = some error → error.Positive) :
    Small (responseFor request status) where
  status := positive
  payload := Nat.zero_le _
  fdIndices := rfl
  count := Nat.zero_le _

theorem small_done {request : ControlRequest} : Small (responseFor request none) :=
  small_responseFor fun _ same => by cases same

theorem small_answer {request : ControlRequest} (identity : Nat) {payload : Bytes}
    (size : payload.length ≤ 64) :
    Small { responseFor request none with
      objectIdentity := identity
      payload := payload } where
  status := nofun
  payload := size
  fdIndices := rfl
  count := Nat.zero_le _

theorem length_encodeMrRegistrationResult {result : MrRegistrationResult} {payload : Bytes}
    (encoded : encodeMrRegistrationResult result = .ok payload) : payload.length = 28 := by
  unfold encodeMrRegistrationResult at encoded
  split at encoded <;> cases encoded
  simp

theorem length_encodeQueueDescriptors {descriptors : List QueueDescriptor} {payload : Bytes}
    (encoded : encodeQueueDescriptors descriptors = .ok payload) :
    payload.length = 4 + descriptors.length * 16 := by
  unfold encodeQueueDescriptors at encoded
  split at encoded <;> cases encoded
  simp only [List.length_append, length_encode, List.length_flatMap, List.map_const',
    List.sum_replicate_nat]

theorem length_encodeSnapshot (record : QpRecord) :
    (QpService.encodeSnapshot record).length = 64 := by
  simp [QpService.encodeSnapshot]

theorem length_createQpQueues {rings : RingSystemCalls} {attributes : QpCreateAttributes}
    {queues : QpService.QpQueues}
    (created : QpService.createQpQueues rings attributes = .ok queues) :
    queues.payload.length = 36 := by
  unfold QpService.createQpQueues at created
  simp only [bind, Except.bind] at created
  repeat' split at created
  all_goals cases created
  exact length_encodeQueueDescriptors ‹_›

namespace QpService

variable {service : QpService} {session : OwnerSessionId} {request : ControlRequest}
  {environment : Environment}

theorem handleCreateContext_small :
    Small (handleCreateContext service session request environment).1 := by
  unfold handleCreateContext
  split
  · exact small_refused (by decide)
  · split
    · exact small_refused (by decide)
    · exact small_answer _ (Nat.zero_le _)

theorem handleDestroyContext_small :
    Small (handleDestroyContext service session request environment).1 := by
  unfold handleDestroyContext
  split
  · exact small_refused (by decide)
  · split
    · exact small_refused (by decide)
    · exact small_responseFor fun _ failed => erase_error failed

theorem handleCreatePd_small :
    Small (handleCreatePd service session request environment).1 := by
  unfold handleCreatePd
  split
  · exact small_refused (by decide)
  · split
    · exact small_refused (by decide)
    · split
      · exact small_refused (by decide)
      · exact small_answer _ (Nat.zero_le _)

theorem handleDestroyPd_small :
    Small (handleDestroyPd service session request environment).1 := by
  unfold handleDestroyPd
  repeat' split
  all_goals first
    | exact small_refused (by decide)
    | exact small_done
    | exact small_refused (erase_error (congrArg Prod.fst ‹_›))

theorem handleDestroyCq_small :
    Small (handleDestroyCq service session request environment).1 := by
  unfold handleDestroyCq
  repeat' split
  all_goals first
    | exact small_refused (by decide)
    | exact small_done
    | exact small_refused (erase_error (congrArg Prod.fst ‹_›))

theorem handleDestroyQp_small :
    Small (handleDestroyQp service session request environment).1 := by
  unfold handleDestroyQp
  split
  · exact small_refused (by decide)
  split
  · exact small_refused (by decide)
  split
  · split
    · exact small_refused (by decide)
    dsimp only
    generalize erased : GenerationRegistry.erase _ session request.objectIdentity = result
    obtain ⟨status | status, qps⟩ := result
    · exact small_done
    · exact small_refused (erase_error (congrArg Prod.fst erased))
  · exact small_refused (by decide)

theorem registerMapped_small {pd : PdRecord} {memory : ExportedCudaMemory}
    {mapping : CudaIpcMapping} {lkey rkey : Nat} :
    Small (registerMapped service session request environment pd memory mapping
      lkey rkey).1 := by
  unfold registerMapped
  split
  · exact small_refused (encodeMrRegistrationResult_error ‹_›)
  · rename_i payload encoded
    split
    · exact small_refused (by decide)
    · dsimp only
      split
      · have size := length_encodeMrRegistrationResult encoded
        exact small_answer _ (by omega)
      · exact small_refused (by decide)

theorem handleRegisterMr_small (reports : environment.ReportsErrno) :
    Small (handleRegisterMr service session request environment).1 := by
  unfold handleRegisterMr
  split
  · exact small_refused (by decide)
  split
  · exact small_refused (by decide)
  split
  · exact small_refused (decodeMrRegistration_error ‹_›)
  split
  · exact small_refused (reports.openMemory _ _ ‹_›)
  split
  · exact small_refused (by decide)
  split
  · exact small_refused (by decide)
  · exact registerMapped_small

theorem handleDeregisterMr_small (reports : environment.ReportsErrno) :
    Small (handleDeregisterMr service session request environment).1 := by
  unfold handleDeregisterMr
  split
  · exact small_refused (by decide)
  split
  · exact small_refused (by decide)
  split
  · exact small_refused (by decide)
  split
  · exact small_refused (reports.closeMemory _ _ ‹_›)
  split
  · exact small_refused (by decide)
  · exact small_responseFor fun _ failed => erase_error failed

theorem handleCreateCq_small (reports : environment.ReportsErrno) :
    Small (handleCreateCq service session request environment).1 := by
  unfold handleCreateCq
  split
  · exact small_refused (by decide)
  split
  · exact small_refused (by decide)
  split
  · exact small_refused (createSharedRing_error reports ‹_›)
  split
  · exact small_refused (reports.duplicateFd _ _ ‹_›)
  split
  · exact small_refused (encodeQueueDescriptors_error ‹_›)
  rename_i payload encoded
  split
  · exact small_refused (by decide)
  · have size := length_encodeQueueDescriptors encoded
    exact ⟨nofun, size.trans_le (by simp), rfl, Nat.le_succ 1⟩

theorem publishQp_small {record : QpRecord} {payload : Bytes} (size : payload.length = 36) :
    Small (publishQp service session request environment record payload).1 := by
  unfold publishQp
  split
  · exact small_refused (by decide)
  dsimp only
  split
  · exact small_refused (by decide)
  split
  · exact small_refused (by decide)
  split
  · exact ⟨nofun, size.trans_le (by decide), rfl, Nat.le_refl 2⟩
  · exact small_refused (by decide)

theorem handleCreateQp_small (reports : environment.ReportsErrno) :
    Small (handleCreateQp service session request environment).1 := by
  unfold handleCreateQp
  split
  · exact small_refused (by decide)
  split
  · exact small_refused (decodeQpCreateAttributes_error ‹_›)
  split
  · exact small_refused (by decide)
  split
  · split
    · exact small_refused (by decide)
    split
    · exact small_refused (createQpQueues_error reports ‹_›)
    · exact publishQp_small (length_createQpQueues ‹_›)
  · exact small_refused (by decide)

theorem handleQueryQp_small :
    Small (handleQueryQp service session request environment).1 := by
  unfold handleQueryQp
  split
  · exact small_refused (by decide)
  split
  · exact small_refused (decodeQueryPayload_error ‹_›)
  split
  · exact small_refused (by decide)
  split
  · exact small_refused (by decide)
  · exact small_answer _ (length_encodeSnapshot _).le

theorem handleModifyQp_small :
    Small (handleModifyQp service session request environment).1 := by
  unfold handleModifyQp
  split
  · exact small_refused (by decide)
  split
  · exact small_refused (decodeModifyPayload_error ‹_›)
  split
  · exact small_refused (by decide)
  split
  · exact small_refused (modifiedQp_error ‹_›)
  · exact small_done

theorem handleQueryQpConnInfo_small :
    Small (handleQueryQpConnInfo service session request environment).1 := by
  unfold handleQueryQpConnInfo
  split
  · exact small_refused (by decide)
  split
  · exact small_refused (by decide)
  · exact small_answer _ (by simp [encodeConnInfo])

theorem handleConnectQp_small :
    Small (handleConnectQp service session request environment).1 := by
  unfold handleConnectQp
  repeat' split
  all_goals first
    | exact small_refused (by decide)
    | exact small_done
    | exact small_refused (decodeConnectPayload_error ‹_›)

/-- A request for the list of devices that the service does not refuse for its shape. -/
def AsksForDevices (request : ControlRequest) : Prop :=
  request.method = 1 ∧ emptyShape request = true ∧ request.objectIdentity = 0

theorem handle_of_asksForDevices (asks : AsksForDevices request) {payload : Bytes}
    (encoded : encodeDeviceList service.catalog = .ok payload) :
    (handle service session request environment).1 =
      { responseFor request none with payload } := by
  obtain ⟨method, shape, identity⟩ := asks
  have code : ControlMethod.ofCode request.method = some .listDevices := by rw [method]; rfl
  simp only [handle, handlePdMrCq, handleDeviceContext, handleListDevices, code, shape,
    identity, encoded]
  rfl

theorem ofCode_listDevices {code : Nat}
    (method : ControlMethod.ofCode code = some .listDevices) : code = 1 := by
  unfold ControlMethod.ofCode at method
  split at method <;> first | rfl | cases method

theorem handleListDevices_small :
    Small (handleListDevices service session request environment).1 ∨
      request.objectIdentity = 0 ∧ ∃ payload, encodeDeviceList service.catalog = .ok payload := by
  unfold handleListDevices
  split
  · exact .inl (small_refused (by decide))
  · rename_i identity
    split
    · exact .inl (small_refused (encodeDeviceList_error ‹_›))
    · rename_i payload encoded
      exact .inr ⟨not_not.mp identity, payload, encoded⟩

theorem handleDeviceContext_small :
    Small (handleDeviceContext service session request environment).1 ∨
      AsksForDevices request ∧ ∃ payload, encodeDeviceList service.catalog = .ok payload := by
  unfold handleDeviceContext
  split
  · exact .inl (small_refused (by decide))
  · rename_i shape
    split
    · rename_i method
      rcases handleListDevices_small with small | ⟨identity, encoded⟩
      · exact .inl small
      · exact .inr ⟨⟨ofCode_listDevices method, Bool.not_eq_false _ ▸ shape, identity⟩, encoded⟩
    · exact .inl handleCreateContext_small
    · exact .inl handleDestroyContext_small
    · exact .inl (small_refused (by decide))

/-- Only the list of devices can be large. -/
theorem handle_small (reports : environment.ReportsErrno) :
    Small (handle service session request environment).1 ∨
      AsksForDevices request ∧ ∃ payload, encodeDeviceList service.catalog = .ok payload := by
  unfold handle
  split
  · exact .inl (handleCreateQp_small reports)
  · exact .inl handleDestroyQp_small
  · exact .inl handleQueryQp_small
  · exact .inl handleModifyQp_small
  · exact .inl handleQueryQpConnInfo_small
  · exact .inl handleConnectQp_small
  · unfold handlePdMrCq
    split
    · exact .inl handleCreatePd_small
    · exact .inl handleDestroyPd_small
    · exact .inl (handleRegisterMr_small reports)
    · exact .inl (handleDeregisterMr_small reports)
    · exact .inl (handleCreateCq_small reports)
    · exact .inl handleDestroyCq_small
    · exact handleDeviceContext_small

end QpService

/-! ## What the client reads -/

theorem length_packet {message : IpcMessage} {packet : Packet}
    (sent : sendMessage message = .ok packet) :
    packet.bytes.length = wireHeaderSize + message.payload.length ∧
      packet.bytes.length ≤ wireHeaderSize + maxPayloadSize := by
  unfold sendMessage at sent
  split at sent
  · cases sent
  · rename_i small
    rw [not_or, Nat.not_lt] at small
    split at sent <;> cases sent
    rw [List.length_append, length_encodeHeader]
    exact ⟨rfl, Nat.add_le_add_left small.1 _⟩

theorem length_shorten {message : IpcMessage} {packet : Packet}
    (sent : sendMessage message = .ok packet) (missing : Nat) :
    (packet.shorten missing).bytes.length ≤ wireHeaderSize + maxPayloadSize :=
  (List.length_take_le' _ _).trans (length_packet sent).2

/-- What the client receives on its connection: what the socket has taken of the packet with
the answer. When that is nothing, there is only the end of the connection, which the server
then closes. -/
def arrived (request : Envelope) (response : IpcMessage) (sent : Transmitted) : Received :=
  match packed : sendMessage (stampResponse request response), sent with
  | .ok packet, .whole => deliver packet (length_packet packed).2
  | .ok packet, .short missing => deliver (packet.shorten missing) (length_shorten packed missing)
  | _, _ => .data [] (Nat.zero_le _) false []

/-- The client accepts the answer to its request and reads the status in it. -/
def Understood (request : Envelope) (response : IpcMessage) (sent : Transmitted) : Prop :=
  ∃ decoded, readResponse request (arrived request response sent) = .ok decoded ∧
    decoded.value.status = response.envelope.status

theorem arrived_whole {request : Envelope} {response : IpcMessage} {packet : Packet}
    (sent : sendMessage (stampResponse request response) = .ok packet) :
    ∃ fits, arrived request response .whole = deliver packet fits := by
  refine ⟨(length_packet sent).2, ?_⟩
  unfold arrived
  split
  · rename_i other packed _
    rw [sent] at packed
    cases packed
    rfl
  · rename_i same
    cases same
  · rename_i broken _
    exact absurd rfl (broken packet sent)

/-- Of a packet that is cut short, either the header is not whole, or the payload is not as long
as the header says. -/
theorem receiveMessage_shorten {message received : IpcMessage} {packet : Packet} {missing : Nat}
    (sent : sendMessage message = .ok packet)
    (fits : (packet.shorten missing).bytes.length ≤ wireHeaderSize + maxPayloadSize) :
    receiveMessage (deliver (packet.shorten missing) fits) ≠ .ok (.message received) := by
  have most : maxPayloadSize = 2 ^ 20 := rfl
  have width : wireHeaderSize = 36 := rfl
  have size := (length_packet sent).1
  unfold sendMessage at sent
  split at sent
  · cases sent
  · rename_i small
    rw [not_or, Nat.not_lt] at small
    split at sent <;> cases sent
    dsimp only at size
    by_cases header : wireHeaderSize + message.payload.length - (missing + 1) < wireHeaderSize
    · apply receiveMessage_ne_message_of_short
      unfold Packet.shorten
      rw [List.length_take, size]
      exact (Nat.min_le_left ..).trans_lt header
    · have long := Nat.le_of_not_lt header
      apply receiveMessage_ne_message
      · unfold Packet.shorten
        dsimp only
        rw [size, List.take_append, length_encodeHeader,
          List.take_of_length_le (by rw [length_encodeHeader]; exact long)]
      · have fits32 : message.payload.length < 2 ^ 32 := by omega
        dsimp only
        rw [UInt32.toNat_ofNat', Nat.mod_eq_of_lt fits32, List.length_take]
        omega

/-- The client has no answer without a message. -/
theorem readResponse_of_no_message {request : Envelope} {received : Received}
    {decoded : DecodedControlResponse}
    (nothing : ∀ message, receiveMessage received ≠ .ok (.message message)) :
    readResponse request received ≠ .ok decoded := by
  intro read
  unfold readResponse receiveResponse at read
  cases result : receiveMessage received with
  | error broken =>
      rw [result] at read
      cases read
  | ok answer =>
      rw [result] at read
      cases answer with
      | message message => exact nothing message result
      | eof => cases read
      | error errorNumber => cases read

/-- A session that is closed after `sendmsg` leaves the client without an answer. -/
theorem not_understood_of_closed {request : Envelope} {response : IpcMessage} {sent : Transmitted}
    (closed : sendResponse request response sent ≠ none) :
    ¬ Understood request response sent := by
  rintro ⟨decoded, read, -⟩
  refine readResponse_of_no_message (fun message => ?_) read
  unfold arrived
  split
  · rename_i packet packed
    rw [sendResponse, packed] at closed
    exact absurd rfl closed
  · rename_i packet missing packed
    exact receiveMessage_shorten packed _
  · rintro ⟨⟩

theorem stampResponse_supported (request : Envelope) (response : IpcMessage) :
    (stampResponse request response).envelope.Supported :=
  ⟨rfl, rfl, UInt16.le_refl _, show responseFlag &&& ~~~allowedFlags = 0 by decide⟩

/-- A stamped answer reaches the decoder of the client. -/
theorem receiveResponse_stamped {request : Envelope} {response : IpcMessage}
    (sendable : Sendable (stampResponse request response)) :
    ∃ packet fits, sendMessage (stampResponse request response) = .ok packet ∧
      receiveResponse request (deliver packet fits) =
        .ok (completed (stampResponse request response)) := by
  obtain ⟨packet, fits, sent, received⟩ :=
    receiveMessage_deliver sendable (stampResponse_supported request response)
  refine ⟨packet, fits, sent, ?_⟩
  have flagged : responseFlag &&& responseFlag ≠ 0 := by decide
  simp only [receiveResponse, received, bind, Except.bind, acceptResponse, completed,
    stampResponse, ne_eq, not_true_eq_false, or_false, flagged, if_false]
  rfl

/-- A bare envelope is too short for a response. -/
theorem not_understood_of_bare {request : Envelope} {response : IpcMessage} {sent : Transmitted}
    (payload : response.payload = []) (descriptors : response.fileDescriptors = []) :
    ¬ Understood request response sent := by
  have sendable : Sendable (stampResponse request response) := by
    refine ⟨?_, ?_, ?_⟩ <;> simp [stampResponse, payload, descriptors]
  obtain ⟨packet, fits, packed, received⟩ := receiveResponse_stamped sendable
  cases sent with
  | failed errorNumber =>
      apply not_understood_of_closed
      rw [sendResponse, packed]
      exact Option.some_ne_none _
  | short missing =>
      apply not_understood_of_closed
      rw [sendResponse, packed]
      exact Option.some_ne_none _
  | whole =>
      rintro ⟨decoded, read, -⟩
      obtain ⟨_, arrives⟩ := arrived_whole packed
      rw [arrives, readResponse, received] at read
      have short : decodeResponse (completed (stampResponse request response)) = fail .einval ∨
          decodeResponse (completed (stampResponse request response)) = fail .eproto := by
        unfold decodeResponse
        split
        · exact .inl rfl
        · refine .inr (if_pos (.inr (.inr (.inr ?_))))
          simp [completed, stampResponse, payload, responseFixedSize]
      rcases short with short | short <;>
      · simp only [bind, Except.bind, short] at read
        cases read

/-- What `encode_response` has made is read back. -/
theorem understood_of_encodable {request : Envelope} {response : UgdrControlResponse}
    {fileDescriptors : List FileDescriptor}
    (encodable : ResponseEncodable response fileDescriptors)
    (method : response.method = request.method) (status : 0 ≤ response.status)
    (valid : ∀ descriptor ∈ fileDescriptors, 0 ≤ descriptor) :
    Understood request (responseMessage response fileDescriptors) .whole := by
  have sendable : Sendable (stampResponse request (responseMessage response fileDescriptors)) :=
    ⟨encodable.size, encodable.count, valid⟩
  obtain ⟨packet, fits, packed, received⟩ := receiveResponse_stamped sendable
  obtain ⟨_, arrives⟩ := arrived_whole packed
  have flagged : responseFlag &&& responseFlag ≠ 0 := by decide
  have decoded : decodeResponse (completed (stampResponse request
      (responseMessage response fileDescriptors))) = .ok ⟨response, fileDescriptors⟩ :=
    decodeResponse_completed encodable method.symm rfl flagged rfl rfl
  refine ⟨⟨response, fileDescriptors⟩, ?_, rfl⟩
  rw [arrives]
  simp only [readResponse, received, decoded, bind, Except.bind]
  rw [if_neg]
  · rfl
  · rw [not_or, not_not, Int32.not_lt]
    exact ⟨method, status⟩

/-! ## Which requests are answered so -/

/-- The payload of the message is the encoding of the request. -/
structure Carries (message : IpcMessage) (request : UgdrControlRequest) : Prop where
  encodable : RequestEncodable request message.fileDescriptors
  method : request.method = message.envelope.method
  payload : requestBytes request = message.payload

theorem completed_eq {message : IpcMessage} (received : WellReceived message) :
    completed message = message := by
  obtain ⟨envelope, payload, fileDescriptors⟩ := message
  have payloadLength : UInt32.ofNat payload.length = envelope.payloadLength := by
    rw [← received.payloadLength, UInt32.ofNat_toNat]
  have fdCount : UInt32.ofNat fileDescriptors.length = envelope.fdCount := by
    rw [← received.fdCount, UInt32.ofNat_toNat]
  simp only [completed, payloadLength, fdCount]

section Request

variable {message : IpcMessage} (received : WellReceived message)
include received

theorem decodeRequest_of_carries {request : UgdrControlRequest}
    (unflagged : message.envelope.flags &&& responseFlag = 0)
    (carries : Carries message request) :
    decodeRequest message = .ok ⟨request, message.fileDescriptors⟩ := by
  have decoded := decodeRequest_completed carries.encodable carries.method.symm unflagged
    carries.payload.symm rfl
  rwa [completed_eq received] at decoded

theorem decodeRequest_fails_or_carries (method : message.envelope.method ≠ 0) :
    (∃ status, decodeRequest message = fail status) ∨ ∃ request, Carries message request := by
  rcases decodeRequest_cases received with failed | ⟨decoded, -, descriptors, encodable, same⟩
  · exact .inl failed
  · rw [descriptors] at encodable
    exact .inr ⟨{ decoded.value with method := message.envelope.method },
      ⟨method, encodable.count, encodable.indices, encodable.size⟩, rfl, same⟩

end Request

theorem statusCode_nonneg {status : Status}
    (positive : ∀ error, status = some error → error.Positive) : 0 ≤ statusCode status := by
  cases status with
  | none => decide
  | some error =>
      obtain ⟨above, below⟩ := positive error rfl
      rw [Int32.le_iff_toInt_le, statusCode, Int32.toInt_zero,
        Int32.toInt_ofInt_of_le (by omega) below]
      exact above.le

/-- The device list, if it is asked for and can be encoded, leaves room for the fixed part
of the response. -/
def DeviceListFits (catalog : List DeviceDescriptor) (request : ControlRequest) : Prop :=
  QpService.AsksForDevices request →
    ∀ payload, encodeDeviceList catalog = .ok payload →
      payload.length + responseFixedSize ≤ Ipc.maxPayloadSize

theorem validIndices_range {count : Nat} (small : count ≤ 2) :
    validIndices ((List.range count).map .ofNat) count = true := by
  match count, small with
  | 0, _ => rfl
  | 1, _ => rfl
  | 2, _ => rfl

/-- The bytes of an answer of the service, apart from its device list. -/
theorem length_toWire (response : ControlResponse) (method : UInt32) :
    (responseBytes (response.toWire method)).length =
      responseFixedSize + response.payload.length + 4 * response.fdIndices.length := by
  rw [length_responseBytes]
  simp [ControlResponse.toWire, responseFixedSize]

section Respond

variable {request : Envelope} {response : ControlResponse} (descriptorOf : QueueDescriptor → Nat)
  (method : request.method ≠ 0) (count : response.fileDescriptors.length ≤ 2)
  (fdIndices : response.fdIndices = List.range response.fileDescriptors.length)
include method count fdIndices

theorem respond_of_fits
    (fits : (responseBytes (response.toWire request.method)).length ≤ Ipc.maxPayloadSize) :
    ResponseEncodable (response.toWire request.method)
        (response.fileDescriptors.map fun queue => (descriptorOf queue : Int)) ∧
      handled (ControlIpcHandler.respond request.method response descriptorOf) =
        responseMessage (response.toWire request.method)
          (response.fileDescriptors.map fun queue => (descriptorOf queue : Int)) := by
  have encodable : ResponseEncodable (response.toWire request.method)
      (response.fileDescriptors.map fun queue => (descriptorOf queue : Int)) := by
    refine ⟨method, ?_, ?_, fits⟩
    · rw [List.length_map]
      exact count.trans (by decide)
    · rw [List.length_map, ControlResponse.toWire, fdIndices]
      exact validIndices_range count
  have encoded := encodeResponse_eq_ok_iff.mpr ⟨encodable, rfl⟩
  rw [ControlIpcHandler.respond, encoded]
  exact ⟨encodable, rfl⟩

theorem understood_of_fits
    (positive : ∀ status, response.status = some status → status.Positive)
    (fits : (responseBytes (response.toWire request.method)).length ≤ Ipc.maxPayloadSize) :
    Understood request
      (handled (ControlIpcHandler.respond request.method response descriptorOf)) .whole := by
  obtain ⟨encodable, answer⟩ := respond_of_fits descriptorOf method count fdIndices fits
  rw [answer]
  refine understood_of_encodable encodable rfl (statusCode_nonneg positive) ?_
  intro descriptor member
  obtain ⟨queue, -, rfl⟩ := List.mem_map.mp member
  exact Int.natCast_nonneg _

theorem packet_of_fits
    (fits : (responseBytes (response.toWire request.method)).length ≤ Ipc.maxPayloadSize) :
    ∃ packet, sendMessage (stampResponse request
        (handled (ControlIpcHandler.respond request.method response descriptorOf))) =
          .ok packet ∧
      packet.bytes.length =
        wireHeaderSize + (responseBytes (response.toWire request.method)).length := by
  obtain ⟨encodable, answer⟩ := respond_of_fits descriptorOf method count fdIndices fits
  rw [answer]
  have sendable : Sendable (stampResponse request (responseMessage
      (response.toWire request.method)
      (response.fileDescriptors.map fun queue => (descriptorOf queue : Int)))) := by
    refine ⟨encodable.size, encodable.count, fun descriptor member => ?_⟩
    obtain ⟨queue, -, rfl⟩ := List.mem_map.mp member
    exact Int.natCast_nonneg _
  obtain ⟨packet, -, packed, -⟩ := receiveResponse_stamped sendable
  exact ⟨packet, packed, (length_packet packed).1⟩

theorem not_understood_of_large
    {sent : Transmitted}
    (large : Ipc.maxPayloadSize < (responseBytes (response.toWire request.method)).length) :
    ¬ Understood request
      (handled (ControlIpcHandler.respond request.method response descriptorOf)) sent := by
  have refused : encodeResponse (response.toWire request.method)
      (response.fileDescriptors.map fun queue => (descriptorOf queue : Int)) =
        fail .emsgsize := by
    rw [encodeResponse_eq method, if_neg large.not_ge]
    · rw [List.length_map]
      exact count.trans (by decide)
    · rw [List.length_map, ControlResponse.toWire, fdIndices]
      exact validIndices_range count
  rw [ControlIpcHandler.respond, refused]
  exact not_understood_of_bare rfl rfl

end Respond

/-- The answer of the service, when it is sent, is understood unless it is a device list that
is too long. -/
theorem understood_iff_deviceListFits {service : QpService} {session : OwnerSessionId}
    {request : Envelope} {decoded : ControlRequest} {input : HandlerInput}
    (method : request.method ≠ 0) (reports : input.environment.ReportsErrno) :
    Understood request (handled (ControlIpcHandler.respond request.method
        (service.handle session decoded input.environment).1 input.descriptorOf)) .whole ↔
      DeviceListFits service.catalog decoded := by
  rcases QpService.handle_small reports with small | ⟨asks, payload, encoded⟩
  · have total := length_toWire (service.handle session decoded input.environment).1
      request.method
    have limit : Ipc.maxPayloadSize = 2 ^ 20 := rfl
    have size := small.payload
    have indices := small.count
    rw [small.fdIndices, List.length_range, responseFixedSize] at total
    refine iff_of_true (understood_of_fits _ method small.count small.fdIndices small.status
      (by omega)) fun asks payload encoded => ?_
    rw [QpService.handle_of_asksForDevices asks encoded] at size
    dsimp only at size
    rw [responseFixedSize]
    omega
  · rw [QpService.handle_of_asksForDevices asks encoded]
    have total : (responseBytes (ControlResponse.toWire
        { responseFor decoded none with payload } request.method)).length =
          responseFixedSize + payload.length := length_toWire _ _
    constructor
    · intro understood _ other same
      rw [encoded] at same
      cases same
      by_contra large
      exact not_understood_of_large _ method (Nat.zero_le _) rfl (by omega) understood
    · intro fits
      have size := fits asks payload encoded
      exact understood_of_fits _ method (Nat.zero_le _) rfl (by rintro _ ⟨⟩) (by omega)

/-- An answer that is not sent as a whole is not understood. -/
theorem not_understood_of_unsent {request : Envelope} {response : IpcMessage} {sent : Transmitted}
    (unsent : sent ≠ .whole) : ¬ Understood request response sent := by
  apply not_understood_of_closed
  unfold sendResponse
  split
  · exact Option.some_ne_none _
  · cases sent with
    | failed errorNumber => exact Option.some_ne_none _
    | short missing => exact Option.some_ne_none _
    | whole => exact absurd rfl unsent

/-- An answer that is sent is understood exactly when the payload is the encoding of a request,
and the device list, if it is the answer, leaves room for the fixed part of the response. -/
theorem understood_whole_iff {received : Received} {message : IpcMessage}
    (accepted : receiveMessage received = .ok (.message message))
    (method : message.envelope.method ≠ 0)
    (unflagged : message.envelope.flags &&& responseFlag = 0)
    (service : QpService) (session : OwnerSessionId) {input : HandlerInput}
    (reports : input.environment.ReportsErrno) :
    Understood message.envelope
        (handled (ControlIpcHandler.handle service session message input).1) .whole ↔
      ∃ request, Carries message request ∧
        DeviceListFits service.catalog
          (DecodedControlRequest.toRequest ⟨request, message.fileDescriptors⟩) := by
  have well := wellReceived accepted
  rcases decodeRequest_fails_or_carries well method with
    ⟨status, failed⟩ | ⟨request, carries⟩
  · have answer : (ControlIpcHandler.handle service session message input).1 =
        some (bareResponse message.envelope.method status) := by
      rw [ControlIpcHandler.handle, failed]
      rfl
    rw [answer]
    refine iff_of_false (not_understood_of_bare rfl rfl) ?_
    rintro ⟨request, carries, -⟩
    rw [decodeRequest_of_carries well unflagged carries] at failed
    cases failed
  · have decoded := decodeRequest_of_carries well unflagged carries
    have answer : (ControlIpcHandler.handle service session message input).1 =
        ControlIpcHandler.respond message.envelope.method (service.handle session
          (DecodedControlRequest.toRequest ⟨request, message.fileDescriptors⟩)
          input.environment).1 input.descriptorOf := by
      rw [ControlIpcHandler.handle, decoded]
    rw [answer, understood_iff_deviceListFits method reports]
    refine ⟨fun fits => ⟨request, carries, fits⟩, ?_⟩
    rintro ⟨other, otherCarries, fits⟩
    have same := decodeRequest_of_carries well unflagged otherCarries
    rw [decoded] at same
    cases same
    exact fits

/-- The device list, if it is asked for and can be encoded, leaves room for the header and the
fixed part of the response in a packet of limited size. -/
def DeviceListWithin (limit : Nat) (catalog : List DeviceDescriptor) (request : ControlRequest) :
    Prop :=
  QpService.AsksForDevices request →
    ∀ payload, encodeDeviceList catalog = .ok payload →
      payload.length + responseFixedSize + wireHeaderSize ≤ limit

/-- A socket takes the answer of the service unless it is a device list that is too long for
it. -/
theorem sent_whole_iff {service : QpService} {session : OwnerSessionId} {request : Envelope}
    {decoded : ControlRequest} {input : HandlerInput} {limit : Nat} {sent : Transmitted}
    (method : request.method ≠ 0) (reports : input.environment.ReportsErrno)
    (room : 128 ≤ limit) (fits : DeviceListFits service.catalog decoded)
    (answered : ∀ packet, sendMessage (stampResponse request
      (handled (ControlIpcHandler.respond request.method
        (service.handle session decoded input.environment).1 input.descriptorOf))) =
          .ok packet → sent = .within limit packet) :
    sent = .whole ↔ DeviceListWithin limit service.catalog decoded := by
  have whole : ∀ packet : Packet, Transmitted.within limit packet = .whole ↔
      packet.bytes.length ≤ limit := by
    intro packet
    unfold Transmitted.within
    split_ifs with taken
    · exact iff_of_true rfl taken
    · exact iff_of_false nofun taken
  have header : wireHeaderSize = 36 := rfl
  have fixed : responseFixedSize = 20 := rfl
  rcases QpService.handle_small reports with small | ⟨asks, payload, encoded⟩
  · have total := length_toWire (service.handle session decoded input.environment).1
      request.method
    have most : Ipc.maxPayloadSize = 2 ^ 20 := rfl
    have size := small.payload
    have indices := small.count
    rw [small.fdIndices, List.length_range] at total
    obtain ⟨packet, packed, length⟩ := packet_of_fits input.descriptorOf method small.count
      small.fdIndices (by omega)
    rw [answered packet packed, whole]
    refine iff_of_true (by omega) fun asks payload encoded => ?_
    rw [QpService.handle_of_asksForDevices asks encoded] at size
    dsimp only at size
    omega
  · rw [QpService.handle_of_asksForDevices asks encoded] at answered
    have total : (responseBytes (ControlResponse.toWire
        { responseFor decoded none with payload } request.method)).length =
          responseFixedSize + payload.length := length_toWire _ _
    have size := fits asks payload encoded
    obtain ⟨packet, packed, length⟩ := @packet_of_fits request
      { responseFor decoded none with payload } input.descriptorOf method (Nat.zero_le _) rfl
      (by omega)
    rw [answered packet packed, whole]
    constructor
    · intro taken _ other same
      rw [encoded] at same
      cases same
      omega
    · intro within
      have taken := within asks payload encoded
      omega

/-- On a socket that takes packets up to a limit, the device list must leave room for the
header, too. -/
theorem answers_understood_within {received : Received} {message : IpcMessage}
    (accepted : receiveMessage received = .ok (.message message))
    (method : message.envelope.method ≠ 0)
    (unflagged : message.envelope.flags &&& responseFlag = 0)
    (service : QpService) (session : OwnerSessionId) (input : HandlerInput)
    (reports : input.environment.ReportsErrno) {limit : Nat} (room : 128 ≤ limit)
    {sent : Transmitted}
    (answered : ∀ packet, sendMessage (stampResponse message.envelope
      (handled (ControlIpcHandler.handle service session message input).1)) = .ok packet →
        sent = .within limit packet) :
    Understood message.envelope
        (handled (ControlIpcHandler.handle service session message input).1) sent ↔
      ∃ request, Carries message request ∧
        DeviceListFits service.catalog
          (DecodedControlRequest.toRequest ⟨request, message.fileDescriptors⟩) ∧
        DeviceListWithin limit service.catalog
          (DecodedControlRequest.toRequest ⟨request, message.fileDescriptors⟩) := by
  have whole : ∀ request, Carries message request →
      DeviceListFits service.catalog
        (DecodedControlRequest.toRequest ⟨request, message.fileDescriptors⟩) →
      (sent = .whole ↔ DeviceListWithin limit service.catalog
        (DecodedControlRequest.toRequest ⟨request, message.fileDescriptors⟩)) := by
    intro request carries fits
    have decoded := decodeRequest_of_carries (wellReceived accepted) unflagged carries
    rw [ControlIpcHandler.handle, decoded] at answered
    exact sent_whole_iff method reports room fits answered
  by_cases unsent : sent ≠ .whole
  · refine iff_of_false (not_understood_of_unsent unsent) ?_
    rintro ⟨request, carries, fits, within⟩
    exact unsent ((whole request carries fits).mpr within)
  · obtain rfl := not_not.mp unsent
    rw [understood_whole_iff accepted method unflagged service session reports]
    constructor
    · rintro ⟨request, carries, fits⟩
      exact ⟨request, carries, fits, (whole request carries fits).mp rfl⟩
    · rintro ⟨request, carries, fits, -⟩
      exact ⟨request, carries, fits⟩

end Control

end Ugdr
