import Ugdr.Control.IpcAdapter

/-! # What is sent is what is received

The envelope and the two control payloads survive the way over the socket, every accepted
message is the encoding of what was decoded from it, and no received bytes make the decoders
leave their buffers.
-/

namespace Ugdr.Ipc

open Wire Checked

theorem swapBytes_chunk {buffer : Bytes} {offset width : Nat}
    (inside : offset + width ≤ buffer.length) :
    swapBytes width (fromLittleEndian (chunk buffer offset width)) =
      decode (chunk buffer offset width) := by
  have swapped := swapBytes_fromLittleEndian (chunk buffer offset width)
  rwa [length_chunk inside] at swapped

theorem swapBytes64_chunk {buffer : Bytes} {offset : Nat}
    (inside : offset + 8 ≤ buffer.length) :
    swapBytes64 (fromLittleEndian (chunk buffer offset 8)) = decode (chunk buffer offset 8) :=
  swapBytes64_fromLittleEndian (length_chunk inside)

/-! ## The envelope -/

theorem encodeHeader_eq (envelope : Envelope) :
    encodeHeader envelope =
      encode 4 envelope.magic.toNat ++ (encode 2 envelope.versionMajor.toNat ++
        (encode 2 envelope.versionMinor.toNat ++ (encode 4 envelope.method.toNat ++
          (encode 4 envelope.flags.toNat ++ (encode 8 envelope.requestId.toNat ++
            (encode 4 envelope.status.toUInt32.toNat ++
              (encode 4 envelope.payloadLength.toNat ++
                encode 4 envelope.fdCount.toNat))))))) := by
  simp only [encodeHeader, littleEndian_swapBytes, littleEndian_swapBytes64, List.append_assoc]

theorem length_encodeHeader (envelope : Envelope) :
    (encodeHeader envelope).length = wireHeaderSize := by
  simp only [encodeHeader_eq, List.length_append, length_encode]
  rfl

theorem decodeHeader_eq {buffer : Bytes} (inside : wireHeaderSize ≤ buffer.length) :
    decodeHeader buffer = .ok
      { magic := .ofNat (decode (chunk buffer 0 4))
        versionMajor := .ofNat (decode (chunk buffer 4 2))
        versionMinor := .ofNat (decode (chunk buffer 6 2))
        method := .ofNat (decode (chunk buffer 8 4))
        flags := .ofNat (decode (chunk buffer 12 4))
        requestId := .ofNat (decode (chunk buffer 16 8))
        status := (UInt32.ofNat (decode (chunk buffer 24 4))).toInt32
        payloadLength := .ofNat (decode (chunk buffer 28 4))
        fdCount := .ofNat (decode (chunk buffer 32 4)) } := by
  simp only [wireHeaderSize] at inside
  have reads : ∀ {width offset}, offset + width ≤ 36 →
      (load width buffer offset : Checked Errno (Nat × Nat)) =
        .ok (fromLittleEndian (chunk buffer offset width), offset + width) :=
    fun within => load_eq (by omega)
  have swaps : ∀ {width offset}, offset + width ≤ 36 →
      swapBytes width (fromLittleEndian (chunk buffer offset width)) =
        decode (chunk buffer offset width) :=
    fun within => swapBytes_chunk (by omega)
  have swaps64 : swapBytes64 (fromLittleEndian (chunk buffer 16 8)) =
      decode (chunk buffer 16 8) := swapBytes64_chunk (by omega)
  simp (disch := decide) only [decodeHeader, reads, bind, Except.bind, Nat.zero_add,
    Nat.reduceAdd, swaps, swaps64]
  rfl

theorem decodeHeader_encodeHeader (envelope : Envelope) (rest : Bytes) :
    decodeHeader (encodeHeader envelope ++ rest) = .ok envelope := by
  have inside : wireHeaderSize ≤ (encodeHeader envelope ++ rest).length := by
    rw [List.length_append, length_encodeHeader]
    exact Nat.le_add_right ..
  have decode16 : ∀ value : UInt16, decode (encode 2 value.toNat) = value.toNat := fun value =>
    decode_encode value.toNat_lt
  have decode32 : ∀ value : UInt32, decode (encode 4 value.toNat) = value.toNat := fun value =>
    decode_encode value.toNat_lt
  have decode64 : decode (encode 8 envelope.requestId.toNat) = envelope.requestId.toNat :=
    decode_encode envelope.requestId.toNat_lt
  rw [decodeHeader_eq inside, encodeHeader_eq]
  simp (disch := decide) only [List.append_assoc, chunk_skip, Nat.reduceSub, chunk_encode,
    Nat.sub_self, decode16, decode32, decode64, UInt16.ofNat_toNat, UInt32.ofNat_toNat,
    UInt64.ofNat_toNat, Int32.toInt32_toUInt32]

/-! ## The socket -/

/-- The envelope as `send_message` completes it. -/
def completed (message : IpcMessage) : IpcMessage :=
  { message with
    envelope :=
      { message.envelope with
        payloadLength := .ofNat message.payload.length
        fdCount := .ofNat message.fileDescriptors.length } }

/-- An envelope that `receive_message` takes. -/
structure Envelope.Supported (envelope : Envelope) : Prop where
  magic : envelope.magic = protocolMagic
  versionMajor : envelope.versionMajor = protocolMajor
  versionMinor : envelope.versionMinor ≤ protocolMinor
  flags : envelope.flags &&& ~~~allowedFlags = 0

/-- What `send_message` asks of a message. -/
structure Sendable (message : IpcMessage) : Prop where
  payload : message.payload.length ≤ maxPayloadSize
  count : message.fileDescriptors.length ≤ maxFileDescriptors
  valid : ∀ descriptor ∈ message.fileDescriptors, 0 ≤ descriptor

theorem sendMessage_eq {message : IpcMessage} (sendable : Sendable message) :
    sendMessage message = .ok
      ⟨encodeHeader (completed message).envelope ++ message.payload, message.fileDescriptors⟩ := by
  have payload := sendable.payload
  have count := sendable.count
  have small : ¬ (maxPayloadSize < message.payload.length ∨
      maxFileDescriptors < message.fileDescriptors.length ∨
      2 ^ 32 - 1 < message.payload.length) := by
    have limit : maxPayloadSize = 2 ^ 20 := rfl
    omega
  have valid : message.fileDescriptors.any (fun descriptor => descriptor < 0) = false := by
    rw [List.any_eq_false]
    intro descriptor member
    simpa using sendable.valid descriptor member
  rw [sendMessage, if_neg small, if_neg (by rw [valid]; exact Bool.false_ne_true)]
  rfl

/-- A message that is sent is received, with the completed envelope. -/
theorem receiveMessage_deliver {message : IpcMessage} (sendable : Sendable message)
    (supported : message.envelope.Supported) :
    ∃ packet fits, sendMessage message = .ok packet ∧
      receiveMessage (deliver packet fits) = .ok (.message (completed message)) := by
  have payload := sendable.payload
  have count := sendable.count
  have header := length_encodeHeader (completed message).envelope
  have size : (encodeHeader (completed message).envelope ++ message.payload).length =
      wireHeaderSize + message.payload.length := by
    rw [List.length_append, header]
  refine ⟨_, by rw [size]; omega, sendMessage_eq sendable, ?_⟩
  have collected : collectDescriptors [] false
      (if message.fileDescriptors = [] then [] else [⟨true, message.fileDescriptors, 0⟩]) =
      (message.fileDescriptors, false) := by
    split
    · rename_i none
      rw [none, collectDescriptors]
    · have few : ¬ maxFileDescriptors < message.fileDescriptors.length := by omega
      simp [collectDescriptors, few]
  have payloadLength : (completed message).envelope.payloadLength.toNat =
      message.payload.length := by
    refine (UInt32.toNat_ofNat' ..).trans (Nat.mod_eq_of_lt ?_)
    have limit : maxPayloadSize = 2 ^ 20 := rfl
    omega
  have fdCount : (completed message).envelope.fdCount.toNat =
      message.fileDescriptors.length := by
    refine (UInt32.toNat_ofNat' ..).trans (Nat.mod_eq_of_lt ?_)
    have limit : maxFileDescriptors = 16 := rfl
    omega
  have nonempty : ¬ wireHeaderSize + message.payload.length = 0 := by
    simp only [wireHeaderSize]
    omega
  have known : ¬ ((completed message).envelope.magic ≠ protocolMagic ∨
      (completed message).envelope.versionMajor ≠ protocolMajor ∨
      protocolMinor < (completed message).envelope.versionMinor) := by
    simpa [completed, supported.magic, supported.versionMajor] using supported.versionMinor
  have flags : (completed message).envelope.flags &&& ~~~allowedFlags = 0 := supported.flags
  simp only [deliver, receiveMessage, size, collected]
  rw [if_neg nonempty, if_neg (by simp), List.append_assoc, decodeHeader_encodeHeader,
    sizeSub_eq (Nat.le_add_right ..), Nat.add_sub_cancel_left]
  simp only [bind, Except.bind]
  rw [if_neg known, if_neg (by simp [payloadLength, fdCount, flags]),
    slice_eq (Nat.le_add_right ..) (by simp [header])]
  rw [Nat.add_sub_cancel_left, List.drop_left' header, List.take_left' rfl]
  rfl

/-- Every message that is sent with a supported envelope is received. -/
theorem exists_received (message : IpcMessage) (sendable : Sendable message)
    (supported : message.envelope.Supported) :
    ∃ received, receiveMessage received = .ok (.message (completed message)) := by
  obtain ⟨packet, fits, -, received⟩ := receiveMessage_deliver sendable supported
  exact ⟨_, received⟩

/-- A payload that is not as long as the header says is not received. -/
theorem receiveMessage_ne_message {bytes : Bytes}
    {fits : bytes.length ≤ wireHeaderSize + maxPayloadSize} {truncated : Bool}
    {control : List ControlData} {envelope : Envelope} {payload : Bytes}
    (parts : bytes = encodeHeader envelope ++ payload)
    (wrong : envelope.payloadLength.toNat ≠ payload.length) (message : IpcMessage) :
    receiveMessage (.data bytes fits truncated control) ≠ .ok (.message message) := by
  intro accepted
  subst parts
  have size : (encodeHeader envelope ++ payload).length = wireHeaderSize + payload.length := by
    rw [List.length_append, length_encodeHeader]
  simp only [receiveMessage, size] at accepted
  generalize collectDescriptors [] truncated control = collected at accepted
  obtain ⟨descriptors, invalidControl⟩ := collected
  dsimp only at accepted
  rw [List.append_assoc, decodeHeader_encodeHeader, sizeSub_eq (Nat.le_add_right ..),
    Nat.add_sub_cancel_left] at accepted
  simp only [bind, Except.bind] at accepted
  rw [if_pos (.inr (.inl wrong) : envelope.flags &&& ~~~allowedFlags ≠ 0 ∨
    envelope.payloadLength.toNat ≠ payload.length ∨
      envelope.fdCount.toNat ≠ descriptors.length)] at accepted
  split_ifs at accepted <;> cases accepted

/-- Fewer bytes than a header has are not received. -/
theorem receiveMessage_ne_message_of_short {bytes : Bytes}
    {fits : bytes.length ≤ wireHeaderSize + maxPayloadSize} {truncated : Bool}
    {control : List ControlData} (short : bytes.length < wireHeaderSize) (message : IpcMessage) :
    receiveMessage (.data bytes fits truncated control) ≠ .ok (.message message) := by
  intro accepted
  simp only [receiveMessage] at accepted
  split at accepted
  · cases accepted
  · rw [if_pos (.inr short)] at accepted
    cases accepted

/-- What `receive_message` guarantees of a message. -/
structure WellReceived (message : IpcMessage) : Prop where
  payload : message.payload.length ≤ maxPayloadSize
  payloadLength : message.envelope.payloadLength.toNat = message.payload.length
  fdCount : message.envelope.fdCount.toNat = message.fileDescriptors.length
  supported : message.envelope.Supported

/-- Whatever arrives, the receiver stays inside its buffer, and what it accepts is well
formed. -/
theorem receiveMessage_cases (received : Received) :
    (∃ errorNumber, receiveMessage received = .ok (.error errorNumber)) ∨
      receiveMessage received = .ok .eof ∨
      ∃ message, receiveMessage received = .ok (.message message) ∧ WellReceived message := by
  cases received with
  | failed errorNumber => exact .inl ⟨errorNumber, rfl⟩
  | data bytes fits truncated control =>
      simp only [receiveMessage]
      generalize collectDescriptors [] truncated control = collected
      obtain ⟨descriptors, invalidControl⟩ := collected
      dsimp only
      split
      · exact .inr (.inl rfl)
      · split
        · exact .inl ⟨_, rfl⟩
        · rename_i nonempty whole
          obtain ⟨-, whole⟩ := not_or.mp whole
          have buffer : (bytes ++ List.replicate (wireHeaderSize + maxPayloadSize - bytes.length)
              (0 : UInt8)).length = wireHeaderSize + maxPayloadSize := by
            rw [List.length_append, List.length_replicate]
            omega
          rw [decodeHeader_eq (by rw [buffer]; exact Nat.le_add_right ..),
            sizeSub_eq (Nat.le_of_not_lt whole)]
          generalize (Envelope.mk _ _ _ _ _ _ _ _ _) = envelope
          simp only [bind, Except.bind]
          split
          · exact .inl ⟨_, rfl⟩
          · rename_i known
            split
            · exact .inl ⟨_, rfl⟩
            · rename_i consistent
              simp only [not_or, ne_eq, not_not] at known consistent
              obtain ⟨flags, payloadLength, fdCount⟩ := consistent
              rw [slice_eq (Nat.le_of_not_lt whole) (by rw [buffer]; exact fits)]
              have size : ((bytes ++ List.replicate
                  (wireHeaderSize + maxPayloadSize - bytes.length) (0 : UInt8)).drop
                    wireHeaderSize).length = maxPayloadSize := by
                rw [List.length_drop, buffer, Nat.add_sub_cancel_left]
              refine .inr (.inr ⟨_, rfl, ?_, ?_, fdCount, ?_⟩)
              · rw [List.length_take, size]
                exact Nat.min_le_right ..
              · rw [List.length_take, size, payloadLength, Nat.min_eq_left (by omega)]
              · exact ⟨known.1, known.2.1, UInt16.not_lt.mp known.2.2, flags⟩

end Ugdr.Ipc

namespace Ugdr.Control

open Wire Checked Ipc

/-! ## Indices and opaque bytes -/

theorem readField_eq {width offset : Nat} {payload : Bytes}
    (inside : offset + width ≤ payload.length) :
    readField width payload offset =
      .ok (fromLittleEndian (chunk payload offset width), offset + width) := by
  rw [readField, if_neg (by omega), load_eq inside]

theorem appendIndices_cons (index : UInt32) (indices : List UInt32) :
    appendIndices (index :: indices) = encode 4 index.toNat ++ appendIndices indices := by
  rw [appendIndices, List.flatMap_cons, littleEndian_swapBytes]
  rfl

theorem length_appendIndices (indices : List UInt32) :
    (appendIndices indices).length = 4 * indices.length := by
  induction indices with
  | nil => rfl
  | cons index indices induction =>
      rw [appendIndices_cons, List.length_append, length_encode, induction, List.length_cons]
      omega

/-- Every 4 bytes are an index. -/
theorem readIndices_eq (payload : Bytes) (offset count : Nat)
    (inside : offset + 4 * count ≤ payload.length) :
    ∃ indices, readIndices payload offset count = .ok indices ∧ indices.length = count ∧
      appendIndices indices = chunk payload offset (4 * count) := by
  induction count generalizing offset with
  | zero => exact ⟨[], rfl, rfl, rfl⟩
  | succ count induction =>
      obtain ⟨indices, read, size, appended⟩ := induction (offset + 4) (by omega)
      have first : offset + 4 ≤ payload.length := by omega
      have small : decode (chunk payload offset 4) < 2 ^ 32 := by
        have bound := decode_lt (chunk payload offset 4)
        rwa [length_chunk first] at bound
      refine ⟨.ofNat (decode (chunk payload offset 4)) :: indices, ?_, ?_, ?_⟩
      · rw [readIndices, readField_eq first]
        simp only [bind, Except.bind, read, swapBytes_chunk first]
        rfl
      · rw [List.length_cons, size]
      · rw [appendIndices_cons, appended, UInt32.toNat_ofNat', Nat.mod_eq_of_lt small,
          encode_decode_of_length (length_chunk first), chunk_append, Nat.mul_succ, Nat.add_comm]

theorem appendIndices_injective {left right : List UInt32} (size : left.length = right.length)
    (same : appendIndices left = appendIndices right) : left = right := by
  induction left generalizing right with
  | nil => exact (List.length_eq_zero_iff.mp size.symm).symm
  | cons index left induction =>
      cases right with
      | nil => cases size
      | cons other right =>
          rw [appendIndices_cons, appendIndices_cons] at same
          obtain ⟨first, rest⟩ := List.append_inj same (by simp)
          have number := congrArg decode first
          rw [decode_encode index.toNat_lt, decode_encode other.toNat_lt] at number
          rw [UInt32.toNat.inj number, induction (Nat.succ.inj size) rest]

/-- The part behind the fixed fields, as it was read. -/
structure Parts (payload : Bytes) (offset opaqueSize indexCount descriptorCount : Nat)
    (content : Bytes) (indices : List UInt32) : Prop where
  split : payload.drop offset = content ++ appendIndices indices
  content : content.length = opaqueSize
  count : indices.length = indexCount
  valid : validIndices indices descriptorCount = true

section

variable {payload : Bytes} {offset opaqueSize indexCount descriptorCount : Nat}

/-- Reading the part behind the fixed fields reports an error or finds its parts. -/
theorem readBody_cases (inside : offset ≤ payload.length) (size : payload.length < 2 ^ 64)
    (small : indexCount < 2 ^ 32) :
    readBody payload offset opaqueSize indexCount descriptorCount = fail .eproto ∨
      ∃ content indices,
        readBody payload offset opaqueSize indexCount descriptorCount =
          .ok (content, indices) ∧
        Parts payload offset opaqueSize indexCount descriptorCount content indices := by
  simp only [readBody, sizeMul_eq (show indexCount * 4 < 2 ^ 64 by omega), sizeSub_eq inside,
    bind, Except.bind]
  split
  · exact .inl rfl
  · rename_i enough
    rw [sizeSub_eq (Nat.le_of_not_lt enough)]
    dsimp only
    split
    · exact .inl rfl
    · rename_i exact
      rw [not_not] at exact
      have start : offset + opaqueSize + 4 * indexCount = payload.length := by omega
      rw [sizeAdd_eq (by omega)]
      dsimp only
      rw [slice_eq (Nat.le_add_right ..) (by omega), Nat.add_sub_cancel_left]
      dsimp only
      obtain ⟨indices, read, count, appended⟩ :=
        readIndices_eq payload (offset + opaqueSize) indexCount (by omega)
      rw [read]
      dsimp only
      split
      · exact .inl rfl
      · rename_i valid
        refine .inr ⟨_, indices, rfl, ?_, ?_, count, Bool.not_eq_false _ ▸ valid⟩
        · rw [appended, ← chunk, chunk_append, chunk, List.take_of_length_le]
          rw [List.length_drop]
          omega
        · rw [List.length_take, List.length_drop]
          omega

/-- The parts that were written are the parts that are read. -/
theorem readBody_of_parts {content : Bytes} {indices : List UInt32}
    (parts : Parts payload offset opaqueSize indexCount descriptorCount content indices)
    (inside : offset ≤ payload.length) (size : payload.length < 2 ^ 64)
    (small : indexCount < 2 ^ 32) :
    readBody payload offset opaqueSize indexCount descriptorCount = .ok (content, indices) := by
  have total := congrArg List.length parts.split
  rw [List.length_drop, List.length_append, length_appendIndices, parts.content, parts.count]
    at total
  simp only [readBody, sizeMul_eq (show indexCount * 4 < 2 ^ 64 by omega), sizeSub_eq inside,
    bind, Except.bind]
  rw [if_neg (by omega), sizeSub_eq (by omega)]
  dsimp only
  rw [if_neg (by omega), sizeAdd_eq (by omega)]
  dsimp only
  rw [slice_eq (Nat.le_add_right ..) (by omega), Nat.add_sub_cancel_left]
  dsimp only
  obtain ⟨found, read, count, appended⟩ :=
    readIndices_eq payload (offset + opaqueSize) indexCount (by omega)
  have same : found = indices := by
    refine appendIndices_injective (count.trans parts.count.symm) ?_
    rw [appended, chunk, ← List.drop_drop, parts.split, List.drop_left' parts.content,
      List.take_of_length_le]
    rw [length_appendIndices, parts.count]
  rw [read, same]
  dsimp only
  rw [if_neg (by simp [parts.valid]), parts.split,
    List.take_left' parts.content]
  rfl

end

/-! ## Requests -/

/-- The lengths fit when the whole payload does. -/
theorem validateLengths_eq {opaqueSize indexCount fixedSize : Nat}
    (fixed : fixedSize ≤ maxPayloadSize) :
    validateLengths opaqueSize indexCount fixedSize =
      if fixedSize + opaqueSize + 4 * indexCount ≤ maxPayloadSize then .ok ()
      else fail .emsgsize := by
  have limit : maxPayloadSize = 2 ^ 20 := rfl
  simp only [validateLengths, sizeSub_eq fixed, bind, Except.bind]
  split
  · rw [if_neg (by omega)]
  · rw [sizeMul_eq (by omega)]
    dsimp only
    rw [sizeSub_eq (by omega)]
    dsimp only
    split
    · rw [if_neg (by omega)]
    · rw [if_pos (by omega)]
      rfl

/-- The payload of a request in network byte order. -/
def requestBytes (request : UgdrControlRequest) : Bytes :=
  encode 2 controlPayloadVersion ++ (encode 2 0 ++ (encode 8 request.objectIdentity.toNat ++
    (encode 8 request.length.toNat ++ (encode 4 request.access.toNat ++
      (encode 4 request.payload.length ++ (encode 4 request.fdIndices.length ++
        (request.payload ++ appendIndices request.fdIndices)))))))

theorem length_requestBytes (request : UgdrControlRequest) :
    (requestBytes request).length =
      requestFixedSize + request.payload.length + 4 * request.fdIndices.length := by
  simp only [requestBytes, List.length_append, length_encode, length_appendIndices,
    requestFixedSize]
  omega

/-- What `encode_request` asks of a request. -/
structure RequestEncodable (request : UgdrControlRequest)
    (fileDescriptors : List FileDescriptor) : Prop where
  method : request.method ≠ 0
  count : fileDescriptors.length ≤ maxFileDescriptors
  indices : validIndices request.fdIndices fileDescriptors.length = true
  size : (requestBytes request).length ≤ maxPayloadSize

def requestMessage (request : UgdrControlRequest) (fileDescriptors : List FileDescriptor) :
    IpcMessage :=
  { envelope :=
      { method := request.method
        payloadLength := .ofNat (requestBytes request).length
        fdCount := .ofNat fileDescriptors.length }
    payload := requestBytes request
    fileDescriptors }

theorem encodeRequest_eq_ok_iff {request : UgdrControlRequest}
    {fileDescriptors : List FileDescriptor} {message : IpcMessage} :
    encodeRequest request fileDescriptors = .ok message ↔
      RequestEncodable request fileDescriptors ∧
        message = requestMessage request fileDescriptors := by
  have fixed : requestFixedSize ≤ maxPayloadSize := by decide
  have reserved : littleEndian 2 0 = encode 2 0 := by decide
  rw [encodeRequest, validateLengths_eq fixed]
  simp only [littleEndian_swapBytes, littleEndian_swapBytes64, List.append_assoc, reserved]
  split
  · rename_i refused
    refine ⟨nofun, fun ⟨encodable, _⟩ => ?_⟩
    have count := encodable.count
    rcases refused with method | many | indices
    · exact absurd method encodable.method
    · omega
    · rw [encodable.indices] at indices
      cases indices
  · rename_i accepted
    simp only [not_or, Nat.not_lt, Bool.not_eq_false] at accepted
    rw [← length_requestBytes]
    by_cases size : (requestBytes request).length ≤ maxPayloadSize
    · rw [if_pos size]
      constructor
      · intro equal
        exact ⟨⟨accepted.1, accepted.2.1, accepted.2.2, size⟩, (Except.ok.inj equal).symm⟩
      · rintro ⟨-, same⟩
        rw [same]
        rfl
    · rw [if_neg size]
      exact ⟨nofun, fun encoded => absurd encoded.1.size size⟩

/-- The envelope agrees with the message, and the fixed part of the payload is there. -/
structure Framed (message : IpcMessage) (fixedSize : Nat) : Prop where
  count : message.fileDescriptors.length ≤ maxFileDescriptors
  fdCount : message.envelope.fdCount.toNat = message.fileDescriptors.length
  payloadLength : message.envelope.payloadLength.toNat = message.payload.length
  fixed : fixedSize ≤ message.payload.length

theorem framed_iff {message : IpcMessage} {fixedSize : Nat} :
    ¬ (maxFileDescriptors < message.fileDescriptors.length ∨
      message.envelope.fdCount.toNat ≠ message.fileDescriptors.length ∨
      message.envelope.payloadLength.toNat ≠ message.payload.length ∨
      message.payload.length < fixedSize) ↔ Framed message fixedSize := by
  simp only [not_or, Nat.not_lt, ne_eq, not_not]
  exact ⟨fun ⟨count, fdCount, length, fixed⟩ => ⟨count, fdCount, length, fixed⟩,
    fun framed => ⟨framed.count, framed.fdCount, framed.payloadLength, framed.fixed⟩⟩

/-- The version and the reserved field of a payload. -/
def Versioned (payload : Bytes) : Prop :=
  decode (chunk payload 0 2) = controlPayloadVersion ∧ fromLittleEndian (chunk payload 2 2) = 0

instance (payload : Bytes) : Decidable (Versioned payload) :=
  inferInstanceAs (Decidable (_ ∧ _))

theorem decodeRequest_eq {message : IpcMessage} (method : message.envelope.method ≠ 0)
    (request : message.envelope.flags &&& responseFlag = 0)
    (framed : Framed message requestFixedSize) :
    decodeRequest message =
      if Versioned message.payload then do
        let (payload, fdIndices) ← readBody message.payload requestFixedSize
          (decode (chunk message.payload 24 4)) (decode (chunk message.payload 28 4))
          message.fileDescriptors.length
        return {
          value :=
            { method := message.envelope.method
              objectIdentity := .ofNat (decode (chunk message.payload 4 8))
              length := .ofNat (decode (chunk message.payload 12 8))
              access := .ofNat (decode (chunk message.payload 20 4))
              payload
              fdIndices }
          fileDescriptors := message.fileDescriptors }
      else
        fail .eprotonosupport := by
  have fixed := framed.fixed
  simp only [requestFixedSize] at fixed
  have reads : ∀ {width offset}, offset + width ≤ 32 →
      readField width message.payload offset =
        .ok (fromLittleEndian (chunk message.payload offset width), offset + width) :=
    fun within => readField_eq (by omega)
  have swaps : ∀ {width offset}, offset + width ≤ 32 →
      swapBytes width (fromLittleEndian (chunk message.payload offset width)) =
        decode (chunk message.payload offset width) :=
    fun within => swapBytes_chunk (by omega)
  have swaps64 : ∀ {offset}, offset + 8 ≤ 32 →
      swapBytes64 (fromLittleEndian (chunk message.payload offset 8)) =
        decode (chunk message.payload offset 8) :=
    fun within => swapBytes64_chunk (by omega)
  rw [decodeRequest, if_neg (by simp [method, request]), if_neg (framed_iff.mpr framed)]
  simp (disch := decide) only [reads, bind, Except.bind, Nat.zero_add, Nat.reduceAdd, swaps,
    swaps64]
  by_cases versioned : Versioned message.payload
  · rw [if_pos versioned, if_neg (by simp [versioned.1, versioned.2])]
    rfl
  · rw [if_neg versioned, if_pos (by rw [Versioned] at versioned; tauto)]

/-- The fields of an encoded request are found where they were put. -/
theorem requestBytes_fields (request : UgdrControlRequest)
    (size : (requestBytes request).length ≤ maxPayloadSize) :
    Versioned (requestBytes request) ∧
      decode (chunk (requestBytes request) 4 8) = request.objectIdentity.toNat ∧
      decode (chunk (requestBytes request) 12 8) = request.length.toNat ∧
      decode (chunk (requestBytes request) 20 4) = request.access.toNat ∧
      decode (chunk (requestBytes request) 24 4) = request.payload.length ∧
      decode (chunk (requestBytes request) 28 4) = request.fdIndices.length ∧
      (requestBytes request).drop requestFixedSize =
        request.payload ++ appendIndices request.fdIndices := by
  have limit : maxPayloadSize = 2 ^ 20 := rfl
  rw [length_requestBytes, limit] at size
  have identity : decode (encode 8 request.objectIdentity.toNat) =
    request.objectIdentity.toNat := decode_encode request.objectIdentity.toNat_lt
  have length : decode (encode 8 request.length.toNat) = request.length.toNat :=
    decode_encode request.length.toNat_lt
  have access : decode (encode 4 request.access.toNat) = request.access.toNat :=
    decode_encode request.access.toNat_lt
  have payload : decode (encode 4 request.payload.length) = request.payload.length :=
    decode_encode (by omega)
  have count : decode (encode 4 request.fdIndices.length) = request.fdIndices.length :=
    decode_encode (by omega)
  simp (disch := decide) only [Versioned, requestBytes, requestFixedSize, chunk_skip,
    chunk_encode, drop_encode, Nat.reduceSub, Nat.sub_self, List.drop_zero, identity, length,
    access, payload, count, and_self, and_true]
  decide

theorem framed_completed {message : IpcMessage} {fixedSize : Nat}
    (payload : message.payload.length ≤ maxPayloadSize)
    (count : message.fileDescriptors.length ≤ maxFileDescriptors)
    (fixed : fixedSize ≤ message.payload.length) : Framed (completed message) fixedSize where
  count := count
  fdCount := by
    have limit : maxFileDescriptors = 16 := rfl
    exact (UInt32.toNat_ofNat' ..).trans (Nat.mod_eq_of_lt (by omega))
  payloadLength := by
    have limit : maxPayloadSize = 2 ^ 20 := rfl
    exact (UInt32.toNat_ofNat' ..).trans (Nat.mod_eq_of_lt (by omega))
  fixed := fixed

/-- A received request is decoded to the request that was encoded. -/
theorem decodeRequest_completed {request : UgdrControlRequest}
    {fileDescriptors : List FileDescriptor} (encodable : RequestEncodable request fileDescriptors)
    {message : IpcMessage} (method : message.envelope.method = request.method)
    (flags : message.envelope.flags &&& responseFlag = 0)
    (payload : message.payload = requestBytes request)
    (descriptors : message.fileDescriptors = fileDescriptors) :
    decodeRequest (completed message) = .ok ⟨request, fileDescriptors⟩ := by
  have limit : maxPayloadSize = 2 ^ 20 := rfl
  have size := encodable.size
  have total := length_requestBytes request
  obtain ⟨versioned, identity, length, access, opaqueSize, indexCount, split⟩ :=
    requestBytes_fields request size
  have framed : Framed (completed message) requestFixedSize := by
    refine framed_completed ?_ ?_ ?_
    · rwa [payload]
    · rw [descriptors]
      exact encodable.count
    · rw [payload, total]
      omega
  have named : (completed message).envelope.method ≠ 0 := method ▸ encodable.method
  rw [decodeRequest_eq named flags framed]
  have same : (completed message).payload = requestBytes request := payload
  have passed : (completed message).fileDescriptors = fileDescriptors := descriptors
  have body := readBody_of_parts ⟨split, rfl, rfl, encodable.indices⟩ (by omega) (by omega)
    (by omega)
  rw [same, if_pos versioned, identity, length, access, opaqueSize, indexCount, passed, body]
  simp only [bind, Except.bind, UInt64.ofNat_toNat, UInt32.ofNat_toNat]
  have sent : (completed message).envelope.method = request.method := method
  rw [sent]
  rfl

/-- The chunks of a versioned payload are the encodings of the numbers in them. -/
theorem encode_chunk {payload : Bytes} {offset width : Nat}
    (inside : offset + width ≤ payload.length) :
    encode width (decode (chunk payload offset width)) = chunk payload offset width :=
  encode_decode_of_length (length_chunk inside)

theorem decode_chunk_lt {payload : Bytes} {offset width : Nat}
    (inside : offset + width ≤ payload.length) :
    decode (chunk payload offset width) < 256 ^ width := by
  have bound := decode_lt (chunk payload offset width)
  rwa [length_chunk inside] at bound

theorem encode_ofNat64 {payload : Bytes} {offset : Nat} (inside : offset + 8 ≤ payload.length) :
    encode 8 (UInt64.ofNat (decode (chunk payload offset 8))).toNat = chunk payload offset 8 := by
  have small : decode (chunk payload offset 8) < 2 ^ 64 := decode_chunk_lt inside
  rw [UInt64.toNat_ofNat', Nat.mod_eq_of_lt small, encode_chunk inside]

theorem encode_ofNat32 {payload : Bytes} {offset : Nat} (inside : offset + 4 ≤ payload.length) :
    encode 4 (UInt32.ofNat (decode (chunk payload offset 4))).toNat = chunk payload offset 4 := by
  have small : decode (chunk payload offset 4) < 2 ^ 32 := decode_chunk_lt inside
  rw [UInt32.toNat_ofNat', Nat.mod_eq_of_lt small, encode_chunk inside]

theorem versioned_front {payload : Bytes} (inside : 4 ≤ payload.length)
    (versioned : Versioned payload) :
    encode 2 controlPayloadVersion = chunk payload 0 2 ∧ encode 2 0 = chunk payload 2 2 := by
  constructor
  · rw [← versioned.1]
    exact encode_chunk (by omega)
  · have size : (chunk payload 2 2).reverse.length = 2 := by
      rw [List.length_reverse, length_chunk (by omega)]
    have reversed := encode_decode_of_length size
    rw [← fromLittleEndian, versioned.2] at reversed
    rw [← List.reverse_reverse (chunk payload 2 2), ← reversed]
    rfl

theorem decodeRequest_cases {message : IpcMessage} (received : WellReceived message) :
    (∃ status, decodeRequest message = fail status) ∨
      ∃ request, decodeRequest message = .ok request ∧
        request.fileDescriptors = message.fileDescriptors ∧
        RequestEncodable request.value request.fileDescriptors ∧
        requestBytes request.value = message.payload := by
  have limit : maxPayloadSize = 2 ^ 20 := rfl
  have size := received.payload
  by_cases header : message.envelope.method = 0 ∨ message.envelope.flags &&& responseFlag ≠ 0
  · exact .inl ⟨_, by rw [decodeRequest, if_pos header]⟩
  by_cases framed : Framed message requestFixedSize
  swap
  · refine .inl ⟨.eproto, ?_⟩
    rw [decodeRequest, if_neg header, if_pos (not_not.mp (mt framed_iff.mp framed))]
  simp only [not_or, ne_eq, not_not] at header
  have fixed := framed.fixed
  simp only [requestFixedSize] at fixed
  rw [decodeRequest_eq header.1 header.2 framed]
  by_cases versioned : Versioned message.payload
  swap
  · exact .inl ⟨_, if_neg versioned⟩
  rw [if_pos versioned]
  have count : decode (chunk message.payload 28 4) < 2 ^ 32 := decode_chunk_lt (by omega)
  rcases readBody_cases framed.fixed (by omega) count with
    failed | ⟨content, indices, read, parts⟩
  · refine .inl ⟨.eproto, ?_⟩
    rw [failed]
    rfl
  · rw [read]
    have identity : encode 8 (UInt64.ofNat (decode (chunk message.payload 4 8))).toNat =
        chunk message.payload 4 8 := encode_ofNat64 (by omega)
    have length : encode 8 (UInt64.ofNat (decode (chunk message.payload 12 8))).toNat =
        chunk message.payload 12 8 := encode_ofNat64 (by omega)
    have access : encode 4 (UInt32.ofNat (decode (chunk message.payload 20 4))).toNat =
        chunk message.payload 20 4 := encode_ofNat32 (by omega)
    obtain ⟨version, reserved⟩ := versioned_front (by omega) versioned
    have same : requestBytes
        { method := message.envelope.method
          objectIdentity := .ofNat (decode (chunk message.payload 4 8))
          length := .ofNat (decode (chunk message.payload 12 8))
          access := .ofNat (decode (chunk message.payload 20 4))
          payload := content
          fdIndices := indices } = message.payload := by
      simp only [requestBytes]
      rw [← parts.split, parts.content, parts.count, encode_chunk (by omega),
        encode_chunk (by omega), identity, length, access, version, reserved, requestFixedSize,
        chunk_append_drop _ 28 4, chunk_append_drop _ 24 4, chunk_append_drop _ 20 4,
        chunk_append_drop _ 12 8, chunk_append_drop _ 4 8, chunk_append_drop _ 2 2,
        chunk_append_drop _ 0 2, List.drop_zero]
    exact .inr ⟨_, rfl, rfl, ⟨header.1, framed.count, parts.valid, by rwa [same]⟩, same⟩

/-! ## Responses -/

/-- The payload of a response in network byte order. -/
def responseBytes (response : UgdrControlResponse) : Bytes :=
  encode 2 controlPayloadVersion ++ (encode 2 0 ++ (encode 8 response.objectIdentity.toNat ++
    (encode 4 response.payload.length ++ (encode 4 response.fdIndices.length ++
      (response.payload ++ appendIndices response.fdIndices)))))

theorem length_responseBytes (response : UgdrControlResponse) :
    (responseBytes response).length =
      responseFixedSize + response.payload.length + 4 * response.fdIndices.length := by
  simp only [responseBytes, List.length_append, length_encode, length_appendIndices,
    responseFixedSize]
  omega

/-- What `encode_response` asks of a response. -/
structure ResponseEncodable (response : UgdrControlResponse)
    (fileDescriptors : List FileDescriptor) : Prop where
  method : response.method ≠ 0
  count : fileDescriptors.length ≤ maxFileDescriptors
  indices : validIndices response.fdIndices fileDescriptors.length = true
  size : (responseBytes response).length ≤ maxPayloadSize

def responseMessage (response : UgdrControlResponse) (fileDescriptors : List FileDescriptor) :
    IpcMessage :=
  { envelope :=
      { method := response.method
        flags := responseFlag
        status := response.status
        payloadLength := .ofNat (responseBytes response).length
        fdCount := .ofNat fileDescriptors.length }
    payload := responseBytes response
    fileDescriptors }

/-- What `encode_response` answers. Its second error is about the size alone. -/
theorem encodeResponse_eq {response : UgdrControlResponse}
    {fileDescriptors : List FileDescriptor} (method : response.method ≠ 0)
    (count : fileDescriptors.length ≤ maxFileDescriptors)
    (indices : validIndices response.fdIndices fileDescriptors.length = true) :
    encodeResponse response fileDescriptors =
      if (responseBytes response).length ≤ maxPayloadSize then
        .ok (responseMessage response fileDescriptors)
      else
        fail .emsgsize := by
  have fixed : responseFixedSize ≤ maxPayloadSize := by decide
  have reserved : littleEndian 2 0 = encode 2 0 := by decide
  have accepted : ¬ (response.method = 0 ∨ maxFileDescriptors < fileDescriptors.length ∨
      validIndices response.fdIndices fileDescriptors.length = false) := by
    simp [method, indices, count]
  rw [encodeResponse, if_neg accepted, validateLengths_eq fixed, length_responseBytes]
  simp only [littleEndian_swapBytes, littleEndian_swapBytes64, List.append_assoc, reserved]
  split
  · rfl
  · rfl

theorem encodeResponse_eq_ok_iff {response : UgdrControlResponse}
    {fileDescriptors : List FileDescriptor} {message : IpcMessage} :
    encodeResponse response fileDescriptors = .ok message ↔
      ResponseEncodable response fileDescriptors ∧
        message = responseMessage response fileDescriptors := by
  by_cases accepted : response.method ≠ 0 ∧ fileDescriptors.length ≤ maxFileDescriptors ∧
      validIndices response.fdIndices fileDescriptors.length = true
  · obtain ⟨method, count, indices⟩ := accepted
    rw [encodeResponse_eq method count indices]
    split
    · rename_i size
      exact ⟨fun equal => ⟨⟨method, count, indices, size⟩, (Except.ok.inj equal).symm⟩,
        fun both => congrArg _ both.2.symm⟩
    · rename_i size
      exact ⟨nofun, fun both => absurd both.1.size size⟩
  · have refused : response.method = 0 ∨ maxFileDescriptors < fileDescriptors.length ∨
        validIndices response.fdIndices fileDescriptors.length = false := by
      rw [← Nat.not_le, ← Bool.not_eq_true]
      tauto
    rw [encodeResponse, if_pos refused]
    exact ⟨nofun, fun both => absurd ⟨both.1.method, both.1.count, both.1.indices⟩ accepted⟩

theorem decodeResponse_eq {message : IpcMessage} (method : message.envelope.method ≠ 0)
    (response : message.envelope.flags &&& responseFlag ≠ 0)
    (framed : Framed message responseFixedSize) :
    decodeResponse message =
      if Versioned message.payload then do
        let (payload, fdIndices) ← readBody message.payload responseFixedSize
          (decode (chunk message.payload 12 4)) (decode (chunk message.payload 16 4))
          message.fileDescriptors.length
        return {
          value :=
            { method := message.envelope.method
              status := message.envelope.status
              objectIdentity := .ofNat (decode (chunk message.payload 4 8))
              payload
              fdIndices }
          fileDescriptors := message.fileDescriptors }
      else
        fail .eprotonosupport := by
  have fixed := framed.fixed
  simp only [responseFixedSize] at fixed
  have reads : ∀ {width offset}, offset + width ≤ 20 →
      readField width message.payload offset =
        .ok (fromLittleEndian (chunk message.payload offset width), offset + width) :=
    fun within => readField_eq (by omega)
  have swaps : ∀ {width offset}, offset + width ≤ 20 →
      swapBytes width (fromLittleEndian (chunk message.payload offset width)) =
        decode (chunk message.payload offset width) :=
    fun within => swapBytes_chunk (by omega)
  have swaps64 : swapBytes64 (fromLittleEndian (chunk message.payload 4 8)) =
      decode (chunk message.payload 4 8) := swapBytes64_chunk (by omega)
  rw [decodeResponse, if_neg (by simp [method, response]), if_neg (framed_iff.mpr framed)]
  simp (disch := decide) only [reads, bind, Except.bind, Nat.zero_add, Nat.reduceAdd, swaps,
    swaps64]
  by_cases versioned : Versioned message.payload
  · rw [if_pos versioned, if_neg (by simp [versioned.1, versioned.2])]
    rfl
  · rw [if_neg versioned, if_pos (by rw [Versioned] at versioned; tauto)]

theorem responseBytes_fields (response : UgdrControlResponse)
    (size : (responseBytes response).length ≤ maxPayloadSize) :
    Versioned (responseBytes response) ∧
      decode (chunk (responseBytes response) 4 8) = response.objectIdentity.toNat ∧
      decode (chunk (responseBytes response) 12 4) = response.payload.length ∧
      decode (chunk (responseBytes response) 16 4) = response.fdIndices.length ∧
      (responseBytes response).drop responseFixedSize =
        response.payload ++ appendIndices response.fdIndices := by
  have limit : maxPayloadSize = 2 ^ 20 := rfl
  rw [length_responseBytes, limit] at size
  have identity : decode (encode 8 response.objectIdentity.toNat) =
    response.objectIdentity.toNat := decode_encode response.objectIdentity.toNat_lt
  have payload : decode (encode 4 response.payload.length) = response.payload.length :=
    decode_encode (by omega)
  have count : decode (encode 4 response.fdIndices.length) = response.fdIndices.length :=
    decode_encode (by omega)
  simp (disch := decide) only [Versioned, responseBytes, responseFixedSize, chunk_skip,
    chunk_encode, drop_encode, Nat.reduceSub, Nat.sub_self, List.drop_zero, identity, payload,
    count, and_self, and_true]
  decide

theorem decodeResponse_completed {response : UgdrControlResponse}
    {fileDescriptors : List FileDescriptor}
    (encodable : ResponseEncodable response fileDescriptors) {message : IpcMessage}
    (method : message.envelope.method = response.method)
    (status : message.envelope.status = response.status)
    (flags : message.envelope.flags &&& responseFlag ≠ 0)
    (payload : message.payload = responseBytes response)
    (descriptors : message.fileDescriptors = fileDescriptors) :
    decodeResponse (completed message) = .ok ⟨response, fileDescriptors⟩ := by
  have limit : maxPayloadSize = 2 ^ 20 := rfl
  have size := encodable.size
  have total := length_responseBytes response
  obtain ⟨versioned, identity, opaqueSize, indexCount, split⟩ :=
    responseBytes_fields response size
  have framed : Framed (completed message) responseFixedSize := by
    refine framed_completed ?_ ?_ ?_
    · rwa [payload]
    · rw [descriptors]
      exact encodable.count
    · rw [payload, total]
      omega
  have named : (completed message).envelope.method ≠ 0 := method ▸ encodable.method
  rw [decodeResponse_eq named flags framed]
  have same : (completed message).payload = responseBytes response := payload
  have passed : (completed message).fileDescriptors = fileDescriptors := descriptors
  have body := readBody_of_parts ⟨split, rfl, rfl, encodable.indices⟩ (by omega) (by omega)
    (by omega)
  rw [same, if_pos versioned, identity, opaqueSize, indexCount, passed, body]
  simp only [bind, Except.bind, UInt64.ofNat_toNat]
  have sent : (completed message).envelope.method = response.method := method
  have answered : (completed message).envelope.status = response.status := status
  rw [sent, answered]
  rfl

theorem decodeResponse_cases {message : IpcMessage} (received : WellReceived message) :
    (∃ status, decodeResponse message = fail status) ∨
      ∃ response, decodeResponse message = .ok response ∧
        response.fileDescriptors = message.fileDescriptors ∧
        ResponseEncodable response.value response.fileDescriptors ∧
        responseBytes response.value = message.payload := by
  have limit : maxPayloadSize = 2 ^ 20 := rfl
  have size := received.payload
  by_cases header : message.envelope.method = 0 ∨ message.envelope.flags &&& responseFlag = 0
  · exact .inl ⟨_, by rw [decodeResponse, if_pos header]⟩
  by_cases framed : Framed message responseFixedSize
  swap
  · refine .inl ⟨.eproto, ?_⟩
    rw [decodeResponse, if_neg header, if_pos (not_not.mp (mt framed_iff.mp framed))]
  rw [not_or] at header
  have fixed := framed.fixed
  simp only [responseFixedSize] at fixed
  rw [decodeResponse_eq header.1 header.2 framed]
  by_cases versioned : Versioned message.payload
  swap
  · exact .inl ⟨_, if_neg versioned⟩
  rw [if_pos versioned]
  have count : decode (chunk message.payload 16 4) < 2 ^ 32 := decode_chunk_lt (by omega)
  rcases readBody_cases framed.fixed (by omega) count with
    failed | ⟨content, indices, read, parts⟩
  · refine .inl ⟨.eproto, ?_⟩
    rw [failed]
    rfl
  · rw [read]
    have identity : encode 8 (UInt64.ofNat (decode (chunk message.payload 4 8))).toNat =
        chunk message.payload 4 8 := encode_ofNat64 (by omega)
    obtain ⟨version, reserved⟩ := versioned_front (by omega) versioned
    have same : responseBytes
        { method := message.envelope.method
          status := message.envelope.status
          objectIdentity := .ofNat (decode (chunk message.payload 4 8))
          payload := content
          fdIndices := indices } = message.payload := by
      simp only [responseBytes]
      rw [← parts.split, parts.content, parts.count, encode_chunk (by omega),
        encode_chunk (by omega), identity, version, reserved, responseFixedSize,
        chunk_append_drop _ 16 4, chunk_append_drop _ 12 4, chunk_append_drop _ 4 8,
        chunk_append_drop _ 2 2, chunk_append_drop _ 0 2, List.drop_zero]
    exact .inr ⟨_, rfl, rfl, ⟨header.1, framed.count, parts.valid, by rwa [same]⟩, same⟩

/-! ## The wire format -/

/-- The message with the number that the client gives it. -/
def numbered (message : IpcMessage) (requestId : UInt64) : IpcMessage :=
  { message with envelope := { message.envelope with requestId } }

/-- What is encoded, sent, delivered and received is decoded to the same. -/
structure RoundTrips : Prop where
  request : ∀ request fileDescriptors message requestId,
    encodeRequest request fileDescriptors = .ok message →
    (∀ descriptor ∈ fileDescriptors, 0 ≤ descriptor) →
      ∃ packet fits received, sendMessage (numbered message requestId) = .ok packet ∧
        receiveMessage (deliver packet fits) = .ok (.message received) ∧
        received.envelope.requestId = requestId ∧
        decodeRequest received = .ok ⟨request, fileDescriptors⟩
  response : ∀ response fileDescriptors message requestId,
    encodeResponse response fileDescriptors = .ok message →
    (∀ descriptor ∈ fileDescriptors, 0 ≤ descriptor) →
      ∃ packet fits received, sendMessage (numbered message requestId) = .ok packet ∧
        receiveMessage (deliver packet fits) = .ok (.message received) ∧
        received.envelope.requestId = requestId ∧
        decodeResponse received = .ok ⟨response, fileDescriptors⟩

/-- What is accepted is the encoding of what it is decoded to. -/
structure Canonical : Prop where
  request : ∀ received message request,
    receiveMessage received = .ok (.message message) → decodeRequest message = .ok request →
      ∃ again, encodeRequest request.value request.fileDescriptors = .ok again ∧
        again.payload = message.payload
  response : ∀ received message response,
    receiveMessage received = .ok (.message message) → decodeResponse message = .ok response →
      ∃ again, encodeResponse response.value response.fileDescriptors = .ok again ∧
        again.payload = message.payload

/-- Whatever is received, the decoders stay inside their buffers and their sizes do not
wrap around, and the indices they return name received descriptors. -/
structure Bounded : Prop where
  receive : ∀ received, Safe (receiveMessage received)
  decode : ∀ received message, receiveMessage received = .ok (.message message) →
    Safe (decodeRequest message) ∧ Safe (decodeResponse message)
  requestIndices : ∀ received message request,
    receiveMessage received = .ok (.message message) → decodeRequest message = .ok request →
      ∀ index ∈ request.value.fdIndices, index.toNat < message.fileDescriptors.length
  responseIndices : ∀ received message response,
    receiveMessage received = .ok (.message message) → decodeResponse message = .ok response →
      ∀ index ∈ response.value.fdIndices, index.toNat < message.fileDescriptors.length

theorem wellReceived {received : Received} {message : IpcMessage}
    (accepted : receiveMessage received = .ok (.message message)) : WellReceived message := by
  rcases receiveMessage_cases received with ⟨_, failed⟩ | ended | ⟨other, taken, well⟩
  · rw [failed] at accepted
    cases accepted
  · rw [ended] at accepted
    cases accepted
  · rw [taken] at accepted
    cases accepted
    exact well

theorem round_trips : RoundTrips := by
  refine ⟨fun request fileDescriptors message requestId encoded valid => ?_,
    fun response fileDescriptors message requestId encoded valid => ?_⟩
  · obtain ⟨encodable, rfl⟩ := encodeRequest_eq_ok_iff.mp encoded
    have sendable : Sendable (numbered (requestMessage request fileDescriptors) requestId) :=
      ⟨encodable.size, encodable.count, valid⟩
    have supported : (numbered (requestMessage request fileDescriptors)
        requestId).envelope.Supported :=
      ⟨rfl, rfl, UInt16.le_refl _, show 0 &&& ~~~allowedFlags = 0 by decide⟩
    obtain ⟨packet, fits, sent, received⟩ := receiveMessage_deliver sendable supported
    have unflagged : 0 &&& responseFlag = 0 := by decide
    exact ⟨packet, fits, _, sent, received, rfl,
      decodeRequest_completed encodable rfl unflagged rfl rfl⟩
  · obtain ⟨encodable, rfl⟩ := encodeResponse_eq_ok_iff.mp encoded
    have sendable : Sendable (numbered (responseMessage response fileDescriptors) requestId) :=
      ⟨encodable.size, encodable.count, valid⟩
    have supported : (numbered (responseMessage response fileDescriptors)
        requestId).envelope.Supported :=
      ⟨rfl, rfl, UInt16.le_refl _, show responseFlag &&& ~~~allowedFlags = 0 by decide⟩
    obtain ⟨packet, fits, sent, received⟩ := receiveMessage_deliver sendable supported
    have flagged : responseFlag &&& responseFlag ≠ 0 := by decide
    exact ⟨packet, fits, _, sent, received, rfl,
      decodeResponse_completed encodable rfl rfl flagged rfl rfl⟩

theorem canonical : Canonical := by
  refine ⟨fun received message request accepted decoded => ?_,
    fun received message response accepted decoded => ?_⟩
  · rcases decodeRequest_cases (wellReceived accepted) with
      ⟨_, failed⟩ | ⟨other, taken, -, encodable, same⟩
    · rw [failed] at decoded
      cases decoded
    · rw [taken] at decoded
      cases decoded
      exact ⟨_, encodeRequest_eq_ok_iff.mpr ⟨encodable, rfl⟩, same⟩
  · rcases decodeResponse_cases (wellReceived accepted) with
      ⟨_, failed⟩ | ⟨other, taken, -, encodable, same⟩
    · rw [failed] at decoded
      cases decoded
    · rw [taken] at decoded
      cases decoded
      exact ⟨_, encodeResponse_eq_ok_iff.mpr ⟨encodable, rfl⟩, same⟩

/-- Valid indices name descriptors. -/
theorem lt_of_validIndices {indices : List UInt32} {count : Nat}
    (valid : validIndices indices count = true) : ∀ index ∈ indices, index.toNat < count := by
  intro index member
  exact of_decide_eq_true (List.all_eq_true.mp valid index member)

theorem bounded : Bounded := by
  refine ⟨fun received => ?_, fun received message accepted => ⟨?_, ?_⟩,
    fun received message request accepted decoded => ?_,
    fun received message response accepted decoded => ?_⟩
  · rcases receiveMessage_cases received with ⟨_, failed⟩ | ended | ⟨message, taken, -⟩
    · rw [failed]
      exact safe_ok _
    · rw [ended]
      exact safe_ok _
    · rw [taken]
      exact safe_ok _
  · rcases decodeRequest_cases (wellReceived accepted) with ⟨_, failed⟩ | ⟨_, taken, -⟩
    · rw [failed]
      exact safe_fail _
    · rw [taken]
      exact safe_ok _
  · rcases decodeResponse_cases (wellReceived accepted) with ⟨_, failed⟩ | ⟨_, taken, -⟩
    · rw [failed]
      exact safe_fail _
    · rw [taken]
      exact safe_ok _
  · rcases decodeRequest_cases (wellReceived accepted) with
      ⟨_, failed⟩ | ⟨other, taken, descriptors, encodable, -⟩
    · rw [failed] at decoded
      cases decoded
    · rw [taken] at decoded
      cases decoded
      rw [← descriptors]
      exact lt_of_validIndices encodable.indices
  · rcases decodeResponse_cases (wellReceived accepted) with
      ⟨_, failed⟩ | ⟨other, taken, descriptors, encodable, -⟩
    · rw [failed] at decoded
      cases decoded
    · rw [taken] at decoded
      cases decoded
      rw [← descriptors]
      exact lt_of_validIndices encodable.indices

/-- Requests and responses survive the way over the socket, and nothing that arrives leads
the decoders out of their buffers. -/
theorem wire_format : RoundTrips ∧ Canonical ∧ Bounded :=
  ⟨round_trips, canonical, bounded⟩

end Ugdr.Control
