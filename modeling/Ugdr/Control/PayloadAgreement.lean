import Ugdr.Control.PayloadFormat

/-! # The payloads of the daemon and the client

The functions on numbers and strings, with which the daemon and the client are described,
compute what the compiled ones do.
-/

namespace Ugdr.Control.Payload

open Wire Checked Queue

/-- A computation without faults. -/
def faultless {Value : Type} : Except Errno Value → Checked Errno Value
  | .ok value => .ok value
  | .error status => fail status

theorem read_front {width : Nat} {bytes : Bytes} (inside : width ≤ bytes.length) :
    read width bytes = some (decode (chunk bytes 0 width), bytes.drop width) := by
  rw [Wire.read, if_neg (by omega), chunk, List.drop_zero]

theorem read_drop {width offset : Nat} {bytes : Bytes} (inside : offset + width ≤ bytes.length) :
    read width (bytes.drop offset) =
      some (decode (chunk bytes offset width), bytes.drop (offset + width)) := by
  rw [Wire.read, if_neg (by rw [List.length_drop]; omega), chunk, List.drop_drop]

theorem read_drop_bind {Result : Type} {width offset : Nat} {bytes : Bytes}
    {next : Nat × Bytes → Option Result} (inside : offset + width ≤ bytes.length) :
    (Wire.read width (bytes.drop offset) >>= next) =
      next (decode (chunk bytes offset width), bytes.drop (offset + width)) := by
  rw [read_drop inside]
  rfl

/-! ## Encoders -/

theorem encodeQueryPayload_agrees (mask : UInt32) :
    encodeQueryPayload mask = Control.encodeQueryPayload mask := by
  simp only [encodeQueryPayload, Control.encodeQueryPayload, appendHeader,
    littleEndian_swapBytes, littleEndian_zero]

theorem encodeModifyPayload_agrees (attributes : QpAttributes) (mask : UInt32) :
    encodeModifyPayload attributes mask = Control.encodeModifyPayload attributes mask := by
  simp only [encodeModifyPayload, Control.encodeModifyPayload, appendHeader,
    littleEndian_swapBytes, littleEndian_zero, littleEndian_byte]

theorem encodeConnectPayload_agrees (qpNum : Nat) (attributes : QpAttributes) (mask : UInt32) :
    encodeConnectPayload qpNum attributes mask =
      Control.encodeConnectPayload qpNum attributes mask := by
  simp only [encodeConnectPayload, Control.encodeConnectPayload, appendHeader,
    littleEndian_swapBytes, littleEndian_zero, littleEndian_byte]

theorem encodeConnInfo_agrees (qpNum : UInt32) :
    encodeConnInfo qpNum = Control.encodeConnInfo qpNum.toNat := by
  simp only [encodeConnInfo, Control.encodeConnInfo, appendHeader, littleEndian_swapBytes,
    littleEndian_zero]

theorem encodeSnapshot_agrees (record : QpRecord) :
    encodeSnapshot record = QpService.encodeSnapshot record := by
  simp only [encodeSnapshot, QpService.encodeSnapshot, appendHeader, littleEndian_swapBytes,
    littleEndian_swapBytes64, littleEndian_zero, littleEndian_byte]

theorem encodeQpCreateAttributes_agrees (attributes : QpCreateAttributes) :
    encodeQpCreateAttributes attributes = .ok (Control.encodeQpCreateAttributes attributes) := by
  simp only [encodeQpCreateAttributes, Control.encodeQpCreateAttributes,
    littleEndian_swapBytes, littleEndian_swapBytes64, littleEndian_zero]

theorem encodeMrRegistration_agrees (memory : ExportedCudaMemory) :
    encodeMrRegistration memory =
      if validMemory memory = false then .error .einval
      else .ok (Control.encodeMrRegistration memory) := by
  simp only [encodeMrRegistration, Control.encodeMrRegistration, littleEndian_swapBytes,
    littleEndian_swapBytes64, littleEndian_zero]

theorem encodeMrRegistrationResult_agrees (result : MrRegistrationResult) :
    encodeMrRegistrationResult result = Control.encodeMrRegistrationResult result := by
  simp only [encodeMrRegistrationResult, Control.encodeMrRegistrationResult,
    littleEndian_swapBytes, littleEndian_swapBytes64, littleEndian_zero]

theorem encodeQueueDescriptors_agrees (descriptors : List QueueDescriptor) :
    encodeQueueDescriptors descriptors = Control.encodeQueueDescriptors descriptors := by
  simp only [encodeQueueDescriptors, Control.encodeQueueDescriptors, littleEndian_swapBytes,
    littleEndian_zero]

/-! ## Decoders -/

/-- Both headers are refused with the same status, or both are good. -/
theorem header_agrees (bytes : Bytes) {expectedSize : Nat} (long : 4 ≤ expectedSize) :
    (∃ status, readHeader bytes expectedSize = fail status ∧
      Control.readHeader bytes expectedSize = .error status) ∨
      bytes.length = expectedSize ∧ decode (chunk bytes 0 2) = qpPayloadVersion ∧
        decode (chunk bytes 2 2) = 0 ∧
        Control.readHeader bytes expectedSize = .ok (bytes.drop 4) := by
  by_cases size : bytes.length = expectedSize
  swap
  · exact .inl ⟨.eproto, if_pos size, if_pos size⟩
  have strings : Control.readHeader bytes expectedSize =
      if decode (chunk bytes 0 2) ≠ qpPayloadVersion then .error .eprotonosupport
      else if decode (chunk bytes 2 2) ≠ 0 then .error .eproto
      else .ok (bytes.drop 4) := by
    rw [Control.readHeader, if_neg (not_not.mpr size)]
    simp (disch := omega) only [read_front, read_drop, bind, Option.bind_some, Nat.reduceAdd]
  rw [readHeader_eq size long, strings]
  by_cases version : decode (chunk bytes 0 2) = qpPayloadVersion
  swap
  · exact .inl ⟨_, if_pos version, if_pos version⟩
  rw [if_neg (not_not.mpr version), if_neg (not_not.mpr version)]
  by_cases reserved : decode (chunk bytes 2 2) = 0
  swap
  · exact .inl ⟨_, if_pos reserved, if_pos reserved⟩
  exact .inr ⟨size, version, reserved, if_neg (not_not.mpr reserved)⟩

theorem readQueryPayload_agrees (bytes : Bytes) (output : UInt32) :
    readQueryPayload bytes (some output) = faultless (Control.decodeQueryPayload bytes) := by
  rcases header_agrees bytes (show 4 ≤ qpQueryPayloadSize by decide) with
    ⟨status, words, strings⟩ | ⟨size, version, reserved, strings⟩
  · rw [readQueryPayload, words, Control.decodeQueryPayload, strings]
    rfl
  · rw [readQueryPayload_eq output size version reserved, Control.decodeQueryPayload, strings]
    simp only [qpQueryPayloadSize] at size
    simp (disch := omega) only [read_drop]
    rfl

theorem readModifyPayload_agrees (bytes : Bytes) (output : QpAttributes × UInt32) :
    readModifyPayload bytes (some output) = faultless (Control.decodeModifyPayload bytes) := by
  rcases header_agrees bytes (show 4 ≤ qpModifyPayloadSize by decide) with
    ⟨status, words, strings⟩ | ⟨size, version, reserved, strings⟩
  · rw [readModifyPayload, words, Control.decodeModifyPayload, strings]
    rfl
  · rw [readModifyPayload_eq output size version reserved, Control.decodeModifyPayload, strings]
    simp only [qpModifyPayloadSize] at size
    simp (disch := omega) only [read_drop, bind, Option.bind_some, Nat.reduceAdd]
    rfl

theorem readConnectPayload_agrees (bytes : Bytes) (output : Nat × QpAttributes × UInt32) :
    readConnectPayload bytes (some output) = faultless (Control.decodeConnectPayload bytes) := by
  rcases header_agrees bytes (show 4 ≤ qpConnectPayloadSize by decide) with
    ⟨status, words, strings⟩ | ⟨size, version, reserved, strings⟩
  · rw [readConnectPayload, words, Control.decodeConnectPayload, strings]
    rfl
  · rw [readConnectPayload_eq output size version reserved, Control.decodeConnectPayload, strings]
    simp only [qpConnectPayloadSize] at size
    simp (disch := omega) only [read_drop, bind, Option.bind_some, Nat.reduceAdd]
    rfl

theorem readSnapshot_agrees (bytes : Bytes) (output : QpSnapshot) :
    readSnapshot bytes (some output) = faultless (Control.decodeSnapshot bytes) := by
  rcases header_agrees bytes (show 4 ≤ qpSnapshotPayloadSize by decide) with
    ⟨status, words, strings⟩ | ⟨size, version, reserved, strings⟩
  · rw [readSnapshot, words, Control.decodeSnapshot, strings]
    rfl
  · rw [readSnapshot_eq output size version reserved, Control.decodeSnapshot, strings]
    simp only [qpSnapshotPayloadSize] at size
    dsimp only
    iterate 16
      rw [read_drop_bind (by omega)]
      dsimp only [Nat.reduceAdd]
    rfl

theorem readQpCreateAttributes_agrees (bytes : Bytes) (output : QpCreateAttributes) :
    readQpCreateAttributes bytes (some output) =
      faultless (Control.decodeQpCreateAttributes bytes) := by
  by_cases size : bytes.length = qpCreatePayloadSize
  swap
  · rw [Control.decodeQpCreateAttributes, if_pos size]
    exact if_pos (.inr size)
  rw [readQpCreateAttributes_eq output size, Control.decodeQpCreateAttributes,
    if_neg (not_not.mpr size)]
  simp only [qpCreatePayloadSize] at size
  simp (disch := omega) only [read_front, read_drop, bind, Option.bind_some, Nat.reduceAdd]
  split
  · rfl
  split
  · rfl
  rfl

theorem readMrRegistrationResult_agrees (bytes : Bytes) (output : MrRegistrationResult) :
    readMrRegistrationResult bytes (some output) =
      faultless (Control.decodeMrRegistrationResult bytes) := by
  by_cases size : bytes.length = mrRegistrationResultSize
  swap
  · rw [Control.decodeMrRegistrationResult, if_pos size]
    exact if_pos (.inr size)
  rw [readMrRegistrationResult_eq output size, Control.decodeMrRegistrationResult,
    if_neg (not_not.mpr size)]
  simp only [mrRegistrationResultSize] at size
  simp (disch := omega) only [read_front, read_drop, bind, Option.bind_some, Nat.reduceAdd]
  simp only [ite_or]
  repeat' (first | rfl | split)

theorem readMrRegistration_agrees (bytes : Bytes) (length : Nat) (output : ExportedCudaMemory) :
    readMrRegistration bytes length (some output) =
      faultless (Control.decodeMrRegistration bytes length) := by
  by_cases size : mrRegistrationFixedSize ≤ bytes.length
  swap
  · rw [Control.decodeMrRegistration, if_pos (Nat.lt_of_not_le size)]
    exact if_pos (.inr (Nat.lt_of_not_le size))
  rw [readMrRegistration_eq length output size, Control.decodeMrRegistration,
    if_neg (Nat.not_lt.mpr size)]
  simp only [mrRegistrationFixedSize] at size
  have uuid : (bytes.drop 4).take 16 = chunk bytes 4 16 := rfl
  simp (disch := omega) only [read_front, read_drop, bind, Option.bind_some, Nat.reduceAdd,
    gpuUuidSize, List.drop_drop, List.length_drop, uuid]
  split
  · rfl
  split
  · rfl
  split
  · rfl
  split
  · rfl
  rfl

theorem readDescriptors_agrees (bytes : Bytes) (offset count : Nat)
    (inside : offset + 16 * count ≤ bytes.length) :
    readDescriptors bytes offset count =
      match Control.readDescriptors count (bytes.drop offset) with
      | none => fail .eproto
      | some descriptors => .ok descriptors := by
  induction count generalizing offset with
  | zero => rfl
  | succ count induction =>
      rw [readDescriptors_succ count (by omega), Control.readDescriptors]
      simp (disch := omega) only [read_drop, bind, Option.bind_some, Nat.add_assoc,
        Nat.reduceAdd, induction (offset + 16) (by omega)]
      cases QueueKind.ofCode (decode (chunk bytes offset 4)) with
      | none => rfl
      | some kind =>
          dsimp only [Option.bind_some]
          split
          · rfl
          · cases Control.readDescriptors count (bytes.drop (offset + 16)) <;> rfl

theorem readQueueDescriptors_agrees (bytes : Bytes) (output : List QueueDescriptor) :
    readQueueDescriptors bytes (some output) =
      faultless (Control.decodeQueueDescriptors bytes) := by
  by_cases size : 4 ≤ bytes.length
  swap
  · have short : Control.decodeQueueDescriptors bytes = .error .eproto := by
      by_cases two : 2 ≤ bytes.length
      · have none : Wire.read 2 (bytes.drop 2) = none :=
          if_pos (by rw [List.length_drop]; omega)
        simp (disch := omega) only [Control.decodeQueueDescriptors, read_front, bind,
          Option.bind_some, none, Option.bind_none]
      · have none : Wire.read 2 bytes = none := if_pos (Nat.lt_of_not_le two)
        simp only [Control.decodeQueueDescriptors, none, bind, Option.bind_none]
    rw [short]
    exact if_pos (.inr (Nat.lt_of_not_le size))
  rw [readQueueDescriptors_eq output size, Control.decodeQueueDescriptors]
  simp (disch := omega) only [read_front, read_drop, bind, Option.bind_some, Nat.reduceAdd]
  split
  · rfl
  · by_cases counted : decode (chunk bytes 2 2) = 0 ∨
        bytes.length ≠ 4 + decode (chunk bytes 2 2) * queueDescriptorWireSize
    · have same := counted
      rw [queueDescriptorWireSize] at same
      rw [if_pos counted, if_pos same]
      rfl
    · have same := counted
      rw [queueDescriptorWireSize] at same
      rw [if_neg counted, if_neg same, readDescriptors_agrees bytes 4 _ (by omega)]
      cases Control.readDescriptors (decode (chunk bytes 2 2)) (bytes.drop 4) <;> rfl

end Ugdr.Control.Payload
