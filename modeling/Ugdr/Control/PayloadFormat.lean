import Ugdr.Control.PayloadCodecs
import Ugdr.Control.WireFormat
import Ugdr.Foundation.Fields

/-! # The control payloads are bijective

Every payload codec is lawful: it reads back what it has written, it accepts nothing else,
and it reads in bounds whatever it is given.
-/

namespace Ugdr.Control.Payload

open Wire Checked Queue Ipc

/-! ## Fields of a buffer -/

theorem encode_zero (width : Nat) : encode width 0 = List.replicate width 0 := by
  induction width with
  | zero => rfl
  | succ width induction =>
      rw [encode, induction, Nat.zero_shiftRight, List.replicate_succ]
      rfl

theorem littleEndian_zero (width : Nat) : littleEndian width 0 = encode width 0 := by
  rw [littleEndian, encode_zero, List.reverse_replicate]

theorem decode_eq_zero_iff {bytes : Bytes} :
    decode bytes = 0 ↔ bytes = List.replicate bytes.length 0 := by
  constructor
  · intro zero
    have written := encode_decode bytes
    rw [zero, encode_zero] at written
    exact written.symm
  · intro zeros
    rw [zeros, ← encode_zero, decode_encode (Nat.pow_pos (by decide))]

/-- Zero is zero in either byte order. -/
theorem fromLittleEndian_eq_zero_iff {bytes : Bytes} :
    fromLittleEndian bytes = 0 ↔ decode bytes = 0 := by
  rw [fromLittleEndian, decode_eq_zero_iff, decode_eq_zero_iff, List.length_reverse,
    List.reverse_eq_iff, List.reverse_replicate]

theorem littleEndian_byte (value : Nat) : littleEndian 1 value = encode 1 value :=
  rfl

theorem fromLittleEndian_byte {bytes : Bytes} {offset : Nat}
    (inside : offset + 1 ≤ bytes.length) :
    fromLittleEndian (chunk bytes offset 1) = decode (chunk bytes offset 1) := by
  obtain ⟨byte, single⟩ := List.length_eq_one_iff.mp (length_chunk inside)
  rw [single]
  rfl

theorem toNat_ofNat_chunk {bytes : Bytes} {offset : Nat} (inside : offset + 4 ≤ bytes.length) :
    (UInt32.ofNat (decode (chunk bytes offset 4))).toNat = decode (chunk bytes offset 4) := by
  have small : decode (chunk bytes offset 4) < 2 ^ 32 := decode_chunk_lt inside
  rw [UInt32.toNat_ofNat', Nat.mod_eq_of_lt small]

/-! ## Creation attributes -/

def createWidths : List Nat :=
  [2, 2, 8, 8, 4, 4, 4, 4, 4, 4]

def createFields (attributes : QpCreateAttributes) : List Nat :=
  [qpPayloadVersion, 0, attributes.sendCqIdentity, attributes.recvCqIdentity,
    attributes.maxSendWr, attributes.maxRecvWr, attributes.maxSendSge, attributes.maxRecvSge,
    attributes.qpType, attributes.sqSigAll]

def createCodec : Codec Errno QpCreateAttributes where
  encode := encodeQpCreateAttributes
  decode := decodeQpCreateAttributes

theorem encodeQpCreateAttributes_eq (attributes : QpCreateAttributes) :
    encodeQpCreateAttributes attributes =
      .ok (encodeFields (createWidths.zip (createFields attributes))) := by
  simp only [encodeQpCreateAttributes, littleEndian_swapBytes, littleEndian_swapBytes64,
    littleEndian_zero, List.append_assoc, createWidths, createFields, List.zip_cons_cons,
    List.zip_nil_right, encodeFields, List.append_nil]

theorem readQpCreateAttributes_eq {bytes : Bytes} (attributes : QpCreateAttributes)
    (size : bytes.length = qpCreatePayloadSize) :
    readQpCreateAttributes bytes (some attributes) =
      if decode (chunk bytes 0 2) ≠ qpPayloadVersion then fail .eprotonosupport
      else if decode (chunk bytes 2 2) ≠ 0 then fail .eproto
      else .ok
        { sendCqIdentity := decode (chunk bytes 4 8)
          recvCqIdentity := decode (chunk bytes 12 8)
          maxSendWr := decode (chunk bytes 20 4)
          maxRecvWr := decode (chunk bytes 24 4)
          maxSendSge := decode (chunk bytes 28 4)
          maxRecvSge := decode (chunk bytes 32 4)
          qpType := decode (chunk bytes 36 4)
          sqSigAll := decode (chunk bytes 40 4) } := by
  have given : ¬(some attributes = none ∨ bytes.length ≠ qpCreatePayloadSize) := by
    simp [size]
  rw [readQpCreateAttributes, if_neg given]
  simp only [qpCreatePayloadSize] at size
  simp (disch := omega) only [readField_eq, bind, Except.bind, Nat.zero_add, Nat.reduceAdd,
    swapBytes_chunk, swapBytes64_chunk, ne_eq, fromLittleEndian_eq_zero_iff]
  rfl

theorem createCodec_lawful : createCodec.Lawful (Codec.Fits createWidths createFields) id := by
  refine .of_fields (fun _ _ => rfl) (fun _ => rfl) (fun attributes bytes encoded => ?_)
    (fun attributes bytes output encoded size same => ?_) (fun bytes output => ?_)
  · exact Except.ok.inj (encoded.symm.trans (encodeQpCreateAttributes_eq attributes))
  · simp only [createWidths, createFields, fieldsAt, List.cons.injEq, Nat.zero_add,
      Nat.reduceAdd, and_true] at same
    obtain ⟨version, reserved, same⟩ := same
    rw [readQpCreateAttributes_eq output size]
    simp only [version, reserved, same]
    rfl
  · cases output with
    | none => exact .inl ⟨.eproto, if_pos (.inl rfl)⟩
    | some output =>
        by_cases size : bytes.length = qpCreatePayloadSize
        swap
        · exact .inl ⟨.eproto, if_pos (.inr size)⟩
        rw [readQpCreateAttributes_eq output size]
        split
        · exact .inl ⟨_, rfl⟩
        split
        · exact .inl ⟨_, rfl⟩
        rename_i version reserved
        rw [not_not] at version reserved
        refine .inr ⟨_, rfl, size, ?_, rfl, _, encodeQpCreateAttributes_eq _⟩
        simp only [createWidths, createFields, fieldsAt, Nat.zero_add, Nat.reduceAdd, version,
          reserved]

/-! ## Payloads with the common header -/

theorem readHeader_eq {bytes : Bytes} {expectedSize : Nat} (size : bytes.length = expectedSize)
    (long : 4 ≤ expectedSize) :
    readHeader bytes expectedSize =
      if decode (chunk bytes 0 2) ≠ qpPayloadVersion then fail .eprotonosupport
      else if decode (chunk bytes 2 2) ≠ 0 then fail .eproto
      else .ok 4 := by
  rw [readHeader, if_neg (not_not.mpr size)]
  simp (disch := omega) only [readField_eq, bind, Except.bind, Nat.zero_add, Nat.reduceAdd,
    swapBytes_chunk, ne_eq, fromLittleEndian_eq_zero_iff]
  rfl

theorem readHeader_cases (bytes : Bytes) {expectedSize : Nat} (long : 4 ≤ expectedSize) :
    (∃ status, readHeader bytes expectedSize = fail status) ∨
      bytes.length = expectedSize ∧ decode (chunk bytes 0 2) = qpPayloadVersion ∧
        decode (chunk bytes 2 2) = 0 := by
  by_cases size : bytes.length = expectedSize
  swap
  · exact .inl ⟨.eproto, if_pos size⟩
  rw [readHeader_eq size long]
  split
  · exact .inl ⟨_, rfl⟩
  split
  · exact .inl ⟨_, rfl⟩
  rename_i version reserved
  exact .inr ⟨size, not_not.mp version, not_not.mp reserved⟩

theorem readHeader_ok {bytes : Bytes} {expectedSize : Nat} (size : bytes.length = expectedSize)
    (long : 4 ≤ expectedSize) (version : decode (chunk bytes 0 2) = qpPayloadVersion)
    (reserved : decode (chunk bytes 2 2) = 0) : readHeader bytes expectedSize = .ok 4 := by
  rw [readHeader_eq size long, if_neg (not_not.mpr version), if_neg (not_not.mpr reserved)]

/-- A payload is refused with its header, or for want of an output, or it is read. -/
theorem headed_cases {Value : Type} {bytes : Bytes} {expectedSize : Nat}
    {next : Nat → Checked Errno Value} (output : Option Value) (long : 4 ≤ expectedSize)
    (absent : output = none → next = fun _ => fail .eproto) :
    (∃ status, (readHeader bytes expectedSize >>= next) = fail status) ∨
      bytes.length = expectedSize ∧ decode (chunk bytes 0 2) = qpPayloadVersion ∧
        decode (chunk bytes 2 2) = 0 ∧ ∃ value, output = some value := by
  rcases readHeader_cases bytes long with ⟨status, failed⟩ | ⟨size, version, reserved⟩
  · refine .inl ⟨status, ?_⟩
    rw [failed]
    rfl
  · cases output with
    | none =>
        refine .inl ⟨.eproto, ?_⟩
        rw [readHeader_ok size long version reserved, absent rfl]
        rfl
    | some value => exact .inr ⟨size, version, reserved, value, rfl⟩

/-! ## Queries -/

def queryWidths : List Nat :=
  [2, 2, 4]

def queryFields (mask : UInt32) : List Nat :=
  [qpPayloadVersion, 0, mask.toNat]

def queryCodec : Codec Errno UInt32 where
  encode mask := .ok (encodeQueryPayload mask)
  decode := decodeQueryPayload

theorem encodeQueryPayload_eq (mask : UInt32) :
    encodeQueryPayload mask = encodeFields (queryWidths.zip (queryFields mask)) := by
  simp only [encodeQueryPayload, appendHeader, littleEndian_swapBytes, littleEndian_zero,
    List.append_assoc, queryWidths, queryFields, List.zip_cons_cons, List.zip_nil_right,
    encodeFields, List.append_nil]

theorem readQueryPayload_eq {bytes : Bytes} (mask : UInt32)
    (size : bytes.length = qpQueryPayloadSize)
    (version : decode (chunk bytes 0 2) = qpPayloadVersion)
    (reserved : decode (chunk bytes 2 2) = 0) :
    readQueryPayload bytes (some mask) = .ok (.ofNat (decode (chunk bytes 4 4))) := by
  rw [readQueryPayload, readHeader_ok size (by decide) version reserved]
  simp only [qpQueryPayloadSize] at size
  simp (disch := omega) only [readField_eq, bind, Except.bind, swapBytes_chunk, reduceCtorEq,
    if_false]
  rfl

theorem queryCodec_lawful : queryCodec.Lawful (Codec.Fits queryWidths queryFields) id := by
  refine .of_fields (fun _ _ => rfl) (fun _ => rfl) (fun mask bytes encoded => ?_)
    (fun mask bytes output encoded size same => ?_) (fun bytes output => ?_)
  · exact (Except.ok.inj encoded).symm.trans (encodeQueryPayload_eq mask)
  · simp only [queryWidths, queryFields, fieldsAt, List.cons.injEq, Nat.zero_add,
      Nat.reduceAdd, and_true] at same
    obtain ⟨version, reserved, same⟩ := same
    rw [readQueryPayload_eq output size version reserved, same, UInt32.ofNat_toNat]
    rfl
  · have refused : (∃ status, readQueryPayload bytes output = fail status) ∨ _ :=
      headed_cases output (by decide) (by rintro rfl; rfl)
    refine refused.imp_right ?_
    rintro ⟨size, version, reserved, value, rfl⟩
    have long : 4 + 4 ≤ bytes.length := Nat.le_of_eq size.symm
    refine ⟨_, readQueryPayload_eq value size version reserved, size, ?_, rfl, _, rfl⟩
    simp only [queryWidths, queryFields, fieldsAt, Nat.zero_add, Nat.reduceAdd, version, reserved,
      toNat_ofNat_chunk long]

/-! ## Connection information -/

def connInfoCodec : Codec Errno UInt32 where
  encode qpNum := .ok (encodeConnInfo qpNum)
  decode := decodeConnInfo

theorem connInfoCodec_lawful : connInfoCodec.Lawful (Codec.Fits queryWidths queryFields) id :=
  queryCodec_lawful

/-! ## Modifications -/

def modifyWidths : List Nat :=
  [2, 2, 4, 4, 4, 4, 1, 1, 1, 1]

def modifyFields (change : QpAttributes × UInt32) : List Nat :=
  [qpPayloadVersion, 0, change.2.toNat, change.1.state, change.1.currentState,
    change.1.accessFlags, change.1.timeout, change.1.retryCount, change.1.rnrRetry,
    change.1.minRnrTimer]

def modifyCodec : Codec Errno (QpAttributes × UInt32) where
  encode change := .ok (encodeModifyPayload change.1 change.2)
  decode := decodeModifyPayload

theorem encodeModifyPayload_eq (attributes : QpAttributes) (mask : UInt32) :
    encodeModifyPayload attributes mask =
      encodeFields (modifyWidths.zip (modifyFields (attributes, mask))) := by
  simp only [encodeModifyPayload, appendHeader, littleEndian_swapBytes, littleEndian_zero,
    littleEndian_byte, List.append_assoc, modifyWidths, modifyFields, List.zip_cons_cons,
    List.zip_nil_right, encodeFields, List.append_nil]

theorem readModifyPayload_eq {bytes : Bytes} (output : QpAttributes × UInt32)
    (size : bytes.length = qpModifyPayloadSize)
    (version : decode (chunk bytes 0 2) = qpPayloadVersion)
    (reserved : decode (chunk bytes 2 2) = 0) :
    readModifyPayload bytes (some output) = .ok (
      { state := decode (chunk bytes 8 4)
        currentState := decode (chunk bytes 12 4)
        accessFlags := decode (chunk bytes 16 4)
        timeout := decode (chunk bytes 20 1)
        retryCount := decode (chunk bytes 21 1)
        rnrRetry := decode (chunk bytes 22 1)
        minRnrTimer := decode (chunk bytes 23 1) },
      .ofNat (decode (chunk bytes 4 4))) := by
  rw [readModifyPayload, readHeader_ok size (by decide) version reserved]
  simp only [qpModifyPayloadSize] at size
  simp (disch := omega) only [readField_eq, bind, Except.bind, Nat.reduceAdd, swapBytes_chunk,
    fromLittleEndian_byte, reduceCtorEq, if_false]
  rfl

theorem modifyCodec_lawful : modifyCodec.Lawful (Codec.Fits modifyWidths modifyFields) id := by
  refine .of_fields (fun _ _ => rfl) (fun _ => rfl) (fun change bytes encoded => ?_)
    (fun change bytes output encoded size same => ?_) (fun bytes output => ?_)
  · exact (Except.ok.inj encoded).symm.trans (encodeModifyPayload_eq change.1 change.2)
  · simp only [modifyWidths, modifyFields, fieldsAt, List.cons.injEq, Nat.zero_add,
      Nat.reduceAdd, and_true] at same
    obtain ⟨version, reserved, same⟩ := same
    rw [readModifyPayload_eq output size version reserved]
    simp only [same, UInt32.ofNat_toNat]
    rfl
  · have refused : (∃ status, readModifyPayload bytes output = fail status) ∨ _ :=
      headed_cases output (by decide) (by rintro rfl; rfl)
    refine refused.imp_right ?_
    rintro ⟨size, version, reserved, value, rfl⟩
    have long : 4 + 4 ≤ bytes.length := by
      rw [size]
      decide
    refine ⟨_, readModifyPayload_eq value size version reserved, size, ?_, rfl, _, rfl⟩
    simp only [modifyWidths, modifyFields, fieldsAt, Nat.zero_add, Nat.reduceAdd, version,
      reserved, toNat_ofNat_chunk long]

/-! ## Connections -/

def connectWidths : List Nat :=
  [2, 2, 4, 4, 1, 1, 1, 1]

def connectFields (connection : Nat × QpAttributes × UInt32) : List Nat :=
  [qpPayloadVersion, 0, connection.2.2.toNat, connection.1, connection.2.1.timeout,
    connection.2.1.retryCount, connection.2.1.rnrRetry, connection.2.1.minRnrTimer]

def connectCodec : Codec Errno (Nat × QpAttributes × UInt32) where
  encode connection := .ok (encodeConnectPayload connection.1 connection.2.1 connection.2.2)
  decode := decodeConnectPayload

/-- A connection carries the retry attributes only. -/
def connectCarried (connection : Nat × QpAttributes × UInt32) : Nat × QpAttributes × UInt32 :=
  (connection.1,
    { timeout := connection.2.1.timeout
      retryCount := connection.2.1.retryCount
      rnrRetry := connection.2.1.rnrRetry
      minRnrTimer := connection.2.1.minRnrTimer },
    connection.2.2)

theorem encodeConnectPayload_eq (qpNum : Nat) (attributes : QpAttributes) (mask : UInt32) :
    encodeConnectPayload qpNum attributes mask =
      encodeFields (connectWidths.zip (connectFields (qpNum, attributes, mask))) := by
  simp only [encodeConnectPayload, appendHeader, littleEndian_swapBytes, littleEndian_zero,
    littleEndian_byte, List.append_assoc, connectWidths, connectFields, List.zip_cons_cons,
    List.zip_nil_right, encodeFields, List.append_nil]

theorem readConnectPayload_eq {bytes : Bytes} (output : Nat × QpAttributes × UInt32)
    (size : bytes.length = qpConnectPayloadSize)
    (version : decode (chunk bytes 0 2) = qpPayloadVersion)
    (reserved : decode (chunk bytes 2 2) = 0) :
    readConnectPayload bytes (some output) = .ok (
      decode (chunk bytes 8 4),
      { timeout := decode (chunk bytes 12 1)
        retryCount := decode (chunk bytes 13 1)
        rnrRetry := decode (chunk bytes 14 1)
        minRnrTimer := decode (chunk bytes 15 1) },
      .ofNat (decode (chunk bytes 4 4))) := by
  rw [readConnectPayload, readHeader_ok size (by decide) version reserved]
  simp only [qpConnectPayloadSize] at size
  simp (disch := omega) only [readField_eq, bind, Except.bind, Nat.reduceAdd, swapBytes_chunk,
    fromLittleEndian_byte, reduceCtorEq, if_false]
  rfl

theorem connectCodec_lawful :
    connectCodec.Lawful (Codec.Fits connectWidths connectFields) connectCarried := by
  refine .of_fields (fun _ _ => rfl) (fun _ => rfl) (fun connection bytes encoded => ?_)
    (fun connection bytes output encoded size same => ?_) (fun bytes output => ?_)
  · exact (Except.ok.inj encoded).symm.trans (encodeConnectPayload_eq ..)
  · simp only [connectWidths, connectFields, fieldsAt, List.cons.injEq, Nat.zero_add,
      Nat.reduceAdd, and_true] at same
    obtain ⟨version, reserved, same⟩ := same
    rw [readConnectPayload_eq output size version reserved]
    simp only [same, UInt32.ofNat_toNat]
    rfl
  · have refused : (∃ status, readConnectPayload bytes output = fail status) ∨ _ :=
      headed_cases output (by decide) (by rintro rfl; rfl)
    refine refused.imp_right ?_
    rintro ⟨size, version, reserved, value, rfl⟩
    have long : 4 + 4 ≤ bytes.length := by
      rw [size]
      decide
    refine ⟨_, readConnectPayload_eq value size version reserved, size, ?_, rfl, _, rfl⟩
    simp only [connectWidths, connectFields, fieldsAt, Nat.zero_add, Nat.reduceAdd, version,
      reserved, toNat_ofNat_chunk long]

/-! ## Snapshots -/

def snapshotWidths : List Nat :=
  [2, 2, 4, 8, 8, 4, 4, 4, 4, 4, 4, 4, 4, 4, 1, 1, 1, 1]

def snapshotFields (snapshot : QpSnapshot) : List Nat :=
  [qpPayloadVersion, 0, snapshot.qpNum, snapshot.creation.sendCqIdentity,
    snapshot.creation.recvCqIdentity, snapshot.creation.maxSendWr, snapshot.creation.maxRecvWr,
    snapshot.creation.maxSendSge, snapshot.creation.maxRecvSge, snapshot.creation.qpType,
    snapshot.creation.sqSigAll, snapshot.attributes.state, snapshot.attributes.currentState,
    snapshot.attributes.accessFlags, snapshot.attributes.timeout,
    snapshot.attributes.retryCount, snapshot.attributes.rnrRetry,
    snapshot.attributes.minRnrTimer]

/-- What a snapshot shows of a queue pair, with the state in both of its state fields. -/
def snapshotOf (record : QpRecord) : QpSnapshot where
  qpNum := record.qpNum
  creation :=
    { sendCqIdentity := record.sendCqIdentity
      recvCqIdentity := record.recvCqIdentity
      maxSendWr := record.sq.maxWr
      maxRecvWr := record.rq.maxWr
      maxSendSge := record.sq.maxSge
      maxRecvSge := record.rq.maxSge
      qpType := record.qpType
      sqSigAll := record.sqSigAll }
  attributes :=
    { state := record.state
      currentState := record.state
      accessFlags := record.accessFlags
      timeout := record.timeout
      retryCount := record.retryCount
      rnrRetry := record.rnrRetry
      minRnrTimer := record.minRnrTimer }

theorem encodeSnapshot_eq (record : QpRecord) :
    encodeSnapshot record =
      encodeFields (snapshotWidths.zip (snapshotFields (snapshotOf record))) := by
  simp only [encodeSnapshot, appendHeader, littleEndian_swapBytes, littleEndian_swapBytes64,
    littleEndian_zero, littleEndian_byte, List.append_assoc, snapshotWidths, snapshotFields,
    snapshotOf, List.zip_cons_cons, List.zip_nil_right, encodeFields, List.append_nil]

theorem readSnapshot_eq {bytes : Bytes} (output : QpSnapshot)
    (size : bytes.length = qpSnapshotPayloadSize)
    (version : decode (chunk bytes 0 2) = qpPayloadVersion)
    (reserved : decode (chunk bytes 2 2) = 0) :
    readSnapshot bytes (some output) = .ok
      { qpNum := decode (chunk bytes 4 4)
        creation :=
          ⟨decode (chunk bytes 8 8), decode (chunk bytes 16 8), decode (chunk bytes 24 4),
            decode (chunk bytes 28 4), decode (chunk bytes 32 4), decode (chunk bytes 36 4),
            decode (chunk bytes 40 4), decode (chunk bytes 44 4)⟩
        attributes :=
          { state := decode (chunk bytes 48 4)
            currentState := decode (chunk bytes 52 4)
            accessFlags := decode (chunk bytes 56 4)
            timeout := decode (chunk bytes 60 1)
            retryCount := decode (chunk bytes 61 1)
            rnrRetry := decode (chunk bytes 62 1)
            minRnrTimer := decode (chunk bytes 63 1) } } := by
  rw [readSnapshot, readHeader_ok size (by decide) version reserved]
  simp only [qpSnapshotPayloadSize] at size
  simp (disch := omega) only [readField_eq, bind, Except.bind, Nat.reduceAdd, swapBytes_chunk,
    swapBytes64_chunk, fromLittleEndian_byte, reduceCtorEq, if_false]
  rfl

theorem decodeSnapshot_encodeSnapshot {record : QpRecord}
    (fits : Codec.Fits snapshotWidths snapshotFields (snapshotOf record)) (output : QpSnapshot) :
    decodeSnapshot (encodeSnapshot record) (some output) =
      ⟨.ok (), some (snapshotOf record)⟩ := by
  have written := encodeSnapshot_eq record
  have count : snapshotWidths.length = (snapshotFields (snapshotOf record)).length := rfl
  have same := fieldsAt_whole count fits
  have size : (encodeSnapshot record).length = qpSnapshotPayloadSize := by
    rw [written, length_encodeFields_zip count]
    rfl
  rw [← written] at same
  simp only [snapshotWidths, snapshotFields, fieldsAt, List.cons.injEq, Nat.zero_add,
    Nat.reduceAdd, and_true] at same
  obtain ⟨version, reserved, same⟩ := same
  rw [decodeSnapshot, readSnapshot_eq output size version reserved]
  simp only [same]
  rfl

theorem readSnapshot_safe (bytes : Bytes) (output : Option QpSnapshot) :
    (readSnapshot bytes output).Safe := by
  have refused : (∃ status, readSnapshot bytes output = fail status) ∨ _ :=
    headed_cases output (by decide) (by rintro rfl; rfl)
  rcases refused with ⟨status, failed⟩ | ⟨size, version, reserved, value, rfl⟩
  · rw [failed]
    exact safe_fail status
  · rw [readSnapshot_eq value size version reserved]
    exact safe_ok _

/-! ## Registration results -/

def resultWidths : List Nat :=
  [2, 2, 8, 8, 4, 4]

def resultFields (result : MrRegistrationResult) : List Nat :=
  [mrPayloadVersion, 0, result.clientAddress, result.length, result.lkey, result.rkey]

def resultCodec : Codec Errno MrRegistrationResult where
  encode := encodeMrRegistrationResult
  decode := decodeMrRegistrationResult

theorem encodeMrRegistrationResult_eq (result : MrRegistrationResult) :
    encodeMrRegistrationResult result =
      if result.clientAddress = 0 ∨ result.length = 0 ∨ result.lkey = 0 ∨ result.rkey = 0 then
        .error .einval
      else
        .ok (encodeFields (resultWidths.zip (resultFields result))) := by
  simp only [encodeMrRegistrationResult, littleEndian_swapBytes, littleEndian_swapBytes64,
    littleEndian_zero, List.append_assoc, resultWidths, resultFields, List.zip_cons_cons,
    List.zip_nil_right, encodeFields, List.append_nil]

theorem readMrRegistrationResult_eq {bytes : Bytes} (output : MrRegistrationResult)
    (size : bytes.length = mrRegistrationResultSize) :
    readMrRegistrationResult bytes (some output) =
      if decode (chunk bytes 0 2) ≠ mrPayloadVersion ∨ decode (chunk bytes 2 2) ≠ 0 then
        fail .eproto
      else if decode (chunk bytes 4 8) = 0 ∨ decode (chunk bytes 12 8) = 0 ∨
          decode (chunk bytes 20 4) = 0 ∨ decode (chunk bytes 24 4) = 0 then
        fail .eproto
      else
        .ok ⟨decode (chunk bytes 4 8), decode (chunk bytes 12 8), decode (chunk bytes 20 4),
          decode (chunk bytes 24 4)⟩ := by
  have given : ¬(some output = none ∨ bytes.length ≠ mrRegistrationResultSize) := by
    simp [size]
  rw [readMrRegistrationResult, if_neg given]
  simp only [mrRegistrationResultSize] at size
  simp (disch := omega) only [readField_eq, bind, Except.bind, Nat.zero_add, Nat.reduceAdd,
    swapBytes_chunk, swapBytes64_chunk, ne_eq, fromLittleEndian_eq_zero_iff]
  rfl

theorem resultCodec_lawful : resultCodec.Lawful (Codec.Fits resultWidths resultFields) id := by
  refine .of_fields (fun _ _ => rfl) (fun _ => rfl) (fun result bytes encoded => ?_)
    (fun result bytes output encoded size same => ?_) (fun bytes output => ?_)
  · replace encoded := (encodeMrRegistrationResult_eq result).symm.trans encoded
    split at encoded
    · cases encoded
    · exact (Except.ok.inj encoded).symm
  · replace encoded := (encodeMrRegistrationResult_eq result).symm.trans encoded
    split at encoded
    · cases encoded
    rename_i nonzero
    simp only [resultWidths, resultFields, fieldsAt, List.cons.injEq, Nat.zero_add,
      Nat.reduceAdd, and_true] at same
    obtain ⟨version, reserved, clientAddress, length, lkey, rkey⟩ := same
    rw [readMrRegistrationResult_eq output size]
    simp only [version, reserved, clientAddress, length, lkey, rkey, if_neg nonzero]
    rfl
  · cases output with
    | none => exact .inl ⟨.eproto, if_pos (.inl rfl)⟩
    | some output =>
        by_cases size : bytes.length = mrRegistrationResultSize
        swap
        · exact .inl ⟨.eproto, if_pos (.inr size)⟩
        rw [readMrRegistrationResult_eq output size]
        split
        · exact .inl ⟨_, rfl⟩
        rename_i headed
        split
        · exact .inl ⟨_, rfl⟩
        rename_i nonzero
        simp only [ne_eq, not_or, not_not] at headed
        refine .inr ⟨_, rfl, size, ?_, rfl, ?_⟩
        · simp only [resultWidths, resultFields, fieldsAt, Nat.zero_add, Nat.reduceAdd, headed]
        · exact ⟨_, (encodeMrRegistrationResult_eq _).trans (if_neg nonzero)⟩

/-! ## Registrations -/

theorem encodeMrRegistration_eq (memory : ExportedCudaMemory) :
    encodeMrRegistration memory =
      if validMemory memory = false then
        .error .einval
      else
        .ok (encodeFields [(2, mrPayloadVersion), (2, 0)] ++ (memory.gpuUuid ++
          (encodeFields [(8, memory.clientAddress), (8, memory.allocationSize),
            (8, memory.allocationOffset), (4, memory.ipcHandle.length)] ++
            memory.ipcHandle))) := by
  simp only [encodeMrRegistration, littleEndian_swapBytes, littleEndian_swapBytes64,
    littleEndian_zero, List.append_assoc, encodeFields, List.append_nil]

theorem readMrRegistration_eq {bytes : Bytes} (length : Nat) (output : ExportedCudaMemory)
    (size : mrRegistrationFixedSize ≤ bytes.length) :
    readMrRegistration bytes length (some output) =
      if decode (chunk bytes 0 2) ≠ mrPayloadVersion then fail .eprotonosupport
      else if decode (chunk bytes 2 2) ≠ 0 then fail .eproto
      else if decode (chunk bytes 44 4) = 0 ∨
          maxCudaIpcHandleSize < decode (chunk bytes 44 4) ∨
          decode (chunk bytes 44 4) ≠ bytes.length - 48 then fail .eproto
      else if validMemory ⟨chunk bytes 4 16, decode (chunk bytes 20 8), decode (chunk bytes 28 8),
          decode (chunk bytes 36 8), length, bytes.drop 48⟩ = false then fail .einval
      else .ok ⟨chunk bytes 4 16, decode (chunk bytes 20 8), decode (chunk bytes 28 8),
        decode (chunk bytes 36 8), length, bytes.drop 48⟩ := by
  have given : ¬(some output = none ∨ bytes.length < mrRegistrationFixedSize) := by
    simpa using size
  rw [readMrRegistration, if_neg given]
  simp only [mrRegistrationFixedSize] at size
  have handle : (bytes.drop 48).take (bytes.length - 48) = bytes.drop 48 :=
    List.take_of_length_le (by rw [List.length_drop])
  simp (disch := omega) only [readField_eq, bind, Except.bind, Nat.zero_add, Nat.reduceAdd,
    swapBytes_chunk, swapBytes64_chunk, ne_eq, fromLittleEndian_eq_zero_iff, gpuUuidSize,
    slice_eq, sizeSub_eq, handle, Nat.reduceSub]
  rfl

/-- The length of a region is sent beside its registration. -/
def registrationCodec (length : Nat) : Codec Errno ExportedCudaMemory where
  encode := encodeMrRegistration
  decode bytes := decodeMrRegistration bytes length

structure FitsRegistration (length : Nat) (memory : ExportedCudaMemory) : Prop where
  gpuUuid : memory.gpuUuid.length = gpuUuidSize
  clientAddress : memory.clientAddress < 2 ^ 64
  allocationSize : memory.allocationSize < 2 ^ 64
  allocationOffset : memory.allocationOffset < 2 ^ 64
  length : memory.length = length

theorem readMrRegistration_cases (bytes : Bytes) (length : Nat)
    (output : Option ExportedCudaMemory) :
    (∃ status, readMrRegistration bytes length output = fail status) ∨
      ∃ memory, readMrRegistration bytes length output = .ok memory ∧
        FitsRegistration length memory ∧ encodeMrRegistration memory = .ok bytes := by
  cases output with
  | none => exact .inl ⟨.eproto, if_pos (.inl rfl)⟩
  | some output =>
      by_cases size : mrRegistrationFixedSize ≤ bytes.length
      swap
      · exact .inl ⟨.eproto, if_pos (.inr (Nat.lt_of_not_le size))⟩
      rw [readMrRegistration_eq length output size]
      split
      · exact .inl ⟨_, rfl⟩
      rename_i version
      split
      · exact .inl ⟨_, rfl⟩
      rename_i reserved
      split
      · exact .inl ⟨_, rfl⟩
      rename_i handle
      split
      · exact .inl ⟨_, rfl⟩
      rename_i valid
      rw [not_not] at version reserved
      simp only [mrRegistrationFixedSize] at size
      have handleSize : (bytes.drop 48).length = decode (chunk bytes 44 4) := by
        rw [List.length_drop]
        omega
      have head : encodeFields [(2, decode (chunk bytes 0 2)), (2, decode (chunk bytes 2 2))] =
          chunk bytes 0 4 :=
        encodeFields_fieldsAt (show 0 + [2, 2].sum ≤ bytes.length by simp; omega)
      rw [version, reserved] at head
      have body : encodeFields [(8, decode (chunk bytes 20 8)), (8, decode (chunk bytes 28 8)),
          (8, decode (chunk bytes 36 8)), (4, decode (chunk bytes 44 4))] =
          chunk bytes 20 28 :=
        encodeFields_fieldsAt (show 20 + [8, 8, 8, 4].sum ≤ bytes.length by simp; omega)
      refine .inr ⟨_, rfl, ⟨length_chunk (by omega), decode_chunk_lt (by omega),
        decode_chunk_lt (by omega), decode_chunk_lt (by omega), rfl⟩, ?_⟩
      rw [encodeMrRegistration_eq, if_neg valid]
      dsimp only
      rw [handleSize, head, body, chunk_append_drop _ 20 28, chunk_append_drop _ 4 16,
        chunk_append_drop _ 0 4, List.drop_zero]

theorem readMrRegistration_encode {memory : ExportedCudaMemory} {length : Nat} {bytes : Bytes}
    (output : ExportedCudaMemory) (fits : FitsRegistration length memory)
    (encoded : encodeMrRegistration memory = .ok bytes) :
    readMrRegistration bytes length (some output) = .ok memory := by
  obtain ⟨uuidSize, clientAddress, allocationSize, allocationOffset, rfl⟩ := fits
  rw [encodeMrRegistration_eq] at encoded
  split at encoded
  · cases encoded
  rename_i valid
  injection encoded with encoded
  have handle : 0 < memory.ipcHandle.length ∧
      memory.ipcHandle.length ≤ maxCudaIpcHandleSize := by
    simp only [validMemory, Bool.not_eq_false, decide_eq_true_eq, not_or, Nat.not_lt,
      ← List.length_pos_iff] at valid
    exact valid.2.2.2.2.2.2.2
  have limit : maxCudaIpcHandleSize = 256 := rfl
  have headFits : ∀ field ∈ [(2, mrPayloadVersion), (2, 0)], field.2 < 256 ^ field.1 := by
    decide
  have bodyFits : ∀ field ∈ [(8, memory.clientAddress), (8, memory.allocationSize),
      (8, memory.allocationOffset), (4, memory.ipcHandle.length)],
      field.2 < 256 ^ field.1 := by
    simp only [List.forall_mem_cons]
    exact ⟨clientAddress, allocationSize, allocationOffset, by omega, nofun⟩
  have headSize : (encodeFields [(2, mrPayloadVersion), (2, 0)]).length = 4 :=
    length_encodeFields _
  have bodySize : (encodeFields [(8, memory.clientAddress), (8, memory.allocationSize),
      (8, memory.allocationOffset), (4, memory.ipcHandle.length)]).length = 28 :=
    length_encodeFields _
  have head := fieldsAt_encodeFields headFits []
  have body := fieldsAt_encodeFields bodyFits
  generalize encodeFields [(2, mrPayloadVersion), (2, 0)] = front at encoded head headSize
  generalize encodeFields [(8, memory.clientAddress), (8, memory.allocationSize),
    (8, memory.allocationOffset), (4, memory.ipcHandle.length)] = middle
    at encoded body bodySize
  have uuidSize : memory.gpuUuid.length = 16 := uuidSize
  have before : (front ++ memory.gpuUuid).length = 20 := by
    rw [List.length_append, headSize, uuidSize]
  have joined : bytes = (front ++ memory.gpuUuid) ++ (middle ++ memory.ipcHandle) := by
    rw [← encoded, List.append_assoc]
  have total : bytes.length = 48 + memory.ipcHandle.length := by
    rw [joined, List.length_append, before, List.length_append, bodySize]
    omega
  have uuid : chunk bytes 4 16 = memory.gpuUuid := by
    rw [← encoded, chunk, List.drop_left' headSize, List.take_left' uuidSize]
  have tail : bytes.drop 48 = memory.ipcHandle := by
    have prior : (front ++ memory.gpuUuid ++ middle).length = 48 := by
      rw [List.length_append, before, bodySize]
    rw [joined, ← List.append_assoc, List.drop_left' prior]
  replace head := head (memory.gpuUuid ++ (middle ++ memory.ipcHandle))
  replace body := body (front ++ memory.gpuUuid) memory.ipcHandle
  rw [List.nil_append, encoded] at head
  rw [before, ← joined] at body
  simp only [fieldsAt, List.map_cons, List.map_nil, List.cons.injEq, Nat.zero_add,
    Nat.reduceAdd, and_true, List.length_nil] at head body
  obtain ⟨version, reserved⟩ := head
  obtain ⟨address, size, offset, handleSize⟩ := body
  rw [readMrRegistration_eq memory.length output (by rw [total]; exact Nat.le_add_right ..)]
  simp only [version, reserved, address, size, offset, handleSize, uuid, tail]
  rw [if_neg (by decide), if_neg (by decide), if_neg (by omega), if_neg valid]

theorem registrationCodec_lawful (length : Nat) :
    (registrationCodec length).Lawful (FitsRegistration length) id := by
  refine .of_reader (fun _ _ => rfl)
    (fun memory bytes output fits encoded => readMrRegistration_encode output fits encoded)
    (fun bytes output => ?_)
  refine (readMrRegistration_cases bytes length output).imp_right ?_
  rintro ⟨memory, read, fits, encoded⟩
  exact ⟨memory, read, fits, rfl, encoded⟩

/-! ## Queue descriptors -/

def descriptorFields (descriptor : QueueDescriptor) : List (Nat × Nat) :=
  [(4, descriptor.kind.code), (4, descriptor.capacity), (4, descriptor.slotStride), (4, 0)]

def descriptorBytes (descriptors : List QueueDescriptor) : Bytes :=
  descriptors.flatMap fun descriptor => encodeFields (descriptorFields descriptor)

def descriptorCodec : Codec Errno (List QueueDescriptor) where
  encode := encodeQueueDescriptors
  decode := decodeQueueDescriptors

/-- The descriptors that the decoder accepts. -/
structure FitsDescriptor (descriptor : QueueDescriptor) : Prop where
  capacity : 0 < descriptor.capacity ∧ descriptor.capacity < 2 ^ 32
  slotStride : 0 < descriptor.slotStride ∧ descriptor.slotStride < 2 ^ 32
  aligned : descriptor.slotStride % sharedRingCacheLine = 0

theorem ofCode_code (kind : QueueKind) : QueueKind.ofCode kind.code = some kind := by
  cases kind <;> rfl

theorem code_of_ofCode {code : Nat} {kind : QueueKind} (known : QueueKind.ofCode code = some kind) :
    kind.code = code := by
  unfold QueueKind.ofCode at known
  split at known <;> cases known <;> rfl

theorem encodeQueueDescriptors_eq (descriptors : List QueueDescriptor) :
    encodeQueueDescriptors descriptors =
      if descriptors = [] ∨ 2 ^ 16 - 1 < descriptors.length then
        .error .einval
      else
        .ok (encodeFields [(2, queueDescriptorPayloadVersion), (2, descriptors.length)] ++
          descriptorBytes descriptors) := by
  simp only [encodeQueueDescriptors, littleEndian_swapBytes, littleEndian_zero,
    List.append_assoc, encodeFields, List.append_nil, descriptorBytes, descriptorFields]

theorem readWord_eq {width offset : Nat} {bytes : Bytes}
    (inside : offset + width ≤ bytes.length) :
    readWord width bytes offset =
      .ok (fromLittleEndian (chunk bytes offset width), offset + width) := by
  rw [readWord, sizeSub_eq (by omega)]
  simp only [bind, Except.bind]
  rw [if_neg (by omega), load_eq inside]

theorem readDescriptors_succ {bytes : Bytes} {offset : Nat} (count : Nat)
    (inside : offset + 16 ≤ bytes.length) :
    readDescriptors bytes offset (count + 1) =
      match QueueKind.ofCode (decode (chunk bytes offset 4)) with
      | none => fail .eproto
      | some kind =>
          if decode (chunk bytes (offset + 12) 4) ≠ 0 ∨
              decode (chunk bytes (offset + 4) 4) = 0 ∨
              decode (chunk bytes (offset + 8) 4) = 0 ∨
              decode (chunk bytes (offset + 8) 4) % sharedRingCacheLine ≠ 0 then
            fail .eproto
          else do
            let descriptors ← readDescriptors bytes (offset + 16) count
            return ⟨kind, decode (chunk bytes (offset + 4) 4),
              decode (chunk bytes (offset + 8) 4)⟩ :: descriptors := by
  rw [readDescriptors]
  simp (disch := omega) only [readWord_eq, bind, Except.bind, Nat.add_assoc, Nat.reduceAdd,
    swapBytes_chunk, ne_eq, fromLittleEndian_eq_zero_iff]
  all_goals rfl

theorem readDescriptors_cases (bytes : Bytes) (offset count : Nat)
    (inside : offset + 16 * count ≤ bytes.length) :
    (∃ status, readDescriptors bytes offset count = fail status) ∨
      ∃ descriptors, readDescriptors bytes offset count = .ok descriptors ∧
        descriptors.length = count ∧ (∀ descriptor ∈ descriptors, FitsDescriptor descriptor) ∧
        descriptorBytes descriptors = chunk bytes offset (16 * count) := by
  induction count generalizing offset with
  | zero => exact .inr ⟨[], rfl, rfl, nofun, rfl⟩
  | succ count induction =>
      rw [readDescriptors_succ count (by omega)]
      split
      · exact .inl ⟨_, rfl⟩
      rename_i kind known
      split
      · exact .inl ⟨_, rfl⟩
      rename_i valid
      simp only [ne_eq, not_or, not_not] at valid
      obtain ⟨reserved, capacity, stride, aligned⟩ := valid
      rcases induction (offset + 16) (by omega) with
        ⟨status, failed⟩ | ⟨descriptors, read, length, fits, written⟩
      · refine .inl ⟨status, ?_⟩
        rw [failed]
        rfl
      · refine .inr ⟨_, by rw [read]; rfl, by rw [List.length_cons, length], ?_, ?_⟩
        · intro descriptor member
          rcases List.mem_cons.mp member with rfl | later
          · exact ⟨⟨by dsimp only; omega, decode_chunk_lt (by omega)⟩,
              ⟨by dsimp only; omega, decode_chunk_lt (by omega)⟩, aligned⟩
          · exact fits descriptor later
        · have first : encodeFields [(4, decode (chunk bytes offset 4)),
              (4, decode (chunk bytes (offset + 4) 4)), (4, decode (chunk bytes (offset + 8) 4)),
              (4, decode (chunk bytes (offset + 12) 4))] = chunk bytes offset 16 :=
            encodeFields_fieldsAt (show offset + [4, 4, 4, 4].sum ≤ bytes.length by simp; omega)
          rw [reserved] at first
          rw [descriptorBytes, List.flatMap_cons, ← descriptorBytes, written, descriptorFields,
            code_of_ofCode known, first, chunk_append, Nat.mul_succ, Nat.add_comm 16]

theorem readDescriptors_encode {descriptors : List QueueDescriptor}
    (fits : ∀ descriptor ∈ descriptors, FitsDescriptor descriptor) (before : Bytes) :
    readDescriptors (before ++ descriptorBytes descriptors) before.length descriptors.length =
      .ok descriptors := by
  induction descriptors generalizing before with
  | nil => rfl
  | cons descriptor descriptors induction =>
      obtain ⟨capacity, stride, aligned⟩ := fits descriptor (List.mem_cons_self ..)
      have later := induction (fun other member => fits other (List.mem_cons_of_mem _ member))
        (before ++ encodeFields (descriptorFields descriptor))
      have fieldsFit : ∀ field ∈ descriptorFields descriptor, field.2 < 256 ^ field.1 := by
        have known : descriptor.kind.code < 2 ^ 32 := by
          cases descriptor.kind <;> decide
        simp only [descriptorFields, List.forall_mem_cons]
        exact ⟨known, capacity.2, stride.2, by decide, nofun⟩
      have fields := fieldsAt_encodeFields fieldsFit before (descriptorBytes descriptors)
      have size : (encodeFields (descriptorFields descriptor)).length = 16 :=
        length_encodeFields _
      have joined : descriptorBytes (descriptor :: descriptors) =
          encodeFields (descriptorFields descriptor) ++ descriptorBytes descriptors :=
        List.flatMap_cons
      rw [List.length_append, size, List.append_assoc, ← joined] at later
      rw [← joined] at fields
      simp only [descriptorFields, fieldsAt, List.map_cons, List.map_nil, List.cons.injEq,
        Nat.add_assoc, Nat.reduceAdd, and_true] at fields
      obtain ⟨kind, read⟩ := fields
      rw [List.length_cons, readDescriptors_succ _ (by
        rw [joined, List.length_append, List.length_append, size]; omega)]
      simp only [kind, read, ofCode_code, later]
      rw [if_neg (by omega)]
      rfl

theorem length_descriptorBytes (descriptors : List QueueDescriptor) :
    (descriptorBytes descriptors).length = 16 * descriptors.length := by
  induction descriptors with
  | nil => rfl
  | cons descriptor descriptors induction =>
      have size : (encodeFields (descriptorFields descriptor)).length = 16 :=
        length_encodeFields _
      rw [descriptorBytes, List.flatMap_cons, ← descriptorBytes, List.length_append, size,
        induction, List.length_cons]
      omega

theorem readQueueDescriptors_eq {bytes : Bytes} (output : List QueueDescriptor)
    (size : 4 ≤ bytes.length) :
    readQueueDescriptors bytes (some output) =
      if decode (chunk bytes 0 2) ≠ queueDescriptorPayloadVersion then fail .eprotonosupport
      else if decode (chunk bytes 2 2) = 0 ∨
          bytes.length ≠ 4 + decode (chunk bytes 2 2) * queueDescriptorWireSize then
        fail .eproto
      else readDescriptors bytes 4 (decode (chunk bytes 2 2)) := by
  have given : ¬(some output = none ∨ bytes.length < 4) := by
    simpa using size
  rw [readQueueDescriptors, if_neg given]
  simp (disch := omega) only [readWord_eq, bind, Except.bind, Nat.zero_add, Nat.reduceAdd,
    swapBytes_chunk, ne_eq]

theorem readQueueDescriptors_cases (bytes : Bytes) (output : Option (List QueueDescriptor)) :
    (∃ status, readQueueDescriptors bytes output = fail status) ∨
      ∃ descriptors, readQueueDescriptors bytes output = .ok descriptors ∧
        (∀ descriptor ∈ descriptors, FitsDescriptor descriptor) ∧
        encodeQueueDescriptors descriptors = .ok bytes := by
  cases output with
  | none => exact .inl ⟨.eproto, if_pos (.inl rfl)⟩
  | some output =>
      by_cases size : 4 ≤ bytes.length
      swap
      · exact .inl ⟨.eproto, if_pos (.inr (Nat.lt_of_not_le size))⟩
      rw [readQueueDescriptors_eq output size]
      split
      · exact .inl ⟨_, rfl⟩
      rename_i version
      split
      · exact .inl ⟨_, rfl⟩
      rename_i counted
      rw [not_not] at version
      simp only [queueDescriptorWireSize, ne_eq, not_or, not_not] at counted
      obtain ⟨nonempty, total⟩ := counted
      have small : decode (chunk bytes 2 2) < 2 ^ 16 := decode_chunk_lt (by omega)
      have head : encodeFields [(2, decode (chunk bytes 0 2)), (2, decode (chunk bytes 2 2))] =
          chunk bytes 0 4 :=
        encodeFields_fieldsAt (show 0 + [2, 2].sum ≤ bytes.length by simp; omega)
      refine (readDescriptors_cases bytes 4 _ (by omega)).imp_right ?_
      rintro ⟨descriptors, read, length, fits, written⟩
      refine ⟨descriptors, read, fits, ?_⟩
      have accepted : ¬(descriptors = [] ∨ 2 ^ 16 - 1 < descriptors.length) := by
        rw [← List.length_eq_zero_iff]
        omega
      have whole : chunk bytes 0 (4 + 16 * decode (chunk bytes 2 2)) = bytes := by
        have same := chunk_whole bytes
        rwa [total, Nat.mul_comm] at same
      rw [encodeQueueDescriptors_eq, if_neg accepted, length, ← version, head, written,
        chunk_append bytes 0 4, whole]

theorem readQueueDescriptors_encode {descriptors : List QueueDescriptor} {bytes : Bytes}
    (output : List QueueDescriptor)
    (fits : ∀ descriptor ∈ descriptors, FitsDescriptor descriptor)
    (encoded : encodeQueueDescriptors descriptors = .ok bytes) :
    readQueueDescriptors bytes (some output) = .ok descriptors := by
  rw [encodeQueueDescriptors_eq] at encoded
  split at encoded
  · cases encoded
  rename_i accepted
  injection encoded with encoded
  rw [← List.length_eq_zero_iff] at accepted
  have headFits : ∀ field ∈ [(2, queueDescriptorPayloadVersion), (2, descriptors.length)],
      field.2 < 256 ^ field.1 := by
    simp only [List.forall_mem_cons]
    exact ⟨by decide, by omega, nofun⟩
  have head := fieldsAt_encodeFields headFits [] (descriptorBytes descriptors)
  have read := readDescriptors_encode fits
    (encodeFields [(2, queueDescriptorPayloadVersion), (2, descriptors.length)])
  have headSize : (encodeFields [(2, queueDescriptorPayloadVersion),
    (2, descriptors.length)]).length = 4 := length_encodeFields _
  have total : bytes.length = 4 + descriptors.length * queueDescriptorWireSize := by
    rw [← encoded, List.length_append, headSize, length_descriptorBytes, Nat.mul_comm]
    rfl
  rw [List.nil_append, encoded] at head
  rw [headSize, encoded] at read
  simp only [fieldsAt, List.map_cons, List.map_nil, List.cons.injEq, List.length_nil,
    Nat.zero_add, and_true] at head
  obtain ⟨version, count⟩ := head
  rw [readQueueDescriptors_eq output (by rw [total]; exact Nat.le_add_right ..), version, count,
    if_neg (not_not.mpr rfl), if_neg (by omega), read]

theorem descriptorCodec_lawful :
    descriptorCodec.Lawful (fun descriptors => ∀ descriptor ∈ descriptors,
      FitsDescriptor descriptor) id := by
  refine .of_reader (fun _ _ => rfl)
    (fun descriptors bytes output fits encoded => readQueueDescriptors_encode output fits encoded)
    (fun bytes output => ?_)
  refine (readQueueDescriptors_cases bytes output).imp_right ?_
  rintro ⟨descriptors, read, fits, encoded⟩
  exact ⟨descriptors, read, fits, rfl, encoded⟩

/-! ## All payloads -/

/-- A snapshot shows the queue pair, and its decoder is safe on every other string. -/
structure SnapshotFaithful : Prop where
  roundTrip : ∀ record output, Codec.Fits snapshotWidths snapshotFields (snapshotOf record) →
    decodeSnapshot (encodeSnapshot record) (some output) = ⟨.ok (), some (snapshotOf record)⟩
  safe : ∀ bytes output, (decodeSnapshot bytes output).returned.Safe
  unwritten : ∀ bytes output, (decodeSnapshot bytes output).returned ≠ .ok () →
    (decodeSnapshot bytes output).output = output

/-- Every payload codec is a bijection between the values of its format and the strings it
accepts, and no string makes a decoder leave its buffer or write its output in vain. -/
theorem payloads_bijective :
    (∀ length, (registrationCodec length).Bijective (FitsRegistration length) id) ∧
      resultCodec.Bijective (Codec.Fits resultWidths resultFields) id ∧
      createCodec.Bijective (Codec.Fits createWidths createFields) id ∧
      queryCodec.Bijective (Codec.Fits queryWidths queryFields) id ∧
      modifyCodec.Bijective (Codec.Fits modifyWidths modifyFields) id ∧
      connectCodec.Bijective (Codec.Fits connectWidths connectFields) connectCarried ∧
      connInfoCodec.Bijective (Codec.Fits queryWidths queryFields) id ∧
      descriptorCodec.Bijective
        (fun descriptors => ∀ descriptor ∈ descriptors, FitsDescriptor descriptor) id ∧
      (∀ descriptors, descriptors ≠ [] → descriptors.length ≤ 65535 →
        ∃ bytes, encodeQueueDescriptors descriptors = .ok bytes) ∧
      SnapshotFaithful := by
  refine ⟨fun length => (registrationCodec_lawful length).bijective,
    resultCodec_lawful.bijective, createCodec_lawful.bijective, queryCodec_lawful.bijective,
    modifyCodec_lawful.bijective, connectCodec_lawful.bijective, connInfoCodec_lawful.bijective,
    descriptorCodec_lawful.bijective, fun descriptors nonempty few => ?_, ?_⟩
  · refine ⟨_, (encodeQueueDescriptors_eq descriptors).trans (if_neg ?_)⟩
    exact not_or.mpr ⟨nonempty, by omega⟩
  exact {
    roundTrip := fun record output fits => decodeSnapshot_encodeSnapshot fits output
    safe := fun bytes output => Decoded.assign_returned (readSnapshot_safe bytes output)
    unwritten := fun bytes output failed => Decoded.assign_unwritten failed }

end Ugdr.Control.Payload
