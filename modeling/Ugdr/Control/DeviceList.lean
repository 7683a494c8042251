import Ugdr.Control.PayloadAgreement

/-! # Device lists

`encode_device_list` and `decode_device_list`: a count, and that many entries with names of
their own lengths. The decoder accepts exactly this grammar, and the work it does is bounded
by the bytes it is given, whatever the count says.
-/

namespace Ugdr.Control.Payload

open Wire Checked Ipc

def encodeDeviceList (devices : List DeviceDescriptor) : Except Errno Bytes :=
  if 2 ^ 32 - 1 < devices.length then
    .error .einval
  else
    match deviceListSize 4 devices with
    | .error status => .error status
    | .ok _ =>
        .ok (littleEndian 4 (swapBytes 4 devices.length) ++ devices.flatMap fun device =>
          littleEndian 8 (swapBytes64 device.identity) ++
            littleEndian 2 (swapBytes 2 device.name.length) ++ device.name)

/-- One round of the loop of `decode_device_list`, with the offset behind the entry. -/
def readDevice (bytes : Bytes) (offset : Nat) : Checked Errno (DeviceDescriptor × Nat) := do
  let (wireIdentity, offset) ← readField 8 bytes offset
  let (wireNameLength, offset) ← readField 2 bytes offset
  let nameLength := swapBytes 2 wireNameLength
  let identity := swapBytes64 wireIdentity
  let left ← sizeSub bytes.length offset
  if identity = 0 ∨ left < nameLength then
    fail .eproto
  else
    let name ← slice bytes offset (offset + nameLength)
    return (⟨identity, name⟩, offset + nameLength)

/-- The loop of `decode_device_list`: how many rounds it begins, and what they return. -/
def readDevices (bytes : Bytes) :
    Nat → Nat → Nat × Checked Errno (List DeviceDescriptor × Nat)
  | offset, 0 => (0, .ok ([], offset))
  | offset, count + 1 =>
      match readDevice bytes offset with
      | .error failure => (1, .error failure)
      | .ok (device, offset) =>
          let (rounds, result) := readDevices bytes offset count
          (rounds + 1, do
            let (devices, offset) ← result
            return (device :: devices, offset))

/-- `decode_device_list` up to the assignment of its output, with the number of devices that
it has reserved memory for and the number of rounds of its loop. -/
structure DeviceListReading where
  decoded : Checked Errno (List DeviceDescriptor)
  reserved : Nat := 0
  rounds : Nat := 0

def minimumDeviceSize : Nat := 10

def readDeviceList (bytes : Bytes) (devices : Option (List DeviceDescriptor)) :
    DeviceListReading :=
  if devices = none then
    { decoded := fail .einval }
  else
    match readField 4 bytes 0 with
    | .error failure => { decoded := .error failure }
    | .ok (wireCount, offset) =>
        let count := swapBytes 4 wireCount
        match sizeSub bytes.length offset with
        | .error failure => { decoded := .error failure }
        | .ok left =>
            if left / minimumDeviceSize < count then
              { decoded := fail .eproto }
            else
              let (rounds, result) := readDevices bytes offset count
              { decoded := do
                  let (decoded, offset) ← result
                  if offset ≠ bytes.length then
                    fail .eproto
                  else
                    return decoded
                reserved := count
                rounds }

def decodeDeviceList (bytes : Bytes) (devices : Option (List DeviceDescriptor)) :
    Decoded Errno (List DeviceDescriptor) :=
  .assign (readDeviceList bytes devices).decoded devices

/-! ## The grammar -/

/-- A nonzero identity, a name length, and that many bytes of name. -/
def entryBytes (device : DeviceDescriptor) : Bytes :=
  encode 8 device.identity ++ encode 2 device.name.length ++ device.name

structure Entry (device : DeviceDescriptor) : Prop where
  nonzero : device.identity ≠ 0
  identity : device.identity < 2 ^ 64
  name : device.name.length < 2 ^ 16

/-- The bytes are a count and exactly that many entries. -/
structure DeviceList (bytes : Bytes) (devices : List DeviceDescriptor) : Prop where
  count : devices.length < 2 ^ 32
  entries : ∀ device ∈ devices, Entry device
  whole : bytes = encode 4 devices.length ++ devices.flatMap entryBytes

theorem length_entryBytes (device : DeviceDescriptor) :
    (entryBytes device).length = 10 + device.name.length := by
  rw [entryBytes, List.length_append, List.length_append, length_encode, length_encode]

theorem encodeDeviceList_agrees (devices : List DeviceDescriptor) :
    encodeDeviceList devices = Control.encodeDeviceList devices := by
  simp only [encodeDeviceList, Control.encodeDeviceList, littleEndian_swapBytes,
    littleEndian_swapBytes64]
  all_goals rfl

/-- What is encoded is in the grammar. -/
theorem encodeDeviceList_grammar {devices : List DeviceDescriptor} {bytes : Bytes}
    (identities : ∀ device ∈ devices, device.identity < 2 ^ 64)
    (encoded : encodeDeviceList devices = .ok bytes) : DeviceList bytes devices := by
  rw [encodeDeviceList_agrees, Control.encodeDeviceList] at encoded
  split at encoded
  · cases encoded
  rename_i few
  split at encoded
  · cases encoded
  rename_i size sized
  injection encoded with encoded
  have checked : ∀ (devices : List DeviceDescriptor) (start size : Nat),
      deviceListSize start devices = .ok size →
        ∀ device ∈ devices, device.identity ≠ 0 ∧ device.name.length ≤ maxDeviceNameLength := by
    intro devices
    induction devices with
    | nil => nofun
    | cons first devices induction =>
        intro start size sized
        rw [deviceListSize] at sized
        split at sized
        · cases sized
        rename_i good
        dsimp only at sized
        split at sized
        · cases sized
        rw [not_or, Nat.not_lt] at good
        intro device member
        rcases List.mem_cons.mp member with rfl | later
        · exact good
        · exact induction _ _ sized device later
  refine ⟨by omega, fun device member => ?_, encoded.symm⟩
  obtain ⟨nonzero, name⟩ := checked devices 4 size sized device member
  have limit : maxDeviceNameLength = 255 := rfl
  exact ⟨nonzero, identities device member, by omega⟩

/-! ## One entry -/

theorem readDevice_eq {bytes : Bytes} {offset : Nat} (inside : offset + 10 ≤ bytes.length) :
    readDevice bytes offset =
      if decode (chunk bytes offset 8) = 0 ∨
          bytes.length - (offset + 10) < decode (chunk bytes (offset + 8) 2) then
        fail .eproto
      else
        .ok (⟨decode (chunk bytes offset 8),
          chunk bytes (offset + 10) (decode (chunk bytes (offset + 8) 2))⟩,
          offset + 10 + decode (chunk bytes (offset + 8) 2)) := by
  rw [readDevice]
  simp (disch := omega) only [readField_eq, bind, Except.bind, Nat.add_assoc, Nat.reduceAdd,
    swapBytes_chunk, swapBytes64_chunk, sizeSub_eq]
  split
  · rfl
  · rename_i valid
    rw [slice_eq (by omega) (by omega)]
    have size : offset + (10 + decode (chunk bytes (offset + 8) 2)) - (offset + 10) =
        decode (chunk bytes (offset + 8) 2) := by omega
    dsimp only
    rw [size]
    rfl

theorem readField_cases (width : Nat) (bytes : Bytes) (offset : Nat) :
    readField width bytes offset = fail .eproto ∨
      offset + width ≤ bytes.length ∧ readField width bytes offset =
        .ok (fromLittleEndian (chunk bytes offset width), offset + width) := by
  by_cases inside : offset + width ≤ bytes.length
  · exact .inr ⟨inside, readField_eq inside⟩
  · exact .inl (if_pos (by omega))

theorem readDevice_short {bytes : Bytes} {offset : Nat} (short : bytes.length < offset + 10) :
    readDevice bytes offset = fail .eproto := by
  rw [readDevice]
  rcases readField_cases 8 bytes offset with failed | ⟨inside, read⟩
  · rw [failed]
    rfl
  · rcases readField_cases 2 bytes (offset + 8) with failed | ⟨more, -⟩
    · simp only [read, bind, Except.bind, failed]
      rfl
    · omega

/-- A round is refused, or it reads the entry at its offset. -/
theorem readDevice_cases (bytes : Bytes) (offset : Nat) :
    readDevice bytes offset = fail .eproto ∨
      ∃ device, readDevice bytes offset = .ok (device, offset + (entryBytes device).length) ∧
        Entry device ∧ offset + (entryBytes device).length ≤ bytes.length ∧
        chunk bytes offset (entryBytes device).length = entryBytes device := by
  by_cases inside : offset + 10 ≤ bytes.length
  swap
  · exact .inl (readDevice_short (by omega))
  rw [readDevice_eq inside]
  split
  · exact .inl rfl
  rename_i valid
  have size := length_chunk (show offset + 10 + decode (chunk bytes (offset + 8) 2) ≤
    bytes.length by omega)
  have identity : encode 8 (decode (chunk bytes offset 8)) = chunk bytes offset 8 :=
    encode_chunk (by omega)
  have name : encode 2 (decode (chunk bytes (offset + 8) 2)) = chunk bytes (offset + 8) 2 :=
    encode_chunk (by omega)
  refine .inr ⟨⟨decode (chunk bytes offset 8),
    chunk bytes (offset + 10) (decode (chunk bytes (offset + 8) 2))⟩, ?_, ⟨by dsimp only; omega,
    decode_chunk_lt (by omega), ?_⟩, ?_, ?_⟩
  · rw [length_entryBytes, size, Nat.add_assoc]
  · rw [size]
    exact decode_chunk_lt (by omega)
  · rw [length_entryBytes, size]
    omega
  · rw [length_entryBytes, entryBytes, size, identity, name, chunk_append, chunk_append]

theorem readDevice_entry {device : DeviceDescriptor} (entry : Entry device)
    (before rest : Bytes) :
    readDevice (before ++ (entryBytes device ++ rest)) before.length =
      .ok (device, before.length + (entryBytes device).length) := by
  have size := length_entryBytes device
  have fits : ∀ field ∈ [(8, device.identity), (2, device.name.length)],
      field.2 < 256 ^ field.1 := by
    simp only [List.forall_mem_cons]
    exact ⟨entry.identity, entry.name, nofun⟩
  have fields := fieldsAt_encodeFields fits before (device.name ++ rest)
  have joined : encodeFields [(8, device.identity), (2, device.name.length)] ++
      (device.name ++ rest) = entryBytes device ++ rest := by
    simp only [encodeFields, entryBytes, List.append_assoc, List.append_nil]
  rw [joined] at fields
  simp only [fieldsAt, List.map_cons, List.map_nil, List.cons.injEq, and_true] at fields
  obtain ⟨identity, nameLength⟩ := fields
  have total : (before ++ (entryBytes device ++ rest)).length =
      before.length + 10 + device.name.length + rest.length := by
    rw [List.length_append, List.length_append, size]
    omega
  have name : chunk (before ++ (entryBytes device ++ rest)) (before.length + 10)
      device.name.length = device.name := by
    have front : (before ++ (encode 8 device.identity ++ encode 2 device.name.length)).length =
        before.length + 10 := by
      rw [List.length_append, List.length_append, length_encode, length_encode]
    rw [entryBytes, chunk, List.append_assoc (_ ++ _), ← List.append_assoc before,
      List.drop_left' front, List.take_left' rfl]
  rw [readDevice_eq (by omega), identity, nameLength, name, if_neg (by
    have nonzero := entry.nonzero
    omega), size, Nat.add_assoc]

/-! ## The loop -/

theorem length_entries (devices : List DeviceDescriptor) :
    10 * devices.length ≤ (devices.flatMap entryBytes).length := by
  induction devices with
  | nil => exact Nat.zero_le _
  | cons device devices induction =>
      have size := length_entryBytes device
      rw [List.flatMap_cons, List.length_append, List.length_cons]
      omega

/-- The loop begins at most as many rounds as it is told to. It is refused, or it reads that
many entries. -/
theorem readDevices_cases (bytes : Bytes) (offset count : Nat) :
    (readDevices bytes offset count).1 ≤ count ∧
      ((readDevices bytes offset count).2 = fail .eproto ∨
        ∃ devices, (readDevices bytes offset count).2 =
            .ok (devices, offset + (devices.flatMap entryBytes).length) ∧
          devices.length = count ∧ (∀ device ∈ devices, Entry device) ∧
          chunk bytes offset (devices.flatMap entryBytes).length =
            devices.flatMap entryBytes) := by
  induction count generalizing offset with
  | zero => exact ⟨Nat.le_refl _, .inr ⟨[], rfl, rfl, nofun, rfl⟩⟩
  | succ count induction =>
      rw [readDevices]
      rcases readDevice_cases bytes offset with failed | ⟨device, read, entry, inside, written⟩
      · rw [failed]
        exact ⟨Nat.le_add_left .., .inl rfl⟩
      · rw [read]
        dsimp only
        obtain ⟨bound, rest⟩ := induction (offset + (entryBytes device).length)
        refine ⟨Nat.succ_le_succ bound, ?_⟩
        rcases rest with failed | ⟨devices, later, length, entries, writtenLater⟩
        · left
          rw [failed]
          rfl
        · right
          refine ⟨device :: devices, ?_, by rw [List.length_cons, length], ?_, ?_⟩
          · rw [later, List.flatMap_cons, List.length_append, ← Nat.add_assoc]
            rfl
          · intro other member
            rcases List.mem_cons.mp member with rfl | old
            · exact entry
            · exact entries other old
          · rw [List.flatMap_cons, List.length_append, ← chunk_append, written, writtenLater]

theorem readDevices_entries {devices : List DeviceDescriptor}
    (entries : ∀ device ∈ devices, Entry device) (before : Bytes) :
    (readDevices (before ++ devices.flatMap entryBytes) before.length devices.length).2 =
      .ok (devices, (before ++ devices.flatMap entryBytes).length) := by
  induction devices generalizing before with
  | nil =>
      rw [List.flatMap_nil, List.append_nil]
      rfl
  | cons device devices induction =>
      have first := readDevice_entry (entries device (List.mem_cons_self ..)) before
        (devices.flatMap entryBytes)
      have later := induction (fun other member => entries other (List.mem_cons_of_mem _ member))
        (before ++ entryBytes device)
      have size : (before ++ entryBytes device).length =
          before.length + (entryBytes device).length := List.length_append
      rw [size, List.append_assoc, ← List.flatMap_cons] at later
      rw [← List.flatMap_cons] at first
      rw [List.length_cons, readDevices, first]
      dsimp only
      rw [later]
      rfl

/-! ## The whole list -/

theorem readDeviceList_eq {bytes : Bytes} (output : List DeviceDescriptor)
    (inside : 4 ≤ bytes.length) :
    readDeviceList bytes (some output) =
      if (bytes.length - 4) / minimumDeviceSize < decode (chunk bytes 0 4) then
        { decoded := fail .eproto }
      else
        { decoded := do
            let (decoded, offset) ← (readDevices bytes 4 (decode (chunk bytes 0 4))).2
            if offset ≠ bytes.length then
              fail .eproto
            else
              return decoded
          reserved := decode (chunk bytes 0 4)
          rounds := (readDevices bytes 4 (decode (chunk bytes 0 4))).1 } := by
  rw [readDeviceList, if_neg nofun, readField_eq (by omega)]
  dsimp only
  rw [sizeSub_eq (by omega), swapBytes_chunk (by omega)]

/-- The reservation and the loop are bounded by the bytes, and the list is refused or found
in them. -/
theorem readDeviceList_cases (bytes : Bytes) (output : Option (List DeviceDescriptor)) :
    ((readDeviceList bytes output).rounds ≤ (readDeviceList bytes output).reserved ∧
      10 * (readDeviceList bytes output).reserved ≤ bytes.length) ∧
      ((∃ status, (readDeviceList bytes output).decoded = fail status) ∨
        ∃ devices, (readDeviceList bytes output).decoded = .ok devices ∧
          DeviceList bytes devices) := by
  cases output with
  | none => exact ⟨⟨Nat.le_refl _, Nat.zero_le _⟩, .inl ⟨.einval, rfl⟩⟩
  | some output =>
      by_cases inside : 4 ≤ bytes.length
      swap
      · have failed : readField 4 bytes 0 = fail .eproto := if_pos (.inr (by omega))
        rw [readDeviceList, if_neg nofun, failed]
        exact ⟨⟨Nat.le_refl _, Nat.zero_le _⟩, .inl ⟨.eproto, rfl⟩⟩
      rw [readDeviceList_eq output inside]
      split
      · exact ⟨⟨Nat.le_refl _, Nat.zero_le _⟩, .inl ⟨.eproto, rfl⟩⟩
      rename_i enough
      simp only [minimumDeviceSize, Nat.not_lt] at enough
      obtain ⟨bound, result⟩ := readDevices_cases bytes 4 (decode (chunk bytes 0 4))
      refine ⟨⟨bound, by dsimp only; omega⟩, ?_⟩
      rcases result with failed | ⟨devices, read, length, entries, written⟩
      · left
        rw [failed]
        exact ⟨.eproto, rfl⟩
      · rw [read]
        dsimp only [bind, Except.bind]
        split
        · exact .inl ⟨.eproto, rfl⟩
        rename_i whole
        rw [not_not] at whole
        have small : decode (chunk bytes 0 4) < 2 ^ 32 := decode_chunk_lt (by omega)
        have counted : encode 4 (decode (chunk bytes 0 4)) = chunk bytes 0 4 :=
          encode_chunk (by omega)
        refine .inr ⟨devices, rfl, by omega, entries, ?_⟩
        rw [length, counted, ← written, chunk_append bytes 0 4, whole, chunk_whole]

theorem readDeviceList_grammar {bytes : Bytes} {devices : List DeviceDescriptor}
    (list : DeviceList bytes devices) (output : List DeviceDescriptor) :
    (readDeviceList bytes (some output)).decoded = .ok devices := by
  obtain ⟨few, entries, rfl⟩ := list
  have minimum := length_entries devices
  have size : (encode 4 devices.length ++ devices.flatMap entryBytes).length =
      4 + (devices.flatMap entryBytes).length := by
    rw [List.length_append, length_encode]
  have count : decode (chunk (encode 4 devices.length ++ devices.flatMap entryBytes) 0 4) =
      devices.length := by
    rw [chunk_encode, decode_encode few]
  have read := readDevices_entries entries (encode 4 devices.length)
  rw [length_encode] at read
  rw [readDeviceList_eq output (by omega), count, if_neg (by
    simp only [minimumDeviceSize]
    omega), read]
  dsimp only [bind, Except.bind]
  rw [if_neg (not_not.mpr rfl)]
  rfl

/-- The decoder accepts exactly the strings of the grammar. -/
theorem decodeDeviceList_eq_ok_iff {bytes : Bytes} {output : List DeviceDescriptor}
    {devices : List DeviceDescriptor} :
    decodeDeviceList bytes (some output) = ⟨.ok (), some devices⟩ ↔
      DeviceList bytes devices := by
  rw [decodeDeviceList, Decoded.assign_eq_ok_iff]
  constructor
  · rintro ⟨read, decoded, same⟩
    rw [Option.some.inj same]
    rcases (readDeviceList_cases bytes (some output)).2 with ⟨status, failed⟩ | ⟨found, here, list⟩
    · rw [failed] at decoded
      cases decoded
    · rw [here] at decoded
      rwa [← Except.ok.inj decoded]
  · intro list
    exact ⟨devices, readDeviceList_grammar list output, rfl⟩

/-- What the decoder does with an arbitrary string. -/
structure Decoding (bytes : Bytes) (output : Option (List DeviceDescriptor)) : Prop where
  safe : (decodeDeviceList bytes output).returned.Safe
  reserved : 10 * (readDeviceList bytes output).reserved ≤ bytes.length
  rounds : (readDeviceList bytes output).rounds ≤ (readDeviceList bytes output).reserved
  unwritten : (decodeDeviceList bytes output).returned ≠ .ok () →
    (decodeDeviceList bytes output).output = output

theorem decodeDeviceList_decoding (bytes : Bytes) (output : Option (List DeviceDescriptor)) :
    Decoding bytes output := by
  obtain ⟨⟨rounds, reserved⟩, result⟩ := readDeviceList_cases bytes output
  have safe : (readDeviceList bytes output).decoded.Safe := by
    rcases result with ⟨status, failed⟩ | ⟨devices, read, -⟩
    · rw [failed]
      exact safe_fail status
    · rw [read]
      exact safe_ok devices
  exact ⟨Decoded.assign_returned safe, reserved, rounds, Decoded.assign_unwritten⟩

/-- Encoded lists are read back, exactly the strings of the grammar are accepted, a list
determines its string, and every decoding stays within its buffer and its bounds. -/
theorem device_list_grammar :
    (∀ devices bytes output, (∀ device ∈ devices, device.identity < 2 ^ 64) →
      encodeDeviceList devices = .ok bytes →
      decodeDeviceList bytes (some output) = ⟨.ok (), some devices⟩) ∧
    (∀ bytes output devices,
      decodeDeviceList bytes (some output) = ⟨.ok (), some devices⟩ ↔
        DeviceList bytes devices) ∧
    (∀ bytes output, (decodeDeviceList bytes (some output)).returned = .ok () ↔
      ∃ devices, DeviceList bytes devices) ∧
    (∀ left right devices, DeviceList left devices → DeviceList right devices →
      left = right) ∧
    ∀ bytes output, Decoding bytes output := by
  refine ⟨fun devices bytes output identities encoded => ?_,
    fun bytes output devices => decodeDeviceList_eq_ok_iff, fun bytes output => ?_,
    fun left right devices leftList rightList => leftList.whole.trans rightList.whole.symm,
    decodeDeviceList_decoding⟩
  · exact decodeDeviceList_eq_ok_iff.mpr (encodeDeviceList_grammar identities encoded)
  · constructor
    · intro accepted
      rcases (readDeviceList_cases bytes (some output)).2 with ⟨status, failed⟩ | ⟨devices, -, list⟩
      · rw [decodeDeviceList, failed] at accepted
        cases accepted
      · exact ⟨devices, list⟩
    · rintro ⟨devices, list⟩
      rw [decodeDeviceList_eq_ok_iff.mpr list]

/-! ## The list of the client -/

theorem readDevices_agrees (bytes : Bytes) (offset count : Nat) (inside : offset ≤ bytes.length) :
    (readDevices bytes offset count).2 =
      match Control.readDevices count (bytes.drop offset) with
      | none => fail .eproto
      | some (devices, rest) => .ok (devices, bytes.length - rest.length) := by
  induction count generalizing offset with
  | zero =>
      simp only [readDevices, Control.readDevices, List.length_drop]
      rw [Nat.sub_sub_self inside]
  | succ count induction =>
      rw [readDevices, Control.readDevices]
      by_cases long : offset + 10 ≤ bytes.length
      swap
      · rw [readDevice_short (by omega)]
        by_cases identity : offset + 8 ≤ bytes.length
        · have short : Wire.read 2 (bytes.drop (offset + 8)) = none :=
            if_pos (by rw [List.length_drop]; omega)
          rw [read_drop_bind identity]
          dsimp only
          rw [short]
          rfl
        · have short : Wire.read 8 (bytes.drop offset) = none :=
            if_pos (by rw [List.length_drop]; omega)
          rw [short]
          rfl
      rw [readDevice_eq long, read_drop_bind (by omega)]
      dsimp only
      rw [read_drop_bind (by omega)]
      simp only [Nat.add_assoc, Nat.reduceAdd, List.length_drop]
      by_cases refused : decode (chunk bytes offset 8) = 0 ∨
          bytes.length - (offset + 10) < decode (chunk bytes (offset + 8) 2)
      · rw [if_pos refused, if_pos refused]
        rfl
      rw [if_neg refused, if_neg refused]
      dsimp only
      rw [induction _ (by omega), List.drop_drop, Nat.add_assoc]
      cases Control.readDevices count (bytes.drop
        (offset + (10 + decode (chunk bytes (offset + 8) 2)))) <;> rfl

theorem readDeviceList_agrees (bytes : Bytes) (output : List DeviceDescriptor) :
    (readDeviceList bytes (some output)).decoded = faultless (Control.decodeDeviceList bytes) := by
  rw [Control.decodeDeviceList]
  by_cases inside : 4 ≤ bytes.length
  swap
  · have failed : readField 4 bytes 0 = fail .eproto := if_pos (.inr (by omega))
    have short : Wire.read 4 bytes = none := if_pos (by omega)
    rw [readDeviceList, if_neg nofun, failed, short]
    rfl
  have ten : minimumDeviceSize = 10 := rfl
  have left : (bytes.drop 4).length = bytes.length - 4 := List.length_drop
  rw [readDeviceList_eq output inside, read_front inside]
  dsimp only
  by_cases many : (bytes.length - 4) / minimumDeviceSize < decode (chunk bytes 0 4)
  · rw [if_pos many, if_pos (by rwa [left, ← ten])]
    rfl
  rw [if_neg many, if_neg (by rwa [left, ← ten])]
  dsimp only
  rw [readDevices_agrees bytes 4 _ inside]
  cases Control.readDevices (decode (chunk bytes 0 4)) (bytes.drop 4) with
  | none => rfl
  | some result =>
      obtain ⟨devices, rest⟩ := result
      cases rest with
      | nil =>
          dsimp only [bind, Except.bind, List.length_nil, Nat.sub_zero]
          rw [if_neg (not_not.mpr rfl)]
          rfl
      | cons first rest =>
          dsimp only [bind, Except.bind]
          rw [if_pos (by rw [List.length_cons]; omega)]
          rfl

end Ugdr.Control.Payload
