import Ugdr.Worker.LoopWorker
import Mathlib.Algebra.BigOperators.Group.List.Basic

/-! # Splitting a parent into datagrams

The datagrams that the cursor of `try_send` produces for one parent: how many
there are, that indices and offsets are consecutive, and that their source
ranges are the resolved segments of the WR cut into pieces.
-/

namespace Ugdr.Worker

open Ugdr.Queue Ugdr.Control
open Ugdr.Control.QpService (WorkerQpView)

/-! ## Byte ranges -/

/-- The addresses of `length` bytes from `base` on. -/
def addresses (base length : Nat) : List Nat :=
  (List.range length).map fun index => (base + index) % 2 ^ 64

theorem addresses_mod (base length : Nat) :
    addresses (base % 2 ^ 64) length = addresses base length := by
  simp only [addresses, Nat.mod_add_mod]

theorem addresses_add (base first second : Nat) :
    addresses base (first + second) =
      addresses base first ++ addresses (base + first) second := by
  simp only [addresses, List.range_add, List.map_append, List.map_map, Function.comp_def,
    Nat.add_assoc]

/-- The bytes of a list of segments in order. -/
def segmentBytes (segments : List SourceSegment) : List Nat :=
  segments.flatMap fun segment => addresses segment.daemonAddress segment.length

def segmentLength (segments : List SourceSegment) : Nat :=
  (segments.map SourceSegment.length).sum

def segmentPayloads (payloadBytes : Nat) (segments : List SourceSegment) : Nat :=
  (segments.map fun segment => (segment.length + payloadBytes - 1) / payloadBytes).sum

theorem segmentPayloads_le {payloadBytes : Nat} (positive : 0 < payloadBytes)
    (segments : List SourceSegment) :
    segmentPayloads payloadBytes segments ≤ segmentLength segments := by
  induction segments with
  | nil => exact Nat.le_refl 0
  | cons segment segments induction =>
      simp only [segmentPayloads, segmentLength, List.map_cons, List.sum_cons] at induction ⊢
      have ceiling : (segment.length + payloadBytes - 1) / payloadBytes ≤ segment.length := by
        rw [Nat.div_le_iff_le_mul_add_pred positive]
        have grows := Nat.le_mul_of_pos_left segment.length positive
        omega
      omega

/-! ## Cursor -/

namespace PendingSend

variable {payloadBytes : Nat} {parent : PendingSend}

/-- What is left of the segments at the cursor. -/
def remainingSegments (parent : PendingSend) : List SourceSegment :=
  match parent.sourceSegments.drop parent.segmentIndex with
  | [] => []
  | segment :: segments =>
      ⟨(segment.daemonAddress + parent.segmentOffset) % 2 ^ 64,
        segment.length - parent.segmentOffset⟩ :: segments

/-- How many datagrams the cursor has still to produce. -/
def remaining (parent : PendingSend) : Nat :=
  if parent.totalLength = 0 then
    if parent.zeroPayloadSent then 0 else 1
  else
    parent.payloadCount - parent.payloadIndex

/-- The next `count` datagrams from the cursor on. -/
def datagramsFrom (payloadBytes : Nat) : Nat → PendingSend → List RequestDatagram
  | 0, _ => []
  | count + 1, parent =>
      parent.datagram payloadBytes ::
        datagramsFrom payloadBytes count (parent.advance payloadBytes)

/-- All datagrams from the cursor to the end of the parent. -/
def datagrams (payloadBytes : Nat) (parent : PendingSend) : List RequestDatagram :=
  datagramsFrom payloadBytes parent.remaining parent

/-- The cursor accounts for the whole parent: what it has passed and what is left
add up to the payload count and to the length. -/
structure CursorValid (payloadBytes : Nat) (parent : PendingSend) : Prop where
  positive : 0 < payloadBytes
  lengths : ∀ segment ∈ parent.remainingSegments, 0 < segment.length
  index : parent.payloadIndex + segmentPayloads payloadBytes parent.remainingSegments =
    parent.payloadCount
  offset : parent.payloadOffset + segmentLength parent.remainingSegments =
    parent.totalLength

/-- A parent as `try_send` builds it, before its first datagram. -/
structure Built (payloadBytes : Nat) (parent : PendingSend) : Prop where
  valid : parent.CursorValid payloadBytes
  segmentIndex : parent.segmentIndex = 0
  segmentOffset : parent.segmentOffset = 0
  payloadOffset : parent.payloadOffset = 0
  payloadIndex : parent.payloadIndex = 0
  zeroPayloadSent : parent.zeroPayloadSent = false
  totalLength : parent.totalLength < 2 ^ 32

theorem remainingSegments_eq_cons {segment : SourceSegment} {segments : List SourceSegment}
    (dropped : parent.sourceSegments.drop parent.segmentIndex = segment :: segments) :
    parent.remainingSegments =
      ⟨(segment.daemonAddress + parent.segmentOffset) % 2 ^ 64,
        segment.length - parent.segmentOffset⟩ :: segments := by
  rw [remainingSegments, dropped]

theorem exists_remaining (valid : parent.CursorValid payloadBytes)
    (unfinished : parent.payloadIndex < parent.payloadCount) :
    ∃ segment segments,
      parent.sourceSegments.drop parent.segmentIndex = segment :: segments := by
  cases dropped : parent.sourceSegments.drop parent.segmentIndex with
  | nil =>
      have counted := valid.index
      rw [remainingSegments, dropped] at counted
      simp [segmentPayloads] at counted
      omega
  | cons segment segments => exact ⟨segment, segments, rfl⟩

/-- The number of payloads of a segment drops by one when a payload is cut off. -/
theorem ceiling_step {length : Nat} (positive : 0 < payloadBytes) (nonzero : 0 < length) :
    (length + payloadBytes - 1) / payloadBytes =
      (length - min length payloadBytes + payloadBytes - 1) / payloadBytes + 1 := by
  have split : length + payloadBytes - 1 = length - 1 + payloadBytes := by omega
  rw [split, Nat.add_div_right _ positive]
  by_cases short : length ≤ payloadBytes
  · rw [min_eq_left short, Nat.sub_self, Nat.div_eq_of_lt (by omega),
      Nat.div_eq_of_lt (by omega)]
  · rw [min_eq_right (by omega)]
    congr 2
    omega

/-- At a segment boundary the remaining segments are the stored ones, up to the
reduction of the first address. -/
theorem remainingSegments_of_boundary {segments : List SourceSegment}
    (dropped : parent.sourceSegments.drop parent.segmentIndex = segments)
    (boundary : parent.segmentOffset = 0) :
    parent.remainingSegments.map SourceSegment.length =
        segments.map SourceSegment.length ∧
      segmentBytes parent.remainingSegments = segmentBytes segments := by
  rw [remainingSegments, dropped, boundary]
  cases segments with
  | nil => exact ⟨rfl, rfl⟩
  | cons segment segments =>
      exact ⟨rfl, congrArg (· ++ segmentBytes segments) (addresses_mod _ _)⟩

theorem segmentLength_cons (segment : SourceSegment) (segments : List SourceSegment) :
    segmentLength (segment :: segments) = segment.length + segmentLength segments :=
  rfl

theorem segmentPayloads_cons (segment : SourceSegment) (segments : List SourceSegment) :
    segmentPayloads payloadBytes (segment :: segments) =
      (segment.length + payloadBytes - 1) / payloadBytes +
        segmentPayloads payloadBytes segments :=
  rfl

theorem segmentBytes_cons (segment : SourceSegment) (segments : List SourceSegment) :
    segmentBytes (segment :: segments) =
      addresses segment.daemonAddress segment.length ++ segmentBytes segments :=
  rfl

/-- The two totals and the positivity of a list of segments depend on the lengths
only. -/
theorem segment_totals_congr (payloadBytes : Nat) {left right : List SourceSegment}
    (same : left.map SourceSegment.length = right.map SourceSegment.length) :
    segmentLength left = segmentLength right ∧
      segmentPayloads payloadBytes left = segmentPayloads payloadBytes right ∧
      ((∀ segment ∈ right, 0 < segment.length) → ∀ segment ∈ left, 0 < segment.length) := by
  refine ⟨congrArg List.sum same, ?_, fun lengths segment member => ?_⟩
  · have ceilings := congrArg
      (fun lengths => (lengths.map fun length => (length + payloadBytes - 1) / payloadBytes).sum)
      same
    simpa [segmentPayloads, Function.comp_def] using ceilings
  · have listed : segment.length ∈ right.map SourceSegment.length := by
      rw [← same]
      exact List.mem_map_of_mem member
    obtain ⟨other, otherMember, equal⟩ := List.mem_map.mp listed
    exact equal ▸ lengths other otherMember

/-- A datagram repeats the header of its parent. -/
structure Carries (parent : PendingSend) (request : RequestDatagram) : Prop where
  parentRequestId : request.parentRequestId = parent.parentRequestId
  sourceQpNum : request.sourceQpNum = parent.sourceQpNum
  targetQpNum : request.targetQpNum = parent.targetQpNum
  opcode : request.opcode = parent.opcode
  remoteAddress : request.remoteAddress = parent.remoteAddress
  rkey : request.rkey = parent.rkey
  immediateData : request.immediateData = parent.immediateData
  parentTotalLength : request.parentTotalLength = parent.totalLength
  payloadCount : request.payloadCount = parent.payloadCount

theorem carries_datagram (payloadBytes : Nat) (parent : PendingSend) :
    parent.Carries (parent.datagram payloadBytes) := by
  unfold datagram
  split
  · exact ⟨rfl, rfl, rfl, rfl, rfl, rfl, rfl, rfl, rfl⟩
  · split <;> exact ⟨rfl, rfl, rfl, rfl, rfl, rfl, rfl, rfl, rfl⟩

/-- Advancing the cursor changes the cursor only. -/
theorem advance_frame (payloadBytes : Nat) (parent : PendingSend) :
    parent.advance payloadBytes =
      { parent with
        segmentIndex := (parent.advance payloadBytes).segmentIndex
        segmentOffset := (parent.advance payloadBytes).segmentOffset
        payloadOffset := (parent.advance payloadBytes).payloadOffset
        payloadIndex := (parent.advance payloadBytes).payloadIndex
        zeroPayloadSent := (parent.advance payloadBytes).zeroPayloadSent } := by
  unfold advance
  split
  · rfl
  · split
    · rfl
    · simp only
      split <;> rfl

@[simp] theorem advance_payloadCount (payloadBytes : Nat) (parent : PendingSend) :
    (parent.advance payloadBytes).payloadCount = parent.payloadCount := by
  rw [advance_frame]

@[simp] theorem advance_totalLength (payloadBytes : Nat) (parent : PendingSend) :
    (parent.advance payloadBytes).totalLength = parent.totalLength := by
  rw [advance_frame]

theorem carries_advance {request : RequestDatagram} :
    (parent.advance payloadBytes).Carries request ↔ parent.Carries request := by
  rw [advance_frame]
  constructor <;> exact fun ⟨a, b, c, d, e, f, g, h, i⟩ => ⟨a, b, c, d, e, f, g, h, i⟩

section Advance

variable {segment : SourceSegment}

theorem datagram_of_found (payloadBytes : Nat) (nonzero : parent.totalLength ≠ 0)
    (found : parent.sourceSegments[parent.segmentIndex]? = some segment) :
    (parent.datagram payloadBytes).payloadIndex = parent.payloadIndex ∧
      (parent.datagram payloadBytes).payloadOffset = parent.payloadOffset ∧
      (parent.datagram payloadBytes).payloadLength =
        min (segment.length - parent.segmentOffset) payloadBytes ∧
      (parent.datagram payloadBytes).sourceDaemonAddress =
        (segment.daemonAddress + parent.segmentOffset) % 2 ^ 64 := by
  simp only [datagram, if_neg nonzero, found, and_self]

/-- What is left of the segments after a payload of the first one was cut off. -/
theorem advance_remaining (payloadBytes : Nat) {segments : List SourceSegment}
    (nonzero : parent.totalLength ≠ 0)
    (dropped : parent.sourceSegments.drop parent.segmentIndex = segment :: segments)
    (inside : parent.segmentOffset < segment.length) :
    let length := min (segment.length - parent.segmentOffset) payloadBytes
    let rest := segment.length - parent.segmentOffset - length
    (parent.advance payloadBytes).payloadIndex = parent.payloadIndex + 1 ∧
      (parent.advance payloadBytes).payloadOffset = parent.payloadOffset + length ∧
      (parent.advance payloadBytes).remainingSegments.map SourceSegment.length =
        (if rest = 0 then [] else [rest]) ++ segments.map SourceSegment.length ∧
      segmentBytes (parent.advance payloadBytes).remainingSegments =
        addresses (segment.daemonAddress + parent.segmentOffset + length) rest ++
          segmentBytes segments := by
  intro length rest
  have found : parent.sourceSegments[parent.segmentIndex]? = some segment := by
    have head := congrArg List.head? dropped
    rwa [List.head?_drop, List.head?_cons] at head
  by_cases whole : parent.segmentOffset + length = segment.length
  · have following : (parent.advance payloadBytes).sourceSegments.drop
        (parent.advance payloadBytes).segmentIndex = segments := by
      simp only [advance, if_neg nonzero, found]
      rw [if_pos whole]
      simp only [← List.tail_drop, dropped, List.tail_cons]
    have boundary : (parent.advance payloadBytes).segmentOffset = 0 := by
      simp only [advance, if_neg nonzero, found]
      rw [if_pos whole]
    have none : rest = 0 := by omega
    obtain ⟨lengths, bytes⟩ := remainingSegments_of_boundary following boundary
    refine ⟨?_, ?_, ?_, ?_⟩
    · simp only [advance, if_neg nonzero, found]
      split <;> rfl
    · simp only [advance, if_neg nonzero, found]
      split <;> rfl
    · rw [lengths, if_pos none, List.nil_append]
    · rw [bytes, none]
      rfl
  · have following : (parent.advance payloadBytes).sourceSegments.drop
        (parent.advance payloadBytes).segmentIndex = segment :: segments := by
      simp only [advance, if_neg nonzero, found]
      rw [if_neg whole, dropped]
    have offset : (parent.advance payloadBytes).segmentOffset =
        parent.segmentOffset + length := by
      simp only [advance, if_neg nonzero, found]
      rw [if_neg whole]
    have some : rest ≠ 0 := by omega
    have split : segment.length - (parent.segmentOffset + length) = rest := by omega
    rw [remainingSegments_eq_cons following, offset, split]
    refine ⟨?_, ?_, ?_, ?_⟩
    · simp only [advance, if_neg nonzero, found]
      split <;> rfl
    · simp only [advance, if_neg nonzero, found]
      split <;> rfl
    · rw [if_neg some]
      rfl
    · rw [segmentBytes_cons, addresses_mod, Nat.add_assoc]

/-- What one push does to a cursor that is not at its end. -/
theorem advance_spec (valid : parent.CursorValid payloadBytes)
    (nonzero : parent.totalLength ≠ 0)
    (unfinished : parent.payloadIndex < parent.payloadCount) :
    (parent.advance payloadBytes).CursorValid payloadBytes ∧
      0 < (parent.datagram payloadBytes).payloadLength ∧
      (parent.advance payloadBytes).payloadIndex = parent.payloadIndex + 1 ∧
      (parent.advance payloadBytes).payloadOffset =
        parent.payloadOffset + (parent.datagram payloadBytes).payloadLength ∧
      segmentBytes parent.remainingSegments =
        addresses (parent.datagram payloadBytes).sourceDaemonAddress
            (parent.datagram payloadBytes).payloadLength ++
          segmentBytes (parent.advance payloadBytes).remainingSegments := by
  obtain ⟨segment, segments, dropped⟩ := exists_remaining valid unfinished
  have found : parent.sourceSegments[parent.segmentIndex]? = some segment := by
    have head := congrArg List.head? dropped
    rwa [List.head?_drop, List.head?_cons] at head
  have segmentsEq := remainingSegments_eq_cons dropped
  have inside : parent.segmentOffset < segment.length := by
    have head := valid.lengths _ (by rw [segmentsEq]; exact List.mem_cons_self)
    exact Nat.lt_of_sub_pos head
  obtain ⟨-, -, length, source⟩ := datagram_of_found payloadBytes nonzero found
  obtain ⟨index, offset, lengths, bytes⟩ :=
    advance_remaining payloadBytes nonzero dropped inside
  have positive := valid.positive
  have indexed : parent.payloadIndex +
      ((segment.length - parent.segmentOffset + payloadBytes - 1) / payloadBytes +
        segmentPayloads payloadBytes segments) = parent.payloadCount := by
    rw [← valid.index, segmentsEq, segmentPayloads_cons]
  have covered : parent.payloadOffset +
      (segment.length - parent.segmentOffset + segmentLength segments) =
        parent.totalLength := by
    rw [← valid.offset, segmentsEq, segmentLength_cons]
  have nonempty : ∀ other ∈ segments, 0 < other.length := fun other member =>
    valid.lengths other (by rw [segmentsEq]; exact List.mem_cons_of_mem _ member)
  generalize available : segment.length - parent.segmentOffset = left at *
  rw [ceiling_step positive (by omega : 0 < left)] at indexed
  have within : min left payloadBytes ≤ left := min_le_left _ _
  have some : 0 < min left payloadBytes := by omega
  generalize min left payloadBytes = taken at *
  -- The remaining lengths are those of a list with the cut segment in front.
  let after : List SourceSegment :=
    (if left - taken = 0 then [] else [⟨0, left - taken⟩]) ++ segments
  have same : (parent.advance payloadBytes).remainingSegments.map SourceSegment.length =
      after.map SourceSegment.length := by
    rw [lengths]
    simp only [after]
    split <;> rfl
  have totals : segmentLength after = left - taken + segmentLength segments ∧
      segmentPayloads payloadBytes after =
        (left - taken + payloadBytes - 1) / payloadBytes +
          segmentPayloads payloadBytes segments := by
    simp only [after]
    by_cases none : left - taken = 0
    · rw [if_pos none, none, List.nil_append, Nat.div_eq_of_lt (by omega)]
      omega
    · rw [if_neg none]
      exact ⟨rfl, rfl⟩
  have positives : ∀ other ∈ after, 0 < other.length := by
    intro other member
    simp only [after] at member
    split at member
    · exact nonempty other (by simpa using member)
    · rcases List.mem_cons.mp member with rfl | member
      · exact Nat.pos_of_ne_zero ‹_›
      · exact nonempty other (by simpa using member)
  obtain ⟨lengthSame, payloadSame, lengthsSame⟩ := segment_totals_congr payloadBytes same
  refine ⟨⟨positive, lengthsSame positives, ?_, ?_⟩, by omega, index, by rw [offset, length],
    ?_⟩
  · rw [payloadSame, totals.2, index, advance_payloadCount]
    omega
  · rw [lengthSame, totals.1, offset, advance_totalLength]
    omega
  · rw [segmentsEq, segmentBytes_cons, addresses_mod, source, addresses_mod, length, bytes,
      ← List.append_assoc, ← addresses_add]
    exact congrArg (fun length => addresses _ length ++ _) (by omega : left = _)

end Advance

/-! ## All datagrams of a parent -/

/-- Indices count up from `index` and offsets continue at `offset`. -/
def Consecutive (index offset : Nat) : List RequestDatagram → Prop
  | [] => True
  | request :: requests =>
      request.payloadIndex = index ∧ request.payloadOffset = offset ∧
        0 < request.payloadLength ∧
        Consecutive (index + 1) (offset + request.payloadLength) requests

def payloadLengths (requests : List RequestDatagram) : Nat :=
  (requests.map RequestDatagram.payloadLength).sum

/-- The addresses that a list of datagrams reads from, in order. -/
def sourceBytes (requests : List RequestDatagram) : List Nat :=
  requests.flatMap fun request => addresses request.sourceDaemonAddress request.payloadLength

theorem datagramsFrom_length (payloadBytes count : Nat) (parent : PendingSend) :
    (datagramsFrom payloadBytes count parent).length = count := by
  induction count generalizing parent with
  | zero => rfl
  | succ count induction => simp [datagramsFrom, induction]

theorem carries_of_mem_datagramsFrom {count : Nat} {request : RequestDatagram}
    (member : request ∈ datagramsFrom payloadBytes count parent) : parent.Carries request := by
  induction count generalizing parent with
  | zero => cases member
  | succ count induction =>
      rcases List.mem_cons.mp member with rfl | member
      · exact carries_datagram payloadBytes parent
      · exact carries_advance.mp (induction member)

/-- From a valid cursor on, the datagrams are consecutive, cover what is left of
the parent, and read the remaining segments in order. -/
theorem datagramsFrom_spec (count : Nat) (valid : parent.CursorValid payloadBytes)
    (nonzero : parent.totalLength ≠ 0)
    (counted : parent.payloadIndex + count = parent.payloadCount) :
    Consecutive parent.payloadIndex parent.payloadOffset
        (datagramsFrom payloadBytes count parent) ∧
      parent.payloadOffset + payloadLengths (datagramsFrom payloadBytes count parent) =
        parent.totalLength ∧
      sourceBytes (datagramsFrom payloadBytes count parent) =
        segmentBytes parent.remainingSegments := by
  induction count generalizing parent with
  | zero =>
      -- No payload is left, so no segment is.
      have empty : parent.remainingSegments = [] := by
        have none : segmentPayloads payloadBytes parent.remainingSegments = 0 := by
          have index := valid.index
          omega
        cases segments : parent.remainingSegments with
        | nil => rfl
        | cons segment tail =>
            have positive := valid.positive
            have length := valid.lengths segment (by rw [segments]; exact List.mem_cons_self)
            rw [segments, segmentPayloads_cons, ceiling_step positive length,
              Nat.add_right_comm] at none
            exact absurd none (Nat.succ_ne_zero _)
      have offset := valid.offset
      rw [empty] at offset ⊢
      exact ⟨trivial, offset, rfl⟩
  | succ count induction =>
      obtain ⟨next, length, index, offset, bytes⟩ := advance_spec valid nonzero (by omega)
      obtain ⟨consecutive, covered, sources⟩ := induction next
        (by rwa [advance_totalLength]) (by rw [index, advance_payloadCount]; omega)
      obtain ⟨segment, segments, dropped⟩ := exists_remaining valid (by omega)
      have found : parent.sourceSegments[parent.segmentIndex]? = some segment := by
        have head := congrArg List.head? dropped
        rwa [List.head?_drop, List.head?_cons] at head
      obtain ⟨sameIndex, sameOffset, -, -⟩ := datagram_of_found payloadBytes nonzero found
      refine ⟨⟨sameIndex, sameOffset, length, ?_⟩, ?_, ?_⟩
      · rwa [index, offset] at consecutive
      · rw [offset, advance_totalLength] at covered
        simpa [datagramsFrom, payloadLengths, Nat.add_assoc] using covered
      · rw [bytes, ← sources]
        rfl

theorem carries_of_mem {request : RequestDatagram}
    (member : request ∈ parent.datagrams payloadBytes) : parent.Carries request :=
  carries_of_mem_datagramsFrom member

/-- A cursor as `try_send` keeps it: valid, with a datagram left to push. -/
structure Pending (payloadBytes : Nat) (parent : PendingSend) : Prop where
  valid : parent.CursorValid payloadBytes
  remaining : 0 < parent.remaining

/-- One push takes the first of the remaining datagrams; the parent is finished
exactly when none is left after it. -/
theorem Pending.step (pending : parent.Pending payloadBytes) :
    parent.datagrams payloadBytes =
        parent.datagram payloadBytes :: (parent.advance payloadBytes).datagrams payloadBytes ∧
      ((parent.advance payloadBytes).finished = true →
        (parent.advance payloadBytes).datagrams payloadBytes = []) ∧
      ((parent.advance payloadBytes).finished = false →
        (parent.advance payloadBytes).Pending payloadBytes) := by
  have valid := pending.valid
  have remaining := pending.remaining
  by_cases zero : parent.totalLength = 0
  · have unsent : parent.zeroPayloadSent = false := by
      by_contra sent
      rw [Bool.not_eq_false] at sent
      simp [PendingSend.remaining, zero, sent] at remaining
    have advanced : parent.advance payloadBytes = { parent with zeroPayloadSent := true } := by
      rw [advance, if_pos zero]
    have nothing : (parent.advance payloadBytes).remaining = 0 := by
      simp [PendingSend.remaining, advanced, zero]
    have one : parent.remaining = 1 := by
      simp [PendingSend.remaining, zero, unsent]
    refine ⟨?_, fun _ => ?_, fun unfinished => ?_⟩
    · rw [datagrams, one, datagrams, nothing]
      rfl
    · rw [datagrams, nothing]
      rfl
    · simp [finished, advanced, zero] at unfinished
  · have left : parent.remaining = parent.payloadCount - parent.payloadIndex := by
      rw [PendingSend.remaining, if_neg zero]
    obtain ⟨next, -, index, -, -⟩ := advance_spec valid zero (by omega)
    have rest : (parent.advance payloadBytes).remaining =
        parent.payloadCount - (parent.payloadIndex + 1) := by
      rw [PendingSend.remaining, advance_totalLength, if_neg zero, advance_payloadCount, index]
    have ends : (parent.advance payloadBytes).finished = true ↔
        parent.payloadIndex + 1 = parent.payloadCount := by
      rw [finished, advance_totalLength, if_neg zero, advance_payloadCount, index]
      simp
    refine ⟨?_, fun finished => ?_, fun unfinished => ⟨next, ?_⟩⟩
    · rw [datagrams, (by omega : parent.remaining =
        (parent.advance payloadBytes).remaining + 1)]
      rfl
    · have last := ends.mp finished
      rw [datagrams, rest, (by omega : parent.payloadCount - (parent.payloadIndex + 1) = 0)]
      rfl
    · have more : parent.payloadIndex + 1 ≠ parent.payloadCount := by
        intro last
        rw [ends.mpr last] at unfinished
        cases unfinished
      omega

/-! ## A parent before its first datagram -/

namespace Built

theorem of_segments (positive : 0 < payloadBytes) (segmentIndex : parent.segmentIndex = 0)
    (segmentOffset : parent.segmentOffset = 0) (payloadOffset : parent.payloadOffset = 0)
    (payloadIndex : parent.payloadIndex = 0)
    (zeroPayloadSent : parent.zeroPayloadSent = false)
    (lengths : ∀ segment ∈ parent.sourceSegments, 0 < segment.length)
    (count : parent.payloadCount = segmentPayloads payloadBytes parent.sourceSegments)
    (length : parent.totalLength = segmentLength parent.sourceSegments)
    (total : parent.totalLength < 2 ^ 32) : parent.Built payloadBytes := by
  have stored : parent.sourceSegments.drop parent.segmentIndex = parent.sourceSegments := by
    rw [segmentIndex, List.drop_zero]
  obtain ⟨lengthSame, payloadSame, lengthsSame⟩ := segment_totals_congr payloadBytes
    (remainingSegments_of_boundary stored segmentOffset).1
  refine ⟨⟨positive, lengthsSame lengths, ?_, ?_⟩, segmentIndex, segmentOffset, payloadOffset,
    payloadIndex, zeroPayloadSent, total⟩
  · rw [payloadIndex, payloadSame, count, Nat.zero_add]
  · rw [payloadOffset, lengthSame, length, Nat.zero_add]

variable (built : parent.Built payloadBytes)

include built

theorem pending : parent.Pending payloadBytes := by
  refine ⟨built.valid, ?_⟩
  rw [PendingSend.remaining, built.payloadIndex, built.zeroPayloadSent]
  split
  · exact Nat.one_pos
  · rename_i nonzero
    have offset := built.valid.offset
    have index := built.valid.index
    rw [built.payloadOffset] at offset
    rw [built.payloadIndex] at index
    cases segments : parent.remainingSegments with
    | nil =>
        rw [segments] at offset
        exact absurd offset.symm (by simpa [segmentLength] using nonzero)
    | cons segment tail =>
        have length := built.valid.lengths segment (by rw [segments]; exact List.mem_cons_self)
        rw [segments, segmentPayloads_cons, ceiling_step built.valid.positive length] at index
        rw [← index, Nat.zero_add, Nat.add_right_comm]
        exact Nat.succ_pos _

theorem payloadCount_le : parent.payloadCount ≤ parent.totalLength := by
  have index := built.valid.index
  have offset := built.valid.offset
  have le := segmentPayloads_le built.valid.positive parent.remainingSegments
  rw [built.payloadIndex] at index
  rw [built.payloadOffset] at offset
  omega

theorem payloadCount_ne_zero (nonzero : parent.totalLength ≠ 0) : parent.payloadCount ≠ 0 := by
  have remaining := built.pending.remaining
  rw [PendingSend.remaining, if_neg nonzero] at remaining
  omega

/-- The datagrams of a nonempty parent count from zero, cover its length, and read
the segments of the WR in order. -/
theorem split (nonzero : parent.totalLength ≠ 0) :
    (parent.datagrams payloadBytes).length = parent.payloadCount ∧
      Consecutive 0 0 (parent.datagrams payloadBytes) ∧
      payloadLengths (parent.datagrams payloadBytes) = parent.totalLength ∧
      sourceBytes (parent.datagrams payloadBytes) = segmentBytes parent.sourceSegments := by
  have remaining : parent.remaining = parent.payloadCount := by
    rw [PendingSend.remaining, if_neg nonzero, built.payloadIndex, Nat.sub_zero]
  obtain ⟨consecutive, covered, sources⟩ :=
    datagramsFrom_spec parent.payloadCount built.valid nonzero
      (by rw [built.payloadIndex, Nat.zero_add])
  rw [built.payloadIndex, built.payloadOffset] at consecutive
  rw [built.payloadOffset, Nat.zero_add] at covered
  have stored : parent.sourceSegments.drop parent.segmentIndex = parent.sourceSegments := by
    rw [built.segmentIndex, List.drop_zero]
  rw [(remainingSegments_of_boundary stored built.segmentOffset).2] at sources
  rw [datagrams, remaining]
  exact ⟨datagramsFrom_length _ _ _, consecutive, covered, sources⟩

/-- An empty parent sends one datagram without payload. -/
theorem split_zero (zero : parent.totalLength = 0) :
    parent.datagrams payloadBytes = [parent.datagram payloadBytes] ∧
      parent.payloadCount = 0 ∧
      (parent.datagram payloadBytes).payloadIndex = 0 ∧
      (parent.datagram payloadBytes).payloadOffset = 0 ∧
      (parent.datagram payloadBytes).payloadLength = 0 := by
  have count : parent.payloadCount = 0 := by
    have le := built.payloadCount_le
    omega
  have remaining : parent.remaining = 1 := by
    rw [PendingSend.remaining, if_pos zero, built.zeroPayloadSent]
    rfl
  refine ⟨by rw [datagrams, remaining]; rfl, count, ?_⟩
  simp only [datagram, if_pos zero, and_self]

end Built

end PendingSend

/-! ## Building a parent -/

section Gather

variable {resolve : SharedSge → Except Errno Nat} {payloadBytes : Nat}

/-- The segment that an entry of a WQE resolves to. -/
def ResolvesTo (resolve : SharedSge → Except Errno Nat) (sge : SharedSge)
    (segment : SourceSegment) : Prop :=
  resolve sge = .ok segment.daemonAddress ∧ segment.length = sge.length

theorem exists_mem_of_forall₂ {α β : Type} {relation : α → β → Prop} {left : List α}
    {right : List β} (related : List.Forall₂ relation left right) :
    ∀ second ∈ right, ∃ first ∈ left, relation first second := by
  induction related with
  | nil => exact nofun
  | cons head _ induction =>
      refine List.forall_mem_cons.mpr ⟨⟨_, List.mem_cons_self, head⟩, fun second member => ?_⟩
      obtain ⟨first, inside, tail⟩ := induction second member
      exact ⟨first, List.mem_cons_of_mem _ inside, tail⟩

theorem gather_spec (rejects : ∀ sge address, resolve sge = .ok address → sge.length ≠ 0)
    {start gathered : Gathered} {sges : List SharedSge}
    (fits : ∀ sge ∈ sges, sge.length < 2 ^ 32) (bounded : start.totalLength < 2 ^ 32)
    (collected : gather resolve payloadBytes start sges = .ok gathered) :
    ∃ segments,
      List.Forall₂ (ResolvesTo resolve) sges segments ∧
      (∀ segment ∈ segments, 0 < segment.length) ∧
      gathered.segments = start.segments ++ segments ∧
      gathered.totalLength = start.totalLength + segmentLength segments ∧
      gathered.payloadCount = start.payloadCount + segmentPayloads payloadBytes segments ∧
      gathered.totalLength < 2 ^ 32 := by
  induction sges generalizing start with
  | nil =>
      injection collected with same
      subst same
      exact ⟨[], .nil, nofun, (List.append_nil _).symm, rfl, rfl, bounded⟩
  | cons sge sges induction =>
      rw [gather] at collected
      split at collected
      · cases collected
      · rename_i room
        split at collected
        · cases collected
        · rename_i address resolved
          have nonzero := rejects sge address resolved
          have fit := fits sge List.mem_cons_self
          obtain ⟨segments, matched, lengths, segmentsEq, lengthEq, countEq, total⟩ :=
            induction (fun other member => fits other (List.mem_cons_of_mem _ member))
              (show start.totalLength + sge.length < 2 ^ 32 by omega) collected
          refine ⟨⟨address, sge.length⟩ :: segments, .cons ⟨resolved, rfl⟩ matched,
            List.forall_mem_cons.mpr ⟨Nat.pos_of_ne_zero nonzero, lengths⟩, ?_, ?_, ?_, total⟩
          · rw [segmentsEq, Gathered.add]
            simp [nonzero]
          · rw [lengthEq, Gathered.add, PendingSend.segmentLength_cons, Nat.add_assoc]
          · rw [countEq, Gathered.add, PendingSend.segmentPayloads_cons]
            simp [nonzero, Nat.add_assoc]

end Gather

/-- Keys resolve nonempty ranges only. -/
theorem resolveKey_length_ne_zero {service : QpService} {session pd key address length : Nat}
    {remote : Bool} {target : Nat}
    (resolved : service.resolveKey session pd key address length remote = .ok target) :
    length ≠ 0 := by
  intro zero
  simp [QpService.resolveKey, zero] at resolved

/-- A WQE that passes the checks of `try_send` gives a parent whose segments are its
resolved entries. -/
theorem inspectSend_spec {service : QpService} {view : WorkerQpView} {payloadBytes : Nat}
    {wqe : SendWqe} {gathered : Gathered} (positive : 0 < payloadBytes)
    (inspected : inspectSend service view payloadBytes wqe = .ok gathered) (requestId : Nat) :
    (pendingSendOf view requestId wqe gathered).Built payloadBytes ∧
      List.Forall₂
        (ResolvesTo fun sge => service.resolveLkey view.sessionId view.pdIdentity sge.lkey
          sge.address sge.length)
        wqe.sgeList (pendingSendOf view requestId wqe gathered).sourceSegments := by
  unfold inspectSend at inspected
  split at inspected
  · cases inspected
  · split at inspected
    · cases inspected
    · split at inspected
      · cases inspected
      · rename_i collected
        split at inspected
        · cases inspected
        · injection inspected with same
          subst same
          obtain ⟨segments, matched, lengths, segmentsEq, lengthEq, countEq, total⟩ :=
            gather_spec (fun sge address => resolveKey_length_ne_zero)
              (fun sge member => by
                obtain ⟨index, -, rfl⟩ := List.mem_map.mp member
                exact wqe.length_lt index)
              (by decide) collected
          rw [List.nil_append] at segmentsEq
          rw [Nat.zero_add] at lengthEq countEq
          subst segmentsEq
          exact ⟨.of_segments positive rfl rfl rfl rfl rfl lengths countEq lengthEq total,
            matched⟩

end Ugdr.Worker
