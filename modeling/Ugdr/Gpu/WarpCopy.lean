import Mathlib.Data.LawfulXor.Basic
import Ugdr.Foundation.Lanes
import Ugdr.Foundation.Machine

/-! # Warp copy

What the lanes of a warp do to copy bytes: single bytes and short words up to a common
alignment, then words of one width spread over the lanes, then the rest. The functions return
the accesses of one lane in order, or nothing when a loop has not ended in as many rounds as
`fuel` says.
-/

namespace Ugdr.Gpu.WarpCopy

open Lanes Machine

/-! ## Accesses -/

/-- `copy_cg_16`, with the four words as one number. -/
def copyCg16 (source target : Nat) : Access :=
  ⟨source, target, 16⟩

/-- `copy_cg_narrow`: `copy_cg_8`, `copy_cg_4`, `copy_cg_2` or `copy_cg_1`. -/
def copyCgNarrow (source target width : Nat) : Access :=
  match width with
  | 8 => ⟨source, target, 8⟩
  | 4 => ⟨source, target, 4⟩
  | 2 => ⟨source, target, 2⟩
  | _ => ⟨source, target, 1⟩

def largestSafeNarrowWidth (source target remaining : Nat) : Nat :=
  ([8, 4, 2, 1].find? fun width =>
    width ≤ remaining ∧ (source ||| target) &&& (width - 1) = 0).getD 1

def copyCgNarrowSerial : Nat → Nat → Nat → Nat → Option (List Access)
  | 0, _, _, bytes => if bytes = 0 then some [] else none
  | fuel + 1, source, target, bytes =>
      if bytes = 0 then
        some []
      else
        let width := largestSafeNarrowWidth source target bytes
        (copyCgNarrowSerial fuel (wrapAdd 64 source width) (wrapAdd 64 target width)
          (wrapSub 32 bytes width)).map (copyCgNarrow source target width :: ·)

def commonBulkWidth (source target : Nat) : Nat :=
  let differentBits := source ^^^ target
  if differentBits &&& 15 = 0 then 16
  else if differentBits &&& 7 = 0 then 8
  else if differentBits &&& 3 = 0 then 4
  else if differentBits &&& 1 = 0 then 2
  else 1

/-- The loop over units of `width` bytes, from `unit` on. -/
def unitLoop (copy : Nat → Nat → Access) (width source target unitCount : Nat) :
    Nat → Nat → Option (List Access)
  | 0, unit => if unit < unitCount then none else some []
  | fuel + 1, unit =>
      if unit < unitCount then
        let offset := unit * width % 2 ^ 32
        (unitLoop copy width source target unitCount fuel (wrapAdd 32 unit 32)).map
          (copy (wrapAdd 64 source offset) (wrapAdd 64 target offset) :: ·)
      else
        some []

def copyCgNarrowBulkWarp (width fuel source target unitCount lane : Nat) :
    Option (List Access) :=
  unitLoop (copyCgNarrow · · width) width source target unitCount fuel lane

def copyCg16WarpAligned (fuel source target length lane : Nat) : Option (List Access) :=
  unitLoop copyCg16 16 source target (length / 16) fuel lane

/-- The bytes up to the next multiple of `width`. -/
def alignmentPrefix (source length width : Nat) : Nat :=
  let misalignment := source &&& (width - 1)
  let ahead := (wrapSub 64 width misalignment &&& (width - 1)) % 2 ^ 32
  if length < ahead then length else ahead

/-- The `switch` over the width of a unit. -/
def bulkWarp (width fuel source target unitCount lane : Nat) : Option (List Access) :=
  match width with
  | 16 => unitLoop copyCg16 16 source target unitCount fuel lane
  | 8 => copyCgNarrowBulkWarp 8 fuel source target unitCount lane
  | 4 => copyCgNarrowBulkWarp 4 fuel source target unitCount lane
  | 2 => copyCgNarrowBulkWarp 2 fuel source target unitCount lane
  | _ => copyCgNarrowBulkWarp 1 fuel source target unitCount lane

/-- The first lane does what is not in units. -/
def firstLaneSerial (fuel source target bytes lane : Nat) : Option (List Access) :=
  if lane = 0 ∧ bytes ≠ 0 then copyCgNarrowSerial fuel source target bytes else some []

def copyCgWarpGeneric (fuel source target length lane : Nat) : Option (List Access) := do
  let width := commonBulkWidth source target
  let ahead := alignmentPrefix source length width
  let head ← firstLaneSerial fuel source target ahead lane
  let source := wrapAdd 64 source ahead
  let target := wrapAdd 64 target ahead
  let remaining := wrapSub 32 length ahead
  let unitCount := remaining / width
  let body ← bulkWarp width fuel source target unitCount lane
  let bodyBytes := unitCount * width % 2 ^ 32
  let rest := wrapSub 32 remaining bodyBytes
  let tail ←
    firstLaneSerial fuel (wrapAdd 64 source bodyBytes) (wrapAdd 64 target bodyBytes) rest lane
  return head ++ (body ++ tail)

def copyCgWarp (fuel source target length lane : Nat) : Option (List Access) :=
  if (source ||| target ||| length) &&& 15 = 0 then
    copyCg16WarpAligned fuel source target length lane
  else
    copyCgWarpGeneric fuel source target length lane

structure CopyAccessCounts where
  copiedBytes : Nat
  vector128Bytes : Nat
  narrowBytes : Nat
  deriving DecidableEq, Repr

/-- The accesses of a lane, and the counts if it is the one that reports them. -/
def copyCgWarpCounted (fuel source target length lane : Nat) :
    Option (List Access × Option CopyAccessCounts) := do
  let width := commonBulkWidth source target
  let ahead := alignmentPrefix source length width
  let accesses ← copyCgWarp fuel source target length lane
  if lane = 0 then
    let vectorBytes := if width = 16 then wrapSub 32 length ahead / 16 * 16 % 2 ^ 32 else 0
    return (accesses,
      some
        { copiedBytes := length
          vector128Bytes := vectorBytes
          narrowBytes := wrapSub 64 length vectorBytes })
  else
    return (accesses, none)

/-! ## Widths -/

theorem and_width (value : Nat) {width : Nat} (known : width ∈ [1, 2, 4, 8, 16]) :
    value &&& (width - 1) = value % width := by
  simp only [List.mem_cons, List.not_mem_nil, or_false] at known
  rcases known with rfl | rfl | rfl | rfl | rfl
  · exact Nat.and_two_pow_sub_one_eq_mod value 0
  · exact Nat.and_two_pow_sub_one_eq_mod value 1
  · exact Nat.and_two_pow_sub_one_eq_mod value 2
  · exact Nat.and_two_pow_sub_one_eq_mod value 3
  · exact Nat.and_two_pow_sub_one_eq_mod value 4

theorem or_mod_eq_zero {left right width : Nat} (known : width ∈ [1, 2, 4, 8, 16]) :
    (left ||| right) % width = 0 ↔ width ∣ left ∧ width ∣ right := by
  have split : ∀ power, (left ||| right) % 2 ^ power = 0 ↔
      2 ^ power ∣ left ∧ 2 ^ power ∣ right := by
    intro power
    rw [Nat.or_mod_two_pow, Nat.or_eq_zero_iff, Nat.dvd_iff_mod_eq_zero, Nat.dvd_iff_mod_eq_zero]
  simp only [List.mem_cons, List.not_mem_nil, or_false] at known
  rcases known with rfl | rfl | rfl | rfl | rfl
  · exact split 0
  · exact split 1
  · exact split 2
  · exact split 3
  · exact split 4

theorem xor_mod_eq_zero {left right width : Nat} (known : width ∈ [1, 2, 4, 8, 16]) :
    (left ^^^ right) % width = 0 ↔ left % width = right % width := by
  have split : ∀ power, (left ^^^ right) % 2 ^ power = 0 ↔
      left % 2 ^ power = right % 2 ^ power := by
    intro power
    rw [Nat.xor_mod_two_pow, xor_eq_zero_iff]
  simp only [List.mem_cons, List.not_mem_nil, or_false] at known
  rcases known with rfl | rfl | rfl | rfl | rfl
  · exact split 0
  · exact split 1
  · exact split 2
  · exact split 3
  · exact split 4

theorem copyCgNarrow_eq (source target : Nat) {width : Nat} (narrow : width ∈ [8, 4, 2, 1]) :
    copyCgNarrow source target width = ⟨source, target, width⟩ := by
  simp only [List.mem_cons, List.not_mem_nil, or_false] at narrow
  rcases narrow with rfl | rfl | rfl | rfl <;> rfl

/-- The width is one of four, fits into what remains, and divides both addresses. -/
theorem largestSafeNarrowWidth_spec {source target remaining : Nat} (some : remaining ≠ 0) :
    largestSafeNarrowWidth source target remaining ∈ [8, 4, 2, 1] ∧
      largestSafeNarrowWidth source target remaining ≤ remaining ∧
      largestSafeNarrowWidth source target remaining ∣ source ∧
      largestSafeNarrowWidth source target remaining ∣ target := by
  unfold largestSafeNarrowWidth
  cases found : [8, 4, 2, 1].find? fun width =>
      decide (width ≤ remaining ∧ (source ||| target) &&& (width - 1) = 0) with
  | none =>
      have last := List.find?_eq_none.mp found 1 (by decide)
      simp at last
      omega
  | some width =>
      have member := List.mem_of_find?_eq_some found
      have safe := List.find?_some found
      simp only [decide_eq_true_eq] at safe
      have known : width ∈ [1, 2, 4, 8, 16] := by
        simp only [List.mem_cons, List.not_mem_nil, or_false] at member ⊢
        omega
      rw [and_width _ known, or_mod_eq_zero known] at safe
      exact ⟨member, safe.1, safe.2⟩

theorem commonBulkWidth_mem (source target : Nat) :
    commonBulkWidth source target ∈ [1, 2, 4, 8, 16] := by
  unfold commonBulkWidth
  dsimp only
  split_ifs <;> decide

/-- The addresses differ by a multiple of the width. -/
theorem commonBulkWidth_spec (source target : Nat) :
    source % commonBulkWidth source target = target % commonBulkWidth source target := by
  rw [← xor_mod_eq_zero (commonBulkWidth_mem source target),
    ← and_width _ (commonBulkWidth_mem source target)]
  unfold commonBulkWidth
  dsimp only
  split_ifs with sixteen eight four two
  · exact sixteen
  · exact eight
  · exact four
  · exact two
  · exact Nat.and_zero _

end Ugdr.Gpu.WarpCopy
