import Mathlib.Algebra.Order.BigOperators.Group.Finset
import Mathlib.Data.Fintype.BigOperators
import Ugdr.Gpu.WarpCopy

/-! # A warp copies exactly

The head, the units of all lanes and the tail lie side by side, so every byte is moved by one
access, and it does not matter in which order the lanes run.
-/

namespace Ugdr.Gpu.WarpCopy

open Lanes Machine

/-! ## The serial loop -/

/-- Narrow accesses side by side. -/
def Tiles : Nat → Nat → Nat → List Access → Prop
  | _, _, bytes, [] => bytes = 0
  | source, target, bytes, access :: accesses =>
      access.source = source ∧ access.target = target ∧ access.width ∈ [8, 4, 2, 1] ∧
        access.width ≤ bytes ∧ access.Aligned ∧
        Tiles (source + access.width) (target + access.width) (bytes - access.width) accesses

namespace Tiles

variable {source target bytes : Nat} {accesses : List Access}

theorem within {base onto offset length : Nat}
    (tiles : Tiles (base + offset) (onto + offset) bytes accesses)
    (inside : offset + bytes ≤ length) :
    ∀ access ∈ accesses, access.Within base onto length := by
  induction accesses generalizing offset bytes with
  | nil => exact List.forall_mem_nil _
  | cons first accesses induction =>
      obtain ⟨from_, to_, -, fits, -, rest⟩ := tiles
      rw [Nat.add_assoc, Nat.add_assoc] at rest
      intro access member
      rcases List.mem_cons.mp member with rfl | member
      · exact ⟨offset, from_, to_, by omega⟩
      · exact induction rest (by omega) access member

theorem narrow (tiles : Tiles source target bytes accesses) :
    ∀ access ∈ accesses, access.width ∈ [8, 4, 2, 1] ∧ access.Aligned := by
  induction accesses generalizing source target bytes with
  | nil => exact List.forall_mem_nil _
  | cons first accesses induction =>
      obtain ⟨-, -, known, -, aligned, rest⟩ := tiles
      intro access member
      rcases List.mem_cons.mp member with rfl | member
      · exact ⟨known, aligned⟩
      · exact induction rest access member

/-- Every byte of the range is covered once. -/
theorem countP_covers (tiles : Tiles source target bytes accesses) (position : Nat) :
    accesses.countP (fun access => access.Covers position) =
      if target ≤ position ∧ position < target + bytes then 1 else 0 := by
  induction accesses generalizing source target bytes with
  | nil =>
      have empty : bytes = 0 := tiles
      rw [List.countP_nil, if_neg (by omega)]
  | cons first accesses induction =>
      obtain ⟨-, to_, -, fits, -, rest⟩ := tiles
      rw [List.countP_cons, induction rest]
      simp only [Access.Covers, to_, decide_eq_true_eq]
      split_ifs <;> omega

end Tiles

/-- The serial loop ends after at most as many rounds as there are bytes. -/
theorem copyCgNarrowSerial_spec {source target bytes : Nat} (short : bytes < 2 ^ 32)
    (sourceInside : source + bytes ≤ 2 ^ 64) (targetInside : target + bytes ≤ 2 ^ 64) :
    ∃ accesses, (∀ fuel, bytes ≤ fuel →
        copyCgNarrowSerial fuel source target bytes = some accesses) ∧
      Tiles source target bytes accesses := by
  induction bytes using Nat.strong_induction_on generalizing source target with
  | _ bytes induction =>
      by_cases empty : bytes = 0
      · refine ⟨[], fun fuel _ => ?_, empty⟩
        cases fuel <;> exact if_pos empty
      · obtain ⟨known, fits, dividesSource, dividesTarget⟩ :=
          @largestSafeNarrowWidth_spec source target bytes empty
        generalize chosen : largestSafeNarrowWidth source target bytes = width at *
        have positive : width ≠ 0 := by
          rintro rfl
          revert known
          decide
        have round : ∀ fuel, copyCgNarrowSerial (fuel + 1) source target bytes =
            (copyCgNarrowSerial fuel (wrapAdd 64 source width) (wrapAdd 64 target width)
              (bytes - width)).map ((⟨source, target, width⟩ : Access) :: ·) := by
          intro fuel
          rw [copyCgNarrowSerial, if_neg empty]
          simp only [chosen]
          rw [wrapSub_of_le fits short, copyCgNarrow_eq source target known]
        by_cases last : bytes = width
        · refine ⟨[⟨source, target, width⟩], fun fuel enough => ?_, rfl, rfl, known, fits,
            ⟨dividesSource, dividesTarget⟩, ?_⟩
          · obtain ⟨fuel, rfl⟩ := Nat.exists_eq_succ_of_ne_zero (by omega : fuel ≠ 0)
            have done : ∀ left right, copyCgNarrowSerial fuel left right (bytes - width) =
                some [] := by
              intro left right
              rw [last, Nat.sub_self]
              cases fuel <;> rfl
            rw [round, done]
            rfl
          · exact Nat.sub_eq_zero_of_le (Nat.le_of_eq last)
        · obtain ⟨accesses, ends, tiles⟩ := @induction (bytes - width) (by omega)
            (source + width) (target + width) (by omega) (by omega) (by omega)
          refine ⟨⟨source, target, width⟩ :: accesses, fun fuel enough => ?_, rfl, rfl, known,
            fits, ⟨dividesSource, dividesTarget⟩, tiles⟩
          obtain ⟨fuel, rfl⟩ := Nat.exists_eq_succ_of_ne_zero (by omega : fuel ≠ 0)
          rw [round, wrapAdd_of_lt (by omega), wrapAdd_of_lt (by omega), ends fuel (by omega)]
          rfl

/-! ## The loop over units -/

/-- The loop of a lane visits the units of its residue class, once each. -/
theorem unitLoop_spec (copy : Nat → Nat → Access) {width source target unitCount unit : Nat}
    (short : unitCount * width < 2 ^ 32) (few : unitCount ≤ 2 ^ 31)
    (sourceInside : source + unitCount * width ≤ 2 ^ 64)
    (targetInside : target + unitCount * width ≤ 2 ^ 64) (positive : width ≠ 0) :
    ∃ units : List Nat,
      (∀ fuel, unitCount - unit ≤ fuel →
        unitLoop copy width source target unitCount fuel unit =
          some (units.map fun index => copy (source + index * width) (target + index * width))) ∧
      units.Nodup ∧
      ∀ index, index ∈ units ↔ unit ≤ index ∧ index < unitCount ∧ index % 32 = unit % 32 := by
  induction left : unitCount - unit using Nat.strong_induction_on generalizing unit with
  | _ left induction =>
      by_cases below : unit < unitCount
      · obtain ⟨units, ends, nodup, visits⟩ :=
          @induction (unitCount - (unit + 32)) (by omega) (unit + 32) rfl
        have room : unit * width + width ≤ unitCount * width := by
          rw [← Nat.succ_mul]
          exact Nat.mul_le_mul_right width below
        refine ⟨unit :: units, fun fuel enough => ?_, ?_, fun index => ?_⟩
        · obtain ⟨fuel, rfl⟩ := Nat.exists_eq_succ_of_ne_zero (by omega : fuel ≠ 0)
          have offset : unit * width % 2 ^ 32 = unit * width := Nat.mod_eq_of_lt (by omega)
          have load : wrapAdd 64 source (unit * width) = source + unit * width :=
            wrapAdd_of_lt (by omega)
          have store : wrapAdd 64 target (unit * width) = target + unit * width :=
            wrapAdd_of_lt (by omega)
          have next : wrapAdd 32 unit 32 = unit + 32 := wrapAdd_of_lt (by omega)
          rw [unitLoop, if_pos below]
          simp only [offset, load, store, next, ends fuel (by omega)]
          rfl
        · rw [List.nodup_cons, visits]
          exact ⟨by omega, nodup⟩
        · rw [List.mem_cons, visits]
          omega
      · refine ⟨[], fun fuel _ => ?_, List.nodup_nil, fun index => ?_⟩
        · cases fuel <;> exact if_neg below
        · exact iff_of_false List.not_mem_nil (by omega)

/-- The units of a body, each in the list of its lane. -/
structure Spread (unitCount : Nat) (units : Fin 32 → List Nat) : Prop where
  nodup : ∀ lane, (units lane).Nodup
  visits : ∀ lane index, index ∈ units lane ↔ index < unitCount ∧ index % 32 = lane

namespace Spread

variable {unitCount : Nat} {units : Fin 32 → List Nat} (spread : Spread unitCount units)

include spread

theorem count (index : Nat) :
    ∑ lane, (units lane).count index = if index < unitCount then 1 else 0 := by
  have single : ∀ lane : Fin 32, (units lane).count index =
      if (⟨index % 32, Nat.mod_lt _ (by decide)⟩ : Fin 32) = lane then
        (if index < unitCount then 1 else 0)
      else 0 := by
    intro lane
    have own : (⟨index % 32, Nat.mod_lt _ (by decide)⟩ : Fin 32) = lane ↔ index % 32 = lane :=
      Fin.ext_iff
    by_cases member : index ∈ units lane
    · rw [List.count_eq_one_of_mem (spread.nodup lane) member]
      obtain ⟨below, class_⟩ := (spread.visits lane index).mp member
      rw [if_pos (own.mpr class_), if_pos below]
    · rw [List.count_eq_zero_of_not_mem member]
      rw [spread.visits, not_and] at member
      split_ifs with same below
      · exact absurd (own.mp same) (member below)
      · rfl
      · rfl
  rw [Finset.sum_congr rfl fun lane _ => single lane, Finset.sum_ite_eq,
    if_pos (Finset.mem_univ _)]

/-- Every byte of the body is covered once. -/
theorem countP_covers {width : Nat} (positive : 0 < width) (source target position : Nat) :
    ∑ lane, ((units lane).map fun index =>
        (⟨source + index * width, target + index * width, width⟩ : Access)).countP
          (fun access => access.Covers position) =
      if target ≤ position ∧ position < target + unitCount * width then 1 else 0 := by
  have covers : ∀ index, (target + index * width ≤ position ∧
      position < target + index * width + width) ↔
        target ≤ position ∧ index = (position - target) / width := by
    intro index
    rw [eq_comm, Nat.div_eq_iff positive]
    constructor
    · rintro ⟨first, last⟩
      exact ⟨by omega, by omega, by omega⟩
    · rintro ⟨above, first, last⟩
      exact ⟨by omega, by omega⟩
  simp only [List.countP_map, Function.comp_def, Access.Covers, covers]
  by_cases above : target ≤ position
  · simp only [above, true_and]
    have counts : ∀ lane, (units lane).countP
        (fun index => decide (index = (position - target) / width)) =
          (units lane).count ((position - target) / width) := fun lane =>
      List.countP_congr fun index _ => by simp
    rw [Finset.sum_congr rfl fun lane _ => counts lane, spread.count]
    congr 1
    rw [Nat.div_lt_iff_lt_mul positive]
    exact propext ⟨by omega, by omega⟩
  · simp only [above, false_and, decide_false, if_false]
    rw [Finset.sum_eq_zero]
    intro lane _
    exact List.countP_eq_zero.mpr fun _ _ => Bool.false_ne_true

theorem sum_length : ∑ lane, (units lane).length = unitCount := by
  have fibers : ∀ lane : Fin 32, (units lane).length =
      ((Finset.range unitCount).filter fun index =>
        (⟨index % 32, Nat.mod_lt _ (by decide)⟩ : Fin 32) = lane).card := by
    intro lane
    rw [← List.toFinset_card_of_nodup (spread.nodup lane)]
    congr 1
    ext index
    rw [List.mem_toFinset, spread.visits, Finset.mem_filter, Finset.mem_range, Fin.ext_iff]
  rw [Finset.sum_congr rfl fun lane _ => fibers lane,
    ← Finset.card_eq_sum_card_fiberwise (fun _ _ => Finset.mem_univ _), Finset.card_range]

end Spread

/-! ## The parts of a copy -/

theorem alignmentPrefix_eq (source length : Nat) {width : Nat} (known : width ∈ [1, 2, 4, 8, 16]) :
    alignmentPrefix source length width =
      if length < (width - source % width) % width then length
      else (width - source % width) % width := by
  have small : 0 < width ∧ width ≤ 16 := by
    simp only [List.mem_cons, List.not_mem_nil, or_false] at known
    omega
  have below := Nat.mod_lt source small.1
  have ahead := Nat.mod_lt (width - source % width) small.1
  unfold alignmentPrefix
  dsimp only
  rw [and_width source known, wrapSub_of_le (by omega) (by omega), and_width _ known,
    Nat.mod_eq_of_lt (show (width - source % width) % width < 2 ^ 32 by omega)]

theorem alignmentPrefix_le (source length : Nat) {width : Nat}
    (known : width ∈ [1, 2, 4, 8, 16]) : alignmentPrefix source length width ≤ length := by
  rw [alignmentPrefix_eq source length known]
  split_ifs <;> omega

/-- Behind the prefix both addresses are aligned, if anything is left. -/
theorem alignmentPrefix_aligned {source target length width : Nat}
    (known : width ∈ [1, 2, 4, 8, 16]) (same : source % width = target % width)
    (left : alignmentPrefix source length width < length) :
    width ∣ source + alignmentPrefix source length width ∧
      width ∣ target + alignmentPrefix source length width := by
  rw [alignmentPrefix_eq source length known] at left ⊢
  split_ifs at left ⊢
  · omega
  · simp only [List.mem_cons, List.not_mem_nil, or_false] at known
    rcases known with rfl | rfl | rfl | rfl | rfl <;> omega

theorem bulkWarp_eq {width : Nat} (known : width ∈ [1, 2, 4, 8, 16])
    (fuel source target unitCount lane : Nat) :
    bulkWarp width fuel source target unitCount lane =
      unitLoop (fun source target => ⟨source, target, width⟩) width source target unitCount fuel
        lane := by
  simp only [List.mem_cons, List.not_mem_nil, or_false] at known
  rcases known with rfl | rfl | rfl | rfl | rfl <;> rfl

theorem Tiles.eq_nil {source target : Nat} {accesses : List Access}
    (tiles : Tiles source target 0 accesses) : accesses = [] := by
  cases accesses with
  | nil => rfl
  | cons access accesses =>
      obtain ⟨-, -, known, fits, -⟩ := tiles
      simp only [List.mem_cons, List.not_mem_nil, or_false] at known
      omega

/-- The accesses of a lane: the first one also does the head and the tail. -/
def laneAccesses (source target width : Nat) (head tail : List Access)
    (units : Fin 32 → List Nat) (lane : Fin 32) : List Access :=
  (if lane = 0 then head else []) ++
    ((units lane).map (fun index => ⟨source + index * width, target + index * width, width⟩) ++
      if lane = 0 then tail else [])

theorem firstLaneSerial_eq {fuel source target bytes : Nat} {accesses : List Access}
    (ends : copyCgNarrowSerial fuel source target bytes = some accesses)
    (tiles : Tiles source target bytes accesses) (lane : Fin 32) :
    firstLaneSerial fuel source target bytes lane =
      some (if lane = 0 then accesses else []) := by
  have first : (lane : Nat) = 0 ↔ lane = 0 := (Fin.ext_iff (a := lane) (b := 0)).symm
  unfold firstLaneSerial
  simp only [first]
  by_cases own : lane = 0
  · by_cases empty : bytes = 0
    · subst empty
      rw [if_neg (by simp), if_pos own, tiles.eq_nil]
    · rw [if_pos ⟨own, empty⟩, if_pos own, ends]
  · rw [if_neg (fun both => own both.1), if_neg own]

theorem sum_first (accesses : List Access) (chosen : Access → Bool) :
    ∑ lane : Fin 32, (if lane = 0 then accesses else []).countP chosen =
      accesses.countP chosen := by
  rw [Finset.sum_eq_single 0]
  · rw [if_pos rfl]
  · intro lane _ other
    rw [if_neg other, List.countP_nil]
  · exact fun absent => absurd (Finset.mem_univ _) absent

theorem sum_laneAccesses (source target width : Nat) (head tail : List Access)
    (units : Fin 32 → List Nat) (chosen : Access → Bool) :
    ∑ lane, (laneAccesses source target width head tail units lane).countP chosen =
      head.countP chosen +
        (∑ lane, ((units lane).map fun index =>
          (⟨source + index * width, target + index * width, width⟩ : Access)).countP chosen +
        tail.countP chosen) := by
  simp only [laneAccesses, List.countP_append, Finset.sum_add_distrib, sum_first]

/-- A head, units behind it that are spread over the lanes, and a tail behind these. -/
structure Layout (source target length width ahead : Nat) (head tail : List Access)
    (units : Fin 32 → List Nat) : Prop where
  known : width ∈ [1, 2, 4, 8, 16]
  bound : ahead ≤ length
  aligned : ahead < length → width ∣ source + ahead ∧ width ∣ target + ahead
  heads : Tiles source target ahead head
  spread : Spread ((length - ahead) / width) units
  tails : Tiles (source + ahead + (length - ahead) / width * width)
    (target + ahead + (length - ahead) / width * width)
    (length - ahead - (length - ahead) / width * width) tail

theorem mem_laneAccesses {source target width : Nat} {head tail : List Access}
    {units : Fin 32 → List Nat} {lane : Fin 32} {access : Access}
    (member : access ∈ laneAccesses source target width head tail units lane) :
    access ∈ head ∨
      (∃ index ∈ units lane,
        access = ⟨source + index * width, target + index * width, width⟩) ∨ access ∈ tail := by
  simp only [laneAccesses, List.mem_append, List.mem_map] at member
  rcases member with first | ⟨index, member, rfl⟩ | last
  · split_ifs at first
    · exact .inl first
    · cases first
  · exact .inr (.inl ⟨index, member, rfl⟩)
  · split_ifs at last
    · exact .inr (.inr last)
    · cases last

namespace Layout

variable {source target length width ahead : Nat} {head tail : List Access}
  {units : Fin 32 → List Nat} (layout : Layout source target length width ahead head tail units)

include layout

theorem positive : 0 < width := by
  have known := layout.known
  simp only [List.mem_cons, List.not_mem_nil, or_false] at known
  omega

theorem within (lane : Fin 32) :
    ∀ access ∈ laneAccesses (source + ahead) (target + ahead) width head tail units lane,
      access.Within source target length := by
  intro access member
  have bound := layout.bound
  have inside := Nat.div_mul_le_self (length - ahead) width
  rcases mem_laneAccesses member with first | ⟨index, visits, rfl⟩ | last
  · exact @Tiles.within ahead head source target 0 length layout.heads (by omega) access first
  · have below := ((layout.spread.visits lane index).mp visits).1
    have room : index * width + width ≤ (length - ahead) / width * width := by
      rw [← Nat.succ_mul]
      exact Nat.mul_le_mul_right width below
    exact ⟨ahead + index * width, Nat.add_assoc _ _ _, Nat.add_assoc _ _ _, by
      dsimp only
      omega⟩
  · have tails := layout.tails
    rw [Nat.add_assoc, Nat.add_assoc] at tails
    exact tails.within (by omega) access last

theorem access_aligned (lane : Fin 32) :
    ∀ access ∈ laneAccesses (source + ahead) (target + ahead) width head tail units lane,
      access.width ∈ [1, 2, 4, 8, 16] ∧ access.Aligned := by
  intro access member
  have wider : ∀ {narrow : Nat}, narrow ∈ [8, 4, 2, 1] → narrow ∈ [1, 2, 4, 8, 16] := by
    intro narrow known
    simp only [List.mem_cons, List.not_mem_nil, or_false] at known ⊢
    omega
  rcases mem_laneAccesses member with first | ⟨index, visits, rfl⟩ | last
  · obtain ⟨known, aligned⟩ := layout.heads.narrow access first
    exact ⟨wider known, aligned⟩
  · have below := ((layout.spread.visits lane index).mp visits).1
    have left : ahead < length := by
      by_contra none
      have empty : length - ahead = 0 := by omega
      rw [empty, Nat.zero_div] at below
      exact absurd below (Nat.not_lt_zero index)
    obtain ⟨loads, stores⟩ := layout.aligned left
    exact ⟨layout.known, Nat.dvd_add loads (Nat.dvd_mul_left width index),
      Nat.dvd_add stores (Nat.dvd_mul_left width index)⟩
  · obtain ⟨known, aligned⟩ := layout.tails.narrow access last
    exact ⟨wider known, aligned⟩

/-- The three parts cover every byte of the range once. -/
theorem countP_covers (position : Nat) :
    ∑ lane, (laneAccesses (source + ahead) (target + ahead) width head tail units lane).countP
        (fun access => access.Covers position) =
      if target ≤ position ∧ position < target + length then 1 else 0 := by
  have bound := layout.bound
  have inside := Nat.div_mul_le_self (length - ahead) width
  rw [sum_laneAccesses, layout.heads.countP_covers, layout.spread.countP_covers layout.positive,
    layout.tails.countP_covers]
  generalize (length - ahead) / width * width = body at *
  split_ifs <;> omega

/-- All units are vectors if they are 16 bytes wide, and nothing else is one. -/
theorem countP_vectors :
    ∑ lane, (laneAccesses (source + ahead) (target + ahead) width head tail units lane).countP
        (fun access => access.width = 16) =
      if width = 16 then (length - ahead) / 16 else 0 := by
  have narrow : ∀ {source target bytes : Nat} {accesses : List Access},
      Tiles source target bytes accesses →
        accesses.countP (fun access => access.width = 16) = 0 := by
    intro source target bytes accesses tiles
    rw [List.countP_eq_zero]
    intro access member
    have known := (tiles.narrow access member).1
    simp only [List.mem_cons, List.not_mem_nil, or_false] at known
    simp only [decide_eq_true_eq]
    omega
  rw [sum_laneAccesses, narrow layout.heads, narrow layout.tails]
  simp only [List.countP_map, Function.comp_def, Nat.zero_add, Nat.add_zero]
  split_ifs with vector
  · subst vector
    simp only [decide_true, List.countP_true]
    exact layout.spread.sum_length
  · simp only [vector, decide_false, List.countP_false]
    exact Finset.sum_eq_zero fun _ _ => rfl

end Layout

section Parts

variable {source target length : Nat} (short : length ≤ 2 ^ 31)
  (sourceInside : source + length ≤ 2 ^ 64) (targetInside : target + length ≤ 2 ^ 64)

include short sourceInside targetInside

/-- Behind the head. -/
theorem body_spec {width : Nat} (known : width ∈ [1, 2, 4, 8, 16]) :
    ∃ (units : Fin 32 → List Nat) (tail : List Access),
      (∀ fuel, length ≤ fuel → ∀ lane : Fin 32,
        bulkWarp width fuel source target (length / width) lane =
          some ((units lane).map fun index =>
            ⟨source + index * width, target + index * width, width⟩) ∧
        firstLaneSerial fuel (wrapAdd 64 source (length / width * width))
          (wrapAdd 64 target (length / width * width)) (length - length / width * width) lane =
            some (if lane = 0 then tail else [])) ∧
      Spread (length / width) units ∧
      Tiles (source + length / width * width) (target + length / width * width)
        (length - length / width * width) tail := by
  have positive : 0 < width := by
    simp only [List.mem_cons, List.not_mem_nil, or_false] at known
    omega
  have within := Nat.div_mul_le_self length width
  have few := Nat.div_le_self length width
  have loops := fun lane : Fin 32 =>
    @unitLoop_spec (fun source target => ⟨source, target, width⟩) width source target
      (length / width) lane (by omega) (by omega) (by omega) (by omega) (by omega)
  choose units ends nodup visits using loops
  obtain ⟨tail, last, tiles⟩ := @copyCgNarrowSerial_spec (source + length / width * width)
    (target + length / width * width) (length - length / width * width) (by omega) (by omega)
    (by omega)
  refine ⟨units, tail, fun fuel enough lane => ⟨?_, ?_⟩, ⟨nodup, fun lane index => ?_⟩, tiles⟩
  · rw [bulkWarp_eq known]
    exact ends lane fuel (by omega)
  · by_cases empty : length - length / width * width = 0
    · rw [empty] at tiles ⊢
      rw [tiles.eq_nil, ite_self]
      exact if_neg (by simp)
    · rw [wrapAdd_of_lt (by omega), wrapAdd_of_lt (by omega)]
      exact firstLaneSerial_eq (last fuel (by omega)) tiles lane
  · rw [visits]
    have class_ := lane.isLt
    omega

/-- A copy is a head, units of one width spread over the lanes, and a tail. -/
theorem copyCgWarpGeneric_spec :
    ∃ (head tail : List Access) (units : Fin 32 → List Nat) (width ahead : Nat),
      (width = commonBulkWidth source target ∧ ahead = alignmentPrefix source length width) ∧
      (∀ fuel, length ≤ fuel → ∀ lane : Fin 32,
        copyCgWarpGeneric fuel source target length lane =
          some (laneAccesses (source + ahead) (target + ahead) width head tail units lane)) ∧
      Layout source target length width ahead head tail units := by
  have known := commonBulkWidth_mem source target
  have same := commonBulkWidth_spec source target
  have bound := alignmentPrefix_le source length known
  obtain ⟨head, first, heads⟩ := @copyCgNarrowSerial_spec source target
    (alignmentPrefix source length (commonBulkWidth source target)) (by omega) (by omega)
    (by omega)
  generalize chosen : commonBulkWidth source target = width at *
  generalize headed : alignmentPrefix source length width = ahead at *
  have behind : wrapAdd 64 source ahead + (length - ahead) ≤ 2 ^ 64 ∧
      wrapAdd 64 target ahead + (length - ahead) ≤ 2 ^ 64 := by
    have := Nat.mod_lt (source + ahead) (Nat.two_pow_pos 64)
    have := Nat.mod_lt (target + ahead) (Nat.two_pow_pos 64)
    have := Nat.mod_le (source + ahead) (2 ^ 64)
    have := Nat.mod_le (target + ahead) (2 ^ 64)
    unfold wrapAdd
    omega
  obtain ⟨units, tail, body, spread, tails⟩ := @body_spec (wrapAdd 64 source ahead)
    (wrapAdd 64 target ahead) (length - ahead) (by omega) behind.1 behind.2 width known
  have within := Nat.div_mul_le_self (length - ahead) width
  have ends : ∀ fuel, length ≤ fuel → ∀ lane : Fin 32,
      copyCgWarpGeneric fuel source target length lane =
        some (laneAccesses (wrapAdd 64 source ahead) (wrapAdd 64 target ahead) width head tail
          units lane) := by
    intro fuel enough lane
    obtain ⟨bulk, last⟩ := body fuel (by omega) lane
    have remaining : wrapSub 32 length ahead = length - ahead :=
      wrapSub_of_le bound (by omega)
    have bodyBytes : (length - ahead) / width * width % 2 ^ 32 =
        (length - ahead) / width * width :=
      Nat.mod_eq_of_lt (by omega)
    have rest : wrapSub 32 (length - ahead) ((length - ahead) / width * width) =
        length - ahead - (length - ahead) / width * width :=
      wrapSub_of_le within (by omega)
    unfold copyCgWarpGeneric
    simp only [chosen, headed, remaining, bodyBytes, rest, bulk, last,
      firstLaneSerial_eq (first fuel (by omega)) heads lane, Option.bind_eq_bind,
      Option.bind_some, Option.pure_def, laneAccesses]
  refine ⟨head, tail, units, width, ahead, ⟨rfl, headed.symm⟩, ?_⟩
  by_cases all : ahead = length
  · -- Nothing is left behind the head.
    have left : length - ahead = 0 := by omega
    rw [left, Nat.zero_div] at spread tails
    rw [Nat.zero_mul, Nat.sub_zero] at tails
    have idle : ∀ lane, units lane = [] := by
      intro lane
      rw [List.eq_nil_iff_forall_not_mem]
      intro index member
      exact absurd ((spread.visits lane index).mp member).1 (Nat.not_lt_zero index)
    have none := tails.eq_nil
    subst none
    refine ⟨fun fuel enough lane => ?_, known, bound, fun less => absurd less (by omega), heads,
      ?_, ?_⟩
    · rw [ends fuel enough lane]
      simp only [laneAccesses, idle, List.map_nil]
    · rw [left, Nat.zero_div]
      exact spread
    · exact Nat.sub_eq_zero_of_le (left ▸ Nat.zero_le _)
  · have load : wrapAdd 64 source ahead = source + ahead := wrapAdd_of_lt (by omega)
    have store : wrapAdd 64 target ahead = target + ahead := wrapAdd_of_lt (by omega)
    rw [load, store] at tails
    simp only [load, store] at ends
    have less : alignmentPrefix source length width < length := by omega
    have aligned := alignmentPrefix_aligned known same less
    rw [headed] at aligned
    exact ⟨ends, known, bound, fun _ => aligned, heads, spread, tails⟩

/-! ## Exactness -/

/-- What a warp does with its accesses, in whatever order the lanes run. -/
structure ExactCopy (source target length : Nat) (programs : Fin 32 → List Access) : Prop where
  /-- The loops end, and these are the accesses. -/
  ends : ∀ fuel, length ≤ fuel → ∀ lane : Fin 32,
    copyCgWarp fuel source target length lane = some (programs lane)
  aligned : ∀ lane, ∀ access ∈ programs lane, access.width ∈ [1, 2, 4, 8, 16] ∧ access.Aligned
  finishes : ∀ memory schedule, (∀ lane, 2 * (programs lane).length ≤ schedule.count lane) →
    Finished (Execution.run step { memory, remaining := programs } schedule)
  copies : ∀ memory schedule,
    Finished (Execution.run step { memory, remaining := programs } schedule) →
    (∀ offset < length,
      (Execution.run step { memory, remaining := programs } schedule).memory (target + offset) =
        memory (source + offset)) ∧
    ∀ position, ¬(target ≤ position ∧ position < target + length) →
      (Execution.run step { memory, remaining := programs } schedule).memory position =
        memory position
  /-- Every byte of the target range is stored once, and no other byte is. -/
  once : ∀ memory schedule,
    Finished (Execution.run step { memory, remaining := programs } schedule) → ∀ position,
      (Execution.run step { memory, remaining := programs } schedule).stored.countP
        (fun entry => entry.2.Covers position) =
          if target ≤ position ∧ position < target + length then 1 else 0
  /-- The fast path makes the accesses of the general one. -/
  fast : (source ||| target ||| length) &&& 15 = 0 → ∀ fuel lane,
    copyCg16WarpAligned fuel source target length lane =
      copyCgWarpGeneric fuel source target length lane
  counted : ∀ fuel, length ≤ fuel → ∃ counts,
    (∀ lane : Fin 32, copyCgWarpCounted fuel source target length lane =
      some (programs lane, if lane = 0 then some counts else none)) ∧
    counts.vector128Bytes = 16 * ∑ lane, (programs lane).countP (fun access => access.width = 16) ∧
    counts.vector128Bytes + counts.narrowBytes = counts.copiedBytes ∧ counts.copiedBytes = length

/-- With addresses and length aligned there is neither a head nor a tail. -/
theorem copyCg16WarpAligned_eq (positive : 0 < length)
    (aligned : (source ||| target ||| length) &&& 15 = 0) (fuel lane : Nat) :
    copyCg16WarpAligned fuel source target length lane =
      copyCgWarpGeneric fuel source target length lane := by
  have known : 16 ∈ [1, 2, 4, 8, 16] := by decide
  have whole := and_width (source ||| target ||| length) known
  rw [aligned, eq_comm, or_mod_eq_zero known, Nat.dvd_iff_mod_eq_zero, or_mod_eq_zero known]
    at whole
  obtain ⟨⟨sourceAligned, targetAligned⟩, units⟩ := whole
  have width : commonBulkWidth source target = 16 := by
    have common : (source ^^^ target) &&& 15 = 0 := by
      rw [and_width _ known, xor_mod_eq_zero known]
      omega
    exact if_pos common
  have ahead : alignmentPrefix source length 16 = 0 := by
    rw [alignmentPrefix_eq source length known]
    split_ifs <;> omega
  have remaining : wrapSub 32 length 0 = length := wrapSub_of_le (Nat.zero_le _) (by omega)
  have load : wrapAdd 64 source 0 = source := wrapAdd_of_lt (by omega)
  have store : wrapAdd 64 target 0 = target := wrapAdd_of_lt (by omega)
  have bodyBytes : length / 16 * 16 % 2 ^ 32 = length := by omega
  have rest : wrapSub 32 length length = 0 := by
    rw [wrapSub_of_le (Nat.le_refl _) (by omega), Nat.sub_self]
  have none : ∀ source target, firstLaneSerial fuel source target 0 lane = some [] := by
    intro source target
    exact if_neg (by simp)
  unfold copyCgWarpGeneric
  simp only [width, ahead, remaining, load, store, bodyBytes, rest, none, Option.bind_eq_bind,
    Option.bind_some, Option.pure_def, List.nil_append, List.append_nil]
  exact (Option.bind_fun_some _).symm

/-- However the lanes run, a warp copies the source range to the target range. -/
theorem warp_copy_exact (positive : 0 < length)
    (disjoint : source + length ≤ target ∨ target + length ≤ source) :
    ∃ programs, ExactCopy source target length programs := by
  obtain ⟨head, tail, units, width, ahead, ⟨chosen, headed⟩, ends, layout⟩ :=
    copyCgWarpGeneric_spec short sourceInside targetInside
  have fast := copyCg16WarpAligned_eq short sourceInside targetInside positive
  have accesses : ∀ fuel, length ≤ fuel → ∀ lane : Fin 32,
      copyCgWarp fuel source target length lane =
        some (laneAccesses (source + ahead) (target + ahead) width head tail units lane) := by
    intro fuel enough lane
    unfold copyCgWarp
    split_ifs with aligned
    · rw [fast aligned, ends fuel enough lane]
    · exact ends fuel enough lane
  have once := layout.countP_covers
  have vectors := layout.countP_vectors
  refine ⟨laneAccesses (source + ahead) (target + ahead) width head tail units, accesses,
    layout.access_aligned, fun memory schedule turns => ?_, fun memory schedule finished => ?_,
    fun memory schedule finished position => ?_, fast, fun fuel enough => ?_⟩
  · exact finished_of_turns fun lane => turns lane
  · apply copied_of_finished disjoint layout.within _ finished
    intro offset below
    have covered := once (target + offset)
    rw [if_pos (by omega)] at covered
    obtain ⟨lane, -, some_⟩ := Finset.exists_ne_zero_of_sum_ne_zero
      (ne_of_eq_of_ne covered Nat.one_ne_zero)
    obtain ⟨access, member, covers⟩ := List.countP_pos_iff.mp (Nat.pos_of_ne_zero some_)
    exact ⟨lane, access, member, of_decide_eq_true covers⟩
  · exact (countP_stored rfl (fun _ => rfl) finished _).trans (once position)
  · have remaining : wrapSub 32 length ahead = length - ahead :=
      wrapSub_of_le layout.bound (by omega)
    have units16 : (length - ahead) / 16 * 16 % 2 ^ 32 = (length - ahead) / 16 * 16 :=
      Nat.mod_eq_of_lt (by omega)
    have counted : ∀ lane : Fin 32, copyCgWarpCounted fuel source target length lane =
        some (laneAccesses (source + ahead) (target + ahead) width head tail units lane,
          if lane = 0 then
            some
              { copiedBytes := length
                vector128Bytes := if width = 16 then (length - ahead) / 16 * 16 else 0
                narrowBytes :=
                  wrapSub 64 length (if width = 16 then (length - ahead) / 16 * 16 else 0) }
          else none) := by
      intro lane
      have first : (lane : Nat) = 0 ↔ lane = 0 := (Fin.ext_iff (a := lane) (b := 0)).symm
      unfold copyCgWarpCounted
      simp only [← chosen, ← headed, accesses fuel enough lane, remaining, units16, first,
        Option.bind_eq_bind, Option.bind_some, Option.pure_def]
      split_ifs <;> rfl
    refine ⟨_, counted, ?_, ?_, rfl⟩
    · rw [vectors]
      dsimp only
      split_ifs <;> omega
    · dsimp only
      rw [wrapSub_of_le (by split_ifs <;> omega) (by omega)]
      split_ifs <;> omega

end Parts

/-- 40 bytes from an odd address to an odd address 7 bytes further modulo 16. -/
theorem warp_copy_exact_oddAddresses : ∃ programs, ExactCopy 4097 8200 40 programs :=
  warp_copy_exact (by decide) (by decide) (by decide) (by decide) (.inl (by decide))

end Ugdr.Gpu.WarpCopy
