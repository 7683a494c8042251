import Ugdr.Foundation.Trace
import Mathlib.Logic.Function.Basic

/-! # Resources with one owner

A resource is opened, held by at most one owner, and closed. Closing may fail, and then the
owner may keep the resource and try again. Resources are named by the order in which they
were opened, so that no two of them are ever confused. Nothing here names a particular kind
of resource.
-/

namespace Ugdr.Ownership

universe u v w

variable {Owner : Type u} {Resource : Type v} {Error : Type w}

/-- The resources opened so far, their owners, and the calls that closed them with the
error of each call. -/
structure Ledger (Owner : Type u) (Resource : Type v) (Error : Type w) where
  opened : List Resource := []
  held : Owner → Option Nat := fun _ => none
  closes : List (Nat × Option Error) := []

namespace Ledger

variable {ledger : Ledger Owner Resource Error} {Live : Owner → Prop}

/-- The name of the resource that is opened next. -/
def next (ledger : Ledger Owner Resource Error) : Nat :=
  ledger.opened.length

def acquire (ledger : Ledger Owner Resource Error) (resource : Resource) :
    Ledger Owner Resource Error :=
  { ledger with opened := ledger.opened ++ [resource] }

def close (ledger : Ledger Owner Resource Error) (name : Nat) (result : Option Error) :
    Ledger Owner Resource Error :=
  { ledger with closes := ledger.closes ++ [(name, result)] }

/-- Close the resource of an owner. -/
def closeHeld (ledger : Ledger Owner Resource Error) (owner : Owner) (result : Option Error) :
    Ledger Owner Resource Error :=
  match ledger.held owner with
  | none => ledger
  | some name => ledger.close name result

section

variable [DecidableEq Owner]

def hold (ledger : Ledger Owner Resource Error) (owner : Owner) (name : Nat) :
    Ledger Owner Resource Error :=
  { ledger with held := Function.update ledger.held owner (some name) }

def release (ledger : Ledger Owner Resource Error) (owner : Owner) :
    Ledger Owner Resource Error :=
  { ledger with held := Function.update ledger.held owner none }

end

/-- Every resource has one owner or has been passed to a close, and none is closed again
after a close of it has succeeded. -/
structure Sound (Live : Owner → Prop) (ledger : Ledger Owner Resource Error) : Prop where
  live : ∀ owner, Live owner ↔ (ledger.held owner).isSome
  opened : ∀ owner name, ledger.held owner = some name → name < ledger.next
  unique : ∀ left right name,
    ledger.held left = some name → ledger.held right = some name → left = right
  accounted : ∀ name, name < ledger.next →
    (∃ owner, ledger.held owner = some name) ∨ ∃ result, (name, result) ∈ ledger.closes
  known : ∀ call ∈ ledger.closes, call.1 < ledger.next
  unclosed : ∀ owner name, ledger.held owner = some name → (name, none) ∉ ledger.closes
  once : Trace.Every (fun earlier call => (call.1, none) ∉ earlier) ledger.closes

theorem Sound.initial (none : ∀ owner, ¬ Live owner) :
    Sound Live ({} : Ledger Owner Resource Error) where
  live := fun owner => ⟨fun live => absurd live (none owner), nofun⟩
  opened := nofun
  unique := nofun
  accounted := nofun
  known := nofun
  unclosed := nofun
  once := Trace.every_nil

theorem Sound.congr {Before After : Owner → Prop} (same : ∀ owner, After owner ↔ Before owner)
    (sound : Sound Before ledger) : Sound After ledger :=
  { sound with live := fun owner => (same owner).trans (sound.live owner) }

/-- A new resource that is given back at once. -/
theorem Sound.discarded (sound : Sound Live ledger) (resource : Resource)
    (result : Option Error) :
    Sound Live ((ledger.acquire resource).close ledger.next result) := by
  have longer : ((ledger.acquire resource).close ledger.next result).next = ledger.next + 1 :=
    List.length_append ..
  refine
    { live := sound.live
      opened := fun owner name held => ?_
      unique := sound.unique
      accounted := fun name inside => ?_
      known := fun call member => ?_
      unclosed := fun owner name held => ?_
      once := ?_ }
  · rw [longer]
    exact Nat.lt_succ_of_lt (sound.opened owner name held)
  · rw [longer] at inside
    by_cases new : name = ledger.next
    · rw [new]
      exact .inr ⟨result, List.mem_append.mpr (.inr (List.mem_singleton_self _))⟩
    · refine (sound.accounted name (by omega)).imp_right ?_
      rintro ⟨earlier, member⟩
      exact ⟨earlier, List.mem_append.mpr (.inl member)⟩
  · rw [longer]
    rcases List.mem_append.mp member with old | new
    · exact Nat.lt_succ_of_lt (sound.known call old)
    · rw [List.mem_singleton.mp new]
      exact Nat.lt_succ_self _
  · intro member
    rcases List.mem_append.mp member with old | new
    · exact sound.unclosed owner name held old
    · have bound := sound.opened owner name held
      injection List.mem_singleton.mp new with same
      omega
  · refine Trace.every_concat.mpr ⟨sound.once, fun earlier => ?_⟩
    exact absurd (sound.known _ earlier) (Nat.lt_irrefl _)

/-- A failed close of a resource that stays with its owner. -/
theorem Sound.closeFailed (sound : Sound Live ledger) (owner : Owner) (error : Error) :
    Sound Live (ledger.closeHeld owner (some error)) := by
  unfold closeHeld
  split
  · exact sound
  · rename_i name held
    refine
      { sound with
        accounted := fun other inside => ?_
        known := fun call member => ?_
        unclosed := fun other otherName otherHeld member => ?_
        once := Trace.every_concat.mpr ⟨sound.once, sound.unclosed owner name held⟩ }
    · refine (sound.accounted other inside).imp_right ?_
      rintro ⟨earlier, member⟩
      exact ⟨earlier, List.mem_append.mpr (.inl member)⟩
    · rcases List.mem_append.mp member with old | new
      · exact sound.known call old
      · rw [List.mem_singleton.mp new]
        exact sound.opened owner name held
    · rcases List.mem_append.mp member with old | new
      · exact sound.unclosed other otherName otherHeld old
      · injection List.mem_singleton.mp new with _ impossible
        cases impossible

variable [DecidableEq Owner]

/-- A new resource that is given to a new owner. -/
theorem Sound.acquired {After : Owner → Prop} (sound : Sound Live ledger) (resource : Resource)
    {owner : Owner} (new : ¬ Live owner)
    (grown : ∀ other, After other ↔ other = owner ∨ Live other) :
    Sound After ((ledger.acquire resource).hold owner ledger.next) := by
  have longer : ((ledger.acquire resource).hold owner ledger.next).next = ledger.next + 1 :=
    List.length_append ..
  have held : ∀ other, ((ledger.acquire resource).hold owner ledger.next).held other =
      if other = owner then some ledger.next else ledger.held other :=
    fun other => Function.update_apply ..
  refine
    { live := fun other => ?_
      opened := fun other name otherHeld => ?_
      unique := fun left right name leftHeld rightHeld => ?_
      accounted := fun name inside => ?_
      known := fun call member => longer ▸ Nat.lt_succ_of_lt (sound.known call member)
      unclosed := fun other name otherHeld member => ?_
      once := sound.once }
  · rw [grown, held, sound.live]
    split
    · rename_i here
      simp [here]
    · rename_i elsewhere
      simp [elsewhere]
  · rw [held] at otherHeld
    rw [longer]
    split at otherHeld
    · injection otherHeld with same
      omega
    · exact Nat.lt_succ_of_lt (sound.opened other name otherHeld)
  · rw [held] at leftHeld rightHeld
    split at leftHeld <;> split at rightHeld
    · rename_i left right
      exact left.trans right.symm
    · injection leftHeld with same
      have bound := sound.opened right name rightHeld
      omega
    · injection rightHeld with same
      have bound := sound.opened left name leftHeld
      omega
    · exact sound.unique left right name leftHeld rightHeld
  · rw [longer] at inside
    by_cases last : name = ledger.next
    · exact .inl ⟨owner, by rw [held, if_pos rfl, last]⟩
    · refine (sound.accounted name (by omega)).imp_left ?_
      rintro ⟨other, otherHeld⟩
      refine ⟨other, ?_⟩
      have different : other ≠ owner := by
        rintro rfl
        exact new ((sound.live other).mpr (by rw [otherHeld]; rfl))
      rw [held, if_neg different, otherHeld]
  · rw [held] at otherHeld
    split at otherHeld
    · injection otherHeld with same
      have bound := sound.known _ member
      simp only at bound
      omega
    · exact sound.unclosed other name otherHeld member

/-- Closing the resource of an owner that goes, whatever the close answers. -/
def dropOwner (ledger : Ledger Owner Resource Error) (owner : Owner) (result : Option Error) :
    Ledger Owner Resource Error :=
  (ledger.closeHeld owner result).release owner

theorem dropOwner_held (ledger : Ledger Owner Resource Error) (owner other : Owner)
    (result : Option Error) :
    (ledger.dropOwner owner result).held other =
      if other = owner then none else ledger.held other := by
  unfold dropOwner closeHeld
  split <;> exact Function.update_apply ..

/-- The calls that close the resource of an owner. -/
def callsFor (ledger : Ledger Owner Resource Error) (owner : Owner) (result : Option Error) :
    List (Nat × Option Error) :=
  (ledger.held owner).toList.map fun name => (name, result)

omit [DecidableEq Owner] in
theorem closeHeld_eq (ledger : Ledger Owner Resource Error) (owner : Owner)
    (result : Option Error) :
    ledger.closeHeld owner result =
      { ledger with closes := ledger.closes ++ ledger.callsFor owner result } := by
  unfold closeHeld callsFor
  split
  · rename_i none
    simp [none]
  · rename_i name held
    simp [held, close]

theorem Sound.dropped {After : Owner → Prop} (sound : Sound Live ledger) {owner : Owner}
    (gone : ∀ other, After other ↔ other ≠ owner ∧ Live other) (result : Option Error) :
    Sound After (ledger.dropOwner owner result) := by
  have held := ledger.dropOwner_held owner
  have closes : (ledger.dropOwner owner result).closes =
      ledger.closes ++ ledger.callsFor owner result := by
    rw [dropOwner, closeHeld_eq]
    rfl
  have next : (ledger.dropOwner owner result).next = ledger.next := by
    rw [dropOwner, closeHeld_eq]
    rfl
  have called : ∀ call ∈ ledger.callsFor owner result, ledger.held owner = some call.1 := by
    intro call member
    obtain ⟨name, found, rfl⟩ := List.mem_map.mp member
    exact Option.mem_toList.mp found
  have kept : ∀ other name, (ledger.dropOwner owner result).held other = some name →
      other ≠ owner ∧ ledger.held other = some name := by
    intro other name found
    rw [held] at found
    split at found
    · cases found
    · exact ⟨‹_›, found⟩
  refine
    { live := fun other => ?_
      opened := fun other name found => next ▸ sound.opened other name (kept other name found).2
      unique := fun left right name leftHeld rightHeld =>
        sound.unique left right name (kept left name leftHeld).2 (kept right name rightHeld).2
      accounted := fun name inside => ?_
      known := fun call member => ?_
      unclosed := fun other name found member => ?_
      once := ?_ }
  · rw [gone, held, sound.live]
    split
    · rename_i here
      simp [here]
    · rename_i elsewhere
      simp [elsewhere]
  · rw [closes]
    rcases sound.accounted name (next ▸ inside) with ⟨other, found⟩ | ⟨earlier, member⟩
    · by_cases here : other = owner
      · right
        refine ⟨result, List.mem_append.mpr (.inr (List.mem_map.mpr ⟨name, ?_, rfl⟩))⟩
        rw [← here, found]
        exact List.mem_singleton_self name
      · exact .inl ⟨other, by rw [held, if_neg here, found]⟩
    · exact .inr ⟨earlier, List.mem_append.mpr (.inl member)⟩
  · rw [next]
    rw [closes] at member
    rcases List.mem_append.mp member with old | new
    · exact sound.known call old
    · exact sound.opened owner _ (called call new)
  · obtain ⟨different, otherHeld⟩ := kept other name found
    rw [closes] at member
    rcases List.mem_append.mp member with old | new
    · exact sound.unclosed other name otherHeld old
    · exact different (sound.unique other owner name otherHeld (called _ new))
  · rw [closes, callsFor]
    cases here : ledger.held owner with
    | none => simpa using sound.once
    | some name =>
        exact Trace.every_concat.mpr ⟨sound.once, sound.unclosed owner name here⟩

/-! ## Owners that go together -/

/-- Close the resources of several owners. -/
def closeAll (ledger : Ledger Owner Resource Error) (owners : List Owner)
    (result : Owner → Option Error) : Ledger Owner Resource Error :=
  owners.foldl (fun ledger owner => ledger.closeHeld owner (result owner)) ledger

def releaseAll (ledger : Ledger Owner Resource Error) (owners : List Owner) :
    Ledger Owner Resource Error :=
  owners.foldl release ledger

theorem release_closeHeld {owner other : Owner} (different : other ≠ owner)
    (ledger : Ledger Owner Resource Error) (result : Option Error) :
    (ledger.release owner).closeHeld other result =
      (ledger.closeHeld other result).release owner := by
  have same : (ledger.release owner).held other = ledger.held other :=
    Function.update_of_ne different ..
  rw [closeHeld_eq, closeHeld_eq, callsFor, callsFor, same]
  rfl

theorem release_closeAll {owner : Owner} {owners : List Owner} (outside : owner ∉ owners)
    (ledger : Ledger Owner Resource Error) (result : Owner → Option Error) :
    (ledger.release owner).closeAll owners result =
      (ledger.closeAll owners result).release owner := by
  induction owners generalizing ledger with
  | nil => rfl
  | cons other owners induction =>
      obtain ⟨different, outside⟩ := not_or.mp (mt List.mem_cons.mpr outside)
      simp only [closeAll, List.foldl_cons] at induction ⊢
      rw [release_closeHeld (Ne.symm different), induction outside]

@[simp] theorem releaseAll_opened (ledger : Ledger Owner Resource Error) (owners : List Owner) :
    (ledger.releaseAll owners).opened = ledger.opened := by
  induction owners generalizing ledger with
  | nil => rfl
  | cons owner owners induction => exact induction _

@[simp] theorem releaseAll_closes (ledger : Ledger Owner Resource Error) (owners : List Owner) :
    (ledger.releaseAll owners).closes = ledger.closes := by
  induction owners generalizing ledger with
  | nil => rfl
  | cons owner owners induction => exact induction _

theorem releaseAll_held (ledger : Ledger Owner Resource Error) (owners : List Owner)
    (owner : Owner) :
    (ledger.releaseAll owners).held owner =
      if owner ∈ owners then none else ledger.held owner := by
  induction owners generalizing ledger with
  | nil => rfl
  | cons other owners induction =>
      simp only [releaseAll, List.foldl_cons, List.mem_cons] at induction ⊢
      rw [induction, release]
      dsimp only
      rw [Function.update_apply]
      split_ifs <;> tauto

/-- Closing all and then releasing all is as good as dropping one after the other. -/
theorem releaseAll_closeAll {owners : List Owner} (distinct : owners.Nodup)
    (ledger : Ledger Owner Resource Error) (result : Owner → Option Error) :
    (ledger.closeAll owners result).releaseAll owners =
      owners.foldl (fun ledger owner => ledger.dropOwner owner (result owner)) ledger := by
  induction owners generalizing ledger with
  | nil => rfl
  | cons owner owners induction =>
      obtain ⟨outside, distinct⟩ := List.nodup_cons.mp distinct
      rw [List.foldl_cons, ← induction distinct, dropOwner, release_closeAll outside]
      rfl

theorem Sound.droppedAll {After : Owner → Prop} {owners : List Owner}
    (distinct : owners.Nodup) (sound : Sound Live ledger)
    (gone : ∀ other, After other ↔ other ∉ owners ∧ Live other)
    (result : Owner → Option Error) :
    Sound After ((ledger.closeAll owners result).releaseAll owners) := by
  rw [releaseAll_closeAll distinct]
  induction owners generalizing ledger Live with
  | nil => exact sound.congr fun other => by simp [gone]
  | cons owner owners induction =>
      rw [List.foldl_cons]
      have dropped : Sound (fun other => other ≠ owner ∧ Live other)
          (ledger.dropOwner owner (result owner)) :=
        sound.dropped (fun _ => Iff.rfl) _
      refine induction (List.nodup_cons.mp distinct).2 dropped fun other => ?_
      rw [gone, List.mem_cons, not_or, and_comm (a := other ≠ owner), and_assoc]

omit [DecidableEq Owner] in
theorem closeAll_eq (ledger : Ledger Owner Resource Error) (owners : List Owner)
    (result : Owner → Option Error) :
    ledger.closeAll owners result =
      { ledger with
        closes := ledger.closes ++
          owners.flatMap fun owner => ledger.callsFor owner (result owner) } := by
  induction owners generalizing ledger with
  | nil => simp [closeAll]
  | cons owner owners induction =>
      simp only [closeAll, List.foldl_cons] at induction ⊢
      rw [closeHeld_eq, induction, List.flatMap_cons, ← List.append_assoc]
      rfl

end Ledger

end Ugdr.Ownership
