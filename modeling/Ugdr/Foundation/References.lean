import Mathlib.Data.List.Basic
import Mathlib.Data.List.Perm.Basic

/-! # References between tables

Tables of parents and children, as lists whose order does not matter. Three
relations tie them together: every child has a parent, every parent counts its
children, and every parent knows exactly the facts that its children entail. Each
is followed through the ways in which the tables change.
-/

namespace Ugdr.References

universe u v w

variable {Parent : Type u} {Child : Type v} {Fact : Type w}

/-! ## Every child has a parent -/

def Parented (link : Child → Parent → Prop) (parents : List Parent)
    (children : List Child) : Prop :=
  ∀ child ∈ children, ∃ parent ∈ parents, link child parent

namespace Parented

variable {link : Child → Parent → Prop} {parents parents' : List Parent}
  {children children' : List Child}

theorem mono (parented : Parented link parents children) (more : parents ⊆ parents')
    (fewer : children' ⊆ children) : Parented link parents' children' := by
  intro child member
  obtain ⟨parent, parentMember, linked⟩ := parented child (fewer member)
  exact ⟨parent, more parentMember, linked⟩

theorem cons (parented : Parented link parents children) {child : Child}
    {parent : Parent} (member : parent ∈ parents) (linked : link child parent) :
    Parented link parents (child :: children) := by
  intro other otherMember
  rcases List.mem_cons.mp otherMember with rfl | old
  · exact ⟨parent, member, linked⟩
  · exact parented other old

theorem map_parents (parented : Parented link parents children) {change : Parent → Parent}
    (keeps : ∀ child parent, link child parent → link child (change parent)) :
    Parented link (parents.map change) children := by
  intro child member
  obtain ⟨parent, parentMember, linked⟩ := parented child member
  exact ⟨change parent, List.mem_map_of_mem parentMember, keeps child parent linked⟩

theorem map_children (parented : Parented link parents children) {change : Child → Child}
    (keeps : ∀ child ∈ children, ∀ parent, link child parent → link (change child) parent) :
    Parented link parents (children.map change) := by
  intro child member
  obtain ⟨old, oldMember, rfl⟩ := List.mem_map.mp member
  obtain ⟨parent, parentMember, linked⟩ := parented old oldMember
  exact ⟨parent, parentMember, keeps old oldMember parent linked⟩

/-- A parent without children may go. -/
theorem remove_parent {parent : Parent}
    (parented : Parented link (parent :: parents) children)
    (unused : ∀ child ∈ children, ¬ link child parent) :
    Parented link parents children := by
  intro child member
  obtain ⟨other, otherMember, linked⟩ := parented child member
  rcases List.mem_cons.mp otherMember with rfl | remaining
  · exact absurd linked (unused child member)
  · exact ⟨other, remaining, linked⟩

theorem filter (parented : Parented link parents children) {keepParent : Parent → Bool}
    {keepChild : Child → Bool}
    (together : ∀ child parent, link child parent → keepChild child = keepParent parent) :
    Parented link (parents.filter keepParent) (children.filter keepChild) := by
  intro child member
  obtain ⟨old, kept⟩ := List.mem_filter.mp member
  obtain ⟨parent, parentMember, linked⟩ := parented child old
  refine ⟨parent, List.mem_filter.mpr ⟨parentMember, ?_⟩, linked⟩
  rw [← together child parent linked, kept]

end Parented

/-! ## Every parent counts its children -/

def Counted (count : Parent → Nat) (refers : Child → Parent → Bool)
    (parents : List Parent) (children : List Child) : Prop :=
  ∀ parent ∈ parents, count parent = children.countP fun child => refers child parent

namespace Counted

variable {count : Parent → Nat} {refers : Child → Parent → Bool}
  {parents parents' : List Parent} {children children' : List Child}

theorem mono (counted : Counted count refers parents children) (fewer : parents' ⊆ parents)
    (same : children.Perm children') : Counted count refers parents' children' := by
  intro parent member
  rw [counted parent (fewer member)]
  exact same.countP_eq _

theorem add_child (counted : Counted count refers parents children) (child : Child)
    (change : Parent → Parent)
    (keeps : ∀ parent other, refers other (change parent) = refers other parent)
    (counts : ∀ parent ∈ parents, count (change parent) =
      count parent + if refers child parent then 1 else 0) :
    Counted count refers (parents.map change) (child :: children) := by
  intro parent member
  obtain ⟨old, oldMember, rfl⟩ := List.mem_map.mp member
  rw [counts old oldMember, counted old oldMember, List.countP_cons]
  simp only [keeps]

theorem drop_child (child : Child)
    (counted : Counted count refers parents (child :: children))
    (change : Parent → Parent)
    (keeps : ∀ parent other, refers other (change parent) = refers other parent)
    (counts : ∀ parent ∈ parents, count (change parent) =
      count parent - if refers child parent then 1 else 0) :
    Counted count refers (parents.map change) children := by
  intro parent member
  obtain ⟨old, oldMember, rfl⟩ := List.mem_map.mp member
  have total := counted old oldMember
  rw [List.countP_cons] at total
  rw [counts old oldMember, total]
  simp only [keeps]
  omega

theorem add_parent (counted : Counted count refers parents children) {parent : Parent}
    (zero : count parent = 0) (unused : ∀ child ∈ children, refers child parent = false) :
    Counted count refers (parent :: parents) children := by
  intro other member
  rcases List.mem_cons.mp member with rfl | old
  · rw [zero, eq_comm, List.countP_eq_zero]
    intro child childMember
    simp [unused child childMember]
  · exact counted other old

theorem map_children (counted : Counted count refers parents children)
    {change : Child → Child}
    (keeps : ∀ child ∈ children, ∀ parent,
      refers (change child) parent = refers child parent) :
    Counted count refers parents (children.map change) := by
  intro parent member
  rw [counted parent member, List.countP_map]
  apply List.countP_congr
  intro child childMember
  rw [Function.comp_apply, keeps child childMember]

theorem map_parents (counted : Counted count refers parents children)
    {change : Parent → Parent} (sameCount : ∀ parent, count (change parent) = count parent)
    (keeps : ∀ parent other, refers other (change parent) = refers other parent) :
    Counted count refers (parents.map change) children := by
  intro parent member
  obtain ⟨old, oldMember, rfl⟩ := List.mem_map.mp member
  rw [sameCount, counted old oldMember]
  simp only [keeps]

theorem filter (counted : Counted count refers parents children)
    {keepChild : Child → Bool} (fewer : parents' ⊆ parents)
    (together : ∀ parent ∈ parents', ∀ child ∈ children, refers child parent = true →
      keepChild child = true) :
    Counted count refers parents' (children.filter keepChild) := by
  intro parent member
  rw [counted parent (fewer member), List.countP_filter]
  apply List.countP_congr
  intro child childMember
  constructor
  · intro refersTo
    simp [refersTo, together parent member child childMember refersTo]
  · intro both
    simp only [Bool.and_eq_true] at both
    exact both.1

theorem zero_iff (counted : Counted count refers parents children) {parent : Parent}
    (member : parent ∈ parents) :
    count parent = 0 ↔ ∀ child ∈ children, refers child parent = false := by
  rw [counted parent member, List.countP_eq_zero]
  simp

end Counted

/-! ## Every parent knows what its children entail -/

def Exact (holds : Parent → Fact → Prop) (entails : Child → Parent → Fact → Prop)
    (parents : List Parent) (children : List Child) : Prop :=
  ∀ parent ∈ parents, ∀ fact,
    holds parent fact ↔ ∃ child ∈ children, entails child parent fact

namespace Exact

variable {holds : Parent → Fact → Prop} {entails : Child → Parent → Fact → Prop}
  {parents parents' : List Parent} {children children' : List Child}

theorem mono (exactly : Exact holds entails parents children) (fewer : parents' ⊆ parents)
    (same : children.Perm children') : Exact holds entails parents' children' := by
  intro parent member fact
  rw [exactly parent (fewer member) fact]
  simp only [same.mem_iff]

theorem add_child (exactly : Exact holds entails parents children) (child : Child)
    (change : Parent → Parent)
    (keeps : ∀ parent other fact, entails other (change parent) fact ↔
      entails other parent fact)
    (adds : ∀ parent ∈ parents, ∀ fact, holds (change parent) fact ↔
      holds parent fact ∨ entails child parent fact) :
    Exact holds entails (parents.map change) (child :: children) := by
  intro parent member fact
  obtain ⟨old, oldMember, rfl⟩ := List.mem_map.mp member
  rw [adds old oldMember, exactly old oldMember]
  simp only [keeps, List.mem_cons, exists_eq_or_imp]
  exact or_comm

theorem drop_child (child : Child)
    (exactly : Exact holds entails parents (child :: children))
    (change : Parent → Parent)
    (keeps : ∀ parent other fact, entails other (change parent) fact ↔
      entails other parent fact)
    (drops : ∀ parent ∈ parents, ∀ fact, holds (change parent) fact ↔
      holds parent fact ∧ ¬ entails child parent fact)
    (alone : ∀ parent ∈ parents, ∀ fact, entails child parent fact →
      ∀ other ∈ children, ¬ entails other parent fact) :
    Exact holds entails (parents.map change) children := by
  intro parent member fact
  obtain ⟨old, oldMember, rfl⟩ := List.mem_map.mp member
  rw [drops old oldMember, exactly old oldMember]
  simp only [keeps, List.mem_cons, exists_eq_or_imp]
  constructor
  · rintro ⟨entailed | remaining, other⟩
    · exact absurd entailed other
    · exact remaining
  · rintro ⟨other, otherMember, entailed⟩
    exact ⟨.inr ⟨other, otherMember, entailed⟩, fun dropped =>
      alone old oldMember fact dropped other otherMember entailed⟩

theorem add_parent (exactly : Exact holds entails parents children) {parent : Parent}
    (knowsNothing : ∀ fact, ¬ holds parent fact)
    (unused : ∀ child ∈ children, ∀ fact, ¬ entails child parent fact) :
    Exact holds entails (parent :: parents) children := by
  intro other member fact
  rcases List.mem_cons.mp member with rfl | old
  · constructor
    · exact fun known => absurd known (knowsNothing fact)
    · rintro ⟨child, childMember, entailed⟩
      exact absurd entailed (unused child childMember fact)
  · exact exactly other old fact

theorem map_parents (exactly : Exact holds entails parents children)
    {change : Parent → Parent}
    (same : ∀ parent fact, holds (change parent) fact ↔ holds parent fact)
    (keeps : ∀ parent other fact, entails other (change parent) fact ↔
      entails other parent fact) :
    Exact holds entails (parents.map change) children := by
  intro parent member fact
  obtain ⟨old, oldMember, rfl⟩ := List.mem_map.mp member
  rw [same, exactly old oldMember]
  simp only [keeps]

theorem map_children (exactly : Exact holds entails parents children)
    {change : Child → Child}
    (keeps : ∀ child ∈ children, ∀ parent fact,
      entails (change child) parent fact ↔ entails child parent fact) :
    Exact holds entails parents (children.map change) := by
  intro parent member fact
  rw [exactly parent member]
  simp only [List.mem_map, exists_exists_and_eq_and]
  refine exists_congr fun child => and_congr_right fun childMember => ?_
  exact (keeps child childMember parent fact).symm

theorem filter (exactly : Exact holds entails parents children)
    {keepChild : Child → Bool} (fewer : parents' ⊆ parents)
    (together : ∀ parent ∈ parents', ∀ child ∈ children, ∀ fact,
      entails child parent fact → keepChild child = true) :
    Exact holds entails parents' (children.filter keepChild) := by
  intro parent member fact
  rw [exactly parent (fewer member)]
  constructor
  · rintro ⟨child, childMember, entailed⟩
    exact ⟨child, List.mem_filter.mpr
      ⟨childMember, together parent member child childMember fact entailed⟩, entailed⟩
  · rintro ⟨child, childMember, entailed⟩
    exact ⟨child, (List.mem_filter.mp childMember).1, entailed⟩

end Exact

end Ugdr.References
