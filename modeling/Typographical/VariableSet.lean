/-
# Sets of variables

A set of variables is the ascending list of its members.  The order leaves each
set one list, so two sets with the same members are equal, and the members come
out in the order in which they are shown.

`mem_union`, `mem_complement`, `mem_intersection` and `mem_symmetricDifference`
give each operation by membership.  The operations may be written with `|||`,
`-`, `&&&` and `^^^`.
-/

import Typographical.Text.Quoted
import Typographical.Variable

namespace Typographical

/-- A finite set of variables. -/
structure VariableSet where
  members : List Variable
  ascending : members.Pairwise (· < ·)
deriving DecidableEq, Repr

namespace VariableSet

instance : Membership Variable VariableSet := ⟨fun s v => v ∈ s.members⟩

instance (v : Variable) (s : VariableSet) : Decidable (v ∈ s) :=
  inferInstanceAs (Decidable (v ∈ s.members))

/-- The set without members. -/
def empty : VariableSet := ⟨[], .nil⟩

instance : EmptyCollection VariableSet := ⟨empty⟩

instance : Inhabited VariableSet := ⟨empty⟩

/-- A list with a variable in front of the first that comes after it, unless it is there already. -/
def place (v : Variable) : List Variable → List Variable
  | [] => [v]
  | w :: ws => if v < w then v :: w :: ws else if w < v then w :: place v ws else w :: ws

theorem mem_place {u v : Variable} {l : List Variable} : u ∈ place v l ↔ u = v ∨ u ∈ l := by
  induction l with
  | nil => simp [place]
  | cons w ws ih =>
    unfold place
    split
    · simp
    · next h =>
      split
      · simp only [List.mem_cons, ih]
        exact or_left_comm
      · next k =>
        have e := Variable.eq_of_not_lt h k
        subst e
        simp

theorem pairwise_place {v : Variable} {l : List Variable} (hl : l.Pairwise (· < ·)) :
    (place v l).Pairwise (· < ·) := by
  induction l with
  | nil => simp [place]
  | cons w ws ih =>
    obtain ⟨first, later⟩ := List.pairwise_cons.mp hl
    unfold place
    split
    · next h =>
      refine List.pairwise_cons.mpr ⟨fun u hu => ?_, hl⟩
      rcases List.mem_cons.mp hu with rfl | hu
      · exact h
      · exact Variable.lt_trans h (first u hu)
    · split
      · next k =>
        refine List.pairwise_cons.mpr ⟨fun u hu => ?_, ih later⟩
        rcases mem_place.mp hu with rfl | hu
        · exact k
        · exact first u hu
      · exact hl

/-- The set with one more member. -/
def insert (v : Variable) (s : VariableSet) : VariableSet :=
  ⟨place v s.members, pairwise_place s.ascending⟩

/-- The set of the members of a list. -/
def ofList (l : List Variable) : VariableSet :=
  l.foldr insert empty

/-- The set of the variables of the given names. -/
def ofNames (names : List String) : VariableSet :=
  ofList (names.map Variable.mk)

/-- The set of one variable. -/
def singleton (v : Variable) : VariableSet :=
  ⟨[v], List.pairwise_singleton _ _⟩

/-- The members of either set. -/
def union (s t : VariableSet) : VariableSet :=
  s.members.foldr insert t

/-- The members of the first set that the second lacks. -/
def complement (s t : VariableSet) : VariableSet :=
  ⟨s.members.filter fun v => decide (v ∉ t), s.ascending.filter _⟩

/-- The members of both sets. -/
def intersection (s t : VariableSet) : VariableSet :=
  ⟨s.members.filter fun v => decide (v ∈ t), s.ascending.filter _⟩

/-- The members of exactly one of the sets. -/
def symmetricDifference (s t : VariableSet) : VariableSet :=
  (s.complement t).union (t.complement s)

instance : OrOp VariableSet := ⟨union⟩

instance : Sub VariableSet := ⟨complement⟩

instance : AndOp VariableSet := ⟨intersection⟩

instance : XorOp VariableSet := ⟨symmetricDifference⟩

/-- How many members there are. -/
def size (s : VariableSet) : Nat :=
  s.members.length

/-- Whether there is no member. -/
def isEmpty (s : VariableSet) : Bool :=
  s.members.isEmpty

/-- The names of the members, in ascending order. -/
def names (s : VariableSet) : List String :=
  s.members.map Variable.name

/-- The names between square brackets, a space between two. -/
def render (s : VariableSet) : String :=
  "[" ++ " ".intercalate s.names ++ "]"

/-- The set as the expression that makes it. -/
def inspect (s : VariableSet) : String :=
  "VariableSet.of(" ++ ", ".intercalate (s.names.map Text.quoted) ++ ")"

/-! ### Membership -/

theorem not_mem_empty (v : Variable) : v ∉ (∅ : VariableSet) :=
  List.not_mem_nil

theorem mem_insert {u v : Variable} {s : VariableSet} : u ∈ s.insert v ↔ u = v ∨ u ∈ s :=
  mem_place

theorem mem_foldr_insert {u : Variable} {l : List Variable} {s : VariableSet} :
    u ∈ l.foldr insert s ↔ u ∈ l ∨ u ∈ s := by
  induction l with
  | nil => simp
  | cons v vs ih => simp only [List.foldr_cons, mem_insert, ih, List.mem_cons, or_assoc]

theorem mem_ofList {u : Variable} {l : List Variable} : u ∈ ofList l ↔ u ∈ l := by
  unfold ofList
  rw [mem_foldr_insert]
  exact or_iff_left (not_mem_empty u)

theorem mem_singleton {u v : Variable} : u ∈ singleton v ↔ u = v :=
  List.mem_singleton

theorem mem_union {u : Variable} {s t : VariableSet} : u ∈ s.union t ↔ u ∈ s ∨ u ∈ t :=
  mem_foldr_insert

theorem mem_complement {u : Variable} {s t : VariableSet} :
    u ∈ s.complement t ↔ u ∈ s ∧ u ∉ t :=
  List.mem_filter.trans (and_congr_right fun _ => decide_eq_true_iff)

/-- Taking away a variable that is no member changes nothing. -/
theorem complement_singleton {v : Variable} {s : VariableSet} (h : v ∉ s) :
    s.complement (singleton v) = s := by
  have kept : ∀ u ∈ s.members, decide (u ∉ singleton v) = true := by
    intro u hu
    rw [decide_eq_true_iff, mem_singleton]
    rintro rfl
    exact h hu
  rw [complement]
  congr 1
  exact List.filter_eq_self.mpr kept

theorem mem_intersection {u : Variable} {s t : VariableSet} :
    u ∈ s.intersection t ↔ u ∈ s ∧ u ∈ t :=
  List.mem_filter.trans (and_congr_right fun _ => decide_eq_true_iff)

theorem mem_symmetricDifference {u : Variable} {s t : VariableSet} :
    u ∈ s.symmetricDifference t ↔ (u ∈ s ∧ u ∉ t) ∨ (u ∈ t ∧ u ∉ s) := by
  simp [symmetricDifference, mem_union, mem_complement]

theorem isEmpty_iff {s : VariableSet} : s.isEmpty = true ↔ ∀ v, v ∉ s := by
  show s.members.isEmpty = true ↔ ∀ v, v ∉ s.members
  rw [List.isEmpty_iff]
  exact List.eq_nil_iff_forall_not_mem

/-! ### Names -/

theorem mem_names {s : VariableSet} {name : String} : name ∈ s.names ↔ ⟨name⟩ ∈ s := by
  rw [names, List.mem_map]
  constructor
  · rintro ⟨v, hv, rfl⟩
    exact hv
  · intro h
    exact ⟨_, h, rfl⟩

theorem pairwise_names (s : VariableSet) : s.names.Pairwise (· < ·) :=
  s.ascending.map _ fun _ _ h => h

example : (ofNames ["b", "a", "b"]).names = ["a", "b"] := by decide

end VariableSet
end Typographical
