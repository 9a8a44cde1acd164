/-
# The algebra of sets of variables

A set of variables is known by its members (`VariableSet.ext`), however it came
about.  A history lists names and combines what it has got so far, in the four
ways, by name or by sign; each entry adds one set to those at hand.  Membership
in what an entry adds is the same combination of memberships in its operands
(`Entry.mem_result`), and no later entry touches it (`History.ContinuedBy.get_results`).

The sets that the scanner's names make can be read off their rendering: no such
name is empty or has a space in it, so the words between the brackets are the
names again (`VariableSet.words_names`).
-/

import Mathlib.Data.List.Sort
import Typographical.Proofs.Lexeme
import Typographical.VariableSet

namespace Typographical
namespace VariableSet

/-! ### Sets by their members -/

instance : Std.Irrefl (α := Variable) (· < ·) := ⟨Variable.lt_irrefl⟩

instance : Std.Antisymm (α := Variable) (· < ·) :=
  ⟨fun v _ before behind => absurd (Variable.lt_trans before behind) (Variable.lt_irrefl v)⟩

/-- **Sets with the same members are the same set.** -/
theorem ext {s t : VariableSet} (h : ∀ v, v ∈ s ↔ v ∈ t) : s = t := by
  have members : s.members = t.members := s.ascending.eq_of_mem_iff t.ascending h
  obtain ⟨l, hl⟩ := s
  subst members
  rfl

theorem map_mk_names (s : VariableSet) : s.names.map Variable.mk = s.members := by
  rw [names, List.map_map]
  exact List.map_id _

theorem names_injective : Function.Injective names := by
  intro s t h
  refine ext fun v => ?_
  show ⟨v.name⟩ ∈ s ↔ ⟨v.name⟩ ∈ t
  rw [← mem_names, h, mem_names]

/-! ### Histories -/

/-- The ways to make one set of two. -/
inductive Combination
  | union
  | complement
  | intersection
  | symmetricDifference
deriving DecidableEq, Repr

namespace Combination

/-- The set that is made, by the name of the operation. -/
def apply : Combination → VariableSet → VariableSet → VariableSet
  | union, s, t => s.union t
  | complement, s, t => s.complement t
  | intersection, s, t => s.intersection t
  | symmetricDifference, s, t => s.symmetricDifference t

/-- The set that is made, by the sign of the operation. -/
def applySign : Combination → VariableSet → VariableSet → VariableSet
  | union, s, t => s ||| t
  | complement, s, t => s - t
  | intersection, s, t => s &&& t
  | symmetricDifference, s, t => s ^^^ t

/-- The condition on a member, from the conditions on members of the operands. -/
def Holds : Combination → Prop → Prop → Prop
  | union, P, Q => P ∨ Q
  | complement, P, Q => P ∧ ¬Q
  | intersection, P, Q => P ∧ Q
  | symmetricDifference, P, Q => (P ∨ Q) ∧ ¬(P ∧ Q)

theorem mem_apply {c : Combination} {s t : VariableSet} {v : Variable} :
    v ∈ c.apply s t ↔ c.Holds (v ∈ s) (v ∈ t) := by
  cases c with
  | union => exact mem_union
  | complement => exact mem_complement
  | intersection => exact mem_intersection
  | symmetricDifference =>
    show v ∈ s.symmetricDifference t ↔ (v ∈ s ∨ v ∈ t) ∧ ¬(v ∈ s ∧ v ∈ t)
    rw [mem_symmetricDifference]
    tauto

theorem applySign_eq (c : Combination) : c.applySign = c.apply := by
  cases c <;> rfl

end Combination

/-- What may be done with `n` sets at hand. -/
inductive Entry (n : Nat)
  | listed (names : List String)
  | combined (c : Combination) (i j : Fin n)
  | signed (c : Combination) (i j : Fin n)

namespace Entry

variable {n : Nat}

/-- The set that comes of it. -/
def result (sets : Vector VariableSet n) : Entry n → VariableSet
  | listed names => ofNames names
  | combined c i j => c.apply (sets.get i) (sets.get j)
  | signed c i j => c.applySign (sets.get i) (sets.get j)

/-- The condition on a variable to get into the set, from the sets that it is in already. -/
def Holds (v : Variable) (isIn : Fin n → Prop) : Entry n → Prop
  | listed names => v.name ∈ names
  | combined c i j => c.Holds (isIn i) (isIn j)
  | signed c i j => c.Holds (isIn i) (isIn j)

/-- **Membership in what comes of an entry is its combination of memberships in the operands.** -/
theorem mem_result {sets : Vector VariableSet n} {e : Entry n} {v : Variable} :
    v ∈ e.result sets ↔ e.Holds v fun i => v ∈ sets.get i := by
  cases e with
  | listed names =>
    show v ∈ ofList (names.map Variable.mk) ↔ v.name ∈ names
    rw [mem_ofList, List.mem_map]
    constructor
    · rintro ⟨name, listed, rfl⟩
      exact listed
    · intro listed
      exact ⟨v.name, listed, rfl⟩
  | combined c i j => exact Combination.mem_apply
  | signed c i j =>
    rw [result, Combination.applySign_eq]
    exact Combination.mem_apply

end Entry

/-- What has been done with sets, one entry after the other. -/
inductive History : Nat → Type
  | start : History 0
  | next {n : Nat} (h : History n) (e : Entry n) : History (n + 1)

namespace History

variable {m n : Nat}

/-- The sets that have come of it, in the order of the entries. -/
def results {n : Nat} : History n → Vector VariableSet n
  | start => #v[]
  | next h e => h.results.push (e.result h.results)

/-- The second history goes on where the first ends. -/
inductive ContinuedBy (h : History m) : {n : Nat} → History n → Prop
  | done : ContinuedBy h h
  | next {n : Nat} {h' : History n} (c : ContinuedBy h h') (e : Entry n) :
      ContinuedBy h (h'.next e)

/-- One entry leaves the sets at hand as they are. -/
theorem get_results_next (h : History n) (e : Entry n) (i : Fin n) :
    (h.next e).results.get i.castSucc = h.results.get i :=
  Vector.getElem_push_lt i.isLt

/-- What comes of an entry is the last set behind it. -/
theorem get_results_last (h : History n) (e : Entry n) :
    (h.next e).results.get (Fin.last n) = e.result h.results :=
  Vector.getElem_push_eq

/-- **However a history goes on, the sets it has come to are left as they are.** -/
theorem ContinuedBy.get_results {h : History m} {h' : History n} (c : h.ContinuedBy h') :
    ∃ le : m ≤ n, ∀ i : Fin m, h'.results.get (i.castLE le) = h.results.get i := by
  induction c with
  | done => exact ⟨Nat.le_refl m, fun i => rfl⟩
  | @next k h' c e ih =>
    obtain ⟨le, same⟩ := ih
    refine ⟨Nat.le_succ_of_le le, fun i => ?_⟩
    rw [← same i]
    exact get_results_next h' e (i.castLE le)

end History

end VariableSet

/-! ### Reading a set off its rendering -/

/-- The words of a text with single spaces between them; an empty text has none. -/
def Text.words (text : String) : List String :=
  if text.isEmpty then [] else (text.split ' ').toList.map (·.copy)

/-- **Words can be taken apart again** if none is empty and none has a space in it. -/
theorem Text.words_intercalate {l : List String} (filled : ∀ w ∈ l, w ≠ "")
    (noSpace : ∀ w ∈ l, ' ' ∉ w.toList) : Text.words (" ".intercalate l) = l := by
  cases l with
  | nil => rfl
  | cons w ws =>
    have someText : ¬(" ".intercalate (w :: ws)).isEmpty = true := by
      rw [String.isEmpty_iff]
      have first : w ≠ "" := filled w List.mem_cons_self
      cases ws with
      | nil => rwa [String.intercalate_singleton]
      | cons w' ws =>
        rw [String.intercalate_cons_cons, String.append_assoc, String.append_eq_empty_iff]
        exact fun h => first h.1
    rw [words, if_neg someText]
    exact (String.toList_split_intercalate noSpace).trans (if_neg (List.cons_ne_nil w ws))

theorem Variable.Writable.name_ne_empty {v : Variable} (h : v.Writable) : v.name ≠ "" := by
  obtain ⟨letter, primes, name, -, -⟩ := h
  rw [name]
  intro e
  have chars := congrArg String.toList e
  rw [String.toList_ofList] at chars
  exact List.cons_ne_nil letter primes chars

namespace VariableSet

/-- **The words between the brackets are the names,** if all can be written in a formula. -/
theorem words_names {s : VariableSet} (h : ∀ v ∈ s, v.Writable) :
    Text.words (" ".intercalate s.names) = s.names := by
  have writable : ∀ name ∈ s.names, Variable.Writable ⟨name⟩ :=
    fun name listed => h ⟨name⟩ (mem_names.mp listed)
  exact Text.words_intercalate (fun name listed => (writable name listed).name_ne_empty)
    fun name listed => (writable name listed).not_mem_name rfl rfl

theorem render_inj {s t : VariableSet} (hs : ∀ v ∈ s, v.Writable) (ht : ∀ v ∈ t, v.Writable) :
    s.render = t.render ↔ s = t := by
  refine ⟨fun h => names_injective ?_, congrArg render⟩
  rw [render, render, String.append_left_inj, String.append_right_inj] at h
  rw [← words_names hs, h, words_names ht]

/-- Where spaces may stand in names, different sets look alike. -/
example : (ofNames ["a b"]).render = (ofNames ["a", "b"]).render := by decide

/-! ### The whole algebra -/

/-- **Sets of variables are known by their members and shown in one order.**  Whatever history made
the sets at hand, one more entry adds the set whose members are the names listed or the combination
of the operands' members, and however it goes on from there, the sets at hand stay as they are.  A
set lists its members by name in strictly ascending order, and is as large as that list is long.
Two sets are equal just if they have the same members.  Where all names are such as the scanner
makes, the words between the brackets of a rendering are the names, and different sets are rendered
differently. -/
theorem History.extensional {n : Nat} (h : History n) :
    (∀ (e : Entry n) (v : Variable),
      v ∈ (h.next e).results.get (Fin.last n) ↔ e.Holds v fun i => v ∈ h.results.get i) ∧
    (∀ {k : Nat} (h' : History k), h.ContinuedBy h' →
      ∃ le : n ≤ k, ∀ i : Fin n, h'.results.get (i.castLE le) = h.results.get i) ∧
    ∀ s : VariableSet,
      s.names.Pairwise (· < ·) ∧
      (∀ v : Variable, v.name ∈ s.names ↔ v ∈ s) ∧
      s.members = s.names.map Variable.mk ∧
      s.size = s.names.length ∧
      (∀ t : VariableSet, s = t ↔ ∀ v, v ∈ s ↔ v ∈ t) ∧
      ((∀ v ∈ s, v.Writable) →
        (∃ inner, s.render = "[" ++ inner ++ "]" ∧ Text.words inner = s.names) ∧
        ∀ t : VariableSet, (∀ v ∈ t, v.Writable) → s.render = t.render → s = t) := by
  refine ⟨fun e v => ?_, fun h' c => c.get_results, fun s => ⟨s.pairwise_names, fun v => mem_names,
    s.map_mk_names.symm, ?_, fun t => ⟨?_, ext⟩, fun hs => ⟨⟨_, rfl, words_names hs⟩, ?_⟩⟩⟩
  · rw [get_results_last]
    exact Entry.mem_result
  · rw [size, names, List.length_map]
  · rintro rfl v
    exact Iff.rfl
  · exact fun t ht => (render_inj hs ht).mp

/-- The hypotheses are met by names in disorder, one of them twice, and the symmetric difference by
its sign. -/
theorem History.extensional_disorder :
    ∃ (h : History 2) (s : VariableSet),
      h = (start.next (.listed ["c", "a'", "b", "a", "c"])).next (.listed ["d", "b"]) ∧
      s = (h.next (.signed .symmetricDifference 0 1)).results.get 2 ∧
      (∀ i : Fin 2, (h.next (.signed .symmetricDifference 0 1)).results.get i.castSucc =
        h.results.get i) ∧
      (∀ v ∈ s, v.Writable) ∧
      (∃ inner, s.render = "[" ++ inner ++ "]" ∧ Text.words inner = ["a", "a'", "c", "d"]) ∧
      ∀ t : VariableSet, (∀ v ∈ t, v.Writable) → s.render = t.render → s = t := by
  let h := (start.next (.listed ["c", "a'", "b", "a", "c"])).next (.listed ["d", "b"])
  let s := (h.next (.signed .symmetricDifference 0 1)).results.get 2
  have members : s.members = [⟨"a"⟩, ⟨"a'"⟩, ⟨"c"⟩, ⟨"d"⟩] := by decide
  have names : s.names = ["a", "a'", "c", "d"] := congrArg (List.map Variable.name) members
  have plain (c : Char) (hc : isVariableLetter c = true) :
      Variable.Writable ⟨String.ofList [c]⟩ := ⟨c, [], rfl, hc, nofun⟩
  have primed : Variable.Writable ⟨"a'"⟩ :=
    ⟨'a', ['\''], rfl, rfl, List.forall_mem_singleton.mpr rfl⟩
  have writable : ∀ v ∈ s.members, v.Writable := by
    rw [members]
    simp only [List.forall_mem_cons]
    exact ⟨plain 'a' rfl, primed, plain 'c' rfl, plain 'd' rfl, nofun⟩
  obtain ⟨-, kept, sets⟩ := extensional h
  obtain ⟨le, earlier⟩ := kept _ (.next .done (.signed .symmetricDifference 0 1))
  obtain ⟨-, -, -, -, -, shown⟩ := sets s
  obtain ⟨⟨inner, brackets, words⟩, apart⟩ := shown writable
  exact ⟨h, s, rfl, rfl, earlier, writable, ⟨inner, brackets, words.trans names⟩, apart⟩

end VariableSet
end Typographical
