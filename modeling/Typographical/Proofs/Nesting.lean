/-
# Levels are left again

A reading enters its levels one by one and leaves them one by one.  `Parser.nested` enters
so many if all of them are within the bound (`Parser.nested_of_le`), and otherwise
comes to the first that is not and leaves again what it has entered
(`Parser.nested_of_lt`).

So a token changes how many levels are open by just as much as it changes how many
constructs wait, and a refusal leaves none of those that the reading has entered
(`Parser.depth_take`).  By induction over its tokens a reading ends at the depth it
began at, whatever that is and however it ends (`Parser.depth_read`).
-/

import Typographical.Parse.Parser
import Typographical.Proofs.Level

namespace Typographical
namespace Parser

/-- The deepest level that is allowed.  Levels count from one, so at zero none is. -/
def deepestAllowed (p : Parser) : Nat :=
  p.bound.toNat

/-- **A level is too deep exactly when it is beyond the deepest that is allowed.** -/
theorem deepestAllowed_lt_iff {p : Parser} {level : Nat} :
    p.deepestAllowed < level ↔ 1 ≤ level ∧ p.bound < level := by
  unfold deepestAllowed
  omega

/-! ### Many levels at once -/

theorem leaveTimes_eq (n : Nat) (p : Parser) :
    leaveTimes n p = { p with depth := p.depth - n } := by
  induction n with
  | zero => rfl
  | succ n ih =>
    rw [leaveTimes, ih, leave]
    simp only [Nat.sub_sub]

/-- The level that so many levels more lead to, or zero if there are none. -/
def levelAfter (p : Parser) (n : Nat) : Nat :=
  if n = 0 then 0 else p.depth + n

/-- The parser so many levels deeper. -/
def deeper (n : Nat) (p : Parser) : Parser :=
  { p with depth := p.depth + n, deepest := max p.deepest (p.levelAfter n) }

theorem deeper_zero (p : Parser) : deeper 0 p = p := by
  simp [deeper, levelAfter]

theorem deeper_enter (n : Nat) (p : Parser) : deeper n p.enter = deeper (n + 1) p := by
  have depth : p.depth + 1 + n = p.depth + (n + 1) := by omega
  have deepest : max (max p.deepest (p.depth + 1)) (p.enter.levelAfter n) =
      max p.deepest (p.depth + (n + 1)) := by
    cases n with
    | zero => exact Nat.max_eq_left (Nat.zero_le _)
    | succ n =>
      have level : p.enter.levelAfter (n + 1) = p.depth + 1 + (n + 1) := rfl
      omega
  simp only [deeper, enter, Parser.mk.injEq]
  exact ⟨trivial, trivial, depth, deepest⟩

section Nested

variable {α : Type} {body : Parser → Except ParseError α × Parser} {n : Nat} {p : Parser}

/-- **Levels within the bound are all entered,** and left again if what is done there fails. -/
theorem nested_of_le (h : n = 0 ∨ p.depth + n ≤ p.deepestAllowed) :
    nested body n p =
      match body (p.deeper n) with
      | (.error e, later) => (.error e, leaveTimes n later)
      | (.ok a, later) => (.ok a, later) := by
  induction n generalizing p with
  | zero =>
    rw [nested, deeper_zero]
    rcases body p with ⟨e | a, later⟩ <;> rfl
  | succ n ih =>
    have within : ¬p.enter.bound < p.enter.depth := by
      intro beyond
      have first : p.deepestAllowed < p.depth + 1 :=
        deepestAllowed_lt_iff.mpr ⟨Nat.le_add_left .., beyond⟩
      omega
    have further : p.enter.depth + n ≤ p.enter.deepestAllowed := by
      have whole : p.depth + (n + 1) ≤ p.deepestAllowed := by omega
      rwa [Nat.add_comm n, ← Nat.add_assoc] at whole
    rw [nested, if_neg within, ih (.inr further), deeper_enter]
    rcases body (p.deeper (n + 1)) with ⟨e | a, later⟩ <;> rfl

/-- **If they go beyond the bound, the first that does is refused,** and nothing is done. -/
theorem nested_of_lt (some : 1 ≤ n) (beyond : p.deepestAllowed < p.depth + n) :
    nested body n p =
      (.error (p.errorAt (.nestingTooDeep p.bound)),
        { p with deepest := max p.deepest (max p.depth p.deepestAllowed + 1) }) := by
  induction n generalizing p with
  | zero => exact absurd some (Nat.not_succ_le_zero 0)
  | succ n ih =>
    rw [nested]
    by_cases now : p.enter.bound < p.enter.depth
    · have first : p.deepestAllowed < p.depth + 1 :=
        deepestAllowed_lt_iff.mpr ⟨Nat.le_add_left .., now⟩
      have level : max p.depth p.deepestAllowed = p.depth := by omega
      rw [if_pos now, level]
      rfl
    · have first : p.depth + 1 ≤ p.deepestAllowed :=
        Nat.not_lt.mp fun first => now (deepestAllowed_lt_iff.mp first).2
      have inside : p.enter.deepestAllowed < p.enter.depth + n := by
        rwa [← Nat.add_assoc, Nat.add_right_comm] at beyond
      have level : max p.enter.deepest (max p.enter.depth p.enter.deepestAllowed + 1) =
          max p.deepest (max p.depth p.deepestAllowed + 1) := by
        show max (max p.deepest (p.depth + 1)) (max (p.depth + 1) p.deepestAllowed + 1) = _
        omega
      rw [if_neg now, ih (by omega) inside, level]
      rfl

end Nested

/-! ### One token -/

variable {g : Goal} {c : Due g} {t : Token} {p later : Parser}

/-- **A token is too deep, refused or taken,** and the levels that it opens and closes are entered
and left. -/
theorem take_cases (c : Due g) (t : Token) (p : Parser) :
    (1 ≤ c.opens t.kind ∧ p.deepestAllowed < p.depth + c.opens t.kind ∧
      p.take c t =
        (.error ⟨.nestingTooDeep p.bound, some p.scanner.offset⟩,
          { p with
            depth := p.depth - c.depth
            deepest := max p.deepest (max p.depth p.deepestAllowed + 1) })) ∨
    ((c.opens t.kind = 0 ∨ p.depth + c.opens t.kind ≤ p.deepestAllowed) ∧ c.next? t = none ∧
      p.take c t =
        (.error ⟨.ofToken c.wording t, some p.scanner.offset⟩,
          { p with
            depth := p.depth - c.depth
            deepest := max p.deepest (p.levelAfter (c.opens t.kind)) })) ∨
    ∃ P, (c.opens t.kind = 0 ∨ p.depth + c.opens t.kind ≤ p.deepestAllowed) ∧
      c.next? t = some P ∧
      p.take c t =
        (.ok P,
          { p with
            depth := p.depth + c.opens t.kind - c.closes t.kind
            deepest := max p.deepest (p.levelAfter (c.opens t.kind)) }) := by
  by_cases beyond : 1 ≤ c.opens t.kind ∧ p.deepestAllowed < p.depth + c.opens t.kind
  · refine .inl ⟨beyond.1, beyond.2, ?_⟩
    simp only [take, put, nested_of_lt beyond.1 beyond.2, leaveTimes_eq]
    rfl
  · have within : c.opens t.kind = 0 ∨ p.depth + c.opens t.kind ≤ p.deepestAllowed := by omega
    cases allowed : c.next? t with
    | none =>
      refine .inr (.inl ⟨within, rfl, ?_⟩)
      have depth : p.depth + c.opens t.kind - c.opens t.kind - c.depth = p.depth - c.depth := by
        omega
      simp only [take, put, nested_of_le within, allowed, leaveTimes_eq, deeper, depth]
      rfl
    | some P =>
      refine .inr (.inr ⟨P, within, rfl, ?_⟩)
      simp only [take, put, nested_of_le within, allowed, leaveTimes_eq]
      rfl

/-- How many constructs wait once a token has been put to a reading: none if it is refused. -/
def waiting : Except ParseError (Progress g) → Nat
  | .error _ => 0
  | .ok P => P.depth

/-- **A token leaves as many levels more or fewer open as constructs wait,** and a refusal leaves
none that the reading has entered. -/
theorem depth_take {r : Except ParseError (Progress g)} (level : c.HasLevel)
    (opened : c.depth ≤ p.depth) (h : p.take c t = (r, later)) :
    later.depth + c.depth = p.depth + waiting r := by
  rcases take_cases c t p with ⟨-, -, e⟩ | ⟨-, -, e⟩ | ⟨P, -, allowed, e⟩ <;>
    cases h.symm.trans e <;> simp only [waiting]
  · omega
  · omega
  · have balance := (Due.depth_add_closes level allowed).1
    omega

/-- So it is with the next token. -/
theorem depth_advance {r : Except ParseError (Progress g)} (level : c.HasLevel)
    (opened : c.depth ≤ p.depth) (h : p.advance c = (r, later)) :
    later.depth + c.depth = p.depth + waiting r :=
  depth_take (p := p.next.2) level opened h

/-- What is taken may come next. -/
theorem next?_of_advance {P : Progress g} (taken : p.advance c = (.ok P, later)) :
    c.next? p.scanner.scan.1 = some P :=
  (next?_of_take taken).1

/-! ### A whole reading -/

/-- A reading goes by its first token. -/
theorem read_eq (c : Due g) (p : Parser) :
    p.read c =
      match p.advance c with
      | (.error e, later) => (.error e, later)
      | (.ok (.done tree), later) => (.ok tree, later)
      | (.ok (.due next), later) => later.read next := by
  rw [read]
  split <;> simp [*]

/-- **A reading ends at the depth it began at,** whatever comes of it. -/
theorem depth_read (level : c.HasLevel) (opened : c.depth ≤ p.depth) :
    (p.read c).2.depth + c.depth = p.depth := by
  induction c, p using Parser.read.induct with
  | case1 c p _ later taken | case2 c p _ later taken =>
    rw [read_eq, taken]
    exact depth_advance level opened taken
  | case3 c p next later taken ih =>
    have step : later.depth + c.depth = p.depth + next.depth := depth_advance level opened taken
    have below := (Due.depth_add_closes level (next?_of_advance taken)).2
    have rest := ih below (by omega)
    rw [read_eq, taken]
    simp only
    omega

end Parser
end Typographical
