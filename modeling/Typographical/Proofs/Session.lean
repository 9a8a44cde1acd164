/-
# Using a parser again and again

A session is a fresh parser on a text and the calls that are made of it, one after
another, whatever came of the calls before.  `Parser.Call.effect` is one step of
it, and a call leaves as many levels open as it found (`Parser.Call.depth_run`).  By
induction over the calls the parser always stands in its text with no level open
(`Parser.Session.ready`), so every call of a session has the effect that is stated
there.  What a session has passed lies behind it
(`Parser.Session.precedes_of_mem`), and the deepest level is beyond the bound once a
call has been refused for it, and stays there (`Parser.Session.deepest_eq_iff`).
-/

import Typographical.Proofs.Call

namespace Typographical
namespace Parser

/-! ### Going on -/

/-- A parser is at most as far in its text, and has been at most as deep, as another. -/
structure Precedes (p q : Parser) : Prop where
  offset_le : p.scanner.offset ≤ q.scanner.offset
  pos_le : p.scanner.pos ≤ q.scanner.pos
  deepest_le : p.deepest ≤ q.deepest

theorem Precedes.refl (p : Parser) : p.Precedes p :=
  ⟨Nat.le_refl _, Nat.le_refl _, Nat.le_refl _⟩

theorem Precedes.trans {p q r : Parser} (h : p.Precedes q) (k : q.Precedes r) : p.Precedes r where
  offset_le := Nat.le_trans h.offset_le k.offset_le
  pos_le := Nat.le_trans h.pos_le k.pos_le
  deepest_le := Nat.le_trans h.deepest_le k.deepest_le

/-- **No call goes back.** -/
theorem Call.Effect.precedes {source : String} {p : Parser} {a : Answer} (h : Effect source p a) :
    p.Precedes a.2 where
  offset_le := h.offset_le
  pos_le := h.pos_le
  deepest_le := by
    obtain ⟨level, deepest, -⟩ := h.deepest_eq
    rw [deepest]
    exact Nat.le_max_left _ _

/-- Whether a call was refused for nesting too deep. -/
def Answer.IsTooDeep (a : Answer) : Prop :=
  ∃ e, a.1 = some e ∧ e.IsTooDeep

/-! ### Sessions -/

/-- The answers to calls that are made one after another of a fresh parser, and the parser they
leave. -/
inductive Session (source : String) (bound : Nat) : List Answer → Parser → Prop
  | fresh : Session source bound [] (ofString source bound)
  | call {answers : List Answer} {p : Parser} {a : Answer} (c : Call)
      (before : Session source bound answers p) (allowed : c.Allowed p source)
      (run : c.run p = a) : Session source bound (answers ++ [a]) a.2

namespace Session

variable {source : String} {bound : Nat} {answers : List Answer} {p : Parser}

/-- **Between two calls the parser stands in its text and no level is open.** -/
theorem ready (h : Session source bound answers p) :
    p.scanner.StandsIn source ∧ p.depth = 0 ∧ p.bound = bound := by
  induction h with
  | fresh => exact ⟨Scanner.standsIn_ofString source, rfl, rfl⟩
  | @call answers p a c before allowed run ih =>
    obtain ⟨hp, closed, sameBound⟩ := ih
    have effect := c.effect hp closed allowed
    have depth := c.depth_run p
    rw [run] at effect depth
    exact ⟨effect.standsIn, depth.trans closed, effect.bound_eq.trans sameBound⟩

/-- **The effect of one more call.** -/
theorem effect (h : Session source bound answers p) {c : Call} {a : Answer}
    (allowed : c.Allowed p source) (run : c.run p = a) : Call.Effect source p a := by
  obtain ⟨hp, closed, -⟩ := h.ready
  exact run ▸ c.effect hp closed allowed

/-- **Whatever a session has passed lies behind it.** -/
theorem precedes_of_mem (h : Session source bound answers p) :
    ∀ q ∈ ofString source bound :: answers.map Prod.snd, q.Precedes p := by
  induction h with
  | fresh =>
    intro q hq
    obtain rfl := List.mem_singleton.mp hq
    exact .refl _
  | @call answers p a c before allowed run ih =>
    intro q hq
    rw [List.map_append, ← List.cons_append, List.mem_append] at hq
    rcases hq with hq | hq
    · exact (ih q hq).trans (before.effect allowed run).precedes
    · obtain rfl := List.mem_singleton.mp hq
      exact .refl _

/-- The parsers of a session, each before all that follow. -/
theorem pairwise_precedes (h : Session source bound answers p) :
    (ofString source bound :: answers.map Prod.snd).Pairwise Precedes := by
  induction h with
  | fresh => exact List.pairwise_singleton ..
  | @call answers p a c before allowed run ih =>
    rw [List.map_append, ← List.cons_append, List.pairwise_append]
    refine ⟨ih, List.pairwise_singleton .., fun q hq r hr => ?_⟩
    obtain rfl := List.mem_singleton.mp hr
    exact (before.precedes_of_mem q hq).trans (before.effect allowed run).precedes

/-- **No level but the first beyond the bound is ever entered,** and that one only by a call that
is refused for it. -/
theorem deepest_eq_iff (h : Session source bound answers p) :
    p.deepest ≤ bound + 1 ∧ (p.deepest = bound + 1 ↔ ∃ a ∈ answers, a.IsTooDeep) := by
  induction h with
  | fresh => exact ⟨Nat.zero_le _, nofun, by rintro ⟨a, ha, -⟩; cases ha⟩
  | @call answers p a c before allowed run ih =>
    obtain ⟨le, iff⟩ := ih
    obtain ⟨-, -, sameBound⟩ := before.ready
    have allowedBound : p.deepestAllowed = bound := by rw [deepestAllowed, sameBound]; rfl
    obtain ⟨level, deepest, level_le, level_iff⟩ := (before.effect allowed run).deepest_eq
    rw [allowedBound] at level_le level_iff
    -- the bound is passed by what came before or by this call
    have passed : max p.deepest level = bound + 1 ↔ p.deepest = bound + 1 ∨ level = bound + 1 := by
      omega
    rw [deepest, passed, iff, level_iff]
    refine ⟨Nat.max_le.mpr ⟨le, level_le⟩, ?_⟩
    constructor
    · rintro (⟨b, hb, tooDeep⟩ | tooDeep)
      · exact ⟨b, List.mem_append_left _ hb, tooDeep⟩
      · exact ⟨a, List.mem_append_right _ (List.mem_singleton_self a), tooDeep⟩
    · rintro ⟨b, hb, tooDeep⟩
      rcases List.mem_append.mp hb with hb | hb
      · exact .inl ⟨b, hb, tooDeep⟩
      · obtain rfl := List.mem_singleton.mp hb
        exact .inr tooDeep

/-- **Every error is at the offset of the parser it leaves.** -/
theorem error_at (h : Session source bound answers p) :
    ∀ a ∈ answers, ∀ e, a.1 = some e → e.At source a.2.scanner.offset := by
  induction h with
  | fresh => nofun
  | @call answers p a c before allowed run ih =>
    intro b hb
    rcases List.mem_append.mp hb with hb | hb
    · exact ih b hb
    · obtain rfl := List.mem_singleton.mp hb
      exact (before.effect allowed run).error_at

/-- **What holds of a parser that is used again and again,** whatever is asked of it and whatever
comes of that.  No level stays open, the scanner stays in the text and never goes back, the deepest
level is at most one beyond the bound and that exactly if some call was refused for it, and every
error is at the offset where the call stopped. -/
theorem invariant (h : Session source bound answers p) :
    p.depth = 0 ∧
      p.scanner.offset ≤ p.scanner.pos ∧ p.scanner.pos ≤ source.length ∧
      (ofString source bound :: answers.map Prod.snd).Pairwise Precedes ∧
      p.deepest ≤ bound + 1 ∧ (p.deepest = bound + 1 ↔ ∃ a ∈ answers, a.IsTooDeep) ∧
      ∀ a ∈ answers, ∀ e, a.1 = some e → e.At source a.2.scanner.offset := by
  obtain ⟨hp, closed, -⟩ := h.ready
  obtain ⟨deepest_le, deepest_iff⟩ := h.deepest_eq_iff
  exact ⟨closed, hp.offset_le, hp.pos_le, h.pairwise_precedes, deepest_le, deepest_iff, h.error_at⟩

/-- A formula that nests too deep, the equation at which it was refused, and two calls that fail
behind it: the second level stays the deepest, and every refusal is where the scanner was. -/
theorem invariant_refusals :
    let deep : Parser := ⟨⟨"=0)".toList, 2, 1⟩, 1, 0, 2⟩
    let behind : Parser := ⟨⟨")".toList, 4, 3⟩, 1, 0, 2⟩
    let further : Parser := ⟨⟨"".toList, 5, 4⟩, 1, 0, 2⟩
    let last : Parser := ⟨⟨"".toList, 5, 5⟩, 1, 0, 2⟩
    let answers : List Answer :=
      [(some ⟨.nestingTooDeep 1, some 1⟩, deep), (none, behind),
        (some ⟨.trailingInput .closeParen ")", some 4⟩, further),
        (some ⟨.unexpectedEnd "=", some 5⟩, last)]
    Session "~0=0)" 1 answers last ∧ last.depth = 0 ∧ last.deepest = 1 + 1 ∧
      (∃ a ∈ answers, a.IsTooDeep) ∧
      ∀ a ∈ answers, ∀ e, a.1 = some e → e.At "~0=0)" a.2.scanner.offset := by
  intro deep behind further last answers
  have zero : Call.Allowed deep "~0=0)" (.atom ⟨.zero, "0"⟩) :=
    ⟨⟨"0=0)".toList, 1, 0⟩, ⟨rfl, by decide, by decide⟩, rfl⟩
  have first : Session "~0=0)" 1 [(some ⟨.nestingTooDeep 1, some 1⟩, deep)] deep :=
    .call .formula .fresh trivial (by decide +kernel)
  have second : Session "~0=0)" 1 (answers.take 2) behind :=
    .call (.atom ⟨.zero, "0"⟩) first zero (by decide +kernel)
  have third : Session "~0=0)" 1 (answers.take 3) further :=
    .call .expectEnd second trivial (by decide +kernel)
  have fourth : Session "~0=0)" 1 answers last :=
    .call (.expect .equals "=") third trivial (by decide +kernel)
  obtain ⟨closed, -, -, -, -, deepest, errors⟩ := invariant fourth
  exact ⟨fourth, closed, rfl, deepest.mp rfl, errors⟩

end Session
end Parser
end Typographical
