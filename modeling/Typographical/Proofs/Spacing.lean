/-
# Blanks inside runs

Blanks between the letters of a run make several runs of it, and of what stands between
the runs nothing changes (`lexemes_spread`).  So a term that is read of the wider text is
one of the same value, and the same term exactly if every place where blanks were put in
has nothing but letters of runs and blanks between it and a zero.

`Term.folding_keeps_value` puts together what folding does: by a call, in a reading, and
in a reading of a text with blanks in its runs.
-/

import Mathlib.Algebra.Group.Nat.Defs
import Typographical.Proofs.Seam
import Typographical.Proofs.Splitting

namespace Typographical

/-! ### Putting blanks in -/

namespace Text

/-- The text with something put in behind each character: what is given for its place. -/
def spread (w : Nat → List Char) : List Char → List Char
  | [] => []
  | c :: l => c :: (w 0 ++ spread (fun i => w (i + 1)) l)

/-- Only blanks are put in, and only between two letters of a run. -/
structure InsideRuns (w : Nat → List Char) (l : List Char) : Prop where
  blank : ∀ i, ∀ c ∈ w i, isBlank c = true
  inside : ∀ i, w i ≠ [] → l[i]? = some 'S' ∧ l[i + 1]? = some 'S'

variable {w : Nat → List Char} {c : Char} {xs l : List Char}

theorem head?_spread : (spread w l).head? = l.head? := by
  cases l <;> rfl

namespace InsideRuns

theorem tail (h : InsideRuns w (c :: l)) : InsideRuns (fun i => w (i + 1)) l where
  blank i := h.blank (i + 1)
  inside i nonempty := h.inside (i + 1) nonempty

/-- Nothing is put in behind a character that is no letter of a run, or at the end of one. -/
theorem eq_nil (h : InsideRuns w (c :: l)) (outside : c ≠ 'S' ∨ l.head? ≠ some 'S') :
    w 0 = [] := by
  by_contra nonempty
  obtain ⟨letter, next⟩ := h.inside 0 nonempty
  rcases outside with other | ends
  · exact other (Option.some.inj letter)
  · rw [List.head?_eq_getElem?] at ends
    exact ends next

/-- Behind characters that are no letters of a run nothing is put in. -/
theorem append (h : InsideRuns w (xs ++ l)) (other : ∀ c ∈ xs, c ≠ 'S') :
    InsideRuns (fun i => w (i + xs.length)) l ∧
      spread w (xs ++ l) = xs ++ spread (fun i => w (i + xs.length)) l ∧
      ∀ P : List Char → Prop, (∀ i, w i ≠ [] → P ((xs ++ l).drop (i + 1))) ↔
        ∀ i, w (i + xs.length) ≠ [] → P (l.drop (i + 1)) := by
  induction xs generalizing w with
  | nil => exact ⟨h, rfl, fun P => Iff.rfl⟩
  | cons c xs ih =>
    obtain ⟨first, others⟩ := List.forall_mem_cons.mp other
    obtain ⟨behind, spreads, places⟩ := ih h.tail others
    have none := h.eq_nil (.inl first)
    refine ⟨behind, ?_, fun P => ?_⟩
    · rw [List.cons_append, spread, none, List.nil_append, spreads]
      rfl
    · rw [← Nat.and_forall_add_one]
      exact (and_iff_right fun some => absurd none some).trans (places P)

end InsideRuns
end Text

/-! ### The tokens of the wider text -/

/-- Blanks at the front are passed over. -/
theorem lexemes_append_of_isBlank {ws : List Char} (h : ∀ c ∈ ws, Text.isBlank c = true)
    (l : List Char) : lexemes (ws ++ l) = lexemes l := by
  induction ws with
  | nil => rfl
  | cons c ws ih =>
    obtain ⟨first, others⟩ := List.forall_mem_cons.mp h
    rw [List.cons_append, lexemes_blank first, ih others]

/-- A letter of a run begins a token, with all the letters behind it. -/
theorem lexemes_letter (l : List Char) :
    lexemes ('S' :: l) =
      ⟨.successor, String.ofList ('S' :: l.takeWhile isSuccessorLetter)⟩ ::
        lexemes (l.dropWhile isSuccessorLetter) :=
  lexemes_of_leadingToken rfl rfl

/-- A letter that no other one stands behind is a run. -/
theorem lexemes_letter_of_ne {l : List Char} (h : l.head? ≠ some 'S') :
    lexemes ('S' :: l) = ⟨.successor, "S"⟩ :: lexemes l := by
  have stops : ∀ c ∈ l.head?, isSuccessorLetter c = false := by
    intro c next
    rw [isSuccessorLetter_eq_false_iff]
    rintro rfl
    exact h next
  have letter : Token.Longest l.head? ⟨.successor, String.ofList ['S']⟩ :=
    .run (List.cons_ne_nil _ _) (List.forall_mem_singleton.mpr rfl) stops
  exact lexemes_longest letter

/-- A letter in front of blanks is a run. -/
theorem lexemes_letter_append_of_isBlank {ws : List Char} (nonempty : ws ≠ [])
    (h : ∀ c ∈ ws, Text.isBlank c = true) (l : List Char) :
    lexemes ('S' :: (ws ++ l)) = ⟨.successor, "S"⟩ :: lexemes l := by
  have apart : (ws ++ l).head? ≠ some 'S' := by
    obtain ⟨c, ws, rfl⟩ := List.exists_cons_of_ne_nil nonempty
    rintro ⟨⟩
    cases h 'S' List.mem_cons_self
  rw [lexemes_letter_of_ne apart, lexemes_append_of_isBlank h]

/-- A letter in front of a run belongs to it. -/
theorem exists_lexemes_letter {l : List Char} (h : l.head? = some 'S') :
    ∃ run ts, lexemes l = ⟨.successor, run⟩ :: ts ∧
      lexemes ('S' :: l) = ⟨.successor, String.ofList ('S' :: run.toList)⟩ :: ts := by
  obtain ⟨l, rfl⟩ := List.head?_eq_some_iff.mp h
  refine ⟨_, _, lexemes_letter l, ?_⟩
  rw [lexemes_letter, String.toList_ofList]
  rfl

/-- A letter in front of a text is no illegal token, and does away with none. -/
theorem legal_of_letter {l : List Char} (h : ∀ t ∈ lexemes ('S' :: l), t.kind ≠ .illegal) :
    ∀ t ∈ lexemes l, t.kind ≠ .illegal := by
  by_cases next : l.head? = some 'S'
  · obtain ⟨run, ts, tokens, longer⟩ := exists_lexemes_letter next
    rw [longer] at h
    rw [tokens]
    exact List.forall_mem_cons.mpr ⟨nofun, (List.forall_mem_cons.mp h).2⟩
  · rw [lexemes_letter_of_ne next] at h
    exact (List.forall_mem_cons.mp h).2

/-! ### Runs with blanks in them -/

/-- **One letter more in front.**  It is divided from the run behind it by the blanks put in behind
it, and if there are none it makes the first part of that run longer. -/
theorem exists_divides_letter {w : Nat → List Char} {l : List Char} {k : Nat}
    (spaced : Text.InsideRuns w ('S' :: l))
    (divides : Divides (lexemes l) (lexemes (Text.spread (fun i => w (i + 1)) l)) k) :
    ∃ k', Divides (lexemes ('S' :: l)) (lexemes (Text.spread w ('S' :: l))) k' ∧
      (k' = 0 ↔ (w 0 ≠ [] → FrontsZero (lexemes l)) ∧ k = 0) := by
  have head : (Text.spread (fun i => w (i + 1)) l).head? = l.head? := Text.head?_spread
  rw [Text.spread]
  by_cases next : l.head? = some 'S'
  · obtain ⟨run, ts, tokens, longer⟩ := exists_lexemes_letter next
    obtain ⟨first, us, tokens', longer'⟩ := exists_lexemes_letter (head.trans next)
    rw [longer]
    rw [tokens] at divides ⊢
    by_cases none : w 0 = []
    · rw [tokens'] at divides
      rw [none, List.nil_append, longer']
      exact ⟨k, divides.longer, (and_iff_right fun some => absurd rfl some).symm⟩
    · rw [lexemes_letter_append_of_isBlank none (spaced.blank 0)]
      have length : (String.ofList ('S' :: run.toList)).length = "S".length + run.length := by
        rw [String.length_ofList, List.length_cons, String.length_toList, Nat.add_comm]
        rfl
      refine ⟨_, .cut length divides, ?_⟩
      rw [Nat.add_eq_zero_iff, frontsZero_run, and_comm]
      refine and_congr_left fun _ => ?_
      by_cases zero : FrontsZero ts <;> simp [zero, none]
  · rw [spaced.eq_nil (.inr next), List.nil_append, lexemes_letter_of_ne next,
      lexemes_letter_of_ne (head.trans_ne next)]
    exact ⟨k, .keep _ divides, (and_iff_right fun some => absurd rfl some).symm⟩

/-- **Along the cutting of a text, with the letters of runs one by one.** -/
@[elab_as_elim]
theorem letterInduction {motive : List Char → Prop} (nil : motive [])
    (blank : ∀ c l, Text.isBlank c = true → motive l → motive (c :: l))
    (stray : ∀ c l, BeginsNothing c → motive (c :: l))
    (token : ∀ t l, Token.Longest l.head? t → (∀ c ∈ t.text.toList, c ≠ 'S') → motive l →
      motive (t.text.toList ++ l))
    (letter : ∀ l, motive l → motive ('S' :: l)) (l : List Char) : motive l := by
  induction l using cutInduction with
  | nil => exact nil
  | blank c l h ih => exact blank c l h ih
  | stray c l h => exact stray c l h
  | token t l longest ih =>
    cases longest with
    | symbol h =>
      refine token _ l (.symbol h) (fun c hc => ?_) ih
      rw [String.toList_ofList, List.mem_singleton] at hc
      rintro rfl
      cases hc ▸ h
    | name first all stops =>
      refine token _ l (.name first all stops) (fun c hc => ?_) ih
      rw [String.toList_ofList] at hc
      rintro rfl
      rcases List.mem_cons.mp hc with rfl | hc
      · cases first
      · cases all _ hc
    | @run letters nonempty all stops =>
      rw [String.toList_ofList]
      clear nonempty
      induction letters with
      | nil => exact ih
      | cons c letters more =>
        obtain ⟨first, others⟩ := List.forall_mem_cons.mp all
        obtain rfl := isSuccessorLetter_iff.mp first
        exact letter _ (more others)

/-- **Blanks inside runs divide the runs,** and a division is in front of a zero where the text
behind the place is. -/
theorem lexemes_spread {w : Nat → List Char} {l : List Char} (spaced : Text.InsideRuns w l)
    (legal : ∀ t ∈ lexemes l, t.kind ≠ .illegal) :
    ∃ k, Divides (lexemes l) (lexemes (Text.spread w l)) k ∧
      (k = 0 ↔ ∀ i, w i ≠ [] → FrontsZero (lexemes (l.drop (i + 1)))) := by
  induction l using letterInduction generalizing w with
  | nil =>
    have nothing : ∀ i, w i ≠ [] → FrontsZero (lexemes (([] : List Char).drop (i + 1))) := by
      intro i nonempty
      cases (spaced.inside i nonempty).1
    refine ⟨0, ?_, iff_of_true rfl nothing⟩
    rw [Text.spread, lexemes_nil]
    exact .nil
  | blank c l blank ih =>
    have other : ∀ b ∈ [c], b ≠ 'S' := by
      rintro _ only rfl
      rw [← List.mem_singleton.mp only] at blank
      cases blank
    have whole : Text.InsideRuns w ([c] ++ l) := spaced
    obtain ⟨behind, spreads, places⟩ := whole.append other
    rw [List.singleton_append, List.singleton_append] at spreads
    rw [lexemes_blank blank] at legal ⊢
    obtain ⟨k, divides, even⟩ := ih behind legal
    refine ⟨k, ?_, even.trans (places fun l => FrontsZero (lexemes l)).symm⟩
    rwa [spreads, lexemes_blank blank]
  | stray c l nothing =>
    rw [lexemes_of_beginsNothing nothing] at legal
    exact absurd rfl (legal _ List.mem_cons_self)
  | token t l longest other ih =>
    obtain ⟨behind, spreads, places⟩ := spaced.append other
    rw [lexemes_longest longest] at legal ⊢
    obtain ⟨k, divides, even⟩ := ih behind (List.forall_mem_cons.mp legal).2
    refine ⟨k, ?_, even.trans (places fun l => FrontsZero (lexemes l)).symm⟩
    rw [← Text.head?_spread (w := fun i => w (i + t.text.toList.length))] at longest
    rw [spreads, lexemes_longest longest]
    exact .keep t divides
  | letter l ih =>
    obtain ⟨k, divides, even⟩ := ih spaced.tail (legal_of_letter legal)
    obtain ⟨k', divides, even'⟩ := exists_divides_letter spaced divides
    have places : (∀ i, w i ≠ [] → FrontsZero (lexemes (('S' :: l).drop (i + 1)))) ↔
        (w 0 ≠ [] → FrontsZero (lexemes l)) ∧
          ∀ i, w (i + 1) ≠ [] → FrontsZero (lexemes (l.drop (i + 1))) :=
      Nat.and_forall_add_one.symm
    refine ⟨k', divides, ?_⟩
    rw [even', even, places]

/-! ### What folding keeps -/

/-- The text with something put in behind its characters. -/
def Text.spreadString (w : Nat → List Char) (source : String) : String :=
  String.ofList (Text.spread w source.toList)

/-- **Blanks inside the runs of a text that derives a term.**  The wider text derives a term of the
same value, and the same term exactly if every place where blanks were put in is in front of a
zero. -/
theorem DerivesTerm.of_spread {source : String} {w : Nat → List Char} {t : Term} {l : Nat}
    (spaced : Text.InsideRuns w source.toList) (h : DerivesTerm (tokenize source) t l) :
    ∃ u m, DerivesTerm (tokenize (Text.spreadString w source)) u m ∧
      (∀ σ, u.value σ = t.value σ) ∧
      (u = t ↔ ∀ i, w i ≠ [] →
        FrontsZero (tokenize (String.ofList (source.toList.drop (i + 1))))) := by
  rw [tokenize_eq_lexemes] at h
  have legal : ∀ t ∈ lexemes source.toList, t.kind ≠ .illegal := fun t taken =>
    (TokenKind.ne_of_isStop_eq_false (h.isStop_eq_false t taken)).1
  obtain ⟨k, divides, even⟩ := lexemes_spread spaced legal
  obtain ⟨u, m, derives, split⟩ := h.of_divides divides
  refine ⟨u, m, ?_, split.value, ?_⟩
  · rwa [tokenize_eq_lexemes, Text.spreadString, String.toList_ofList]
  · simp only [tokenize_eq_lexemes, String.toList_ofList]
    exact split.eq_iff.trans even

/-- **Folding keeps what a term stands for.**  A call that adds a number of successors to a term
adds that number to its value, and from one on it succeeds, with the term that reading makes of
them; the trees that calls can build have at no node a successor that
is applied less than once or to a numeral.  A term that is read has the value of its derivation
with a node for every letter of a run.  Blanks that are put into the runs of a text change the term
exactly if one of the places is not in front of a zero, and never its value. -/
theorem Term.folding_keeps_value :
    ((∀ (value : Int) (t : Term), ofValue value = .ok t → ∀ σ, (t.value σ : Int) = value) ∧
      (∀ (q : Int) (s t : Term), ofFoldedSuccessor q s = .ok t →
        ∀ σ, (t.value σ : Int) = q + s.value σ) ∧
      ∀ (q : Int) (s : Term), 1 ≤ q → ofFoldedSuccessor q s = .ok (s.addSuccessors q.toNat)) ∧
    (∀ root : Node, root.Buildable → ∀ place part, (place, part) ∈ root.parts → part.Sound) ∧
    (∀ ts t l, DerivesTerm ts t l →
      (∃ u, DerivesUnfolded ts u) ∧ (∀ u, DerivesUnfolded ts u → ∀ σ, t.value σ = u.value σ) ∧
      ∀ (p : Parser) last, p.scanner.Reads ts last → p.depth + l ≤ p.bound →
        ∃ later, p.term = (.ok t, later) ∧ later.scanner = last) ∧
    ∀ source w t l, Text.InsideRuns w source.toList → DerivesTerm (tokenize source) t l →
      ∃ u m, DerivesTerm (tokenize (Text.spreadString w source)) u m ∧
        (∀ bound : Int, l ≤ bound → m ≤ bound →
          (Parser.ofString source bound).term.1 = .ok t ∧
            (Parser.ofString (Text.spreadString w source) bound).term.1 = .ok u) ∧
        (∀ σ, u.value σ = t.value σ) ∧
        (u = t ↔ ∀ i, w i ≠ [] →
          FrontsZero (tokenize (String.ofList (source.toList.drop (i + 1))))) := by
  refine ⟨⟨fun _ _ => value_ofValue, fun _ _ _ => value_ofFoldedSuccessor,
      fun _ s one => ofFoldedSuccessor_of_one_le one s⟩,
    fun root built place part => built.allSound (place, part), fun ts t l derives => ?_,
    fun source w t l spaced derives => ?_⟩
  · exact ⟨derives.exists_unfolded, fun u => derives.value_eq_of_unfolded,
      fun p last => Parser.term_of_derives derives⟩
  · obtain ⟨u, m, derivesSpread, value, same⟩ := derives.of_spread spaced
    refine ⟨u, m, derivesSpread, fun bound within withinSpread => ?_, value, same⟩
    exact ⟨Parser.term_ofString derives within, Parser.term_ofString derivesSpread withinSpread⟩

/-- Three successors more, a blank in the run in front of a variable, and one in the run in front of
a zero. -/
theorem Term.folding_keeps_value_blank :
    let t : Term := .compound .sum (.successor 2 (.var ⟨"a"⟩)) (.numeral 2)
    (ofFoldedSuccessor 3 t = .ok (.successor 3 t) ∧
      ∀ σ, ((Term.successor 3 t).value σ : Int) = 3 + t.value σ) ∧
    (∃ (bound : Int) (u : Term), (Parser.ofString "(S Sa+SS0)" bound).term.1 = .ok u ∧ u ≠ t ∧
      ∀ σ, u.value σ = t.value σ) ∧
    ∃ bound : Int, (Parser.ofString "(SSa+S S0)" bound).term.1 = .ok t := by
  intro t
  let blankAt (n : Nat) : Nat → List Char := fun i => if i = n then [' '] else []
  have tokens : tokenize "(SSa+SS0)" = [⟨.openParen, "("⟩, ⟨.successor, "SS"⟩,
      ⟨.variableName, "a"⟩, ⟨.plus, "+"⟩, ⟨.successor, "SS"⟩, ⟨.zero, "0"⟩, ⟨.closeParen, ")"⟩] := by
    cbv
  have derives : DerivesTerm (tokenize "(SSa+SS0)") t 3 := by
    rw [tokens]
    exact .compound .sum "(" "+" ")" (.successor "SS" rfl (.var "a")) (.numeral "SS" (.zero "0"))
  have spaced (n : Nat) (letters : "(SSa+SS0)".toList[n]? = some 'S' ∧
      "(SSa+SS0)".toList[n + 1]? = some 'S') :
      Text.InsideRuns (blankAt n) "(SSa+SS0)".toList := by
    refine ⟨fun i c put => ?_, fun i put => ?_⟩ <;> by_cases place : i = n <;>
      simp only [blankAt, place, if_true, if_false] at put
    · rw [List.mem_singleton.mp put]
      rfl
    · cases put
    · exact place ▸ letters
    · exact absurd rfl put
  have call : ofFoldedSuccessor 3 t = .ok (.successor 3 t) :=
    Term.folding_keeps_value.1.2.2 3 t (by decide)
  refine ⟨⟨call, Term.folding_keeps_value.1.2.1 3 t _ call⟩, ?_, ?_⟩
  · obtain ⟨u, m, -, read, value, same⟩ :=
      Term.folding_keeps_value.2.2.2 _ _ t 3 (spaced 1 ⟨rfl, rfl⟩) derives
    have behind : tokenize (String.ofList ("(SSa+SS0)".toList.drop 2)) =
        [⟨.successor, "S"⟩, ⟨.variableName, "a"⟩, ⟨.plus, "+"⟩, ⟨.successor, "SS"⟩, ⟨.zero, "0"⟩,
          ⟨.closeParen, ")"⟩] := by
      cbv
    refine ⟨3 + m, u, (read (3 + m) (by omega) (by omega)).2, fun equal => ?_, value⟩
    have zero := same.mp equal 1 (List.cons_ne_nil _ _)
    rw [behind] at zero
    exact absurd zero (by decide)
  · obtain ⟨u, m, -, read, -, same⟩ :=
      Term.folding_keeps_value.2.2.2 _ _ t 3 (spaced 5 ⟨rfl, rfl⟩) derives
    have behind : tokenize (String.ofList ("(SSa+SS0)".toList.drop 6)) =
        [⟨.successor, "S"⟩, ⟨.zero, "0"⟩, ⟨.closeParen, ")"⟩] := by
      cbv
    have equal : u = t := by
      refine same.mpr fun i put => ?_
      by_cases place : i = 5
      · rw [place, behind]
        decide
      · simp only [blankAt, place, if_false] at put
        exact absurd rfl put
    exact ⟨3 + m, equal ▸ (read (3 + m) (by omega) (by omega)).2⟩

end Typographical
