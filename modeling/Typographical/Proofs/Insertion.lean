/-
# Blanks that are put into a text

Blanks may be put anywhere in a text but inside a name or a run of successors
(`CutsToken`).  A scanner of the wider text then keeps step with one of the text
(`Scanner.Widened`): before the place in question both stand at the same offset,
behind it one is ahead by as many characters as were put in, and both meet the same
tokens (`Scanner.Widened.scan`).  So a reading answers the same, and an error that is
not before the place moves along with the text behind it
(`Formula.parse_insert_blanks`).
-/

import Typographical.Proofs.Concatenation
import Typographical.Proofs.Consumption
import Typographical.Proofs.Verdict
import Typographical.Reading

namespace Typographical

/-- The place lies inside a token that goes on over several characters, a name or a run of
successors. -/
def CutsToken (source : String) (n : Nat) : Prop :=
  ∃ k t, (tokenize source)[k]? = some t ∧ (t.kind = .variableName ∨ t.kind = .successor) ∧
    tokenOffset source k < n ∧ n < tokenOffset source k + t.text.length

/-- The error once so many characters have been put in at a place: what is not before the place
moves. -/
def ParseError.moved (n k : Nat) (e : ParseError) : ParseError :=
  { e with position := e.position.map fun i => if (n : Int) ≤ i then i + k else i }

/-- An error moves by its offset alone. -/
theorem ParseError.eq_moved {e e' : ParseError} {n k offset : Nat} (fault : e'.fault = e.fault)
    (position : e.position = some ↑offset)
    (position' : e'.position = some ↑(if n ≤ offset then offset + k else offset)) :
    e' = e.moved n k := by
  obtain ⟨fault', place'⟩ := e'
  obtain ⟨fault₀, place⟩ := e
  obtain rfl : fault' = fault₀ := fault
  obtain rfl : place = some ↑offset := position
  obtain rfl : place' = some ↑(if n ≤ offset then offset + k else offset) := position'
  by_cases le : n ≤ offset <;> simp [moved, le]

/-- Only a name or a run has more than one character. -/
theorem Scanner.kind_of_one_lt_length {s : Scanner} (h : 1 < s.scan.1.text.length) :
    s.scan.1.kind = .variableName ∨ s.scan.1.kind = .successor := by
  have first : s.scan.1 = (leadingToken (s.rest.dropWhile Text.isBlank)).1 := rfl
  rw [first] at h ⊢
  generalize s.rest.dropWhile Text.isBlank = l at h ⊢
  cases l with
  | nil => cases h
  | cons c l =>
    rcases leadingToken_cons_cases c l with ⟨kind, -, e⟩ | e | e | e <;> rw [e] at h ⊢
    · rw [String.length_ofList] at h
      exact absurd h (Nat.lt_irrefl 1)
    · exact .inl rfl
    · exact .inr rfl
    · rw [String.length_ofList] at h
      exact absurd h (Nat.lt_irrefl 1)

namespace Scanner

/-! ### Places inside tokens -/

/-- The place lies inside the next token. -/
def Straddles (s : Scanner) (n : Nat) : Prop :=
  s.scan.2.offset < n ∧ n < s.scan.2.offset + s.scan.1.text.length

/-- The place lies inside no token that is met before or at the first stop. -/
def Uncut (s : Scanner) (n : Nat) : Prop :=
  ∀ us last, s.Reads us last → (∀ t ∈ us, t.kind.isStop = false) → ¬last.Straddles n

variable {n : Nat} {s s' last : Scanner} {us : List Token}

theorem Uncut.reads (h : s.Uncut n) (reads : s.Reads us last)
    (goesOn : ∀ t ∈ us, t.kind.isStop = false) : last.Uncut n := by
  intro vs end_ reads' goesOn'
  refine h (us ++ vs) end_ (reads.trans reads') fun t ht => ?_
  exact (List.mem_append.mp ht).elim (goesOn t) (goesOn' t)

theorem Uncut.not_straddles (h : s.Uncut n) : ¬s.Straddles n :=
  h [] s (.nil s) nofun

/-- **What cuts no name and no run of a text lies inside none of its tokens.** -/
theorem uncut_ofString {source : String} (h : ¬CutsToken source n) :
    (ofString source).Uncut n := by
  intro us last reads goesOn ⟨after, before⟩
  -- a token with room for a place inside is no stop, so it is among the tokens of the text
  have long : 1 < last.scan.1.text.length := by omega
  have kind := kind_of_one_lt_length long
  have taken : last.scan.1.kind.isStop = false := by
    rcases kind with e | e <;> rw [e] <;> rfl
  have tokens : tokenize source = us ++ last.scan.1 :: last.scan.2.drain.1 := by
    rw [← drain_fst_of_goesOn taken]
    exact reads.drain_fst goesOn
  refine h ⟨us.length, last.scan.1, ?_, kind, ?_, ?_⟩
  · simp [tokens]
  · rwa [reads.tokenOffset_eq]
  · rwa [reads.tokenOffset_eq]

/-! ### Two texts side by side -/

/-- Scanners of two texts, of which the second has some characters more at a place. -/
inductive Widened (n : Nat) (w : List Char) (s s' : Scanner) : Prop
  | before (x v : List Char) (rest : s.rest = x ++ v) (rest' : s'.rest = x ++ (w ++ v))
      (pos : s'.pos = s.pos) (place : s.pos + x.length = n) : Widened n w s s'
  | behind (rest : s'.rest = s.rest) (pos : s'.pos = s.pos + w.length) (place : n ≤ s.pos) :
      Widened n w s s'

variable {w : List Char}

/-- Where the same is left behind the blanks, the same token is met. -/
theorem Widened.scan_behind (rest : s'.rest.dropWhile Text.isBlank = s.rest.dropWhile Text.isBlank)
    (offset : s'.scan.2.offset = s.scan.2.offset + w.length) (place : n ≤ s.scan.2.offset) :
    s'.scan.1 = s.scan.1 ∧ Widened n w s.scan.2 s'.scan.2 := by
  have token : s'.scan.1 = s.scan.1 := congrArg (fun l => (leadingToken l).1) rest
  refine ⟨token, .behind (congrArg (fun l => (leadingToken l).2) rest) ?_ ?_⟩
  · have pos : s.scan.2.pos = s.scan.2.offset + s.scan.1.width := rfl
    have pos' : s'.scan.2.pos = s'.scan.2.offset + s'.scan.1.width := rfl
    rw [pos, pos', offset, token, Nat.add_right_comm]
  · exact Nat.le_trans place s.offset_scan_le_pos_scan

/-- Where a token comes before the place and does not reach beyond it, the same token is met. -/
theorem Widened.scan_before {x v : List Char} (rest : s.rest = x ++ v)
    (rest' : s'.rest = x ++ (w ++ v)) (pos : s'.pos = s.pos) (place : s.pos + x.length = n)
    (blank : ∀ c ∈ w, Text.isBlank c = true) (something : x.dropWhile Text.isBlank ≠ [])
    (uncut : ¬s.Straddles n) :
    s'.scan.1 = s.scan.1 ∧ s'.scan.2.offset = s.scan.2.offset ∧ s.scan.2.offset < n ∧
      Widened n w s.scan.2 s'.scan.2 := by
  have lengths := length_takeWhile_add_length_dropWhile Text.isBlank x
  have some : 0 < (x.dropWhile Text.isBlank).length := List.length_pos_iff.mpr something
  have front (l : List Char) : (x ++ l).takeWhile Text.isBlank = x.takeWhile Text.isBlank :=
    (takeWhile_isBlank_append something l).1
  have left (l : List Char) : (x ++ l).dropWhile Text.isBlank = x.dropWhile Text.isBlank ++ l :=
    (takeWhile_isBlank_append something l).2
  have offset : s.scan.2.offset = s.pos + (x.takeWhile Text.isBlank).length := by
    simp only [Scanner.scan, rest, front]
  have within : (leadingToken (x.dropWhile Text.isBlank ++ v)).1.text.length ≤
      (x.dropWhile Text.isBlank).length := by
    have token : s.scan.1 = (leadingToken (x.dropWhile Text.isBlank ++ v)).1 := by
      simp only [Scanner.scan, rest, left]
    rw [Straddles, token, offset] at uncut
    omega
  -- in both texts the token is the one that what is left before the place begins with
  have cut := leadingToken_append something within
  have cut' := leadingToken_insert something blank within
  have taken := width_add_length_leadingToken (x.dropWhile Text.isBlank)
  refine ⟨?_, ?_, by omega, .before (leadingToken (x.dropWhile Text.isBlank)).2 v ?_ ?_ ?_ ?_⟩
  · simp only [Scanner.scan, rest, rest', left, cut, cut']
  · simp only [Scanner.scan, rest, rest', pos, front]
  · simp only [Scanner.scan, rest, left, cut]
  · simp only [Scanner.scan, rest', left, cut']
  · simp only [Scanner.scan, rest, rest', pos, front, left, cut, cut']
  · simp only [Scanner.scan, rest, front, left, cut]
    omega

/-- **Blanks that are put in do not change the next token,** unless they are put inside it.  It is
found behind them if it begins no earlier than they do. -/
theorem Widened.scan (h : Widened n w s s') (blank : ∀ c ∈ w, Text.isBlank c = true)
    (uncut : ¬s.Straddles n) :
    s'.scan.1 = s.scan.1 ∧
      s'.scan.2.offset = (if n ≤ s.scan.2.offset then s.scan.2.offset + w.length
        else s.scan.2.offset) ∧ Widened n w s.scan.2 s'.scan.2 := by
  cases h with
  | behind rest pos place =>
    have offset : s'.scan.2.offset = s.scan.2.offset + w.length := by
      simp only [Scanner.scan, rest, pos]
      omega
    have later : n ≤ s.scan.2.offset := Nat.le_trans place s.pos_le_offset_scan
    obtain ⟨token, behind⟩ := Widened.scan_behind (by rw [rest]) offset later
    exact ⟨token, by rw [if_pos later, offset], behind⟩
  | before x v rest rest' pos place =>
    by_cases nothing : x.dropWhile Text.isBlank = []
    · -- with nothing but blanks before the place, the token begins behind it in both texts
      have blanks : ∀ c ∈ x, Text.isBlank c = true := List.dropWhile_eq_nil_iff.mp nothing
      have start : s.scan.2.offset = n + (v.takeWhile Text.isBlank).length := by
        simp only [Scanner.scan, rest, List.takeWhile_append_of_pos blanks, List.length_append]
        omega
      have start' : s'.scan.2.offset = n + w.length + (v.takeWhile Text.isBlank).length := by
        simp only [Scanner.scan, rest', List.takeWhile_append_of_pos blanks,
          List.takeWhile_append_of_pos blank, List.length_append]
        omega
      have same : s'.rest.dropWhile Text.isBlank = s.rest.dropWhile Text.isBlank := by
        rw [rest, rest', List.dropWhile_append_of_pos blanks, List.dropWhile_append_of_pos blanks,
          List.dropWhile_append_of_pos blank]
      have later : n ≤ s.scan.2.offset := by omega
      have offset : s'.scan.2.offset = s.scan.2.offset + w.length := by omega
      obtain ⟨token, behind⟩ := Widened.scan_behind same offset later
      exact ⟨token, by rw [if_pos later, offset], behind⟩
    · obtain ⟨token, offset, earlier, before⟩ :=
        Widened.scan_before rest rest' pos place blank nothing uncut
      exact ⟨token, by rw [if_neg (Nat.not_le.mpr earlier), offset], before⟩

/-- **So it is with as many tokens as are met before the first stop.** -/
theorem Widened.reads (h : Widened n w s s') (blank : ∀ c ∈ w, Text.isBlank c = true)
    (uncut : s.Uncut n) (reads : s.Reads us last) (goesOn : ∀ t ∈ us, t.kind.isStop = false) :
    ∃ last', s'.Reads us last' ∧ Widened n w last last' := by
  induction reads generalizing s' with
  | nil s => exact ⟨s', .nil s', h⟩
  | @cons s last us reads ih =>
    have first : ∀ t ∈ [s.scan.1], t.kind.isStop = false := fun t ht =>
      goesOn t (List.mem_cons.mpr (.inl (List.mem_singleton.mp ht)))
    obtain ⟨token, -, next⟩ := h.scan blank uncut.not_straddles
    obtain ⟨last', reads', ends⟩ := ih next (uncut.reads (.cons (.nil _)) first)
      fun t ht => goesOn t (List.mem_cons_of_mem _ ht)
    rw [← token]
    exact ⟨last', .cons reads', ends⟩

end Scanner

/-! ### Reading the wider text -/

namespace Parser

variable {g : Goal} {n : Nat} {w : List Char} {p q : Parser}

/-- **Blanks that are put in do not change what is read,** and move its errors. -/
theorem read_widened {c : Due g} (here : p.StandsAt c) (there : q.StandsAt c)
    (bound : q.bound = p.bound)
    (h : Scanner.Widened n w p.scanner q.scanner) (blank : ∀ c ∈ w, Text.isBlank c = true)
    (uncut : p.scanner.Uncut n) :
    (q.read c).1 = (p.read c).1.mapError (ParseError.moved n w.length) ∧
      ∀ T, (p.read c).1 = .ok T →
        Scanner.Widened n w (p.read c).2.scanner (q.read c).2.scanner ∧
          (p.read c).2.scanner.Uncut n := by
  have reads := reads_scanned c p
  rcases hp : p.read c with ⟨e | T, later⟩ <;> rw [hp] at reads
  · obtain ⟨us, t, d, scanned, run, -, -⟩ := fault_of_read here hp
    have goesOn := Progress.isStop_of_run run
    rw [scanned] at reads
    -- the token at fault is met in both texts behind what is taken before it
    obtain ⟨mid, begins, scan⟩ := reads.exists_scan
    obtain ⟨mid', begins', beside⟩ := h.reads blank uncut begins goesOn
    obtain ⟨token, offset, -⟩ := beside.scan blank (uncut.reads begins goesOn).not_straddles
    have tokens : q.scanner.Reads (p.scanned c) mid'.scan.2 := by
      have all := begins'.snoc
      rwa [token, scan, ← scanned] at all
    obtain ⟨-, place, answer⟩ := read_congr here there bound tokens
    rw [hp] at answer
    rcases hq : q.read c with ⟨e' | T', later'⟩ <;> rw [hq] at answer place
    · refine ⟨congrArg Except.error ?_, nofun⟩
      have position := position_of_read hq
      rw [place, offset, scan] at position
      exact ParseError.eq_moved (Except.error.inj answer) (position_of_read hp) position
    · cases answer
  · have goesOn := Progress.isStop_of_run (run_scanned hp)
    obtain ⟨last', tokens, beside⟩ := h.reads blank uncut reads goesOn
    obtain ⟨-, place, answer⟩ := read_congr here there bound tokens
    rw [hp] at answer
    rcases hq : q.read c with ⟨e' | T', later'⟩ <;> rw [hq] at answer place
    · cases answer
    · obtain rfl : T' = T := Except.ok.inj answer
      refine ⟨rfl, fun _ _ => ⟨?_, uncut.reads reads goesOn⟩⟩
      rwa [place]

/-- The end of a text is the end of the wider text. -/
theorem expectEnd_widened (h : Scanner.Widened n w p.scanner q.scanner)
    (blank : ∀ c ∈ w, Text.isBlank c = true) (uncut : p.scanner.Uncut n) :
    q.expectEnd.1 = p.expectEnd.1.mapError (ParseError.moved n w.length) := by
  obtain ⟨token, offset, -⟩ := h.scan blank uncut.not_straddles
  by_cases ends : p.scanner.scan.1.kind = .endOfText
  · rw [expectEnd_of_endOfText ends, expectEnd_of_endOfText (by rwa [token])]
    rfl
  · rw [expectEnd_of_ne ends, expectEnd_of_ne (by rwa [token]), token, offset]
    exact congrArg Except.error (ParseError.eq_moved rfl rfl rfl)

/-- A formula and then the end, in the text and in the wider text. -/
theorem formulaAndEnd_widened (here : p.StandsAt (.formula (.outermost 1)))
    (there : q.StandsAt (.formula (.outermost 1))) (bound : q.bound = p.bound)
    (h : Scanner.Widened n w p.scanner q.scanner) (blank : ∀ c ∈ w, Text.isBlank c = true)
    (uncut : p.scanner.Uncut n) :
    q.formulaAndEnd.1 = p.formulaAndEnd.1.mapError (ParseError.moved n w.length) := by
  obtain ⟨answer, goesOn⟩ : q.formula.1 = p.formula.1.mapError (ParseError.moved n w.length) ∧
      ∀ F, p.formula.1 = .ok F →
        Scanner.Widened n w p.formula.2.scanner q.formula.2.scanner ∧
          p.formula.2.scanner.Uncut n := read_widened here there bound h blank uncut
  unfold formulaAndEnd
  rcases hp : p.formula with ⟨e | F, later⟩ <;> rcases hq : q.formula with ⟨e' | F', later'⟩ <;>
    rw [hp, hq] at answer goesOn <;> cases answer
  · rfl
  · obtain ⟨beside, uncut⟩ := goesOn F rfl
    have ends := expectEnd_widened beside blank uncut
    rcases he : later.expectEnd with ⟨e | _, last⟩ <;>
      rcases he' : later'.expectEnd with ⟨e' | _, last'⟩ <;> rw [he, he'] at ends <;> cases ends
    · simp only [he, he']
      rfl
    · simp only [he, he']
      rfl

end Parser

/-- The error of a reading under settings, once so many characters have been put in at a place. -/
def ReadError.moved (n k : Nat) : ReadError → ReadError
  | settings e => settings e
  | refused e => refused (e.moved n k)

/-- **Blanks make no difference between tokens.**  Put into a text anywhere but inside a name or a
run of successors, they leave the formula as it is, and the error too but for its offset, which
moves along with the text behind them.  So it is under every bound, and under whatever settings are
asked for, however they are checked. -/
theorem Formula.parse_insert_blanks (u v w : String) (uncut : ¬CutsToken (u ++ v) u.length)
    (blank : ∀ c ∈ w.toList, Text.isBlank c = true) :
    (∀ d, Formula.parse (u ++ w ++ v) d =
        (Formula.parse (u ++ v) d).mapError (ParseError.moved u.length w.length)) ∧
      ∀ validate given environment, Formula.read validate (u ++ w ++ v) given environment =
        (Formula.read validate (u ++ v) given environment).mapError
          (ReadError.moved u.length w.length) := by
  have parse (d : Nat) : Formula.parse (u ++ w ++ v) d =
      (Formula.parse (u ++ v) d).mapError (ParseError.moved u.length w.length) := by
    have widened : Scanner.Widened u.length w.toList (Parser.ofString (u ++ v) d).scanner
        (Parser.ofString (u ++ w ++ v) d).scanner := by
      refine .before u.toList v.toList String.toList_append ?_ rfl ?_
      · show (u ++ w ++ v).toList = _
        rw [String.toList_append, String.toList_append, List.append_assoc]
      · show 0 + u.toList.length = _
        rw [Nat.zero_add, String.length_toList]
    rw [Formula.parse_eq, Formula.parse_eq, ← String.length_toList (s := w)]
    exact Parser.formulaAndEnd_widened (Parser.standsAt_ofString _ _)
      (Parser.standsAt_ofString _ _) rfl widened blank (Scanner.uncut_ofString uncut)
  refine ⟨parse, fun validate given environment => ?_⟩
  rcases found : Settings.load validate given environment with e | settings
  · rw [Formula.read_of_error found, Formula.read_of_error found]
    rfl
  · rw [Formula.read_of_ok found, Formula.read_of_ok found, parse]
    cases Formula.parse (u ++ v) settings.maxDepth <;> rfl

/-- Behind the prime of a name, in a text that breaks off: the name stays one, and the end moves. -/
theorem Formula.parse_insert_blanks_unfinished :
    ¬CutsToken ("a\x27" ++ "=S") "a\x27".length ∧
      (∀ c ∈ " \t".toList, Text.isBlank c = true) ∧
      Formula.parse ("a\x27" ++ "=S") 4 = .error ⟨.unexpectedEnd "term", some 4⟩ ∧
      Formula.parse ("a\x27" ++ " \t" ++ "=S") 4 = .error ⟨.unexpectedEnd "term", some 6⟩ := by
  have tokens : tokenize ("a\x27" ++ "=S") =
      [⟨.variableName, "a\x27"⟩, ⟨.equals, "="⟩, ⟨.successor, "S"⟩] := by cbv
  have uncut : ¬CutsToken ("a\x27" ++ "=S") "a\x27".length := by
    rintro ⟨k, t, ht, kind, after, before⟩
    rw [tokens] at ht
    rcases k with _ | _ | _ | k <;> cases ht
    · exact absurd before (by decide)
    · exact absurd kind (by decide)
    · exact absurd after (by decide)
  have blank : ∀ c ∈ " \t".toList, Text.isBlank c = true := List.all_eq_true.mp (by decide)
  have breaksOff : Formula.parse ("a\x27" ++ "=S") 4 = .error ⟨.unexpectedEnd "term", some 4⟩ := by
    cbv
  obtain ⟨moved, -⟩ := Formula.parse_insert_blanks "a\x27" "=S" " \t" uncut blank
  refine ⟨uncut, blank, breaksOff, ?_⟩
  rw [moved, breaksOff]
  rfl

end Typographical
