/-
# One call after another

What a call for a part has scanned is its own and nothing more: a derivation of the
part when it succeeds, and when it fails the tokens as far as the one at fault
(`Parser.Part.TakesExactly`).  So calls can be made one after another, each from
where the one before has ended, and `Parser.formulas` reads as many formulas as are
written one behind the other (`Parser.formulas_of_derives`).
-/

import Mathlib.Data.List.Forall2
import Typographical.Proofs.Concatenation
import Typographical.Proofs.Part
import Typographical.Proofs.Verdict

namespace Typographical
namespace Parser

variable {g : Goal}

/-! ### One call -/

/-- **What a call for a part does.**  It leaves no level open.  One that succeeds scans a derivation
of the part, within the bound, and stands right behind it.  One that fails has scanned the token at
fault last and names its offset; the next call goes on right behind that token, or meets it again if
it is a stop. -/
structure Part.TakesExactly (part : Part g) (p : Parser) : Prop where
  scans : p.scanner.Reads (part.scanned p) (part.read p).2.scanner
  closes : (part.read p).2.depth = 0
  derives : ∀ T, (part.read p).1 = .ok T →
    ∃ level, level ≤ p.deepestAllowed ∧ part.Derives (part.scanned p) T level
  blames : ∀ e, (part.read p).1 = .error e →
    ∃ us t, part.scanned p = us ++ [t] ∧ part.Blames p.bound us t e.fault ∧
      e.position = some ↑(part.read p).2.scanner.offset
  goesOn : ∀ us t, part.scanned p = us ++ [t] → t.kind.isStop = false →
    (part.read p).2.scanner.pos = (part.read p).2.scanner.offset + t.text.length
  stays : ∀ us t, part.scanned p = us ++ [t] → t.kind.isStop = true →
    (part.read p).2.scanner.scan = (t, (part.read p).2.scanner)

/-- **Every call for a part takes exactly what it should,** if no level is open before it. -/
theorem Part.takesExactly (part : Part g) {p : Parser} (closed : p.depth = 0) :
    part.TakesExactly p where
  scans := by
    rw [read_eq]
    exact reads_scanned part.due p
  closes := (part.depth_read p).trans closed
  derives T ok := by
    rw [read_eq] at ok
    have low := peak_scanned_le (part.standsAt closed) (Prod.ext ok rfl)
    obtain ⟨level, derives⟩ := exists_derives_of_run (run_scanned (Prod.ext ok rfl))
    exact ⟨level, derives.leads.2 ▸ low, derives⟩
  blames e error := by
    rw [read_eq] at error ⊢
    obtain ⟨us, t, d, scanned, run, low, faults⟩ :=
      fault_of_read (part.standsAt closed) (Prod.ext error rfl)
    exact ⟨us, t, scanned, .of_faults run low faults, position_of_read (Prod.ext error rfl)⟩
  goesOn us t scanned goesOn := by
    have reads := reads_scanned part.due p
    rw [← read_eq, ← Part.scanned, scanned] at reads
    obtain ⟨mid, -, scan⟩ := reads.exists_scan
    have behind : mid.scan.2.pos = mid.scan.2.offset + mid.scan.1.width := rfl
    simpa only [scan, Token.width, goesOn, Bool.false_eq_true, if_false] using behind
  stays us t scanned stop := by
    have reads := reads_scanned part.due p
    rw [← read_eq, ← Part.scanned, scanned] at reads
    obtain ⟨mid, -, scan⟩ := reads.exists_scan
    have again := Scanner.scan_scan_of_isStop (s := mid) (by rwa [scan])
    rwa [scan] at again

/-! ### Calls for formulas -/

/-- Reads so many formulas, one after the other. -/
def formulas : Nat → Parser → Except ParseError (List Formula) × Parser
  | 0, p => (.ok [], p)
  | n + 1, p =>
    match p.formula with
    | (.error e, later) => (.error e, later)
    | (.ok F, later) =>
      match later.formulas n with
      | (.error e, last) => (.error e, last)
      | (.ok Fs, last) => (.ok (F :: Fs), last)

/-- **Formulas that come next, one behind the other, are read one after the other,** and nothing
behind them. -/
theorem formulas_of_derives {p : Parser} {allowed : Nat} {texts : List (List Token)}
    {Fs : List Formula} {ws : List Token} (closed : p.depth = 0)
    (bound : p.deepestAllowed = allowed)
    (tokens : p.scanner.drain.1 = texts.flatten ++ ws)
    (each : List.Forall₂ (fun us F => ∃ level, level ≤ allowed ∧ DerivesFormula us F level)
      texts Fs) :
    ∃ last, p.formulas texts.length = (.ok Fs, last) ∧ last.scanner.drain.1 = ws := by
  induction each generalizing p with
  | nil => exact ⟨p, rfl, tokens⟩
  | @cons us F texts Fs first others ih =>
    obtain ⟨level, low, derives⟩ := first
    obtain ⟨run, peak⟩ := derives.leads_start
    rw [List.flatten_cons, List.append_assoc] at tokens
    obtain ⟨behind, reads, rest⟩ :=
      Scanner.exists_reads_of_drain_fst tokens (Progress.isStop_of_run run)
    have within : p.depth - 0 + Progress.start.peak us ≤ p.deepestAllowed := by
      rw [closed, Nat.zero_add, peak, bound]
      exact low
    obtain ⟨later, read, place, same⟩ :=
      read_of_run (Part.formula.hasLevel_due) (Nat.zero_le _) reads run within
    have formula : p.formula = (.ok F, later) := read
    have restored : p.formula.2.depth = p.depth := Part.formula.depth_read p
    rw [formula] at restored
    have sameBound : later.deepestAllowed = allowed := (congrArg Int.toNat same).trans bound
    obtain ⟨last, others, ends⟩ := ih (restored.trans closed) sameBound (place ▸ rest)
    refine ⟨last, ?_, ends⟩
    rw [List.length_cons, formulas, formula]
    simp only [others]

/-- **What a call for a part takes, and what it makes of that.**  Where no level is open, a call
takes exactly the tokens of its part, or as many as it needs to see one at fault.  What it answers is
told by these tokens alone: any other parser under the same bound to which they come next scans the
same tokens and answers the same, up to the offset of an error.  So texts that are accepted are read
by as many calls from the text that has them one behind the other with spaces between. -/
theorem calls_take_exactly :
    (∀ {g : Goal} (part : Part g) (p : Parser), p.depth = 0 → part.TakesExactly p ∧
      ∀ (q : Parser) (last : Scanner), q.depth = 0 → q.bound = p.bound →
        q.scanner.Reads (part.scanned p) last →
          part.scanned q = part.scanned p ∧ (part.read q).2.scanner = last ∧
            (part.read q).1.mapError ParseError.fault =
              (part.read p).1.mapError ParseError.fault) ∧
      ∀ (texts : List String) (Fs : List Formula) (d : Nat),
        List.Forall₂ (fun s F => Formula.parse s d = .ok F) texts Fs →
        ∃ last, (ofString (" ".intercalate texts) d).formulas texts.length = (.ok Fs, last) ∧
          last.expectEnd.1 = .ok () := by
  refine ⟨fun part p closed => ⟨part.takesExactly closed, fun q last closed' bound tokens => ?_⟩,
    fun texts Fs d each => ?_⟩
  · rw [Part.read_eq, Part.read_eq]
    exact read_congr (part.standsAt closed) (part.standsAt closed') bound tokens
  · have derived (s : String) (F : Formula) (accepted : Formula.parse s d = .ok F) :
        (∀ t ∈ tokenize s, t.kind ≠ .illegal) ∧
          ∃ level, level ≤ d ∧ DerivesFormula (tokenize s) F level :=
      (accepted ▸ Formula.outcome_parse s d).derives
    obtain ⟨legal, within⟩ := (List.forall₂_and_left _ _).mp (each.imp derived)
    have tokens : (ofString (" ".intercalate texts) d).scanner.drain.1 =
        (texts.map tokenize).flatten ++ [] := by
      rw [List.append_nil, ← List.flatMap_def]
      exact tokenize_intercalate legal
    have bound : (ofString (" ".intercalate texts) d).deepestAllowed = d := Int.toNat_natCast d
    obtain ⟨last, read, nothing⟩ :=
      formulas_of_derives rfl bound tokens (List.forall₂_map_left_iff.mpr within)
    rw [List.length_map] at read
    refine ⟨last, read, ?_⟩
    rcases last.scanner.drain_fst_eq_nil_or_cons with ⟨ends, -⟩ | ⟨-, ts, more⟩
    · rw [expectEnd_of_endOfText ends]
    · cases nothing.symm.trans more

/-- The same tokens in two texts, with something else behind them in each, and two accepted texts
one behind the other. -/
theorem calls_take_exactly_twice :
    let F : Formula := .atom (.numeral 0) (.var ⟨"a"⟩)
    let p : Parser := ofString "0=a)" 4
    let q : Parser := ⟨⟨" 0 = a ~".toList, 1, 0⟩, 4, 0, 0⟩
    let tokens : List Token := [⟨.zero, "0"⟩, ⟨.equals, "="⟩, ⟨.variableName, "a"⟩]
    (Part.scanned .formula p = tokens ∧ q.scanner.Reads tokens ⟨" ~".toList, 7, 6⟩ ∧
      Part.scanned .formula q = tokens) ∧
      List.Forall₂ (fun s F => Formula.parse s 4 = .ok F) ["0=a", "~0=a "] [F, .negation F] ∧
      ∃ last, (ofString (" ".intercalate ["0=a", "~0=a "]) 4).formulas 2 =
          (.ok [F, .negation F], last) ∧ last.expectEnd.1 = .ok () := by
  have first : Part.scanned .formula (ofString "0=a)" 4) =
      [⟨.zero, "0"⟩, ⟨.equals, "="⟩, ⟨.variableName, "a"⟩] := by cbv
  intro F p q tokens
  have reads : q.scanner.Reads tokens ⟨" ~".toList, 7, 6⟩ := .cons (.cons (.cons (.nil _)))
  have each : List.Forall₂ (fun s F => Formula.parse s 4 = .ok F) ["0=a", "~0=a "]
      [F, .negation F] := .cons (by cbv) (.cons (by cbv) .nil)
  obtain ⟨calls, sequences⟩ := calls_take_exactly
  obtain ⟨-, told⟩ := calls .formula p rfl
  obtain ⟨same, -, -⟩ := told q _ rfl rfl (by rwa [first])
  exact ⟨⟨first, reads, same.trans first⟩, each, sequences _ _ 4 each⟩

end Parser
end Typographical
