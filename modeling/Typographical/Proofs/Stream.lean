/-
# A scanner used again and again

A scanner can be asked for one token or for an iteration, which scans on to the first
stop and returns what it has met, all but the end of the text.  In whatever order the
two are mixed, the scans of all of them go through one and the same list, that of
`Scanner.sightings` at the start of the text, and stay at its last element
(`Scanner.sightings_after`).

So a scanner is known by the number of scans that it has behind it: every use takes it as
many scans further as it makes (`Scanner.use_snd`), and what is met on the way are the next
elements of the list (`Scanner.metAll_getElem?`).  `Scanner.useAll_stream` says what
follows for the tokens that are returned.
-/

import Typographical.Proofs.Partition

namespace Typographical

/-- What an iteration returns of what it meets: the tokens, without the end of the text. -/
def Sighting.listed (ms : List Sighting) : List Token :=
  (ms.map Sighting.token).filter fun t => t.kind ≠ .endOfText

namespace Scanner

/-- What may be asked of a scanner: one token, or an iteration. -/
inductive Use
  | scan
  | iterate
deriving DecidableEq, Repr

/-- What a use returns, and the scanner it leaves. -/
def use (s : Scanner) : Use → List Token × Scanner
  | .scan => ([s.scan.1], s.scan.2)
  | .iterate => s.drain

/-- What the scans of a use meet. -/
def met (s : Scanner) : Use → List Sighting
  | .scan => [s.sighting]
  | .iterate => s.sightings

/-- What each of some uses returns, one made after the other, and the scanner that is left. -/
def useAll (s : Scanner) : List Use → List (List Token) × Scanner
  | [] => ([], s)
  | u :: uses => ((s.use u).1 :: ((s.use u).2.useAll uses).1, ((s.use u).2.useAll uses).2)

/-- What the scans of all these uses meet. -/
def metAll (s : Scanner) : List Use → List Sighting
  | [] => []
  | u :: uses => s.met u ++ (s.use u).2.metAll uses

/-! ### The list that all scans go through -/

/-- The list is one of tokens that are taken in and the stop behind them. -/
theorem exists_sightings_eq (s : Scanner) :
    ∃ taken stop, s.sightings = taken ++ [stop] ∧
      (∀ m ∈ taken, m.token.kind.isStop = false) ∧ stop.token.kind.isStop = true := by
  induction s using sightings.induct with
  | case1 s goesOn ih =>
    obtain ⟨taken, stop, e, goOn, stops⟩ := ih
    refine ⟨s.sighting :: taken, stop, ?_, List.forall_mem_cons.mpr ⟨goesOn, goOn⟩, stops⟩
    rw [sightings_of_goesOn goesOn, e, List.cons_append]
  | case2 s stopped =>
    have isStop := Bool.of_not_eq_false stopped
    exact ⟨[], s.sighting, sightings_of_isStop isStop, List.forall_mem_nil _, isStop⟩

theorem length_sightings_pos (s : Scanner) : 0 < s.sightings.length := by
  obtain ⟨taken, stop, e, -⟩ := s.exists_sightings_eq
  simp [e]

theorem head?_sightings (s : Scanner) : s.sightings.head? = some s.sighting := by
  rw [sightings]
  split <;> rfl

/-- Behind a stop every scan leaves the scanner where it is. -/
theorem after_of_isStop {s : Scanner} (h : s.scan.1.kind.isStop = true) (n : Nat) :
    s.after (n + 1) = s.scan.2 := by
  induction n with
  | zero => rfl
  | succ n ih => rw [after, ih, scan_scan_of_isStop h]

/-- **Scanning on from behind some scans goes through what is left of the list,** of which the last
element is never used up. -/
theorem sightings_after (s : Scanner) (n : Nat) :
    (s.after n).sightings = s.sightings.drop (min n (s.sightings.length - 1)) := by
  induction s using sightings.induct generalizing n with
  | case1 s goesOn ih =>
    cases n with
    | zero => rw [Nat.zero_min, List.drop_zero, after]
    | succ n =>
      have some := s.scan.2.length_sightings_pos
      have next : min (n + 1) ((s.sighting :: s.scan.2.sightings).length - 1) =
          min n (s.scan.2.sightings.length - 1) + 1 := by
        rw [List.length_cons]
        omega
      rw [← after_scan, ih, sightings_of_goesOn goesOn, next, List.drop_succ_cons]
  | case2 s stopped =>
    have isStop := Bool.of_not_eq_false stopped
    have whole := sightings_of_isStop isStop
    rw [whole, List.length_singleton, Nat.sub_self, Nat.min_zero, List.drop_zero]
    cases n with
    | zero => exact whole
    | succ n =>
      have again := scan_scan_of_isStop isStop
      rw [after_of_isStop isStop, sightings_of_isStop (by rwa [again]), sighting, again]
      rfl

/-- **A scan meets the element of the list that has its number, or the last one.** -/
theorem sightings_getElem? (s : Scanner) (n : Nat) :
    s.sightings[min n (s.sightings.length - 1)]? = some (s.after n).sighting := by
  rw [← List.head?_drop, ← sightings_after, head?_sightings]

theorem after_after (s : Scanner) (m n : Nat) : (s.after m).after n = s.after (m + n) := by
  induction n with
  | zero => rfl
  | succ n ih =>
    rw [after, ih]
    rfl

/-! ### One use -/

/-- Of a stop an iteration returns an illegal token. -/
theorem listed_singleton {stop : Sighting} (h : stop.token.kind.isStop = true) :
    Sighting.listed [stop] = if stop.token.kind = .illegal then [stop.token] else [] := by
  rcases TokenKind.isStop_iff.mp h with kind | kind <;> simp [Sighting.listed, kind]

/-- **An iteration scans to the first stop,** and returns what it has met on the way. -/
theorem drain_eq (s : Scanner) :
    s.drain = (Sighting.listed s.sightings, s.after s.sightings.length) := by
  induction s using sightings.induct with
  | case1 s goesOn ih =>
    have kept := (TokenKind.ne_of_isStop_eq_false goesOn).2
    have drained : s.drain = (s.scan.1 :: s.scan.2.drain.1, s.scan.2.drain.2) := by
      rw [drain]
      exact dif_pos goesOn
    rw [drained, ih, sightings_of_goesOn goesOn, List.length_cons, ← after_scan]
    simp [Sighting.listed, sighting, kept]
  | case2 s stopped =>
    have isStop := Bool.of_not_eq_false stopped
    have drained : s.drain = (if s.scan.1.kind = .illegal then [s.scan.1] else [], s.scan.2) := by
      rw [drain]
      exact dif_neg stopped
    rw [drained, sightings_of_isStop isStop, listed_singleton isStop]
    rfl

/-- **A use takes a scanner as many scans further as it makes.** -/
theorem use_snd (s : Scanner) (u : Use) : (s.use u).2 = s.after (s.met u).length := by
  cases u with
  | scan => rfl
  | iterate => rw [use, drain_eq, met]

/-- The scans of a use meet what scans meet one after the other. -/
theorem met_getElem? (s : Scanner) (u : Use) {k : Nat} (h : k < (s.met u).length) :
    (s.met u)[k]? = some (s.after k).sighting := by
  cases u with
  | scan =>
    obtain rfl : k = 0 := Nat.lt_one_iff.mp h
    rfl
  | iterate =>
    have number : min k (s.sightings.length - 1) = k := by
      rw [met] at h
      omega
    rw [met, ← sightings_getElem?, number]

/-- Of the tokens that reading does not stop at, a use returns what it meets. -/
theorem filter_use (s : Scanner) (u : Use) :
    (s.use u).1.filter (fun t => !t.kind.isStop) =
      ((s.met u).map Sighting.token).filter fun t => !t.kind.isStop := by
  cases u with
  | scan => rfl
  | iterate =>
    have both (t : Token) : (!t.kind.isStop && decide (t.kind ≠ .endOfText)) = !t.kind.isStop := by
      cases t.kind <;> rfl
    rw [use, met, drain_eq, Sighting.listed, List.filter_filter]
    simp only [both]

/-! ### One use after another -/

theorem length_useAll (s : Scanner) (uses : List Use) : (s.useAll uses).1.length = uses.length := by
  induction uses generalizing s with
  | nil => rfl
  | cons u uses ih => exact congrArg (· + 1) (ih _)

theorem useAll_append (s : Scanner) (before behind : List Use) :
    s.useAll (before ++ behind) =
      ((s.useAll before).1 ++ ((s.useAll before).2.useAll behind).1,
        ((s.useAll before).2.useAll behind).2) := by
  induction before generalizing s with
  | nil => rfl
  | cons u before ih =>
    rw [List.cons_append, useAll, ih]
    rfl

/-- **A scanner is known by the number of scans that were made.** -/
theorem useAll_snd (s : Scanner) (uses : List Use) :
    (s.useAll uses).2 = s.after (s.metAll uses).length := by
  induction uses generalizing s with
  | nil => rfl
  | cons u uses ih =>
    have last : (s.useAll (u :: uses)).2 = ((s.use u).2.useAll uses).2 := rfl
    rw [last, ih, metAll, List.length_append, ← after_after, ← use_snd]

/-- **The scans of all uses meet what scans meet one after the other.** -/
theorem metAll_getElem? (s : Scanner) (uses : List Use) {k : Nat}
    (h : k < (s.metAll uses).length) : (s.metAll uses)[k]? = some (s.after k).sighting := by
  induction uses generalizing s k with
  | nil => cases h
  | cons u uses ih =>
    rw [metAll, List.length_append] at h
    rw [metAll]
    rcases Nat.lt_or_ge k (s.met u).length with first | later
    · rw [List.getElem?_append_left first, met_getElem? s u first]
    · rw [List.getElem?_append_right later, ih _ (by omega), use_snd, after_after,
        Nat.add_sub_cancel' later]

/-- Of the tokens that reading does not stop at, all uses together return what they meet. -/
theorem filter_useAll (s : Scanner) (uses : List Use) :
    (s.useAll uses).1.flatten.filter (fun t => !t.kind.isStop) =
      ((s.metAll uses).map Sighting.token).filter fun t => !t.kind.isStop := by
  induction uses generalizing s with
  | nil => rfl
  | cons u uses ih =>
    have first : (s.useAll (u :: uses)).1 = (s.use u).1 :: ((s.use u).2.useAll uses).1 := rfl
    rw [first, metAll, List.flatten_cons, List.filter_append, List.map_append, List.filter_append,
      filter_use, ih]

/-- **What is met is the list as far as it goes, and its last element for every further scan.** -/
theorem metAll_eq (s : Scanner) {taken : List Sighting} {stop : Sighting}
    (h : s.sightings = taken ++ [stop]) (uses : List Use) :
    s.metAll uses = taken.take (s.metAll uses).length ++
      List.replicate ((s.metAll uses).length - taken.length) stop := by
  refine List.ext_getElem? fun k => ?_
  rcases Nat.lt_or_ge k (s.metAll uses).length with made | beyond
  · have number := s.sightings_getElem? k
    rw [h, List.length_append, List.length_singleton, Nat.add_sub_cancel] at number
    rw [metAll_getElem? s uses made, ← number]
    rcases Nat.lt_or_ge k taken.length with early | late
    · rw [Nat.min_eq_left (Nat.le_of_lt early), List.getElem?_append_left early,
        List.getElem?_append_left (by rw [List.length_take]; omega), List.getElem?_take_of_lt made]
    · rw [Nat.min_eq_right late, List.getElem?_concat_length,
        List.getElem?_append_right (by rw [List.length_take]; omega), List.length_take,
        List.getElem?_replicate_of_lt (by omega)]
  · rw [List.getElem?_eq_none beyond, List.getElem?_eq_none]
    rw [List.length_append, List.length_take, List.length_replicate]
    omega

/-- What a use returns that comes behind others: it is made where their scans have led. -/
theorem getElem?_useAll (s : Scanner) (before behind : List Use) (u : Use) :
    (s.useAll (before ++ u :: behind)).1[before.length]? =
      some ((s.after (s.metAll before).length).use u).1 := by
  rw [useAll_append, ← useAll_snd, ← s.length_useAll before, List.getElem?_append_right le_rfl,
    Nat.sub_self]
  rfl

/-- Where the last of some scans has left a scanner, what it met says. -/
theorem of_getLast?_metAll {s : Scanner} {uses : List Use} {m : Sighting}
    (h : (s.metAll uses).getLast? = some m) :
    (s.useAll uses).2.offset = m.offset ∧ (s.useAll uses).2.pos = m.pos := by
  have nonempty : 0 < (s.metAll uses).length := by
    rw [List.length_pos_iff]
    rintro none
    rw [none] at h
    cases h
  obtain ⟨n, number⟩ := Nat.exists_eq_succ_of_ne_zero nonempty.ne'
  rw [List.getLast?_eq_getElem?, metAll_getElem? s uses (by omega), Option.some.injEq] at h
  rw [useAll_snd, ← h, number]
  exact ⟨rfl, rfl⟩

/-- **One stream, however a scanner is used.**  Let `taken ++ [stop]` be what the first scans of a
text meet, up to and including the first stop.  Whatever uses are made of a scanner at the start of
the text, their scans meet the elements of this list in turn and then the last one again and again,
and the scanner is the one that as many single scans lead to.  So a scan returns the element that has its
number; an iteration returns what is left, without the end of the text, and behind a stop nothing
but an illegal token; and all uses together return each token of `taken` that was met, once and in
order. -/
theorem useAll_stream (source : String) (uses : List Use) :
    ∃ taken stop,
      (∀ m ∈ taken, m.token.kind.isStop = false) ∧ stop.token.kind.isStop = true ∧
      (∀ k ≤ taken.length, (taken ++ [stop])[k]? = some ((ofString source).after k).sighting) ∧
      (∀ k < ((ofString source).metAll uses).length,
        ((ofString source).metAll uses)[k]? = (taken ++ [stop])[min k taken.length]?) ∧
      ((ofString source).useAll uses).2 =
        (ofString source).after ((ofString source).metAll uses).length ∧
      (∀ m ∈ ((ofString source).metAll uses).getLast?,
        ((ofString source).useAll uses).2.offset = m.offset ∧
          ((ofString source).useAll uses).2.pos = m.pos) ∧
      (∀ before behind, uses = before ++ .scan :: behind →
        ∃ m, (taken ++ [stop])[min ((ofString source).metAll before).length taken.length]? =
            some m ∧
          ((ofString source).useAll uses).1[before.length]? = some [m.token]) ∧
      (∀ before behind, uses = before ++ .iterate :: behind →
        (((ofString source).metAll before).length ≤ taken.length →
          ((ofString source).useAll uses).1[before.length]? =
            some (Sighting.listed
              ((taken ++ [stop]).drop ((ofString source).metAll before).length))) ∧
        (taken.length < ((ofString source).metAll before).length →
          ((ofString source).useAll uses).1[before.length]? =
            some (if stop.token.kind = .illegal then [stop.token] else []))) ∧
      ((ofString source).useAll uses).1.flatten.filter (fun t => !t.kind.isStop) =
        (taken.take ((ofString source).metAll uses).length).map Sighting.token := by
  generalize ofString source = s
  obtain ⟨taken, stop, whole, goOn, stops⟩ := s.exists_sightings_eq
  have number (k : Nat) :
      (taken ++ [stop])[min k taken.length]? = some (s.after k).sighting := by
    have element := s.sightings_getElem? k
    rwa [whole, List.length_append, List.length_singleton, Nat.add_sub_cancel] at element
  have left (k : Nat) :
      (s.after k).sightings = (taken ++ [stop]).drop (min k taken.length) := by
    rw [sightings_after, whole, List.length_append, List.length_singleton, Nat.add_sub_cancel]
  refine ⟨taken, stop, goOn, stops, fun k early => ?_, fun k made => ?_,
    s.useAll_snd uses, fun m last => of_getLast?_metAll last, ?_, ?_, ?_⟩
  · rw [← number, Nat.min_eq_left early]
  · rw [number, metAll_getElem? s uses made]
  · rintro before behind rfl
    exact ⟨_, number _, getElem?_useAll s before behind .scan⟩
  · rintro before behind rfl
    rw [getElem?_useAll, use, drain_eq, left]
    constructor
    · intro early
      rw [Nat.min_eq_left early]
    · intro late
      rw [Nat.min_eq_right late.le, List.drop_left, listed_singleton stops]
  · have takenTokens (ms : List Sighting) (inside : ∀ m ∈ ms, m ∈ taken) :
        (ms.map Sighting.token).filter (fun t => !t.kind.isStop) = ms.map Sighting.token := by
      refine List.filter_eq_self.mpr fun t isToken => ?_
      obtain ⟨m, isMet, rfl⟩ := List.mem_map.mp isToken
      rw [goOn m (inside m isMet)]
      rfl
    have met := s.metAll_eq whole uses
    rw [filter_useAll]
    generalize (s.metAll uses).length = n at met ⊢
    rw [met, List.map_append, List.filter_append, takenTokens _ fun m => List.mem_of_mem_take,
      List.map_replicate, List.filter_replicate, stops]
    exact List.append_nil _

/-- The end of the text is left out, an illegal token is met again. -/
example :
    ((ofString "S a ").useAll [.scan, .iterate, .scan, .iterate]).1 =
      [[⟨.successor, "S"⟩], [⟨.variableName, "a"⟩], [⟨.endOfText, ""⟩], []] ∧
    ((ofString "S ?").useAll [.scan, .iterate, .scan, .iterate]).1 =
      [[⟨.successor, "S"⟩], [⟨.illegal, "?"⟩], [⟨.illegal, "?"⟩], [⟨.illegal, "?"⟩]] := by
  constructor <;> cbv

end Scanner
end Typographical
