/-
# The partition of a text

`Scanner.sightings` lists what is met from one scan to the next, the first stop included,
with the places.  `Division` says how a text is divided: into tokens that stand where
they were met, each the longest of its sort, and blanks between them, up to the end of
the text or to some character of it.

A text has several divisions, since one may stop at a character that could be taken in
(`Division.not_unique`).  `Partition` asks for a stop at which no token begins.  A text
has one partition, and the scanner finds it
(`Scanner.exists_partition`, `Partition.sightings_eq`).  Nothing is lost in it
(`Partition.exists_gaps`), and it breaks off at an illegal token exactly where the text
has a character out of place (`Scanner.exists_illegal_iff`).
-/

import Mathlib.Data.List.Forall2
import Typographical.Proofs.Stray

namespace Typographical

/-- A token as it was met: how many characters come before it, and how many have been taken in once
it is read. -/
structure Sighting where
  token : Token
  offset : Nat
  pos : Nat
deriving DecidableEq, Repr

namespace Scanner

/-- What the next scan meets. -/
def sighting (s : Scanner) : Sighting :=
  ⟨s.scan.1, s.scan.2.offset, s.scan.2.pos⟩

/-- What is met in scanning on, up to and including the first stop. -/
def sightings (s : Scanner) : List Sighting :=
  if _goesOn : s.scan.1.kind.isStop = false then s.sighting :: s.scan.2.sightings
  else [s.sighting]
termination_by s.rest.length
decreasing_by exact rest_scan_lt _goesOn

theorem sightings_of_goesOn {s : Scanner} (h : s.scan.1.kind.isStop = false) :
    s.sightings = s.sighting :: s.scan.2.sightings := by
  rw [sightings, dif_pos h]

theorem sightings_of_isStop {s : Scanner} (h : s.scan.1.kind.isStop = true) :
    s.sightings = [s.sighting] := by
  rw [sightings, dif_neg (by simp [h])]

end Scanner

/-! ### Partitions -/

/-- The second place comes no earlier than the first, and blanks are all that is between them. -/
def Text.BlankBetween (source : String) (m n : Nat) : Prop :=
  m ≤ n ∧ ∀ c ∈ (slice source m (n - m)).toList, isBlank c = true

theorem Text.BlankBetween.refl (source : String) (n : Nat) : BlankBetween source n n := by
  refine ⟨Nat.le_refl n, ?_⟩
  rw [slice, Nat.sub_self, List.take_zero, String.toList_ofList]
  exact List.forall_mem_nil _

/-- What scanning may stop at: the end of the text, or a character of it.  Nothing is taken in. -/
inductive Sighting.Stops (source : String) : Sighting → Prop
  | endOfText : Stops source ⟨⟨.endOfText, ""⟩, source.length, source.length⟩
  | illegal {c : Char} {n : Nat} (stands : source.toList[n]? = some c) :
      Stops source ⟨⟨.illegal, String.ofList [c]⟩, n, n⟩

/-- A division of a text from a place on, into tokens that are taken in, a stop, and blanks. -/
structure Division (source : String) (start : Nat) (taken : List Sighting) (stop : Sighting) :
    Prop where
  /-- Each token stands where it was met. -/
  stands : ∀ m ∈ taken ++ [stop],
    Text.slice source m.offset m.token.text.length = m.token.text
  /-- Between the end of one token and the next there are blanks alone. -/
  blanks : List.Forall₂ (Text.BlankBetween source) (start :: taken.map Sighting.pos)
    ((taken ++ [stop]).map Sighting.offset)
  /-- Each token that is taken in is the longest of its sort, and is taken in whole. -/
  longest : ∀ m ∈ taken, m.token.text ≠ "" ∧ m.pos = m.offset + m.token.text.length ∧
    m.token.Longest source.toList[m.pos]?
  stops : stop.Stops source

/-- **A text may be divided in two ways,** both of them with an illegal token as a stray character
asks for: with a nought that is taken in, or with the nought as the stop. -/
theorem Division.not_unique :
    Division "0_" 0 [⟨⟨.zero, "0"⟩, 0, 1⟩] ⟨⟨.illegal, "_"⟩, 1, 1⟩ ∧
      Division "0_" 0 [] ⟨⟨.illegal, "0"⟩, 0, 0⟩ ∧
      (∃ front c back, "0_".toList = front ++ c :: back ∧ Stray front.getLast? c) ∧
      ¬∀ source taken stop taken' stop',
        Division source 0 taken stop → Division source 0 taken' stop' →
        ((∃ m ∈ taken ++ [stop], m.token.kind = .illegal) ↔
          ∃ front c back, source.toList = front ++ c :: back ∧ Stray front.getLast? c) →
        ((∃ m ∈ taken' ++ [stop'], m.token.kind = .illegal) ↔
          ∃ front c back, source.toList = front ++ c :: back ∧ Stray front.getLast? c) →
        taken = taken' ∧ stop = stop' := by
  have takenIn : Division "0_" 0 [⟨⟨.zero, "0"⟩, 0, 1⟩] ⟨⟨.illegal, "_"⟩, 1, 1⟩ :=
    { stands := List.forall_mem_cons.mpr ⟨rfl, List.forall_mem_singleton.mpr rfl⟩
      blanks := .cons (.refl _ 0) (.cons (.refl _ 1) .nil)
      longest := List.forall_mem_singleton.mpr ⟨by decide, rfl, .symbol (c := '0') rfl⟩
      stops := .illegal (c := '_') rfl }
  have stopped : Division "0_" 0 [] ⟨⟨.illegal, "0"⟩, 0, 0⟩ :=
    { stands := List.forall_mem_singleton.mpr rfl
      blanks := .cons (.refl _ 0) .nil
      longest := nofun
      stops := .illegal (c := '0') rfl }
  have stray : ∃ front c back, "0_".toList = front ++ c :: back ∧ Stray front.getLast? c :=
    ⟨['0'], '_', [], rfl, ⟨rfl, rfl, rfl, rfl⟩, fun h => absurd h.1 (by decide)⟩
  refine ⟨takenIn, stopped, stray, fun unique => ?_⟩
  obtain ⟨same, -⟩ := unique "0_" _ _ _ _ takenIn stopped
    (iff_of_true ⟨_, List.mem_append_right _ List.mem_cons_self, rfl⟩ stray)
    (iff_of_true ⟨_, List.mem_append_right _ List.mem_cons_self, rfl⟩ stray)
  cases same

/-- If the sighting is of an illegal character, no token begins with it. -/
def Sighting.Barren (m : Sighting) : Prop :=
  ∀ c, m.token = ⟨.illegal, String.ofList [c]⟩ → BeginsNothing c

/-- A division that stops only where no token begins. -/
structure Partition (source : String) (start : Nat) (taken : List Sighting) (stop : Sighting) :
    Prop extends Division source start taken stop where
  barren : stop.Barren

section

variable {source : String} {start : Nat} {m stop : Sighting} {taken : List Sighting}

theorem partition_nil :
    Partition source start [] stop ↔
      Text.slice source stop.offset stop.token.text.length = stop.token.text ∧
        Text.BlankBetween source start stop.offset ∧ stop.Stops source ∧ stop.Barren := by
  constructor
  · rintro ⟨⟨stands, blanks, -, stops⟩, barren⟩
    exact ⟨stands stop List.mem_cons_self, (List.forall₂_cons.mp blanks).1, stops, barren⟩
  · rintro ⟨stands, blank, stops, barren⟩
    exact ⟨⟨List.forall_mem_singleton.mpr stands, .cons blank .nil, nofun, stops⟩, barren⟩

theorem partition_cons :
    Partition source start (m :: taken) stop ↔
      Text.slice source m.offset m.token.text.length = m.token.text ∧
        Text.BlankBetween source start m.offset ∧
        (m.token.text ≠ "" ∧ m.pos = m.offset + m.token.text.length ∧
          m.token.Longest source.toList[m.pos]?) ∧
        Partition source m.pos taken stop := by
  constructor
  · rintro ⟨⟨stands, blanks, longest, stops⟩, barren⟩
    obtain ⟨stands, others⟩ := List.forall_mem_cons.mp stands
    obtain ⟨blank, blanks⟩ := List.forall₂_cons.mp blanks
    obtain ⟨first, longest⟩ := List.forall_mem_cons.mp longest
    exact ⟨stands, blank, first, ⟨others, blanks, longest, stops⟩, barren⟩
  · rintro ⟨stands, blank, first, ⟨others, blanks, longest, stops⟩, barren⟩
    exact ⟨⟨List.forall_mem_cons.mpr ⟨stands, others⟩, .cons blank blanks,
      List.forall_mem_cons.mpr ⟨first, longest⟩, stops⟩, barren⟩

end

/-! ### The scanner finds one -/

namespace Scanner

variable {source : String} {s : Scanner}

theorem StandsIn.getElem?_pos (h : s.StandsIn source) : source.toList[s.pos]? = s.rest.head? := by
  rw [h.rest_eq, List.head?_drop]

/-- What is passed over in front of a token are blanks. -/
theorem StandsIn.blankBetween_scan (h : s.StandsIn source) :
    Text.BlankBetween source s.pos s.scan.2.offset := by
  refine ⟨s.pos_le_offset_scan, fun c hc => ?_⟩
  have passed : s.scan.2.offset - s.pos = (s.rest.takeWhile Text.isBlank).length :=
    Nat.add_sub_cancel_left ..
  rw [Text.slice, String.toList_ofList, ← h.rest_eq, passed] at hc
  have front := List.takeWhile_prefix Text.isBlank (l := s.rest)
  rw [← List.prefix_iff_eq_take.mp front] at hc
  exact List.mem_takeWhile_imp hc

/-- A token that is taken in is the longest, and taken in whole. -/
theorem StandsIn.longest_scan (h : s.StandsIn source) (goesOn : s.scan.1.kind.isStop = false) :
    s.scan.1.text ≠ "" ∧ s.scan.2.pos = s.scan.2.offset + s.scan.1.text.length ∧
      s.scan.1.Longest source.toList[s.scan.2.pos]? := by
  have longest : s.scan.1.Longest source.toList[s.scan.2.pos]? := by
    rw [h.scan.getElem?_pos]
    exact longest_leadingToken goesOn
  have pos : s.scan.2.pos = s.scan.2.offset + s.scan.1.width := rfl
  refine ⟨longest.text_ne, ?_, longest⟩
  rw [pos, Token.width, goesOn]
  rfl

/-- Where nothing is taken in, the text ends or no token begins. -/
theorem StandsIn.stops_sighting (h : s.StandsIn source) (isStop : s.scan.1.kind.isStop = true) :
    s.sighting.Stops source ∧ s.sighting.Barren := by
  obtain ⟨l, hl⟩ : ∃ l, l = s.rest.dropWhile Text.isBlank := ⟨_, rfl⟩
  have token : s.scan.1 = (leadingToken l).1 := by rw [hl]; rfl
  have stays : s.scan.2.pos = s.scan.2.offset := by
    show s.scan.2.offset + s.scan.1.width = _
    rw [Token.width, if_pos isStop, Nat.add_zero]
  have behind := h.drop_offset_scan
  rw [← hl] at behind
  rw [sighting, stays, token]
  rw [token] at isStop
  cases hk : (leadingToken l).1.kind with
  | endOfText =>
    obtain rfl := eq_nil_of_leadingToken hk
    rw [h.offset_scan_of_endOfText (token ▸ hk)]
    refine ⟨.endOfText, fun c same => ?_⟩
    cases congrArg Token.kind same
  | illegal =>
    obtain ⟨c, rest, rfl, nothing⟩ :=
      exists_beginsNothing_of_leadingToken hk (hl ▸ eq_false_of_mem_head?_dropWhile)
    rw [leadingToken_of_beginsNothing nothing]
    have stands : source.toList[s.scan.2.offset]? = some c := by
      rw [← List.head?_drop, behind]
      rfl
    refine ⟨.illegal stands, fun d same => ?_⟩
    obtain ⟨rfl, -⟩ := List.cons.inj (String.ofList_injective (Token.mk.inj same).2)
    exact nothing
  | _ =>
    rw [hk] at isStop
    cases isStop

/-- **Scanning divides what is left of a text.** -/
theorem exists_partition (hs : s.StandsIn source) :
    ∃ taken stop, s.sightings = taken ++ [stop] ∧ Partition source s.pos taken stop := by
  induction s using sightings.induct with
  | case1 s goesOn ih =>
    obtain ⟨taken, stop, e, partition⟩ := ih hs.scan
    refine ⟨s.sighting :: taken, stop, ?_, partition_cons.mpr ?_⟩
    · rw [sightings_of_goesOn goesOn, e, List.cons_append]
    · exact ⟨hs.slice_scan, hs.blankBetween_scan, hs.longest_scan goesOn, partition⟩
  | case2 s stopped =>
    have isStop := Bool.of_not_eq_false stopped
    refine ⟨[], s.sighting, sightings_of_isStop isStop, partition_nil.mpr ?_⟩
    exact ⟨hs.slice_scan, hs.blankBetween_scan, hs.stops_sighting isStop⟩

/-! ### There is no other -/

/-- **With blanks up to a place, and none there, the next token begins there.** -/
theorem StandsIn.scan_of_blankBetween {n : Nat} (hs : s.StandsIn source)
    (blank : Text.BlankBetween source s.pos n) (le : n ≤ source.length)
    (stops : ∀ c ∈ (source.toList.drop n).head?, Text.isBlank c = false) :
    s.scan.1 = (leadingToken (source.toList.drop n)).1 ∧ s.scan.2.offset = n := by
  obtain ⟨before, blanks⟩ := blank
  rw [Text.slice, String.toList_ofList, ← hs.rest_eq] at blanks
  have behind : s.rest.drop (n - s.pos) = source.toList.drop n := by
    rw [hs.rest_eq, List.drop_drop, Nat.add_sub_cancel' before]
  have whole := List.take_append_drop (n - s.pos) s.rest
  rw [behind] at whole
  have length : (s.rest.take (n - s.pos)).length = n - s.pos := by
    have total := hs.pos_add_length
    rw [List.length_take]
    omega
  obtain ⟨passed, left⟩ := takeWhile_append_of_stops blanks stops
  rw [whole] at passed left
  constructor
  · show (leadingToken (s.rest.dropWhile Text.isBlank)).1 = _
    rw [left]
  · show s.pos + (s.rest.takeWhile Text.isBlank).length = n
    rw [passed, length]
    omega

/-- **The next token is the longest one that stands behind blanks.** -/
theorem StandsIn.sighting_eq_of_longest {m : Sighting} (hs : s.StandsIn source)
    (blank : Text.BlankBetween source s.pos m.offset)
    (stands : Text.slice source m.offset m.token.text.length = m.token.text)
    (whole : m.pos = m.offset + m.token.text.length)
    (longest : m.token.Longest source.toList[m.pos]?) : s.sighting = m := by
  have text := congrArg String.toList stands
  rw [Text.slice, String.toList_ofList] at text
  have split : source.toList.drop m.offset = m.token.text.toList ++ source.toList.drop m.pos := by
    rw [← text, whole, ← List.drop_drop, List.take_append_drop]
  obtain ⟨c, rest, first, noBlank⟩ := longest.exists_first
  have stops : ∀ c ∈ (source.toList.drop m.offset).head?, Text.isBlank c = false := by
    rw [split, first, String.toList_ofList, List.cons_append]
    rintro _ ⟨⟩
    exact noBlank
  have le : m.offset ≤ source.length := by
    have lengths := congrArg List.length split
    rw [first, String.toList_ofList, List.length_append, List.length_drop, String.length_toList,
      List.length_cons] at lengths
    omega
  obtain ⟨token, offset⟩ := hs.scan_of_blankBetween blank le stops
  rw [← List.head?_drop] at longest
  rw [split, leadingToken_of_longest longest] at token
  have pos : s.scan.2.pos = m.pos := by
    show s.scan.2.offset + s.scan.1.width = m.pos
    rw [token, offset, Token.width, longest.isStop_eq, whole]
    rfl
  rw [sighting, token, offset, pos]

/-- **Where the text ends behind blanks, or goes on with what begins no token, scanning stops.** -/
theorem StandsIn.sighting_eq_of_stops {stop : Sighting} (hs : s.StandsIn source)
    (blank : Text.BlankBetween source s.pos stop.offset) (stops : stop.Stops source)
    (barren : stop.Barren) :
    s.sighting = stop ∧ s.scan.1.kind.isStop = true := by
  have pos : s.scan.2.pos = s.scan.2.offset + s.scan.1.width := rfl
  rw [sighting, pos]
  cases stops with
  | endOfText =>
    have nothing : source.toList.drop source.length = [] := by
      rw [← String.length_toList, List.drop_length]
    obtain ⟨token, offset⟩ := hs.scan_of_blankBetween blank (Nat.le_refl _) (by simp [nothing])
    rw [nothing] at token
    rw [token, offset]
    exact ⟨rfl, rfl⟩
  | @illegal c n stands =>
    have nothing : BeginsNothing c := barren c rfl
    rw [← List.head?_drop] at stands
    obtain ⟨rest, behind⟩ := List.head?_eq_some_iff.mp stands
    have le : n ≤ source.length := by
      have lengths := congrArg List.length behind
      rw [List.length_drop, String.length_toList, List.length_cons] at lengths
      omega
    have noBlank : ∀ c ∈ (source.toList.drop n).head?, Text.isBlank c = false := by
      rw [behind]
      rintro _ ⟨⟩
      exact nothing.1
    obtain ⟨token, offset⟩ := hs.scan_of_blankBetween blank le noBlank
    rw [behind, leadingToken_of_beginsNothing nothing] at token
    rw [token, offset]
    exact ⟨rfl, rfl⟩

end Scanner

/-- **Every partition of what is left of a text is the one that scanning finds.** -/
theorem Partition.sightings_eq {source : String} {s : Scanner} {taken : List Sighting}
    {stop : Sighting} (h : Partition source s.pos taken stop) (hs : s.StandsIn source) :
    s.sightings = taken ++ [stop] := by
  induction taken generalizing s with
  | nil =>
    obtain ⟨-, blank, stops, barren⟩ := partition_nil.mp h
    obtain ⟨met, isStop⟩ := hs.sighting_eq_of_stops blank stops barren
    rw [Scanner.sightings_of_isStop isStop, met, List.nil_append]
  | cons m taken ih =>
    obtain ⟨stands, blank, ⟨-, whole, longest⟩, others⟩ := partition_cons.mp h
    have met := hs.sighting_eq_of_longest blank stands whole longest
    have goesOn : s.scan.1.kind.isStop = false := by
      rw [← met] at longest
      exact longest.isStop_eq
    rw [← met] at others
    rw [Scanner.sightings_of_goesOn goesOn, ih others hs.scan, met, List.cons_append]

/-! ### Nothing is lost -/

/-- What stands between two places and what stands behind up to a third. -/
theorem Text.slice_append_slice (source : String) {k m n : Nat} (h : k ≤ m) (h' : m ≤ n) :
    slice source k (m - k) ++ slice source m (n - m) = slice source k (n - k) := by
  have length : n - k = m - k + (n - m) := by omega
  have start : m = k + (m - k) := by omega
  rw [slice, slice, slice, ← String.ofList_append, length, List.take_add, List.drop_drop]
  rw [← start]

/-- **Gaps and tokens in turn are the text up to the stop.** -/
theorem Partition.exists_gaps {source : String} {start : Nat} {taken : List Sighting}
    {stop : Sighting} (h : Partition source start taken stop) :
    start ≤ stop.offset ∧
      ∃ gaps : List String, gaps.length = taken.length + 1 ∧
        (∀ g ∈ gaps, ∀ c ∈ g.toList, Text.isBlank c = true) ∧
        String.join (List.zipWith (· ++ ·) gaps (taken.map (·.token.text) ++ [""])) =
          Text.slice source start (stop.offset - start) := by
  induction taken generalizing start with
  | nil =>
    obtain ⟨-, ⟨le, blank⟩, -⟩ := partition_nil.mp h
    refine ⟨le, [Text.slice source start (stop.offset - start)], rfl, ?_, ?_⟩
    · exact List.forall_mem_singleton.mpr blank
    · simp
  | cons m taken ih =>
    obtain ⟨stands, ⟨le, blank⟩, ⟨-, whole, -⟩, others⟩ := partition_cons.mp h
    obtain ⟨le', gaps, length, blanks, joined⟩ := ih others
    have taken_in : m.token.text = Text.slice source m.offset (m.pos - m.offset) := by
      rw [whole, Nat.add_sub_cancel_left, stands]
    refine ⟨by omega, Text.slice source start (m.offset - start) :: gaps, by simp [length], ?_, ?_⟩
    · exact List.forall_mem_cons.mpr ⟨blank, blanks⟩
    · rw [List.map_cons, List.cons_append, List.zipWith_cons_cons, String.join_cons, joined,
        taken_in, Text.slice_append_slice source le (by omega),
        Text.slice_append_slice source (by omega) le']

/-! ### Where it breaks off -/

/-- **An illegal token is met exactly where the text has a stray character.** -/
theorem Scanner.exists_illegal_iff (s : Scanner) :
    (∃ m ∈ s.sightings, m.token.kind = .illegal) ↔ HasStray none s.rest := by
  induction s using sightings.induct with
  | case1 s goesOn ih =>
    have legal : s.sighting.token.kind ≠ .illegal := (TokenKind.ne_of_isStop_eq_false goesOn).1
    simp only [sightings_of_goesOn goesOn, List.mem_cons, exists_eq_or_imp]
    rw [or_iff_right legal, ih, hasStray_scan goesOn]
  | case2 s stopped =>
    have isStop := Bool.of_not_eq_false stopped
    simp only [sightings_of_isStop isStop, List.mem_singleton, exists_eq_left]
    constructor
    · exact hasStray_of_illegal
    · intro stray
      rcases TokenKind.isStop_iff.mp isStop with illegal | ends
      · exact illegal
      · exact absurd stray (not_hasStray_of_endOfText ends)

/-- **A text is cut into its longest tokens, and nothing of it is lost.**  What is met in scanning
up to the first stop is the one partition of the text: each token stands at its offset, with blanks
alone between the tokens, each is the longest of its sort, and the stop is the end of the text or a
character that begins no token.  The gaps and the tokens in turn are the text up to the stop, and
an illegal token is met exactly where the text has a character that is no blank, begins no token,
and is no prime right behind a letter of a variable or another prime. -/
theorem Scanner.sightings_lossless (source : String) :
    ∃ taken stop,
      (ofString source).sightings = taken ++ [stop] ∧
      (∀ taken' stop', Partition source 0 taken' stop' ↔ taken' = taken ∧ stop' = stop) ∧
      (∃ gaps : List String, gaps.length = taken.length + 1 ∧
        (∀ g ∈ gaps, ∀ c ∈ g.toList, Text.isBlank c = true) ∧
        String.join (List.zipWith (· ++ ·) gaps (taken.map (·.token.text) ++ [""])) =
          Text.slice source 0 stop.offset) ∧
      ((∃ m ∈ (ofString source).sightings, m.token.kind = .illegal) ↔
        ∃ front c back, source.toList = front ++ c :: back ∧ Stray front.getLast? c) := by
  have stands := standsIn_ofString source
  obtain ⟨taken, stop, found, partition⟩ := exists_partition stands
  refine ⟨taken, stop, found, fun taken' stop' => ?_, ?_, ?_⟩
  · constructor
    · intro other
      have same := found.symm.trans (Partition.sightings_eq other stands)
      obtain ⟨tokens, last⟩ := List.append_inj' same rfl
      exact ⟨tokens.symm, (List.cons.inj last).1.symm⟩
    · rintro ⟨rfl, rfl⟩
      exact partition
  · exact partition.exists_gaps.2
  · rw [exists_illegal_iff]
    simp only [HasStray, Option.or_none]
    rfl

/-- The second prime is out of place. -/
example : (Scanner.ofString " a\x27SS \x270").sightings =
    [⟨⟨.variableName, "a\x27"⟩, 1, 3⟩, ⟨⟨.successor, "SS"⟩, 3, 5⟩, ⟨⟨.illegal, "\x27"⟩, 6, 6⟩] := by
  cbv

end Typographical
