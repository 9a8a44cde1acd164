/-
# Nothing of a report is lost

The indented layout tells the document that it is a layout of, and the document tells
the report: two reports that are written alike are the same
(`Report.eq_of_indented_eq`).

A document is told by its layout together with where it ends, whatever stands behind
(`Text.Document.indentedAt_append_inj`), so that the members of a list can be told one
after the other.  A character of a string is told by decoding it, and a string ends at
its first quotation mark, since none is left unescaped in it.  Behind a member stands a
comma if another one follows, and otherwise a line break.
-/

import Typographical.Report

namespace Typographical
namespace Text
namespace Document

variable {l m : List Char}

/-! ### Strings -/

/-- The number that a hexadecimal digit stands for. -/
def hexadecimalValue (c : Char) : Nat :=
  if c.isDigit then c.toNat - 0x30 else c.toNat - 0x57

/-- The character that a letter stands for behind a backslash. -/
def unescaped (c : Char) : Char :=
  if c == 'b' then '\x08'
  else if c == 'f' then '\x0c'
  else if c == 'n' then '\n'
  else if c == 'r' then '\r'
  else if c == 't' then '\t'
  else c

/-- Reads one character as it is written inside a string. -/
def readEscaped? : List Char → Option (Char × List Char)
  | '\\' :: 'u' :: _ :: _ :: c :: d :: l =>
    some (Char.ofNat (16 * hexadecimalValue c + hexadecimalValue d), l)
  | '\\' :: c :: l => some (unescaped c, l)
  | c :: l => some (c, l)
  | [] => none

/-- A character below U+0020 is told by the last two of its four digits. -/
theorem hexadecimal_of_lt : ∀ n < 0x20, ∃ c d, hexadecimal 4 n = ['0', '0', c, d] ∧
    16 * hexadecimalValue c + hexadecimalValue d = n := by
  intro n hn
  refine ⟨Nat.digitChar (n / 16), Nat.digitChar (n % 16), ?_, ?_⟩ <;> revert n <;> decide

/-- **The three ways to write a character:** by a letter behind a backslash, by its digits, and as it
stands. -/
theorem escapedChar_cases (c : Char) :
    (∃ x, x ≠ 'u' ∧ unescaped x = c ∧ escapedChar c = ['\\', x]) ∨
      (∃ x y, Char.ofNat (16 * hexadecimalValue x + hexadecimalValue y) = c ∧
        escapedChar c = ['\\', 'u', '0', '0', x, y]) ∨
      c ≠ '\x22' ∧ c ≠ '\\' ∧ escapedChar c = [c] := by
  by_cases short : c ∈ ['\x22', '\\', '\x08', '\x0c', '\n', '\r', '\t']
  · simp only [List.mem_cons, List.not_mem_nil, or_false] at short
    rcases short with rfl | rfl | rfl | rfl | rfl | rfl | rfl <;>
      exact .inl ⟨_, by decide, rfl, rfl⟩
  · simp only [List.mem_cons, List.not_mem_nil, or_false, not_or] at short
    have long : escapedChar c =
        if c.toNat < 0x20 then '\\' :: 'u' :: hexadecimal 4 c.toNat else [c] := by
      simp [escapedChar, short]
    rw [long]
    split
    · next control =>
      obtain ⟨x, y, digits, value⟩ := hexadecimal_of_lt c.toNat control
      rw [digits]
      exact .inr (.inl ⟨x, y, by rw [value, Char.ofNat_toNat], rfl⟩)
    · exact .inr (.inr ⟨short.1, short.2.1, rfl⟩)

/-- **A character is read back,** whatever stands behind it. -/
theorem readEscaped?_escapedChar (c : Char) (l : List Char) :
    readEscaped? (escapedChar c ++ l) = some (c, l) := by
  rcases escapedChar_cases c with ⟨x, noDigits, rfl, written⟩ | ⟨x, y, rfl, written⟩ |
    ⟨-, noBackslash, written⟩ <;> rw [written]
  · simp [readEscaped?, noDigits]
  · rfl
  · simp [readEscaped?, noBackslash]

/-- **A character is told by how it is written,** and so is what stands behind it. -/
theorem escapedChar_append_inj {c d : Char} (h : escapedChar c ++ l = escapedChar d ++ m) :
    c = d ∧ l = m := by
  have read := readEscaped?_escapedChar c l
  rw [h, readEscaped?_escapedChar] at read
  cases read
  exact ⟨rfl, rfl⟩

/-- No character is written with a quotation mark in front. -/
theorem escapedChar_append_ne (c : Char) (l m : List Char) : escapedChar c ++ l ≠ '\x22' :: m := by
  intro h
  rcases escapedChar_cases c with ⟨x, -, -, written⟩ | ⟨x, y, -, written⟩ | ⟨noQuote, -, written⟩ <;>
    rw [written] at h
  · cases (List.cons.inj h).1
  · cases (List.cons.inj h).1
  · exact noQuote (List.cons.inj h).1

/-- **A string is told by its literal,** which ends at the first quotation mark that is not
escaped. -/
theorem stringLiteral_append_inj {s t : String}
    (h : (stringLiteral s).toList ++ l = (stringLiteral t).toList ++ m) : s = t ∧ l = m := by
  have body {cs ds : List Char} (h : cs.flatMap escapedChar ++ '\x22' :: l =
      ds.flatMap escapedChar ++ '\x22' :: m) : cs = ds ∧ l = m := by
    induction cs generalizing ds with
    | nil =>
      cases ds with
      | nil => exact ⟨rfl, (List.cons.inj h).2⟩
      | cons d ds =>
        rw [List.flatMap_cons, List.append_assoc] at h
        exact absurd h.symm (escapedChar_append_ne _ _ _)
    | cons c cs ih =>
      rw [List.flatMap_cons, List.append_assoc] at h
      cases ds with
      | nil => exact absurd h (escapedChar_append_ne _ _ _)
      | cons d ds =>
        rw [List.flatMap_cons, List.append_assoc] at h
        obtain ⟨rfl, behind⟩ := escapedChar_append_inj h
        obtain ⟨rfl, rest⟩ := ih behind
        exact ⟨rfl, rest⟩
  simp only [stringLiteral, String.toList_ofList, List.cons_append, List.append_assoc,
    List.nil_append] at h
  obtain ⟨chars, rest⟩ := body (List.cons.inj h).2
  exact ⟨String.toList_injective chars, rest⟩

/-! ### Members -/

/-- What stands behind a member: those that follow, each on a line of its own, and the closing
bracket. -/
def following (level : Nat) (closing : String) : List String → String
  | [] => lineStart level ++ closing
  | member :: members => "," ++ lineStart (level + 1) ++ member ++ following level closing members

theorem block_cons (level : Nat) (opening closing member : String) (members : List String) :
    block level opening closing (member :: members) =
      opening ++ lineStart (level + 1) ++ (member ++ following level closing members) := by
  have joined : ("," ++ lineStart (level + 1)).intercalate (member :: members) ++
      lineStart level ++ closing = member ++ following level closing members := by
    induction members generalizing member with
    | nil => rw [String.intercalate_singleton, following, String.append_assoc]
    | cons next members ih =>
      have rest := ih next
      rw [String.intercalate_cons_cons, following]
      simp only [String.append_assoc] at rest ⊢
      rw [rest]
  rw [← joined, block, if_neg (by simp)]
  simp only [String.append_assoc]

/-- Behind the last member the line breaks. -/
theorem toList_following_nil (level : Nat) (closing : String) :
    (following level closing []).toList =
      '\n' :: (List.replicate (2 * level) ' ' ++ closing.toList) := by
  rw [following, lineStart, String.toList_append, String.toList_ofList, List.cons_append]

/-- Behind any other member stands a comma. -/
theorem toList_following_cons (level : Nat) (closing member : String) (members : List String) :
    (following level closing (member :: members)).toList =
      ',' :: ((lineStart (level + 1)).toList ++
        (member.toList ++ (following level closing members).toList)) := by
  simp only [following, String.toList_append, List.append_assoc]
  rfl

theorem toList_block_nil (level : Nat) (opening closing : String) :
    (block level opening closing []).toList = opening.toList ++ closing.toList := by
  rw [block, List.isEmpty_nil, if_pos rfl, String.toList_append]

theorem toList_block_cons (level : Nat) (opening closing member : String) (members : List String) :
    (block level opening closing (member :: members)).toList =
      opening.toList ++ '\n' :: (List.replicate (2 * (level + 1)) ' ' ++
        (member.toList ++ (following level closing members).toList)) := by
  simp only [block_cons, lineStart, String.toList_append, String.toList_ofList, List.append_assoc,
    List.cons_append]

section

variable {α : Type} {write : α → String} {level : Nat} {opening closing : String} {xs ys : List α}

/-- Members that are told by how they are written are told one after the other. -/
theorem following_append_inj
    (inj : ∀ x ∈ xs, ∀ y l m, (write x).toList ++ l = (write y).toList ++ m → x = y ∧ l = m)
    (h : (following level closing (xs.map write)).toList ++ l =
      (following level closing (ys.map write)).toList ++ m) : xs = ys ∧ l = m := by
  induction xs generalizing ys with
  | nil =>
    cases ys with
    | nil => exact ⟨rfl, List.append_cancel_left h⟩
    | cons y ys =>
      rw [List.map_nil, List.map_cons, toList_following_nil, toList_following_cons] at h
      cases (List.cons.inj h).1
  | cons x xs ih =>
    cases ys with
    | nil =>
      rw [List.map_nil, List.map_cons, toList_following_nil, toList_following_cons] at h
      cases (List.cons.inj h).1
    | cons y ys =>
      simp only [List.map_cons, toList_following_cons, List.cons_append, List.append_assoc] at h
      obtain ⟨rfl, rest⟩ := inj x List.mem_cons_self y _ _
        (List.append_cancel_left (List.cons.inj h).2)
      obtain ⟨rfl, behind⟩ := ih (fun x hx => inj x (List.mem_cons_of_mem _ hx)) rest
      exact ⟨rfl, behind⟩

/-- **A block tells its members,** because its closing bracket is no line break. -/
theorem block_append_inj {bracket : Char} (single : closing.toList = [bracket])
    (noBreak : bracket ≠ '\n')
    (inj : ∀ x ∈ xs, ∀ y l m, (write x).toList ++ l = (write y).toList ++ m → x = y ∧ l = m)
    (h : (block level opening closing (xs.map write)).toList ++ l =
      (block level opening closing (ys.map write)).toList ++ m) : xs = ys ∧ l = m := by
  cases xs with
  | nil =>
    cases ys with
    | nil => exact ⟨rfl, List.append_cancel_left h⟩
    | cons y ys =>
      simp only [List.map_nil, List.map_cons, toList_block_nil, toList_block_cons, single,
        List.append_assoc] at h
      exact absurd (List.cons.inj (List.append_cancel_left h)).1 noBreak
  | cons x xs =>
    cases ys with
    | nil =>
      simp only [List.map_nil, List.map_cons, toList_block_nil, toList_block_cons, single,
        List.append_assoc] at h
      exact absurd (List.cons.inj (List.append_cancel_left h)).1.symm noBreak
    | cons y ys =>
      simp only [List.map_cons, toList_block_cons, List.append_assoc, List.cons_append] at h
      have members := List.append_cancel_left (List.cons.inj (List.append_cancel_left h)).2
      obtain ⟨rfl, rest⟩ := inj x List.mem_cons_self y _ _ members
      obtain ⟨rfl, behind⟩ :=
        following_append_inj (fun x hx => inj x (List.mem_cons_of_mem _ hx)) rest
      exact ⟨rfl, behind⟩

end

/-! ### Documents -/

theorem indentedItems_eq (level : Nat) (items : List Document) :
    indentedItems level items = items.map (indentedAt level) := by
  induction items with
  | nil => rw [indentedItems, List.map_nil]
  | cons item items ih => rw [indentedItems, ih, List.map_cons]

/-- A member of an object, laid out at a level. -/
def indentedMember (level : Nat) (member : String × Document) : String :=
  stringLiteral member.1 ++ ": " ++ indentedAt level member.2

theorem indentedMembers_eq (level : Nat) (members : List (String × Document)) :
    indentedMembers level members = members.map (indentedMember level) := by
  induction members with
  | nil => rw [indentedMembers, List.map_nil]
  | cons member members ih => rw [indentedMembers, ih, List.map_cons, indentedMember]

/-- What the first character of a layout tells. -/
inductive Shape
  | text
  | truth (b : Bool)
  | list
  | object
deriving DecidableEq

/-- What the first character of a layout of the document tells. -/
def shape : Document → Shape
  | .text _ => .text
  | .truth b => .truth b
  | .list _ => .list
  | .object _ => .object

/-- The character that a layout begins with. -/
def Shape.firstChar : Shape → Char
  | text => '\x22'
  | truth true => 't'
  | truth false => 'f'
  | list => '['
  | object => '\x7b'

theorem Shape.firstChar_inj {s t : Shape} (h : s.firstChar = t.firstChar) : s = t := by
  revert h
  rcases s with _ | (_ | _) | _ | _ <;> rcases t with _ | (_ | _) | _ | _ <;> decide

theorem head?_indentedAt (level : Nat) (d : Document) (l : List Char) :
    ((indentedAt level d).toList ++ l).head? = some d.shape.firstChar := by
  have bracket (opening closing : String) (c : Char) (single : opening.toList = [c])
      (members : List String) :
      ((block level opening closing members).toList ++ l).head? = some c := by
    cases members with
    | nil =>
      rw [toList_block_nil, single]
      rfl
    | cons member members =>
      rw [toList_block_cons, single]
      rfl
  cases d with
  | text s =>
    rw [indentedAt, stringLiteral, String.toList_ofList]
    rfl
  | truth b =>
    rw [indentedAt]
    cases b <;> rfl
  | list items =>
    rw [indentedAt]
    exact bracket _ _ _ rfl _
  | object members =>
    rw [indentedAt]
    exact bracket _ _ _ rfl _

theorem shape_eq_of_append_eq {level : Nat} {d e : Document}
    (h : (indentedAt level d).toList ++ l = (indentedAt level e).toList ++ m) :
    d.shape = e.shape := by
  have heads := congrArg List.head? h
  rw [head?_indentedAt, head?_indentedAt] at heads
  exact Shape.firstChar_inj (Option.some.inj heads)

/-- **A document is told by its layout,** and so is what stands behind it. -/
theorem indentedAt_append_inj : ∀ (d : Document) (level : Nat) (e : Document) (l m : List Char),
    (indentedAt level d).toList ++ l = (indentedAt level e).toList ++ m → d = e ∧ l = m
  | .text s => by
    intro level e l m h
    have shapes := shape_eq_of_append_eq h
    cases e with
    | text t =>
      rw [indentedAt, indentedAt] at h
      obtain ⟨rfl, behind⟩ := stringLiteral_append_inj h
      exact ⟨rfl, behind⟩
    | _ => cases shapes
  | .truth b => by
    intro level e l m h
    have shapes := shape_eq_of_append_eq h
    cases e with
    | truth b' =>
      cases shapes
      exact ⟨rfl, List.append_cancel_left h⟩
    | _ => cases shapes
  | .list items => by
    intro level e l m h
    have shapes := shape_eq_of_append_eq h
    cases e with
    | list items' =>
      rw [indentedAt, indentedAt, indentedItems_eq, indentedItems_eq] at h
      obtain ⟨rfl, behind⟩ := block_append_inj rfl (by decide)
        (fun item held => indentedAt_append_inj item (level + 1)) h
      exact ⟨rfl, behind⟩
    | _ => cases shapes
  | .object members => by
    intro level e l m h
    have shapes := shape_eq_of_append_eq h
    cases e with
    | object members' =>
      rw [indentedAt, indentedAt, indentedMembers_eq, indentedMembers_eq] at h
      have inj : ∀ member ∈ members, ∀ member' l m,
          (indentedMember (level + 1) member).toList ++ l =
            (indentedMember (level + 1) member').toList ++ m → member = member' ∧ l = m := by
        rintro ⟨key, value⟩ held ⟨key', value'⟩ l m h
        simp only [indentedMember, String.toList_append, List.append_assoc] at h
        obtain ⟨rfl, rest⟩ := stringLiteral_append_inj h
        obtain ⟨rfl, behind⟩ := indentedAt_append_inj value (level + 1) value' l m
          (List.append_cancel_left rest)
        exact ⟨rfl, behind⟩
      obtain ⟨rfl, behind⟩ := block_append_inj rfl (by decide) inj h
      exact ⟨rfl, behind⟩
    | _ => cases shapes
termination_by d => d
decreasing_by
  · have smaller := List.sizeOf_lt_of_mem held
    simp only [list.sizeOf_spec]
    omega
  · have smaller := List.sizeOf_lt_of_mem held
    simp only [Prod.mk.sizeOf_spec] at smaller
    simp only [object.sizeOf_spec]
    omega

/-- **Documents with one layout are one document.** -/
theorem indented_inj {d e : Document} (h : d.indented = e.indented) : d = e :=
  (indentedAt_append_inj d 0 e [] [] (congrArg (·.toList ++ []) h)).1

end Document
end Text

/-! ### Reports -/

theorem Text.Document.ofTexts_inj {xs ys : List String} (h : ofTexts xs = ofTexts ys) : xs = ys :=
  (List.map_inj_right fun _ _ => Document.text.inj).mp (Document.list.inj h)

theorem Finding.document_inj {f g : Finding} (h : f.document = g.document) : f = g := by
  obtain ⟨code, path, message, vars⟩ := f
  obtain ⟨code', path', message', vars'⟩ := g
  simp only [Finding.document, Text.Document.object.injEq, List.cons.injEq, Prod.mk.injEq,
    Text.Document.text.injEq, true_and, and_true] at h
  obtain ⟨rfl, rfl, rfl, names⟩ := h
  rw [Text.Document.ofTexts_inj names]

/-- **A document holds all of a report.** -/
theorem Report.document_inj {r r' : Report} (h : r.document = r'.document) : r = r' := by
  obtain ⟨source, kind, vars, freeVars, isOpen, isWellFormed, findings⟩ := r
  obtain ⟨source', kind', vars', freeVars', isOpen', isWellFormed', findings'⟩ := r'
  simp only [Report.document, Text.Document.object.injEq, List.cons.injEq, Prod.mk.injEq,
    Text.Document.text.injEq, Text.Document.truth.injEq, Text.Document.list.injEq, true_and,
    and_true] at h
  obtain ⟨rfl, rfl, names, freeNames, rfl, rfl, documents⟩ := h
  rw [Text.Document.ofTexts_inj names, Text.Document.ofTexts_inj freeNames,
    (List.map_inj_right fun _ _ => Finding.document_inj).mp documents]

/-- **Reports that are written alike are the same.** -/
theorem Report.eq_of_indented_eq {r r' : Report} (h : r.document.indented = r'.document.indented) :
    r = r' :=
  Report.document_inj (Text.Document.indented_inj h)

end Typographical
