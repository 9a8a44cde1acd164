/-
# How the program ends

What is to be seen of a run is its exit status, what it writes on standard output
and, on standard error, the lines that begin with the program's mark.  The log
writes on standard error too, if it is asked for, each entry with the time in
front.

A run that has a text to read shows what its reading comes to
(`Command.exists_shows`).  Settings that are invalid end it before the text is
looked at, a text that is no formula ends it before anything is written on
standard output, and a formula is reported, with a notice for each finding.  The
exit status goes by `Formula.isWellFormed` and the notices by `Formula.findings`,
so the two go together because those agree on every formula.

All of it is about the text on standard error.  A notice can be told there from
what else is written because no line of the log begins as it does and no line of
either has a line feed in it (`Command.noticesIn_errorText`).

The libraries that the program uses are left open.  Of the validator of the depth its
laws are asked for (`Settings.Validator.Lawful`), of the writer of JSON nothing: the
document that it is given is what the report has to say.
-/

import Typographical.Command.Run
import Typographical.Proofs.Diagnosis
import Typographical.Proofs.Validator

namespace Typographical

/-! ### Lines of a text -/

/-- The lines of a text, what stands behind the last line feed included. -/
def Text.lines (s : String) : List String :=
  (s.toList.splitOn '\n').map String.ofList

theorem Text.lines_append_newline {s : String} (h : OneLine s) (t : String) :
    lines (s ++ "\n" ++ t) = s :: lines t := by
  have chars : (s ++ "\n" ++ t).toList = s.toList ++ '\n' :: t.toList := by
    rw [String.toList_append, String.toList_append, List.append_assoc]
    rfl
  rw [lines, chars, List.splitOn_append_cons_self_of_not_mem h, List.map_cons, String.ofList_toList,
    lines]

namespace Command

/-- The lines that begin with the program's mark. -/
def noticesIn (s : String) : List String :=
  (Text.lines s).filter fun line => "[TNT]".toList.isPrefixOf line.toList

/-- Lines as they are written on standard error, each at its time. -/
def errorText (time : Nat → String) (errors : List Line) : String :=
  String.join (errors.mapIdx fun i line => line.render (time i))

/-- A time as entries of the log show it: on one line, which it does not begin as a notice
begins. -/
structure IsStamp (time : String) : Prop where
  oneLine : Text.OneLine time
  noBracket : time.toList.head? ≠ some '['

/-- The line on standard error that a notice is. -/
def Line.notice? : Line → Option String
  | notice text => some s!"[TNT] {text}"
  | _ => none

/-- An entry of the log or a notice, with one line of text. -/
inductive Line.Single : Line → Prop
  | logged {entry : String} (h : Text.OneLine entry) : Single (logged entry)
  | notice {text : String} (h : Text.OneLine text) : Single (notice text)

theorem noticesIn_notice {text : String} (h : Text.OneLine text) (time rest : String) :
    noticesIn ((Line.notice text).render time ++ rest) = s!"[TNT] {text}" :: noticesIn rest := by
  have line : Text.OneLine ("[TNT] " ++ text) := .append (.literal rfl) h
  have marked : "[TNT]".toList.isPrefixOf ("[TNT] " ++ text).toList = true := by
    rw [String.toList_append]
    rfl
  show noticesIn ("[TNT] " ++ text ++ "\n" ++ rest) = ("[TNT] " ++ text) :: noticesIn rest
  rw [noticesIn, Text.lines_append_newline line]
  exact List.filter_cons_of_pos marked

theorem noticesIn_logged {entry time : String} (h : Text.OneLine entry) (stamp : IsStamp time)
    (rest : String) : noticesIn ((Line.logged entry).render time ++ rest) = noticesIn rest := by
  have line : Text.OneLine (time ++ " - DEBUG - " ++ entry) :=
    .append (.append stamp.oneLine (.literal rfl)) h
  have unmarked : ¬"[TNT]".toList.isPrefixOf (time ++ " - DEBUG - " ++ entry).toList = true := by
    rw [List.isPrefixOf_iff_prefix, String.toList_append, String.toList_append]
    rintro ⟨tail, same⟩
    rcases chars : time.toList with _ | ⟨c, cs⟩ <;> rw [chars] at same
    · exact absurd (List.cons.inj same).1 (by decide)
    · have first : '[' = c := (List.cons.inj same).1
      exact stamp.noBracket (by rw [chars, ← first]; rfl)
  show noticesIn (time ++ " - DEBUG - " ++ entry ++ "\n" ++ rest) = noticesIn rest
  rw [noticesIn, Text.lines_append_newline line]
  exact List.filter_cons_of_neg unmarked

theorem errorText_cons (time : Nat → String) (line : Line) (errors : List Line) :
    errorText time (line :: errors) =
      line.render (time 0) ++ errorText (fun i => time (i + 1)) errors := by
  rw [errorText, List.mapIdx_cons, String.join_cons, errorText]

/-- **The notices on standard error are those that were given,** whatever the log writes between
them. -/
theorem noticesIn_errorText {errors : List Line} (h : ∀ line ∈ errors, line.Single)
    {time : Nat → String} (stamps : ∀ i, IsStamp (time i)) :
    noticesIn (errorText time errors) = errors.filterMap Line.notice? := by
  induction errors generalizing time with
  | nil =>
    show noticesIn "" = []
    decide
  | cons line errors ih =>
    have later := ih (fun l hl => h l (List.mem_cons_of_mem _ hl)) fun i => stamps (i + 1)
    rw [errorText_cons]
    cases h line List.mem_cons_self with
    | logged single =>
      rw [noticesIn_logged single (stamps 0), later]
      rfl
    | notice single =>
      rw [noticesIn_notice single, later]
      rfl

/-! ### What a run says -/

theorem oneLine_logEntry {source : String} {result : Except ParseError Formula}
    (h : ∀ e, result = .error e → Text.OneLine e.message) :
    Text.OneLine (logEntry source result) := by
  have shown := Text.oneLine_quoted source
  cases result with
  | ok F => exact .append (.append (.append (.literal rfl) shown) (.literal rfl)) F.oneLine_kind
  | error e =>
    exact .append (.append (.append (.literal rfl) shown) (.literal rfl)) (h e rfl)

theorem single_of_mem_logLines {o : Options} {source : String} {result : Except ParseError Formula}
    (h : ∀ e, result = .error e → Text.OneLine e.message) {line : Line}
    (logged : line ∈ logLines o source result) : line.Single := by
  unfold logLines at logged
  split at logged
  · obtain rfl := List.mem_singleton.mp logged
    exact .logged (oneLine_logEntry h)
  · cases logged

theorem filterMap_notice?_logLines (o : Options) (source : String)
    (result : Except ParseError Formula) :
    (logLines o source result).filterMap Line.notice? = [] := by
  unfold logLines
  split <;> rfl

/-- What is to be seen of a run that has ended. -/
structure Seen where
  status : Nat
  output : String
  notices : List String
deriving DecidableEq, Repr

/-- What is to be seen of a run, if it has ended. -/
def Outcome.seen? (time : Nat → String) : Outcome → Option Seen
  | .ended status output errors => some ⟨status, output, noticesIn (errorText time errors)⟩
  | .undecodable => none

/-- A run that ends with an error says so in a notice, behind what it has logged. -/
theorem seen?_failed {time : Nat → String} (stamps : ∀ i, IsStamp (time i)) (log : List Line)
    (single : ∀ line ∈ log, line.Single) (silent : log.filterMap Line.notice? = [])
    {text : String} (h : Text.OneLine text) :
    (Outcome.ended 2 "" (log ++ [.notice text])).seen? time = some ⟨2, "", [s!"[TNT] {text}"]⟩ := by
  have all : ∀ line ∈ log ++ [.notice text], line.Single := by
    intro line hl
    rcases List.mem_append.mp hl with logged | last
    · exact single line logged
    · obtain rfl := List.mem_singleton.mp last
      exact .notice h
  rw [Outcome.seen?, noticesIn_errorText all stamps, List.filterMap_append, silent]
  rfl

/-- The notice about a finding, as it is seen. -/
def noticeOf (f : Finding) : String :=
  s!"[TNT] [{f.code}] {f.path}: {f.message}"

theorem notice?_ofFinding (f : Finding) : (Line.ofFinding f).notice? = some (noticeOf f) := by
  have mark : "[TNT] " ++ "[" = "[TNT] [" := rfl
  show some ("[TNT] " ++ ("[" ++ f.code ++ "] " ++ f.path ++ ": " ++ f.message)) =
    some ("[TNT] [" ++ f.code ++ "] " ++ f.path ++ ": " ++ f.message)
  simp only [← mark, String.append_assoc]

/-- A report gives the findings, if there are any, and so gives all of them in any case. -/
theorem notices_of_report (F : Formula) :
    (if F.isWellFormed = true then [] else (F.findings rootName).map Line.ofFinding) =
      (F.findings rootName).map Line.ofFinding := by
  split
  · next wellFormed =>
    rw [Formula.findings, (Formula.diagnose_eq_nil_iff F).mpr wellFormed]
    rfl
  · rfl

theorem single_ofFinding {source : String} {bound : Nat} {F : Formula}
    (h : Formula.parse source bound = .ok F) {f : Finding} (found : f ∈ F.findings rootName) :
    (Line.ofFinding f).Single := by
  obtain ⟨code, path, message⟩ := Formula.oneLine_of_mem_findings h found
  have text : Text.OneLine ("[" ++ f.code ++ "] " ++ f.path ++ ": " ++ f.message) :=
    .append (.append (.append (.append (.append (.literal rfl) code) (.literal rfl)) path)
      (.literal rfl)) message
  exact .notice text

theorem seen?_reported (lib : Library) {time : Nat → String} (stamps : ∀ i, IsStamp (time i))
    (o : Options) {source : String} {bound : Nat} {F : Formula}
    (h : Formula.parse source bound = .ok F) :
    (reported lib o source F).seen? time =
      some ⟨if o.strictFail = true ∧ ¬F.isWellFormed = true then 1 else 0,
        lib.json (F.report source).document ++ "\n", (F.findings rootName).map noticeOf⟩ := by
  have lines : ∀ line ∈ logLines o source (.ok F) ++ (F.findings rootName).map Line.ofFinding,
      line.Single := by
    intro line hl
    rcases List.mem_append.mp hl with logged | noticed
    · refine single_of_mem_logLines (fun e failed => ?_) logged
      cases failed
    · obtain ⟨f, found, rfl⟩ := List.mem_map.mp noticed
      exact single_ofFinding h found
  have status : (if (!F.isWellFormed && o.strictFail) = true then 1 else 0) =
      if o.strictFail = true ∧ ¬F.isWellFormed = true then 1 else 0 := by
    cases F.isWellFormed <;> cases o.strictFail <;> rfl
  have notices : ((F.findings rootName).map Line.ofFinding).filterMap Line.notice? =
      (F.findings rootName).map noticeOf := by
    rw [List.filterMap_map, ← List.filterMap_eq_map]
    exact List.filterMap_congr fun f _ => notice?_ofFinding f
  show (Outcome.ended (if (!F.isWellFormed && o.strictFail) = true then 1 else 0)
    (lib.json (F.report source).document ++ "\n") (logLines o source (.ok F) ++
      if F.isWellFormed = true then []
      else (F.findings rootName).map Line.ofFinding)).seen? time = _
  rw [notices_of_report, status, Outcome.seen?, noticesIn_errorText lines stamps,
    List.filterMap_append, filterMap_notice?_logLines, notices, List.nil_append]

/-! ### A run that has a text to read -/

/-- The text that a command line yields: the formula it gives, or what is in the file it names. -/
inductive Options.Yields (s : Surroundings) (o : Options) : String → Prop
  | argument {source : String} (given : o.formula = some source) (noFile : o.file? = none) :
      Yields s o source
  | contents {path source : String} {bytes : ByteArray} (given : o.file? = some path)
      (noFormula : o.formula = none) (read : s.readFile path = .ok bytes)
      (decoded : textOfBytes? bytes = some source) : Yields s o source

theorem Options.Yields.run_eq (lib : Library) {s : Surroundings} {arguments : List String}
    {o : Options} {source : String} (h : o.Yields s source)
    (accepted : Options.ofArguments arguments = .ok o) (noVersion : o.version = false) :
    run lib s arguments = runText lib s o source := by
  have runs : run lib s arguments = runOptions lib s o := by
    rw [run, accepted]
  rw [runs, runOptions, noVersion]
  cases h with
  | argument given noFile => simp [given, noFile]
  | contents given noFormula read decoded => simp [given, noFormula, runFile, read, decoded]

/-- What a run is to show, by what its reading comes to. -/
inductive Shows (lib : Library) (o : Options) (source : String) :
    Except ReadError Formula → Seen → Prop
  | settings (e : SettingsError) :
      Shows lib o source (.error (.settings e)) ⟨2, "", [s!"[TNT] invalid settings: {e.message}"]⟩
  | refused (e : ParseError) :
      Shows lib o source (.error (.refused e)) ⟨2, "", [s!"[TNT] parse error: {e.message}"]⟩
  | formula (F : Formula) :
      Shows lib o source (.ok F)
        ⟨if o.strictFail = true ∧ ¬F.isWellFormed = true then 1 else 0,
          lib.json (F.report source).document ++ "\n", (F.findings rootName).map noticeOf⟩

theorem seen?_invalid {time : Nat → String} (stamps : ∀ i, IsStamp (time i)) {e : SettingsError}
    (message : Text.OneLine e.message) :
    (Outcome.ended 2 "" [.notice s!"invalid settings: {e.message}"]).seen? time =
      some ⟨2, "", [s!"[TNT] invalid settings: {e.message}"]⟩ := by
  have text : Text.OneLine ("invalid settings: " ++ e.message) :=
    .append (.literal rfl) message
  have mark : "[TNT] " ++ "invalid settings: " = "[TNT] invalid settings: " := rfl
  have seen := seen?_failed stamps [] nofun rfl text
  show _ = some (Seen.mk 2 "" ["[TNT] invalid settings: " ++ e.message])
  rw [← mark, String.append_assoc]
  exact seen

theorem seen?_unread {time : Nat → String} (stamps : ∀ i, IsStamp (time i)) (o : Options)
    {source : String} {bound : Nat} {e : ParseError} (h : Formula.parse source bound = .error e) :
    (Outcome.ended 2 "" (logLines o source (.error e) ++
        [.notice s!"parse error: {e.message}"])).seen? time =
      some ⟨2, "", [s!"[TNT] parse error: {e.message}"]⟩ := by
  have message := Formula.oneLine_of_parse h
  have text : Text.OneLine ("parse error: " ++ e.message) := .append (.literal rfl) message
  have logged : ∀ line ∈ logLines o source (.error e), line.Single := by
    refine fun line => single_of_mem_logLines fun e' same => ?_
    cases same
    exact message
  have mark : "[TNT] " ++ "parse error: " = "[TNT] parse error: " := rfl
  have seen := seen?_failed stamps _ logged (filterMap_notice?_logLines o source (.error e)) text
  show _ = some (Seen.mk 2 "" ["[TNT] parse error: " ++ e.message])
  rw [← mark, String.append_assoc]
  exact seen

/-- **A run that has a text to read shows what its reading comes to.** -/
theorem exists_shows {lib : Library} (lawful : lib.validate.Lawful) {time : Nat → String}
    (stamps : ∀ i, IsStamp (time i)) (s : Surroundings) (o : Options) (source : String) :
    ∃ seen, (runText lib s o source).seen? time = some seen ∧
      Shows lib o source (Formula.read lib.validate source (o.maxDepth.map .integer) s.depthSetting)
        seen := by
  rw [runText]
  rcases settled : Settings.load lib.validate (o.maxDepth.map .integer) s.depthSetting
    with e | settings
  · rw [Formula.read_of_error settled]
    exact ⟨_, seen?_invalid stamps (Settings.oneLine_of_load lawful settled), .settings e⟩
  · rw [Formula.read_of_ok settled]
    rcases parsed : Formula.parse source settings.maxDepth with e | F
    · exact ⟨_, seen?_unread stamps o parsed, .refused e⟩
    · exact ⟨_, seen?_reported lib stamps o parsed, .formula F⟩

/-! ### The law -/

/-- What a run leaves behind but for its exit status. -/
def Outcome.withoutStatus : Outcome → Option (String × List Line)
  | .ended _ output errors => some (output, errors)
  | .undecodable => none

theorem withoutStatus_runText (lib : Library) (s : Surroundings) (o : Options) (b : Bool)
    (source : String) :
    (runText lib s { o with strictFail := b } source).withoutStatus =
      (runText lib s o source).withoutStatus := by
  unfold runText
  rcases Formula.read lib.validate source (o.maxDepth.map .integer) s.depthSetting
    with (e | e) | F <;> rfl

theorem withoutStatus_runFile (lib : Library) (s : Surroundings) (o : Options) (b : Bool)
    (path : String) :
    (runFile lib s { o with strictFail := b } path).withoutStatus =
      (runFile lib s o path).withoutStatus := by
  unfold runFile
  rcases s.readFile path with fault | bytes
  · rfl
  · rcases decoded : textOfBytes? bytes with _ | source <;> simp only [decoded]
    exact withoutStatus_runText lib s o b source

/-- **Asking for strictness changes nothing but the exit status.** -/
theorem withoutStatus_runOptions (lib : Library) (s : Surroundings) (o : Options) (b : Bool) :
    (runOptions lib s { o with strictFail := b }).withoutStatus =
      (runOptions lib s o).withoutStatus := by
  have file : ({ o with strictFail := b } : Options).file? = o.file? := rfl
  unfold runOptions
  rw [file]
  by_cases version : o.version = true
  · rw [if_pos version, if_pos version]
  · rw [if_neg version, if_neg version]
    rcases o.file? with _ | path <;> rcases formula : o.formula with _ | source
    · rfl
    · exact withoutStatus_runText lib s o b source
    · exact withoutStatus_runFile lib s o b path
    · rfl

/-- Under strictness the exit status tells whether there is a notice, as far as it is not that of an
error. -/
theorem Shows.notices_of_status {lib : Library} {o : Options} {source : String}
    {r : Except ReadError Formula} {seen : Seen} (h : Shows lib o source r seen)
    (strict : o.strictFail = true) :
    (seen.status = 1 → seen.notices ≠ []) ∧ (seen.status = 0 → seen.notices = []) := by
  cases h with
  | settings e => exact ⟨nofun, nofun⟩
  | refused e => exact ⟨nofun, nofun⟩
  | formula F =>
    simp only [strict, true_and, ne_eq, List.map_eq_nil_iff, Formula.findings,
      Formula.diagnose_eq_nil_iff]
    by_cases wellFormed : F.isWellFormed = true <;> simp [wellFormed]

/-- **How a run ends,** whatever libraries with a lawful validator it uses.  Let the command line be
one that is understood, that asks for more than the version and yields a text.  Invalid settings end
the run whatever the text is, and a text that is no formula ends it too: the exit status is 2,
nothing is written on standard output, and one notice tells the error.  Otherwise the report is
written, there is one notice for each finding in the same order, and the exit status is 1 if
strictness is asked for and the formula is not well-formed, and else 0.  A depth that is asked for
makes the settings invalid if it is below one, and otherwise is the bound of the reading.

Strictness changes nothing but the exit status, whatever the command line asks for.  Under it a run
that ends with 1 gives a notice, and one that ends with 0 gives none. -/
theorem run_outcome {lib : Library} (lawful : lib.validate.Lawful) (s : Surroundings)
    {time : Nat → String} (stamps : ∀ i, IsStamp (time i)) :
    (∀ arguments o source, Options.ofArguments arguments = .ok o → o.version = false →
      o.Yields s source →
      (∀ e, Settings.load lib.validate (o.maxDepth.map .integer) s.depthSetting = .error e →
        (run lib s arguments).seen? time =
          some ⟨2, "", [s!"[TNT] invalid settings: {e.message}"]⟩) ∧
      ∀ settings,
        Settings.load lib.validate (o.maxDepth.map .integer) s.depthSetting = .ok settings →
        (∀ e, Formula.parse source settings.maxDepth = .error e →
          (run lib s arguments).seen? time = some ⟨2, "", [s!"[TNT] parse error: {e.message}"]⟩) ∧
        ∀ F, Formula.parse source settings.maxDepth = .ok F →
          (run lib s arguments).seen? time =
            some ⟨if o.strictFail = true ∧ ¬F.isWellFormed = true then 1 else 0,
              lib.json (.object [
                ("source", .text source),
                ("kind", .text F.kind),
                ("variables", .list (F.vars.names.map .text)),
                ("free_variables", .list (F.freeVars.names.map .text)),
                ("open", .truth F.isOpen),
                ("well_formed", .truth F.isWellFormed),
                ("issues", .list ((F.findings rootName).map fun f => .object [
                  ("code", .text f.code),
                  ("path", .text f.path),
                  ("message", .text f.message),
                  ("variables", .list (f.vars.map .text))]))]) ++ "\n",
              (F.findings rootName).map fun f => s!"[TNT] [{f.code}] {f.path}: {f.message}"⟩) ∧
    (∀ n : Int,
      (n < 1 → ∃ description,
        Settings.load lib.validate (some (.integer n)) s.depthSetting =
          .error ⟨.given, description⟩) ∧
      (1 ≤ n → ∃ settings,
        Settings.load lib.validate (some (.integer n)) s.depthSetting = .ok settings ∧
          (settings.maxDepth : Int) = n)) ∧
    (∀ arguments arguments' o b, Options.ofArguments arguments = .ok o →
      Options.ofArguments arguments' = .ok { o with strictFail := b } →
      (run lib s arguments').withoutStatus = (run lib s arguments).withoutStatus) ∧
    ∀ arguments o source seen, Options.ofArguments arguments = .ok o → o.version = false →
      o.Yields s source → o.strictFail = true → (run lib s arguments).seen? time = some seen →
      (seen.status = 1 → seen.notices ≠ []) ∧ (seen.status = 0 → seen.notices = []) := by
  refine ⟨fun arguments o source accepted noVersion yields => ?_,
    fun n => Settings.load_integer lawful n s.depthSetting,
    fun arguments arguments' o b accepted accepted' => ?_,
    fun arguments o source seen accepted noVersion yields strict ended => ?_⟩
  · rw [yields.run_eq lib accepted noVersion]
    obtain ⟨seen, ended, shows⟩ := exists_shows lawful stamps s o source
    rw [ended]
    refine ⟨fun e invalid => ?_, fun settings valid => ?_⟩
    · rw [Formula.read_of_error invalid] at shows
      cases shows with
      | settings e => rfl
    · rw [Formula.read_of_ok valid] at shows
      refine ⟨fun e failed => ?_, fun F parsed => ?_⟩
      · rw [failed] at shows
        cases shows with
        | refused e => rfl
      · rw [parsed] at shows
        cases shows with
        | formula F => rfl
  · rw [run, run, accepted, accepted']
    exact withoutStatus_runOptions lib s o b
  · rw [yields.run_eq lib accepted noVersion] at ended
    obtain ⟨seen', ended', shows⟩ := exists_shows lawful stamps s o source
    rw [ended'] at ended
    cases ended
    exact shows.notices_of_status strict

/-- The hypotheses are met by the libraries of the program: with a bound below one, with a file that
breaks off, and with a quantifier that binds nothing, with strictness and without. -/
theorem run_outcome_vacuous :
    ∃ (s : Surroundings) (time : Nat → String) (F : Formula),
      Library.standard.validate.Lawful ∧
      (∀ i, IsStamp (time i)) ∧
      (run .standard s ["--max-depth", "0", "~"]).seen? time =
        some ⟨2, "", ["[TNT] invalid settings: invalid max_depth: " ++
          "Input should be greater than or equal to 1"]⟩ ∧
      (run .standard s ["-v", "--file", "f"]).seen? time =
        some ⟨2, "", ["[TNT] parse error: expected term but reached end of input at offset 1"]⟩ ∧
      Formula.parse "Aa:b=0" 128 = .ok F ∧
      (run .standard s ["-v", "--strict-fail", "Aa:b=0"]).seen? time =
        some ⟨1,
          unlines [
            "\x7b",
            "  \"source\": \"Aa:b=0\",",
            "  \"kind\": \"Quantification\",",
            "  \"variables\": [",
            "    \"b\"",
            "  ],",
            "  \"free_variables\": [",
            "    \"b\"",
            "  ],",
            "  \"open\": false,",
            "  \"well_formed\": false,",
            "  \"issues\": [",
            "    \x7b",
            "      \"code\": \"VACUOUS_QUANTIFIER\",",
            "      \"path\": \"formula\",",
            "      \"message\": \"Quantified variable a is not free in its body\",",
            "      \"variables\": [",
            "        \"a\"",
            "      ]",
            "    \x7d",
            "  ]",
            "\x7d"],
          ["[TNT] [VACUOUS_QUANTIFIER] formula: Quantified variable a is not free in its body"]⟩ ∧
      (run .standard s ["-v", "Aa:b=0"]).withoutStatus =
        (run .standard s ["-v", "--strict-fail", "Aa:b=0"]).withoutStatus := by
  let s : Surroundings := ⟨"tnt", none, fun _ => .ok "~\n".toUTF8⟩
  let time : Nat → String := fun _ => "2024-02-29 23:59:59,999"
  let F := Formula.quantification .forAll ⟨"a"⟩ (.atom (.var ⟨"b"⟩) (.numeral 0))
  have lawful : Library.standard.validate.Lawful := Settings.lawful_lax
  have stamps : ∀ i, IsStamp (time i) := fun _ => ⟨.literal rfl, by decide⟩
  have decoded : textOfBytes? "~\n".toUTF8 = some "~" := by decide +kernel
  have breaksOff : Formula.parse "~" 128 = .error ⟨.unexpectedEnd "term", some 1⟩ := by cbv
  have parsed : Formula.parse "Aa:b=0" 128 = .ok F := by cbv
  have shallow : Options.ofArguments ["--max-depth", "0", "~"] =
      .ok ⟨some "~", none, some 0, false, false, false⟩ := by decide +kernel
  have fromFile : Options.ofArguments ["-v", "--file", "f"] =
      .ok ⟨none, some "f", none, false, true, false⟩ := by decide +kernel
  have strict : Options.ofArguments ["-v", "--strict-fail", "Aa:b=0"] =
      .ok ⟨some "Aa:b=0", none, none, true, true, false⟩ := by decide +kernel
  have lax : Options.ofArguments ["-v", "Aa:b=0"] =
      .ok ⟨some "Aa:b=0", none, none, false, true, false⟩ := by decide +kernel
  obtain ⟨law, -, but_status, -⟩ := run_outcome lawful s stamps
  obtain ⟨invalid, -⟩ := law _ _ "~" shallow rfl (.argument rfl rfl)
  obtain ⟨-, valid⟩ := law _ _ "~" fromFile rfl (.contents rfl rfl rfl decoded)
  obtain ⟨-, valid'⟩ := law _ _ "Aa:b=0" strict rfl (.argument rfl rfl)
  obtain ⟨failed, -⟩ := valid ⟨128, by decide⟩ rfl
  obtain ⟨-, reads⟩ := valid' ⟨128, by decide⟩ rfl
  refine ⟨s, time, F, lawful, stamps, invalid ⟨.given, _⟩ rfl, failed _ breaksOff, parsed, ?_,
    but_status _ _ _ false strict lax⟩
  rw [reads F parsed]
  decide +kernel

end Command
end Typographical
