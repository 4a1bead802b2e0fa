import Arith.Program
import Arith.Proofs.Acceptance
import Arith.Proofs.ErrorTexts
import Arith.Proofs.Layout
import Arith.Proofs.LineLoop
import Arith.Proofs.Numerals
import Arith.Proofs.SessionHistory

namespace Arith

def Location.unnamed (l : Location) : Location := { l with filename := "" }

theorem Scanner.scan_unnamed {s t : Scanner} (rest : s.rest = t.rest) (position : s.position = t.position) :
    s.scan.1.kind = t.scan.1.kind ∧ s.scan.1.relocate .unnamed = t.scan.1.relocate .unnamed ∧
      s.scan.2.rest = t.scan.2.rest ∧ s.scan.2.position = t.scan.2.position := by
  obtain ⟨gap, taken, here⟩ := s.reading_scan
  obtain ⟨_, _, there⟩ := t.reading_scan
  obtain ⟨rfl, rfl, face, behind⟩ := here.alike there rest
  refine ⟨congrArg Prod.fst face, ?_, behind, by rw [here.position, there.position, position]⟩
  have location : s.scan.1.location.unnamed = t.scan.1.location.unnamed := by
    rw [here.location, there.location, position]
    rfl
  show Token.mk s.scan.1.face.1 s.scan.1.face.2 s.scan.1.location.unnamed =
    ⟨t.scan.1.face.1, t.scan.1.face.2, t.scan.1.location.unnamed⟩
  rw [face, location]

theorem Scanner.tokens_unnamed {s t : Scanner} (rest : s.rest = t.rest) (position : s.position = t.position) :
    s.tokens.map (·.relocate .unnamed) = t.tokens.map (·.relocate .unnamed) := by
  induction s using scanInduction generalizing t with
  | ended s stop =>
    obtain ⟨kind, token, _, _⟩ := scan_unnamed rest position
    rw [tokens_of_end stop, tokens_of_end (kind ▸ stop), List.map_singleton, List.map_singleton, token]
  | more s more ih =>
    obtain ⟨kind, token, behind, next⟩ := scan_unnamed rest position
    have more' : t.scan.1.kind ≠ .endOfInput := kind ▸ more
    rw [tokens_of_more more, tokens_of_more more', List.map_cons, List.map_cons, token, ih behind next]

theorem Parsing.agree_unnamed (source filename filename' : String) :
    Agree .unnamed (Mirrors .unnamed) (ofSource source filename).expression (ofSource source filename').expression :=
  agree_expression Mirrors.inStep (Mirrors.start (Scanner.tokens_unnamed rfl rfl))

theorem hadError_unnamed (source filename filename' : String) :
    (Parsing.ofSource source filename).expression.2.hadError =
      (Parsing.ofSource source filename').expression.2.hadError :=
  (Parsing.agree_unnamed source filename filename').joined.hadError

theorem parse?_of_quiet {source filename : String}
    (quiet : (Parsing.ofSource source filename).expression.2.hadError = false) :
    parse? source filename = .ok (Parsing.ofSource source filename).expression.1 := by
  have recorded : (Parsing.ofSource source filename).expression.2.Recorded := Parsing.recorded_expression _
  simp [parse?, recorded.hadError.mp quiet]

theorem exists_tree_iff_quiet (source filename : String) :
    (∃ tree, parse? source filename = .ok tree) ↔
      (Parsing.ofSource source filename).expression.2.hadError = false := by
  constructor
  · rintro ⟨tree, accepted⟩
    by_contra had
    obtain ⟨e, _, refused⟩ := (Session.hadError_iff_refused source filename).mp (by simpa using had)
    rw [accepted] at refused
    cases refused
  · exact fun quiet => ⟨_, parse?_of_quiet quiet⟩

theorem valid_of_quiet {source filename : String}
    (quiet : (Parsing.ofSource source filename).expression.2.hadError = false) :
    ∀ t ∈ tokenize source filename, t.kind ≠ .invalid := by
  obtain ⟨stop, tokens, isEnd⟩ := Parsing.tokens_eq_spelling source filename
  have recorded : (Parsing.ofSource source filename).expression.2.Recorded := Parsing.recorded_expression _
  obtain ⟨phrase, _, _⟩ := Parsing.phrase_of_quiet tokens (recorded.quiet_iff.mp quiet)
  intro t member
  have split : t ∈ spelling source filename ++ [stop] := tokens ▸ Array.mem_toList_iff.mpr member
  rcases List.mem_append.mp split with inside | last
  · exact phrase.valid t inside
  · rw [List.mem_singleton.mp last, isEnd]
    decide

namespace Repl

def errorLine (e : SyntaxError) : String := "[column " ++ toString e.location.column ++ "] " ++ e.brief

theorem errorRow_eq (e : SyntaxError) : errorRow e = errorLine e ++ "\n" := rfl

theorem toString_on_line (n : Int) : '\n' ∉ (toString n).toList := by
  intro feed
  have numeral := isNumeral_of_mem_toString n _ feed
  revert numeral
  decide

theorem errorLine_on_line {e : SyntaxError} (whole : '\n' ∉ e.brief.toList) : '\n' ∉ (errorLine e).toList := by
  have column := toString_on_line e.location.column
  simpa [errorLine] using ⟨column, whole⟩

theorem linesOf_rows {errors : List SyntaxError} (whole : ∀ e ∈ errors, '\n' ∉ e.brief.toList) :
    linesOf (String.join (errors.map errorRow)) = errors.map errorLine := by
  have rows : errorRow = (· ++ "\n") ∘ errorLine := funext errorRow_eq
  rw [rows, ← List.map_map]
  exact linesOf_join (List.forall_mem_map.mpr fun e member => errorLine_on_line (whole e member))

theorem join_eq_empty {texts : List String} (silent : ∀ text ∈ texts, text = "") : String.join texts = "" := by
  induction texts with
  | nil => rfl
  | cons text texts ih =>
    obtain ⟨first, others⟩ := List.forall_mem_cons.mp silent
    rw [String.join_cons, first, ih others, String.empty_append]

def logged (p : Parsing) : Array Event := p.reports.map fun report => .log .parser report.render

theorem outText_logged (p : Parsing) : outText (logged p) = "" := by
  rw [outText_eq_join]
  apply join_eq_empty
  simp [logged, Event.outText]

theorem errText_logged (p : Parsing) : errText (logged p) = "" := by
  rw [errText_eq_join]
  apply join_eq_empty
  simp [logged, Event.errText]

theorem outText_rows (errors : Array SyntaxError) : outText (errors.map fun e => Event.err (errorRow e)) = "" := by
  rw [outText_eq_join]
  apply join_eq_empty
  simp [Event.outText]

theorem errText_rows (errors : Array SyntaxError) :
    errText (errors.map fun e => Event.err (errorRow e)) = String.join (errors.toList.map errorRow) := by
  rw [errText_eq_join, Array.toList_map, List.map_map]
  rfl

theorem answerLine_false (line filename : String) : answerLine false line filename = parseLine line filename := rfl

section ParseLine

variable {line filename : String}

theorem ok_parseLine (line filename : String) :
    (parseLine line filename).ok = !(Parsing.ofSource line filename).expression.2.hadError := by
  cases had : (Parsing.ofSource line filename).expression.2.hadError <;> simp [parseLine, had]

theorem parseLine_of_quiet (quiet : (Parsing.ofSource line filename).expression.2.hadError = false) :
    outText (parseLine line filename).events = (Parsing.ofSource line filename).expression.1.print ++ "\n" ∧
      errText (parseLine line filename).events = "" := by
  have events : (parseLine line filename).events = logged (Parsing.ofSource line filename).expression.2 ++
      #[.out ((Parsing.ofSource line filename).expression.1.print ++ "\n")] := by
    simp [parseLine, quiet, logged]
  rw [events, outText_append, errText_append, outText_logged, errText_logged, outText_singleton, errText_singleton]
  exact ⟨String.empty_append, String.empty_append⟩

theorem parseLine_of_malformed (had : (Parsing.ofSource line filename).expression.2.hadError = true) :
    outText (parseLine line filename).events = "" ∧
      errText (parseLine line filename).events =
        String.join ((Parsing.ofSource line filename).expression.2.errors.toList.map errorRow) := by
  have events : (parseLine line filename).events = logged (Parsing.ofSource line filename).expression.2 ++
      ((Parsing.ofSource line filename).expression.2.errors.map fun e => Event.err (errorRow e)) ++
      #[.log .loop ("partial tree: " ++ (Parsing.ofSource line filename).expression.1.print)] := by
    simp [parseLine, had, logged]
  rw [events, outText_append, outText_append, errText_append, errText_append, outText_logged, errText_logged,
    outText_rows, errText_rows, outText_singleton, errText_singleton]
  simp [Event.outText, Event.errText]

theorem parseLine_unnamed (line filename filename' : String) :
    (parseLine line filename).ok = (parseLine line filename').ok ∧
      outText (parseLine line filename).events = outText (parseLine line filename').events ∧
      errText (parseLine line filename).events = errText (parseLine line filename').events := by
  obtain ⟨tree, mirrors⟩ := Parsing.agree_unnamed line filename filename'
  have same := mirrors.hadError
  refine ⟨by rw [ok_parseLine, ok_parseLine, same], ?_⟩
  cases had : (Parsing.ofSource line filename).expression.2.hadError with
  | false =>
    obtain ⟨out, err⟩ := parseLine_of_quiet had
    obtain ⟨out', err'⟩ := parseLine_of_quiet (same.symm.trans had)
    rw [out, out', err, err', ← Tree.print_relocate, tree, Tree.print_relocate]
    exact ⟨rfl, rfl⟩
  | true =>
    obtain ⟨out, err⟩ := parseLine_of_malformed had
    obtain ⟨out', err'⟩ := parseLine_of_malformed (same.symm.trans had)
    -- a row shows column and message, and no name
    have rows : errorRow ∘ SyntaxError.relocate .unnamed = errorRow := rfl
    have errors := congrArg (List.map errorRow) mirrors.errors
    rw [List.map_map, List.map_map, rows] at errors
    rw [out, out', err, err', errors]
    exact ⟨rfl, rfl⟩

end ParseLine

theorem ok_dumpLine (line filename : String) :
    (dumpLine line filename).ok = true ↔ ∀ t ∈ tokenize line filename, t.kind ≠ .invalid := by
  rw [dumpLine, Array.all_eq_true_iff_forall_mem]
  simp

end Repl

namespace CommandLine

theorem lookup_of_equals {word : String} (equals : '=' ∈ word.toList) : spellings.lookup word = none := by
  rw [List.lookup_eq_none_iff]
  have plain : ∀ spelling ∈ spellings, '=' ∉ spelling.1.toList := by decide
  intro spelling member
  rw [bne_iff_ne]
  rintro rfl
  exact plain spelling member equals

theorem classify_attached (source : String) :
    classify ("-c=" ++ source) = .ok (.option .expression true (some source)) := by
  have text : ("-c=" ++ source).toList = '-' :: 'c' :: '=' :: source.toList := by
    rw [String.toList_append]
    rfl
  have unknown : spellings.lookup ("-c=" ++ source) = none := lookup_of_equals (by simp)
  have known : spellings.lookup (String.ofList ['-', 'c']) = some .expression := by decide
  have short : isShort (String.ofList ['-', 'c']) = true := by decide
  simp [classify, text, splitAtEquals, unknown, known, short]

theorem read_attached {source : String} (apart : source ≠ "--") :
    read ["-c=" ++ source] = .ok (.run ⟨some (.text source), false, false⟩) := by
  have word : "-c=" ++ source ≠ "--" := by
    intro same
    have second := congrArg (·.toList[1]?) same
    simp at second
  have classified : classifyAll ["-c=" ++ source] = .ok [.option .expression true (some source)] := by
    rw [classifyAll, if_neg word, classify_attached]
    rfl
  have operand : Operand.ofAttached source = .text source := if_neg apart
  rw [read, classified, ← operand]
  rfl

end CommandLine

namespace Program

/-- The words ask for one expression to be read, and for no log. -/
def Asks (words : List String) (source : String) (showTokens : Bool) : Prop :=
  CommandLine.read words = .ok (.run ⟨some (.text source), showTokens, false⟩)

def AsksLoop (words : List String) : Prop := CommandLine.read words = .ok (.run ⟨none, false, false⟩)

def Outcome.ofResponse (response : Repl.Response) : Outcome :=
  ⟨.returned (if response.ok then 0 else 1), Repl.outText response.events, Repl.errText response.events⟩

@[simp] theorem Outcome.out_ofResponse (response : Repl.Response) :
    (ofResponse response).out = Repl.outText response.events := rfl

@[simp] theorem Outcome.err_ofResponse (response : Repl.Response) :
    (ofResponse response).err = Repl.errText response.events := rfl

theorem Outcome.status_ofResponse (response : Repl.Response) :
    (ofResponse response).status = .returned (if response.ok then 0 else 1) := rfl

theorem run_of_asks {words : List String} {source : String} {showTokens : Bool} (asks : Asks words source showTokens)
    (input : Repl.Input) : run words input = .ofResponse (Repl.answerLine showTokens source filename) := by
  rw [run, asks]
  rfl

theorem run_of_asksLoop {words : List String} (asks : AsksLoop words) (text : String) :
    run words (.ofText text false) =
      ⟨.returned 0, Repl.outText (Repl.loop false false text).events,
        Repl.errText (Repl.loop false false text).events⟩ := by
  have status : (Repl.run false (.ofText text false)).status = 0 := by
    rw [Repl.run_of_uninterrupted false rfl]
  rw [run, asks]
  simp only [status]
  rfl

/-- A run shows what a text is: its tree, or a line for each error, the first one about the error that is raised. -/
structure Shows (source : String) (outcome : Outcome) : Prop where
  status : outcome.status = .returned 0 ∨ outcome.status = .returned 1
  accepted (filename : String) : outcome.status = .returned 0 ↔ ∃ tree, parse? source filename = .ok tree
  quiet (filename : String) :
    outcome.status = .returned 0 ↔ (Parsing.ofSource source filename).expression.2.hadError = false
  tree (filename : String) (tree : Tree) (parsed : parse? source filename = .ok tree) :
    outcome.out = tree.print ++ "\n" ∧ outcome.err = ""
  errors (filename : String) (error : SyntaxError) (raised : parse? source filename = .error error) :
    outcome.out = "" ∧ ∃ later,
      (Parsing.ofSource source filename).expression.2.errors.toList = error :: later ∧
        outcome.err = String.join ((error :: later).map Repl.errorRow) ∧
        Repl.linesOf outcome.err = (error :: later).map Repl.errorLine

theorem shows_of_asks {words : List String} {source : String} (asks : Asks words source false) (input : Repl.Input) :
    Shows source (run words input) := by
  rw [run_of_asks asks, Repl.answerLine_false]
  have status := Outcome.status_ofResponse (Repl.parseLine source filename)
  rw [Repl.ok_parseLine] at status
  have quiet (name : String) : (Outcome.ofResponse (Repl.parseLine source filename)).status = .returned 0 ↔
      (Parsing.ofSource source name).expression.2.hadError = false := by
    rw [status, hadError_unnamed source name filename]
    cases (Parsing.ofSource source filename).expression.2.hadError <;> simp
  constructor
  case status =>
    rw [status]
    cases (Parsing.ofSource source filename).expression.2.hadError <;> simp
  case accepted => exact fun name => (quiet name).trans (exists_tree_iff_quiet source name).symm
  case quiet => exact quiet
  case tree =>
    intro name tree parsed
    have calm := (exists_tree_iff_quiet source name).mp ⟨tree, parsed⟩
    obtain ⟨_, out, err⟩ := Repl.parseLine_unnamed source filename name
    obtain ⟨shown, silent⟩ := Repl.parseLine_of_quiet calm
    rw [parse?_of_quiet calm] at parsed
    cases parsed
    rw [Outcome.out_ofResponse, Outcome.err_ofResponse, out, err, shown, silent]
    exact ⟨rfl, rfl⟩
  case errors =>
    intro name error raised
    have had : (Parsing.ofSource source name).expression.2.hadError = true := by
      by_contra calm
      rw [parse?_of_quiet (by simpa using calm)] at raised
      cases raised
    obtain ⟨_, out, err⟩ := Repl.parseLine_unnamed source filename name
    obtain ⟨silent, shown⟩ := Repl.parseLine_of_malformed had
    obtain ⟨first, found, refused⟩ := (Session.hadError_iff_refused source name).mp had
    rw [raised] at refused
    cases refused
    obtain ⟨later, split⟩ : ∃ later, (Parsing.ofSource source name).expression.2.errors.toList = error :: later := by
      rw [← Array.getElem?_toList, ← List.head?_eq_getElem?] at found
      exact List.head?_eq_some_iff.mp found
    have whole : ∀ e ∈ error :: later, '\n' ∉ e.brief.toList := fun e member =>
      brief_on_line source name e (Array.mem_toList_iff.mp (split ▸ member))
    rw [Outcome.out_ofResponse, Outcome.err_ofResponse, out, err, silent, shown, split]
    exact ⟨rfl, later, rfl, rfl, Repl.linesOf_rows whole⟩

theorem run_of_line {words loopWords : List String} {source text : String} (asks : Asks words source false)
    (loops : AsksLoop loopWords) (whole : '\n' ∉ source.toList) (some : Text.isBlank source = false)
    (form : text = source ∨ text = source ++ "\n") (input : Repl.Input) :
    run loopWords (.ofText text false) = ⟨.returned 0, (run words input).out, (run words input).err⟩ := by
  obtain ⟨out, err, _⟩ := (Repl.answersLine_of_whole whole form false).answered some
  obtain ⟨_, sameOut, sameErr⟩ := Repl.parseLine_unnamed source Repl.filename filename
  rw [run_of_asksLoop loops, run_of_asks asks, out, err, Repl.answerLine_false, Repl.answerLine_false, sameOut, sameErr]
  rfl

theorem run_tokens_of_accepted {words : List String} {source : String} (asks : Asks words source true)
    (quiet : (Parsing.ofSource source filename).expression.2.hadError = false) (input : Repl.Input) :
    (run words input).status = .returned 0 := by
  have ok : (Repl.answerLine true source filename).ok = true :=
    (Repl.ok_dumpLine source filename).mpr (valid_of_quiet quiet)
  rw [run_of_asks asks, Outcome.status_ofResponse, ok]
  rfl

/-- Whichever way a text is given, it is accepted or refused alike, and the same is shown of it. -/
theorem front_ends_agree {words : List String} {source : String} (asks : Asks words source false)
    (input : Repl.Input) :
    let outcome := run words input
    Shows source outcome ∧
      ('\n' ∉ source.toList → Text.isBlank source = false →
        (∀ loopWords text, AsksLoop loopWords → text = source ∨ text = source ++ "\n" →
          run loopWords (.ofText text false) = ⟨.returned 0, outcome.out, outcome.err⟩) ∧
        ∀ filename, ∀ e ∈ (Parsing.ofSource source filename).expression.2.errors,
          e.location.column = e.location.offset + 1) ∧
      (outcome.status = .returned 0 → ∀ dumpWords input', Asks dumpWords source true →
        (run dumpWords input').status = .returned 0) := by
  intro outcome
  have shows : Shows source outcome := shows_of_asks asks input
  refine ⟨shows, fun whole some => ⟨fun loopWords text loops form => ?_, fun name => ?_⟩,
    fun accepted dumpWords input' dumps => ?_⟩
  · exact run_of_line asks loops whole some form input
  · exact column_of_error name whole
  · exact run_tokens_of_accepted dumps ((shows.quiet filename).mp accepted) input'

theorem front_ends_agree_conditional :
    let outcome := run ["-c=" ++ "-1 ? 2 : 3"] ⟨[], false, false⟩
    Shows "-1 ? 2 : 3" outcome ∧ run [] (.ofText "-1 ? 2 : 3\n" false) = ⟨.returned 0, outcome.out, outcome.err⟩ ∧
      (run ["--tokens", "-c=-1 ? 2 : 3"] ⟨[], false, false⟩).status = .returned 0 := by
  have asks : Asks ["-c=" ++ "-1 ? 2 : 3"] "-1 ? 2 : 3" false := CommandLine.read_attached (by decide)
  have dumps : Asks ["--tokens", "-c=-1 ? 2 : 3"] "-1 ? 2 : 3" true := rfl
  obtain ⟨shows, looped, dumped⟩ := front_ends_agree asks ⟨[], false, false⟩
  exact ⟨shows, (looped (by decide) (by decide)).1 [] _ rfl (.inr rfl),
    dumped ((shows.quiet "").mpr (by decide +kernel)) _ ⟨[], false, false⟩ dumps⟩

end Program

end Arith
