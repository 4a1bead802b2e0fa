import Arith.Proofs.NestingBounds
import Arith.Proofs.ReadingCourse
import Arith.Proofs.SessionHistory
import Arith.Proofs.TokenDelivery
import Arith.Proofs.TokenSeams
import Arith.Proofs.TokensAhead

namespace Arith

def Token.IsProper (t : Token) : Prop := t.kind ≠ .invalid ∧ t.kind ≠ .endOfInput

instance (t : Token) : Decidable t.IsProper := inferInstanceAs (Decidable (t.kind ≠ .invalid ∧ t.kind ≠ .endOfInput))

theorem Scanner.tokens_scan_suffix (s : Scanner) : s.scan.2.tokens <:+ s.tokens := by
  by_cases stop : s.scan.1.kind = .endOfInput
  · exact tokens_eq_of_scan_eq (scan_of_end stop) ▸ List.suffix_refl _
  · rw [tokens_of_more stop]
    exact List.suffix_cons _ _

theorem Scanner.Reads.tokens_suffix {s t : Scanner} (reads : s.Reads t) : t.tokens <:+ s.tokens := by
  induction reads with
  | refl => exact List.suffix_refl _
  | tail _ next ih =>
    rw [next]
    exact (tokens_scan_suffix _).trans ih

namespace Parsing

theorem ahead_descend_advance (p : Parsing) : p.descend.advance.ahead = p.advance.ahead := by
  rw [ahead, current_advance, scanner_advance, ahead, current_advance, scanner_advance]
  rfl

theorem Course.ahead_suffix {level : Level} {p q : Parsing} {tree : Tree} (course : Course .inside level p tree q) :
    q.ahead <:+ p.advance.ahead := by
  cases course with
  | foreign => exact ahead_report _ p.advance ▸ List.suffix_refl _
  | number _ _ _ onward => exact onward.moves.turns.ahead_suffix (.advance p)
  | tooLarge _ _ _ onward =>
    have rest := onward.moves.turns.ahead_suffix (Settled.advance p).report
    rwa [ahead_report] at rest
  | sign _ _ inner onward => exact (inner.moves.trans onward.moves).turns.ahead_suffix (.advance p)

section Outermost

variable {p : Parsing} (outermost : p.depth = 0) (running : p.nestingExceeded = false)

include outermost running

theorem ahead_parse (level : Level) : (p.parse level).2.ahead <:+ p.advance.ahead := by
  rw [parse_of_outermost outermost, ← ahead_descend_advance]
  have course : Course .inside level p.descend (readExpression (parseWithin 99) 99 level p.descend).1
      (readExpression (parseWithin 99) 99 level p.descend).2 :=
    course_readExpression (course_parseWithin 99) level running
  rw [show maxNesting = 99 + 1 from rfl, parseWithin_succ running]
  exact course.ahead_suffix

theorem ahead_expression (settled : p.Settled) : p.expression.2.ahead <:+ p.advance.ahead := by
  have read := (moves_parse .conditional p).turns.settled settled
  have stop : Turns (p.parse .conditional).2 p.expression.2 := (Turn.consume .endOfInput trailingMessage _).turns
  exact (stop.ahead_suffix read).trans (ahead_parse outermost running .conditional)

end Outermost

/-- Reading went on from `p` as far as it could: past the current token, or not at all at the end of the text. -/
structure Progresses (p : Parsing) (read : Tree × Parsing) : Prop where
  further : p.nestingExceeded = false → p.current.kind ≠ .endOfInput →
    p.current.location.offset < read.2.current.location.offset
  still : p.current.kind = .endOfInput → read.2.current = p.current ∧ read.1 = .placeholder p.current

theorem progresses {p : Parsing} {read : Tree × Parsing} (settled : p.Settled) (ascends : p.Ascends)
    (turns : Turns p read.2) (passed : p.nestingExceeded = false → read.2.ahead <:+ p.advance.ahead)
    (nothing : p.Spent → read.1 = .placeholder p.current) : Progresses p read := by
  refine ⟨fun running live => ?_, fun stop => ⟨turns.current_of_end settled stop, nothing (.inr stop)⟩⟩
  have whole : p.advance.ahead <:+ p.ahead := ahead_advance_suffix (List.suffix_refl _) live
  have first := offset_advance_lt ascends (List.suffix_refl _) live
  exact Int.lt_of_lt_of_le first ((ascends.of_suffix whole).current_le (passed running))

theorem progresses_parse {p : Parsing} (settled : p.Settled) (ascends : p.Ascends) (outermost : p.depth = 0)
    (level : Level) : Progresses p (p.parse level) :=
  progresses settled ascends (moves_parse level p).turns (fun running => ahead_parse outermost running level)
    (course_parse level p).tree_of_spent

theorem progresses_expression {p : Parsing} (settled : p.Settled) (ascends : p.Ascends) (outermost : p.depth = 0) :
    Progresses p p.expression :=
  progresses settled ascends (turns_expression p) (fun running => ahead_expression outermost running settled)
    (course_parse .conditional p).tree_of_spent

theorem Turns.spent {p q : Parsing} (turns : Turns p q) (settled : p.Settled) (spent : p.Spent) : q.Spent := by
  rcases spent with exceeded | stop
  · exact .inl (turns.grows.nestingExceeded exceeded)
  · rw [← turns.current_of_end settled stop] at stop
    exact .inr stop

/-- What is ahead is left of `tokens`, and after `calls` expressions the parser is through or so many of them are no
longer ahead. -/
structure Lasts (tokens : List Token) (calls : Nat) (p : Parsing) : Prop where
  settled : p.Settled
  outermost : p.depth = 0
  within : p.ahead <:+ tokens
  left : p.Spent ∨ p.ahead.countP (·.IsProper) + calls ≤ tokens.countP (·.IsProper)

namespace Lasts

variable {tokens : List Token} {calls : Nat} {p : Parsing}

theorem rested (lasts : Lasts tokens calls p) : Lasts tokens calls (.resume p.toParser p.scanner) :=
  ⟨⟨lasts.settled.valid, lasts.settled.still⟩, lasts.outermost, lasts.within, lasts.left⟩

theorem start (s : Scanner) : Lasts s.tokens 0 (start s) := by
  have rest := ahead_start_suffix s
  refine ⟨.start s, depth_start s, rest, .inr ?_⟩
  rw [Nat.add_zero]
  exact rest.sublist.countP_le

theorem turns {q : Parsing} (lasts : Lasts tokens calls p) (turns : Turns p q) (outermost : q.depth = 0) :
    Lasts tokens calls q := by
  refine ⟨turns.settled lasts.settled, outermost, (turns.ahead_suffix lasts.settled).trans lasts.within, ?_⟩
  rcases lasts.left with spent | left
  · exact .inl (turns.spent lasts.settled spent)
  · have fewer := (turns.ahead_suffix lasts.settled).sublist.countP_le (p := (·.IsProper))
    exact .inr (by omega)

theorem expression (lasts : Lasts tokens calls p) (outermost : p.expression.2.depth = 0) :
    Lasts tokens (calls + 1) p.expression.2 := by
  have read := lasts.turns (turns_expression p) outermost
  refine ⟨read.settled, outermost, read.within, ?_⟩
  by_cases spent : p.Spent
  · exact .inl ((turns_expression p).spent lasts.settled spent)
  · obtain ⟨running, live⟩ := not_or.mp spent
    have rest := ahead_expression lasts.outermost (by simpa using running) lasts.settled
    have fewer := rest.sublist.countP_le (p := (·.IsProper))
    have proper : p.current.IsProper := ⟨lasts.settled.valid, live⟩
    have left := lasts.left.resolve_left spent
    rw [ahead_advance_of_live live, List.countP_cons_of_pos (by simpa using proper), List.countP_append] at left
    exact .inr (by omega)

theorem spent (lasts : Lasts tokens calls p) (enough : tokens.countP (·.IsProper) ≤ calls) : p.Spent := by
  rcases lasts.left with spent | left
  · exact spent
  · obtain ⟨behind, ahead⟩ := head_ahead p
    have none : p.ahead.countP (·.IsProper) = 0 := by omega
    have improper := List.countP_eq_zero.mp none p.current (by rw [ahead]; exact List.mem_cons_self)
    by_contra going
    exact improper (decide_eq_true ⟨lasts.settled.valid, (not_or.mp going).2⟩)

end Lasts

end Parsing

namespace Session

theorem sublist_ahead (parser : Parser) {source later : Scanner} (reads : source.Reads later) :
    (Parsing.resume parser later).ahead.Sublist (Parsing.resume parser source).ahead := by
  by_cases stop : parser.current.kind = .endOfInput
  · rw [Parsing.ahead_of_end (p := .resume parser later) stop, Parsing.ahead_of_end (p := .resume parser source) stop]
    exact List.Sublist.refl _
  · rw [Parsing.ahead_of_live (p := .resume parser later) stop, Parsing.ahead_of_live (p := .resume parser source) stop]
    exact reads.tokens_suffix.sublist.cons_cons _

theorem kept_ascends : Kept fun parser source =>
    (Parsing.resume parser source).Settled ∧ (Parsing.resume parser source).Ascends where
  start source := ⟨kept_settled.start source, .start source⟩
  call calls holds :=
    ⟨kept_settled.call calls holds.1, holds.2.of_suffix ((calls.turns _).ahead_suffix holds.1)⟩
  elsewhere holds reads :=
    ⟨kept_settled.elsewhere holds.1 reads, List.Pairwise.sublist (sublist_ahead _ reads) holds.2⟩

/-- The parser of that index, if it reads from the scanner, has only those tokens ahead, and is through with the text
once enough calls were made. -/
structure Sole (i c : Nat) (tokens : List Token) (calls : Nat) (s : Session) : Prop where
  lasts (client : Client) (named : s.clients[c]? = some client) (own : client.scanner = i) :
    ∃ source, s.scanners[i]? = some source ∧ Parsing.Lasts tokens calls (.resume client.parser source)
  unmade (none : s.clients[c]? = none) :
    calls = 0 ∧ ∃ source, s.scanners[i]? = some source ∧ source.tokens = tokens

namespace Sole

variable {i c calls : Nat} {tokens : List Token} {s : Session} {action : Action} {done : Step}

theorem other (sole : Sole i c tokens calls s) (performs : Performs s action done)
    (elsewhere : Event.client? ⟨action, done⟩ ≠ some c) (apart : Event.scanner? ⟨action, done⟩ ≠ some i) :
    Sole i c tokens calls done.session := by
  obtain ⟨j, source, next, own, found, scanners, _⟩ := performs.reads
  have clients := performs.elsewhere elsewhere
  have scanner : done.session.scanners[i]? = s.scanners[i]? := by
    rw [scanners]
    exact Array.getElem?_setIfInBounds_ne fun same => apart (own.trans (congrArg some same))
  exact ⟨by rw [clients, scanner]; exact sole.lasts, by rw [clients, scanner]; exact sole.unmade⟩

theorem create {source : Scanner} (sole : Sole i s.clients.size tokens calls s) {scanner : Nat}
    (found : s.scanners[scanner]? = some source) :
    Sole i s.clients.size tokens calls
      ⟨s.scanners.setIfInBounds scanner (Parsing.start source).scanner,
        s.clients.push ⟨(Parsing.start source).toParser, scanner⟩⟩ := by
  obtain ⟨rfl, old, there, rfl⟩ := sole.unmade Array.getElem?_size
  refine ⟨?_, fun none => ?_⟩
  · rintro client named rfl
    rw [Array.getElem?_push_size] at named
    cases named
    rw [found] at there
    cases there
    exact ⟨_, getElem?_setIfInBounds_of_found found _, (Parsing.Lasts.start _).rested⟩
  · rw [Array.getElem?_push_size] at none
    cases none

theorem call {call : Parsing → Answer × Parsing} {parser : Parser} {scanner : Nat} {source : Scanner}
    (sole : Sole i c tokens calls s) (called : Calls action c call) (named : s.clients[c]? = some ⟨parser, scanner⟩)
    (found : s.scanners[scanner]? = some source) :
    Sole i c tokens (calls + if action = .expression c then 1 else 0)
      (s.outcome c scanner (call (.resume parser source))).session := by
  have after := getElem?_setIfInBounds_of_found named ⟨(call (.resume parser source)).2.toParser, scanner⟩
  refine ⟨fun client there own => ?_, fun none => ?_⟩
  · rw [show (s.outcome c scanner _).session.clients[c]? = _ from after] at there
    cases there
    subst own
    obtain ⟨old, before, lasts⟩ := sole.lasts _ named rfl
    rw [found] at before
    cases before
    have outermost : (call (.resume parser source)).2.depth = 0 := kept_outermost.call called lasts.outermost
    have turns := called.turns (.resume parser source)
    refine ⟨_, getElem?_setIfInBounds_of_found found _, Parsing.Lasts.rested ?_⟩
    cases called with
    | expression => simpa using lasts.expression outermost
    | parse | advance | consume | look => simpa using lasts.turns turns outermost
  · rw [show (s.outcome c scanner _).session.clients[c]? = _ from after] at none
    cases none

theorem perform (sole : Sole i c tokens calls s) (performs : Performs s action done)
    (alone : Event.scanner? ⟨action, done⟩ = some i → Event.client? ⟨action, done⟩ = some c) :
    Sole i c tokens (calls + if action = .expression c then 1 else 0) done.session := by
  by_cases own : Event.client? ⟨action, done⟩ = some c
  · cases performs with
    | create found =>
      cases own
      exact sole.create found
    | scan => cases own
    | call called named found =>
      rw [called.client?_eq] at own
      cases own
      exact sole.call called named found
  · have other : action ≠ .expression c := fun same => own (by rw [same]; rfl)
    rw [if_neg other]
    exact sole.other performs own (own ∘ alone)

theorem run {t : Session} {actions : List Action} {events : List Event} (sole : Sole i c tokens calls s)
    (run : s.run actions = some (events, t)) (alone : ∀ e ∈ events, e.scanner? = some i → e.client? = some c) :
    Sole i c tokens (calls + events.countP (·.action = .expression c)) t := by
  refine run_induction (motive := fun s events t => ∀ calls, Sole i c tokens calls s →
    (∀ e ∈ events, e.scanner? = some i → e.client? = some c) →
      Sole i c tokens (calls + events.countP (·.action = .expression c)) t) ?_ ?_ run calls sole alone
  · intro s calls sole _
    exact sole
  · intro s action done events t performed later calls sole alone
    obtain ⟨first, rest⟩ := List.forall_mem_cons.mp alone
    have next := later _ (sole.perform (performs_of_perform performed) first) rest
    rw [Nat.add_right_comm, Nat.add_assoc] at next
    simpa only [List.countP_cons, decide_eq_true_eq] using next

theorem begin {sources : List (String × String)} {source filename : String}
    (found : sources[i]? = some (source, filename)) :
    Sole i c (tokenize source filename).toList 0 (ofSources sources) := by
  refine ⟨fun client named => ?_, fun _ => ⟨rfl, .ofSource source filename, ?_, rfl⟩⟩
  · simp [ofSources] at named
  · simp [ofSources, found]

end Sole

/-- However parsers were used before, every call that reads an expression is carried out, and it takes the parser on
unless it is at the end of the text or has met the nesting limit. A parser that has a text to itself gets there within
as many expressions as there are tokens. -/
theorem reading_progresses {sources : List (String × String)} {actions : List Action} {events : List Event}
    {t : Session} (run : (ofSources sources).run actions = some (events, t)) :
    (∀ c client, t.clients[c]? = some client → ∃ source, t.scanners[client.scanner]? = some source ∧
        (∀ level,
          let read := (Parsing.resume client.parser source).parse level
          t.perform (.parse c level) = some (t.outcome c client.scanner (.tree read.1, read.2)) ∧
            Parsing.Progresses (.resume client.parser source) read) ∧
        let read := (Parsing.resume client.parser source).expression
        t.perform (.expression c) = some (t.outcome c client.scanner (.tree read.1, read.2)) ∧
          Parsing.Progresses (.resume client.parser source) read) ∧
      ∀ i source filename c client, sources[i]? = some (source, filename) → t.clients[c]? = some client →
        client.scanner = i → (∀ e ∈ events, e.scanner? = some i → e.client? = some c) →
        (tokenize source filename).toList.countP (·.IsProper) ≤ events.countP (·.action = .expression c) →
          client.parser.nestingExceeded = true ∨ client.parser.current.kind = .endOfInput := by
  refine ⟨fun c client named => ?_, fun i source filename c client found named own alone enough => ?_⟩
  · obtain ⟨source, there, settled, ascends⟩ := satisfied_of_run kept_ascends run c client named
    obtain ⟨_, _, outermost⟩ := satisfied_of_run kept_outermost run c client named
    refine ⟨source, there, fun level => ⟨?_, ?_⟩, ?_, ?_⟩
    · exact (Calls.parse c level).perform_eq named there
    · exact Parsing.progresses_parse settled ascends outermost level
    · exact (Calls.expression c).perform_eq named there
    · exact Parsing.progresses_expression settled ascends outermost
  · have sole := (Sole.begin (c := c) found).run run alone
    obtain ⟨_, _, lasts⟩ := sole.lasts client named own
    exact lasts.spent (by omega)

theorem reading_progresses_trailing_numbers :
    ∃ events t client,
      (ofSources [("1 $ 2 3", ""), ("4 5", "")]).run
          [.create 1, .create 0, .expression 1, .expression 0, .expression 1, .expression 1] = some (events, t) ∧
        t.clients[1]? = some client ∧ client.scanner = 0 ∧
        (client.parser.nestingExceeded = true ∨ client.parser.current.kind = .endOfInput) := by
  have ran : (((ofSources [("1 $ 2 3", ""), ("4 5", "")]).run
      [.create 1, .create 0, .expression 1, .expression 0, .expression 1, .expression 1]).bind fun done =>
        done.2.clients[1]?.filter fun client => client.scanner = 0 ∧
          (∀ e ∈ done.1, e.scanner? = some 0 → e.client? = some 1) ∧
            (tokenize "1 $ 2 3" "").toList.countP (·.IsProper) ≤ done.1.countP (·.action = .expression 1)).isSome =
      true := by decide +kernel
  obtain ⟨client, found⟩ := Option.isSome_iff_exists.mp ran
  obtain ⟨⟨events, t⟩, run, named⟩ := Option.bind_eq_some_iff.mp found
  obtain ⟨named, holds⟩ := Option.filter_eq_some_iff.mp named
  obtain ⟨own, alone, enough⟩ := of_decide_eq_true holds
  exact ⟨events, t, client, run, named, own,
    (reading_progresses run).2 0 _ _ 1 client rfl named own alone enough⟩

end Session

end Arith
