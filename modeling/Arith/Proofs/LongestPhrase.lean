import Arith.Proofs.Expectation
import Arith.Proofs.PhraseReading
import Arith.Proofs.Progress

namespace Arith

theorem Phrase.length_le_of_closed {level : Level} {word longer rest : List Token} {next : Token} {tree other : Tree}
    (phrase : Phrase level word tree) (closed : ¬ next.kind.Continues level)
    (begins : longer <+: word ++ next :: rest) (more : Phrase level longer other) : longer.length ≤ word.length := by
  by_contra exceeds
  have fewer : word.length ≤ longer.length := Nat.le_of_not_le exceeds
  obtain ⟨behind, rfl⟩ := List.prefix_of_prefix_length_le (List.prefix_append word _) begins fewer
  rw [List.prefix_append_right_inj] at begins
  cases behind with
  | nil => simp at exceeds
  | cons token behind =>
    obtain ⟨rfl, _⟩ := List.cons_prefix_cons.mp begins
    exact closed (Expectation.continues_of_longer phrase more)

namespace Parsing

/-- From `p` to `q` the tokens of `word` were passed one by one. A colon among them was waited for, so that it ended the
panic if there was one; nothing else changed of what is known about errors. -/
structure Treads (p : Parsing) (word : List Token) (q : Parsing) : Prop where
  ahead : p.ahead = word ++ q.ahead
  received : ∃ given, q.received.toList = p.received.toList ++ given ∧ p.current :: given = word ++ [q.current]
  hadError : q.hadError = p.hadError
  errors : q.errors = p.errors
  panicking : q.panicking = (p.panicking && word.all (·.kind ≠ .colon))

namespace Treads

variable {p q r : Parsing} {front back : List Token}

theorem refl (p : Parsing) : Treads p [] p := ⟨rfl, ⟨[], by simp, rfl⟩, rfl, rfl, by simp⟩

theorem trans (first : Treads p front q) (second : Treads q back r) : Treads p (front ++ back) r := by
  obtain ⟨given, received, passed⟩ := first.received
  obtain ⟨more, received', passed'⟩ := second.received
  refine ⟨?_, ⟨given ++ more, ?_, ?_⟩, second.hadError.trans first.hadError, second.errors.trans first.errors, ?_⟩
  · rw [first.ahead, second.ahead, List.append_assoc]
  · rw [received', received, List.append_assoc]
  · rw [← List.cons_append, passed, List.append_assoc, List.singleton_append, passed', List.append_assoc]
  · rw [second.panicking, first.panicking, List.all_append, Bool.and_assoc]

theorem advance (live : p.current.kind ≠ .endOfInput) (quiet : p.advance.reported = p.reported)
    (calm : p.current.kind = .colon → p.panicking = false) : Treads p [p.current] p.advance := by
  have passed : p.scanner.pull.passed = #[] := by simpa using quiet
  have same : p.advance.hadError = p.hadError ∧ p.advance.errors = p.errors ∧ p.advance.panicking = p.panicking := by
    simp [Parsing.advance, passed, reportPassed]
  refine ⟨?_, ⟨[p.advance.current], ?_, rfl⟩, same.1, same.2.1, ?_⟩
  · rw [ahead_advance_of_live live, passed]
    rfl
  · rw [received_advance, current_advance, passed, Array.append_empty, Array.toList_push]
  · by_cases colon : p.current.kind = .colon
    · simp [same, calm colon]
    · simp [same, colon]

end Treads

theorem Finds.not_quiet {p q : Parsing} {error : SyntaxError} (finds : Finds p error q) : q.reported ≠ p.reported := by
  obtain ⟨behind, found⟩ := finds
  rw [found]
  simp

/-- From `p` to `q` reports were only added, and if none was, then tokens were passed one by one. -/
structure TreadsQuietly (p q : Parsing) : Prop where
  grown : p.reported <+: q.reported
  treads (quiet : q.reported = p.reported) : ∃ word, Treads p word q

namespace TreadsQuietly

variable {p q r : Parsing}

theorem refl (p : Parsing) : TreadsQuietly p p := ⟨List.prefix_refl _, fun _ => ⟨[], .refl p⟩⟩

theorem trans (first : TreadsQuietly p q) (second : TreadsQuietly q r) : TreadsQuietly p r := by
  refine ⟨first.grown.trans second.grown, fun quiet => ?_⟩
  have same : p.reported = q.reported := first.grown.eq_of_length_le (quiet ▸ second.grown.length_le)
  obtain ⟨front, passed⟩ := first.treads same.symm
  obtain ⟨back, passed'⟩ := second.treads (quiet.trans same)
  exact ⟨_, passed.trans passed'⟩

theorem of_finds {error : SyntaxError} (finds : Finds p error q) : TreadsQuietly p q := by
  refine ⟨?_, fun quiet => absurd quiet finds.not_quiet⟩
  obtain ⟨behind, found⟩ := finds
  exact found ▸ List.prefix_append _ _

theorem advance (live : p.current.kind ≠ .endOfInput) (other : p.current.kind ≠ .colon) :
    TreadsQuietly p p.advance := by
  refine ⟨?_, fun quiet => ⟨_, .advance live quiet fun colon => absurd colon other⟩⟩
  rw [reported_advance]
  exact List.prefix_append _ _

theorem operator {level binding : Level} (next : p.continuation? level = some binding) : TreadsQuietly p p.advance := by
  apply advance (live_of_continuation next)
  intro colon
  have binds := binding_of_continuation next
  rw [colon] at binds
  cases binds

theorem refuse (p : Parsing) (error : SyntaxError) : TreadsQuietly p (p.advance.report error) := by
  have grown : (p.advance.report error).reported =
      p.reported ++ (p.scanner.pull.passed.toList.map (⟨.lexical, ·⟩) ++ [error]) := by
    rw [reported_report, reported_advance, List.append_assoc]
  refine ⟨grown ▸ List.prefix_append _ _, fun quiet => ?_⟩
  rw [grown] at quiet
  simp at quiet

theorem exceed (running : p.nestingExceeded = false) : TreadsQuietly p p.exceedNesting :=
  of_finds ⟨[], reported_exceedNesting_of_running running⟩

theorem divide (p : Parsing) : TreadsQuietly p (p.consume .colon dividerMessage).2 := by
  refine ⟨reported_prefix_consume .colon dividerMessage p, fun quiet => ?_⟩
  rcases consume_cases .colon dividerMessage p with ⟨_, same⟩ | ⟨_, colon, same⟩ | ⟨_, _, same⟩ <;>
    rw [same] at quiet ⊢
  · exact ⟨[], .refl p⟩
  · -- the panic is over before the colon is passed
    have live : p.current.kind ≠ .endOfInput := by rw [colon]; decide
    have passed : Treads { p with panicking := false } [p.current] _ := .advance live quiet fun _ => rfl
    refine ⟨[p.current], passed.ahead, passed.received, passed.hadError, passed.errors, ?_⟩
    rw [passed.panicking]
    simp [colon]
  · exact absurd quiet (Finds.not_quiet ⟨[], reported_report _ p⟩)

end TreadsQuietly

theorem Course.treadsQuietly {stage : Stage} {level : Level} {p q : Parsing} {tree : Tree}
    (course : Course stage level p tree q) : TreadsQuietly p q := by
  induction course with
  | stopped | stop => exact .refl _
  | full running => exact .exceed running
  | deep next => exact .exceed (running_of_continuation next)
  | enter _ _ ih =>
    refine ⟨ih.grown, fun quiet => ?_⟩
    obtain ⟨word, passed⟩ := ih.treads quiet
    exact ⟨word, passed.ahead, passed.received, passed.hadError, passed.errors, passed.panicking⟩
  | foreign => exact .refuse _ _
  | tooLarge _ _ _ _ ih => exact (TreadsQuietly.refuse _ _).trans ih
  | number _ kind _ _ ih =>
    have first := TreadsQuietly.advance (by rw [kind]; decide) (by rw [kind]; decide)
    exact first.trans ih
  | sign _ kind _ _ inner onward =>
    have live := (Token.Kind.ne_of_sign kind).1
    have first := TreadsQuietly.advance live (by rcases kind with kind | kind <;> rw [kind] <;> decide)
    exact first.trans (inner.trans onward)
  | binary next _ _ _ inner onward => exact (TreadsQuietly.operator next).trans (inner.trans onward)
  | ternary next _ _ _ second third onward =>
    exact (TreadsQuietly.operator next).trans (second.trans ((TreadsQuietly.divide _).trans (third.trans onward)))

end Parsing

def Parser.upcoming (source filename : String) (p : Parser) : List Token :=
  (tokenize source filename).toList.filter (p.current.location.offset ≤ ·.location.offset)

def Parser.remaining (source filename : String) (p : Parser) : List Token :=
  (p.upcoming source filename).filter (·.kind ≠ .invalid)

namespace Parsing

section Upcoming

variable {source filename : String} {p : Parsing} (within : p.ahead <:+ (tokenize source filename).toList)

include within

theorem upcoming_eq_ahead : p.upcoming source filename = p.ahead := by
  have sorted : (tokenize source filename).toList.Pairwise (·.location.offset < ·.location.offset) :=
    (Scanner.ofSource source filename).tokens_pairwise_offset
  obtain ⟨front, split⟩ := within
  obtain ⟨behind, next⟩ := head_ahead p
  rw [← split] at sorted
  obtain ⟨_, ascends, order⟩ := List.pairwise_append.mp sorted
  have earlier : front.filter (p.current.location.offset ≤ ·.location.offset) = [] := by
    apply List.filter_eq_nil_iff.mpr
    intro t member
    have before := order t member p.current (next ▸ List.mem_cons_self)
    simpa using before
  have later : p.ahead.filter (p.current.location.offset ≤ ·.location.offset) = p.ahead :=
    List.filter_eq_self.mpr fun t member => decide_eq_true (Ascends.le_current ascends t member)
  rw [Parser.upcoming, ← split, List.filter_append, earlier, later, List.nil_append]

theorem head_remaining (settled : p.Settled) : ∃ behind, p.remaining source filename = p.current :: behind := by
  obtain ⟨behind, next⟩ := head_ahead p
  refine ⟨behind.filter (·.kind ≠ .invalid), ?_⟩
  rw [Parser.remaining, upcoming_eq_ahead within, next, List.filter_cons_of_pos (by simpa using settled.valid)]

end Upcoming

/-- The tokens begin with a phrase of the level that fits into `room`, and the token behind it, which is not invalid,
does not go on with it. -/
inductive Offers (room : Nat) (level : Level) (tokens : List Token) : Prop where
  | intro {word rest : List Token} {next : Token} {tree : Tree} (split : tokens = word ++ next :: rest)
      (phrase : Phrase level word tree) (fits : Fits word) (height : tree.height ≤ room)
      (valid : next.kind ≠ .invalid) (closed : ¬ next.kind.Continues level)

/-- From `p` the phrase `word` was read, tree and all, and no longer front part of what remained of the text is a phrase
of the level. -/
structure ReadsLongest (source filename : String) (level : Level) (p : Parsing) (word : List Token)
    (read : Tree × Parsing) : Prop where
  treads : Treads p word read.2
  consumed : p.remaining source filename = word ++ read.2.remaining source filename
  derives (tree : Tree) : Phrase level word tree ↔ tree = read.1
  longest (front : List Token) (tree : Tree) (begins : front <+: p.remaining source filename)
    (phrase : Phrase level front tree) : front.length ≤ word.length
  closed : ¬ read.2.current.kind.Continues level

section Quiet

variable {p : Parsing} (settled : p.Settled) (running : p.nestingExceeded = false) (level : Level)

include settled running

theorem reads_of_quiet (quiet : (p.parse level).2.reported = p.reported) :
    ∃ word, Treads p word (p.parse level).2 ∧ Phrase level word (p.parse level).1 ∧ Fits word ∧
      (p.parse level).1.height ≤ maxNesting - p.depth ∧ ¬ (p.parse level).2.current.kind.Continues level := by
  obtain ⟨word, treads⟩ := (course_parse level p).treadsQuietly.treads quiet
  have ends : Ends (maxNesting - p.depth) level level p (p.parse level) := ends_parseWithin _ level p running settled
  rcases ends with @⟨front, passes, phrase, fits, height, closed⟩ | ⟨finds, _⟩
  · -- both ways of looking at what was read tell the same tokens
    obtain rfl : front = word := List.append_cancel_right (passes.ahead.symm.trans treads.ahead)
    exact ⟨front, treads, phrase, fits, height, closed⟩
  · exact absurd quiet finds.not_quiet

theorem quiet_iff_offers :
    (p.parse level).2.reported = p.reported ↔ Offers (maxNesting - p.depth) level p.ahead := by
  constructor
  · intro quiet
    obtain ⟨word, treads, phrase, fits, height, closed⟩ := reads_of_quiet settled running level quiet
    obtain ⟨rest, next⟩ := head_ahead (p.parse level).2
    have valid := ((course_parse level p).moves.settled settled).valid
    exact ⟨next ▸ treads.ahead, phrase, fits, height, valid, closed⟩
  · rintro ⟨split, phrase, fits, height, valid, closed⟩
    obtain ⟨q, passes, read⟩ := parseWithin_of_phrase phrase running split fits valid height closed
    rw [parse, read]
    exact passes.reported

theorem readsLongest_of_quiet {source filename : String} (within : p.ahead <:+ (tokenize source filename).toList)
    (quiet : (p.parse level).2.reported = p.reported) :
    ∃ word, ReadsLongest source filename level p word (p.parse level) := by
  have moves := (course_parse level p).moves
  have rest := (moves.turns.ahead_suffix settled).trans within
  have stands := moves.settled settled
  obtain ⟨word, treads, phrase, fits, _, closed⟩ := reads_of_quiet settled running level quiet
  obtain ⟨behind, next⟩ := head_ahead (p.parse level).2
  obtain ⟨left, remains⟩ := head_remaining rest stands
  have consumed : p.remaining source filename = word ++ (p.parse level).2.remaining source filename := by
    have valid : word.filter (·.kind ≠ .invalid) = word :=
      List.filter_eq_self.mpr fun t member => decide_eq_true (phrase.valid t member)
    rw [Parser.remaining, Parser.remaining, upcoming_eq_ahead within, upcoming_eq_ahead rest, treads.ahead,
      List.filter_append, valid]
  refine ⟨word, treads, consumed, fun tree => ⟨fun other => ?_, ?_⟩, fun front tree begins other => ?_, closed⟩
  · exact tree_unique running (next ▸ treads.ahead) fits stands.valid closed other phrase
  · rintro rfl
    exact phrase
  · rw [consumed, remains] at begins
    exact phrase.length_le_of_closed closed begins other

end Quiet

theorem Grows.reports_eq_iff {p q : Parsing} (grows : p.Grows q) : q.reports = p.reports ↔ q.reported = p.reported := by
  obtain ⟨new, reports, _⟩ := grows.recorded
  have reported : q.reported = p.reported ++ new.map Report.error := by
    rw [Parsing.reported, reports, List.map_append, Parsing.reported]
  rw [← Array.toList_inj, reports, reported]
  simp

end Parsing

namespace Session

/-- Whatever was done before, a parser that has a text to itself can be made to read at any level. It has nothing to
report exactly where a phrase that it has room for stands ahead, with nothing invalid right behind it, and then it reads
the longest phrase of the level. So it is at every moment of every call too. -/
theorem longest_phrase_read {sources : List (String × String)} {actions : List Action} {events : List Event}
    {t : Session} (run : (ofSources sources).run actions = some (events, t)) {i c : Nat} {source filename : String}
    {parser : Parser} (found : sources[i]? = some (source, filename)) (named : t.clients[c]? = some ⟨parser, i⟩)
    (alone : ∀ e ∈ events, e.scanner? = some i → e.client? = some c) :
    ∃ scanner, t.scanners[i]? = some scanner ∧
      (∀ level,
        let read := (Parsing.resume parser scanner).parse level
        t.perform (.parse c level) = some (t.outcome c i (.tree read.1, read.2))) ∧
      ∀ p, Parsing.Turns (.resume parser scanner) p → p.nestingExceeded = false → ∀ level,
        ((p.parse level).2.reports = p.reports ↔
            Parsing.Offers (maxNesting - p.depth) level (p.upcoming source filename)) ∧
          ((p.parse level).2.reports = p.reports →
            ∃ word, Parsing.ReadsLongest source filename level p word (p.parse level)) := by
  obtain ⟨scanner, there, lasts⟩ := ((Sole.begin (c := c) found).run run alone).lasts _ named rfl
  refine ⟨scanner, there, fun level => (Calls.parse c level).perform_eq named there, ?_⟩
  intro p turns running level
  have settled := turns.settled lasts.settled
  have within := (turns.ahead_suffix lasts.settled).trans lasts.within
  have grows := (Parsing.moves_parse level p).turns.grows
  rw [grows.reports_eq_iff, Parsing.upcoming_eq_ahead within]
  exact ⟨Parsing.quiet_iff_offers settled running level, Parsing.readsLongest_of_quiet settled running level within⟩

/-- Two tokens were skipped while the parser panics about the first character. The colon of the phrase that it then
reads ends the panic, and neither the number behind the phrase nor the stray character behind that is part of it. -/
theorem longest_phrase_read_in_panic :
    ∃ events t parser scanner word,
      (ofSources [("$ 9 * 1 + 2 ? 3 : 4 * 5 6 $", ""), ("7", "")]).run
          [.create 1, .create 0, .advance 1, .advance 1] = some (events, t) ∧
        t.clients[1]? = some ⟨parser, 0⟩ ∧ t.scanners[0]? = some scanner ∧
        parser.panicking = true ∧ parser.nestingExceeded = false ∧
        (∀ e ∈ events, e.scanner? = some 0 → e.client? = some 1) ∧
        ((Parsing.resume parser scanner).parse .conditional).2.reports = #[] ∧
        ((Parsing.resume parser scanner).parse .conditional).1.print = "(?: (+ 1 2) 3 (* 4 5))" ∧
        Parsing.ReadsLongest "$ 9 * 1 + 2 ? 3 : 4 * 5 6 $" "" .conditional (.resume parser scanner) word
          ((Parsing.resume parser scanner).parse .conditional) := by
  have ran : (((ofSources [("$ 9 * 1 + 2 ? 3 : 4 * 5 6 $", ""), ("7", "")]).run
      [.create 1, .create 0, .advance 1, .advance 1]).bind fun done =>
        done.2.clients[1]?.bind fun client => done.2.scanners[0]?.filter fun scanner =>
          client.scanner = 0 ∧ client.parser.panicking = true ∧ client.parser.nestingExceeded = false ∧
            (∀ e ∈ done.1, e.scanner? = some 0 → e.client? = some 1) ∧
            ((Parsing.resume client.parser scanner).parse .conditional).2.reports = #[] ∧
            ((Parsing.resume client.parser scanner).parse .conditional).1.print = "(?: (+ 1 2) 3 (* 4 5))").isSome =
      true := by decide +kernel
  obtain ⟨scanner, found⟩ := Option.isSome_iff_exists.mp ran
  obtain ⟨⟨events, t⟩, run, found⟩ := Option.bind_eq_some_iff.mp found
  obtain ⟨⟨parser, index⟩, named, found⟩ := Option.bind_eq_some_iff.mp found
  obtain ⟨there, holds⟩ := Option.filter_eq_some_iff.mp found
  obtain ⟨rfl, panics, running, alone, silent, shown⟩ := of_decide_eq_true holds
  obtain ⟨_, same, _, reads⟩ := longest_phrase_read run rfl named alone
  cases there.symm.trans same
  obtain ⟨word, longest⟩ := (reads _ Relation.ReflTransGen.refl running .conditional).2 silent
  exact ⟨events, t, parser, scanner, word, run, named, there, panics, running, alone, silent, shown, longest⟩

end Session

end Arith
