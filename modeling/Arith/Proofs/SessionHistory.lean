import Arith.Proofs.NestingBounds
import Arith.Proofs.ParserInvariants

namespace Arith

/-- A parser as it is between calls. -/
structure Parser.Sound (p : Parser) : Prop extends p.Consistent where
  outermost : p.depth = 0

structure Parser.Extends (before after : Parser) : Prop where
  hadError : before.hadError = true → after.hadError = true
  nestingExceeded : before.nestingExceeded = true → after.nestingExceeded = true
  errors : before.errors.toList <+: after.errors.toList

namespace Parser.Extends

theorem refl (p : Parser) : p.Extends p := ⟨id, id, List.prefix_refl _⟩

theorem trans {p q r : Parser} (first : p.Extends q) (second : q.Extends r) : p.Extends r :=
  ⟨second.hadError ∘ first.hadError, second.nestingExceeded ∘ first.nestingExceeded,
    first.errors.trans second.errors⟩

theorem of_grows {p q : Parsing} (grows : p.Grows q) : p.toParser.Extends q.toParser := by
  obtain ⟨reports, _, errors⟩ := grows.recorded
  exact ⟨grows.hadError, grows.nestingExceeded, reports.filterMap Report.recorded?, errors.symm⟩

end Parser.Extends

theorem Parsing.Grows.errors_eq {p q : Parsing} (grows : p.Grows q) (fresh : p.reports = #[]) :
    q.errors.toList = p.errors.toList ++ q.reports.toList.filterMap Report.recorded? := by
  obtain ⟨reports, all, errors⟩ := grows.recorded
  rw [fresh, List.nil_append] at all
  rw [errors, all]

theorem Parsing.errors_start (source : Scanner) :
    (start source).errors.toList = (start source).reports.toList.filterMap Report.recorded? :=
  (Grows.reportPassed _ _).errors_eq rfl

namespace Session

def reportsOf (c : Nat) (events : List Event) : List Report :=
  (events.filter (·.client? = some c)).flatMap fun event => event.step.reports.toList

def errorsOf (s : Session) (c : Nat) : List SyntaxError :=
  (s.clients[c]?.map fun client => client.parser.errors.toList).getD []

theorem reportsOf_cons (c : Nat) (event : Event) (events : List Event) :
    reportsOf c (event :: events) = reportsOf c [event] ++ reportsOf c events := by
  by_cases own : event.client? = some c <;> simp [reportsOf, own]

theorem reportsOf_own {c : Nat} {event : Event} (own : event.client? = some c) :
    reportsOf c [event] = event.step.reports.toList := by
  simp [reportsOf, own]

theorem reportsOf_other {c : Nat} {event : Event} (other : event.client? ≠ some c) : reportsOf c [event] = [] := by
  simp [reportsOf, other]

theorem errorsOf_of_named {s : Session} {c : Nat} {client : Client} (named : s.clients[c]? = some client) :
    s.errorsOf c = client.parser.errors.toList := by
  simp [errorsOf, named]

structure Grows (s : Session) (events : List Event) (t : Session) : Prop where
  errors (c : Nat) : t.errorsOf c = s.errorsOf c ++ (reportsOf c events).filterMap Report.recorded?
  extended (c : Nat) (before : Client) (named : s.clients[c]? = some before) :
    ∃ after, t.clients[c]? = some after ∧ before.parser.Extends after.parser

theorem Grows.refl (s : Session) : s.Grows [] s where
  errors c := by simp [reportsOf]
  extended c before named := ⟨before, named, .refl before.parser⟩

theorem Grows.cons {s t u : Session} {event : Event} {events : List Event} (first : s.Grows [event] t)
    (rest : t.Grows events u) : s.Grows (event :: events) u where
  errors c := by
    rw [rest.errors, first.errors, reportsOf_cons c event events, List.filterMap_append, List.append_assoc]
  extended c before named := by
    obtain ⟨middle, there, extended⟩ := first.extended c before named
    obtain ⟨after, here, further⟩ := rest.extended c middle there
    exact ⟨after, here, extended.trans further⟩

theorem Grows.of_one {s t : Session} {event : Event} {c : Nat} {after : Client} (own : event.client? = some c)
    (others : ∀ d, d ≠ c → t.clients[d]? = s.clients[d]?) (named : t.clients[c]? = some after)
    (errors : after.parser.errors.toList = s.errorsOf c ++ event.step.reports.toList.filterMap Report.recorded?)
    (extended : ∀ before, s.clients[c]? = some before → before.parser.Extends after.parser) :
    s.Grows [event] t := by
  refine ⟨fun d => ?_, fun d before there => ?_⟩ <;> by_cases same : d = c
  · subst same
    rw [errorsOf_of_named named, reportsOf_own own, errors]
  · rw [errorsOf, others d same, reportsOf_other (by rw [own]; simpa using Ne.symm same)]
    simp [errorsOf]
  · subst same
    exact ⟨after, named, extended before there⟩
  · exact ⟨before, (others d same).trans there, .refl before.parser⟩

theorem Performs.grows {s : Session} {action : Action} {done : Step} (performs : Performs s action done) :
    s.Grows [⟨action, done⟩] done.session := by
  cases performs with
  | @create scanner source found =>
    have unmade : s.clients[s.clients.size]? = none := Array.getElem?_size
    refine .of_one (c := s.clients.size) rfl (fun d other => ?_) Array.getElem?_push_size ?_ (fun before named => ?_)
    · rw [Array.getElem?_push, if_neg other]
    · rw [errorsOf, unmade]
      exact Parsing.errors_start source
    · rw [unmade] at named
      cases named
  | @scan scanner source found =>
    refine ⟨fun c => ?_, fun c before named => ⟨before, named, .refl before.parser⟩⟩
    -- a token that is read directly is no parser's concern
    rw [reportsOf_other (by simp [Event.client?])]
    simp [errorsOf]
  | @call _ c made parser scanner source calls named found =>
    have grows := (calls.turns (.resume parser source)).grows
    refine .of_one (c := c) (calls.client?_eq _) (fun d other => ?_) (getElem?_setIfInBounds_of_found named _) ?_
      (fun before there => ?_)
    · exact Array.getElem?_setIfInBounds_ne (Ne.symm other)
    · rw [errorsOf_of_named named]
      exact grows.errors_eq rfl
    · rw [named] at there
      cases there
      exact .of_grows grows

theorem grows_of_run {s t : Session} {actions : List Action} {events : List Event}
    (run : s.run actions = some (events, t)) : s.Grows events t :=
  run_induction (motive := Grows) .refl
    (fun _ _ _ _ _ performed later => (performs_of_perform performed).grows.cons later) run

theorem render_recorded (reports : List Report) :
    (reports.filter (·.recorded?.isSome)).map Report.render =
      (reports.filterMap Report.recorded?).map fun e => e.location.render ++ ": " ++ e.brief := by
  induction reports with
  | nil => rfl
  | cons report reports ih =>
    cases report with
    | recorded error => exact congrArg (List.cons _) ih
    | suppressed error => exact ih

theorem kept_consistent : Kept fun parser _ => parser.Consistent where
  start := Parsing.consistent_start
  call calls consistent := (calls.turns _).consistent consistent
  elsewhere consistent _ := consistent

theorem kept_settled : Kept fun parser source => (Parsing.resume parser source).Settled where
  start source := ⟨(Parsing.Settled.start source).valid, (Parsing.Settled.start source).still⟩
  call calls settled := ⟨((calls.turns _).settled settled).valid, ((calls.turns _).settled settled).still⟩
  elsewhere settled reads := settled.elsewhere reads

/-- What the parsers of a session may be relied upon for, after `events`. -/
structure Coherent (events : List Event) (s : Session) : Prop where
  sound (c : Nat) (client : Client) (named : s.clients[c]? = some client) : client.parser.Sound
  logged (c : Nat) (client : Client) (named : s.clients[c]? = some client) :
    ((reportsOf c events).filter (·.recorded?.isSome)).map Report.render =
      client.parser.errors.toList.map fun e => e.location.render ++ ": " ++ e.brief
  extended (more : List Action) (later : List Event) (t : Session) (run : s.run more = some (later, t)) (c : Nat)
    (before : Client) (named : s.clients[c]? = some before) :
    ∃ after, t.clients[c]? = some after ∧ before.parser.Extends after.parser
  panicking (c : Nat) (client : Client) (named : s.clients[c]? = some client) :
    ∃ done after, s.perform (.expression c) = some done ∧ done.session.clients[c]? = some after ∧
      (after.parser.panicking = true ↔
        after.parser.nestingExceeded = true ∨ after.parser.current.kind ≠ .endOfInput)

theorem hadError_iff_refused (source filename : String) :
    (Parsing.ofSource source filename).expression.2.hadError = true ↔
      ∃ e, (Parsing.ofSource source filename).expression.2.errors[0]? = some e ∧ parse? source filename = .error e := by
  have consistent : (Parsing.ofSource source filename).expression.2.Consistent :=
    (Parsing.turns_expression _).consistent (Parsing.consistent_start _)
  rw [consistent.hadError, parse?]
  cases first : (Parsing.ofSource source filename).expression.2.errors[0]? with
  | none =>
    have none : (Parsing.ofSource source filename).expression.2.errors = #[] :=
      Array.eq_empty_of_size_eq_zero (Nat.le_zero.mp (Array.getElem?_eq_none_iff.mp first))
    simp [none]
  | some e =>
    have some : (Parsing.ofSource source filename).expression.2.errors ≠ #[] := by
      intro none
      rw [none] at first
      cases first
    simp [some, first]

theorem coherent_of_run {sources : List (String × String)} {actions : List Action} {events : List Event}
    {s : Session} (run : (ofSources sources).run actions = some (events, s)) :
    Coherent events s ∧
      ∀ source filename, (Parsing.ofSource source filename).expression.2.hadError = true ↔
        ∃ e, (Parsing.ofSource source filename).expression.2.errors[0]? = some e ∧
          parse? source filename = .error e := by
  have consistent := satisfied_of_run kept_consistent run
  have settled := satisfied_of_run kept_settled run
  have outermost := satisfied_of_run kept_outermost run
  refine ⟨⟨fun c client named => ?_, fun c client named => ?_, fun more later t run => (grows_of_run run).extended,
    fun c client named => ?_⟩, hadError_iff_refused⟩
  · obtain ⟨_, _, consistent⟩ := consistent c client named
    obtain ⟨_, _, outermost⟩ := outermost c client named
    exact ⟨consistent, outermost⟩
  · have errors := (grows_of_run run).errors c
    have unmade : (ofSources sources).errorsOf c = [] := by simp [errorsOf, ofSources]
    rw [errorsOf_of_named named, unmade, List.nil_append] at errors
    rw [render_recorded, errors]
  · obtain ⟨_, _, consistent⟩ := consistent c client named
    obtain ⟨source, found, settled⟩ := settled c client named
    refine ⟨_, _, (Calls.expression c).perform_eq named found, getElem?_setIfInBounds_of_found named _, ?_⟩
    exact Parsing.panicking_expression settled consistent

theorem coherent_after_recovery :
    ∃ events s client,
      (ofSources [("$ 1 ? 2 : $ )", "")]).run
          [.create 0, .expression 0, .create 0, .consume 1 .plus "more", .advance 0] = some (events, s) ∧
        s.clients[0]? = some client ∧ client.parser.errors.size = 2 ∧ Coherent events s := by
  have ran : (((ofSources [("$ 1 ? 2 : $ )", "")]).run
      [.create 0, .expression 0, .create 0, .consume 1 .plus "more", .advance 0]).bind fun done =>
        done.2.clients[0]?.filter fun client => client.parser.errors.size = 2).isSome = true := by decide +kernel
  obtain ⟨client, found⟩ := Option.isSome_iff_exists.mp ran
  obtain ⟨⟨events, s⟩, run, named⟩ := Option.bind_eq_some_iff.mp found
  obtain ⟨named, size⟩ := Option.filter_eq_some_iff.mp named
  exact ⟨events, s, client, run, named, of_decide_eq_true size, (coherent_of_run run).1⟩

end Session

end Arith
