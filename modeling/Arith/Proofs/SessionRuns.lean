import Arith.Session
import Arith.Proofs.ParserTurns

namespace Arith.Session

structure Event where
  action : Action
  step : Step
  deriving DecidableEq, Repr

def Event.client? (e : Event) : Option Nat :=
  match e.action with
  | .create _ =>
    match e.step.answer with
    | .created client => some client
    | _ => none
  | .scan _ => none
  | .expression client | .parse client _ | .advance client | .consume client _ _ | .look client => some client

def run (s : Session) : List Action → Option (List Event × Session)
  | [] => some ([], s)
  | action :: actions =>
    (s.perform action).bind fun step =>
      (step.session.run actions).map fun rest => (⟨action, step⟩ :: rest.1, rest.2)

theorem run_cons_eq_some_iff {s t : Session} {action : Action} {actions : List Action} {events : List Event} :
    s.run (action :: actions) = some (events, t) ↔
      ∃ step rest, s.perform action = some step ∧ step.session.run actions = some (rest, t) ∧
        events = ⟨action, step⟩ :: rest := by
  simp only [run, Option.bind_eq_some_iff, Option.map_eq_some_iff, Prod.exists, Prod.mk.injEq]
  constructor
  · rintro ⟨step, performed, rest, t, behind, rfl, rfl⟩
    exact ⟨step, rest, performed, behind, rfl⟩
  · rintro ⟨step, rest, performed, behind, rfl⟩
    exact ⟨step, performed, rest, t, behind, rfl, rfl⟩

theorem run_induction {motive : Session → List Event → Session → Prop} (stay : ∀ s, motive s [] s)
    (step : ∀ (s : Session) (action : Action) (done : Step) (events : List Event) (t : Session),
      s.perform action = some done → motive done.session events t → motive s (⟨action, done⟩ :: events) t)
    {s t : Session} {actions : List Action} {events : List Event} (run : s.run actions = some (events, t)) :
    motive s events t := by
  induction actions generalizing s events with
  | nil =>
    cases run
    exact stay _
  | cons action actions ih =>
    obtain ⟨done, rest, performed, behind, rfl⟩ := run_cons_eq_some_iff.mp run
    exact step s action done rest t performed (ih behind)

inductive Calls : Action → Nat → (Parsing → Answer × Parsing) → Prop where
  | expression (client : Nat) : Calls (.expression client) client fun p => (.tree p.expression.1, p.expression.2)
  | parse (client : Nat) (level : Level) :
      Calls (.parse client level) client fun p => (.tree (p.parse level).1, (p.parse level).2)
  | advance (client : Nat) : Calls (.advance client) client fun p => (.passed p.advance.previous, p.advance)
  | consume (client : Nat) (expected : Token.Kind) (message : String) :
      Calls (.consume client expected message) client fun p =>
        (.accepted (p.consume expected message).1, (p.consume expected message).2)
  | look (client : Nat) : Calls (.look client) client fun p => (.done, p)

def outcome (s : Session) (client scanner : Nat) (result : Answer × Parsing) : Step :=
  ⟨result.1, result.2.reports, result.2.received,
    ⟨s.scanners.setIfInBounds scanner result.2.scanner,
      s.clients.setIfInBounds client ⟨result.2.toParser, scanner⟩⟩⟩

inductive Performs (s : Session) : Action → Step → Prop where
  | create {scanner : Nat} {source : Scanner} (found : s.scanners[scanner]? = some source) :
      Performs s (.create scanner)
        ⟨.created s.clients.size, (Parsing.start source).reports, (Parsing.start source).received,
          ⟨s.scanners.setIfInBounds scanner (Parsing.start source).scanner,
            s.clients.push ⟨(Parsing.start source).toParser, scanner⟩⟩⟩
  | scan {scanner : Nat} {source : Scanner} (found : s.scanners[scanner]? = some source) :
      Performs s (.scan scanner)
        ⟨.token source.scan.1, #[], #[source.scan.1],
          ⟨s.scanners.setIfInBounds scanner source.scan.2, s.clients⟩⟩
  | call {action : Action} {client : Nat} {call : Parsing → Answer × Parsing} {parser : Parser} {scanner : Nat}
      {source : Scanner} (calls : Calls action client call) (named : s.clients[client]? = some ⟨parser, scanner⟩)
      (found : s.scanners[scanner]? = some source) :
      Performs s action (s.outcome client scanner (call (.resume parser source)))

theorem Calls.perform {action : Action} {client : Nat} {call : Parsing → Answer × Parsing}
    (calls : Calls action client call) (s : Session) : s.perform action = s.work client call := by
  cases calls <;> rfl

theorem work_eq_some_iff {s : Session} {client : Nat} {call : Parsing → Answer × Parsing} {done : Step} :
    s.work client call = some done ↔
      ∃ parser scanner source, s.clients[client]? = some ⟨parser, scanner⟩ ∧ s.scanners[scanner]? = some source ∧
        done = s.outcome client scanner (call (.resume parser source)) := by
  simp only [work, Option.bind_eq_bind, Option.bind_eq_some_iff, Option.pure_def, Option.some.injEq]
  constructor
  · rintro ⟨⟨parser, scanner⟩, named, source, found, rfl⟩
    exact ⟨parser, scanner, source, named, found, rfl⟩
  · rintro ⟨parser, scanner, source, named, found, rfl⟩
    exact ⟨⟨parser, scanner⟩, named, source, found, rfl⟩

theorem performs_of_perform {s : Session} {action : Action} {done : Step}
    (performed : s.perform action = some done) : Performs s action done := by
  have called : ∀ {client : Nat} {call : Parsing → Answer × Parsing}, Calls action client call →
      Performs s action done := by
    intro client call calls
    rw [calls.perform] at performed
    obtain ⟨parser, scanner, source, named, found, rfl⟩ := work_eq_some_iff.mp performed
    exact .call calls named found
  cases action with
  | create scanner =>
    simp only [perform, Option.bind_eq_bind, Option.bind_eq_some_iff, Option.pure_def, Option.some.injEq] at performed
    obtain ⟨source, found, rfl⟩ := performed
    exact .create found
  | scan scanner =>
    simp only [perform, Option.bind_eq_bind, Option.bind_eq_some_iff, Option.pure_def, Option.some.injEq] at performed
    obtain ⟨source, found, rfl⟩ := performed
    exact .scan found
  | expression client => exact called (.expression client)
  | parse client level => exact called (.parse client level)
  | advance client => exact called (.advance client)
  | consume client expected message => exact called (.consume client expected message)
  | look client => exact called (.look client)

theorem Calls.perform_eq {action : Action} {client : Nat} {call : Parsing → Answer × Parsing}
    (calls : Calls action client call) {s : Session} {parser : Client} {source : Scanner}
    (named : s.clients[client]? = some parser) (found : s.scanners[parser.scanner]? = some source) :
    s.perform action = some (s.outcome client parser.scanner (call (.resume parser.parser source))) := by
  rw [calls.perform, work_eq_some_iff]
  exact ⟨_, _, source, named, found, rfl⟩

theorem Calls.client?_eq {action : Action} {client : Nat} {call : Parsing → Answer × Parsing}
    (calls : Calls action client call) (step : Step) : Event.client? ⟨action, step⟩ = some client := by
  cases calls <;> rfl

theorem Calls.turns {action : Action} {client : Nat} {call : Parsing → Answer × Parsing}
    (calls : Calls action client call) (p : Parsing) : Parsing.Turns p (call p).2 := by
  cases calls with
  | expression => exact Parsing.turns_expression p
  | parse _ level => exact (Parsing.moves_parse level p).turns
  | advance => exact (Parsing.Turn.advance p).turns
  | consume _ expected message => exact (Parsing.Turn.consume expected message p).turns
  | look => exact Relation.ReflTransGen.refl

def Satisfied (property : Parser → Scanner → Prop) (s : Session) : Prop :=
  ∀ (c : Nat) (client : Client), s.clients[c]? = some client →
    ∃ source, s.scanners[client.scanner]? = some source ∧ property client.parser source

theorem reads_setIfInBounds {scanners : Array Scanner} {i : Nat} {source next : Scanner}
    (found : scanners[i]? = some source) (reads : source.Reads next) {j : Nat} {old : Scanner}
    (other : scanners[j]? = some old) : ∃ new, (scanners.setIfInBounds i next)[j]? = some new ∧ old.Reads new := by
  rw [Array.getElem?_setIfInBounds]
  by_cases same : i = j
  · subst same
    obtain ⟨bound, _⟩ := Array.getElem?_eq_some_iff.mp found
    rw [found] at other
    cases other
    exact ⟨next, by simp [bound], reads⟩
  · exact ⟨old, by simp [same, other], .refl old⟩

theorem Calls.reads {action : Action} {client : Nat} {call : Parsing → Answer × Parsing}
    (calls : Calls action client call) (parser : Parser) (source : Scanner) :
    source.Reads (call (.resume parser source)).2.scanner := (calls.turns (.resume parser source)).reads

theorem getElem?_setIfInBounds_of_found {α : Type} {xs : Array α} {i : Nat} {x : α} (found : xs[i]? = some x)
    (y : α) : (xs.setIfInBounds i y)[i]? = some y := by
  obtain ⟨bound, _⟩ := Array.getElem?_eq_some_iff.mp found
  rw [Array.getElem?_setIfInBounds_self, if_pos bound]

/-- A property that holds of new parsers, that calls keep, and that survives others reading on. -/
structure Kept (property : Parser → Scanner → Prop) : Prop where
  start (source : Scanner) : property (Parsing.start source).toParser (Parsing.start source).scanner
  call {action : Action} {client : Nat} {call : Parsing → Answer × Parsing} {parser : Parser} {source : Scanner}
    (calls : Calls action client call) (holds : property parser source) :
    property (call (.resume parser source)).2.toParser (call (.resume parser source)).2.scanner
  elsewhere {parser : Parser} {source later : Scanner} (holds : property parser source)
    (reads : source.Reads later) : property parser later

section Kept

variable {property : Parser → Scanner → Prop} (kept : Kept property)

include kept

theorem Satisfied.elsewhere {s : Session} (satisfied : s.Satisfied property) {i c : Nat} {source next : Scanner}
    {client : Client} (found : s.scanners[i]? = some source) (reads : source.Reads next)
    (named : s.clients[c]? = some client) :
    ∃ source, (s.scanners.setIfInBounds i next)[client.scanner]? = some source ∧ property client.parser source := by
  obtain ⟨old, before, holds⟩ := satisfied c client named
  obtain ⟨new, now, read⟩ := reads_setIfInBounds found reads before
  exact ⟨new, now, kept.elsewhere holds read⟩

theorem Satisfied.perform {s : Session} {action : Action} {done : Step} (satisfied : s.Satisfied property)
    (performs : Performs s action done) : done.session.Satisfied property := by
  intro c client named
  -- the parser that the action is about has changed with its scanner; the others may only have been read past
  cases performs with
  | @create scanner source found =>
    rw [Array.getElem?_push] at named
    split at named
    · cases named
      exact ⟨_, getElem?_setIfInBounds_of_found found _, kept.start source⟩
    · exact satisfied.elsewhere kept found (Parsing.reads_start source) named
  | @scan scanner source found => exact satisfied.elsewhere kept found (.scan source) named
  | @call _ i made parser scanner source calls worked found =>
    simp only [outcome] at named
    rw [Array.getElem?_setIfInBounds] at named
    split at named
    · split at named
      · cases named
        obtain ⟨old, there, holds⟩ := satisfied i ⟨parser, scanner⟩ worked
        rw [found] at there
        cases there
        exact ⟨_, getElem?_setIfInBounds_of_found found _, kept.call calls holds⟩
      · cases named
    · exact satisfied.elsewhere kept found (calls.reads parser source) named

theorem Satisfied.run {s t : Session} {actions : List Action} {events : List Event}
    (satisfied : s.Satisfied property) (run : s.run actions = some (events, t)) : t.Satisfied property := by
  refine run_induction (motive := fun s _ t => s.Satisfied property → t.Satisfied property) ?_ ?_ run satisfied
  · exact fun s satisfied => satisfied
  · intro s action done events t performed later satisfied
    exact later (satisfied.perform kept (performs_of_perform performed))

theorem satisfied_of_run {sources : List (String × String)} {t : Session} {actions : List Action}
    {events : List Event} (run : (ofSources sources).run actions = some (events, t)) : t.Satisfied property := by
  refine Satisfied.run kept ?_ run
  intro c client named
  simp [ofSources] at named

end Kept

end Arith.Session
