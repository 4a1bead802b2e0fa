import Arith.Proofs.SessionRuns
import Mathlib.Data.List.Nodup

namespace Arith

namespace Scanner

inductive Gives : Scanner → List Token → Scanner → Prop where
  | none (s : Scanner) : Gives s [] s
  | scan {s t : Scanner} {given : List Token} (later : Gives s.scan.2 given t) : Gives s (s.scan.1 :: given) t

namespace Gives

theorem append {s t u : Scanner} {front back : List Token} (first : s.Gives front t) (second : t.Gives back u) :
    s.Gives (front ++ back) u := by
  induction first with
  | none => exact second
  | scan _ ih => exact .scan (ih second)

theorem pull (s : Scanner) : s.Gives (s.pull.passed.push s.pull.token).toList s.pull.scanner := by
  induction s using pullInduction with
  | valid s valid =>
    rw [pull_of_valid valid]
    exact .scan (.none _)
  | invalid s invalid ih =>
    rw [pull_of_invalid invalid]
    simpa using Gives.scan ih

end Gives

end Scanner

/-- How the tokens of a text are dealt out. Behind the last of them there are as many more like it as are asked for. -/
inductive Dealt (stream : List Token) : (given rest : List Token) → Prop where
  | part {given rest : List Token} (split : stream = given ++ rest) : Dealt stream given rest
  | all {front : List Token} {last : Token} (split : stream = front ++ [last]) (more : Nat) :
      Dealt stream (stream ++ List.replicate more last) [last]

theorem Dealt.cons {token : Token} {stream given rest : List Token} (dealt : Dealt stream given rest) :
    Dealt (token :: stream) (token :: given) rest := by
  cases dealt with
  | part split => exact .part (by rw [split, List.cons_append])
  | @all front last split more =>
    have whole : token :: stream = (token :: front) ++ [last] := by rw [split, List.cons_append]
    exact .all whole more

theorem Dealt.again {last : Token} {given rest : List Token} (dealt : Dealt [last] given rest) (some : rest ≠ []) :
    Dealt [last] (last :: given) rest := by
  have only : [last] = [] ++ [last] := rfl
  cases dealt with
  | part split =>
    -- nothing was given yet, or nothing would be left
    rcases List.append_eq_singleton_iff.mp split.symm with ⟨rfl, rfl⟩ | ⟨_, rfl⟩
    · exact .all only 0
    · exact absurd rfl some
  | all split more =>
    cases (List.append_inj' (only.symm.trans split) rfl).2
    exact .all only (more + 1)

theorem Scanner.Gives.dealt {s t : Scanner} {given : List Token} (gives : s.Gives given t) :
    Dealt s.tokens given t.tokens := by
  induction gives with
  | none => exact .part rfl
  | @scan s t given _ ih =>
    by_cases stop : s.scan.1.kind = .endOfInput
    · have again := scan_of_end stop
      rw [tokens_of_end (s := s.scan.2) (by rwa [again]), again] at ih
      rw [tokens_of_end stop]
      obtain ⟨front, last, split, _⟩ := t.tokens_end_last
      exact ih.again (by simp [split])
    · rw [tokens_of_more stop]
      exact ih.cons

theorem Dealt.count_eq_one {s : Scanner} {given rest : List Token} (dealt : Dealt s.tokens given rest) {token : Token}
    (member : token ∈ given) (more : token.kind ≠ .endOfInput) : given.count token = 1 := by
  have nodup : s.tokens.Nodup := s.tokens_pairwise_offset.imp fun before same => by
    rw [same] at before
    exact Int.lt_irrefl _ before
  obtain ⟨front, last, split, isEnd, _⟩ := s.tokens_end_last
  have other : token ≠ last := fun same => more (same ▸ isEnd)
  generalize s.tokens = stream at *
  cases dealt with
  | part whole =>
    rw [whole] at nodup
    exact List.count_eq_one_of_mem nodup.of_append_left member
  | @all front' last' whole more =>
    obtain ⟨_, ends⟩ := List.append_inj' (whole.symm.trans split) rfl
    cases ends
    have extra : (List.replicate more last).count token = 0 := by
      simp [List.count_replicate, Ne.symm other]
    rw [List.count_append, extra, Nat.add_zero]
    rcases List.mem_append.mp member with inside | last
    · exact List.count_eq_one_of_mem nodup inside
    · exact absurd (List.eq_of_mem_replicate last) other

/-- The tokens that a parser was handed led to where it stands: the current token is the last of them, and the
previous one the last before that. -/
structure Parser.Trails (history : List Token) (p : Parser) : Prop where
  current : history.getLast? = some p.current
  previous : history.dropLast.getLast? = p.previous

namespace Parsing

def pulled (p : Parsing) : List Token := p.received.toList.filter (·.kind ≠ .invalid)

/-- From `p` to `q` the two tokens of a parser are the same, or one more token was pulled and they moved up by one. -/
inductive Shifts (p q : Parsing) : Prop where
  | still (pulled : q.pulled = p.pulled) (previous : q.previous = p.previous) (current : q.current = p.current)
  | up (pulled : q.pulled = p.pulled ++ [q.current]) (previous : q.previous = some p.current)

theorem pulled_start (source : Scanner) : (start source).pulled = [(start source).current] := by
  have passed : source.pull.passed.toList.filter (·.kind ≠ .invalid) = [] :=
    List.filter_eq_nil_iff.mpr fun t member => by simpa using source.kind_passed_pull t member
  have valid := source.kind_pull_ne_invalid
  simp only [start, pulled, received_reportPassed, current_reportPassed, Array.toList_push, List.filter_append, passed]
  simp [valid]

theorem pulled_advance (p : Parsing) : p.advance.pulled = p.pulled ++ [p.advance.current] := by
  have passed : p.scanner.pull.passed.toList.filter (·.kind ≠ .invalid) = [] :=
    List.filter_eq_nil_iff.mpr fun t member => by simpa using p.scanner.kind_passed_pull t member
  have valid := p.scanner.kind_pull_ne_invalid
  rw [pulled, received_advance, current_advance, Array.toList_push, Array.toList_append, List.filter_append,
    List.filter_append, passed, List.append_nil]
  simp [pulled, valid]

namespace Shifts

theorem refl (p : Parsing) : Shifts p p := .still rfl rfl rfl

theorem advance (p : Parsing) : Shifts p p.advance := .up (pulled_advance p) (previous_advance p)

theorem report {p q : Parsing} (error : SyntaxError) (shifts : Shifts p q) : Shifts p (q.report error) := by
  have same : (q.report error).pulled = q.pulled := by rw [pulled, received_report, pulled]
  cases shifts with
  | still pulled previous current =>
    exact .still (by rw [same, pulled]) (by simpa using previous) (by simpa using current)
  | up pulled previous => exact .up (by rw [same, pulled, current_report]) (by simpa using previous)

theorem trails {history : List Token} {p q : Parsing} (shifts : Shifts p q)
    (trails : p.Trails (history ++ p.pulled)) : q.Trails (history ++ q.pulled) := by
  cases shifts with
  | still pulled previous current =>
    rw [pulled]
    exact ⟨trails.current.trans (congrArg some current.symm), trails.previous.trans previous.symm⟩
  | up pulled previous =>
    rw [pulled, ← List.append_assoc]
    refine ⟨List.getLast?_concat, ?_⟩
    rw [List.dropLast_concat, trails.current, previous]

end Shifts

theorem Turn.shifts {p q : Parsing} (turn : Turn p q) : Shifts p q := by
  cases turn with
  | advance => exact .advance p
  | refuse => exact (Shifts.advance p).report _
  | consume expected message =>
    rcases consume_cases expected message p with ⟨_, same⟩ | ⟨_, _, same⟩ | ⟨_, _, same⟩ <;> rw [same]
    · exact .refl p
    · exact .up (pulled_advance { p with panicking := false }) (previous_advance { p with panicking := false })
    · exact (Shifts.refl p).report _
  | exceed =>
    unfold exceedNesting
    split
    · exact .refl p
    · exact Shifts.report (q := { p with nestingExceeded := true }) _ (.still rfl rfl rfl)
  | descend | ascend => exact .still rfl rfl rfl

theorem Turns.trails {history : List Token} {p q : Parsing} (turns : Turns p q)
    (trails : p.Trails (history ++ p.pulled)) : q.Trails (history ++ q.pulled) :=
  turns.preserve (motive := fun q => q.Trails (history ++ q.pulled)) (fun turn => turn.shifts.trails) trails

def Receives (p q : Parsing) : Prop :=
  ∃ given, q.received.toList = p.received.toList ++ given ∧ p.scanner.Gives given q.scanner

namespace Receives

theorem nothing {p q : Parsing} (received : q.received = p.received) (scanner : q.scanner = p.scanner) :
    Receives p q := ⟨[], by rw [received, List.append_nil], by rw [scanner]; exact .none _⟩

theorem trans {p q r : Parsing} (first : Receives p q) (second : Receives q r) : Receives p r := by
  obtain ⟨front, received, gives⟩ := first
  obtain ⟨back, received', gives'⟩ := second
  exact ⟨front ++ back, by rw [received', received, List.append_assoc], gives.append gives'⟩

theorem advance (p : Parsing) : Receives p p.advance :=
  ⟨(p.scanner.pull.passed.push p.scanner.pull.token).toList, by simp, by rw [scanner_advance]; exact .pull p.scanner⟩

theorem report (error : SyntaxError) (p : Parsing) : Receives p (p.report error) := .nothing (by simp) (by simp)

end Receives

theorem Turn.receives {p q : Parsing} (turn : Turn p q) : Receives p q := by
  cases turn with
  | advance => exact .advance p
  | refuse => exact (Receives.advance p).trans (.report _ _)
  | consume expected message =>
    rcases consume_cases expected message p with ⟨_, same⟩ | ⟨_, _, same⟩ | ⟨_, _, same⟩ <;> rw [same]
    · exact .nothing rfl rfl
    · exact Receives.advance { p with panicking := false }
    · exact .report _ p
  | exceed =>
    unfold exceedNesting
    split
    · exact .nothing rfl rfl
    · exact .report _ { p with nestingExceeded := true }
  | descend | ascend => exact .nothing rfl rfl

theorem Turns.gives {p q : Parsing} (turns : Turns p q) (fresh : p.received = #[]) :
    p.scanner.Gives q.received.toList q.scanner := by
  have receives : Receives p q :=
    turns.preserve (motive := Receives p) (fun turn before => before.trans turn.receives) (.nothing rfl rfl)
  obtain ⟨given, received, gives⟩ := receives
  rw [fresh, List.nil_append] at received
  rwa [received]

theorem gives_start (source : Scanner) : source.Gives (start source).received.toList (start source).scanner := by
  simpa [start] using Scanner.Gives.pull source

end Parsing

namespace Session

def Event.scanner? (e : Event) : Option Nat :=
  match e.action with
  | .scan scanner => some scanner
  | _ => e.client?.bind fun c => e.step.session.clients[c]?.map (·.scanner)

/-- A token and the parser that was handed it, if it was not read directly. -/
structure Delivery where
  client : Option Nat
  token : Token
  deriving DecidableEq, Repr

def deliveries (scanner : Nat) (events : List Event) : List Delivery :=
  (events.filter (·.scanner? = some scanner)).flatMap fun event =>
    event.step.received.toList.map fun token => ⟨event.client?, token⟩

def handed (scanner : Nat) (events : List Event) : List Token := (deliveries scanner events).map (·.token)

/-- All that a parser was handed, in the order of time, without the invalid tokens. -/
def pulled (c : Nat) (events : List Event) : List Token :=
  (events.filter (·.client? = some c)).flatMap fun event => event.step.received.toList.filter (·.kind ≠ .invalid)

theorem handed_cons (scanner : Nat) (event : Event) (events : List Event) :
    handed scanner (event :: events) = handed scanner [event] ++ handed scanner events := by
  rw [handed, deliveries, ← List.singleton_append, List.filter_append, List.flatMap_append, List.map_append]
  rfl

theorem handed_own {scanner : Nat} {event : Event} (own : event.scanner? = some scanner) :
    handed scanner [event] = event.step.received.toList := by
  simp [handed, deliveries, own, Function.comp_def]

theorem handed_other {scanner : Nat} {event : Event} (other : event.scanner? ≠ some scanner) :
    handed scanner [event] = [] := by
  simp [handed, deliveries, other]

theorem pulled_cons (c : Nat) (event : Event) (events : List Event) :
    pulled c (event :: events) = pulled c [event] ++ pulled c events := by
  rw [pulled, ← List.singleton_append, List.filter_append, List.flatMap_append]
  rfl

theorem pulled_own {c : Nat} {event : Event} (own : event.client? = some c) :
    pulled c [event] = event.step.received.toList.filter (·.kind ≠ .invalid) := by
  simp [pulled, own]

theorem pulled_other {c : Nat} {event : Event} (other : event.client? ≠ some c) : pulled c [event] = [] := by
  simp [pulled, other]

def Gives (s : Session) (events : List Event) (t : Session) : Prop :=
  ∀ (i : Nat) (source : Scanner), s.scanners[i]? = some source →
    ∃ next, t.scanners[i]? = some next ∧ source.Gives (handed i events) next

theorem Gives.cons {s t u : Session} {event : Event} {events : List Event} (first : s.Gives [event] t)
    (rest : t.Gives events u) : s.Gives (event :: events) u := by
  intro i source found
  obtain ⟨middle, there, front⟩ := first i source found
  obtain ⟨next, here, back⟩ := rest i middle there
  exact ⟨next, here, by rw [handed_cons]; exact front.append back⟩

theorem Gives.of_one {s t : Session} {event : Event} {i : Nat} {source next : Scanner}
    (own : event.scanner? = some i) (found : s.scanners[i]? = some source)
    (scanners : t.scanners = s.scanners.setIfInBounds i next)
    (gives : source.Gives event.step.received.toList next) : s.Gives [event] t := by
  intro j old there
  by_cases same : i = j
  · subst same
    rw [found] at there
    cases there
    refine ⟨next, ?_, by rwa [handed_own own]⟩
    rw [scanners, getElem?_setIfInBounds_of_found found]
  · refine ⟨old, ?_, ?_⟩
    · rw [scanners, Array.getElem?_setIfInBounds_ne same, there]
    · rw [handed_other (by rw [own]; simpa using same)]
      exact .none old

theorem Calls.scanner?_eq {action : Action} {c : Nat} {call : Parsing → Answer × Parsing}
    (calls : Calls action c call) {s : Session} {old : Client} (named : s.clients[c]? = some old) (scanner : Nat)
    (result : Answer × Parsing) : Event.scanner? ⟨action, s.outcome c scanner result⟩ = some scanner := by
  have after : (s.outcome c scanner result).session.clients[c]? = some ⟨result.2.toParser, scanner⟩ :=
    getElem?_setIfInBounds_of_found named _
  cases calls <;> simp [Event.scanner?, Event.client?, after]

theorem scanner?_create (scanner : Nat) (reports : Array Report) (received : Array Token) (scanners : Array Scanner)
    (clients : Array Client) (parser : Parser) :
    Event.scanner? ⟨.create scanner, .created clients.size, reports, received, scanners,
      clients.push ⟨parser, scanner⟩⟩ = some scanner := by
  simp [Event.scanner?, Event.client?]

theorem Performs.reads {s : Session} {action : Action} {done : Step} (performs : Performs s action done) :
    ∃ i source next, Event.scanner? ⟨action, done⟩ = some i ∧ s.scanners[i]? = some source ∧
      done.session.scanners = s.scanners.setIfInBounds i next ∧ source.Gives done.received.toList next := by
  cases performs with
  | @create scanner source found =>
    exact ⟨scanner, source, _, scanner?_create _ _ _ _ _ _, found, rfl, Parsing.gives_start source⟩
  | @scan scanner source found => exact ⟨scanner, source, _, rfl, found, rfl, .scan (.none _)⟩
  | @call _ c made parser scanner source calls named found =>
    have gives := (calls.turns (.resume parser source)).gives rfl
    exact ⟨scanner, source, _, calls.scanner?_eq named _ _, found, rfl, gives⟩

theorem Performs.gives {s : Session} {action : Action} {done : Step} (performs : Performs s action done) :
    s.Gives [⟨action, done⟩] done.session := by
  obtain ⟨i, source, next, own, found, scanners, gives⟩ := performs.reads
  exact .of_one own found scanners gives

theorem gives_of_run {s t : Session} {actions : List Action} {events : List Event}
    (run : s.run actions = some (events, t)) : s.Gives events t :=
  run_induction (motive := Gives) (fun _ _ source found => ⟨source, found, .none source⟩)
    (fun _ _ _ _ _ performed later => (performs_of_perform performed).gives.cons later) run

structure Traced (history : Nat → List Token) (s : Session) : Prop where
  trails (c : Nat) (client : Client) (named : s.clients[c]? = some client) : client.parser.Trails (history c)
  unmade (c : Nat) (unnamed : s.clients[c]? = none) : history c = []

theorem Performs.elsewhere {s : Session} {action : Action} {done : Step} (performs : Performs s action done) {c : Nat}
    (other : Event.client? ⟨action, done⟩ ≠ some c) : done.session.clients[c]? = s.clients[c]? := by
  cases performs with
  | create =>
    have other : c ≠ s.clients.size := fun same => other (by rw [same]; rfl)
    rw [Array.getElem?_push, if_neg other]
  | scan => rfl
  | @call _ d _ _ _ _ calls _ _ =>
    rw [calls.client?_eq] at other
    exact Array.getElem?_setIfInBounds_ne (fun same => other (congrArg some same))

theorem Traced.of_one {history : Nat → List Token} {s t : Session} {event : Event} {c : Nat} {after : Client}
    (traced : s.Traced history) (own : event.client? = some c)
    (others : ∀ d, event.client? ≠ some d → t.clients[d]? = s.clients[d]?) (named : t.clients[c]? = some after)
    (trails : after.parser.Trails (history c ++ pulled c [event])) :
    t.Traced fun d => history d ++ pulled d [event] := by
  refine ⟨fun d client there => ?_, fun d unnamed => ?_⟩ <;> by_cases same : d = c
  · subst same
    rw [named] at there
    cases there
    exact trails
  · have other : event.client? ≠ some d := by rw [own]; simpa using Ne.symm same
    rw [pulled_other other, List.append_nil]
    exact traced.trails d client (others d other ▸ there)
  · subst same
    rw [named] at unnamed
    cases unnamed
  · have other : event.client? ≠ some d := by rw [own]; simpa using Ne.symm same
    rw [pulled_other other, List.append_nil]
    exact traced.unmade d (others d other ▸ unnamed)

theorem Performs.traced {history : Nat → List Token} {s : Session} {action : Action} {done : Step}
    (performs : Performs s action done) (traced : s.Traced history) :
    done.session.Traced fun c => history c ++ pulled c [⟨action, done⟩] := by
  have others := fun c => performs.elsewhere (c := c)
  cases performs with
  | @create scanner source found =>
    refine traced.of_one (c := s.clients.size) rfl others Array.getElem?_push_size ?_
    have first : (Parsing.start source).received.toList.filter (·.kind ≠ .invalid) = [(Parsing.start source).current] :=
      Parsing.pulled_start source
    rw [traced.unmade _ Array.getElem?_size, pulled_own rfl]
    show Parser.Trails ([] ++ (Parsing.start source).received.toList.filter (·.kind ≠ .invalid)) _
    rw [first]
    exact ⟨rfl, by simp [Parsing.start]⟩
  | scan found =>
    refine ⟨fun c client named => ?_, fun c unnamed => ?_⟩ <;>
      rw [pulled_other (by simp [Event.client?]), List.append_nil]
    · exact traced.trails c client named
    · exact traced.unmade c unnamed
  | @call _ c made parser scanner source calls named found =>
    refine traced.of_one (calls.client?_eq _) others (getElem?_setIfInBounds_of_found named _) ?_
    rw [pulled_own (calls.client?_eq _)]
    apply (calls.turns (.resume parser source)).trails
    rw [show (Parsing.resume parser source).pulled = [] from rfl, List.append_nil]
    exact traced.trails c _ named

theorem traced_of_run {sources : List (String × String)} {t : Session} {actions : List Action} {events : List Event}
    (run : (ofSources sources).run actions = some (events, t)) : t.Traced fun c => pulled c events := by
  refine run_induction (motive := fun s events t => ∀ history, s.Traced history →
    t.Traced fun c => history c ++ pulled c events) ?_ ?_ run (fun _ => []) ?_
  · intro s history traced
    simpa [pulled] using traced
  · intro s action done events t performed later history traced
    have next := later _ ((performs_of_perform performed).traced traced)
    simpa only [pulled_cons _ _ events, List.append_assoc] using next
  · exact ⟨fun c client named => by simp [ofSources] at named, fun c _ => rfl⟩

theorem delivered_once {i : Nat} {events : List Event} {token : Token} (once : (handed i events).count token = 1) :
    ∃ client, (deliveries i events).filter (·.token = token) = [⟨client, token⟩] := by
  have length : ((deliveries i events).filter (·.token = token)).length = 1 := by
    rw [handed, List.count_eq_countP, List.countP_map] at once
    rw [← List.countP_eq_length_filter, ← once]
    exact List.countP_congr (by simp)
  obtain ⟨⟨client, other⟩, only⟩ := List.length_eq_one_iff.mp length
  have member : Delivery.mk client other ∈ (deliveries i events).filter (·.token = token) := by
    rw [only]
    exact List.mem_singleton_self _
  have same : other = token := by simpa using (List.mem_filter.mp member).2
  exact ⟨client, by rw [only, same]⟩

/-- What a scanner has handed out is what its text begins with, and what is left is what follows. No token of the text
was left out, and only the end of the text was handed out to more than one client. -/
structure SharedOut (stream : List Token) (source scanner : Scanner) (i : Nat) (events : List Event) : Prop where
  gives : source.Gives (handed i events) scanner
  dealt : Dealt stream (handed i events) scanner.tokens
  once : ∀ token ∈ handed i events, token.kind ≠ .endOfInput →
    ∃ client, (deliveries i events).filter (·.token = token) = [⟨client, token⟩]

theorem sharedOut_of_gives {source scanner : Scanner} {i : Nat} {events : List Event}
    (gives : source.Gives (handed i events) scanner) : SharedOut source.tokens source scanner i events :=
  ⟨gives, gives.dealt, fun _ member more => delivered_once (gives.dealt.count_eq_one member more)⟩

/-- A parser has before it the last tokens that it pulled, and so at every moment of every call. -/
structure InOrder (history : List Token) (parser : Parser) (source : Scanner) : Prop where
  trails : parser.Trails history
  calls {action : Action} {c : Nat} {call : Parsing → Answer × Parsing} (calls : Calls action c call) :
    Parsing.Turns (.resume parser source) (call (.resume parser source)).2
  during (p : Parsing) (turns : Parsing.Turns (.resume parser source) p) : p.Trails (history ++ p.pulled)
  shifts (p q : Parsing) (turns : Parsing.Turns (.resume parser source) p) (turn : Parsing.Turn p q) : p.Shifts q

theorem inOrder_of_trails {history : List Token} {parser : Parser} (trails : parser.Trails history)
    (source : Scanner) : InOrder history parser source where
  trails := trails
  calls calls := calls.turns _
  during p turns := by
    apply turns.trails
    rw [show (Parsing.resume parser source).pulled = [] from rfl, List.append_nil]
    exact trails
  shifts _ _ _ turn := turn.shifts

/-- Clients of a scanner share out the tokens of its text. Each parser passes those that it pulls through its two places
in their order, and no other client has a part in that. -/
theorem tokens_shared_out {sources : List (String × String)} {t : Session} {actions : List Action}
    {events : List Event} (run : (ofSources sources).run actions = some (events, t)) :
    (∀ i source filename, sources[i]? = some (source, filename) →
        ∃ scanner, t.scanners[i]? = some scanner ∧
          SharedOut (tokenize source filename).toList (.ofSource source filename) scanner i events) ∧
      (∀ c client, t.clients[c]? = some client → ∀ source, InOrder (pulled c events) client.parser source) ∧
      ∀ action done, t.perform action = some done →
        ∀ c, Event.client? ⟨action, done⟩ ≠ some c → done.session.clients[c]? = t.clients[c]? := by
  refine ⟨fun i source filename found => ?_, fun c client named source => ?_, fun action done performed c other => ?_⟩
  · have start : (ofSources sources).scanners[i]? = some (.ofSource source filename) := by simp [ofSources, found]
    obtain ⟨scanner, there, gives⟩ := gives_of_run run i _ start
    exact ⟨scanner, there, sharedOut_of_gives gives⟩
  · exact inOrder_of_trails ((traced_of_run run).trails c client named) source
  · exact (performs_of_perform performed).elsewhere other

theorem tokens_shared_out_two_parsers :
    ∃ events t scanner,
      (ofSources [("1 + $ 2 ? 3", "")]).run
          [.create 0, .scan 0, .create 0, .advance 1, .expression 0, .scan 0] = some (events, t) ∧
        t.scanners[0]? = some scanner ∧
        SharedOut (tokenize "1 + $ 2 ? 3" "").toList (.ofSource "1 + $ 2 ? 3" "") scanner 0 events := by
  have ran : ((ofSources [("1 + $ 2 ? 3", "")]).run
      [.create 0, .scan 0, .create 0, .advance 1, .expression 0, .scan 0]).isSome = true := by decide +kernel
  obtain ⟨⟨events, t⟩, run⟩ := Option.isSome_iff_exists.mp ran
  obtain ⟨scanner, there, shared⟩ := (tokens_shared_out run).1 0 _ _ rfl
  exact ⟨events, t, scanner, run, there, shared⟩

end Session

end Arith
