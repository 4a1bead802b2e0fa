import Arith.Proofs.NestingBounds
import Arith.Proofs.NestingLimit
import Arith.Proofs.ParserInvariants
import Arith.Proofs.SessionRuns
import Arith.Proofs.TreePlaces

namespace Arith

namespace Parsing

/-- The parser that met the limit, as it is when the calls within depth `depth` have ended. -/
def halted (p : Parsing) (depth : Nat) : Parsing := { p.exceedNesting with depth }

theorem halted_depth (p : Parsing) : p.halted p.depth = p.exceedNesting := by
  have surfaces : Surfaces 0 p p.exceedNesting := .exceed p
  rw [halted, ← surfaces.depth]

theorem nestingExceeded_halted (p : Parsing) (depth : Nat) : (p.halted depth).nestingExceeded = true :=
  nestingExceeded_exceedNesting p

/-- A call that begins to read an expression, or a round of the loop in one, with the parser as it is then. -/
inductive Moment where
  | call (room : Nat) (level : Level) (p : Parsing)
  | round (room : Nat) (level : Level) (left : Tree) (p : Parsing)

namespace Moment

def state : Moment → Parsing
  | call _ _ p | round _ _ _ p => p

def result : Moment → Tree × Parsing
  | call room level p => parseWithin room level p
  | round room level left p => extend (parseWithin room) room level left p

inductive Next : Moment → Moment → Prop where
  | operand {room : Nat} {level : Level} {p : Parsing} (running : p.nestingExceeded = false)
      (sign : p.current.kind = .minus ∨ p.current.kind = .bang) :
      Next (call (room + 1) level p) (call room .unary p.descend.advance)
  | first {room : Nat} {level : Level} {p q : Parsing} {tree : Tree} (running : p.nestingExceeded = false)
      (read : readFirst (parseWithin room) p.descend = (some tree, q)) :
      Next (call (room + 1) level p) (round room level tree q)
  | right {room : Nat} {level binding : Level} {left : Tree} {p : Parsing}
      (next : p.continuation? level = some binding) (shallow : left.height ≤ room) (tight : binding ≠ .conditional) :
      Next (round room level left p) (call room binding.tighter p.advance)
  | whenTrue {room : Nat} {level : Level} {left : Tree} {p : Parsing}
      (next : p.continuation? level = some .conditional) (shallow : left.height ≤ room) :
      Next (round room level left p) (call room .conditional p.advance)
  | whenFalse {room : Nat} {level : Level} {left : Tree} {p : Parsing}
      (next : p.continuation? level = some .conditional) (shallow : left.height ≤ room) :
      Next (round room level left p)
        (call room .conditional ((parseWithin room .conditional p.advance).2.consume .colon dividerMessage).2)
  | again {room : Nat} {level binding : Level} {left : Tree} {p : Parsing}
      (next : p.continuation? level = some binding) (shallow : left.height ≤ room) :
      Next (round room level left p)
        (round room level (join (parseWithin room) binding left p).1 (join (parseWithin room) binding left p).2)

def Leads : Moment → Moment → Prop := Relation.ReflTransGen Next

/-- No room is left for what would be read next, and the parser has not met the limit before. -/
def AtLimit : Moment → Prop
  | call room _ p => room = 0 ∧ p.nestingExceeded = false
  | round room level left p => room < left.height ∧ ∃ binding, p.continuation? level = some binding

variable {m n : Moment}

theorem AtLimit.running (limit : m.AtLimit) : m.state.nestingExceeded = false := by
  cases m with
  | call => exact limit.2
  | round =>
    obtain ⟨_, binding, next⟩ := limit
    exact running_of_continuation next

theorem AtLimit.result (limit : m.AtLimit) : m.result.2 = m.state.exceedNesting := by
  cases m with
  | call =>
    obtain ⟨rfl, _⟩ := limit
    rfl
  | round room level left p =>
    obtain ⟨deep, binding, next⟩ := limit
    exact congrArg Prod.snd (extend_of_deep _ next deep)

theorem Next.moves (next : m.Next n) : Moves m.state n.state := by
  cases next with
  | @operand _ _ p running sign =>
    exact (Move.descend p).moves.trans (Move.pass (p := p.descend) running (Token.Kind.ne_of_sign sign).1).moves
  | @first room _ p q tree running read =>
    have moves := moves_readFirst (moves_parseWithin room) (p := p.descend) running
    rw [read] at moves
    exact (Move.descend p).moves.trans moves
  | right next => exact moves_of_continuation next
  | whenTrue next => exact moves_of_continuation next
  | whenFalse next => exact (moves_of_continuation next).trans ((moves_parseWithin _ _ _).trans (Move.divide _).moves)
  | again next => exact moves_join (moves_parseWithin _) _ next

theorem Leads.moves (leads : m.Leads n) : Moves m.state n.state := by
  induction leads with
  | refl => exact .refl _
  | tail _ next ih => exact ih.trans next.moves

theorem Next.halted {met : Parsing} (next : m.Next n) (ends : n.result.2 = met.halted n.state.depth) :
    m.result.2 = met.halted m.state.depth := by
  have exceeded : n.result.2.nestingExceeded = true := by
    rw [ends]
    exact nestingExceeded_halted _ _
  -- what a caller still does with a parser that has met the limit is to build nodes and to come back
  cases next <;> dsimp only [result, state] at ends exceeded ⊢
  case operand room level p running sign =>
    rw [parseWithin_succ running, readExpression, readFirst_of_sign _ (p := p.descend) sign]
    dsimp only
    rw [extend_of_exceeded _ _ _ _ exceeded, ends, depth_advance]
    rfl
  case first room level p q tree running read =>
    have depth : q.depth = p.descend.depth := by
      have kept := depth_readFirst room p.descend
      rwa [read] at kept
    rw [parseWithin_succ running, readExpression, read]
    dsimp only
    rw [ends, depth]
    rfl
  case right next shallow tight =>
    rw [extend_of_shallow _ next shallow, join_of_ne _ _ _ tight]
    dsimp only
    rw [extend_of_exceeded _ _ _ _ exceeded, ends, depth_advance]
  case whenTrue next shallow =>
    rw [extend_of_shallow _ next shallow, join_conditional]
    dsimp only
    rw [consume_of_exceeded exceeded, parseWithin_of_exceeded exceeded, extend_of_exceeded _ _ _ _ exceeded, ends,
      depth_advance]
  case whenFalse next shallow =>
    rw [extend_of_shallow _ next shallow, join_conditional]
    dsimp only
    rw [extend_of_exceeded _ _ _ _ exceeded, ends, depth_consume, depth_parseWithin, depth_advance]
  case again next shallow => rw [extend_of_shallow _ next shallow, ends, depth_join]

theorem Leads.halted (leads : m.Leads n) (limit : n.AtLimit) : m.result.2 = n.state.halted m.state.depth := by
  induction leads using Relation.ReflTransGen.head_induction_on with
  | refl => rw [limit.result, halted_depth]
  | head next _ ih => exact next.halted ih

end Moment

def MeetsLimit (m : Moment) : Prop := ∃ limit, m.Leads limit ∧ limit.AtLimit

theorem MeetsLimit.of_next {m n : Moment} (next : m.Next n) (meets : MeetsLimit n) : MeetsLimit m := by
  obtain ⟨limit, leads, atLimit⟩ := meets
  exact ⟨limit, Relation.ReflTransGen.head next leads, atLimit⟩

theorem meetsLimit_of_atLimit {m : Moment} (limit : m.AtLimit) : MeetsLimit m :=
  ⟨m, Relation.ReflTransGen.refl, limit⟩

section Room

variable {room : Nat}
variable (calls : ∀ level {p : Parsing}, p.nestingExceeded = false →
  (parseWithin room level p).2.nestingExceeded = true → MeetsLimit (.call room level p))

include calls

theorem meetsLimit_join {level binding : Level} {left : Tree} {p : Parsing}
    (next : p.continuation? level = some binding) (shallow : left.height ≤ room)
    (exceeded : (join (parseWithin room) binding left p).2.nestingExceeded = true) :
    MeetsLimit (.round room level left p) := by
  have running : p.advance.nestingExceeded = false := by
    rw [nestingExceeded_advance]
    exact running_of_continuation next
  by_cases loose : binding = .conditional
  · subst loose
    rw [join_conditional] at exceeded
    -- the first branch that comes back with the flag set is the one in which the limit was met
    cases second : (parseWithin room .conditional p.advance).2.nestingExceeded with
    | true => exact (calls .conditional running second).of_next (.whenTrue next shallow)
    | false =>
      have divided := (nestingExceeded_consume .colon dividerMessage _).trans second
      exact (calls .conditional divided exceeded).of_next (.whenFalse next shallow)
  · rw [join_of_ne _ _ _ loose] at exceeded
    exact (calls binding.tighter running exceeded).of_next (.right next shallow loose)

theorem meetsLimit_extend (level : Level) (left : Tree) {p : Parsing} (running : p.nestingExceeded = false)
    (exceeded : (extend (parseWithin room) room level left p).2.nestingExceeded = true) :
    MeetsLimit (.round room level left p) := by
  fun_induction extend (parseWithin room) room level left p with
  | case1 => exact absurd exceeded (ne_true_of_eq_false running)
  | case2 left p binding next deep => exact meetsLimit_of_atLimit ⟨deep, binding, next⟩
  | case3 left p binding next shallow joined ih =>
    have shallow := Nat.le_of_not_lt shallow
    cases first : joined.2.nestingExceeded with
    | true => exact meetsLimit_join calls next shallow first
    | false => exact (ih first exceeded).of_next (.again next shallow)

theorem meetsLimit_readFirst (level : Level) {p : Parsing} (running : p.nestingExceeded = false)
    (exceeded : (readFirst (parseWithin room) p.descend).2.nestingExceeded = true) :
    MeetsLimit (.call (room + 1) level p) := by
  have below : p.descend.advance.nestingExceeded = false := (nestingExceeded_advance _).trans running
  rcases readFirst_cases (parseWithin room) p.descend with
    ⟨_, _, same⟩ | ⟨_, _, same⟩ | ⟨sign, same⟩ | ⟨_, same⟩ <;> rw [same] at exceeded
  · exact absurd exceeded (ne_true_of_eq_false below)
  · exact absurd exceeded (ne_true_of_eq_false ((nestingExceeded_report _ _).trans below))
  · exact (calls .unary below exceeded).of_next (.operand running sign)
  · exact absurd exceeded (ne_true_of_eq_false ((nestingExceeded_report _ _).trans below))

theorem meetsLimit_readExpression (level : Level) {p : Parsing} (running : p.nestingExceeded = false)
    (exceeded : (readExpression (parseWithin room) room level p.descend).2.nestingExceeded = true) :
    MeetsLimit (.call (room + 1) level p) := by
  cases first : (readFirst (parseWithin room) p.descend).2.nestingExceeded with
  | true => exact meetsLimit_readFirst calls level running first
  | false =>
    unfold readExpression at exceeded
    split at exceeded
    · rename_i q read
      rw [read] at first
      exact absurd exceeded (ne_true_of_eq_false first)
    · rename_i tree q read
      rw [read] at first
      exact (meetsLimit_extend calls level tree first exceeded).of_next (.first running read)

end Room

theorem meetsLimit_parseWithin (room : Nat) (level : Level) {p : Parsing} (running : p.nestingExceeded = false)
    (exceeded : (parseWithin room level p).2.nestingExceeded = true) : MeetsLimit (.call room level p) := by
  -- on the room: the operands of an expression have one level less
  induction room generalizing level p with
  | zero => exact meetsLimit_of_atLimit ⟨rfl, running⟩
  | succ room ih =>
    rw [parseWithin_succ running] at exceeded
    exact meetsLimit_readExpression (fun level _ running => ih level running) level running exceeded

theorem meetsLimit_expression {source filename : String}
    (exceeded : (ofSource source filename).expression.2.nestingExceeded = true) :
    MeetsLimit (.call maxNesting .conditional (.ofSource source filename)) := by
  have depth : (ofSource source filename).depth = 0 := depth_start _
  rw [expression_eq, nestingExceeded_consume, parse_of_outermost depth] at exceeded
  exact meetsLimit_parseWithin maxNesting .conditional (nestingExceeded_start _) exceeded

theorem expression_of_leads {source filename : String} {moment : Moment}
    (leads : Moment.Leads (.call maxNesting .conditional (.ofSource source filename)) moment) (limit : moment.AtLimit) :
    (ofSource source filename).expression.2 = moment.state.halted 0 := by
  have depth : (ofSource source filename).depth = 0 := depth_start _
  have ends : (parseWithin maxNesting .conditional (ofSource source filename)).2 = _ := leads.halted limit
  rw [Moment.state, depth] at ends
  rw [expression_eq, parse_of_outermost depth, ends]
  exact congrArg Prod.snd (consume_of_exceeded (nestingExceeded_halted _ _) _ _)

theorem code?_lexical_ne (token : Token) : SyntaxError.code? ⟨.lexical, token⟩ ≠ some .nestedTooDeeply := by
  intro code
  have listed := List.mem_of_find?_eq_some code
  revert listed
  decide

theorem code?_refused_ne {token token' : Token} {cause : SyntaxError.Cause} (refused : Refused token cause) :
    SyntaxError.code? ⟨cause, token'⟩ ≠ some .nestedTooDeeply := by
  cases refused <;> nofun

theorem code?_missing_ne (expected : Token.Kind) (message : String) (token : Token) :
    SyntaxError.code? ⟨.missing expected message, token⟩ ≠ some .nestedTooDeeply := by
  cases expected <;> nofun

def Unwarned (p : Parsing) : Prop := ∀ e ∈ p.errors, e.code? ≠ some .nestedTooDeeply

namespace Unwarned

variable {p : Parsing}

theorem report (unwarned : p.Unwarned) {error : SyntaxError} (other : error.code? ≠ some .nestedTooDeeply) :
    (p.report error).Unwarned := by
  cases panics : p.panicking with
  | true =>
    rw [Unwarned, (report_of_panicking panics error).1]
    exact unwarned
  | false =>
    rw [Unwarned, (report_of_calm panics error).1]
    intro e member
    rcases Array.mem_push.mp member with member | rfl
    · exact unwarned e member
    · exact other

theorem reportPassed (unwarned : p.Unwarned) (passed : Array Token) : (reportPassed passed p).Unwarned :=
  reportPassed_induction passed unwarned fun _ token _ kept => kept.report (code?_lexical_ne token)

theorem advance (unwarned : p.Unwarned) : p.advance.Unwarned := by
  apply reportPassed
  exact unwarned

theorem start (s : Scanner) : (start s).Unwarned := reportPassed (by simp [Unwarned]) _

theorem move {q : Parsing} (move : Move p q) (running : q.nestingExceeded = false) (unwarned : p.Unwarned) :
    q.Unwarned := by
  cases move with
  | pass => exact unwarned.advance
  | refuse _ refused => exact unwarned.advance.report (code?_refused_ne refused)
  | divide =>
    rcases consume_cases .colon dividerMessage p with ⟨_, same⟩ | ⟨_, _, same⟩ | ⟨_, _, same⟩ <;> rw [same]
    · exact unwarned
    · exact advance (p := { p with panicking := false }) unwarned
    · exact unwarned.report (code?_missing_ne _ _ _)
  | exceed =>
    rw [nestingExceeded_exceedNesting] at running
    cases running
  | descend | ascend => exact unwarned

end Unwarned

theorem Moves.unwarned {p q : Parsing} (moves : Moves p q) (unwarned : p.Unwarned)
    (running : q.nestingExceeded = false) : q.Unwarned := by
  induction moves with
  | refl => exact unwarned
  | tail _ move ih =>
    refine .move move running (ih ?_)
    by_contra exceeded
    rw [move.moves.nestingExceeded (by simpa using exceeded)] at running
    cases running

theorem errors_exceedNesting {p : Parsing} (running : p.nestingExceeded = false) :
    p.exceedNesting.errors =
      if p.panicking then p.errors else p.errors.push ⟨.nestedTooDeeply maxNesting, p.current⟩ := by
  rw [exceedNesting_of_running running]
  unfold Parsing.report
  cases p.panicking <;> rfl

/-- The parser stopped for good where it stood when it met the limit, as `met`. It complained about the limit there,
unless it was still recovering from an earlier error, and the tree holds nothing that stands behind. -/
structure Halted (met : Parsing) (read : Tree × Parsing) : Prop where
  running : met.nestingExceeded = false
  previous : read.2.previous = met.previous
  current : read.2.current = met.current
  scanner : read.2.scanner = met.scanner
  literals : ∀ entry ∈ read.1.outline, entry.tree.shape = .number →
    entry.tree.span.start.offset < read.2.current.location.offset
  operators : ∀ entry ∈ read.1.outline, ∀ operator ∈ entry.tree.operator?,
    operator.location.offset < read.2.current.location.offset
  placeholders : ∀ entry ∈ read.1.outline, entry.tree.IsError →
    ¬ entry.tree.span.start.offset < read.2.current.location.offset →
      entry.tree.span = .point read.2.current.location
  once : read.2.errors.countP (·.code? = some .nestedTooDeeply) ≤ 1
  last : ∀ e ∈ read.2.errors, e.code? = some .nestedTooDeeply →
    read.2.errors.back? = some e ∧ e.location = read.2.current.location
  absent : (∀ e ∈ read.2.errors, e.code? ≠ some .nestedTooDeeply) →
    met.panicking = true ∧ read.2.errors = met.errors ∧ met.errors ≠ #[]

section Halted

variable {met : Parsing} {read : Tree × Parsing} {depth : Nat}

theorem halted_of_met (running : met.nestingExceeded = false) (unwarned : met.Unwarned) (consistent : met.Consistent)
    (same : read.2 = met.halted depth) (behind : read.1.Behind read.2.current.location) : Halted met read := by
  have errors : read.2.errors =
      if met.panicking then met.errors else met.errors.push ⟨.nestedTooDeeply maxNesting, met.current⟩ := by
    rw [same]
    exact errors_exceedNesting running
  have current : read.2.current = met.current := by
    rw [same]
    exact current_exceedNesting met
  have stopped : read.2.previous = met.previous ∧ read.2.scanner = met.scanner := by
    rw [same, halted, exceedNesting_of_running running]
    exact ⟨previous_report _ _, scanner_report _ _⟩
  have literals := fun entry member => (behind.entry entry member).literal
  have operators := fun entry member => (behind.entry entry member).operator
  have placeholders := fun entry member => (behind.entry entry member).placeholder
  have silent : met.errors.countP (·.code? = some .nestedTooDeeply) = 0 :=
    Array.countP_eq_zero.mpr fun e member => by simpa using unwarned e member
  -- the panic alone decides whether the error is recorded or suppressed
  cases panics : met.panicking with
  | true =>
    rw [panics, if_pos rfl] at errors
    have listed := consistent.hadError.mp (consistent.panicking panics)
    refine ⟨running, stopped.1, current, stopped.2, literals, operators, placeholders, ?_, ?_, ?_⟩ <;> rw [errors]
    · omega
    · exact fun e member code => absurd code (unwarned e member)
    · exact fun _ => ⟨panics, rfl, listed⟩
  | false =>
    rw [panics, if_neg Bool.false_ne_true, ← current] at errors
    refine ⟨running, stopped.1, current, stopped.2, literals, operators, placeholders, ?_, ?_, ?_⟩ <;> rw [errors]
    · rw [Array.countP_push, silent]
      split <;> omega
    · intro e member code
      rcases Array.mem_push.mp member with member | rfl
      · exact absurd code (unwarned e member)
      · exact ⟨Array.back?_push, rfl⟩
    · exact fun none => absurd rfl (none _ Array.mem_push_self)

end Halted

theorem halted_expression {source filename : String} {moment : Moment}
    (leads : Moment.Leads (.call maxNesting .conditional (.ofSource source filename)) moment) (limit : moment.AtLimit) :
    Halted moment.state (ofSource source filename).expression := by
  have moves : Moves (ofSource source filename) moment.state := leads.moves
  have unwarned := moves.unwarned (.start _) limit.running
  have consistent := moves.turns.consistent (consistent_start _)
  exact halted_of_met limit.running unwarned consistent (expression_of_leads leads limit)
    (behind_expression source filename)

theorem expression_of_exceeded {p : Parsing} (exceeded : p.nestingExceeded = true) :
    p.expression = (.placeholder p.current, p) := by
  rw [expression_eq, parse, parseWithin_of_exceeded exceeded]
  exact congrArg (Prod.mk _) (congrArg Prod.snd (consume_of_exceeded exceeded _ _))

end Parsing

namespace Session

/-- What may be asked of a parser once it has met the limit. -/
inductive Demand where
  | expression
  | parse (level : Level)
  | consume (expected : Token.Kind) (message : String)
  deriving DecidableEq, Repr

namespace Demand

def action (client : Nat) : Demand → Action
  | expression => .expression client
  | parse level => .parse client level
  | consume expected message => .consume client expected message

def refusal (current : Token) : Demand → Answer
  | expression | parse _ => .tree (.placeholder current)
  | consume _ _ => .accepted false

end Demand

theorem setIfInBounds_of_found {α : Type} {xs : Array α} {i : Nat} {x : α} (found : xs[i]? = some x) :
    xs.setIfInBounds i x = xs := by
  apply Array.ext_getElem?
  intro j
  rw [Array.getElem?_setIfInBounds]
  split
  · rename_i same
    subst same
    obtain ⟨inside, _⟩ := Array.getElem?_eq_some_iff.mp found
    rw [if_pos inside, found]
  · rfl

theorem outcome_of_still {s : Session} {c : Nat} {client : Client} {source : Scanner}
    (named : s.clients[c]? = some client) (found : s.scanners[client.scanner]? = some source) (answer : Answer) :
    s.outcome c client.scanner (answer, .resume client.parser source) = ⟨answer, #[], #[], s⟩ := by
  show Step.mk answer #[] #[]
    ⟨s.scanners.setIfInBounds client.scanner source, s.clients.setIfInBounds c client⟩ = _
  rw [setIfInBounds_of_found found, setIfInBounds_of_found named]

theorem perform_of_exceeded {s : Session} {c : Nat} {client : Client} {source : Scanner}
    (named : s.clients[c]? = some client) (found : s.scanners[client.scanner]? = some source)
    (exceeded : client.parser.nestingExceeded = true) (demand : Demand) :
    s.perform (demand.action c) = some ⟨demand.refusal client.parser.current, #[], #[], s⟩ := by
  have stopped : (Parsing.resume client.parser source).nestingExceeded = true := exceeded
  cases demand with
  | expression =>
    rw [Demand.action, (Calls.expression c).perform_eq named found, Parsing.expression_of_exceeded stopped]
    exact congrArg some (outcome_of_still named found _)
  | parse level =>
    rw [Demand.action, (Calls.parse c level).perform_eq named found, Parsing.parse,
      Parsing.parseWithin_of_exceeded stopped]
    exact congrArg some (outcome_of_still named found _)
  | consume expected message =>
    rw [Demand.action, (Calls.consume c expected message).perform_eq named found,
      Parsing.consume_of_exceeded stopped]
    exact congrArg some (outcome_of_still named found _)

theorem run_of_exceeded {s : Session} {c : Nat} {client : Client} {source : Scanner}
    (named : s.clients[c]? = some client) (found : s.scanners[client.scanner]? = some source)
    (exceeded : client.parser.nestingExceeded = true) (demands : List Demand) :
    s.run (demands.map (·.action c)) =
      some (demands.map fun d => ⟨d.action c, ⟨d.refusal client.parser.current, #[], #[], s⟩⟩, s) := by
  induction demands with
  | nil => rfl
  | cons demand demands ih =>
    rw [List.map_cons, run, perform_of_exceeded named found exceeded]
    simp only [Option.bind_some, ih]
    rfl

end Session

/-- When a text nests too deeply the parser meets the limit at some moment, and stops where it is then. From then on
every call is refused and changes nothing, in whatever session it is made. -/
theorem nesting_limit_freezes :
    (∀ source filename : String, (Parsing.ofSource source filename).expression.2.nestingExceeded = true →
      let begins := Parsing.Moment.call maxNesting .conditional (.ofSource source filename)
      (∃ moment, begins.Leads moment ∧ moment.AtLimit) ∧
        ∀ moment, begins.Leads moment → moment.AtLimit →
          Parsing.Halted moment.state (Parsing.ofSource source filename).expression) ∧
    ∀ (s : Session) (c : Nat) (client : Session.Client) (source : Scanner), s.clients[c]? = some client →
      s.scanners[client.scanner]? = some source → client.parser.nestingExceeded = true →
        ∀ demands : List Session.Demand, s.run (demands.map (·.action c)) =
          some (demands.map fun d => ⟨d.action c, ⟨d.refusal client.parser.current, #[], #[], s⟩⟩, s) := by
  refine ⟨fun source filename exceeded => ⟨?_, ?_⟩, fun s c client source named found exceeded => ?_⟩
  · exact Parsing.meetsLimit_expression exceeded
  · exact fun moment leads limit => Parsing.halted_expression leads limit
  · exact Session.run_of_exceeded named found exceeded

theorem nesting_limit_freezes_signs :
    let p := (Parsing.ofSource ("1 ? " ++ String.ofList (List.replicate 101 '-') ++ " : 2") "<input>").expression
    let s : Session := ⟨#[p.2.scanner], #[⟨p.2.toParser, 0⟩]⟩
    p.2.current.lexeme = "-" ∧ p.2.errors.size = 1 ∧ (∃ met, Parsing.Halted met p) ∧
      s.run [.expression 0, .consume 0 .colon ""] =
        some ([⟨.expression 0, ⟨.tree (.placeholder p.2.current), #[], #[], s⟩⟩,
          ⟨.consume 0 .colon "", ⟨.accepted false, #[], #[], s⟩⟩], s) := by
  intro p s
  have ran : p.2.nestingExceeded = true ∧ p.2.current.lexeme = "-" ∧ p.2.errors.size = 1 := by decide +kernel
  obtain ⟨exceeded, current, errors⟩ := ran
  obtain ⟨⟨moment, leads, limit⟩, halted⟩ := nesting_limit_freezes.1 _ _ exceeded
  refine ⟨current, errors, ⟨moment.state, halted moment leads limit⟩, ?_⟩
  exact nesting_limit_freezes.2 s 0 ⟨p.2.toParser, 0⟩ p.2.scanner rfl rfl exceeded [.expression, .consume .colon ""]

end Arith
