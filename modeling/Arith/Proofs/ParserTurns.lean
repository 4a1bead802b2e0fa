import Arith.Proofs.ParserMoves

namespace Arith

def Scanner.Reads : Scanner → Scanner → Prop := Relation.ReflTransGen fun s t => t = s.scan.2

namespace Scanner.Reads

theorem refl (s : Scanner) : s.Reads s := Relation.ReflTransGen.refl

theorem trans {s t u : Scanner} (first : s.Reads t) (second : t.Reads u) : s.Reads u :=
  Relation.ReflTransGen.trans first second

theorem scan (s : Scanner) : s.Reads s.scan.2 := Relation.ReflTransGen.single rfl

theorem pull (s : Scanner) : s.Reads s.pull.scanner := by
  induction s using pullInduction with
  | valid s valid =>
    rw [pull_of_valid valid]
    exact scan s
  | invalid s invalid ih =>
    rw [pull_of_invalid invalid]
    exact (scan s).trans ih

theorem eq_of_end {s t : Scanner} (reads : s.Reads t) (still : s.scan.2 = s) : t = s := by
  induction reads with
  | refl => rfl
  | tail _ next ih => rw [next, ih, still]

end Scanner.Reads

theorem Scanner.scan_of_pull_still {s : Scanner} {token : Token} (still : s.pull = ⟨#[], token, s⟩) :
    s.scan.2 = s := by
  by_cases invalid : s.scan.1.kind = .invalid
  · rw [pull_of_invalid invalid] at still
    have passed := congrArg (·.passed.size) still
    simp at passed
  · rw [pull_of_valid invalid] at still
    exact congrArg Pull.scanner still

namespace Parsing

/-- One thing that a parser does, by itself or at the wish of a client. -/
inductive Turn : Parsing → Parsing → Prop where
  | advance (p : Parsing) : Turn p p.advance
  | refuse {p : Parsing} {cause : SyntaxError.Cause} (refused : Refused p.current cause) :
      Turn p (p.advance.report ⟨cause, p.current⟩)
  | consume (expected : Token.Kind) (message : String) (p : Parsing) : Turn p (p.consume expected message).2
  | exceed (p : Parsing) : Turn p p.exceedNesting
  | descend (p : Parsing) : Turn p p.descend
  | ascend (p : Parsing) : Turn p p.ascend

def Turns : Parsing → Parsing → Prop := Relation.ReflTransGen Turn

theorem Turn.of_move {p q : Parsing} (move : Move p q) : Turn p q := by
  cases move with
  | pass => exact .advance p
  | refuse _ refused => exact .refuse refused
  | divide => exact .consume .colon dividerMessage p
  | exceed => exact .exceed p
  | descend => exact .descend p
  | ascend => exact .ascend p

theorem Turn.turns {p q : Parsing} (turn : Turn p q) : Turns p q := Relation.ReflTransGen.single turn

theorem Moves.turns {p q : Parsing} (moves : Moves p q) : Turns p q :=
  Relation.ReflTransGen.mono (fun _ _ => Turn.of_move) _ _ moves

theorem Turns.preserve {motive : Parsing → Prop} {p q : Parsing} (turns : Turns p q)
    (step : ∀ {a b : Parsing}, Turn a b → motive a → motive b) (here : motive p) : motive q := by
  induction turns with
  | refl => exact here
  | tail _ turn ih => exact step turn ih

theorem turns_expression (p : Parsing) : Turns p p.expression.2 :=
  (moves_parse .conditional p).turns.tail (.consume .endOfInput "Expect end of expression" _)

theorem reads_consume (expected : Token.Kind) (message : String) (p : Parsing) :
    p.scanner.Reads (p.consume expected message).2.scanner := by
  rcases consume_cases expected message p with ⟨_, same⟩ | ⟨_, _, same⟩ | ⟨_, _, same⟩ <;> rw [same]
  · exact .refl _
  · rw [scanner_advance]
    exact .pull _
  · rw [scanner_report]
    exact .refl _

theorem reads_start (source : Scanner) : source.Reads (start source).scanner := by
  simpa [start] using Scanner.Reads.pull source

theorem Turns.reads {p q : Parsing} (turns : Turns p q) : p.scanner.Reads q.scanner := by
  refine turns.preserve (motive := fun q => p.scanner.Reads q.scanner) ?_ (.refl _)
  intro a b turn reads
  refine reads.trans ?_
  cases turn with
  | advance =>
    rw [scanner_advance]
    exact .pull _
  | refuse =>
    rw [scanner_report, scanner_advance]
    exact .pull _
  | consume expected message => exact reads_consume expected message a
  | exceed =>
    unfold exceedNesting
    split
    · exact .refl _
    · rw [scanner_report]
      exact .refl _
  | descend | ascend => exact .refl _

theorem Settled.exceed {p : Parsing} (settled : p.Settled) : p.exceedNesting.Settled :=
  (Move.exceed p).moves.settled settled

theorem Turns.settled {p q : Parsing} (turns : Turns p q) (settled : p.Settled) : q.Settled := by
  refine turns.preserve (motive := Settled) ?_ settled
  intro a b turn settled
  cases turn with
  | advance => exact .advance a
  | refuse => exact (Settled.advance a).report
  | consume => exact settled.consume
  | exceed => exact settled.exceed
  | descend | ascend => exact ⟨settled.valid, settled.still⟩

theorem Settled.elsewhere {parser : Parser} {source later : Scanner} (settled : (resume parser source).Settled)
    (reads : source.Reads later) : (resume parser later).Settled := by
  refine ⟨settled.valid, fun stop => ?_⟩
  have still : source.pull = ⟨#[], parser.current, source⟩ := settled.still stop
  rw [reads.eq_of_end (Scanner.scan_of_pull_still still)]
  exact still

end Parsing

end Arith
