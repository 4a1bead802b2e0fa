import Arith.Proofs.ParserMoves

namespace Arith.Parsing

/-- From `p` to `q` the tokens of `word` were passed, and nothing was found wrong. -/
structure Passes (p : Parsing) (word : List Token) (q : Parsing) : Prop where
  ahead : p.ahead = word ++ q.ahead
  reported : q.reported = p.reported
  running : q.nestingExceeded = false

def Finds (p : Parsing) (error : SyntaxError) (q : Parsing) : Prop :=
  ∃ behind, q.reported = p.reported ++ error :: behind

theorem Passes.refl {p : Parsing} (running : p.nestingExceeded = false) : Passes p [] p :=
  ⟨rfl, rfl, running⟩

theorem Passes.trans {p q r : Parsing} {front back : List Token} (first : Passes p front q)
    (second : Passes q back r) : Passes p (front ++ back) r :=
  ⟨by rw [first.ahead, second.ahead, List.append_assoc], second.reported.trans first.reported, second.running⟩

theorem Finds.before {p q r : Parsing} {word : List Token} {error : SyntaxError} (passed : Passes p word q)
    (finds : Finds q error r) : Finds p error r := by
  obtain ⟨behind, found⟩ := finds
  exact ⟨behind, by rw [found, passed.reported]⟩

theorem Finds.moves {p q r : Parsing} {error : SyntaxError} (finds : Finds p error q) (moves : Moves q r) :
    Finds p error r := by
  obtain ⟨behind, found⟩ := finds
  obtain ⟨later, same⟩ := moves.reported_prefix
  exact ⟨behind ++ later, by rw [← same, found, List.append_assoc, List.cons_append]⟩

theorem ahead_of_live {p : Parsing} (live : p.current.kind ≠ .endOfInput) :
    p.ahead = p.current :: p.scanner.tokens := by
  rw [ahead, Scanner.tokensFrom]
  simp only [live, ite_false]

theorem ahead_of_end {p : Parsing} (stop : p.current.kind = .endOfInput) : p.ahead = [p.current] := by
  rw [ahead, Scanner.tokensFrom]
  simp only [stop, ite_true]

theorem ahead_advance_of_live {p : Parsing} (live : p.current.kind ≠ .endOfInput) :
    p.ahead = p.current :: (p.scanner.pull.passed.toList ++ p.advance.ahead) := by
  rw [ahead_of_live live, Scanner.tokens_eq_pull, ahead, current_advance, scanner_advance]

theorem head_ahead (p : Parsing) : ∃ behind, p.ahead = p.current :: behind := ⟨_, rfl⟩

theorem advance_passes {p : Parsing} {behind : List Token} (running : p.nestingExceeded = false)
    (live : p.current.kind ≠ .endOfInput) (ahead : p.ahead = p.current :: behind)
    (valid : ∀ t, behind.head? = some t → t.kind ≠ .invalid) :
    Passes p [p.current] p.advance ∧ p.advance.ahead = behind := by
  have split := ahead_advance_of_live live
  rw [ahead] at split
  have same := (List.cons.inj split).2
  cases passed : p.scanner.pull.passed.toList with
  | nil =>
    rw [passed, List.nil_append] at same
    refine ⟨⟨by rw [ahead, same]; rfl, ?_, ?_⟩, same.symm⟩
    · rw [reported_advance, passed, List.map_nil, List.append_nil]
    · rwa [nestingExceeded_advance]
  | cons t rest =>
    rw [passed] at same
    have invalid := Scanner.kind_passed_pull p.scanner t (by rw [passed]; exact List.mem_cons_self)
    exact absurd invalid (valid t (by rw [same]; rfl))

theorem advance_cases {p : Parsing} (running : p.nestingExceeded = false)
    (live : p.current.kind ≠ .endOfInput) :
    Passes p [p.current] p.advance ∨
      ∃ t behind, p.ahead = p.current :: t :: behind ∧ Finds p ⟨.lexical, t⟩ p.advance := by
  have split := ahead_advance_of_live live
  cases passed : p.scanner.pull.passed.toList with
  | nil =>
    left
    refine ⟨by rw [split, passed]; rfl, ?_, ?_⟩
    · rw [reported_advance, passed, List.map_nil, List.append_nil]
    · rwa [nestingExceeded_advance]
  | cons t rest =>
    right
    rw [passed, List.cons_append] at split
    exact ⟨t, _, split, rest.map (⟨.lexical, ·⟩), by rw [reported_advance, passed, List.map_cons]⟩

theorem advance_of_end {p : Parsing} (settled : p.Settled) (stop : p.current.kind = .endOfInput) :
    p.advance.reported = p.reported ∧ p.advance.ahead = p.ahead := by
  have still := settled.still stop
  refine ⟨?_, ?_⟩
  · rw [reported_advance, still]
    exact List.append_nil _
  · rw [ahead, current_advance, scanner_advance, still]
    rfl

theorem continuation?_eq_none_iff {level : Level} {p : Parsing} (running : p.nestingExceeded = false) :
    p.continuation? level = none ↔ ¬ p.current.kind.Continues level := by
  constructor
  · rintro stops ⟨binding, binds, tight⟩
    rw [(continuation?_eq_some_iff level binding p).mpr ⟨running, binds, tight⟩] at stops
    cases stops
  · intro stops
    cases next : p.continuation? level with
    | none => rfl
    | some binding =>
      obtain ⟨_, binds, tight⟩ := (continuation?_eq_some_iff level binding p).mp next
      exact absurd ⟨binding, binds, tight⟩ stops

end Arith.Parsing
