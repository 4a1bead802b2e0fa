import Arith.Proofs.Passing
import Mathlib.Data.List.Induction

namespace Arith

/-- `error` is found where the tokens of `word` are a fine beginning and its token is no way to go on. An
invalid token is found while the token in front of it is still unread. -/
inductive Blocked (level : Level) : List Token → SyntaxError → Prop where
  | lexical {word : List Token} {pending token : Token} (viable : Viable level word) :
      Blocked level (word ++ [pending]) ⟨.lexical, token⟩
  | undivided {word : List Token} {colon token : Token} {message : String} (divides : colon.kind = .colon)
      (viable : Viable level (word ++ [colon]))
      (other : token.kind = .number ∨ token.kind = .bang ∨ token.kind = .endOfInput) :
      Blocked level word ⟨.missing .colon message, token⟩
  | unbegun {word : List Token} {first token : Token} (begins : first.kind = .number)
      (viable : Viable level (word ++ [first])) (foreign : token.kind.begins = false) :
      Blocked level word ⟨.expectedExpression, token⟩
  | tooLarge {word : List Token} {token : Token} (viable : Viable level word) :
      Blocked level word ⟨.numberTooLarge, token⟩
  | tooDeep {word : List Token} {token : Token} (limit : Int) (viable : Viable level word) :
      Blocked level word ⟨.nestedTooDeeply limit, token⟩

theorem Blocked.after {inner level : Level} {front word : List Token} {error : SyntaxError}
    (fill : ∀ w, Viable inner w → Viable level (front ++ w)) (blocked : Blocked inner word error) :
    Blocked level (front ++ word) error := by
  cases blocked with
  | lexical viable =>
    rw [← List.append_assoc]
    exact .lexical (fill _ viable)
  | undivided divides viable other =>
    have whole := fill _ viable
    rw [← List.append_assoc] at whole
    exact .undivided divides whole other
  | unbegun begins viable foreign =>
    have whole := fill _ viable
    rw [← List.append_assoc] at whole
    exact .unbegun begins whole foreign
  | tooLarge viable => exact .tooLarge (fill _ viable)
  | tooDeep limit viable => exact .tooDeep limit (fill _ viable)

theorem Text.decimalValue_eq_ofDigits (text : List Char) :
    decimalValue text = Nat.ofDigits 10 (text.reverse.map digitValue) := by
  induction text using List.reverseRecOn with
  | nil => rw [decimalValue_nil, List.reverse_nil, List.map_nil, Nat.ofDigits_nil]
  | append_singleton text c ih =>
    rw [decimalValue_append_digit, ih, List.reverse_concat, List.map_cons, Nat.ofDigits_cons, Nat.add_comm]

theorem Token.literal_eq (t : Token) : t.literal = .number t.value (.point t.location) := by
  rw [literal, Text.decimalValue_eq_ofDigits]
  rfl

theorem Phrase.literal {t : Token} (kind : t.kind = .number) : Phrase .unary [t] t.literal := by
  rw [t.literal_eq]
  exact .number kind

def Fits (word : List Token) : Prop := ∀ t ∈ word, t.kind = .number → t.lexeme.length ≤ maxDigits

theorem Fits.append {front back : List Token} (first : Fits front) (second : Fits back) :
    Fits (front ++ back) := List.forall_mem_append.mpr ⟨first, second⟩

theorem Fits.left {front back : List Token} (fits : Fits (front ++ back)) : Fits front :=
  fun t member => fits t (List.mem_append_left _ member)

theorem Fits.right {front back : List Token} (fits : Fits (front ++ back)) : Fits back :=
  fun t member => fits t (List.mem_append_right _ member)

theorem Fits.tail {token : Token} {word : List Token} (fits : Fits (token :: word)) : Fits word :=
  fun t member => fits t (List.mem_cons_of_mem _ member)

theorem Fits.cons {token : Token} {word : List Token} (other : token.kind ≠ .number) (fits : Fits word) :
    Fits (token :: word) := List.forall_mem_cons.mpr ⟨fun kind => absurd kind other, fits⟩

namespace Parsing

/-- From `p` to `q` a phrase was passed whose tree is `tree`, and no operator at `bound` follows it. -/
inductive Reads (room : Nat) (level bound : Level) (p : Parsing) (tree : Tree) (q : Parsing) : Prop where
  | intro {word : List Token} (passes : Passes p word q) (phrase : Phrase level word tree) (fits : Fits word)
      (height : tree.height ≤ room) (closed : ¬ q.current.kind.Continues bound)

inductive Balks (level : Level) (p q : Parsing) : Prop where
  | intro {error : SyntaxError} {word behind : List Token} (finds : Finds p error q)
      (ahead : p.ahead = word ++ error.token :: behind) (valid : ∀ t ∈ word, t.kind ≠ .invalid)
      (blocked : Blocked level word error)

theorem Balks.moves {level : Level} {p q r : Parsing} (balks : Balks level p q) (moves : Moves q r) :
    Balks level p r := by
  obtain ⟨finds, ahead, valid, blocked⟩ := balks
  exact ⟨finds.moves moves, ahead, valid, blocked⟩

theorem Balks.after {inner level : Level} {p q r : Parsing} {front : List Token} (passes : Passes p front q)
    (valid : ∀ t ∈ front, t.kind ≠ .invalid) (fill : ∀ w, Viable inner w → Viable level (front ++ w))
    (balks : Balks inner q r) : Balks level p r := by
  obtain ⟨finds, ahead, sane, blocked⟩ := balks
  exact ⟨finds.before passes, by rw [passes.ahead, ahead, List.append_assoc],
    List.forall_mem_append.mpr ⟨valid, sane⟩, blocked.after fill⟩

theorem Balks.weaken {a b : Level} {p q : Parsing} (below : a ≤ b) (balks : Balks b p q) : Balks a p q := by
  obtain @⟨error, word, _, finds, ahead, valid, blocked⟩ := balks
  have blocked : Blocked a ([] ++ word) error := blocked.after fun w viable => viable.weaken below
  exact ⟨finds, ahead, valid, blocked⟩

theorem balks_advance {level : Level} {p q : Parsing} {front : List Token} (passes : Passes p front q)
    (valid : ∀ t ∈ front, t.kind ≠ .invalid) (viable : Viable level front) (settled : q.Settled) {t : Token}
    {behind : List Token} (ahead : q.ahead = q.current :: t :: behind) (finds : Finds q ⟨.lexical, t⟩ q.advance) :
    Balks level p q.advance := by
  have split : p.ahead = (front ++ [q.current]) ++ t :: behind := by
    rw [passes.ahead, ahead, List.append_assoc, List.singleton_append]
  have sane : ∀ t ∈ [q.current], t.kind ≠ .invalid := List.forall_mem_singleton.mpr settled.valid
  exact ⟨finds.before passes, split, List.forall_mem_append.mpr ⟨valid, sane⟩, .lexical viable⟩

theorem balks_advance_first {level : Level} {p : Parsing} (running : p.nestingExceeded = false)
    (settled : p.Settled) {t : Token} {behind : List Token} (ahead : p.ahead = p.current :: t :: behind)
    (finds : Finds p ⟨.lexical, t⟩ p.advance) : Balks level p p.advance :=
  balks_advance (.refl running) (by simp) (.nil level) settled ahead finds

theorem Balks.report {level : Level} {p q : Parsing} {later : SyntaxError} (balks : Balks level p q) :
    Balks level p (q.report later) := by
  obtain ⟨⟨more, found⟩, ahead, valid, blocked⟩ := balks
  exact ⟨⟨more ++ [later], by rw [reported_report, found, List.append_assoc, List.cons_append]⟩, ahead, valid,
    blocked⟩

theorem balks_refuse {level : Level} {p : Parsing} {cause : SyntaxError.Cause}
    (running : p.nestingExceeded = false) (settled : p.Settled) (refused : Refused p.current cause) :
    Balks level p (p.advance.report ⟨cause, p.current⟩) := by
  obtain ⟨behind, ahead⟩ := head_ahead p
  have blocked : Blocked level [] ⟨cause, p.current⟩ := by
    cases refused with
    | expectedExpression foreign =>
      have first : (Viable.sample .number).kind = .number := rfl
      exact .unbegun first (.of_phrase (Viable.sample_number level)) foreign
    | numberTooLarge => exact .tooLarge (.nil level)
  have here : p.advance.reported = p.reported → Balks level p (p.advance.report ⟨cause, p.current⟩) :=
    fun quiet => ⟨⟨[], by rw [reported_report, quiet]⟩, ahead, by simp, blocked⟩
  by_cases stop : p.current.kind = .endOfInput
  · exact here (advance_of_end settled stop).1
  · rcases advance_cases running stop with passes | ⟨t, rest, split, finds⟩
    · exact here passes.reported
    · exact (balks_advance_first running settled split finds).report

/-- Reading ended well, or found an error that nothing before it explains. -/
def Ends (room : Nat) (level bound : Level) (p : Parsing) (result : Tree × Parsing) : Prop :=
  Reads room level bound p result.1 result.2 ∨ Balks level p result.2

section Operands

variable {operand : Reader} {room : Nat}
variable (inner : ∀ level p, Moves p (operand level p).2)
variable (sound : ∀ level p, p.nestingExceeded = false → p.Settled → Ends room level level p (operand level p))

include inner sound

theorem ends_operand {level tight : Level} {front : List Token} {p q : Parsing} (passes : Passes p front q)
    (settled : q.Settled) (live : q.current.kind ≠ .endOfInput) (valid : ∀ t ∈ front, t.kind ≠ .invalid)
    (viable : Viable level front) (fill : ∀ w, Viable tight w → Viable level (front ++ q.current :: w)) :
    (∃ word, Passes p (front ++ q.current :: word) (operand tight q.advance).2 ∧
        Phrase tight word (operand tight q.advance).1 ∧ Fits word ∧
        (operand tight q.advance).1.height ≤ room ∧
        ¬ (operand tight q.advance).2.current.kind.Continues tight) ∨
      Balks level p (operand tight q.advance).2 := by
  rcases advance_cases passes.running live with moved | ⟨t, behind, ahead, finds⟩
  · have start := passes.trans moved
    rcases sound tight q.advance moved.running (.advance q) with reads | balks
    · obtain ⟨passed, phrase, fits, height, closed⟩ := reads
      have whole := start.trans passed
      rw [List.append_assoc] at whole
      exact .inl ⟨_, whole, phrase, fits, height, closed⟩
    · right
      have sane : ∀ t ∈ [q.current], t.kind ≠ .invalid := List.forall_mem_singleton.mpr settled.valid
      refine balks.after start (List.forall_mem_append.mpr ⟨valid, sane⟩) fun w viable => ?_
      rw [List.append_assoc]
      exact fill w viable
  · exact .inr ((balks_advance passes valid viable settled ahead finds).moves (inner _ _))

theorem ends_readFirst {p : Parsing} (running : p.nestingExceeded = false) (settled : p.Settled) :
    (∃ tree, (readFirst operand p).1 = some tree ∧
        Reads (room + 1) .unary .unary p tree (readFirst operand p).2) ∨
      Balks .unary p (readFirst operand p).2 := by
  have start := Passes.refl running
  rcases readFirst_cases operand p with ⟨kind, short, same⟩ | ⟨kind, long, same⟩ | ⟨kind, same⟩ | ⟨kind, same⟩ <;>
    rw [same]
  · have live : p.current.kind ≠ .endOfInput := by rw [kind]; decide
    rcases advance_cases running live with passes | ⟨t, behind, ahead, finds⟩
    · left
      refine ⟨_, rfl, passes, .literal kind, ?_, Nat.succ_le_succ (Nat.zero_le room), ?_⟩
      · intro t member _
        rwa [List.mem_singleton.mp member]
      · exact Token.Kind.not_continues_unary _
    · exact .inr (balks_advance start (by simp) (.nil _) settled ahead finds)
  · exact .inr (balks_refuse running settled (.numberTooLarge kind long))
  · obtain ⟨live, _, other⟩ := Token.Kind.ne_of_sign kind
    rcases ends_operand inner sound start settled live (by simp) (.nil _) (fun w viable => viable.unary kind) with
      ⟨word, passes, phrase, fits, height, closed⟩ | balks
    · left
      exact ⟨_, rfl, passes, .unary kind phrase, fits.cons other, Nat.succ_le_succ height, closed⟩
    · exact .inr balks
  · exact .inr (balks_refuse running settled (.expectedExpression kind))

theorem ends_join_tight {binding : Level} {front : List Token} {left : Tree} {p q : Parsing}
    (settled : q.Settled) (tight : binding = .sum ∨ binding = .product)
    (binds : q.current.kind.binding? = some binding) (passes : Passes p front q)
    (first : Phrase binding front left) (fits : Fits front) (height : left.height ≤ room) :
    Ends (room + 1) binding binding.trailing p (join operand binding left q) := by
  have ne : binding ≠ .conditional := (Token.Kind.ne_conditional_iff_of_binding binds).mpr tight
  obtain ⟨live, _, other⟩ := Token.Kind.ne_of_binding binds
  rw [join_of_ne _ _ _ ne]
  rcases ends_operand inner sound passes settled live first.valid (.of_phrase first)
    (fun w viable => viable.binary tight binds first) with ⟨word, passed, second, fitting, low, closed⟩ | balks
  · left
    refine ⟨passed, .binary tight binds first second, fits.append (fitting.cons other), ?_, ?_⟩
    · exact Nat.succ_le_succ (Nat.max_le.mpr ⟨height, low⟩)
    · rcases tight with rfl | rfl <;> exact closed
  · exact .inr balks

theorem ends_join_conditional {front : List Token} {left : Tree} {p q : Parsing} (settled : q.Settled)
    (asks : q.current.kind = .question) (passes : Passes p front q) (first : Phrase .sum front left)
    (fits : Fits front) (height : left.height ≤ room) :
    Ends (room + 1) .conditional .conditional p (join operand .conditional left q) := by
  have live : q.current.kind ≠ .endOfInput := by rw [asks]; decide
  have other : q.current.kind ≠ .number := by rw [asks]; decide
  have start := Viable.weaken (Level.conditional_le _) (.of_phrase first)
  rw [join_conditional]
  have secondEnds := ends_operand inner sound passes settled live first.valid start
    (fun w viable => viable.whenTrue asks first)
  have secondMoves := inner .conditional q.advance
  generalize operand .conditional q.advance = second at secondEnds secondMoves ⊢
  dsimp only
  have secondSettled : second.2.Settled := secondMoves.settled (.advance q)
  have thirdMoves : Moves second.2 (operand .conditional (second.2.consume .colon dividerMessage).2).2 :=
    (Move.divide _).moves.trans (inner _ _)
  rcases secondEnds with ⟨middle, passed, whenTrue, middleFits, middleHeight, closed⟩ | balks
  · have half : Viable .conditional (front ++ q.current :: middle) := (Viable.of_phrase whenTrue).whenTrue asks first
    have fill : ∀ colon : Token, colon.kind = .colon → ∀ w, Viable .conditional w →
        Viable .conditional ((front ++ q.current :: middle) ++ colon :: w) := by
      intro colon divides w viable
      rw [List.append_assoc, List.cons_append]
      exact viable.whenFalse asks divides first whenTrue
    have halfValid : ∀ t ∈ front ++ q.current :: middle, t.kind ≠ .invalid :=
      List.forall_mem_append.mpr ⟨first.valid, List.forall_mem_cons.mpr ⟨settled.valid, whenTrue.valid⟩⟩
    rcases consume_cases .colon dividerMessage second.2 with
      ⟨exceeded, _⟩ | ⟨_, divides, same⟩ | ⟨_, missing, same⟩
    · rw [passed.running] at exceeded
      cases exceeded
    · rw [same]
      have calm : Passes p (front ++ q.current :: middle) { second.2 with panicking := false } :=
        ⟨passed.ahead, passed.reported, passed.running⟩
      have dividerLive : second.2.current.kind ≠ .endOfInput := by rw [divides]; decide
      have dividerOther : second.2.current.kind ≠ .number := by rw [divides]; decide
      rcases ends_operand inner sound calm ⟨secondSettled.valid, secondSettled.still⟩ dividerLive halfValid half
        (fill _ divides) with ⟨back, whole, whenFalse, backFits, backHeight, closed⟩ | balks
      · left
        rw [List.append_assoc, List.cons_append] at whole
        refine ⟨whole, .ternary asks divides first whenTrue whenFalse, ?_, ?_, closed⟩
        · exact fits.append ((middleFits.append (backFits.cons dividerOther)).cons other)
        · exact Nat.succ_le_succ (Nat.max_le.mpr ⟨Nat.max_le.mpr ⟨height, middleHeight⟩, backHeight⟩)
      · exact .inr balks
    · rw [same]
      obtain ⟨behind, split⟩ := head_ahead second.2
      have blocked : Blocked .conditional (front ++ q.current :: middle)
          ⟨.missing .colon dividerMessage, second.2.current⟩ :=
        .undivided (Viable.kind_sample .colon) (fill _ rfl [] (.nil _))
          (Token.Kind.of_not_continues closed secondSettled.valid missing)
      have finds : Finds p ⟨.missing .colon dividerMessage, second.2.current⟩
          (second.2.report ⟨.missing .colon dividerMessage, second.2.current⟩) :=
        ⟨[], by rw [reported_report, passed.reported]⟩
      have balks : Balks .conditional p _ := ⟨finds, by rw [passed.ahead, split], halfValid, blocked⟩
      exact .inr (balks.moves (inner _ _))
  · exact .inr (balks.moves thirdMoves)

theorem ends_join {bound binding : Level} {left : Tree} {p q : Parsing} (settled : q.Settled)
    (binds : q.current.kind.binding? = some binding) (reads : Reads (room + 1) bound bound.trailing p left q)
    (height : left.height ≤ room) :
    Ends (room + 1) binding binding.trailing p (join operand binding left q) := by
  obtain ⟨passes, phrase, fits, _, closed⟩ := reads
  have less : ¬ bound.trailing ≤ binding := fun above => closed ⟨binding, binds, above⟩
  by_cases loose : binding = .conditional
  · subst loose
    have tight := Level.sum_le_of_ne (Level.ne_conditional_of_not_trailing_le less)
    exact ends_join_conditional inner sound settled (Token.Kind.binding?_eq_conditional_iff.mp binds) passes
      (phrase.weaken tight) fits height
  · have tight := (Token.Kind.ne_conditional_iff_of_binding binds).mp loose
    exact ends_join_tight inner sound settled tight binds passes
      (phrase.weaken (Level.le_of_not_trailing_le less)) fits height

theorem ends_extend {level bound : Level} {left : Tree} {p q : Parsing} (below : level ≤ bound)
    (settled : q.Settled) (reads : Reads (room + 1) bound bound.trailing p left q) :
    Ends (room + 1) level level p (extend operand room level left q) := by
  -- `bound` is the level of the operator that was joined last, so it changes from round to round
  fun_induction extend operand room level left q generalizing bound with
  | case1 left q stops =>
    obtain ⟨passes, phrase, fits, height, _⟩ := reads
    exact .inl ⟨passes, phrase.weaken below, fits, height, (continuation?_eq_none_iff passes.running).mp stops⟩
  | case2 left q binding next deep =>
    obtain ⟨passes, phrase, fits, _, _⟩ := reads
    obtain ⟨behind, split⟩ := head_ahead q
    have found := reported_exceedNesting_of_running passes.running
    rw [passes.reported] at found
    exact .inr ⟨⟨[], found⟩, by rw [passes.ahead, split], phrase.valid,
      .tooDeep _ (.weaken below (.of_phrase phrase))⟩
  | case3 left q binding next shallow joined =>
    rename_i ih
    obtain ⟨_, binds, above⟩ := (continuation?_eq_some_iff _ _ _).mp next
    have joinedSettled := (moves_join inner left next).settled settled
    rcases ends_join inner sound settled binds reads (Nat.le_of_not_lt shallow) with reads | balks
    · exact ih above joinedSettled reads
    · exact .inr ((balks.weaken above).moves (moves_extend inner _ _ _ _))

theorem ends_readExpression (level : Level) {p : Parsing} (running : p.nestingExceeded = false)
    (settled : p.Settled) : Ends (room + 1) level level p (readExpression operand room level p) := by
  have first := ends_readFirst inner sound running settled
  have firstMoves := moves_readFirst inner running
  unfold readExpression
  split
  · rename_i q same
    rw [same] at first
    rcases first with ⟨tree, impossible, _⟩ | balks
    · cases impossible
    · exact .inr (balks.weaken (Level.le_unary level))
  · rename_i tree q same
    rw [same] at first firstMoves
    rcases first with ⟨_, found, reads⟩ | balks
    · cases found
      exact ends_extend inner sound (Level.le_unary level) (firstMoves.settled settled) reads
    · exact .inr ((balks.weaken (Level.le_unary level)).moves (moves_extend inner _ _ _ _))

end Operands

/-- Reading an expression passes a phrase of its level, or meets an error that nothing before it explains. -/
theorem ends_parseWithin (room : Nat) (level : Level) (p : Parsing) (running : p.nestingExceeded = false)
    (settled : p.Settled) : Ends room level level p (parseWithin room level p) := by
  induction room generalizing level p with
  | zero =>
    obtain ⟨behind, split⟩ := head_ahead p
    exact .inr ⟨⟨[], reported_exceedNesting_of_running running⟩, split, by simp, .tooDeep _ (.nil level)⟩
  | succ room ih =>
    rw [parseWithin_succ running]
    have start : p.descend.Settled := ⟨settled.valid, settled.still⟩
    rcases ends_readExpression (moves_parseWithin room) ih level (p := p.descend) running start with reads | balks
    · obtain ⟨passes, phrase, fits, height, closed⟩ := reads
      exact .inl ⟨⟨passes.ahead, passes.reported, passes.running⟩, phrase, fits, height, closed⟩
    · obtain ⟨finds, ahead, valid, blocked⟩ := balks
      exact .inr ⟨finds, ahead, valid, blocked⟩

end Parsing

end Arith
