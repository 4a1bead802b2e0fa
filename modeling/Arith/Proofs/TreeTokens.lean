import Arith.Proofs.ReadingCourse
import Arith.Proofs.TokenTiling
import Arith.Proofs.TreePlaces
import Arith.Tree.Printer
import Mathlib.Data.List.Forall2

namespace Arith

namespace Text

/-- The digits of a numeral as a number is shown. One zero is left where there is nothing else. -/
def withoutLeadingZeros : List Char → List Char
  | [] => ['0']
  | c :: text => if c = '0' then withoutLeadingZeros text else c :: text

theorem digitValue_lt {c : Char} (digit : isDigit c = true) : digitValue c < 10 ∧ (digitValue c).digitChar = c := by
  have all : digits.all (fun c => digitValue c < 10 ∧ (digitValue c).digitChar = c) = true := by decide
  exact of_decide_eq_true (List.all_eq_true.mp all c (List.contains_iff_mem.mp digit))

theorem decimalValue_cons (c : Char) (text : List Char) :
    decimalValue (c :: text) = text.foldl (fun n c => 10 * n + digitValue c) (digitValue c) := by
  rw [decimalValue, List.foldl_cons, Nat.mul_zero, Nat.zero_add]

theorem toDigits_foldl {text : List Char} (digits : ∀ c ∈ text, isDigit c = true) {n : Nat} (positive : 0 < n) :
    Nat.toDigits 10 (text.foldl (fun n c => 10 * n + digitValue c) n) = Nat.toDigits 10 n ++ text := by
  induction text generalizing n with
  | nil => rw [List.foldl_nil, List.append_nil]
  | cons c text ih =>
    obtain ⟨first, rest⟩ := List.forall_mem_cons.mp digits
    obtain ⟨small, shown⟩ := digitValue_lt first
    have longer := Nat.toDigits_append_toDigits (b := 10) (by decide) positive small
    rw [Nat.toDigits_of_lt_base small, shown] at longer
    rw [List.foldl_cons, ih rest (by omega), ← longer, List.append_assoc, List.singleton_append]

theorem toDigits_decimalValue {text : List Char} (digits : ∀ c ∈ text, isDigit c = true) :
    Nat.toDigits 10 (decimalValue text) = withoutLeadingZeros text := by
  induction text with
  | nil => rfl
  | cons c text ih =>
    obtain ⟨first, rest⟩ := List.forall_mem_cons.mp digits
    obtain ⟨small, shown⟩ := digitValue_lt first
    by_cases zero : c = '0'
    · subst zero
      rw [withoutLeadingZeros, if_pos rfl]
      exact ih rest
    · have positive : 0 < digitValue c := by
        apply Nat.pos_of_ne_zero
        intro nothing
        rw [nothing] at shown
        exact zero shown.symm
      rw [withoutLeadingZeros, if_neg zero, decimalValue_cons, toDigits_foldl rest positive,
        Nat.toDigits_of_lt_base small, shown, List.singleton_append]

end Text

theorem Token.print_literal {t : Token} (digits : ∀ c ∈ t.lexeme.toList, isDigit c = true) :
    t.literal.print = String.ofList (Text.withoutLeadingZeros t.lexeme.toList) := by
  have shown : t.literal.print = Nat.repr (Text.decimalValue t.lexeme.toList) := rfl
  rw [shown, Nat.repr_eq_ofList_toDigits, Text.toDigits_decimalValue digits]

theorem Token.StandsIn.digits {text : List Char} {t : Token} (stands : t.StandsIn text) (number : t.kind = .number) :
    ∀ c ∈ t.lexeme.toList, isDigit c = true := by
  obtain ⟨_, taken, _, _, _, munch⟩ := stands
  have valid : t.kind ≠ .invalid := by rw [number]; decide
  rw [munch.front_eq.2 valid, String.toList_ofList]
  exact (munch.of_number number).2.1

namespace Tree

def written : Tree → List Tree
  | error _ => []
  | t@(number _ _) => [t]
  | t@(unary _ operand _) => t :: operand.written
  | t@(binary _ left right _) => left.written ++ t :: right.written
  | ternary condition whenTrue whenFalse _ => condition.written ++ (whenTrue.written ++ whenFalse.written)

/-- The token is the operator of the node, or the numeral that the node is the literal of. -/
def WrittenAs : Tree → Token → Prop
  | t@(number _ _), token => t = token.literal ∧ token.kind = .number ∧ token.lexeme.length ≤ maxDigits
  | unary operator _ _, token | binary operator _ _ _, token => operator = token
  | error _, _ | ternary _ _ _ _, _ => False

/-- Where the operator of an operation stands, and where any other node begins. -/
def anchor : Tree → Location
  | unary operator _ _ | binary operator _ _ _ => operator.location
  | error span | number _ span | ternary _ _ _ span => span.start

theorem WrittenAs.anchor_eq {token : Token} {t : Tree} (same : t.WrittenAs token) : t.anchor = token.location := by
  cases t with
  | number =>
    rw [same.1]
    rfl
  | unary | binary => exact congrArg Token.location same
  | error | ternary => cases same

theorem mem_written {node t : Tree} :
    node ∈ t.written ↔ node ∈ t.nodes ∧ node.shape ≠ .error ∧ node.shape ≠ .ternary := by
  induction t with
  | error => simp +contextual [written, nodes, shape]
  | number => simp +contextual [written, nodes, shape]
  | unary operator operand span ih =>
    simp only [written, nodes, List.mem_cons, ih]
    grind [shape]
  | binary operator left right span first second =>
    simp only [written, nodes, List.mem_cons, List.mem_append, first, second]
    grind [shape]
  | ternary condition whenTrue whenFalse span first second third =>
    simp only [written, nodes, List.mem_cons, List.mem_append, first, second, third]
    grind [shape]

def ternaries (t : Tree) : Nat := t.nodes.countP (·.shape = .ternary)

@[simp] theorem ternaries_apply (operator : Token) (operand : Tree) :
    (apply operator operand).ternaries = operand.ternaries := by
  simp [ternaries, apply, nodes, shape]

@[simp] theorem ternaries_combine (operator : Token) (left right : Tree) :
    (combine operator left right).ternaries = left.ternaries + right.ternaries := by
  simp [ternaries, combine, nodes, shape]

@[simp] theorem ternaries_choose (condition whenTrue whenFalse : Tree) :
    (choose condition whenTrue whenFalse).ternaries =
      condition.ternaries + (whenTrue.ternaries + whenFalse.ternaries) + 1 := by
  simp [ternaries, choose, nodes, shape]

/-- The tree was put together from tokens of the word, in their order. -/
structure Gathered (word : List Token) (t : Tree) : Prop where
  written : ∃ taken, taken.Sublist word ∧ List.Forall₂ WrittenAs t.written taken
  ternaries : t.ternaries ≤ word.countP (·.kind = .question)

namespace Gathered

variable {word front middle back : List Token} {operator question token : Token}
variable {t left right condition whenTrue whenFalse : Tree}

theorem mono (gathered : t.Gathered front) (more : front.Sublist back) : t.Gathered back := by
  obtain ⟨taken, among, same⟩ := gathered.written
  exact ⟨⟨taken, among.trans more, same⟩, Nat.le_trans gathered.ternaries more.countP_le⟩

theorem literal (kind : token.kind = .number) (short : token.lexeme.length ≤ maxDigits)
    (member : token ∈ word) : token.literal.Gathered word := by
  have same : token.literal.WrittenAs token := ⟨rfl, kind, short⟩
  exact ⟨⟨[token], List.singleton_sublist.mpr member, .cons same .nil⟩, Nat.zero_le _⟩

theorem placeholder : (placeholder token).Gathered word :=
  ⟨⟨[], List.nil_sublist word, .nil⟩, Nat.zero_le _⟩

theorem apply (operand : right.Gathered word) : (apply operator right).Gathered (operator :: word) := by
  obtain ⟨taken, among, same⟩ := operand.written
  have few := operand.ternaries
  constructor
  · exact ⟨operator :: taken, among.cons_cons operator, .cons rfl same⟩
  · rw [ternaries_apply, List.countP_cons]
    omega

theorem combine (first : left.Gathered front) (second : right.Gathered back) :
    (combine operator left right).Gathered (front ++ operator :: back) := by
  obtain ⟨taken, among, same⟩ := first.written
  obtain ⟨others, behind, alike⟩ := second.written
  have few := first.ternaries
  have more := second.ternaries
  constructor
  · have around := among.append (behind.cons_cons operator)
    exact ⟨taken ++ operator :: others, around, List.rel_append same (.cons rfl alike)⟩
  · rw [ternaries_combine, List.countP_append, List.countP_cons]
    omega

theorem choose (asks : question.kind = .question) (first : condition.Gathered front)
    (second : whenTrue.Gathered middle) (third : whenFalse.Gathered back) :
    (choose condition whenTrue whenFalse).Gathered (front ++ question :: (middle ++ back)) := by
  obtain ⟨taken, among, same⟩ := first.written
  obtain ⟨others, between, alike⟩ := second.written
  obtain ⟨rest, behind, equal⟩ := third.written
  have few := first.ternaries
  have more := second.ternaries
  have most := third.ternaries
  constructor
  · have within := (between.append behind).cons question
    exact ⟨taken ++ (others ++ rest), among.append within, List.rel_append same (List.rel_append alike equal)⟩
  · have counted : decide (question.kind = .question) = true := decide_eq_true asks
    rw [ternaries_choose, List.countP_append, List.countP_cons, List.countP_append, if_pos counted]
    omega

theorem ascending {tokens : List Token} (gathered : t.Gathered tokens)
    (sorted : tokens.Pairwise (·.location.offset < ·.location.offset)) :
    t.written.Pairwise (·.anchor.offset < ·.anchor.offset) := by
  obtain ⟨taken, among, same⟩ := gathered.written
  have places : t.written.map anchor = taken.map Token.location := by
    rw [← List.forall₂_eq_eq_eq, List.forall₂_map_left_iff, List.forall₂_map_right_iff]
    exact same.imp (fun _ _ written => written.anchor_eq)
  have order : (taken.map Token.location).Pairwise (·.offset < ·.offset) := List.pairwise_map.mpr (sorted.sublist among)
  rw [← places, List.pairwise_map] at order
  exact order

theorem source {node : Tree} (gathered : t.Gathered word) (member : node ∈ t.written) :
    ∃ token ∈ word, node.WrittenAs token := by
  obtain ⟨taken, among, same⟩ := gathered.written
  obtain ⟨i, bound, rfl⟩ := List.mem_iff_getElem.mp member
  have bound' : i < taken.length := by rwa [← same.length_eq]
  exact ⟨taken[i], among.subset (List.getElem_mem bound'), same.get bound bound'⟩

end Gathered

end Tree

namespace Parsing

def Leaves (p : Parsing) (word : List Token) (q : Parsing) : Prop := p.ahead = word ++ q.ahead

namespace Leaves

variable {p q r : Parsing} {front back : List Token}

theorem refl (p : Parsing) : Leaves p [] p := rfl

theorem trans (first : Leaves p front q) (second : Leaves q back r) : Leaves p (front ++ back) r := by
  rw [Leaves, List.append_assoc, ← second]
  exact first

theorem pass (live : p.current.kind ≠ .endOfInput) :
    Leaves p (p.current :: p.scanner.pull.passed.toList) p.advance := ahead_advance_of_live live

theorem advance (settled : p.Settled) : ∃ word, Leaves p word p.advance := by
  by_cases stop : p.current.kind = .endOfInput
  · exact ⟨[], (advance_of_end settled stop).2.symm⟩
  · exact ⟨_, pass stop⟩

theorem report (leaves : Leaves p front q) (error : SyntaxError) : Leaves p front (q.report error) := by
  rw [Leaves, ahead_report]
  exact leaves

theorem consume (expected : Token.Kind) (message : String) (settled : p.Settled) :
    ∃ word, Leaves p word (p.consume expected message).2 := by
  rcases consume_cases expected message p with ⟨_, same⟩ | ⟨_, _, same⟩ | ⟨_, _, same⟩ <;> rw [same]
  · exact ⟨[], refl p⟩
  · exact advance (p := { p with panicking := false }) ⟨settled.valid, settled.still⟩
  · exact ⟨[], (refl p).report _⟩

theorem exceed (p : Parsing) : Leaves p [] p.exceedNesting := by
  cases running : p.nestingExceeded with
  | true =>
    rw [exceedNesting_of_exceeded running]
    exact refl p
  | false =>
    rw [exceedNesting_of_running running]
    exact (refl { p with nestingExceeded := true }).report _

end Leaves

def Stage.Gathered (front : List Token) : Stage → Prop
  | before | inside => True
  | behind left => left.Gathered front

def Collects (stage : Stage) (p : Parsing) (tree : Tree) (q : Parsing) : Prop :=
  ∃ word, Leaves p word q ∧ ∀ front, stage.Gathered front → tree.Gathered (front ++ word)

namespace Collects

variable {stage : Stage} {p q r : Parsing} {tree left operand : Tree}

theorem placeholder {word : List Token} {token : Token} (leaves : Leaves p word q) :
    Collects stage p (.placeholder token) q :=
  ⟨word, leaves, fun _ _ => .placeholder⟩

theorem onward {word : List Token} (leaves : Leaves p word q) (rest : Collects (.behind left) q tree r)
    (gathered : ∀ front, stage.Gathered front → left.Gathered (front ++ word)) : Collects stage p tree r := by
  obtain ⟨back, behind, finished⟩ := rest
  refine ⟨word ++ back, leaves.trans behind, fun front begun => ?_⟩
  rw [← List.append_assoc]
  exact finished _ (gathered front begun)

theorem operand_passed (live : p.current.kind ≠ .endOfInput) (read : Collects .before p.advance operand q) :
    ∃ word, Leaves p (p.current :: word) q ∧ operand.Gathered word := by
  obtain ⟨word, leaves, gathered⟩ := read
  have here := gathered [] trivial
  exact ⟨_, (Leaves.pass live).trans leaves, here.mono (List.sublist_append_right _ word)⟩

end Collects

theorem Course.collects {stage : Stage} {level : Level} {p q : Parsing} {tree : Tree}
    (course : Course stage level p tree q) (settled : p.Settled) : Collects stage p tree q := by
  induction course with
  | stopped => exact .placeholder (.refl _)
  | full => exact .placeholder (.exceed _)
  | enter _ _ ih => exact ih ⟨settled.valid, settled.still⟩
  | foreign =>
    obtain ⟨word, leaves⟩ := Leaves.advance settled
    exact .placeholder (leaves.report _)
  | @number _ p q tree _ kind short _ ih =>
    have live : p.current.kind ≠ .endOfInput := by rw [kind]; decide
    apply Collects.onward (.pass live) (ih (.advance p))
    intro front _
    exact .literal kind short (List.mem_append_right front List.mem_cons_self)
  | tooLarge _ _ _ _ ih =>
    obtain ⟨word, leaves⟩ := Leaves.advance settled
    exact .onward (leaves.report _) (ih (Settled.advance _).report) (fun _ _ => .placeholder)
  | sign _ kind inner _ first rest =>
    have live := (Token.Kind.ne_of_sign kind).1
    obtain ⟨word, leaves, operand⟩ := Collects.operand_passed live (first (.advance _))
    apply Collects.onward leaves (rest (inner.moves.settled (.advance _)))
    intro front _
    exact operand.apply.mono (List.sublist_append_right front _)
  | stop => exact ⟨[], .refl _, fun front begun => begun.mono (List.sublist_append_left front [])⟩
  | deep => exact ⟨[], .exceed _, fun front begun => begun.mono (List.sublist_append_left front [])⟩
  | binary next _ inner _ first rest =>
    obtain ⟨word, leaves, right⟩ := Collects.operand_passed (live_of_continuation next) (first (.advance _))
    apply Collects.onward leaves (rest (inner.moves.settled (.advance _)))
    intro front left
    exact left.combine right
  | ternary next second third _ first middle rest =>
    have asks := Token.Kind.binding?_eq_conditional_iff.mp (binding_of_continuation next)
    have settled := second.moves.settled (.advance _)
    obtain ⟨word, leaves, whenTrue⟩ := Collects.operand_passed (live_of_continuation next) (first (.advance _))
    obtain ⟨gap, divided⟩ := Leaves.consume .colon dividerMessage settled
    obtain ⟨back, behind, gathered⟩ := middle settled.consume
    -- what is dropped in search of the colon is counted with the first branch
    have through := (leaves.trans divided).trans behind
    apply Collects.onward through (rest (third.moves.settled settled.consume))
    intro front left
    have second := whenTrue.mono (List.sublist_append_left word gap)
    exact left.choose asks second (gathered [] trivial)

end Parsing

/-- From the token nothing could be read: it begins no expression, as the end of the text does not, or it is a number
that is too large, or the parser went no further. -/
def Unread (p : Parser) (token : Token) : Prop :=
  token.kind.begins = false ∨ (token.kind = .number ∧ maxDigits < token.lexeme.length) ∨
    (p.nestingExceeded = true ∧ token = p.current)

theorem Unread.keep {p q : Parser} {token : Token} (unread : Unread p token)
    (still : Parsing.HoldsStill p q) : Unread q token := by
  rcases unread with foreign | large | ⟨exceeded, here⟩
  · exact .inl foreign
  · exact .inr (.inl large)
  · obtain ⟨exceeded, same⟩ := still exceeded
    exact .inr (.inr ⟨exceeded, here.trans same.symm⟩)

namespace Tree

def IsExcused (tokens : List Token) (p : Parser) : Tree → Prop
  | error span => ∃ token ∈ tokens, span = .point token.location ∧ Unread p token
  | _ => True

def Excused (tokens : List Token) (p : Parser) (t : Tree) : Prop := ∀ node ∈ t.nodes, node.IsExcused tokens p

namespace Excused

variable {tokens : List Token} {p q : Parser} {operator token : Token}
variable {t left right condition whenTrue whenFalse : Tree}

theorem literal : token.literal.Excused tokens p := List.forall_mem_singleton.mpr trivial

theorem placeholder (member : token ∈ tokens) (unread : Unread p token) : (placeholder token).Excused tokens p :=
  List.forall_mem_singleton.mpr ⟨token, member, rfl, unread⟩

theorem apply (operand : right.Excused tokens p) : (apply operator right).Excused tokens p :=
  List.forall_mem_cons.mpr ⟨trivial, operand⟩

theorem combine (first : left.Excused tokens p) (second : right.Excused tokens p) :
    (combine operator left right).Excused tokens p :=
  List.forall_mem_cons.mpr ⟨trivial, List.forall_mem_append.mpr ⟨first, second⟩⟩

theorem choose (first : condition.Excused tokens p) (second : whenTrue.Excused tokens p)
    (third : whenFalse.Excused tokens p) : (choose condition whenTrue whenFalse).Excused tokens p := by
  have branches := List.forall_mem_append.mpr ⟨second, third⟩
  exact List.forall_mem_cons.mpr ⟨trivial, List.forall_mem_append.mpr ⟨first, branches⟩⟩

theorem keep (excused : t.Excused tokens p) (still : Parsing.HoldsStill p q) : t.Excused tokens q := by
  intro node member
  have kept := excused node member
  cases node with
  | error span =>
    obtain ⟨token, among, same, unread⟩ := kept
    exact ⟨token, among, same, unread.keep still⟩
  | _ => trivial

end Excused

end Tree

namespace Parsing

theorem Moves.excused {tokens : List Token} {p q : Parsing} {t : Tree} (moves : Moves p q)
    (excused : t.Excused tokens p.toParser) : t.Excused tokens q.toParser :=
  excused.keep moves.holdsStill

def Stage.Excused (tokens : List Token) (p : Parser) : Stage → Prop
  | before | inside => True
  | behind left => left.Excused tokens p

theorem Course.excused {tokens : List Token} (sorted : tokens.Pairwise (·.location.offset < ·.location.offset))
    {stage : Stage} {level : Level} {p q : Parsing} {tree : Tree} (course : Course stage level p tree q)
    (rests : Rests tokens p) (begun : stage.Excused tokens p.toParser) : tree.Excused tokens q.toParser := by
  induction course with
  | stopped exceeded => exact .placeholder rests.current_mem (.inr (.inr ⟨exceeded, rfl⟩))
  | @full level p =>
    have limit := nestingExceeded_exceedNesting p
    exact .placeholder rests.current_mem (.inr (.inr ⟨limit, (current_exceedNesting p).symm⟩))
  | enter _ _ ih => exact ih (rests.moves sorted (Move.descend _).moves) trivial
  | foreign _ foreign => exact .placeholder rests.current_mem (.inl foreign)
  | number running kind _ _ ih =>
    exact ih (rests.pass sorted running (by rw [kind]; decide)) .literal
  | tooLarge running kind long _ ih =>
    exact ih (rests.refuse sorted running _) (.placeholder rests.current_mem (.inr (.inl ⟨kind, long⟩)))
  | sign running kind inner _ first rest =>
    have passed := rests.pass sorted running (Token.Kind.ne_of_sign kind).1
    exact rest (passed.moves sorted inner.moves) (first passed trivial).apply
  | stop => exact begun
  | deep => exact (Move.exceed _).moves.excused begun
  | @binary level binding p q r left right tree next _ inner _ first rest =>
    have passing := moves_of_continuation next
    have passed := rests.moves sorted passing
    have left : left.Excused tokens q.toParser := (passing.trans inner.moves).excused begun
    exact rest (passed.moves sorted inner.moves) (left.combine (first passed trivial))
  | @ternary level p q r s left whenTrue whenFalse tree next second third _ first middle rest =>
    have passing := moves_of_continuation next
    have passed := rests.moves sorted passing
    have divided := (Move.divide q).moves
    have between := passed.moves sorted second.moves
    have last := between.moves sorted divided
    have onward := divided.trans third.moves
    have left : left.Excused tokens r.toParser :=
      (passing.trans (second.moves.trans onward)).excused begun
    have whenTrue : whenTrue.Excused tokens r.toParser := onward.excused (first passed trivial)
    exact rest (last.moves sorted third.moves) (left.choose whenTrue (middle last trivial))

end Parsing

theorem eq_of_offset_eq {tokens : List Token} (sorted : tokens.Pairwise (·.location.offset < ·.location.offset))
    {t u : Token} (first : t ∈ tokens) (second : u ∈ tokens) (same : t.location.offset = u.location.offset) :
    t = u := by
  by_contra other
  have apart : tokens.Pairwise (fun t u => t.location.offset ≠ u.location.offset) :=
    sorted.imp (fun before => Int.ne_of_lt before)
  have symmetric : Std.Symm (fun t u : Token => t.location.offset ≠ u.location.offset) := ⟨fun _ _ => Ne.symm⟩
  exact apart.forall first second other same

def Tree.Quotes (tokens : List Token) (p : Parser) : Tree → Prop
  | error span => ∃ token ∈ tokens, span = .point token.location ∧ Unread p token
  | t@(number value span) => ∃ token ∈ tokens, token.kind = .number ∧ token.lexeme.length ≤ maxDigits ∧
      span = .point token.location ∧ value = Text.decimalValue token.lexeme.toList ∧
      t.print = String.ofList (Text.withoutLeadingZeros token.lexeme.toList)
  | unary operator _ _ | binary operator _ _ _ => operator ∈ tokens ∧
      ∀ token ∈ tokens, token.location.offset = operator.location.offset → token = operator
  | ternary _ _ _ _ => True

theorem Tree.WrittenAs.quotes {tokens : List Token} (sorted : tokens.Pairwise (·.location.offset < ·.location.offset))
    {text : List Char} (stands : ∀ t ∈ tokens, t.StandsIn text) {p : Parser} {node : Tree} {token : Token}
    (written : node.WrittenAs token) (member : token ∈ tokens) : node.Quotes tokens p := by
  cases node with
  | number value span =>
    obtain ⟨same, kind, short⟩ := written
    have shown := Token.print_literal ((stands token member).digits kind)
    cases same
    exact ⟨token, member, kind, short, rfl, rfl, shown⟩
  | unary operator | binary operator =>
    cases written
    exact ⟨member, fun other among same => eq_of_offset_eq sorted among member same⟩
  | error | ternary => cases written

/-- A tree holds the operators and the numbers of a text in their order, each at its place and none of them twice,
and nothing else but error nodes where nothing could be read. -/
theorem tree_quotes_tokens (source filename : String) :
    let tokens := (tokenize source filename).toList
    let read := (Parsing.ofSource source filename).expression
    (∃ taken, taken.Sublist tokens ∧ List.Forall₂ Tree.WrittenAs read.1.written taken) ∧
      read.1.written.Pairwise (·.anchor.offset < ·.anchor.offset) ∧
      (∀ node ∈ read.1.nodes, node.Quotes tokens read.2.toParser) ∧
      read.1.nodes.countP (·.shape = .ternary) ≤ tokens.countP (·.kind = .question) := by
  intro tokens read
  have sorted : tokens.Pairwise (·.location.offset < ·.location.offset) := Scanner.tokens_pairwise_offset _
  have rests : Parsing.Rests tokens (.ofSource source filename) := Parsing.rests_start _
  have course := Parsing.course_parse .conditional (.ofSource source filename)
  have gathered : read.1.Gathered tokens := by
    obtain ⟨word, leaves, gathered⟩ := course.collects rests.settled
    have front : word.Sublist (Parsing.ofSource source filename).ahead := by
      rw [leaves]
      exact List.sublist_append_left _ _
    exact (gathered [] trivial).mono (front.trans rests.within.sublist)
  have excused : read.1.Excused tokens read.2.toParser :=
    (course.excused sorted rests trivial).keep (Parsing.holdsStill_consume .endOfInput Parsing.trailingMessage _)
  have stands : ∀ t ∈ tokens, t.StandsIn source.toList :=
    fun t member => ((Scanner.tiles_tokens (Scanner.within_run source filename [])).stands t member).2
  refine ⟨gathered.written, gathered.ascending sorted, fun node member => ?_, gathered.ternaries⟩
  by_cases missing : node.shape = .error
  · cases node with
    | error span => exact excused _ member
    | _ => cases missing
  · by_cases chooses : node.shape = .ternary
    · cases node with
      | ternary => trivial
      | _ => cases chooses
    · obtain ⟨token, among, written⟩ := gathered.source (Tree.mem_written.mpr ⟨member, missing, chooses⟩)
      exact written.quotes sorted stands among

end Arith
