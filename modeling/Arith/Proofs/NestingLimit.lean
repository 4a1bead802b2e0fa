import Arith.Proofs.Unlimited
import Arith.Proofs.WholeText

namespace Arith.Parsing

/-- What `limited` may do, given that `free` is done without a limit. -/
inductive Within (room : Nat) (free limited : Tree × Parsing) : Prop where
  | same (fits : free.1.height ≤ room) (same : limited = free) : Within room free limited
  | stopped (exceeds : room < free.1.height) (stopped : limited.2.nestingExceeded = true) :
      Within room free limited

theorem height_le_extendFreely (operand : Reader) (level : Level) (left : Tree) (p : Parsing) :
    left.height ≤ (extendFreely operand level left p).1.height := by
  fun_induction extendFreely operand level left p with
  | case1 => exact Nat.le_refl _
  | case2 left p binding _ joined _ ih =>
    exact Nat.le_trans (Nat.le_of_lt (height_lt_height_join operand binding left p)) ih
  | case3 left p binding => exact Nat.le_of_lt (height_lt_height_join operand binding left p)

section Operands

variable {free limited : Reader} {room : Nat}
variable (moves : ∀ level p, Moves p (limited level p).2)
variable (within : ∀ level p, Within room (free level p) (limited level p))

include within in
theorem within_readFirst (p : Parsing) :
    (readFirst limited p = readFirst free p ∧
        ∀ tree, (readFirst free p).1 = some tree → tree.height ≤ room + 1) ∨
      ∃ tree other, (readFirst free p).1 = some tree ∧ (readFirst limited p).1 = some other ∧
        room + 1 < tree.height ∧ (readFirst limited p).2.nestingExceeded = true := by
  have low : 1 ≤ room + 1 := Nat.succ_le_succ (Nat.zero_le room)
  rcases readFirst_cases free p with ⟨kind, short, same⟩ | ⟨kind, long, same⟩ | ⟨kind, same⟩ | ⟨kind, same⟩ <;>
    rw [same]
  · left
    rw [readFirst_of_number limited kind short]
    refine ⟨rfl, ?_⟩
    rintro tree ⟨⟩
    exact low
  · left
    rw [readFirst_of_long limited kind long]
    refine ⟨rfl, ?_⟩
    rintro tree ⟨⟩
    exact low
  · rw [readFirst_of_sign limited kind]
    rcases within .unary p.advance with ⟨fits, same⟩ | ⟨exceeds, stopped⟩
    · left
      rw [same]
      refine ⟨rfl, ?_⟩
      rintro tree ⟨⟩
      exact Nat.succ_le_succ fits
    · exact .inr ⟨_, _, rfl, rfl, Nat.succ_lt_succ exceeds, stopped⟩
  · left
    rw [readFirst_of_foreign limited kind]
    refine ⟨rfl, ?_⟩
    rintro tree ⟨⟩

include within in
theorem within_join_tight {binding : Level} (tight : binding ≠ .conditional) {left : Tree} (p : Parsing)
    (height : left.height ≤ room) : Within (room + 1) (join free binding left p) (join limited binding left p) := by
  rw [join_of_ne _ _ _ tight, join_of_ne _ _ _ tight]
  rcases within binding.tighter p.advance with ⟨fits, same⟩ | ⟨exceeds, stopped⟩
  · refine .same (Nat.succ_le_succ (Nat.max_le.mpr ⟨height, fits⟩)) ?_
    rw [same]
  · refine .stopped (Nat.succ_lt_succ ?_) stopped
    exact Nat.lt_of_lt_of_le exceeds (Nat.le_max_right _ _)

include moves within

theorem within_join_conditional {left : Tree} (p : Parsing) (height : left.height ≤ room) :
    Within (room + 1) (join free .conditional left p) (join limited .conditional left p) := by
  rw [join_conditional, join_conditional]
  dsimp only
  rcases within .conditional p.advance with ⟨fits, same⟩ | ⟨exceeds, stopped⟩
  · rw [same]
    generalize free .conditional p.advance = second at fits
    generalize (second.2.consume .colon dividerMessage).2 = divided
    rcases within .conditional divided with ⟨low, alike⟩ | ⟨exceeds, stopped⟩
    · refine .same (Nat.succ_le_succ (Nat.max_le.mpr ⟨Nat.max_le.mpr ⟨height, fits⟩, low⟩)) ?_
      rw [alike]
    · refine .stopped (Nat.succ_lt_succ ?_) stopped
      exact Nat.lt_of_lt_of_le exceeds (Nat.le_max_right _ _)
  · refine .stopped (Nat.succ_lt_succ ?_) ?_
    · exact Nat.lt_of_lt_of_le exceeds (Nat.le_trans (Nat.le_max_right _ _) (Nat.le_max_left _ _))
    · rw [consume_of_exceeded stopped]
      exact (moves _ _).nestingExceeded stopped

theorem within_join (binding : Level) {left : Tree} (p : Parsing) (height : left.height ≤ room) :
    Within (room + 1) (join free binding left p) (join limited binding left p) := by
  by_cases loose : binding = .conditional
  · subst loose
    exact within_join_conditional moves within p height
  · exact within_join_tight within loose p height

theorem within_extend (onward : ∀ level p, Onward p (free level p).2) (level : Level) (left : Tree) (p : Parsing)
    (height : left.height ≤ room + 1) :
    Within (room + 1) (extendFreely free level left p) (extend limited room level left p) := by
  fun_induction extend limited room level left p with
  | case1 left p stops =>
    rw [extendFreely_of_stop free left stops]
    exact .same height rfl
  | case2 left p binding next high =>
    refine .stopped ?_ (nestingExceeded_exceedNesting p)
    rw [extendFreely_of_next onward left next]
    have grown := height_lt_height_join free binding left p
    have kept := height_le_extendFreely free level (join free binding left p).1 (join free binding left p).2
    omega
  | case3 left p binding next low joined ih =>
    rw [extendFreely_of_next onward left next]
    rcases within_join moves within binding p (Nat.le_of_not_lt low) with ⟨fits, same⟩ | ⟨exceeds, stopped⟩
    · rw [← same] at fits ⊢
      exact ih fits
    · refine .stopped (Nat.lt_of_lt_of_le exceeds (height_le_extendFreely free level _ _)) ?_
      exact (moves_extend moves room level _ _).nestingExceeded stopped

theorem within_readExpression (onward : ∀ level p, Onward p (free level p).2) (level : Level) (p : Parsing) :
    Within (room + 1) (readFreely free level p) (readExpression limited room level p) := by
  unfold readFreely readExpression
  rcases within_readFirst within p with ⟨same, low⟩ | ⟨tree, other, reads, found, high, stopped⟩
  · rw [same]
    generalize readFirst free p = first at low
    obtain ⟨found, q⟩ := first
    cases found with
    | none => exact .same (Nat.succ_le_succ (Nat.zero_le room)) rfl
    | some tree => exact within_extend moves within onward level tree q (low tree rfl)
  · generalize readFirst free p = first at reads
    generalize readFirst limited p = second at found stopped
    obtain ⟨_, q⟩ := first
    obtain ⟨_, r⟩ := second
    cases reads
    cases found
    refine .stopped (Nat.lt_of_lt_of_le high (height_le_extendFreely free level _ _)) ?_
    exact (moves_extend moves room level _ _).nestingExceeded stopped

end Operands

theorem within_parseWithin (room : Nat) (level : Level) (p : Parsing) :
    Within room (parseFreely level p) (parseWithin room level p) := by
  -- on the room, not on the text: a level of the limited parser is a level of the tree
  induction room generalizing level p with
  | zero =>
    refine .stopped (Tree.height_pos _) ?_
    exact nestingExceeded_exceedNesting p
  | succ room ih =>
    rw [parseFreely_eq]
    cases running : p.nestingExceeded with
    | true =>
      rw [parseWithin_of_exceeded running]
      exact .same (Nat.succ_le_succ (Nat.zero_le room)) rfl
    | false =>
      rw [parseWithin_succ running]
      have read := within_readExpression (moves_parseWithin room) ih onward_parseFreely level p.descend
      rcases read with ⟨fits, same⟩ | ⟨exceeds, stopped⟩
      · exact .same fits (by rw [same]; rfl)
      · exact .stopped exceeds stopped

theorem nestingExceeded_consume (expected : Token.Kind) (message : String) (p : Parsing) :
    (p.consume expected message).2.nestingExceeded = p.nestingExceeded :=
  (Onward.consume expected message p).nestingExceeded

end Arith.Parsing

namespace Arith

/-- The nesting limit stops the parser exactly where the tree of the parser without a limit is too high, and as
long as it does not, the two parsers do the same. -/
theorem nestingExceeded_iff_height (source filename : String) :
    ((Parsing.ofSource source filename).expression.2.nestingExceeded = true ↔
        maxNesting < (Parsing.ofSource source filename).expressionFreely.1.height) ∧
      ((Parsing.ofSource source filename).expression.2.nestingExceeded = false →
        (Parsing.ofSource source filename).expression = (Parsing.ofSource source filename).expressionFreely) := by
  have start : (Parsing.ofSource source filename).nestingExceeded = false := Parsing.nestingExceeded_start _
  have depth : (Parsing.ofSource source filename).depth = 0 := Parsing.depth_start _
  generalize Parsing.ofSource source filename = p at start depth
  have read := Parsing.within_parseWithin maxNesting .conditional p
  rw [← Parsing.parse_of_outermost depth] at read
  have free : p.expressionFreely = ((p.parseFreely .conditional).1,
      ((p.parseFreely .conditional).2.consume .endOfInput Parsing.trailingMessage).2) := rfl
  rw [Parsing.expression_eq, free, Parsing.nestingExceeded_consume]
  rcases read with ⟨fits, same⟩ | ⟨exceeds, stopped⟩
  · have running := (Parsing.onward_parseFreely .conditional p).nestingExceeded.trans start
    rw [same, running]
    exact ⟨⟨nofun, fun exceeds => absurd exceeds (Nat.not_lt_of_le fits)⟩, fun _ => rfl⟩
  · rw [stopped]
    exact ⟨⟨fun _ => exceeds, fun _ => rfl⟩, nofun⟩

end Arith
