import Arith.Proofs.ParserMoves

namespace Arith.Parsing

/-- A measure of the text that is left, which every token that is passed makes smaller. -/
def unread (p : Parsing) : Nat := 2 * p.scanner.rest.length + if p.current.kind = .endOfInput then 0 else 1

def extendFreely (operand : Reader) (level : Level) (left : Tree) (p : Parsing) : Tree × Parsing :=
  match p.continuation? level with
  | none => (left, p)
  | some binding =>
    let joined := join operand binding left p
    if joined.2.unread < p.unread then extendFreely operand level joined.1 joined.2 else joined
termination_by p.unread

def readFreely (operand : Reader) (level : Level) (p : Parsing) : Tree × Parsing :=
  match readFirst operand p with
  | (none, q) => (.placeholder p.current, q)
  | (some tree, q) => extendFreely operand level tree q

/-- Reads an expression of the given level. That its operands have less text left is only said for the recursion:
`parseFreely_eq` is the same without. -/
def parseFreely (level : Level) (p : Parsing) : Tree × Parsing :=
  if p.nestingExceeded then (.placeholder p.current, p)
  else
    let operand : Reader := fun level q =>
      if q.unread < p.unread then parseFreely level q else (.placeholder q.current, q)
    let read := readFreely operand level p.descend
    (read.1, read.2.ascend)
termination_by p.unread

def expressionFreely (p : Parsing) : Tree × Parsing :=
  let (tree, p) := p.parseFreely .conditional
  let (_, p) := p.consume .endOfInput "Expect end of expression"
  (tree, p)

@[simp] theorem unread_report (error : SyntaxError) (p : Parsing) : (p.report error).unread = p.unread := by
  simp [unread]

theorem unread_advance_le_rest (p : Parsing) : p.advance.unread ≤ 2 * p.scanner.rest.length := by
  unfold unread
  rw [current_advance, scanner_advance]
  split
  · have shorter := p.scanner.length_rest_pull_le
    omega
  · rename_i more
    have shorter := Scanner.length_rest_pull more
    omega

theorem unread_advance_lt {p : Parsing} (live : p.current.kind ≠ .endOfInput) : p.advance.unread < p.unread := by
  have rest := unread_advance_le_rest p
  have here : p.unread = 2 * p.scanner.rest.length + 1 := by simp only [unread, live, ite_false]
  omega

theorem unread_advance_le (p : Parsing) : p.advance.unread ≤ p.unread :=
  Nat.le_trans (unread_advance_le_rest p) (Nat.le_add_right _ _)

structure Onward (p q : Parsing) : Prop where
  unread : q.unread ≤ p.unread
  nestingExceeded : q.nestingExceeded = p.nestingExceeded

namespace Onward

theorem refl (p : Parsing) : Onward p p := ⟨Nat.le_refl _, rfl⟩

theorem trans {p q r : Parsing} (first : Onward p q) (second : Onward q r) : Onward p r :=
  ⟨Nat.le_trans second.unread first.unread, second.nestingExceeded.trans first.nestingExceeded⟩

theorem advance (p : Parsing) : Onward p p.advance := ⟨unread_advance_le p, nestingExceeded_advance p⟩

theorem report (error : SyntaxError) (p : Parsing) : Onward p (p.report error) :=
  ⟨Nat.le_of_eq (unread_report error p), nestingExceeded_report error p⟩

theorem consume (expected : Token.Kind) (message : String) (p : Parsing) :
    Onward p (p.consume expected message).2 := by
  rcases consume_cases expected message p with ⟨_, same⟩ | ⟨_, _, same⟩ | ⟨_, _, same⟩ <;> rw [same]
  · exact refl p
  · exact (⟨Nat.le_refl _, rfl⟩ : Onward p { p with panicking := false }).trans (advance _)
  · exact report _ p

variable {operand : Reader} (inner : ∀ level p, Onward p (operand level p).2)

include inner

theorem readFirst (p : Parsing) : Onward p (readFirst operand p).2 := by
  rcases readFirst_cases operand p with ⟨_, _, same⟩ | ⟨_, _, same⟩ | ⟨_, same⟩ | ⟨_, same⟩ <;> rw [same]
  · exact advance p
  · exact (advance p).trans (report _ _)
  · exact (advance p).trans (inner _ _)
  · exact (advance p).trans (report _ _)

theorem join_advance (binding : Level) (left : Tree) (p : Parsing) :
    Onward p.advance (join operand binding left p).2 := by
  by_cases loose : binding = .conditional
  · subst loose
    rw [join_conditional]
    exact (inner _ _).trans ((consume _ _ _).trans (inner _ _))
  · rw [join_of_ne _ _ _ loose]
    exact inner _ _

theorem join (binding : Level) (left : Tree) (p : Parsing) : Onward p (join operand binding left p).2 :=
  (advance p).trans (join_advance inner binding left p)

theorem extendFreely (level : Level) (left : Tree) (p : Parsing) :
    Onward p (extendFreely operand level left p).2 := by
  fun_induction Parsing.extendFreely operand level left p with
  | case1 => exact refl _
  | case2 left p binding _ joined _ ih => exact (join inner binding left p).trans ih
  | case3 left p binding => exact join inner binding left p

theorem readFreely (level : Level) (p : Parsing) : Onward p (readFreely operand level p).2 := by
  have first := readFirst inner p
  unfold Parsing.readFreely
  split
  · rename_i q same
    rwa [same] at first
  · rename_i tree q same
    rw [same] at first
    exact first.trans (extendFreely inner level tree q)

end Onward

theorem onward_parseFreely (level : Level) (p : Parsing) : Onward p (parseFreely level p).2 := by
  fun_induction parseFreely level p with
  | case1 => exact .refl _
  | case2 level p running operand read ih =>
    have inner : ∀ level q, Onward q (operand level q).2 := by
      intro level q
      simp only [operand]
      split
      · exact ih level q ‹_›
      · exact .refl q
    have whole := Onward.readFreely inner level p.descend
    exact ⟨whole.unread, whole.nestingExceeded⟩

theorem extendFreely_of_stop (operand : Reader) {level : Level} (left : Tree) {p : Parsing}
    (stops : p.continuation? level = none) : extendFreely operand level left p = (left, p) := by
  rw [extendFreely, stops]

theorem unread_join_lt {operand : Reader} (inner : ∀ level p, Onward p (operand level p).2)
    {level binding : Level} (left : Tree) {p : Parsing} (next : p.continuation? level = some binding) :
    (join operand binding left p).2.unread < p.unread :=
  Nat.lt_of_le_of_lt (Onward.join_advance inner binding left p).unread
    (unread_advance_lt (live_of_continuation next))

theorem extendFreely_of_next {operand : Reader} (inner : ∀ level p, Onward p (operand level p).2)
    {level binding : Level} (left : Tree) {p : Parsing} (next : p.continuation? level = some binding) :
    extendFreely operand level left p =
      extendFreely operand level (join operand binding left p).1 (join operand binding left p).2 := by
  rw [extendFreely, next]
  simp only [unread_join_lt inner left next, ite_true]

def Alike (bound : Nat) (first second : Reader) : Prop :=
  ∀ level p, p.unread < bound → first level p = second level p

section Alike

variable {first second : Reader} {p : Parsing} (alike : Alike p.unread first second)

include alike

theorem readFirst_congr : readFirst first p = readFirst second p := by
  rcases readFirst_cases first p with ⟨kind, short, same⟩ | ⟨kind, long, same⟩ | ⟨kind, same⟩ | ⟨kind, same⟩ <;>
    rw [same]
  · rw [readFirst_of_number second kind short]
  · rw [readFirst_of_long second kind long]
  · have shorter := unread_advance_lt (Token.Kind.ne_of_sign kind).1
    rw [readFirst_of_sign second kind, alike _ _ shorter]
  · rw [readFirst_of_foreign second kind]

theorem join_congr (inner : ∀ level p, Onward p (first level p).2) (binding : Level) (left : Tree)
    (live : p.current.kind ≠ .endOfInput) : join first binding left p = join second binding left p := by
  have shorter := unread_advance_lt live
  by_cases loose : binding = .conditional
  · subst loose
    rw [join_conditional, join_conditional, ← alike _ _ shorter]
    have divided := (inner .conditional p.advance).trans (Onward.consume .colon dividerMessage _)
    simp only [alike _ _ (Nat.lt_of_le_of_lt divided.unread shorter)]
  · rw [join_of_ne _ _ _ loose, join_of_ne _ _ _ loose, alike _ _ shorter]

end Alike

theorem extendFreely_congr {first second : Reader} (inner : ∀ level p, Onward p (first level p).2)
    (level : Level) (left : Tree) {p : Parsing} (alike : Alike p.unread first second) :
    extendFreely first level left p = extendFreely second level left p := by
  fun_induction extendFreely first level left p with
  | case1 left p stops => rw [extendFreely_of_stop second left stops]
  | case2 left p binding next joined shorter ih =>
    have same : joined = join second binding left p :=
      join_congr alike inner binding left (live_of_continuation next)
    rw [extendFreely.eq_def second, next]
    simp only [← same, shorter, ite_true]
    exact ih fun level q below => alike level q (Nat.lt_trans below shorter)
  | case3 left p binding next joined longer =>
    exact absurd (unread_join_lt inner left next) longer

theorem readFreely_congr {first second : Reader} (inner : ∀ level p, Onward p (first level p).2)
    (level : Level) {p : Parsing} (alike : Alike p.unread first second) :
    readFreely first level p = readFreely second level p := by
  have follows := Onward.readFirst inner p
  unfold readFreely
  rw [← readFirst_congr alike]
  split
  · rfl
  · rename_i tree q same
    rw [same] at follows
    exact extendFreely_congr inner level tree fun level r below =>
      alike level r (Nat.lt_of_lt_of_le below follows.unread)

theorem parseFreely_eq (level : Level) (p : Parsing) :
    parseFreely level p =
      if p.nestingExceeded then (.placeholder p.current, p)
      else
        ((readFreely parseFreely level p.descend).1, (readFreely parseFreely level p.descend).2.ascend) := by
  have alike : Alike p.descend.unread parseFreely
      fun level q => if q.unread < p.unread then parseFreely level q else (.placeholder q.current, q) :=
    fun level q below => (if_pos below).symm
  rw [parseFreely, readFreely_congr onward_parseFreely level alike]

end Arith.Parsing
