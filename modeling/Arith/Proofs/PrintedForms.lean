import Arith.Proofs.Numerals
import Arith.Tree.Printer

namespace Arith

namespace Tree

/-- A tree without its places: the nodes with their values, the words of their operators and their operands. -/
inductive Form where
  | error
  | number (value : Int)
  | unary (operator : String) (operand : Form)
  | binary (operator : String) (left right : Form)
  | ternary (condition whenTrue whenFalse : Form)
  deriving DecidableEq, Repr

def form : Tree → Form
  | error _ => .error
  | number value _ => .number value
  | unary operator operand _ => .unary operator.lexeme operand.form
  | binary operator left right _ => .binary operator.lexeme left.form right.form
  | ternary condition whenTrue whenFalse _ => .ternary condition.form whenTrue.form whenFalse.form

def operatorWords : List String := ["+", "-", "*", "/", "!"]

def Worded : Tree → Prop
  | error _ | number _ _ => True
  | unary operator operand _ => operator.lexeme ∈ operatorWords ∧ operand.Worded
  | binary operator left right _ => operator.lexeme ∈ operatorWords ∧ left.Worded ∧ right.Worded
  | ternary condition whenTrue whenFalse _ => condition.Worded ∧ whenTrue.Worded ∧ whenFalse.Worded

def headWord? : Tree → Option String
  | error _ | number _ _ => none
  | unary operator _ _ | binary operator _ _ _ => some operator.lexeme
  | ternary _ _ _ _ => some "?:"

theorem children_induction {motive : Tree → Prop} (step : ∀ t, (∀ child ∈ t.children, motive child) → motive t)
    (t : Tree) : motive t := by
  induction t with
  | error | number => exact step _ nofun
  | unary operator operand span ih => exact step _ (by simpa [children] using ih)
  | binary operator left right span leftIh rightIh => exact step _ (by simpa [children] using ⟨leftIh, rightIh⟩)
  | ternary condition whenTrue whenFalse span conditionIh trueIh falseIh =>
    exact step _ (by simpa [children] using ⟨conditionIh, trueIh, falseIh⟩)

theorem Worded.children {t : Tree} (worded : t.Worded) : ∀ child ∈ t.children, child.Worded := by
  cases t with
  | error | number => exact nofun
  | unary => simpa [Tree.children] using worded.2
  | binary => simpa [Tree.children] using worded.2
  | ternary => simpa [Tree.children, Worded] using worded

theorem Worded.headWord {t : Tree} {word : String} (worded : t.Worded) (head : t.headWord? = some word) :
    ∀ c ∈ word.toList, (c != ' ') = true := by
  have known : word ∈ "?:" :: operatorWords := by
    cases t with
    | error | number => cases head
    | unary | binary =>
      cases head
      exact List.mem_cons_of_mem _ worded.1
    | ternary =>
      cases head
      exact List.mem_cons_self
  have plain : ("?:" :: operatorWords).all (·.toList.all (· != ' ')) = true := by decide
  exact List.all_eq_true.mp (List.all_eq_true.mp plain word known)

/-- Nodes with the same word and operands of the same forms have the same form: how many operands there are tells
an operator with one from one with two. -/
theorem form_congr {t u : Tree} {word : String} (head : t.headWord? = some word) (head' : u.headWord? = some word)
    (operands : t.children.map form = u.children.map form) : t.form = u.form := by
  cases t <;> cases u <;> simp_all [headWord?, children, form]

theorem print_eq_of_form {t u : Tree} (same : t.form = u.form) : t.print = u.print := by
  induction t generalizing u with
  | error span => cases u <;> simp_all [form, print]
  | number value span => cases u <;> simp_all [form, print]
  | unary operator operand span ih =>
    cases u with
    | unary operator' operand' span' =>
      obtain ⟨word, below⟩ := Form.unary.inj same
      rw [print, print, word, ih below]
    | _ => cases same
  | binary operator left right span leftIh rightIh =>
    cases u with
    | binary operator' left' right' span' =>
      obtain ⟨word, first, second⟩ := Form.binary.inj same
      rw [print, print, word, leftIh first, rightIh second]
    | _ => cases same
  | ternary condition whenTrue whenFalse span conditionIh trueIh falseIh =>
    cases u with
    | ternary condition' whenTrue' whenFalse' span' =>
      obtain ⟨first, second, third⟩ := Form.ternary.inj same
      rw [print, print, conditionIh first, trueIh second, falseIh third]
    | _ => cases same

def printOperands (operands : List Tree) : List Char := operands.flatMap fun t => ' ' :: t.print.toList

theorem toList_print_of_headWord {t : Tree} {word : String} (head : t.headWord? = some word) :
    t.print.toList = '(' :: (word.toList ++ (printOperands t.children ++ [')'])) := by
  cases t with
  | error | number => cases head
  | unary | binary | ternary =>
    cases head
    simp [print, printOperands, children]

theorem spaced_operands {t : Tree} {word : String} (head : t.headWord? = some word) {behind : List Char} :
    ∀ c ∈ (printOperands t.children ++ behind).head?, (c != ' ') = false := by
  cases t with
  | error | number => cases head
  | unary | binary | ternary => simp [printOperands, children]

/-- What may stand behind a printed tree. -/
def Closes (behind : List Char) : Prop := ∀ c ∈ behind.head?, c = ' ' ∨ c = ')'

theorem closes_operands (operands : List Tree) (behind : List Char) :
    Closes (printOperands operands ++ ')' :: behind) := by
  cases operands <;> simp [Closes, printOperands]

theorem Closes.not_numeral {behind : List Char} (closes : Closes behind) :
    ∀ c ∈ behind.head?, isNumeral c = false := by
  intro c first
  rcases closes c first with rfl | rfl <;> rfl

/-- Whatever is printed like `t` and something behind it has the form of `t`, and the same behind it. -/
def EndsAlike (t : Tree) : Prop :=
  ∀ (u : Tree) (behind behind' : List Char), u.Worded → Closes behind → Closes behind' →
    t.print.toList ++ behind = u.print.toList ++ behind' → t.form = u.form ∧ behind = behind'

theorem printOperands_front {operands operands' : List Tree} {behind behind' : List Char}
    (alike : ∀ t ∈ operands, t.EndsAlike) (worded : ∀ u ∈ operands', u.Worded)
    (same : printOperands operands ++ ')' :: behind = printOperands operands' ++ ')' :: behind') :
    operands.map form = operands'.map form ∧ behind = behind' := by
  induction operands generalizing operands' with
  | nil =>
    cases operands' with
    | nil => simpa [printOperands] using same
    | cons u operands' => simp [printOperands] at same
  | cons t operands ih =>
    cases operands' with
    | nil => simp [printOperands] at same
    | cons u operands' =>
      obtain ⟨first, others⟩ := List.forall_mem_cons.mp alike
      obtain ⟨first', others'⟩ := List.forall_mem_cons.mp worded
      have texts : t.print.toList ++ (printOperands operands ++ ')' :: behind) =
          u.print.toList ++ (printOperands operands' ++ ')' :: behind') := by
        simpa [printOperands] using same
      obtain ⟨form, rest⟩ := first u _ _ first' (closes_operands _ _) (closes_operands _ _) texts
      obtain ⟨forms, rest⟩ := ih others others' rest
      exact ⟨by rw [List.map_cons, List.map_cons, form, forms], rest⟩

inductive Printed (t : Tree) : Prop where
  | error (form : t.form = .error) (text : t.print.toList = '<' :: "error>".toList)
  | number (value : Int) (form : t.form = .number value) (text : t.print.toList = (toString value).toList)
  | operation (word : String) (head : t.headWord? = some word)
      (text : t.print.toList = '(' :: (word.toList ++ (printOperands t.children ++ [')'])))

theorem printed (t : Tree) : t.Printed := by
  cases t with
  | error => exact .error rfl (by simp [print])
  | number value => exact .number value rfl rfl
  | unary | binary | ternary => exact .operation _ rfl (toList_print_of_headWord rfl)

theorem cons_ne_numeral {c : Char} {value : Int} {text behind : List Char} (other : isNumeral c = false) :
    c :: text ≠ (toString value).toList ++ behind := by
  intro same
  have numeral := isNumeral_head value behind c (by rw [← same]; rfl)
  rw [other] at numeral
  cases numeral

theorem endsAlike {t : Tree} (worded : t.Worded) : t.EndsAlike := by
  induction t using children_induction with
  | step t ih =>
    intro u behind behind' worded' closes closes' same
    cases t.printed with
    | error form text =>
      cases u.printed with
      | error form' text' =>
        rw [text, text'] at same
        exact ⟨form.trans form'.symm, List.append_cancel_left same⟩
      | number value form' text' =>
        rw [text, text'] at same
        exact absurd same (cons_ne_numeral rfl)
      | operation word head text' =>
        rw [text, text'] at same
        cases same
    | number value form text =>
      cases u.printed with
      | error form' text' =>
        rw [text, text'] at same
        exact absurd same.symm (cons_ne_numeral rfl)
      | number value' form' text' =>
        rw [text, text'] at same
        obtain ⟨rfl, rest⟩ := numeral_front closes.not_numeral closes'.not_numeral same
        exact ⟨form.trans form'.symm, rest⟩
      | operation word head text' =>
        rw [text, text'] at same
        exact absurd same.symm (cons_ne_numeral rfl)
    | operation word head text =>
      cases u.printed with
      | error form' text' =>
        rw [text, text'] at same
        cases same
      | number value form' text' =>
        rw [text, text'] at same
        exact absurd same (cons_ne_numeral rfl)
      | operation word' head' text' =>
        rw [text, text'] at same
        simp only [List.cons_append, List.append_assoc, List.nil_append, List.cons.injEq, true_and] at same
        -- the word ends at the space in front of the first operand
        obtain ⟨words, rest⟩ := front_unique (worded.headWord head) (worded'.headWord head')
          (spaced_operands head) (spaced_operands head') same
        obtain rfl := String.toList_injective words
        obtain ⟨operands, rest⟩ := printOperands_front (fun child member => ih child member (worded.children child member))
          worded'.children rest
        exact ⟨form_congr head head' operands, rest⟩

/-- Trees that are printed alike differ in nothing but the places of their parts and the kinds of their tokens. -/
theorem print_eq_iff_form {t u : Tree} (worded : t.Worded) (worded' : u.Worded) :
    t.print = u.print ↔ t.form = u.form := by
  constructor
  · intro same
    have closes : Closes [] := nofun
    exact (endsAlike worded u [] [] worded' closes closes (by rw [same])).1
  · exact print_eq_of_form

theorem print_eq_iff_form_elsewhere :
    let here : Span := .point (Position.origin.inText "here")
    let there : Span := ⟨⟨"there", 3, 1, 8⟩, ⟨"there", 3, 9, 16⟩⟩
    let t : Tree := .ternary (.unary ⟨.minus, "-", here.start⟩ (.number (-1) here) here) (.error here) (.number 2 here) here
    let u : Tree :=
      .ternary (.unary ⟨.bang, "-", there.stop⟩ (.number (-1) there) there) (.error here) (.number 2 there) there
    t.Worded ∧ u.Worded ∧ t ≠ u ∧ t.print = u.print ∧ t.form = u.form := by
  intro here there t u
  have worded : t.Worded := by simp [t, Worded, operatorWords]
  have worded' : u.Worded := by simp [u, Worded, operatorWords]
  have same : t.print = u.print := by simp [t, u, print]
  exact ⟨worded, worded', by decide, same, (print_eq_iff_form worded worded').mp same⟩

end Tree

end Arith
