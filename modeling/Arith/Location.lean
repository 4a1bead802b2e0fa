import Arith.Text.Quoted

namespace Arith

/-- A cursor between two characters. Lines and columns count from one, offsets from zero. -/
structure Position where
  offset : Nat
  line : Nat
  column : Nat
  deriving DecidableEq, Repr

namespace Position

def origin : Position := ⟨0, 1, 1⟩

/-- The position behind `c`. Only a line feed opens a line; a carriage return is one column wide. -/
def step (p : Position) (c : Char) : Position :=
  if c = '\n' then ⟨p.offset + 1, p.line + 1, 1⟩ else ⟨p.offset + 1, p.line, p.column + 1⟩

def after (p : Position) (text : List Char) : Position := text.foldl step p

@[simp] theorem after_nil (p : Position) : p.after [] = p := rfl

@[simp] theorem after_cons (p : Position) (c : Char) (text : List Char) :
    p.after (c :: text) = (p.step c).after text := rfl

theorem after_append (p : Position) (front back : List Char) :
    p.after (front ++ back) = (p.after front).after back := List.foldl_append

@[simp] theorem offset_step (p : Position) (c : Char) : (p.step c).offset = p.offset + 1 := by
  unfold step
  split <;> rfl

@[simp] theorem offset_after (p : Position) (text : List Char) :
    (p.after text).offset = p.offset + text.length := by
  induction text generalizing p with
  | nil => rfl
  | cons c text ih =>
    rw [after_cons, ih, offset_step, List.length_cons]
    omega

end Position

structure Location where
  filename : String
  line : Int
  column : Int
  offset : Int
  deriving DecidableEq, Repr

namespace Location

def render (l : Location) : String := l.filename ++ ":" ++ toString l.line ++ ":" ++ toString l.column

def describe (l : Location) : String :=
  "SourceLocation(" ++ Text.quoted l.filename ++ ", " ++ toString l.line ++ ", " ++ toString l.column ++ ", " ++
    toString l.offset ++ ")"

end Location

def Position.inText (p : Position) (filename : String) : Location :=
  ⟨filename, p.line, p.column, p.offset⟩

/-- Both ends are locations of tokens, so the last character of a span may lie behind its `stop`. -/
structure Span where
  start : Location
  stop : Location
  deriving DecidableEq, Repr

namespace Span

def point (l : Location) : Span := ⟨l, l⟩

def render (s : Span) : String :=
  if s.start.filename = s.stop.filename then
    s.start.render ++ "-" ++ toString s.stop.line ++ ":" ++ toString s.stop.column
  else s.start.render ++ "-" ++ s.stop.render

end Span

end Arith
