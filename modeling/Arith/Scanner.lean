import Arith.Token

namespace Arith

def digits : List Char := ['0', '1', '2', '3', '4', '5', '6', '7', '8', '9']

def whitespace : List Char := ['\t', '\n', '\r', ' ']

def isDigit (c : Char) : Bool := digits.contains c

def isWhitespace (c : Char) : Bool := whitespace.contains c

def unexpectedCharacter : String := "Unexpected character"

structure Scanner where
  filename : String
  rest : List Char
  position : Position
  tokenStart : Nat
  deriving DecidableEq, Repr

namespace Scanner

def ofSource (source filename : String) : Scanner := ⟨filename, source.toList, .origin, 0⟩

def AtEnd (s : Scanner) : Prop := s.rest = []

instance (s : Scanner) : Decidable s.AtEnd :=
  match h : s.rest with
  | [] => isTrue h
  | _ :: _ => isFalse (by simp [AtEnd, h])

def peek? (s : Scanner) : Option Char := s.rest.head?

def readWhile (p : Char → Bool) (s : Scanner) : Scanner :=
  { s with rest := s.rest.dropWhile p, position := s.position.after (s.rest.takeWhile p) }

def skipWhitespace : Scanner → Scanner := readWhile isWhitespace

def advance? (s : Scanner) : Option (Char × Scanner) :=
  match s.rest with
  | [] => none
  | c :: rest => some (c, { s with rest, position := s.position.step c })

def readToken (s : Scanner) : Token × Scanner :=
  let s := { s with tokenStart := s.position.offset }
  let here := s.position.inText s.filename
  match s.rest with
  | [] => (⟨.endOfInput, "", here⟩, s)
  | c :: rest =>
    let behind := { s with rest, position := s.position.step c }
    if isDigit c then
      (⟨.number, String.ofList (c :: rest.takeWhile isDigit), here⟩, behind.readWhile isDigit)
    else
      match Token.Kind.ofOperator? c with
      | some kind => (⟨kind, String.ofList [c], here⟩, behind)
      | none => (⟨.invalid, unexpectedCharacter, here⟩, behind)

def scan (s : Scanner) : Token × Scanner := s.skipWhitespace.readToken

theorem length_dropWhile_le (p : Char → Bool) (text : List Char) :
    (text.dropWhile p).length ≤ text.length :=
  (List.dropWhile_sublist p).length_le

theorem length_rest_readToken (s : Scanner) :
    s.readToken.1.kind = .endOfInput ∧ s.readToken.2.rest = s.rest ∧ s.rest = [] ∨
      s.readToken.1.kind ≠ .endOfInput ∧ s.readToken.2.rest.length < s.rest.length := by
  unfold readToken
  cases empty : s.rest with
  | nil => simp
  | cons c rest =>
    right
    by_cases digit : isDigit c = true
    · have shorter := length_dropWhile_le isDigit rest
      simp only [digit, ite_true, readWhile, List.length_cons]
      exact ⟨by decide, by omega⟩
    · cases operator : Token.Kind.ofOperator? c with
      | none => simp [digit, operator]
      | some kind => simp [digit, operator, (Token.Kind.ne_special operator).1]

theorem length_rest_scan {s : Scanner} (more : s.scan.1.kind ≠ .endOfInput) :
    s.scan.2.rest.length < s.rest.length := by
  have skipped := length_dropWhile_le isWhitespace s.rest
  rcases length_rest_readToken s.skipWhitespace with stop | read
  · exact absurd stop.1 more
  · have shorter := read.2
    simp only [skipWhitespace, readWhile] at shorter
    simp only [scan, skipWhitespace, readWhile] at *
    omega

def tokenizeOnto (found : Array Token) (s : Scanner) : Array Token × Scanner :=
  let read := s.scan
  if _ : read.1.kind = .endOfInput then (found.push read.1, read.2)
  else tokenizeOnto (found.push read.1) read.2
termination_by s.rest.length
decreasing_by exact length_rest_scan ‹_›

def tokenize (s : Scanner) : Array Token × Scanner := s.tokenizeOnto #[]

/-- A token together with the invalid tokens that were passed over to reach it. -/
structure Pull where
  passed : Array Token
  token : Token
  scanner : Scanner
  deriving DecidableEq, Repr

def pullOnto (passed : Array Token) (s : Scanner) : Pull :=
  let read := s.scan
  if _ : read.1.kind = .invalid then pullOnto (passed.push read.1) read.2
  else ⟨passed, read.1, read.2⟩
termination_by s.rest.length
decreasing_by exact length_rest_scan (fun stop => nomatch (‹_ = Token.Kind.invalid›).symm.trans stop)

def pull (s : Scanner) : Pull := s.pullOnto #[]

end Scanner

def tokenize (source filename : String) : Array Token := (Scanner.ofSource source filename).tokenize.1

end Arith
