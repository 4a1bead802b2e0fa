import Arith.Diagnostic
import Arith.Scanner

namespace Arith

inductive ErrorCode where
  | unexpectedCharacter
  | expectedToken
  | expectedExpression
  | trailingInput
  | numberTooLarge
  | nestedTooDeeply
  deriving DecidableEq, Repr

namespace ErrorCode

def label : ErrorCode → String
  | unexpectedCharacter => "L001"
  | expectedToken => "P001"
  | expectedExpression => "P002"
  | trailingInput => "P003"
  | numberTooLarge => "P004"
  | nestedTooDeeply => "P005"

def description : ErrorCode → String
  | unexpectedCharacter => Arith.unexpectedCharacter
  | expectedToken => "Expected token not found"
  | expectedExpression => "Expected expression"
  | trailingInput => "Trailing input after expression"
  | numberTooLarge => "Number literal too large"
  | nestedTooDeeply => "Expression nested too deeply"

def lexical : List ErrorCode := [unexpectedCharacter]

def syntactic : List ErrorCode :=
  [expectedToken, expectedExpression, trailingInput, numberTooLarge, nestedTooDeeply]

end ErrorCode

inductive SyntaxError.Cause where
  /-- The scanner could make nothing of the text; the token holds the message. -/
  | lexical
  | missing (expected : Token.Kind) (message : String)
  | expectedExpression
  | numberTooLarge
  | nestedTooDeeply (limit : Int)
  deriving DecidableEq, Repr

structure SyntaxError where
  cause : SyntaxError.Cause
  token : Token
  deriving DecidableEq, Repr

def Token.Kind.remedies : Token.Kind → List String
  | .colon => ["Add a colon ':' followed by the false branch"]
  | .endOfInput => ["Remove the trailing input", "Join the operands with an operator such as '+'"]
  | _ => []

/-- Where a complaint about a token points, in the words that follow "Error". The message of an invalid token
needs none. -/
def Token.place (t : Token) : String :=
  match t.kind with
  | .invalid => ""
  | .endOfInput => " at end"
  | _ => " at '" ++ t.lexeme ++ "'"

structure Complaint where
  diagnostic : Diagnostic
  token : Option Token
  deriving DecidableEq, Repr

def Complaint.brief (c : Complaint) : String :=
  "Error" ++ (c.token.map Token.place).getD "" ++ ": " ++ c.diagnostic.message

namespace SyntaxError

def location (e : SyntaxError) : Location := e.token.location

def code? (e : SyntaxError) : Option ErrorCode :=
  match e.cause with
  | .lexical => ErrorCode.lexical.find? (·.description = e.token.lexeme)
  | .missing .endOfInput _ => some .trailingInput
  | .missing _ _ => some .expectedToken
  | .expectedExpression => some .expectedExpression
  | .numberTooLarge => some .numberTooLarge
  | .nestedTooDeeply _ => some .nestedTooDeeply

def message (e : SyntaxError) : String :=
  match e.cause with
  | .lexical => e.token.lexeme
  | .missing _ message => message
  | .expectedExpression => "Expect an expression"
  | .numberTooLarge => ErrorCode.numberTooLarge.description
  | .nestedTooDeeply _ => ErrorCode.nestedTooDeeply.description

def help (e : SyntaxError) : String :=
  match e.cause with
  | .lexical => "Only digits, whitespace and the characters + - * / ! ? : are allowed."
  | .missing expected _ =>
    "The parser expected to see " ++ expected.label ++ " here, but found " ++ e.token.kind.label ++ " instead."
  | .expectedExpression => "An expression starts with a number, '-' or '!'."
  | .numberTooLarge =>
    "The literal has " ++ toString e.token.lexeme.length ++ " digits, more than the interpreter converts."
  | .nestedTooDeeply limit => "Operators may nest at most " ++ toString limit ++ " levels deep."

/-- Some causes offer no suggestions; a missing token offers a list that may be empty. -/
def suggestions? (e : SyntaxError) : Option (List String) :=
  match e.cause with
  | .lexical | .numberTooLarge => none
  | .missing expected _ => some expected.remedies
  | .expectedExpression => some ["Check that every operator has operands"]
  | .nestedTooDeeply _ => some ["Split the expression into smaller parts"]

def diagnostic (e : SyntaxError) : Diagnostic where
  severity := "error"
  code := e.code?.map ErrorCode.label
  message := e.message
  location := e.location
  help := some e.help
  suggestions := e.suggestions?

def complaint (e : SyntaxError) : Complaint := ⟨e.diagnostic, some e.token⟩

def brief (e : SyntaxError) : String := e.complaint.brief

end SyntaxError

end Arith
