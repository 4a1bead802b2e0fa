import Arith.Scanner

namespace Arith.Scanner

inductive Command where
  | scan
  | tokenize
  | peek
  | advance
  | skip
  | atEnd
  deriving DecidableEq, Repr

inductive Answer where
  | token (token : Token)
  | tokens (tokens : Array Token)
  | next (c : Option Char)
  | pastEnd
  | done
  | flag (value : Bool)
  deriving DecidableEq, Repr

def perform (s : Scanner) : Command → Answer × Scanner
  | .scan => (.token s.scan.1, s.scan.2)
  | .tokenize => (.tokens s.tokenize.1, s.tokenize.2)
  | .peek => (.next s.peek?, s)
  | .advance =>
    match s.advance? with
    | some (c, s) => (.next (some c), s)
    | none => (.pastEnd, s)
  | .skip => (.done, s.skipWhitespace)
  | .atEnd => (.flag s.AtEnd, s)

end Arith.Scanner
