import Arith.Location

namespace Arith

structure Diagnostic where
  severity : String
  code : Option String
  message : String
  location : Location
  help : Option String
  suggestions : Option (List String)
  deriving DecidableEq, Repr

namespace Diagnostic

/-- The severity in ASCII capitals, followed by the code if there is one; an empty code counts as none. -/
def heading (d : Diagnostic) : String :=
  match d.code with
  | none | some "" => d.severity.toUpper
  | some code => d.severity.toUpper ++ "[" ++ code ++ "]"

def suggestionLines : List String → String
  | [] => ""
  | suggestions => "  suggestions:\n" ++ String.join (suggestions.map fun s => "    - " ++ s ++ "\n")

def render (d : Diagnostic) : String :=
  let help :=
    match d.help with
    | none | some "" => ""
    | some help => "  help: " ++ help ++ "\n"
  d.heading ++ ": " ++ d.message ++ "\n" ++ "  --> " ++ d.location.render ++ "\n" ++ help ++
    suggestionLines (d.suggestions.getD [])

end Diagnostic

end Arith
