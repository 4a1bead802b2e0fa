import Arith.Text.DecimalDigit
import Arith.Text.Quoted

namespace Arith.CommandLine

inductive Switch where
  | help
  | expression
  | tokens
  | verbose
  | version
  deriving DecidableEq, Repr

def spellings : List (String × Switch) :=
  [("-h", .help), ("--help", .help), ("-c", .expression), ("--tokens", .tokens), ("--verbose", .verbose),
    ("--version", .version)]

def Switch.title (s : Switch) : String := "/".intercalate ((spellings.filter (·.2 = s)).map (·.1))

/-- What an option is given. The separator `--` attached to an option counts as giving it no words. -/
inductive Operand where
  | text (text : String)
  | noWords
  deriving DecidableEq, Repr

def Operand.ofAttached (text : String) : Operand := if text = "--" then .noWords else .text text

inductive UsageError where
  | missingOperand (switch : Switch)
  | unwantedOperand (switch : Switch) (text : String)
  | ambiguous (word : String) (candidates : List String)
  | unrecognized (words : List String)
  deriving DecidableEq, Repr

def UsageError.message : UsageError → String
  | missingOperand switch => "argument " ++ switch.title ++ ": expected one argument"
  | unwantedOperand switch text =>
    "argument " ++ switch.title ++ ": ignored explicit argument " ++ Text.quoted text
  | ambiguous word candidates =>
    "ambiguous option: " ++ word ++ " could match " ++ ", ".intercalate candidates
  | unrecognized words => "unrecognized arguments: " ++ " ".intercalate words

inductive Word where
  | plain (text : String)
  | separator
  | unknown (text : String)
  /-- A switch, with what follows it in the same word. Only short ones can be run together. -/
  | option (switch : Switch) (short : Bool) (attached : Option String)
  deriving DecidableEq, Repr

/-- A minus sign and a decimal number, whole or with a point before its last digits. A line feed may follow. -/
def isNegativeNumber (word : List Char) : Bool :=
  match word with
  | '-' :: text =>
    let text := if text.getLast? = some '\n' then text.dropLast else text
    let whole := text.takeWhile Text.isDecimalDigit
    match text.dropWhile Text.isDecimalDigit with
    | [] => ¬ whole.isEmpty
    | '.' :: fraction => ¬ fraction.isEmpty ∧ fraction.all Text.isDecimalDigit
    | _ => false
  | _ => false

def splitAtEquals (word : List Char) : List Char × Option (List Char) :=
  match word.dropWhile (· ≠ '=') with
  | [] => (word, none)
  | _ :: behind => (word.takeWhile (· ≠ '='), some behind)

/-- The options that a word may be short for. After two dashes these are the ones that it begins; after
one dash it is the option of its first letter, given the rest of the word. -/
def candidates (word : List Char) : List (String × Word) :=
  match word with
  | '-' :: '-' :: _ =>
    let (front, attached) := splitAtEquals word
    (spellings.filter fun spelling => front.isPrefixOf spelling.1.toList).map fun spelling =>
      (spelling.1, .option spelling.2 false (attached.map String.ofList))
  | '-' :: letter :: rest =>
    (spellings.filter (·.1.toList = ['-', letter])).map fun spelling =>
      (spelling.1, .option spelling.2 true (some (String.ofList rest)))
  | _ => []

def isShort (spelling : String) : Bool := spelling.length = 2

/-- What stands for no option is still taken for one that is unknown, unless it is a negative number or
holds a space. -/
def classify (word : String) : Except UsageError Word :=
  let text := word.toList
  let (front, attached) := splitAtEquals text
  if text.head? ≠ some '-' ∨ text = ['-'] then .ok (.plain word)
  else
    match spellings.lookup word, attached, spellings.lookup (String.ofList front) with
    | some switch, _, _ => .ok (.option switch (isShort word) none)
    | none, some attached, some switch =>
      .ok (.option switch (isShort (String.ofList front)) (some (String.ofList attached)))
    | none, _, _ =>
      match candidates text with
      | [(_, meant)] => .ok meant
      | [] => .ok (if isNegativeNumber text ∨ ' ' ∈ text then .plain word else .unknown word)
      | several => .error (.ambiguous word (several.map (·.1)))

def classifyAll : List String → Except UsageError (List Word)
  | [] => .ok []
  | word :: words =>
    if word = "--" then .ok (.separator :: words.map .plain)
    else do
      let first ← classify word
      let others ← classifyAll words
      return first :: others

structure Bundle where
  others : List Switch
  last : Switch
  attached : Option String
  deriving DecidableEq, Repr

/-- Reads on behind a short switch. One that wants nothing takes the next letter for another switch. -/
def unbundleShort (switch : Switch) : List Char → Except UsageError Bundle
  | [] => .ok ⟨[], switch, none⟩
  | letter :: rest =>
    if switch = .expression then .ok ⟨[], switch, some (String.ofList (letter :: rest))⟩
    else
      match spellings.lookup (String.ofList ['-', letter]) with
      | none => .error (.unwantedOperand switch (String.ofList (letter :: rest)))
      | some next => do
        let bundle ← unbundleShort next rest
        return { bundle with others := switch :: bundle.others }

def unbundle (switch : Switch) (short : Bool) (attached : Option String) : Except UsageError Bundle :=
  match attached with
  | none => .ok ⟨[], switch, none⟩
  | some text =>
    if switch = .expression then .ok ⟨[], switch, some text⟩
    else if short ∧ text ≠ "" then unbundleShort switch text.toList
    else .error (.unwantedOperand switch text)

structure Settings where
  expression : Option Operand
  showTokens : Bool
  verbose : Bool
  deriving DecidableEq, Repr

inductive Request where
  | help
  | version
  | run (settings : Settings)
  deriving DecidableEq, Repr

def applySwitches (settings : Settings) : List Switch → Except Request Settings
  | [] => .ok settings
  | .help :: _ => .error .help
  | .version :: _ => .error .version
  | .tokens :: switches => applySwitches { settings with showTokens := true } switches
  | .verbose :: switches => applySwitches { settings with verbose := true } switches
  | .expression :: switches => applySwitches settings switches

/-- Acts on the words from left to right. Words that nothing wants are an error in the end. -/
def interpret (settings : Settings) (unwanted : List String) : List Word → Except UsageError Request
  | [] => if unwanted.isEmpty then .ok (.run settings) else .error (.unrecognized unwanted)
  | .plain text :: words => interpret settings (unwanted ++ [text]) words
  | .unknown text :: words => interpret settings (unwanted ++ [text]) words
  | .separator :: words => interpret settings (unwanted ++ ["--"]) words
  | .option switch short attached :: words =>
    match unbundle switch short attached, words with
    | .error e, _ => .error e
    | .ok ⟨others, .expression, some text⟩, words =>
      match applySwitches settings others with
      | .error request => .ok request
      | .ok settings => interpret { settings with expression := some (.ofAttached text) } unwanted words
    | .ok ⟨others, .expression, none⟩, .plain text :: words =>
      match applySwitches settings others with
      | .error request => .ok request
      | .ok settings => interpret { settings with expression := some (.text text) } unwanted words
    | .ok ⟨_, .expression, none⟩, _ => .error (.missingOperand .expression)
    | .ok ⟨others, last, _⟩, words =>
      match applySwitches settings (others ++ [last]) with
      | .error request => .ok request
      | .ok settings => interpret settings unwanted words

def read (words : List String) : Except UsageError Request := do
  interpret ⟨none, false, false⟩ [] (← classifyAll words)

end Arith.CommandLine
