import ElementFinder.Decimal.Reading
import ElementFinder.XPath.Expression

/-!
# Tokens of path expressions

A text is cut into tokens from left to right with blanks around them.  Names of operators
are only looked for where an operator may stand, and they need no blank after them.
Abbreviations become the tokens that they stand for.
-/

namespace ElementFinder.XPath

/-- A token. -/
inductive Token where
  | openParen
  | closeParen
  | openBracket
  | closeBracket
  | comma
  | slash
  | operator (operator : Operator)
  | axis (axis : Axis)
  | test (test : NodeTest)
  | function (name : String)
  | literal (content : String)
  | number (value : Binary64)
  | variable (name : String)
deriving DecidableEq

/-- Whether the name of an operator may follow a token. -/
def Token.endsOperand : Token → Bool
  | openParen | openBracket | slash | operator _ | axis _ => false
  | _ => true

namespace Lexing

/-- The blanks between tokens. -/
def isSpace (c : Char) : Bool :=
  c = ' ' || c = '\t' || c = '\r' || c = '\n'

/-- The code points at which a name may start. -/
def nameStartRanges : List (Nat × Nat) :=
  [(0x41, 0x5A), (0x5F, 0x5F), (0x61, 0x7A), (0xC0, 0xD6), (0xD8, 0xF6), (0xF8, 0x2FF),
   (0x370, 0x37D), (0x37F, 0x1FFF), (0x200C, 0x200D), (0x2070, 0x218F), (0x2C00, 0x2FEF),
   (0x3001, 0xD7FF), (0xF900, 0xFDCF), (0xFDF0, 0xFFFD), (0x10000, 0xEFFFF)]

/-- The further code points that a name may hold. -/
def nameRanges : List (Nat × Nat) :=
  [(0x2D, 0x2E), (0x30, 0x39), (0xB7, 0xB7), (0x300, 0x36F), (0x203F, 0x2040)]

/-- Whether a code point lies in one of some ranges. -/
def inRanges (ranges : List (Nat × Nat)) (c : Char) : Bool :=
  ranges.any fun (low, high) => low ≤ c.toNat && c.toNat ≤ high

/-- Takes a name off the front of a text. -/
def takeName? : List Char → Option (String × List Char)
  | [] => none
  | c :: rest =>
    if inRanges nameStartRanges c then
      let more (c : Char) : Bool := inRanges nameStartRanges c || inRanges nameRanges c
      some (String.ofList (c :: rest.takeWhile more), rest.dropWhile more)
    else none

/-- Takes a word off the front of a text. -/
def takeWord? (word : String) (cs : List Char) : Option (List Char) :=
  if word.toList.isPrefixOf cs then some (cs.drop word.length) else none

/-- The first of some words at the front of a text. -/
def takeOneOf? {α : Type} (words : List (String × α)) (cs : List Char) :
    Option (α × List Char) :=
  words.findSome? fun (word, a) => (takeWord? word cs).map (a, ·)

/-- The step that `//` stands for. -/
def anyLevel : List Token :=
  [.slash, .axis .descendantOrSelf, .test .anyNode, .slash]

/-- The symbols, longer ones first. -/
def symbols : List (String × List Token) :=
  [("<=", [.operator .lessEqual]), (">=", [.operator .greaterEqual]),
   ("!=", [.operator .notEqual]), ("//", anyLevel), ("..", [.axis .parent, .test .anyNode]),
   ("(", [.openParen]), (")", [.closeParen]), ("[", [.openBracket]), ("]", [.closeBracket]),
   ("@", [.axis .attribute]), ("/", [.slash]), ("|", [.operator .union]),
   ("+", [.operator .plus]), ("-", [.operator .minus]), ("=", [.operator .equal]),
   ("<", [.operator .less]), (">", [.operator .greater]), (",", [.comma])]

/-- The operators that are written as words. -/
def operatorNames : List (String × Operator) :=
  [("and", .and), ("or", .or), ("mod", .mod), ("div", .div), ("*", .times)]

/-- The tests that look like calls. -/
def kindTests : List (String × NodeTest) :=
  [("comment()", .missingKind), ("text()", .missingKind), ("node()", .anyNode),
   ("processing-instruction()", .missingKind)]

/-- A literal between quotation marks of one kind. -/
def takeLiteral? : List Char → Option (String × List Char)
  | [] => none
  | quote :: rest =>
    if quote = '"' || quote = '\x27' then
      match rest.dropWhile (· != quote) with
      | [] => none
      | _ :: after => some (String.ofList (rest.takeWhile (· != quote)), after)
    else none

/-- A number: digits with an optional fraction, or a fraction alone. -/
def takeNumber? (cs : List Char) : Option (Binary64 × List Char) :=
  let whole := cs.takeWhile isDigit
  let rest := cs.dropWhile isDigit
  let (digits, rest) :=
    match rest with
    | '.' :: rest => (whole ++ '.' :: rest.takeWhile isDigit, rest.dropWhile isDigit)
    | rest => (whole, rest)
  (Binary64.ofNumeral? digits).map (·, rest)

/-- A processing instruction test with a target. -/
def takeInstruction? (cs : List Char) : Option (List Char) := do
  let rest ← takeWord? "processing-instruction(" cs
  let (_, rest) ← takeLiteral? rest
  takeWord? ")" rest

/-- An axis with the two colons after it. -/
def takeAxis? (cs : List Char) : Option (Axis × List Char) :=
  Axis.names.findSome? fun (name, axis) =>
    ((takeWord? name cs).bind (takeWord? "::")).map (axis, ·)

/-- A name with what it means where it stands: a function before a parenthesis, else a
test. -/
def takeNamed? (cs : List Char) : Option (Token × List Char) :=
  match takeName? cs with
  | some (name, '(' :: rest) => some (.function name, '(' :: rest)
  | some (name, rest) => some (.test (.named name), rest)
  | none => none

/-- A variable. -/
def takeVariable? : List Char → Option (Token × List Char)
  | '$' :: rest => (takeName? rest).map fun (name, rest) => (.variable name, rest)
  | _ => none

/-- Takes a token off the front of a text; `operand` tells that an operand ends before
it. -/
def takeToken? (operand : Bool) (cs : List Char) : Option (List Token × List Char) :=
  let one (t : Option (Token × List Char)) : Option (List Token × List Char) :=
    t.map fun (t, rest) => ([t], rest)
  takeOneOf? symbols cs
    <|> one ((takeLiteral? cs).map fun (s, rest) => (.literal s, rest))
    <|> one ((takeNumber? cs).map fun (x, rest) => (.number x, rest))
    <|> takeOneOf? [(".", [.axis .self, .test .anyNode])] cs
    <|> (if operand then
          one ((takeOneOf? operatorNames cs).map fun (op, rest) => (.operator op, rest))
        else none)
    <|> one ((takeAxis? cs).map fun (axis, rest) => (.axis axis, rest))
    <|> one ((takeOneOf? kindTests cs).map fun (t, rest) => (.test t, rest))
    <|> one ((takeInstruction? cs).map fun rest => (.test .missingKind, rest))
    <|> takeOneOf? [("*", [.test .anyName])] cs
    <|> one (takeNamed? cs)
    <|> one (takeVariable? cs)

/-- Cuts a text into tokens. -/
def tokensFrom : (fuel : Nat) → (operand : Bool) → List Char → Option (List Token)
  | 0, _, _ => none
  | _ + 1, _, [] => some []
  | fuel + 1, operand, cs =>
    match takeToken? operand (cs.dropWhile isSpace) with
    | none => none
    | some (tokens, rest) =>
      let operand := ((tokens.getLast?).map Token.endsOperand).getD operand
      (tokensFrom fuel operand (rest.dropWhile isSpace)).map (tokens ++ ·)

end Lexing

/-- The tokens of a text, unless some part of it is none. -/
def Token.ofText? (text : String) : Option (List Token) :=
  Lexing.tokensFrom (text.length + 1) false text.toList

end ElementFinder.XPath
