import ElementFinder.XPath.Token

/-!
# Reading path expressions

The readers go through the tokens without looking back: each takes what it can use and
returns an expression, or nothing if none starts there, together with the tokens that are
left.  Tokens taken by a reader that then finds no expression stay taken.  What breaks a
text is an operator without a right side, a path that ends in a slash, an empty predicate or
a missing bracket.
-/

namespace ElementFinder.XPath

/-- What a reader returns: nothing for broken text, else what it found and the tokens left. -/
abbrev Parsed (α : Type) := Option (Option α × List Token)

namespace ExprReading

/-- The operators between two operands, from the loosest to the tightest level. -/
def levels : List (List Operator) :=
  [[.or], [.and], [.equal, .notEqual], [.less, .lessEqual, .greater, .greaterEqual],
   [.plus, .minus], [.times, .div, .mod]]

/-- The axis in front of a step; children when none is written. -/
def takeAxis : List Token → Axis × List Token
  | .axis a :: rest => (a, rest)
  | ts => (.child, ts)

mutual

/-- Reads operands with the operators of the given levels between them, to the left first. -/
def readLevel : (fuel : Nat) → List (List Operator) → List Token → Parsed Expr
  | 0, _, _ => none
  | fuel + 1, [], ts => readSigned fuel ts
  | fuel + 1, operators :: tighter, ts =>
    match readLevel fuel tighter ts with
    | some (some left, rest) => readOperands fuel operators tighter left rest
    | other => other

/-- Reads the operators and operands that follow an operand on one level. -/
def readOperands : (fuel : Nat) → (operators : List Operator) → (tighter : List (List Operator)) →
    Expr → List Token → Parsed Expr
  | 0, _, _, _, _ => none
  | fuel + 1, operators, tighter, left, .operator op :: rest =>
    if operators.contains op then
      match readLevel fuel tighter rest with
      | some (some right, rest) =>
        readOperands fuel operators tighter (.binary op left right) rest
      | _ => none
    else some (some left, .operator op :: rest)
  | _ + 1, _, _, left, ts => some (some left, ts)

/-- Reads a union, or a minus sign with what it negates. -/
def readSigned : (fuel : Nat) → List Token → Parsed Expr
  | 0, _ => none
  | fuel + 1, ts =>
    match readUnion fuel ts with
    | some (none, .operator .minus :: rest) =>
      match readSigned fuel rest with
      | some (some e, rest) => some (some (.negate e), rest)
      | _ => none
    | other => other

/-- Reads paths with bars between them. -/
def readUnion : (fuel : Nat) → List Token → Parsed Expr
  | 0, _ => none
  | fuel + 1, ts =>
    match readPath fuel ts with
    | some (some left, rest) => readAlternatives fuel left rest
    | other => other

/-- Reads the bars and paths that follow a path. -/
def readAlternatives : (fuel : Nat) → Expr → List Token → Parsed Expr
  | 0, _, _ => none
  | fuel + 1, left, .operator .union :: rest =>
    match readPath fuel rest with
    | some (some right, rest) => readAlternatives fuel (.binary .union left right) rest
    | _ => none
  | _ + 1, left, ts => some (some left, ts)

/-- Reads a path from the context node, a path from the root, or another value with steps
after it. -/
def readPath : (fuel : Nat) → List Token → Parsed Expr
  | 0, _ => none
  | fuel + 1, ts =>
    match readSteps fuel ts with
    | none => none
    | some (some steps, rest) => some (some (.path .context steps), rest)
    | some (none, .slash :: rest) =>
      match readSteps fuel rest with
      | none => none
      | some (some steps, rest) => some (some (.path .root steps), rest)
      | some (none, rest) => some (some .root, rest)
    | some (none, ts) =>
      match readPrimary fuel ts with
      | none => none
      | some (none, rest) => some (none, rest)
      | some (some e, rest) =>
        match readPredicates fuel rest with
        | none => none
        | some (predicates, .slash :: rest) =>
          match readSteps fuel rest with
          | some (some steps, rest) =>
            some (some (.path (predicates.foldl .filter e) steps), rest)
          | _ => none
        | some (predicates, rest) => some (some (predicates.foldl .filter e), rest)

/-- Reads steps with slashes between them. -/
def readSteps : (fuel : Nat) → List Token → Parsed (List Step)
  | 0, _ => none
  | fuel + 1, ts =>
    match readStep fuel ts with
    | none => none
    | some (none, rest) => some (none, rest)
    | some (some step, .slash :: rest) =>
      match readSteps fuel rest with
      | some (some steps, rest) => some (some (step :: steps), rest)
      | _ => none
    | some (some step, rest) => some (some [step], rest)

/-- Reads a step. -/
def readStep : (fuel : Nat) → List Token → Parsed Step
  | 0, _ => none
  | fuel + 1, ts =>
    let (axis, rest) := takeAxis ts
    match rest with
    | .test t :: rest =>
      match readPredicates fuel rest with
      | none => none
      | some (predicates, rest) => some (some (.mk axis t predicates), rest)
    | rest => some (none, rest)

/-- Reads the predicates that stand next. -/
def readPredicates : (fuel : Nat) → List Token → Option (List Expr × List Token)
  | 0, _ => none
  | fuel + 1, .openBracket :: rest =>
    match readLevel fuel levels rest with
    | some (some e, .closeBracket :: rest) =>
      match readPredicates fuel rest with
      | some (more, rest) => some (e :: more, rest)
      | none => none
    | _ => none
  | _ + 1, ts => some ([], ts)

/-- Reads a variable, an expression in parentheses, a literal, a number or a call. -/
def readPrimary : (fuel : Nat) → List Token → Parsed Expr
  | 0, _ => none
  | _ + 1, .variable name :: rest => some (some (.variable name), rest)
  | fuel + 1, .openParen :: rest =>
    match readLevel fuel levels rest with
    | some (some e, .closeParen :: rest) => some (some e, rest)
    | some (none, .closeParen :: rest) => readValue fuel rest
    | _ => none
  | fuel + 1, ts => readValue fuel ts

/-- Reads a literal, a number or a call. -/
def readValue : (fuel : Nat) → List Token → Parsed Expr
  | 0, _ => none
  | _ + 1, .literal s :: rest => some (some (.literal s), rest)
  | _ + 1, .number x :: rest => some (some (.number x), rest)
  | fuel + 1, .function name :: .openParen :: rest =>
    match readArguments fuel rest with
    | some (arguments, .closeParen :: rest) => some (some (.call name arguments), rest)
    | _ => none
  | _ + 1, ts => some (none, ts)

/-- Reads the arguments of a call; there may be none. -/
def readArguments : (fuel : Nat) → List Token → Option (List Expr × List Token)
  | 0, _ => none
  | fuel + 1, ts =>
    match readLevel fuel levels ts with
    | none => none
    | some (none, rest) => some ([], rest)
    | some (some e, rest) => (readMore fuel rest).map fun (more, rest) => (e :: more, rest)

/-- Reads further arguments, each after a comma. -/
def readMore : (fuel : Nat) → List Token → Option (List Expr × List Token)
  | 0, _ => none
  | fuel + 1, .comma :: rest =>
    match readLevel fuel levels rest with
    | some (some e, rest) => (readMore fuel rest).map fun (more, rest) => (e :: more, rest)
    | _ => none
  | _ + 1, ts => some ([], ts)

end

end ExprReading

/-- How a text fails to be an expression: it is broken, or it holds none. -/
inductive ReadingFault where
  | broken
  | empty
deriving DecidableEq, Repr

/-- Reads a text as an expression. -/
def Expr.ofText (text : String) : Except ReadingFault Expr :=
  match Token.ofText? text with
  | none => .error .broken
  | some tokens =>
    match ExprReading.readLevel (16 * (tokens.length + 1)) ExprReading.levels tokens with
    | some (some e, []) => .ok e
    | some (none, []) => .error .empty
    | _ => .error .broken

end ElementFinder.XPath
