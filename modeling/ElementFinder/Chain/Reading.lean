import ElementFinder.Chain.Basic
import ElementFinder.Predicate.Reading

/-!
# Reading class chains

Every text is read as a chain.  A token between slashes is a type and brackets after it:
one predicate between grave accents and one position.  What cannot be used is left out and
reported: an unknown type counts as the wildcard, and a bracket or accent that belongs to
nothing is ignored.
-/

namespace ElementFinder

/-- A chain with the problems met while reading it. -/
structure ParsedChain where
  chain : Chain
  diagnostics : List Diagnostic

namespace ChainReading

/-- Splits at slashes that stand outside grave accents; `token` is the token so far, its
last character first. -/
def splitSteps : (inPredicate : Bool) → (token : List Char) → List Char → List (List Char)
  | _, token, [] => [token.reverse]
  | inPredicate, token, c :: rest =>
    if c = '/' && !inPredicate then token.reverse :: splitSteps inPredicate [] rest
    else splitSteps (if c = '\x60' then !inPredicate else inPredicate) (c :: token) rest

/-- The shortest run up to an accent and a closing bracket, on one line. -/
def takePredicate : List Char → Option (List Char × List Char)
  | [] => none
  | c :: rest =>
    if c = '\x60' && rest.head? = some ']' then some ([], rest.drop 1)
    else if c = '\n' then none
    else (takePredicate rest).map fun (body, after) => (c :: body, after)

/-- The first bracketed predicate: what stands before it, its text and what stands after
it. -/
def findPredicate : List Char → Option (List Char × List Char × List Char)
  | [] => none
  | c :: rest =>
    let here :=
      if c = '[' && rest.head? = some '\x60' then takePredicate (rest.drop 1) else none
    match here with
    | some (body, after) => some ([], body, after)
    | none => (findPredicate rest).map fun (before, body, after) => (c :: before, body, after)

/-- Removes all bracketed predicates. -/
def withoutPredicates : (fuel : Nat) → List Char → List Char
  | 0, cs => cs
  | fuel + 1, cs =>
    match findPredicate cs with
    | none => cs
    | some (before, _, after) => before ++ withoutPredicates fuel after

/-- The run up to a closing bracket, without brackets in it. -/
def takeBracket : List Char → Option (List Char × List Char)
  | [] => none
  | c :: rest =>
    if c = ']' then some ([], rest)
    else if c = '[' then none
    else (takeBracket rest).map fun (body, after) => (c :: body, after)

/-- The texts between innermost brackets, and what is left without them. -/
def splitBrackets : (fuel : Nat) → List Char → List (List Char) × List Char
  | 0, cs => ([], cs)
  | _ + 1, [] => ([], [])
  | fuel + 1, c :: rest =>
    match if c = '[' then takeBracket rest else none with
    | some (body, after) =>
      let (bodies, left) := splitBrackets fuel after
      (body :: bodies, left)
    | none =>
      let (bodies, left) := splitBrackets fuel rest
      (bodies, c :: left)

/-- A position: an integer of 64 bits. -/
def position? (cs : List Char) : Option Int :=
  (intOfDigits? cs).filter fun i => -(Nat.pow 2 63 : Int) ≤ i && i < Nat.pow 2 63

/-- Reads the texts between brackets as positions; the first counts, and the others are
reported. -/
def readPositions (token : String) : Option Int → List (List Char) →
    Option Int × List Diagnostic
  | position, [] => (position, [])
  | position, body :: bodies =>
    let inner := trimBlank body
    match position? inner, position with
    | some i, none => readPositions token (some i) bodies
    | some _, some _ =>
      let (position, diagnostics) := readPositions token position bodies
      (position, .malformedChain token
        ("extra position [" ++ String.ofList inner ++ "] ignored") :: diagnostics)
    | none, _ =>
      let (position, diagnostics) := readPositions token position bodies
      (position, .malformedChain token
        ("'[" ++ String.ofList inner ++ "]' is neither a position nor a predicate")
        :: diagnostics)

/-- Reads the type of a step. -/
def readType (cs : List Char) : ElementType × List Diagnostic :=
  let name := trimBlank cs
  if name.head? = some '*' then (.any, [])
  else
    match ElementType.lookup (String.ofList name) with
    | .ok t => (t, [])
    | .error e => (.any, [.invalidTypeName e.name])

/-- Reads the first bracketed predicate of a step, if there is one. -/
def readPredicate (token : String) (brackets : List Char) :
    Option Predicate × List Diagnostic :=
  match findPredicate brackets with
  | none => (none, [])
  | some (_, body, _) =>
    match Predicate.ofChars body with
    | .ok p => (some p, [])
    | .error e => (none, [.malformedChain token e.message])

/-- Whether a bracket or an accent belongs to nothing. -/
def hasStray (cs : List Char) : Bool :=
  cs.any fun c => c = '[' || c = ']' || c = '\x60'

/-- Reads a token as a step. -/
def readStep (cs : List Char) : ChainStep × List Diagnostic :=
  if cs = ['*', '*'] then (.anyDepth, [])
  else
    let token := String.ofList cs
    let (elementType, typeProblems) := readType (cs.takeWhile (· != '['))
    let brackets := cs.dropWhile (· != '[')
    let (predicate, predicateProblems) := readPredicate token brackets
    let (bodies, left) :=
      splitBrackets (brackets.length + 1) (withoutPredicates brackets.length brackets)
    let (position, positionProblems) := readPositions token none bodies
    let strayProblems :=
      if hasStray left then [Diagnostic.malformedChain token "unbalanced brackets ignored"]
      else []
    (.select elementType predicate position,
      typeProblems ++ predicateProblems ++ positionProblems ++ strayProblems)

end ChainReading

/-- Reads a text as a chain; blank tokens are left out. -/
def ParsedChain.ofText (text : String) : ParsedChain :=
  let tokens := (ChainReading.splitSteps false [] text.toList).map trimBlank
  let steps := (tokens.filter fun token => !token.isEmpty).map ChainReading.readStep
  ⟨steps.map Prod.fst, steps.flatMap Prod.snd⟩

end ElementFinder
