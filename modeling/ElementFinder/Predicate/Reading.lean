import ElementFinder.Predicate.Basic

/-!
# Reading predicates

A predicate is a disjunction of conjunctions of terms; a term is any number of negations
before a constant, a comparison or a predicate between parentheses.  Keywords are read in
either case and end where no further key character follows, and blanks may stand between
all parts.  Where alternatives begin alike the first that can be read is taken.

A text is read to its end first; only then are keys and patterns judged, from left to
right.
-/

namespace ElementFinder

namespace PredicateReading

/-- The blanks between the parts of a predicate. -/
def isGap (c : Char) : Bool :=
  c = ' ' || c = '\t' || c = '\r' || c = '\n'

/-- Skips blanks. -/
def skipGap (cs : List Char) : List Char :=
  cs.dropWhile isGap

/-- A letter of the Latin alphabet. -/
def isLetter (c : Char) : Bool :=
  ('a' ≤ c && c ≤ 'z') || ('A' ≤ c && c ≤ 'Z')

/-- A character that may continue a key. -/
def isKeyChar (c : Char) : Bool :=
  isLetter c || isDigit c || c = '_' || c = '.' || c = '$'

/-- A character that may start a key. -/
def isKeyStart (c : Char) : Bool :=
  isLetter c || c = '_' || c = '$'

/-- Takes a word in either case off the front. -/
def takeWord : (word cs : List Char) → Option (List Char)
  | [], cs => some cs
  | _ :: _, [] => none
  | w :: word, c :: cs => if asciiLower w = asciiLower c then takeWord word cs else none

/-- Takes a keyword off the front: a word that no key character follows. -/
def takeKeyword (word : String) (cs : List Char) : Option (List Char) :=
  match takeWord word.toList cs with
  | none => none
  | some [] => some []
  | some (c :: rest) => if isKeyChar c then none else some (c :: rest)

/-- Takes the first of some keywords that stands at the front. -/
def takeFirst {α : Type} (words : List (String × α)) (cs : List Char) :
    Option (α × List Char) :=
  words.findSome? fun (word, a) => (takeKeyword word cs).map (a, ·)

/-- Takes the first of some symbols that stands at the front. -/
def takeSymbol {α : Type} (symbols : List (String × α)) (cs : List Char) :
    Option (α × List Char) :=
  symbols.findSome? fun (symbol, a) =>
    if symbol.toList.isPrefixOf cs then some (a, cs.drop symbol.length) else none

/-- The operators that are symbols; longer ones come before their beginnings. -/
def symbolOperators : List (String × CompareOperator) :=
  [("==", .equal), ("!=", .notEqual), ("<>", .notEqual), ("<=", .lessOrEqual),
   ("=<", .lessOrEqual), (">=", .greaterOrEqual), ("=>", .greaterOrEqual), ("=", .equal),
   ("<", .less), (">", .greater)]

/-- The operators that are words. -/
def wordOperators : List (String × CompareOperator) :=
  [("BEGINSWITH", .beginsWith), ("CONTAINS", .contains), ("ENDSWITH", .endsWith),
   ("LIKE", .like), ("MATCHES", .matching), ("IN", .within)]

/-- The literals that are words. -/
def wordLiterals : List (String × Literal) :=
  [("TRUE", .bool true), ("YES", .bool true), ("FALSE", .bool false), ("NO", .bool false),
   ("NIL", .null), ("NULL", .null)]

/-- The constant predicates. -/
def constants : List (String × Bool) :=
  [("TRUEPREDICATE", true), ("FALSEPREDICATE", false)]

/-- Reads an operator. -/
def readOperator (cs : List Char) : Option (CompareOperator × List Char) :=
  (takeSymbol symbolOperators cs).or (takeFirst wordOperators cs)

/-- Reads modifiers between brackets.  Any letters may stand there; two of them have a
meaning. -/
def readOptions (cs : List Char) : Option (CompareOptions × List Char) :=
  match cs with
  | '[' :: rest =>
    let letters := rest.takeWhile isLetter
    match letters, rest.dropWhile isLetter with
    | _ :: _, ']' :: rest =>
      some (⟨letters.any fun c => asciiLower c = 'c', letters.any fun c => asciiLower c = 'd'⟩,
        rest)
    | _, _ => none
  | _ => none

/-- The character that stands for an escaped one. -/
def unescape (c : Char) : Char :=
  if c = 'n' then '\n' else if c = 't' then '\t' else if c = 'r' then '\r' else c

/-- Reads a text up to its closing mark. -/
def readQuoted (mark : Char) : List Char → Option (List Char × List Char)
  | [] => none
  | ['\\'] => none
  | '\\' :: c :: rest => (readQuoted mark rest).map fun (cs, rest) => (unescape c :: cs, rest)
  | c :: rest =>
    if c = mark then some ([], rest)
    else (readQuoted mark rest).map fun (cs, rest) => (c :: cs, rest)

/-- Takes digits off the front, at least one. -/
def takeDigits (cs : List Char) : Option (List Char × List Char) :=
  match cs.takeWhile isDigit with
  | [] => none
  | ds => some (ds, cs.dropWhile isDigit)

/-- A point with digits after it, if they stand at the front. -/
def takeFraction (cs : List Char) : List Char × List Char :=
  match cs with
  | '.' :: rest =>
    match takeDigits rest with
    | some (ds, rest) => ('.' :: ds, rest)
    | none => ([], cs)
  | _ => ([], cs)

/-- An exponent with its digits, if they stand at the front. -/
def takeExponent (cs : List Char) : List Char × List Char :=
  match cs with
  | c :: rest =>
    if c = 'e' || c = 'E' then
      let (sign, tail) := match rest with
        | '+' :: tail => (['+'], tail)
        | '-' :: tail => (['-'], tail)
        | tail => ([], tail)
      match takeDigits tail with
      | some (ds, rest) => (c :: sign ++ ds, rest)
      | none => ([], cs)
    else ([], cs)
  | [] => ([], [])

/-- Reads a number: an optional minus sign, digits, and optionally a fraction and an
exponent. -/
def readNumber (cs : List Char) : Option (Literal × List Char) :=
  let (sign, rest) := match cs with
    | '-' :: rest => (['-'], rest)
    | rest => ([], rest)
  match takeDigits rest with
  | none => none
  | some (whole, rest) =>
    let (fraction, rest) := takeFraction rest
    let (exponent, rest) := takeExponent rest
    (Binary64.ofNumeral? (sign ++ whole ++ fraction ++ exponent)).map fun x => (.number x, rest)

mutual

/-- Reads a literal. -/
def readLiteral : (fuel : Nat) → List Char → Option (Literal × List Char)
  | 0, _ => none
  | fuel + 1, cs =>
    match cs with
    | '"' :: rest => (readQuoted '"' rest).map fun (cs, rest) => (.text (String.ofList cs), rest)
    | '\x27' :: rest =>
      (readQuoted '\x27' rest).map fun (cs, rest) => (.text (String.ofList cs), rest)
    | '\x7b' :: rest =>
      match readItems fuel true (skipGap rest) with
      | some (items, rest) => some (.list items, rest)
      | none => none
    | cs => (readNumber cs).or (takeFirst wordLiterals cs)

/-- Reads the items of a list up to its closing brace. -/
def readItems : (fuel : Nat) → (first : Bool) → List Char → Option (List Literal × List Char)
  | 0, _, _ => none
  | fuel + 1, first, cs =>
    match cs with
    | '\x7d' :: rest => some ([], rest)
    | cs =>
      let start := if first then some cs else match cs with
        | ',' :: rest => some (skipGap rest)
        | _ => none
      match start with
      | none => none
      | some start =>
        match readLiteral fuel start with
        | none => none
        | some (item, rest) =>
          match readItems fuel false (skipGap rest) with
          | none => none
          | some (items, rest) => some (item :: items, rest)

end

/-- Reads a comparison: a key, an operator, modifiers or none, and a literal. -/
def readComparison (cs : List Char) : Option (ComparisonDraft × List Char) :=
  match cs with
  | [] => none
  | c :: _ =>
    if !isKeyStart c then none
    else
      let key := String.ofList (cs.takeWhile isKeyChar)
      match readOperator (skipGap (cs.dropWhile isKeyChar)) with
      | none => none
      | some (operator, rest) =>
        let rest := skipGap rest
        let (options, rest) := match readOptions rest with
          | some (options, rest) => (options, skipGap rest)
          | none => ({}, rest)
        (readLiteral (2 * rest.length + 2) rest).map fun (literal, rest) =>
          (⟨key, operator, options, literal⟩, rest)

/-- A predicate whose keys and patterns have not been judged. -/
abbrev Draft := Formula ComparisonDraft

/-- Takes a connective off the front: a keyword or a symbol. -/
def takeConnective (word symbol : String) (cs : List Char) : Option (List Char) :=
  (takeKeyword word cs).or
    (if symbol.toList.isPrefixOf cs then some (cs.drop symbol.length) else none)

mutual

/-- Reads a disjunction. -/
def readOr : (fuel : Nat) → List Char → Option (Draft × List Char)
  | 0, _ => none
  | fuel + 1, cs =>
    match readAnd fuel cs with
    | none => none
    | some (p, rest) =>
      let (ps, rest) := readOrTail fuel rest
      some (Formula.joined .or (p :: ps), rest)

/-- Reads the further terms of a disjunction. -/
def readOrTail : (fuel : Nat) → List Char → List Draft × List Char
  | 0, cs => ([], cs)
  | fuel + 1, cs =>
    match takeConnective "OR" "||" (skipGap cs) with
    | none => ([], cs)
    | some rest =>
      match readAnd fuel (skipGap rest) with
      | none => ([], cs)
      | some (p, rest) =>
        let (ps, rest) := readOrTail fuel rest
        (p :: ps, rest)

/-- Reads a conjunction. -/
def readAnd : (fuel : Nat) → List Char → Option (Draft × List Char)
  | 0, _ => none
  | fuel + 1, cs =>
    match readTerm fuel cs with
    | none => none
    | some (p, rest) =>
      let (ps, rest) := readAndTail fuel rest
      some (Formula.joined .and (p :: ps), rest)

/-- Reads the further terms of a conjunction. -/
def readAndTail : (fuel : Nat) → List Char → List Draft × List Char
  | 0, cs => ([], cs)
  | fuel + 1, cs =>
    match takeConnective "AND" "&&" (skipGap cs) with
    | none => ([], cs)
    | some rest =>
      match readTerm fuel (skipGap rest) with
      | none => ([], cs)
      | some (p, rest) =>
        let (ps, rest) := readAndTail fuel rest
        (p :: ps, rest)

/-- Reads a term: negations before a constant, a comparison or a predicate between
parentheses. -/
def readTerm : (fuel : Nat) → List Char → Option (Draft × List Char)
  | 0, _ => none
  | fuel + 1, cs =>
    match takeConnective "NOT" "!" cs with
    | some rest => (readTerm fuel (skipGap rest)).map fun (p, rest) => (.not p, rest)
    | none =>
      match cs with
      | '(' :: rest =>
        match readOr fuel (skipGap rest) with
        | none => none
        | some (p, rest) =>
          match skipGap rest with
          | ')' :: rest => some (p, rest)
          | _ => none
      | cs =>
        match takeFirst constants cs with
        | some (value, rest) => some (.constant value, rest)
        | none => (readComparison cs).map fun (c, rest) => (.atom c, rest)

end

/-- Reads a whole text as a draft. -/
def readDraft (cs : List Char) : Option Draft :=
  match readOr (4 * cs.length + 4) (skipGap cs) with
  | some (p, rest) => if (skipGap rest).isEmpty then some p else none
  | none => none

end PredicateReading

namespace Predicate

/-- Reads a predicate, over characters. -/
def ofChars (cs : List Char) : Except PredicateError Predicate :=
  match PredicateReading.readDraft cs with
  | none => .error (.unreadable (String.ofList cs))
  | some draft => draft.traverse Comparison.ofDraft

/-- Reads a predicate. -/
def parse (expression : String) : Except PredicateError Predicate :=
  ofChars expression.toList

end Predicate

end ElementFinder
