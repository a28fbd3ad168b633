import ElementFinder.Pattern.Escape

/-!
# Wildcard patterns

In a wildcard pattern `*` stands for any run of characters and `?` for any one character.
A backslash makes the next character stand for itself, and a backslash at the end stands
for nothing.  The pattern is written in the usual notation, which is then read like any other
pattern.
-/

namespace ElementFinder.Pattern

/-- A character that stands for itself, with a backslash before it where it would have a
meaning. -/
def escapedChar (c : Char) : List Char :=
  if PatternEscape.isMeta c then ['\\', c] else [c]

/-- The characters of a wildcard pattern in the usual notation. -/
def wildcardBody : List Char → List Char
  | [] => []
  | '*' :: rest => '.' :: '*' :: wildcardBody rest
  | '?' :: rest => '.' :: wildcardBody rest
  | ['\\'] => []
  | '\\' :: c :: rest => escapedChar c ++ wildcardBody rest
  | c :: rest => escapedChar c ++ wildcardBody rest

/-- A wildcard pattern in the usual notation, for whole texts. -/
def wildcardText (cs : List Char) : List Char :=
  '^' :: (wildcardBody cs ++ ['$'])

end ElementFinder.Pattern
