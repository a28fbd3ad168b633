/-!
# Blank characters

The characters with the Unicode property White_Space, and the removal of leading and
trailing blanks.
-/

namespace ElementFinder

/-- The code points with the property White_Space. -/
def blankCodes : List Nat :=
  [0x09, 0x0A, 0x0B, 0x0C, 0x0D, 0x20, 0x85, 0xA0, 0x1680, 0x2000, 0x2001, 0x2002, 0x2003,
   0x2004, 0x2005, 0x2006, 0x2007, 0x2008, 0x2009, 0x200A, 0x2028, 0x2029, 0x202F, 0x205F,
   0x3000]

/-- A character is blank when it has the property White_Space. -/
def isBlank (c : Char) : Bool :=
  blankCodes.contains c.toNat

/-- Removes the characters of a class from both ends. -/
def trimWhile (p : Char → Bool) (cs : List Char) : List Char :=
  ((cs.dropWhile p).reverse.dropWhile p).reverse

/-- Removes blank characters from both ends. -/
def trimBlank (cs : List Char) : List Char :=
  trimWhile isBlank cs

/-- Removes blank characters from both ends of a text. -/
def trimText (s : String) : String :=
  String.ofList (trimBlank s.toList)

end ElementFinder
