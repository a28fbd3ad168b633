import ElementFinder.Pattern.CharSet
import ElementFinder.Decimal.Reading

/-!
# Property names in patterns

A pattern may name a general category, a script or one of the basic properties.  Names are
compared without case, blanks, hyphens and underscores, and may start with `is`.
-/

namespace ElementFinder.PropertyName

/-- The compared form of a property name. -/
def normalized (cs : List Char) : String :=
  let lower := cs.map asciiLower
  let body := if ['i', 's'].isPrefixOf lower then lower.drop 2 else lower
  let kept := body.filter fun c => c != ' ' && c != '_' && c != '-' && c.toNat < 128
  if ['i', 's'].isPrefixOf lower && kept = ['c'] then "isc" else String.ofList kept

/-- The general categories and groups of categories that a name stands for. -/
def categories? : String → Option (List GeneralCategory)
  | "lu" | "uppercaseletter" => some [.Lu]
  | "ll" | "lowercaseletter" => some [.Ll]
  | "lt" | "titlecaseletter" => some [.Lt]
  | "lc" | "casedletter" => some [.Lu, .Ll, .Lt]
  | "lm" | "modifierletter" => some [.Lm]
  | "lo" | "otherletter" => some [.Lo]
  | "l" | "letter" => some [.Lu, .Ll, .Lt, .Lm, .Lo]
  | "mn" | "nonspacingmark" => some [.Mn]
  | "mc" | "spacingmark" => some [.Mc]
  | "me" | "enclosingmark" => some [.Me]
  | "m" | "mark" | "combiningmark" => some [.Mn, .Mc, .Me]
  | "nd" | "decimalnumber" | "digit" => some [.Nd]
  | "nl" | "letternumber" => some [.Nl]
  | "no" | "othernumber" => some [.No]
  | "n" | "number" => some [.Nd, .Nl, .No]
  | "pc" | "connectorpunctuation" => some [.Pc]
  | "pd" | "dashpunctuation" => some [.Pd]
  | "ps" | "openpunctuation" => some [.Ps]
  | "pe" | "closepunctuation" => some [.Pe]
  | "pi" | "initialpunctuation" => some [.Pi]
  | "pf" | "finalpunctuation" => some [.Pf]
  | "po" | "otherpunctuation" => some [.Po]
  | "p" | "punctuation" | "punct" => some [.Pc, .Pd, .Ps, .Pe, .Pi, .Pf, .Po]
  | "sm" | "mathsymbol" => some [.Sm]
  | "sc" | "currencysymbol" => some [.Sc]
  | "sk" | "modifiersymbol" => some [.Sk]
  | "so" | "othersymbol" => some [.So]
  | "s" | "symbol" => some [.Sm, .Sc, .Sk, .So]
  | "zs" | "spaceseparator" => some [.Zs]
  | "zl" | "lineseparator" => some [.Zl]
  | "zp" | "paragraphseparator" => some [.Zp]
  | "z" | "separator" => some [.Zs, .Zl, .Zp]
  | "cc" | "control" | "cntrl" => some [.Cc]
  | "cf" | "format" => some [.Cf]
  | "co" | "privateuse" => some [.Co]
  | "cs" | "surrogate" => some [.Cs]
  | "cn" | "unassigned" => some [.Cn]
  | "c" | "other" => some [.Cc, .Cf, .Co, .Cs, .Cn]
  | _ => none

/-- The set that the name of a general category stands for. -/
def category? (name : String) : Option CharSet :=
  match name with
  | "any" => some .all
  | "assigned" => some (.complement (.categories [.Cn]))
  | "ascii" => some (.ranges [(0, 127)])
  | name => (categories? name).map .categories

/-- The set that the name of a basic property stands for. -/
def basic? : String → Option CharSet
  | "alphabetic" | "alpha" => some (.ranges CharProperty.alphabetic)
  | "lowercase" | "lower" => some (.ranges CharProperty.lowercase)
  | "uppercase" | "upper" => some (.ranges CharProperty.uppercase)
  | "whitespace" | "wspace" | "space" => some .blanks
  | "graphemeextend" | "grext" => some (.ranges CharProperty.graphemeExtend)
  | "asciihexdigit" | "ahex" => CharSet.named? "xdigit"
  | _ => none

/-- The set that the name of a script stands for. -/
def script? (name : String) : Option CharSet :=
  (Script.number? name).map .script

/-- The set that a name on its own stands for. -/
def single? (cs : List Char) : Option CharSet :=
  let name := normalized cs
  (basic? name).or ((category? name).or (script? name))

/-- The set that a name and a value stand for. -/
def valued? (name value : List Char) : Option CharSet :=
  match normalized name with
  | "gc" | "generalcategory" => category? (normalized value)
  | "sc" | "script" | "scx" | "scriptextensions" => script? (normalized value)
  | _ => none

end ElementFinder.PropertyName
