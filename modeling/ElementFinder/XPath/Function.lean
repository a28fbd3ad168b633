import ElementFinder.Text.Search
import ElementFinder.XPath.Value

/-!
# Functions of path expressions

The functions that expressions may call.  Arguments are read as the kind of value that a
function needs; only sets of nodes cannot be made from other values.
-/

namespace ElementFinder.XPath

/-- Where an expression is evaluated: a node, its place among the nodes looked at, counted
from one, and their number. -/
structure Context where
  node : Node
  place : Nat
  size : Nat

namespace Function

/-- The number rounded to the nearest whole number, and upward from the middle; it keeps its
sign. -/
def round (x : Binary64) : Binary64 :=
  let y := x.floor
  if x.eqv y then x
  else
    let z := (((Binary64.ofNat 2).mul x).sub y).floor
    match x, z with
    | .signed s _, .signed _ m => .signed s m
    | _, z => z

/-- The characters at places from `start` on, fewer than `count` places further. -/
def substring (s : String) (start : Binary64) (count : Binary64) : String :=
  let stop := start.add count
  let kept := s.toList.zipIdx.filter fun (_, i) =>
    let place := Binary64.ofNat (i + 1)
    Binary64.le start place && Binary64.lt place stop
  String.ofList (kept.map Prod.fst)

/-- The blanks that are joined into one. -/
def isSpace (c : Char) : Bool :=
  c = ' ' || c = '\t' || c = '\r' || c = '\n'

/-- The words of a text with single blanks between them; `pending` tells that a blank is
due before the next word. -/
def joinWords : (started pending : Bool) → List Char → List Char
  | _, _, [] => []
  | started, pending, c :: rest =>
    if isSpace c then joinWords started started rest
    else if pending then ' ' :: c :: joinWords true false rest
    else c :: joinWords true false rest

/-- What a character is replaced by: the character at the same place of the second list, or
nothing when that list is too short. -/
def replacement (olds news : List Char) (c : Char) : List Char :=
  match olds.findIdx? (· = c) with
  | none => [c]
  | some i => (news[i]?).toList

/-- The text before the first occurrence of another, or after it; empty if there is none. -/
def splitPart (after : Bool) (s mark : String) : String :=
  match splitAtFirst? mark.toList s.toList with
  | some (before, rest) => String.ofList (if after then rest else before)
  | none => ""

/-- The name of the first of some nodes. -/
def firstName (d : Document) (ns : List Node) : String :=
  ((ns.head?).map d.nameOf).getD ""

/-- A function of the context or of one set of nodes. -/
def ofNodes (f : List Node → String) (context : Node) : List Value → Option Value
  | [] => some (.text (f [context]))
  | [.nodes ns] => some (.text (f ns))
  | _ => none

/-- A function of the text of the context or of one argument. -/
def ofText (d : Document) (f : String → Value) (context : Node) : List Value → Option Value
  | [] => some (f (d.textOf context))
  | [v] => some (f (v.asText d))
  | _ => none

/-- A function of two texts. -/
def ofTexts (d : Document) (f : String → String → Value) : List Value → Option Value
  | [v, w] => some (f (v.asText d) (w.asText d))
  | _ => none

/-- A function of one number. -/
def ofNumber (d : Document) (f : Binary64 → Binary64) : List Value → Option Value
  | [v] => some (.number (f (v.asNumber d)))
  | _ => none

/-- Calls a function; `none` if there is no such function or if it does not take the
arguments. -/
def call? (d : Document) (c : Context) (name : String) (arguments : List Value) :
    Option Value :=
  match name, arguments with
  | "last", [] => some (.number (.ofNat c.size))
  | "position", [] => some (.number (.ofNat c.place))
  | "count", [.nodes ns] => some (.number (.ofNat ns.length))
  | "local-name", vs => ofNodes (firstName d) c.node vs
  | "namespace-uri", vs => ofNodes (fun _ => "") c.node vs
  | "name", vs => ofNodes (firstName d) c.node vs
  | "string", vs => ofText d .text c.node vs
  | "concat", v :: w :: vs =>
    some (.text (String.join ((v :: w :: vs).map (Value.asText d))))
  | "starts-with", vs => ofTexts d (fun s t => .truth (t.toList.isPrefixOf s.toList)) vs
  | "contains", vs => ofTexts d (fun s t => .truth (occursIn t.toList s.toList)) vs
  | "substring-before", vs => ofTexts d (fun s t => .text (splitPart false s t)) vs
  | "substring-after", vs => ofTexts d (fun s t => .text (splitPart true s t)) vs
  | "substring", [v, w] =>
    some (.text (substring (v.asText d) (round (w.asNumber d)) .infinity))
  | "substring", [v, w, u] =>
    some (.text (substring (v.asText d) (round (w.asNumber d)) (round (u.asNumber d))))
  | "string-length", vs => ofText d (fun s => .number (.ofNat s.length)) c.node vs
  | "normalize-space", vs =>
    ofText d (fun s => .text (String.ofList (joinWords false false s.toList))) c.node vs
  | "translate", [v, w, u] =>
    let olds := (w.asText d).toList
    let news := (u.asText d).toList
    some (.text (String.ofList ((v.asText d).toList.flatMap (replacement olds news))))
  | "boolean", [v] => some (.truth v.asTruth)
  | "not", [v] => some (.truth !v.asTruth)
  | "true", [] => some (.truth true)
  | "false", [] => some (.truth false)
  | "number", [] => some (.number (Value.numberOfText (d.textOf c.node)))
  | "number", [v] => some (.number (v.asNumber d))
  | "sum", [.nodes ns] =>
    some (.number (ns.foldl (fun total n => total.add (Value.numberOfText (d.textOf n))) .zero))
  | "floor", vs => ofNumber d Binary64.floor vs
  | "ceiling", vs => ofNumber d Binary64.ceil vs
  | "round", vs => ofNumber d round vs
  | _, _ => none

end Function

end ElementFinder.XPath
