import ElementFinder.Yaml.Token

/-!
# Nodes of YAML

A document is a tree of scalars, sequences and mappings.  An alias stands for the node with
its anchor; a node cannot be its own part.  Where the text stops being YAML the tree ends in
the leaf `malformed`, and everything before it is kept.
-/

namespace ElementFinder.Yaml

/-- A node with its tag.  `absent` is the root of a text without any document. -/
inductive Node where
  | absent
  | malformed
  | scalar (tag : Option String) (content : String) (style : ScalarStyle)
  | sequence (tag : Option String) (items : List Node)
  | mapping (tag : Option String) (entries : List (Node × Node))
deriving Inhabited

/-- The node where nothing is written. -/
def Node.empty (tag : Option String) : Node :=
  .scalar tag "" .plain

/-- What is left to read: the tokens, the anchors so far with the latest first, and the rules
for tags. -/
structure Source where
  tokens : List Token
  anchors : List (String × Node)
  tagRules : List (String × String)

/-- What a reader returns: what it read and, unless the text broke off, what is left. -/
abbrev Outcome (α : Type) := α × Option Source

/-- The anchor and the tag in front of a node. -/
structure Properties where
  anchor : Option String := none
  tag : Option (String × String) := none

namespace Source

/-- The tags that every text knows. -/
def knownTags : List (String × String) :=
  [("", ""), ("!", "!"), ("!!", "tag:yaml.org,2002:")]

/-- What is left after the next token. -/
def next (s : Source) : Source :=
  { s with tokens := s.tokens.drop 1 }

/-- Whether the next token is one of some tokens. -/
def sees (s : Source) (ts : List Token) : Bool :=
  match s.tokens with
  | [] => false
  | t :: _ => ts.contains t

/-- Gives an anchor to a node. -/
def define (s : Source) (anchor : Option String) (n : Node) : Source :=
  match anchor with
  | none => s
  | some name => { s with anchors := (name, n) :: s.anchors }

/-- Gives the anchor that was put in when `count` anchors were known to a finished node. -/
def redefine (s : Source) (count : Nat) (anchor : Option String) (n : Node) : Source :=
  match anchor with
  | none => s
  | some name => { s with anchors := s.anchors.set (s.anchors.length - 1 - count) (name, n) }

/-- The whole tag of a handle and a suffix. -/
def resolve? (s : Source) : Option (String × String) → Option (Option String)
  | none => some none
  | some (handle, suffix) =>
    match (s.tagRules ++ knownTags).find? fun rule => rule.1 = handle with
    | some (_, expansion) => some (some (expansion ++ suffix))
    | none => none

/-- Takes the anchor and the tag in front of a node, in either order. -/
def takeProperties (s : Source) : Properties × Source :=
  match s.tokens with
  | .anchor a :: .tag h t :: rest => (⟨some a, some (h, t)⟩, { s with tokens := rest })
  | .tag h t :: .anchor a :: rest => (⟨some a, some (h, t)⟩, { s with tokens := rest })
  | .anchor a :: rest => (⟨some a, none⟩, { s with tokens := rest })
  | .tag h t :: rest => (⟨none, some (h, t)⟩, { s with tokens := rest })
  | _ => ({}, s)

end Source

namespace NodeReading

mutual

/-- Reads a node.  `block` tells that a block collection may stand here, and `indentless` that
a block sequence may stand here without indentation. -/
def readNode : (fuel : Nat) → (block indentless : Bool) → Source → Outcome Node
  | 0, _, _, _ => (.malformed, none)
  | fuel + 1, block, indentless, s =>
    match s.tokens with
    | .alias name :: _ =>
      match s.anchors.find? fun a => a.1 = name with
      | some (_, n) => (n, some s.next)
      | none => (.malformed, none)
    | _ =>
      let (p, s) := s.takeProperties
      match s.resolve? p.tag with
      | none => (.malformed, none)
      | some tag =>
        let known := s.anchors.length
        let collected (n : Node) : Option Source → Outcome Node
          | none => (n, none)
          | some after => (n, some (after.redefine known p.anchor n))
        let opened := s.define p.anchor .malformed
        match s.tokens with
        | .scalar content style :: _ =>
          let n := Node.scalar tag content style
          (n, some (s.next.define p.anchor n))
        | .blockEntry :: _ =>
          if indentless then
            let (items, after) := readIndentless fuel opened
            collected (.sequence tag items) after
          else readMissing p tag s
        | .flowSequence :: _ =>
          let (items, after) := readFlowItems fuel true opened.next
          collected (.sequence tag items) after
        | .flowMapping :: _ =>
          let (entries, after) := readFlowEntries fuel true opened.next
          collected (.mapping tag entries) after
        | .blockSequence :: _ =>
          if block then
            let (items, after) := readBlockItems fuel opened.next
            collected (.sequence tag items) after
          else readMissing p tag s
        | .blockMapping :: _ =>
          if block then
            let (entries, after) := readBlockEntries fuel opened.next
            collected (.mapping tag entries) after
          else readMissing p tag s
        | _ => readMissing p tag s

/-- Where no content follows, an anchor or a tag stands for an empty node. -/
def readMissing (p : Properties) (tag : Option String) (s : Source) : Outcome Node :=
  if s.tokens.isEmpty || (p.anchor.isNone && p.tag.isNone) then (.malformed, none)
  else (.empty tag, some (s.define p.anchor (.empty tag)))

/-- Reads a node, or nothing before one of some tokens. -/
def readUnless : (fuel : Nat) → (stops : List Token) → (block indentless : Bool) → Source →
    Outcome Node
  | 0, _, _, _, _ => (.malformed, none)
  | fuel + 1, stops, block, indentless, s =>
    if s.sees stops then (.empty none, some s) else readNode fuel block indentless s

/-- Reads the items of a block sequence. -/
def readBlockItems : (fuel : Nat) → Source → Outcome (List Node)
  | 0, _ => ([.malformed], none)
  | fuel + 1, s =>
    match s.tokens with
    | .blockEntry :: _ =>
      match readUnless fuel [.blockEntry, .blockEnd] true false s.next with
      | (n, none) => ([n], none)
      | (n, some s) =>
        let (items, after) := readBlockItems fuel s
        (n :: items, after)
    | .blockEnd :: _ => ([], some s.next)
    | _ => ([.malformed], none)

/-- Reads the items of a block sequence without indentation. -/
def readIndentless : (fuel : Nat) → Source → Outcome (List Node)
  | 0, _ => ([.malformed], none)
  | fuel + 1, s =>
    match s.tokens with
    | [] => ([.malformed], none)
    | .blockEntry :: _ =>
      match readUnless fuel [.blockEntry, .key, .value, .blockEnd] true false s.next with
      | (n, none) => ([n], none)
      | (n, some s) =>
        let (items, after) := readIndentless fuel s
        (n :: items, after)
    | _ => ([], some s)

/-- Reads the value after a key of a mapping, or nothing if there is no colon. -/
def readValue : (fuel : Nat) → (stops : List Token) → (block : Bool) → Source → Outcome Node
  | 0, _, _, _ => (.malformed, none)
  | fuel + 1, stops, block, s =>
    match s.tokens with
    | [] => (.malformed, none)
    | .value :: _ => readUnless fuel stops block block s.next
    | _ => (.empty none, some s)

/-- Reads the entries of a block mapping. -/
def readBlockEntries : (fuel : Nat) → Source → Outcome (List (Node × Node))
  | 0, _ => ([(.malformed, .malformed)], none)
  | fuel + 1, s =>
    match s.tokens with
    | .key :: _ =>
      match readUnless fuel [.key, .value, .blockEnd] true true s.next with
      | (k, none) => ([(k, .malformed)], none)
      | (k, some s) =>
        match readValue fuel [.key, .value, .blockEnd] true s with
        | (v, none) => ([(k, v)], none)
        | (v, some s) =>
          let (entries, after) := readBlockEntries fuel s
          ((k, v) :: entries, after)
    | .blockEnd :: _ => ([], some s.next)
    | _ => ([(.malformed, .malformed)], none)

/-- Reads the items of a sequence in brackets.  A key there starts a mapping of one entry. -/
def readFlowItems : (fuel : Nat) → (first : Bool) → Source → Outcome (List Node)
  | 0, _, _ => ([.malformed], none)
  | fuel + 1, first, s =>
    if s.sees [.flowSequenceEnd] then ([], some s.next)
    else if !first && !s.sees [.flowEntry] then ([.malformed], none)
    else
      let s := if first then s else s.next
      let continued : Outcome Node → Outcome (List Node)
        | (n, none) => ([n], none)
        | (n, some s) =>
          let (items, after) := readFlowItems fuel false s
          (n :: items, after)
      match s.tokens with
      | .flowSequenceEnd :: _ => ([], some s.next)
      | .key :: _ =>
        match readUnless fuel [.value, .flowEntry, .flowSequenceEnd] false false s.next with
        | (k, none) => ([.mapping none [(k, .malformed)]], none)
        | (k, some s) =>
          let (v, after) := readValue fuel [.flowEntry, .flowSequenceEnd] false s
          continued (.mapping none [(k, v)], after)
      | _ => continued (readNode fuel false false s)

/-- Reads the entries of a mapping in braces.  A key there may lack its value. -/
def readFlowEntries : (fuel : Nat) → (first : Bool) → Source → Outcome (List (Node × Node))
  | 0, _, _ => ([(.malformed, .malformed)], none)
  | fuel + 1, first, s =>
    if s.sees [.flowMappingEnd] then ([], some s.next)
    else if !first && !s.sees [.flowEntry] then ([(.malformed, .malformed)], none)
    else
      let s := if first then s else s.next
      let continued (k : Node) : Outcome Node → Outcome (List (Node × Node))
        | (v, none) => ([(k, v)], none)
        | (v, some s) =>
          let (entries, after) := readFlowEntries fuel false s
          ((k, v) :: entries, after)
      match s.tokens with
      | .flowMappingEnd :: _ => ([], some s.next)
      | .key :: _ =>
        match readUnless fuel [.value, .flowEntry, .flowMappingEnd] false false s.next with
        | (k, none) => ([(k, .malformed)], none)
        | (k, some s) => continued k (readValue fuel [.flowEntry, .flowMappingEnd] false s)
      | _ =>
        match readNode fuel false false s with
        | (k, none) => ([(k, .malformed)], none)
        | (k, some s) => continued k (.empty none, some s)

end

/-- Takes the directives in front of a document; a rule for tags or a version may be given
once. -/
def takeDirectives : (versions : Nat) → (rules : List (String × String)) → List Token →
    Option (List (String × String) × List Token)
  | versions, rules, .version supported :: rest =>
    if supported && versions = 0 then takeDirectives 1 rules rest else none
  | versions, rules, .tagRule handle expansion :: rest =>
    if rules.any fun rule => rule.1 = handle then none
    else takeDirectives versions ((handle, expansion) :: rules) rest
  | _, rules, tokens => some (rules, tokens)

/-- Whether a token stands between documents. -/
def isBoundary : Token → Bool
  | .version _ => true
  | .tagRule _ _ => true
  | .documentStart => true
  | .documentEnd => true
  | _ => false

/-- Whether something other than the ends of documents is left. -/
def hasMore (complete : Bool) (tokens : List Token) : Bool :=
  !complete || tokens.any fun t => t != .documentEnd

end NodeReading

/-- The first document of a text, and whether anything follows it. -/
structure Document where
  root : Node
  hasTrailer : Bool

namespace Document

/-- The document whose content starts with the given tokens. -/
def ofContent (complete : Bool) (rules : List (String × String)) (tokens : List Token) :
    Document :=
  match tokens with
  | [] => if complete then ⟨.empty none, false⟩ else ⟨.malformed, true⟩
  | t :: _ =>
    if NodeReading.isBoundary t then
      ⟨.empty none, NodeReading.hasMore complete tokens⟩
    else
      match NodeReading.readNode (4 * (tokens.length + 1)) true false ⟨tokens, [], rules⟩ with
      | (n, none) => ⟨n, true⟩
      | (n, some s) => ⟨n, NodeReading.hasMore complete s.tokens⟩

/-- Reads a text. -/
def ofText (text : String) : Document :=
  let (tokens, complete) := Token.ofText text
  match tokens with
  | [] => if complete then ⟨.absent, false⟩ else ⟨.malformed, true⟩
  | t :: _ =>
    if NodeReading.isBoundary t then
      match NodeReading.takeDirectives 0 [] tokens with
      | some (rules, .documentStart :: rest) => ofContent complete rules rest
      | _ => ⟨.malformed, true⟩
    else ofContent complete [] tokens

end Document

end ElementFinder.Yaml
