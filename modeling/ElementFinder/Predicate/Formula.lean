/-!
# Formulas

Truth constants, atoms, negation, conjunction and disjunction over any kind of atom.
Conjunctions and disjunctions have any number of terms.
-/

namespace ElementFinder

/-- A formula over atoms. -/
inductive Formula (α : Type) where
  | constant (value : Bool)
  | atom (a : α)
  | not (p : Formula α)
  | and (terms : List (Formula α))
  | or (terms : List (Formula α))
deriving Inhabited

namespace Formula

variable {α β ε : Type}

mutual

/-- The truth of a formula when the truth of its atoms is given. -/
def eval (holds : α → Bool) : Formula α → Bool
  | constant value => value
  | atom a => holds a
  | not p => !eval holds p
  | and terms => evalAll holds terms
  | or terms => evalAny holds terms

/-- Whether all terms are true. -/
def evalAll (holds : α → Bool) : List (Formula α) → Bool
  | [] => true
  | p :: rest => eval holds p && evalAll holds rest

/-- Whether some term is true. -/
def evalAny (holds : α → Bool) : List (Formula α) → Bool
  | [] => false
  | p :: rest => eval holds p || evalAny holds rest

end

mutual

/-- Replaces every atom, from left to right, or stops at the first that cannot be
replaced. -/
def traverse (f : α → Except ε β) : Formula α → Except ε (Formula β)
  | constant value => .ok (constant value)
  | atom a => (f a).map atom
  | not p => (traverse f p).map not
  | and terms => (traverseAll f terms).map and
  | or terms => (traverseAll f terms).map or

/-- `traverse` of each term. -/
def traverseAll (f : α → Except ε β) : List (Formula α) → Except ε (List (Formula β))
  | [] => .ok []
  | p :: rest =>
    match traverse f p with
    | .error e => .error e
    | .ok q => (traverseAll f rest).map (q :: ·)

end

mutual

/-- Equality of formulas with equal atoms. -/
def eqv (same : α → α → Bool) : Formula α → Formula α → Bool
  | constant a, constant b => a = b
  | atom a, atom b => same a b
  | not p, not q => eqv same p q
  | and ps, and qs => eqvAll same ps qs
  | or ps, or qs => eqvAll same ps qs
  | _, _ => false

/-- Equality term by term. -/
def eqvAll (same : α → α → Bool) : List (Formula α) → List (Formula α) → Bool
  | [], [] => true
  | p :: ps, q :: qs => eqv same p q && eqvAll same ps qs
  | _, _ => false

end

/-- The conjunction with a further term; a conjunction on the left takes it as its last
term. -/
def conj (p q : Formula α) : Formula α :=
  match p with
  | and terms => and (terms ++ [q])
  | p => and [p, q]

/-- The disjunction with a further term; a disjunction on the left takes it as its last
term. -/
def disj (p q : Formula α) : Formula α :=
  match p with
  | or terms => or (terms ++ [q])
  | p => or [p, q]

/-- A single term stands for itself, more than one are joined. -/
def joined (join : List (Formula α) → Formula α) : List (Formula α) → Formula α
  | [p] => p
  | ps => join ps

end Formula

end ElementFinder
