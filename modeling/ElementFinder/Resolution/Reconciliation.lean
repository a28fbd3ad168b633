import ElementFinder.Live.Access
import ElementFinder.Locator.Basic
import ElementFinder.Locator.Options
import ElementFinder.Resolution.Basic
import ElementFinder.Snapshot.Markup

/-!
# Finding the nodes of a snapshot among live elements

Live elements have no lasting identity, so a node of a snapshot is found again by its looks:
the live elements of its type are asked for their attributes, and the first that looks like
the node stands for it.  The root of the snapshot stands for the element it was taken of.
An element may be allowed to stand for one node only.
-/

namespace ElementFinder

/-- Nodes that are to be found again: their index paths, the snapshot, the live element that
it was taken of, and whether live elements are looked at from the back. -/
structure Reconciliation where
  matched : List (String × Nat)
  snapshot : Snapshot
  liveRoot : Handle
  reverse : Bool

namespace Reconciliation

/-- The live elements of each type that may stand for nodes of that type. -/
abbrev Pools := List (ElementType × List Handle)

/-- What is known about live elements: their attributes as far as they were asked for,
nothing for a stale one, and those that stand for a node already. -/
structure Progress where
  captured : List (Handle × Option Attributes) := []
  claimed : List Handle := []

/-- The type of a node. -/
def typeOf (r : Reconciliation) (id : Nat) : ElementType :=
  ((r.snapshot.attributes? id).map Attributes.elementType).getD .any

/-- The types of the nodes to be found, each once. -/
def types (r : Reconciliation) : List ElementType :=
  ((r.matched.filter fun m => m.2 != 0).map fun m => r.typeOf m.2).eraseDups

/-- Asks for the live elements of each type. -/
def pools (r : Reconciliation) : Access Pools :=
  r.types.mapM fun t => do
    let found ← Access.query ((ElementQuery.start r.liveRoot).step (.descendants t))
    return (t, if r.reverse then found.reverse else found)

/-- The attributes of a live element, asked for once. -/
def captureOnce (p : Progress) (h : Handle) : Access (Option Attributes × Progress) :=
  match p.captured.find? fun entry => entry.1 = h with
  | some (_, actual) => return (actual, p)
  | none => do
    let actual ← Access.attributes? h
    return (actual, { p with captured := (h, actual) :: p.captured })

/-- The first live element that looks as expected and does not stand for a node already. -/
def findAlike (expected : Attributes) : Progress → List Handle →
    Access (Option Handle × Progress)
  | p, [] => return (none, p)
  | p, h :: rest =>
    if p.claimed.contains h then findAlike expected p rest
    else do
      let (actual, p) ← captureOnce p h
      if (actual.map expected.looksLike).getD false then return (some h, p)
      else findAlike expected p rest

/-- Finds nodes one after the other. -/
def findAll (r : Reconciliation) (claimUnique : Bool) (pools : Pools) :
    Resolution → Progress → List (String × Nat) → Access Resolution
  | found, _, [] => return found
  | found, p, (path, id) :: rest =>
    if id = 0 then findAll r claimUnique pools (found.found r.liveRoot) p rest
    else
      match r.snapshot.attributes? id with
      | none => findAll r claimUnique pools found p rest
      | some expected => do
        let pool := ((pools.find? fun pool => pool.1 = expected.elementType).map Prod.snd).getD []
        match ← findAlike expected p pool with
        | (some h, p) =>
          let p := if claimUnique then { p with claimed := h :: p.claimed } else p
          findAll r claimUnique pools (found.found h) p rest
        | (none, p) =>
          findAll r claimUnique pools
            (found.report (.reconciliationMiss path expected.elementType.name)) p rest

/-- Finds the nodes again. -/
def run (r : Reconciliation) (options : ResolverOptions) : Access Resolution := do
  findAll r options.claimUnique (← r.pools) {} {} r.matched

end Reconciliation

end ElementFinder
