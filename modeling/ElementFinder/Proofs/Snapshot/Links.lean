import ElementFinder.Snapshot.Basic
import ElementFinder.Proofs.Links

/-!
# Links of snapshots

The subtree of a node is the walk down its links and its ancestors are the climb up them, so
what `Links` says of walks and climbs holds of snapshots.  Pushing a node adds one place at the
end and lists it under its holder; nothing else moves.
-/

namespace ElementFinder

namespace Snapshot

/-- The children of every node. -/
def links (s : Snapshot) : Links :=
  fun id => (s.node? id).map SnapshotNode.children

/-- A number has links when there is a node with it: its children. -/
theorem links_eq_some {s : Snapshot} {id : Nat} {children : List Nat} :
    s.links id = some children ↔ ∃ node, s.node? id = some node ∧ node.children = children := by
  simp [links, Option.map_eq_some_iff]

/-- The links lead to the children listed. -/
theorem child_iff {s : Snapshot} {p c : Nat} :
    s.links.Child p c ↔ ∃ node, s.node? p = some node ∧ c ∈ node.children := by
  constructor
  · intro hforth
    rcases hforth with ⟨children, hp, hc⟩
    obtain ⟨node, hnode, rfl⟩ := links_eq_some.mp hp
    exact ⟨node, hnode, hc⟩
  · intro hback
    rcases hback with ⟨node, hnode, hc⟩
    exact ⟨node.children, links_eq_some.mpr ⟨node, hnode, rfl⟩, hc⟩

/-- The children of a node are those that the links lead to. -/
theorem mem_children {s : Snapshot} {p c : Nat} : c ∈ s.children p ↔ s.links.Child p c := by
  rw [child_iff, children]
  cases s.node? p with
  | none => simp
  | some node => simp

/-- A subtree down to a depth is a walk along the links. -/
theorem subtreeWithin_eq_walk (s : Snapshot) (depth id : Nat) :
    s.subtreeWithin depth id = s.links.walk depth id := by
  induction depth generalizing id with
  | zero => rfl
  | succ depth ih =>
      have hrest : s.subtreeWithin depth = s.links.walk depth := funext ih
      cases hid : s.node? id with
      | none => simp [subtreeWithin, Links.walk, links, hid]
      | some node => simp [subtreeWithin, Links.walk, links, hid, hrest]

/-- A subtree is a walk along the links. -/
theorem subtree_eq_walk (s : Snapshot) (id : Nat) :
    s.subtree id = s.links.walk s.size id :=
  subtreeWithin_eq_walk s s.size id

/-- The ancestors up to a bound are a climb along the parents. -/
theorem ancestorsWithin_eq_climb (s : Snapshot) (bound id : Nat) :
    s.ancestorsWithin bound id = Links.climb s.parent? bound id := by
  induction bound generalizing id with
  | zero => rfl
  | succ bound ih =>
      cases hid : s.parent? id with
      | none => simp [ancestorsWithin, Links.climb, hid]
      | some p => simp [ancestorsWithin, Links.climb, hid, ih]

/-- Below a missing node there is nothing. -/
theorem subtree_of_missing {s : Snapshot} {id : Nat} (hid : s.node? id = none) :
    s.subtree id = [] := by
  rw [subtree_eq_walk]
  exact Links.walk_none (by rw [links, hid, Option.map_none]) s.size

/-- The subtree of a node is the node and the subtrees of its children. -/
theorem subtree_eq {s : Snapshot} (h : s.links.Descending s.size) {id : Nat} {node : SnapshotNode}
    (hid : s.node? id = some node) : s.subtree id = id :: node.children.flatMap s.subtree := by
  have hwalk : s.subtree = s.links.walk s.size := funext s.subtree_eq_walk
  rw [hwalk]
  exact Links.walk_eq h (links_eq_some.mpr ⟨node, hid, rfl⟩)

/-- The number of a node is below the size. -/
theorem node?_lt {s : Snapshot} {id : Nat} {node : SnapshotNode} (h : s.node? id = some node) :
    id < s.size := by
  by_contra hlt
  have hnone : s.nodes[id]? = none := Array.getElem?_eq_none (by simpa [size] using hlt)
  simp [node?, hnone] at h

/-- There is nothing behind the last node. -/
theorem node?_eq_none {s : Snapshot} {id : Nat} (h : s.size ≤ id) : s.node? id = none :=
  Array.getElem?_eq_none h

/-- The children of a node are those that it lists. -/
theorem children_eq {s : Snapshot} {id : Nat} {node : SnapshotNode} (h : s.node? id = some node) :
    s.children id = node.children := by
  rw [children, h]
  rfl

/-- A number beyond the size has no children. -/
theorem children_eq_nil {s : Snapshot} {id : Nat} (h : s.size ≤ id) : s.children id = [] := by
  rw [children, node?_eq_none h]
  rfl

/-- A node that names a parent is there. -/
theorem lt_of_parent? {s : Snapshot} {p c : Nat} (h : s.parent? c = some p) : c < s.size := by
  obtain ⟨node, hnode, -⟩ := Option.bind_eq_some_iff.mp h
  exact node?_lt hnode

/-- Every number below the size has a node. -/
theorem exists_node {s : Snapshot} {id : Nat} (h : id < s.size) :
    ∃ node, s.node? id = some node :=
  ⟨s.nodes[id], Array.getElem?_eq_getElem h⟩

/-- A node without a parent has no ancestors. -/
theorem ancestors_of_orphan {s : Snapshot} {id : Nat} (hid : s.parent? id = none) :
    s.ancestors id = [] := by
  rw [ancestors, ancestorsWithin_eq_climb]
  exact Links.climb_none hid s.size

/-- A push adds one node. -/
@[simp] theorem size_push (s : Snapshot) (parent : Nat) (a : Attributes) :
    (s.push parent a).size = s.size + 1 := by
  simp [push, size]

/-- The nodes after a push: the holder lists the new node, which stands at the end. -/
theorem node?_push (s : Snapshot) (parent : Nat) (a : Attributes) (k : Nat) :
    (s.push parent a).node? k =
      if k = s.size then some ⟨some (s.holder parent), [], a⟩
      else if k = s.holder parent then (s.node? k).map fun node =>
        { node with children := node.children ++ [s.size] }
      else s.node? k := by
  simp only [push, node?, Array.getElem?_push, Array.size_modify, Array.getElem?_modify]
  by_cases hk : k = s.size
  · subst hk
    simp [size]
  · have hk' : k ≠ s.nodes.size := hk
    by_cases hholder : s.holder parent = k
    · simp [hk, hk', hholder]
    · simp [hk, hk', hholder, Ne.symm hholder]

/-- A parent that is there holds what is pushed under it. -/
theorem holder_eq {s : Snapshot} {parent : Nat} (h : parent < s.size) :
    s.holder parent = parent :=
  if_pos h

end Snapshot

end ElementFinder
