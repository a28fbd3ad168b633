import ElementFinder.Proofs.Live.Numbering
import ElementFinder.Snapshot.Visibility

/-!
# Live elements as they are seen in the whole tree

Visibility is judged against the screen of the whole tree and accessibility by all ancestors up
to the root.  This file says both of live elements themselves, without a snapshot, and shows
that a capture of the whole tree judges its nodes the same way.
-/

namespace ElementFinder

namespace LiveTree

/-- The attributes of a live element. -/
def attributes? (t : LiveTree) (id : Nat) : Option Attributes :=
  (t.node? id).map LiveNode.attributes

/-- The parent of a live element. -/
def parent? (t : LiveTree) (id : Nat) : Option Nat :=
  (t.node? id).bind LiveNode.parent

/-- The ancestors of a live element, the nearest first. -/
def ancestors (t : LiveTree) (id : Nat) : List Nat :=
  Links.climb t.parent? t.nextId id

/-- All live elements in document order. -/
def documentOrder (t : LiveTree) : List Nat :=
  t.subtree root

/-- The proper descendants of a live element in document order. -/
def descendants (t : LiveTree) (id : Nat) : List Nat :=
  (t.subtree id).drop 1

/-- Whether a live element has a part on the screen. -/
def isVisible (t : LiveTree) (id : Nat) : Bool :=
  match t.attributes? id with
  | none => false
  | some a => !a.frame.isEmpty && !a.shownFrame.isEmpty && a.shownFrame.intersects t.viewport

/-- Whether the first child of a live element is flagged as accessible. -/
def firstChildFlagged (t : LiveTree) (node : LiveNode) : Bool :=
  match node.children.head?.bind t.attributes? with
  | some a => a.accessible
  | none => false

/-- Whether a live element offers itself to assistive clients. -/
def offersItself (t : LiveTree) (node : LiveNode) : Bool :=
  if node.attributes.elementType = .cell then
    node.attributes.accessible || t.firstChildFlagged node
  else
    node.attributes.elementType = .textField ||
      node.attributes.elementType = .secureTextField || node.attributes.accessible

/-- Whether a live element hides what is below it from assistive clients. -/
def shields (t : LiveTree) (id : Nat) : Bool :=
  match t.attributes? id with
  | some a => a.accessible && a.elementType != .table
  | none => false

/-- Whether a live element is offered to assistive clients: it offers itself, and none of its
ancestors up to the root of the tree hides it. -/
def isAccessible (t : LiveTree) (id : Nat) : Bool :=
  match t.node? id with
  | none => false
  | some node => t.offersItself node && !(t.ancestors id).any t.shields

/-- A live element as predicates see it in the whole tree. -/
def view? (t : LiveTree) (id : Nat) : Option ElementView :=
  (t.attributes? id).map fun a => ⟨a, t.isVisible id, t.isAccessible id⟩

/-- Whether a predicate holds of a live element in the whole tree. -/
def satisfies (t : LiveTree) (p : Predicate) (id : Nat) : Bool :=
  match t.view? id with
  | some e => p.holds e
  | none => false

/-- Whether a live element has a type that another type accepts. -/
def hasType (t : LiveTree) (ty : ElementType) (id : Nat) : Bool :=
  match t.attributes? id with
  | some a => ty.accepts a.elementType
  | none => false

/-- A parent has a smaller number. -/
theorem WellFormed.parent?_lt {t : LiveTree} (ht : t.WellFormed) (x p : Nat)
    (hp : t.parent? x = some p) : p < x := by
  obtain ⟨node, hnode, hparent⟩ := Option.bind_eq_some_iff.mp hp
  exact (ht.child_of_parent hnode hparent).1

end LiveTree

namespace Capture.Faithful

variable {c : Capture} {t : LiveTree} {top : Nat}

/-- A node shows the attributes of its element. -/
theorem attributes?_liveOf (h : c.Faithful t top) {k : Nat} (hk : k < c.snapshot.size) :
    c.snapshot.attributes? k = t.attributes? (c.liveOf k) :=
  h.attributes?_eq hk

/-- A node has the type of its element. -/
theorem hasType_liveOf (h : c.Faithful t top) {k : Nat} (hk : k < c.snapshot.size)
    (ty : ElementType) : c.snapshot.hasType ty k = t.hasType ty (c.liveOf k) := by
  have hsame := h.attributes?_liveOf hk
  unfold Snapshot.hasType LiveTree.hasType
  cases hlive : t.attributes? (c.liveOf k) with
  | none => simp [hsame, hlive]
  | some a => simp [hsame, hlive]

/-- Every capture judges visibility as the whole tree does, since all use the same screen. -/
theorem isVisible_liveOf (h : c.Faithful t top) {k : Nat} (hk : k < c.snapshot.size) :
    c.snapshot.isVisible k = t.isVisible (c.liveOf k) := by
  have hsame := h.attributes?_liveOf hk
  unfold Snapshot.isVisible LiveTree.isVisible
  cases hlive : t.attributes? (c.liveOf k) with
  | none => simp [hsame, hlive]
  | some a => simp [hsame, hlive, h.viewport_eq]

/-- A node shields what is below it when its element does. -/
theorem shields_liveOf (h : c.Faithful t top) {k : Nat} (hk : k < c.snapshot.size) :
    c.snapshot.shields k = t.shields (c.liveOf k) := by
  have hsame := h.attributes?_liveOf hk
  unfold Snapshot.shields LiveTree.shields
  cases hlive : t.attributes? (c.liveOf k) with
  | none => simp [hsame, hlive]
  | some a => simp [hsame, hlive]

/-- A node offers itself when its element does. -/
theorem offersItself_liveOf (h : c.Faithful t top) {k : Nat} {copy : SnapshotNode}
    {node : LiveNode} (hcopy : c.snapshot.node? k = some copy)
    (hnode : t.node? (c.liveOf k) = some node) :
    c.snapshot.offersItself copy = t.offersItself node := by
  obtain ⟨copy', node', hcopy', hnode', hattributes, hchildren, hrange⟩ :=
    h.mirrors k (Snapshot.node?_lt hcopy)
  obtain rfl : copy = copy' := Option.some.inj (hcopy.symm.trans hcopy')
  obtain rfl : node = node' := Option.some.inj (hnode.symm.trans hnode')
  have hflag : c.snapshot.firstChildFlagged copy = t.firstChildFlagged node := by
    unfold Snapshot.firstChildFlagged LiveTree.firstChildFlagged
    rw [← hchildren]
    cases hfirst : copy.children with
    | nil => rfl
    | cons j rest =>
        have hj : j < c.snapshot.size := (hrange j (by simp [hfirst])).2
        have hsame := h.attributes?_liveOf hj
        cases hlive : t.attributes? (c.liveOf j) with
        | none => simp [hsame, hlive]
        | some a => simp [hsame, hlive]
  simp only [Snapshot.offersItself, LiveTree.offersItself, hattributes, hflag]

/-- Parents of nodes below the root are copies of the parents of their elements. -/
theorem parent?_liveOf (h : c.Faithful t top) {k : Nat} (hpos : 0 < k)
    (hk : k < c.snapshot.size) :
    ∃ p, c.snapshot.parent? k = some p ∧ p < k ∧ t.parent? (c.liveOf k) = some (c.liveOf p) := by
  obtain ⟨copy, node, p, hcopy, hnode, hparent, hlt, hup⟩ := h.hangs k hpos hk
  exact ⟨p, by simp [Snapshot.parent?, hcopy, hparent], hlt,
    by simp [LiveTree.parent?, hnode, hup]⟩

/-- The parent of a node lists it as a child. -/
theorem parent?_eq_some_iff (h : c.Faithful t top) (ht : t.WellFormed) {p k : Nat}
    (hk : k < c.snapshot.size) :
    c.snapshot.parent? k = some p ↔ c.snapshot.links.Child p k := by
  constructor
  · intro hp
    have hpos : 0 < k := by
      by_contra hzero
      obtain rfl : k = 0 := by omega
      rw [h.top_parent] at hp
      cases hp
    obtain ⟨q, hq, hlt, hup⟩ := h.parent?_liveOf hpos hk
    obtain rfl : q = p := Option.some.inj (hq.symm.trans hp)
    obtain ⟨child, hchild, hparent⟩ := Option.bind_eq_some_iff.mp hup
    obtain ⟨-, hlisted⟩ := ht.child_of_parent hchild hparent
    exact Snapshot.mem_children.mp ((h.mem_children_iff ht hk (Nat.lt_trans hlt hk)).mpr
      (LiveTree.child_iff.mpr hlisted))
  · intro hchild
    have hrange := h.child_range hchild
    obtain ⟨q, hq, hlt, hup⟩ := h.parent?_liveOf (by omega) hk
    obtain ⟨child, hnode, hparent⟩ := ht.parent_of_links (h.child_map hchild)
    have hsame : c.liveOf q = c.liveOf p := by
      simpa [LiveTree.parent?, hnode, hparent, eq_comm] using hup
    rw [hq, h.liveOf_inj ht (by omega) (by omega) hsame]

/-- Parents of nodes are nodes with smaller numbers. -/
theorem parent?_lt (h : c.Faithful t top) (k p : Nat) (hp : c.snapshot.parent? k = some p) :
    p < k := by
  obtain ⟨node, hnode, -⟩ := Option.bind_eq_some_iff.mp hp
  by_cases hzero : k = 0
  · rw [hzero, h.top_parent] at hp
    exact absurd hp (by simp)
  · obtain ⟨q, hq, hlt, -⟩ := h.parent?_liveOf (Nat.pos_of_ne_zero hzero) (Snapshot.node?_lt hnode)
    rwa [← Option.some.inj (hp.symm.trans hq)] at hlt

/-- **Ancestors of a copy.**  The ancestors of an element are those that its node has in the
capture, and above them the ancestors of the captured element, which the capture leaves out. -/
theorem ancestors_liveOf (h : c.Faithful t top) (ht : t.WellFormed) {k : Nat}
    (hk : k < c.snapshot.size) :
    t.ancestors (c.liveOf k) = (c.snapshot.ancestors k).map c.liveOf ++ t.ancestors top := by
  induction k using Nat.strongRecOn with
  | ind k ih =>
      rw [Snapshot.ancestors, Snapshot.ancestorsWithin_eq_climb]
      by_cases hzero : k = 0
      · subst hzero
        rw [h.liveOf_top, Links.climb_none h.top_parent, List.map_nil, List.nil_append]
      · obtain ⟨p, hp, hlt, hup⟩ := h.parent?_liveOf (Nat.pos_of_ne_zero hzero) hk
        obtain ⟨node, hnode⟩ := h.node_live hk
        have hbelow := ih p hlt (Nat.lt_trans hlt hk)
        rw [Snapshot.ancestors, Snapshot.ancestorsWithin_eq_climb] at hbelow
        rw [Links.climb_eq h.parent?_lt (Nat.le_of_lt hk) hp, List.map_cons, List.cons_append,
          ← hbelow, LiveTree.ancestors, LiveTree.ancestors,
          Links.climb_eq ht.parent?_lt (Nat.le_of_lt (LiveTree.lt_nextId hnode)) hup]

/-- An ancestor in the copy is a node. -/
theorem lt_of_mem_ancestors (h : c.Faithful t top) {j k : Nat}
    (hj : j ∈ c.snapshot.ancestors k) : j < c.snapshot.size := by
  have hparents : ∀ x p, c.snapshot.parent? x = some p → p < c.snapshot.size := by
    intro x p hp
    obtain ⟨node, hnode, -⟩ := Option.bind_eq_some_iff.mp hp
    exact Nat.lt_trans (h.parent?_lt x p hp) (Snapshot.node?_lt hnode)
  have hwithin : ∀ bound k, j ∈ c.snapshot.ancestorsWithin bound k → j < c.snapshot.size := by
    intro bound
    induction bound with
    | zero => simp [Snapshot.ancestorsWithin]
    | succ bound ih =>
        intro k hj
        cases hp : c.snapshot.parent? k with
        | none => simp [Snapshot.ancestorsWithin, hp] at hj
        | some p =>
            simp only [Snapshot.ancestorsWithin, hp, List.mem_cons] at hj
            rcases hj with rfl | hj
            · exact hparents k j hp
            · exact ih p hj
  exact hwithin c.snapshot.size k hj

/-- A capture judges accessibility as the whole tree does, except that it does not see what hides
the captured element itself. -/
theorem isAccessible_liveOf (h : c.Faithful t top) (ht : t.WellFormed) {k : Nat}
    (hk : k < c.snapshot.size) :
    t.isAccessible (c.liveOf k) =
      (c.snapshot.isAccessible k && !(t.ancestors top).any t.shields) := by
  obtain ⟨copy, hcopy⟩ := Snapshot.exists_node hk
  obtain ⟨node, hnode⟩ := h.node_live hk
  have hshield : (c.snapshot.ancestors k).any c.snapshot.shields =
      ((c.snapshot.ancestors k).map c.liveOf).any t.shields := by
    rw [List.any_map, Bool.eq_iff_iff, List.any_eq_true, List.any_eq_true]
    apply exists_congr
    intro j
    apply and_congr_right
    intro hj
    rw [h.shields_liveOf (h.lt_of_mem_ancestors hj), Function.comp]
  simp only [Snapshot.isAccessible, LiveTree.isAccessible, hcopy, hnode,
    h.offersItself_liveOf hcopy hnode, hshield, h.ancestors_liveOf ht hk, List.any_append,
    Bool.not_or, Bool.and_assoc]

end Capture.Faithful

/-! ## Captures of the whole tree -/

/-- Nothing stands above the root. -/
theorem LiveTree.WellFormed.ancestors_root {t : LiveTree} (ht : t.WellFormed) :
    t.ancestors LiveTree.root = [] := by
  obtain ⟨top, hroot, htop⟩ := ht.root_live
  exact Links.climb_none (by simp [LiveTree.parent?, hroot, htop]) t.nextId

namespace Capture.Faithful

variable {c : Capture} {t : LiveTree}

/-- A capture of the whole tree judges accessibility as the whole tree does. -/
theorem isAccessible_root (h : c.Faithful t LiveTree.root) (ht : t.WellFormed) {k : Nat}
    (hk : k < c.snapshot.size) : c.snapshot.isAccessible k = t.isAccessible (c.liveOf k) := by
  rw [h.isAccessible_liveOf ht hk, ht.ancestors_root, List.any_nil, Bool.not_false, Bool.and_true]

/-- **One view.**  A capture of the whole tree shows its nodes to predicates as the live
elements are. -/
theorem satisfies_liveOf (h : c.Faithful t LiveTree.root) (ht : t.WellFormed) {k : Nat}
    (hk : k < c.snapshot.size) (p : Predicate) :
    c.snapshot.satisfies p k = t.satisfies p (c.liveOf k) := by
  have hview : c.snapshot.view? k = t.view? (c.liveOf k) := by
    rw [Snapshot.view?, LiveTree.view?, h.attributes?_liveOf hk, h.isVisible_liveOf hk,
      h.isAccessible_root ht hk]
  unfold Snapshot.satisfies LiveTree.satisfies
  cases hlive : t.view? (c.liveOf k) with
  | none => simp [hview, hlive]
  | some e => simp [hview, hlive]

end Capture.Faithful

end ElementFinder
