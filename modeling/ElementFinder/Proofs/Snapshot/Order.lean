import ElementFinder.Proofs.Snapshot.Loops

/-!
# Document order of built snapshots

Nodes may be added under any node at any time, so the numbers of a snapshot say when its nodes were
added and document order says where they hang.  The two agree on one thing only, that a parent comes
before its children.  Building keeps the links a tree, and in a tree the walk down and the way up
are two sides of one relation (`Built.mem_subtree_iff`), a subtree is one piece of document order
(`Built.exists_block`), and siblings stand in the order of the list (`Built.exists_siblings`).
-/

namespace ElementFinder

namespace Snapshot

namespace Built

variable {s : Snapshot}

theorem mem_documentOrder (hs : s.Built) {k : Nat} : k ∈ s.documentOrder ↔ k < s.size := by
  rw [hs.perm_documentOrder.mem_iff, List.mem_range]

/-- The subtree of a node holds the node, and the nodes that have it among their ancestors. -/
theorem mem_subtree_iff (hs : s.Built) {i j : Nat} (hi : i < s.size) :
    j ∈ s.subtree i ↔ j = i ∨ i ∈ s.ancestors j := by
  obtain ⟨node, hnode⟩ := exists_node hi
  have hlinks : s.links i = some node.children := links_eq_some.mpr ⟨node, hnode, rfl⟩
  rw [subtree_eq_walk, Links.mem_walk hs.forest hlinks,
    hs.checked.mem_ancestors_iff hs.isTree.listed]
  exact Relation.reflTransGen_iff_eq_or_transGen

/-- The subtree of a node is one piece of document order, and the node stands at its front. -/
theorem exists_block (hs : s.Built) {i : Nat} (hi : i < s.size) :
    ∃ before below after, s.subtree i = i :: below ∧
      s.documentOrder = before ++ s.subtree i ++ after := by
  obtain ⟨node, hnode⟩ := exists_node hi
  obtain ⟨before, after, hpiece⟩ :=
    hs.checked.subtree_infix_of_mem (hs.mem_documentOrder.mpr hi)
  exact ⟨before, node.children.flatMap s.subtree, after,
    subtree_eq hs.checked.descending hnode, hpiece.symm⟩

/-- In document order a node stands behind its parent, and before the children that its parent lists
behind it. -/
theorem exists_siblings (hs : s.Built) {p c : Nat} (hp : s.parent? c = some p) :
    ∃ earlier later, s.children p = earlier ++ c :: later ∧ [p, c].Sublist s.documentOrder ∧
      ∀ d ∈ later, [c, d].Sublist s.documentOrder := by
  have hlt : p < s.size := Nat.lt_trans (hs.checked.parent_lt hp) (lt_of_parent? hp)
  obtain ⟨earlier, later, hlisted⟩ := List.append_of_mem (hs.isTree.listed p c hp)
  have horder : (p :: s.children p).Sublist s.documentOrder :=
    (hs.checked.cons_children_sublist_subtree hlt).trans
      (hs.checked.subtree_infix_of_mem (hs.mem_documentOrder.mpr hlt)).sublist
  rw [hlisted] at horder
  have hbehind : (c :: later).Sublist (earlier ++ c :: later) :=
    List.sublist_append_right earlier (c :: later)
  refine ⟨earlier, later, hlisted, ?_, ?_⟩
  · have hfirst : [c].Sublist (c :: later) := List.singleton_sublist.mpr List.mem_cons_self
    exact ((hfirst.trans hbehind).cons_cons p).trans horder
  · intro d hd
    have hnext : [c, d].Sublist (c :: later) := (List.singleton_sublist.mpr hd).cons_cons c
    exact ((hnext.trans hbehind).cons p).trans horder

/-- **Built snapshots are trees, and their walks agree.**  A built snapshot is read back from its
nodes and its viewport.  The loops up and down end with the ancestors and the subtree of a node.
Document order meets every node once, behind its parent and before what its parent lists behind it.
A node is in the subtree of another exactly when it is the other or has it among its ancestors, and
every subtree is one piece of document order with its top in front. -/
theorem walks_agree (hs : s.Built) :
    ofRecords s.records s.viewport = .ok s ∧
      (∀ k, s.AncestorLoop (s.parent? k) (s.ancestors k) ∧
        ∃ pushed, s.SubtreeLoop [k] (s.subtree k) pushed) ∧
      s.documentOrder.Perm (List.range s.size) ∧
      (∀ p c, s.parent? c = some p → ∃ earlier later, s.children p = earlier ++ c :: later ∧
        [p, c].Sublist s.documentOrder ∧ ∀ d ∈ later, [c, d].Sublist s.documentOrder) ∧
      (∀ i j, i < s.size → (j ∈ s.subtree i ↔ j = i ∨ i ∈ s.ancestors j)) ∧
      ∀ i, i < s.size → ∃ before below after, s.subtree i = i :: below ∧
        s.documentOrder = before ++ s.subtree i ++ after := by
  have h := hs.checked
  refine ⟨h.ofRecords_records, ?_, hs.perm_documentOrder, fun _ _ => hs.exists_siblings,
    fun _ _ => hs.mem_subtree_iff, fun _ => hs.exists_block⟩
  intro k
  refine ⟨(h.ancestorLoop_iff k _).mpr rfl, (s.subtree k).flatMap s.pushes, ?_⟩
  rw [h.subtreeLoop_iff, List.flatMap_singleton]
  exact ⟨rfl, rfl⟩

end Built

/-- Two children of a root, the first one added for a parent that is not there, and a grandchild
below the first that was added last. -/
def strayChild : Snapshot :=
  (((ofRoot {}).push 9 {}).push 0 {}).push 1 {}

/-- The grandchild has the largest number and stands third in document order, right behind its
parent. -/
theorem walks_agree_strayChild :
    strayChild.Built ∧ ofRecords strayChild.records strayChild.viewport = .ok strayChild ∧
      strayChild.documentOrder = [0, 1, 3, 2] ∧ strayChild.ancestors 3 = [1, 0] ∧
      (3 ∈ strayChild.subtree 1 ↔ 3 = 1 ∨ 1 ∈ strayChild.ancestors 3) ∧
      ∃ before below after, strayChild.subtree 1 = 1 :: below ∧
        strayChild.documentOrder = before ++ strayChild.subtree 1 ++ after := by
  have hbuilt : strayChild.Built := (((Built.ofRoot {}).push 9 {}).push 0 {}).push 1 {}
  obtain ⟨hread, -, -, -, hduality, hblock⟩ := hbuilt.walks_agree
  exact ⟨hbuilt, hread, rfl, rfl, hduality 1 3 (by decide), hblock 1 (by decide)⟩

end Snapshot

end ElementFinder
