import ElementFinder.Proofs.Live.Copy

/-!
# The numbering of a capture

The nodes of a capture are numbered in document order, and `liveOf` renames them to the elements
they were copied from: it is one to one, hits the whole subtree, and carries children, subtrees
and descendants of nodes to those of elements.  So whatever is said of nodes in increasing order
can be read as a statement about elements in document order.
-/

namespace ElementFinder

namespace Capture

/-- A renaming that is one to one on two lists tells them apart. -/
theorem eq_of_map_eq_map {f : Nat → Nat} {xs ys : List Nat}
    (hinj : ∀ x ∈ xs, ∀ y ∈ ys, f x = f y → x = y) (h : xs.map f = ys.map f) : xs = ys := by
  induction xs generalizing ys with
  | nil => exact (List.map_eq_nil_iff.mp h.symm).symm
  | cons x xs ih =>
      cases ys with
      | nil => simp at h
      | cons y ys =>
          simp only [List.map_cons, List.cons.injEq] at h
          have hhead := hinj x List.mem_cons_self y List.mem_cons_self h.1
          have htail := ih (fun a ha b hb =>
            hinj a (List.mem_cons_of_mem x ha) b (List.mem_cons_of_mem y hb)) h.2
          rw [hhead, htail]

namespace Faithful

variable {c : Capture} {t : LiveTree} {top : Nat}

/-- A node stands for the element listed at its place. -/
theorem liveIds_getElem? (h : c.Faithful t top) {k : Nat} (hk : k < c.snapshot.size) :
    c.liveIds[k]? = some (c.liveOf k) := by
  have hlen : k < c.liveIds.length := h.size_eq ▸ hk
  rw [liveOf, List.getElem?_eq_getElem hlen]
  rfl

/-- The elements behind the nodes, in the order of the nodes, are the subtree. -/
theorem map_liveOf_range (h : c.Faithful t top) :
    (List.range c.snapshot.size).map c.liveOf = t.subtree top := by
  rw [← h.liveIds_eq]
  apply List.ext_getElem?
  intro k
  by_cases hk : k < c.snapshot.size
  · rw [h.liveIds_getElem? hk, List.getElem?_map, List.getElem?_range hk]
    rfl
  · have hlen : c.liveIds.length ≤ k := h.size_eq ▸ Nat.not_lt.mp hk
    rw [List.getElem?_eq_none hlen, List.getElem?_eq_none (by simpa using Nat.not_lt.mp hk)]

/-- Different nodes stand for different elements. -/
theorem liveOf_inj (h : c.Faithful t top) (ht : t.WellFormed) {j k : Nat}
    (hj : j < c.snapshot.size) (hk : k < c.snapshot.size) (heq : c.liveOf j = c.liveOf k) :
    j = k := by
  have hnodup : ((List.range c.snapshot.size).map c.liveOf).Nodup := by
    rw [h.map_liveOf_range]
    exact ht.subtree_nodup top
  exact List.inj_on_of_nodup_map hnodup (List.mem_range.mpr hj) (List.mem_range.mpr hk) heq

/-- Every element of the subtree has a node. -/
theorem exists_node (h : c.Faithful t top) {y : Nat} (hy : y ∈ t.subtree top) :
    ∃ k, k < c.snapshot.size ∧ c.liveOf k = y := by
  rw [← h.map_liveOf_range] at hy
  obtain ⟨k, hk, rfl⟩ := List.mem_map.mp hy
  exact ⟨k, List.mem_range.mp hk, rfl⟩

/-- A capture of a live element is not empty. -/
theorem size_pos (h : c.Faithful t top) (ht : t.WellFormed) {node : LiveNode}
    (htop : t.node? top = some node) : 0 < c.snapshot.size := by
  obtain ⟨k, hk, _⟩ := h.exists_node ((ht.mem_subtree htop).mpr .refl)
  exact Nat.lt_of_le_of_lt (Nat.zero_le k) hk

/-- A node stands for a live element. -/
theorem node_live (h : c.Faithful t top) {k : Nat} (hk : k < c.snapshot.size) :
    ∃ node, t.node? (c.liveOf k) = some node := by
  obtain ⟨_, node, _, hnode, _⟩ := h.mirrors k hk
  exact ⟨node, hnode⟩

/-- A node has the attributes of its element. -/
theorem attributes?_eq (h : c.Faithful t top) {k : Nat} (hk : k < c.snapshot.size) :
    c.snapshot.attributes? k = (t.node? (c.liveOf k)).map LiveNode.attributes := by
  obtain ⟨copy, node, hcopy, hnode, hattributes, _⟩ := h.mirrors k hk
  simp [Snapshot.attributes?, hcopy, hnode, hattributes]

/-- Links are copied link by link. -/
theorem links_map (h : c.Faithful t top) (k : Nat) (children : List Nat)
    (hk : c.snapshot.links k = some children) :
    t.links (c.liveOf k) = some (children.map c.liveOf) := by
  obtain ⟨found, hfound, rfl⟩ := Snapshot.links_eq_some.mp hk
  obtain ⟨copy, node, hcopy, hnode, _, hchildren, _⟩ := h.mirrors k (Snapshot.node?_lt hfound)
  obtain rfl : found = copy := Option.some.inj (hfound.symm.trans hcopy)
  exact LiveTree.links_eq_some.mpr ⟨node, hnode, hchildren.symm⟩

/-- A child in the copy comes after its parent. -/
theorem child_range (h : c.Faithful t top) {p k : Nat} (hpk : c.snapshot.links.Child p k) :
    p < k ∧ k < c.snapshot.size := by
  obtain ⟨found, hfound, hk⟩ := Snapshot.child_iff.mp hpk
  obtain ⟨copy, _, hcopy, _, _, _, hrange⟩ := h.mirrors p (Snapshot.node?_lt hfound)
  obtain rfl : found = copy := Option.some.inj (hfound.symm.trans hcopy)
  exact hrange k hk

/-- A child in the copy stands for a child. -/
theorem child_map (h : c.Faithful t top) {p k : Nat} (hpk : c.snapshot.links.Child p k) :
    t.links.Child (c.liveOf p) (c.liveOf k) := by
  obtain ⟨children, hp, hk⟩ := hpk
  exact ⟨children.map c.liveOf, h.links_map p children hp, List.mem_map_of_mem hk⟩

/-- The links of the copy are a forest. -/
theorem forest (h : c.Faithful t top) (ht : t.WellFormed) :
    c.snapshot.links.Forest c.snapshot.size where
  lt_bound := by
    intro k children hk
    obtain ⟨node, hnode, _⟩ := Snapshot.links_eq_some.mp hk
    exact Snapshot.node?_lt hnode
  lt_child := fun hpk => (h.child_range hpk).1
  child_used := by
    intro p k hpk
    obtain ⟨node, hnode⟩ := Snapshot.exists_node (h.child_range hpk).2
    exact ⟨node.children, Snapshot.links_eq_some.mpr ⟨node, hnode, rfl⟩⟩
  children_nodup := by
    intro p children hp
    exact (ht.forest.children_nodup (h.links_map p children hp)).of_map c.liveOf
  parent_unique := by
    intro p q k hpk hqk
    have hsame : c.liveOf p = c.liveOf q :=
      ht.forest.parent_unique (h.child_map hpk) (h.child_map hqk)
    have hp := h.child_range hpk
    have hq := h.child_range hqk
    exact h.liveOf_inj ht (by omega) (by omega) hsame

/-- Subtrees of nodes are renamed to subtrees of elements. -/
theorem map_subtree (h : c.Faithful t top) (ht : t.WellFormed) {k : Nat}
    (hk : k < c.snapshot.size) : (c.snapshot.subtree k).map c.liveOf = t.subtree (c.liveOf k) := by
  obtain ⟨node, hnode⟩ := Snapshot.exists_node hk
  rw [Snapshot.subtree_eq_walk, LiveTree.subtree_eq_walk]
  exact Links.walk_map (h.forest ht) ht.forest.toDescending c.liveOf h.links_map
    (Snapshot.links_eq_some.mpr ⟨node, hnode, rfl⟩)

/-- The subtree of a node holds nodes. -/
theorem lt_of_mem_subtree (h : c.Faithful t top) (ht : t.WellFormed) {j k : Nat}
    (hk : k < c.snapshot.size) (hj : j ∈ c.snapshot.subtree k) : j < c.snapshot.size := by
  obtain ⟨node, hnode⟩ := Snapshot.exists_node hk
  have hlinks := Snapshot.links_eq_some.mpr ⟨node, hnode, rfl⟩
  rw [Snapshot.subtree_eq_walk, Links.mem_walk (h.forest ht) hlinks] at hj
  obtain ⟨below, hbelow⟩ := (h.forest ht).used_of_within hlinks hj
  exact (h.forest ht).lt_bound hbelow

/-- **Document order is the order of numbers.** -/
theorem documentOrder_eq (h : c.Faithful t top) (ht : t.WellFormed) (hpos : 0 < c.snapshot.size) :
    c.snapshot.documentOrder = List.range c.snapshot.size := by
  have hmaps : (c.snapshot.subtree 0).map c.liveOf =
      (List.range c.snapshot.size).map c.liveOf := by
    rw [h.map_subtree ht hpos, h.liveOf_top, h.map_liveOf_range]
  have hinj : ∀ j ∈ c.snapshot.subtree 0, ∀ k ∈ List.range c.snapshot.size,
      c.liveOf j = c.liveOf k → j = k := by
    intro j hj k hk
    exact h.liveOf_inj ht (h.lt_of_mem_subtree ht hpos hj) (List.mem_range.mp hk)
  exact eq_of_map_eq_map hinj hmaps

/-- Proper descendants of nodes are copies of the proper descendants of elements. -/
theorem mem_descendants_iff (h : c.Faithful t top) (ht : t.WellFormed) {j k : Nat}
    (hj : j < c.snapshot.size) (hk : k < c.snapshot.size) :
    j ∈ c.snapshot.descendants k ↔ t.links.Below (c.liveOf k) (c.liveOf j) := by
  obtain ⟨node, hnode⟩ := h.node_live hk
  have hmaps : (c.snapshot.descendants k).map c.liveOf = (t.subtree (c.liveOf k)).drop 1 := by
    rw [Snapshot.descendants, List.map_drop, h.map_subtree ht hk]
  rw [← Links.mem_drop_walk ht.forest (LiveTree.links_eq_some.mpr ⟨node, hnode, rfl⟩),
    ← LiveTree.subtree_eq_walk, ← hmaps, List.mem_map]
  constructor
  · intro hmem
    exact ⟨j, hmem, rfl⟩
  · intro hback
    rcases hback with ⟨i, hi, heq⟩
    have hi' : i < c.snapshot.size := h.lt_of_mem_subtree ht hk (List.mem_of_mem_drop hi)
    rw [← h.liveOf_inj ht hi' hj heq]
    exact hi

/-- Children of nodes are copies of the children of elements. -/
theorem mem_children_iff (h : c.Faithful t top) (ht : t.WellFormed) {j k : Nat}
    (hj : j < c.snapshot.size) (hk : k < c.snapshot.size) :
    j ∈ c.snapshot.children k ↔ t.links.Child (c.liveOf k) (c.liveOf j) := by
  obtain ⟨copy, node, hcopy, hnode, _, hchildren, hrange⟩ := h.mirrors k hk
  have hlisted : c.snapshot.children k = copy.children :=
    Snapshot.children_eq hcopy
  rw [hlisted, LiveTree.child_iff]
  constructor
  · intro hmem
    exact ⟨node, hnode, hchildren ▸ List.mem_map_of_mem hmem⟩
  · intro hback
    rcases hback with ⟨node', hnode', hmem⟩
    obtain rfl : node = node' := Option.some.inj (hnode.symm.trans hnode')
    rw [← hchildren] at hmem
    obtain ⟨i, hi, heq⟩ := List.mem_map.mp hmem
    rw [← h.liveOf_inj ht (hrange i hi).2 hj heq]
    exact hi

end Faithful

end Capture

/-- A snapshot of a live element is a faithful capture of it. -/
theorem LiveTree.WellFormed.snapshot_live {t : LiveTree} (ht : t.WellFormed) {h : Handle}
    {x : Nat} (hx : t.liveId? h = some x) :
    ∃ c : Capture, t.snapshot h = .ok c.snapshot ∧ c.Faithful t x ∧ 0 < c.snapshot.size := by
  obtain ⟨node, hnode⟩ := (liveId?_eq_some.mp hx).2
  obtain ⟨c, hcapture, hc⟩ := ht.capture?_faithful hnode
  refine ⟨c, ?_, hc, hc.size_pos ht hnode⟩
  simp only [snapshot, hx, Option.bind_some, hcapture]

end ElementFinder
