import ElementFinder.Proofs.Live.Numbering
import ElementFinder.Snapshot.Markup

/-!
# Places of a captured snapshot

The markup of a snapshot lists the index paths of its nodes in document order.  In a capture of a
live tree the nodes are numbered in document order as well, so the element with some number in
the markup shows the node with the same number.
-/

namespace ElementFinder

namespace Snapshot

/-- Places are listed along the walk down the links. -/
theorem map_snd_placesWithin {s : Snapshot} {bound : Nat} (h : s.links.Forest bound)
    {depth : Nat} {path : String} {id : Nat} {node : SnapshotNode}
    (hid : s.node? id = some node) (hdepth : bound ≤ depth + id) :
    (s.placesWithin depth path id).map Prod.snd = s.links.walk depth id := by
  induction depth generalizing path id node with
  | zero =>
      have hlt := h.lt_bound (links_eq_some.mpr ⟨node, hid, rfl⟩)
      omega
  | succ depth ih =>
      have hlinks : s.links id = some node.children := links_eq_some.mpr ⟨node, hid, rfl⟩
      have hchildren : s.children id = node.children := children_eq hid
      have hbelow : ∀ entry ∈ node.children.zipIdx,
          (s.placesWithin depth (Markup.childPath path entry.2) entry.1).map Prod.snd =
            s.links.walk depth entry.1 := by
        intro entry hentry
        have hchild : s.links.Child id entry.1 :=
          ⟨node.children, hlinks, List.fst_mem_of_mem_zipIdx hentry⟩
        have hlt := h.lt_child hchild
        obtain ⟨below, hused⟩ := h.child_used hchild
        obtain ⟨child, hnode, _⟩ := links_eq_some.mp hused
        exact ih hnode (by omega)
      have hall : (node.children.zipIdx.flatMap fun entry =>
            s.placesWithin depth (Markup.childPath path entry.2) entry.1).map Prod.snd =
          node.children.flatMap (s.links.walk depth) := by
        rw [List.map_flatMap, List.flatMap_congr hbelow, ← List.flatMap_map,
          List.zipIdx_map_fst]
      simp only [placesWithin, Links.walk, hlinks, hchildren, List.map_cons, hall]

end Snapshot

namespace Capture.Faithful

variable {c : Capture} {t : LiveTree} {top : Nat}

/-- **Places are numbered like nodes.**  The nodes of the places of a capture are its nodes in
increasing order. -/
theorem map_snd_places (h : c.Faithful t top) (ht : t.WellFormed) (hpos : 0 < c.snapshot.size)
    (rootPath : String) :
    (c.snapshot.markup rootPath).places.map Prod.snd = List.range c.snapshot.size := by
  obtain ⟨node, hnode⟩ := Snapshot.exists_node hpos
  rw [← h.documentOrder_eq ht hpos, Snapshot.documentOrder, Snapshot.subtree_eq_walk]
  exact Snapshot.map_snd_placesWithin (h.forest ht) hnode (Nat.le_add_right c.snapshot.size 0)

end Capture.Faithful

end ElementFinder
