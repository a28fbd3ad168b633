import ElementFinder.Proofs.Live.View
import ElementFinder.Snapshot.Markup

/-!
# The document of a snapshot is its tree

Path expressions are evaluated on a document that numbers the XML elements of a snapshot in
document order and keeps for each the size of its subtree.  In a capture the nodes are numbered in
document order as well, so every subtree is a run of consecutive numbers (`walk_run`), an element
of the document has the number of the node that it shows (`shapes_elementWithin`), and its
descendants and children are those of that node.
-/

namespace ElementFinder

/-! ## Runs of numbers -/

/-- A piece of a run of numbers is a run from its first number on. -/
theorem run_of_piece {before piece after : List Nat} {start n y : Nat}
    (h : before ++ (piece ++ after) = List.range' start n) (hy : piece.head? = some y) :
    piece = List.range' y piece.length := by
  obtain ⟨i, -, -, hrest⟩ := List.range'_eq_append_iff.mp h.symm
  obtain ⟨j, -, hpiece, -⟩ := List.range'_eq_append_iff.mp hrest.symm
  obtain ⟨rest, rfl⟩ := List.head?_eq_some_iff.mp hy
  cases j with
  | zero => exact absurd hpiece (by simp)
  | succ j =>
      rw [Nat.mul_one, List.range'_succ, List.cons.injEq] at hpiece
      obtain ⟨rfl, rfl⟩ := hpiece
      rw [List.length_cons, List.length_range', List.range'_succ]

namespace Links

variable {L : Links} {bound : Nat}

/-- Where a walk meets consecutive numbers, so does the walk of everything that it meets. -/
theorem walk_run (h : L.Forest bound) {x y n : Nat} (hwalk : L.walk bound x = List.range' x n)
    (hxy : L.Within x y) : L.walk bound y = List.range' y (L.walk bound y).length := by
  induction hxy with
  | refl => rw [hwalk, List.length_range']
  | @tail p c _ hstep ih =>
      obtain ⟨children, hp, hc⟩ := hstep
      obtain ⟨below, hbelow⟩ := h.child_used ⟨children, hp, hc⟩
      obtain ⟨before, after, rfl⟩ := List.append_of_mem hc
      have hparts := ih
      rw [walk_eq h.toDescending hp, List.flatMap_append, List.flatMap_cons,
        ← List.cons_append] at hparts
      refine run_of_piece hparts ?_
      rw [walk_eq h.toDescending hbelow, List.head?_cons]

end Links

/-! ## Entries of the document -/

/-- What a document keeps of an element besides its attributes. -/
def XPath.Entry.shape (e : XPath.Entry) : String × Option Nat × Nat :=
  (e.name, e.parent, e.size)

namespace Snapshot

variable {s : Snapshot}

/-- What the document of a snapshot keeps of a node. -/
def shape (s : Snapshot) (id : Nat) : String × Option Nat × Nat :=
  (s.markupName id, s.parent? id, (s.subtree id).length)

/-- Elements side by side are numbered one after the other. -/
theorem shapes_all (parent : Nat) (elementOf : Nat × Nat → XmlElement) {cs : List (Nat × Nat)}
    {start n : Nat} (hnonempty : ∀ entry ∈ cs, (s.subtree entry.1).head? = some entry.1)
    (heach : ∀ entry ∈ cs, ∀ m, s.subtree entry.1 = List.range' entry.1 m →
      (XPath.entriesOf (some parent) entry.1 (elementOf entry)).map XPath.Entry.shape =
        (s.subtree entry.1).map s.shape)
    (hrun : (cs.flatMap fun entry => s.subtree entry.1) = List.range' start n) :
    (XPath.entriesOfAll parent start (cs.map elementOf)).map XPath.Entry.shape =
      (cs.flatMap fun entry => s.subtree entry.1).map s.shape := by
  induction cs generalizing start n with
  | nil => rfl
  | cons entry cs ih =>
      obtain ⟨hhead, hheads⟩ := List.forall_mem_cons.mp hnonempty
      obtain ⟨hhere, hothers⟩ := List.forall_mem_cons.mp heach
      rw [List.flatMap_cons] at hrun
      obtain ⟨i, -, hfirst, hrest⟩ := List.range'_eq_append_iff.mp hrun.symm
      have hstart : start = entry.1 := by
        rw [hfirst] at hhead
        cases i with
        | zero => exact absurd hhead (by simp)
        | succ i => simpa [List.range'_succ] using hhead
      subst hstart
      have hshapes := hhere i hfirst
      have hlength : (XPath.entriesOf (some parent) entry.1 (elementOf entry)).length = i := by
        rw [← List.length_map (f := XPath.Entry.shape), hshapes, List.length_map, hfirst,
          List.length_range']
      rw [Nat.mul_one] at hrest
      simp only [List.map_cons, XPath.entriesOfAll, List.map_append, List.flatMap_cons, hshapes,
        hlength, ih hheads hothers hrest]

/-- **Elements are numbered like nodes.**  When the subtree of a node is a run of numbers and the
element of the node gets the number of the node, every element inside gets the number of its
node. -/
theorem shapes_elementWithin (h : s.links.Forest s.size)
    (hup : ∀ {p k}, s.links.Child p k → s.parent? k = some p) {depth : Nat} (path : String)
    {id n : Nat} {node : SnapshotNode} (hid : s.node? id = some node) (hdepth : s.size ≤ depth + id)
    (hrun : s.subtree id = List.range' id n) :
    (XPath.entriesOf (s.parent? id) id (s.elementWithin depth path id)).map XPath.Entry.shape =
      (s.subtree id).map s.shape := by
  induction depth generalizing path id n node with
  | zero =>
      have := node?_lt hid
      omega
  | succ depth ih =>
      have hchildren : s.children id = node.children := children_eq hid
      have hbelow : (node.children.zipIdx.flatMap fun entry => s.subtree entry.1) =
          node.children.flatMap s.subtree := by
        rw [← List.flatMap_map, List.zipIdx_map_fst]
      have hchild : ∀ entry ∈ node.children.zipIdx, s.links.Child id entry.1 := fun entry hentry =>
        ⟨node.children, links_eq_some.mpr ⟨node, hid, rfl⟩, List.fst_mem_of_mem_zipIdx hentry⟩
      have hlive : ∀ entry ∈ node.children.zipIdx, ∃ child, s.node? entry.1 = some child := by
        intro entry hentry
        obtain ⟨below, hlinks⟩ := h.child_used (hchild entry hentry)
        obtain ⟨child, hnode, -⟩ := links_eq_some.mp hlinks
        exact ⟨child, hnode⟩
      rw [subtree_eq h.toDescending hid] at hrun
      obtain ⟨m, rfl⟩ : ∃ m, n = m + 1 := by
        cases n with
        | zero => exact absurd hrun (by simp)
        | succ m => exact ⟨m, rfl⟩
      rw [List.range'_succ, List.cons.injEq] at hrun
      have hheads : ∀ entry ∈ node.children.zipIdx,
          (s.subtree entry.1).head? = some entry.1 := by
        intro entry hentry
        obtain ⟨child, hnode⟩ := hlive entry hentry
        rw [subtree_eq h.toDescending hnode, List.head?_cons]
      have hinside := shapes_all id
        (fun entry => s.elementWithin depth (Markup.childPath path entry.2) entry.1) hheads
        (fun entry hentry m hpiece => by
          obtain ⟨child, hnode⟩ := hlive entry hentry
          have := h.lt_child (hchild entry hentry)
          rw [← hup (hchild entry hentry)]
          exact ih _ hnode (by omega) hpiece)
        (hbelow.trans hrun.2)
      have hlength := congrArg List.length hinside
      simp only [List.length_map, hbelow] at hlength
      simp only [elementWithin, hchildren, XPath.entriesOf, List.map_cons,
        subtree_eq h.toDescending hid, hinside, hbelow]
      simp [XPath.Entry.shape, shape, hlength, subtree_eq h.toDescending hid]

end Snapshot

/-! ## The document of a capture -/

namespace Capture.Faithful

variable {c : Capture} {t : LiveTree} {top : Nat}

/-- The subtree of a node is a run of numbers. -/
theorem subtree_run (h : c.Faithful t top) (ht : t.WellFormed) {k : Nat}
    (hk : k < c.snapshot.size) :
    c.snapshot.subtree k = List.range' k (c.snapshot.subtree k).length := by
  have hpos : 0 < c.snapshot.size := Nat.lt_of_le_of_lt (Nat.zero_le k) hk
  have horder := h.documentOrder_eq ht hpos
  rw [Snapshot.documentOrder, Snapshot.subtree_eq_walk] at horder
  obtain ⟨node, hnode⟩ := Snapshot.exists_node hpos
  have hwithin : c.snapshot.links.Within 0 k := by
    rw [← Links.mem_walk (h.forest ht) (Snapshot.links_eq_some.mpr ⟨node, hnode, rfl⟩), horder]
    exact List.mem_range.mpr hk
  rw [List.range_eq_range'] at horder
  rw [Snapshot.subtree_eq_walk]
  exact Links.walk_run (h.forest ht) horder hwithin

variable (rootPath : String)

/-- The entries of the document are those of the nodes. -/
theorem map_shape_entries (h : c.Faithful t top) (ht : t.WellFormed)
    (hpos : 0 < c.snapshot.size) :
    (c.snapshot.markup rootPath).document.entries.toList.map XPath.Entry.shape =
      (List.range c.snapshot.size).map c.snapshot.shape := by
  obtain ⟨node, hnode⟩ := Snapshot.exists_node hpos
  have hshapes := Snapshot.shapes_elementWithin (h.forest ht)
    (fun {p k} hchild => (h.parent?_eq_some_iff ht (h.child_range hchild).2).mpr hchild)
    rootPath hnode (Nat.le_add_right c.snapshot.size 0) (h.subtree_run ht hpos)
  have horder := h.documentOrder_eq ht hpos
  rw [Snapshot.documentOrder] at horder
  rw [h.top_parent, horder] at hshapes
  exact hshapes

theorem document_size (h : c.Faithful t top) (ht : t.WellFormed) (hpos : 0 < c.snapshot.size) :
    (c.snapshot.markup rootPath).document.size = c.snapshot.size := by
  simpa [XPath.Document.size] using congrArg List.length (h.map_shape_entries rootPath ht hpos)

theorem shape_entry (h : c.Faithful t top) (ht : t.WellFormed) {k : Nat}
    (hk : k < c.snapshot.size) :
    ((c.snapshot.markup rootPath).document.entry k).shape = c.snapshot.shape k := by
  have hpos : 0 < c.snapshot.size := Nat.lt_of_le_of_lt (Nat.zero_le k) hk
  have hentry := congrArg (·[k]?) (h.map_shape_entries rootPath ht hpos)
  simp only [List.getElem?_map, List.getElem?_range hk, Option.map_some,
    Array.getElem?_toList] at hentry
  obtain ⟨e, he, hshape⟩ := Option.map_eq_some_iff.mp hentry
  rw [XPath.Document.entry, he, Option.getD_some, hshape]

theorem nameOf_element (h : c.Faithful t top) (ht : t.WellFormed) {k : Nat}
    (hk : k < c.snapshot.size) :
    (c.snapshot.markup rootPath).document.nameOf (.element k) = c.snapshot.markupName k :=
  congrArg Prod.fst (h.shape_entry rootPath ht hk)

theorem document_descendants (h : c.Faithful t top) (ht : t.WellFormed) {k : Nat}
    (hk : k < c.snapshot.size) :
    (c.snapshot.markup rootPath).document.descendants k = c.snapshot.descendants k := by
  have hsize : ((c.snapshot.markup rootPath).document.entry k).size =
      (c.snapshot.subtree k).length :=
    congrArg (fun shape => shape.2.2) (h.shape_entry rootPath ht hk)
  obtain ⟨n, hrun⟩ : ∃ n, c.snapshot.subtree k = List.range' k n := ⟨_, h.subtree_run ht hk⟩
  rw [hrun, List.length_range'] at hsize
  rw [XPath.Document.descendants, XPath.Document.subtreeEnd, hsize, XPath.Document.numbers,
    ← List.range'_eq_map_range, Snapshot.descendants, hrun, List.drop_range']
  congr 1
  omega

/-- Descendants of a node are linked to it. -/
theorem mem_descendants (h : c.Faithful t top) (ht : t.WellFormed) {j k : Nat}
    (hk : k < c.snapshot.size) :
    j ∈ c.snapshot.descendants k ↔ c.snapshot.links.Below k j := by
  obtain ⟨node, hnode⟩ := Snapshot.exists_node hk
  rw [Snapshot.descendants, Snapshot.subtree_eq_walk]
  exact Links.mem_drop_walk (h.forest ht) (Snapshot.links_eq_some.mpr ⟨node, hnode, rfl⟩)

/-- Descendants in the document are descendants of nodes. -/
theorem mem_document_descendants (h : c.Faithful t top) (ht : t.WellFormed) {j k : Nat}
    (hk : k < c.snapshot.size) :
    j ∈ (c.snapshot.markup rootPath).document.descendants k ↔ c.snapshot.links.Below k j := by
  rw [h.document_descendants rootPath ht hk, h.mem_descendants ht hk]

/-- Children in the document are children of nodes. -/
theorem mem_document_children (h : c.Faithful t top) (ht : t.WellFormed) {j k : Nat}
    (hk : k < c.snapshot.size) :
    j ∈ (c.snapshot.markup rootPath).document.children k ↔ c.snapshot.links.Child k j := by
  have hparent : ∀ {i}, i < c.snapshot.size →
      ((c.snapshot.markup rootPath).document.entry i).parent = c.snapshot.parent? i :=
    fun hi => congrArg (fun shape => shape.2.1) (h.shape_entry rootPath ht hi)
  rw [XPath.Document.children, List.mem_filter, h.document_descendants rootPath ht hk,
    decide_eq_true_iff]
  constructor
  · rintro ⟨hbelow, hup⟩
    have hj := h.lt_of_mem_subtree ht hk (List.mem_of_mem_drop hbelow)
    rw [hparent hj] at hup
    exact (h.parent?_eq_some_iff ht hj).mp hup
  · intro hchild
    have hj := (h.child_range hchild).2
    refine ⟨(h.mem_descendants_iff ht hj hk).mpr (.single (h.child_map hchild)), ?_⟩
    rw [hparent hj]
    exact (h.parent?_eq_some_iff ht hj).mpr hchild

end Capture.Faithful

end ElementFinder
