import Mathlib.Data.List.Flatten
import Mathlib.Data.List.Nodup
import ElementFinder.Proofs.Snapshot.Places
import ElementFinder.Snapshot.Data

/-!
# What reading a snapshot checks

A snapshot that is read says twice how its nodes hang together: every node names its parent and
lists its children.  Reading goes through the nodes one by one and checks the lists against the
parents (`Snapshot.Checked`): a listed child names its parent.  It does not check the parents
against the lists, so a node may be missing in the list of its parent, or stand there twice.

What the check is worth is said by `ofRecords_tree_iff`: no node is listed by a stranger, the
links make up one tree exactly when document order meets every node once, and where no node is
listed twice every walk down the links meets a node at most once.  The converse uses that a walk
holds the walk of everything it meets (`Links.walk_infix_of_mem`), which does not take a forest.
-/

namespace ElementFinder

/-! ## Walks on links that may repeat a child -/

namespace Links

variable {L : Links} {bound : Nat}

/-- A walk holds the walk of everything that it meets, in one piece. -/
theorem walk_infix_of_mem (h : L.Descending bound) {depth x y : Nat}
    (hdepth : bound ≤ depth + x) (hy : y ∈ L.walk depth x) :
    L.walk bound y <:+: L.walk depth x := by
  induction depth generalizing x with
  | zero => simp [walk] at hy
  | succ depth ih =>
      cases hx : L x with
      | none => simp [walk, hx] at hy
      | some children =>
          simp only [walk, hx, List.mem_cons, List.mem_flatMap] at hy
          rcases hy with rfl | ⟨c, hc, hy⟩
          · have hsame := walk_stable h (Nat.le_add_right bound y) hdepth
            exact ⟨[], [], by rw [hsame, List.nil_append, List.append_nil]⟩
          · have hlt := h.lt_child ⟨children, hx, hc⟩
            have hbelow := ih (by omega) hy
            have hpart : L.walk depth c <:+: children.flatMap (L.walk depth) :=
              List.infix_of_mem_flatten (List.mem_map_of_mem hc)
            simp only [walk, hx]
            exact List.infix_cons (hbelow.trans hpart)

/-- The walk of a number meets the number, and behind it its children in use as they are listed. -/
theorem cons_children_sublist_walk (h : L.Descending bound) {x : Nat} {children : List Nat}
    (hx : L x = some children) (hused : ∀ c ∈ children, ∃ below, L c = some below) :
    (x :: children).Sublist (L.walk bound x) := by
  have hheads : (children.flatMap fun c => [c]).Sublist (children.flatMap (L.walk bound)) := by
    refine List.Sublist.flatMap_right children ?_
    intro c hc
    obtain ⟨below, hbelow⟩ := hused c hc
    rw [walk_eq h hbelow]
    exact List.singleton_sublist.mpr List.mem_cons_self
  rw [List.flatMap_singleton'] at hheads
  rw [walk_eq h hx]
  exact hheads.cons_cons x

/-- The numbers met on the way down to a depth by a walk that goes on below some of them only. -/
def visits (L : Links) (enter : Nat → Bool) : (depth : Nat) → Nat → List Nat
  | 0, _ => []
  | depth + 1, x =>
    match L x with
    | none => []
    | some children => x :: if enter x then children.flatMap (visits L enter depth) else []

/-- Such a walk leaves out some of what the whole walk meets, and keeps the order. -/
theorem visits_sublist_walk (L : Links) (enter : Nat → Bool) (depth x : Nat) :
    (L.visits enter depth x).Sublist (L.walk depth x) := by
  induction depth generalizing x with
  | zero => exact List.Sublist.refl _
  | succ depth ih =>
      cases hx : L x with
      | none => simp [visits, walk, hx]
      | some children =>
          have hbelow : (children.flatMap (L.visits enter depth)).Sublist
              (children.flatMap (L.walk depth)) :=
            List.Sublist.flatMap_right children fun c _ => ih c
          simp only [visits, walk, hx]
          refine List.Sublist.cons_cons x ?_
          split
          · exact hbelow
          · exact List.nil_sublist _

end Links

/-! ## The check -/

namespace NodeRecord

/-- A node without a fault claims its own place, has an allowed parent and lists only nodes that
name it as their parent. -/
theorem fault?_eq_none_iff {records : Array NodeRecord} {index : Nat} {r : NodeRecord} :
    fault? records index r = none ↔ r.id = index ∧ parentAllowed index r.node.parent = true ∧
      ∀ c ∈ r.node.children, (records[c]?.bind fun n => n.node.parent) = some index := by
  unfold fault?
  by_cases hid : r.id = index
  · cases hparent : parentAllowed index r.node.parent <;> simp [hid]
  · simp [hid]

/-- There is no fault from a place on when no node from there on has one. -/
theorem faultFrom?_eq_none_iff {records : Array NodeRecord} {index : Nat}
    {rest : List NodeRecord} :
    faultFrom? records index rest = none ↔
      ∀ k r, rest[k]? = some r → fault? records (index + k) r = none := by
  induction rest generalizing index with
  | nil => simp [faultFrom?]
  | cons first rest ih =>
      rw [faultFrom?, Option.or_eq_none_iff, ih]
      constructor
      · rintro ⟨hfirst, hrest⟩ k r hk
        cases k with
        | zero =>
            obtain rfl : first = r := by simpa using hk
            exact hfirst
        | succ k =>
            have := hrest k r (by simpa using hk)
            rwa [Nat.add_assoc, Nat.add_comm 1 k] at this
      · intro hall
        refine ⟨hall 0 first rfl, ?_⟩
        intro k r hk
        have := hall (k + 1) r (by simpa using hk)
        rwa [Nat.add_comm k 1, ← Nat.add_assoc] at this

end NodeRecord

namespace Snapshot

/-- The links of a snapshot as they are checked: there is a root, only the root has no parent,
parents stand before their children, and a listed child names its parent. -/
structure Checked (s : Snapshot) : Prop where
  nonempty : 0 < s.size
  orphan_iff : ∀ {id}, id < s.size → (s.parent? id = none ↔ id = 0)
  parent_lt : ∀ {p c}, s.parent? c = some p → p < c
  parent_of_child : ∀ {p c}, s.links.Child p c → s.parent? c = some p

/-- The links make up one tree: a node stands once in the list of its parent, and in no other. -/
def IsTree (s : Snapshot) : Prop :=
  ∀ p c, (s.children p).count c = if s.parent? c = some p then 1 else 0

/-- In a tree no child is listed twice. -/
theorem IsTree.children_nodup {s : Snapshot} (h : s.IsTree) (p : Nat) : (s.children p).Nodup := by
  rw [List.nodup_iff_count_le_one]
  intro c
  rw [h p c]
  split <;> simp

/-- In a tree every node is listed by its parent. -/
theorem IsTree.listed {s : Snapshot} (h : s.IsTree) (p c : Nat) (hp : s.parent? c = some p) :
    c ∈ s.children p := by
  rw [← List.count_pos_iff, h p c, if_pos hp]
  exact Nat.zero_lt_one

/-- Snapshots that were read are checked. -/
theorem checked_of_ofRecords {records : List NodeRecord} {viewport : Rect} {s : Snapshot}
    (h : ofRecords records viewport = .ok s) : s.Checked := by
  unfold ofRecords at h
  split at h
  · simp at h
  rename_i hnonempty
  split at h
  · simp at h
  rename_i hfaults
  obtain rfl := Except.ok.inj h
  rw [NodeRecord.faultFrom?_eq_none_iff] at hfaults
  have hnode : ∀ k, node? ⟨(records.map NodeRecord.node).toArray, viewport⟩ k =
      (records[k]?).map NodeRecord.node := by
    intro k
    simp [node?]
  have hfaultless : ∀ {k : Nat} {node : SnapshotNode},
      node? ⟨(records.map NodeRecord.node).toArray, viewport⟩ k = some node →
      NodeRecord.parentAllowed k node.parent = true ∧ ∀ c ∈ node.children,
        parent? ⟨(records.map NodeRecord.node).toArray, viewport⟩ c = some k := by
    intro k node hk
    rw [hnode] at hk
    obtain ⟨r, hr, rfl⟩ := Option.map_eq_some_iff.mp hk
    have hfault := hfaults k r hr
    rw [Nat.zero_add, NodeRecord.fault?_eq_none_iff] at hfault
    refine ⟨hfault.2.1, ?_⟩
    intro c hc
    have hlisted := hfault.2.2 c hc
    rw [List.getElem?_toArray] at hlisted
    rw [parent?, hnode]
    cases hrec : records[c]? with
    | none => simp [hrec] at hlisted
    | some r' => simpa [hrec] using hlisted
  constructor
  · simpa [size, List.length_pos_iff, List.isEmpty_iff] using hnonempty
  · intro id hid
    obtain ⟨node, hid⟩ := exists_node hid
    have hallowed := (hfaultless hid).1
    simp only [parent?, hid, Option.bind_some]
    cases hparent : node.parent with
    | none => simpa [NodeRecord.parentAllowed, hparent] using hallowed
    | some p =>
        have hlt : p < id := by simpa [NodeRecord.parentAllowed, hparent] using hallowed
        simp
        omega
  · intro p c hp
    obtain ⟨node, hc, hparent⟩ := Option.bind_eq_some_iff.mp hp
    have hallowed := (hfaultless hc).1
    simpa [NodeRecord.parentAllowed, hparent] using hallowed
  · intro p c hchild
    obtain ⟨node, hp, hc⟩ := child_iff.mp hchild
    exact (hfaultless hp).2 c hc

/-- The records of a snapshot are its nodes by number. -/
theorem getElem?_records (s : Snapshot) (k : Nat) :
    s.records[k]? = (s.node? k).map fun node => ⟨k, node⟩ := by
  simp [records, node?, List.getElem?_zipIdx, Function.comp_def]

/-- Checked snapshots are read from their nodes. -/
theorem Checked.ofRecords_records {s : Snapshot} (h : s.Checked) :
    ofRecords s.records s.viewport = .ok s := by
  have hfaultless : NodeRecord.faultFrom? s.records.toArray 0 s.records = none := by
    rw [NodeRecord.faultFrom?_eq_none_iff]
    intro k r hr
    rw [getElem?_records] at hr
    obtain ⟨node, hnode, rfl⟩ := Option.map_eq_some_iff.mp hr
    have hparent : s.parent? k = node.parent := by rw [parent?, hnode, Option.bind_some]
    rw [Nat.zero_add, NodeRecord.fault?_eq_none_iff]
    refine ⟨rfl, ?_, ?_⟩
    · cases hup : node.parent with
      | none => simpa [NodeRecord.parentAllowed] using
          (h.orphan_iff (node?_lt hnode)).mp (hparent.trans hup)
      | some p => simpa [NodeRecord.parentAllowed] using h.parent_lt (hparent.trans hup)
    · intro c hc
      have hnamed := h.parent_of_child (child_iff.mpr ⟨node, hnode, hc⟩)
      rw [List.getElem?_toArray, getElem?_records]
      rw [parent?] at hnamed
      cases hchild : s.node? c with
      | none => simp [hchild] at hnamed
      | some child => simpa [hchild] using hnamed
  have hnonempty : s.records.isEmpty = false := by
    have := h.nonempty
    rw [List.isEmpty_eq_false_iff, ← List.length_pos_iff]
    simpa [records, size] using this
  have hnodes : (s.records.map NodeRecord.node).toArray = s.nodes := by
    simp [records, Function.comp_def]
  rw [ofRecords, hnonempty, if_neg Bool.false_ne_true, hfaultless, hnodes]

/-! ## From the check to walks -/

namespace Checked

variable {s : Snapshot}

/-- Links that were checked lead to larger numbers. -/
theorem descending (h : s.Checked) : s.links.Descending s.size where
  lt_bound := by
    intro id children hid
    obtain ⟨node, hnode, -⟩ := links_eq_some.mp hid
    exact node?_lt hnode
  lt_child := fun hchild => h.parent_lt (h.parent_of_child hchild)

/-- A child is a node. -/
theorem child_used (h : s.Checked) {p c : Nat} (hchild : s.links.Child p c) :
    ∃ children, s.links c = some children := by
  obtain ⟨node, hc, -⟩ := Option.bind_eq_some_iff.mp (h.parent_of_child hchild)
  exact ⟨node.children, links_eq_some.mpr ⟨node, hc, rfl⟩⟩

/-- Lists without repetitions are all that is missing to a forest. -/
theorem forest (h : s.Checked) (honce : ∀ p, (s.children p).Nodup) :
    s.links.Forest s.size where
  toDescending := h.descending
  child_used := h.child_used
  children_nodup := by
    intro p children hp
    obtain ⟨node, hnode, rfl⟩ := links_eq_some.mp hp
    rw [← children_eq hnode]
    exact honce p
  parent_unique := by
    intro p q c hp hq
    exact Option.some.inj ((h.parent_of_child hp).symm.trans (h.parent_of_child hq))

/-- **Induction down the lists.**  What holds of every number without a node, and of a node as soon
as it holds of all children that the node lists, holds of every number. -/
theorem down_induction (h : s.Checked) {P : Nat → Prop} (missing : ∀ id, s.node? id = none → P id)
    (node : ∀ id node, s.node? id = some node → (∀ c ∈ node.children, P c) → P id) (id : Nat) :
    P id := by
  cases hid : s.node? id with
  | none => exact missing id hid
  | some top =>
      refine h.descending.down_induction (P := P) ?_ (links_eq_some.mpr ⟨top, hid, rfl⟩)
      intro id children hlinks ih
      obtain ⟨n, hn, rfl⟩ := links_eq_some.mp hlinks
      refine node id n hn ?_
      intro c hc
      obtain ⟨below, hbelow⟩ := h.child_used ⟨n.children, hlinks, hc⟩
      exact ih c hc below hbelow

/-- A subtree begins with its top, and behind it the children of the top stand as they are
listed. -/
theorem cons_children_sublist_subtree (h : s.Checked) {p : Nat} (hp : p < s.size) :
    (p :: s.children p).Sublist (s.subtree p) := by
  obtain ⟨node, hnode⟩ := exists_node hp
  have hlinks : s.links p = some node.children := links_eq_some.mpr ⟨node, hnode, rfl⟩
  have hsub := Links.cons_children_sublist_walk h.descending hlinks
    fun c hc => h.child_used ⟨node.children, hlinks, hc⟩
  rw [subtree_eq_walk, children_eq hnode]
  exact hsub

/-- A subtree holds the subtree of each of its nodes in one piece. -/
theorem subtree_infix_of_mem (h : s.Checked) {p id : Nat} (hid : id ∈ s.subtree p) :
    s.subtree id <:+: s.subtree p := by
  simp only [subtree_eq_walk] at hid ⊢
  exact Links.walk_infix_of_mem h.descending (Nat.le_add_right _ p) hid

/-- A subtree without repetitions is below a node without repetitions in its list. -/
theorem nodup_of_subtree (h : s.Checked) {p : Nat} (hp : (s.subtree p).Nodup) :
    (s.children p).Nodup := by
  by_cases hlt : p < s.size
  · exact (List.nodup_cons.mp (hp.sublist (h.cons_children_sublist_subtree hlt))).2
  · rw [children_eq_nil (Nat.not_lt.mp hlt)]
    exact List.nodup_nil

/-- Where every node is listed by its parent, every node lies within the root. -/
theorem within_root (h : s.Checked) (hlisted : ∀ p c, s.parent? c = some p → c ∈ s.children p)
    {id : Nat} (hid : id < s.size) : s.links.Within 0 id := by
  induction id using Nat.strongRecOn with
  | ind id ih =>
      cases hp : s.parent? id with
      | none =>
          obtain rfl := (h.orphan_iff hid).mp hp
          exact Relation.ReflTransGen.refl
      | some p =>
          have hlt := h.parent_lt hp
          exact (ih p hlt (Nat.lt_trans hlt hid)).tail (mem_children.mp (hlisted p id hp))

/-- In a tree document order meets every node once. -/
theorem perm_of_isTree (h : s.Checked) (htree : s.IsTree) :
    s.documentOrder.Perm (List.range s.size) := by
  have hforest := h.forest htree.children_nodup
  obtain ⟨top, htop⟩ := exists_node h.nonempty
  have hlinks : s.links 0 = some top.children := links_eq_some.mpr ⟨top, htop, rfl⟩
  rw [documentOrder, subtree_eq_walk, List.perm_ext_iff_of_nodup
    (Links.walk_nodup hforest 0) List.nodup_range]
  intro id
  rw [Links.mem_walk hforest hlinks, List.mem_range]
  constructor
  · intro hwithin
    obtain ⟨children, hid⟩ := hforest.used_of_within hlinks hwithin
    exact hforest.lt_bound hid
  · exact h.within_root htree.listed

/-- If document order meets every node once, the links make up one tree. -/
theorem isTree_of_perm (h : s.Checked) (hperm : s.documentOrder.Perm (List.range s.size)) :
    s.IsTree := by
  have hnodup : s.documentOrder.Nodup := hperm.nodup_iff.mpr List.nodup_range
  have hmem : ∀ {id}, id < s.size → id ∈ s.documentOrder :=
    fun hid => hperm.mem_iff.mpr (List.mem_range.mpr hid)
  have honce : ∀ p, (s.children p).Nodup := by
    intro p
    by_cases hp : p < s.size
    · exact h.nodup_of_subtree (hnodup.sublist (h.subtree_infix_of_mem (hmem hp)).sublist)
    · rw [children_eq_nil (Nat.not_lt.mp hp)]
      exact List.nodup_nil
  have hforest := h.forest honce
  intro p c
  split
  · rename_i hp
    obtain ⟨node, hc, -⟩ := Option.bind_eq_some_iff.mp hp
    have hlt := node?_lt hc
    obtain ⟨top, htop⟩ := exists_node h.nonempty
    have hmet := hmem hlt
    rw [documentOrder, subtree_eq_walk,
      Links.mem_walk hforest (links_eq_some.mpr ⟨top, htop, rfl⟩)] at hmet
    apply List.count_eq_one_of_mem (honce p)
    -- the node is met below some node that lists it, and that one is the parent it names
    cases hmet with
    | refl => exact absurd ((h.orphan_iff hlt).mpr rfl) (by simp [hp])
    | @tail q _ _ hq =>
        obtain rfl : q = p := Option.some.inj ((h.parent_of_child hq).symm.trans hp)
        exact mem_children.mpr hq
  · rename_i hp
    rw [List.count_eq_zero]
    intro hlisted
    exact hp (h.parent_of_child (mem_children.mp hlisted))

end Checked

end Snapshot

/-! ## Walks that show a snapshot -/

namespace PageNode

mutual

/-- What a page source tells of its elements, each before the elements inside it. -/
def elements : PageNode → List PageElement
  | mk e children => e :: elementsAll children

/-- `elements` of each node. -/
def elementsAll : List PageNode → List PageElement
  | [] => []
  | n :: rest => elements n ++ elementsAll rest

end

/-- The elements of pages side by side are those of each. -/
theorem elementsAll_eq (nodes : List PageNode) : elementsAll nodes = nodes.flatMap elements := by
  induction nodes with
  | nil => rfl
  | cons n rest ih => rw [elementsAll, ih, List.flatMap_cons]

end PageNode

namespace AccessibilityNode

mutual

/-- Value and label of the leaves in order. -/
def leaves : AccessibilityNode → List (String × String)
  | leaf value label => [(value, label)]
  | group children => leavesAll children

/-- `leaves` of each node. -/
def leavesAll : List AccessibilityNode → List (String × String)
  | [] => []
  | n :: rest => leaves n ++ leavesAll rest

end

/-- The leaves of trees side by side are those of each. -/
theorem leavesAll_eq (nodes : List AccessibilityNode) :
    leavesAll nodes = nodes.flatMap leaves := by
  induction nodes with
  | nil => rfl
  | cons n rest ih => rw [leavesAll, ih, List.flatMap_cons]

/-- Leaving out empty groups loses no leaf. -/
theorem flatMap_leaves_filter (nodes : List AccessibilityNode) :
    (nodes.filter fun n => !n.isEmpty).flatMap leaves = nodes.flatMap leaves := by
  induction nodes with
  | nil => rfl
  | cons n rest ih =>
      cases hempty : n.isEmpty with
      | false => simp [hempty, ih]
      | true =>
          obtain rfl : n = group [] := by
            unfold isEmpty at hempty
            split at hempty
            · rfl
            · contradiction
          simp [hempty, ih, leaves, leavesAll]

end AccessibilityNode

namespace Snapshot

/-- What a page source tells of a node. -/
def pageElement (s : Snapshot) (id : Nat) : PageElement :=
  .ofAttributes ((s.attributes? id).getD default)

/-- What an accessibility tree tells of a node. -/
def leafOf (s : Snapshot) (id : Nat) : String × String :=
  let a := (s.attributes? id).getD default
  (a.valueText, a.label)

/-- The page source shows the visible nodes met by the walk that turns back at the invisible. -/
theorem elements_pageWithin (s : Snapshot) (depth id : Nat) :
    (s.pageWithin depth id).toList.flatMap PageNode.elements =
      ((s.links.visits s.isVisible depth id).filter s.isVisible).map s.pageElement := by
  induction depth generalizing id with
  | zero => rfl
  | succ depth ih =>
      cases hnode : s.node? id with
      | none => simp [pageWithin, Links.visits, links, hnode]
      | some node =>
          have hbelow : (node.children.filterMap (s.pageWithin depth)).flatMap PageNode.elements =
              ((node.children.flatMap (s.links.visits s.isVisible depth)).filter
                s.isVisible).map s.pageElement := by
            rw [List.filterMap_eq_flatMap_toList, List.flatMap_assoc, List.filter_flatMap,
              List.map_flatMap]
            exact List.flatMap_congr fun c _ => ih c
          cases hvisible : s.isVisible id with
          | false => simp [pageWithin, Links.visits, links, hnode, hvisible]
          | true =>
              simp [pageWithin, Links.visits, links, hnode, hvisible, PageNode.elements,
                PageNode.elementsAll_eq, hbelow, pageElement, attributes?]

/-- The leaves are the accessible visible nodes met by the walk that turns back at the
accessible. -/
theorem leaves_accessibilityWithin (s : Snapshot) (depth id : Nat) :
    (s.accessibilityWithin depth id).leaves =
      ((s.links.visits (fun id => !s.isAccessible id) depth id).filter fun id =>
        s.isAccessible id && s.isVisible id).map s.leafOf := by
  induction depth generalizing id with
  | zero => rfl
  | succ depth ih =>
      cases hnode : s.node? id with
      | none =>
          simp [accessibilityWithin, Links.visits, links, hnode, AccessibilityNode.leaves,
            AccessibilityNode.leavesAll]
      | some node =>
          have hbelow : (node.children.map (s.accessibilityWithin depth)).flatMap
                AccessibilityNode.leaves =
              ((node.children.flatMap (s.links.visits (fun id => !s.isAccessible id) depth)).filter
                fun id => s.isAccessible id && s.isVisible id).map s.leafOf := by
            rw [List.flatMap_map, List.filter_flatMap, List.map_flatMap]
            exact List.flatMap_congr fun c _ => ih c
          cases haccessible : s.isAccessible id with
          | false =>
              simp [accessibilityWithin, Links.visits, links, hnode, haccessible,
                AccessibilityNode.leaves, AccessibilityNode.leavesAll_eq,
                AccessibilityNode.flatMap_leaves_filter, hbelow]
          | true =>
              cases hvisible : s.isVisible id <;>
                simp [accessibilityWithin, Links.visits, links, hnode, haccessible, hvisible,
                  AccessibilityNode.leaves, AccessibilityNode.leavesAll, leafOf, attributes?]

/-- The places of the XML form are met in document order. -/
theorem Checked.map_snd_places {s : Snapshot} (h : s.Checked)
    (honce : ∀ p, (s.children p).Nodup) (rootPath : String) :
    (s.markup rootPath).places.map Prod.snd = s.documentOrder := by
  obtain ⟨top, htop⟩ := exists_node h.nonempty
  rw [documentOrder, subtree_eq_walk]
  exact map_snd_placesWithin (h.forest honce) htop (Nat.le_add_right s.size 0)

/-- **Read snapshots.**  A node is never listed by another than its parent.  The links make up one
tree exactly when document order meets every node once, and subtrees meet no node twice exactly
when no list of children repeats one.  Then the page source, the accessibility tree and the XML
form are made by walks that meet no node twice. -/
theorem ofRecords_tree_iff {records : List NodeRecord} {viewport : Rect} {s : Snapshot}
    (h : ofRecords records viewport = .ok s) :
    (∀ p c, s.parent? c ≠ some p → (s.children p).count c = 0) ∧
      (s.IsTree ↔ s.documentOrder.Perm (List.range s.size)) ∧
      ((∀ p, (s.children p).Nodup) ↔ ∀ id, (s.subtree id).Nodup) ∧
      ((∀ p, (s.children p).Nodup) →
        (∃ met : List Nat, met.Nodup ∧ met.Sublist s.documentOrder ∧
          s.pageSource?.toList.flatMap PageNode.elements =
            (met.filter s.isVisible).map s.pageElement) ∧
        (∃ met : List Nat, met.Nodup ∧ met.Sublist s.documentOrder ∧
          s.accessibilityTree.leaves =
            (met.filter fun id => s.isAccessible id && s.isVisible id).map s.leafOf) ∧
        ∀ rootPath, ((s.markup rootPath).places.map Prod.snd).Nodup) := by
  have hchecked := checked_of_ofRecords h
  refine ⟨?_, ⟨hchecked.perm_of_isTree, hchecked.isTree_of_perm⟩, ⟨?_, ?_⟩, ?_⟩
  · intro p c hp
    rw [List.count_eq_zero]
    intro hlisted
    exact hp (hchecked.parent_of_child (mem_children.mp hlisted))
  · intro honce id
    rw [subtree_eq_walk]
    exact Links.walk_nodup (hchecked.forest honce) id
  · intro hsubtrees p
    exact hchecked.nodup_of_subtree (hsubtrees p)
  · intro honce
    have horder : s.documentOrder.Nodup := by
      rw [documentOrder, subtree_eq_walk]
      exact Links.walk_nodup (hchecked.forest honce) 0
    have hmet : ∀ enter, (s.links.visits enter s.size 0).Sublist s.documentOrder := by
      intro enter
      rw [documentOrder, subtree_eq_walk]
      exact Links.visits_sublist_walk s.links enter s.size 0
    refine ⟨⟨_, horder.sublist (hmet _), hmet _, elements_pageWithin s s.size 0⟩,
      ⟨_, horder.sublist (hmet _), hmet _, leaves_accessibilityWithin s s.size 0⟩, ?_⟩
    intro rootPath
    rw [hchecked.map_snd_places honce rootPath]
    exact horder

/-- A top with two children is read as one tree, and no walk meets one of the three nodes twice. -/
theorem ofRecords_tree_iff_pair :
    ∃ s, ofRecords
        [⟨0, none, [1, 2], {}⟩, ⟨1, some 0, [], {}⟩, ⟨2, some 0, [], {}⟩] .zero = .ok s ∧
      s.documentOrder = [0, 1, 2] ∧ s.IsTree ∧ (∀ id, (s.subtree id).Nodup) ∧
      ∀ rootPath, ((s.markup rootPath).places.map Prod.snd).Nodup := by
  have hread : ofRecords
        [⟨0, none, [1, 2], {}⟩, ⟨1, some 0, [], {}⟩, ⟨2, some 0, [], {}⟩] .zero =
      .ok ⟨#[⟨none, [1, 2], {}⟩, ⟨some 0, [], {}⟩, ⟨some 0, [], {}⟩], .zero⟩ := rfl
  obtain ⟨-, htree, hsubtrees, hwalks⟩ := ofRecords_tree_iff hread
  have honce : ∀ p, (children
      ⟨#[⟨none, [1, 2], {}⟩, ⟨some 0, [], {}⟩, ⟨some 0, [], {}⟩], .zero⟩ p).Nodup := by
    rintro (_ | _ | _ | p)
    · decide
    · decide
    · decide
    · simp [children, node?]
  exact ⟨_, hread, rfl, htree.mpr (by decide), hsubtrees.mp honce, (hwalks honce).2.2⟩

/-- What is read need not be a tree: a node may be missing in the list of its parent, and then
document order misses it, or stand there twice, and then document order meets it twice. -/
theorem exists_ofRecords_not_isTree :
    (∃ s, ofRecords [⟨0, none, [], {}⟩, ⟨1, some 0, [], {}⟩] .zero = .ok s ∧
      s.documentOrder = [0] ∧ ¬ s.IsTree) ∧
    ∃ s, ofRecords [⟨0, none, [1, 1], {}⟩, ⟨1, some 0, [], {}⟩] .zero = .ok s ∧
      s.documentOrder = [0, 1, 1] ∧ ¬ s.IsTree := by
  refine ⟨⟨_, rfl, rfl, fun htree => ?_⟩, ⟨_, rfl, rfl, fun htree => ?_⟩⟩
  · exact absurd (htree 0 1) (by decide)
  · exact absurd (htree 0 1) (by decide)

end Snapshot

end ElementFinder
