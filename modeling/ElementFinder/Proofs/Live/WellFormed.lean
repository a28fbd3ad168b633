import ElementFinder.Live.Tree
import ElementFinder.Proofs.Links

/-!
# Live trees stay trees

A live tree changes by appending fixtures, removing subtrees and updating attributes.  In every
state that such changes lead to, the links of the cells describe one tree: parent and child
links agree, every element but the root has a parent with a smaller number, and no child is
listed twice (`Reachable.wellFormed`).

Numbers are given out one after the other and handles carry numbers below `2 ^ 64`, so a state
counts as reachable as long as the next number still fits.
-/

namespace ElementFinder

namespace LiveTree

/-- The children of every live element. -/
def links (t : LiveTree) : Links :=
  fun id => (t.node? id).map LiveNode.children

/-- The links of a live tree describe one tree whose root is number 0. -/
structure WellFormed (t : LiveTree) : Prop where
  root_live : ∃ node, t.node? root = some node ∧ node.parent = none
  parent_of_child : ∀ {p c node}, t.node? p = some node → c ∈ node.children →
    ∃ child, t.node? c = some child ∧ child.parent = some p
  child_of_parent : ∀ {p c child}, t.node? c = some child → child.parent = some p →
    p < c ∧ ∃ node, t.node? p = some node ∧ c ∈ node.children
  root_of_orphan : ∀ {id node}, t.node? id = some node → node.parent = none → id = root
  children_nodup : ∀ {id node}, t.node? id = some node → node.children.Nodup

/-- The states that changes lead to from the tree of a fixture, while numbers fit. -/
inductive Reachable : LiveTree → Prop
  | load (f : Fixture) (hfits : (ofFixture f).nextId < Nat.pow 2 64) : Reachable (ofFixture f)
  | change {t t' : LiveTree} (m : Mutation) (ht : Reachable t) (happly : t.apply m = .ok t')
      (hfits : t'.nextId < Nat.pow 2 64) : Reachable t'

/-! ## Cells -/

/-- A number that names something was given out. -/
theorem lt_nextId {t : LiveTree} {id : Nat} {node : LiveNode} (h : t.node? id = some node) :
    id < t.nextId := by
  by_contra hlt
  have hnone : t.cells[id]? = none := Array.getElem?_eq_none (by simpa [nextId] using hlt)
  simp [node?, hnone] at h

/-- A number has links when it names something: its children. -/
theorem links_eq_some {t : LiveTree} {id : Nat} {children : List Nat} :
    t.links id = some children ↔ ∃ node, t.node? id = some node ∧ node.children = children := by
  simp [links, Option.map_eq_some_iff]

/-- The links lead to the children listed. -/
theorem child_iff {t : LiveTree} {p c : Nat} :
    t.links.Child p c ↔ ∃ node, t.node? p = some node ∧ c ∈ node.children := by
  constructor
  · intro hforth
    rcases hforth with ⟨children, hp, hc⟩
    obtain ⟨node, hnode, rfl⟩ := links_eq_some.mp hp
    exact ⟨node, hnode, hc⟩
  · intro hback
    rcases hback with ⟨node, hnode, hc⟩
    exact ⟨node.children, links_eq_some.mpr ⟨node, hnode, rfl⟩, hc⟩

/-- A subtree down to a depth is a walk along the links. -/
theorem subtreeWithin_eq_walk (t : LiveTree) (depth id : Nat) :
    t.subtreeWithin depth id = t.links.walk depth id := by
  induction depth generalizing id with
  | zero => rfl
  | succ depth ih =>
      have hrest : t.subtreeWithin depth = t.links.walk depth := funext ih
      cases hid : t.node? id with
      | none => simp [subtreeWithin, Links.walk, links, hid]
      | some node => simp [subtreeWithin, Links.walk, links, hid, hrest]

/-- A subtree is a walk along the links. -/
theorem subtree_eq_walk (t : LiveTree) (id : Nat) :
    t.subtree id = t.links.walk t.nextId id :=
  subtreeWithin_eq_walk t t.nextId id

/-- Changing an element gives out no number. -/
@[simp] theorem nextId_modify (t : LiveTree) (id : Nat) (f : LiveNode → LiveNode) :
    (t.modify id f).nextId = t.nextId := by
  simp [modify, nextId]

/-- The cells after one element was changed. -/
theorem node?_modify (t : LiveTree) (id : Nat) (f : LiveNode → LiveNode) (k : Nat) :
    (t.modify id f).node? k = if k = id then (t.node? k).map f else t.node? k := by
  simp only [modify, node?, Array.getElem?_modify]
  by_cases hk : id = k
  · subst hk
    cases t.cells[id]? <;> simp
  · simp [hk, Ne.symm hk]

/-- The cells after an insertion: the parent lists the new element, whose cell is fresh. -/
theorem node?_insert_some (t : LiveTree) (p : Nat) (a : Attributes) (k : Nat) :
    (t.insert (some p) a).node? k =
      if k = t.nextId then some ⟨a, some p, []⟩
      else if k = p then (t.node? k).map fun node =>
        { node with children := node.children ++ [t.nextId] }
      else t.node? k := by
  let linked := t.modify p fun node => { node with children := node.children ++ [t.nextId] }
  have hlinked : linked.node? k = _ := node?_modify t p _ k
  have hsize : linked.cells.size = t.nextId := nextId_modify t p _
  change ((linked.cells.push (some ⟨a, some p, []⟩))[k]?).join = _
  rw [Array.getElem?_push, hsize, ← hlinked]
  by_cases hk : k = t.nextId
  · simp [hk]
  · simp [hk, node?]

/-- The cells after one of them was emptied. -/
theorem node?_clear_one (t : LiveTree) (id k : Nat) :
    (t.clear [id]).node? k = if k = id then none else t.node? k := by
  simp only [clear, List.foldl_cons, List.foldl_nil, node?, Array.getElem?_setIfInBounds]
  by_cases hk : id = k
  · subst hk
    by_cases hlt : id < t.cells.size <;> simp [hlt]
  · simp [hk, Ne.symm hk]

/-- The cells after some of them were emptied. -/
theorem node?_clear (t : LiveTree) (ids : List Nat) (k : Nat) :
    (t.clear ids).node? k = if k ∈ ids then none else t.node? k := by
  induction ids generalizing t with
  | nil => simp [clear]
  | cons id ids ih =>
      have hstep : t.clear (id :: ids) = (t.clear [id]).clear ids := rfl
      rw [hstep, ih, node?_clear_one]
      by_cases hk : k = id <;> simp [hk]

/-! ## The links form a forest -/

/-- A child has the element that lists it as its parent. -/
theorem WellFormed.parent_of_links {t : LiveTree} (h : t.WellFormed) {p c : Nat}
    (hpc : t.links.Child p c) : ∃ child, t.node? c = some child ∧ child.parent = some p := by
  obtain ⟨node, hnode, hc⟩ := child_iff.mp hpc
  exact h.parent_of_child hnode hc

/-- The links of a well-formed tree are a forest. -/
theorem WellFormed.forest {t : LiveTree} (h : t.WellFormed) : t.links.Forest t.nextId where
  lt_bound := by
    intro id children hid
    obtain ⟨node, hnode, _⟩ := links_eq_some.mp hid
    exact lt_nextId hnode
  lt_child := by
    intro p c hpc
    obtain ⟨child, hchild, hparent⟩ := h.parent_of_links hpc
    exact (h.child_of_parent hchild hparent).1
  child_used := by
    intro p c hpc
    obtain ⟨child, hchild, _⟩ := h.parent_of_links hpc
    exact ⟨child.children, links_eq_some.mpr ⟨child, hchild, rfl⟩⟩
  children_nodup := by
    intro p children hp
    obtain ⟨node, hnode, rfl⟩ := links_eq_some.mp hp
    exact h.children_nodup hnode
  parent_unique := by
    intro p q c hpc hqc
    obtain ⟨child, hchild, hp⟩ := h.parent_of_links hpc
    obtain ⟨child', hchild', hq⟩ := h.parent_of_links hqc
    obtain rfl : child = child' := Option.some.inj (hchild.symm.trans hchild')
    exact Option.some.inj (hp.symm.trans hq)

/-- The subtree of a live element is the element, then the subtrees of its children. -/
theorem WellFormed.subtree_eq {t : LiveTree} (h : t.WellFormed) {id : Nat} {node : LiveNode}
    (hid : t.node? id = some node) :
    t.subtree id = id :: node.children.flatMap t.subtree := by
  have hwalk : t.subtree = t.links.walk t.nextId := funext (subtree_eq_walk t)
  rw [hwalk]
  exact Links.walk_eq h.forest.toDescending (links_eq_some.mpr ⟨node, hid, rfl⟩)

/-- The subtree of a live element holds exactly what lies within it. -/
theorem WellFormed.mem_subtree {t : LiveTree} (h : t.WellFormed) {x y : Nat} {node : LiveNode}
    (hx : t.node? x = some node) : y ∈ t.subtree x ↔ t.links.Within x y := by
  rw [subtree_eq_walk]
  exact Links.mem_walk h.forest (links_eq_some.mpr ⟨node, hx, rfl⟩)

/-- No element stands twice in a subtree. -/
theorem WellFormed.subtree_nodup {t : LiveTree} (h : t.WellFormed) (x : Nat) :
    (t.subtree x).Nodup := by
  rw [subtree_eq_walk]
  exact Links.walk_nodup h.forest x

/-- What lies within a live element is live. -/
theorem WellFormed.live_of_within {t : LiveTree} (h : t.WellFormed) {x y : Nat}
    {node : LiveNode} (hx : t.node? x = some node) (hxy : t.links.Within x y) :
    ∃ below, t.node? y = some below := by
  obtain ⟨children, hy⟩ :=
    h.forest.used_of_within (links_eq_some.mpr ⟨node, hx, rfl⟩) hxy
  obtain ⟨below, hbelow, _⟩ := links_eq_some.mp hy
  exact ⟨below, hbelow⟩

/-- Every live element lies within the root: going up from it ends there. -/
theorem WellFormed.within_root {t : LiveTree} (h : t.WellFormed) {y : Nat} {node : LiveNode}
    (hy : t.node? y = some node) : t.links.Within root y := by
  induction y using Nat.strongRecOn generalizing node with
  | ind y ih =>
      cases hparent : node.parent with
      | none =>
          obtain rfl : y = root := h.root_of_orphan hy hparent
          exact Relation.ReflTransGen.refl
      | some p =>
          obtain ⟨hlt, above, habove, hmem⟩ := h.child_of_parent hy hparent
          exact (ih p hlt habove).tail (child_iff.mpr ⟨above, habove, hmem⟩)

/-! ## Changes keep trees well-formed -/

/-- An element that is live before a change is live after it. -/
def Keeps (t t' : LiveTree) : Prop :=
  ∀ id node, t.node? id = some node → ∃ node', t'.node? id = some node'

/-- An insertion keeps every element. -/
theorem keeps_insert (t : LiveTree) (p : Nat) (a : Attributes) :
    t.Keeps (t.insert (some p) a) := by
  intro id node hid
  have hne : id ≠ t.nextId := Nat.ne_of_lt (lt_nextId hid)
  rw [node?_insert_some, if_neg hne]
  by_cases hp : id = p
  · exact ⟨_, by rw [if_pos hp, hid]; rfl⟩
  · exact ⟨node, by rw [if_neg hp, hid]⟩

/-- What a cell holds after an insertion: the new element, its parent with the new child, or
what it held before. -/
theorem insert_cases {t : LiveTree} {p k : Nat} {a : Attributes} {node : LiveNode}
    (hk : (t.insert (some p) a).node? k = some node) :
    (k = t.nextId ∧ node = ⟨a, some p, []⟩) ∨
    (k = p ∧ ∃ old, t.node? p = some old ∧
      node = { old with children := old.children ++ [t.nextId] }) ∨
    (k ≠ p ∧ t.node? k = some node) := by
  rw [node?_insert_some] at hk
  by_cases hnew : k = t.nextId
  · rw [if_pos hnew] at hk
    exact Or.inl ⟨hnew, (Option.some.inj hk).symm⟩
  · rw [if_neg hnew] at hk
    by_cases hp : k = p
    · subst hp
      rw [if_pos rfl] at hk
      obtain ⟨old, hold, heq⟩ := Option.map_eq_some_iff.mp hk
      exact Or.inr (Or.inl ⟨rfl, old, hold, heq.symm⟩)
    · rw [if_neg hp] at hk
      exact Or.inr (Or.inr ⟨hp, hk⟩)

/-- An insertion under a live element keeps a tree well-formed. -/
theorem WellFormed.insert {t : LiveTree} (h : t.WellFormed) {p : Nat} {above : LiveNode}
    (hp : t.node? p = some above) (a : Attributes) : (t.insert (some p) a).WellFormed := by
  have hplt : p < t.nextId := lt_nextId hp
  have hpne : p ≠ t.nextId := Nat.ne_of_lt hplt
  -- an old element keeps its parent
  have hold : ∀ {k : Nat} {node : LiveNode}, t.node? k = some node →
      ∃ node', (t.insert (some p) a).node? k = some node' ∧ node'.parent = node.parent := by
    intro k node hk
    have hne : k ≠ t.nextId := Nat.ne_of_lt (lt_nextId hk)
    rw [node?_insert_some, if_neg hne]
    by_cases hkp : k = p
    · exact ⟨{ node with children := node.children ++ [t.nextId] },
        by rw [if_pos hkp, hk]; rfl, rfl⟩
    · exact ⟨node, by rw [if_neg hkp, hk], rfl⟩
  constructor
  · obtain ⟨node, hroot, hparent⟩ := h.root_live
    obtain ⟨node', hroot', hparent'⟩ := hold hroot
    exact ⟨node', hroot', hparent'.trans hparent⟩
  · intro q c node hq hc
    have hlisted : ∀ {k : Nat} {n : LiveNode}, t.node? k = some n → c ∈ n.children →
        ∃ child, (t.insert (some p) a).node? c = some child ∧ child.parent = some k := by
      intro k n hk hmem
      obtain ⟨child, hchild, hparent⟩ := h.parent_of_child hk hmem
      obtain ⟨child', hchild', hparent'⟩ := hold hchild
      exact ⟨child', hchild', hparent'.trans hparent⟩
    rcases insert_cases hq with ⟨_, rfl⟩ | ⟨rfl, old, holdNode, rfl⟩ | ⟨_, hq⟩
    · simp at hc
    · rcases List.mem_append.mp hc with hc | hc
      · exact hlisted holdNode hc
      · obtain rfl : c = t.nextId := List.mem_singleton.mp hc
        exact ⟨⟨a, some q, []⟩, by rw [node?_insert_some, if_pos rfl], rfl⟩
    · exact hlisted hq hc
  · intro q c child hc hparent
    have hlisted : ∀ {k : Nat} {n : LiveNode}, t.node? k = some n → n.parent = some q →
        q < k ∧ ∃ node, (t.insert (some p) a).node? q = some node ∧ k ∈ node.children := by
      intro k n hn hq
      obtain ⟨hlt, node, hnode, hmem⟩ := h.child_of_parent hn hq
      have hne : q ≠ t.nextId := Nat.ne_of_lt (lt_nextId hnode)
      refine ⟨hlt, ?_⟩
      rw [node?_insert_some, if_neg hne]
      by_cases hqp : q = p
      · exact ⟨_, by rw [if_pos hqp, hnode]; rfl, List.mem_append_left _ hmem⟩
      · exact ⟨node, by rw [if_neg hqp, hnode], hmem⟩
    rcases insert_cases hc with ⟨rfl, rfl⟩ | ⟨rfl, old, holdNode, rfl⟩ | ⟨_, hc⟩
    · obtain rfl : p = q := Option.some.inj hparent
      have hlinked : (t.insert (some p) a).node? p =
          some { above with children := above.children ++ [t.nextId] } := by
        rw [node?_insert_some, if_neg hpne, if_pos rfl, hp]
        rfl
      exact ⟨hplt, _, hlinked, List.mem_append_right _ (List.mem_singleton.mpr rfl)⟩
    · exact hlisted holdNode hparent
    · exact hlisted hc hparent
  · intro id node hid hparent
    rcases insert_cases hid with ⟨_, rfl⟩ | ⟨rfl, old, holdNode, rfl⟩ | ⟨_, hid⟩
    · simp at hparent
    · exact h.root_of_orphan holdNode hparent
    · exact h.root_of_orphan hid hparent
  · intro id node hid
    rcases insert_cases hid with ⟨_, rfl⟩ | ⟨rfl, old, holdNode, rfl⟩ | ⟨_, hid⟩
    · exact List.nodup_nil
    · refine List.Nodup.append (h.children_nodup holdNode) (List.nodup_singleton _) ?_
      rw [List.disjoint_singleton]
      intro hmem
      obtain ⟨child, hchild, _⟩ := h.parent_of_child holdNode hmem
      exact Nat.lt_irrefl _ (lt_nextId hchild)
    · exact h.children_nodup hid

mutual

/-- Appending a fixture keeps a tree well-formed and its elements live. -/
theorem WellFormed.insertFixture {t : LiveTree} (h : t.WellFormed) {p : Nat}
    {above : LiveNode} (hp : t.node? p = some above) :
    ∀ f : Fixture, (t.insertFixture (some p) f).WellFormed ∧ t.Keeps (t.insertFixture (some p) f)
  | .mk a children => by
    have htop := h.insert hp a
    have hnew : (t.insert (some p) a).node? t.nextId = some ⟨a, some p, []⟩ := by
      rw [node?_insert_some, if_pos rfl]
    obtain ⟨hwf, hkeeps⟩ := htop.insertAll hnew children
    refine ⟨hwf, ?_⟩
    intro id node hid
    obtain ⟨node', hid'⟩ := keeps_insert t p a id node hid
    exact hkeeps id node' hid'

/-- Appending fixtures one after the other keeps a tree well-formed and its elements live. -/
theorem WellFormed.insertAll {t : LiveTree} (h : t.WellFormed) {p : Nat} {above : LiveNode}
    (hp : t.node? p = some above) :
    ∀ fs : List Fixture, (t.insertAll p fs).WellFormed ∧ t.Keeps (t.insertAll p fs)
  | [] => ⟨h, fun _ node hid => ⟨node, hid⟩⟩
  | f :: rest => by
    obtain ⟨hwf, hkeeps⟩ := h.insertFixture hp f
    obtain ⟨above', hp'⟩ := hkeeps p above hp
    obtain ⟨hwf', hkeeps'⟩ := hwf.insertAll hp' rest
    refine ⟨hwf', ?_⟩
    intro id node hid
    obtain ⟨node', hid'⟩ := hkeeps id node hid
    exact hkeeps' id node' hid'

end

/-- A loaded fixture is well-formed. -/
theorem wellFormed_ofFixture (f : Fixture) : (ofFixture f).WellFormed := by
  obtain ⟨a, children⟩ := f
  have hcell : ∀ {k : Nat} {node : LiveNode},
      (insert ⟨#[]⟩ none a).node? k = some node → k = 0 ∧ node = ⟨a, none, []⟩ := by
    intro k node hk
    have hlt : k < 1 := lt_nextId hk
    obtain rfl : k = 0 := by omega
    exact ⟨rfl, (Option.some.inj hk).symm⟩
  have hroot : (insert ⟨#[]⟩ none a).node? root = some ⟨a, none, []⟩ := rfl
  have htop : (insert ⟨#[]⟩ none a).WellFormed := by
    constructor
    · exact ⟨⟨a, none, []⟩, hroot, rfl⟩
    · intro p c node hp hc
      obtain ⟨_, rfl⟩ := hcell hp
      simp at hc
    · intro p c child hc hparent
      obtain ⟨_, rfl⟩ := hcell hc
      simp at hparent
    · intro id node hid _
      exact (hcell hid).1
    · intro id node hid
      obtain ⟨_, rfl⟩ := hcell hid
      exact List.nodup_nil
  exact (htop.insertAll hroot children).1

/-- Updating the attributes of an element leaves all links as they are. -/
theorem WellFormed.modify {t : LiveTree} (h : t.WellFormed) (id : Nat)
    (f : Attributes → Attributes) :
    (t.modify id fun node => { node with attributes := f node.attributes }).WellFormed := by
  have hforth : ∀ {k : Nat} {node : LiveNode}, t.node? k = some node →
      ∃ node', (t.modify id fun node => { node with attributes := f node.attributes }).node? k =
        some node' ∧ node'.parent = node.parent ∧ node'.children = node.children := by
    intro k node hk
    rw [node?_modify]
    by_cases hkid : k = id
    · exact ⟨{ node with attributes := f node.attributes },
        by rw [if_pos hkid, hk]; rfl, rfl, rfl⟩
    · exact ⟨node, by rw [if_neg hkid, hk], rfl, rfl⟩
  have hback : ∀ {k : Nat} {node' : LiveNode},
      (t.modify id fun node => { node with attributes := f node.attributes }).node? k =
        some node' →
      ∃ node, t.node? k = some node ∧ node'.parent = node.parent ∧
        node'.children = node.children := by
    intro k node' hk
    rw [node?_modify] at hk
    by_cases hkid : k = id
    · rw [if_pos hkid] at hk
      obtain ⟨node, hnode, rfl⟩ := Option.map_eq_some_iff.mp hk
      exact ⟨node, hnode, rfl, rfl⟩
    · rw [if_neg hkid] at hk
      exact ⟨node', hk, rfl, rfl⟩
  constructor
  · obtain ⟨node, hroot, hparent⟩ := h.root_live
    obtain ⟨node', hroot', hparent', _⟩ := hforth hroot
    exact ⟨node', hroot', hparent'.trans hparent⟩
  · intro p c node' hp hc
    obtain ⟨node, hnode, _, hchildren⟩ := hback hp
    obtain ⟨child, hchild, hparent⟩ := h.parent_of_child hnode (hchildren ▸ hc)
    obtain ⟨child', hchild', hparent', _⟩ := hforth hchild
    exact ⟨child', hchild', hparent'.trans hparent⟩
  · intro p c child' hc hparent
    obtain ⟨child, hchild, hparent', _⟩ := hback hc
    obtain ⟨hlt, node, hnode, hmem⟩ := h.child_of_parent hchild (hparent'.symm.trans hparent)
    obtain ⟨node', hnode', _, hchildren⟩ := hforth hnode
    exact ⟨hlt, node', hnode', hchildren.symm ▸ hmem⟩
  · intro k node' hk hparent
    obtain ⟨node, hnode, hparent', _⟩ := hback hk
    exact h.root_of_orphan hnode (hparent'.symm.trans hparent)
  · intro k node' hk
    obtain ⟨node, hnode, _, hchildren⟩ := hback hk
    exact hchildren.symm ▸ h.children_nodup hnode

/-! ## Removals -/

/-- Unlinking takes an element out of the list of its parent and changes nothing else. -/
theorem node?_unlink {t : LiveTree} {id p : Nat} {node : LiveNode} (hid : t.node? id = some node)
    (hparent : node.parent = some p) (k : Nat) :
    (t.unlink id).node? k =
      if k = p then (t.node? k).map fun above =>
        { above with children := above.children.filter (· != id) }
      else t.node? k := by
  have hbind : (t.node? id).bind LiveNode.parent = some p := by rw [hid]; exact hparent
  simp only [unlink, hbind]
  exact node?_modify t p _ k

/-- The cells after a removal: those of the subtree are empty, and the others list the element no
longer. -/
theorem WellFormed.node?_remove {t : LiveTree} (h : t.WellFormed) {id p : Nat} {node : LiveNode}
    (hid : t.node? id = some node) (hparent : node.parent = some p) (k : Nat) :
    ((t.unlink id).clear (t.subtree id)).node? k =
      if k ∈ t.subtree id then none
      else (t.node? k).map fun old =>
        { old with children := old.children.filter (· != id) } := by
  rw [node?_clear, node?_unlink hid hparent]
  by_cases hmem : k ∈ t.subtree id
  · rw [if_pos hmem, if_pos hmem]
  rw [if_neg hmem, if_neg hmem]
  by_cases hkp : k = p
  · rw [if_pos hkp]
  rw [if_neg hkp]
  cases hk : t.node? k with
  | none => rfl
  | some old =>
      -- only the parent lists the removed element
      have hkeep : old.children.filter (· != id) = old.children := by
        refine List.filter_eq_self.mpr ?_
        intro c hc
        have hne : c ≠ id := by
          intro heq
          subst heq
          obtain ⟨child, hchild, hup⟩ := h.parent_of_child hk hc
          obtain rfl : node = child := Option.some.inj (hid.symm.trans hchild)
          exact hkp (Option.some.inj (hup.symm.trans hparent))
        simpa using hne
      rw [Option.map_some, hkeep]

/-- A child other than the removed element lies outside the subtree if its parent does. -/
theorem WellFormed.outside_of_child {t : LiveTree} (h : t.WellFormed) {gone k c : Nat}
    (hkc : t.links.Child k c) (hout : ¬ t.links.Within gone k) (hne : c ≠ gone) :
    ¬ t.links.Within gone c := by
  intro hwithin
  cases hwithin with
  | refl => exact hne rfl
  | @tail q _ hq hstep =>
      obtain rfl : k = q := h.forest.parent_unique hkc hstep
      exact hout hq

/-- What a cell holds after a removal: it lies outside the removed subtree, and the removed
element is no longer listed there. -/
theorem WellFormed.remove_cases {t : LiveTree} (h : t.WellFormed) {id p k : Nat}
    {node kept : LiveNode} (hid : t.node? id = some node) (hparent : node.parent = some p)
    (hk : ((t.unlink id).clear (t.subtree id)).node? k = some kept) :
    ¬ t.links.Within id k ∧ ∃ old, t.node? k = some old ∧ kept.parent = old.parent ∧
      kept.children = old.children.filter (· != id) := by
  rw [h.node?_remove hid hparent] at hk
  by_cases hmem : k ∈ t.subtree id
  · simp [hmem] at hk
  · rw [if_neg hmem] at hk
    obtain ⟨old, hold, rfl⟩ := Option.map_eq_some_iff.mp hk
    exact ⟨fun hwithin => hmem ((h.mem_subtree hid).mpr hwithin), old, hold, rfl, rfl⟩

/-- Outside the removed subtree every element stays. -/
theorem WellFormed.remove_keeps {t : LiveTree} (h : t.WellFormed) {id p k : Nat}
    {node old : LiveNode} (hid : t.node? id = some node) (hparent : node.parent = some p)
    (hk : t.node? k = some old) (hout : ¬ t.links.Within id k) :
    ∃ kept, ((t.unlink id).clear (t.subtree id)).node? k = some kept ∧
      kept.parent = old.parent ∧ ∀ c ∈ old.children, c ≠ id → c ∈ kept.children := by
  have hmem : k ∉ t.subtree id := fun hmem => hout ((h.mem_subtree hid).mp hmem)
  refine ⟨{ old with children := old.children.filter (· != id) }, ?_, rfl, ?_⟩
  · rw [h.node?_remove hid hparent, if_neg hmem, hk, Option.map_some]
  · intro c hc hne
    exact List.mem_filter.mpr ⟨hc, by simpa using hne⟩

/-- Removing a subtree keeps a tree well-formed: no link crosses its border but the one that
is cut. -/
theorem WellFormed.remove {t : LiveTree} (h : t.WellFormed) {id p : Nat} {node : LiveNode}
    (hid : t.node? id = some node) (hparent : node.parent = some p) :
    ((t.unlink id).clear (t.subtree id)).WellFormed := by
  have hnotroot : ¬ t.links.Within id root := by
    intro hwithin
    have hle : id ≤ root := h.forest.le_of_within hwithin
    have hlt : p < id := (h.child_of_parent hid hparent).1
    simp only [root] at hle
    omega
  constructor
  · obtain ⟨top, hroot, htop⟩ := h.root_live
    obtain ⟨kept, hkept, hkeptParent, _⟩ := h.remove_keeps hid hparent hroot hnotroot
    exact ⟨kept, hkept, hkeptParent.trans htop⟩
  · intro q c kept hq hc
    obtain ⟨hout, old, hold, _, hchildren⟩ := h.remove_cases hid hparent hq
    rw [hchildren, List.mem_filter] at hc
    obtain ⟨child, hchild, hup⟩ := h.parent_of_child hold hc.1
    have hne : c ≠ id := by simpa using hc.2
    have houtc : ¬ t.links.Within id c :=
      h.outside_of_child (child_iff.mpr ⟨old, hold, hc.1⟩) hout hne
    obtain ⟨keptChild, hkeptChild, hkeptParent, _⟩ := h.remove_keeps hid hparent hchild houtc
    exact ⟨keptChild, hkeptChild, hkeptParent.trans hup⟩
  · intro q c kept hc hup
    obtain ⟨hout, old, hold, hkeptParent, _⟩ := h.remove_cases hid hparent hc
    obtain ⟨hlt, above, habove, hmem⟩ := h.child_of_parent hold (hkeptParent.symm.trans hup)
    have houtq : ¬ t.links.Within id q :=
      fun hwithin => hout (hwithin.tail (child_iff.mpr ⟨above, habove, hmem⟩))
    have hne : c ≠ id := by
      intro heq
      subst heq
      exact hout Relation.ReflTransGen.refl
    obtain ⟨keptAbove, hkeptAbove, _, hkeptChildren⟩ :=
      h.remove_keeps hid hparent habove houtq
    exact ⟨hlt, keptAbove, hkeptAbove, hkeptChildren c hmem hne⟩
  · intro k kept hk hup
    obtain ⟨_, old, hold, hkeptParent, _⟩ := h.remove_cases hid hparent hk
    exact h.root_of_orphan hold (hkeptParent.symm.trans hup)
  · intro k kept hk
    obtain ⟨_, old, hold, _, hchildren⟩ := h.remove_cases hid hparent hk
    rw [hchildren]
    exact (h.children_nodup hold).filter _

/-! ## Every reachable state -/

/-- A handle names the live element whose number it carries. -/
theorem liveId?_eq_some {t : LiveTree} {h : Handle} {id : Nat} :
    t.liveId? h = some id ↔ h.number? = some id ∧ ∃ node, t.node? id = some node := by
  simp [liveId?, Option.filter_eq_some_iff, Option.isSome_iff_exists]

/-- A change that can be made keeps a tree well-formed. -/
theorem WellFormed.apply {t t' : LiveTree} (h : t.WellFormed) (m : Mutation)
    (happly : t.apply m = .ok t') : t'.WellFormed := by
  cases m with
  | append parent child =>
      cases hp : t.liveId? parent with
      | none => simp [LiveTree.apply, appendChild, hp, Except.map] at happly
      | some p =>
          obtain ⟨above, habove⟩ := (liveId?_eq_some.mp hp).2
          simp only [LiveTree.apply, appendChild, hp, Except.map, Except.ok.injEq] at happly
          exact happly ▸ (h.insertFixture habove child).1
  | remove element =>
      cases hid : t.liveId? element with
      | none => simp [LiveTree.apply, LiveTree.remove, hid] at happly
      | some id =>
          obtain ⟨node, hnode⟩ := (liveId?_eq_some.mp hid).2
          by_cases hroot : id = root
          · simp [LiveTree.apply, LiveTree.remove, hid, hroot] at happly
          · simp only [LiveTree.apply, LiveTree.remove, hid, if_neg hroot,
              Except.ok.injEq] at happly
            cases hparent : node.parent with
            | none => exact absurd (h.root_of_orphan hnode hparent) hroot
            | some p => exact happly ▸ h.remove hnode hparent
  | update element f =>
      cases hid : t.liveId? element with
      | none => simp [LiveTree.apply, LiveTree.update, hid] at happly
      | some id =>
          simp only [LiveTree.apply, LiveTree.update, hid, Except.ok.injEq] at happly
          exact happly ▸ h.modify id f

/-- **Live trees stay trees.**  Every reachable state is well-formed. -/
theorem Reachable.wellFormed {t : LiveTree} (h : t.Reachable) : t.WellFormed := by
  induction h with
  | load f _ => exact wellFormed_ofFixture f
  | change m _ happly _ ih => exact ih.apply m happly

/-- In a reachable state the next number fits. -/
theorem Reachable.fits {t : LiveTree} (h : t.Reachable) : t.nextId < Nat.pow 2 64 := by
  cases h with
  | load _ hfits => exact hfits
  | change _ _ _ hfits => exact hfits

end LiveTree

end ElementFinder
