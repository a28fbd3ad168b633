import ElementFinder.Proofs.Live.Refinement
import ElementFinder.Proofs.Live.View

/-!
# Snapshots are copies in document order

A snapshot of a live element is a copy of its subtree in which the numbers of the nodes are the
positions of the elements in document order (`Snapshot.CopiesSubtree`).  Nothing is lost: the tree
that cells hold under an element can be rebuilt from its snapshot (`fixtureWithin_eq_forget`), so
a fixture that was just loaded comes back from a snapshot of the root.

A capture may as well be made by a loop over a stack of the elements that are still to be copied
(`CopyLoop`).  One round of the loop is one call of the recursion, and what is left on the stack
is what the calls around it have still to do (`copyLoop_foldl`), so the loop ends with the same
capture and with no other.
-/

namespace ElementFinder

/-! ## Rebuilding a fixture -/

namespace Snapshot

/-- The tree of attributes of a node and of the nodes below it down to a depth. -/
def fixtureWithin (s : Snapshot) : (depth : Nat) → Nat → Fixture
  | 0, id => .mk ((s.attributes? id).getD {}) []
  | depth + 1, id =>
    .mk ((s.attributes? id).getD {}) ((s.children id).map (fixtureWithin s depth))

/-- The tree of attributes of a snapshot. -/
def toFixture (s : Snapshot) : Fixture :=
  s.fixtureWithin s.size 0

end Snapshot

namespace Capture.Faithful

variable {c : Capture} {t : LiveTree} {top : Nat}

mutual

/-- **Nothing is lost.**  From the node of an element the tree is rebuilt that the cells hold
under the element. -/
theorem fixtureWithin_eq_forget (h : c.Faithful t top) {parent : Option Nat} :
    ∀ (n : NumberedTree) {depth k : Nat}, t.Holds parent n → k < c.snapshot.size →
      c.liveOf k = n.top → c.snapshot.size ≤ depth + k →
      c.snapshot.fixtureWithin depth k = n.forget
  | .node id a children, depth, k, hholds, hk, htop, hdepth => by
    obtain ⟨copy, node, hcopy, hnode, hattributes, hchildren, hrange⟩ := h.mirrors k hk
    obtain ⟨depth, rfl⟩ : ∃ d, depth = d + 1 := ⟨depth - 1, by omega⟩
    rw [htop, NumberedTree.top_node, hholds.1] at hnode
    obtain rfl := Option.some.inj hnode
    have hlisted : c.snapshot.children k = copy.children :=
      Snapshot.children_eq hcopy
    have hcopied : (c.snapshot.attributes? k).getD {} = a := by
      simp [Snapshot.attributes?, hcopy, hattributes]
    rw [Snapshot.fixtureWithin, NumberedTree.forget, hcopied, hlisted,
      map_fixtureWithin_eq_forgetAll h children hholds.2 hchildren]
    intro j hj
    have := hrange j hj
    omega

theorem map_fixtureWithin_eq_forgetAll (h : c.Faithful t top) {parent : Nat} :
    ∀ (ns : List NumberedTree) {depth : Nat} {ks : List Nat}, t.HoldsAll parent ns →
      ks.map c.liveOf = ns.map NumberedTree.top →
      (∀ k ∈ ks, k < c.snapshot.size ∧ c.snapshot.size ≤ depth + k) →
      ks.map (c.snapshot.fixtureWithin depth) = NumberedTree.forgetAll ns
  | [], _, ks, _, htops, _ => by
    rw [List.map_eq_nil_iff.mp htops]
    rfl
  | n :: rest, depth, ks, hholds, htops, hrange => by
    cases ks with
    | nil => simp at htops
    | cons k ks =>
        obtain ⟨htop, htops⟩ := List.cons.inj htops
        obtain ⟨hk, hks⟩ := List.forall_mem_cons.mp hrange
        rw [List.map_cons, NumberedTree.forgetAll,
          fixtureWithin_eq_forget h n hholds.1 hk.1 htop hk.2,
          map_fixtureWithin_eq_forgetAll h rest hholds.2 htops hks]

end

end Capture.Faithful

/-! ## Copying with a stack -/

namespace LiveTree

/-- A loop over a stack of elements that are still to be copied, each with the node under which
its copy goes.  The element on top is copied and its children take its place, the first on top;
an element that is not live is passed over.  The loop ends with an empty stack. -/
inductive CopyLoop (t : LiveTree) : List (Nat × Nat) → Capture → Capture → Prop
  | done (c : Capture) : CopyLoop t [] c c
  | skip {id parent : Nat} {stack : List (Nat × Nat)} {c c' : Capture}
      (hid : t.node? id = none) (rest : CopyLoop t stack c c') :
      CopyLoop t ((id, parent) :: stack) c c'
  | copy {id parent : Nat} {node : LiveNode} {stack : List (Nat × Nat)} {c c' : Capture}
      (hid : t.node? id = some node)
      (rest : CopyLoop t (node.children.map (·, c.snapshot.size) ++ stack)
        (c.push parent id node.attributes) c') :
      CopyLoop t ((id, parent) :: stack) c c'

/-- The loop ends in one way at most. -/
theorem CopyLoop.unique {t : LiveTree} {stack : List (Nat × Nat)} {c c₁ c₂ : Capture}
    (h₁ : t.CopyLoop stack c c₁) (h₂ : t.CopyLoop stack c c₂) : c₁ = c₂ := by
  induction h₁ with
  | done => cases h₂; rfl
  | skip hid _ ih =>
      cases h₂ with
      | skip _ rest => exact ih rest
      | copy hid' _ => exact absurd (hid.symm.trans hid') (by simp)
  | copy hid _ ih =>
      cases h₂ with
      | skip hid' _ => exact absurd (hid'.symm.trans hid) (by simp)
      | copy hid' rest =>
          obtain rfl := Option.some.inj (hid.symm.trans hid')
          exact ih rest

/-- **A stack does what the recursion does.**  If the loop goes on to some end once some elements
have been copied by the recursion, it comes to that end as well with these elements on the stack. -/
theorem WellFormed.copyLoop_foldl {t : LiveTree} (ht : t.WellFormed) (depth : Nat) :
    ∀ {ids : List Nat} {parent : Nat} {stack : List (Nat × Nat)} {c c' : Capture},
      (∀ id ∈ ids, t.nextId ≤ depth + id) →
      t.CopyLoop stack (ids.foldl (t.copyInto depth parent) c) c' →
      t.CopyLoop (ids.map (·, parent) ++ stack) c c' := by
  induction depth with
  | zero =>
      -- no element has a number that needs no depth
      intro ids
      induction ids with
      | nil => exact fun _ hloop => hloop
      | cons id ids ihs =>
          intro parent stack c c' hdepth hloop
          obtain ⟨hid, hids⟩ := List.forall_mem_cons.mp hdepth
          cases hnode : t.node? id with
          | none => exact .skip hnode (ihs hids hloop)
          | some node =>
              have := lt_nextId hnode
              omega
  | succ depth ih =>
      intro ids
      induction ids with
      | nil => exact fun _ hloop => hloop
      | cons id ids ihs =>
          intro parent stack c c' hdepth hloop
          obtain ⟨hid, hids⟩ := List.forall_mem_cons.mp hdepth
          rw [List.foldl_cons] at hloop
          have hrest := ihs hids hloop
          cases hnode : t.node? id with
          | none =>
              rw [copyInto, hnode] at hrest
              exact .skip hnode hrest
          | some node =>
              rw [copyInto, hnode] at hrest
              refine .copy hnode (ih ?_ hrest)
              intro child hchild
              obtain ⟨below, hbelow, hup⟩ := ht.parent_of_child hnode hchild
              have := (ht.child_of_parent hbelow hup).1
              omega

end LiveTree

/-! ## What a snapshot is a copy of -/

/-- A snapshot is a copy of the subtree of a live element, numbered in document order: node `k`
stands for element `k` of the subtree. -/
structure Snapshot.CopiesSubtree (s : Snapshot) (t : LiveTree) (x : Nat) : Prop where
  documentOrder_eq : s.documentOrder = List.range s.size
  size_eq : s.size = (t.subtree x).length
  attributes_eq : ∀ k, s.attributes? k = (t.subtree x)[k]?.bind t.attributes?
  children_eq : ∀ {k y node}, (t.subtree x)[k]? = some y → t.node? y = some node →
    (s.children k).map (fun j => (t.subtree x)[j]?) = node.children.map some
  parent_eq : ∀ {k y}, 0 < k → (t.subtree x)[k]? = some y → ∃ p up,
    s.parent? k = some p ∧ (t.subtree x)[p]? = some up ∧ t.parent? y = some up
  top_parent : s.parent? 0 = none
  viewport_eq : ∃ top, t.node? LiveTree.root = some top ∧
    s.viewport = ⟨.zero, .zero, top.attributes.frame.width, top.attributes.frame.height⟩

/-- A faithful capture is such a copy. -/
theorem Capture.Faithful.copiesSubtree {c : Capture} {t : LiveTree} {x : Nat}
    (h : c.Faithful t x) (ht : t.WellFormed) (hpos : 0 < c.snapshot.size) :
    c.snapshot.CopiesSubtree t x := by
  have hsize : c.snapshot.size = (t.subtree x).length := by rw [h.size_eq, h.liveIds_eq]
  have hget : ∀ {k}, k < c.snapshot.size → (t.subtree x)[k]? = some (c.liveOf k) := by
    intro k hk
    rw [← h.liveIds_eq, h.liveIds_getElem? hk]
  have hplace : ∀ {k y}, (t.subtree x)[k]? = some y → k < c.snapshot.size ∧ c.liveOf k = y := by
    intro k y hy
    have hk : k < c.snapshot.size := by
      rw [hsize]
      exact (List.getElem?_eq_some_iff.mp hy).1
    exact ⟨hk, Option.some.inj ((hget hk).symm.trans hy)⟩
  constructor
  · exact h.documentOrder_eq ht hpos
  · exact hsize
  · intro k
    by_cases hk : k < c.snapshot.size
    · rw [hget hk, h.attributes?_liveOf hk, Option.bind_some]
    · have hnone : c.snapshot.node? k = none := Snapshot.node?_eq_none (Nat.not_lt.mp hk)
      rw [List.getElem?_eq_none (by omega), Snapshot.attributes?, hnone]
      rfl
  · intro k y node hy hnode
    obtain ⟨hk, rfl⟩ := hplace hy
    obtain ⟨copy, node', hcopy, hnode', -, hchildren, hrange⟩ := h.mirrors k hk
    obtain rfl := Option.some.inj (hnode.symm.trans hnode')
    have hlisted : c.snapshot.children k = copy.children :=
      Snapshot.children_eq hcopy
    rw [hlisted, ← hchildren, List.map_map]
    exact List.map_congr_left fun j hj => hget (hrange j hj).2
  · intro k y hpos hy
    obtain ⟨hk, rfl⟩ := hplace hy
    obtain ⟨p, hp, hlt, hup⟩ := h.parent?_liveOf hpos hk
    exact ⟨p, c.liveOf p, hp, hget (Nat.lt_trans hlt hk), hup⟩
  · exact h.top_parent
  · obtain ⟨top, htop, -⟩ := ht.root_live
    refine ⟨top, htop, ?_⟩
    rw [h.viewport_eq, LiveTree.viewport, htop]
    rfl

namespace LiveTree

/-- A capture that holds the element it starts at and nothing below it. -/
def startCapture (t : LiveTree) (id : Nat) (node : LiveNode) : Capture :=
  ⟨{ Snapshot.ofRoot node.attributes with viewport := t.viewport }, [id]⟩

/-- The loop that starts with the children of an element ends with the capture of the element. -/
theorem WellFormed.copyLoop_iff {t : LiveTree} (ht : t.WellFormed) {x : Nat} {node : LiveNode}
    {c c' : Capture} (hnode : t.node? x = some node) (hc : t.capture? x = some c) :
    t.CopyLoop (node.children.map (·, 0)) (t.startCapture x node) c' ↔ c' = c := by
  have hloop : t.CopyLoop (node.children.map (·, 0)) (t.startCapture x node) c := by
    rw [capture?, hnode, Option.map_some] at hc
    rw [← List.append_nil (node.children.map _), ← Option.some.inj hc]
    exact ht.copyLoop_foldl t.nextId (fun id _ => Nat.le_add_right _ id) (.done _)
  constructor
  · exact fun h => h.unique hloop
  · rintro rfl
    exact hloop

/-- A fixture that was just loaded comes back from a snapshot of the root. -/
theorem snapshot_ofFixture (f : Fixture) :
    ∃ s, (ofFixture f).snapshot (.ofNumber root) = .ok s ∧ s.toFixture = f := by
  have ht := wellFormed_ofFixture f
  have hstore := represents_ofFixture f
  obtain ⟨top, htop, -⟩ := ht.root_live
  have hroot : (ofFixture f).liveId? (.ofNumber root) = some root :=
    liveId?_eq_some.mpr ⟨Handle.number?_ofNumber (by decide), top, htop⟩
  obtain ⟨c, hsnapshot, hc, hpos⟩ := ht.snapshot_live hroot
  refine ⟨c.snapshot, hsnapshot, ?_⟩
  rw [Snapshot.toFixture, hc.fixtureWithin_eq_forget _ hstore.holds hpos
    (hc.liveOf_top.trans hstore.root_eq.symm) (Nat.le_add_right _ 0)]
  exact NumberedTree.forget_ofFixture 0 f

/-- **Snapshots are faithful copies.**  In a reachable tree every live element has a snapshot,
which is a copy of its subtree in document order and what the loop over a stack comes to; and a
fixture comes back from a snapshot of the tree that was loaded from it. -/
theorem Reachable.snapshot_copies {t : LiveTree} (ht : t.Reachable) {h : Handle} {x : Nat}
    (hx : t.liveId? h = some x) :
    (∃ c node, t.snapshot h = .ok c.snapshot ∧ c.snapshot.CopiesSubtree t x ∧
      t.node? x = some node ∧
      ∀ c', t.CopyLoop (node.children.map (·, 0)) (t.startCapture x node) c' ↔ c' = c) ∧
    ∀ f : Fixture, ∃ s, (ofFixture f).snapshot (.ofNumber root) = .ok s ∧ s.toFixture = f := by
  have hwf := ht.wellFormed
  obtain ⟨node, hnode⟩ := (liveId?_eq_some.mp hx).2
  obtain ⟨c, hcapture, hc⟩ := hwf.capture?_faithful hnode
  refine ⟨⟨c, node, ?_, hc.copiesSubtree hwf (hc.size_pos hwf hnode), hnode, fun c' => ?_⟩,
    snapshot_ofFixture⟩
  · simp only [snapshot, hx, Option.bind_some, hcapture]
  · exact hwf.copyLoop_iff hnode hcapture

/-- A table that is not the root of its tree. -/
theorem snapshot_copies_twinTables :
    (ofFixture .twinTables).Reachable ∧ (ofFixture .twinTables).liveId? ⟨"node-3"⟩ = some 3 ∧
    (ofFixture .twinTables).subtree 3 = [3, 4] ∧
    (∃ c node, (ofFixture .twinTables).snapshot ⟨"node-3"⟩ = .ok c.snapshot ∧
      c.snapshot.CopiesSubtree (ofFixture .twinTables) 3 ∧
      (ofFixture .twinTables).node? 3 = some node ∧
      ∀ c', (ofFixture .twinTables).CopyLoop (node.children.map (·, 0))
        ((ofFixture .twinTables).startCapture 3 node) c' ↔ c' = c) ∧
    ∀ f : Fixture, ∃ s, (ofFixture f).snapshot (.ofNumber root) = .ok s ∧ s.toFixture = f :=
  ⟨reachable_twinTables, by decide, by decide,
    reachable_twinTables.snapshot_copies (by decide)⟩

end LiveTree

end ElementFinder
