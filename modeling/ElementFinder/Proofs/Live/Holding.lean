import ElementFinder.Proofs.Live.NumberedTree
import ElementFinder.Proofs.Live.WellFormed

/-!
# Numbered trees in cells

A live tree keeps its elements in cells that refer to each other by number, in both directions.
`Holds` says that the cells hold a numbered tree: every node of the tree has its cell, with the
attributes of the node, its parent and the numbers of its children.

Cells hold one tree at most under a number (`Holds.unique`), and the walk of an element lists the
nodes of that tree (`Holds.subtree_eq`).  Appending puts a fixture with fresh numbers into new
cells (`holds_insertFixture`) and grafts it (`Holds.graft`), emptying the cells of a subtree
prunes exactly its nodes (`Holds.prune`, `Holds.mem_prune`), and an update revises one node
(`Holds.revise`).
-/

namespace ElementFinder

open NumberedTree (ids idsAll ofFixtures graftAll pruneAll reviseAll ids_ofFixture top_node)

namespace LiveTree

mutual

/-- The cells hold a tree whose top hangs under a parent. -/
def Holds (t : LiveTree) (parent : Option Nat) : NumberedTree → Prop
  | .node id a children =>
    t.node? id = some ⟨a, parent, children.map NumberedTree.top⟩ ∧ HoldsAll t id children

/-- The cells hold trees that hang side by side under a parent. -/
def HoldsAll (t : LiveTree) (parent : Nat) : List NumberedTree → Prop
  | [] => True
  | n :: rest => Holds t (some parent) n ∧ HoldsAll t parent rest

end

/-! ## What cells hold -/

/-- Trees side by side are held when each of them is. -/
theorem holdsAll_iff {t : LiveTree} {parent : Nat} {ns : List NumberedTree} :
    t.HoldsAll parent ns ↔ ∀ n ∈ ns, t.Holds (some parent) n := by
  induction ns with
  | nil => simp [HoldsAll]
  | cons n rest ih => simp [HoldsAll, ih]

mutual

/-- Trees are held by all cells that agree on their numbers. -/
theorem Holds.congr {t t' : LiveTree} {parent : Option Nat} : ∀ n : NumberedTree,
    t.Holds parent n → (∀ id ∈ n.ids, t'.node? id = t.node? id) → t'.Holds parent n
  | .node id a children, h, hsame => by
    refine ⟨(hsame id List.mem_cons_self).trans h.1, ?_⟩
    exact HoldsAll.congr children h.2 fun k hk => hsame k (List.mem_cons_of_mem id hk)

/-- Trees side by side are held by any cells that agree on their numbers. -/
theorem HoldsAll.congr {t t' : LiveTree} {parent : Nat} : ∀ ns : List NumberedTree,
    t.HoldsAll parent ns → (∀ id ∈ idsAll ns, t'.node? id = t.node? id) → t'.HoldsAll parent ns
  | [], _, _ => trivial
  | n :: rest, h, hsame => by
    refine ⟨Holds.congr n h.1 fun k hk => hsame k (List.mem_append_left _ hk), ?_⟩
    exact HoldsAll.congr rest h.2 fun k hk => hsame k (List.mem_append_right _ hk)

end

mutual

/-- The nodes of a tree that is held lie within its top. -/
theorem Holds.within {t : LiveTree} {parent : Option Nat} {k : Nat} : ∀ n : NumberedTree,
    t.Holds parent n → k ∈ n.ids → t.links.Within n.top k
  | .node id a children, h, hk => by
    rcases List.mem_cons.mp hk with rfl | hbelow
    · exact Relation.ReflTransGen.refl
    · obtain ⟨c, hc, hwithin⟩ := HoldsAll.within children h.2 hbelow
      exact Relation.ReflTransGen.head (child_iff.mpr ⟨_, h.1, List.mem_map_of_mem hc⟩) hwithin

/-- Every number of trees side by side lies within the top of one of them. -/
theorem HoldsAll.within {t : LiveTree} {parent : Nat} {k : Nat} : ∀ ns : List NumberedTree,
    t.HoldsAll parent ns → k ∈ idsAll ns → ∃ n ∈ ns, t.links.Within n.top k
  | n :: rest, h, hk => by
    rcases List.mem_append.mp hk with hhere | hlater
    · exact ⟨n, List.mem_cons_self, Holds.within n h.1 hhere⟩
    · obtain ⟨m, hm, hwithin⟩ := HoldsAll.within rest h.2 hlater
      exact ⟨m, List.mem_cons_of_mem n hm, hwithin⟩

end

mutual

/-- The nodes of a tree that is held are live. -/
theorem Holds.live {t : LiveTree} {parent : Option Nat} {k : Nat} : ∀ n : NumberedTree,
    t.Holds parent n → k ∈ n.ids → ∃ node, t.node? k = some node
  | .node id a children, h, hk => by
    rcases List.mem_cons.mp hk with rfl | hbelow
    · exact ⟨_, h.1⟩
    · exact HoldsAll.live children h.2 hbelow

/-- Every number of trees side by side that are held is live. -/
theorem HoldsAll.live {t : LiveTree} {parent : Nat} {k : Nat} : ∀ ns : List NumberedTree,
    t.HoldsAll parent ns → k ∈ idsAll ns → ∃ node, t.node? k = some node
  | n :: rest, h, hk => by
    rcases List.mem_append.mp hk with hhere | hlater
    · exact Holds.live n h.1 hhere
    · exact HoldsAll.live rest h.2 hlater

end

mutual

/-- Cells hold one tree at most under a number. -/
theorem Holds.unique {t : LiveTree} {p q : Option Nat} : ∀ n m : NumberedTree,
    t.Holds p n → t.Holds q m → n.top = m.top → n = m
  | .node id a children, .node id' a' children', h, h', hid => by
    obtain rfl : id = id' := hid
    have hcell := Option.some.inj (h.1.symm.trans h'.1)
    injection hcell with ha _ hids
    rw [ha, HoldsAll.unique children children' h.2 h'.2 hids]

/-- Trees side by side that are held are told by their tops. -/
theorem HoldsAll.unique {t : LiveTree} {p q : Nat} : ∀ ns ms : List NumberedTree,
    t.HoldsAll p ns → t.HoldsAll q ms → ns.map NumberedTree.top = ms.map NumberedTree.top → ns = ms
  | [], [], _, _, _ => rfl
  | n :: rest, m :: rest', h, h', hids => by
    injection hids with hid hrest
    rw [Holds.unique n m h.1 h'.1 hid, HoldsAll.unique rest rest' h.2 h'.2 hrest]

end

mutual

/-- The walk of an element lists the nodes of the tree that is held under its number. -/
theorem Holds.subtree_eq {t : LiveTree} (ht : t.WellFormed) {parent : Option Nat} :
    ∀ n : NumberedTree, t.Holds parent n → t.subtree n.top = n.ids
  | .node id a children, h => by
    rw [top_node, ht.subtree_eq h.1, ids, ← HoldsAll.subtree_eq ht children h.2, List.flatMap_map]

/-- Going down from the tops of trees side by side meets their numbers in order. -/
theorem HoldsAll.subtree_eq {t : LiveTree} (ht : t.WellFormed) {parent : Nat} :
    ∀ ns : List NumberedTree, t.HoldsAll parent ns →
      (ns.flatMap fun n => t.subtree n.top) = idsAll ns
  | [], _ => rfl
  | n :: rest, h => by
    rw [List.flatMap_cons, Holds.subtree_eq ht n h.1, HoldsAll.subtree_eq ht rest h.2, idsAll]

end

/-! ## Appending -/

/-- An insertion gives out one number. -/
theorem nextId_insert (t : LiveTree) (parent : Option Nat) (a : Attributes) :
    (t.insert parent a).nextId = t.nextId + 1 := by
  cases parent <;> simp [insert, nextId, modify]

/-- The cell of a new element. -/
theorem node?_insert_new (t : LiveTree) (parent : Option Nat) (a : Attributes) :
    (t.insert parent a).node? t.nextId = some ⟨a, parent, []⟩ := by
  cases parent with
  | some p => rw [node?_insert_some, if_pos rfl]
  | none => simp [insert, node?, nextId]

mutual

/-- A fixture takes as many numbers as it has nodes. -/
theorem nextId_insertFixture (t : LiveTree) (parent : Option Nat) : ∀ f : Fixture,
    (t.insertFixture parent f).nextId = t.nextId + f.count
  | .mk a children => by
    rw [insertFixture, nextId_insertAll _ _ children, nextId_insert, Fixture.count]
    omega

/-- Fixtures side by side take as many numbers as they have nodes. -/
theorem nextId_insertAll (t : LiveTree) (parent : Nat) : ∀ fs : List Fixture,
    (t.insertAll parent fs).nextId = t.nextId + Fixture.countAll fs
  | [] => rfl
  | f :: rest => by
    rw [insertAll, nextId_insertAll _ _ rest, nextId_insertFixture _ _ f, Fixture.countAll]
    omega

end

mutual

/-- Appending a fixture gives its parent one more child and leaves all other old cells alone. -/
theorem node?_insertFixture (t : LiveTree) (p : Nat) {k : Nat} (hk : k < t.nextId) :
    ∀ f : Fixture, (t.insertFixture (some p) f).node? k =
      if k = p then (t.node? k).map fun node =>
        { node with children := node.children ++ [t.nextId] }
      else t.node? k
  | .mk a children => by
    have hne : k ≠ t.nextId := Nat.ne_of_lt hk
    have hold : k < (t.insert (some p) a).nextId := by
      rw [nextId_insert]
      omega
    rw [insertFixture, node?_insertAll _ _ hold children, if_neg hne, node?_insert_some,
      if_neg hne]

/-- Appending fixtures gives their parent more children and leaves all other old cells alone. -/
theorem node?_insertAll (t : LiveTree) (p : Nat) {k : Nat} (hk : k < t.nextId) :
    ∀ fs : List Fixture, (t.insertAll p fs).node? k =
      if k = p then (t.node? k).map fun node =>
        { node with children := node.children ++ (ofFixtures t.nextId fs).map NumberedTree.top }
      else t.node? k
  | [] => by simp [insertAll, ofFixtures]
  | f :: rest => by
    have hold : k < (t.insertFixture (some p) f).nextId := by
      rw [nextId_insertFixture]
      omega
    rw [insertAll, node?_insertAll _ _ hold rest, node?_insertFixture t p hk f,
      nextId_insertFixture]
    by_cases hkp : k = p
    · simp [hkp, ofFixtures, Function.comp_def]
    · simp [hkp]

end

mutual

/-- **Fixtures are held as they are numbered.**  The new cells hold the fixture with the next
numbers. -/
theorem holds_insertFixture (t : LiveTree) (parent : Option Nat) : ∀ f : Fixture,
    (t.insertFixture parent f).Holds parent (.ofFixture t.nextId f)
  | .mk a children => by
    have hnext := nextId_insert t parent a
    have hnew : t.nextId < (t.insert parent a).nextId := by omega
    have hbelow := holds_insertAll (t.insert parent a) hnew children
    refine ⟨?_, by rwa [hnext] at hbelow⟩
    rw [insertFixture, node?_insertAll _ _ hnew children, if_pos rfl, node?_insert_new, hnext]
    rfl

/-- After fixtures were appended one after the other, the cells hold them side by side. -/
theorem holds_insertAll (t : LiveTree) {p : Nat} (hp : p < t.nextId) : ∀ fs : List Fixture,
    (t.insertAll p fs).HoldsAll p (ofFixtures t.nextId fs)
  | [] => trivial
  | f :: rest => by
    have hnext := nextId_insertFixture t (some p) f
    have hlater : p < (t.insertFixture (some p) f).nextId := by omega
    have hrest := holds_insertAll _ hlater rest
    rw [hnext] at hrest
    refine ⟨?_, hrest⟩
    refine Holds.congr _ (holds_insertFixture t (some p) f) ?_
    intro k hk
    rw [ids_ofFixture, List.mem_range'_1] at hk
    rw [insertAll, node?_insertAll _ _ (by omega) rest, if_neg (by omega)]

end

mutual

/-- A tree that is held takes the new subtree as the last child of its parent. -/
theorem Holds.graft {t t' : LiveTree} {p : Nat} {new : NumberedTree}
    (hnew : t'.Holds (some p) new)
    (hcells : ∀ k node, t.node? k = some node → t'.node? k =
      some { node with children := node.children ++ if k = p then [new.top] else [] })
    {parent : Option Nat} : ∀ n : NumberedTree, t.Holds parent n → t'.Holds parent (.graft p new n)
  | .node id a children, h => by
    have hbelow := HoldsAll.graft hnew hcells children h.2
    rw [NumberedTree.graft]
    refine ⟨?_, ?_⟩
    · rw [hcells id _ h.1]
      by_cases hid : id = p <;> simp [hid]
    · rw [holdsAll_iff] at hbelow ⊢
      intro n hn
      rcases List.mem_append.mp hn with hold | hadded
      · exact hbelow n hold
      · by_cases hid : id = p
        · rw [if_pos hid, List.mem_singleton] at hadded
          rw [hid, hadded]
          exact hnew
        · simp [hid] at hadded

/-- Grafting among trees side by side is what the cells do. -/
theorem HoldsAll.graft {t t' : LiveTree} {p : Nat} {new : NumberedTree}
    (hnew : t'.Holds (some p) new)
    (hcells : ∀ k node, t.node? k = some node → t'.node? k =
      some { node with children := node.children ++ if k = p then [new.top] else [] })
    {parent : Nat} : ∀ ns : List NumberedTree,
      t.HoldsAll parent ns → t'.HoldsAll parent (graftAll p new ns)
  | [], _ => trivial
  | n :: rest, h => ⟨Holds.graft hnew hcells n h.1, HoldsAll.graft hnew hcells rest h.2⟩

end

/-! ## Removing -/

mutual

/-- A tree that is held is pruned when the cells of the subtree are emptied. -/
theorem Holds.prune {t t' : LiveTree} (ht : t.WellFormed) {gone : Nat}
    (hcells : ∀ k node, t.node? k = some node → ¬ t.links.Within gone k → t'.node? k =
      some { node with children := node.children.filter (· != gone) })
    {parent : Option Nat} : ∀ n : NumberedTree, t.Holds parent n →
      ¬ t.links.Within gone n.top → t'.Holds parent (n.prune gone)
  | .node id a children, h, hout => by
    rw [NumberedTree.prune]
    refine ⟨?_, HoldsAll.prune ht hcells children h.2 ?_⟩
    · rw [hcells id _ h.1 hout]
      simp
    · intro n hn hne
      exact ht.outside_of_child (child_iff.mpr ⟨_, h.1, List.mem_map_of_mem hn⟩) hout hne

/-- Pruning among trees side by side is what the cells do. -/
theorem HoldsAll.prune {t t' : LiveTree} (ht : t.WellFormed) {gone : Nat}
    (hcells : ∀ k node, t.node? k = some node → ¬ t.links.Within gone k → t'.node? k =
      some { node with children := node.children.filter (· != gone) })
    {parent : Nat} : ∀ ns : List NumberedTree, t.HoldsAll parent ns →
      (∀ n ∈ ns, n.top ≠ gone → ¬ t.links.Within gone n.top) →
      t'.HoldsAll parent (pruneAll gone ns)
  | [], _, _ => trivial
  | n :: rest, h, hout => by
    have hrest := HoldsAll.prune ht hcells rest h.2 fun m hm => hout m (List.mem_cons_of_mem n hm)
    by_cases hid : n.top = gone
    · simpa only [pruneAll, if_pos hid] using hrest
    · simp only [pruneAll, if_neg hid]
      exact ⟨Holds.prune ht hcells n h.1 (hout n List.mem_cons_self hid), hrest⟩

end

mutual

/-- **Exactly the subtree is pruned.**  What is left of a tree is what lies outside. -/
theorem Holds.mem_prune {t : LiveTree} (ht : t.WellFormed) {gone k : Nat}
    {parent : Option Nat} : ∀ n : NumberedTree, t.Holds parent n →
      ¬ t.links.Within gone n.top →
      (k ∈ (n.prune gone).ids ↔ k ∈ n.ids ∧ ¬ t.links.Within gone k)
  | .node id a children, h, hout => by
    have hbelow := HoldsAll.mem_prune (k := k) ht children h.2 fun n hn hne =>
      ht.outside_of_child (child_iff.mpr ⟨_, h.1, List.mem_map_of_mem hn⟩) hout hne
    rw [NumberedTree.prune, ids, ids, List.mem_cons, List.mem_cons, hbelow]
    constructor
    · intro hleft
      rcases hleft with rfl | ⟨hk, houtside⟩
      · exact ⟨Or.inl rfl, hout⟩
      · exact ⟨Or.inr hk, houtside⟩
    · intro hright
      rcases hright with ⟨rfl | hk, houtside⟩
      · exact Or.inl rfl
      · exact Or.inr ⟨hk, houtside⟩

/-- Pruning among trees side by side leaves what does not lie within the number that is gone. -/
theorem HoldsAll.mem_prune {t : LiveTree} (ht : t.WellFormed) {gone k : Nat} {parent : Nat} :
    ∀ ns : List NumberedTree, t.HoldsAll parent ns →
      (∀ n ∈ ns, n.top ≠ gone → ¬ t.links.Within gone n.top) →
      (k ∈ idsAll (pruneAll gone ns) ↔ k ∈ idsAll ns ∧ ¬ t.links.Within gone k)
  | [], _, _ => by simp [pruneAll, idsAll]
  | n :: rest, h, hout => by
    have hrest := HoldsAll.mem_prune (k := k) ht rest h.2 fun m hm =>
      hout m (List.mem_cons_of_mem n hm)
    by_cases hid : n.top = gone
    · have hinside : k ∈ n.ids → t.links.Within gone k := by
        intro hk
        rw [← hid]
        exact Holds.within n h.1 hk
      simp only [pruneAll, if_pos hid, idsAll, List.mem_append, hrest]
      constructor
      · exact fun hleft => ⟨Or.inr hleft.1, hleft.2⟩
      · intro hright
        rcases hright with ⟨hk | hk, houtside⟩
        · exact absurd (hinside hk) houtside
        · exact ⟨hk, houtside⟩
    · have hhere := Holds.mem_prune (k := k) ht n h.1 (hout n List.mem_cons_self hid)
      simp only [pruneAll, if_neg hid, idsAll, List.mem_append, hrest, hhere]
      exact (or_and_right).symm

end

/-! ## Updating -/

mutual

/-- A tree that is held is revised when the attributes in one cell are. -/
theorem Holds.revise {t : LiveTree} {target : Nat} {f : Attributes → Attributes}
    {parent : Option Nat} : ∀ n : NumberedTree, t.Holds parent n →
      (t.modify target fun node => { node with attributes := f node.attributes }).Holds parent
        (n.revise target f)
  | .node id a children, h => by
    rw [NumberedTree.revise]
    refine ⟨?_, HoldsAll.revise children h.2⟩
    rw [node?_modify, h.1]
    by_cases hid : id = target <;> simp [hid]

/-- Revising among trees side by side is what the cells do. -/
theorem HoldsAll.revise {t : LiveTree} {target : Nat} {f : Attributes → Attributes}
    {parent : Nat} : ∀ ns : List NumberedTree, t.HoldsAll parent ns →
      (t.modify target fun node => { node with attributes := f node.attributes }).HoldsAll parent
        (reviseAll target f ns)
  | [], _ => trivial
  | n :: rest, h => ⟨Holds.revise n h.1, HoldsAll.revise rest h.2⟩

end

end LiveTree

end ElementFinder
