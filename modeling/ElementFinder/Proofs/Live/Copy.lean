import ElementFinder.Live.Capture
import ElementFinder.Proofs.Live.WellFormed
import ElementFinder.Proofs.Snapshot.Links

/-!
# Captures are faithful copies

A capture pushes copies of live elements one after the other and remembers the number of the
element behind each node.  `Capture.Grown` says what copying some subtrees under a node does to
a capture: the new nodes stand at the end in document order and are finished copies, the node
they hang under lists them, and every other node stays as it was.  Growths compose, so the
recursion of `copyInto` needs one induction over the depth and one over lists of children.

The result is `capture?_faithful`: the numbers behind the nodes of a capture are the subtree in
document order, every node carries the attributes of its element, and links are copied link by
link.
-/

namespace ElementFinder

namespace Capture

/-- The live element behind a node. -/
def liveOf (c : Capture) (k : Nat) : Nat :=
  (c.liveIds[k]?).getD 0

/-- A node is a finished copy: it has the attributes of its element, and its children stand
behind it and are copies of the children of its element. -/
def Mirrors (c : Capture) (t : LiveTree) (k : Nat) : Prop :=
  ∃ copy node, c.snapshot.node? k = some copy ∧ t.node? (c.liveOf k) = some node ∧
    copy.attributes = node.attributes ∧ copy.children.map c.liveOf = node.children ∧
    ∀ j ∈ copy.children, k < j ∧ j < c.snapshot.size

/-- A node hangs where its element hangs: its parent stands before it and is the copy of the
parent of its element. -/
def Hangs (c : Capture) (t : LiveTree) (k : Nat) : Prop :=
  ∃ copy node p, c.snapshot.node? k = some copy ∧ t.node? (c.liveOf k) = some node ∧
    copy.parent = some p ∧ p < k ∧ node.parent = some (c.liveOf p)

/-- What copying the subtrees of some elements under a node does to a capture. -/
structure Grown (t : LiveTree) (parent : Nat) (ids : List Nat) (c c' : Capture) : Prop where
  liveIds_eq : c'.liveIds = c.liveIds ++ ids.flatMap t.subtree
  size_eq : c'.snapshot.size = c'.liveIds.length
  viewport_eq : c'.snapshot.viewport = c.snapshot.viewport
  kept : ∀ k, k < c.snapshot.size → k ≠ parent → c'.snapshot.node? k = c.snapshot.node? k
  listed : ∀ copy, c.snapshot.node? parent = some copy → ∃ places,
    c'.snapshot.node? parent = some { copy with children := copy.children ++ places } ∧
    places.map c'.liveOf = ids ∧ ∀ j ∈ places, c.snapshot.size ≤ j ∧ j < c'.snapshot.size
  finished : ∀ k, c.snapshot.size ≤ k → k < c'.snapshot.size → c'.Mirrors t k ∧ c'.Hangs t k

/-- The elements behind old nodes stay when a capture grows at its end. -/
theorem liveOf_append {c c' : Capture} {more : List Nat} (h : c'.liveIds = c.liveIds ++ more)
    {k : Nat} (hk : k < c.liveIds.length) : c'.liveOf k = c.liveOf k := by
  simp only [liveOf, h, List.getElem?_append_left hk]

/-- A finished copy stays one when a capture grows at its end and leaves the node alone. -/
theorem Mirrors.mono {t : LiveTree} {c c' : Capture} {more : List Nat} {k : Nat}
    (hsize : c.snapshot.size = c.liveIds.length) (hlive : c'.liveIds = c.liveIds ++ more)
    (hle : c.snapshot.size ≤ c'.snapshot.size)
    (hkept : c'.snapshot.node? k = c.snapshot.node? k) (h : c.Mirrors t k) :
    c'.Mirrors t k := by
  obtain ⟨copy, node, hcopy, hnode, hattributes, hchildren, hplaces⟩ := h
  have hold : ∀ j, j < c.snapshot.size → c'.liveOf j = c.liveOf j :=
    fun j hj => liveOf_append hlive (hsize ▸ hj)
  refine ⟨copy, node, hkept.trans hcopy, ?_, hattributes, ?_, ?_⟩
  · rw [hold k (Snapshot.node?_lt hcopy)]
    exact hnode
  · rw [← hchildren]
    exact List.map_congr_left fun j hj => hold j (hplaces j hj).2
  · intro j hj
    exact ⟨(hplaces j hj).1, Nat.lt_of_lt_of_le (hplaces j hj).2 hle⟩

theorem Hangs.mono {t : LiveTree} {c c' : Capture} {more : List Nat} {k : Nat}
    (hsize : c.snapshot.size = c.liveIds.length) (hlive : c'.liveIds = c.liveIds ++ more)
    (hkept : c'.snapshot.node? k = c.snapshot.node? k) (h : c.Hangs t k) :
    c'.Hangs t k := by
  obtain ⟨copy, node, p, hcopy, hnode, hparent, hlt, hup⟩ := h
  have hk : k < c.snapshot.size := Snapshot.node?_lt hcopy
  have hold : ∀ j, j < c.snapshot.size → c'.liveOf j = c.liveOf j :=
    fun j hj => liveOf_append hlive (hsize ▸ hj)
  refine ⟨copy, node, p, hkept.trans hcopy, ?_, hparent, hlt, ?_⟩
  · rw [hold k hk]
    exact hnode
  · rw [hold p (Nat.lt_trans hlt hk)]
    exact hup

namespace Grown

variable {t : LiveTree} {parent : Nat}

theorem size_le {ids : List Nat} {c c' : Capture} (hsize : c.snapshot.size = c.liveIds.length)
    (h : Grown t parent ids c c') : c.snapshot.size ≤ c'.snapshot.size := by
  rw [h.size_eq, h.liveIds_eq, List.length_append, hsize]
  exact Nat.le_add_right _ _

theorem nil {c : Capture} (hsize : c.snapshot.size = c.liveIds.length) :
    Grown t parent [] c c where
  liveIds_eq := by simp
  size_eq := hsize
  viewport_eq := rfl
  kept := fun _ _ _ => rfl
  listed := fun copy hcopy => ⟨[], by simpa using hcopy, rfl, by simp⟩
  finished := fun k hle hlt => absurd hlt (Nat.not_lt.mpr hle)

/-- Growths under one node compose. -/
theorem append {ids ids' : List Nat} {c c' c'' : Capture}
    (hparent : parent < c.snapshot.size) (hsize : c.snapshot.size = c.liveIds.length)
    (h : Grown t parent ids c c') (h' : Grown t parent ids' c' c'') :
    Grown t parent (ids ++ ids') c c'' := by
  have hle : c.snapshot.size ≤ c'.snapshot.size := h.size_le hsize
  have hle' : c'.snapshot.size ≤ c''.snapshot.size := h'.size_le h.size_eq
  constructor
  · rw [h'.liveIds_eq, h.liveIds_eq, List.flatMap_append, List.append_assoc]
  · exact h'.size_eq
  · exact h'.viewport_eq.trans h.viewport_eq
  · intro k hk hne
    rw [h'.kept k (Nat.lt_of_lt_of_le hk hle) hne, h.kept k hk hne]
  · intro copy hcopy
    obtain ⟨places, hplaces, hlive, hrange⟩ := h.listed copy hcopy
    obtain ⟨places', hplaces', hlive', hrange'⟩ := h'.listed _ hplaces
    refine ⟨places ++ places', ?_, ?_, ?_⟩
    · rw [hplaces', List.append_assoc]
    · have hold : places.map c''.liveOf = places.map c'.liveOf :=
        List.map_congr_left fun j hj =>
          liveOf_append h'.liveIds_eq (h.size_eq ▸ (hrange j hj).2)
      rw [List.map_append, hold, hlive, hlive']
    · intro j hj
      rcases List.mem_append.mp hj with hj | hj
      · have := hrange j hj
        omega
      · have := hrange' j hj
        omega
  · intro k hk hk'
    by_cases hfirst : k < c'.snapshot.size
    · have hne : k ≠ parent := by omega
      obtain ⟨hmirrors, hhangs⟩ := h.finished k hk hfirst
      have hkept := h'.kept k hfirst hne
      exact ⟨hmirrors.mono h.size_eq h'.liveIds_eq hle' hkept,
        hhangs.mono h.size_eq h'.liveIds_eq hkept⟩
    · exact h'.finished k (by omega) hk'

end Grown

end Capture

namespace LiveTree

open Capture

/-- **One subtree.**  Pushing an element and then copying its children under it copies its
subtree. -/
theorem WellFormed.grown_push {t : LiveTree} (ht : t.WellFormed) {parent id : Nat}
    {node : LiveNode} {c c' : Capture} (hparent : parent < c.snapshot.size)
    (hsize : c.snapshot.size = c.liveIds.length) (hid : t.node? id = some node)
    (hup : node.parent = some (c.liveOf parent))
    (h : Grown t c.snapshot.size node.children (c.push parent id node.attributes) c') :
    Grown t parent [id] c c' := by
  have hpushed : ∀ k, (c.push parent id node.attributes).snapshot.node? k =
      if k = c.snapshot.size then some ⟨some parent, [], node.attributes⟩
      else if k = parent then (c.snapshot.node? k).map fun copy =>
        { copy with children := copy.children ++ [c.snapshot.size] }
      else c.snapshot.node? k := by
    intro k
    have := Snapshot.node?_push c.snapshot parent node.attributes k
    rwa [Snapshot.holder_eq hparent] at this
  have hsize1 : (c.push parent id node.attributes).snapshot.size = c.snapshot.size + 1 :=
    Snapshot.size_push ..
  have hlive1 : (c.push parent id node.attributes).liveIds = c.liveIds ++ [id] := rfl
  have hlen1 : (c.push parent id node.attributes).snapshot.size =
      (c.push parent id node.attributes).liveIds.length := by
    simp [hsize1, hlive1, hsize]
  have hle : c.snapshot.size + 1 ≤ c'.snapshot.size := hsize1 ▸ h.size_le hlen1
  have hlive : c'.liveIds = c.liveIds ++ ([id] ++ node.children.flatMap t.subtree) := by
    rw [h.liveIds_eq, hlive1, List.append_assoc]
  have hnew : c'.liveOf c.snapshot.size = id := by
    rw [liveOf, hlive, hsize]
    simp
  obtain ⟨places, hplaces, hplacesLive, hrange⟩ :=
    h.listed ⟨some parent, [], node.attributes⟩ (by rw [hpushed, if_pos rfl])
  have hne : parent ≠ c.snapshot.size := Nat.ne_of_lt hparent
  constructor
  · rw [hlive, List.flatMap_singleton, ht.subtree_eq hid]
    rfl
  · exact h.size_eq
  · exact h.viewport_eq
  · intro k hk hkp
    have hkne : k ≠ c.snapshot.size := Nat.ne_of_lt hk
    rw [h.kept k (by omega) hkne, hpushed, if_neg hkne, if_neg hkp]
  · intro copy hcopy
    refine ⟨[c.snapshot.size], ?_, by simp [hnew], by simp; omega⟩
    rw [h.kept parent (by omega) hne, hpushed, if_neg hne, if_pos rfl, hcopy]
    rfl
  · intro k hk hk'
    by_cases htop : k = c.snapshot.size
    · subst htop
      have hparentLive : c'.liveOf parent = c.liveOf parent :=
        liveOf_append hlive (hsize ▸ hparent)
      refine ⟨⟨_, node, hplaces, hnew.symm ▸ hid, rfl, ?_, ?_⟩,
        ⟨_, node, parent, hplaces, hnew.symm ▸ hid, rfl, hparent, hparentLive ▸ hup⟩⟩
      · simpa using hplacesLive
      · intro j hj
        have := hrange j (by simpa using hj)
        omega
    · exact h.finished k (by omega) hk'

/-- **Many subtrees.**  If copying one child of an element under its node grows a capture by
its subtree, then so does copying several children one after the other. -/
theorem grown_foldl {t : LiveTree} {place : Nat} {copy : Capture → Nat → Capture}
    (up : Nat) (ids : List Nat)
    (hcopy : ∀ id ∈ ids, ∀ c : Capture, place < c.snapshot.size →
      c.snapshot.size = c.liveIds.length → c.liveOf place = up →
      Grown t place [id] c (copy c id)) :
    ∀ c : Capture, place < c.snapshot.size → c.snapshot.size = c.liveIds.length →
      c.liveOf place = up → Grown t place ids c (ids.foldl copy c) := by
  induction ids with
  | nil =>
      intro c _ hsize _
      exact Grown.nil hsize
  | cons id ids ih =>
      intro c hplace hsize hup
      have hfirst := hcopy id List.mem_cons_self c hplace hsize hup
      have hplace' := Nat.lt_of_lt_of_le hplace (hfirst.size_le hsize)
      have hup' : (copy c id).liveOf place = up :=
        (liveOf_append hfirst.liveIds_eq (hsize ▸ hplace)).trans hup
      have hrest := ih (fun id' hid' => hcopy id' (List.mem_cons_of_mem _ hid'))
        (copy c id) hplace' hfirst.size_eq hup'
      exact hfirst.append hplace hsize hrest

/-- Copying a live element, deep enough, copies its subtree. -/
theorem WellFormed.grown_copyInto {t : LiveTree} (ht : t.WellFormed) (depth : Nat) :
    ∀ {parent id : Nat} {node : LiveNode} {c : Capture}, t.nextId ≤ depth + id →
      parent < c.snapshot.size → c.snapshot.size = c.liveIds.length →
      t.node? id = some node → node.parent = some (c.liveOf parent) →
      Grown t parent [id] c (t.copyInto depth parent c id) := by
  induction depth with
  | zero =>
      intro parent id node c hdepth _ _ hid _
      have := lt_nextId hid
      omega
  | succ depth ih =>
      intro parent id node c hdepth hparent hsize hid hup
      have hcopied : t.copyInto (depth + 1) parent c id =
          node.children.foldl (t.copyInto depth c.snapshot.size)
            (c.push parent id node.attributes) := by
        simp only [copyInto, hid]
      rw [hcopied]
      apply ht.grown_push hparent hsize hid hup
      apply grown_foldl id
      · intro child hchild c1 hplace hsize1 hlive
        obtain ⟨childNode, hchildNode, hchildUp⟩ := ht.parent_of_child hid hchild
        have hlt := (ht.child_of_parent hchildNode hchildUp).1
        exact ih (by omega) hplace hsize1 hchildNode (by rw [hlive]; exact hchildUp)
      · simp [Capture.push]
      · simp [Capture.push, hsize]
      · simp [Capture.push, liveOf, hsize]

end LiveTree

namespace Capture

/-- A capture is a faithful copy of the subtree of an element. -/
structure Faithful (c : Capture) (t : LiveTree) (top : Nat) : Prop where
  liveIds_eq : c.liveIds = t.subtree top
  size_eq : c.snapshot.size = c.liveIds.length
  viewport_eq : c.snapshot.viewport = t.viewport
  liveOf_top : c.liveOf 0 = top
  top_parent : c.snapshot.parent? 0 = none
  mirrors : ∀ k, k < c.snapshot.size → c.Mirrors t k
  hangs : ∀ k, 0 < k → k < c.snapshot.size → c.Hangs t k

end Capture

namespace LiveTree

open Capture

/-- **Captures are faithful.**  Every live element can be captured, and the capture is a
faithful copy of its subtree. -/
theorem WellFormed.capture?_faithful {t : LiveTree} (ht : t.WellFormed) {top : Nat}
    {node : LiveNode} (htop : t.node? top = some node) :
    ∃ c, t.capture? top = some c ∧ c.Faithful t top := by
  let start : Capture := ⟨{ Snapshot.ofRoot node.attributes with viewport := t.viewport }, [top]⟩
  let c : Capture := node.children.foldl (t.copyInto t.nextId 0) start
  have hcapture : t.capture? top = some c := by
    simp only [capture?, htop, Option.map_some, c, start]
  have hstart : start.snapshot.node? 0 = some ⟨none, [], node.attributes⟩ := rfl
  have hgrown : Grown t 0 node.children start c := by
    apply grown_foldl top
    · intro child hchild c1 hplace hsize hlive
      obtain ⟨childNode, hchildNode, hchildUp⟩ := ht.parent_of_child htop hchild
      exact ht.grown_copyInto t.nextId (by omega) hplace hsize hchildNode
        (by rw [hlive]; exact hchildUp)
    · exact Nat.zero_lt_one
    · rfl
    · rfl
  obtain ⟨places, hplaces, hlive, hrange⟩ := hgrown.listed _ hstart
  have htopLive : c.liveOf 0 = top := liveOf_append hgrown.liveIds_eq (by simp [start])
  refine ⟨c, hcapture, ?_⟩
  constructor
  · rw [hgrown.liveIds_eq, ht.subtree_eq htop]
    rfl
  · exact hgrown.size_eq
  · exact hgrown.viewport_eq
  · exact htopLive
  · simp only [Snapshot.parent?, hplaces]
    rfl
  · intro k hk
    by_cases hzero : k = 0
    · subst hzero
      refine ⟨_, node, hplaces, htopLive.symm ▸ htop, rfl, by simpa using hlive, ?_⟩
      intro j hj
      have := hrange j (by simpa using hj)
      exact ⟨this.1, this.2⟩
    · exact (hgrown.finished k (Nat.one_le_iff_ne_zero.mpr hzero) hk).1
  · intro k hpos hk
    exact (hgrown.finished k hpos hk).2

end LiveTree

end ElementFinder
