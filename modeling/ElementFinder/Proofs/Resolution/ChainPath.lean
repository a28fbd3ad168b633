import ElementFinder.Proofs.Locator.Written
import ElementFinder.Proofs.Resolution.SameTree
import ElementFinder.Proofs.Snapshot.Document
import ElementFinder.Proofs.XPath.PlainPath

/-!
# Plain chains mean the same as their paths

A plain chain and the path that corresponds to it are resolved in different ways.  The chain grows
one live query.  The path is read as an expression, evaluated on the document of a snapshot, and
what it matches is found again by its looks.  Both take the moves of the chain one by one, and one
relation connects them: the nodes that the path has reached are those of the elements that the
chain has reached (`Capture.nodesOf`).  A move keeps the relation (`walk_move`), so a whole path
does (`walk_moves`).
-/

namespace ElementFinder

/-! ## Elements reached by moves -/

/-- A move asks for a registered type and for nothing else. -/
structure ChainMove.Plain (m : ChainMove) : Prop where
  registered : m.elementType.isRegistered = true
  unconditional : m.predicate = none

namespace LiveTree

/-- The elements that a move leads to from some elements. -/
def advance (t : LiveTree) (current : List Nat) (m : ChainMove) : List Nat :=
  t.select m.descends (t.meets m.elementType m.predicate) current

/-- The types of the elements below `x` are registered. -/
def Registered (t : LiveTree) (x : Nat) : Prop :=
  ∀ y ∈ t.descendants x, (t.attributes? y).all (fun a => a.elementType.isRegistered) = true

variable {t : LiveTree}

/-- A chain without positions is evaluated by taking its moves. -/
theorem WellFormed.evaluate_moves (ht : t.WellFormed) {c : Chain}
    (hc : ∀ s ∈ c, s.position? = none) (deep : Bool) (current : List Nat) :
    t.evaluate deep current c = .ok ((Chain.moves deep c).foldl t.advance current) := by
  induction c generalizing deep current with
  | nil =>
      cases deep with
      | false => rfl
      | true =>
          rw [evaluate, ← select_meets_any true current ht]
          rfl
  | cons s c ih =>
      obtain ⟨hs, hothers⟩ := List.forall_mem_cons.mp hc
      cases s with
      | anyDepth =>
          rw [evaluate_anyDepth, Chain.moves_anyDepth, ih hothers]
      | select ty p position =>
          obtain rfl : position = none := hs
          rw [evaluate_select, Chain.moves_select, ih hothers, List.foldl_cons]
          rfl

/-- An element alone is a part of its subtree. -/
theorem WellFormed.singleton_sublist (ht : t.WellFormed) {x : Nat} (hx : x ∈ t.documentOrder) :
    [x].Sublist (t.subtree x) := by
  obtain ⟨node, hnode⟩ := ht.mem_documentOrder.mp hx
  exact List.singleton_sublist.mpr ((ht.mem_subtree hnode).mpr .refl)

/-- From elements of a subtree a move leads to elements below its top, listed in order. -/
theorem WellFormed.advance_sublist (ht : t.WellFormed) {x : Nat} (hx : x ∈ t.documentOrder)
    {current : List Nat} (hcurrent : current.Sublist (t.subtree x)) (m : ChainMove) :
    (t.advance current m).Sublist (t.descendants x) := by
  obtain ⟨node, hnode⟩ := ht.mem_documentOrder.mp hx
  have hlisted := hcurrent.trans (ht.subtree_sublist hx)
  refine sublist_of_subset ht.documentOrder_nodup List.filter_sublist
    (ht.descendants_sublist hx) ?_
  intro y hy
  obtain ⟨-, -, w, hw, hrelated⟩ := (ht.mem_select hlisted).mp hy
  have hwithin := (ht.mem_subtree hnode).mp (hcurrent.subset hw)
  have hbelow : t.links.Below w y := by
    cases hdescends : m.descends with
    | false => exact .single (by simpa [hdescends] using hrelated)
    | true => simpa [hdescends] using hrelated
  exact (ht.mem_descendants hx).mpr (Relation.TransGen.trans_right hwithin hbelow)

/-- Any moves lead to elements below the top. -/
theorem WellFormed.foldl_advance_sublist (ht : t.WellFormed) {x : Nat} (hx : x ∈ t.documentOrder)
    {ms : List ChainMove} (hms : ms ≠ []) {current : List Nat}
    (hcurrent : current.Sublist (t.subtree x)) :
    (ms.foldl t.advance current).Sublist (t.descendants x) := by
  induction ms generalizing current with
  | nil => exact absurd rfl hms
  | cons m ms ih =>
      have hnext := ht.advance_sublist hx hcurrent m
      rw [List.foldl_cons]
      by_cases hlast : ms = []
      · subst hlast
        exact hnext
      · exact ih hlast (hnext.trans (List.drop_sublist 1 _))

end LiveTree

/-! ## Nodes of elements -/

/-- The nodes of some elements in increasing order. -/
def Capture.nodesOf (c : Capture) (ys : List Nat) : List Nat :=
  (List.range c.snapshot.size).filter fun k => ys.contains (c.liveOf k)

namespace Capture

variable {c : Capture}

/-- The nodes of some elements are those that stand for them. -/
theorem mem_nodesOf {ys : List Nat} {k : Nat} :
    k ∈ c.nodesOf ys ↔ k < c.snapshot.size ∧ c.liveOf k ∈ ys := by
  simp [nodesOf]

/-- The nodes of some elements are listed in increasing order. -/
theorem nodesOf_increasing (ys : List Nat) : (c.nodesOf ys).Pairwise (· < ·) :=
  List.pairwise_lt_range.filter _

namespace Faithful

variable {t : LiveTree} {top : Nat}

/-- The elements of the nodes of some elements are these elements. -/
theorem map_nodesOf (h : c.Faithful t top) (ht : t.WellFormed) {ys : List Nat}
    (hys : ys.Sublist (t.subtree top)) : (c.nodesOf ys).map c.liveOf = ys := by
  have hfilter : ys = (t.subtree top).filter fun y => ys.contains y :=
    eq_filter_of_sublist (ht.subtree_nodup top) hys fun _ _ => List.contains_iff_mem
  have hmaps : ((t.subtree top).filter fun y => ys.contains y) = (c.nodesOf ys).map c.liveOf := by
    rw [← h.map_liveOf_range, List.filter_map]
    rfl
  rw [← hmaps, ← hfilter]

/-- The element captured has the first node. -/
theorem nodesOf_top (h : c.Faithful t top) (ht : t.WellFormed) (hpos : 0 < c.snapshot.size) :
    c.nodesOf [top] = [0] := by
  refine LiveTree.filter_eq_singleton List.nodup_range (List.mem_range.mpr hpos) ?_
  intro k hk
  rw [List.contains_iff_mem, List.mem_singleton, ← h.liveOf_top]
  exact ⟨h.liveOf_inj ht (List.mem_range.mp hk) hpos, fun heq => heq ▸ rfl⟩

/-- The nodes of elements below the top are other nodes than the first. -/
theorem zero_not_mem_nodesOf (h : c.Faithful t top) (ht : t.WellFormed)
    (htop : top ∈ t.documentOrder) {ys : List Nat} (hys : ys ⊆ t.descendants top) :
    0 ∉ c.nodesOf ys := by
  intro hzero
  have hbelow := (ht.mem_descendants htop).mp (hys (mem_nodesOf.mp hzero).2)
  rw [h.liveOf_top] at hbelow
  exact Nat.lt_irrefl _ (ht.forest.lt_of_below hbelow)

/-- Relations between nodes are those of their elements. -/
theorem related_iff (h : c.Faithful t top) (ht : t.WellFormed) (deep : Bool) {j k : Nat}
    (hj : j < c.snapshot.size) (hk : k < c.snapshot.size) :
    (if deep then c.snapshot.links.Below k j else c.snapshot.links.Child k j) ↔
      if deep then t.links.Below (c.liveOf k) (c.liveOf j)
      else t.links.Child (c.liveOf k) (c.liveOf j) := by
  cases deep with
  | false =>
      simp only [Bool.false_eq_true, if_false, ← Snapshot.mem_children,
        h.mem_children_iff ht hj hk]
  | true =>
      simp only [if_true, ← h.mem_descendants ht hk, h.mem_descendants_iff ht hj hk]

/-- Whatever stands below a node is a child of some node. -/
theorem child_of_related {s : Snapshot} {deep : Bool} {j k : Nat}
    (h : if deep then s.links.Below k j else s.links.Child k j) : ∃ p, s.links.Child p j := by
  cases deep with
  | false => exact ⟨k, by simpa using h⟩
  | true =>
      obtain ⟨p, -, hchild⟩ := Relation.TransGen.tail'_iff.mp (by simpa using h)
      exact ⟨p, hchild⟩

/-- **Tests of names are tests of types**, for elements of registered types. -/
theorem passes_ofType (h : c.Faithful t top) (ht : t.WellFormed) (hregistered : t.Registered top)
    (rootPath : String) {ty : ElementType} (hty : ty.isRegistered = true) {k : Nat} (hpos : 0 < k)
    (hk : k < c.snapshot.size) :
    (XPath.NodeTest.ofType ty).passes (c.snapshot.markup rootPath).document .child (.element k) =
      t.hasType ty (c.liveOf k) := by
  obtain ⟨node, hnode⟩ := h.node_live hk
  have hlive : t.attributes? (c.liveOf k) = some node.attributes := by
    rw [LiveTree.attributes?, hnode, Option.map_some]
  have htype : node.attributes.elementType.isRegistered = true := by
    have hlisted := List.mem_of_getElem? (h.getElem?_descendants hk (Nat.ne_of_gt hpos))
    simpa [hlive] using hregistered _ hlisted
  have hname : c.snapshot.markupName k = node.attributes.elementType.name := by
    rw [Snapshot.markupName, h.attributes?_liveOf hk, hlive, Option.map_some, Option.getD_some,
      Markup.typeName, if_pos htype]
  have hhas : t.hasType ty (c.liveOf k) = ty.accepts node.attributes.elementType := by
    simp only [LiveTree.hasType, hlive]
  rw [hhas, ElementType.accepts, XPath.NodeTest.ofType]
  split_ifs with hany
  · rw [hany, Bool.true_or]
    rfl
  · have hsame : node.attributes.elementType.name = ty.name ↔
        ty = node.attributes.elementType := by
      constructor
      · exact fun heq => ElementType.name_inj hty htype heq.symm
      · exact fun heq => heq ▸ rfl
    rw [XPath.NodeTest.passes, h.nameOf_element rootPath ht hk, hname]
    simp [hany, hsame, XPath.Axis.isPrincipal]

/-! ## Walking along a path -/

section Walk

variable (rootPath : String)

/-- What a move leads to from the nodes of some elements are the nodes of what it leads to from
the elements. -/
theorem mem_nodesOf_advance (h : c.Faithful t top) (ht : t.WellFormed)
    (htop : top ∈ t.documentOrder) (hregistered : t.Registered top) {m : ChainMove}
    (hm : m.Plain) {ys : List Nat} (hys : ys.Sublist (t.subtree top)) (j : Nat) :
    j ∈ c.nodesOf (t.advance ys m) ↔
      (∃ k ∈ c.nodesOf ys,
        if m.descends then c.snapshot.links.Below k j else c.snapshot.links.Child k j) ∧
      (XPath.NodeTest.ofType m.elementType).passes (c.snapshot.markup rootPath).document .child
        (.element j) = true := by
  have hlisted := hys.trans (ht.subtree_sublist htop)
  have hmeets : ∀ k, 0 < k → k < c.snapshot.size →
      t.meets m.elementType m.predicate (c.liveOf k) =
        (XPath.NodeTest.ofType m.elementType).passes (c.snapshot.markup rootPath).document .child
          (.element k) := by
    intro k hpos hk
    rw [h.passes_ofType ht hregistered rootPath hm.registered hpos hk, LiveTree.meets,
      hm.unconditional]
    exact Bool.and_true _
  rw [mem_nodesOf, LiveTree.advance, ht.mem_select hlisted]
  constructor
  · rintro ⟨hj, -, hkeep, y, hy, hrelated⟩
    obtain ⟨k, hk, rfl⟩ := h.exists_node (hys.subset hy)
    have hnodes := (h.related_iff ht m.descends hj hk).mpr hrelated
    obtain ⟨p, hchild⟩ := child_of_related hnodes
    have hpos : 0 < j := Nat.lt_of_le_of_lt (Nat.zero_le p) (h.child_range hchild).1
    refine ⟨⟨k, mem_nodesOf.mpr ⟨hk, hy⟩, hnodes⟩, ?_⟩
    rw [← hmeets j hpos hj, hkeep]
  · rintro ⟨⟨k, hk, hnodes⟩, hpasses⟩
    obtain ⟨hk, hy⟩ := mem_nodesOf.mp hk
    obtain ⟨p, hchild⟩ := child_of_related hnodes
    obtain ⟨hlt, hj⟩ := h.child_range hchild
    have hpos : 0 < j := Nat.lt_of_le_of_lt (Nat.zero_le p) hlt
    obtain ⟨node, hnode⟩ := h.node_live hj
    refine ⟨hj, ht.mem_documentOrder.mpr ⟨node, hnode⟩, ?_, c.liveOf k, hy,
      (h.related_iff ht m.descends hj hk).mp hnodes⟩
    rw [hmeets j hpos hj, hpasses]

/-- A step to the children of nodes. -/
theorem walk_children (h : c.Faithful t top) (ht : t.WellFormed) {ks js : List Nat}
    (hks : ∀ k ∈ ks, k < c.snapshot.size) (hjs : js.Pairwise (· < ·)) {test : XPath.NodeTest}
    (hmem : ∀ j, j ∈ js ↔ (∃ k ∈ ks, c.snapshot.links.Child k j) ∧
      test.passes (c.snapshot.markup rootPath).document .child (.element j) = true)
    (rest : List XPath.Step) :
    XPath.walk (c.snapshot.markup rootPath).document (ks.map .element)
        (.mk .child test [] :: rest) =
      XPath.walk (c.snapshot.markup rootPath).document (js.map .element) rest := by
  refine XPath.walk_child _ test hjs (fun j => ?_) rest
  rw [hmem j]
  refine and_congr_left fun _ => exists_congr fun k => and_congr_right fun hk => ?_
  rw [h.mem_document_children rootPath ht (hks k hk)]

/-- A step to all levels and then to the children leads to the descendants of nodes. -/
theorem walk_below (h : c.Faithful t top) (ht : t.WellFormed) {ks js : List Nat}
    (hks : ∀ k ∈ ks, k < c.snapshot.size) (hjs : js.Pairwise (· < ·)) {test : XPath.NodeTest}
    (hmem : ∀ j, j ∈ js ↔ (∃ k ∈ ks, c.snapshot.links.Below k j) ∧
      test.passes (c.snapshot.markup rootPath).document .child (.element j) = true)
    (rest : List XPath.Step) :
    XPath.walk (c.snapshot.markup rootPath).document (ks.map .element)
        (.mk .descendantOrSelf .anyNode [] :: .mk .child test [] :: rest) =
      XPath.walk (c.snapshot.markup rootPath).document (js.map .element) rest := by
  refine XPath.walk_descendants _ test hjs (fun j => ?_) rest
  rw [hmem j]
  refine and_congr_left fun _ => exists_congr fun k => and_congr_right fun hk => ?_
  have hlevel : ∀ w, (w = k ∨ w ∈ (c.snapshot.markup rootPath).document.descendants k) ↔
      c.snapshot.links.Within k w := by
    intro w
    rw [h.mem_document_descendants rootPath ht (hks k hk)]
    exact Relation.reflTransGen_iff_eq_or_transGen.symm
  have hbound : ∀ {w}, c.snapshot.links.Within k w → w < c.snapshot.size := by
    intro w hwithin
    rcases Relation.ReflTransGen.cases_tail hwithin with rfl | ⟨p, -, hchild⟩
    · exact hks w hk
    · exact (h.child_range hchild).2
  refine Relation.TransGen.tail'_iff.trans (exists_congr fun w => ?_)
  rw [hlevel w]
  exact and_congr_right fun hw => (h.mem_document_children rootPath ht (hbound hw)).symm

/-- **One move.** -/
theorem walk_move (h : c.Faithful t top) (ht : t.WellFormed) (htop : top ∈ t.documentOrder)
    (hregistered : t.Registered top) {m : ChainMove} (hm : m.Plain) {ys : List Nat}
    (hys : ys.Sublist (t.subtree top)) (rest : List XPath.Step) :
    XPath.walk (c.snapshot.markup rootPath).document ((c.nodesOf ys).map .element)
        (m.pathSteps ++ rest) =
      XPath.walk (c.snapshot.markup rootPath).document
        ((c.nodesOf (t.advance ys m)).map .element) rest := by
  have hks : ∀ k ∈ c.nodesOf ys, k < c.snapshot.size := fun k hk => (mem_nodesOf.mp hk).1
  have hincreasing := c.nodesOf_increasing (t.advance ys m)
  have hmem := h.mem_nodesOf_advance rootPath ht htop hregistered hm hys
  rw [ChainMove.pathSteps]
  cases hdescends : m.descends with
  | false =>
      simp only [hdescends, Bool.false_eq_true, if_false] at hmem
      exact h.walk_children rootPath ht hks hincreasing hmem rest
  | true =>
      simp only [hdescends, if_true] at hmem
      exact h.walk_below rootPath ht hks hincreasing hmem rest

/-- **All moves.** -/
theorem walk_moves (h : c.Faithful t top) (ht : t.WellFormed) (htop : top ∈ t.documentOrder)
    (hregistered : t.Registered top) {ms : List ChainMove}
    (hms : ∀ m ∈ ms, m.Plain) {ys : List Nat} (hys : ys.Sublist (t.subtree top)) :
    XPath.walk (c.snapshot.markup rootPath).document ((c.nodesOf ys).map .element)
        (ms.flatMap ChainMove.pathSteps) =
      .ok ((c.nodesOf (ms.foldl t.advance ys)).map .element) := by
  induction ms generalizing ys with
  | nil => rw [List.flatMap_nil, XPath.walk, List.foldl_nil]
  | cons m ms ih =>
      obtain ⟨hm, hothers⟩ := List.forall_mem_cons.mp hms
      have hnext := (ht.advance_sublist htop hys m).trans (List.drop_sublist 1 _)
      rw [List.flatMap_cons, h.walk_move rootPath ht htop hregistered hm hys, ih hothers hnext,
        List.foldl_cons]

end Walk

end Faithful

end Capture

/-! ## Matches of the path -/

namespace PlainStep

/-- A plain step has no position. -/
theorem position?_step (s : PlainStep) : s.step.position? = none := by
  cases s <;> rfl

/-- The moves of a plain chain are plain. -/
theorem plain_moves (marked : Bool) (steps : List PlainStep) :
    ∀ m ∈ Chain.moves marked (steps.map step), m.Plain := by
  induction steps generalizing marked with
  | nil =>
      cases marked with
      | false => exact List.forall_mem_nil _
      | true => exact List.forall_mem_singleton.mpr ⟨rfl, rfl⟩
  | cons s steps ih =>
      by_cases hs : s = anyDepth
      · subst hs
        rw [List.map_cons, step, Chain.moves_anyDepth]
        exact ih true
      · rw [List.map_cons, moves_step marked hs]
        refine List.forall_mem_cons.mpr ⟨⟨?_, rfl⟩, ih false⟩
        cases s with
        | anyDepth => exact absurd rfl hs
        | wildcard => rfl
        | typed t registered => exact registered

end PlainStep

namespace LiveTree

/-- The elements that a plain chain leads to from an element. -/
def plainReach (t : LiveTree) (steps : List PlainStep) (x : Nat) : List Nat :=
  (Chain.moves false (steps.map PlainStep.step)).foldl t.advance [x]

end LiveTree

namespace Capture.Faithful

variable {c : Capture} {t : LiveTree} {top : Nat}

/-- **What the path matches** in a capture are the nodes of what the chain leads to. -/
theorem matching_pathText (h : c.Faithful t top) (ht : t.WellFormed) (hpos : 0 < c.snapshot.size)
    (htop : top ∈ t.documentOrder) (hregistered : t.Registered top) (rootPath : String)
    (steps : List PlainStep) :
    ∃ matched, (c.snapshot.markup rootPath).matching (PlainStep.pathText steps) = .ok matched ∧
      matched.map Prod.snd = c.nodesOf (t.plainReach steps top) := by
  have hmoves := PlainStep.plain_moves false steps
  have hsize : (c.snapshot.markup rootPath).document.size ≠ 0 := by
    rw [h.document_size rootPath ht hpos]
    omega
  have hwalk : XPath.walk (c.snapshot.markup rootPath).document [.root]
      ((⟨false, .any, none, none⟩ :: Chain.moves false (steps.map PlainStep.step)).flatMap
        ChainMove.pathSteps) =
      .ok ((c.nodesOf (t.plainReach steps top)).map .element) := by
    have hall := h.walk_moves rootPath ht htop hregistered hmoves (ht.singleton_sublist htop)
    rw [h.nodesOf_top ht hpos] at hall
    exact (XPath.walk_top _ hsize _).trans hall
  have hselect : (c.snapshot.markup rootPath).document.select
      (XPath.normalized (PlainStep.pathText steps)) =
        .ok ((c.nodesOf (t.plainReach steps top)).map .element) := by
    rw [XPath.normalized, PlainStep.replaceAll_pathText]
    refine XPath.Document.select_moves _ (List.forall_mem_cons.mpr ⟨rfl, ?_⟩) hwalk
    exact fun m hm => (hmoves m hm).registered
  exact Markup.matching_of_select (h.map_snd_places ht hpos rootPath) (c.nodesOf_increasing _)
    (fun k hk => (mem_nodesOf.mp hk).1) hselect

end Capture.Faithful

/-! ## Resolving both -/

/-- The key of class chains is read as their strategy. -/
theorem Locator.parse_classChain (value : String) :
    Locator.parse ("class-chain=" ++ value) = ⟨.classChain, value⟩ :=
  Locator.parse_key (by decide : ("class-chain", Strategy.classChain) ∈ Strategy.keys) value

/-- The key of path expressions is read as their strategy. -/
theorem Locator.parse_xpath (value : String) :
    Locator.parse ("xpath=" ++ value) = ⟨.xpath, value⟩ :=
  Locator.parse_key (by decide : ("xpath", Strategy.xpath) ∈ Strategy.keys) value

/-- Taking the wanted part does not depend on what the matches are written as. -/
theorem MatchMode.map_apply {α β : Type} (mode : MatchMode) (f : α → β) (as : List α) :
    (mode.apply as).map f = mode.apply (as.map f) := by
  cases mode with
  | first => exact List.map_take
  | all => rfl

namespace LiveTree

variable {t : LiveTree} {origin : Handle} {x : Nat}

/-- A plain chain leads to what its moves lead to. -/
theorem Reachable.resolve_chainText (ht : t.Reachable) (hx : t.liveId? origin = some x)
    (options : ResolverOptions) {steps : List PlainStep} (hsteps : steps ≠ []) (mode : MatchMode) :
    (Locator.resolve options ⟨.classChain, PlainStep.chainText steps⟩ origin mode).Yields t
      (.ok ⟨mode.apply ((t.plainReach steps x).map Handle.ofNumber), []⟩) := by
  have hpositions : ∀ s ∈ steps.map PlainStep.step, s.position? = none := by
    intro s hs
    obtain ⟨p, -, rfl⟩ := List.mem_map.mp hs
    exact p.position?_step
  have hchain : steps.map PlainStep.step ≠ [] := by simpa using hsteps
  have hresolve := Chain.resolve_yields ht hx hchain mode
  rw [ht.wellFormed.evaluate_moves hpositions] at hresolve
  have hread := PlainStep.ofText_chainText hsteps
  simp only [Locator.resolve, hread]
  exact hresolve.bind (.pure _)

/-- The path of a plain chain leads to what the moves of the chain lead to. -/
theorem Reachable.resolve_pathText (ht : t.Reachable) (hx : t.liveId? origin = some x)
    (hapart : t.Distinguishable x) (hregistered : t.Registered x) (options : ResolverOptions)
    {steps : List PlainStep} (hsteps : steps ≠ []) (mode : MatchMode) :
    (Locator.resolve options ⟨.xpath, PlainStep.pathText steps⟩ origin mode).Yields t
      (.ok ⟨mode.apply ((t.plainReach steps x).map Handle.ofNumber), []⟩) := by
  have hwf := ht.wellFormed
  have hlisted := hwf.mem_documentOrder_of_liveId? hx
  obtain ⟨c, hsnapshot, hc, hpos⟩ := hwf.snapshot_live hx
  obtain ⟨matched, hmatching, hnumbers⟩ := hc.matching_pathText hwf hpos hlisted hregistered
    options.indexPathRoot steps
  have hbelow : (t.plainReach steps x).Sublist (t.descendants x) := by
    refine hwf.foldl_advance_sublist hlisted ?_ (hwf.singleton_sublist hlisted)
    intro hnone
    exact hsteps (List.map_eq_nil_iff.mp (Chain.eq_nil_of_moves hnone))
  let r : Reconciliation := ⟨matched, c.snapshot, origin,
    options.reverseOnLast && XPath.usesLast (PlainStep.pathText steps)⟩
  have hcaptured : r.Captured c :=
    .of_matching hc hwf hpos hmatching origin _
  have hexact : matched.map (r.exact c.liveOf) =
      (t.plainReach steps x).map Handle.ofNumber := by
    have hzero := hc.zero_not_mem_nodesOf hwf hlisted hbelow.subset
    have hown : ∀ place ∈ matched,
        r.exact c.liveOf place = Handle.ofNumber (c.liveOf place.2) := by
      intro place hplace
      have hne : place.2 ≠ 0 := by
        intro heq
        exact hzero (hnumbers ▸ heq ▸ List.mem_map_of_mem hplace)
      rw [Reconciliation.exact, if_neg hne]
    have hself := hc.map_nodesOf hwf (hbelow.trans (List.drop_sublist 1 _))
    rw [List.map_congr_left hown, ← hself, ← hnumbers, List.map_map, List.map_map]
    rfl
  have hrun := (hcaptured.apply mode).run_exact hc ht hx hapart options
  have hresult : (mode.apply matched).map (r.exact c.liveOf) =
      mode.apply ((t.plainReach steps x).map Handle.ofNumber) := by
    rw [mode.map_apply, hexact]
  simp only [Locator.resolve]
  refine resolveXPath_of_matching hsnapshot hmatching ?_
  rw [← hresult]
  exact hrun

/-- **Plain chains mean the same as their paths.**  Take a chain of markers, wildcards and names of
registered types, and the path with a name test for each of its steps and two slashes for its
markers.  Let all elements below a live root have registered types, let no two of them look alike,
and let none of their coordinates and number values be not-a-number.  Then both are resolved to
the same elements in the same order, in either mode, and nothing is reported. -/
theorem Reachable.resolve_chain_eq_path (ht : t.Reachable) (hx : t.liveId? origin = some x)
    (hapart : t.Distinguishable x) (hregistered : t.Registered x) (options : ResolverOptions)
    {steps : List PlainStep} (hsteps : steps ≠ []) (mode : MatchMode) :
    ∃ elements,
      ((Locator.parse ("class-chain=" ++ PlainStep.chainText steps)).resolve
        options origin mode).runStill t = .ok ⟨elements, []⟩ ∧
      ((Locator.parse ("xpath=" ++ PlainStep.pathText steps)).resolve
        options origin mode).runStill t = .ok ⟨elements, []⟩ := by
  refine ⟨mode.apply ((t.plainReach steps x).map Handle.ofNumber), ?_, ?_⟩
  · rw [Locator.parse_classChain]
    exact (ht.resolve_chainText hx options hsteps mode).runStill_eq
  · rw [Locator.parse_xpath]
    exact (ht.resolve_pathText hx hapart hregistered options hsteps mode).runStill_eq

/-- Both buttons are found at all levels of the screen, by the chain and by the path. -/
theorem resolve_chain_eq_path_editableRow :
    (ofFixture .editableRow).Reachable ∧
    (ofFixture .editableRow).liveId? ⟨"node-0"⟩ = some 0 ∧
    (ofFixture .editableRow).Distinguishable 0 ∧
    (ofFixture .editableRow).Registered 0 ∧
    ((Locator.parse "class-chain=**/XCUIElementTypeButton").resolve {} ⟨"node-0"⟩ .all).runStill
      (ofFixture .editableRow) = .ok ⟨[.ofNumber 2, .ofNumber 3], []⟩ ∧
    ((Locator.parse "xpath=/*//XCUIElementTypeButton").resolve {} ⟨"node-0"⟩ .all).runStill
      (ofFixture .editableRow) = .ok ⟨[.ofNumber 2, .ofNumber 3], []⟩ := by
  let t := ofFixture .editableRow
  let steps : List PlainStep := [.anyDepth, .typed .button (by decide)]
  have hreachable : t.Reachable := .load .editableRow (by decide)
  have hroot : t.liveId? ⟨"node-0"⟩ = some 0 := by decide
  have hapart : t.Distinguishable 0 := ⟨by decide +kernel, by decide +kernel⟩
  have hregistered : t.Registered 0 := by
    unfold Registered
    decide +kernel
  have hsteps : steps ≠ [] := by simp [steps]
  have hreach : t.plainReach steps 0 = [2, 3] := by decide +kernel
  have hchainText : "class-chain=" ++ PlainStep.chainText steps =
      "class-chain=**/XCUIElementTypeButton" := by
    decide +kernel
  have hpathText : "xpath=" ++ PlainStep.pathText steps =
      "xpath=/*//XCUIElementTypeButton" := by
    decide +kernel
  obtain ⟨elements, hchain, hpath⟩ :=
    hreachable.resolve_chain_eq_path hroot hapart hregistered {} hsteps .all
  have hfound := (hreachable.resolve_chainText hroot {} hsteps .all).runStill_eq
  rw [← Locator.parse_classChain, hchain, hreach] at hfound
  obtain rfl : elements = [.ofNumber 2, .ofNumber 3] :=
    congrArg Resolution.elements (Except.ok.inj hfound)
  rw [hchainText] at hchain
  rw [hpathText] at hpath
  exact ⟨hreachable, hroot, hapart, hregistered, hchain, hpath⟩

end LiveTree

end ElementFinder
