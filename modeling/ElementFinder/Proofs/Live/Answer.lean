import ElementFinder.Live.Query
import ElementFinder.Proofs.Live.Naming
import ElementFinder.Proofs.Live.View

/-!
# What live queries answer

A query is executed on a capture of the whole tree, with sets of node numbers, and its result is
renamed back to handles.  Here every step gets a meaning of its own, a relation between live
elements (`QueryStep.Relates`), and a list of steps leads from an element to whatever a chain of
such relations reaches (`LiveTree.Leads`).

Execution keeps one invariant: the current set is listed in increasing order and holds exactly
the nodes of elements that the steps so far lead to (`run_leads`).  Numbers of nodes follow
document order, so a query answers what its steps lead to, in document order and without
duplicates.
-/

namespace ElementFinder

/-- The relation of a step: steps down the tree relate an element to others, and conditions
relate an element that satisfies them to itself. -/
def QueryStep.Relates (t : LiveTree) : QueryStep → Nat → Nat → Prop
  | descendants ty, x, y => t.links.Below x y ∧ t.hasType ty y = true
  | children ty, x, y => t.links.Child x y ∧ t.hasType ty y = true
  | satisfying p, x, y => x = y ∧ t.satisfies p x = true
  | identified identifier, x, y =>
    x = y ∧ ∃ a, t.attributes? x = some a ∧ a.identifier = identifier
  | containing ty p, x, y =>
    x = y ∧ ∃ z, t.links.Below x z ∧ t.hasType ty z = true ∧ t.satisfies p z = true

namespace LiveTree

/-- Steps lead from an element to another when a chain of elements between them is related step
by step. -/
def Leads (t : LiveTree) : List QueryStep → Nat → Nat → Prop
  | [], x, y => x = y
  | s :: rest, x, z => ∃ y, s.Relates t x y ∧ t.Leads rest y z

/-- Further steps lead on from where the first ones lead. -/
theorem leads_append {t : LiveTree} (first rest : List QueryStep) (x z : Nat) :
    t.Leads (first ++ rest) x z ↔ ∃ y, t.Leads first x y ∧ t.Leads rest y z := by
  induction first generalizing x with
  | nil => simp [Leads]
  | cons s first ih =>
      simp only [List.cons_append, Leads, ih]
      constructor
      · intro hforth
        rcases hforth with ⟨w, hw, y, hy, hz⟩
        exact ⟨y, ⟨w, hw, hy⟩, hz⟩
      · intro hback
        rcases hback with ⟨y, ⟨w, hw, hy⟩, hz⟩
        exact ⟨w, hw, y, hy, hz⟩

/-- A step leads from a live element to live elements. -/
theorem WellFormed.live_of_relates {t : LiveTree} (ht : t.WellFormed) {s : QueryStep}
    {x y : Nat} {node : LiveNode} (hx : t.node? x = some node) (h : s.Relates t x y) :
    ∃ below, t.node? y = some below := by
  cases s with
  | descendants ty => exact ht.live_of_within hx (Relation.TransGen.to_reflTransGen h.1)
  | children ty => exact ht.live_of_within hx (Relation.ReflTransGen.single h.1)
  | satisfying p => exact ⟨node, h.1 ▸ hx⟩
  | identified identifier => exact ⟨node, h.1 ▸ hx⟩
  | containing ty p => exact ⟨node, h.1 ▸ hx⟩

/-- Steps lead from a live element to live elements. -/
theorem WellFormed.live_of_leads {t : LiveTree} (ht : t.WellFormed) {steps : List QueryStep}
    {x y : Nat} {node : LiveNode} (hx : t.node? x = some node) (h : t.Leads steps x y) :
    ∃ below, t.node? y = some below := by
  induction steps generalizing x node with
  | nil => exact ⟨node, h ▸ hx⟩
  | cons s rest ih =>
      obtain ⟨w, hw, hrest⟩ := h
      obtain ⟨below, hbelow⟩ := ht.live_of_relates hx hw
      exact ih hbelow hrest

/-- Document order lists the live elements. -/
theorem WellFormed.mem_documentOrder {t : LiveTree} (ht : t.WellFormed) {y : Nat} :
    y ∈ t.documentOrder ↔ ∃ node, t.node? y = some node := by
  obtain ⟨top, hroot, _⟩ := ht.root_live
  rw [documentOrder, ht.mem_subtree hroot]
  exact ⟨ht.live_of_within hroot, fun ⟨node, hy⟩ => ht.within_root hy⟩

/-- What a handle names is listed in document order. -/
theorem WellFormed.mem_documentOrder_of_liveId? {t : LiveTree} (ht : t.WellFormed) {h : Handle}
    {x : Nat} (hx : t.liveId? h = some x) : x ∈ t.documentOrder := by
  obtain ⟨node, hnode⟩ := (liveId?_eq_some.mp hx).2
  exact ht.mem_documentOrder.mpr ⟨node, hnode⟩

/-- The descendants of an element are what lies properly below it. -/
theorem WellFormed.mem_descendants {t : LiveTree} (ht : t.WellFormed) {x y : Nat}
    (hx : x ∈ t.documentOrder) : y ∈ t.descendants x ↔ t.links.Below x y := by
  obtain ⟨node, hnode⟩ := ht.mem_documentOrder.mp hx
  rw [descendants, subtree_eq_walk]
  exact Links.mem_drop_walk ht.forest (links_eq_some.mpr ⟨node, hnode, rfl⟩)

/-- Document order lists nothing twice. -/
theorem WellFormed.documentOrder_nodup {t : LiveTree} (ht : t.WellFormed) :
    t.documentOrder.Nodup :=
  ht.subtree_nodup root

end LiveTree

/-! ## Steps on the nodes of a capture -/

namespace QueryStep

/-- A set of numbers holds those below the size. -/
theorem mem_setOf {size : Nat} {ids : List Nat} {k : Nat} :
    k ∈ setOf size ids ↔ k < size ∧ k ∈ ids := by
  simp [setOf]

/-- A set of numbers is listed in increasing order. -/
theorem setOf_sublist (size : Nat) (ids : List Nat) :
    (setOf size ids).Sublist (List.range size) :=
  List.filter_sublist

variable {c : Capture} {t : LiveTree}

/-- A step keeps the current set in increasing order. -/
theorem run_sublist (step : QueryStep) {current : List Nat}
    (hcurrent : current.Sublist (List.range c.snapshot.size)) :
    (run c.snapshot current step).Sublist (List.range c.snapshot.size) := by
  cases step with
  | descendants ty => exact setOf_sublist ..
  | children ty => exact setOf_sublist ..
  | satisfying p => exact List.filter_sublist.trans hcurrent
  | identified identifier => exact List.filter_sublist.trans hcurrent
  | containing ty p => exact List.filter_sublist.trans hcurrent

/-- **One step.**  A step makes of a set of nodes the nodes whose elements it relates to
elements of the set. -/
theorem mem_run (h : c.Faithful t LiveTree.root) (ht : t.WellFormed) (step : QueryStep)
    {current : List Nat} (hcurrent : current.Sublist (List.range c.snapshot.size)) {k : Nat}
    (hk : k < c.snapshot.size) :
    k ∈ run c.snapshot current step ↔
      ∃ j ∈ current, step.Relates t (c.liveOf j) (c.liveOf k) := by
  have hlt : ∀ j ∈ current, j < c.snapshot.size :=
    fun j hj => List.mem_range.mp (hcurrent.subset hj)
  -- a condition keeps a node and changes nothing else
  have hcondition : ∀ (keep : Nat → Bool) (holds : Nat → Prop),
      (keep k = true ↔ holds (c.liveOf k)) →
      (k ∈ current.filter keep ↔
        ∃ j ∈ current, c.liveOf j = c.liveOf k ∧ holds (c.liveOf j)) := by
    intro keep holds hkeep
    rw [List.mem_filter, hkeep]
    constructor
    · intro hforth
      rcases hforth with ⟨hmem, hholds⟩
      exact ⟨k, hmem, rfl, hholds⟩
    · intro hback
      rcases hback with ⟨j, hj, heq, hholds⟩
      obtain rfl : j = k := h.liveOf_inj ht (hlt j hj) hk heq
      exact ⟨hj, hholds⟩
  cases step with
  | descendants ty =>
      simp only [run, mem_setOf, hk, true_and, List.mem_filter, List.mem_flatMap, Relates,
        h.hasType_liveOf hk]
      constructor
      · intro hforth
        rcases hforth with ⟨⟨j, hj, hmem⟩, htype⟩
        exact ⟨j, hj, (h.mem_descendants_iff ht hk (hlt j hj)).mp hmem, htype⟩
      · intro hback
        rcases hback with ⟨j, hj, hbelow, htype⟩
        exact ⟨⟨j, hj, (h.mem_descendants_iff ht hk (hlt j hj)).mpr hbelow⟩, htype⟩
  | children ty =>
      simp only [run, mem_setOf, hk, true_and, List.mem_filter, List.mem_flatMap, Relates,
        h.hasType_liveOf hk]
      constructor
      · intro hforth
        rcases hforth with ⟨⟨j, hj, hmem⟩, htype⟩
        exact ⟨j, hj, (h.mem_children_iff ht hk (hlt j hj)).mp hmem, htype⟩
      · intro hback
        rcases hback with ⟨j, hj, hchild, htype⟩
        exact ⟨⟨j, hj, (h.mem_children_iff ht hk (hlt j hj)).mpr hchild⟩, htype⟩
  | satisfying p =>
      exact hcondition _ (fun x => t.satisfies p x = true) (by rw [h.satisfies_liveOf ht hk])
  | identified identifier =>
      refine hcondition _ (fun x => ∃ a, t.attributes? x = some a ∧ a.identifier = identifier) ?_
      simp only [h.attributes?_liveOf hk]
      cases t.attributes? (c.liveOf k) <;> simp
  | containing ty p =>
      refine hcondition _ (fun x => ∃ z, t.links.Below x z ∧ t.hasType ty z = true ∧
        t.satisfies p z = true) ?_
      rw [List.any_eq_true]
      constructor
      · intro hforth
        rcases hforth with ⟨d, hd, hboth⟩
        have hdlt : d < c.snapshot.size := h.lt_of_mem_subtree ht hk (List.mem_of_mem_drop hd)
        rw [Bool.and_eq_true, h.hasType_liveOf hdlt, h.satisfies_liveOf ht hdlt] at hboth
        exact ⟨c.liveOf d, (h.mem_descendants_iff ht hdlt hk).mp hd, hboth⟩
      · intro hback
        rcases hback with ⟨z, hbelow, hboth⟩
        obtain ⟨node, hnode⟩ := h.node_live hk
        obtain ⟨below, hz⟩ :=
          ht.live_of_within hnode (Relation.TransGen.to_reflTransGen hbelow)
        obtain ⟨d, hdlt, rfl⟩ := h.exists_node (ht.mem_documentOrder.mpr ⟨below, hz⟩)
        refine ⟨d, (h.mem_descendants_iff ht hdlt hk).mpr hbelow, ?_⟩
        rw [Bool.and_eq_true, h.hasType_liveOf hdlt, h.satisfies_liveOf ht hdlt]
        exact hboth

/-- **All steps.**  The set after some steps is listed in increasing order and holds exactly
the nodes of the elements that the steps lead to. -/
theorem run_leads (h : c.Faithful t LiveTree.root) (ht : t.WellFormed)
    (steps : List QueryStep) {current : List Nat}
    (hcurrent : current.Sublist (List.range c.snapshot.size)) :
    (steps.foldl (run c.snapshot) current).Sublist (List.range c.snapshot.size) ∧
      ∀ k, k < c.snapshot.size → (k ∈ steps.foldl (run c.snapshot) current ↔
        ∃ j ∈ current, t.Leads steps (c.liveOf j) (c.liveOf k)) := by
  induction steps generalizing current with
  | nil =>
      refine ⟨hcurrent, ?_⟩
      intro k hk
      constructor
      · intro hmem
        exact ⟨k, hmem, rfl⟩
      · intro hback
        rcases hback with ⟨j, hj, heq⟩
        have hlt : j < c.snapshot.size := List.mem_range.mp (hcurrent.subset hj)
        exact h.liveOf_inj ht hlt hk heq ▸ hj
  | cons step rest ih =>
      have hnext := run_sublist step hcurrent
      obtain ⟨hsublist, hmem⟩ := ih hnext
      refine ⟨hsublist, ?_⟩
      intro k hk
      rw [List.foldl_cons, hmem k hk]
      constructor
      · intro hforth
        rcases hforth with ⟨i, hi, hrest⟩
        have hilt : i < c.snapshot.size := List.mem_range.mp (hnext.subset hi)
        obtain ⟨j, hj, hstep⟩ := (mem_run h ht step hcurrent hilt).mp hi
        exact ⟨j, hj, c.liveOf i, hstep, hrest⟩
      · intro hback
        rcases hback with ⟨j, hj, y, hstep, hrest⟩
        obtain ⟨node, hnode⟩ := h.node_live (List.mem_range.mp (hcurrent.subset hj))
        obtain ⟨below, hy⟩ := ht.live_of_relates hnode hstep
        obtain ⟨i, hilt, rfl⟩ := h.exists_node (ht.mem_documentOrder.mpr ⟨below, hy⟩)
        exact ⟨i, (mem_run h ht step hcurrent hilt).mpr ⟨j, hj, hstep⟩, hrest⟩

end QueryStep

/-! ## Whole queries -/

/-- A sublist of a list without duplicates is what a filter for its members leaves. -/
theorem eq_filter_of_sublist {l ys : List Nat} {keep : Nat → Bool} (hl : l.Nodup)
    (hsub : ys.Sublist l) (hkeep : ∀ y ∈ l, (keep y = true ↔ y ∈ ys)) : ys = l.filter keep := by
  induction hsub with
  | slnil => rfl
  | @cons ys l a hsub ih =>
      rw [List.nodup_cons] at hl
      have hdrop : ¬ keep a = true :=
        fun hkept => hl.1 (hsub.subset ((hkeep a List.mem_cons_self).mp hkept))
      rw [List.filter_cons_of_neg hdrop]
      exact ih hl.2 fun y hy => hkeep y (List.mem_cons_of_mem a hy)
  | @cons_cons ys l a hsub ih =>
      rw [List.nodup_cons] at hl
      have hkept : keep a = true := (hkeep a List.mem_cons_self).mpr List.mem_cons_self
      rw [List.filter_cons_of_pos hkept, ← ih hl.2]
      intro y hy
      have hne : y ≠ a := fun heq => hl.1 (heq ▸ hy)
      rw [hkeep y (List.mem_cons_of_mem a hy), List.mem_cons]
      exact or_iff_right hne

/-- A list whose members stand in another sublist of one list is a sublist of it. -/
theorem sublist_of_subset {l ys zs : List Nat} (hl : l.Nodup) (hys : ys.Sublist l)
    (hzs : zs.Sublist l) (h : ys ⊆ zs) : ys.Sublist zs := by
  have hfilter : ∀ {us : List Nat}, us.Sublist l → us = l.filter fun y => us.contains y :=
    fun hus => eq_filter_of_sublist hl hus fun _ _ => List.contains_iff_mem
  rw [hfilter hys, hfilter hzs]
  apply List.monotone_filter_right
  intro y hy
  exact List.contains_iff_mem.mpr (h (List.contains_iff_mem.mp hy))

/-- Two sublists of a list without duplicates are equal when they have the same members. -/
theorem eq_of_sublists {l ys zs : List Nat} (hl : l.Nodup) (hys : ys.Sublist l)
    (hzs : zs.Sublist l) (h : ∀ y, y ∈ ys ↔ y ∈ zs) : ys = zs :=
  (sublist_of_subset hl hys hzs fun y => (h y).mp).antisymm
    (sublist_of_subset hl hzs hys fun y => (h y).mpr)

namespace Capture.Faithful

variable {c : Capture} {t : LiveTree} {top : Nat}

/-- The node of an element is found again. -/
theorem nodeOf?_liveOf (h : c.Faithful t top) (ht : t.WellFormed) {k : Nat}
    (hk : k < c.snapshot.size) : c.nodeOf? (c.liveOf k) = some k := by
  have hfound : (c.nodeOf? (c.liveOf k)).isSome := by
    rw [nodeOf?, List.findIdx?_isSome, List.any_eq_true]
    exact ⟨c.liveOf k, List.mem_of_getElem? (h.liveIds_getElem? hk), by simp⟩
  obtain ⟨j, hj⟩ := Option.isSome_iff_exists.mp hfound
  obtain ⟨hlt, hsame, _⟩ := List.findIdx?_eq_some_iff_getElem.mp hj
  have hjsize : j < c.snapshot.size := h.size_eq ▸ hlt
  have hlive : c.liveOf j = c.liveOf k := by
    rw [liveOf, List.getElem?_eq_getElem hlt]
    simpa using hsame
  rw [hj, h.liveOf_inj ht hjsize hk hlive]

/-- The handles of some nodes name their elements. -/
theorem handles_eq (h : c.Faithful t top) {ids : List Nat}
    (hids : ∀ k ∈ ids, k < c.snapshot.size) :
    c.handles ids = (ids.map c.liveOf).map Handle.ofNumber := by
  rw [handles, List.map_map]
  induction ids with
  | nil => rfl
  | cons k ids ih =>
      rw [List.filterMap_cons, h.liveIds_getElem? (hids k List.mem_cons_self),
        ih fun j hj => hids j (List.mem_cons_of_mem k hj)]
      rfl

end Capture.Faithful

namespace LiveTree

/-- A query from a handle that names no live element fails. -/
theorem query_stale {t : LiveTree} {origin : Handle} (h : t.liveId? origin = none)
    (steps : List QueryStep) : t.query ⟨origin, steps⟩ = .error (.stale origin) := by
  simp only [query, h]

/-- **Queries answer what their steps lead to**, in document order. -/
theorem WellFormed.query_live {t : LiveTree} (ht : t.WellFormed) {origin : Handle} {x : Nat}
    (hx : t.liveId? origin = some x) (steps : List QueryStep) :
    ∃ ys : List Nat, t.query ⟨origin, steps⟩ = .ok (ys.map Handle.ofNumber) ∧
      ys.Sublist t.documentOrder ∧ ∀ y, y ∈ ys ↔ t.Leads steps x y := by
  obtain ⟨node, hnode⟩ := (liveId?_eq_some.mp hx).2
  obtain ⟨top, hroot, _⟩ := ht.root_live
  obtain ⟨c, hcapture, hc⟩ := ht.capture?_faithful hroot
  obtain ⟨k, hk, rfl⟩ := hc.exists_node (ht.mem_documentOrder.mpr ⟨node, hnode⟩)
  have hstart : [k].Sublist (List.range c.snapshot.size) :=
    List.singleton_sublist.mpr (List.mem_range.mpr hk)
  obtain ⟨hsublist, hmem⟩ := QueryStep.run_leads hc ht steps hstart
  let found := steps.foldl (QueryStep.run c.snapshot) [k]
  have hrange : ∀ j ∈ found, j < c.snapshot.size :=
    fun j hj => List.mem_range.mp (hsublist.subset hj)
  refine ⟨found.map c.liveOf, ?_, ?_, ?_⟩
  · have hrun : t.query ⟨origin, steps⟩ = .ok (c.handles found) := by
      simp only [query, hx, hcapture, hc.nodeOf?_liveOf ht hk, found]
    rw [hrun, hc.handles_eq hrange]
  · rw [documentOrder, ← hc.map_liveOf_range]
    exact hsublist.map c.liveOf
  · intro y
    rw [List.mem_map]
    constructor
    · intro hforth
      rcases hforth with ⟨j, hj, rfl⟩
      obtain ⟨i, hi, hleads⟩ := (hmem j (hrange j hj)).mp hj
      obtain rfl : i = k := List.mem_singleton.mp hi
      exact hleads
    · intro hleads
      obtain ⟨below, hy⟩ := ht.live_of_leads hnode hleads
      obtain ⟨j, hj, rfl⟩ := hc.exists_node (ht.mem_documentOrder.mpr ⟨below, hy⟩)
      exact ⟨j, (hmem j hj).mpr ⟨k, List.mem_singleton.mpr rfl, hleads⟩, rfl⟩

/-- The answer of a query as a filter of the document. -/
theorem WellFormed.query_eq_filter {t : LiveTree} (ht : t.WellFormed) {origin : Handle}
    {x : Nat} (hx : t.liveId? origin = some x) {steps : List QueryStep} {keep : Nat → Bool}
    (hkeep : ∀ y ∈ t.documentOrder, (keep y = true ↔ t.Leads steps x y)) :
    t.query ⟨origin, steps⟩ = .ok ((t.documentOrder.filter keep).map Handle.ofNumber) := by
  obtain ⟨ys, hquery, hsub, hmem⟩ := ht.query_live hx steps
  have hys : ys = t.documentOrder.filter keep := by
    apply eq_filter_of_sublist ht.documentOrder_nodup hsub
    intro y hy
    rw [hkeep y hy, hmem y]
  rw [hquery, hys]

/-- The handle of a listed element names it. -/
theorem Reachable.liveId?_of_mem {t : LiveTree} (ht : t.Reachable) {y : Nat}
    (hy : y ∈ t.documentOrder) : t.liveId? (.ofNumber y) = some y := by
  obtain ⟨node, hnode⟩ := ht.wellFormed.mem_documentOrder.mp hy
  exact ht.liveId?_ofNumber hnode

/-- Different live elements have different handles. -/
theorem Reachable.nodup_handles {t : LiveTree} (ht : t.Reachable) {ys : List Nat}
    (hsub : ys.Sublist t.documentOrder) : (ys.map Handle.ofNumber).Nodup := by
  exact (hsub.nodup ht.wellFormed.documentOrder_nodup).map Handle.ofNumber_injective

/-- What a query answers, nothing if it fails. -/
def found (t : LiveTree) (q : ElementQuery) : List Handle :=
  (t.query q).toOption.getD []

/-- A handle is found exactly when it is that of an element which the steps lead to. -/
theorem Reachable.mem_found {t : LiveTree} (ht : t.Reachable) {e : Handle} {x y : Nat}
    (hx : t.liveId? e = some x) (steps : List QueryStep) :
    Handle.ofNumber y ∈ t.found ⟨e, steps⟩ ↔ t.Leads steps x y := by
  obtain ⟨ys, hquery, hsub, hmem⟩ := ht.wellFormed.query_live hx steps
  have hfound : t.found ⟨e, steps⟩ = ys.map Handle.ofNumber := by
    simp only [found, hquery]
    rfl
  rw [hfound, List.mem_map, ← hmem y]
  constructor
  · intro hforth
    rcases hforth with ⟨z, hz, heq⟩
    exact Handle.ofNumber_injective heq ▸ hz
  · intro hmem'
    exact ⟨y, hmem', rfl⟩

/-- A collection of handles listed in document order, each once. -/
def listing (t : LiveTree) (hs : List Handle) : List Handle :=
  (t.documentOrder.map Handle.ofNumber).filter fun h => hs.contains h

/-- **Splitting a query.**  The answer of all steps lists, in document order, what the later
steps find from the elements that the earlier steps find. -/
theorem Reachable.query_append {t : LiveTree} (ht : t.Reachable) {origin : Handle}
    {first rest : List QueryStep} {found : List Handle}
    (hfound : t.query ⟨origin, first⟩ = .ok found) :
    ∃ parts : List (List Handle), found.map (fun e => t.query ⟨e, rest⟩) = parts.map .ok ∧
      t.query ⟨origin, first ++ rest⟩ = .ok (t.listing parts.flatten) := by
  have hwf := ht.wellFormed
  cases hx : t.liveId? origin with
  | none =>
      rw [query_stale hx first] at hfound
      exact absurd hfound (by simp)
  | some x =>
      obtain ⟨ys, hquery, hsub, hmem⟩ := hwf.query_live hx first
      obtain rfl : ys.map Handle.ofNumber = found :=
        Except.ok.inj (hquery.symm.trans hfound)
      refine ⟨(ys.map Handle.ofNumber).map fun e => t.found ⟨e, rest⟩, ?_, ?_⟩
      · refine Eq.trans (List.map_congr_left ?_) List.map_map.symm
        intro e he
        obtain ⟨y, hy, rfl⟩ := List.mem_map.mp he
        obtain ⟨zs, hzs, _⟩ := hwf.query_live (ht.liveId?_of_mem (hsub.subset hy)) rest
        simp only [Function.comp, LiveTree.found, hzs]
        rfl
      · rw [listing, List.filter_map]
        apply hwf.query_eq_filter hx
        intro y hy
        rw [leads_append, Function.comp, List.contains_iff_mem, List.mem_flatten]
        constructor
        · intro hforth
          rcases hforth with ⟨part, hpart, hmemPart⟩
          obtain ⟨e, he, rfl⟩ := List.mem_map.mp hpart
          obtain ⟨w, hw, rfl⟩ := List.mem_map.mp he
          have hlive := ht.liveId?_of_mem (hsub.subset hw)
          have hrest : t.Leads rest w y := by
            rw [← ht.mem_found hlive rest]
            exact hmemPart
          exact ⟨w, (hmem w).mp hw, hrest⟩
        · intro hback
          rcases hback with ⟨w, hfirst, hrest⟩
          have hw : w ∈ ys := (hmem w).mpr hfirst
          have hlive := ht.liveId?_of_mem (hsub.subset hw)
          exact ⟨t.found ⟨.ofNumber w, rest⟩,
            List.mem_map_of_mem (List.mem_map_of_mem hw),
            (ht.mem_found hlive rest).mpr hrest⟩

/-- **Queries compute the relations of their steps.**  A query fails exactly when its root
names no live element.  Otherwise it answers, in document order and each once, the elements that
its steps lead to; and however the steps are split, it answers what the later steps find from
the elements that the earlier steps find. -/
theorem Reachable.query_answers {t : LiveTree} (ht : t.Reachable) (origin : Handle)
    (steps : List QueryStep) :
    (t.query ⟨origin, steps⟩ = .error (.stale origin) ↔ t.liveId? origin = none) ∧
    (∀ x, t.liveId? origin = some x → ∃ ys : List Nat,
      t.query ⟨origin, steps⟩ = .ok (ys.map Handle.ofNumber) ∧
      ys.Sublist t.documentOrder ∧ (ys.map Handle.ofNumber).Nodup ∧
      (∀ y ∈ ys, t.liveId? (.ofNumber y) = some y) ∧ ∀ y, y ∈ ys ↔ t.Leads steps x y) ∧
    (∀ first rest found, steps = first ++ rest → t.query ⟨origin, first⟩ = .ok found →
      ∃ parts : List (List Handle), found.map (fun e => t.query ⟨e, rest⟩) = parts.map .ok ∧
        t.query ⟨origin, steps⟩ = .ok (t.listing parts.flatten)) := by
  have hwf := ht.wellFormed
  refine ⟨?_, ?_, ?_⟩
  · constructor
    · intro hstale
      cases hx : t.liveId? origin with
      | none => rfl
      | some x =>
          obtain ⟨ys, hquery, _⟩ := hwf.query_live hx steps
          rw [hquery] at hstale
          exact absurd hstale (by simp)
    · exact fun hnone => query_stale hnone steps
  · intro x hx
    obtain ⟨ys, hquery, hsub, hmem⟩ := hwf.query_live hx steps
    have hnames : ∀ y ∈ ys, t.liveId? (.ofNumber y) = some y :=
      fun y hy => ht.liveId?_of_mem (hsub.subset hy)
    exact ⟨ys, hquery, hsub, ht.nodup_handles hsub, hnames, hmem⟩
  · intro first rest found hsteps hfound
    subst hsteps
    exact ht.query_append hfound

/-- The cells of both tables, looked for from the top of the screen. -/
theorem query_answers_twinTables :
    (ofFixture .twinTables).Reachable ∧
    (ofFixture .twinTables).liveId? ⟨"node-0"⟩ = some 0 ∧
    ∃ ys : List Nat,
      (ofFixture .twinTables).query ⟨⟨"node-0"⟩, [.descendants .table, .children .any]⟩ =
        .ok (ys.map Handle.ofNumber) ∧
      ys.Sublist (ofFixture .twinTables).documentOrder ∧ (ys.map Handle.ofNumber).Nodup ∧
      (∀ y ∈ ys, (ofFixture .twinTables).liveId? (.ofNumber y) = some y) ∧
      ∀ y, y ∈ ys ↔
        (ofFixture .twinTables).Leads [.descendants .table, .children .any] 0 y :=
  ⟨reachable_twinTables, by decide,
    (reachable_twinTables.query_answers ⟨"node-0"⟩ [.descendants .table, .children .any]).2.1
      0 (by decide)⟩

end LiveTree

end ElementFinder
