import Mathlib.Data.List.Find
import ElementFinder.Proofs.Resolution.Rank
import ElementFinder.Proofs.Resolution.Search

/-!
# Reconciliation follows the rank law

On a tree that nothing interferes with, the search is told what the tree is: a pool holds exactly
the elements of its type (`pooled_found`), and every look shows what a fresh one would.  So what a
place is assigned is its first free look-alike, and by the rank law that is the look-alike of the
rank (`Settled.free_candidate`), which settles one place after the other (`assign_eq_collect`).
-/

namespace ElementFinder

namespace LiveTree

variable {t : LiveTree}

/-- A look at the handle of a live element shows its attributes. -/
theorem Reachable.looks_ofNumber (ht : t.Reachable) {y : Nat} (hy : y ∈ t.documentOrder) :
    t.looks (.ofNumber y) = t.attributes? y := by
  obtain ⟨c, hsnapshot, hc, hpos⟩ := ht.wellFormed.snapshot_live (ht.liveId?_of_mem hy)
  simp only [looks, hsnapshot, hc.attributes?_liveOf hpos, hc.liveOf_top]

theorem WellFormed.mem_scan (ht : t.WellFormed) {x y : Nat} (hx : x ∈ t.documentOrder)
    (reverse : Bool) : y ∈ t.scan x reverse ↔ t.links.Below x y := by
  have hdescendants : y ∈ t.descendants x ↔ t.links.Below x y := ht.mem_descendants hx
  cases reverse with
  | false => exact hdescendants
  | true => exact List.mem_reverse.trans hdescendants

theorem WellFormed.mem_documentOrder_of_mem_scan (ht : t.WellFormed) {x y : Nat}
    {reverse : Bool} (hx : x ∈ t.documentOrder) (hy : y ∈ t.scan x reverse) :
    y ∈ t.documentOrder := by
  obtain ⟨node, hnode⟩ := ht.mem_documentOrder.mp hx
  have hbelow := (ht.mem_scan hx reverse).mp hy
  exact ht.mem_documentOrder.mpr
    (ht.live_of_within hnode (Relation.TransGen.to_reflTransGen hbelow))

/-- A subtree stands in document order. -/
theorem WellFormed.subtree_sublist (ht : t.WellFormed) {x : Nat} (hx : x ∈ t.documentOrder) :
    (t.subtree x).Sublist t.documentOrder := by
  obtain ⟨node, hnode⟩ := ht.mem_documentOrder.mp hx
  have hwithin := ht.within_root hnode
  rw [documentOrder, subtree_eq_walk, subtree_eq_walk]
  exact Links.walk_sublist ht.forest hwithin

/-- The descendants of an element stand in document order. -/
theorem WellFormed.descendants_sublist (ht : t.WellFormed) {x : Nat}
    (hx : x ∈ t.documentOrder) : (t.descendants x).Sublist t.documentOrder :=
  (List.drop_sublist 1 _).trans (ht.subtree_sublist hx)

/-- A query for the descendants of a type lists them in the order of the descendants. -/
theorem Reachable.query_descendants (ht : t.Reachable) {origin : Handle} {x : Nat}
    (hx : t.liveId? origin = some x) (ty : ElementType) :
    t.query ((ElementQuery.start origin).step (.descendants ty)) =
      .ok (((t.descendants x).filter (t.hasType ty)).map Handle.ofNumber) := by
  have hwf := ht.wellFormed
  have hlisted := hwf.mem_documentOrder_of_liveId? hx
  obtain ⟨ys, hquery, hsub, hmem⟩ := hwf.query_live hx [.descendants ty]
  have hstep : (ElementQuery.start origin).step (.descendants ty) =
      ⟨origin, [.descendants ty]⟩ := rfl
  have hfilter : ((t.descendants x).filter (t.hasType ty)).Sublist t.documentOrder :=
    List.filter_sublist.trans (hwf.descendants_sublist hlisted)
  have hys : ys = (t.descendants x).filter (t.hasType ty) := by
    apply eq_of_sublists hwf.documentOrder_nodup hsub hfilter
    intro y
    rw [hmem y, List.mem_filter]
    simp only [Leads, QueryStep.Relates, exists_eq_right]
    exact (and_congr_left fun _ => hwf.mem_descendants hlisted).symm
  rw [hstep, hquery, hys]

end LiveTree

namespace Reconciliation

variable {r : Reconciliation} {t : LiveTree} {x : Nat}

/-! ## Candidates -/

/-- The candidates of a type. -/
def poolOf (r : Reconciliation) (t : LiveTree) (x : Nat) (ty : ElementType) : List Handle :=
  ((t.scan x r.reverse).filter (t.hasType ty)).map Handle.ofNumber

/-- The answers of a calm tree make these candidates. -/
theorem pooled_found (ht : t.Reachable) (hx : t.liveId? r.liveRoot = some x)
    (types : List ElementType) :
    r.pooled (types.map fun ty =>
        (ty, t.found ((ElementQuery.start r.liveRoot).step (.descendants ty)))) =
      types.map fun ty => (ty, r.poolOf t x ty) := by
  rw [pooled, List.map_map]
  apply List.map_congr_left
  intro ty _
  have hfound : t.found ((ElementQuery.start r.liveRoot).step (.descendants ty)) =
      ((t.descendants x).filter (t.hasType ty)).map Handle.ofNumber := by
    rw [LiveTree.found, ht.query_descendants hx ty]
    rfl
  rw [Function.comp_apply, hfound]
  cases hreverse : r.reverse <;>
    simp [poolOf, LiveTree.scan, hreverse, List.filter_reverse, List.map_reverse]

/-- The pool of a type that was asked for is found. -/
theorem find?_pool {types : List ElementType} {g : ElementType → List Handle}
    {ty : ElementType} (hty : ty ∈ types) :
    (((types.map fun u => (u, g u)).find? fun entry => entry.1 = ty).map Prod.snd).getD [] =
      g ty := by
  induction types with
  | nil => exact absurd hty List.not_mem_nil
  | cons u types ih =>
      by_cases hu : u = ty
      · simp [hu]
      · have hrest : ty ∈ types := (List.mem_cons.mp hty).resolve_left fun heq => hu heq.symm
        simpa [hu] using ih hrest

theorem elementType_mem_types {m : String × Nat} (hm : m ∈ r.matched) (hroot : m.2 ≠ 0)
    {a : Attributes} (ha : r.snapshot.attributes? m.2 = some a) : a.elementType ∈ r.types := by
  rw [types, List.mem_eraseDups, List.mem_map]
  refine ⟨m, List.mem_filter.mpr ⟨hm, by simpa using hroot⟩, ?_⟩
  simp [typeOf, ha]

/-- The first free candidate that looks as expected is the look-alike of the rank. -/
theorem Settled.free_candidate {claimUnique : Bool} {earlier : List (String × Nat)}
    {taken : List Nat} (h : r.Settled t x claimUnique earlier taken) (ht : t.Reachable)
    (hx : x ∈ t.documentOrder) (a : Attributes) :
    (r.poolOf t x a.elementType).find? (fun h =>
        !(taken.map Handle.ofNumber).contains h && (t.looks h).any a.looksLike) =
      (r.chosen? t x claimUnique earlier a).map Handle.ofNumber := by
  have hwf := ht.wellFormed
  rw [← h.find?_eq hwf a, poolOf, LiveTree.lookAlikes, List.find?_map, List.find?_filter,
    List.find?_filter]
  congr 1
  apply List.find?_congr
  intro y hy
  have hlisted := hwf.mem_documentOrder_of_mem_scan hx hy
  have hcontains : (taken.map Handle.ofNumber).contains (.ofNumber y) = taken.contains y := by
    rw [Bool.eq_iff_iff, List.contains_iff_mem, List.contains_iff_mem, List.mem_map]
    constructor
    · intro hforth
      rcases hforth with ⟨z, hz, heq⟩
      exact Handle.ofNumber_injective heq ▸ hz
    · exact fun hmem => ⟨y, hmem, rfl⟩
  have htype : (t.attributes? y).any a.looksLike = true → t.hasType a.elementType y = true := by
    intro halike
    obtain ⟨b, hb, hab⟩ := (Option.any_eq_true ..).mp halike
    simp [LiveTree.hasType, hb, ElementType.accepts, Attributes.elementType_eq_of_looksLike hab]
  simp only [Function.comp, hcontains, ht.looks_ofNumber hlisted]
  cases halike : (t.attributes? y).any a.looksLike with
  | true => simp [htype halike]
  | false => simp

end Reconciliation

/-! ## All places -/

namespace Reconciliation

variable {r : Reconciliation} {t : LiveTree} {x : Nat}

/-- **All places.**  While the elements taken are settled, every further place is assigned what
the rank law says. -/
theorem assign_eq_collect (ht : t.Reachable) (hx : x ∈ t.documentOrder) {claimUnique : Bool}
    {rest : List (String × Nat)} (hrest : ∀ m ∈ rest, m ∈ r.matched)
    {earlier : List (String × Nat)} {taken : List Nat}
    (h : r.Settled t x claimUnique earlier taken) :
    r.assign claimUnique (r.types.map fun ty => (ty, r.poolOf t x ty)) t.looks
        (taken.map Handle.ofNumber) rest =
      collect (r.outcome? t x claimUnique) earlier rest := by
  induction rest generalizing earlier taken with
  | nil => rfl
  | cons m rest ih =>
      have hlater : ∀ m' ∈ rest, m' ∈ r.matched :=
        fun m' hm' => hrest m' (List.mem_cons_of_mem m hm')
      obtain ⟨path, id⟩ := m
      rw [assign, collect]
      by_cases hroot : id = 0
      · have hwanted : r.wanted? (path, id) = none := by simp [wanted?, hroot]
        have hout : r.outcome? t x claimUnique earlier (path, id) = some (.ok r.liveRoot) := by
          simp [outcome?, hroot]
        rw [if_pos hroot, hout, ih hlater (h.skip hwanted)]
        rfl
      rw [if_neg hroot]
      cases hattributes : r.snapshot.attributes? id with
      | none =>
          have hwanted : r.wanted? (path, id) = none := by simp [wanted?, hroot, hattributes]
          have hout : r.outcome? t x claimUnique earlier (path, id) = none := by
            simp [outcome?, hroot, hattributes]
          rw [hout]
          exact ih hlater (h.skip hwanted)
      | some a =>
          have hwanted : r.wanted? (path, id) = some a := by simp [wanted?, hroot, hattributes]
          have hpool := find?_pool (g := r.poolOf t x)
            (elementType_mem_types (hrest _ List.mem_cons_self) hroot hattributes)
          have hnext := h.next hwanted
          simp only [candidates, hpool, h.free_candidate ht hx a]
          cases hchosen : r.chosen? t x claimUnique earlier a with
          | none =>
              have hout : r.outcome? t x claimUnique earlier (path, id) =
                  some (.error (.reconciliationMiss path a.elementType.name)) := by
                simp [outcome?, hroot, hattributes, hchosen]
              simp only [hchosen, Option.toList_none, List.nil_append, ite_self] at hnext
              rw [hout, Option.toList_some, List.singleton_append, ← ih hlater hnext]
              rfl
          | some y =>
              have hout : r.outcome? t x claimUnique earlier (path, id) =
                  some (.ok (.ofNumber y)) := by
                simp [outcome?, hroot, hattributes, hchosen]
              simp only [hchosen, Option.toList_some, List.singleton_append] at hnext
              rw [hout, Option.toList_some, List.singleton_append, ← ih hlater hnext]
              cases claimUnique <;> rfl

/-- Reconciliation gives every place what the rank law says. -/
theorem run_yields (ht : t.Reachable) (hx : t.liveId? r.liveRoot = some x)
    (options : ResolverOptions) :
    (r.run options).Yields t
      (.ok (.ofOutcomes (r.outcomes t x options.claimUnique))) := by
  have hlisted := ht.wellFormed.mem_documentOrder_of_liveId? hx
  apply Access.Yields.of_arrives
  intro w hw
  have hwell : w.tree.WellFormed := hw.tree_eq ▸ ht.wellFormed
  rcases r.run_arrives options hwell with ⟨outs, hs, hgoes, -, houts⟩ | ⟨e, ks, -, hgone⟩
  · have hrecalls : Log.Recalls ((w.after (r.types.map fun _ => .query)).shows hs) t.looks := by
      intro entry hentry
      rw [(hw.after _).shows_eq] at hentry
      obtain ⟨h, -, rfl⟩ := List.mem_map.mp hentry
      rfl
    have hall : outs = r.outcomes t x options.claimUnique := by
      rw [houts t.looks hrecalls, hw.answers_eq, pooled_found ht hx]
      exact assign_eq_collect ht hlisted (fun _ hm => hm) settled_nil
    exact ⟨_, hall ▸ hgoes⟩
  · exact absurd (hw.watches hx ks) hgone

end Reconciliation

namespace LiveTree

/-- **Reconciliation obeys the rank law.**  Whatever the snapshot and the places matched in it, and
whatever the live tree has become: read in order, a place of the root gets the live root, and
any other place gets the live element that looks like its node and whose rank among the
look-alikes is the number of earlier places that want the same look, or is reported as a miss if
there are not so many.  Hence, with elements claimed, a place is missed only when all its
look-alikes stand for earlier places. -/
theorem Reachable.run_ranked {t : LiveTree} (ht : t.Reachable) (r : Reconciliation) {x : Nat}
    (hx : t.liveId? r.liveRoot = some x) (options : ResolverOptions) :
    (r.run options).runStill t =
        .ok (.ofOutcomes (r.outcomes t x options.claimUnique)) ∧
      ∀ earlier m later d, r.matched = earlier ++ m :: later → options.claimUnique = true →
        r.outcome? t x true earlier m = some (.error d) →
        ∃ a, r.wanted? m = some a ∧ ∀ y ∈ t.lookAlikes x r.reverse a,
          ∃ before m' after, earlier = before ++ m' :: after ∧
            r.outcome? t x true before m' = some (.ok (.ofNumber y)) := by
  refine ⟨(Reconciliation.run_yields ht hx options).runStill_eq, ?_⟩
  intro earlier m later d _ _ hmiss
  by_cases hroot : m.2 = 0
  · simp [Reconciliation.outcome?, hroot] at hmiss
  cases hattributes : r.snapshot.attributes? m.2 with
  | none => simp [Reconciliation.outcome?, hroot, hattributes] at hmiss
  | some a =>
      have hwanted : r.wanted? m = some a := by
        simp [Reconciliation.wanted?, hroot, hattributes]
      have hchosen : r.chosen? t x true earlier a = none := by
        cases hchosen : r.chosen? t x true earlier a with
        | none => rfl
        | some y => simp [Reconciliation.outcome?, hroot, hattributes, hchosen] at hmiss
      exact ⟨a, hwanted, fun y hy => Reconciliation.used_up_of_missed hchosen hy⟩

/-- Both cells of the twin tables and once more the first, looked for from the back. -/
def twinCells : Reconciliation where
  matched := [("top,0,0", 2), ("top,1,0", 4), ("top,0,0", 2)]
  snapshot := ((ofFixture .twinTables).capture? 0).elim default Capture.snapshot
  liveRoot := ⟨"node-0"⟩
  reverse := true

/-- The cells are found in reverse, and the third time no look-alike is left. -/
theorem run_ranked_twinTables :
    (ofFixture .twinTables).Reachable ∧
    (ofFixture .twinTables).liveId? twinCells.liveRoot = some 0 ∧
    (twinCells.run {}).runStill (ofFixture .twinTables) =
      .ok ⟨[.ofNumber 4, .ofNumber 2],
        [.reconciliationMiss "top,0,0" ElementType.cell.name]⟩ ∧
    ∃ a, twinCells.wanted? ("top,0,0", 2) = some a ∧
      ∀ y ∈ (ofFixture .twinTables).lookAlikes 0 true a,
        ∃ before m after, [("top,0,0", 2), ("top,1,0", 4)] = before ++ m :: after ∧
          twinCells.outcome? (ofFixture .twinTables) 0 true before m =
            some (.ok (.ofNumber y)) := by
  have hroot : (ofFixture .twinTables).liveId? twinCells.liveRoot = some 0 := by decide
  obtain ⟨hrun, hused⟩ := reachable_twinTables.run_ranked twinCells hroot {}
  have houts : twinCells.outcomes (ofFixture .twinTables) 0 true =
      [.ok (.ofNumber 4), .ok (.ofNumber 2),
        .error (.reconciliationMiss "top,0,0" ElementType.cell.name)] := by
    decide +kernel
  have hmissed : twinCells.outcome? (ofFixture .twinTables) 0 true
      [("top,0,0", 2), ("top,1,0", 4)] ("top,0,0", 2) =
        some (.error (.reconciliationMiss "top,0,0" ElementType.cell.name)) := by
    decide +kernel
  refine ⟨reachable_twinTables, hroot, ?_, hused _ _ [] _ rfl rfl hmissed⟩
  rw [hrun, houts]
  rfl

end LiveTree

end ElementFinder
