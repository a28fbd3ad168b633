import ElementFinder.Proofs.Resolution.Modes

/-!
# Siblings are sought two links up

The first element that a child locator describes is looked for in a snapshot, the search climbs two
links there, and the node it arrives at is found again among the live elements by its look.  When
the elements can be told apart, this is the live element two links above the one described
(`Capture.Faithful.siblingAnchor_yields`), and the sibling locator is resolved from there
(`Reachable.findSibling_anchors`).
-/

namespace ElementFinder

/-- Whether a locator describes a node of a snapshot. -/
def Snapshot.shows (s : Snapshot) (l : Locator) (k : Nat) : Bool :=
  (s.view? k).any l.describes

theorem Snapshot.satisfies_eq_shows {s : Snapshot} {p : Predicate} {l : Locator}
    (h : ∀ e, p.holds e = l.describes e) (k : Nat) : s.satisfies p k = s.shows l k := by
  unfold satisfies shows
  cases s.view? k with
  | none => rfl
  | some e => exact h e

namespace LiveTree

/-- The first node below the root of a snapshot that a locator describes, with the element that
stands at its place below `x`. -/
def firstShown? (t : LiveTree) (s : Snapshot) (l : Locator) (x : Nat) : Option (Nat × Nat) :=
  ((s.descendants 0).zip (t.descendants x)).find? fun pair => s.shows l pair.1

/-- Where siblings of `y` are sought, when `origin` names an element `x` above it: two links up,
but not above `x`. -/
inductive Anchors (t : LiveTree) (origin : Handle) (x y : Nat) : Handle → Prop
  | child (hy : t.parent? y = some x) : Anchors t origin x y origin
  | grandchild {p : Nat} (hy : t.parent? y = some p) (hp : t.parent? p = some x) :
      Anchors t origin x y origin
  | deeper {p g : Nat} (hy : t.parent? y = some p) (hp : t.parent? p = some g)
      (hg : g ∈ t.descendants x) : Anchors t origin x y (.ofNumber g)

/-- Siblings are sought from a live element. -/
theorem Anchors.live {t : LiveTree} {origin a : Handle} {x y : Nat} (h : t.Anchors origin x y a)
    (ht : t.Reachable) (hx : t.liveId? origin = some x) : ∃ z, t.liveId? a = some z := by
  have hlisted := ht.wellFormed.mem_documentOrder_of_liveId? hx
  cases h with
  | child => exact ⟨x, hx⟩
  | grandchild => exact ⟨x, hx⟩
  | deeper _ _ hg =>
      exact ⟨_, ht.liveId?_of_mem ((ht.wellFormed.descendants_sublist hlisted).subset hg)⟩

end LiveTree

namespace Capture.Faithful

variable {c : Capture} {t : LiveTree} {top : Nat}

/-- The nodes below the root are all but the first. -/
theorem descendants_zero (h : c.Faithful t top) (ht : t.WellFormed)
    (hpos : 0 < c.snapshot.size) :
    c.snapshot.descendants 0 = (List.range c.snapshot.size).drop 1 := by
  have horder := h.documentOrder_eq ht hpos
  rw [Snapshot.documentOrder] at horder
  rw [Snapshot.descendants, horder]

/-- The nodes below the root are listed like the elements that they are copies of. -/
theorem map_liveOf_descendants (h : c.Faithful t top) (ht : t.WellFormed)
    (hpos : 0 < c.snapshot.size) :
    (c.snapshot.descendants 0).map c.liveOf = t.descendants top := by
  rw [h.descendants_zero ht hpos, List.map_drop, h.map_liveOf_range, LiveTree.descendants]

theorem mem_descendants_zero (h : c.Faithful t top) (ht : t.WellFormed)
    (hpos : 0 < c.snapshot.size) {k : Nat} (hk : k ∈ c.snapshot.descendants 0) :
    0 < k ∧ k < c.snapshot.size := by
  rw [h.descendants_zero ht hpos] at hk
  obtain ⟨i, hi⟩ := List.mem_iff_getElem?.mp hk
  rw [List.getElem?_drop, List.getElem?_eq_some_iff] at hi
  obtain ⟨hlt, heq⟩ := hi
  rw [List.length_range] at hlt
  rw [List.getElem_range] at heq
  omega

/-- One place leads to each node. -/
theorem exists_place (h : c.Faithful t top) (ht : t.WellFormed) (hpos : 0 < c.snapshot.size)
    (rootPath : String) {k : Nat} (hk : k < c.snapshot.size) :
    ∃ path, ((c.snapshot.markup rootPath).places.filter fun place => place.2 = k) =
      [(path, k)] := by
  have hnumbers : ((c.snapshot.markup rootPath).places.filter fun place =>
      place.2 = k).map Prod.snd = [k] := by
    rw [← LiveTree.filter_eq_singleton List.nodup_range (List.mem_range.mpr hk)
      (p := fun j => decide (j = k)) (by simp), ← h.map_snd_places ht hpos rootPath,
      List.filter_map]
    rfl
  obtain ⟨⟨path, j⟩, hplaces, rfl⟩ := List.map_eq_singleton_iff.mp hnumbers
  exact ⟨path, hplaces⟩

/-- A node is found again as its own element, the root as the element that was captured. -/
theorem liveElement_yields (h : c.Faithful t top) (ht : t.Reachable) (hpos : 0 < c.snapshot.size)
    {origin : Handle} (hx : t.liveId? origin = some top) (hapart : t.Distinguishable top)
    (options : ResolverOptions) {k : Nat} (hk : k < c.snapshot.size) :
    (liveElement options c.snapshot k origin).Yields t
      (.ok (.ok (if k = 0 then origin else .ofNumber (c.liveOf k)))) := by
  rw [liveElement]
  split_ifs with hroot
  · exact .pure _
  · obtain ⟨path, hplaces⟩ := h.exists_place ht.wellFormed hpos options.indexPathRoot hk
    have hcaptured : Reconciliation.Captured ⟨[(path, k)], c.snapshot, origin, false⟩ c :=
      ⟨rfl, by simp, by simpa using hk⟩
    have hrun := hcaptured.run_exact h ht hx hapart options
    simp only [List.map_cons, List.map_nil, Reconciliation.exact, hroot, if_false] at hrun
    rw [hplaces]
    exact hrun.bind (.pure _)

/-- **The anchor of a node.**  Climbing two links in a snapshot and finding the node again leads to
the live element two links above. -/
theorem siblingAnchor_yields (h : c.Faithful t top) (ht : t.Reachable)
    (hpos : 0 < c.snapshot.size) {origin : Handle} (hx : t.liveId? origin = some top)
    (hapart : t.Distinguishable top) (options : ResolverOptions) {k : Nat} (hkpos : 0 < k)
    (hk : k < c.snapshot.size) :
    ∃ a, t.Anchors origin top (c.liveOf k) a ∧
      (liveElement options c.snapshot (c.snapshot.siblingAnchor k) origin).Yields t
        (.ok (.ok a)) := by
  have hfound := fun {j : Nat} (hj : j < c.snapshot.size) =>
    h.liveElement_yields ht hpos hx hapart options hj
  obtain ⟨p, hp, hpk, hup⟩ := h.parent?_liveOf hkpos hk
  obtain ⟨bound, hbound⟩ : ∃ n, c.snapshot.size = n + 2 := ⟨c.snapshot.size - 2, by omega⟩
  by_cases hzero : p = 0
  · subst hzero
    have hanchor : c.snapshot.siblingAnchor k = 0 := by
      simp [Snapshot.siblingAnchor, siblingDepth, Snapshot.ancestors, hbound,
        Snapshot.ancestorsWithin, hp, h.top_parent]
    refine ⟨origin, .child (by rw [hup, h.liveOf_top]), ?_⟩
    rw [hanchor]
    exact hfound hpos
  · obtain ⟨g, hg, hgp, hup'⟩ := h.parent?_liveOf (Nat.pos_of_ne_zero hzero) (by omega)
    have hanchor : c.snapshot.siblingAnchor k = g := by
      simp [Snapshot.siblingAnchor, siblingDepth, Snapshot.ancestors, hbound,
        Snapshot.ancestorsWithin, hp, hg]
    have hgk : g < c.snapshot.size := by omega
    rw [hanchor]
    by_cases htop : g = 0
    · subst htop
      exact ⟨origin, .grandchild hup (by rw [hup', h.liveOf_top]), hfound hpos⟩
    · have hbelow : c.liveOf g ∈ t.descendants top :=
        List.mem_of_getElem? (h.getElem?_descendants hgk htop)
      have hyields := hfound hgk
      rw [if_neg htop] at hyields
      exact ⟨_, .deeper hup hup' hbelow, hyields⟩

end Capture.Faithful

/-- A child locator that describes one element leads from it to the siblings. -/
theorem findSibling_of_describes {child : Locator} (hchild : child.CanDescribe) {p : Predicate}
    (hread : child.childPredicate = .ok p) {options : ResolverOptions} {sibling : Locator}
    {origin : Handle} {mode : MatchMode} :
    findSibling options child sibling origin mode = (do
      let s ← Access.snapshot origin
      match s.firstBelow? p with
      | none => return {}
      | some id =>
        match ← liveElement options s (s.siblingAnchor id) origin with
        | .error resolution => return resolution
        | .ok anchor => sibling.resolve options anchor mode) := by
  rw [findSibling, hread, hchild.single]
  rfl

namespace LiveTree

variable {t : LiveTree} {origin : Handle} {x : Nat}

/-- **Siblings are sought two links above the child.**  Let the proper descendants of a live root
differ in their looks, and let none of their coordinates and number values be not-a-number.  The
root has a snapshot, and the nodes below its root show the descendants one by one.  If the child
locator describes none of them, nothing is found.  Otherwise the sibling locator is resolved from
the live element two links above the first that it describes, or from the root if that lies higher;
the result, its reports and any failure are those of that resolution. -/
theorem Reachable.findSibling_anchors (ht : t.Reachable) (hx : t.liveId? origin = some x)
    (hapart : t.Distinguishable x) (options : ResolverOptions) {child : Locator}
    (hchild : child.CanDescribe) (sibling : Locator) (mode : MatchMode) :
    ∃ s, t.snapshot origin = .ok s ∧
      (s.descendants 0).map s.attributes? = (t.descendants x).map t.attributes? ∧
      (t.firstShown? s child x = none →
        (findSibling options child sibling origin mode).runStill t = .ok {}) ∧
      ∀ k y, t.firstShown? s child x = some (k, y) → ∃ a, t.Anchors origin x y a ∧
        (findSibling options child sibling origin mode).runStill t =
          (sibling.resolve options a mode).runStill t := by
  have hwf := ht.wellFormed
  obtain ⟨c, hcapture, hc, hpos⟩ := hwf.snapshot_live hx
  have hlisted := hc.map_liveOf_descendants hwf hpos
  obtain ⟨p, hread, hp⟩ := Locator.childPredicate_describes hchild
  have hlook := Access.Yields.snapshot hcapture
  have hfirst? : t.firstShown? c.snapshot child x =
      (c.snapshot.firstBelow? p).map fun k => (k, c.liveOf k) := by
    rw [firstShown?, ← hlisted, ← List.map_prod_left_eq_zip, List.find?_map,
      Snapshot.firstBelow?, funext (Snapshot.satisfies_eq_shows hp)]
    rfl
  refine ⟨c.snapshot, hcapture, ?_⟩
  rw [findSibling_of_describes hchild hread, hfirst?]
  refine ⟨?_, ?_, ?_⟩
  · rw [← hlisted, List.map_map]
    apply List.map_congr_left
    intro k hk
    exact hc.attributes?_liveOf (hc.mem_descendants_zero hwf hpos hk).2
  · intro hnone
    apply Access.Yields.runStill_eq
    refine hlook.bind ?_
    rw [Option.map_eq_none_iff.mp hnone]
    exact Access.Yields.pure _
  · intro k y hsome
    obtain ⟨k', hfirst, heq⟩ := Option.map_eq_some_iff.mp hsome
    obtain ⟨rfl, rfl⟩ := Prod.mk.inj heq
    obtain ⟨hkpos, hk⟩ := hc.mem_descendants_zero hwf hpos (List.mem_of_find?_eq_some hfirst)
    obtain ⟨a, hanchors, hyields⟩ := hc.siblingAnchor_yields ht hpos hx hapart options hkpos hk
    obtain ⟨z, hz⟩ := hanchors.live ht hx
    obtain ⟨r, hresult⟩ := ht.resolve_yields hz options sibling mode
    refine ⟨a, hanchors, ?_⟩
    rw [hresult.runStill_eq]
    apply Access.Yields.runStill_eq
    refine hlook.bind ?_
    rw [hfirst]
    exact hyields.bind hresult

end LiveTree

/-- A screen with a table of two cells, of which the first holds a button. -/
def Fixture.editableTable : Fixture :=
  .mk { label := "screen" }
    [.mk { elementType := .table }
       [.mk { elementType := .cell, label := "first" }
          [.mk { elementType := .button, label := "edit" } []],
        .mk { elementType := .cell, label := "second" } []]]

namespace LiveTree

/-- Siblings of the button are sought in the table. -/
theorem findSibling_anchors_editableTable :
    (ofFixture .editableTable).Reachable ∧
    (ofFixture .editableTable).liveId? ⟨"node-0"⟩ = some 0 ∧
    (ofFixture .editableTable).Distinguishable 0 ∧
    Locator.CanDescribe ⟨.name, "edit"⟩ ∧
    (findSibling {} ⟨.name, "edit"⟩ ⟨.name, "second"⟩ ⟨"node-0"⟩ .all).runStill
      (ofFixture .editableTable) = .ok ⟨[.ofNumber 4], []⟩ := by
  let t := ofFixture .editableTable
  let s := (t.capture? 0).elim default Capture.snapshot
  have hreachable : t.Reachable := .load .editableTable (by decide)
  have hroot : t.liveId? ⟨"node-0"⟩ = some 0 := by decide
  have hapart : t.Distinguishable 0 := ⟨by decide +kernel, by decide +kernel⟩
  have hnamed : ∀ name, Locator.CanDescribe ⟨.name, name⟩ := fun _ => ⟨rfl, nofun⟩
  have hsnapshot : t.snapshot ⟨"node-0"⟩ = .ok s := by
    simp only [snapshot, hroot, Option.bind_some]
    rfl
  have hbutton : t.firstShown? s ⟨.name, "edit"⟩ 0 = some (3, 3) := by
    decide +kernel
  have hparents : t.parent? 3 = some 2 ∧ t.parent? 2 = some 1 := by decide
  obtain ⟨s', hs', -, -, hsibling⟩ := hreachable.findSibling_anchors hroot hapart {}
    (hnamed "edit") ⟨.name, "second"⟩ .all
  obtain rfl : s = s' := Except.ok.inj (hsnapshot.symm.trans hs')
  obtain ⟨a, hanchors, hresolve⟩ := hsibling 3 3 hbutton
  have htable : a = .ofNumber 1 := by
    cases hanchors with
    | child hy => exact absurd (hy.symm.trans hparents.1) (by decide)
    | grandchild hy hp =>
        obtain rfl := Option.some.inj (hy.symm.trans hparents.1)
        exact absurd (hp.symm.trans hparents.2) (by decide)
    | deeper hy hp _ =>
        obtain rfl := Option.some.inj (hy.symm.trans hparents.1)
        rw [Option.some.inj (hp.symm.trans hparents.2)]
  have hcells : (t.descendants 1).filter (t.shows ⟨.name, "second"⟩) = [4] := by
    decide +kernel
  have htarget := (hreachable.resolve_child (e := .ofNumber 1) (y := 1) (by decide)
    (hnamed "second") {} .all).runStill_eq
  refine ⟨hreachable, hroot, hapart, hnamed "edit", ?_⟩
  rw [hresolve, htable, htarget, hcells]
  rfl

end LiveTree
end ElementFinder
