import Mathlib.Data.List.Sort
import ElementFinder.Proofs.Chain.Meaning
import ElementFinder.Proofs.Resolution.Reconcile
import ElementFinder.Proofs.Snapshot.Places
import ElementFinder.Proofs.XPath.Selected

/-!
# The order of what a locator finds

A live query answers in document order, and so does every strategy that asks one.  A path
expression is different: each match is found again by its look, and by the rank law the matches of
one look get its first look-alikes, whichever of them were matched.  So the elements found are
always different from each other (`standIn?_ne`), but a match may get an element that stands
before those of earlier matches of another look.

Two matches of one look are out of order exactly when the live elements are looked at from the
back (`precedes_iff_of_sameLook`); two others exactly when the elements of their ranks are.  This
is the condition `Reconciliation.KeepsOrder`.
-/

namespace ElementFinder

/-! ## Document order -/

/-- In a list without duplicates two members stand in one order only. -/
theorem not_sublist_swap {l : List Nat} (hl : l.Nodup) {y z : Nat} (hyz : [y, z].Sublist l) :
    ¬ [z, y].Sublist l := by
  induction l with
  | nil => exact absurd hyz (by simp)
  | cons a l ih =>
      intro hzy
      rw [List.nodup_cons] at hl
      rw [List.cons_sublist_cons'] at hyz hzy
      rcases hyz with hyz | ⟨rfl, hz⟩
      · rcases hzy with hzy | ⟨rfl, hy⟩
        · exact ih hl.2 hyz hzy
        · exact hl.1 (hyz.subset (by simp))
      · rcases hzy with hzy | ⟨rfl, hy⟩
        · exact hl.1 (hzy.subset (by simp))
        · exact hl.1 (hy.subset (by simp))

namespace LiveTree

/-- One element stands before another in the document. -/
def precedes (t : LiveTree) (y z : Nat) : Prop :=
  [y, z].Sublist t.documentOrder

variable {t : LiveTree}

/-- Of two elements one at most precedes the other. -/
theorem WellFormed.precedes_asymm (ht : t.WellFormed) {y z : Nat} (hyz : t.precedes y z) :
    ¬ t.precedes z y :=
  not_sublist_swap ht.documentOrder_nodup hyz

/-- Different elements are listed in document order when every two of them are. -/
theorem WellFormed.sublist_documentOrder_iff (ht : t.WellFormed) {ys : List Nat}
    (hnodup : ys.Nodup) (hlive : ∀ y ∈ ys, y ∈ t.documentOrder) :
    ys.Sublist t.documentOrder ↔ ys.Pairwise t.precedes := by
  constructor
  · intro hsub
    rw [List.pairwise_iff_forall_sublist]
    intro a b hab
    exact hab.trans hsub
  · intro hpairs
    have hall : t.documentOrder.Pairwise t.precedes := by
      rw [List.pairwise_iff_forall_sublist]
      intro a b hab
      exact hab
    have hantisymm : Std.Antisymm t.precedes :=
      ⟨fun a b hab hba => absurd hba (ht.precedes_asymm hab)⟩
    exact List.sublist_of_subperm_of_pairwise (List.subperm_of_subset hnodup hlive) hpairs hall

end LiveTree

/-! ## Stand-ins -/

namespace Reconciliation

/-- The element that stands for a matched place, by the rank law with elements claimed. -/
def standIn? (r : Reconciliation) (t : LiveTree) (x : Nat) (earlier : List (String × Nat))
    (m : String × Nat) : Option Nat :=
  if m.2 = 0 then some x
  else (r.snapshot.attributes? m.2).bind fun a => r.chosen? t x true earlier a

/-- Whether two places want the same look. -/
def sameLook (r : Reconciliation) (p q : String × Nat) : Bool :=
  (r.wanted? p).any fun a => (r.wanted? q).any fun b => a.looksLike b

/-- The matched places keep document order: of two that want the same look, neither is looked for
from the back, and of two others the stand-ins stand in order. -/
def KeepsOrder (r : Reconciliation) (t : LiveTree) (x : Nat) : Prop :=
  ∀ earlier p between q later y z, r.matched = earlier ++ p :: (between ++ q :: later) →
    r.standIn? t x earlier p = some y → r.standIn? t x (earlier ++ p :: between) q = some z →
    if r.sameLook p q then r.reverse = false else t.precedes y z

variable {r : Reconciliation} {t : LiveTree} {x : Nat} {earlier between : List (String × Nat)}
  {p q : String × Nat} {y z : Nat}

/-- A stand-in is the element itself for the root, and a look-alike for any other place. -/
theorem standIn?_cases (h : r.standIn? t x earlier p = some y) :
    (p.2 = 0 ∧ y = x) ∨
      ∃ a, r.wanted? p = some a ∧ r.chosen? t x true earlier a = some y := by
  by_cases hroot : p.2 = 0
  · left
    simp only [standIn?, hroot, if_true, Option.some.injEq] at h
    exact ⟨hroot, h.symm⟩
  · right
    simp only [standIn?, hroot, if_false, Option.bind_eq_some_iff] at h
    obtain ⟨a, ha, hchosen⟩ := h
    exact ⟨a, by simp [wanted?, hroot, ha], hchosen⟩

/-- A candidate that is chosen is one that is scanned. -/
theorem mem_scan_of_chosen? {a : Attributes} (h : r.chosen? t x true earlier a = some y) :
    y ∈ t.scan x r.reverse :=
  List.mem_of_mem_filter (List.mem_of_getElem? h)

/-- Later members of a list stand after earlier ones. -/
theorem sublist_of_getElem? {l : List Nat} {i j : Nat} (hij : i < j) (hi : l[i]? = some y)
    (hj : l[j]? = some z) : [y, z].Sublist l := by
  have hsplit : l.take j ++ l.drop j = l := List.take_append_drop j l
  have hy : y ∈ l.take j := by
    have htake : (l.take j)[i]? = some y := by
      rw [List.getElem?_take_of_lt hij, hi]
    exact List.mem_of_getElem? htake
  have hz : z ∈ l.drop j := by
    have hdrop : (l.drop j)[0]? = some z := by
      rw [List.getElem?_drop, Nat.add_zero, hj]
    exact List.mem_of_getElem? hdrop
  rw [← hsplit]
  exact (List.singleton_sublist.mpr hy).append (List.singleton_sublist.mpr hz)

/-- **Places of one look.**  The stand-ins of two places that want the same look stand in the
order in which live elements are looked at. -/
theorem standIn?_sameLook (hsame : r.sameLook p q = true)
    (hy : r.standIn? t x earlier p = some y)
    (hz : r.standIn? t x (earlier ++ p :: between) q = some z) :
    [y, z].Sublist (t.scan x r.reverse) := by
  obtain ⟨a, ha, hany⟩ := (Option.any_eq_true ..).mp hsame
  obtain ⟨b, hb, hab⟩ := (Option.any_eq_true ..).mp hany
  have hroot : ∀ {m : String × Nat} {c : Attributes}, r.wanted? m = some c → m.2 ≠ 0 := by
    intro m c hc hzero
    simp [wanted?, hzero] at hc
  rcases standIn?_cases hy with ⟨hzero, _⟩ | ⟨a', ha', hchosen⟩
  · exact absurd hzero (hroot ha)
  rcases standIn?_cases hz with ⟨hzero, _⟩ | ⟨b', hb', hchosen'⟩
  · exact absurd hzero (hroot hb)
  obtain rfl : a = a' := Option.some.inj (ha.symm.trans ha')
  obtain rfl : b = b' := Option.some.inj (hb.symm.trans hb')
  have hranks : r.alikeCount earlier a < r.alikeCount (earlier ++ p :: between) b := by
    have hsplit : earlier ++ p :: between = (earlier ++ [p]) ++ between := by simp
    have hcount := r.alikeCount_congr earlier hab
    have hhit : r.alikeCount (earlier ++ [p]) b = r.alikeCount earlier b + 1 := by
      simp [alikeCount_append, ha, hab]
    have hmore : r.alikeCount (earlier ++ [p]) b ≤
        r.alikeCount ((earlier ++ [p]) ++ between) b := by
      simp only [alikeCount, List.countP_append]
      omega
    rw [hsplit]
    omega
  simp only [chosen?, rank, if_true] at hchosen hchosen'
  rw [← t.lookAlikes_congr x r.reverse hab] at hchosen'
  exact (sublist_of_getElem? hranks hchosen hchosen').trans List.filter_sublist

/-- Stand-ins of two places other than twice the root are different. -/
theorem standIn?_ne (ht : t.WellFormed) (hx : x ∈ t.documentOrder) (hpq : p.2 ≠ q.2)
    (hy : r.standIn? t x earlier p = some y)
    (hz : r.standIn? t x (earlier ++ p :: between) q = some z) : y ≠ z := by
  have hself : x ∉ t.scan x r.reverse := by
    intro hmem
    have hbelow := (ht.mem_scan hx r.reverse).mp hmem
    exact Nat.lt_irrefl x (ht.forest.toDescending.lt_of_below hbelow)
  by_cases hsame : r.sameLook p q = true
  · have hpair := standIn?_sameLook hsame hy hz
    have hnodup := (ht.scan_nodup x r.reverse).sublist hpair
    simpa using hnodup
  intro heq
  subst heq
  rcases standIn?_cases hy with ⟨hp, rfl⟩ | ⟨a, ha, hchosen⟩
  · rcases standIn?_cases hz with ⟨hq, _⟩ | ⟨b, _, hchosen⟩
    · exact hpq (hp.trans hq.symm)
    · exact hself (mem_scan_of_chosen? hchosen)
  · rcases standIn?_cases hz with ⟨_, rfl⟩ | ⟨b, hb, hchosen'⟩
    · exact hself (mem_scan_of_chosen? hchosen)
    · have hab : a.looksLike b = true :=
        LiveTree.looksLike_of_common (List.mem_of_getElem? hchosen)
          (List.mem_of_getElem? hchosen')
      exact hsame (by simp [sameLook, ha, hb, hab])

/-- Two matches of one look are in order unless live elements are looked at from the back. -/
theorem precedes_iff_of_sameLook (ht : t.WellFormed) (hx : x ∈ t.documentOrder)
    (hsame : r.sameLook p q = true) (hy : r.standIn? t x earlier p = some y)
    (hz : r.standIn? t x (earlier ++ p :: between) q = some z) :
    t.precedes y z ↔ r.reverse = false := by
  have hpair := standIn?_sameLook hsame hy hz
  have hsub := ht.descendants_sublist hx
  cases hreverse : r.reverse with
  | false =>
      simp only [LiveTree.scan, hreverse, Bool.false_eq_true, if_false] at hpair
      exact iff_of_true (hpair.trans hsub) rfl
  | true =>
      simp only [LiveTree.scan, hreverse, if_true] at hpair
      have hback : [z, y].Sublist (t.descendants x) := by
        have hflip := hpair.reverse
        simpa using hflip
      have hprecedes : t.precedes z y := hback.trans hsub
      simpa using ht.precedes_asymm hprecedes

/-- The elements that stand for the matched places, in the order of the places. -/
def standIns (r : Reconciliation) (t : LiveTree) (x : Nat) : List Nat :=
  collect (r.standIn? t x) [] r.matched

/-- What stands in for a match is a live element. -/
theorem mem_documentOrder_of_standIn? (ht : t.WellFormed) (hx : x ∈ t.documentOrder)
    (h : r.standIn? t x earlier p = some y) : y ∈ t.documentOrder := by
  rcases standIn?_cases h with ⟨_, rfl⟩ | ⟨a, _, hchosen⟩
  · exact hx
  · exact ht.mem_documentOrder_of_mem_scan hx (mem_scan_of_chosen? hchosen)

/-- All that stand in for matches are live elements. -/
theorem mem_documentOrder_of_mem_standIns (ht : t.WellFormed) (hx : x ∈ t.documentOrder)
    (hy : y ∈ r.standIns t x) : y ∈ t.documentOrder := by
  obtain ⟨before, m, after, _, hstands⟩ := mem_collect.mp hy
  exact mem_documentOrder_of_standIn? ht hx hstands

/-- The handles found name the stand-ins. -/
theorem map_liveId?_outcomes (ht : t.Reachable) (hx : t.liveId? r.liveRoot = some x) :
    (Resolution.ofOutcomes (r.outcomes t x true)).elements.map t.liveId? =
      (r.standIns t x).map some := by
  have hlisted := ht.wellFormed.mem_documentOrder_of_liveId? hx
  rw [Resolution.ofOutcomes, outcomes, filterMap_collect, standIns]
  apply map_collect
  intro before m
  by_cases hroot : m.2 = 0
  · simp [outcome?, standIn?, hroot, Except.toOption, hx]
  cases hattributes : r.snapshot.attributes? m.2 with
  | none => simp [outcome?, standIn?, hroot, hattributes]
  | some a =>
      cases hchosen : r.chosen? t x true before a with
      | none => simp [outcome?, standIn?, hroot, hattributes, hchosen, Except.toOption]
      | some y =>
          have hy := ht.wellFormed.mem_documentOrder_of_mem_scan hlisted
            (mem_scan_of_chosen? hchosen)
          simp [outcome?, standIn?, hroot, hattributes, hchosen, Except.toOption,
            ht.liveId?_of_mem hy]

/-- Different places have different stand-ins. -/
theorem standIns_nodup (ht : t.WellFormed) (hx : x ∈ t.documentOrder)
    (hmatched : (r.matched.map Prod.snd).Nodup) : (r.standIns t x).Nodup := by
  rw [List.Nodup, standIns, pairwise_collect]
  intro before p between q after y z hsplit hy hz
  have hpq : p.2 ≠ q.2 := by
    intro heq
    rw [hsplit, List.map_append] at hmatched
    have htail := (List.nodup_append.mp hmatched).2.1
    rw [List.map_cons, List.nodup_cons] at htail
    exact htail.1 (by simp [heq])
  exact standIn?_ne ht hx hpq (by simpa using hy) (by simpa using hz)

/-- **The exact condition.**  Stand-ins are listed in document order exactly when the matched
places keep it. -/
theorem standIns_sublist_iff (ht : t.WellFormed) (hx : x ∈ t.documentOrder)
    (hmatched : (r.matched.map Prod.snd).Nodup) :
    (r.standIns t x).Sublist t.documentOrder ↔ r.KeepsOrder t x := by
  rw [ht.sublist_documentOrder_iff (standIns_nodup ht hx hmatched)
    fun y hy => mem_documentOrder_of_mem_standIns ht hx hy, standIns, pairwise_collect]
  have hpair : ∀ before p between q y z, r.standIn? t x before p = some y →
      r.standIn? t x (before ++ p :: between) q = some z →
      (t.precedes y z ↔ if r.sameLook p q then r.reverse = false else t.precedes y z) := by
    intro before p between q y z hy hz
    cases hsame : r.sameLook p q with
    | false => simp
    | true => simpa using precedes_iff_of_sameLook ht hx hsame hy hz
  constructor
  · intro h before p between q after y z hsplit hy hz
    exact (hpair before p between q y z hy hz).mp
      (h before p between q after y z hsplit hy hz)
  · intro h before p between q after y z hsplit hy hz
    exact (hpair before p between q y z hy hz).mpr
      (h before p between q after y z hsplit hy hz)

end Reconciliation

/-! ## Matches of path expressions -/

/-- Matched places show different nodes. -/
theorem Markup.nodup_of_matching {m : Markup} {n : Nat}
    (hplaces : m.places.map Prod.snd = List.range n) {expression : String}
    {matched : List (String × Nat)} (h : m.matching expression = .ok matched) :
    (matched.map Prod.snd).Nodup := by
  have hnumbers := (Markup.sublist_of_matching h).map Prod.snd
  rw [hplaces] at hnumbers
  exact hnumbers.nodup List.nodup_range

/-- Selected elements are matched at their places. -/
theorem Markup.matching_of_select {m : Markup} {n : Nat}
    (hplaces : m.places.map Prod.snd = List.range n) {expression : String} {ks : List Nat}
    (hks : ks.Pairwise (· < ·)) (hbound : ∀ k ∈ ks, k < n)
    (hselect : m.document.select (XPath.normalized expression) = .ok (ks.map .element)) :
    ∃ matched, m.matching expression = .ok matched ∧ matched.map Prod.snd = ks := by
  refine ⟨ks.filterMap fun k => m.places[k]?, ?_, ?_⟩
  · exact matching_elements (hks.imp Nat.ne_of_lt) hselect
  · have hnumbers : ∀ k ∈ ks, (m.places[k]?).map Prod.snd = some k := by
      intro k hk
      rw [← List.getElem?_map, hplaces, List.getElem?_range (hbound k hk)]
    rw [List.map_filterMap, List.filterMap_congr hnumbers, List.filterMap_some]

/-- The path to the children of the top element matches the places of their numbers. -/
theorem Markup.matching_topChildren (m : Markup) (hsize : m.document.size ≠ 0) :
    m.matching "/*/*" =
      .ok ((m.document.children 0).eraseDups.filterMap fun id => m.places[id]?) := by
  have hname : XPath.normalized "/*/*" = "/*/*" := by
    decide +kernel
  rw [matching, XPath.Document.matching, hname, XPath.select_topChildren _ hsize]
  simp only [Except.map, XPath.filterMap_owner?]

/-! ## Strategies that ask live queries -/

namespace Access

/-- A resolution fails, or lists elements in document order. -/
def Lists (t : LiveTree) (x : Access Resolution) : Prop :=
  ∃ r, x.Yields t r ∧ ∀ found, r = .ok found →
    ∃ ys : List Nat, found.elements = ys.map Handle.ofNumber ∧ ys.Sublist t.documentOrder

namespace Lists

variable {t : LiveTree} {origin : Handle} {x : Nat}

/-- A lookup that fails lists nothing out of order. -/
theorem of_error {y : Access Resolution} {e : LocatorError} (h : y.Yields t (.error e)) :
    Lists t y :=
  ⟨.error e, h, fun _ hfound => absurd hfound (by simp)⟩

/-- A problem that leaves nothing to look for. -/
theorem of_problem (d : Diagnostic) : Lists t (pure (.ofProblem d)) := by
  refine ⟨_, .pure _, ?_⟩
  intro found hfound
  obtain rfl := Except.ok.inj hfound
  exact ⟨[], rfl, List.nil_sublist _⟩

/-- A query lists what it finds in document order. -/
theorem query (ht : t.WellFormed) (hx : t.liveId? origin = some x) (steps : List QueryStep)
    (diagnostics : List Diagnostic) :
    Lists t (ElementQuery.resolve ⟨origin, steps⟩ .all diagnostics) := by
  obtain ⟨ys, hquery, hsub, _⟩ := ht.query_live hx steps
  refine ⟨_, (Yields.query hquery).bind (.pure _), ?_⟩
  intro found hfound
  obtain rfl := Except.ok.inj hfound
  exact ⟨ys, rfl, hsub⟩

/-- A chain lists what it leads to in document order. -/
theorem chain (ht : t.Reachable) (hx : t.liveId? origin = some x) (c : Chain)
    (diagnostics : List Diagnostic) :
    Lists t (do return ⟨← c.resolve origin .all, diagnostics⟩) := by
  by_cases hc : c = []
  · subst hc
    have hempty : (Chain.resolve [] origin .all).Yields t
        (.error (.emptyChain (Chain.display []))) :=
      Yields.bind_error (Yields.throw _)
    exact of_error hempty.bind_error
  have hyields := Chain.resolve_yields ht hx hc .all
  cases hresult : t.evaluate false [x] c with
  | error e =>
      rw [hresult] at hyields
      exact of_error (Yields.bind_error hyields)
  | ok ys =>
      rw [hresult] at hyields
      refine ⟨_, Yields.bind hyields (.pure _), ?_⟩
      intro found hfound
      obtain rfl := Except.ok.inj hfound
      exact ⟨ys, rfl, LiveTree.evaluate_sublist c false
        (LiveTree.finds_start ht.wellFormed hx).ordered hresult⟩

/-- **Live queries keep order.**  Every strategy but path expressions lists elements in document
order. -/
theorem locator (ht : t.Reachable) (hx : t.liveId? origin = some x) (options : ResolverOptions)
    {l : Locator} (hl : l.strategy ≠ .xpath) : Lists t (l.resolve options origin .all) := by
  have hwf := ht.wellFormed
  rw [Locator.resolve]
  cases hstrategy : l.strategy with
  | id => exact query hwf hx _ []
  | accessibilityId => exact query hwf hx _ []
  | identifier => exact query hwf hx _ []
  | name =>
      cases hp : Predicate.equals "name" l.value with
      | error e =>
          have hfails : (namedPredicate l.value).Yields t (.error (.broken e.message)) := by
            rw [namedPredicate, hp]
            exact Yields.throw _
          exact of_error hfails.bind_error
      | ok p =>
          have hgives : (namedPredicate l.value).Yields t (.ok p) := by
            rw [namedPredicate, hp]
            exact Yields.pure _
          obtain ⟨r, hr, hlists⟩ :=
            query hwf hx (ElementQuery.satisfyingBelow origin p).steps []
          exact ⟨r, hgives.bind hr, hlists⟩
  | className => exact query hwf hx _ _
  | predicate =>
      cases hp : Predicate.parse l.value with
      | error e => exact of_problem _
      | ok p => exact query hwf hx (ElementQuery.satisfyingBelow origin p).steps []
  | classChain => exact chain ht hx _ _
  | xpath => exact absurd hstrategy hl

end Lists

end Access

/-! ## All strategies -/

/-- The places that a path expression matches in a snapshot, as they are looked for again. -/
def Locator.reconciliation (l : Locator) (options : ResolverOptions) (origin : Handle)
    (s : Snapshot) (matched : List (String × Nat)) : Reconciliation :=
  ⟨matched, s, origin, options.reverseOnLast && XPath.usesLast l.value⟩

namespace LiveTree

/-- The resolution of a path expression, in the order of the matches. -/
theorem Reachable.xpath_yields {t : LiveTree} (ht : t.Reachable) {origin : Handle} {x : Nat}
    (hx : t.liveId? origin = some x) {options : ResolverOptions}
    (hunique : options.claimUnique = true) {l : Locator} (hl : l.strategy = .xpath) :
    ∃ found : Resolution, (l.resolve options origin .all).Yields t (.ok found) ∧
      ∃ ids : List Nat, found.elements.map t.liveId? = ids.map some ∧ ids.Nodup ∧
        (∀ y ∈ ids, y ∈ t.documentOrder) ∧
        (ids.Sublist t.documentOrder ↔
          ∀ s matched, t.snapshot origin = .ok s →
            (s.markup options.indexPathRoot).matching l.value = .ok matched →
              (l.reconciliation options origin s matched).KeepsOrder t x) := by
  have hwf := ht.wellFormed
  have hlisted := hwf.mem_documentOrder_of_liveId? hx
  obtain ⟨c, hsnapshot, hc, hpos⟩ := hwf.snapshot_live hx
  let s := c.snapshot
  have hplaces := hc.map_snd_places hwf hpos options.indexPathRoot
  have hlooks := Access.Yields.snapshot hsnapshot
  simp only [Locator.resolve, hl, resolveXPath]
  cases hmatching : (s.markup options.indexPathRoot).matching l.value with
  | error e =>
      refine ⟨.ofProblem (.invalidXPath l.value e.reason), hlooks.bind ?_, [], rfl, by simp,
        by simp, ?_⟩
      · rw [hmatching]
        exact .pure _
      · refine iff_of_true (List.nil_sublist _) ?_
        intro s' matched hsnapshot' hmatching'
        obtain rfl : s = s' := Except.ok.inj (hsnapshot.symm.trans hsnapshot')
        exact absurd (hmatching.symm.trans hmatching') (by simp)
  | ok matched =>
      let r := l.reconciliation options origin s matched
      have hmatched : (r.matched.map Prod.snd).Nodup :=
        Markup.nodup_of_matching hplaces hmatching
      have hrun := Reconciliation.run_yields (r := r) ht hx options
      rw [hunique] at hrun
      refine ⟨_, hlooks.bind ?_, r.standIns t x, Reconciliation.map_liveId?_outcomes ht hx,
        Reconciliation.standIns_nodup hwf hlisted hmatched,
        fun y hy => Reconciliation.mem_documentOrder_of_mem_standIns hwf hlisted hy, ?_⟩
      · rw [hmatching]
        exact hrun
      · rw [Reconciliation.standIns_sublist_iff hwf hlisted hmatched]
        constructor
        · intro hkeeps s' matched' hsnapshot' hmatching'
          obtain rfl : s = s' := Except.ok.inj (hsnapshot.symm.trans hsnapshot')
          obtain rfl : matched = matched' :=
            Except.ok.inj (hmatching.symm.trans hmatching')
          exact hkeeps
        · intro hall
          exact hall s matched hsnapshot hmatching

/-- **Elements are distinct, and in document order exactly when the matches keep it.**  With
elements claimed, whatever locator is resolved from a live element, the handles found name
different live elements.  They stand in document order for every strategy but path expressions,
and for these exactly when the matched places keep document order: a match gets the live
look-alike of its rank, which may stand before the elements of earlier matches. -/
theorem Reachable.resolve_all_order {t : LiveTree} (ht : t.Reachable) {origin : Handle} {x : Nat}
    (hx : t.liveId? origin = some x) (options : ResolverOptions)
    (hunique : options.claimUnique = true) (l : Locator) {found : Resolution}
    (hfound : (l.resolve options origin .all).runStill t = .ok found) :
    found.elements.Nodup ∧
      ∃ ids : List Nat, found.elements.map t.liveId? = ids.map some ∧ ids.Nodup ∧
        (∀ y ∈ ids, y ∈ t.documentOrder) ∧
        (ids.Sublist t.documentOrder ↔
          (l.strategy = .xpath → ∀ s matched, t.snapshot origin = .ok s →
            (s.markup options.indexPathRoot).matching l.value = .ok matched →
              (l.reconciliation options origin s matched).KeepsOrder t x)) := by
  have hdistinct : ∀ ids : List Nat, found.elements.map t.liveId? = ids.map some →
      ids.Nodup → found.elements.Nodup := by
    intro ids hnames hnodup
    have hnumbers : (found.elements.map t.liveId?).Nodup := by
      rw [hnames]
      exact hnodup.map (Option.some_injective Nat)
    exact hnumbers.of_map t.liveId?
  by_cases hl : l.strategy = .xpath
  · obtain ⟨found', hyields, ids, hnames, hnodup, hlive, horder⟩ := ht.xpath_yields hx hunique hl
    obtain rfl : found' = found := Except.ok.inj (hyields.runStill_eq.symm.trans hfound)
    refine ⟨hdistinct ids hnames hnodup, ids, hnames, hnodup, hlive, ?_⟩
    rw [horder]
    exact ⟨fun h _ => h, fun h => h hl⟩
  · obtain ⟨r, hyields, hlists⟩ := Access.Lists.locator ht hx options hl
    obtain ⟨ys, helements, hsub⟩ := hlists found (hyields.runStill_eq.symm.trans hfound)
    have hnames : found.elements.map t.liveId? = ys.map some := by
      rw [helements, List.map_map]
      apply List.map_congr_left
      intro y hy
      rw [Function.comp_apply, ht.liveId?_of_mem (hsub.subset hy)]
    have hnodup : ys.Nodup := hsub.nodup ht.wellFormed.documentOrder_nodup
    refine ⟨hdistinct ys hnames hnodup, ys, hnames, hnodup, fun y hy => hsub.subset hy, ?_⟩
    exact iff_of_true hsub fun h => absurd h hl

end LiveTree

/-- A screen whose last button has a twin inside the cell before it. -/
def Fixture.nestedTwin : Fixture :=
  .mk { label := "screen" }
    [.mk { elementType := .cell } [.mk { elementType := .button, label := "edit" } []],
     .mk { elementType := .button, label := "delete" } [],
     .mk { elementType := .button, label := "edit" } []]

namespace LiveTree

/-- The example is reachable. -/
theorem reachable_nestedTwin : (ofFixture .nestedTwin).Reachable :=
  .load .nestedTwin (by decide)

/-- The children of the screen are matched; the twin inside the cell stands for the last. -/
theorem runStill_nestedTwin :
    (Locator.resolve {} ⟨.xpath, "/*/*"⟩ ⟨"node-0"⟩ .all).runStill (ofFixture .nestedTwin) =
      .ok ⟨[.ofNumber 1, .ofNumber 3, .ofNumber 2], []⟩ := by
  let t := ofFixture .nestedTwin
  let s := (t.capture? 0).elim default Capture.snapshot
  have hroot : t.liveId? ⟨"node-0"⟩ = some 0 := by decide
  have hsnapshot : t.snapshot ⟨"node-0"⟩ = .ok s := by
    simp only [snapshot, hroot, Option.bind_some]
    rfl
  have hplaces : ((s.markup "top").document.children 0).eraseDups.filterMap
      (fun id => (s.markup "top").places[id]?) = [("top,0", 1), ("top,1", 3), ("top,2", 4)] := by
    decide +kernel
  have hmatching : (s.markup "top").matching "/*/*" =
      .ok [("top,0", 1), ("top,1", 3), ("top,2", 4)] := by
    rw [Markup.matching_topChildren _ (by decide +kernel), hplaces]
  let r := Locator.reconciliation ⟨.xpath, "/*/*"⟩ {} ⟨"node-0"⟩ s
    [("top,0", 1), ("top,1", 3), ("top,2", 4)]
  have houts : r.outcomes t 0 true = [.ok (.ofNumber 1), .ok (.ofNumber 3), .ok (.ofNumber 2)] := by
    decide +kernel
  have hrun := Reconciliation.run_yields (r := r) reachable_nestedTwin hroot {}
  rw [houts] at hrun
  apply Access.Yields.runStill_eq
  refine (Access.Yields.snapshot hsnapshot).bind ?_
  rw [hmatching]
  exact hrun

/-- The elements found are not in document order. -/
theorem not_ordered_nestedTwin :
    ∃ found : Resolution,
      (Locator.resolve {} ⟨.xpath, "/*/*"⟩ ⟨"node-0"⟩ .all).runStill (ofFixture .nestedTwin) =
        .ok found ∧
      found.elements.map (ofFixture .nestedTwin).liveId? = [1, 3, 2].map some ∧
      ¬ [1, 3, 2].Sublist (ofFixture .nestedTwin).documentOrder := by
  refine ⟨_, runStill_nestedTwin, ?_, ?_⟩
  · decide +kernel
  · decide +kernel

/-- The elements found for the children of the screen are distinct, and whether they are in order
is decided by the places matched. -/
theorem resolve_all_order_nestedTwin :
    (ofFixture .nestedTwin).Reachable ∧
    (ofFixture .nestedTwin).liveId? ⟨"node-0"⟩ = some 0 ∧
    (Locator.resolve {} ⟨.xpath, "/*/*"⟩ ⟨"node-0"⟩ .all).runStill (ofFixture .nestedTwin) =
      .ok ⟨[.ofNumber 1, .ofNumber 3, .ofNumber 2], []⟩ ∧
    [Handle.ofNumber 1, .ofNumber 3, .ofNumber 2].Nodup ∧
    ∃ ids : List Nat,
      [Handle.ofNumber 1, .ofNumber 3, .ofNumber 2].map (ofFixture .nestedTwin).liveId? =
        ids.map some ∧
      ids.Nodup ∧ (∀ y ∈ ids, y ∈ (ofFixture .nestedTwin).documentOrder) ∧
      (ids.Sublist (ofFixture .nestedTwin).documentOrder ↔
        (Strategy.xpath = .xpath → ∀ s matched,
          (ofFixture .nestedTwin).snapshot ⟨"node-0"⟩ = .ok s →
          (s.markup "top").matching "/*/*" = .ok matched →
            (Locator.reconciliation ⟨.xpath, "/*/*"⟩ {} ⟨"node-0"⟩ s matched).KeepsOrder
              (ofFixture .nestedTwin) 0)) := by
  have hroot : (ofFixture .nestedTwin).liveId? ⟨"node-0"⟩ = some 0 := by decide
  exact ⟨reachable_nestedTwin, hroot, runStill_nestedTwin,
    reachable_nestedTwin.resolve_all_order hroot {} rfl ⟨.xpath, "/*/*"⟩
      runStill_nestedTwin⟩

end LiveTree

end ElementFinder
