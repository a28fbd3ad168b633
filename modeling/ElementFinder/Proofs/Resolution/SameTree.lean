import ElementFinder.Proofs.Resolution.Exact

/-!
# Finding the nodes of a snapshot in the tree it was taken of

On a tree that did not change since the snapshot every matched node has an element of its own
among the candidates.  This file says what that is worth.  If the elements can be told apart, each
match gets its own element (`Captured.run_exact`).  If they cannot, but each looks like itself,
each match still gets some element: the matches of one look are different nodes, their own elements
are among the look-alikes, and so there are at least as many look-alikes as matches that want them
(`Captured.exists_chosen`).  Hence nothing is reported, and what the first match gets does not
depend on the matches after it (`Captured.run_first`).

Whatever was matched, the handles found name live elements (`live_of_mem_outcomes`).
-/

namespace ElementFinder

/-! ## Collecting from every member -/

section Collect

variable {α β : Type} {f : List α → α → Option β}

/-- What is collected from the first member is the first thing collected. -/
theorem collect_take_one {earlier rest : List α}
    (h : ∀ a, rest.head? = some a → (f earlier a).isSome) :
    collect f earlier (rest.take 1) = (collect f earlier rest).take 1 := by
  cases rest with
  | nil => rfl
  | cons a rest =>
      obtain ⟨y, hy⟩ := Option.isSome_iff_exists.mp (h a rfl)
      simp [collect, hy]

/-- If every member gives a proper value, so does the whole list. -/
theorem exists_collect_eq_map {ε γ : Type} {f : List α → α → Option (Except ε γ)}
    {earlier rest : List α}
    (h : ∀ before a after, rest = before ++ a :: after →
      ∃ y, f (earlier ++ before) a = some (.ok y)) :
    ∃ ys : List γ, collect f earlier rest = ys.map .ok := by
  induction rest generalizing earlier with
  | nil => exact ⟨[], rfl⟩
  | cons a rest ih =>
      obtain ⟨y, hy⟩ := h [] a rest rfl
      rw [List.append_nil] at hy
      have hlater : ∀ before b after, rest = before ++ b :: after →
          ∃ z, f (earlier ++ [a] ++ before) b = some (.ok z) := by
        intro before b after hsplit
        obtain ⟨z, hz⟩ := h (a :: before) b after (by rw [hsplit]; rfl)
        exact ⟨z, by simpa using hz⟩
      obtain ⟨ys, hys⟩ := ih hlater
      exact ⟨y :: ys, by simp [collect, hy, hys]⟩

end Collect

theorem Resolution.ofOutcomes_map_ok (found : List Handle) :
    ofOutcomes (found.map .ok) = ⟨found, []⟩ := by
  simpa using ofOutcomes_ok found id

namespace LiveTree

/-- No coordinate of a frame and no number value in the tree is not-a-number. -/
def Numeric (t : LiveTree) : Prop :=
  ∀ y ∈ t.documentOrder, (t.attributes? y).all Attributes.isNumeric = true

end LiveTree

namespace Reconciliation

variable {r : Reconciliation} {t : LiveTree} {x : Nat} {c : Capture} {claimUnique : Bool}

/-! ## Handles found are live -/

/-- The handles found name live elements. -/
theorem live_of_mem_outcomes (ht : t.Reachable) (hx : t.liveId? r.liveRoot = some x)
    {h : Handle} (hh : h ∈ (Resolution.ofOutcomes (r.outcomes t x claimUnique)).elements) :
    ∃ y, t.liveId? h = some y := by
  have hlisted := ht.wellFormed.mem_documentOrder_of_liveId? hx
  obtain ⟨out, hout, hok⟩ := List.mem_filterMap.mp hh
  obtain ⟨before, m, after, -, hgets⟩ := mem_collect.mp hout
  rw [List.nil_append] at hgets
  by_cases hroot : m.2 = 0
  · simp only [outcome?, hroot, if_true, Option.some.injEq] at hgets
    subst hgets
    obtain rfl : r.liveRoot = h := by simpa [Except.toOption] using hok
    exact ⟨x, hx⟩
  · simp only [outcome?, hroot, if_false, Option.map_eq_some_iff] at hgets
    obtain ⟨a, -, rfl⟩ := hgets
    cases hchosen : r.chosen? t x claimUnique before a with
    | none => simp [hchosen, Except.toOption] at hok
    | some y =>
        obtain rfl : Handle.ofNumber y = h := by simpa [hchosen, Except.toOption] using hok
        have hscan := List.mem_of_mem_filter (List.mem_of_getElem? hchosen)
        exact ⟨y, ht.liveId?_of_mem
          (ht.wellFormed.mem_documentOrder_of_mem_scan hlisted hscan)⟩

/-! ## Matches in the snapshot of the tree -/

/-- The matches are different nodes of a capture. -/
structure Captured (r : Reconciliation) (c : Capture) : Prop where
  snapshot_eq : r.snapshot = c.snapshot
  nodup : (r.matched.map Prod.snd).Nodup
  lt_size : ∀ m ∈ r.matched, m.2 < c.snapshot.size

namespace Captured

/-- A matched node has attributes. -/
theorem isSome_attributes (hr : r.Captured c) (hc : c.Faithful t x) {m : String × Nat}
    (hm : m ∈ r.matched) : (r.snapshot.attributes? m.2).isSome = true := by
  have hlt := hr.lt_size m hm
  obtain ⟨node, hnode⟩ := hc.node_live hlt
  rw [hr.snapshot_eq, hc.attributes?_liveOf hlt, LiveTree.attributes?, hnode]
  rfl

/-- The element of a matched node other than the root lies below the root and has the attributes
of the node. -/
theorem own_element (hr : r.Captured c) (hc : c.Faithful t x) {m : String × Nat}
    (hm : m ∈ r.matched) (hroot : m.2 ≠ 0) :
    c.liveOf m.2 ∈ t.descendants x ∧
      ∃ a, r.snapshot.attributes? m.2 = some a ∧ t.attributes? (c.liveOf m.2) = some a := by
  have hlt := hr.lt_size m hm
  refine ⟨List.mem_of_getElem? (hc.getElem?_descendants hlt hroot), ?_⟩
  obtain ⟨node, hnode⟩ := hc.node_live hlt
  have hlive : t.attributes? (c.liveOf m.2) = some node.attributes := by
    rw [LiveTree.attributes?, hnode, Option.map_some]
  exact ⟨node.attributes, by rw [hr.snapshot_eq, hc.attributes?_liveOf hlt, hlive], hlive⟩

/-- If the elements can be told apart, every match gets its own element. -/
theorem run_exact (hr : r.Captured c) (hc : c.Faithful t x) (ht : t.Reachable)
    (hx : t.liveId? r.liveRoot = some x) (hapart : t.Distinguishable x)
    (options : ResolverOptions) :
    (r.run options).Yields t (.ok ⟨r.matched.map (r.exact c.liveOf), []⟩) := by
  have hwf := ht.wellFormed
  have houts : r.outcomes t x options.claimUnique =
      r.matched.map fun m => .ok (r.exact c.liveOf m) := by
    refine outcomes_exact hwf hapart hr.nodup (fun m hm hroot => hr.own_element hc hm hroot) ?_
      options.claimUnique
    intro m hm m' hm' heq
    exact hc.liveOf_inj hwf (hr.lt_size m hm) (hr.lt_size m' hm') heq
  have hrun := run_yields (r := r) ht hx options
  rwa [houts, Resolution.ofOutcomes_ok] at hrun

/-- **There are enough look-alikes.**  The own elements of a match and of the earlier matches that
want the same look are different look-alikes, so one is left for the match. -/
theorem exists_chosen (hr : r.Captured c) (hc : c.Faithful t x) (ht : t.WellFormed)
    (hx : x ∈ t.documentOrder) (hnumeric : t.Numeric) {before after : List (String × Nat)}
    {m : String × Nat} (hsplit : r.matched = before ++ m :: after) (hroot : m.2 ≠ 0)
    {a : Attributes} (ha : r.snapshot.attributes? m.2 = some a) :
    ∃ y, r.chosen? t x claimUnique before a = some y := by
  let wants (m' : String × Nat) : Bool := (r.wanted? m').any fun b => b.looksLike a
  let rivals := before.filter wants ++ [m]
  have hsub : rivals.Sublist r.matched := by
    rw [hsplit]
    exact List.filter_sublist.append (List.singleton_sublist.mpr List.mem_cons_self)
  -- the match itself looks as wanted, because its attributes are numeric
  have hself : wants m = true := by
    obtain ⟨hbelow, b, hb, hlive⟩ := hr.own_element hc (hsub.subset (by simp [rivals])) hroot
    obtain rfl : a = b := Option.some.inj (ha.symm.trans hb)
    have hproper := hnumeric _ ((ht.descendants_sublist hx).subset hbelow)
    rw [hlive, Option.all_some] at hproper
    simp [wants, wanted?, hroot, ha, Attributes.looksLike_self hproper]
  have howned : ∀ m' ∈ rivals, c.liveOf m'.2 ∈ t.lookAlikes x r.reverse a := by
    intro m' hm'
    have hwants : wants m' = true := by
      rcases List.mem_append.mp hm' with hearlier | hlast
      · exact (List.mem_filter.mp hearlier).2
      · rwa [List.mem_singleton.mp hlast]
    obtain ⟨b, hwanted, hba⟩ := (Option.any_eq_true ..).mp hwants
    have hroot' : m'.2 ≠ 0 := by
      intro hzero
      simp [wanted?, hzero] at hwanted
    obtain ⟨hbelow, b', hb', hlive⟩ := hr.own_element hc (hsub.subset hm') hroot'
    obtain rfl : b' = b := by simpa [wanted?, hroot', hb'] using hwanted
    have hscan : c.liveOf m'.2 ∈ t.scan x r.reverse :=
      (ht.mem_scan hx r.reverse).mpr ((ht.mem_descendants hx).mp hbelow)
    refine List.mem_filter.mpr ⟨hscan, ?_⟩
    rw [hlive, Option.any_some]
    exact Attributes.partialEquality_looksLike.symm hba
  have hdistinct : (rivals.map fun m' => c.liveOf m'.2).Nodup := by
    have hnodes : (rivals.map Prod.snd).Nodup := hr.nodup.sublist (hsub.map Prod.snd)
    have hmaps : rivals.map (fun m' => c.liveOf m'.2) = (rivals.map Prod.snd).map c.liveOf := by
      rw [List.map_map]
      rfl
    rw [hmaps]
    refine List.Nodup.map_on ?_ hnodes
    intro j hj k hk heq
    obtain ⟨m', hm', rfl⟩ := List.mem_map.mp hj
    obtain ⟨m'', hm'', rfl⟩ := List.mem_map.mp hk
    exact hc.liveOf_inj ht (hr.lt_size _ (hsub.subset hm')) (hr.lt_size _ (hsub.subset hm'')) heq
  have henough : r.rank claimUnique before a < (t.lookAlikes x r.reverse a).length := by
    have hle : (rivals.map fun m' => c.liveOf m'.2).length ≤
        (t.lookAlikes x r.reverse a).length := by
      apply (List.subperm_of_subset hdistinct ?_).length_le
      intro y hy
      obtain ⟨m', hm', rfl⟩ := List.mem_map.mp hy
      exact howned m' hm'
    have hcount : r.rank claimUnique before a ≤ (before.filter wants).length := by
      cases claimUnique with
      | false => exact Nat.zero_le _
      | true => exact Nat.le_of_eq List.countP_eq_length_filter
    simp only [rivals, List.length_map, List.length_append, List.length_singleton] at hle
    omega
  exact ⟨_, List.getElem?_eq_getElem henough⟩

/-- **Nothing is missed, and the first match does not see the others.**  Finding the first match
alone gives the first of the elements found for all matches; neither reports anything. -/
theorem run_first (hr : r.Captured c) (hc : c.Faithful t x) (ht : t.Reachable)
    (hx : t.liveId? r.liveRoot = some x) (hnumeric : t.Numeric) (options : ResolverOptions) :
    ∃ found : List Handle, (r.run options).Yields t (.ok ⟨found, []⟩) ∧
      ({ r with matched := r.matched.take 1 }.run options).Yields t
        (.ok ⟨found.take 1, []⟩) := by
  have hwf := ht.wellFormed
  have hlisted := hwf.mem_documentOrder_of_liveId? hx
  have hgets : ∀ before m after, r.matched = before ++ m :: after →
      ∃ h, r.outcome? t x options.claimUnique ([] ++ before) m = some (.ok h) := by
    intro before m after hsplit
    by_cases hroot : m.2 = 0
    · exact ⟨r.liveRoot, by simp [outcome?, hroot]⟩
    · have hm : m ∈ r.matched := by simp [hsplit]
      obtain ⟨-, a, ha, -⟩ := hr.own_element hc hm hroot
      obtain ⟨y, hy⟩ : ∃ y, r.chosen? t x options.claimUnique before a = some y :=
        hr.exists_chosen hc hwf hlisted hnumeric hsplit hroot ha
      exact ⟨.ofNumber y, by simp [outcome?, hroot, ha, hy]⟩
  obtain ⟨found, hfound⟩ := exists_collect_eq_map hgets
  have hall := run_yields (r := r) ht hx options
  have hone := run_yields (r := { r with matched := r.matched.take 1 }) ht hx options
  have hfirst : outcomes { r with matched := r.matched.take 1 } t x options.claimUnique =
      (found.take 1).map .ok := by
    have htake : collect (r.outcome? t x options.claimUnique) [] (r.matched.take 1) =
        (collect (r.outcome? t x options.claimUnique) [] r.matched).take 1 := by
      apply collect_take_one
      intro m hm
      obtain ⟨rest, hrest⟩ := List.head?_eq_some_iff.mp hm
      obtain ⟨h, hh⟩ := hgets [] m rest hrest
      exact Option.isSome_of_eq_some hh
    rw [hfound, ← List.map_take] at htake
    exact htake
  refine ⟨found, ?_, ?_⟩
  · rwa [outcomes, hfound, Resolution.ofOutcomes_map_ok] at hall
  · rwa [hfirst, Resolution.ofOutcomes_map_ok] at hone

/-- What an expression matches in a capture are different nodes of it. -/
theorem of_matching (hc : c.Faithful t x) (ht : t.WellFormed) (hpos : 0 < c.snapshot.size)
    {rootPath expression : String} {matched : List (String × Nat)}
    (h : (c.snapshot.markup rootPath).matching expression = .ok matched) (liveRoot : Handle)
    (reverse : Bool) : Captured ⟨matched, c.snapshot, liveRoot, reverse⟩ c where
  snapshot_eq := rfl
  nodup := Markup.nodup_of_matching (hc.map_snd_places ht hpos rootPath) h
  lt_size := fun _ hm =>
    (Markup.getElem?_of_matching (hc.map_snd_places ht hpos rootPath) h hm).1

/-- The matches that a mode wants are matches. -/
theorem apply (hr : r.Captured c) (mode : MatchMode) :
    Captured { r with matched := mode.apply r.matched } c := by
  have hsub : (mode.apply r.matched).Sublist r.matched := by
    cases mode with
    | first => exact List.take_sublist 1 r.matched
    | all => exact List.Sublist.refl _
  exact ⟨hr.snapshot_eq, hr.nodup.sublist (hsub.map Prod.snd),
    fun m hm => hr.lt_size m (hsub.subset hm)⟩

end Captured

end Reconciliation

/-! ## Path expressions -/

namespace LiveTree

variable {t : LiveTree} {origin : Handle} {x : Nat}

/-- An expression that selects nodes leads to what its matches are found as. -/
theorem resolveXPath_of_matching {s : Snapshot} (hsnapshot : t.snapshot origin = .ok s)
    {options : ResolverOptions} {expression : String} {matched : List (String × Nat)}
    (hmatching : (s.markup options.indexPathRoot).matching expression = .ok matched)
    {mode : MatchMode} {result : Except LocatorError Resolution}
    (hrun : (Reconciliation.run ⟨mode.apply matched, s, origin,
      options.reverseOnLast && XPath.usesLast expression⟩ options).Yields t result) :
    (resolveXPath options expression origin mode).Yields t result := by
  refine (Access.Yields.snapshot hsnapshot).bind ?_
  rw [hmatching]
  exact hrun

/-- A path expression is reported in every mode, or what it matches in a capture is found
again, as much of it as the mode wants. -/
theorem WellFormed.resolveXPath_cases (ht : t.WellFormed) (hx : t.liveId? origin = some x)
    (options : ResolverOptions) (expression : String) :
    (∃ d, ∀ mode,
      (resolveXPath options expression origin mode).Yields t (.ok (.ofProblem d))) ∨
    ∃ (r : Reconciliation) (c : Capture), r.Captured c ∧ c.Faithful t x ∧
      r.liveRoot = origin ∧ ∀ mode result,
        ({ r with matched := mode.apply r.matched }.run options).Yields t result →
          (resolveXPath options expression origin mode).Yields t result := by
  obtain ⟨c, hsnapshot, hc, hpos⟩ := ht.snapshot_live hx
  cases hmatching : (c.snapshot.markup options.indexPathRoot).matching expression with
  | error e =>
      refine .inl ⟨.invalidXPath expression e.reason, fun mode => ?_⟩
      refine (Access.Yields.snapshot hsnapshot).bind ?_
      rw [hmatching]
      exact .pure _
  | ok matched =>
      have hcaptured := Reconciliation.Captured.of_matching hc ht hpos hmatching origin
        (options.reverseOnLast && XPath.usesLast expression)
      exact .inr ⟨_, c, hcaptured, hc, rfl, fun mode result hrun =>
        resolveXPath_of_matching hsnapshot hmatching hrun⟩

end LiveTree

end ElementFinder
