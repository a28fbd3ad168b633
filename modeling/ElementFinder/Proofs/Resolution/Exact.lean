import ElementFinder.Proofs.Resolution.Order
import ElementFinder.Proofs.Snapshot.Paths

/-!
# Path expressions find what they match

A match of a path expression is found again by its look alone.  When the elements below the root
can be told apart by their looks, and each looks like itself, every match has one look-alike, its
own element, so the rank law leaves no choice: no match is missed, none is mixed up, and the
options of the resolution do not matter.

`Reachable.resolve_xpath_exact` joins the four ways of naming an element: the numbers of the live
tree, the places in the snapshot, the index paths of the markup, and the handles found.
-/

namespace ElementFinder

/-! ## Looking like oneself -/

/-- A value that is no number, or a proper one. -/
def AttributeValue.isNumeric : AttributeValue → Bool
  | number n => !n.isNaN
  | _ => true

namespace Attributes

/-- No coordinate of the frame and no number value is not-a-number. -/
def isNumeric (a : Attributes) : Bool :=
  !a.frame.x.isNaN && !a.frame.y.isNaN && !a.frame.width.isNaN && !a.frame.height.isNaN &&
    a.value.all AttributeValue.isNumeric

/-- A number that clients see as the value is the value. -/
theorem value_of_derivedValue? {a : Attributes} {n : Binary64}
    (h : a.derivedValue? = some (.number n)) : a.value = some (.number n) := by
  have hproper : ∀ {v : AttributeValue}, a.properValue? = some v → a.value = some v :=
    fun hv => (Option.filter_eq_some_iff.mp hv).1
  unfold derivedValue? at h
  split at h
  · cases hvalue : a.value with
    | none => simp [hvalue] at h
    | some v => simpa [hvalue] using h
  split at h
  · cases hvalue : a.properValue? with
    | none => simp [hvalue] at h
    | some v =>
        obtain rfl : v = .number n := by simpa [hvalue] using h
        exact hproper hvalue
  split at h
  · simp at h
  split at h
  · split at h
    · rename_i v _ hvalue
      obtain rfl := Option.some.inj h
      exact hproper hvalue
    · simp at h
    · exact h
  · exact h

/-- Numeric attributes look like themselves. -/
theorem looksLike_self {a : Attributes} (h : a.isNumeric = true) : a.looksLike a = true := by
  simp only [isNumeric, Bool.and_eq_true, Bool.not_eq_true'] at h
  obtain ⟨⟨⟨⟨hx, hy⟩, hwidth⟩, hheight⟩, hvalue⟩ := h
  have hframe : a.frame.eqv a.frame = true := by
    simp [Rect.eqv, Binary64.eqv_self hx, Binary64.eqv_self hy, Binary64.eqv_self hwidth,
      Binary64.eqv_self hheight]
  have hshown : optionEqv AttributeValue.eqv a.derivedValue? a.derivedValue? = true := by
    cases hderived : a.derivedValue? with
    | none => rfl
    | some v =>
        cases v with
        | bool flag => simp [optionEqv, AttributeValue.eqv]
        | text content => simp [optionEqv, AttributeValue.eqv]
        | number n =>
            rw [value_of_derivedValue? hderived] at hvalue
            exact Binary64.eqv_self (by simpa [AttributeValue.isNumeric] using hvalue)
  simp [looksLike, hframe, hshown]

end Attributes

namespace LiveTree

/-- Two live elements look alike. -/
def alike (t : LiveTree) (y z : Nat) : Bool :=
  (t.attributes? y).any fun a => (t.attributes? z).any a.looksLike

/-- The elements below `x` can be told apart by their looks, and each looks like itself. -/
structure Distinguishable (t : LiveTree) (x : Nat) : Prop where
  apart : ∀ y ∈ t.descendants x, ∀ z ∈ t.descendants x, y ≠ z → t.alike y z = false
  numeric : ∀ y ∈ t.descendants x, (t.attributes? y).all Attributes.isNumeric = true

/-- In a list without duplicates a test that only one member passes selects that member. -/
theorem filter_eq_singleton {l : List Nat} (hl : l.Nodup) {y : Nat} (hy : y ∈ l)
    {p : Nat → Bool} (hp : ∀ z ∈ l, p z = true ↔ z = y) : l.filter p = [y] := by
  have hsame : l.filter p = l.filter (· == y) := by
    apply List.filter_congr
    intro z hz
    rw [Bool.eq_iff_iff, hp z hz, beq_iff_eq]
  rw [hsame, List.filter_beq, List.count_eq_one_of_mem hl hy]
  rfl

/-- An element that can be told apart is its only look-alike. -/
theorem Distinguishable.lookAlikes_eq {t : LiveTree} {x y : Nat} (h : t.Distinguishable x)
    (ht : t.WellFormed) (hy : y ∈ t.descendants x) {a : Attributes}
    (ha : t.attributes? y = some a) (reverse : Bool) : t.lookAlikes x reverse a = [y] := by
  have hscan : ∀ z, z ∈ t.scan x reverse ↔ z ∈ t.descendants x := by
    intro z
    cases reverse with
    | false => exact Iff.rfl
    | true => exact List.mem_reverse
  refine filter_eq_singleton (ht.scan_nodup x reverse) ((hscan y).mpr hy) ?_
  intro z hz
  constructor
  · intro hlooks
    by_contra hne
    have hapart := h.apart y hy z ((hscan z).mp hz) (Ne.symm hne)
    rw [alike, ha, Option.any_some, hlooks] at hapart
    exact absurd hapart (by simp)
  · intro heq
    subst heq
    have hnumeric := h.numeric z hy
    rw [ha, Option.all_some] at hnumeric
    simpa [ha] using Attributes.looksLike_self hnumeric

end LiveTree

/-! ## What every match gets -/

/-- What is collected is what every member gives when nothing depends on the members before. -/
theorem collect_eq_map {α β : Type} {f : List α → α → Option β} {g : α → β}
    {earlier rest : List α}
    (h : ∀ before a after, rest = before ++ a :: after → f (earlier ++ before) a = some (g a)) :
    collect f earlier rest = rest.map g := by
  induction rest generalizing earlier with
  | nil => rfl
  | cons a rest ih =>
      have hhere : f earlier a = some (g a) := by simpa using h [] a rest rfl
      have hlater : collect f (earlier ++ [a]) rest = rest.map g := by
        apply ih
        intro before b after hsplit
        simpa using h (a :: before) b after (by rw [hsplit]; rfl)
      rw [collect, hhere, hlater]
      rfl

namespace Reconciliation

variable {r : Reconciliation} {t : LiveTree} {x : Nat}

/-- What a node gets when it is found exactly: the root gets the live root, and any other node its
own element. -/
def exact (r : Reconciliation) (liveOf : Nat → Nat) (m : String × Nat) : Handle :=
  if m.2 = 0 then r.liveRoot else .ofNumber (liveOf m.2)

/-- **Every match gets its own element.**  No earlier match wants its look, so its rank is zero,
and it has one look-alike. -/
theorem outcomes_exact (ht : t.WellFormed) (h : t.Distinguishable x) {liveOf : Nat → Nat}
    (hmatched : (r.matched.map Prod.snd).Nodup)
    (hattributes : ∀ m ∈ r.matched, m.2 ≠ 0 → liveOf m.2 ∈ t.descendants x ∧
      ∃ a, r.snapshot.attributes? m.2 = some a ∧ t.attributes? (liveOf m.2) = some a)
    (hinj : ∀ m ∈ r.matched, ∀ m' ∈ r.matched, liveOf m.2 = liveOf m'.2 → m.2 = m'.2)
    (claimUnique : Bool) :
    r.outcomes t x claimUnique = r.matched.map fun m => .ok (r.exact liveOf m) := by
  apply collect_eq_map
  intro before m after hsplit
  rw [List.nil_append]
  have hm : m ∈ r.matched := by
    rw [hsplit]
    simp
  by_cases hroot : m.2 = 0
  · simp [outcome?, exact, hroot]
  obtain ⟨hbelow, a, hcopied, ha⟩ := hattributes m hm hroot
  have hrank : r.rank claimUnique before a = 0 := by
    cases claimUnique with
    | false => rfl
    | true =>
        rw [rank, if_pos rfl, alikeCount, List.countP_eq_zero]
        intro m' hm' hlooks
        obtain ⟨b, hwanted, hba⟩ := (Option.any_eq_true ..).mp hlooks
        have hroot' : m'.2 ≠ 0 := by
          intro hzero
          simp [wanted?, hzero] at hwanted
        have hlisted : m' ∈ r.matched := by
          rw [hsplit]
          exact List.mem_append_left _ hm'
        obtain ⟨hbelow', b', hcopied', hb'⟩ := hattributes m' hlisted hroot'
        obtain rfl : b' = b := by simpa [wanted?, hroot', hcopied'] using hwanted
        have hne : liveOf m'.2 ≠ liveOf m.2 := by
          intro heq
          rw [hsplit, List.map_append, List.map_cons, List.nodup_append] at hmatched
          exact hmatched.2.2 m'.2 (List.mem_map_of_mem hm') m.2 List.mem_cons_self
            (hinj m' hlisted m hm heq)
        have hapart := h.apart _ hbelow' _ hbelow hne
        rw [LiveTree.alike, hb', ha, Option.any_some, Option.any_some, hba] at hapart
        exact absurd hapart (by simp)
  have halone := h.lookAlikes_eq ht hbelow ha r.reverse
  simp [outcome?, exact, hroot, hcopied, chosen?, hrank, halone]

end Reconciliation

theorem Resolution.ofOutcomes_ok {α : Type} (as : List α) (f : α → Handle) :
    ofOutcomes (as.map fun a => .ok (f a)) = ⟨as.map f, []⟩ := by
  have helements : (as.map fun a => (Except.ok (f a) : Except Diagnostic Handle)).filterMap
      Except.toOption = as.map f := by
    induction as with
    | nil => rfl
    | cons a rest ih => simpa [Except.toOption] using ih
  simp [ofOutcomes, helements]

/-- Matched places stand in the list of all places under the number of their node. -/
theorem Markup.getElem?_of_matching {m : Markup} {n : Nat}
    (hplaces : m.places.map Prod.snd = List.range n) {expression : String}
    {matched : List (String × Nat)} (h : m.matching expression = .ok matched)
    {place : String × Nat} (hplace : place ∈ matched) :
    place.2 < n ∧ m.places[place.2]? = some place := by
  simp only [matching, XPath.Document.matching] at h
  cases hselect : m.document.select (XPath.normalized expression) with
  | error e =>
      rw [hselect] at h
      exact absurd h (by simp [Except.map])
  | ok ns =>
      rw [hselect] at h
      obtain rfl := Except.ok.inj h
      obtain ⟨id, _, hid⟩ := List.mem_filterMap.mp hplace
      have hnumber : (List.range n)[id]? = some place.2 := by
        rw [← hplaces, List.getElem?_map, hid, Option.map_some]
      obtain ⟨hlt, hsame⟩ := List.getElem?_eq_some_iff.mp hnumber
      rw [List.getElem_range] at hsame
      subst hsame
      exact ⟨by simpa using hlt, hid⟩

/-- In a markup without repeated paths a path stands where its place does. -/
theorem Markup.idxOf_path {m : Markup} (hpaths : m.paths.Nodup) {k : Nat}
    {place : String × Nat} (hplace : m.places[k]? = some place) : m.paths.idxOf place.1 = k := by
  have hpath : m.paths[k]? = some place.1 := by
    rw [paths, List.getElem?_map, hplace, Option.map_some]
  obtain ⟨hbound, hsame⟩ := List.getElem?_eq_some_iff.mp hpath
  rw [← hsame]
  exact hpaths.idxOf_getElem k hbound

/-- The node with a number is a copy of the element at that position. -/
theorem Capture.Faithful.getElem?_descendants {c : Capture} {t : LiveTree} {x : Nat}
    (h : c.Faithful t x) {k : Nat} (hk : k < c.snapshot.size) (hne : k ≠ 0) :
    (t.descendants x)[k - 1]? = some (c.liveOf k) := by
  rw [LiveTree.descendants, List.getElem?_drop,
    Nat.add_sub_cancel' (Nat.one_le_iff_ne_zero.mpr hne), ← h.liveIds_eq, h.liveIds_getElem? hk]

namespace LiveTree

variable {t : LiveTree} {origin : Handle} {x : Nat}

/-- A query for all descendants finds them in order. -/
theorem Reachable.query_below (ht : t.Reachable) (hx : t.liveId? origin = some x) :
    t.query ((ElementQuery.start origin).step (.descendants .any)) =
      .ok ((t.descendants x).map Handle.ofNumber) := by
  have hlisted := ht.wellFormed.mem_documentOrder_of_liveId? hx
  have hall : (t.descendants x).filter (t.hasType .any) = t.descendants x := by
    refine List.filter_eq_self.mpr ?_
    intro y hy
    have hlive := (ht.wellFormed.descendants_sublist hlisted).subset hy
    obtain ⟨node, hnode⟩ := ht.wellFormed.mem_documentOrder.mp hlive
    simp [hasType, attributes?, hnode, ElementType.accepts, ElementType.isAny]
  rw [ht.query_descendants hx, hall]

/-- **Path expressions find what they match.**  Let the proper descendants of a live root differ
in their looks, and let none of their coordinates and number values be not-a-number.  Then an
expression that selects nodes is resolved without reports, whatever the options are, and each
matched index path, in order, is answered by the element at its position: the positions of the
index paths of the snapshot are those of the root followed by its descendants, as a live query
lists them. -/
theorem Reachable.resolve_xpath_exact (ht : t.Reachable) (hx : t.liveId? origin = some x)
    (hapart : t.Distinguishable x) (options : ResolverOptions) {expression : String}
    {s : Snapshot} (hsnapshot : t.snapshot origin = .ok s) {matched : List (String × Nat)}
    (hmatching : (s.markup options.indexPathRoot).matching expression = .ok matched) :
    (s.markup options.indexPathRoot).paths.Nodup ∧
      ∃ below found,
        t.query ((ElementQuery.start origin).step (.descendants .any)) = .ok below ∧
        (Locator.resolve options ⟨.xpath, expression⟩ origin .all).runStill t =
          .ok ⟨found, []⟩ ∧
        found.map some = matched.map fun place =>
          (origin :: below)[(s.markup options.indexPathRoot).paths.idxOf place.1]? := by
  have hwf := ht.wellFormed
  have hlisted := hwf.mem_documentOrder_of_liveId? hx
  obtain ⟨c, hcapture, hc, hpos⟩ := hwf.snapshot_live hx
  obtain rfl : c.snapshot = s := Except.ok.inj (hcapture.symm.trans hsnapshot)
  let m := c.snapshot.markup options.indexPathRoot
  have hplaces := hc.map_snd_places hwf hpos options.indexPathRoot
  have hpaths := c.snapshot.nodup_paths options.indexPathRoot
  have hstands : ∀ place ∈ matched,
      place.2 < c.snapshot.size ∧ m.places[place.2]? = some place :=
    fun place hplace => Markup.getElem?_of_matching hplaces hmatching hplace
  let r := Locator.reconciliation ⟨.xpath, expression⟩ options origin c.snapshot matched
  have houts : r.outcomes t x options.claimUnique =
      matched.map fun place => .ok (r.exact c.liveOf place) := by
    refine Reconciliation.outcomes_exact hwf hapart
      (Markup.nodup_of_matching hplaces hmatching) ?_ ?_ options.claimUnique
    · intro place hplace hne
      obtain ⟨hlt, _⟩ := hstands place hplace
      refine ⟨List.mem_of_getElem? (hc.getElem?_descendants hlt hne), ?_⟩
      obtain ⟨node, hnode⟩ := hc.node_live hlt
      have hlive : t.attributes? (c.liveOf place.2) = some node.attributes := by
        rw [attributes?, hnode, Option.map_some]
      exact ⟨node.attributes, (hc.attributes?_liveOf hlt).trans hlive, hlive⟩
    · intro place hplace place' hplace' heq
      exact hc.liveOf_inj hwf (hstands place hplace).1 (hstands place' hplace').1 heq
  have hrun := Reconciliation.run_yields (r := r) ht hx options
  rw [houts, Resolution.ofOutcomes_ok] at hrun
  refine ⟨hpaths, _, matched.map (r.exact c.liveOf), ht.query_below hx, ?_, ?_⟩
  · apply Access.Yields.runStill_eq
    refine (Access.Yields.snapshot hcapture).bind ?_
    rw [hmatching]
    exact hrun
  · rw [List.map_map]
    apply List.map_congr_left
    intro place hplace
    obtain ⟨hlt, hstand⟩ := hstands place hplace
    rw [Function.comp_apply, Markup.idxOf_path hpaths hstand, Reconciliation.exact]
    by_cases hroot : place.2 = 0
    · rw [if_pos hroot, hroot]
      rfl
    · obtain ⟨k, hk⟩ := Nat.exists_eq_succ_of_ne_zero hroot
      have helement := hc.getElem?_descendants hlt hroot
      rw [if_neg hroot, hk, List.getElem?_cons_succ, List.getElem?_map]
      rw [hk, Nat.succ_sub_one] at helement
      rw [helement, Option.map_some]

end LiveTree

/-- A screen with a cell that holds a button, and a button beside it. -/
def Fixture.editableRow : Fixture :=
  .mk { label := "screen" }
    [.mk { elementType := .cell } [.mk { elementType := .button, label := "edit" } []],
     .mk { elementType := .button, label := "delete" } []]

namespace LiveTree

/-- The cell and the button beside it are found, though elements may stand for several matches. -/
theorem resolve_xpath_exact_editableRow :
    (ofFixture .editableRow).Reachable ∧
    (ofFixture .editableRow).liveId? ⟨"node-0"⟩ = some 0 ∧
    (ofFixture .editableRow).Distinguishable 0 ∧
    ∃ s, (ofFixture .editableRow).snapshot ⟨"node-0"⟩ = .ok s ∧
      (s.markup "app").matching "/*/*" = .ok [("app,0", 1), ("app,1", 3)] ∧
      (Locator.resolve ⟨"app", true, false⟩ ⟨.xpath, "/*/*"⟩ ⟨"node-0"⟩ .all).runStill
        (ofFixture .editableRow) = .ok ⟨[.ofNumber 1, .ofNumber 3], []⟩ := by
  let t := ofFixture .editableRow
  let s := (t.capture? 0).elim default Capture.snapshot
  have hreachable : t.Reachable := .load .editableRow (by decide)
  have hroot : t.liveId? ⟨"node-0"⟩ = some 0 := by decide
  have hapart : t.Distinguishable 0 := ⟨by decide +kernel, by decide +kernel⟩
  have hsnapshot : t.snapshot ⟨"node-0"⟩ = .ok s := by
    simp only [snapshot, hroot, Option.bind_some]
    rfl
  have hplaces : ((s.markup "app").document.children 0).eraseDups.filterMap
      (fun id => (s.markup "app").places[id]?) = [("app,0", 1), ("app,1", 3)] := by
    decide +kernel
  have hmatching : (s.markup "app").matching "/*/*" = .ok [("app,0", 1), ("app,1", 3)] := by
    rw [Markup.matching_topChildren _ (by decide +kernel), hplaces]
  obtain ⟨_, below, found, hbelow, hresolve, hfound⟩ :=
    hreachable.resolve_xpath_exact hroot hapart ⟨"app", true, false⟩ hsnapshot hmatching
  refine ⟨hreachable, hroot, hapart, s, hsnapshot, hmatching, ?_⟩
  have hquery := hreachable.query_below hroot
  obtain rfl : (t.descendants 0).map Handle.ofNumber = below :=
    Except.ok.inj (hquery.symm.trans hbelow)
  have hhandles : found.map some = [some (.ofNumber 1), some (.ofNumber 3)] := by
    rw [hfound]
    decide +kernel
  have hlist : found = [.ofNumber 1, .ofNumber 3] :=
    List.map_injective_iff.mpr (Option.some_injective Handle) hhandles
  rw [hresolve, hlist]

end LiveTree

end ElementFinder
