import ElementFinder.Proofs.Resolution.SameTree

/-!
# Finding nodes in a tree that changes

Whatever is changed between the looks of a resolution, no match is lost: each ends as an element
that this resolution was answered and shown to look as wanted, or as a miss (`EndsAs`), and if
elements may stand for one match only, then different matches end as different elements
(`exists_nodup_assign`).
-/

namespace ElementFinder

namespace Reconciliation

/-! ## What is remembered -/

/-- What is remembered of a live element; nothing of one that was stale or not looked at. -/
def Log.remembered (log : Log) (h : Handle) : Option Attributes :=
  ((log.find? fun entry => entry.1 = h).map Prod.snd).join

namespace Log

/-- Where no handle is remembered twice, what is remembered is a view. -/
theorem recalls_remembered {log : Log} (h : (log.map Prod.fst).Nodup) :
    log.Recalls log.remembered := by
  induction log with
  | nil => simp [Recalls]
  | cons entry log ih =>
      rw [List.map_cons, List.nodup_cons] at h
      intro entry' hentry'
      rcases List.mem_cons.mp hentry' with rfl | hold
      · simp [remembered]
      · have hne : entry.1 ≠ entry'.1 := by
          intro heq
          exact h.1 (heq ▸ List.mem_map_of_mem hold)
        have hlater := ih h.2 entry' hold
        simpa [remembered, hne] using hlater

theorem mem_of_remembered {log : Log} {h : Handle} {a : Attributes}
    (hremembered : log.remembered h = some a) : (h, some a) ∈ log := by
  unfold remembered at hremembered
  cases hfind : log.find? fun entry => entry.1 = h with
  | none => simp [hfind] at hremembered
  | some entry =>
      obtain ⟨h', o⟩ := entry
      obtain rfl : h' = h := by simpa using List.find?_some hfind
      obtain rfl : o = some a := by simpa [hfind] using hremembered
      exact List.mem_of_find?_eq_some hfind

end Log

/-! ## The candidates -/

/-- The candidates of a type are answers to a query for it. -/
theorem mem_answers_of_mem_candidates {r : Reconciliation} {answers : Pools} {ty : ElementType}
    {h : Handle} (hh : h ∈ candidates (r.pooled answers) ty) :
    ∃ hs, (ty, hs) ∈ answers ∧ h ∈ hs := by
  unfold candidates at hh
  cases hfind : (r.pooled answers).find? fun pool => pool.1 = ty with
  | none => simp [hfind] at hh
  | some pool =>
      have hty : pool.1 = ty := by simpa using List.find?_some hfind
      obtain ⟨e, he, rfl⟩ := List.mem_map.mp (List.mem_of_find?_eq_some hfind)
      subst hty
      refine ⟨e.2, he, ?_⟩
      cases hreverse : r.reverse <;> simpa [hfind, hreverse] using hh

/-- Candidates are handles of elements other than the root. -/
theorem candidates_others (r : Reconciliation) {w : World} (hw : w.tree.WellFormed) {x : Nat}
    (hx : r.liveRoot.number? = some x) (types : List ElementType) :
    ∀ ty, ∀ h ∈ candidates (r.pooled (w.answers r.liveRoot types)) ty,
      ∃ y, h = .ofNumber y ∧ y ≠ x := by
  intro ty h hh
  obtain ⟨hs, hasked, hlisted⟩ := mem_answers_of_mem_candidates hh
  obtain ⟨ys, hys, hothers⟩ := World.answers_others hw hx hasked
  have hmem : h ∈ ys.map Handle.ofNumber := hys ▸ hlisted
  obtain ⟨y, hy, rfl⟩ := List.mem_map.mp hmem
  exact ⟨y, rfl, fun heq => hothers (heq ▸ hy)⟩

/-! ## What matches end as -/

/-- What a match may end as: the root of the snapshot as the live root; any other node as an
element that the query for the type of the node listed and whose attributes, as they were shown,
look like those of the node, or as a miss at the path of the node. -/
inductive EndsAs (r : Reconciliation) (asked : Pools) (shown : Log) :
    String × Nat → Except Diagnostic Handle → Prop
  | root (path : String) : EndsAs r asked shown (path, 0) (.ok r.liveRoot)
  | found {path : String} {id : Nat} {a b : Attributes} {hs : List Handle} {h : Handle}
      (hroot : id ≠ 0) (ha : r.snapshot.attributes? id = some a)
      (hasked : (a.elementType, hs) ∈ asked) (hlisted : h ∈ hs) (hshown : (h, some b) ∈ shown)
      (halike : a.looksLike b = true) : EndsAs r asked shown (path, id) (.ok h)
  | missed {path : String} {id : Nat} {a : Attributes} (hroot : id ≠ 0)
      (ha : r.snapshot.attributes? id = some a) :
      EndsAs r asked shown (path, id) (.error (.reconciliationMiss path a.elementType.name))

/-- Each place gets one thing that it may end as. -/
theorem forall₂_endsAs_assign {r : Reconciliation} {asked : Pools} {shown : Log}
    {rest : List (String × Nat)}
    (hnodes : ∀ m ∈ rest, (r.snapshot.attributes? m.2).isSome = true) (claimUnique : Bool)
    (claimed : List Handle) :
    List.Forall₂ (r.EndsAs asked shown) rest
      (r.assign claimUnique (r.pooled asked) shown.remembered claimed rest) := by
  induction rest generalizing claimed with
  | nil => exact .nil
  | cons m rest ih =>
      have hlater : ∀ m' ∈ rest, (r.snapshot.attributes? m'.2).isSome = true :=
        fun m' hm' => hnodes m' (List.mem_cons_of_mem m hm')
      obtain ⟨path, id⟩ := m
      rw [assign]
      by_cases hroot : id = 0
      · subst hroot
        rw [if_pos rfl]
        exact .cons (.root path) (ih hlater claimed)
      obtain ⟨a, ha⟩ := Option.isSome_iff_exists.mp (hnodes (path, id) List.mem_cons_self)
      simp only [if_neg hroot, ha]
      split
      · rename_i h hfind
        have halike := List.find?_some hfind
        rw [Bool.and_eq_true] at halike
        obtain ⟨b, hb, hlooks⟩ := (Option.any_eq_true ..).mp halike.2
        obtain ⟨hs, hasked, hlisted⟩ :=
          mem_answers_of_mem_candidates (List.mem_of_find?_eq_some hfind)
        exact .cons (.found hroot ha hasked hlisted (Log.mem_of_remembered hb) hlooks) (ih hlater _)
      · exact .cons (.missed hroot ha) (ih hlater claimed)

/-- **Nothing is found twice.**  If candidates stand for one match only, and none of them is the
root, then different nodes end as different elements. -/
theorem exists_nodup_assign {r : Reconciliation} {x : Nat} {pools : Pools}
    (hpools : ∀ ty, ∀ h ∈ candidates pools ty, ∃ y, h = .ofNumber y ∧ y ≠ x)
    (view : Handle → Option Attributes) {claimed : List Nat} (hx : x ∉ claimed)
    {rest : List (String × Nat)} (hnodup : (rest.map Prod.snd).Nodup) :
    ∃ ids : List Nat, ids.Nodup ∧ (∀ y ∈ ids, y ∉ claimed) ∧ (x ∈ ids → 0 ∈ rest.map Prod.snd) ∧
      (Resolution.ofOutcomes
          (r.assign true pools view (claimed.map .ofNumber) rest)).elements =
        ids.map (Function.update Handle.ofNumber x r.liveRoot) := by
  induction rest generalizing claimed with
  | nil => exact ⟨[], List.nodup_nil, by simp, by simp, rfl⟩
  | cons m rest ih =>
      obtain ⟨path, id⟩ := m
      rw [List.map_cons, List.nodup_cons] at hnodup
      rw [assign]
      by_cases hroot : id = 0
      · subst hroot
        obtain ⟨ids, hids, hfree, hzero, helements⟩ := ih hx hnodup.2
        have hnew : x ∉ ids := fun hmem => hnodup.1 (hzero hmem)
        refine ⟨x :: ids, List.nodup_cons.mpr ⟨hnew, hids⟩, ?_, fun _ => by simp, ?_⟩
        · intro y hy
          rcases List.mem_cons.mp hy with rfl | hy
          · exact hx
          · exact hfree y hy
        · rw [if_pos rfl, List.map_cons, Function.update_self, ← helements]
          rfl
      rw [if_neg hroot]
      split
      · obtain ⟨ids, hids, hfree, hzero, helements⟩ := ih hx hnodup.2
        exact ⟨ids, hids, hfree, fun hmem => List.mem_cons_of_mem _ (hzero hmem), helements⟩
      split
      · rename_i a _ h hfind
        obtain ⟨y, rfl, hy⟩ := hpools _ h (List.mem_of_find?_eq_some hfind)
        have hunclaimed : y ∉ claimed := by
          intro hmem
          have hfree := List.find?_some hfind
          rw [List.contains_iff_mem.mpr (List.mem_map_of_mem hmem)] at hfree
          exact absurd hfree (by simp)
        have hxy : x ∉ y :: claimed := by simp [hx, hy.symm]
        obtain ⟨ids, hids, hfree, hzero, helements⟩ := ih hxy hnodup.2
        refine ⟨y :: ids, List.nodup_cons.mpr ⟨?_, hids⟩, ?_, ?_, ?_⟩
        · exact fun hmem => hfree y hmem List.mem_cons_self
        · intro z hz
          rcases List.mem_cons.mp hz with rfl | hz
          · exact hunclaimed
          · exact fun hmem => hfree z hz (List.mem_cons_of_mem y hmem)
        · intro hmem
          rcases List.mem_cons.mp hmem with rfl | hmem
          · exact absurd rfl hy
          · exact List.mem_cons_of_mem _ (hzero hmem)
        · rw [List.map_cons, Function.update_of_ne hy, ← helements]
          rfl
      · obtain ⟨ids, hids, hfree, hzero, helements⟩ := ih hx hnodup.2
        exact ⟨ids, hids, hfree, fun hmem => List.mem_cons_of_mem _ (hzero hmem), helements⟩

end Reconciliation

/-! ## Path expressions -/

/-- An expression that selects nodes is resolved by a snapshot and a reconciliation. -/
theorem run_resolveXPath {w : World} {origin : Handle} {s : Snapshot}
    (hsnapshot : w.tree.snapshot origin = .ok s) (options : ResolverOptions) {expression : String}
    {matched : List (String × Nat)}
    (hmatching : (s.markup options.indexPathRoot).matching expression = .ok matched)
    (mode : MatchMode) :
    (resolveXPath options expression origin mode).run.run w =
      (Reconciliation.run (Locator.reconciliation ⟨.xpath, expression⟩ options origin s
        (mode.apply matched)) options).run.run (w.afterLook .snapshot) := by
  rw [resolveXPath, (Access.Arrives.snapshot hsnapshot).run_bind, hmatching]
  rfl

namespace LiveTree

/-- **Path expressions lose no match.**  Let a path expression select nodes in the snapshot of a
live root, and let any changes be made after each look at the tree, as long as the root is live
when it is looked at.  Then the resolution succeeds.  The index paths that match are different and
stand in path order, and each of them that is wanted, which is the first one at most or all of them,
ends, in this order, as one element or as one miss at this path (`EndsAs`): the elements of the
resolution are the former, its reports the latter.  An element other than the root was listed by the
query for its type, and its attributes look like those of the matched node; both are what this
resolution was answered and shown.  It asks once for each type, looks at each handle at most once,
and gives a match the first candidate that looks as wanted and is not taken (`assign`).  If elements
may stand for one match only, then those found are different. -/
theorem Reachable.resolve_xpath_changing {t : LiveTree} (ht : t.Reachable)
    (changes : Interference) (options : ResolverOptions) {origin : Handle} {s : Snapshot}
    (hsnapshot : t.snapshot origin = .ok s) {expression : String} {matched : List (String × Nat)}
    (hmatching : (s.markup options.indexPathRoot).matching expression = .ok matched)
    (mode : MatchMode) {result : Except LocatorError Resolution} {looks : List Glance}
    (hrun : (Locator.resolve options ⟨.xpath, expression⟩ origin mode).runChanging t changes =
      (result, looks))
    (hstays : World.Watches ⟨t, [], changes⟩ origin looks) :
    matched.Sublist (s.markup options.indexPathRoot).places ∧
      (s.markup options.indexPathRoot).paths.Nodup ∧
      ∃ (wanted : List (String × Nat)) (outs : List (Except Diagnostic Handle))
          (hs : List Handle),
        let r := Locator.reconciliation ⟨.xpath, expression⟩ options origin s wanted
        let w := World.afterLook ⟨t, [], changes⟩ .snapshot
        let queries := r.types.map fun _ => Glance.query
        let asked := w.answers origin r.types
        let shown := (w.after queries).shows hs
        (mode = .all → wanted = matched) ∧ (mode = .first → wanted = matched.take 1) ∧
        result = .ok (.ofOutcomes outs) ∧
        looks = .snapshot :: queries ++ hs.map (fun _ => .snapshot) ∧
        r.types.Nodup ∧ hs.Nodup ∧
        List.Forall₂ (r.EndsAs asked shown) wanted outs ∧
        outs = r.assign options.claimUnique (r.pooled asked)
          (Reconciliation.Log.remembered shown) [] wanted ∧
        (options.claimUnique = true → ∃ x, t.liveId? origin = some x ∧
          ∃ ids : List Nat, ids.Nodup ∧
            (Resolution.ofOutcomes outs).elements =
              ids.map (Function.update Handle.ofNumber x origin)) := by
  have hwf := ht.wellFormed
  obtain ⟨x, hx⟩ : ∃ x, t.liveId? origin = some x := by
    cases hlive : t.liveId? origin with
    | none => simp [snapshot, hlive] at hsnapshot
    | some x => exact ⟨x, rfl⟩
  obtain ⟨c, hcapture, hc, hpos⟩ := hwf.snapshot_live hx
  obtain rfl : c.snapshot = s := Except.ok.inj (hcapture.symm.trans hsnapshot)
  let start : World := ⟨t, [], changes⟩
  have hw : (start.afterLook .snapshot).tree.WellFormed := World.wellFormed_afterLook hwf .snapshot
  let r := Locator.reconciliation ⟨.xpath, expression⟩ options origin c.snapshot
    (mode.apply matched)
  have hcaptured : r.Captured c :=
    (Reconciliation.Captured.of_matching hc hwf hpos hmatching origin _).apply mode
  have hleads : ∀ {result' ks}, (r.run options).Arrives (start.afterLook .snapshot) result' ks →
      result = result' ∧ looks = .snapshot :: ks := by
    intro result' ks hgoes
    have hall : (resolveXPath options expression origin mode).Arrives start result'
        (.snapshot :: ks) :=
      (run_resolveXPath (w := start) hsnapshot options hmatching mode).trans hgoes
    exact Prod.mk.inj (hrun.symm.trans hall.runChanging_eq)
  refine ⟨Markup.sublist_of_matching hmatching, c.snapshot.nodup_paths _, ?_⟩
  rcases r.run_arrives options hw with
    ⟨outs, hs, hgoes, hhandles, hassigned⟩ | ⟨e, ks, hgoes, hgone⟩
  · obtain ⟨hresult, hlooks⟩ := hleads hgoes
    let shown := ((start.afterLook .snapshot).after (r.types.map fun _ => .query)).shows hs
    have hkeys : (shown.map Prod.fst).Nodup := by
      rw [World.map_fst_shows]
      exact hhandles
    have houts := hassigned _ (Reconciliation.Log.recalls_remembered hkeys)
    refine ⟨mode.apply matched, outs, hs, ?_, ?_, hresult, hlooks, nodup_eraseDups _, hhandles,
      ?_, houts, ?_⟩
    · rintro rfl
      rfl
    · rintro rfl
      rfl
    · rw [houts]
      exact Reconciliation.forall₂_endsAs_assign (fun m hm => hcaptured.isSome_attributes hc hm) _ _
    · intro hunique
      rw [hunique] at houts
      have hothers := r.candidates_others hw (liveId?_eq_some.mp hx).1 r.types
      obtain ⟨ids, hids, -, -, helements⟩ :=
        Reconciliation.exists_nodup_assign hothers _ List.not_mem_nil hcaptured.nodup
      exact ⟨x, hx, ids, hids, houts ▸ helements⟩
  · obtain ⟨-, hlooks⟩ := hleads hgoes
    rw [hlooks] at hstays
    have hlater : World.Watches start origin ([.snapshot] ++ ks) := hstays
    exact absurd hlater.right hgone

/-- Takes the cell of the editable row away after the first query. -/
def cellTaken : Interference :=
  fun looks => if looks = [.query, .snapshot] then [.remove (.ofNumber 1)] else []

/-- The cell is missed, and the button beside it is still found; where only the first match is
wanted, the cell is missed and the button is not looked for. -/
theorem resolve_xpath_changing_editableRow :
    (ofFixture .editableRow).Reachable ∧
    ∃ s, (ofFixture .editableRow).snapshot ⟨"node-0"⟩ = .ok s ∧
      (s.markup "top").matching "/*/*" = .ok [("top,0", 1), ("top,1", 3)] ∧
      (∃ found, (Locator.resolve {} ⟨.xpath, "/*/*"⟩ ⟨"node-0"⟩ .all).runChanging
          (ofFixture .editableRow) cellTaken =
            (.ok found, [.snapshot, .query, .query, .snapshot, .snapshot]) ∧
        World.Watches ⟨ofFixture .editableRow, [], cellTaken⟩ ⟨"node-0"⟩
          [.snapshot, .query, .query, .snapshot, .snapshot] ∧
        found.elements = [.ofNumber 3] ∧
        found.diagnostics = [.reconciliationMiss "top,0" ElementType.cell.name]) ∧
      ∃ found, (Locator.resolve {} ⟨.xpath, "/*/*"⟩ ⟨"node-0"⟩ .first).runChanging
          (ofFixture .editableRow) cellTaken = (.ok found, [.snapshot, .query, .snapshot]) ∧
        World.Watches ⟨ofFixture .editableRow, [], cellTaken⟩ ⟨"node-0"⟩
          [.snapshot, .query, .snapshot] ∧
        found.elements = [] ∧
        found.diagnostics = [.reconciliationMiss "top,0" ElementType.cell.name] := by
  let t := ofFixture .editableRow
  let s := (t.capture? 0).elim default Capture.snapshot
  let start : World := ⟨t, [], cellTaken⟩
  have hreachable : t.Reachable := .load .editableRow (by decide)
  have hroot : t.liveId? ⟨"node-0"⟩ = some 0 := by decide
  have hsnapshot : t.snapshot ⟨"node-0"⟩ = .ok s := by
    simp only [snapshot, hroot, Option.bind_some]
    rfl
  have hplaces : ((s.markup "top").document.children 0).eraseDups.filterMap
      (fun id => (s.markup "top").places[id]?) = [("top,0", 1), ("top,1", 3)] := by
    decide +kernel
  have hmatching : (s.markup "top").matching "/*/*" = .ok [("top,0", 1), ("top,1", 3)] := by
    rw [Markup.matching_topChildren _ (by decide +kernel), hplaces]
  have hstays : ∀ ks, start.Watches ⟨"node-0"⟩ ks := by
    intro ks before k later _
    obtain ⟨top, htop, -⟩ := (World.wellFormed_after (w := start) hreachable.wellFormed
      before).root_live
    rw [liveId?_eq_some.mpr ⟨by decide, top, htop⟩]
    rfl
  -- what the reconciliation ends as, by the mode
  let out := fun mode : MatchMode =>
    ((Locator.reconciliation ⟨.xpath, "/*/*"⟩ {} ⟨"node-0"⟩ s
      (mode.apply [("top,0", 1), ("top,1", 3)])).run {}).run.run (start.afterLook .snapshot)
  have hends : ∀ (mode : MatchMode) {elements : List Handle} {diagnostics : List Diagnostic}
      {looks : List Glance},
      (out mode).1.toOption.map (fun found => (found.elements, found.diagnostics)) =
        some (elements, diagnostics) →
      (out mode).2.looks.reverse = looks →
      ∃ found, (Locator.resolve {} ⟨.xpath, "/*/*"⟩ ⟨"node-0"⟩ mode).runChanging t cellTaken =
          (.ok found, looks) ∧
        start.Watches ⟨"node-0"⟩ looks ∧
        found.elements = elements ∧ found.diagnostics = diagnostics := by
    intro mode elements diagnostics looks hresult hlooks
    have hrun : (Locator.resolve {} ⟨.xpath, "/*/*"⟩ ⟨"node-0"⟩ mode).runChanging t cellTaken =
        ((out mode).1, looks) := by
      rw [← hlooks]
      exact congrArg (fun out => (out.1, out.2.looks.reverse))
        (run_resolveXPath (w := start) hsnapshot {} hmatching mode)
    obtain ⟨-, -, -, outs, -, -, -, hfound, -⟩ :=
      hreachable.resolve_xpath_changing cellTaken {} hsnapshot hmatching mode hrun (hstays _)
    rw [hfound] at hrun hresult
    obtain ⟨helements, hdiagnostics⟩ := Prod.mk.inj (Option.some.inj hresult)
    exact ⟨.ofOutcomes outs, hrun, hstays _, helements, hdiagnostics⟩
  refine ⟨hreachable, s, hsnapshot, hmatching, hends .all ?_ ?_, hends .first ?_ ?_⟩
  all_goals decide +kernel

end LiveTree

end ElementFinder
