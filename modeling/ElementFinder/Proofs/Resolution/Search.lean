import ElementFinder.Proofs.Live.Changing
import ElementFinder.Resolution.Reconciliation

/-!
# What the search is told decides what it finds

Finding the nodes of a snapshot again is a search through what a live tree is asked: the
candidates of each type, and the attributes of some candidates.  Between these looks the tree may
change, so the candidates may be gone when they are looked at, and what is remembered of a
candidate may be out of date.  Still the result follows from what the search was told.  A handle is
looked at once, so what is remembered in the end is what every comparison saw (`Log.Grows`), and
the matches get, one after the other, the first candidate that stands for no match yet and looks as
wanted as far as it is remembered (`assign`, `run_arrives`).
-/

namespace ElementFinder

/-! ## Outcomes -/

namespace Resolution

/-- What places get, as elements and reports. -/
def ofOutcomes (outs : List (Except Diagnostic Handle)) : Resolution where
  elements := outs.filterMap Except.toOption
  diagnostics := outs.filterMap fun out =>
    match out with
    | .ok _ => none
    | .error d => some d

/-- The resolution with what further places get. -/
def extend (found : Resolution) (outs : List (Except Diagnostic Handle)) : Resolution where
  elements := found.elements ++ (ofOutcomes outs).elements
  diagnostics := found.diagnostics ++ (ofOutcomes outs).diagnostics

/-- An element that is found goes to the elements. -/
theorem extend_ok (found : Resolution) (h : Handle) (outs : List (Except Diagnostic Handle)) :
    found.extend (.ok h :: outs) = (found.found h).extend outs := by
  have helements : (ofOutcomes (.ok h :: outs)).elements = h :: (ofOutcomes outs).elements := rfl
  have hdiagnostics : (ofOutcomes (.ok h :: outs)).diagnostics =
      (ofOutcomes outs).diagnostics := rfl
  simp [extend, helements, hdiagnostics, Resolution.found]

/-- A miss goes to the reports. -/
theorem extend_error (found : Resolution) (d : Diagnostic)
    (outs : List (Except Diagnostic Handle)) :
    found.extend (.error d :: outs) = (found.report d).extend outs := by
  have helements : (ofOutcomes (.error d :: outs)).elements = (ofOutcomes outs).elements := rfl
  have hdiagnostics : (ofOutcomes (.error d :: outs)).diagnostics =
      d :: (ofOutcomes outs).diagnostics := rfl
  simp [extend, helements, hdiagnostics, report]

end Resolution

namespace Reconciliation

/-! ## What is remembered -/

/-- What is remembered of live elements, the latest first. -/
abbrev Log := List (Handle × Option Attributes)

/-- A view of live elements has what is remembered. -/
def Log.Recalls (log : Log) (view : Handle → Option Attributes) : Prop :=
  ∀ entry ∈ log, view entry.1 = entry.2

/-- Looks at some handles, none of them remembered before, add what they show. -/
structure Log.Grows (w : World) (hs : List Handle) (log log' : Log) : Prop where
  captured_eq : log' = (w.shows hs).reverse ++ log
  nodup : hs.Nodup
  fresh : ∀ h ∈ hs, h ∉ log.map Prod.fst

namespace Log

/-- A log grows by nothing without a look. -/
theorem Grows.nil (w : World) (log : Log) : log.Grows w [] log :=
  ⟨rfl, List.nodup_nil, by simp⟩

/-- A log that grows twice grows by all the looks. -/
theorem Grows.trans {w : World} {hs hs' : List Handle} {log log' log'' : Log}
    (h : log.Grows w hs log') (h' : log'.Grows (w.after (hs.map fun _ => .snapshot)) hs' log'') :
    log.Grows w (hs ++ hs') log'' := by
  have hkeys : log'.map Prod.fst = hs.reverse ++ log.map Prod.fst := by
    rw [h.captured_eq, List.map_append, List.map_reverse, World.map_fst_shows]
  constructor
  · rw [h'.captured_eq, h.captured_eq, World.shows_append, List.reverse_append,
      List.append_assoc]
  · rw [List.nodup_append]
    refine ⟨h.nodup, h'.nodup, ?_⟩
    rintro a ha b hb rfl
    exact h'.fresh a hb (by simp [hkeys, ha])
  · intro a ha
    rcases List.mem_append.mp ha with ha | ha
    · exact h.fresh a ha
    · intro hold
      exact h'.fresh a ha (by simp [hkeys, hold])

/-- What recalls a log recalls what it has grown from. -/
theorem Grows.recalls {w : World} {hs : List Handle} {log log' : Log}
    (h : log.Grows w hs log') {view : Handle → Option Attributes} (hview : log'.Recalls view) :
    log.Recalls view := by
  intro entry hentry
  exact hview entry (by simp [h.captured_eq, hentry])

end Log

/-! ## Looking for one look-alike -/

/-- A handle that is asked for is remembered as it is seen. -/
theorem captureOnce_arrives (p : Progress) (w : World) (h : Handle) :
    ∃ (o : Option Attributes) (hs : List Handle) (q : Progress),
      (captureOnce p h).Arrives w (.ok (o, q)) (hs.map fun _ => .snapshot) ∧
        q.claimed = p.claimed ∧ Log.Grows w hs p.captured q.captured ∧
        ∀ view, Log.Recalls q.captured view → view h = o := by
  rw [captureOnce]
  cases hfind : p.captured.find? fun entry => entry.1 = h with
  | some entry =>
      have hsame : entry.1 = h := by simpa using List.find?_some hfind
      refine ⟨entry.2, [], p, .pure _, rfl, .nil w _, ?_⟩
      intro view hview
      rw [← hsame]
      exact hview entry (List.mem_of_find?_eq_some hfind)
  | none =>
      refine ⟨w.tree.looks h, [h], { p with captured := (h, w.tree.looks h) :: p.captured },
        (Access.Arrives.attributes? h).bind (.pure _), rfl, ⟨rfl, by simp, ?_⟩, ?_⟩
      · intro h' hh' hold
        obtain rfl : h' = h := by simpa using hh'
        obtain ⟨entry, hentry, hsame⟩ := List.mem_map.mp hold
        exact absurd hsame (by simpa using List.find?_eq_none.mp hfind entry hentry)
      · intro view hview
        exact hview (h, w.tree.looks h) List.mem_cons_self

/-- The search for a look-alike finds the first that stands for no match and looks as expected, as
far as it is remembered in the end. -/
theorem findAlike_arrives (expected : Attributes) (p : Progress) (w : World)
    (pool : List Handle) :
    ∃ (result : Option Handle) (hs : List Handle) (q : Progress),
      (findAlike expected p pool).Arrives w (.ok (result, q)) (hs.map fun _ => .snapshot) ∧
        q.claimed = p.claimed ∧ Log.Grows w hs p.captured q.captured ∧
        ∀ view, Log.Recalls q.captured view →
          result = pool.find? fun h =>
            !p.claimed.contains h && (view h).any expected.looksLike := by
  induction pool generalizing p w with
  | nil => exact ⟨none, [], p, .pure _, rfl, .nil w _, fun _ _ => rfl⟩
  | cons h rest ih =>
      rw [findAlike]
      cases hclaimed : p.claimed.contains h with
      | true =>
          obtain ⟨result, hs, q, hgoes, hsame, hgrows, hfinds⟩ := ih p w
          refine ⟨result, hs, q, hgoes, hsame, hgrows, fun view hview => ?_⟩
          rw [hfinds view hview, List.find?_cons, hclaimed]
          rfl
      | false =>
          obtain ⟨o, hs, q, hgoes, hsame, hgrows, hseen⟩ := captureOnce_arrives p w h
          have hany : (o.map expected.looksLike).getD false = o.any expected.looksLike := by
            cases o <;> rfl
          cases halike : o.any expected.looksLike with
          | true =>
              refine ⟨some h, hs, q, ?_, hsame, hgrows, fun view hview => ?_⟩
              · rw [← List.append_nil (hs.map fun _ => Glance.snapshot)]
                refine hgoes.bind ?_
                simp only [hany, halike, if_true]
                exact .pure _
              · rw [List.find?_cons, hclaimed, hseen view hview, halike]
                rfl
          | false =>
              obtain ⟨result, hs', q', hgoes', hsame', hgrows', hfinds⟩ :=
                ih q (w.after (hs.map fun _ => .snapshot))
              refine ⟨result, hs ++ hs', q', ?_, hsame'.trans hsame, hgrows.trans hgrows',
                fun view hview => ?_⟩
              · rw [List.map_append]
                refine hgoes.bind ?_
                simp only [hany, halike, Bool.false_eq_true, if_false]
                exact hgoes'
              · rw [hfinds view hview, hsame, List.find?_cons, hclaimed,
                  hseen view (hgrows'.recalls hview), halike]
                rfl

/-! ## All places -/

/-- The candidates of a type. -/
def candidates (pools : Pools) (ty : ElementType) : List Handle :=
  ((pools.find? fun pool => pool.1 = ty).map Prod.snd).getD []

/-- What places get, one after the other, when the candidates of each type are given and live
elements are seen as in a view. -/
def assign (r : Reconciliation) (claimUnique : Bool) (pools : Pools)
    (view : Handle → Option Attributes) :
    (claimed : List Handle) → List (String × Nat) → List (Except Diagnostic Handle)
  | _, [] => []
  | claimed, (path, id) :: rest =>
    if id = 0 then .ok r.liveRoot :: assign r claimUnique pools view claimed rest
    else
      match r.snapshot.attributes? id with
      | none => assign r claimUnique pools view claimed rest
      | some a =>
        match (candidates pools a.elementType).find? fun h =>
            !claimed.contains h && (view h).any a.looksLike with
        | some h =>
          .ok h :: assign r claimUnique pools view
            (if claimUnique then h :: claimed else claimed) rest
        | none =>
          .error (.reconciliationMiss path a.elementType.name) ::
            assign r claimUnique pools view claimed rest

/-- **All places.**  Whatever is changed between the looks, the search gives the places what they
are assigned on what is remembered in the end. -/
theorem findAll_arrives (r : Reconciliation) (claimUnique : Bool) (pools : Pools)
    (found : Resolution) (p : Progress) (w : World) (rest : List (String × Nat)) :
    ∃ (outs : List (Except Diagnostic Handle)) (hs : List Handle) (log : Log),
      (findAll r claimUnique pools found p rest).Arrives w (.ok (found.extend outs))
          (hs.map fun _ => .snapshot) ∧
        Log.Grows w hs p.captured log ∧
        ∀ view, log.Recalls view → outs = r.assign claimUnique pools view p.claimed rest := by
  induction rest generalizing found p w with
  | nil =>
      have hnone : found.extend [] = found := by
        simp [Resolution.extend, Resolution.ofOutcomes]
      refine ⟨[], [], p.captured, ?_, .nil w _, fun _ _ => rfl⟩
      rw [findAll, hnone]
      exact .pure _
  | cons m rest ih =>
      obtain ⟨path, id⟩ := m
      rw [findAll]
      by_cases hroot : id = 0
      · obtain ⟨outs, hs, log, hgoes, hgrows, hassign⟩ := ih (found.found r.liveRoot) p w
        refine ⟨.ok r.liveRoot :: outs, hs, log, ?_, hgrows, fun view hview => ?_⟩
        · rw [if_pos hroot, Resolution.extend_ok]
          exact hgoes
        · rw [assign, if_pos hroot, hassign view hview]
      rw [if_neg hroot]
      cases hattributes : r.snapshot.attributes? id with
      | none =>
          obtain ⟨outs, hs, log, hgoes, hgrows, hassign⟩ := ih found p w
          refine ⟨outs, hs, log, hgoes, hgrows, fun view hview => ?_⟩
          rw [hassign view hview]
          simp only [assign, hroot, if_false, hattributes]
      | some a =>
          obtain ⟨result, hs, q, hgoes, hsame, hgrows, hfinds⟩ :=
            findAlike_arrives a p w (candidates pools a.elementType)
          cases result with
          | none =>
              obtain ⟨outs, hs', log, hgoes', hgrows', hassign⟩ :=
                ih (found.report (.reconciliationMiss path a.elementType.name)) q
                  (w.after (hs.map fun _ => .snapshot))
              refine ⟨.error (.reconciliationMiss path a.elementType.name) :: outs, hs ++ hs', log,
                ?_, hgrows.trans hgrows', fun view hview => ?_⟩
              · rw [List.map_append, Resolution.extend_error]
                exact hgoes.bind hgoes'
              · have hnone := hfinds view (hgrows'.recalls hview)
                rw [hassign view hview, hsame]
                simp only [assign, hroot, if_false, hattributes, ← hnone]
          | some h =>
              let q' : Progress :=
                if claimUnique then { q with claimed := h :: q.claimed } else q
              have hcaptured : q'.captured = q.captured := by
                cases claimUnique <;> rfl
              have hclaimed : q'.claimed =
                  if claimUnique then h :: p.claimed else p.claimed := by
                rw [← hsame]
                cases claimUnique <;> rfl
              obtain ⟨outs, hs', log, hgoes', hgrows', hassign⟩ :=
                ih (found.found h) q' (w.after (hs.map fun _ => .snapshot))
              rw [hcaptured] at hgrows'
              refine ⟨.ok h :: outs, hs ++ hs', log, ?_, hgrows.trans hgrows',
                fun view hview => ?_⟩
              · rw [List.map_append, Resolution.extend_ok]
                exact hgoes.bind hgoes'
              · have hsome := hfinds view (hgrows'.recalls hview)
                rw [hassign view hview, hclaimed]
                simp only [assign, hroot, if_false, hattributes, ← hsome]

/-! ## The candidates -/

/-- The pools that the answers to the queries for candidates make. -/
def pooled (r : Reconciliation) (answers : Pools) : Pools :=
  answers.map fun e => (e.1, if r.reverse then e.2.reverse else e.2)

/-- **The pools.**  As long as the root is live the candidates are answered; otherwise asking for
them fails at the first query that meets a stale root. -/
theorem pools_arrives (r : Reconciliation) {w : World} (hw : w.tree.WellFormed) :
    r.pools.Arrives w (.ok (r.pooled (w.answers r.liveRoot r.types)))
        (r.types.map fun _ => .query) ∨
      ∃ e ks, r.pools.Arrives w (.error e) ks ∧ ¬w.Watches r.liveRoot ks := by
  rw [pools]
  induction r.types generalizing w with
  | nil => exact .inl (.pure [])
  | cons ty types ih =>
      rw [List.mapM_cons]
      cases hlive : w.tree.liveId? r.liveRoot with
      | none =>
          have hquery := Access.Arrives.query_error
            (LiveTree.query_stale hlive [.descendants ty])
          refine .inr ⟨_, [.query], hquery.bind_error.bind_error, ?_⟩
          intro hwatches
          have hstays := hwatches [] .query [] rfl
          rw [World.after, List.foldl_nil, hlive] at hstays
          exact absurd hstays (by simp)
      | some x =>
          obtain ⟨ys, hanswer, -⟩ := hw.query_live hlive [.descendants ty]
          have hfound : w.tree.found ((ElementQuery.start r.liveRoot).step (.descendants ty)) =
              ys.map Handle.ofNumber := by
            simp only [LiveTree.found, ElementQuery.start, ElementQuery.step, List.nil_append,
              hanswer]
            rfl
          let pool := (ty, if r.reverse then (ys.map Handle.ofNumber).reverse
            else ys.map Handle.ofNumber)
          have hquery : Access.Arrives (do
                let found ← Access.query ((ElementQuery.start r.liveRoot).step (.descendants ty))
                return (ty, if r.reverse then found.reverse else found)) w
              (.ok pool) [.query] :=
            (Access.Arrives.query hanswer).bind (.pure pool)
          rcases ih (World.wellFormed_afterLook hw .query) with hrest | ⟨e, ks, hrest, hgone⟩
          · have hlast := hrest.bind (f := fun pools => Pure.pure (pool :: pools)) (.pure _)
            rw [List.append_nil] at hlast
            rw [World.answers, hfound]
            exact .inl (hquery.bind hlast)
          · refine .inr ⟨e, [.query] ++ ks, hquery.bind hrest.bind_error, ?_⟩
            exact fun hwatches => hgone hwatches.right

/-! ## Reconciliation -/

/-- **Reconciliation.**  As long as the root is live, the candidates are asked for and some of them
are looked at, each once, and the matches get what they are assigned on what these looks show. -/
theorem run_arrives (r : Reconciliation) (options : ResolverOptions) {w : World}
    (hw : w.tree.WellFormed) :
    (∃ (outs : List (Except Diagnostic Handle)) (hs : List Handle),
      (r.run options).Arrives w (.ok (.ofOutcomes outs))
          ((r.types.map fun _ => .query) ++ hs.map fun _ => .snapshot) ∧
        hs.Nodup ∧
        ∀ view, Log.Recalls ((w.after (r.types.map fun _ => .query)).shows hs) view →
          outs = r.assign options.claimUnique (r.pooled (w.answers r.liveRoot r.types)) view []
            r.matched) ∨
    ∃ e ks, (r.run options).Arrives w (.error e) ks ∧ ¬w.Watches r.liveRoot ks := by
  rcases r.pools_arrives hw with hpools | ⟨e, ks, hpools, hgone⟩
  · obtain ⟨outs, hs, log, hall, hgrows, hassign⟩ :=
      r.findAll_arrives options.claimUnique (r.pooled (w.answers r.liveRoot r.types)) {} {}
        (w.after (r.types.map fun _ => .query)) r.matched
    have hempty : Resolution.extend {} outs = .ofOutcomes outs := by
      simp [Resolution.extend]
    rw [hempty] at hall
    refine .inl ⟨outs, hs, hpools.bind hall, hgrows.nodup, fun view hview => ?_⟩
    refine hassign view fun entry hentry => hview entry ?_
    rwa [hgrows.captured_eq, List.append_nil, List.mem_reverse] at hentry
  · exact .inr ⟨e, ks, hpools.bind_error, hgone⟩

end Reconciliation

end ElementFinder
