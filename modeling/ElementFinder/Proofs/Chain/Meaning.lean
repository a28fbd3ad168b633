import ElementFinder.Chain.Walk
import ElementFinder.Proofs.Live.Answer
import ElementFinder.Proofs.Live.Still

/-!
# What class chains mean

A chain has a direct reading on sets of elements, given here by `LiveTree.evaluate`: every step
replaces the current set by what it selects below the members, and a position replaces a set by
one of its members.  Sets are listed in document order.

Walking along a chain does something else.  It puts markers into the steps after them, grows one
query and asks nothing until a position comes; then it starts again from the element picked, on
a tree that is captured anew.  The two agree because of one invariant: the query grown so far
finds exactly the current set (`LiveTree.Finds`).  Extending the query keeps the invariant
(`Finds.extend`), and so does starting again (`finds_start`).
-/

namespace ElementFinder

/-- The member of a list at a position: counted from one, or from the end when negative. -/
def memberAt? (ys : List Nat) : Int → Option Nat
  | .ofNat 0 => none
  | .ofNat (n + 1) => ys[n]?
  | .negSucc n => ys.reverse[n]?

/-- The member at a position is a member. -/
theorem mem_of_memberAt? {ys : List Nat} {i : Int} {y : Nat} (h : memberAt? ys i = some y) :
    y ∈ ys := by
  match i with
  | .ofNat 0 => exact absurd h (by simp [memberAt?])
  | .ofNat (n + 1) => exact List.mem_of_getElem? h
  | .negSucc n => exact List.mem_reverse.mp (List.mem_of_getElem? h)

/-- Extending a query appends the steps. -/
theorem ChainMove.extend_eq (m : ChainMove) (q : ElementQuery) :
    m.extend q = ⟨q.root, q.steps ++ m.querySteps⟩ := by
  have hfold : ∀ (steps : List QueryStep) (q : ElementQuery),
      steps.foldl ElementQuery.step q = ⟨q.root, q.steps ++ steps⟩ := by
    intro steps
    induction steps with
    | nil => simp
    | cons s rest ih =>
        intro q
        rw [List.foldl_cons, ih]
        simp [ElementQuery.step]
  exact hfold m.querySteps q

namespace Chain

/-- A marker makes the next move a deep one. -/
theorem moves_anyDepth (deep : Bool) (rest : Chain) :
    moves deep (.anyDepth :: rest) = moves true rest := by
  cases deep <;> rfl

/-- A step is one move, deep if a marker stands before it. -/
theorem moves_select (deep : Bool) (ty : ElementType) (p : Option Predicate)
    (position : Option Int) (rest : Chain) :
    moves deep (.select ty p position :: rest) = ⟨deep, ty, p, position⟩ :: moves false rest := by
  cases deep <;> rfl

end Chain

namespace LiveTree

/-- The elements one level below an element, or on all levels below it. -/
def under (t : LiveTree) (deep : Bool) (x : Nat) : List Nat :=
  if deep then t.descendants x else ((t.node? x).map LiveNode.children).getD []

/-- The elements below members of a set that satisfy a condition. -/
def select (t : LiveTree) (deep : Bool) (keep : Nat → Bool) (current : List Nat) : List Nat :=
  t.documentOrder.filter fun y => current.any (fun x => (t.under deep x).contains y) && keep y

/-- Whether an element has an accepted type and satisfies an optional predicate. -/
def meets (t : LiveTree) (ty : ElementType) (p : Option Predicate) (y : Nat) : Bool :=
  t.hasType ty y && p.all fun p => t.satisfies p y

/-- The set that a chain leads to from a set, read step by step.  `deep` says that markers stand
directly before the chain. -/
def evaluate (t : LiveTree) :
    (deep : Bool) → List Nat → Chain → Except LocatorError (List Nat)
  | false, current, [] => .ok current
  | true, current, [] => .ok (t.select true (fun _ => true) current)
  | _, current, .anyDepth :: rest => evaluate t true current rest
  | deep, current, .select ty p none :: rest =>
    evaluate t false (t.select deep (t.meets ty p) current) rest
  | deep, current, .select ty p (some i) :: rest =>
    let found := t.select deep (t.meets ty p) current
    match memberAt? found i with
    | none => .error (.invalidPosition i found.length)
    | some y => evaluate t false [y] rest

/-! ## Queries that find a set -/

/-- A query finds a set when its steps lead to the members and to nothing else. -/
structure Finds (t : LiveTree) (q : ElementQuery) (ys : List Nat) : Prop where
  ordered : ys.Sublist t.documentOrder
  led : ∃ x, t.liveId? q.root = some x ∧ ∀ y, y ∈ ys ↔ t.Leads q.steps x y

variable {t : LiveTree}

/-- A marker makes the next step a deep one. -/
theorem evaluate_anyDepth (deep : Bool) (current : List Nat) (rest : Chain) :
    t.evaluate deep current (.anyDepth :: rest) = t.evaluate true current rest := by
  cases deep <;> rfl

/-- A step without a position goes on from all elements that it selects. -/
theorem evaluate_select (deep : Bool) (current : List Nat) (ty : ElementType)
    (p : Option Predicate) (rest : Chain) :
    t.evaluate deep current (.select ty p none :: rest) =
      t.evaluate false (t.select deep (t.meets ty p) current) rest := by
  cases deep <;> rfl

/-- A query that finds a set answers it. -/
theorem Finds.query_eq {q : ElementQuery} {ys : List Nat} (h : t.Finds q ys)
    (ht : t.WellFormed) : t.query q = .ok (ys.map Handle.ofNumber) := by
  obtain ⟨x, hx, hmem⟩ := h.led
  obtain ⟨zs, hquery, hsub, hmem'⟩ := ht.query_live hx q.steps
  have hsame : zs = ys := by
    apply eq_of_sublists ht.documentOrder_nodup hsub h.ordered
    intro y
    rw [hmem' y, hmem y]
  rw [← hsame]
  exact hquery

/-- A query without steps finds the element that it starts at. -/
theorem finds_start (ht : t.WellFormed) {origin : Handle} {x : Nat}
    (hx : t.liveId? origin = some x) : t.Finds (.start origin) [x] := by
  refine ⟨List.singleton_sublist.mpr (ht.mem_documentOrder_of_liveId? hx), x, hx, ?_⟩
  intro y
  rw [List.mem_singleton]
  exact eq_comm

/-- A step looks at the elements below, or at the children. -/
theorem WellFormed.mem_under (ht : t.WellFormed) {deep : Bool} {x y : Nat}
    (hx : x ∈ t.documentOrder) :
    y ∈ t.under deep x ↔ if deep then t.links.Below x y else t.links.Child x y := by
  obtain ⟨node, hnode⟩ := ht.mem_documentOrder.mp hx
  cases deep with
  | false =>
      simp only [under, Bool.false_eq_true, if_false, child_iff, hnode, Option.map_some,
        Option.getD_some]
      constructor
      · exact fun hy => ⟨node, rfl, hy⟩
      · intro hback
        rcases hback with ⟨other, hother, hy⟩
        exact Option.some.inj hother ▸ hy
  | true =>
      simp only [under, if_true]
      exact ht.mem_descendants hx

/-- A step selects what it keeps of the elements below, or of the children. -/
theorem WellFormed.mem_select (ht : t.WellFormed) {deep : Bool} {keep : Nat → Bool}
    {current : List Nat} (hcurrent : current.Sublist t.documentOrder) {y : Nat} :
    y ∈ t.select deep keep current ↔ y ∈ t.documentOrder ∧ keep y = true ∧
      ∃ x ∈ current, if deep then t.links.Below x y else t.links.Child x y := by
  simp only [select, List.mem_filter, Bool.and_eq_true, List.any_eq_true,
    List.contains_iff_mem]
  constructor
  · intro hforth
    rcases hforth with ⟨hy, ⟨x, hx, hunder⟩, hkeep⟩
    exact ⟨hy, hkeep, x, hx, (ht.mem_under (hcurrent.subset hx)).mp hunder⟩
  · intro hback
    rcases hback with ⟨hy, hkeep, x, hx, hrelated⟩
    exact ⟨hy, ⟨x, hx, (ht.mem_under (hcurrent.subset hx)).mpr hrelated⟩, hkeep⟩

/-- The query steps of a step of a chain lead to what the step selects. -/
theorem leads_querySteps (m : ChainMove) (x y : Nat) :
    t.Leads m.querySteps x y ↔ t.meets m.elementType m.predicate y = true ∧
      if m.descends then t.links.Below x y else t.links.Child x y := by
  obtain ⟨deep, ty, predicate, position⟩ := m
  cases deep <;> cases predicate <;>
    simp [ChainMove.querySteps, Leads, QueryStep.Relates, meets] <;> grind

/-- **One step.**  If a query finds a set, then the query with a further step finds what the step
selects from the set. -/
theorem Finds.extend {q : ElementQuery} {ys : List Nat} (h : t.Finds q ys)
    (ht : t.WellFormed) (m : ChainMove) :
    t.Finds (m.extend q) (t.select m.descends (t.meets m.elementType m.predicate) ys) := by
  obtain ⟨x, hx, hmem⟩ := h.led
  rw [m.extend_eq]
  refine ⟨List.filter_sublist, x, hx, ?_⟩
  intro y
  rw [ht.mem_select h.ordered, leads_append]
  constructor
  · intro hforth
    rcases hforth with ⟨_, hmeets, w, hw, hrelated⟩
    exact ⟨w, (hmem w).mp hw, (leads_querySteps m w y).mpr ⟨hmeets, hrelated⟩⟩
  · intro hback
    rcases hback with ⟨w, hfirst, hstep⟩
    have hw : w ∈ ys := (hmem w).mpr hfirst
    obtain ⟨node, hnode⟩ := ht.mem_documentOrder.mp (h.ordered.subset hw)
    have hy := ht.mem_documentOrder.mpr (ht.live_of_leads hnode hstep)
    obtain ⟨hmeets, hrelated⟩ := (leads_querySteps m w y).mp hstep
    exact ⟨hy, hmeets, w, hw, hrelated⟩

/-- Markers at the end select everything below. -/
theorem select_meets_any (deep : Bool) (current : List Nat) (ht : t.WellFormed) :
    t.select deep (t.meets .any none) current = t.select deep (fun _ => true) current := by
  apply List.filter_congr
  intro y hy
  obtain ⟨node, hnode⟩ := ht.mem_documentOrder.mp hy
  have hany : t.meets .any none y = true := by
    simp only [meets, hasType, attributes?, hnode, Option.map_some]
    rfl
  rw [hany]

/-- Picking a handle picks the member at the position. -/
theorem pick?_map (ys : List Nat) (i : Int) :
    pick? (ys.map Handle.ofNumber) i = (memberAt? ys i).map Handle.ofNumber := by
  rw [pick?, List.length_map]
  cases i with
  | ofNat n =>
      cases n with
      | zero => simp [memberAt?]
      | succ n =>
          have hpos : (0 : Int) < Int.ofNat (n + 1) := by
            simp
          have hindex : (Int.ofNat (n + 1) - 1).toNat = n := by
            simp
          simp only [hpos, if_true, hindex, memberAt?, List.getElem?_map]
  | negSucc n =>
      have hneg : ¬ (0 : Int) < Int.negSucc n := by
        omega
      have hlast : Int.negSucc n < 0 := by
        omega
      by_cases hrange : n < ys.length
      · have hle : (0 : Int) ≤ ys.length + Int.negSucc n := by
          omega
        have hindex : ((ys.length : Int) + Int.negSucc n).toNat = ys.length - 1 - n := by
          omega
        simp only [hneg, if_false, hlast, hle, decide_true, Bool.and_self, if_true, hindex,
          memberAt?, List.getElem?_map, List.getElem?_reverse hrange]
      · have hout : ¬ (0 : Int) ≤ ys.length + Int.negSucc n := by
          omega
        have hnone : ys.reverse[n]? = none := by
          simp
          omega
        simp [hneg, hout, memberAt?, hnone]

end LiveTree

/-! ## Walking along a chain -/

/-- A target of a walk stands for a set: a picked element for itself, and a query for what it
finds. -/
def ChainTarget.StandsFor (t : LiveTree) : ChainTarget → List Nat → Prop
  | element h, ys => ∃ y, y ∈ t.documentOrder ∧ h = .ofNumber y ∧ ys = [y]
  | query q, ys => t.Finds q ys

namespace Chain

/-- A walk agrees with an evaluation: it fails the same way, or arrives at a target that stands
for the same set. -/
def Agrees (t : LiveTree) (walk : Access ChainTarget) :
    Except LocatorError (List Nat) → Prop
  | .ok ys => ∃ target, walk.Yields t (.ok target) ∧ target.StandsFor t ys
  | .error e => walk.Yields t (.error e)

/-- A walk that continues a computation agrees with what its continuation agrees with. -/
theorem Agrees.after {α : Type} {t : LiveTree} {x : Access α} {a : α}
    {walk : α → Access ChainTarget} {r : Except LocatorError (List Nat)}
    (hx : x.Yields t (.ok a)) (h : Agrees t (walk a) r) : Agrees t (x >>= walk) r := by
  cases r with
  | ok ys =>
      obtain ⟨target, hwalk, hstands⟩ := h
      exact ⟨target, hx.bind hwalk, hstands⟩
  | error e => exact hx.bind h

/-- Without moves left a chain has no steps left. -/
theorem eq_nil_of_moves {c : Chain} (h : moves false c = []) : c = [] := by
  cases c with
  | nil => rfl
  | cons s rest =>
      have hmarked : ∀ rest : Chain, moves true rest ≠ [] := by
        intro rest
        induction rest with
        | nil => simp [moves]
        | cons s rest ih => cases s <;> simp [moves, ih]
      cases s <;> simp [moves, hmarked] at h

/-- **All steps.**  Walking from a query that finds a set agrees with evaluating from the set. -/
theorem walkFrom_agrees {t : LiveTree} (ht : t.Reachable) (c : Chain) (deep : Bool)
    {q : ElementQuery} {ys : List Nat} (h : t.Finds q ys) :
    Agrees t (walkFrom q (moves deep c)) (t.evaluate deep ys c) := by
  have hwf := ht.wellFormed
  induction c generalizing deep q ys with
  | nil =>
      cases deep with
      | false =>
          simp only [moves, walkFrom, LiveTree.evaluate, Agrees]
          exact ⟨.query q, .pure _, h⟩
      | true =>
          have hnext := h.extend hwf ⟨true, .any, none, none⟩
          rw [LiveTree.select_meets_any true ys hwf] at hnext
          simp only [moves, walkFrom, LiveTree.evaluate, Agrees]
          exact ⟨.query _, .pure _, hnext⟩
  | cons s rest ih =>
      cases s with
      | anyDepth =>
          rw [moves_anyDepth, LiveTree.evaluate_anyDepth]
          exact ih true h
      | select ty p position =>
          have hnext := h.extend hwf ⟨deep, ty, p, position⟩
          rw [moves_select]
          cases position with
          | none =>
              rw [LiveTree.evaluate_select]
              exact ih false hnext
          | some i =>
              -- the query is run here, and the rest starts again from the element picked
              let found := t.select deep (t.meets ty p) ys
              let grown := ChainMove.extend ⟨deep, ty, p, some i⟩ q
              have hquery : (Access.query grown).Yields t (.ok (found.map Handle.ofNumber)) :=
                Access.Yields.query (hnext.query_eq hwf)
              have hevaluate : t.evaluate deep ys (.select ty p (some i) :: rest) =
                  match memberAt? found i with
                  | none => .error (.invalidPosition i found.length)
                  | some y => t.evaluate false [y] rest := by
                cases deep <;> rfl
              rw [hevaluate]
              cases hpick : memberAt? found i with
              | none =>
                  have hnone : pick? (found.map Handle.ofNumber) i = none := by
                    rw [LiveTree.pick?_map, hpick]
                    rfl
                  refine Access.Yields.bind hquery ?_
                  rw [hnone, List.length_map]
                  exact Access.Yields.throw _
              | some y =>
                  have hsome : pick? (found.map Handle.ofNumber) i = some (.ofNumber y) := by
                    rw [LiveTree.pick?_map, hpick]
                    rfl
                  have hy : y ∈ t.documentOrder :=
                    hnext.ordered.subset (mem_of_memberAt? hpick)
                  have hstart := LiveTree.finds_start hwf (ht.liveId?_of_mem hy)
                  refine Agrees.after hquery ?_
                  rw [hsome]
                  by_cases hlast : (moves false rest).isEmpty = true
                  · obtain rfl := eq_nil_of_moves (List.isEmpty_iff.mp hlast)
                    exact ⟨.element (.ofNumber y), .pure _, y, hy, rfl, rfl⟩
                  · simp only [hlast]
                    exact ih false hstart

end Chain

/-! ## Resolving a chain -/

/-- Walking along a chain with at least one step agrees with evaluating it. -/
theorem Chain.walk_agrees {t : LiveTree} (ht : t.Reachable) {origin : Handle} {x : Nat}
    (hx : t.liveId? origin = some x) {c : Chain} (hc : c ≠ []) :
    Agrees t (c.walk origin) (t.evaluate false [x] c) := by
  have hwalk : c.walk origin = walkFrom (.start origin) (moves false c) := by
    simp [walk, hc]
  rw [hwalk]
  exact walkFrom_agrees ht c false (LiveTree.finds_start ht.wellFormed hx)

/-- The elements that a chain leads to are those of its evaluation. -/
theorem Chain.resolve_yields {t : LiveTree} (ht : t.Reachable) {origin : Handle} {x : Nat}
    (hx : t.liveId? origin = some x) {c : Chain} (hc : c ≠ []) (mode : MatchMode) :
    (c.resolve origin mode).Yields t
      ((t.evaluate false [x] c).map fun ys => mode.apply (ys.map Handle.ofNumber)) := by
  have hwf := ht.wellFormed
  have hagrees := walk_agrees ht hx hc
  cases hresult : t.evaluate false [x] c with
  | error e =>
      rw [hresult] at hagrees
      exact Access.Yields.bind_error hagrees
  | ok ys =>
      rw [hresult] at hagrees
      obtain ⟨target, hyields, hstands⟩ := hagrees
      refine hyields.bind ?_
      cases target with
      | element h =>
          obtain ⟨y, _, rfl, rfl⟩ := hstands
          cases mode <;> exact .pure _
      | query q => exact (Access.Yields.query (hstands.query_eq hwf)).bind (.pure _)

namespace LiveTree

/-- Every set of an evaluation is listed in document order. -/
theorem evaluate_sublist {t : LiveTree} (c : Chain) (deep : Bool) {current ys : List Nat}
    (hcurrent : current.Sublist t.documentOrder) (h : t.evaluate deep current c = .ok ys) :
    ys.Sublist t.documentOrder := by
  fun_induction evaluate t deep current c with
  | case1 current => exact Except.ok.inj h ▸ hcurrent
  | case2 current => exact Except.ok.inj h ▸ List.filter_sublist
  | case3 deep current rest ih => exact ih hcurrent h
  | case4 deep current ty p rest ih => exact ih List.filter_sublist h
  | case5 => exact absurd h (by simp)
  | case6 deep current ty p i rest found y hpick ih =>
      have hmem : y ∈ t.documentOrder := List.filter_sublist.subset (mem_of_memberAt? hpick)
      exact ih (List.singleton_sublist.mpr hmem) h

/-- **Resolving a chain evaluates it.**  From a live element, a chain with at least one step leads
to the set that the step by step evaluation arrives at, or to its first element where only the first
match is wanted, or fails as the evaluation does; and the set is listed in document order without
duplicates. -/
theorem Reachable.resolve_chain {t : LiveTree} (ht : t.Reachable) {origin : Handle} {x : Nat}
    (hx : t.liveId? origin = some x) {c : Chain} (hc : c ≠ []) :
    (c.resolve origin .all).runStill t =
        (t.evaluate false [x] c).map (fun ys => ys.map Handle.ofNumber) ∧
      (c.resolve origin .first).runStill t =
        (t.evaluate false [x] c).map (fun ys => (ys.take 1).map Handle.ofNumber) ∧
      ∀ ys, t.evaluate false [x] c = .ok ys →
        ys.Sublist t.documentOrder ∧ (ys.map Handle.ofNumber).Nodup := by
  have hfirst := (Chain.resolve_yields ht hx hc .first).runStill_eq
  simp only [MatchMode.apply, ← List.map_take] at hfirst
  refine ⟨(Chain.resolve_yields ht hx hc .all).runStill_eq, hfirst, ?_⟩
  intro ys hys
  have hsub := evaluate_sublist c false (finds_start ht.wellFormed hx).ordered hys
  exact ⟨hsub, ht.nodup_handles hsub⟩

/-- Both cells, looked for at all levels of the screen, the first of them, and the one picked as
the last. -/
theorem resolve_chain_twinTables :
    (ofFixture .twinTables).Reachable ∧
    (ofFixture .twinTables).liveId? ⟨"node-0"⟩ = some 0 ∧
    (ofFixture .twinTables).evaluate false [0] [.anyDepth, .select .cell none none] =
      .ok [2, 4] ∧
    (Chain.resolve [.anyDepth, .select .cell none none] ⟨"node-0"⟩ .all).runStill
        (ofFixture .twinTables) = .ok [.ofNumber 2, .ofNumber 4] ∧
    (Chain.resolve [.anyDepth, .select .cell none none] ⟨"node-0"⟩ .first).runStill
        (ofFixture .twinTables) = .ok [.ofNumber 2] ∧
    (Chain.resolve [.anyDepth, .select .cell none (some (-1))] ⟨"node-0"⟩ .all).runStill
        (ofFixture .twinTables) = .ok [.ofNumber 4] := by
  have hroot : (ofFixture .twinTables).liveId? ⟨"node-0"⟩ = some 0 := by decide
  have hcells : (ofFixture .twinTables).evaluate false [0]
      [.anyDepth, .select .cell none none] = .ok [2, 4] := by
    rfl
  have hlast : (ofFixture .twinTables).evaluate false [0]
      [.anyDepth, .select .cell none (some (-1))] = .ok [4] := by
    rfl
  obtain ⟨hall, hfirst, -⟩ := reachable_twinTables.resolve_chain hroot (List.cons_ne_nil _ _)
  obtain ⟨hpicked, -⟩ := reachable_twinTables.resolve_chain hroot (List.cons_ne_nil _ _)
  refine ⟨reachable_twinTables, hroot, hcells, ?_, ?_, ?_⟩
  · rw [hall, hcells]
    rfl
  · rw [hfirst, hcells]
    rfl
  · rw [hpicked, hlast]
    rfl

end LiveTree

end ElementFinder
