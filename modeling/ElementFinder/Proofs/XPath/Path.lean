import Mathlib.Data.List.Sort
import ElementFinder.XPath.Matching

/-!
# Paths without predicates

A step without predicates takes a set of nodes to what lies along its axis and passes its test.
The set is sorted after every step, so a set of elements is the increasing list of its members
(`nodeSet_elements`), and it is enough to know these: the steps that name tests and slashes stand
for are described by the members of the sets that they lead from and to (`walk_child`,
`walk_descendants`).
-/

namespace ElementFinder.XPath

namespace Document

theorem before_element (d : Document) (i j : Nat) :
    d.before (.element i) (.element j) = decide (i ≤ j) := by
  rw [before, rank, rank, ← Bool.coe_iff_coe]
  simp only [Bool.or_eq_true, Bool.and_eq_true, decide_eq_true_iff]
  omega

/-- Without its repetitions a sorted list of elements holds each of them once. -/
theorem exists_distinct_eq {is : List Nat} (his : is.Pairwise (· ≤ ·)) :
    ∃ js : List Nat, distinct (is.map .element) = js.map .element ∧ js.Pairwise (· < ·) ∧
      ∀ i, i ∈ js ↔ i ∈ is := by
  induction is with
  | nil => exact ⟨[], rfl, .nil, fun _ => Iff.rfl⟩
  | cons i is ih =>
      obtain ⟨hle, hsorted⟩ := List.pairwise_cons.mp his
      obtain ⟨js, hdistinct, hjs, hmem⟩ := ih hsorted
      cases is with
      | nil => exact ⟨[i], rfl, List.pairwise_singleton _ i, fun _ => Iff.rfl⟩
      | cons j is =>
          by_cases heq : i = j
          · subst heq
            refine ⟨js, ?_, hjs, ?_⟩
            · rw [List.map_cons, List.map_cons, distinct, if_pos rfl]
              exact hdistinct
            · intro k
              rw [hmem k]
              simp
          · refine ⟨i :: js, ?_, List.pairwise_cons.mpr ⟨?_, hjs⟩, ?_⟩
            · rw [List.map_cons, List.map_cons, distinct, if_neg (by simpa using heq),
                ← List.map_cons, hdistinct, List.map_cons]
            · intro k hk
              have hij := hle j List.mem_cons_self
              have hjk : j ≤ k := by
                rcases List.mem_cons.mp ((hmem k).mp hk) with rfl | hk
                · exact Nat.le_refl k
                · exact (List.pairwise_cons.mp hsorted).1 k hk
              omega
            · intro k
              rw [List.mem_cons, List.mem_cons, hmem k]

/-- The set of some elements lists each of them once and in order. -/
theorem exists_nodeSet (d : Document) (is : List Nat) :
    ∃ js : List Nat, d.nodeSet (is.map .element) = js.map .element ∧ js.Pairwise (· < ·) ∧
      ∀ i, i ∈ js ↔ i ∈ is := by
  have hsort : (is.map Node.element).mergeSort d.before =
      (is.mergeSort fun i j => decide (i ≤ j)).map .element := by
    refine (List.map_mergeSort ?_).symm
    intro i _ j _
    rw [before_element]
  obtain ⟨js, hdistinct, hjs, hmem⟩ := exists_distinct_eq (List.pairwise_mergeSort' (· ≤ ·) is)
  refine ⟨js, by rw [nodeSet, hsort, hdistinct], hjs, fun i => ?_⟩
  rw [hmem i, List.mem_mergeSort]

/-- **The set of some elements** is the increasing list of its members. -/
theorem nodeSet_elements (d : Document) {is js : List Nat} (hjs : js.Pairwise (· < ·))
    (h : ∀ i, i ∈ js ↔ i ∈ is) : d.nodeSet (is.map .element) = js.map .element := by
  obtain ⟨ks, hset, hks, hmem⟩ := d.exists_nodeSet is
  have hsame : ks = js := by
    apply hks.eq_of_mem_iff hjs
    intro i
    rw [hmem i, h i]
  rw [hset, hsame]

theorem children_increasing (d : Document) (id : Nat) : (d.children id).Pairwise (· < ·) := by
  have hnumbers : (d.descendants id).Pairwise (· < ·) := by
    rw [descendants, numbers, List.pairwise_map]
    refine List.pairwise_lt_range.imp ?_
    intro a b hlt
    omega
  exact hnumbers.filter _

end Document

/-- What succeeds for every member succeeds for the list. -/
theorem mapM_eq_ok {ε α β : Type} {f : α → Except ε β} {g : α → β} {as : List α}
    (h : ∀ a ∈ as, f a = .ok (g a)) : as.mapM f = .ok (as.map g) := by
  induction as with
  | nil => rfl
  | cons a as ih =>
      obtain ⟨ha, has⟩ := List.forall_mem_cons.mp h
      rw [List.mapM_cons, ha, ih has]
      rfl

theorem takeStep_plain (d : Document) (n : Node) (axis : Axis) (test : NodeTest) :
    takeStep d n (.mk axis test []) =
      .ok ((axis.select d n).filter fun m => test.passes d axis m) := by
  simp [takeStep, keepAll]

/-- **One step.**  A step without predicates gathers what lies along its axis from every node. -/
theorem walk_plain (d : Document) (ns : List Node) (axis : Axis) (test : NodeTest)
    (rest : List Step) :
    walk d ns (.mk axis test [] :: rest) =
      walk d (d.nodeSet (ns.flatMap fun n =>
        (axis.select d n).filter fun m => test.passes d axis m)) rest := by
  have hall : (ns.mapM fun n => takeStep d n (.mk axis test [])) =
      (.ok (ns.map fun n => (axis.select d n).filter fun m => test.passes d axis m) :
        Evaluated (List (List Node))) :=
    mapM_eq_ok fun n _ => takeStep_plain d n axis test
  rw [walk, hall]
  rfl

/-- A path from the root is evaluated by walking along it. -/
theorem evaluate_path {d : Document} {steps : List Step} {ns : List Node}
    (h : walk d [.root] steps = .ok ns) :
    evaluate d ⟨.root, 1, 1⟩ (.path .root steps) = .ok (.nodes ns) := by
  rw [evaluate, evaluate]
  change (do return Value.nodes (← walk d [.root] steps)) = _
  rw [h]
  rfl

/-- A step from some elements leads to the elements that lie along its axis from one of them. -/
theorem walk_elements (d : Document) {is js : List Nat} {axis : Axis} {test : NodeTest}
    (along : Nat → List Nat)
    (hstep : ∀ i, ((axis.select d (.element i)).filter fun m => test.passes d axis m) =
      (along i).map .element)
    (hjs : js.Pairwise (· < ·)) (hmem : ∀ j, j ∈ js ↔ ∃ i ∈ is, j ∈ along i)
    (rest : List Step) :
    walk d (is.map .element) (.mk axis test [] :: rest) = walk d (js.map .element) rest := by
  have hall : ((is.map Node.element).flatMap fun n =>
      (axis.select d n).filter fun m => test.passes d axis m) =
        (is.flatMap along).map .element := by
    rw [List.flatMap_map, List.map_flatMap]
    exact List.flatMap_congr fun i _ => hstep i
  have hsame : ∀ j, j ∈ js ↔ j ∈ is.flatMap along := by
    intro j
    rw [hmem, List.mem_flatMap]
  rw [walk_plain, hall, d.nodeSet_elements hjs hsame]

/-- A step to the children that pass a test. -/
theorem walk_child (d : Document) {is js : List Nat} (test : NodeTest)
    (hjs : js.Pairwise (· < ·))
    (hmem : ∀ j, j ∈ js ↔
      (∃ i ∈ is, j ∈ d.children i) ∧ test.passes d .child (.element j) = true)
    (rest : List Step) :
    walk d (is.map .element) (.mk .child test [] :: rest) = walk d (js.map .element) rest := by
  refine walk_elements d (fun i => (d.children i).filter fun j =>
    test.passes d .child (.element j)) (fun i => ?_) hjs (fun j => ?_) rest
  · exact List.filter_map
  · simp only [hmem, List.mem_filter]
    tauto

/-- A step to the elements themselves and all elements below them. -/
theorem walk_levels (d : Document) {is js : List Nat} (hjs : js.Pairwise (· < ·))
    (hmem : ∀ j, j ∈ js ↔ ∃ i ∈ is, j = i ∨ j ∈ d.descendants i) (rest : List Step) :
    walk d (is.map .element) (.mk .descendantOrSelf .anyNode [] :: rest) =
      walk d (js.map .element) rest := by
  refine walk_elements d (fun i => i :: d.descendants i) (fun i => ?_) hjs ?_ rest
  · exact List.filter_eq_self.mpr fun _ _ => rfl
  · simpa only [List.mem_cons] using hmem

/-- Two slashes before a name: a step to all levels, and from there to the children. -/
theorem walk_descendants (d : Document) {is js : List Nat} (test : NodeTest)
    (hjs : js.Pairwise (· < ·))
    (hmem : ∀ j, j ∈ js ↔
      (∃ i ∈ is, ∃ w, (w = i ∨ w ∈ d.descendants i) ∧ j ∈ d.children w) ∧
        test.passes d .child (.element j) = true)
    (rest : List Step) :
    walk d (is.map .element) (.mk .descendantOrSelf .anyNode [] :: .mk .child test [] :: rest) =
      walk d (js.map .element) rest := by
  obtain ⟨ws, -, hincreasing, hlevels⟩ :=
    d.exists_nodeSet (is.flatMap fun i => i :: d.descendants i)
  simp only [List.mem_flatMap, List.mem_cons] at hlevels
  rw [walk_levels d hincreasing hlevels]
  refine walk_child d test hjs (fun j => ?_) rest
  rw [hmem j]
  refine and_congr_left fun _ => ?_
  constructor
  · rintro ⟨i, hi, w, hw, hchild⟩
    exact ⟨w, (hlevels w).mpr ⟨i, hi, hw⟩, hchild⟩
  · rintro ⟨w, hw, hchild⟩
    obtain ⟨i, hi, hlevel⟩ := (hlevels w).mp hw
    exact ⟨i, hi, w, hlevel, hchild⟩

/-- The first step of a path leads to the top element. -/
theorem walk_top (d : Document) (hsize : d.size ≠ 0) (rest : List Step) :
    walk d [.root] (.mk .child .anyName [] :: rest) = walk d ([0].map .element) rest := by
  have htop : ([Node.root].flatMap fun n =>
      (Axis.child.select d n).filter fun m => NodeTest.anyName.passes d .child m) =
        [0].map .element := by
    simp [Axis.select, hsize, NodeTest.passes, Axis.isPrincipal]
  rw [walk_plain, htop, d.nodeSet_elements (List.pairwise_singleton _ 0) fun _ => Iff.rfl]

/-- The path to the children of the top element selects them. -/
theorem select_topChildren (d : Document) (hsize : d.size ≠ 0) :
    d.select "/*/*" = .ok ((d.children 0).map .element) := by
  have hread : Expr.ofText "/*/*" =
      .ok (.path .root [.mk .child .anyName [], .mk .child .anyName []]) := by
    rfl
  have hchildren : ∀ j, j ∈ d.children 0 ↔ (∃ i ∈ [0], j ∈ d.children i) ∧
      NodeTest.anyName.passes d .child (.element j) = true := by
    simp [NodeTest.passes, Axis.isPrincipal]
  have hwalk : walk d [.root] [.mk .child .anyName [], .mk .child .anyName []] =
      .ok ((d.children 0).map .element) := by
    rw [walk_top d hsize, walk_child d .anyName (d.children_increasing 0) hchildren, walk]
  rw [Document.select, hread]
  simp only [evaluate_path hwalk]

end ElementFinder.XPath
