import ElementFinder.Proofs.Recursion
import ElementFinder.Proofs.Snapshot.Ancestors
import ElementFinder.Proofs.Snapshot.Built

/-!
# Loops over snapshots

Links are read from outside, and no walk keeps a list of what it has visited.  All that keeps a walk
from going on for ever is the check: a parent stands before its children.  So the loop up the
parents comes to numbers that are smaller and smaller (`AncestorLoop`), and a loop down with a stack
pushes numbers that are larger than the one that they are pushed for (`SubtreeLoop`).  How often a
node is pushed does not matter, and it may be many times where lists repeat a child.

The page source, the accessibility tree and the XML form are recursions that call themselves on
children (`Returns`).  The three relations hold of runs that end, and of no others.  What is shown
is that every run ends, with what the walks to a depth compute (`Loaded.walks_end`).
-/

namespace ElementFinder

namespace Snapshot

/-! ## Up the parents -/

/-- The loop up from a node, or from where there is none.  It collects the nodes that it comes to,
and ends behind a node without a parent. -/
inductive AncestorLoop (s : Snapshot) : Option Nat → List Nat → Prop
  | done : AncestorLoop s none []
  | up {p : Nat} {met : List Nat} (rest : AncestorLoop s (s.parent? p) met) :
      AncestorLoop s (some p) (p :: met)

/-- The loop up from the parent of a node ends, and collects the ancestors of the node. -/
theorem Checked.ancestorLoop_iff {s : Snapshot} (h : s.Checked) (id : Nat) (met : List Nat) :
    s.AncestorLoop (s.parent? id) met ↔ met = s.ancestors id := by
  revert met
  refine h.up_induction
    (P := fun id => ∀ met, s.AncestorLoop (s.parent? id) met ↔ met = s.ancestors id) ?_ ?_ id
  · intro id hid met
    rw [hid, ancestors_of_orphan hid]
    constructor
    · intro hloop
      cases hloop
      rfl
    · intro hmet
      rw [hmet]
      exact .done
  · intro p id hp ih met
    rw [hp, h.ancestors_eq hp]
    constructor
    · intro hloop
      cases hloop with
      | up rest => rw [(ih _).mp rest]
    · intro hmet
      rw [hmet]
      exact .up ((ih _).mpr rfl)

/-! ## Down with a stack -/

/-- What is pushed for a node: its children, the last one first, each with the node. -/
def pushes (s : Snapshot) (id : Nat) : List (Nat × Nat) :=
  (s.children id).reverse.map (id, ·)

/-- A loop over a stack.  The number on top is taken; if there is a node with it, the number is
collected and the children of the node are pushed, so that the first of them is on top.  The loop
ends with an empty stack.  It is noted what was pushed, and for which node. -/
inductive SubtreeLoop (s : Snapshot) : (stack met : List Nat) → (pushed : List (Nat × Nat)) → Prop
  | done : SubtreeLoop s [] [] []
  | skip {id : Nat} {stack met : List Nat} {pushed : List (Nat × Nat)} (hid : s.node? id = none)
      (rest : SubtreeLoop s stack met pushed) : SubtreeLoop s (id :: stack) met pushed
  | visit {id : Nat} {node : SnapshotNode} {stack met : List Nat} {pushed : List (Nat × Nat)}
      (hid : s.node? id = some node) (rest : SubtreeLoop s (s.children id ++ stack) met pushed) :
      SubtreeLoop s (id :: stack) (id :: met) (s.pushes id ++ pushed)

/-- Begun with this stack, the loop ends. -/
def StackEnds (s : Snapshot) (stack : List Nat) : Prop :=
  ∃ met pushed, s.SubtreeLoop stack met pushed

theorem stackEnds_nil {s : Snapshot} : s.StackEnds [] :=
  ⟨[], [], .done⟩

/-- If any one of some numbers may be put on a stack and the loop still ends, all of them may. -/
theorem stackEnds_append {s : Snapshot} {ids stack : List Nat}
    (heach : ∀ id ∈ ids, ∀ stack, s.StackEnds stack → s.StackEnds (id :: stack))
    (hends : s.StackEnds stack) : s.StackEnds (ids ++ stack) := by
  induction ids with
  | nil => exact hends
  | cons id ids ih =>
      obtain ⟨hid, hids⟩ := List.forall_mem_cons.mp heach
      exact hid (ids ++ stack) (ih hids)

namespace Checked

variable {s : Snapshot}

theorem child_range (h : s.Checked) {p c : Nat} (hc : c ∈ s.children p) : p < c ∧ c < s.size := by
  have hp := h.parent_of_child (mem_children.mp hc)
  exact ⟨h.parent_lt hp, lt_of_parent? hp⟩

/-- What is pushed is in range, and larger than what it is pushed for. -/
theorem range_of_mem_pushes (h : s.Checked) {id : Nat} {e : Nat × Nat} (he : e ∈ s.pushes id) :
    e.1 < e.2 ∧ e.2 < s.size := by
  obtain ⟨c, hc, rfl⟩ := List.mem_map.mp he
  exact h.child_range (List.mem_reverse.mp hc)

/-- Any number may be put on a stack and the loop still ends: the number gives way to its children,
and these are larger. -/
theorem stackEnds_cons (h : s.Checked) (id : Nat) :
    ∀ stack, s.StackEnds stack → s.StackEnds (id :: stack) := by
  refine h.down_induction
    (P := fun id => ∀ stack, s.StackEnds stack → s.StackEnds (id :: stack)) ?_ ?_ id
  · intro id hid stack hends
    obtain ⟨met, pushed, hloop⟩ := hends
    exact ⟨met, pushed, .skip hid hloop⟩
  · intro id node hid ih stack hends
    obtain ⟨met, pushed, hloop⟩ := stackEnds_append ih hends
    rw [← children_eq hid] at hloop
    exact ⟨id :: met, s.pushes id ++ pushed, .visit hid hloop⟩

/-- Whatever is on the stack, the loop ends. -/
theorem stackEnds (h : s.Checked) (stack : List Nat) : s.StackEnds stack := by
  have hends := stackEnds_append (fun c (_ : c ∈ stack) => h.stackEnds_cons c) stackEnds_nil
  rwa [List.append_nil] at hends

/-- A loop that has ended has collected the subtrees of the numbers on the stack, and has pushed the
children of what it collected. -/
theorem eq_of_subtreeLoop (h : s.Checked) {stack met : List Nat} {pushed : List (Nat × Nat)}
    (hloop : s.SubtreeLoop stack met pushed) :
    met = stack.flatMap s.subtree ∧ pushed = met.flatMap s.pushes := by
  induction hloop with
  | done => exact ⟨rfl, rfl⟩
  | skip hid _ ih =>
      rw [List.flatMap_cons, subtree_of_missing hid]
      exact ih
  | visit hid _ ih =>
      obtain ⟨hmet, hpushed⟩ := ih
      -- the children on the stack are what the recursion still has to walk
      rw [List.flatMap_append, children_eq hid] at hmet
      rw [List.flatMap_cons, List.flatMap_cons, subtree_eq h.descending hid, List.cons_append,
        ← hmet, ← hpushed]
      exact ⟨rfl, rfl⟩

/-- **A stack does what the recursion does.**  The loop ends, and in this one way only. -/
theorem subtreeLoop_iff (h : s.Checked) {stack met : List Nat} {pushed : List (Nat × Nat)} :
    s.SubtreeLoop stack met pushed ↔
      met = stack.flatMap s.subtree ∧ pushed = met.flatMap s.pushes := by
  refine ⟨h.eq_of_subtreeLoop, ?_⟩
  rintro ⟨rfl, rfl⟩
  obtain ⟨met, pushed, hloop⟩ := h.stackEnds stack
  obtain ⟨rfl, rfl⟩ := h.eq_of_subtreeLoop hloop
  exact hloop

end Checked

/-! ## Recursions on children -/

/-- The page source of a node calls itself on the children of the node if the node is visible. -/
def pageCalls (s : Snapshot) (k : Nat) : List Nat :=
  if s.isVisible k then s.children k else []

/-- The page source of a node, from what the calls on its children returned. -/
def makePage (s : Snapshot) (k : Nat) (below : List (Option PageNode)) : Option PageNode :=
  if s.isVisible k then
    (s.node? k).map fun node => .mk (.ofAttributes node.attributes) (below.filterMap id)
  else none

/-- The accessibility tree of a node calls itself on the children of the node unless the node is
accessible. -/
def accessibilityCalls (s : Snapshot) (k : Nat) : List Nat :=
  if s.isAccessible k then [] else s.children k

/-- The accessibility tree of a node, from what the calls on its children returned. -/
def makeAccessibility (s : Snapshot) (k : Nat) (below : List AccessibilityNode) :
    AccessibilityNode :=
  match s.node? k with
  | none => .group []
  | some node =>
    if s.isAccessible k then
      if s.isVisible k then .leaf node.attributes.valueText node.attributes.label else .group []
    else .group (below.filter fun n => !n.isEmpty)

/-- The XML form of a node with an index path calls itself on the children of the node with
theirs. -/
def markupCalls (s : Snapshot) (place : String × Nat) : List (String × Nat) :=
  (s.children place.2).zipIdx.map fun (child, k) => (Markup.childPath place.1 k, child)

/-- The element of a node and its index paths, from what the calls on its children returned. -/
def makeMarkup (s : Snapshot) (place : String × Nat)
    (below : List (XmlElement × List (String × Nat))) : XmlElement × List (String × Nat) :=
  (.mk (s.markupName place.2) (s.markupAttributes place.1 place.2) (below.map Prod.fst),
    place :: below.flatMap Prod.snd)

namespace Checked

variable {s : Snapshot}

/-- The page source of every node is returned. -/
theorem page_returns (h : s.Checked) (k : Nat) (page : Option PageNode) :
    Returns s.pageCalls s.makePage k page ↔ page = s.pageWithin s.size k := by
  have hup : CallsUp s.pageCalls id s.size := by
    intro p c hc
    rw [pageCalls] at hc
    split at hc
    · exact h.child_range hc
    · cases hc
  refine hup.returns_iff h.nonempty ?_ k page
  intro depth k
  cases hvisible : s.isVisible k with
  | false => simp [pageWithin, makePage, hvisible]
  | true => cases hnode : s.node? k <;>
      simp [pageWithin, makePage, pageCalls, children, hvisible, hnode, List.filterMap_map]

/-- The accessibility tree of every node is returned. -/
theorem accessibility_returns (h : s.Checked) (k : Nat) (tree : AccessibilityNode) :
    Returns s.accessibilityCalls s.makeAccessibility k tree ↔
      tree = s.accessibilityWithin s.size k := by
  have hup : CallsUp s.accessibilityCalls id s.size := by
    intro p c hc
    rw [accessibilityCalls] at hc
    split at hc
    · cases hc
    · exact h.child_range hc
  refine hup.returns_iff h.nonempty ?_ k tree
  intro depth k
  cases hnode : s.node? k with
  | none => simp [accessibilityWithin, makeAccessibility, hnode]
  | some node => cases haccessible : s.isAccessible k <;>
      simp [accessibilityWithin, makeAccessibility, accessibilityCalls, children, haccessible,
        hnode]

/-- The XML form of every node is returned, with the index paths below it. -/
theorem markup_returns (h : s.Checked) (path : String) (k : Nat)
    (m : XmlElement × List (String × Nat)) :
    Returns s.markupCalls s.makeMarkup (path, k) m ↔
      m = (s.elementWithin s.size path k, s.placesWithin s.size path k) := by
  have hup : CallsUp s.markupCalls Prod.snd s.size := by
    intro place below hbelow
    obtain ⟨entry, hentry, rfl⟩ := List.mem_map.mp hbelow
    exact h.child_range (List.fst_mem_of_mem_zipIdx hentry)
  refine hup.returns_iff (g := fun depth place =>
    (s.elementWithin depth place.1 place.2, s.placesWithin depth place.1 place.2))
    h.nonempty ?_ (path, k) m
  intro depth place
  simp [elementWithin, placesWithin, makeMarkup, markupCalls, List.flatMap_map, Function.comp_def]

end Checked

/-! ## Snapshots that were read -/

/-- The snapshots that are read, and what becomes of them when nodes are added. -/
inductive Loaded : Snapshot → Prop
  | read {records : List NodeRecord} {viewport : Rect} {s : Snapshot}
      (h : ofRecords records viewport = .ok s) : Loaded s
  | push {s : Snapshot} (hs : Loaded s) (parent : Nat) (a : Attributes) : Loaded (s.push parent a)

theorem Loaded.checked {s : Snapshot} (hs : s.Loaded) : s.Checked := by
  induction hs with
  | read h => exact checked_of_ofRecords h
  | push _ parent a ih => exact ih.push parent a

/-- **Walks end.**  In a snapshot that was read, and to which nodes may have been added, the loop up
the parents ends for every number.  From a node other than the root its numbers become smaller, and
the last one is 0.  The loop down with a stack ends for every number as well, and whatever it pushes
is in range and larger than the node that it is pushed for.  The page source, the accessibility tree
and the XML form of every number are returned. -/
theorem Loaded.walks_end {s : Snapshot} (hs : s.Loaded) :
    (∀ k met, s.AncestorLoop (s.parent? k) met ↔ met = s.ancestors k) ∧
      (∀ k, k < s.size → k ≠ 0 →
        (k :: s.ancestors k).Pairwise (· > ·) ∧ (s.ancestors k).getLast? = some 0) ∧
      (∀ k, s.StackEnds [k] ∧
        ∀ met pushed, s.SubtreeLoop [k] met pushed →
          met = s.subtree k ∧ ∀ e ∈ pushed, e.1 < e.2 ∧ e.2 < s.size) ∧
      (∀ k page, Returns s.pageCalls s.makePage k page ↔ page = s.pageWithin s.size k) ∧
      (∀ k tree, Returns s.accessibilityCalls s.makeAccessibility k tree ↔
        tree = s.accessibilityWithin s.size k) ∧
      ∀ path k m, Returns s.markupCalls s.makeMarkup (path, k) m ↔
        m = (s.elementWithin s.size path k, s.placesWithin s.size path k) := by
  have h := hs.checked
  refine ⟨h.ancestorLoop_iff, ?_, ?_, h.page_returns, h.accessibility_returns, h.markup_returns⟩
  · intro k hk hne
    exact ⟨h.ancestors_decrease k, h.getLast?_ancestors hk hne⟩
  · intro k
    refine ⟨h.stackEnds [k], ?_⟩
    intro met pushed hloop
    obtain ⟨hmet, hpushed⟩ := h.eq_of_subtreeLoop hloop
    rw [List.flatMap_singleton] at hmet
    refine ⟨hmet, ?_⟩
    intro e he
    rw [hpushed] at he
    obtain ⟨id, -, he⟩ := List.mem_flatMap.mp he
    exact h.range_of_mem_pushes he

/-- A snapshot whose root lists its only child twice, and whose last node no list holds. -/
def repeatedChild : Snapshot :=
  ⟨#[⟨none, [1, 1], {}⟩, ⟨some 0, [], {}⟩, ⟨some 1, [], {}⟩], .zero⟩

/-- It is read.  With one more node below the child, the loop down meets the child and the new node
twice, and the node that no list holds not at all. -/
theorem walks_end_repeatedChild :
    ofRecords [⟨0, none, [1, 1], {}⟩, ⟨1, some 0, [], {}⟩, ⟨2, some 1, [], {}⟩] .zero =
        .ok repeatedChild ∧
      (∃ pushed, (repeatedChild.push 1 {}).SubtreeLoop [0] [0, 1, 3, 1, 3] pushed ∧
        ∀ e ∈ pushed, e.1 < e.2 ∧ e.2 < 4) ∧
      (repeatedChild.push 1 {}).AncestorLoop (some 1) [1, 0] ∧
      ((repeatedChild.push 1 {}).ancestors 2).getLast? = some 0 ∧
      ∃ page, Returns (repeatedChild.push 1 {}).pageCalls (repeatedChild.push 1 {}).makePage 0
        page := by
  have hread : ofRecords
        [⟨0, none, [1, 1], {}⟩, ⟨1, some 0, [], {}⟩, ⟨2, some 1, [], {}⟩] .zero =
      .ok repeatedChild := rfl
  have hloaded : (repeatedChild.push 1 {}).Loaded := (Loaded.read hread).push 1 {}
  obtain ⟨hclimb, hdecrease, hloop, hpage, -⟩ := hloaded.walks_end
  obtain ⟨⟨met, pushed, hrun⟩, hall⟩ := hloop 0
  obtain ⟨rfl, hpushed⟩ := hall met pushed hrun
  exact ⟨hread, ⟨pushed, hrun, hpushed⟩, (hclimb 2 [1, 0]).mpr rfl,
    (hdecrease 2 (by decide) (by decide)).2, ⟨_, (hpage 0 _).mpr rfl⟩⟩

end Snapshot

end ElementFinder
