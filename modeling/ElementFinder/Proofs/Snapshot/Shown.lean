import ElementFinder.Proofs.Snapshot.Ancestors
import ElementFinder.Proofs.Snapshot.Built

/-!
# What page sources and accessibility trees show

Both views of a snapshot are made by a walk down the links that turns back at some nodes: the page
source at the invisible ones, the accessibility tree at the accessible ones.  In a snapshot that was
built, such a walk meets a node exactly when it does not turn back at any of its ancestors
(`Checked.visits_eq_filter`), so both views are described without the walk, by a condition on
ancestors: `Built.pageSource_shows` and `Built.accessibilityTree_offers`.

The page source also keeps the nesting.  It is compared by places in pre-order: the element at some
place stands right below the element at the place of the parent (`holders_pageWithin`).
-/

namespace ElementFinder

/-! ## Walks that turn back -/

namespace Snapshot

namespace Checked

variable {s : Snapshot}

/-- **Walks that turn back.**  From a node above which it does not turn back, such a walk meets the
nodes above which it does not turn back. -/
theorem visits_eq_filter (h : s.Checked) (enter : Nat → Bool) (depth : Nat) {id : Nat}
    (habove : (s.ancestors id).all enter = true) :
    s.links.visits enter depth id =
      (s.links.walk depth id).filter fun k => (s.ancestors k).all enter := by
  induction depth generalizing id with
  | zero => rfl
  | succ depth ih =>
      cases hid : s.links id with
      | none => simp [Links.visits, Links.walk, hid]
      | some children =>
          have hchild : ∀ c ∈ children, s.links.Child id c := fun c hc => ⟨children, hid, hc⟩
          have hbelow : (if enter id then children.flatMap (s.links.visits enter depth) else []) =
              (children.flatMap (s.links.walk depth)).filter fun k =>
                (s.ancestors k).all enter := by
            split
            · rename_i henter
              rw [List.filter_flatMap]
              refine List.flatMap_congr fun c hc => ih ?_
              rw [h.ancestors_child (hchild c hc), List.all_cons, henter, habove]
              rfl
            · -- everything below has the node itself among its ancestors
              rename_i henter
              symm
              rw [List.filter_eq_nil_iff]
              intro k hk hall
              obtain ⟨c, hc, hk⟩ := List.mem_flatMap.mp hk
              have hmet := h.mem_ancestors
                (Links.below_iff.mpr ⟨c, hchild c hc, Links.within_of_mem_walk hk⟩)
              exact henter (List.all_eq_true.mp hall id hmet)
          simp only [Links.visits, Links.walk, hid, hbelow, List.filter_cons, habove, if_true]

/-- From the root it meets the nodes above which it does not turn back, in document order. -/
theorem visits_root (h : s.Checked) (enter : Nat → Bool) :
    s.links.visits enter s.size 0 =
      s.documentOrder.filter fun id => (s.ancestors id).all enter := by
  rw [documentOrder, subtree_eq_walk]
  exact h.visits_eq_filter enter s.size (by rw [h.ancestors_root]; rfl)

end Checked

/-- Document order holds nodes of the snapshot. -/
theorem Built.attributes_of_mem {s : Snapshot} (hs : s.Built) {id : Nat}
    (hid : id ∈ s.documentOrder) : ∃ a, s.attributes? id = some a := by
  obtain ⟨node, hnode⟩ := exists_node (List.mem_range.mp (hs.perm_documentOrder.mem_iff.mp hid))
  exact ⟨node.attributes, by rw [attributes?, hnode, Option.map_some]⟩

end Snapshot

/-! ## Page sources -/

namespace PageNode

mutual

/-- For each node in pre-order the place of the node right above it.  The top node stands at a
given place, and a given place is that of the node above it. -/
def holders (holder : Option Nat) (place : Nat) : PageNode → List (Option Nat)
  | mk _ children => holder :: holdersAll place (place + 1) children

/-- `holders` of nodes that stand side by side below a node. -/
def holdersAll (holder place : Nat) : List PageNode → List (Option Nat)
  | [] => []
  | n :: rest => holders (some holder) place n ++ holdersAll holder (place + n.count) rest

end

mutual

/-- The count of a page is the number of its elements. -/
theorem count_eq_length : (n : PageNode) → n.count = n.elements.length
  | mk e children => by
      rw [count, elements, List.length_cons, countAll_eq_length children, Nat.add_comm]

/-- The count of pages side by side is the number of their elements. -/
theorem countAll_eq_length : (ns : List PageNode) → countAll ns = (elementsAll ns).length
  | [] => rfl
  | n :: rest => by
      rw [countAll, elementsAll, List.length_append, count_eq_length n, countAll_eq_length rest]

end

end PageNode

namespace Snapshot

variable {s : Snapshot}

/-- The nodes that are visible together with all their ancestors, in document order. -/
def shown (s : Snapshot) : List Nat :=
  s.documentOrder.filter fun id => s.isVisible id && (s.ancestors id).all s.isVisible

/-- The nodes shown below a node down to a depth, the node itself first. -/
def shownWithin (s : Snapshot) (depth id : Nat) : List Nat :=
  (s.links.visits s.isVisible depth id).filter s.isVisible

/-- From the root, what is shown is what is visible with all its ancestors. -/
theorem Checked.shownWithin_root (h : s.Checked) : s.shownWithin s.size 0 = s.shown := by
  rw [shownWithin, h.visits_root, List.filter_filter, shown]

/-- Without a page nothing is shown. -/
theorem shownWithin_of_none {depth id : Nat} (h : s.pageWithin depth id = none) :
    s.shownWithin depth id = [] := by
  have hshown := s.elements_pageWithin depth id
  rw [h] at hshown
  exact List.map_eq_nil_iff.mp hshown.symm

/-- A page has the elements of the nodes shown. -/
theorem elements_of_some {depth id : Nat} {page : PageNode}
    (h : s.pageWithin depth id = some page) :
    page.elements = (s.shownWithin depth id).map s.pageElement := by
  have hshown := s.elements_pageWithin depth id
  rwa [h, Option.toList_some, List.flatMap_singleton] at hshown

/-- A page counts the nodes shown. -/
theorem count_of_some {depth id : Nat} {page : PageNode} (h : s.pageWithin depth id = some page) :
    page.count = (s.shownWithin depth id).length := by
  rw [page.count_eq_length, elements_of_some h, List.length_map]

/-- The page of a visible node has the pages of its children below it. -/
theorem pageWithin_succ {depth id : Nat} {node : SnapshotNode} (hid : s.node? id = some node)
    (hvisible : s.isVisible id = true) :
    s.pageWithin (depth + 1) id =
      some (.mk (.ofAttributes node.attributes)
        (node.children.filterMap (s.pageWithin depth))) := by
  simp [pageWithin, hid, hvisible]

/-- Below a visible node the nodes below its children are shown. -/
theorem shownWithin_succ {depth id : Nat} {node : SnapshotNode} (hid : s.node? id = some node)
    (hvisible : s.isVisible id = true) :
    s.shownWithin (depth + 1) id = id :: node.children.flatMap (s.shownWithin depth) := by
  simp [shownWithin, Links.visits, links, hid, hvisible, List.filter_flatMap]
  rfl

/-- What stands side by side below a node is listed right below it, when each of the parts is. -/
theorem holdersAll_pageWithin {depth holder : Nat} {listed cs : List Nat}
    (heach : ∀ c ∈ cs, ∀ page place, s.pageWithin depth c = some page →
      s.shownWithin depth c <+: listed.drop place →
      (page.holders (some holder) place).map (fun k => k.bind (listed[·]?)) =
        (s.shownWithin depth c).map s.parent?)
    {place : Nat} (hlisted : cs.flatMap (s.shownWithin depth) <+: listed.drop place) :
    (PageNode.holdersAll holder place (cs.filterMap (s.pageWithin depth))).map
        (fun k => k.bind (listed[·]?)) =
      (cs.flatMap (s.shownWithin depth)).map s.parent? := by
  induction cs generalizing place with
  | nil => rfl
  | cons c cs ih =>
      obtain ⟨hhere, hothers⟩ := List.forall_mem_cons.mp heach
      rw [List.flatMap_cons] at hlisted ⊢
      cases hpage : s.pageWithin depth c with
      | none =>
          rw [shownWithin_of_none hpage, List.nil_append] at hlisted ⊢
          rw [List.filterMap_cons_none hpage]
          exact ih hothers hlisted
      | some page =>
          obtain ⟨after, hafter⟩ := hlisted
          rw [List.append_assoc] at hafter
          have hrest : cs.flatMap (s.shownWithin depth) <+: listed.drop (place + page.count) := by
            refine ⟨after, ?_⟩
            rw [← List.drop_drop, ← hafter, count_of_some hpage, List.drop_left]
          rw [List.filterMap_cons_some hpage, PageNode.holdersAll, List.map_append,
            List.map_append, hhere page place hpage ⟨_, hafter⟩, ih hothers hrest]

/-- **Nesting.**  Where the nodes shown below a node are listed from some place on, the node that a
node of the page stands in is the one listed at the place of its parent. -/
theorem Checked.holders_pageWithin (h : s.Checked) {depth id : Nat} {page : PageNode}
    (hpage : s.pageWithin depth id = some page) {listed : List Nat} {holder : Option Nat}
    {place : Nat} (hholder : holder.bind (listed[·]?) = s.parent? id)
    (hlisted : s.shownWithin depth id <+: listed.drop place) :
    (page.holders holder place).map (fun k => k.bind (listed[·]?)) =
      (s.shownWithin depth id).map s.parent? := by
  induction depth generalizing id page holder place with
  | zero => cases hpage
  | succ depth ih =>
      cases hid : s.node? id with
      | none => simp [pageWithin, hid] at hpage
      | some node =>
          cases hvisible : s.isVisible id with
          | false => simp [pageWithin, hvisible] at hpage
          | true =>
              obtain rfl := Option.some.inj ((pageWithin_succ hid hvisible).symm.trans hpage)
              rw [shownWithin_succ hid hvisible] at hlisted ⊢
              obtain ⟨after, hafter⟩ := hlisted
              have hhere : listed[place]? = some id := by
                have hhead := congrArg List.head? hafter
                simpa using hhead.symm
              have hbelow : node.children.flatMap (s.shownWithin depth) <+:
                  listed.drop (place + 1) := by
                refine ⟨after, ?_⟩
                rw [← List.drop_drop, ← hafter]
                rfl
              have hparent : ∀ c ∈ node.children, s.parent? c = some id :=
                fun c hc => h.parent_of_child (child_iff.mpr ⟨node, hid, hc⟩)
              rw [PageNode.holders, List.map_cons, List.map_cons, hholder,
                holdersAll_pageWithin ?_ hbelow]
              intro c hc page place hpage hlisted
              exact ih hpage (hhere.trans (hparent c hc).symm) hlisted

/-- **Page sources.**  There is none exactly when the root is invisible.  Otherwise it shows, in
document order, the nodes that are visible together with all their ancestors, each with the short
name of its type, its identifier, derived name, value, label and frame, and whether it is enabled;
the element that an element stands in shows the parent of its node; and the count is the number of
these nodes. -/
theorem Built.pageSource_shows (hs : s.Built) :
    (s.pageSource? = none ↔ s.isVisible 0 = false) ∧
      ∀ page, s.pageSource? = some page →
        page.elements.map some =
            s.shown.map (fun id => (s.attributes? id).map fun a =>
              { elementType := a.elementType.shortName
                identifier := a.identifier
                name := a.derivedName?.getD ""
                value := a.valueText
                label := a.label
                rect := a.frame.integral
                frame := a.frame.frameText
                enabled := a.enabled }) ∧
          (page.holders none 0).map (fun k => k.bind (s.shown[·]?)) = s.shown.map s.parent? ∧
          page.count = s.shown.length := by
  have hchecked := hs.checked
  obtain ⟨top, htop⟩ := exists_node hchecked.nonempty
  have hroot := hchecked.shownWithin_root
  constructor
  · obtain ⟨depth, hdepth⟩ := Nat.exists_eq_succ_of_ne_zero (Nat.ne_of_gt hchecked.nonempty)
    rw [pageSource?, hdepth]
    cases hvisible : s.isVisible 0 with
    | false => simp [pageWithin, hvisible]
    | true => simp [pageWithin_succ htop hvisible]
  · intro page hpage
    refine ⟨?_, ?_, ?_⟩
    · rw [elements_of_some hpage, hroot, List.map_map]
      refine List.map_congr_left fun id hid => ?_
      obtain ⟨a, ha⟩ := hs.attributes_of_mem (List.mem_of_mem_filter hid)
      simp [pageElement, PageElement.ofAttributes, ha]
    · rw [← hroot]
      have htopless : s.parent? 0 = none := (hchecked.orphan_iff hchecked.nonempty).mpr rfl
      exact hchecked.holders_pageWithin hpage htopless.symm (List.prefix_refl _)
    · rw [count_of_some hpage, hroot]

/-- A frame with an area. -/
def square : Rect := ⟨.zero, .zero, .ofNat 9, .ofNat 9⟩

/-- A top with a visible child that gets its own child last, a selected button that is not enabled,
and with a hidden child that has a visible one. -/
def hiddenBranch : Snapshot :=
  ((((ofRoot { frame := square }).push 0 { frame := square }).push 0 {}).push 2
    { frame := square }).push 1
      { elementType := .button, identifier := "ok", label := "Save", enabled := false,
        selected := true, frame := square }

/-- The example is built by pushes. -/
theorem built_hiddenBranch : hiddenBranch.Built :=
  ((((Built.ofRoot _).push 0 _).push 0 _).push 2 _).push 1 _

/-- The hidden branch is left out as a whole, and the button is shown where it hangs. -/
theorem pageSource_shows_hiddenBranch :
    hiddenBranch.Built ∧ hiddenBranch.isVisible 3 = true ∧ hiddenBranch.shown = [0, 1, 4] ∧
      ∃ page, hiddenBranch.pageSource? = some page ∧ page.count = 3 ∧
        (page.holders none 0).map (fun k => k.bind ([0, 1, 4][·]?)) = [none, some 0, some 1] ∧
        page.elements[2]? = some
          { elementType := "Button", identifier := "ok", name := "ok", value := "1",
            label := "Save", rect := square, frame := "\x7b\x7b0, 0\x7d, \x7b9, 9\x7d\x7d",
            enabled := false } := by
  have hshown : hiddenBranch.shown = [0, 1, 4] := by decide +kernel
  obtain ⟨hnone, hsome⟩ := built_hiddenBranch.pageSource_shows
  cases hpage : hiddenBranch.pageSource? with
  | none => exact absurd (hnone.mp hpage) (by decide +kernel)
  | some page =>
      obtain ⟨helements, hholders, hcount⟩ := hsome page hpage
      rw [hshown] at helements hholders hcount
      refine ⟨built_hiddenBranch, by decide +kernel, hshown, page, rfl, hcount, hholders, ?_⟩
      apply Option.map_injective fun _ _ => Option.some.inj
      rw [← List.getElem?_map, helements]
      decide +kernel

end Snapshot

/-! ## Accessibility trees -/

namespace AccessibilityNode

/-- The value and label that a node carries; groups carry none. -/
def content? : AccessibilityNode → Option (String × String)
  | leaf value label => some (value, label)
  | group _ => none

/-- The nodes right below a node. -/
def children : AccessibilityNode → List AccessibilityNode
  | leaf _ _ => []
  | group children => children

mutual

/-- A node and all nodes below it, each before those below it. -/
def nodes : AccessibilityNode → List AccessibilityNode
  | leaf value label => [leaf value label]
  | group children => group children :: nodesAll children

/-- `nodes` of each node. -/
def nodesAll : List AccessibilityNode → List AccessibilityNode
  | [] => []
  | n :: rest => nodes n ++ nodesAll rest

end

/-- The nodes of trees side by side are those of each. -/
theorem nodesAll_eq (ns : List AccessibilityNode) : nodesAll ns = ns.flatMap nodes := by
  induction ns with
  | nil => rfl
  | cons n rest ih => rw [nodesAll, ih, List.flatMap_cons]

/-- A node stands before the nodes below it. -/
theorem nodes_eq_cons (n : AccessibilityNode) : n.nodes = n :: nodesAll n.children := by
  cases n <;> rfl

mutual

/-- The leaves are the nodes that carry something. -/
theorem leaves_eq_filterMap : (n : AccessibilityNode) → n.leaves = n.nodes.filterMap content?
  | leaf _ _ => rfl
  | group children => leavesAll_eq_filterMap children

/-- The leaves of trees side by side are the nodes that carry something. -/
theorem leavesAll_eq_filterMap :
    (ns : List AccessibilityNode) → leavesAll ns = (nodesAll ns).filterMap content?
  | [] => rfl
  | n :: rest => by
      rw [leavesAll, nodesAll, List.filterMap_append, leaves_eq_filterMap n,
        leavesAll_eq_filterMap rest]

end

/-- A node that is not empty and carries nothing has nodes below it. -/
theorem children_ne_nil {n : AccessibilityNode} (hn : n.isEmpty = false)
    (hcontent : n.content? = none) : n.children ≠ [] := by
  rintro hchildren
  cases n with
  | leaf value label => cases hcontent
  | group children =>
      obtain rfl : children = [] := hchildren
      cases hn

end AccessibilityNode

namespace Snapshot

variable {s : Snapshot}

/-- The nodes that are accessible and visible and have no accessible ancestor, in document
order. -/
def offered (s : Snapshot) : List Nat :=
  s.documentOrder.filter fun id =>
    (s.isAccessible id && s.isVisible id) && (s.ancestors id).all fun k => !s.isAccessible k

/-- No node below the top of an accessibility tree is empty. -/
theorem not_isEmpty_accessibilityWithin {depth id : Nat} {n : AccessibilityNode}
    (hn : n ∈ AccessibilityNode.nodesAll (s.accessibilityWithin depth id).children) :
    n.isEmpty = false := by
  induction depth generalizing id with
  | zero => cases hn
  | succ depth ih =>
      cases hid : s.node? id with
      | none => simp [accessibilityWithin, hid, AccessibilityNode.children,
          AccessibilityNode.nodesAll] at hn
      | some node =>
          cases haccessible : s.isAccessible id with
          | true =>
              cases hvisible : s.isVisible id <;>
                simp [accessibilityWithin, hid, haccessible, hvisible, AccessibilityNode.children,
                  AccessibilityNode.nodesAll] at hn
          | false =>
              simp only [accessibilityWithin, hid, haccessible, Bool.false_eq_true, if_false,
                AccessibilityNode.children, AccessibilityNode.nodesAll_eq, List.mem_flatMap,
                List.mem_filter, List.mem_map] at hn
              obtain ⟨_, ⟨⟨c, -, rfl⟩, hkept⟩, hn⟩ := hn
              rw [AccessibilityNode.nodes_eq_cons, List.mem_cons] at hn
              rcases hn with rfl | hbelow
              · simpa using hkept
              · exact ih hbelow

/-- **Accessibility trees.**  The nodes that carry a value and a label have nothing below them.
From left to right they show the nodes that are accessible and visible and have no accessible
ancestor, in document order.  All other nodes but the root have something below them. -/
theorem Built.accessibilityTree_offers (hs : s.Built) :
    (∀ n ∈ s.accessibilityTree.nodes, n.content?.isSome = true → n.children = []) ∧
      (s.accessibilityTree.nodes.filterMap AccessibilityNode.content?).map some =
        s.offered.map (fun id => (s.attributes? id).map fun a => (a.valueText, a.label)) ∧
      ∀ n ∈ s.accessibilityTree.nodes.tail, n.content? = none → n.children ≠ [] := by
  refine ⟨?_, ?_, ?_⟩
  · intro n _ hcontent
    cases n with
    | leaf value label => rfl
    | group children => cases hcontent
  · have hleaves := s.leaves_accessibilityWithin s.size 0
    rw [hs.checked.visits_root, List.filter_filter] at hleaves
    change s.accessibilityTree.leaves = s.offered.map s.leafOf at hleaves
    rw [← AccessibilityNode.leaves_eq_filterMap, hleaves, List.map_map]
    refine List.map_congr_left fun id hid => ?_
    obtain ⟨a, ha⟩ := hs.attributes_of_mem (List.mem_of_mem_filter hid)
    simp [leafOf, ha]
  · intro n hn hcontent
    rw [AccessibilityNode.nodes_eq_cons, List.tail_cons] at hn
    exact AccessibilityNode.children_ne_nil (not_isEmpty_accessibilityWithin hn) hcontent

/-- A top with an accessible cell, which has an accessible button, and with a group in which nothing
is accessible; the cell gets its button last. -/
def cellAndGroup : Snapshot :=
  ((((ofRoot { frame := square }).push 0
      { elementType := .cell, label := "row", frame := square, accessible := true }).push 0
    { frame := square }).push 2 { frame := square }).push 1
      { elementType := .button, label := "edit", frame := square, accessible := true }

/-- The example is built by pushes. -/
theorem built_cellAndGroup : cellAndGroup.Built :=
  ((((Built.ofRoot _).push 0 _).push 0 _).push 2 _).push 1 _

/-- The cell is offered as a whole, and the group is left out. -/
theorem accessibilityTree_offers_cellAndGroup :
    cellAndGroup.Built ∧ cellAndGroup.offered = [1] ∧
      (cellAndGroup.accessibilityTree.nodes.filterMap AccessibilityNode.content?).map some =
        [some ("", "row")] := by
  have hoffered : cellAndGroup.offered = [1] := by decide +kernel
  obtain ⟨-, hcontents, -⟩ := built_cellAndGroup.accessibilityTree_offers
  rw [hoffered] at hcontents
  exact ⟨built_cellAndGroup, hoffered, hcontents⟩

end Snapshot

end ElementFinder
