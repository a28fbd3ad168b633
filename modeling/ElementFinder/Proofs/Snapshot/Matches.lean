import ElementFinder.Proofs.Snapshot.PathKeys
import ElementFinder.Proofs.XPath.Present

/-!
# Matches are index paths

An expression selects nodes of the document, and what is matched are the index paths of the
elements that these nodes stand for.  An element may be selected itself, through one of its
attributes, or, the top one, through the root of the document; however many of these are selected,
its path is matched once.  The element carries its path as an attribute, so the paths can be read
off the document (`carriedPath?_eq`), and as selected nodes are in the document none is lost
(`matching_selects`).
-/

namespace ElementFinder

namespace XPath

namespace Document

theorem distinct_of_nodup {ns : List Node} (h : ns.Nodup) : distinct ns = ns := by
  induction ns with
  | nil => rfl
  | cons m ns ih =>
      obtain ⟨hm, hns⟩ := List.nodup_cons.mp h
      cases ns with
      | nil => rfl
      | cons n ns =>
          have hne : m ≠ n := fun heq => hm (heq ▸ List.mem_cons_self)
          rw [distinct, if_neg hne, ih hns]

/-- Nodes that stand in document order, each once, are a set already. -/
theorem Ordered.nodeSet_eq {d : Document} {ns : List Node} (h : d.Ordered ns) (hns : ns.Nodup) :
    d.nodeSet ns = ns := by
  rw [nodeSet, List.mergeSort_of_pairwise h, distinct_of_nodup hns]

end Document

/-- The root together with an attribute of the top element. -/
theorem Document.select_rootAndLabel {d : Document} (hsize : d.size ≠ 0) {place : Nat}
    (hlabel : ((Axis.attribute.select d (.element 0)).filter fun n =>
      NodeTest.passes d .attribute n (.named "label")) = [.attribute 0 place]) :
    d.select "/ | /*/@label" = .ok [.root, .attribute 0 place] := by
  have htokens : Token.ofText? "/ | /*/@label" =
      some [.slash, .operator .union, .slash, .test .anyName, .slash, .axis .attribute,
        .test (.named "label")] := by
    decide +kernel
  have hread : Expr.ofText "/ | /*/@label" = .ok (.binary .union .root
      (.path .root [.mk .child .anyName [], .mk .attribute (.named "label") []])) := by
    rw [Expr.ofText, htokens]
    rfl
  have hwalk : walk d [.root] [.mk .child .anyName [], .mk .attribute (.named "label") []] =
      .ok [.attribute 0 place] := by
    rw [walk_top d hsize, walk_plain, List.map_singleton, List.flatMap_singleton, hlabel,
      Ordered.nodeSet_eq (List.pairwise_singleton _ _) (List.nodup_singleton _), walk]
  have hunion : d.nodeSet ([.root] ++ [.attribute 0 place]) = [.root, .attribute 0 place] :=
    Ordered.nodeSet_eq (by simp [Ordered, before, rank]) (by simp)
  have hvalue : evaluate d ⟨.root, 1, 1⟩ (.binary .union .root
      (.path .root [.mk .child .anyName [], .mk .attribute (.named "label") []])) =
        .ok (.nodes [.root, .attribute 0 place]) := by
    rw [evaluate, evaluate_path hwalk, evaluate, ← hunion]
    rfl
  rw [Document.select, hread]
  simp only [hvalue]

/-- Nodes stand for an element when they hold it, one of its attributes, or, for the top element,
the root of the document. -/
def StandFor (ns : List Node) (k : Nat) : Prop :=
  .element k ∈ ns ∨ (∃ place, .attribute k place ∈ ns) ∨ k = 0 ∧ .root ∈ ns

theorem exists_owner_iff {ns : List Node} {k : Nat} :
    (∃ n, n ∈ ns ∧ n.owner? = some k) ↔ StandFor ns k := by
  constructor
  · rintro ⟨n, hn, howner⟩
    match n, hn, howner with
    | .root, hn, rfl => exact .inr (.inr ⟨rfl, hn⟩)
    | .element _, hn, rfl => exact .inl hn
    | .attribute _ place, hn, rfl => exact .inr (.inl ⟨place, hn⟩)
  · rintro (hn | ⟨place, hn⟩ | ⟨rfl, hn⟩)
    · exact ⟨_, hn, rfl⟩
    · exact ⟨_, hn, rfl⟩
    · exact ⟨_, hn, rfl⟩

end XPath

/-- The index path that an element of the document carries. -/
def Markup.carriedPath? (m : Markup) (k : Nat) : Option String :=
  m.document.entries[k]?.bind fun e => e.attributes.lookup Markup.pathKey

namespace Snapshot

/-- Elements carry the paths of their places. -/
theorem carriedPath?_eq (s : Snapshot) (rootPath : String) (k : Nat) :
    (s.markup rootPath).carriedPath? k = (s.markup rootPath).paths[k]? := by
  have hlookup := congrArg (·[k]?) (s.map_lookup_entries rootPath)
  simp only [List.getElem?_map, Array.getElem?_toList] at hlookup
  rw [Markup.carriedPath?]
  cases hentry : (s.markup rootPath).document.entries[k]? <;>
    cases hpath : (s.markup rootPath).paths[k]? <;> simp [hentry, hpath] at hlookup ⊢
  exact hlookup

/-- **Matches are the selected elements.**  Where an expression selects nodes, it matches index
paths of the snapshot in document order, each once.  A path is matched exactly when it is carried
by an element that is selected, or has a selected attribute, or is the top one while the root is
selected.  Selected nodes are nodes of the document, so each of these elements carries a path. -/
theorem Built.matching_selects {s : Snapshot} (hs : s.Built) (rootPath expression : String)
    {ns : List XPath.Node}
    (hselect : (s.markup rootPath).document.select (XPath.normalized expression) = .ok ns) :
    ∃ matched, (s.markup rootPath).matching expression = .ok matched ∧
      (matched.map Prod.fst).Sublist (s.markup rootPath).paths ∧
      (matched.map Prod.fst).Nodup ∧
      (matched.map Prod.snd).Sublist s.documentOrder ∧
      (∀ path, path ∈ matched.map Prod.fst ↔
        ∃ k, (s.markup rootPath).carriedPath? k = some path ∧ XPath.StandFor ns k) ∧
      ∀ n ∈ ns, (s.markup rootPath).document.Has n := by
  have hmatching : (s.markup rootPath).matching expression =
      .ok ((ns.filterMap XPath.Node.owner?).eraseDups.filterMap
        fun k => (s.markup rootPath).places[k]?) := by
    rw [Markup.matching, XPath.Document.matching, hselect]
    rfl
  have hplaces := Markup.sublist_of_matching hmatching
  have hpaths := hplaces.map Prod.fst
  have hnodes := hplaces.map Prod.snd
  rw [hs.checked.map_snd_places hs.children_nodup] at hnodes
  refine ⟨_, hmatching, hpaths, (s.nodup_paths rootPath).sublist hpaths, hnodes, ?_,
    XPath.Document.select_has (XPath.Document.nested_ofElement _) hselect⟩
  intro path
  simp only [List.map_filterMap, List.mem_filterMap, List.mem_eraseDups,
    XPath.exists_owner_iff, carriedPath?_eq, Markup.paths, List.getElem?_map]
  exact exists_congr fun k => and_comm

/-- The root and an attribute of the top element are both selected, and the path of the top element
is matched once. -/
theorem matching_selects_lateGrandchild :
    lateGrandchild.Built ∧
      (lateGrandchild.markup "0,1").document.select (XPath.normalized "/ | /*/@label") =
        .ok [.root, .attribute 0 1] ∧
      ∃ matched, (lateGrandchild.markup "0,1").matching "/ | /*/@label" = .ok matched ∧
        "0,1" ∈ matched.map Prod.fst ∧ (matched.map Prod.fst).Nodup := by
  have hbuilt : lateGrandchild.Built := (((Built.ofRoot {}).push 0 {}).push 0 {}).push 1 {}
  have hselect : (lateGrandchild.markup "0,1").document.select
      (XPath.normalized "/ | /*/@label") = .ok [.root, .attribute 0 1] := by
    have hsame : XPath.normalized "/ | /*/@label" = "/ | /*/@label" := by decide
    rw [hsame]
    exact XPath.Document.select_rootAndLabel (by decide) (by decide)
  obtain ⟨matched, hmatched, -, honce, -, hpaths, -⟩ :=
    hbuilt.matching_selects "0,1" "/ | /*/@label" hselect
  refine ⟨hbuilt, hselect, matched, hmatched, (hpaths _).mpr ⟨0, ?_, .inr (.inr ⟨rfl, ?_⟩)⟩, honce⟩
  · decide
  · exact List.mem_cons_self

end Snapshot

end ElementFinder
