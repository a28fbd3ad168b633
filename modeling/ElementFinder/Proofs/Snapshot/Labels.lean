import ElementFinder.Proofs.XPath.LabelPath

/-!
# Paths and predicates that ask for a label

The path `//*[@label='…']` and the predicate `label == …` ask for the same thing, but the path is
rewritten before it is read: the name of the type that accepts all types becomes `*`, also between
the quotation marks.  So the path matches the elements whose label is the rewritten text
(`Built.matching_labelPath`), and it agrees with the predicate exactly for texts that do not hold
the name, or that tell nothing apart in the snapshot.
-/

namespace ElementFinder

/-- Places kept by their number are those that pass a test. -/
theorem filterMap_getElem?_filter {α : Type} {l : List α} {test : Nat → Bool} {keeps : α → Bool}
    (h : ∀ i a, l[i]? = some a → test i = keeps a) :
    (((List.range l.length).filter test).filterMap fun i => l[i]?) = l.filter keeps := by
  have hplace : ∀ e ∈ l.zipIdx, l[e.2]? = some e.1 := by
    intro e he
    obtain ⟨hlt, heq⟩ := List.mem_zipIdx' he
    rw [List.getElem?_eq_getElem hlt, heq]
  have hnumbers : List.range l.length = l.zipIdx.map Prod.snd := by
    rw [List.zipIdx_map_snd, List.range_eq_range']
  have hkept : l.zipIdx.filter (test ∘ Prod.snd) = l.zipIdx.filter (keeps ∘ Prod.fst) :=
    List.filter_congr fun e he => h e.2 e.1 (hplace e he)
  calc ((List.range l.length).filter test).filterMap (fun i => l[i]?)
      = (l.zipIdx.filter (keeps ∘ Prod.fst)).filterMap fun e => l[e.2]? := by
        rw [hnumbers, List.filter_map, hkept, List.filterMap_map]
        rfl
    _ = (l.zipIdx.filter (keeps ∘ Prod.fst)).map Prod.fst := by
        rw [← List.filterMap_eq_map]
        exact List.filterMap_congr fun e he => hplace e (List.mem_of_mem_filter he)
    _ = l.filter keeps := by
        rw [← List.filter_map, List.zipIdx_map_fst]

namespace Snapshot

variable {s : Snapshot}

theorem size_document (s : Snapshot) (rootPath : String) :
    (s.markup rootPath).document.size = (s.markup rootPath).places.length := by
  have hattributes := congrArg List.length (s.map_attributes_entriesOf s.size rootPath 0 none 0)
  simpa [XPath.Document.size, Markup.document, XPath.Document.ofElement, markup] using hattributes

/-- The label of an element is that of its node. -/
theorem any_label {k : Nat} {a : Attributes} (hk : s.attributes? k = some a)
    (path text : String) :
    ((s.markupAttributes path k).any fun a => a.1 = "label" ∧ a.2 = text) =
      decide (a.label = text) := by
  have hvalue : (a.derivedValue?.map fun v => ("value", v.display)).toList.any
      (fun a => a.1 = "label" ∧ a.2 = text) = false := by
    cases a.derivedValue? <;> simp
  have hname : (a.derivedName?.map fun name => ("name", name)).toList.any
      (fun a => a.1 = "label" ∧ a.2 = text) = false := by
    cases a.derivedName? <;> simp
  simp only [markupAttributes, shownAttributes, hk, List.any_append, hvalue, hname]
  rw [Bool.eq_iff_iff]
  simp [Markup.pathKey]

/-- The predicate that the label is some text. -/
def labelled (text : String) : Predicate :=
  .atom ⟨.label, .equal, {}, .text text⟩

theorem equals_label (text : String) : Predicate.equals "label" text = .ok (labelled text) := by
  rfl

theorem satisfies_labelled {k : Nat} {a : Attributes} (hk : s.attributes? k = some a)
    (text : String) : s.satisfies (labelled text) k = decide (a.label = text) := by
  have hview : s.view? k = some ⟨a, s.isVisible k, s.isAccessible k⟩ := by
    rw [view?, hk, Option.map_some]
  have hequal : (Comparison.mk .label .equal {} (.text text)).holdsOf (.text a.label) =
      decide (a.label = text) := by
    simp [Comparison.holdsOf, Comparison.codeOfName, Comparison.equalValues, Comparison.folded,
      String.toList_inj]
  simp only [satisfies, hview, labelled, Predicate.holds, Formula.eval, Comparison.holds]
  exact hequal

/-- The nodes at places of the document are nodes of the snapshot. -/
theorem Built.exists_attributes (hs : s.Built) {rootPath : String} {place : String × Nat}
    (hplace : place ∈ (s.markup rootPath).places) : ∃ a, s.attributes? place.2 = some a := by
  have hmet : place.2 ∈ s.documentOrder := by
    rw [← hs.checked.map_snd_places hs.children_nodup rootPath]
    exact List.mem_map_of_mem hplace
  obtain ⟨node, hnode⟩ := exists_node (List.mem_range.mp (hs.perm_documentOrder.mem_iff.mp hmet))
  exact ⟨node.attributes, by rw [attributes?, hnode, Option.map_some]⟩

/-- The path matches the nodes that have the rewritten text as their label. -/
theorem Built.matching_labelled (hs : s.Built) (rootPath : String) {text : String}
    (hquote : '\x27' ∉ text.toList) :
    (s.markup rootPath).matching (XPath.labelPath text) =
      .ok ((s.markup rootPath).places.filter fun place =>
        s.satisfies (labelled (XPath.normalized text)) place.2) := by
  have hnested := XPath.Document.nested_ofElement (s.markup rootPath).top
  have hselect := XPath.Document.select_labelPath hnested (XPath.quote_notMem_normalized hquote)
  rw [← XPath.normalized_labelPath] at hselect
  rw [Markup.matching_elements (List.nodup_range.filter _) hselect, ← Markup.document,
    s.size_document]
  refine congrArg Except.ok (filterMap_getElem?_filter fun i place hplace => ?_)
  obtain ⟨a, ha⟩ := hs.exists_attributes (List.mem_of_getElem? hplace)
  rw [s.attributes_entry_of_place rootPath hplace, any_label ha, satisfies_labelled ha]

/-- **Paths that ask for a label.**  For every text without the quotation mark the path is
evaluated, and it matches, in document order, the index paths of the nodes that satisfy the
predicate with the rewritten text.  These are the nodes that satisfy the predicate with the text
itself exactly when the text does not hold the name of the type that accepts all types, or no node
has either text as its label. -/
theorem Built.matching_labelPath (hs : s.Built) (rootPath : String) {text : String}
    (hquote : '\x27' ∉ text.toList) :
    ∃ matched asked rewritten,
      (s.markup rootPath).matching ("//*[@label='" ++ text ++ "']") = .ok matched ∧
      Predicate.equals "label" text = .ok asked ∧
      Predicate.equals "label" (XPath.normalized text) = .ok rewritten ∧
      (∀ id a, s.attributes? id = some a → (s.satisfies asked id = true ↔ a.label = text)) ∧
      matched = ((s.markup rootPath).places.filter fun place => s.satisfies rewritten place.2) ∧
      matched.map Prod.snd = s.documentOrder.filter (s.satisfies rewritten) ∧
      (matched = ((s.markup rootPath).places.filter fun place => s.satisfies asked place.2) ↔
        occursIn ElementType.any.name.toList text.toList = false ∨
          ∀ id a, s.attributes? id = some a →
            a.label ≠ text ∧ a.label ≠ XPath.normalized text) := by
  have hnodes := hs.checked.map_snd_places hs.children_nodup rootPath
  refine ⟨_, _, _, hs.matching_labelled rootPath hquote, equals_label _, equals_label _, ?_, rfl,
    ?_, ?_⟩
  · intro id a ha
    rw [satisfies_labelled ha, decide_eq_true_iff]
  · rw [← hnodes, List.filter_map]
    rfl
  rw [← XPath.normalized_eq_self_iff]
  constructor
  · intro hsame
    refine or_iff_not_imp_left.mpr fun hrewritten id a ha => ?_
    obtain ⟨path, hplace⟩ : ∃ path, (path, id) ∈ (s.markup rootPath).places := by
      have hmet : id ∈ s.documentOrder := by
        obtain ⟨node, hnode, -⟩ := Option.map_eq_some_iff.mp ha
        exact hs.perm_documentOrder.mem_iff.mpr (List.mem_range.mpr (node?_lt hnode))
      rw [← hnodes] at hmet
      obtain ⟨⟨path, _⟩, hplace, rfl⟩ := List.mem_map.mp hmet
      exact ⟨path, hplace⟩
    have halike : (path, id) ∈ (s.markup rootPath).places.filter (fun place =>
          s.satisfies (labelled (XPath.normalized text)) place.2) ↔
        (path, id) ∈ (s.markup rootPath).places.filter fun place =>
          s.satisfies (labelled text) place.2 := by
      rw [hsame]
    simp only [List.mem_filter, hplace, true_and, satisfies_labelled ha, decide_eq_true_iff]
      at halike
    exact ⟨fun hasked => hrewritten ((halike.mpr hasked).symm.trans hasked),
      fun hfound => hrewritten (hfound.symm.trans (halike.mp hfound))⟩
  · rintro (hsame | hnone)
    · rw [hsame]
    · refine List.filter_congr fun place hplace => ?_
      obtain ⟨a, ha⟩ := hs.exists_attributes hplace
      obtain ⟨hasked, hrewritten⟩ := hnone place.2 a ha
      rw [satisfies_labelled ha, satisfies_labelled ha, decide_eq_false hasked,
        decide_eq_false hrewritten]

/-- A top with two children, one labelled with the name of the type that accepts all types and one
labelled with what that name is rewritten to. -/
def namedAfterAny : Snapshot :=
  ((ofRoot {}).push 0 { label := "XCUIElementTypeAny" }).push 0 { label := "*" }

theorem built_namedAfterAny : namedAfterAny.Built :=
  ((Built.ofRoot {}).push 0 _).push 0 _

/-- A text without the name is asked for as it is. -/
theorem matching_labelPath_star :
    namedAfterAny.Built ∧ '\x27' ∉ "*".toList ∧
      ∃ matched asked, (namedAfterAny.markup "top").matching ("//*[@label='" ++ "*" ++ "']") =
          .ok matched ∧
        Predicate.equals "label" "*" = .ok asked ∧
        matched = (namedAfterAny.markup "top").places.filter fun place =>
          namedAfterAny.satisfies asked place.2 := by
  have hquote : '\x27' ∉ "*".toList := by decide
  obtain ⟨matched, asked, -, hmatched, hasked, -, -, -, -, hiff⟩ :=
    built_namedAfterAny.matching_labelPath "top" hquote
  exact ⟨built_namedAfterAny, hquote, matched, asked, hmatched, hasked,
    hiff.mpr (.inl (by decide))⟩

/-- **The name between quotation marks.**  The path asks for the label `XCUIElementTypeAny`, matches
the node labelled `*`, and misses the one that has the label. -/
theorem matching_namedAfterAny :
    namedAfterAny.Built ∧
      (namedAfterAny.markup "top").matching "//*[@label='XCUIElementTypeAny']" =
        .ok [("top,1", 2)] ∧
      (namedAfterAny.attributes? 1).map Attributes.label = some "XCUIElementTypeAny" ∧
      (namedAfterAny.markup "top").pathOf? 1 = some "top,0" := by
  have hpath : "//*[@label='XCUIElementTypeAny']" = XPath.labelPath "XCUIElementTypeAny" := by
    decide
  have hkept : ((namedAfterAny.markup "top").places.filter fun place =>
      namedAfterAny.satisfies (labelled (XPath.normalized "XCUIElementTypeAny")) place.2) =
        [("top,1", 2)] := by
    decide
  refine ⟨built_namedAfterAny, ?_, rfl, by decide⟩
  rw [hpath, built_namedAfterAny.matching_labelled "top" (by decide), hkept]

end Snapshot

end ElementFinder
