import ElementFinder.Predicate.Reading
import ElementFinder.Proofs.Live.Answer
import ElementFinder.Proofs.Snapshot.Places
import ElementFinder.Proofs.XPath.Path

/-!
# Subtree snapshots judge elements

Path expressions are evaluated on a snapshot of the element that they start from, and predicates
on a snapshot of the whole tree.  Both snapshots show an element with the same attributes and on
the same screen, so it is visible in both or in none.  Accessibility depends on the ancestors, and
a snapshot of an element holds none of those above it: an element is accessible in the whole tree
when it is so in the snapshot of the subtree and nothing above the subtree hides it
(`snapshot_judges`).  What is judged shows in the attributes of the document, where tests of path
expressions read it (`evaluate_attributeIs`).
-/

namespace ElementFinder

/-! ## Tests of an attribute -/

namespace XPath

/-- Removing repetitions keeps the members. -/
theorem mem_distinct {n : Node} (ns : List Node) : n ∈ Document.distinct ns ↔ n ∈ ns := by
  induction ns with
  | nil => rfl
  | cons m ns ih =>
      cases ns with
      | nil => rfl
      | cons m' ns =>
          rw [Document.distinct]
          split
          · rename_i hsame
            rw [ih, hsame]
            simp
          · rw [List.mem_cons, ih, List.mem_cons (a := n) (b := m)]

/-- The set of some nodes has them as members. -/
theorem Document.mem_nodeSet (d : Document) {n : Node} (ns : List Node) :
    n ∈ d.nodeSet ns ↔ n ∈ ns := by
  rw [nodeSet, mem_distinct, List.mem_mergeSort]

/-- The test that an attribute has some text, as it is written `@name='text'`. -/
def Expr.attributeIs (name text : String) : Expr :=
  .binary .equal (.path .context [.mk .attribute (.named name) []]) (.literal text)

/-- Such a test asks for an attribute with the name and the text. -/
theorem evaluate_attributeIs (d : Document) (id place size : Nat) (name text : String) :
    evaluate d ⟨.element id, place, size⟩ (.attributeIs name text) =
      .ok (.truth ((d.entry id).attributes.any fun a => a.1 = name ∧ a.2 = text)) := by
  have hnodes : evaluate d ⟨.element id, place, size⟩
        (.path .context [.mk .attribute (.named name) []]) =
      .ok (.nodes (d.nodeSet ((d.attributeNodes id).filter fun n => d.nameOf n = name))) := by
    have hpasses : ((Axis.attribute.select d (.element id)).filter fun n =>
          NodeTest.passes d .attribute n (.named name)) =
        (d.attributeNodes id).filter fun n => d.nameOf n = name := by
      apply List.filter_congr
      intro n hn
      obtain ⟨place, -, rfl⟩ := List.mem_map.mp hn
      simp [NodeTest.passes, Axis.isPrincipal]
    rw [evaluate, evaluate]
    change (do return Value.nodes (← walk d [.element id] [.mk .attribute (.named name) []])) = _
    rw [walk_plain, List.flatMap_singleton, hpasses, walk]
    rfl
  have hany : ((d.nodeSet ((d.attributeNodes id).filter fun n => d.nameOf n = name)).any
        fun n => d.textOf n = text) =
      (d.entry id).attributes.any fun a => a.1 = name ∧ a.2 = text := by
    have hplace : ∀ (i : Nat) (hi : i < (d.entry id).attributes.length),
        d.nameOf (.attribute id i) = (d.entry id).attributes[i].1 ∧
          d.textOf (.attribute id i) = (d.entry id).attributes[i].2 := by
      intro i hi
      simp [Document.nameOf, Document.textOf, Document.attribute?, hi]
    rw [Bool.eq_iff_iff]
    simp only [List.any_eq_true, d.mem_nodeSet, List.mem_filter, decide_eq_true_eq,
      Document.attributeNodes, List.mem_map, List.mem_range]
    constructor
    · rintro ⟨n, ⟨⟨i, hi, rfl⟩, hname⟩, htext⟩
      obtain ⟨hname', htext'⟩ := hplace i hi
      exact ⟨_, List.getElem_mem hi, hname'.symm.trans hname, htext'.symm.trans htext⟩
    · rintro ⟨a, ha, hname, htext⟩
      obtain ⟨i, hi, rfl⟩ := List.getElem_of_mem ha
      obtain ⟨hname', htext'⟩ := hplace i hi
      exact ⟨_, ⟨⟨i, hi, rfl⟩, hname'.trans hname⟩, htext'.trans htext⟩
  rw [Expr.attributeIs, evaluate, hnodes, evaluate]
  change Except.ok (Value.truth ((d.nodeSet
    ((d.attributeNodes id).filter fun n => d.nameOf n = name)).any fun n => d.textOf n = text)) = _
  rw [hany]

end XPath

/-! ## Attributes in the document -/

namespace Snapshot

/-- Elements side by side have the attributes of one after the other. -/
theorem map_attributes_entriesOfAll {α : Type} (parent : Nat) (elementOf : α → XmlElement)
    (shown : α → List (List (String × String))) {cs : List α} {start : Nat}
    (heach : ∀ c ∈ cs, ∀ n, (XPath.entriesOf (some parent) n (elementOf c)).map
      XPath.Entry.attributes = shown c) :
    (XPath.entriesOfAll parent start (cs.map elementOf)).map XPath.Entry.attributes =
      cs.flatMap shown := by
  induction cs generalizing start with
  | nil => rfl
  | cons c cs ih =>
      obtain ⟨hhere, hothers⟩ := List.forall_mem_cons.mp heach
      simp only [List.map_cons, XPath.entriesOfAll, List.map_append, List.flatMap_cons, hhere,
        ih hothers]

/-- Elements have the attributes of the nodes at their places. -/
theorem map_attributes_entriesOf (s : Snapshot) (depth : Nat) (path : String) (id : Nat)
    (parent : Option Nat) (n : Nat) :
    (XPath.entriesOf parent n (s.elementWithin depth path id)).map XPath.Entry.attributes =
      (s.placesWithin depth path id).map fun place => s.markupAttributes place.1 place.2 := by
  induction depth generalizing path id parent n with
  | zero => rfl
  | succ depth ih =>
      have hbelow : (XPath.entriesOfAll n (n + 1) ((s.children id).zipIdx.map fun entry =>
            s.elementWithin depth (Markup.childPath path entry.2) entry.1)).map
              XPath.Entry.attributes =
          (s.children id).zipIdx.flatMap fun entry =>
            (s.placesWithin depth (Markup.childPath path entry.2) entry.1).map
              fun place => s.markupAttributes place.1 place.2 :=
        map_attributes_entriesOfAll n _ _ fun entry _ m =>
          ih (Markup.childPath path entry.2) entry.1 (some n) m
      simp only [elementWithin, XPath.entriesOf, placesWithin, List.map_cons, hbelow,
        List.map_flatMap]

/-- The element at a place has the attributes of the node there. -/
theorem attributes_entry_of_place (s : Snapshot) (rootPath : String) {k : Nat}
    {place : String × Nat} (hk : (s.markup rootPath).places[k]? = some place) :
    ((s.markup rootPath).document.entry k).attributes =
      s.markupAttributes place.1 place.2 := by
  have hentry := congrArg (·[k]?) (s.map_attributes_entriesOf s.size rootPath 0 none 0)
  simp only [List.getElem?_map] at hentry
  rw [show (s.placesWithin s.size rootPath 0)[k]? = some place from hk, Option.map_some] at hentry
  obtain ⟨e, he, hattributes⟩ := Option.map_eq_some_iff.mp hentry
  have hfound : (s.markup rootPath).document.entry k = e := by
    simp [XPath.Document.entry, Markup.document, markup, XPath.Document.ofElement, he]
  rw [hfound, hattributes]

end Snapshot

namespace Capture.Faithful

variable {c : Capture} {t : LiveTree} {top : Nat}

/-- The element with the number of a node has the attributes of the node. -/
theorem attributes_entry (h : c.Faithful t top) (ht : t.WellFormed) (rootPath : String) {k : Nat}
    (hk : k < c.snapshot.size) :
    ∃ path, ((c.snapshot.markup rootPath).document.entry k).attributes =
      c.snapshot.markupAttributes path k := by
  have hplaces := h.map_snd_places ht (Nat.lt_of_le_of_lt (Nat.zero_le k) hk) rootPath
  have hplace := congrArg (·[k]?) hplaces
  simp only [List.getElem?_map, List.getElem?_range hk] at hplace
  obtain ⟨⟨path, id⟩, hmet, rfl⟩ := Option.map_eq_some_iff.mp hplace
  exact ⟨path, c.snapshot.attributes_entry_of_place rootPath hmet⟩

end Capture.Faithful

/-! ## Tests of visibility and accessibility -/

namespace Snapshot

/-- What a snapshot judges of a node: whether it is visible, or whether it is accessible. -/
inductive Judgement where
  | visible
  | accessible

namespace Judgement

/-- The name under which paths and predicates ask for a judgement. -/
def key : Judgement → String
  | visible => "visible"
  | accessible => "accessible"

/-- The attribute that predicates compare. -/
def subject : Judgement → Attribute
  | visible => .visible
  | accessible => .accessible

/-- What a snapshot judges of a node. -/
def outcome (s : Snapshot) : Judgement → Nat → Bool
  | visible => s.isVisible
  | accessible => s.isAccessible

/-- The test of paths that a judgement has some outcome. -/
def pathTest (j : Judgement) (v : Bool) : String :=
  "@" ++ j.key ++ "='" ++ Markup.truthText v ++ "'"

/-- The predicate that a judgement has some outcome. -/
def predicateText (j : Judgement) (v : Bool) : String :=
  j.key ++ " == " ++ Markup.truthText v

/-- Whether a reader returned the test of an attribute. -/
def isPathTest (name text : String) : Except XPath.ReadingFault XPath.Expr → Bool
  | .ok (.binary .equal (.path .context [.mk .attribute (.named n) []]) (.literal t)) =>
    n = name && t = text
  | _ => false

/-- The test tells an expression on one attribute. -/
theorem eq_of_isPathTest {name text : String} {e : Except XPath.ReadingFault XPath.Expr}
    (h : isPathTest name text e = true) : e = .ok (.attributeIs name text) := by
  unfold isPathTest at h
  split at h
  · obtain ⟨rfl, rfl⟩ : _ ∧ _ := by simpa using h
    rfl
  · contradiction

/-- Whether a reader returned the comparison of an attribute with a truth value. -/
def isComparison (subject : Attribute) (v : Bool) : Except PredicateError Predicate → Bool
  | .ok (.atom ⟨s, .equal, ⟨false, false⟩, .bool b⟩) => s = subject && b = v
  | _ => false

/-- The test tells a comparison with a truth value. -/
theorem eq_of_isComparison {subject : Attribute} {v : Bool} {p : Except PredicateError Predicate}
    (h : isComparison subject v p = true) : p = .ok (.atom ⟨subject, .equal, {}, .bool v⟩) := by
  unfold isComparison at h
  split at h
  · obtain ⟨rfl, rfl⟩ : _ ∧ _ := by simpa using h
    rfl
  · contradiction

/-- The path expression of a judgement is read as a test of its attribute. -/
theorem ofText_pathTest (j : Judgement) (v : Bool) :
    XPath.Expr.ofText (j.pathTest v) = .ok (.attributeIs j.key (Markup.truthText v)) := by
  apply eq_of_isPathTest
  cases j <;> cases v <;> decide +kernel

/-- The predicate of a judgement is read as a comparison of its attribute. -/
theorem parse_predicateText (j : Judgement) (v : Bool) :
    Predicate.parse (j.predicateText v) = .ok (.atom ⟨j.subject, .equal, {}, .bool v⟩) := by
  apply eq_of_isComparison
  cases j <;> cases v <;> decide +kernel

/-- The attributes of an element tell what is judged of its node. -/
theorem any_markupAttributes {s : Snapshot} {k : Nat} {a : Attributes}
    (hk : s.attributes? k = some a) (path : String) (j : Judgement) (v : Bool) :
    ((s.markupAttributes path k).any fun a => a.1 = j.key ∧ a.2 = Markup.truthText v) =
      (j.outcome s k == v) := by
  have htruth : ∀ b c : Bool, Markup.truthText b = Markup.truthText c ↔ b = c := by decide
  have hvalue : (a.derivedValue?.map fun v => ("value", v.display)).toList.any
      (fun a => a.1 = j.key ∧ a.2 = Markup.truthText v) = false := by
    cases a.derivedValue? <;> cases j <;> simp [key]
  have hname : (a.derivedName?.map fun name => ("name", name)).toList.any
      (fun a => a.1 = j.key ∧ a.2 = Markup.truthText v) = false := by
    cases a.derivedName? <;> cases j <;> simp [key]
  simp only [markupAttributes, shownAttributes, hk, List.any_append, hvalue, hname]
  rw [Bool.eq_iff_iff]
  cases j <;> simp [key, outcome, Markup.pathKey, htruth]

/-- A predicate that compares a judgement reads what the snapshot judges. -/
theorem satisfies_comparison {s : Snapshot} {k : Nat} {a : Attributes}
    (hk : s.attributes? k = some a) (j : Judgement) (v : Bool) :
    s.satisfies (.atom ⟨j.subject, .equal, {}, .bool v⟩) k = (j.outcome s k == v) := by
  have hbool : ∀ (subject : Attribute) (b : Bool), subject ≠ .elementType →
      (Comparison.mk subject .equal {} (.bool v)).holdsOf (.bool b) = (b == v) := by
    intro subject b hsubject
    rw [Bool.eq_iff_iff]
    simpa [Comparison.holdsOf, Comparison.codeOfName, hsubject, Comparison.equalValues,
      Literal.asBool?] using eq_comm
  have hview : s.view? k = some ⟨a, s.isVisible k, s.isAccessible k⟩ := by
    rw [view?, hk, Option.map_some]
  simp only [satisfies, hview, Predicate.holds, Formula.eval, Comparison.holds]
  cases j with
  | visible => exact hbool .visible (s.isVisible k) (by decide)
  | accessible => exact hbool .accessible (s.isAccessible k) (by decide)

end Judgement

/-- A test of paths on the element of a node of one snapshot and a predicate on a node of another
snapshot decide a judgement alike. -/
def DecideAlike (sub : Snapshot) (rootPath : String) (k : Nat) (whole : Snapshot) (j : Nat)
    (w : Judgement) : Prop :=
  ∀ v, ∃ test p, XPath.Expr.ofText (w.pathTest v) = .ok test ∧
    Predicate.parse (w.predicateText v) = .ok p ∧
    ∀ place size, XPath.evaluate (sub.markup rootPath).document ⟨.element k, place, size⟩ test =
      .ok (.truth (whole.satisfies p j))

end Snapshot

/-! ## Subtree and whole tree -/

/-- Tests in the document of a capture and predicates on another snapshot decide alike what both
judge alike, and nothing else. -/
theorem Capture.Faithful.decideAlike_iff {sub : Capture} {t : LiveTree} {top : Nat}
    (hsub : sub.Faithful t top) (ht : t.WellFormed) (rootPath : String) {whole : Snapshot}
    {k j : Nat} (hk : k < sub.snapshot.size) (hj : j < whole.size) (w : Snapshot.Judgement) :
    sub.snapshot.DecideAlike rootPath k whole j w ↔
      w.outcome sub.snapshot k = w.outcome whole j := by
  obtain ⟨copy, hcopy⟩ := Snapshot.exists_node hk
  obtain ⟨copy', hcopy'⟩ := Snapshot.exists_node hj
  obtain ⟨path, hpath⟩ := hsub.attributes_entry ht rootPath hk
  have hk' : sub.snapshot.attributes? k = some copy.attributes := by
    rw [Snapshot.attributes?, hcopy, Option.map_some]
  have hj' : whole.attributes? j = some copy'.attributes := by
    rw [Snapshot.attributes?, hcopy', Option.map_some]
  have hsame : ∀ v place size,
      XPath.evaluate (sub.snapshot.markup rootPath).document ⟨.element k, place, size⟩
          (.attributeIs w.key (Markup.truthText v)) =
        .ok (.truth (w.outcome sub.snapshot k == v)) := by
    intro v place size
    rw [XPath.evaluate_attributeIs, hpath, Snapshot.Judgement.any_markupAttributes hk']
  constructor
  · intro halike
    obtain ⟨test, p, htest, hp, hdecide⟩ := halike true
    obtain rfl := Except.ok.inj ((w.ofText_pathTest true).symm.trans htest)
    obtain rfl := Except.ok.inj ((w.parse_predicateText true).symm.trans hp)
    have heq := (hsame true 1 1).symm.trans (hdecide 1 1)
    rw [Snapshot.Judgement.satisfies_comparison hj'] at heq
    simpa using heq
  · intro halike v
    refine ⟨_, _, w.ofText_pathTest v, w.parse_predicateText v, ?_⟩
    intro place size
    rw [hsame, Snapshot.Judgement.satisfies_comparison hj', halike]

namespace LiveTree

/-- **Judging in a subtree.**  The snapshot of an element shows every element within it with the
same attributes as the snapshot of the whole tree, and judges alike whether it is visible.  In the
whole tree an element is accessible when it is so in the snapshot of the subtree and no ancestor
of the top of the subtree hides it; so tests of paths and predicates on accessibility decide
differently exactly for what such an ancestor hides. -/
theorem Reachable.snapshot_judges {t : LiveTree} (ht : t.Reachable) {h : Handle} {r e : Nat}
    (hr : t.liveId? h = some r) (he : e ∈ t.subtree r) (rootPath : String) :
    ∃ sub whole k j,
      t.snapshot h = .ok sub.snapshot ∧ t.capture? r = some sub ∧ sub.nodeOf? e = some k ∧
      t.snapshot (.ofNumber root) = .ok whole.snapshot ∧ t.capture? root = some whole ∧
      whole.nodeOf? e = some j ∧
      (∃ a, sub.snapshot.attributes? k = some a ∧ whole.snapshot.attributes? j = some a) ∧
      sub.snapshot.isVisible k = whole.snapshot.isVisible j ∧
      whole.snapshot.isAccessible j =
        (sub.snapshot.isAccessible k && !(t.ancestors r).any t.shields) ∧
      sub.snapshot.DecideAlike rootPath k whole.snapshot j .visible ∧
      (sub.snapshot.DecideAlike rootPath k whole.snapshot j .accessible ↔
        ¬ (sub.snapshot.isAccessible k = true ∧ ∃ a ∈ t.ancestors r, t.shields a = true)) := by
  have hwell := ht.wellFormed
  obtain ⟨-, node, hnode⟩ := liveId?_eq_some.mp hr
  obtain ⟨top, htop, -⟩ := hwell.root_live
  obtain ⟨sub, hcapture, hsub⟩ := hwell.capture?_faithful hnode
  obtain ⟨whole, hcapture', hwhole⟩ := hwell.capture?_faithful htop
  obtain ⟨k, hk, rfl⟩ := hsub.exists_node he
  obtain ⟨j, hj, hje⟩ : ∃ j, j < whole.snapshot.size ∧ whole.liveOf j = sub.liveOf k := by
    obtain ⟨live, hlive⟩ := hsub.node_live hk
    exact hwhole.exists_node (hwell.mem_documentOrder.mpr ⟨live, hlive⟩)
  obtain ⟨live, hlive⟩ := hsub.node_live hk
  have hvisible : sub.snapshot.isVisible k = whole.snapshot.isVisible j := by
    rw [hsub.isVisible_liveOf hk, hwhole.isVisible_liveOf hj, hje]
  have haccessible : whole.snapshot.isAccessible j =
      (sub.snapshot.isAccessible k && !(t.ancestors r).any t.shields) := by
    rw [hwhole.isAccessible_root hwell hj, hje, hsub.isAccessible_liveOf hwell hk]
  refine ⟨sub, whole, k, j, ?_, hcapture, hsub.nodeOf?_liveOf hwell hk, ?_, hcapture', ?_, ?_,
    hvisible, haccessible, ?_, ?_⟩
  · simp only [snapshot, hr, Option.bind_some, hcapture]
  · simp only [snapshot, ht.liveId?_ofNumber htop, Option.bind_some, hcapture']
  · rw [← hje]
    exact hwhole.nodeOf?_liveOf hwell hj
  · refine ⟨live.attributes, ?_, ?_⟩
    · rw [hsub.attributes?_eq hk, hlive, Option.map_some]
    · rw [hwhole.attributes?_eq hj, hje, hlive, Option.map_some]
  · exact (hsub.decideAlike_iff hwell rootPath hk hj .visible).mpr hvisible
  · rw [hsub.decideAlike_iff hwell rootPath hk hj .accessible]
    simp only [Snapshot.Judgement.outcome, haccessible, ← List.any_eq_true]
    cases sub.snapshot.isAccessible k <;> cases (t.ancestors r).any t.shields <;> decide

end LiveTree

/-- A screen that is accessible as a whole, with a button in a container. -/
def Fixture.shieldedButton : Fixture :=
  .mk { accessible := true } [.mk {} [.mk { elementType := .button, accessible := true } []]]

namespace LiveTree

/-- The example is reachable. -/
theorem reachable_shieldedButton : (ofFixture .shieldedButton).Reachable :=
  .load .shieldedButton (by decide)

/-- The snapshot of the container and that of the whole tree agree on whether the button is
visible, and not on whether it is accessible. -/
theorem snapshot_judges_shieldedButton :
    (ofFixture .shieldedButton).liveId? ⟨"node-1"⟩ = some 1 ∧
    2 ∈ (ofFixture .shieldedButton).subtree 1 ∧
    ∃ (sub whole : Capture) (k j : Nat),
      (ofFixture .shieldedButton).snapshot ⟨"node-1"⟩ = .ok sub.snapshot ∧
      sub.nodeOf? 2 = some k ∧
      (ofFixture .shieldedButton).snapshot (.ofNumber root) = .ok whole.snapshot ∧
      whole.nodeOf? 2 = some j ∧ sub.snapshot.DecideAlike "0" k whole.snapshot j .visible ∧
      ¬ sub.snapshot.DecideAlike "0" k whole.snapshot j .accessible := by
  have hlive : (ofFixture .shieldedButton).liveId? ⟨"node-1"⟩ = some 1 := by decide
  have hwithin : 2 ∈ (ofFixture .shieldedButton).subtree 1 := by decide
  obtain ⟨sub, whole, k, j, hsub, hcapture, hk, hwhole, -, hj, -, -, -, hvisible, haccessible⟩ :=
    reachable_shieldedButton.snapshot_judges hlive hwithin "0"
  refine ⟨hlive, hwithin, sub, whole, k, j, hsub, hk, hwhole, hj, hvisible, ?_⟩
  rw [haccessible, not_not]
  -- in the capture of the container the button is node 1
  cases hcapture
  cases hk
  exact ⟨by decide, 0, by decide, by decide⟩

/-- The button is accessible in the snapshot of the container and not in that of the whole
tree. -/
theorem not_judged_alike_shieldedButton :
    ∃ sub whole, (ofFixture .shieldedButton).capture? 1 = some sub ∧ sub.nodeOf? 2 = some 1 ∧
      (ofFixture .shieldedButton).capture? root = some whole ∧ whole.nodeOf? 2 = some 2 ∧
      sub.snapshot.isAccessible 1 = true ∧ whole.snapshot.isAccessible 2 = false := by
  refine ⟨_, _, rfl, rfl, rfl, rfl, ?_, ?_⟩
  · decide
  · decide

end LiveTree

end ElementFinder
