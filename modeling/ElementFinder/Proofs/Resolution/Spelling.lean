import ElementFinder.Proofs.Resolution.SameTree
import ElementFinder.Proofs.XPath.LabelPath

/-!
# Spellings of one path expression

What an expression matches follows from how it is read, so texts that are read alike, such as those
that differ in blanks between tokens, match the same places (`Markup.matching_congr`).  But the text
is looked at once more: where `last()` occurs in it, live elements are looked at from the back.
Looking from either end finds the same elements exactly when no match has a twin
(`Reconciliation.elements_facing_iff`): the first match of a look gets the first of its look-alikes
in one direction and the last in the other, and these differ as soon as there are two.
-/

namespace ElementFinder

/-! ## Lists collected alike -/

section Collect

variable {α β : Type} {f g : List α → α → Option β}

/-- When the same members give something, lists collected from them are equal exactly when every
member gives the same. -/
theorem collect_eq_iff (h : ∀ before a, (f before a).isSome = (g before a).isSome)
    {earlier rest : List α} :
    collect f earlier rest = collect g earlier rest ↔
      ∀ before a after, rest = before ++ a :: after →
        f (earlier ++ before) a = g (earlier ++ before) a := by
  induction rest generalizing earlier with
  | nil => simp [collect]
  | cons m rest ih =>
      have hlength : (f earlier m).toList.length = (g earlier m).toList.length := by
        have := h earlier m
        cases hf : f earlier m <;> cases hg : g earlier m <;> simp [hf, hg] at this ⊢
      rw [collect, collect]
      constructor
      · intro hsame before a after hsplit
        obtain ⟨hhere, hlater⟩ := List.append_inj hsame hlength
        rcases List.cons_eq_append_iff.mp hsplit with ⟨rfl, hcons⟩ | ⟨before, rfl, rfl⟩
        · obtain ⟨rfl, rfl⟩ := List.cons.inj hcons
          simpa using congrArg List.head? hhere
        · simpa using ih.mp hlater before a after rfl
      · intro hall
        have hhere : f earlier m = g earlier m := by simpa using hall [] m rest rfl
        have hlater : collect f (earlier ++ [m]) rest = collect g (earlier ++ [m]) rest := by
          refine ih.mpr fun before a after hsplit => ?_
          simpa using hall (m :: before) a after (by rw [hsplit]; rfl)
        rw [hhere, hlater]

end Collect

/-- The first of some different members is the last when there is one at most. -/
theorem getElem?_zero_reverse_iff {l : List Nat} (hl : l.Nodup) :
    l[0]? = l.reverse[0]? ↔ l.length ≤ 1 := by
  constructor
  · intro hsame
    by_contra hmany
    have hlast : l.length - 1 < l.length := by omega
    rw [List.getElem?_reverse (by omega), Nat.sub_zero, List.getElem?_eq_getElem (by omega),
      List.getElem?_eq_getElem hlast, Option.some.injEq, hl.getElem_inj_iff] at hsame
    omega
  · intro hfew
    match l, hfew with
    | [], _ => rfl
    | [a], _ => rfl

/-! ## Looking from either end -/

theorem LiveTree.lookAlikes_reverse (t : LiveTree) (x : Nat) (a : Attributes) :
    t.lookAlikes x true a = (t.lookAlikes x false a).reverse := by
  simp [lookAlikes, scan, List.filter_reverse]

namespace Reconciliation

/-- The same places, with live elements looked at from the front or from the back. -/
def facing (r : Reconciliation) (reverse : Bool) : Reconciliation :=
  { r with reverse }

/-- No matched place has two look-alikes below the root. -/
def Untwinned (r : Reconciliation) (t : LiveTree) (x : Nat) : Prop :=
  ∀ m ∈ r.matched, ∀ a, r.wanted? m = some a → (t.lookAlikes x false a).length ≤ 1

theorem untwinned_iff {r : Reconciliation} {t : LiveTree} {x : Nat} :
    r.Untwinned t x ↔ ∀ m ∈ r.matched, m.2 ≠ 0 → ∀ a, r.snapshot.attributes? m.2 = some a →
      (t.lookAlikes x false a).length ≤ 1 := by
  constructor
  · intro hfew m hm hroot a ha
    exact hfew m hm a (by rw [wanted?, if_neg hroot, ha])
  · intro hfew m hm a hwanted
    obtain ⟨hroot, ha⟩ : m.2 ≠ 0 ∧ r.snapshot.attributes? m.2 = some a := by
      simpa [wanted?] using hwanted
    exact hfew m hm hroot a ha

/-- The element that a place gets, if it gets one. -/
def handle? (r : Reconciliation) (t : LiveTree) (x : Nat) (claimUnique : Bool)
    (earlier : List (String × Nat)) (m : String × Nat) : Option Handle :=
  if m.2 = 0 then some r.liveRoot
  else (r.wanted? m).bind fun a => (r.chosen? t x claimUnique earlier a).map Handle.ofNumber

variable {r : Reconciliation} {t : LiveTree} {x : Nat} {claimUnique : Bool}

theorem elements_outcomes (r : Reconciliation) (t : LiveTree) (x : Nat) (claimUnique : Bool) :
    (Resolution.ofOutcomes (r.outcomes t x claimUnique)).elements =
      collect (r.handle? t x claimUnique) [] r.matched := by
  have hsame : ∀ before m, (r.outcome? t x claimUnique before m).bind Except.toOption =
      r.handle? t x claimUnique before m := by
    intro before m
    by_cases hroot : m.2 = 0
    · simp [outcome?, handle?, hroot, Except.toOption]
    cases hattributes : r.snapshot.attributes? m.2 with
    | none => simp [outcome?, handle?, wanted?, hroot, hattributes]
    | some a =>
        cases hchosen : r.chosen? t x claimUnique before a <;>
          simp [outcome?, handle?, wanted?, hroot, hattributes, hchosen, Except.toOption]
  rw [Resolution.ofOutcomes, outcomes, filterMap_collect]
  simp only [hsame]

/-- What a place gets depends on the end only through the order of its look-alikes. -/
theorem handle?_facing (r : Reconciliation) (t : LiveTree) (x : Nat) (claimUnique reverse : Bool)
    (earlier : List (String × Nat)) (m : String × Nat) :
    (r.facing reverse).handle? t x claimUnique earlier m =
      if m.2 = 0 then some r.liveRoot
      else (r.wanted? m).bind fun a =>
        ((t.lookAlikes x reverse a)[r.rank claimUnique earlier a]?).map Handle.ofNumber :=
  rfl

/-- Where a place gets an element looking from one end, it gets one from the other. -/
theorem isSome_handle?_facing (earlier : List (String × Nat)) (m : String × Nat) :
    ((r.facing false).handle? t x claimUnique earlier m).isSome =
      ((r.facing true).handle? t x claimUnique earlier m).isSome := by
  rw [handle?_facing, handle?_facing]
  by_cases hroot : m.2 = 0
  · simp [hroot]
  cases r.wanted? m with
  | none => simp [hroot]
  | some a =>
      simp only [hroot, if_false, Option.bind_some, Option.isSome_map, t.lookAlikes_reverse]
      rw [Bool.eq_iff_iff]
      simp

/-- The first match of a look has rank zero. -/
theorem exists_first_alike {m : String × Nat} (hm : m ∈ r.matched) {a : Attributes}
    (hwanted : r.wanted? m = some a) (hself : a.looksLike a = true) (claimUnique : Bool) :
    ∃ before p after b, r.matched = before ++ p :: after ∧ r.wanted? p = some b ∧
      b.looksLike a = true ∧ r.rank claimUnique before b = 0 := by
  have hcount : 0 < r.matched.countP fun p => (r.wanted? p).any fun b => b.looksLike a :=
    List.countP_pos_iff.mpr ⟨m, hm, by simpa [hwanted] using hself⟩
  obtain ⟨before, p, after, hsplit, hp, hnone⟩ := exists_hit_of_lt_countP hcount
  obtain ⟨b, hb, hba⟩ := (Option.any_eq_true ..).mp hp
  refine ⟨before, p, after, b, hsplit, hb, hba, ?_⟩
  cases claimUnique with
  | false => rfl
  | true =>
      rw [rank, if_pos rfl, r.alikeCount_congr before hba]
      exact hnone

/-- **Looking from either end.**  The same elements are found exactly when no match has a twin. -/
theorem elements_facing_iff (ht : t.WellFormed) (claimUnique : Bool) :
    (Resolution.ofOutcomes ((r.facing false).outcomes t x claimUnique)).elements =
        (Resolution.ofOutcomes ((r.facing true).outcomes t x claimUnique)).elements ↔
      r.Untwinned t x := by
  rw [elements_outcomes, elements_outcomes]
  change collect _ [] r.matched = collect _ [] r.matched ↔ _
  rw [collect_eq_iff isSome_handle?_facing]
  constructor
  · intro hsame m hm a ha
    by_contra htwins
    obtain ⟨y, hy⟩ : ∃ y, y ∈ t.lookAlikes x false a :=
      List.exists_mem_of_length_pos (by omega)
    have hself : a.looksLike a = true := LiveTree.looksLike_of_common hy hy
    obtain ⟨before, p, after, b, hsplit, hb, hba, hrank⟩ :=
      exists_first_alike hm ha hself claimUnique
    have hroot : p.2 ≠ 0 := by
      intro hzero
      simp [wanted?, hzero] at hb
    have hends := hsame before p after hsplit
    simp only [List.nil_append, handle?_facing, hroot, if_false, hb, Option.bind_some,
      hrank] at hends
    replace hends := Option.map_injective Handle.ofNumber_injective hends
    rw [t.lookAlikes_reverse, getElem?_zero_reverse_iff (ht.lookAlikes_nodup x false b),
      t.lookAlikes_congr x false hba] at hends
    exact htwins hends
  · intro hfew before m after hsplit
    have hm : m ∈ r.matched := by
      rw [hsplit]
      exact List.mem_append_right _ List.mem_cons_self
    rw [List.nil_append, handle?_facing, handle?_facing]
    cases hwanted : r.wanted? m with
    | none => rfl
    | some a =>
        have hends : t.lookAlikes x true a = t.lookAlikes x false a := by
          have hone := hfew m hm a hwanted
          rw [t.lookAlikes_reverse]
          cases hfound : t.lookAlikes x false a with
          | nil => rfl
          | cons y ys =>
              rw [hfound, List.length_cons] at hone
              obtain rfl :=
                List.eq_nil_of_length_eq_zero (Nat.le_zero.mp (Nat.le_of_succ_le_succ hone))
              rfl
        rw [Option.bind_some, Option.bind_some, hends]

end Reconciliation

/-! ## Expressions that are read alike -/

theorem XPath.Document.select_congr (d : XPath.Document) {e₁ e₂ : String}
    (h : XPath.Expr.ofText e₁ = XPath.Expr.ofText e₂) : d.select e₁ = d.select e₂ := by
  rw [select, select, h]

/-- What is matched follows from how an expression is read. -/
theorem Markup.matching_congr (m : Markup) {e₁ e₂ : String}
    (h : XPath.Expr.ofText (XPath.normalized e₁) = XPath.Expr.ofText (XPath.normalized e₂)) :
    m.matching e₁ = m.matching e₂ := by
  rw [matching, matching, XPath.Document.matching, XPath.Document.matching,
    m.document.select_congr h]

namespace LiveTree

variable {t : LiveTree} {origin : Handle} {x : Nat}

/-- What an expression finds that matches some places. -/
theorem Reachable.resolve_of_matching (ht : t.Reachable) (hx : t.liveId? origin = some x)
    (options : ResolverOptions) {s : Snapshot} (hsnapshot : t.snapshot origin = .ok s)
    {expression : String} {matched : List (String × Nat)}
    (hmatching : (s.markup options.indexPathRoot).matching expression = .ok matched)
    (mode : MatchMode) :
    (Locator.resolve options ⟨.xpath, expression⟩ origin mode).runStill t =
      .ok (.ofOutcomes ((Reconciliation.mk (mode.apply matched) s origin
        (options.reverseOnLast && XPath.usesLast expression)).outcomes t x options.claimUnique)) :=
  let r : Reconciliation :=
    ⟨mode.apply matched, s, origin, options.reverseOnLast && XPath.usesLast expression⟩
  (resolveXPath_of_matching hsnapshot hmatching (r.run_yields ht hx options)).runStill_eq

/-- What an expression finds that selects no nodes. -/
theorem resolve_of_fault (options : ResolverOptions) {s : Snapshot}
    (hsnapshot : t.snapshot origin = .ok s) {expression : String} {e : XPath.SelectionFault}
    (hmatching : (s.markup options.indexPathRoot).matching expression = .error e)
    (mode : MatchMode) :
    (Locator.resolve options ⟨.xpath, expression⟩ origin mode).runStill t =
      .ok (.ofProblem (.invalidXPath expression e.reason)) := by
  refine ((Access.Yields.snapshot hsnapshot).bind ?_).runStill_eq
  rw [hmatching]
  exact .pure _

/-- **Spellings.**  Of two path expressions that are read alike, both are resolved, and they lead
to the same elements exactly when both or none of them holds the text `last()`, or live elements
are never looked at from the back, or no match has two look-alikes below the root. -/
theorem Reachable.resolve_spellings (ht : t.Reachable) (hx : t.liveId? origin = some x)
    (options : ResolverOptions) (mode : MatchMode) {e₁ e₂ : String}
    (hread : XPath.Expr.ofText (XPath.normalized e₁) = XPath.Expr.ofText (XPath.normalized e₂)) :
    ∃ found₁ found₂ : Resolution,
      (Locator.resolve options ⟨.xpath, e₁⟩ origin mode).runStill t = .ok found₁ ∧
      (Locator.resolve options ⟨.xpath, e₂⟩ origin mode).runStill t = .ok found₂ ∧
      (found₁.elements = found₂.elements ↔
        options.reverseOnLast = false ∨ XPath.usesLast e₁ = XPath.usesLast e₂ ∨
          ∀ s matched, t.snapshot origin = .ok s →
            (s.markup options.indexPathRoot).matching e₁ = .ok matched →
              ∀ m ∈ mode.apply matched, m.2 ≠ 0 → ∀ a, s.attributes? m.2 = some a →
                (t.lookAlikes x false a).length ≤ 1) := by
  obtain ⟨c, hsnapshot, -, -⟩ := ht.wellFormed.snapshot_live hx
  have hsame := (c.snapshot.markup options.indexPathRoot).matching_congr hread
  have hsnapshots : ∀ {s}, t.snapshot origin = .ok s → s = c.snapshot := fun hs =>
    Except.ok.inj (hs.symm.trans hsnapshot)
  cases hmatching : (c.snapshot.markup options.indexPathRoot).matching e₁ with
  | error e =>
      refine ⟨_, _, resolve_of_fault options hsnapshot hmatching mode,
        resolve_of_fault options hsnapshot (hsame ▸ hmatching) mode, ?_⟩
      refine iff_of_true rfl (.inr (.inr fun s matched hs hmatched => ?_))
      obtain rfl := hsnapshots hs
      exact absurd (hmatching.symm.trans hmatched) (by simp)
  | ok matched =>
      let r : Reconciliation := ⟨mode.apply matched, c.snapshot, origin, false⟩
      have hfinds : ∀ e', (c.snapshot.markup options.indexPathRoot).matching e' = .ok matched →
          (Locator.resolve options ⟨.xpath, e'⟩ origin mode).runStill t =
            .ok (.ofOutcomes ((r.facing (options.reverseOnLast && XPath.usesLast e')).outcomes t x
              options.claimUnique)) :=
        fun e' he' => ht.resolve_of_matching hx options hsnapshot he' mode
      have huntwinned : r.Untwinned t x ↔ ∀ s matched, t.snapshot origin = .ok s →
          (s.markup options.indexPathRoot).matching e₁ = .ok matched →
            ∀ m ∈ mode.apply matched, m.2 ≠ 0 → ∀ a, s.attributes? m.2 = some a →
              (t.lookAlikes x false a).length ≤ 1 := by
        rw [Reconciliation.untwinned_iff]
        constructor
        · intro hfew s matched' hs hmatched
          obtain rfl := hsnapshots hs
          obtain rfl := Except.ok.inj (hmatching.symm.trans hmatched)
          exact hfew
        · exact fun hfew => hfew _ _ hsnapshot hmatching
      refine ⟨_, _, hfinds e₁ hmatching, hfinds e₂ (hsame ▸ hmatching), ?_⟩
      rw [← huntwinned]
      have hends := Reconciliation.elements_facing_iff (r := r) (x := x) ht.wellFormed
        options.claimUnique
      cases options.reverseOnLast with
      | false => simp
      | true =>
          cases XPath.usesLast e₁ <;> cases XPath.usesLast e₂
          · simp
          · simpa using hends
          · simpa [eq_comm] using hends
          · simp

/-- Both spellings of the last cell are read alike. -/
theorem read_lastCell :
    XPath.Expr.ofText (XPath.normalized "(//XCUIElementTypeCell)[last( )]") =
        .ok (.filter (.path .root [.mk .descendantOrSelf .anyNode [],
          .mk .child (.named "XCUIElementTypeCell") []]) (.call "last" [])) ∧
      XPath.Expr.ofText (XPath.normalized "(//XCUIElementTypeCell)[last()]") =
        XPath.Expr.ofText (XPath.normalized "(//XCUIElementTypeCell)[last( )]") := by
  have htokens : ∀ e ∈ ["(//XCUIElementTypeCell)[last( )]", "(//XCUIElementTypeCell)[last()]"],
      XPath.Token.ofText? (XPath.normalized e) =
        some [.openParen, .slash, .axis .descendantOrSelf, .test .anyNode, .slash,
          .test (.named "XCUIElementTypeCell"), .closeParen, .openBracket, .function "last",
          .openParen, .closeParen, .closeBracket] := by
    decide
  obtain ⟨hblank, hrest⟩ := List.forall_mem_cons.mp htokens
  obtain ⟨hplain, -⟩ := List.forall_mem_cons.mp hrest
  constructor
  · rw [XPath.Expr.ofText, hblank]
    rfl
  · rw [XPath.Expr.ofText, XPath.Expr.ofText, hblank, hplain]

/-- The last of two nodes. -/
theorem keep_last_pair (d : XPath.Document) (m n : XPath.Node) :
    XPath.keep d [m, n] (.call "last" []) = .ok [n] := by
  have hsize : ∀ (o : XPath.Node) (place : Nat),
      XPath.evaluate d ⟨o, place, 2⟩ (.call "last" []) = .ok (.number (.ofNat 2)) := by
    intro o place
    rw [XPath.evaluate, XPath.evaluateAll]
    rfl
  have hfirst : (XPath.Value.number (.ofNat 2)).keeps 1 = false := by decide +kernel
  have hsecond : (XPath.Value.number (.ofNat 2)).keeps 2 = true := by decide +kernel
  rw [XPath.keep, XPath.filterMapM_eq_ok (g := fun e =>
    if (XPath.Value.number (.ofNat 2)).keeps e.2 then some e.1 else none)]
  · simp [hfirst, hsecond]
  · rintro ⟨o, place⟩ -
    simp only [List.length_cons, List.length_nil, hsize]
    rfl

/-- Of the two cells the path matches the one in the second table. -/
theorem matching_lastCell :
    ((((ofFixture .twinTables).capture? 0).elim default Capture.snapshot).markup "top").matching
      "(//XCUIElementTypeCell)[last( )]" = .ok [("top,1,0", 4)] := by
  let s := ((ofFixture .twinTables).capture? 0).elim default Capture.snapshot
  have hcells :
      ((XPath.Node.root :: (List.range (s.markup "top").document.size).map .element).flatMap
        fun n => (XPath.Axis.child.select (s.markup "top").document n).filter fun m =>
          (XPath.NodeTest.named "XCUIElementTypeCell").passes (s.markup "top").document .child m) =
          [.element 2, .element 4] := by
    decide
  have hset : (s.markup "top").document.nodeSet [.element 2, .element 4] =
      [.element 2, .element 4] :=
    XPath.Document.Ordered.nodeSet_eq
      (by simp [XPath.Document.Ordered, XPath.Document.before_element]) (by simp)
  have hwalk : XPath.walk (s.markup "top").document [.root]
      [.mk .descendantOrSelf .anyNode [], .mk .child (.named "XCUIElementTypeCell") []] =
        .ok [.element 2, .element 4] := by
    rw [XPath.walk_everything, XPath.walk_plain, hcells, hset, XPath.walk]
  have hvalue : XPath.evaluate (s.markup "top").document ⟨.root, 1, 1⟩
      (.filter (.path .root [.mk .descendantOrSelf .anyNode [],
        .mk .child (.named "XCUIElementTypeCell") []]) (.call "last" [])) =
          .ok (.nodes [.element 4]) := by
    rw [XPath.evaluate, XPath.evaluate_path hwalk]
    change (do return XPath.Value.nodes (← XPath.keep _ [.element 2, .element 4] _)) = _
    rw [keep_last_pair]
    rfl
  have hselect : (s.markup "top").document.select
      (XPath.normalized "(//XCUIElementTypeCell)[last( )]") = .ok ([4].map .element) := by
    rw [XPath.Document.select, read_lastCell.1]
    simp only [hvalue]
    rfl
  have hplaces : [4].filterMap (fun k => (s.markup "top").places[k]?) = [("top,1,0", 4)] := by
    decide
  rw [Markup.matching_elements (List.nodup_singleton 4) hselect, hplaces]

/-- Where live elements are never looked at from the back, both spellings lead to the same cell. -/
theorem resolve_spellings_twinTables :
    (ofFixture .twinTables).Reachable ∧
      (ofFixture .twinTables).liveId? ⟨"node-0"⟩ = some 0 ∧
      XPath.Expr.ofText (XPath.normalized "(//XCUIElementTypeCell)[last()]") =
        XPath.Expr.ofText (XPath.normalized "(//XCUIElementTypeCell)[last( )]") ∧
      ∃ found₁ found₂ : Resolution,
        (Locator.resolve ⟨"top", false, true⟩ ⟨.xpath, "(//XCUIElementTypeCell)[last()]"⟩
          ⟨"node-0"⟩ .all).runStill (ofFixture .twinTables) = .ok found₁ ∧
        (Locator.resolve ⟨"top", false, true⟩ ⟨.xpath, "(//XCUIElementTypeCell)[last( )]"⟩
          ⟨"node-0"⟩ .all).runStill (ofFixture .twinTables) = .ok found₂ ∧
        found₁.elements = found₂.elements := by
  have hroot : (ofFixture .twinTables).liveId? ⟨"node-0"⟩ = some 0 := by decide
  obtain ⟨found₁, found₂, h₁, h₂, hiff⟩ :=
    reachable_twinTables.resolve_spellings hroot ⟨"top", false, true⟩ .all read_lastCell.2
  exact ⟨reachable_twinTables, hroot, read_lastCell.2, found₁, found₂, h₁, h₂,
    hiff.mpr (.inl rfl)⟩

/-- **A blank decides.**  The two spellings of the last cell are read alike and lead to different
cells. -/
theorem spellings_differ_twinTables :
    (ofFixture .twinTables).Reachable ∧
      XPath.Expr.ofText (XPath.normalized "(//XCUIElementTypeCell)[last()]") =
        XPath.Expr.ofText (XPath.normalized "(//XCUIElementTypeCell)[last( )]") ∧
      (Locator.resolve {} ⟨.xpath, "(//XCUIElementTypeCell)[last()]"⟩ ⟨"node-0"⟩ .all).runStill
        (ofFixture .twinTables) = .ok ⟨[.ofNumber 4], []⟩ ∧
      (Locator.resolve {} ⟨.xpath, "(//XCUIElementTypeCell)[last( )]"⟩ ⟨"node-0"⟩ .all).runStill
        (ofFixture .twinTables) = .ok ⟨[.ofNumber 2], []⟩ := by
  let t := ofFixture .twinTables
  let s := (t.capture? 0).elim default Capture.snapshot
  have hroot : t.liveId? ⟨"node-0"⟩ = some 0 := by decide
  have hsnapshot : t.snapshot ⟨"node-0"⟩ = .ok s := by
    simp only [snapshot, hroot, Option.bind_some]
    rfl
  have hmatching : (s.markup "top").matching "(//XCUIElementTypeCell)[last()]" =
      .ok [("top,1,0", 4)] := by
    rw [(s.markup "top").matching_congr read_lastCell.2]
    exact matching_lastCell
  have hback : (Reconciliation.mk [("top,1,0", 4)] s ⟨"node-0"⟩ true).outcomes t 0 true =
      [.ok (.ofNumber 4)] := by
    decide
  have hfront : (Reconciliation.mk [("top,1,0", 4)] s ⟨"node-0"⟩ false).outcomes t 0 true =
      [.ok (.ofNumber 2)] := by
    decide
  refine ⟨reachable_twinTables, read_lastCell.2, ?_, ?_⟩
  · have hfound := reachable_twinTables.resolve_of_matching hroot {} hsnapshot hmatching .all
    have hlast : XPath.usesLast "(//XCUIElementTypeCell)[last()]" = true := by decide
    rw [hlast] at hfound
    refine hfound.trans ?_
    change Except.ok (Resolution.ofOutcomes
      ((Reconciliation.mk [("top,1,0", 4)] s ⟨"node-0"⟩ true).outcomes t 0 true)) = _
    rw [hback]
    rfl
  · have hfound :=
      reachable_twinTables.resolve_of_matching hroot {} hsnapshot matching_lastCell .all
    have hlast : XPath.usesLast "(//XCUIElementTypeCell)[last( )]" = false := by decide
    rw [hlast] at hfound
    refine hfound.trans ?_
    change Except.ok (Resolution.ofOutcomes
      ((Reconciliation.mk [("top,1,0", 4)] s ⟨"node-0"⟩ false).outcomes t 0 true)) = _
    rw [hfront]
    rfl

end LiveTree

end ElementFinder
