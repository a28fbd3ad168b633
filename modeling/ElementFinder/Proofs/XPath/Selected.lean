import ElementFinder.Proofs.XPath.Path
import ElementFinder.Resolution.Locating

/-!
# Selected nodes stand in document order

Sets of nodes are made by steps and unions, which sort them, and by predicates, which only leave
nodes out; no function makes one (`evaluate_nodes`).  So the nodes of every value stand in document
order (`evaluate_ordered`), and so do the places that an expression matches
(`Markup.sublist_of_matching`).
-/

namespace ElementFinder

namespace XPath

/-! ## Functions -/

namespace Function

variable {d : Document}

/-- A function of the names of nodes gives no node set. -/
theorem ofNodes_ne_nodes {f : List Node → String} {context : Node} {vs : List Value}
    {ns : List Node} : ofNodes f context vs ≠ some (.nodes ns) := by
  unfold ofNodes
  split <;> simp

/-- A function of one text gives no node set. -/
theorem ofText_ne_nodes {f : String → Value} (hf : ∀ s ns, f s ≠ .nodes ns) {context : Node}
    {vs : List Value} {ns : List Node} : ofText d f context vs ≠ some (.nodes ns) := by
  unfold ofText
  split <;> simp [hf]

/-- A function of two texts gives no node set. -/
theorem ofTexts_ne_nodes {f : String → String → Value} (hf : ∀ s t ns, f s t ≠ .nodes ns)
    {vs : List Value} {ns : List Node} : ofTexts d f vs ≠ some (.nodes ns) := by
  unfold ofTexts
  split <;> simp [hf]

/-- A function of numbers gives no node set. -/
theorem ofNumber_ne_nodes {f : Binary64 → Binary64} {vs : List Value} {ns : List Node} :
    ofNumber d f vs ≠ some (.nodes ns) := by
  unfold ofNumber
  split <;> simp

/-- No function makes a set of nodes. -/
theorem call?_ne_nodes {c : Context} {name : String} {vs : List Value} {ns : List Node} :
    call? d c name vs ≠ some (.nodes ns) := by
  unfold call?
  split <;> simp [ofNodes_ne_nodes, ofText_ne_nodes, ofTexts_ne_nodes, ofNumber_ne_nodes]

end Function

/-! ## Document order -/

namespace Document

/-- Document order is transitive. -/
theorem before_trans (d : Document) (m n o : Node) (hmn : d.before m n = true)
    (hno : d.before n o = true) : d.before m o = true := by
  simp only [before, Bool.or_eq_true, Bool.and_eq_true, decide_eq_true_iff] at *
  omega

/-- Of two nodes one does not stand after the other. -/
theorem before_total (d : Document) (m n : Node) : (d.before m n || d.before n m) = true := by
  simp only [before, Bool.or_eq_true, Bool.and_eq_true, decide_eq_true_iff]
  omega

/-- No node stands before an earlier one of the list. -/
def Ordered (d : Document) (ns : List Node) : Prop :=
  ns.Pairwise fun m n => d.before m n = true

/-- Without the repetitions some of the nodes are left, in their order. -/
theorem distinct_sublist (ns : List Node) : (distinct ns).Sublist ns := by
  induction ns with
  | nil => exact List.Sublist.refl _
  | cons m ns ih =>
      cases ns with
      | nil => exact List.Sublist.refl _
      | cons n ns =>
          rw [distinct]
          split
          · exact ih.cons m
          · exact ih.cons_cons m

/-- A set of nodes is in document order. -/
theorem ordered_nodeSet (d : Document) (ns : List Node) : d.Ordered (d.nodeSet ns) :=
  (List.pairwise_mergeSort d.before_trans d.before_total ns).sublist (distinct_sublist _)

end Document

/-! ## Values -/

/-- What follows a part that succeeds sees its result. -/
theorem exists_of_bind_eq_ok {ε α β : Type} {x : Except ε α} {f : α → Except ε β} {b : β}
    (h : (x >>= f) = .ok b) : ∃ a, x = .ok a ∧ f a = .ok b := by
  cases x with
  | error e => cases h
  | ok a => exact ⟨a, rfl, h⟩

/-- Members that are kept unchanged stand in their order. -/
theorem filterMapM_sublist {ε α β : Type} {f : α → Except ε (Option β)} {g : α → β}
    (hf : ∀ a b, f a = .ok (some b) → b = g a) {as : List α} {bs : List β}
    (h : as.filterMapM f = .ok bs) : bs.Sublist (as.map g) := by
  induction as generalizing bs with
  | nil =>
      obtain rfl := Except.ok.inj h
      exact List.Sublist.refl _
  | cons a as ih =>
      rw [List.filterMapM_cons] at h
      obtain ⟨o, ha, h⟩ := exists_of_bind_eq_ok h
      cases o with
      | none => exact (ih h).cons (g a)
      | some b =>
          obtain ⟨bs', hrest, h⟩ := exists_of_bind_eq_ok h
          obtain rfl := Except.ok.inj h
          obtain rfl := hf a b ha
          exact (ih hrest).cons_cons (g a)

/-- A predicate leaves nodes out. -/
theorem keep_sublist {d : Document} {ns ms : List Node} {p : Expr} (h : keep d ns p = .ok ms) :
    ms.Sublist ns := by
  rw [keep] at h
  have hkept := filterMapM_sublist (g := Prod.fst) ?_ h
  · rwa [List.zipIdx_map_fst] at hkept
  · rintro ⟨n, place⟩ m hm
    obtain ⟨v, -, hm⟩ := exists_of_bind_eq_ok hm
    have hsome := Except.ok.inj hm
    by_cases hkeeps : v.keeps place = true
    · simpa [hkeeps, eq_comm] using hsome
    · simp [hkeeps] at hsome

/-- Only a node set counts as nodes. -/
theorem asNodes_eq_ok {v : Value} {ns : List Node} (h : v.asNodes = .ok ns) : v = .nodes ns := by
  cases v with
  | nodes ms => exact congrArg Value.nodes (Except.ok.inj h)
  | _ => cases h

section Values

variable {d : Document} {motive : List Node → Prop}

/-- What each step keeps of a set of nodes is kept along all steps. -/
theorem walk_nodes
    (step : ∀ ns s parts, motive ns → (ns.mapM fun n => takeStep d n s) = .ok parts →
      motive (d.nodeSet parts.flatten))
    {steps : List Step} {ns ms : List Node} (hns : motive ns) (h : walk d ns steps = .ok ms) :
    motive ms := by
  induction steps generalizing ns with
  | nil =>
      rw [walk] at h
      exact Except.ok.inj h ▸ hns
  | cons s rest ih =>
      rw [walk] at h
      obtain ⟨parts, hparts, hrest⟩ := exists_of_bind_eq_ok h
      exact ih (step ns s parts hns hparts) hrest

/-- Of the operators only the union makes a set of nodes. -/
theorem combine_nodes (union : ∀ ms ns, motive ms → motive ns → motive (d.nodeSet (ms ++ ns)))
    {op : Operator} {a b : Value} {ns : List Node} (ha : ∀ ms, a = .nodes ms → motive ms)
    (hb : ∀ ms, b = .nodes ms → motive ms) (h : a.combine d op b = .ok (.nodes ns)) :
    motive ns := by
  cases op with
  | union =>
      obtain ⟨ms, hms, h⟩ := exists_of_bind_eq_ok h
      obtain ⟨ms', hms', h⟩ := exists_of_bind_eq_ok h
      obtain rfl := Value.nodes.inj (Except.ok.inj h)
      exact union ms ms' (ha ms (asNodes_eq_ok hms)) (hb ms' (asNodes_eq_ok hms'))
  | _ => cases h

/-- **Where sets of nodes come from.**  What holds of the context node and of the root, and is
kept by unions, by steps and by leaving nodes out, holds of every value that is a set of nodes. -/
theorem evaluate_nodes {c : Context} (context : motive [c.node]) (root : motive [.root])
    (union : ∀ ms ns, motive ms → motive ns → motive (d.nodeSet (ms ++ ns)))
    (step : ∀ ns s parts, motive ns → (ns.mapM fun n => takeStep d n s) = .ok parts →
      motive (d.nodeSet parts.flatten))
    (part : ∀ ms ns : List Node, ms.Sublist ns → motive ns → motive ms) {ns : List Node} :
    ∀ {e : Expr}, evaluate d c e = .ok (.nodes ns) → motive ns
  | .number x, h => by
      rw [evaluate] at h
      cases h
  | .literal s, h => by
      rw [evaluate] at h
      cases h
  | .variable x, h => by
      rw [evaluate] at h
      cases h
  | .call name arguments, h => by
      rw [evaluate] at h
      obtain ⟨vs, -, h⟩ := exists_of_bind_eq_ok h
      cases hcall : Function.call? d c name vs with
      | none => simp [hcall] at h
      | some v =>
          simp only [hcall] at h
          obtain rfl := Except.ok.inj h
          exact absurd hcall Function.call?_ne_nodes
  | .negate e, h => by
      rw [evaluate] at h
      obtain ⟨v, -, h⟩ := exists_of_bind_eq_ok h
      cases h
  | .binary op left right, h => by
      rw [evaluate] at h
      obtain ⟨a, hleft, h⟩ := exists_of_bind_eq_ok h
      by_cases hdecided : op.decidedBy a = true
      · rw [if_pos hdecided] at h
        cases h
      · rw [if_neg hdecided] at h
        obtain ⟨b, hright, h⟩ := exists_of_bind_eq_ok h
        refine combine_nodes union ?_ ?_ h
        · rintro ms rfl
          exact evaluate_nodes context root union step part hleft
        · rintro ms rfl
          exact evaluate_nodes context root union step part hright
  | .context, h => by
      rw [evaluate] at h
      exact Value.nodes.inj (Except.ok.inj h) ▸ context
  | .root, h => by
      rw [evaluate] at h
      exact Value.nodes.inj (Except.ok.inj h) ▸ root
  | .path start steps, h => by
      rw [evaluate] at h
      obtain ⟨v, hstart, h⟩ := exists_of_bind_eq_ok h
      obtain ⟨ms, hms, h⟩ := exists_of_bind_eq_ok h
      obtain ⟨ms', hwalk, h⟩ := exists_of_bind_eq_ok h
      obtain rfl := Value.nodes.inj (Except.ok.inj h)
      obtain rfl := asNodes_eq_ok hms
      exact walk_nodes step (evaluate_nodes context root union step part hstart) hwalk
  | .filter e p, h => by
      rw [evaluate] at h
      obtain ⟨v, hselection, h⟩ := exists_of_bind_eq_ok h
      obtain ⟨ms, hms, h⟩ := exists_of_bind_eq_ok h
      obtain ⟨ms', hkeep, h⟩ := exists_of_bind_eq_ok h
      obtain rfl := Value.nodes.inj (Except.ok.inj h)
      obtain rfl := asNodes_eq_ok hms
      exact part _ _ (keep_sublist hkeep) (evaluate_nodes context root union step part hselection)

end Values

/-- **Document order.**  The nodes of a value stand in document order. -/
theorem evaluate_ordered {d : Document} {c : Context} {ns : List Node} {e : Expr}
    (h : evaluate d c e = .ok (.nodes ns)) : d.Ordered ns :=
  evaluate_nodes (motive := d.Ordered) (List.pairwise_singleton _ _) (List.pairwise_singleton _ _)
    (fun _ _ _ _ => d.ordered_nodeSet _) (fun _ _ _ _ _ => d.ordered_nodeSet _)
    (fun _ _ hsub hns => hns.sublist hsub) h

/-- The nodes that a text selects are in document order. -/
theorem Document.select_ordered {d : Document} {expression : String} {ns : List Node}
    (h : d.select expression = .ok ns) : d.Ordered ns := by
  unfold select at h
  split at h
  · cases h
  · cases h
  split at h
  · cases h
  · rename_i hvalue
    obtain rfl := Except.ok.inj h
    exact evaluate_ordered hvalue
  · cases h

/-! ## Matches -/

/-- The elements that ordered nodes stand for do not decrease. -/
theorem Document.Ordered.owners {d : Document} {ns : List Node} (h : d.Ordered ns) :
    (ns.filterMap Node.owner?).Pairwise (· ≤ ·) := by
  refine List.Pairwise.filterMap _ ?_ h
  intro m n hmn i hi j hj
  cases m <;> cases n <;>
    simp [Node.owner?, Document.before, Document.rank] at hmn hi hj <;> omega

end XPath

/-- Induction along the removal of repetitions. -/
theorem eraseDups_induction {α : Type} [DecidableEq α] {motive : List α → Prop}
    (nil : motive []) (cons : ∀ a l, motive (l.filter fun b => !b == a) → motive (a :: l))
    (l : List α) : motive l := by
  induction hlength : l.length using Nat.strong_induction_on generalizing l with
  | _ n ih =>
      cases l with
      | nil => exact nil
      | cons a l =>
          refine cons a l (ih _ ?_ _ rfl)
          have hle := List.length_filter_le (fun b => !b == a) l
          simp only [List.length_cons] at hlength
          omega

/-- Nothing is left twice when repetitions are erased. -/
theorem nodup_eraseDups {α : Type} [DecidableEq α] (l : List α) : l.eraseDups.Nodup := by
  induction l using eraseDups_induction with
  | nil => simp
  | cons a l ih =>
      rw [List.eraseDups_cons, List.nodup_cons]
      exact ⟨by simp [List.mem_eraseDups], ih⟩

/-- A list without repetitions loses nothing when they are removed. -/
theorem eraseDups_eq_self {ids : List Nat} (h : ids.Nodup) : ids.eraseDups = ids := by
  induction ids with
  | nil => rfl
  | cons a ids ih =>
      obtain ⟨ha, hids⟩ := List.nodup_cons.mp h
      have hkeep : (ids.filter fun b => !b == a) = ids := by
        refine List.filter_eq_self.mpr fun b hb => ?_
        simpa using fun heq : b = a => ha (heq ▸ hb)
      rw [List.eraseDups_cons, hkeep, ih hids]

/-- Erasing repetitions keeps the order of what is left. -/
theorem eraseDups_sublist {α : Type} [DecidableEq α] (l : List α) : l.eraseDups.Sublist l := by
  induction l using eraseDups_induction with
  | nil => simp
  | cons a l ih =>
      rw [List.eraseDups_cons]
      exact (ih.trans List.filter_sublist).cons_cons a

/-- Members looked up at increasing positions stand in the order of the list. -/
theorem filterMap_getElem?_sublist {α : Type} {l : List α} {is : List Nat} {k : Nat}
    (hk : ∀ i ∈ is, k ≤ i) (his : is.Pairwise (· < ·)) :
    (is.filterMap fun i => l[i]?).Sublist (l.drop k) := by
  induction is generalizing k with
  | nil => exact List.nil_sublist _
  | cons i is ih =>
      obtain ⟨hlater, his⟩ := List.pairwise_cons.mp his
      have hrest := ih (k := i + 1) (fun j hj => hlater j hj) his
      have hdrop : (l.drop i).Sublist (l.drop k) :=
        List.drop_sublist_drop_left l (hk i List.mem_cons_self)
      by_cases hi : i < l.length
      · rw [List.filterMap_cons_some (List.getElem?_eq_getElem hi)]
        rw [List.drop_eq_getElem_cons hi] at hdrop
        exact (hrest.cons_cons _).trans hdrop
      · rw [List.filterMap_cons_none (by simpa using hi)]
        exact hrest.trans ((List.drop_sublist_drop_left l (Nat.le_succ i)).trans hdrop)

/-- **Matches stand in document order**, each place at most once. -/
theorem Markup.sublist_of_matching {m : Markup} {expression : String}
    {matched : List (String × Nat)} (h : m.matching expression = .ok matched) :
    matched.Sublist m.places := by
  simp only [matching, XPath.Document.matching] at h
  cases hselect : m.document.select (XPath.normalized expression) with
  | error e =>
      rw [hselect] at h
      exact absurd h (by simp [Except.map])
  | ok ns =>
      rw [hselect] at h
      obtain rfl := Except.ok.inj h
      have howners := (XPath.Document.select_ordered hselect).owners
      have hincreasing : (ns.filterMap XPath.Node.owner?).eraseDups.Pairwise (· < ·) :=
        ((howners.sublist (eraseDups_sublist _)).and (nodup_eraseDups _)).imp
          fun hpair => Nat.lt_of_le_of_ne hpair.1 hpair.2
      have hplaces := filterMap_getElem?_sublist (l := m.places) (k := 0)
        (fun i _ => Nat.zero_le i) hincreasing
      rwa [List.drop_zero] at hplaces

/-- Elements stand for themselves. -/
theorem XPath.filterMap_owner? (ids : List Nat) :
    (ids.map XPath.Node.element).filterMap XPath.Node.owner? = ids := by
  rw [List.filterMap_map]
  exact List.filterMap_some

/-- Selected elements are matched at their places. -/
theorem Markup.matching_elements {m : Markup} {expression : String} {ks : List Nat}
    (hks : ks.Nodup)
    (hselect : m.document.select (XPath.normalized expression) = .ok (ks.map .element)) :
    m.matching expression = .ok (ks.filterMap fun k => m.places[k]?) := by
  rw [matching, XPath.Document.matching, hselect]
  simp only [Except.map, XPath.filterMap_owner?, eraseDups_eq_self hks]

end ElementFinder
