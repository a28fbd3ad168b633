import ElementFinder.Proofs.Snapshot.Judging
import ElementFinder.Proofs.XPath.Nested
import ElementFinder.Proofs.XPath.Selected

/-!
# Selected nodes are in the document

Steps compute with numbers: the children of an element are found among the numbers of its subtree,
and what follows it among those up to the number of elements.  Since documents are nested, the
numbers that come out are those of elements that are there (`Nested.has_of_mem_select`), and so
every node that an expression selects is a node of the document (`select_has`).
-/

namespace ElementFinder.XPath

namespace Document

variable {d : Document}

/-- A node is in the document. -/
def Has (d : Document) : Node → Prop
  | .root => True
  | .element id => id < d.size
  | .attribute owner place => owner < d.size ∧ place < (d.entry owner).attributes.length
  | .binding owner => owner < d.size

/-- The numbers from one up to another are those between them. -/
theorem mem_numbers {start stop i : Nat} : i ∈ numbers start stop ↔ start ≤ i ∧ i < stop := by
  rw [numbers, List.mem_map]
  constructor
  · rintro ⟨k, hk, rfl⟩
    have := List.mem_range.mp hk
    omega
  · intro hi
    exact ⟨i - start, List.mem_range.mpr (by omega), by omega⟩

/-- The descendants of an element are elements. -/
theorem Nested.lt_of_mem_descendants (hd : d.Nested) {id i : Nat} (hid : id < d.size)
    (hi : i ∈ d.descendants id) : i < d.size :=
  Nat.lt_of_lt_of_le (mem_numbers.mp hi).2 (hd.subtreeEnd_le hid)

/-- An ancestor has a smaller number. -/
theorem lt_of_mem_ancestors {id i : Nat} (hi : i ∈ d.ancestors id) : i < id :=
  List.mem_range.mp (List.mem_of_mem_filter (List.mem_reverse.mp hi))

/-- What follows an element are elements. -/
theorem lt_of_mem_following {id i : Nat} (hi : i ∈ d.following id) : i < d.size :=
  (mem_numbers.mp hi).2

/-- What precedes an element has a smaller number. -/
theorem lt_of_mem_preceding {id i : Nat} (hi : i ∈ d.preceding id) : i < id :=
  List.mem_range.mp (List.mem_of_mem_filter hi)

/-- The document has its elements. -/
theorem has_of_mem_elements {is : List Nat} (his : ∀ i ∈ is, i < d.size) {m : Node}
    (hm : m ∈ is.map Node.element) : d.Has m := by
  obtain ⟨i, hi, rfl⟩ := List.mem_map.mp hm
  exact his i hi

/-- The document has the ancestors of an element, and the root. -/
theorem has_of_mem_above {id : Nat} (hid : id < d.size) {m : Node}
    (hm : m ∈ (d.ancestors id).map Node.element ++ [.root]) : d.Has m := by
  rcases List.mem_append.mp hm with hm | hm
  · exact has_of_mem_elements (fun i hi => Nat.lt_trans (lt_of_mem_ancestors hi) hid) hm
  · obtain rfl := List.mem_singleton.mp hm
    trivial

/-- The document has what stands above one of its nodes. -/
theorem has_of_mem_nodesAbove {n m : Node} (hn : d.Has n) (hm : m ∈ d.nodesAbove n) :
    d.Has m := by
  match n, hn with
  | .element id, hn => exact has_of_mem_above hn hm
  | .attribute owner place, hn =>
      rcases List.mem_cons.mp hm with rfl | hm
      · exact hn.1
      · exact has_of_mem_above hn.1 hm
  | .binding owner, hn =>
      rcases List.mem_cons.mp hm with rfl | hm
      · exact hn
      · exact has_of_mem_above hn hm

/-- The document has what stands below one of its nodes. -/
theorem Nested.has_of_mem_nodesBelow (hd : d.Nested) {n m : Node} (hn : d.Has n)
    (hm : m ∈ d.nodesBelow n) : d.Has m := by
  match n, hn with
  | .root, _ => exact has_of_mem_elements (fun i hi => List.mem_range.mp hi) hm
  | .element id, hn => exact has_of_mem_elements (fun i hi => hd.lt_of_mem_descendants hn hi) hm

/-- The document has the parent of one of its nodes. -/
theorem Nested.has_of_parent? (hd : d.Nested) {n m : Node} (hn : d.Has n)
    (hm : d.parent? n = some m) : d.Has m := by
  match n, hn with
  | .element id, hn =>
      obtain rfl := Option.some.inj hm
      cases id with
      | zero =>
          rw [hd.top_parent]
          trivial
      | succ id =>
          obtain ⟨i, hi, hparent, -⟩ := hd.exists_parent (Nat.succ_pos id) hn
          rw [hparent]
          exact Nat.lt_trans hi hn
  | .attribute owner place, hn =>
      obtain rfl := Option.some.inj hm
      exact hn.1
  | .binding owner, hn =>
      obtain rfl := Option.some.inj hm
      exact hn

/-- **One step.**  Along every axis lie nodes of the document. -/
theorem Nested.has_of_mem_select (hd : d.Nested) {axis : Axis} {n m : Node} (hn : d.Has n)
    (hm : m ∈ axis.select d n) : d.Has m := by
  have hafter : ∀ {id} {is : List Nat}, (∀ i ∈ is, i ∈ d.following id) →
      m ∈ is.map Node.element → d.Has m :=
    fun his => has_of_mem_elements fun i hi => lt_of_mem_following (his i hi)
  have hbefore : ∀ {id} {is : List Nat}, id < d.size → (∀ i ∈ is, i ∈ d.preceding id) →
      m ∈ is.map Node.element → d.Has m :=
    fun hid his => has_of_mem_elements fun i hi =>
      Nat.lt_trans (lt_of_mem_preceding (his i hi)) hid
  match axis, n, hn with
  | .ancestor, n, hn => exact has_of_mem_nodesAbove hn hm
  | .ancestorOrSelf, n, hn =>
      rcases List.mem_cons.mp hm with rfl | hm
      · exact hn
      · exact has_of_mem_nodesAbove hn hm
  | .attribute, .element id, hn =>
      obtain ⟨place, hplace, rfl⟩ := List.mem_map.mp hm
      exact ⟨hn, List.mem_range.mp hplace⟩
  | .binding, .element id, hn =>
      obtain rfl := List.mem_singleton.mp hm
      exact hn
  | .child, .root, _ =>
      simp only [Axis.select, Nat.ne_of_gt hd.size_pos, if_false] at hm
      obtain rfl := List.mem_singleton.mp hm
      exact hd.size_pos
  | .child, .element id, hn =>
      exact has_of_mem_elements
        (fun i hi => hd.lt_of_mem_descendants hn (List.mem_of_mem_filter hi)) hm
  | .descendant, n, hn => exact hd.has_of_mem_nodesBelow hn hm
  | .descendantOrSelf, n, hn =>
      rcases List.mem_cons.mp hm with rfl | hm
      · exact hn
      · exact hd.has_of_mem_nodesBelow hn hm
  | .following, .element id, _ => exact hafter (fun _ hi => hi) hm
  | .following, .attribute id place, _ => exact hafter (fun _ hi => hi) hm
  | .followingSibling, .element id, _ => exact hafter (fun _ hi => List.mem_of_mem_filter hi) hm
  | .parent, n, hn => exact hd.has_of_parent? hn (Option.mem_toList.mp hm)
  | .preceding, .element id, hn => exact hbefore hn (fun _ hi => List.mem_reverse.mp hi) hm
  | .preceding, .attribute id place, hn =>
      exact hbefore hn.1 (fun _ hi => List.mem_reverse.mp hi) hm
  | .precedingSibling, .element id, hn =>
      exact hbefore hn (fun _ hi => List.mem_of_mem_filter (List.mem_reverse.mp hi)) hm
  | .self, n, hn =>
      obtain rfl := List.mem_singleton.mp hm
      exact hn

end Document

/-- Predicates leave some of the nodes, in their order. -/
theorem keepAll_sublist {d : Document} {predicates : List Expr} {ns ms : List Node}
    (h : keepAll d ns predicates = .ok ms) : ms.Sublist ns := by
  induction predicates generalizing ns with
  | nil =>
      rw [keepAll] at h
      exact Except.ok.inj h ▸ List.Sublist.refl _
  | cons p rest ih =>
      rw [keepAll] at h
      obtain ⟨ns', hkeep, hrest⟩ := exists_of_bind_eq_ok h
      exact (ih hrest).trans (keep_sublist hkeep)

/-- A step leads to nodes along its axis. -/
theorem mem_select_of_takeStep {d : Document} {n m : Node} {axis : Axis} {test : NodeTest}
    {predicates : List Expr} {ms : List Node}
    (h : takeStep d n (.mk axis test predicates) = .ok ms) (hm : m ∈ ms) :
    m ∈ axis.select d n := by
  rw [takeStep] at h
  exact List.mem_of_mem_filter ((keepAll_sublist h).subset hm)

/-- What is gathered from the members of a list comes from one of them. -/
theorem exists_of_mem_flatten {ε α β : Type} {f : α → Except ε (List β)} {as : List α}
    {parts : List (List β)} (h : as.mapM f = .ok parts) {b : β} (hb : b ∈ parts.flatten) :
    ∃ a ∈ as, ∃ bs, f a = .ok bs ∧ b ∈ bs := by
  induction as generalizing parts with
  | nil =>
      obtain rfl := Except.ok.inj h
      simp at hb
  | cons a as ih =>
      rw [List.mapM_cons] at h
      obtain ⟨bs, hhere, h⟩ := exists_of_bind_eq_ok h
      obtain ⟨parts', hothers, h⟩ := exists_of_bind_eq_ok h
      obtain rfl := Except.ok.inj h
      rcases List.mem_append.mp hb with hb | hb
      · exact ⟨a, List.mem_cons_self, bs, hhere, hb⟩
      · obtain ⟨a', ha', hfound⟩ := ih hothers hb
        exact ⟨a', List.mem_cons_of_mem a ha', hfound⟩

/-- **Selected nodes are in the document.** -/
theorem evaluate_has {d : Document} (hd : d.Nested) {c : Context} (hc : d.Has c.node) {e : Expr}
    {ns : List Node} (h : evaluate d c e = .ok (.nodes ns)) : ∀ n ∈ ns, d.Has n := by
  refine evaluate_nodes (motive := fun ns => ∀ n ∈ ns, d.Has n) ?_ ?_ ?_ ?_ ?_ h
  · simpa using hc
  · simp [Document.Has]
  · intro ms ns hms hns n hn
    rcases List.mem_append.mp ((d.mem_nodeSet _).mp hn) with hn | hn
    · exact hms n hn
    · exact hns n hn
  · rintro ns ⟨axis, test, predicates⟩ parts hns hparts m hm
    obtain ⟨n, hn, ms, hstep, hm⟩ := exists_of_mem_flatten hparts ((d.mem_nodeSet _).mp hm)
    exact hd.has_of_mem_select (hns n hn) (mem_select_of_takeStep hstep hm)
  · intro ms ns hsub hns n hn
    exact hns n (hsub.subset hn)

/-- What a text selects in a document are nodes of the document. -/
theorem Document.select_has {d : Document} (hd : d.Nested) {expression : String} {ns : List Node}
    (h : d.select expression = .ok ns) : ∀ n ∈ ns, d.Has n := by
  unfold select at h
  split at h
  · cases h
  · cases h
  split at h
  · cases h
  · rename_i hvalue
    obtain rfl := Except.ok.inj h
    exact evaluate_has (c := ⟨.root, 1, 1⟩) hd trivial hvalue
  · cases h

end ElementFinder.XPath
