import ElementFinder.XPath.Document

/-!
# Documents are nested

A document lists its elements by number and keeps of the tree that they came from only a parent
and a size for each.  This file says what these still tell, whatever the tree was: the subtree of
an element ends inside the document, and every element but the top one lies in the subtree of its
parent, which has a smaller number (`nested_ofElement`).
-/

namespace ElementFinder.XPath

/-- Entries numbered from `start` on are nested below `parent`: the subtree of each ends among
them, and each hangs under `parent` or lies in the subtree of an earlier one, its parent. -/
def NestedBelow (parent : Option Nat) (start : Nat) (es : List Entry) : Prop :=
  ∀ k e, es[k]? = some e → k + e.size ≤ es.length ∧
    (e.parent = parent ∨
      ∃ j f, es[j]? = some f ∧ e.parent = some (start + j) ∧ j < k ∧ k < j + f.size)

theorem nestedBelow_nil (parent : Option Nat) (start : Nat) : NestedBelow parent start [] := by
  intro k e hk
  simp at hk

/-- Nested entries one after the other are nested. -/
theorem NestedBelow.append {parent : Option Nat} {start : Nat} {es fs : List Entry}
    (hes : NestedBelow parent start es) (hfs : NestedBelow parent (start + es.length) fs) :
    NestedBelow parent start (es ++ fs) := by
  intro k e hk
  rw [List.length_append]
  by_cases hlt : k < es.length
  · rw [List.getElem?_append_left hlt] at hk
    obtain ⟨hend, hparent | ⟨j, f, hj, hup, hjk, hin⟩⟩ := hes k e hk
    · exact ⟨by omega, .inl hparent⟩
    · exact ⟨by omega, .inr ⟨j, f, by rw [List.getElem?_append_left (by omega), hj], hup, hjk, hin⟩⟩
  · rw [List.getElem?_append_right (by omega)] at hk
    obtain ⟨hend, hparent | ⟨j, f, hj, hup, hjk, hin⟩⟩ := hfs (k - es.length) e hk
    · exact ⟨by omega, .inl hparent⟩
    · refine ⟨by omega, .inr ⟨es.length + j, f, ?_, ?_, by omega, by omega⟩⟩
      · rw [List.getElem?_append_right (by omega), Nat.add_sub_cancel_left, hj]
      · rw [hup, Nat.add_assoc]

/-- An entry with the nested entries of its subtree after it is nested. -/
theorem NestedBelow.cons {id : Nat} {below : List Entry}
    (h : NestedBelow (some id) (id + 1) below) (parent : Option Nat) (name : String)
    (attributes : List (String × String)) :
    NestedBelow parent id (⟨name, attributes, parent, below.length + 1⟩ :: below) := by
  intro k e hk
  rw [List.length_cons]
  cases k with
  | zero =>
      obtain rfl := Option.some.inj hk
      exact ⟨by simp, .inl rfl⟩
  | succ k =>
      rw [List.getElem?_cons_succ] at hk
      obtain ⟨hlt, -⟩ := List.getElem?_eq_some_iff.mp hk
      obtain ⟨hend, hparent | ⟨j, f, hj, hup, hjk, hin⟩⟩ := h k e hk
      · exact ⟨by omega, .inr ⟨0, _, rfl, hparent, by omega, by simp; omega⟩⟩
      · refine ⟨by omega, .inr ⟨j + 1, f, by rwa [List.getElem?_cons_succ], ?_, by omega, by omega⟩⟩
        rw [hup, Nat.add_assoc, Nat.add_comm 1 j]

mutual

theorem nestedBelow_entriesOf (parent : Option Nat) (id : Nat) :
    ∀ e : XmlElement, NestedBelow parent id (entriesOf parent id e)
  | .mk name attributes children =>
    (nestedBelow_entriesOfAll id (id + 1) children).cons parent name attributes

theorem nestedBelow_entriesOfAll (parent id : Nat) :
    ∀ es : List XmlElement, NestedBelow (some parent) id (entriesOfAll parent id es)
  | [] => nestedBelow_nil _ _
  | e :: rest =>
    (nestedBelow_entriesOf (some parent) id e).append (nestedBelow_entriesOfAll parent _ rest)

end

namespace Document

/-- There is a top element without a parent, subtrees end inside the document, and every other
element lies in the subtree of its parent. -/
structure Nested (d : Document) : Prop where
  size_pos : 0 < d.size
  top_parent : (d.entry 0).parent = none
  subtreeEnd_le : ∀ {i}, i < d.size → d.subtreeEnd i ≤ d.size
  exists_parent : ∀ {j}, 0 < j → j < d.size →
    ∃ i < j, (d.entry j).parent = some i ∧ j < d.subtreeEnd i

/-- **Documents are nested.** -/
theorem nested_ofElement (e : XmlElement) : (ofElement e).Nested := by
  obtain ⟨name, attributes, children⟩ := e
  let below := entriesOfAll 0 1 children
  have hbelow : NestedBelow (some 0) 1 below := nestedBelow_entriesOfAll 0 1 children
  have hsize : (ofElement (.mk name attributes children)).size = below.length + 1 := by
    simp [ofElement, size, entriesOf, below]
  have htop : (ofElement (.mk name attributes children)).entry 0 =
      ⟨name, attributes, none, below.length + 1⟩ := rfl
  have hentry : ∀ {k f}, below[k]? = some f →
      (ofElement (.mk name attributes children)).entry (k + 1) = f := by
    intro k f hk
    rw [entry, ofElement, entriesOf, List.getElem?_toArray, List.getElem?_cons_succ, hk,
      Option.getD_some]
  have hexists : ∀ {k}, k < below.length → ∃ f, below[k]? = some f := by
    intro k hk
    exact ⟨_, List.getElem?_eq_getElem hk⟩
  constructor
  · omega
  · rw [htop]
  · intro i hi
    rw [hsize] at hi ⊢
    cases i with
    | zero =>
        exact Nat.le_of_eq (by rw [subtreeEnd, htop, Nat.zero_add])
    | succ k =>
        obtain ⟨f, hf⟩ := hexists (Nat.lt_of_succ_lt_succ hi)
        have := (hbelow k f hf).1
        rw [subtreeEnd, hentry hf]
        omega
  · intro j hpos hj
    rw [hsize] at hj
    obtain ⟨k, rfl⟩ := Nat.exists_eq_succ_of_ne_zero (Nat.ne_of_gt hpos)
    obtain ⟨f, hf⟩ := hexists (Nat.lt_of_succ_lt_succ hj)
    obtain ⟨-, hparent | ⟨i, g, hg, hup, hik, hin⟩⟩ := hbelow k f hf
    · refine ⟨0, hpos, by rw [hentry hf, hparent], ?_⟩
      rw [subtreeEnd, htop, Nat.zero_add]
      exact hj
    · refine ⟨i + 1, by omega, by rw [hentry hf, hup, Nat.add_comm], ?_⟩
      rw [subtreeEnd, hentry hg]
      omega

end Document

end ElementFinder.XPath
