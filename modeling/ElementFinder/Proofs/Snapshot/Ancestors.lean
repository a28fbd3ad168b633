import ElementFinder.Proofs.Snapshot.Checked

/-!
# Ancestors

In a checked snapshot a parent stands before its children, so the way up from a node is as long as
there are parents: the ancestors of a node are its parent and the ancestors of its parent
(`Checked.ancestors_eq`).  They come in decreasing order and end at the root
(`Checked.ancestors_decrease`, `Checked.getLast?_ancestors`).

The way up and the way down meet: whatever lies below a node has it among its ancestors
(`Checked.mem_ancestors`), and where every node is listed by its parent it is the other way round as
well (`Checked.mem_ancestors_iff`).
-/

namespace ElementFinder

namespace Snapshot

namespace Checked

variable {s : Snapshot}

/-- One step up, and the way up from there. -/
theorem ancestors_eq (h : s.Checked) {p id : Nat} (hp : s.parent? id = some p) :
    s.ancestors id = p :: s.ancestors p := by
  simp only [ancestors, ancestorsWithin_eq_climb]
  exact Links.climb_eq (fun _ _ => h.parent_lt) (Nat.le_of_lt (lt_of_parent? hp)) hp

theorem ancestors_root (h : s.Checked) : s.ancestors 0 = [] :=
  ancestors_of_orphan ((h.orphan_iff h.nonempty).mpr rfl)

theorem ancestors_child (h : s.Checked) {p c : Nat} (hchild : s.links.Child p c) :
    s.ancestors c = p :: s.ancestors p :=
  h.ancestors_eq (h.parent_of_child hchild)

/-- **Induction up the parents.**  What holds of every node without a parent, and of a node as soon
as it holds of its parent, holds of every node. -/
theorem up_induction (h : s.Checked) {P : Nat → Prop} (orphan : ∀ id, s.parent? id = none → P id)
    (child : ∀ p id, s.parent? id = some p → P p → P id) (id : Nat) : P id := by
  induction id using Nat.strongRecOn with
  | ind id ih =>
      cases hp : s.parent? id with
      | none => exact orphan id hp
      | some p => exact child p id hp (ih p (h.parent_lt hp))

/-- What lies below a node has the node among its ancestors. -/
theorem mem_ancestors (h : s.Checked) {p id : Nat} (hbelow : s.links.Below p id) :
    p ∈ s.ancestors id := by
  induction hbelow with
  | single hchild =>
      rw [h.ancestors_child hchild]
      exact List.mem_cons_self
  | tail _ hchild ih =>
      rw [h.ancestors_child hchild]
      exact List.mem_cons_of_mem _ ih

/-- Where every node is listed by its parent, the ancestors of a node are what it lies below. -/
theorem mem_ancestors_iff (h : s.Checked)
    (hlisted : ∀ p c, s.parent? c = some p → c ∈ s.children p) {p id : Nat} :
    p ∈ s.ancestors id ↔ s.links.Below p id := by
  refine ⟨?_, h.mem_ancestors⟩
  refine h.up_induction (P := fun id => p ∈ s.ancestors id → s.links.Below p id) ?_ ?_ id
  · intro id hid hp
    rw [ancestors_of_orphan hid] at hp
    cases hp
  · intro q id hq ih hp
    have hchild : s.links.Child q id := mem_children.mp (hlisted q id hq)
    rw [h.ancestors_eq hq, List.mem_cons] at hp
    rcases hp with rfl | habove
    · exact Relation.TransGen.single hchild
    · exact (ih habove).tail hchild

/-- On the way up numbers become smaller. -/
theorem ancestors_decrease (h : s.Checked) (id : Nat) :
    (id :: s.ancestors id).Pairwise (· > ·) := by
  refine h.up_induction (P := fun id => (id :: s.ancestors id).Pairwise (· > ·)) ?_ ?_ id
  · intro id hid
    rw [ancestors_of_orphan hid]
    exact List.pairwise_singleton _ id
  · intro p id hp ih
    have hlt := h.parent_lt hp
    rw [h.ancestors_eq hp, List.pairwise_cons]
    refine ⟨?_, ih⟩
    intro q hq
    rcases List.mem_cons.mp hq with rfl | habove
    · exact hlt
    · exact Nat.lt_trans (List.rel_of_pairwise_cons ih habove) hlt

/-- The way up from any other node ends at the root. -/
theorem getLast?_ancestors (h : s.Checked) {id : Nat} (hid : id < s.size) (hne : id ≠ 0) :
    (s.ancestors id).getLast? = some 0 := by
  revert hid hne
  refine h.up_induction
    (P := fun id => id < s.size → id ≠ 0 → (s.ancestors id).getLast? = some 0) ?_ ?_ id
  · intro id horphan hid hne
    exact absurd ((h.orphan_iff hid).mp horphan) hne
  · intro p id hp ih hid _
    rw [h.ancestors_eq hp]
    by_cases hroot : p = 0
    · rw [hroot, h.ancestors_root]
      rfl
    · rw [List.getLast?_cons, ih (Nat.lt_trans (h.parent_lt hp) hid) hroot]
      rfl

end Checked

end Snapshot

end ElementFinder
