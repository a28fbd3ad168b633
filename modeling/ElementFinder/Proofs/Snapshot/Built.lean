import ElementFinder.Proofs.Snapshot.Checked

/-!
# Snapshots that are built

A snapshot is built from its top by adding nodes one at a time, each as the last child of a node
that is there; a node for an unknown parent goes under the top.  Adding a node says once that it
hangs under its parent and once that its parent lists it, so both sides of the links stay in step:
every snapshot that is built passes the check of one that is read (`Built.checked`), and its links
make up one tree (`Built.isTree`).
-/

namespace ElementFinder

namespace Snapshot

/-- The snapshots that are built from one element by adding nodes, and looked at on any screen. -/
inductive Built : Snapshot → Prop
  | ofRoot (a : Attributes) : Built (.ofRoot a)
  | push {s : Snapshot} (hs : Built s) (parent : Nat) (a : Attributes) : Built (s.push parent a)
  | onScreen {s : Snapshot} (hs : Built s) (viewport : Rect) :
      Built { s with viewport := viewport }

/-! ## One node more -/

theorem holder_lt {s : Snapshot} (hs : 0 < s.size) (parent : Nat) : s.holder parent < s.size := by
  rw [holder]
  split
  · assumption
  · exact hs

/-- A new node names its holder, and no other node changes its parent. -/
theorem parent?_push (s : Snapshot) (parent : Nat) (a : Attributes) (k : Nat) :
    (s.push parent a).parent? k =
      if k = s.size then some (s.holder parent) else s.parent? k := by
  rw [parent?, node?_push]
  by_cases hk : k = s.size
  · simp [hk]
  · by_cases hholder : k = s.holder parent
    · rw [if_neg hk, if_pos hholder, if_neg hk, parent?]
      cases s.node? k <;> rfl
    · rw [if_neg hk, if_neg hholder, if_neg hk, parent?]

/-- The holder lists a new node last, and no other list changes. -/
theorem children_push {s : Snapshot} (hs : 0 < s.size) (parent : Nat) (a : Attributes) (k : Nat) :
    (s.push parent a).children k =
      s.children k ++ if k = s.holder parent then [s.size] else [] := by
  have hlt := holder_lt hs parent
  have hnew : s.node? s.size = none := node?_eq_none (Nat.le_refl _)
  rw [children, children, node?_push]
  by_cases hk : k = s.size
  · have hne : k ≠ s.holder parent := by omega
    rw [if_pos hk, if_neg hne, hk, hnew]
    rfl
  · by_cases hholder : k = s.holder parent
    · obtain ⟨node, hnode⟩ := exists_node (hholder ▸ hlt)
      rw [if_neg hk, if_pos hholder, if_pos hholder, hnode]
      rfl
    · rw [if_neg hk, if_neg hholder, if_neg hholder, List.append_nil]

/-- The check stays passed when a node is added. -/
theorem Checked.push {s : Snapshot} (hs : s.Checked) (parent : Nat) (a : Attributes) :
    (s.push parent a).Checked where
  nonempty := by
    rw [size_push]
    exact Nat.succ_pos _
  orphan_iff := by
    intro id hid
    rw [size_push] at hid
    rw [parent?_push]
    split
    · rename_i hnew
      have := hs.nonempty
      simp only [reduceCtorEq, false_iff]
      omega
    · exact hs.orphan_iff (by omega)
  parent_lt := by
    intro p c hp
    rw [parent?_push] at hp
    split at hp
    · rename_i hnew
      rw [hnew, ← Option.some.inj hp]
      exact holder_lt hs.nonempty parent
    · exact hs.parent_lt hp
  parent_of_child := by
    intro p c hchild
    rw [← mem_children, children_push hs.nonempty, List.mem_append] at hchild
    rw [parent?_push]
    rcases hchild with hold | hnew
    · have hp := hs.parent_of_child (mem_children.mp hold)
      rw [if_neg (Nat.ne_of_lt (lt_of_parent? hp)), hp]
    · split at hnew
      · rename_i hholder
        rw [if_pos (List.mem_singleton.mp hnew), hholder]
      · cases hnew

/-- The links stay a tree when a node is added. -/
theorem IsTree.push {s : Snapshot} (hs : s.IsTree) (hpos : 0 < s.size) (parent : Nat)
    (a : Attributes) : (s.push parent a).IsTree := by
  intro p c
  rw [children_push hpos, parent?_push, List.count_append, hs p c]
  by_cases hc : c = s.size
  · -- the new node was in no list
    have hnew : s.parent? c ≠ some p := by
      intro hp
      exact absurd (lt_of_parent? hp) (by omega)
    rw [if_neg hnew, if_pos hc, hc]
    by_cases hp : p = s.holder parent <;> simp [hp, eq_comm]
  · have hother : (if p = s.holder parent then [s.size] else []).count c = 0 := by
      rw [List.count_eq_zero]
      split <;> simp [hc]
    rw [hother, if_neg hc, Nat.add_zero]

namespace Built

variable {s : Snapshot}

/-- **What is built passes the check.** -/
theorem checked (hs : s.Built) : s.Checked := by
  induction hs with
  | ofRoot a =>
      constructor
      · exact Nat.zero_lt_one
      · intro id hid
        obtain rfl : id = 0 := Nat.lt_one_iff.mp hid
        exact iff_of_true rfl rfl
      · intro p c hp
        obtain rfl : c = 0 := Nat.lt_one_iff.mp (lt_of_parent? hp)
        cases hp
      · intro p c hchild
        obtain ⟨node, hnode, hc⟩ := child_iff.mp hchild
        obtain rfl : p = 0 := Nat.lt_one_iff.mp (node?_lt hnode)
        obtain rfl := Option.some.inj hnode
        cases hc
  | push _ parent a ih => exact ih.push parent a
  | onScreen _ viewport ih =>
      exact ⟨ih.nonempty, ih.orphan_iff, ih.parent_lt, ih.parent_of_child⟩

/-- **What is built is one tree.** -/
theorem isTree (hs : s.Built) : s.IsTree := by
  induction hs with
  | ofRoot a =>
      intro p c
      cases p <;> cases c <;> rfl
  | push hs parent a ih => exact ih.push hs.checked.nonempty parent a
  | onScreen _ viewport ih => exact ih

theorem children_nodup (hs : s.Built) (p : Nat) : (s.children p).Nodup :=
  hs.isTree.children_nodup p

theorem forest (hs : s.Built) : s.links.Forest s.size :=
  hs.checked.forest hs.children_nodup

/-- Document order meets every node once. -/
theorem perm_documentOrder (hs : s.Built) : s.documentOrder.Perm (List.range s.size) :=
  hs.checked.perm_of_isTree hs.isTree

end Built

end Snapshot

end ElementFinder
