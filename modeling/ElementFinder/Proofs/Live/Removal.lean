import ElementFinder.Proofs.Live.WellFormed

/-!
# Removing with a list of what is pending

A removal may be made by a loop over the elements that are still to be removed (`RemoveLoop`).  One
round takes an element out of the tree and puts its children on the list.  In any tree the loop
ends, since each element is taken once (`exists_removeLoop`), and in one way only
(`RemoveLoop.unique`).

What the loop takes is what lies within the elements pending, along the links of the tree as it is
before the round: a way that leads through the element taken goes on from one of its children, and
any other way is still there (`leadsTo_take_iff`).  So from an element whose parent no longer lists
it, the loop takes exactly its subtree (`WellFormed.removeLoop_iff`).
-/

namespace ElementFinder

namespace LiveTree

/-- A loop over the elements that are still to be removed, the next one first.  It is taken out of
the tree and its children go on the list, the last one first; a number that names nothing is passed
over.  The loop ends with an empty list. -/
inductive RemoveLoop : List Nat → LiveTree → LiveTree → Prop
  | done (t : LiveTree) : RemoveLoop [] t t
  | skip {id : Nat} {pending : List Nat} {t t' : LiveTree} (hid : t.node? id = none)
      (rest : RemoveLoop pending t t') : RemoveLoop (id :: pending) t t'
  | take {id : Nat} {node : LiveNode} {pending : List Nat} {t t' : LiveTree}
      (hid : t.node? id = some node)
      (rest : RemoveLoop (node.children.reverse ++ pending) (t.clear [id]) t') :
      RemoveLoop (id :: pending) t t'

/-- The loop ends in one way at most. -/
theorem RemoveLoop.unique {pending : List Nat} {t t₁ t₂ : LiveTree}
    (h₁ : RemoveLoop pending t t₁) (h₂ : RemoveLoop pending t t₂) : t₁ = t₂ := by
  induction h₁ with
  | done => cases h₂; rfl
  | skip hid _ ih =>
      cases h₂ with
      | skip _ rest => exact ih rest
      | take hid' _ => exact absurd (hid.symm.trans hid') (by simp)
  | take hid _ ih =>
      cases h₂ with
      | skip hid' _ => exact absurd (hid'.symm.trans hid) (by simp)
      | take hid' rest =>
          obtain rfl := Option.some.inj (hid.symm.trans hid')
          exact ih rest

/-! ## The loop ends -/

/-- A removal gives out no number and takes none back. -/
@[simp] theorem nextId_clear (t : LiveTree) (ids : List Nat) : (t.clear ids).nextId = t.nextId := by
  have hsize : ∀ (cells : Array (Option LiveNode)),
      (ids.foldl (fun cells id => cells.setIfInBounds id none) cells).size = cells.size := by
    induction ids with
    | nil => exact fun _ => rfl
    | cons id rest ih => exact fun cells => (ih _).trans Array.size_setIfInBounds
  exact hsize t.cells

/-- The numbers that name something. -/
def liveIds (t : LiveTree) : List Nat :=
  (List.range t.nextId).filter fun id => (t.node? id).isSome

/-- The size counts them. -/
theorem size_eq_length_liveIds (t : LiveTree) : t.size = t.liveIds.length := by
  have hcells : t.cells.toList = (List.range t.nextId).map t.node? := by
    apply List.ext_getElem
    · simp [nextId]
    · intro i hi _
      have hlt : i < t.cells.size := by simpa using hi
      simp [node?, hlt]
  rw [size, hcells, List.filter_map, List.length_map]
  rfl

/-- Taking an element leaves fewer. -/
theorem size_clear_lt {t : LiveTree} {id : Nat} {node : LiveNode}
    (hid : t.node? id = some node) : (t.clear [id]).size < t.size := by
  have hleft : (t.clear [id]).liveIds = t.liveIds.filter fun k => k != id := by
    rw [liveIds, liveIds, nextId_clear, List.filter_filter]
    refine List.filter_congr fun k _ => ?_
    rw [node?_clear_one]
    by_cases hk : k = id <;> simp [hk]
  have hmem : id ∈ t.liveIds := by
    simp [liveIds, lt_nextId hid, hid]
  rw [size_eq_length_liveIds, size_eq_length_liveIds, hleft,
    List.length_filter_lt_length_iff_exists]
  exact ⟨id, hmem, by simp⟩

/-- **The loop ends**, whatever is pending: with a round that takes an element there are fewer left
to take, and the other rounds make the list shorter. -/
theorem exists_removeLoop (t : LiveTree) (pending : List Nat) :
    ∃ t', RemoveLoop pending t t' := by
  induction hleft : t.size using Nat.strongRecOn generalizing t pending with
  | ind left ih =>
      induction pending with
      | nil => exact ⟨t, .done t⟩
      | cons id pending ihpending =>
          cases hid : t.node? id with
          | none =>
              obtain ⟨t', hloop⟩ := ihpending
              exact ⟨t', .skip hid hloop⟩
          | some node =>
              have hfewer : (t.clear [id]).size < left := hleft ▸ size_clear_lt hid
              obtain ⟨t', hloop⟩ :=
                ih _ hfewer (t.clear [id]) (node.children.reverse ++ pending) rfl
              exact ⟨t', .take hid hloop⟩

/-! ## What the loop takes -/

/-- Some way along the links leads from an element pending to a number. -/
def LeadsTo (t : LiveTree) (pending : List Nat) (k : Nat) : Prop :=
  ∃ a ∈ pending, t.links.Within a k

/-- Links after an element was taken are links before. -/
theorem child_of_child_clear {t : LiveTree} {id p c : Nat}
    (h : (t.clear [id]).links.Child p c) : p ≠ id ∧ t.links.Child p c := by
  obtain ⟨node, hnode, hc⟩ := child_iff.mp h
  rw [node?_clear_one] at hnode
  by_cases hp : p = id
  · rw [if_pos hp] at hnode
    cases hnode
  · rw [if_neg hp] at hnode
    exact ⟨hp, child_iff.mpr ⟨node, hnode, hc⟩⟩

/-- A link from another element is still there after an element was taken. -/
theorem child_clear {t : LiveTree} {id p c : Nat} (hp : p ≠ id) (h : t.links.Child p c) :
    (t.clear [id]).links.Child p c := by
  obtain ⟨node, hnode, hc⟩ := child_iff.mp h
  refine child_iff.mpr ⟨node, ?_, hc⟩
  rw [node?_clear_one, if_neg hp, hnode]

/-- **One round.**  What is led to is the element taken, or is led to without it from its
children and from what else is pending. -/
theorem leadsTo_take_iff {t : LiveTree} {id : Nat} {node : LiveNode}
    (hid : t.node? id = some node) (pending : List Nat) (k : Nat) :
    t.LeadsTo (id :: pending) k ↔
      k = id ∨ (t.clear [id]).LeadsTo (node.children.reverse ++ pending) k := by
  constructor
  · rintro ⟨a, ha, hway⟩
    induction hway with
    | refl =>
        rcases List.mem_cons.mp ha with rfl | hold
        · exact .inl rfl
        · exact .inr ⟨a, List.mem_append_right _ hold, .refl⟩
    | @tail y z _ hstep ih =>
        right
        by_cases hy : y = id
        · -- the way goes on from the element taken
          subst hy
          obtain ⟨node', hnode', hz⟩ := child_iff.mp hstep
          obtain rfl := Option.some.inj (hid.symm.trans hnode')
          exact ⟨z, List.mem_append_left _ (List.mem_reverse.mpr hz), .refl⟩
        · obtain ⟨b, hb, hway⟩ := ih.resolve_left hy
          exact ⟨b, hb, hway.tail (child_clear hy hstep)⟩
  · rintro (rfl | ⟨a, ha, hway⟩)
    · exact ⟨k, List.mem_cons_self, .refl⟩
    · have hold : t.links.Within a k :=
        Relation.ReflTransGen.mono (fun _ _ h => (child_of_child_clear h).2) a k hway
      rcases List.mem_append.mp ha with hchild | hrest
      · have hbelow := child_iff.mpr ⟨node, hid, List.mem_reverse.mp hchild⟩
        exact ⟨id, List.mem_cons_self, .head hbelow hold⟩
      · exact ⟨a, List.mem_cons_of_mem _ hrest, hold⟩

/-- A number that names nothing leads nowhere. -/
theorem leadsTo_skip_iff {t : LiveTree} {id : Nat} (hid : t.node? id = none) (pending : List Nat)
    (k : Nat) : t.LeadsTo (id :: pending) k ↔ k = id ∨ t.LeadsTo pending k := by
  constructor
  · rintro ⟨a, ha, hway⟩
    rcases List.mem_cons.mp ha with rfl | hold
    · left
      rcases hway.cases_head with heq | ⟨c, hstep, -⟩
      · exact heq.symm
      · obtain ⟨node, hnode, -⟩ := child_iff.mp hstep
        exact absurd (hid.symm.trans hnode) (by simp)
    · exact .inr ⟨a, hold, hway⟩
  · rintro (rfl | ⟨a, ha, hway⟩)
    · exact ⟨k, List.mem_cons_self, .refl⟩
    · exact ⟨a, List.mem_cons_of_mem _ ha, hway⟩

/-- **The whole loop.**  What is led to is gone, and everything else is as it was. -/
theorem RemoveLoop.node?_eq {pending : List Nat} {t t' : LiveTree} (h : RemoveLoop pending t t') :
    t'.nextId = t.nextId ∧ ∀ k, (t.LeadsTo pending k → t'.node? k = none) ∧
      (¬ t.LeadsTo pending k → t'.node? k = t.node? k) := by
  induction h with
  | done t =>
      refine ⟨rfl, fun k => ⟨?_, fun _ => rfl⟩⟩
      rintro ⟨a, ha, -⟩
      cases ha
  | @skip id pending t t' hid _ ih =>
      refine ⟨ih.1, fun k => ?_⟩
      obtain ⟨hgone, hkept⟩ := ih.2 k
      rw [leadsTo_skip_iff hid]
      constructor
      · rintro (rfl | hleads)
        · by_cases hleads : t.LeadsTo pending k
          · exact hgone hleads
          · rw [hkept hleads, hid]
        · exact hgone hleads
      · exact fun hout => hkept fun hleads => hout (.inr hleads)
  | @take id node pending t t' hid _ ih =>
      refine ⟨ih.1.trans (nextId_clear t [id]), fun k => ?_⟩
      obtain ⟨hgone, hkept⟩ := ih.2 k
      rw [node?_clear_one] at hkept
      rw [leadsTo_take_iff hid]
      constructor
      · rintro (rfl | hleads)
        · by_cases hleads : (t.clear [k]).LeadsTo (node.children.reverse ++ pending) k
          · exact hgone hleads
          · rw [hkept hleads, if_pos rfl]
        · exact hgone hleads
      · intro hout
        rw [hkept fun hleads => hout (.inr hleads), if_neg fun hk => hout (.inl hk)]

/-! ## Removing a subtree -/

/-- A live tree is told by its elements and the next number. -/
theorem ext_node? {t t' : LiveTree} (hnext : t.nextId = t'.nextId)
    (hnode : ∀ k, t.node? k = t'.node? k) : t = t' := by
  obtain ⟨cells⟩ := t
  obtain ⟨cells'⟩ := t'
  congr 1
  refine Array.ext hnext fun k hk hk' => ?_
  have hcell := hnode k
  simpa [node?, hk, hk'] using hcell

/-- Unlinking gives out no number and takes none back. -/
@[simp] theorem nextId_unlink (t : LiveTree) (id : Nat) : (t.unlink id).nextId = t.nextId := by
  unfold unlink
  split
  · rfl
  · exact nextId_modify t _ _

/-- What lies within an element stays so when its parent no longer lists it: no way down from the
element leads to its parent. -/
theorem WellFormed.within_unlink_iff {t : LiveTree} (h : t.WellFormed) {id p : Nat}
    {node : LiveNode} (hid : t.node? id = some node) (hparent : node.parent = some p) {k : Nat} :
    (t.unlink id).links.Within id k ↔ t.links.Within id k := by
  have hcells := node?_unlink hid hparent
  constructor
  · refine Relation.ReflTransGen.mono (fun q c hstep => ?_) id k
    obtain ⟨above, habove, hc⟩ := child_iff.mp hstep
    rw [hcells] at habove
    by_cases hq : q = p
    · rw [if_pos hq] at habove
      obtain ⟨old, hold, rfl⟩ := Option.map_eq_some_iff.mp habove
      exact child_iff.mpr ⟨old, hold, List.mem_of_mem_filter hc⟩
    · rw [if_neg hq] at habove
      exact child_iff.mpr ⟨above, habove, hc⟩
  · intro hway
    induction hway with
    | refl => exact .refl
    | @tail q c hbefore hstep ih =>
        have hle : id ≤ q := h.forest.toDescending.le_of_within hbefore
        have hlt : p < id := (h.child_of_parent hid hparent).1
        have hq : q ≠ p := by omega
        obtain ⟨above, habove, hc⟩ := child_iff.mp hstep
        refine ih.tail (child_iff.mpr ⟨above, ?_, hc⟩)
        rw [hcells, if_neg hq, habove]

/-- **The loop removes a subtree.**  Once its parent no longer lists an element, the loop ends with
the tree without the subtree of the element, and with no other. -/
theorem WellFormed.removeLoop_iff {t : LiveTree} (h : t.WellFormed) {id p : Nat}
    {node : LiveNode} (hid : t.node? id = some node) (hparent : node.parent = some p)
    (t' : LiveTree) :
    RemoveLoop [id] (t.unlink id) t' ↔ t' = (t.unlink id).clear (t.subtree id) := by
  have hends : ∀ {t'}, RemoveLoop [id] (t.unlink id) t' →
      t' = (t.unlink id).clear (t.subtree id) := by
    intro t' hloop
    obtain ⟨hnext, hnodes⟩ := hloop.node?_eq
    refine ext_node? (hnext.trans (nextId_clear _ _).symm) fun k => ?_
    have hleads : (t.unlink id).LeadsTo [id] k ↔ k ∈ t.subtree id := by
      rw [h.mem_subtree hid, ← h.within_unlink_iff hid hparent]
      simp [LeadsTo]
    obtain ⟨hgone, hkept⟩ := hnodes k
    rw [hleads] at hgone hkept
    rw [node?_clear]
    by_cases hk : k ∈ t.subtree id
    · rw [if_pos hk, hgone hk]
    · rw [if_neg hk, hkept hk]
  refine ⟨hends, ?_⟩
  rintro rfl
  obtain ⟨t', hloop⟩ := exists_removeLoop (t.unlink id) [id]
  exact hends hloop ▸ hloop

/-- **Removing.**  An element other than the root is removed by taking it out of the list of its
parent and running the loop on it. -/
theorem WellFormed.remove_iff {t : LiveTree} (h : t.WellFormed) (element : Handle)
    (t' : LiveTree) :
    t.remove element = .ok t' ↔ ∃ id, t.liveId? element = some id ∧ id ≠ root ∧
      RemoveLoop [id] (t.unlink id) t' := by
  rw [LiveTree.remove]
  cases hlive : t.liveId? element with
  | none => simp
  | some id =>
      obtain ⟨node, hnode⟩ := (liveId?_eq_some.mp hlive).2
      by_cases hroot : id = root
      · simp [hroot]
      · obtain ⟨p, hparent⟩ : ∃ p, node.parent = some p := by
          cases hparent : node.parent with
          | none => exact absurd (h.root_of_orphan hnode hparent) hroot
          | some p => exact ⟨p, rfl⟩
        simp only [if_neg hroot, Except.ok.injEq, Option.some.injEq]
        constructor
        · rintro rfl
          exact ⟨id, rfl, hroot, (h.removeLoop_iff hnode hparent _).mpr rfl⟩
        · rintro ⟨_, rfl, -, hloop⟩
          exact ((h.removeLoop_iff hnode hparent t').mp hloop).symm

end LiveTree

end ElementFinder
