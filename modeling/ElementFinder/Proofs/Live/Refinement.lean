import ElementFinder.Proofs.Live.Holding
import ElementFinder.Proofs.Live.Naming
import ElementFinder.Proofs.Live.Removal

/-!
# Live trees follow numbered stores

`Represents` says which numbered store a live tree stands for: its cells hold the tree of the
store and nothing else, and the next number is the same.

Each change of a live tree does to the cells what the same change of the store does to the tree
(`Represents.apply`), so the two stay together over all runs (`Represents.run`).  Numbers are
given out once: what is removed never comes back (`Gone.run`).  `Follows` collects what this says
of a live tree, and `run_follows` states it of every run.
-/

namespace ElementFinder

open NumberedTree (ids_ofFixture)

namespace LiveTree

/-- The cells hold the tree of a store and nothing else, and the next number is the same. -/
structure Represents (t : LiveTree) (s : NumberedStore) : Prop where
  holds : t.Holds none s.tree
  stored : ∀ {id node}, t.node? id = some node → id ∈ s.tree.ids
  nodup : s.tree.ids.Nodup
  root_eq : s.tree.top = root
  next_eq : s.next = t.nextId

/-- Makes changes one after the other, as far as they can be made. -/
def run (t : LiveTree) (ms : List Mutation) : LiveTree :=
  ms.foldl tryApply t

/-! ## One change -/

/-- A loaded fixture is numbered from zero. -/
theorem represents_ofFixture (f : Fixture) : (ofFixture f).Represents (.load f) where
  holds := holds_insertFixture ⟨#[]⟩ none f
  stored := by
    intro id node hid
    have hlt := lt_nextId hid
    rw [ofFixture, nextId_insertFixture] at hlt
    rw [NumberedStore.load, ids_ofFixture, List.mem_range'_1]
    exact ⟨Nat.zero_le id, hlt⟩
  nodup := by
    rw [NumberedStore.load, ids_ofFixture]
    exact List.nodup_range'
  root_eq := NumberedTree.top_ofFixture 0 f
  next_eq := by
    rw [ofFixture, nextId_insertFixture, NumberedStore.load]
    exact (Nat.zero_add f.count).symm

namespace Represents

variable {t : LiveTree} {s : NumberedStore}

/-- The numbers of the tree are those of the live elements. -/
theorem mem_ids_iff (h : t.Represents s) {id : Nat} :
    id ∈ s.tree.ids ↔ ∃ node, t.node? id = some node := by
  constructor
  · exact Holds.live s.tree h.holds
  · intro hlive
    obtain ⟨node, hnode⟩ := hlive
    exact h.stored hnode

/-- The numbers of the tree are below the next one. -/
theorem lt_next (h : t.Represents s) {id : Nat} (hid : id ∈ s.tree.ids) : id < s.next := by
  obtain ⟨node, hnode⟩ := h.mem_ids_iff.mp hid
  rw [h.next_eq]
  exact lt_nextId hnode

/-- Handles name the same numbers. -/
theorem named?_eq (h : t.Represents s) (e : Handle) : s.named? e = t.liveId? e := by
  rw [NumberedStore.named?, liveId?]
  congr 1
  funext id
  rw [Bool.eq_iff_iff, decide_eq_true_eq, h.mem_ids_iff, Option.isSome_iff_exists]

/-- **Appending.**  A fixture hangs under its parent as the last child, with the next numbers. -/
theorem insertFixture (h : t.Represents s) {p : Nat} (hp : p ∈ s.tree.ids) (f : Fixture) :
    (t.insertFixture (some p) f).Represents
      ⟨.graft p (.ofFixture s.next f) s.tree, s.next + f.count⟩ where
  holds := by
    refine Holds.graft ?_ ?_ s.tree h.holds
    · rw [h.next_eq]
      exact holds_insertFixture t (some p) f
    · intro k node hk
      rw [node?_insertFixture t p (lt_nextId hk) f, hk, NumberedTree.top_ofFixture, h.next_eq]
      by_cases hkp : k = p <;> simp [hkp]
  stored := by
    intro id node hid
    rw [NumberedTree.mem_ids_graft hp, ids_ofFixture, List.mem_range'_1]
    by_cases hold : id < t.nextId
    · rw [node?_insertFixture t p hold f] at hid
      refine Or.inl (h.mem_ids_iff.mpr ?_)
      by_cases hidp : id = p
      · exact hidp ▸ h.mem_ids_iff.mp hp
      · rw [if_neg hidp] at hid
        exact ⟨node, hid⟩
    · have hlt := lt_nextId hid
      rw [nextId_insertFixture] at hlt
      rw [h.next_eq]
      exact Or.inr ⟨Nat.le_of_not_lt hold, hlt⟩
  nodup := by
    refine NumberedTree.nodup_graft h.nodup ?_ ?_ p
    · rw [ids_ofFixture]
      exact List.nodup_range'
    · intro x hx hold
      rw [ids_ofFixture, List.mem_range'_1] at hx
      have := h.lt_next hold
      omega
  root_eq := (NumberedTree.top_graft p _ s.tree).trans h.root_eq
  next_eq := by rw [nextId_insertFixture, h.next_eq]

/-- An element other than the root does not lie above the root. -/
theorem outside_of_ne_root (h : t.Represents s) (ht : t.WellFormed) {id : Nat}
    (hroot : id ≠ root) : ¬ t.links.Within id s.tree.top := by
  intro hwithin
  have hle : id ≤ s.tree.top := ht.forest.toDescending.le_of_within hwithin
  rw [h.root_eq] at hle
  exact hroot (Nat.le_zero.mp hle)

/-- **Exactly the subtree is removed.**  A node is left when it is no node of the subtree. -/
theorem mem_prune_iff (h : t.Represents s) (ht : t.WellFormed) {id k : Nat}
    (hid : id ∈ s.tree.ids) (hroot : id ≠ root) :
    k ∈ (s.tree.prune id).ids ↔ k ∈ s.tree.ids ∧ k ∉ t.subtree id := by
  obtain ⟨node, hnode⟩ := h.mem_ids_iff.mp hid
  rw [Holds.mem_prune ht s.tree h.holds (h.outside_of_ne_root ht hroot), ht.mem_subtree hnode]

/-- **Removing.**  The cells that are left hold the tree without the subtree. -/
theorem remove (h : t.Represents s) (ht : t.WellFormed) {id : Nat} {node : LiveNode}
    (hid : t.node? id = some node) (hroot : id ≠ root) :
    ((t.unlink id).clear (t.subtree id)).Represents ⟨s.tree.prune id, s.next⟩ := by
  obtain ⟨p, hparent⟩ : ∃ p, node.parent = some p := by
    cases hparent : node.parent with
    | none => exact absurd (ht.root_of_orphan hid hparent) hroot
    | some p => exact ⟨p, rfl⟩
  have hcells := ht.node?_remove hid hparent
  have hmem := h.mem_ids_iff.mpr ⟨node, hid⟩
  constructor
  · refine Holds.prune ht ?_ s.tree h.holds (h.outside_of_ne_root ht hroot)
    intro k old hk hout
    rw [hcells, if_neg (mt (ht.mem_subtree hid).mp hout), hk, Option.map_some]
  · intro k kept hk
    rw [hcells] at hk
    by_cases hinside : k ∈ t.subtree id
    · rw [if_pos hinside] at hk
      exact absurd hk (by simp)
    · rw [if_neg hinside] at hk
      obtain ⟨old, hold, _⟩ := Option.map_eq_some_iff.mp hk
      exact (h.mem_prune_iff ht hmem hroot).mpr ⟨h.stored hold, hinside⟩
  · exact h.nodup.sublist (NumberedTree.ids_prune_sublist id s.tree)
  · exact (NumberedTree.top_prune id s.tree).trans h.root_eq
  · rw [nextId_clear, nextId_unlink, h.next_eq]

/-- **Updating.**  Only the attributes of one node change. -/
theorem modify (h : t.Represents s) (id : Nat) (f : Attributes → Attributes) :
    (t.modify id fun node => { node with attributes := f node.attributes }).Represents
      ⟨s.tree.revise id f, s.next⟩ where
  holds := Holds.revise s.tree h.holds
  stored := by
    intro k node hk
    rw [node?_modify] at hk
    rw [NumberedTree.ids_revise]
    by_cases hkid : k = id
    · rw [if_pos hkid] at hk
      obtain ⟨old, hold, _⟩ := Option.map_eq_some_iff.mp hk
      exact h.stored hold
    · rw [if_neg hkid] at hk
      exact h.stored hk
  nodup := by
    rw [NumberedTree.ids_revise]
    exact h.nodup
  root_eq := (NumberedTree.top_revise id f s.tree).trans h.root_eq
  next_eq := by rw [nextId_modify, h.next_eq]

end Represents

/-- A live tree and a numbered store answer a change alike: both refuse it for the same reason,
or both make it and stay together. -/
inductive Agree : Except LiveFault LiveTree → Except LiveFault NumberedStore → Prop
  | made {t : LiveTree} {s : NumberedStore} (h : t.Represents s) : Agree (.ok t) (.ok s)
  | refused (e : LiveFault) : Agree (.error e) (.error e)

/-- **One change.**  A live tree changes as the numbered store that it represents. -/
theorem Represents.apply {t : LiveTree} {s : NumberedStore} (h : t.Represents s)
    (ht : t.WellFormed) (m : Mutation) : Agree (t.apply m) (s.apply m) := by
  cases m with
  | append parent child =>
      rw [LiveTree.apply, appendChild, NumberedStore.apply, h.named?_eq]
      cases hp : t.liveId? parent with
      | none => exact .refused _
      | some p =>
          have hlive := h.mem_ids_iff.mpr (liveId?_eq_some.mp hp).2
          exact .made (h.insertFixture hlive child)
  | remove element =>
      rw [LiveTree.apply, LiveTree.remove, NumberedStore.apply, h.named?_eq]
      cases hid : t.liveId? element with
      | none => exact .refused _
      | some id =>
          obtain ⟨node, hnode⟩ := (liveId?_eq_some.mp hid).2
          rw [h.root_eq]
          by_cases hroot : id = root
          · simp only [hroot, if_true]
            exact .refused _
          · simp only [hroot, if_false]
            exact .made (h.remove ht hnode hroot)
  | update element f =>
      rw [LiveTree.apply, LiveTree.update, NumberedStore.apply, h.named?_eq]
      cases t.liveId? element with
      | none => exact .refused _
      | some id => exact .made (h.modify id f)

/-- A live tree refuses what the numbered store refuses, for the same reason. -/
theorem Represents.apply_error_iff {t : LiveTree} {s : NumberedStore} (h : t.Represents s)
    (ht : t.WellFormed) (m : Mutation) (e : LiveFault) :
    t.apply m = .error e ↔ s.Refuses m e := by
  rw [← s.apply_error_iff]
  have hagree := h.apply ht m
  generalize t.apply m = live, s.apply m = store at hagree ⊢
  cases hagree with
  | made _ => simp
  | refused _ => simp

/-! ## Runs -/

/-- Changes made as far as they can be keep a live tree and its numbered store together. -/
theorem Represents.tryApply {t : LiveTree} {s : NumberedStore} (h : t.Represents s)
    (ht : t.WellFormed) (m : Mutation) : (t.tryApply m).Represents (s.tryApply m) := by
  rw [LiveTree.tryApply, NumberedStore.tryApply]
  have hagree := h.apply ht m
  generalize t.apply m = live, s.apply m = store at hagree ⊢
  cases hagree with
  | made h' => exact h'
  | refused _ => exact h

/-- A change made as far as it can be keeps a tree well-formed. -/
theorem WellFormed.tryApply {t : LiveTree} (ht : t.WellFormed) (m : Mutation) :
    (t.tryApply m).WellFormed := by
  rw [LiveTree.tryApply]
  cases happly : t.apply m with
  | ok t' => exact ht.apply m happly
  | error e => exact ht

/-- A run keeps a tree well-formed. -/
theorem WellFormed.run {t : LiveTree} (ht : t.WellFormed) (ms : List Mutation) :
    (t.run ms).WellFormed := by
  induction ms generalizing t with
  | nil => exact ht
  | cons m rest ih => exact ih (ht.tryApply m)

/-- **A whole run.**  Changes keep a live tree and its numbered store together. -/
theorem Represents.run {t : LiveTree} {s : NumberedStore} (h : t.Represents s)
    (ht : t.WellFormed) (ms : List Mutation) : (t.run ms).Represents (s.run ms) := by
  induction ms generalizing t s with
  | nil => exact h
  | cons m rest ih => exact ih (h.tryApply ht m) (ht.tryApply m)

/-- What a change can do to a live tree. -/
theorem tryApply_cases (t : LiveTree) (m : Mutation) :
    t.tryApply m = t ∨
    (∃ p child, t.tryApply m = t.insertFixture (some p) child) ∨
    (∃ id, t.tryApply m = (t.unlink id).clear (t.subtree id)) ∨
    (∃ (id : Nat) (f : Attributes → Attributes), t.tryApply m =
      t.modify id fun node => { node with attributes := f node.attributes }) := by
  rw [tryApply]
  cases m with
  | append parent child =>
      rw [apply, appendChild]
      cases t.liveId? parent with
      | none => exact Or.inl rfl
      | some p => exact Or.inr (Or.inl ⟨p, child, rfl⟩)
  | remove element =>
      rw [apply, remove]
      cases t.liveId? element with
      | none => exact Or.inl rfl
      | some id =>
          by_cases hroot : id = root
          · exact Or.inl (by simp [hroot])
          · exact Or.inr (Or.inr (Or.inl ⟨id, by simp [hroot]⟩))
  | update element f =>
      rw [apply, update]
      cases t.liveId? element with
      | none => exact Or.inl rfl
      | some id => exact Or.inr (Or.inr (Or.inr ⟨id, f, rfl⟩))

/-- A number that was given out and names nothing. -/
def Gone (t : LiveTree) (id : Nat) : Prop :=
  t.node? id = none ∧ id < t.nextId

/-- No change takes a number back. -/
theorem nextId_le_tryApply (t : LiveTree) (m : Mutation) : t.nextId ≤ (t.tryApply m).nextId := by
  rcases t.tryApply_cases m with hsame | ⟨p, child, hsame⟩ | ⟨id, hsame⟩ | ⟨id, f, hsame⟩
  · exact Nat.le_of_eq (by rw [hsame])
  · rw [hsame, nextId_insertFixture]
    exact Nat.le_add_right _ _
  · exact Nat.le_of_eq (by rw [hsame, nextId_clear, nextId_unlink])
  · exact Nat.le_of_eq (by rw [hsame, nextId_modify])

/-- A change does not bring back what is gone. -/
theorem Gone.tryApply {t : LiveTree} {id : Nat} (h : t.Gone id) (m : Mutation) :
    (t.tryApply m).Gone id := by
  obtain ⟨hnone, hlt⟩ := h
  refine ⟨?_, Nat.lt_of_lt_of_le hlt (t.nextId_le_tryApply m)⟩
  rcases t.tryApply_cases m with hsame | ⟨p, child, hsame⟩ | ⟨gone, hsame⟩ | ⟨target, f, hsame⟩
  · rw [hsame, hnone]
  · rw [hsame, node?_insertFixture t p hlt child, hnone, Option.map_none, ite_self]
  · have hunlinked : (t.unlink gone).node? id = none := by
      unfold unlink
      split
      · exact hnone
      · rw [node?_modify, hnone, Option.map_none, ite_self]
    rw [hsame, node?_clear, hunlinked, ite_self]
  · rw [hsame, node?_modify, hnone, Option.map_none, ite_self]

/-- **Numbers are given out once.**  A number that names nothing names nothing ever after. -/
theorem Gone.run {t : LiveTree} {id : Nat} (h : t.Gone id) (ms : List Mutation) :
    (t.run ms).Gone id := by
  induction ms generalizing t with
  | nil => exact h
  | cons m rest ih => exact ih (h.tryApply m)

/-- No run takes a number back. -/
theorem nextId_le_run (t : LiveTree) (ms : List Mutation) : t.nextId ≤ (t.run ms).nextId := by
  induction ms generalizing t with
  | nil => exact Nat.le_refl _
  | cons m rest ih => exact Nat.le_trans (t.nextId_le_tryApply m) (ih (t.tryApply m))

/-- A handle whose element was removed is stale in every later state. -/
theorem liveId?_run_eq_none {t : LiveTree} {h : Handle} {id : Nat} (hid : t.liveId? h = some id)
    {ms : List Mutation} (hgone : (t.run ms).node? id = none) (later : List Mutation) :
    ((t.run ms).run later).liveId? h = none := by
  obtain ⟨hnumber, node, hnode⟩ := liveId?_eq_some.mp hid
  have hlt : id < (t.run ms).nextId := Nat.lt_of_lt_of_le (lt_nextId hnode) (t.nextId_le_run ms)
  have hstays := (Gone.run ⟨hgone, hlt⟩ later).1
  simp [liveId?, hnumber, hstays]

/-! ## What a live tree owes to its numbered store -/

/-- The number of live elements is the number of nodes. -/
theorem Represents.size_eq {t : LiveTree} {s : NumberedStore} (h : t.Represents s) :
    t.size = s.tree.ids.length := by
  have hperm : t.liveIds.Perm s.tree.ids := by
    refine (List.perm_ext_iff_of_nodup (List.nodup_range.filter _) h.nodup).mpr ?_
    intro id
    rw [List.mem_filter, List.mem_range, Option.isSome_iff_exists, ← h.mem_ids_iff, ← h.next_eq]
    exact ⟨fun hid => hid.2, fun hid => ⟨h.lt_next hid, hid⟩⟩
  rw [size_eq_length_liveIds]
  exact hperm.length_eq

/-- What a live tree has in common with the numbered store that it stands for, now and in every
later state. -/
structure Follows (t : LiveTree) (s : NumberedStore) : Prop where
  /-- The cells hold the tree of the store and nothing else. -/
  represents : t.Represents s
  /-- They hold no other tree. -/
  only_tree : ∀ n, t.Holds none n → n.top = root → n = s.tree
  /-- Going down from the root meets every node, in document order. -/
  reached : t.subtree root = s.tree.ids
  size_eq : t.size = s.tree.ids.length
  named : ∀ id ∈ s.tree.ids, id < t.nextId ∧ t.liveId? (.ofNumber id) = some id
  /-- The next change is made or refused alike. -/
  answers : ∀ m, Agree (t.apply m) (s.apply m)
  /-- A change is refused when it is made at something without a name, or when it is the removal of
  the root; it then leaves everything as it is. -/
  refused : ∀ m e, (t.apply m = .error e ↔ s.Refuses m e) ∧ (s.Refuses m e → t.tryApply m = t)
  /-- A new subtree hangs under its parent as the last child, and its handle names its top. -/
  appended : ∀ parent child e t', t.appendChild parent child = .ok (e, t') →
    ∃ p new, s.named? parent = some p ∧ new.forget = child ∧
      new.ids = List.range' t.nextId child.count ∧
      t'.Represents ⟨.graft p new s.tree, s.next + child.count⟩ ∧ e = .ofNumber new.top ∧
      (t'.nextId < Nat.pow 2 64 → t'.liveId? e = some new.top)
  /-- A removal takes out exactly the nodes of the subtree. -/
  removed : ∀ id ∈ s.tree.ids, id ≠ root →
    ∀ k, k ∈ (s.tree.prune id).ids ↔ k ∈ s.tree.ids ∧ k ∉ t.subtree id
  /-- It does so by a loop over the elements that are pending, once the parent of the element no
  longer lists it. -/
  removed_by_loop : ∀ element t', t.remove element = .ok t' ↔
    ∃ id, t.liveId? element = some id ∧ id ≠ root ∧ RemoveLoop [id] (t.unlink id) t'
  /-- The handle of a removed element never names anything again. -/
  stale : ∀ e id, t.liveId? e = some id → ∀ ms, (t.run ms).node? id = none →
    ∀ later, ((t.run ms).run later).liveId? e = none

/-- A live tree that represents a store follows it. -/
theorem Represents.follows {t : LiveTree} {s : NumberedStore} (h : t.Represents s)
    (ht : t.WellFormed) (hfits : t.nextId < Nat.pow 2 64) : t.Follows s where
  represents := h
  only_tree := by
    intro n hn htop
    exact Holds.unique n s.tree hn h.holds (htop.trans h.root_eq.symm)
  reached := by
    rw [← h.root_eq]
    exact Holds.subtree_eq ht s.tree h.holds
  size_eq := h.size_eq
  named := by
    intro id hid
    obtain ⟨node, hnode⟩ := h.mem_ids_iff.mp hid
    have hlt := lt_nextId hnode
    exact ⟨hlt, liveId?_eq_some.mpr
      ⟨Handle.number?_ofNumber (Nat.lt_trans hlt hfits), node, hnode⟩⟩
  answers := h.apply ht
  refused := by
    intro m e
    have hiff := h.apply_error_iff ht m e
    refine ⟨hiff, fun hrefuses => ?_⟩
    rw [LiveTree.tryApply, hiff.mpr hrefuses]
  appended := by
    intro parent child e t' happend
    rw [appendChild] at happend
    cases hp : t.liveId? parent with
    | none => simp [hp] at happend
    | some p =>
        rw [hp] at happend
        obtain ⟨rfl, rfl⟩ := Prod.mk.inj (Except.ok.inj happend)
        have hlive := h.mem_ids_iff.mpr (liveId?_eq_some.mp hp).2
        have hafter := h.insertFixture hlive child
        have hnew := holds_insertFixture t (some p) child
        refine ⟨p, .ofFixture t.nextId child, (h.named?_eq parent).trans hp,
          NumberedTree.forget_ofFixture _ child, ids_ofFixture _ child, ?_, ?_, ?_⟩
        · rwa [h.next_eq] at hafter ⊢
        · rw [NumberedTree.top_ofFixture]
        · intro hfits'
          rw [NumberedTree.top_ofFixture]
          obtain ⟨node, hnode⟩ := Holds.live _ hnew (NumberedTree.top_mem_ids _)
          rw [NumberedTree.top_ofFixture] at hnode
          exact liveId?_eq_some.mpr ⟨Handle.number?_ofNumber
            (Nat.lt_trans (lt_nextId hnode) hfits'), node, hnode⟩
  removed := by
    intro id hid hroot k
    exact h.mem_prune_iff ht hid hroot
  removed_by_loop := ht.remove_iff
  stale := by
    intro e id hid ms hgone later
    exact liveId?_run_eq_none hid hgone later

/-- **Live trees are numbered trees.**  A loaded fixture gets the numbers from zero on in document
order, and after any run of changes the cells hold exactly the numbered tree that the same
changes make: appending grafts a fixture with fresh numbers under its parent as the last child,
removing prunes exactly one subtree, updating revises one node, and what is refused changes
nothing.  The handle of a removed element stays stale for good. -/
theorem run_follows (f : Fixture) (ms : List Mutation)
    (hfits : ((ofFixture f).run ms).nextId < Nat.pow 2 64) :
    (NumberedStore.load f).tree.ids = List.range f.count ∧
      (NumberedStore.load f).tree.forget = f ∧
      ((ofFixture f).run ms).Follows ((NumberedStore.load f).run ms) := by
  have ht := wellFormed_ofFixture f
  refine ⟨?_, NumberedTree.forget_ofFixture 0 f, ?_⟩
  · rw [NumberedStore.load, ids_ofFixture, List.range_eq_range']
  · exact ((represents_ofFixture f).run ht ms).follows (ht.run ms) hfits

/-- The first table goes, the second gets a cell, and two changes are refused. -/
def twinTablesChanges : List Mutation :=
  [.remove ⟨"node-1"⟩, .append ⟨"node-3"⟩ (.mk { elementType := .cell, label := "new" } []),
   .append ⟨"node-2"⟩ (.mk {} []), .remove ⟨"node-0"⟩]

/-- The cell of the second table and the new cell are left. -/
theorem run_follows_twinTables :
    ((ofFixture .twinTables).run twinTablesChanges).nextId < Nat.pow 2 64 ∧
    ((NumberedStore.load .twinTables).run twinTablesChanges).tree.ids = [0, 3, 4, 5] ∧
    (NumberedStore.load .twinTables).tree.ids = List.range Fixture.twinTables.count ∧
    (NumberedStore.load .twinTables).tree.forget = .twinTables ∧
    ((ofFixture .twinTables).run twinTablesChanges).Follows
      ((NumberedStore.load .twinTables).run twinTablesChanges) :=
  ⟨by decide, by decide, run_follows .twinTables twinTablesChanges (by decide)⟩

end LiveTree

end ElementFinder
