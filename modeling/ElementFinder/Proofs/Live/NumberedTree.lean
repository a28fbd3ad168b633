import Mathlib.Data.List.Nodup
import ElementFinder.Live.Tree

/-!
# Numbered trees

What a live tree stands for: a tree of nodes with a number and attributes, without cells and
without links.  The changes of a live tree are changes of such a tree: a new subtree is grafted
under a node as its last child, a subtree is pruned, and the attributes of a node are revised.
New subtrees are fixtures whose nodes get fresh numbers in document order.

`NumberedStore` is such a tree with the number that the next node gets.  It changes as a live
tree does, and its definition is what the live tree has to follow.
-/

namespace ElementFinder

/-- A tree whose nodes have a number and attributes. -/
inductive NumberedTree where
  | node (id : Nat) (attributes : Attributes) (children : List NumberedTree)

namespace NumberedTree

/-- The number of the top node. -/
def top : NumberedTree → Nat
  | node id _ _ => id

mutual

/-- The numbers of the nodes in document order. -/
def ids : NumberedTree → List Nat
  | node id _ children => id :: idsAll children

/-- The numbers of the nodes of trees that stand side by side. -/
def idsAll : List NumberedTree → List Nat
  | [] => []
  | n :: rest => ids n ++ idsAll rest

end

mutual

/-- A fixture with its nodes numbered in document order from a first number on. -/
def ofFixture (first : Nat) : Fixture → NumberedTree
  | .mk a children => node first a (ofFixtures (first + 1) children)

/-- Fixtures that stand side by side, numbered one after the other. -/
def ofFixtures (first : Nat) : List Fixture → List NumberedTree
  | [] => []
  | f :: rest => ofFixture first f :: ofFixtures (first + f.count) rest

end

mutual

/-- The tree without its numbers. -/
def forget : NumberedTree → Fixture
  | node _ a children => .mk a (forgetAll children)

/-- Trees that stand side by side without their numbers. -/
def forgetAll : List NumberedTree → List Fixture
  | [] => []
  | n :: rest => forget n :: forgetAll rest

end

mutual

/-- Adds a subtree as the last child of the node with a number. -/
def graft (parent : Nat) (new : NumberedTree) : NumberedTree → NumberedTree
  | node id a children =>
    node id a (graftAll parent new children ++ if id = parent then [new] else [])

/-- Adds a subtree in trees that stand side by side. -/
def graftAll (parent : Nat) (new : NumberedTree) : List NumberedTree → List NumberedTree
  | [] => []
  | n :: rest => graft parent new n :: graftAll parent new rest

end

mutual

/-- Takes out the subtree under the node with a number, which is not the top node. -/
def prune (gone : Nat) : NumberedTree → NumberedTree
  | node id a children => node id a (pruneAll gone children)

/-- Takes out the subtree in trees that stand side by side. -/
def pruneAll (gone : Nat) : List NumberedTree → List NumberedTree
  | [] => []
  | n :: rest => if n.top = gone then pruneAll gone rest else prune gone n :: pruneAll gone rest

end

mutual

/-- Changes the attributes of the node with a number. -/
def revise (target : Nat) (f : Attributes → Attributes) : NumberedTree → NumberedTree
  | node id a children => node id (if id = target then f a else a) (reviseAll target f children)

/-- Changes the attributes in trees that stand side by side. -/
def reviseAll (target : Nat) (f : Attributes → Attributes) :
    List NumberedTree → List NumberedTree
  | [] => []
  | n :: rest => revise target f n :: reviseAll target f rest

end

/-! ## Numbers -/

/-- The top of a node is its number. -/
@[simp] theorem top_node (id : Nat) (a : Attributes) (children : List NumberedTree) :
    (node id a children).top = id := rfl

/-- The top is one of the numbers. -/
theorem top_mem_ids (n : NumberedTree) : n.top ∈ n.ids := by
  cases n
  simp [ids]

/-- The first number goes to the top. -/
@[simp] theorem top_ofFixture (first : Nat) (f : Fixture) : (ofFixture first f).top = first := by
  cases f
  rfl

/-- Grafting keeps the top. -/
@[simp] theorem top_graft (parent : Nat) (new n : NumberedTree) :
    (graft parent new n).top = n.top := by
  cases n
  rfl

/-- Pruning keeps the top. -/
@[simp] theorem top_prune (gone : Nat) (n : NumberedTree) : (prune gone n).top = n.top := by
  cases n
  rfl

/-- Revising keeps the top. -/
@[simp] theorem top_revise (target : Nat) (f : Attributes → Attributes) (n : NumberedTree) :
    (revise target f n).top = n.top := by
  cases n
  rfl

/-- Grafting keeps the tops of trees side by side. -/
@[simp] theorem map_top_graftAll (parent : Nat) (new : NumberedTree) (ns : List NumberedTree) :
    (graftAll parent new ns).map top = ns.map top := by
  induction ns with
  | nil => rfl
  | cons n rest ih => simp [graftAll, ih]

/-- Pruning drops the trees whose top is gone, and keeps the tops of the others. -/
@[simp] theorem map_top_pruneAll (gone : Nat) (ns : List NumberedTree) :
    (pruneAll gone ns).map top = (ns.map top).filter (· != gone) := by
  induction ns with
  | nil => rfl
  | cons n rest ih => by_cases h : n.top = gone <;> simp [pruneAll, h, ih]

/-- Revising keeps the tops of trees side by side. -/
@[simp] theorem map_top_reviseAll (target : Nat) (f : Attributes → Attributes)
    (ns : List NumberedTree) : (reviseAll target f ns).map top = ns.map top := by
  induction ns with
  | nil => rfl
  | cons n rest ih => simp [reviseAll, ih]

mutual

/-- **Fixtures are numbered in document order.**  The numbers are consecutive. -/
theorem ids_ofFixture (first : Nat) : ∀ f : Fixture,
    (ofFixture first f).ids = List.range' first f.count
  | .mk a children => by
    rw [ofFixture, ids, idsAll_ofFixtures (first + 1) children, Fixture.count, Nat.add_comm 1,
      List.range'_succ]

/-- Fixtures side by side are numbered one after the other. -/
theorem idsAll_ofFixtures (first : Nat) : ∀ fs : List Fixture,
    idsAll (ofFixtures first fs) = List.range' first (Fixture.countAll fs)
  | [] => rfl
  | f :: rest => by
    rw [ofFixtures, idsAll, ids_ofFixture first f, idsAll_ofFixtures (first + f.count) rest,
      Fixture.countAll, List.range'_append_1]

end

mutual

/-- Numbering a fixture loses nothing. -/
theorem forget_ofFixture (first : Nat) : ∀ f : Fixture, (ofFixture first f).forget = f
  | .mk a children => by
    rw [ofFixture, forget, forgetAll_ofFixtures (first + 1) children]

/-- Forgetting the numbers gives the fixtures back. -/
theorem forgetAll_ofFixtures (first : Nat) : ∀ fs : List Fixture,
    forgetAll (ofFixtures first fs) = fs
  | [] => rfl
  | f :: rest => by
    rw [ofFixtures, forgetAll, forget_ofFixture first f,
      forgetAll_ofFixtures (first + f.count) rest]

end

/-! ## Numbers after a change -/

mutual

/-- Grafting adds the numbers of the new subtree once for every node that it is put under. -/
theorem count_graft (parent : Nat) (new : NumberedTree) (x : Nat) : ∀ n : NumberedTree,
    (graft parent new n).ids.count x = n.ids.count x + n.ids.count parent * new.ids.count x
  | node id a children => by
    have hbelow := count_graftAll parent new x children
    have hsplit : ∀ ms : List NumberedTree, idsAll (graftAll parent new children ++ ms) =
        idsAll (graftAll parent new children) ++ idsAll ms := by
      intro ms
      induction graftAll parent new children with
      | nil => rfl
      | cons m rest ih => simp [idsAll, ih]
    rw [graft, ids, hsplit, List.count_cons, List.count_append, hbelow, ids, List.count_cons,
      List.count_cons]
    by_cases h : id = parent
    · simp only [h, if_true, idsAll, List.append_nil, beq_self_eq_true, Nat.add_mul, Nat.one_mul]
      omega
    · simp [h, idsAll]
      omega

/-- How often a number stands in trees side by side after grafting. -/
theorem count_graftAll (parent : Nat) (new : NumberedTree) (x : Nat) : ∀ ns : List NumberedTree,
    (idsAll (graftAll parent new ns)).count x =
      (idsAll ns).count x + (idsAll ns).count parent * new.ids.count x
  | [] => by simp [graftAll, idsAll]
  | n :: rest => by
    rw [graftAll, idsAll, idsAll, List.count_append, List.count_append, List.count_append,
      count_graft parent new x n, count_graftAll parent new x rest, Nat.add_mul]
    omega

end

mutual

/-- Pruning leaves some of the numbers, in their order. -/
theorem ids_prune_sublist (gone : Nat) : ∀ n : NumberedTree, (prune gone n).ids.Sublist n.ids
  | node id _ children => (idsAll_pruneAll_sublist gone children).cons_cons id

/-- Pruning trees side by side leaves some of the numbers, in their order. -/
theorem idsAll_pruneAll_sublist (gone : Nat) : ∀ ns : List NumberedTree,
    (idsAll (pruneAll gone ns)).Sublist (idsAll ns)
  | [] => List.Sublist.refl _
  | n :: rest => by
    have hrest := idsAll_pruneAll_sublist gone rest
    by_cases h : n.top = gone
    · simp only [pruneAll, if_pos h, idsAll]
      exact hrest.trans (List.sublist_append_right _ _)
    · simp only [pruneAll, if_neg h, idsAll]
      exact (ids_prune_sublist gone n).append hrest

end

mutual

/-- Revising keeps all numbers. -/
@[simp] theorem ids_revise (target : Nat) (f : Attributes → Attributes) : ∀ n : NumberedTree,
    (revise target f n).ids = n.ids
  | node id a children => by rw [revise, ids, ids, idsAll_reviseAll target f children]

/-- Revising keeps all numbers of trees side by side. -/
theorem idsAll_reviseAll (target : Nat) (f : Attributes → Attributes) :
    ∀ ns : List NumberedTree, idsAll (reviseAll target f ns) = idsAll ns
  | [] => rfl
  | n :: rest => by
    rw [reviseAll, idsAll, idsAll, ids_revise target f n, idsAll_reviseAll target f rest]

end

/-- A subtree with fresh numbers is grafted without repeating a number. -/
theorem nodup_graft {n new : NumberedTree} (hn : n.ids.Nodup) (hnew : new.ids.Nodup)
    (hfresh : ∀ x ∈ new.ids, x ∉ n.ids) (parent : Nat) : (graft parent new n).ids.Nodup := by
  rw [List.nodup_iff_count_le_one]
  intro x
  rw [count_graft]
  have honce := List.nodup_iff_count_le_one.mp hn parent
  have hold := List.nodup_iff_count_le_one.mp hn x
  have hadded := List.nodup_iff_count_le_one.mp hnew x
  have hproduct : n.ids.count parent * new.ids.count x ≤ 1 * new.ids.count x :=
    Nat.mul_le_mul_right _ honce
  by_cases hx : x ∈ new.ids
  · have hnone := List.count_eq_zero_of_not_mem (hfresh x hx)
    omega
  · have hnone := List.count_eq_zero_of_not_mem hx
    rw [hnone, Nat.mul_zero]
    omega

/-- Grafting under a number that is there adds the new numbers and no others. -/
theorem mem_ids_graft {n new : NumberedTree} {parent x : Nat} (hparent : parent ∈ n.ids) :
    x ∈ (graft parent new n).ids ↔ x ∈ n.ids ∨ x ∈ new.ids := by
  have hsome : 0 < n.ids.count parent := List.count_pos_iff.mpr hparent
  rw [← List.count_pos_iff, count_graft, ← List.count_pos_iff, ← List.count_pos_iff,
    Nat.add_pos_iff_pos_or_pos]
  constructor
  · intro h
    rcases h with hold | hproduct
    · exact Or.inl hold
    · exact Or.inr (Nat.pos_of_mul_pos_left hproduct)
  · intro h
    rcases h with hold | hadded
    · exact Or.inl hold
    · exact Or.inr (Nat.mul_pos hsome hadded)

end NumberedTree

/-- The handle that a change is made at. -/
def Mutation.target : Mutation → Handle
  | .append parent _ => parent
  | .remove element => element
  | .update element _ => element

/-- A numbered tree with the number that the next node gets. -/
structure NumberedStore where
  tree : NumberedTree
  next : Nat

namespace NumberedStore

/-- The store of a fixture, numbered from zero. -/
def load (f : Fixture) : NumberedStore :=
  ⟨.ofFixture 0 f, f.count⟩

/-- The number that a handle names, if a node has it. -/
def named? (s : NumberedStore) (h : Handle) : Option Nat :=
  h.number?.filter fun id => id ∈ s.tree.ids

/-- Makes a change; a new subtree gets the next numbers. -/
def apply (s : NumberedStore) : Mutation → Except LiveFault NumberedStore
  | .append parent child =>
    match s.named? parent with
    | none => .error (.stale parent)
    | some p => .ok ⟨.graft p (.ofFixture s.next child) s.tree, s.next + child.count⟩
  | .remove element =>
    match s.named? element with
    | none => .error (.stale element)
    | some id => if id = s.tree.top then .error .rootRemoval else .ok ⟨s.tree.prune id, s.next⟩
  | .update element f =>
    match s.named? element with
    | none => .error (.stale element)
    | some id => .ok ⟨s.tree.revise id f, s.next⟩

/-- Why a store refuses a change: it is made at something that has no name, or it is the removal of
the top. -/
inductive Refuses (s : NumberedStore) : Mutation → LiveFault → Prop
  | stale (m : Mutation) (hunnamed : s.named? m.target = none) : Refuses s m (.stale m.target)
  | top (element : Handle) (hnamed : s.named? element = some s.tree.top) :
      Refuses s (.remove element) .rootRemoval

/-- A change is refused for these reasons and for no other. -/
theorem apply_error_iff (s : NumberedStore) (m : Mutation) (e : LiveFault) :
    s.apply m = .error e ↔ s.Refuses m e := by
  constructor
  · intro hrefused
    cases m with
    | append parent child =>
        cases hnamed : s.named? parent with
        | none =>
            simp only [apply, hnamed, Except.error.injEq] at hrefused
            exact hrefused ▸ .stale (.append parent child) hnamed
        | some p => simp [apply, hnamed] at hrefused
    | remove element =>
        cases hnamed : s.named? element with
        | none =>
            simp only [apply, hnamed, Except.error.injEq] at hrefused
            exact hrefused ▸ .stale (.remove element) hnamed
        | some id =>
            by_cases htop : id = s.tree.top
            · simp only [apply, hnamed, htop, if_true, Except.error.injEq] at hrefused
              exact hrefused ▸ .top element (hnamed.trans (congrArg some htop))
            · simp [apply, hnamed, htop] at hrefused
    | update element f =>
        cases hnamed : s.named? element with
        | none =>
            simp only [apply, hnamed, Except.error.injEq] at hrefused
            exact hrefused ▸ .stale (.update element f) hnamed
        | some id => simp [apply, hnamed] at hrefused
  · intro hrefuses
    cases hrefuses with
    | stale _ hunnamed => cases m <;> simp_all [apply, Mutation.target]
    | top element hnamed => simp [apply, hnamed]

/-- Makes a change if it can be made. -/
def tryApply (s : NumberedStore) (m : Mutation) : NumberedStore :=
  match s.apply m with
  | .ok s' => s'
  | .error _ => s

/-- Makes changes one after the other, as far as they can be made. -/
def run (s : NumberedStore) (ms : List Mutation) : NumberedStore :=
  ms.foldl tryApply s

end NumberedStore

end ElementFinder
