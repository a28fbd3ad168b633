import Mathlib.Logic.Relation
import Mathlib.Data.List.Nodup
import Mathlib.Data.List.Flatten

/-!
# Numbered elements and the walk down their children

Live trees and snapshots both keep their elements by number, and both walk down the children
of an element with a bound on the depth.  This file studies that walk once, over `Links`: the
children of every number that is in use.

A child always has a larger number than its parent, so a walk that starts at `x` needs no more
depth than there are numbers from `x` on (`walk_stable`).  With that depth the bound is out of
sight: the walk is the element followed by the walks of its children (`walk_eq`), it holds what
lies below the element (`mem_walk`), each once (`walk_nodup`), and a renumbering that carries
children to children carries walks to walks (`walk_map`).
-/

namespace ElementFinder

/-- The children of every number in use, in order. -/
abbrev Links := Nat → Option (List Nat)

namespace Links

/-- The numbers met on the way down to a depth, each before its children. -/
def walk (L : Links) : (depth : Nat) → Nat → List Nat
  | 0, _ => []
  | depth + 1, x =>
    match L x with
    | none => []
    | some children => x :: children.flatMap (walk L depth)

/-- `c` is a child of `p`. -/
def Child (L : Links) (p c : Nat) : Prop :=
  ∃ children, L p = some children ∧ c ∈ children

/-- `y` is a proper descendant of `x`. -/
abbrev Below (L : Links) : Nat → Nat → Prop :=
  Relation.TransGen L.Child

/-- `y` is `x` or one of its proper descendants. -/
abbrev Within (L : Links) : Nat → Nat → Prop :=
  Relation.ReflTransGen L.Child

/-- What lies within an element is the element or lies within one of its children. -/
theorem within_iff {L : Links} {x y : Nat} :
    L.Within x y ↔ y = x ∨ ∃ c, L.Child x c ∧ L.Within c y := by
  rw [eq_comm]
  exact Relation.ReflTransGen.cases_head_iff

/-- What lies below an element lies within one of its children. -/
theorem below_iff {L : Links} {x y : Nat} :
    L.Below x y ↔ ∃ c, L.Child x c ∧ L.Within c y :=
  Relation.TransGen.head'_iff

/-- A walk stays within its start. -/
theorem within_of_mem_walk {L : Links} {depth x y : Nat} (h : y ∈ L.walk depth x) :
    L.Within x y := by
  induction depth generalizing x with
  | zero => cases h
  | succ depth ih =>
      cases hx : L x with
      | none => simp [walk, hx] at h
      | some children =>
          simp only [walk, hx, List.mem_cons, List.mem_flatMap] at h
          rcases h with rfl | ⟨c, hc, hy⟩
          · exact Relation.ReflTransGen.refl
          · exact Relation.ReflTransGen.head ⟨children, hx, hc⟩ (ih hy)

/-- Children have larger numbers than their parents, and all numbers lie below a bound. -/
structure Descending (L : Links) (bound : Nat) : Prop where
  lt_bound : ∀ {x children}, L x = some children → x < bound
  lt_child : ∀ {p c}, L.Child p c → p < c

/-- Descending links that form a forest: listed children are in use, no child is listed twice,
and none is listed by two parents. -/
structure Forest (L : Links) (bound : Nat) : Prop extends Descending L bound where
  child_used : ∀ {p c}, L.Child p c → ∃ children, L c = some children
  children_nodup : ∀ {p children}, L p = some children → children.Nodup
  parent_unique : ∀ {p q c}, L.Child p c → L.Child q c → p = q

section Descending

variable {L : Links} {bound : Nat}

/-- What lies within a node has no smaller number. -/
theorem Descending.le_of_within (h : L.Descending bound) {x y : Nat} (hxy : L.Within x y) :
    x ≤ y := by
  induction hxy with
  | refl => exact Nat.le_refl x
  | tail _ hstep ih => exact Nat.le_trans ih (Nat.le_of_lt (h.lt_child hstep))

/-- What lies below a node has a larger number. -/
theorem Descending.lt_of_below (h : L.Descending bound) {x y : Nat} (hxy : L.Below x y) :
    x < y := by
  obtain ⟨c, hc, hcy⟩ := below_iff.mp hxy
  exact Nat.lt_of_lt_of_le (h.lt_child hc) (h.le_of_within hcy)

/-- **Enough depth.**  Two walks from `x` agree as soon as both may go as deep as there are
numbers from `x` on: every level uses up at least one number. -/
theorem walk_stable (h : L.Descending bound) {d e x : Nat} (hd : bound ≤ d + x)
    (he : bound ≤ e + x) : L.walk d x = L.walk e x := by
  induction d generalizing e x with
  | zero =>
      cases hx : L x with
      | none => cases e <;> simp [walk, hx]
      | some children =>
          have := h.lt_bound hx
          omega
  | succ d ih =>
      cases hx : L x with
      | none => cases e <;> simp [walk, hx]
      | some children =>
          have hlt := h.lt_bound hx
          obtain ⟨e, rfl⟩ : ∃ n, e = n + 1 := ⟨e - 1, by omega⟩
          have hrest : children.flatMap (L.walk d) = children.flatMap (L.walk e) := by
            apply List.flatMap_congr
            intro c hc
            have := h.lt_child ⟨children, hx, hc⟩
            exact ih (by omega) (by omega)
          simp only [walk, hx, hrest]

/-- The walk without its bound: an element, then the walks of its children. -/
theorem walk_eq (h : L.Descending bound) {x : Nat} {children : List Nat}
    (hx : L x = some children) :
    L.walk bound x = x :: children.flatMap (L.walk bound) := by
  have hlt := h.lt_bound hx
  obtain ⟨d, rfl⟩ : ∃ n, bound = n + 1 := ⟨bound - 1, by omega⟩
  have hrest : children.flatMap (L.walk d) = children.flatMap (L.walk (d + 1)) := by
    apply List.flatMap_congr
    intro c hc
    have := h.lt_child ⟨children, hx, hc⟩
    exact walk_stable h (by omega) (by omega)
  simp only [walk, hx]
  rw [hrest]
  rfl

/-- From a missing node there is no walk. -/
theorem walk_none {x : Nat} (hx : L x = none) (d : Nat) : L.walk d x = [] := by
  cases d <;> simp [walk, hx]

/-- **Induction down the links.**  What holds of an element as soon as it holds of all its
children in use holds of every element in use. -/
theorem Descending.down_induction (h : L.Descending bound) {P : Nat → Prop}
    (step : ∀ x children, L x = some children →
      (∀ c ∈ children, ∀ below, L c = some below → P c) → P x)
    {x : Nat} {children : List Nat} (hx : L x = some children) : P x := by
  obtain ⟨d, hd⟩ : ∃ d, bound ≤ d + x := ⟨bound, by omega⟩
  induction d generalizing x children with
  | zero =>
      have := h.lt_bound hx
      omega
  | succ d ih =>
      apply step x children hx
      intro c hc below hbelow
      have := h.lt_child ⟨children, hx, hc⟩
      exact ih hbelow (by omega)

end Descending

section Forest

variable {L : Links} {bound : Nat}

/-- What lies within a node is a node. -/
theorem Forest.used_of_within (h : L.Forest bound) {x y : Nat} {children : List Nat}
    (hx : L x = some children) (hxy : L.Within x y) : ∃ below, L y = some below := by
  cases hxy with
  | refl => exact ⟨children, hx⟩
  | tail _ hstep => exact h.child_used hstep

/-- A walk holds exactly what lies within its start. -/
theorem mem_walk (h : L.Forest bound) {x y : Nat} {children : List Nat}
    (hx : L x = some children) : y ∈ L.walk bound x ↔ L.Within x y := by
  refine ⟨within_of_mem_walk, ?_⟩
  refine h.down_induction (P := fun x => L.Within x y → y ∈ L.walk bound x) ?_ hx
  intro x children hx ih hxy
  rw [walk_eq h.toDescending hx, List.mem_cons, List.mem_flatMap]
  rcases within_iff.mp hxy with rfl | ⟨c, ⟨cs, hcs, hc⟩, hy⟩
  · exact Or.inl rfl
  · obtain rfl : cs = children := Option.some.inj (hcs.symm.trans hx)
    obtain ⟨below, hbelow⟩ := h.child_used ⟨cs, hx, hc⟩
    exact Or.inr ⟨c, hc, ih c hc below hbelow hy⟩

/-- What a walk holds after its start is exactly what lies below the start. -/
theorem mem_drop_walk (h : L.Forest bound) {x y : Nat} {children : List Nat}
    (hx : L x = some children) : y ∈ (L.walk bound x).drop 1 ↔ L.Below x y := by
  rw [walk_eq h.toDescending hx, List.drop_one, List.tail_cons, List.mem_flatMap,
    below_iff]
  constructor
  · intro hforth
    rcases hforth with ⟨c, hc, hy⟩
    obtain ⟨below, hbelow⟩ := h.child_used ⟨children, hx, hc⟩
    exact ⟨c, ⟨children, hx, hc⟩, (mem_walk h hbelow).mp hy⟩
  · intro hback
    rcases hback with ⟨c, ⟨cs, hcs, hc⟩, hy⟩
    obtain rfl : cs = children := Option.some.inj (hcs.symm.trans hx)
    obtain ⟨below, hbelow⟩ := h.child_used ⟨cs, hx, hc⟩
    exact ⟨c, hc, (mem_walk h hbelow).mpr hy⟩

/-- Of two elements above a third, one lies within the other: parents are unique. -/
theorem Forest.within_total (h : L.Forest bound) {a b y : Nat} (ha : L.Within a y)
    (hb : L.Within b y) : L.Within a b ∨ L.Within b a := by
  have hunique : Relator.RightUnique (Function.swap L.Child) :=
    fun _ _ _ hp hq => h.parent_unique hp hq
  have hup := Relation.ReflTransGen.total_of_right_unique hunique
    (Relation.reflTransGen_swap.mpr ha) (Relation.reflTransGen_swap.mpr hb)
  rcases hup with hab | hba
  · exact Or.inr (Relation.reflTransGen_swap.mp hab)
  · exact Or.inl (Relation.reflTransGen_swap.mp hba)

/-- Nothing lies within two different children of one element. -/
theorem Forest.eq_of_within_siblings (h : L.Forest bound) {p a b y : Nat}
    (ha : L.Child p a) (hb : L.Child p b) (hay : L.Within a y) (hby : L.Within b y) :
    a = b := by
  -- a child within its own sibling would put the parent within that sibling as well
  have key : ∀ {a b : Nat}, L.Child p a → L.Child p b → L.Within a b → a = b := by
    intro a b ha hb hab
    cases hab with
    | refl => rfl
    | @tail q _ haq hqb =>
        obtain rfl : p = q := h.parent_unique hb hqb
        have := h.le_of_within haq
        have := h.lt_child ha
        omega
  rcases h.within_total hay hby with hab | hba
  · exact key ha hb hab
  · exact (key hb ha hba).symm

/-- A walk meets every element once. -/
theorem walk_nodup (h : L.Forest bound) (x : Nat) : (L.walk bound x).Nodup := by
  cases hx : L x with
  | none => simp [walk_none hx]
  | some children =>
      refine h.down_induction (P := fun x => (L.walk bound x).Nodup) ?_ hx
      intro x children hx ih
      have hused : ∀ c ∈ children, ∃ below, L c = some below :=
        fun c hc => h.child_used ⟨children, hx, hc⟩
      rw [walk_eq h.toDescending hx, List.nodup_cons, List.nodup_flatMap]
      refine ⟨?_, ?_, ?_⟩
      · intro hmem
        obtain ⟨c, hc, hxc⟩ := List.mem_flatMap.mp hmem
        obtain ⟨below, hbelow⟩ := hused c hc
        have := h.le_of_within ((mem_walk h hbelow).mp hxc)
        have := h.lt_child ⟨children, hx, hc⟩
        omega
      · intro c hc
        obtain ⟨below, hbelow⟩ := hused c hc
        exact ih c hc below hbelow
      · refine (h.children_nodup hx).imp_of_mem ?_
        intro a b ha hb hne
        change List.Disjoint (L.walk bound a) (L.walk bound b)
        rw [List.disjoint_left]
        intro y hya hyb
        obtain ⟨belowA, hbelowA⟩ := hused a ha
        obtain ⟨belowB, hbelowB⟩ := hused b hb
        exact hne (h.eq_of_within_siblings ⟨children, hx, ha⟩ ⟨children, hx, hb⟩
          ((mem_walk h hbelowA).mp hya) ((mem_walk h hbelowB).mp hyb))

/-- The walk of an element keeps its order inside the walk of whatever it lies within. -/
theorem walk_sublist (h : L.Forest bound) {x y : Nat} (hxy : L.Within x y) :
    (L.walk bound y).Sublist (L.walk bound x) := by
  induction hxy with
  | refl => exact List.Sublist.refl _
  | @tail p c _ hstep ih =>
      obtain ⟨children, hp, hc⟩ := hstep
      refine List.Sublist.trans ?_ ih
      rw [walk_eq h.toDescending hp]
      exact (List.sublist_flatten_of_mem (List.mem_map_of_mem hc)).cons p

end Forest

section Renumbering

variable {K L : Links} {m n : Nat}

/-- **Renumbering.**  If `f` carries the children of every element within `x` to the children
of its image, it carries the walk from `x` to the walk from the image of `x`. -/
theorem walk_map (hK : K.Forest m) (hL : L.Descending n) (f : Nat → Nat)
    (hf : ∀ x children, K x = some children → L (f x) = some (children.map f))
    {x : Nat} {children : List Nat} (hx : K x = some children) :
    (K.walk m x).map f = L.walk n (f x) := by
  refine hK.down_induction (P := fun x => (K.walk m x).map f = L.walk n (f x)) ?_ hx
  intro x children hx ih
  rw [walk_eq hK.toDescending hx, walk_eq hL (hf x children hx), List.map_cons, List.map_flatMap,
    List.flatMap_map]
  congr 1
  apply List.flatMap_congr
  intro c hc
  obtain ⟨below, hbelow⟩ := hK.child_used ⟨children, hx, hc⟩
  exact ih c hc below hbelow

end Renumbering

section Climbing

/-- The numbers met on the way up, at most as many as the bound. -/
def climb (up : Nat → Option Nat) : (bound : Nat) → Nat → List Nat
  | 0, _ => []
  | bound + 1, x =>
    match up x with
    | none => []
    | some p => p :: climb up bound p

/-- **Climbs commute with renumbering.**  Parents have smaller numbers on both sides, so bounds
of at least the starting numbers never cut a climb short. -/
theorem climb_map {up up' : Nat → Option Nat} (hup : ∀ x p, up x = some p → p < x)
    (hup' : ∀ x p, up' x = some p → p < x) (f : Nat → Nat) (inside : Nat → Prop)
    (hf : ∀ x, inside x → up' (f x) = (up x).map f ∧ ∀ p, up x = some p → inside p)
    {d e x : Nat} (hx : inside x) (hd : x ≤ d) (he : f x ≤ e) :
    (climb up d x).map f = climb up' e (f x) := by
  induction d generalizing e x with
  | zero =>
      cases hpx : up x with
      | none =>
          have hnone : up' (f x) = none := by rw [(hf x hx).1, hpx]; rfl
          cases e <;> simp [climb, hnone]
      | some p =>
          have := hup x p hpx
          omega
  | succ d ih =>
      cases hpx : up x with
      | none =>
          have hnone : up' (f x) = none := by rw [(hf x hx).1, hpx]; rfl
          cases e <;> simp [climb, hpx, hnone]
      | some p =>
          have hsome : up' (f x) = some (f p) := by rw [(hf x hx).1, hpx]; rfl
          have hlt := hup x p hpx
          have hlt' := hup' (f x) (f p) hsome
          obtain ⟨e, rfl⟩ : ∃ n, e = n + 1 := ⟨e - 1, by omega⟩
          simp only [climb, hpx, hsome, List.map_cons]
          rw [ih (e := e) ((hf x hx).2 p hpx) (by omega) (by omega)]

/-- One step up, then the climb from there. -/
theorem climb_eq {up : Nat → Option Nat} (hup : ∀ x p, up x = some p → p < x) {bound x p : Nat}
    (hx : x ≤ bound) (hp : up x = some p) : climb up bound x = p :: climb up bound p := by
  have hlt := hup x p hp
  obtain ⟨d, rfl⟩ : ∃ d, bound = d + 1 := ⟨bound - 1, by omega⟩
  have hrest : climb up d p = climb up (d + 1) p := by
    simpa using climb_map hup hup id (fun _ => True) (by simp) trivial
      (show p ≤ d by omega) (show p ≤ d + 1 by omega)
  rw [← hrest]
  simp only [climb, hp]

/-- There is no climb from a node without a parent. -/
theorem climb_none {up : Nat → Option Nat} {x : Nat} (hx : up x = none) (bound : Nat) :
    climb up bound x = [] := by
  cases bound <;> simp [climb, hx]

end Climbing

end Links

end ElementFinder
