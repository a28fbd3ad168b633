import ElementFinder.Proofs.Attributes.Alike
import ElementFinder.Proofs.Live.View
import ElementFinder.Resolution.Reconciliation

/-!
# The rank law

Nodes of a snapshot are found again one after the other, and each takes the first live element
that looks like it and is not taken.  This file says which one that is, without the elements
taken: the place of a node among the earlier nodes that look like it is its rank, and the node
gets the look-alike of that rank (`Reconciliation.outcome?`).

The invariant behind it (`Reconciliation.Settled`) speaks of all attributes at once: of the
elements that look alike, exactly the first few are taken, as many as nodes of that look were
read.  Taking an element concerns only the attributes that it looks like, because looking alike
is symmetric and transitive.
-/

namespace ElementFinder

/-! ## Reading a list in order -/

/-- What a function gives along a list when it sees, for every member, the members before it. -/
def collect {α β : Type} (f : List α → α → Option β) : (earlier rest : List α) → List β
  | _, [] => []
  | earlier, a :: rest => (f earlier a).toList ++ collect f (earlier ++ [a]) rest

section Collect

variable {α β γ : Type} {f : List α → α → Option β}

/-- What is collected comes of one of the items, after those before it. -/
theorem mem_collect {earlier rest : List α} {y : β} :
    y ∈ collect f earlier rest ↔
      ∃ before a after, rest = before ++ a :: after ∧ f (earlier ++ before) a = some y := by
  induction rest generalizing earlier with
  | nil => simp [collect]
  | cons a rest ih =>
      rw [collect, List.mem_append, Option.mem_toList, ih]
      constructor
      · intro hforth
        rcases hforth with hy | ⟨before, b, after, rfl, hy⟩
        · exact ⟨[], a, rest, rfl, by simpa using hy⟩
        · exact ⟨a :: before, b, after, rfl, by simpa using hy⟩
      · intro hback
        rcases hback with ⟨before, b, after, hsplit, hy⟩
        rcases List.cons_eq_append_iff.mp hsplit with ⟨rfl, hcons⟩ | ⟨before, rfl, rfl⟩
        · obtain ⟨rfl, rfl⟩ := List.cons.inj hcons
          exact Or.inl (by simpa using hy)
        · exact Or.inr ⟨before, b, after, rfl, by simpa using hy⟩

/-- Two of the things collected come from two members of the list, the earlier one first. -/
theorem pairwise_collect {R : β → β → Prop} {earlier rest : List α} :
    (collect f earlier rest).Pairwise R ↔
      ∀ before a between b after y z, rest = before ++ a :: (between ++ b :: after) →
        f (earlier ++ before) a = some y →
        f (earlier ++ before ++ a :: between) b = some z → R y z := by
  induction rest generalizing earlier with
  | nil => simp [collect]
  | cons m rest ih =>
      have hhead : (f earlier m).toList.Pairwise R := by
        cases f earlier m <;> simp
      rw [collect, List.pairwise_append, ih]
      simp only [hhead, true_and, Option.mem_toList, mem_collect]
      constructor
      · intro hforth before a between b after y z hsplit hy hz
        rcases hforth with ⟨htail, hcross⟩
        rcases List.cons_eq_append_iff.mp hsplit with ⟨rfl, hcons⟩ | ⟨before, rfl, rfl⟩
        · obtain ⟨rfl, rfl⟩ := List.cons.inj hcons
          refine hcross y (by simpa using hy) z ⟨between, b, after, rfl, ?_⟩
          simpa using hz
        · exact htail before a between b after y z rfl (by simpa using hy) (by simpa using hz)
      · intro h
        constructor
        · intro before a between b after y z heq hy hz
          subst heq
          exact h (m :: before) a between b after y z rfl (by simpa using hy) (by simpa using hz)
        · intro y hy z hback
          rcases hback with ⟨before, b, after, rfl, hz⟩
          exact h [] m before b after y z rfl (by simpa using hy) (by simpa using hz)

/-- Filtering what is collected collects what the filter keeps. -/
theorem filterMap_collect (g : β → Option γ) (earlier rest : List α) :
    (collect f earlier rest).filterMap g =
      collect (fun before a => (f before a).bind g) earlier rest := by
  induction rest generalizing earlier with
  | nil => rfl
  | cons a rest ih =>
      have hhead : (f earlier a).toList.filterMap g = ((f earlier a).bind g).toList := by
        cases f earlier a with
        | none => rfl
        | some y => cases hg : g y <;> simp [hg]
      rw [collect, collect, List.filterMap_append, ih, hhead]

/-- Lists collected from one list are renamed alike when what each member gives is. -/
theorem map_collect {δ : Type} {f' : List α → α → Option γ} {g : β → δ} {g' : γ → δ}
    (h : ∀ before a, (f before a).map g = (f' before a).map g') (earlier rest : List α) :
    (collect f earlier rest).map g = (collect f' earlier rest).map g' := by
  induction rest generalizing earlier with
  | nil => rfl
  | cons a rest ih =>
      have hhead : (f earlier a).toList.map g = (f' earlier a).toList.map g' := by
        rw [← Option.toList_map, ← Option.toList_map, h earlier a]
      rw [collect, collect, List.map_append, List.map_append, ih, hhead]

end Collect

/-! ## Look-alikes -/

namespace LiveTree

/-- The proper descendants of an element in the order in which they are looked at. -/
def scan (t : LiveTree) (x : Nat) (reverse : Bool) : List Nat :=
  if reverse then (t.descendants x).reverse else t.descendants x

/-- The proper descendants that look as expected, in the order in which they are looked at. -/
def lookAlikes (t : LiveTree) (x : Nat) (reverse : Bool) (expected : Attributes) : List Nat :=
  (t.scan x reverse).filter fun y => (t.attributes? y).any expected.looksLike

/-- No candidate is scanned twice. -/
theorem WellFormed.scan_nodup {t : LiveTree} (ht : t.WellFormed) (x : Nat) (reverse : Bool) :
    (t.scan x reverse).Nodup := by
  have hdescendants : (t.descendants x).Nodup :=
    (ht.subtree_nodup x).sublist (List.drop_sublist 1 _)
  cases reverse with
  | false => exact hdescendants
  | true => exact List.nodup_reverse.mpr hdescendants

/-- No look-alike is listed twice. -/
theorem WellFormed.lookAlikes_nodup {t : LiveTree} (ht : t.WellFormed) (x : Nat)
    (reverse : Bool) (expected : Attributes) : (t.lookAlikes x reverse expected).Nodup :=
  (ht.scan_nodup x reverse).filter _

/-- Attributes that look alike have the same look-alikes. -/
theorem lookAlikes_congr (t : LiveTree) (x : Nat) (reverse : Bool) {a b : Attributes}
    (hab : a.looksLike b = true) : t.lookAlikes x reverse a = t.lookAlikes x reverse b := by
  have hsame : a.looksLike = b.looksLike :=
    funext fun c => Attributes.partialEquality_looksLike.congr hab c
  rw [lookAlikes, lookAlikes, hsame]

/-- Attributes with a common look-alike look alike. -/
theorem looksLike_of_common {t : LiveTree} {x y : Nat} {reverse : Bool} {a b : Attributes}
    (ha : y ∈ t.lookAlikes x reverse a) (hb : y ∈ t.lookAlikes x reverse b) :
    a.looksLike b = true := by
  obtain ⟨_, hay⟩ := List.mem_filter.mp ha
  obtain ⟨_, hby⟩ := List.mem_filter.mp hb
  cases hy : t.attributes? y with
  | none => simp [hy] at hay
  | some c =>
      simp only [hy, Option.any_some] at hay hby
      have h := Attributes.partialEquality_looksLike
      exact h.trans hay (h.symm hby)

end LiveTree

/-! ## What every place gets -/

namespace Reconciliation

/-- The attributes that a live element has to look like to stand for a place.  The root is not
looked for. -/
def wanted? (r : Reconciliation) (m : String × Nat) : Option Attributes :=
  if m.2 = 0 then none else r.snapshot.attributes? m.2

/-- How many of the places read earlier want the same look. -/
def alikeCount (r : Reconciliation) (earlier : List (String × Nat)) (a : Attributes) : Nat :=
  earlier.countP fun m => (r.wanted? m).any fun b => b.looksLike a

/-- The number of look-alikes that are passed over; none unless elements are claimed. -/
def rank (r : Reconciliation) (claimUnique : Bool) (earlier : List (String × Nat))
    (a : Attributes) : Nat :=
  if claimUnique then r.alikeCount earlier a else 0

/-- The live element below `x` that stands for a place which wants some look. -/
def chosen? (r : Reconciliation) (t : LiveTree) (x : Nat) (claimUnique : Bool)
    (earlier : List (String × Nat)) (a : Attributes) : Option Nat :=
  (t.lookAlikes x r.reverse a)[r.rank claimUnique earlier a]?

/-- What a place gets after earlier ones: the root gets the live root, and any other node the
look-alike of its rank, or a report if there is none. -/
def outcome? (r : Reconciliation) (t : LiveTree) (x : Nat) (claimUnique : Bool)
    (earlier : List (String × Nat)) (m : String × Nat) : Option (Except Diagnostic Handle) :=
  if m.2 = 0 then some (.ok r.liveRoot)
  else (r.snapshot.attributes? m.2).map fun a =>
    match r.chosen? t x claimUnique earlier a with
    | some y => .ok (.ofNumber y)
    | none => .error (.reconciliationMiss m.1 a.elementType.name)

/-- What the matched places get, read in order. -/
def outcomes (r : Reconciliation) (t : LiveTree) (x : Nat) (claimUnique : Bool) :
    List (Except Diagnostic Handle) :=
  collect (r.outcome? t x claimUnique) [] r.matched

/-! ## The elements taken -/

/-- Of the elements of every look, exactly the first are taken, as many as its rank says. -/
def Settled (r : Reconciliation) (t : LiveTree) (x : Nat) (claimUnique : Bool)
    (earlier : List (String × Nat)) (taken : List Nat) : Prop :=
  ∀ a, ∀ y ∈ t.lookAlikes x r.reverse a,
    (y ∈ taken ↔ y ∈ (t.lookAlikes x r.reverse a).take (r.rank claimUnique earlier a))

variable {r : Reconciliation} {t : LiveTree} {x : Nat} {claimUnique : Bool}
  {earlier : List (String × Nat)} {taken : List Nat}

/-- Before the first match nothing is claimed. -/
theorem settled_nil : r.Settled t x claimUnique [] [] := by
  intro a y _
  have hrank : r.rank claimUnique [] a = 0 := by
    cases claimUnique <;> rfl
  simp [hrank]

/-- One more match counts if it is wanted to look alike. -/
theorem alikeCount_append (r : Reconciliation) (earlier : List (String × Nat))
    (m : String × Nat) (a : Attributes) :
    r.alikeCount (earlier ++ [m]) a =
      r.alikeCount earlier a +
        if (r.wanted? m).any (fun b => b.looksLike a) = true then 1 else 0 := by
  rw [alikeCount, List.countP_append, List.countP_singleton]
  rfl

/-- Attributes that look alike are wanted equally often. -/
theorem alikeCount_congr (r : Reconciliation) (earlier : List (String × Nat)) {a b : Attributes}
    (hab : a.looksLike b = true) : r.alikeCount earlier a = r.alikeCount earlier b := by
  have h := Attributes.partialEquality_looksLike
  have hsame : ∀ c : Attributes, c.looksLike a = c.looksLike b := by
    intro c
    rw [Bool.eq_iff_iff]
    exact ⟨fun hca => h.trans hca hab, fun hcb => h.trans hcb (h.symm hab)⟩
  simp only [alikeCount, hsame]

/-- A place that wants no look takes nothing. -/
theorem Settled.skip (h : r.Settled t x claimUnique earlier taken) {m : String × Nat}
    (hm : r.wanted? m = none) : r.Settled t x claimUnique (earlier ++ [m]) taken := by
  intro a y hy
  have hrank : r.rank claimUnique (earlier ++ [m]) a = r.rank claimUnique earlier a := by
    simp [rank, alikeCount_append, hm]
  rw [hrank]
  exact h a y hy

/-- **One place.**  Taking the look-alike of the rank keeps the first look-alikes taken. -/
theorem Settled.next (h : r.Settled t x claimUnique earlier taken) {m : String × Nat}
    {a : Attributes} (hm : r.wanted? m = some a) :
    r.Settled t x claimUnique (earlier ++ [m])
      (if claimUnique then (r.chosen? t x claimUnique earlier a).toList ++ taken else taken) := by
  intro b y hy
  cases claimUnique with
  | false =>
      -- nothing is ever taken, whatever was read
      have hrank : r.rank false (earlier ++ [m]) b = r.rank false earlier b := rfl
      rw [hrank]
      exact h b y hy
  | true =>
      rw [if_pos rfl, List.mem_append, Option.mem_toList]
      by_cases hab : a.looksLike b = true
      · have hlist := t.lookAlikes_congr x r.reverse hab
        have hcount := r.alikeCount_congr earlier hab
        have hrank : r.rank true (earlier ++ [m]) b = r.rank true earlier b + 1 := by
          simp [rank, alikeCount_append, hm, hab]
        have hchosen : r.chosen? t x true earlier a =
            (t.lookAlikes x r.reverse b)[r.rank true earlier b]? := by
          simp only [chosen?, rank, if_true, hlist, hcount]
        rw [hrank, List.take_add_one, List.mem_append, Option.mem_toList, hchosen, h b y hy]
        exact or_comm
      · have hrank : r.rank true (earlier ++ [m]) b = r.rank true earlier b := by
          simp [rank, alikeCount_append, hm, hab]
        have hother : ¬ y ∈ r.chosen? t x true earlier a := by
          intro hchosen
          have hya : y ∈ t.lookAlikes x r.reverse a := List.mem_of_getElem? hchosen
          exact hab (LiveTree.looksLike_of_common hya hy)
        rw [hrank, h b y hy]
        exact or_iff_right hother

/-- In a list of which exactly the first members are taken, the first free member stands right
after them. -/
theorem find?_free {l taken : List Nat} {k : Nat} (hl : l.Nodup)
    (h : ∀ y ∈ l, (y ∈ taken ↔ y ∈ l.take k)) :
    l.find? (fun y => !taken.contains y) = l[k]? := by
  induction l generalizing k with
  | nil => simp
  | cons z l ih =>
      rw [List.nodup_cons] at hl
      cases k with
      | zero =>
          have hfree : z ∉ taken := by simpa using h z List.mem_cons_self
          simp [hfree]
      | succ k =>
          have htaken : z ∈ taken := by simpa using h z List.mem_cons_self
          have hrest : ∀ y ∈ l, (y ∈ taken ↔ y ∈ l.take k) := by
            intro y hy
            have hne : y ≠ z := fun heq => hl.1 (heq ▸ hy)
            rw [h y (List.mem_cons_of_mem z hy), List.take_succ_cons, List.mem_cons]
            exact or_iff_right hne
          simpa [htaken] using ih hl.2 hrest

/-- The first free look-alike is the one of the rank. -/
theorem Settled.find?_eq (h : r.Settled t x claimUnique earlier taken) (ht : t.WellFormed)
    (a : Attributes) :
    (t.lookAlikes x r.reverse a).find? (fun y => !taken.contains y) =
      r.chosen? t x claimUnique earlier a :=
  find?_free (ht.lookAlikes_nodup x r.reverse a) (h a)

/-! ## Places without an element -/

/-- Below a count, every number is the count of the hits before some hit. -/
theorem exists_hit_of_lt_countP {α : Type} {p : α → Bool} {l : List α} {j : Nat}
    (hj : j < l.countP p) :
    ∃ before m after, l = before ++ m :: after ∧ p m = true ∧ before.countP p = j := by
  induction l generalizing j with
  | nil => simp at hj
  | cons a l ih =>
      by_cases ha : p a = true
      · cases j with
        | zero => exact ⟨[], a, l, rfl, ha, rfl⟩
        | succ j =>
            rw [List.countP_cons_of_pos ha] at hj
            obtain ⟨before, m, after, rfl, hm, hcount⟩ := ih (Nat.lt_of_succ_lt_succ hj)
            exact ⟨a :: before, m, after, rfl, hm, by rw [List.countP_cons_of_pos ha, hcount]⟩
      · rw [List.countP_cons_of_neg ha] at hj
        obtain ⟨before, m, after, rfl, hm, hcount⟩ := ih hj
        exact ⟨a :: before, m, after, rfl, hm, by rw [List.countP_cons_of_neg ha, hcount]⟩

/-- **Nothing is missed early.**  When a place gets nothing, every look-alike stands for an
earlier place. -/
theorem used_up_of_missed {a : Attributes} (hmiss : r.chosen? t x true earlier a = none)
    {y : Nat} (hy : y ∈ t.lookAlikes x r.reverse a) :
    ∃ before m after, earlier = before ++ m :: after ∧
      r.outcome? t x true before m = some (.ok (.ofNumber y)) := by
  obtain ⟨j, hj, hget⟩ := List.getElem_of_mem hy
  have hlt : j < r.alikeCount earlier a := by
    have hle : (t.lookAlikes x r.reverse a).length ≤ r.rank true earlier a :=
      List.getElem?_eq_none_iff.mp hmiss
    simp only [rank, if_true] at hle
    exact Nat.lt_of_lt_of_le hj hle
  obtain ⟨before, m, after, hsplit, hwants, hcount⟩ := exists_hit_of_lt_countP hlt
  obtain ⟨b, hb, hba⟩ := (Option.any_eq_true ..).mp hwants
  refine ⟨before, m, after, hsplit, ?_⟩
  have hnonroot : m.2 ≠ 0 := by
    intro hroot
    simp [wanted?, hroot] at hb
  have hattributes : r.snapshot.attributes? m.2 = some b := by
    simpa [wanted?, hnonroot] using hb
  have hchosen : r.chosen? t x true before b = some y := by
    have hrank : r.rank true before b = j := by
      rw [rank, if_pos rfl, r.alikeCount_congr before hba]
      exact hcount
    rw [chosen?, hrank, t.lookAlikes_congr x r.reverse hba, List.getElem?_eq_getElem hj, hget]
  simp [outcome?, hnonroot, hattributes, hchosen]

end Reconciliation

end ElementFinder
