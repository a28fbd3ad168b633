import ElementFinder.Proofs.Live.Answer
import ElementFinder.Proofs.Live.Refinement
import ElementFinder.Proofs.Live.Still

/-!
# Computations on a tree that changes

After each look the changes that are due are made, so what a look sees depends on the looks before
it and on nothing else: `World.after` is the world that some looks lead to, and a computation
arrives at a result when its looks lead there (`Access.Arrives`).  Whatever is changed, the tree
stays well formed, so a query for descendants is answered by elements other than the one that the
handle names.
-/

namespace ElementFinder

/-! ## Worlds -/

namespace World

/-- The world after some looks, one after the other. -/
def after (w : World) (ks : List Glance) : World :=
  ks.foldl afterLook w

/-- Looks that come one after the other may be taken together. -/
theorem after_append (w : World) (ks ks' : List Glance) :
    w.after (ks ++ ks') = (w.after ks).after ks' :=
  List.foldl_append

/-- The looks are recorded, the last one first. -/
theorem looks_after (w : World) (ks : List Glance) :
    (w.after ks).looks = ks.reverse ++ w.looks := by
  induction ks generalizing w with
  | nil => rfl
  | cons k ks ih =>
      have hlater := ih (w.afterLook k)
      rw [after, List.foldl_cons, ← after, hlater]
      simp [afterLook]

/-- The changes made after a look keep the tree well-formed. -/
theorem wellFormed_afterLook {w : World} (h : w.tree.WellFormed) (k : Glance) :
    (w.afterLook k).tree.WellFormed :=
  h.run _

/-- Looks keep a tree well formed, whatever is changed between them. -/
theorem wellFormed_after {w : World} (h : w.tree.WellFormed) (ks : List Glance) :
    (w.after ks).tree.WellFormed := by
  induction ks generalizing w with
  | nil => exact h
  | cons k ks ih => exact ih (wellFormed_afterLook h k)

/-- An element is live at each of some looks. -/
def Watches (w : World) (root : Handle) (ks : List Glance) : Prop :=
  ∀ before k later, ks = before ++ k :: later →
    ((w.after before).tree.liveId? root).isSome = true

/-- What is live at all looks is live at the later ones. -/
theorem Watches.right {w : World} {root : Handle} {ks ks' : List Glance}
    (h : w.Watches root (ks ++ ks')) : (w.after ks).Watches root ks' := by
  intro before k later hsplit
  rw [← after_append]
  exact h (ks ++ before) k later (by rw [hsplit, List.append_assoc])

/-- What looks at the attributes of some handles, one after the other, show. -/
def shows (w : World) : List Handle → List (Handle × Option Attributes)
  | [] => []
  | h :: rest => (h, w.tree.looks h) :: shows (w.afterLook .snapshot) rest

/-- What queries for the descendants of some types, one after the other, answer. -/
def answers (w : World) (root : Handle) : List ElementType → List (ElementType × List Handle)
  | [] => []
  | ty :: rest =>
    (ty, w.tree.found ((ElementQuery.start root).step (.descendants ty))) ::
      answers (w.afterLook .query) root rest

/-- What some handles are shown as is listed by handle. -/
theorem map_fst_shows (w : World) (hs : List Handle) : (w.shows hs).map Prod.fst = hs := by
  induction hs generalizing w with
  | nil => rfl
  | cons h hs ih => rw [shows, List.map_cons, ih]

/-- Further handles are looked at after the looks at the earlier ones. -/
theorem shows_append (w : World) (hs hs' : List Handle) :
    w.shows (hs ++ hs') =
      w.shows hs ++ (w.after (hs.map fun _ => .snapshot)).shows hs' := by
  induction hs generalizing w with
  | nil => rfl
  | cons h hs ih =>
      rw [List.cons_append, shows, shows, ih]
      rfl

end World

/-! ## Results -/

namespace Access

variable {α β : Type}

/-- A computation has a result after some looks. -/
def Arrives (x : Access α) (w : World) (r : Except LocatorError α) (ks : List Glance) : Prop :=
  x.run.run w = (r, w.after ks)

namespace Arrives

variable {w : World}

/-- A value arrives without a look. -/
theorem pure (a : α) : Arrives (Pure.pure a : Access α) w (.ok a) [] :=
  rfl

/-- What follows a computation starts from where it arrives. -/
theorem run_bind {x : Access α} {f : α → Access β} {a : α} {ks : List Glance}
    (hx : Arrives x w (.ok a) ks) : (x >>= f).run.run w = (f a).run.run (w.after ks) := by
  rw [ExceptT.run_bind, StateT.run_bind, hx]
  rfl

/-- A computation goes on from what arrived, in the world after the looks so far. -/
theorem bind {x : Access α} {f : α → Access β} {a : α} {r : Except LocatorError β}
    {ks ks' : List Glance} (hx : Arrives x w (.ok a) ks) (hf : Arrives (f a) (w.after ks) r ks') :
    Arrives (x >>= f) w r (ks ++ ks') := by
  rw [Arrives, hx.run_bind, hf, World.after_append]

/-- A failure that arrives is that of the whole computation. -/
theorem bind_error {x : Access α} {f : α → Access β} {e : LocatorError} {ks : List Glance}
    (hx : Arrives x w (.error e) ks) : Arrives (x >>= f) w (.error e) ks := by
  rw [Arrives, ExceptT.run_bind, StateT.run_bind, hx]
  rfl

/-- One look arrives at what the tree answers, and the changes due are made. -/
theorem look (k : Glance) (f : LiveTree → Except LiveFault α) :
    Arrives (Access.look k f) w ((f w.tree).mapError fun e => LocatorError.tree e.toTreeError)
      [k] :=
  rfl

/-- Looking at an element arrives at its attributes, or at nothing if it is stale. -/
theorem attributes? (h : Handle) :
    Arrives (Access.attributes? h) w (.ok (w.tree.looks h)) [.snapshot] :=
  rfl

/-- A snapshot that can be taken arrives. -/
theorem snapshot {h : Handle} {s : Snapshot} (hs : w.tree.snapshot h = .ok s) :
    Arrives (Access.snapshot h) w (.ok s) [.snapshot] := by
  have hlook := Arrives.look (w := w) .snapshot fun t => t.snapshot h
  rw [hs] at hlook
  exact hlook

/-- The elements that a query finds arrive. -/
theorem query {q : ElementQuery} {hs : List Handle} (h : w.tree.query q = .ok hs) :
    Arrives (Access.query q) w (.ok hs) [.query] := by
  have hlook := Arrives.look (w := w) .query fun t => t.query q
  rw [h] at hlook
  exact hlook

/-- The fault of a query arrives as a failure. -/
theorem query_error {q : ElementQuery} {e : LiveFault} (h : w.tree.query q = .error e) :
    Arrives (Access.query q) w (.error (.tree e.toTreeError)) [.query] := by
  have hlook := Arrives.look (w := w) .query fun t => t.query q
  rw [h] at hlook
  exact hlook

end Arrives

/-- The result of a computation on a tree that is changed between its looks, and these looks in
order. -/
def runChanging (x : Access α) (t : LiveTree) (changes : Interference) :
    Except LocatorError α × List Glance :=
  let (r, w) := x.run.run ⟨t, [], changes⟩
  (r, w.looks.reverse)

/-- Running a computation on a tree that changes gives what arrives, with the looks in order. -/
theorem Arrives.runChanging_eq {x : Access α} {t : LiveTree} {changes : Interference}
    {r : Except LocatorError α} {ks : List Glance} (h : x.Arrives ⟨t, [], changes⟩ r ks) :
    x.runChanging t changes = (r, ks) := by
  have hlooks := World.looks_after ⟨t, [], changes⟩ ks
  rw [List.append_nil] at hlooks
  rw [runChanging, h]
  simp only [hlooks, List.reverse_reverse]

end Access

/-! ## Calm worlds -/

namespace World.Calm

variable {w : World} {t : LiveTree}

/-- A calm world stays calm. -/
theorem after (h : w.Calm t) (ks : List Glance) : (w.after ks).Calm t := by
  induction ks generalizing w with
  | nil => exact h
  | cons k ks ih => exact ih (h.afterLook k)

/-- In a calm world a live root stays live. -/
theorem watches (h : w.Calm t) {root : Handle} {x : Nat} (hx : t.liveId? root = some x)
    (ks : List Glance) : w.Watches root ks := by
  intro before k later _
  rw [(h.after before).tree_eq, hx]
  rfl

/-- In a calm world every handle is shown as it looks in the tree. -/
theorem shows_eq (h : w.Calm t) (hs : List Handle) :
    w.shows hs = hs.map fun handle => (handle, t.looks handle) := by
  induction hs generalizing w with
  | nil => rfl
  | cons handle hs ih => rw [shows, h.tree_eq, ih (h.afterLook .snapshot), List.map_cons]

/-- In a calm world every query is answered from the tree. -/
theorem answers_eq (h : w.Calm t) (root : Handle) (types : List ElementType) :
    w.answers root types = types.map fun ty =>
      (ty, t.found ((ElementQuery.start root).step (.descendants ty))) := by
  induction types generalizing w with
  | nil => rfl
  | cons ty types ih => rw [answers, h.tree_eq, ih (h.afterLook .query), List.map_cons]

end World.Calm

/-- A computation that arrives at a result on every calm world gives this result. -/
theorem Access.Yields.of_arrives {α : Type} {t : LiveTree} {x : Access α}
    {r : Except LocatorError α} (h : ∀ w : World, w.Calm t → ∃ ks, x.Arrives w r ks) :
    x.Yields t r := by
  intro w hw
  obtain ⟨ks, hgoes⟩ := h w hw
  exact ⟨w.after ks, hgoes, hw.after ks⟩

/-! ## Queries -/

/-- Queries for descendants are answered by handles of elements other than the one that the
descendants are looked for of. -/
theorem World.answers_others {w : World} (h : w.tree.WellFormed) {root : Handle} {x : Nat}
    (hx : root.number? = some x) {types : List ElementType}
    {entry : ElementType × List Handle} (hentry : entry ∈ w.answers root types) :
    ∃ ys : List Nat, entry.2 = ys.map Handle.ofNumber ∧ x ∉ ys := by
  induction types generalizing w with
  | nil => exact absurd hentry List.not_mem_nil
  | cons ty types ih =>
      rcases List.mem_cons.mp hentry with rfl | hlater
      · cases hlive : w.tree.liveId? root with
        | none =>
            have hstale := LiveTree.query_stale hlive [.descendants ty]
            exact ⟨[], by simp [LiveTree.found, ElementQuery.start, ElementQuery.step, hstale,
              Except.toOption], List.not_mem_nil⟩
        | some x' =>
            obtain rfl : x = x' :=
              Option.some.inj (hx.symm.trans (LiveTree.liveId?_eq_some.mp hlive).1)
            obtain ⟨ys, hquery, -, hmem⟩ := h.query_live hlive [.descendants ty]
            refine ⟨ys, by simp [LiveTree.found, ElementQuery.start, ElementQuery.step, hquery,
              Except.toOption], ?_⟩
            intro hself
            obtain ⟨y, ⟨hbelow, -⟩, rfl⟩ := (hmem x).mp hself
            exact Nat.lt_irrefl y (h.forest.toDescending.lt_of_below hbelow)
      · exact ih (wellFormed_afterLook h .query) hlater

end ElementFinder
