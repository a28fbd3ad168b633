import ElementFinder.Live.Access
import ElementFinder.Proofs.Live.Copy

/-!
# Computations on a tree that nothing interferes with

Looking at a calm tree changes nothing but the record of looks, so a computation that only looks
has one result on every calm world with the same tree.  `Access.Yields` names that result; the
lemmas below compute it along binds, and `Yields.runStill_eq` hands it to `runStill`.
-/

namespace ElementFinder

/-- The attributes that a look at a handle shows; nothing for a stale one. -/
def LiveTree.looks (t : LiveTree) (h : Handle) : Option Attributes :=
  match t.snapshot h with
  | .ok s => s.attributes? 0
  | .error _ => none

/-- A world whose tree is `t` and stays so. -/
structure World.Calm (w : World) (t : LiveTree) : Prop where
  tree_eq : w.tree = t
  quiet : ∀ looks, w.interference looks = []

namespace World

/-- A world in which nothing interferes is calm. -/
theorem calm_still (t : LiveTree) : (still t).Calm t :=
  ⟨rfl, fun _ => rfl⟩

/-- A calm world is calm after a look. -/
theorem Calm.afterLook {w : World} {t : LiveTree} (h : w.Calm t) (k : Glance) :
    (w.afterLook k).Calm t := by
  constructor
  · simp only [World.afterLook, h.quiet, List.foldl_nil]
    exact h.tree_eq
  · exact h.quiet

end World

namespace Access

/-- A computation gives a result on every calm world with tree `t` and leaves the world calm. -/
def Yields {α : Type} (t : LiveTree) (x : Access α) (r : Except LocatorError α) : Prop :=
  ∀ w : World, w.Calm t → ∃ w' : World, x.run.run w = (r, w') ∧ w'.Calm t

namespace Yields

variable {α β : Type} {t : LiveTree}

/-- Running a computation on a still tree gives what it yields. -/
theorem runStill_eq {x : Access α} {r : Except LocatorError α} (h : Yields t x r) :
    x.runStill t = r := by
  obtain ⟨w', hrun, _⟩ := h (World.still t) (World.calm_still t)
  exact congrArg Prod.fst hrun

/-- A value is yielded. -/
theorem pure (a : α) : Yields t (Pure.pure a : Access α) (.ok a) :=
  fun w hw => ⟨w, rfl, hw⟩

/-- A failure is yielded. -/
theorem throw (e : LocatorError) : Yields t (MonadExcept.throw e : Access α) (.error e) :=
  fun w hw => ⟨w, rfl, hw⟩

/-- A computation goes on from what was yielded. -/
theorem bind {x : Access α} {f : α → Access β} {a : α} {r : Except LocatorError β}
    (hx : Yields t x (.ok a)) (hf : Yields t (f a) r) : Yields t (x >>= f) r := by
  intro w hw
  obtain ⟨w', hrun, hw'⟩ := hx w hw
  obtain ⟨w'', hrun', hw''⟩ := hf w' hw'
  refine ⟨w'', ?_, hw''⟩
  have hstep : (x >>= f).run.run w = (f a).run.run w' := by
    rw [ExceptT.run_bind, StateT.run_bind, hrun]
    rfl
  rw [hstep, hrun']

/-- A failure that is yielded is that of the whole computation. -/
theorem bind_error {x : Access α} {f : α → Access β} {e : LocatorError}
    (hx : Yields t x (.error e)) : Yields t (x >>= f) (.error e) := by
  intro w hw
  obtain ⟨w', hrun, hw'⟩ := hx w hw
  refine ⟨w', ?_, hw'⟩
  rw [ExceptT.run_bind, StateT.run_bind, hrun]
  rfl

/-- A look yields what the tree answers. -/
theorem look (k : Glance) (f : LiveTree → Except LiveFault α) :
    Yields t (Access.look k f) ((f t).mapError fun e => LocatorError.tree e.toTreeError) := by
  intro w hw
  refine ⟨w.afterLook k, ?_, hw.afterLook k⟩
  rw [← hw.tree_eq]
  rfl

/-- The elements that a query finds are yielded. -/
theorem query {q : ElementQuery} {hs : List Handle} (h : t.query q = .ok hs) :
    Yields t (Access.query q) (.ok hs) := by
  have hlook := Yields.look (t := t) .query fun t => t.query q
  rw [h] at hlook
  exact hlook

/-- A snapshot that can be taken is yielded. -/
theorem snapshot {h : Handle} {s : Snapshot} (hs : t.snapshot h = .ok s) :
    Yields t (Access.snapshot h) (.ok s) := by
  have hlook := Yields.look (t := t) .snapshot fun t => t.snapshot h
  rw [hs] at hlook
  exact hlook

end Yields

end Access

end ElementFinder
