import ElementFinder.Proofs.Predicate.Comparison

/-!
# Obtainable predicates are regular

A predicate is regular when its comparisons can be evaluated and every conjunction and
disjunction joins at least two terms.  The reader keeps a single term as it is and joins only
several, and the operations on predicates join two or add to what is joined already, so every
predicate that can be obtained from them is regular.  A conjunction of one term would be written
like the term alone, and one of none as nothing, so neither could be read back.
-/

namespace ElementFinder

namespace Formula

variable {α β ε : Type}

/-- Every atom passes, and every conjunction and disjunction joins several terms. -/
inductive Regular (passes : α → Prop) : Formula α → Prop where
  | constant (value : Bool) : Regular passes (.constant value)
  | atom {a : α} (h : passes a) : Regular passes (.atom a)
  | not {p : Formula α} (h : Regular passes p) : Regular passes (.not p)
  | and {terms : List (Formula α)} (several : 2 ≤ terms.length)
      (h : ∀ p ∈ terms, Regular passes p) : Regular passes (.and terms)
  | or {terms : List (Formula α)} (several : 2 ≤ terms.length)
      (h : ∀ p ∈ terms, Regular passes p) : Regular passes (.or terms)

namespace Regular

variable {passes : α → Prop}

/-- Joining read terms keeps a single one. -/
theorem joined {join : List (Formula α) → Formula α}
    (hjoin : ∀ ps, 2 ≤ ps.length → (∀ p ∈ ps, Regular passes p) → Regular passes (join ps))
    {p : Formula α} {ps : List (Formula α)} (hp : Regular passes p)
    (hps : ∀ q ∈ ps, Regular passes q) : Regular passes (Formula.joined join (p :: ps)) := by
  cases ps with
  | nil => exact hp
  | cons q ps => exact hjoin _ (by simp) (List.forall_mem_cons.mpr ⟨hp, hps⟩)

/-- Joining regular formulas by a conjunction gives a regular one. -/
theorem conj {p q : Formula α} (hp : Regular passes p) (hq : Regular passes q) :
    Regular passes (p.conj q) := by
  have hpair : Regular passes (.and [p, q]) := .and (Nat.le_refl 2) (by simp [hp, hq])
  cases p with
  | and terms =>
      obtain ⟨several, h⟩ : 2 ≤ terms.length ∧ ∀ p ∈ terms, Regular passes p := by
        cases hp with
        | and several h => exact ⟨several, h⟩
      exact .and (by simp; omega) (List.forall_mem_append.mpr ⟨h, by simpa using hq⟩)
  | _ => exact hpair

/-- Joining regular formulas by a disjunction gives a regular one. -/
theorem disj {p q : Formula α} (hp : Regular passes p) (hq : Regular passes q) :
    Regular passes (p.disj q) := by
  have hpair : Regular passes (.or [p, q]) := .or (Nat.le_refl 2) (by simp [hp, hq])
  cases p with
  | or terms =>
      obtain ⟨several, h⟩ : 2 ≤ terms.length ∧ ∀ p ∈ terms, Regular passes p := by
        cases hp with
        | or several h => exact ⟨several, h⟩
      exact .or (by simp; omega) (List.forall_mem_append.mpr ⟨h, by simpa using hq⟩)
  | _ => exact hpair

end Regular

/-- What succeeds behind a function succeeded before it. -/
theorem except_map_eq_ok {f : α → β} {e : Except ε α} {b : β} (h : e.map f = .ok b) :
    ∃ a, e = .ok a ∧ f a = b := by
  cases e with
  | error _ => cases h
  | ok a => exact ⟨a, rfl, Except.ok.inj h⟩

/-- What replaces some terms are as many, and each replaces one of them. -/
theorem traverseAll_ok {f : α → Except ε β} {ps : List (Formula α)} {qs : List (Formula β)}
    (h : traverseAll f ps = .ok qs) :
    qs.length = ps.length ∧ ∀ q ∈ qs, ∃ p ∈ ps, traverse f p = .ok q := by
  induction ps generalizing qs with
  | nil =>
      obtain rfl := Except.ok.inj h
      exact ⟨rfl, by simp⟩
  | cons p ps ih =>
      rw [traverseAll] at h
      split at h
      · cases h
      · rename_i q hq
        obtain ⟨qs', hqs, rfl⟩ := except_map_eq_ok h
        obtain ⟨hlength, hmem⟩ := ih hqs
        refine ⟨by simp [hlength], List.forall_mem_cons.mpr ⟨⟨p, by simp, hq⟩, ?_⟩⟩
        intro r hr
        obtain ⟨p', hp', hr'⟩ := hmem r hr
        exact ⟨p', List.mem_cons_of_mem p hp', hr'⟩

/-- Replacing the atoms of a regular formula leaves it regular. -/
theorem Regular.traverse {passes : α → Prop} {passes' : β → Prop} {f : α → Except ε β}
    (hatoms : ∀ {a b}, passes a → f a = .ok b → passes' b) {p : Formula α}
    (hp : Regular passes p) {q : Formula β} (h : p.traverse f = .ok q) : Regular passes' q := by
  induction hp generalizing q with
  | constant value =>
      obtain rfl := Except.ok.inj h
      exact .constant value
  | atom hpass =>
      obtain ⟨b, hb, rfl⟩ := except_map_eq_ok h
      exact .atom (hatoms hpass hb)
  | not hp ih =>
      obtain ⟨r, hr, rfl⟩ := except_map_eq_ok h
      exact .not (ih hr)
  | and several hall ih =>
      obtain ⟨qs, hqs, rfl⟩ := except_map_eq_ok h
      obtain ⟨hlength, hmem⟩ := traverseAll_ok hqs
      refine .and (hlength ▸ several) ?_
      intro r hr
      obtain ⟨p, hp, hpr⟩ := hmem r hr
      exact ih p hp hpr
  | or several hall ih =>
      obtain ⟨qs, hqs, rfl⟩ := except_map_eq_ok h
      obtain ⟨hlength, hmem⟩ := traverseAll_ok hqs
      refine .or (hlength ▸ several) ?_
      intro r hr
      obtain ⟨p, hp, hpr⟩ := hmem r hr
      exact ih p hp hpr

end Formula

namespace PredicateReading

/-- A draft as the reader builds it. -/
abbrev RegularDraft (d : Draft) : Prop :=
  d.Regular fun _ => True

mutual

/-- What the reader finds is regular. -/
theorem regular_readOr : ∀ (fuel : Nat) {cs rest : List Char} {d : Draft},
    readOr fuel cs = some (d, rest) → RegularDraft d
  | 0, cs, rest, d, h => by cases h
  | fuel + 1, cs, rest, d, h => by
      rw [readOr] at h
      split at h
      · cases h
      · rename_i p more hp
        obtain ⟨rfl, -⟩ := Prod.mk.inj (Option.some.inj h)
        exact .joined (fun _ => .or) (regular_readAnd fuel hp) (regular_readOrTail fuel more)

/-- The further terms of a disjunction are read as regular drafts. -/
theorem regular_readOrTail : ∀ (fuel : Nat) (cs : List Char),
    ∀ d ∈ (readOrTail fuel cs).1, RegularDraft d
  | 0, cs, d, h => by cases h
  | fuel + 1, cs, d, h => by
      rw [readOrTail] at h
      split at h
      · cases h
      · split at h
        · cases h
        · rename_i p more hp
          rcases List.mem_cons.mp h with rfl | hmem
          · exact regular_readAnd fuel hp
          · exact regular_readOrTail fuel more d hmem

/-- A conjunction is read as a regular draft. -/
theorem regular_readAnd : ∀ (fuel : Nat) {cs rest : List Char} {d : Draft},
    readAnd fuel cs = some (d, rest) → RegularDraft d
  | 0, cs, rest, d, h => by cases h
  | fuel + 1, cs, rest, d, h => by
      rw [readAnd] at h
      split at h
      · cases h
      · rename_i p more hp
        obtain ⟨rfl, -⟩ := Prod.mk.inj (Option.some.inj h)
        exact .joined (fun _ => .and) (regular_readTerm fuel hp) (regular_readAndTail fuel more)

/-- The further terms of a conjunction are read as regular drafts. -/
theorem regular_readAndTail : ∀ (fuel : Nat) (cs : List Char),
    ∀ d ∈ (readAndTail fuel cs).1, RegularDraft d
  | 0, cs, d, h => by cases h
  | fuel + 1, cs, d, h => by
      rw [readAndTail] at h
      split at h
      · cases h
      · split at h
        · cases h
        · rename_i p more hp
          rcases List.mem_cons.mp h with rfl | hmem
          · exact regular_readTerm fuel hp
          · exact regular_readAndTail fuel more d hmem

/-- A term is read as a regular draft. -/
theorem regular_readTerm : ∀ (fuel : Nat) {cs rest : List Char} {d : Draft},
    readTerm fuel cs = some (d, rest) → RegularDraft d
  | 0, cs, rest, d, h => by cases h
  | fuel + 1, cs, rest, d, h => by
      unfold readTerm at h
      split at h
      · -- a negation
        obtain ⟨⟨p, more⟩, hp, hd⟩ := Option.map_eq_some_iff.mp h
        obtain ⟨rfl, -⟩ := Prod.mk.inj hd
        exact .not (regular_readTerm fuel hp)
      split at h
      · -- a predicate between parentheses
        split at h
        · cases h
        · rename_i p more hp
          split at h
          · obtain ⟨rfl, -⟩ := Prod.mk.inj (Option.some.inj h)
            exact regular_readOr fuel hp
          · cases h
      split at h
      · obtain ⟨rfl, -⟩ := Prod.mk.inj (Option.some.inj h)
        exact .constant _
      · obtain ⟨⟨c, more⟩, hc, hd⟩ := Option.map_eq_some_iff.mp h
        obtain ⟨rfl, -⟩ := Prod.mk.inj hd
        exact .atom trivial

end

/-- A whole text is read as a regular draft. -/
theorem regular_readDraft {cs : List Char} {d : Draft} (h : readDraft cs = some d) :
    RegularDraft d := by
  rw [readDraft] at h
  split at h
  · rename_i p rest hp
    split at h
    · obtain rfl := Option.some.inj h
      exact regular_readOr _ hp
    · cases h
  · cases h

end PredicateReading

namespace Predicate

/-- The predicate is regular, and its comparisons can be evaluated. -/
abbrev IsRegular (p : Predicate) : Prop :=
  Formula.Regular Comparison.IsMade p

/-- What is read of a text is regular. -/
theorem isRegular_ofChars {cs : List Char} {p : Predicate} (h : ofChars cs = .ok p) :
    p.IsRegular := by
  rw [ofChars] at h
  split at h
  · cases h
  · rename_i draft hdraft
    have hdraft := PredicateReading.regular_readDraft hdraft
    exact hdraft.traverse (fun _ hmade => Comparison.isMade_of_ofDraft hmade) h

/-- The predicates that clients can obtain: read from a text, made of a text comparison, and
built from such by conjunction, disjunction and negation. -/
inductive Obtainable : Predicate → Prop where
  | parsed {expression : String} {p : Predicate} (h : parse expression = .ok p) : Obtainable p
  | matching {key : String} {comparison : TextComparison} {content : String} {p : Predicate}
      (h : attributeMatching key comparison content = .ok p) : Obtainable p
  | conj {p q : Predicate} (hp : Obtainable p) (hq : Obtainable q) : Obtainable (p.conj q)
  | disj {p q : Predicate} (hp : Obtainable p) (hq : Obtainable q) : Obtainable (p.disj q)
  | not {p : Predicate} (hp : Obtainable p) : Obtainable (.not p)

/-- Obtainable predicates are regular. -/
theorem Obtainable.isRegular {p : Predicate} (h : p.Obtainable) : p.IsRegular := by
  induction h with
  | parsed h => exact isRegular_ofChars h
  | matching h =>
      obtain ⟨c, hc, rfl⟩ := Formula.except_map_eq_ok h
      exact .atom (Comparison.isMade_of_ofDraft hc)
  | conj hp hq ihp ihq => exact ihp.conj ihq
  | disj hp hq ihp ihq => exact ihp.disj ihq
  | not hp ih => exact .not ih

end Predicate

end ElementFinder
