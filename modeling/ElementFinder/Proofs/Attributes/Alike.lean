import ElementFinder.Attributes.Basic

/-!
# Looking alike

Elements look alike when what clients see of them is equal, and numbers compare as numbers, so
an element whose frame holds something that is not a number looks like nothing, not even like
itself.  Looking alike is still symmetric and transitive.  Both are inherited from the numbers
through values, optional values and rectangles.
-/

namespace ElementFinder

/-- An equality test that may fail on the diagonal. -/
structure PartialEquality {α : Type} (eqv : α → α → Bool) : Prop where
  symm : ∀ {a b}, eqv a b = true → eqv b a = true
  trans : ∀ {a b c}, eqv a b = true → eqv b c = true → eqv a c = true

namespace PartialEquality

variable {α : Type} {eqv : α → α → Bool}

/-- What is equal to one of two equal things is equal to the other. -/
theorem congr (h : PartialEquality eqv) {a b : α} (hab : eqv a b = true) (c : α) :
    eqv a c = eqv b c := by
  rw [Bool.eq_iff_iff]
  constructor
  · intro hac
    exact h.trans (h.symm hab) hac
  · intro hbc
    exact h.trans hab hbc

theorem option (h : PartialEquality eqv) : PartialEquality (optionEqv eqv) where
  symm := by
    intro a b hab
    cases a <;> cases b <;> simp only [optionEqv] at hab ⊢ <;> first | contradiction | skip
    exact h.symm hab
  trans := by
    intro a b c hab hbc
    cases a <;> cases b <;> cases c <;> simp only [optionEqv] at hab hbc ⊢ <;>
      first | contradiction | skip
    exact h.trans hab hbc

end PartialEquality

/-- Two numbers are equal when both have the same place on the number line. -/
theorem Binary64.eqv_iff {a b : Binary64} :
    a.eqv b = true ↔ ∃ i, a.place = some i ∧ b.place = some i := by
  rw [eqv]
  cases a.place with
  | none => simp
  | some i =>
      cases b.place with
      | none => simp
      | some j =>
          simp only [beq_iff_eq]
          constructor
          · intro heq
            subst heq
            exact ⟨i, rfl, rfl⟩
          · intro hback
            rcases hback with ⟨k, hi, hj⟩
            exact (Option.some.inj hi).trans (Option.some.inj hj).symm

/-- A proper number equals itself. -/
theorem Binary64.eqv_self {n : Binary64} (h : n.isNaN = false) : n.eqv n = true := by
  rw [eqv_iff]
  cases n with
  | nan => simp [isNaN] at h
  | signed negative m =>
      cases negative with
      | false => exact ⟨_, rfl, rfl⟩
      | true => exact ⟨_, rfl, rfl⟩

theorem Binary64.partialEquality_eqv : PartialEquality Binary64.eqv where
  symm := by
    intro a b hab
    obtain ⟨i, ha, hb⟩ := eqv_iff.mp hab
    exact eqv_iff.mpr ⟨i, hb, ha⟩
  trans := by
    intro a b c hab hbc
    obtain ⟨i, ha, hb⟩ := eqv_iff.mp hab
    obtain ⟨j, hb', hc⟩ := eqv_iff.mp hbc
    obtain rfl : i = j := Option.some.inj (hb.symm.trans hb')
    exact eqv_iff.mpr ⟨i, ha, hc⟩

theorem AttributeValue.partialEquality_eqv : PartialEquality AttributeValue.eqv where
  symm := by
    intro a b hab
    cases a <;> cases b <;> simp only [eqv, decide_eq_true_eq] at hab ⊢ <;>
      first | contradiction | exact hab.symm | skip
    exact Binary64.partialEquality_eqv.symm hab
  trans := by
    intro a b c hab hbc
    cases a <;> cases b <;> cases c <;> simp only [eqv, decide_eq_true_eq] at hab hbc ⊢ <;>
      first | contradiction | exact hab.trans hbc | skip
    exact Binary64.partialEquality_eqv.trans hab hbc

theorem Rect.partialEquality_eqv : PartialEquality Rect.eqv where
  symm := by
    intro a b hab
    have h := Binary64.partialEquality_eqv
    simp only [eqv, Bool.and_eq_true] at hab ⊢
    obtain ⟨⟨⟨hx, hy⟩, hwidth⟩, hheight⟩ := hab
    exact ⟨⟨⟨h.symm hx, h.symm hy⟩, h.symm hwidth⟩, h.symm hheight⟩
  trans := by
    intro a b c hab hbc
    have h := Binary64.partialEquality_eqv
    simp only [eqv, Bool.and_eq_true] at hab hbc ⊢
    obtain ⟨⟨⟨hx, hy⟩, hwidth⟩, hheight⟩ := hab
    obtain ⟨⟨⟨hx', hy'⟩, hwidth'⟩, hheight'⟩ := hbc
    exact ⟨⟨⟨h.trans hx hx', h.trans hy hy'⟩, h.trans hwidth hwidth'⟩, h.trans hheight hheight'⟩

namespace Attributes

/-- **Looking alike is symmetric and transitive.** -/
theorem partialEquality_looksLike : PartialEquality looksLike where
  symm := by
    intro a b hab
    simp only [looksLike, Bool.and_eq_true, decide_eq_true_eq] at hab ⊢
    obtain ⟨⟨⟨⟨htype, hname⟩, hlabel⟩, hvalue⟩, hframe⟩ := hab
    exact ⟨⟨⟨⟨htype.symm, hname.symm⟩, hlabel.symm⟩,
      AttributeValue.partialEquality_eqv.option.symm hvalue⟩, Rect.partialEquality_eqv.symm hframe⟩
  trans := by
    intro a b c hab hbc
    simp only [looksLike, Bool.and_eq_true, decide_eq_true_eq] at hab hbc ⊢
    obtain ⟨⟨⟨⟨htype, hname⟩, hlabel⟩, hvalue⟩, hframe⟩ := hab
    obtain ⟨⟨⟨⟨htype', hname'⟩, hlabel'⟩, hvalue'⟩, hframe'⟩ := hbc
    exact ⟨⟨⟨⟨htype.trans htype', hname.trans hname'⟩, hlabel.trans hlabel'⟩,
      AttributeValue.partialEquality_eqv.option.trans hvalue hvalue'⟩,
      Rect.partialEquality_eqv.trans hframe hframe'⟩

/-- Elements that look alike have the same type. -/
theorem elementType_eq_of_looksLike {a b : Attributes} (h : a.looksLike b = true) :
    a.elementType = b.elementType := by
  simp only [looksLike, Bool.and_eq_true, decide_eq_true_eq] at h
  exact h.1.1.1.1

end Attributes

end ElementFinder
