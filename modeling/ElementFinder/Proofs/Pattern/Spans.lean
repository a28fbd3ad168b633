import Mathlib.Data.Nat.Bitwise
import ElementFinder.Pattern.Basic

/-!
# What a pattern matches

A pattern is matched by moving sets of positions through it.  What this computes is said here for
single positions: `Pattern.Spans` tells between which positions of a text a pattern has a match,
by recursion on the pattern, and `testBit_advance` shows that a position is in the set that comes
out when a match leads to it from one that went in.

Repetitions without a bound are cut off after as many rounds as the text has characters.  Nothing
is lost, because a round that does not move on can be left out (`Iterated.exists_le`).
-/

namespace ElementFinder.Pattern

/-! ## Rounds -/

/-- A number of rounds, one after the other. -/
def Iterated (R : Nat → Nat → Prop) : Nat → Nat → Nat → Prop
  | 0, i, j => i = j
  | n + 1, i, j => ∃ k, R i k ∧ Iterated R n k j

namespace Iterated

variable {R : Nat → Nat → Prop} {m n i j : Nat}

/-- Rounds after rounds are as many rounds as both. -/
theorem trans {k : Nat} (h : Iterated R m i k) (h' : Iterated R n k j) :
    Iterated R (m + n) i j := by
  induction m generalizing i with
  | zero =>
      obtain rfl := h
      rwa [Nat.zero_add]
  | succ m ih =>
      obtain ⟨l, hl, h⟩ := h
      rw [Nat.add_right_comm]
      exact ⟨l, hl, ih h⟩

/-- Rounds can be split at any of them. -/
theorem split (h : Iterated R (m + n) i j) : ∃ k, Iterated R m i k ∧ Iterated R n k j := by
  induction m generalizing i with
  | zero => exact ⟨i, rfl, by rwa [Nat.zero_add] at h⟩
  | succ m ih =>
      rw [Nat.add_right_comm] at h
      obtain ⟨l, hl, h⟩ := h
      obtain ⟨k, hk, h⟩ := ih h
      exact ⟨k, ⟨l, hl, hk⟩, h⟩

/-- Rounds keep what one round keeps. -/
theorem lift {S : Nat → Nat → Prop} (hrefl : ∀ i, S i i)
    (htrans : ∀ {i k j}, S i k → S k j → S i j) (hR : ∀ {i j}, R i j → S i j)
    (h : Iterated R n i j) : S i j := by
  induction n generalizing i with
  | zero => exact h ▸ hrefl i
  | succ n ih =>
      obtain ⟨k, hk, h⟩ := h
      exact htrans (hR hk) (ih h)

/-- **Rounds that do not move on can be left out.**  No more are needed than positions lie
between. -/
theorem exists_le (hR : ∀ {i j}, R i j → i ≤ j) (h : Iterated R n i j) :
    ∃ m ≤ j - i, Iterated R m i j := by
  induction n generalizing i with
  | zero => exact ⟨0, Nat.zero_le _, h⟩
  | succ n ih =>
      obtain ⟨k, hk, h⟩ := h
      obtain ⟨m, hm, hrounds⟩ := ih h
      have hik := hR hk
      have hkj : k ≤ j := hrounds.lift Nat.le_refl Nat.le_trans hR
      by_cases hstays : i = k
      · subst hstays
        exact ⟨m, hm, hrounds⟩
      · exact ⟨m + 1, by omega, k, hk, hrounds⟩

end Iterated

/-! ## Matches -/

/-- The character before a position. -/
def charBefore (text : List Char) (i : Nat) : Option Char :=
  if i = 0 then none else text[i - 1]?

/-- A match of a pattern stands between two positions of a text. -/
def Spans (text : List Char) : Pattern → Nat → Nat → Prop
  | empty, i, j => i = j
  | one set, i, j => (∃ c, text[i]? = some c ∧ set.contains c.toNat = true) ∧ j = i + 1
  | look condition, i, j =>
    i ≤ text.length ∧ condition.holds (charBefore text i) text[i]? = true ∧ i = j
  | seq p q, i, j => ∃ k, Spans text p i k ∧ Spans text q k j
  | alt p q, i, j => Spans text p i j ∨ Spans text q i j
  | repeated p least most, i, j =>
    ∃ n, least ≤ n ∧ (∀ bound, most = some bound → n ≤ max least bound) ∧
      Iterated (Spans text p) n i j

/-- Matches go forward, and none goes beyond the end of the text. -/
theorem Spans.bounds {text : List Char} {p : Pattern} {i j : Nat} (h : Spans text p i j) :
    i ≤ j ∧ j ≤ max i text.length := by
  have htrans : ∀ {i k j : Nat}, i ≤ k ∧ k ≤ max i text.length → k ≤ j ∧ j ≤ max k text.length →
      i ≤ j ∧ j ≤ max i text.length := by
    omega
  induction p generalizing i j with
  | empty =>
      obtain rfl := h
      omega
  | one set =>
      obtain ⟨⟨c, hc, -⟩, rfl⟩ := h
      have hlt := (List.getElem?_eq_some_iff.mp hc).1
      omega
  | look condition =>
      obtain ⟨-, -, rfl⟩ := h
      omega
  | seq p q ihp ihq =>
      obtain ⟨k, hp, hq⟩ := h
      exact htrans (ihp hp) (ihq hq)
  | alt p q ihp ihq => exact h.elim ihp ihq
  | repeated p least most ih =>
      obtain ⟨n, -, -, h⟩ := h
      exact h.lift (S := fun i j => i ≤ j ∧ j ≤ max i text.length) (fun i => by omega) htrans ih

/-! ## Sets of positions -/

/-- The lowest bit is the one given. -/
theorem testBit_bit_zero (low : Bool) (high : Nat) : (bit low high).testBit 0 = low := by
  cases low <;> simp [bit, Nat.testBit_zero]

/-- The other bits follow. -/
theorem testBit_bit_succ (low : Bool) (high i : Nat) :
    (bit low high).testBit (i + 1) = high.testBit i := by
  have hhalf : bit low high / 2 = high := by
    rw [bit]
    cases low <;> simp only [Bool.toNat_false, Bool.toNat_true] <;> omega
  rw [Nat.testBit_succ, hhalf]

/-- The positions before a character of a set. -/
theorem testBit_before (set : CharSet) (text : List Char) (i : Nat) :
    (before set text).testBit i = text[i]?.any fun c => set.contains c.toNat := by
  induction text generalizing i with
  | nil => simp [before]
  | cons c rest ih =>
      cases i with
      | zero =>
          rw [before, testBit_bit_zero]
          rfl
      | succ i =>
          rw [before, testBit_bit_succ, ih]
          rfl

/-- The positions where a condition holds. -/
theorem testBit_places (condition : Look) (previous : Option Char) (text : List Char) (i : Nat) :
    (places condition previous text).testBit i = true ↔
      i ≤ text.length ∧
        condition.holds (if i = 0 then previous else text[i - 1]?) text[i]? = true := by
  induction text generalizing previous i with
  | nil =>
      cases i with
      | zero =>
          rw [places, testBit_bit_zero]
          simp
      | succ i => simp [places, testBit_bit_succ]
  | cons c rest ih =>
      cases i with
      | zero =>
          rw [places, testBit_bit_zero]
          simp
      | succ i =>
          rw [places, testBit_bit_succ, ih]
          cases i <;> simp

/-- A step on sets of positions leads from each position where a relation leads. -/
def Follows (step : Nat → Nat) (R : Nat → Nat → Prop) : Prop :=
  ∀ s j, (step s).testBit j = true ↔ ∃ i, s.testBit i = true ∧ R i j

namespace Follows

variable {step : Nat → Nat} {R : Nat → Nat → Prop}

/-- A number of steps follows as many rounds. -/
theorem times (h : Follows step R) (n : Nat) : Follows (times step n) (Iterated R n) := by
  induction n with
  | zero =>
      intro s j
      simp [Pattern.times, Iterated]
  | succ n ih =>
      intro s j
      rw [Pattern.times]
      split
      · rename_i hempty
        simp [hempty]
      · rw [ih]
        constructor
        · rintro ⟨k, hk, hrounds⟩
          obtain ⟨i, hi, hik⟩ := (h s k).mp hk
          exact ⟨i, hi, k, hik, hrounds⟩
        · rintro ⟨i, hi, k, hik, hrounds⟩
          exact ⟨k, (h s k).mpr ⟨i, hi, hik⟩, hrounds⟩

/-- A step follows any relation that is the same. -/
theorem congr {R' : Nat → Nat → Prop} (h : Follows step R) (hR : ∀ i j, R i j ↔ R' i j) :
    Follows step R' := by
  intro s j
  simp only [h s j, hR]

/-- A set that a step does not leave is not left in any number of rounds. -/
theorem closed (h : Follows step R) {s : Nat} (hs : s ||| step s = s) {n i j : Nat}
    (hi : s.testBit i = true) (hrounds : Iterated R n i j) : s.testBit j = true := by
  induction n generalizing i with
  | zero => exact hrounds ▸ hi
  | succ n ih =>
      obtain ⟨k, hik, hrounds⟩ := hrounds
      refine ih ?_ hrounds
      rw [← hs, Nat.testBit_or, (h s k).mpr ⟨i, hi, hik⟩, Bool.or_true]

/-- Steps up to a number follow as many rounds at most. -/
theorem upTo (h : Follows step R) (n : Nat) :
    Follows (upTo step n) fun i j => ∃ m ≤ n, Iterated R m i j := by
  induction n with
  | zero =>
      intro s j
      simp [Pattern.upTo, Iterated]
  | succ n ih =>
      intro s j
      rw [Pattern.upTo]
      split
      · rename_i hclosed
        constructor
        · intro hj
          exact ⟨j, hj, 0, Nat.zero_le _, rfl⟩
        · rintro ⟨i, hi, m, -, hrounds⟩
          exact h.closed hclosed hi hrounds
      · rw [ih]
        constructor
        · rintro ⟨k, hk, m, hm, hrounds⟩
          rw [Nat.testBit_or, Bool.or_eq_true] at hk
          rcases hk with hk | hk
          · exact ⟨k, hk, m, Nat.le_succ_of_le hm, hrounds⟩
          · obtain ⟨i, hi, hik⟩ := (h s k).mp hk
            exact ⟨i, hi, m + 1, Nat.succ_le_succ hm, k, hik, hrounds⟩
        · rintro ⟨i, hi, m, hm, hrounds⟩
          cases m with
          | zero =>
              refine ⟨i, ?_, 0, Nat.zero_le _, hrounds⟩
              rw [Nat.testBit_or, hi, Bool.true_or]
          | succ m =>
              obtain ⟨k, hik, hrounds⟩ := hrounds
              refine ⟨k, ?_, m, Nat.le_of_succ_le_succ hm, hrounds⟩
              rw [Nat.testBit_or, (h s k).mpr ⟨i, hi, hik⟩, Bool.or_true]

/-- One step after another follows one relation after the other. -/
theorem comp {step' : Nat → Nat} {R' : Nat → Nat → Prop} (h : Follows step R)
    (h' : Follows step' R') :
    Follows (fun s => step' (step s)) fun i j => ∃ k, R i k ∧ R' k j := by
  intro s j
  rw [h']
  constructor
  · rintro ⟨k, hk, hkj⟩
    obtain ⟨i, hi, hik⟩ := (h s k).mp hk
    exact ⟨i, hi, k, hik, hkj⟩
  · rintro ⟨i, hi, k, hik, hkj⟩
    exact ⟨k, (h s k).mpr ⟨i, hi, hik⟩, hkj⟩

end Follows

/-- **Matching.**  A position comes out when a match leads to it from one that went in. -/
theorem testBit_advance (text : List Char) (p : Pattern) :
    Follows (advance text p) (Spans text p) := by
  induction p with
  | empty =>
      intro s j
      simp [advance, Spans]
  | one set =>
      intro s j
      rw [advance, Nat.testBit_shiftLeft, Nat.testBit_and, testBit_before]
      simp only [Bool.and_eq_true, decide_eq_true_iff, Option.any_eq_true]
      constructor
      · rintro ⟨hpos, hi, hnext⟩
        exact ⟨j - 1, hi, hnext, by omega⟩
      · rintro ⟨i, hi, hnext, rfl⟩
        exact ⟨Nat.le_add_left 1 i, hi, hnext⟩
  | look condition =>
      intro s j
      rw [advance, Nat.testBit_and, Bool.and_eq_true, testBit_places]
      simp only [Spans, charBefore]
      constructor
      · rintro ⟨hj, hle, hholds⟩
        exact ⟨j, hj, hle, hholds, rfl⟩
      · rintro ⟨i, hi, hle, hholds, rfl⟩
        exact ⟨hi, hle, hholds⟩
  | seq p q ihp ihq => exact ihp.comp ihq
  | alt p q ihp ihq =>
      intro s j
      rw [advance, Nat.testBit_or, Bool.or_eq_true, ihp, ihq]
      simp only [Spans, and_or_left, exists_or]
  | repeated p least most ih =>
      cases most with
      | some most =>
          refine ((ih.times least).comp (ih.upTo (most - least))).congr fun i j => ?_
          constructor
          · rintro ⟨k, hleast, m, hm, hmore⟩
            refine ⟨least + m, Nat.le_add_right _ _, ?_, hleast.trans hmore⟩
            rintro bound ⟨⟩
            omega
          · rintro ⟨n, hn, hbound, hrounds⟩
            have := hbound most rfl
            rw [← Nat.add_sub_cancel' hn] at hrounds
            obtain ⟨k, hleast, hmore⟩ := hrounds.split
            exact ⟨k, hleast, n - least, by omega, hmore⟩
      | none =>
          refine ((ih.times least).comp (ih.upTo (text.length + 1))).congr fun i j => ?_
          constructor
          · rintro ⟨k, hleast, m, -, hmore⟩
            exact ⟨least + m, Nat.le_add_right _ _, by simp, hleast.trans hmore⟩
          · rintro ⟨n, hn, -, hrounds⟩
            rw [← Nat.add_sub_cancel' hn] at hrounds
            obtain ⟨k, hleast, hmore⟩ := hrounds.split
            -- the rounds after the least are cut off, and the text bounds those that move on
            obtain ⟨m, hm, hfew⟩ := hmore.exists_le fun h => h.bounds.1
            have hend : Spans text (repeated p 0 none) k j :=
              ⟨n - least, Nat.zero_le _, by simp, hmore⟩
            have := hend.bounds
            exact ⟨k, hleast, m, by omega, hfew⟩

/-- A pattern occurs in a text when it has a match there. -/
theorem occursIn_iff_spans {p : Pattern} {text : List Char} :
    p.occursIn text = true ↔ ∃ i j, i ≤ text.length ∧ Spans text p i j := by
  have hpositions : ∀ i, (Nat.pow 2 (text.length + 1) - 1).testBit i = true ↔ i ≤ text.length := by
    intro i
    change (2 ^ (text.length + 1) - 1).testBit i = true ↔ _
    rw [Nat.testBit_two_pow_sub_one, decide_eq_true_iff, Nat.lt_succ_iff]
  have hends := testBit_advance text p (Nat.pow 2 (text.length + 1) - 1)
  simp only [hpositions] at hends
  rw [occursIn, bne_iff_ne]
  constructor
  · intro hne
    obtain ⟨j, hj⟩ := Nat.exists_testBit_of_ne_zero hne
    obtain ⟨i, hi, hspans⟩ := (hends j).mp hj
    exact ⟨i, j, hi, hspans⟩
  · rintro ⟨i, j, hi, hspans⟩ hzero
    have hj := (hends j).mpr ⟨i, hi, hspans⟩
    rw [hzero, Nat.zero_testBit] at hj
    exact absurd hj (by decide)

/-- A pattern with the whole text as its only possible match occurs when it matches the text from
end to end. -/
theorem occursIn_whole {p : Pattern} {text : List Char} :
    (whole p).occursIn text = true ↔ Spans text p 0 text.length := by
  rw [occursIn_iff_spans]
  constructor
  · rintro ⟨i, _, -, _, ⟨hle, hstart, rfl⟩, j, hspans, hbound, hend, rfl⟩
    obtain rfl : i = 0 := by
      by_contra hpos
      have hbefore : text[i - 1]? = none := by
        simpa [Look.holds, charBefore, hpos] using hstart
      rw [List.getElem?_eq_none_iff] at hbefore
      omega
    have hafter : text[j]? = none := by simpa [Look.holds] using hend
    rw [List.getElem?_eq_none_iff] at hafter
    obtain rfl : j = text.length := Nat.le_antisymm hbound hafter
    exact hspans
  · intro hspans
    refine ⟨0, text.length, Nat.zero_le _, 0, ⟨Nat.zero_le _, rfl, rfl⟩, text.length, hspans,
      Nat.le_refl _, ?_, rfl⟩
    simp [Look.holds]

end ElementFinder.Pattern
