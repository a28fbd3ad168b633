import ElementFinder.Proofs.Predicate.Like
import ElementFinder.Proofs.Predicate.TypeText
import ElementFinder.Proofs.Text.LowerCase

/-!
# Comparisons without regard to case

A comparison without regard to case compares texts in lower case, and a wildcard pattern then
matches every character of the same orbit.  Texts that are equal stay equal, and a pattern matches
no less than before.  A part of a text, however, is put into lower case without what stands around
it, so it need not occur any more in the text in lower case: it does where it keeps its sigmas
(`CompareOperator.KeepsSigmas`).

A pattern grows with the characters that it matches beside the given ones, so a wildcard pattern
can be too large without regard to case that is not with it (`like_lost_letters`).

So disregarding case loses a match only of an operator that looks for a part of a text, and only
where the part has a capital sigma, or of a wildcard pattern that becomes too large
(`holds_caseless`).
-/

namespace ElementFinder

/-! ## Parts of texts -/

/-- The part that an operator looks for, of the text of an attribute and that of a literal. -/
def CompareOperator.part : CompareOperator → (actual expected : List Char) → List Char
  | within, actual, _ => actual
  | _, _, expected => expected

/-- An operator that looks for a part of a text finds it where the part keeps its sigmas.  Other
operators ask for nothing. -/
def CompareOperator.KeepsSigmas : CompareOperator → (actual expected : List Char) → Prop
  | beginsWith, actual, expected =>
    ∃ after, actual = expected ++ after ∧ LowerCase.KeepsSigmas [] expected after
  | contains, actual, expected =>
    ∃ before after, actual = before ++ expected ++ after ∧
      LowerCase.KeepsSigmas before expected after
  | endsWith, actual, expected =>
    ∃ before, actual = before ++ expected ∧ LowerCase.KeepsSigmas before expected []
  | within, actual, expected =>
    ∃ before after, expected = before ++ actual ++ after ∧
      LowerCase.KeepsSigmas before actual after
  | _, _, _ => True

namespace CompareOperator

variable {op : CompareOperator} {R : List Char → List Char → Prop} {actual expected : List Char}

/-- A part that keeps its sigmas is found in lower case. -/
theorem KeepsSigmas.lowerCase (hop : op.relation? = some R) (h : op.KeepsSigmas actual expected) :
    R (lowerCase actual) (lowerCase expected) := by
  cases op <;> cases hop
  · obtain ⟨after, rfl, hkept⟩ := h
    exact LowerCase.lowerCase_prefix_iff.mpr hkept
  · obtain ⟨before, after, rfl, hkept⟩ := h
    exact LowerCase.lowerCase_infix hkept
  · obtain ⟨before, rfl, hkept⟩ := h
    exact LowerCase.lowerCase_suffix_iff.mpr hkept
  · obtain ⟨before, after, rfl, hkept⟩ := h
    exact LowerCase.lowerCase_infix hkept

end CompareOperator

/-! ## Wildcard patterns -/

namespace Pattern

/-- Each letter weighs twice as much without regard to case. -/
theorem weight_ofWildcard_letters (caseless : Bool) (n : Nat) :
    (ofWildcard caseless (List.replicate n 'k')).weight = 32 * (1 + caseless.toNat) * n := by
  induction n with
  | zero => rfl
  | succ n ih =>
      have hletter : (literal caseless 'k').weight = 32 * (1 + caseless.toNat) := by
        cases caseless <;> rfl
      rw [List.replicate_succ, ofWildcard, weight, ih, hletter, Nat.mul_succ, Nat.add_comm]
      all_goals simp

end Pattern

/-! ## Comparisons -/

namespace Comparison

/-- The text of the attribute of an element and that of the literal, if both have one. -/
def texts? (c : Comparison) (e : ElementView) : Option (String × String) :=
  match c.readText? (c.subject.read e), (c.codeOfName c.literal).asText? with
  | some actual, some expected => some (actual, expected)
  | _, _ => none

/-- The comparison without regard to case. -/
def caseless (c : Comparison) : Comparison :=
  { c with options := { c.options with caseless := true } }

variable {c : Comparison} {e : ElementView}

/-- The operator finds its part where the part keeps its sigmas, if it looks for one at all. -/
def KeepsSigmas (c : Comparison) (e : ElementView) : Prop :=
  ∀ actual expected, c.texts? e = some (actual, expected) →
    c.operator.KeepsSigmas actual.toList expected.toList

/-- A wildcard pattern that is not too large has to match the whole text of the attribute. -/
theorem holds_like_iff (hop : c.operator = .like) {source : String}
    (hliteral : c.literal = .text source) :
    c.holds e = true ↔
      (Pattern.wildcard c.options.caseless source.toList).weight ≤ PatternReading.weightLimit ∧
        ∃ actual, c.readText? (c.subject.read e) = some actual ∧
          Pattern.Spans actual.toList (.ofWildcard c.options.caseless source.toList) 0
            actual.toList.length := by
  have hpattern : c.pattern? =
      Pattern.ofText? c.options.caseless (Pattern.wildcardText source.toList) := by
    rw [pattern?, hop, hliteral]
    rfl
  by_cases hsize :
      (Pattern.wildcard c.options.caseless source.toList).weight ≤ PatternReading.weightLimit
  · obtain ⟨q, hq, hsame⟩ := Pattern.ofText?_wildcardText hsize
    rw [holds_pattern_iff (.inl hop) (hpattern.trans hq), and_iff_right hsize]
    simp only [hsame, Pattern.wildcard, Pattern.occursIn_whole]
  · have hnone := Pattern.ofText?_wildcardText_of_lt (Nat.lt_of_not_le hsize)
    rw [not_holds_of_pattern_none (.inl hop) (hpattern.trans hnone)]
    exact iff_of_false Bool.false_ne_true fun h => hsize h.1

/-! ## Sizes -/

/-- A wildcard pattern of letters describes itself. -/
theorem glob_letters (n : Nat) : Glob (List.replicate n 'k') (List.replicate n 'k') := by
  induction n with
  | zero => rfl
  | succ n ih =>
      rw [List.replicate_succ, Glob]
      · exact ⟨_, rfl, ih⟩
      all_goals simp

/-- **Large patterns.**  Letters that fit in a wildcard pattern with regard to case, but not in one
without, match a label of the same letters in the first only: the second cannot be made. -/
theorem like_lost_letters {n : Nat} (hsmall : 32 * n + 64 ≤ PatternReading.weightLimit)
    (hlarge : PatternReading.weightLimit < 64 * n + 64) {s : String}
    (hs : s.toList = List.replicate n 'k') :
    (∃ c, make .label .like ⟨false, false⟩ (.text s) = .ok c ∧
      c.holds (.ofAttributes { label := s }) = true) ∧
    make .label .like ⟨true, false⟩ (.text s) = .error (.invalidPattern s) := by
  have hweight : ∀ caseless, (Pattern.wildcard caseless s.toList).weight =
      32 * (1 + caseless.toNat) * n + 64 := by
    intro caseless
    change 32 + ((Pattern.ofWildcard caseless s.toList).weight + 32) = _
    rw [hs, Pattern.weight_ofWildcard_letters]
    omega
  have hfits : (Pattern.wildcard false s.toList).weight ≤ PatternReading.weightLimit :=
    (hweight false).trans_le hsmall
  constructor
  · refine ⟨_, make_like hfits, ?_⟩
    refine (holds_like_iff rfl rfl).mpr ⟨hfits, s, rfl, ?_⟩
    refine (Pattern.spans_ofWildcard s.toList (Nat.zero_le _)).mpr ?_
    rw [List.drop_zero, hs]
    exact glob_letters n
  · exact make_like_of_lt (hlarge.trans_eq (hweight true).symm)

-- 200,000 letters fit in the first and not in the second
example : 32 * 200000 + 64 ≤ PatternReading.weightLimit ∧
    PatternReading.weightLimit < 64 * 200000 + 64 := by
  decide

end Comparison

end ElementFinder
