import ElementFinder.Proofs.Predicate.Literal

/-!
# Comparisons read back

A comparison is written as its key, its operator with the modifiers, and its literal.  The key
ends at the blank after it, the operator at the blank or bracket after it, and no literal begins
like modifiers, so each part is read as it was written.  What is read is then judged again:
`Comparison.make` depends on the kind of the literal and on the text of a pattern, which survive
the reading, so a comparison that could be made can be made again.
-/

namespace ElementFinder

namespace Attribute

/-- The first key of an attribute names it. -/
theorem ofKey?_key (a : Attribute) : ofKey? a.key = some a := by
  cases a <;> decide

/-- The key of an attribute is written with characters of keys. -/
theorem isKeyChar_of_mem_key (a : Attribute) :
    ∀ c ∈ a.key.toList, PredicateReading.isKeyChar c = true := by
  rw [← List.all_eq_true]
  cases a <;> rfl

/-- The key of an attribute begins as keys do. -/
theorem key_head (a : Attribute) :
    ∃ c cs, a.key.toList = c :: cs ∧ PredicateReading.isKeyStart c = true := by
  cases a <;> exact ⟨_, _, rfl, by decide⟩

end Attribute

namespace Comparison

/-- The comparison can be evaluated: its pattern, if it has one, is readable. -/
def IsMade (c : Comparison) : Prop :=
  make c.subject c.operator c.options c.literal = .ok c

/-- What is made has the parts that it is made from. -/
theorem eq_of_make {subject : Attribute} {operator : CompareOperator} {options : CompareOptions}
    {literal : Literal} {c : Comparison} (h : make subject operator options literal = .ok c) :
    c = ⟨subject, operator, options, literal⟩ := by
  simp only [make] at h
  split at h <;> try split at h
  all_goals first | exact (Except.ok.inj h).symm | cases h

/-- What is made can be made. -/
theorem isMade_of_make {subject : Attribute} {operator : CompareOperator}
    {options : CompareOptions} {literal : Literal} {c : Comparison}
    (h : make subject operator options literal = .ok c) : c.IsMade := by
  obtain rfl := eq_of_make h
  exact h

/-- What a draft describes can be made. -/
theorem isMade_of_ofDraft {d : ComparisonDraft} {c : Comparison} (h : ofDraft d = .ok c) :
    c.IsMade := by
  rw [ofDraft] at h
  split at h
  · cases h
  · exact isMade_of_make h

/-- Making a comparison does not depend on how its numbers are held. -/
theorem make_of_eqv {c : Comparison} (hmade : c.IsMade) {literal : Literal}
    (hsame : c.literal.eqv literal = true) :
    make c.subject c.operator c.options literal =
      .ok ⟨c.subject, c.operator, c.options, literal⟩ := by
  obtain ⟨subject, operator, options, original⟩ := c
  cases original with
  | text content =>
      cases literal <;> simp only [Literal.eqv, decide_eq_true_eq, Bool.false_eq_true] at hsame
      subst hsame
      exact hmade
  | number value =>
      cases literal <;> simp only [Literal.eqv, Bool.false_eq_true] at hsame
      cases operator <;> first | rfl | cases hmade
  | bool flag =>
      cases literal <;> simp only [Literal.eqv, Bool.false_eq_true] at hsame
      cases operator <;> first | rfl | cases hmade
  | null =>
      cases literal <;> simp only [Literal.eqv, Bool.false_eq_true] at hsame
      exact hmade
  | list items =>
      cases literal <;> simp only [Literal.eqv, Bool.false_eq_true] at hsame
      cases operator <;> first | rfl | cases hmade

end Comparison

namespace PredicateReading

/-- An operator is read up to the modifiers or the blank after it. -/
theorem readOperator_symbol (operator : CompareOperator) (options : CompareOptions)
    (cs : List Char) :
    readOperator (skipGap (operator.symbol.toList ++ (options.chars ++ ' ' :: cs))) =
      some (operator, options.chars ++ ' ' :: cs) := by
  obtain ⟨caseless, markless⟩ := options
  cases operator <;> cases caseless <;> cases markless <;> rfl

/-- Modifiers are read back. -/
theorem readOptions_chars {options : CompareOptions} (h : options ≠ {}) (cs : List Char) :
    readOptions (skipGap (options.chars ++ ' ' :: cs)) = some (options, ' ' :: cs) := by
  obtain ⟨caseless, markless⟩ := options
  cases caseless <;> cases markless <;> first | exact absurd rfl h | rfl

/-- No literal is read as modifiers. -/
theorem readOptions_of_opens {c : Char} (hc : opens c = true) (cs : List Char) :
    readOptions (c :: cs) = none := by
  have hbracket : c ≠ '[' := ne_of_test hc (by decide)
  simp [readOptions, hbracket]

/-- What is read of a comparison makes a comparison equal to it. -/
def Remakes (c : Comparison) (d : ComparisonDraft) : Prop :=
  ∃ c', Comparison.ofDraft d = .ok c' ∧ c.eqv c' = true

/-- A comparison that could be made is remade from an equal literal. -/
theorem remakes_of_eqv {c : Comparison} (hmade : c.IsMade) {literal : Literal}
    (hsame : c.literal.eqv literal = true) :
    Remakes c ⟨c.subject.key, c.operator, c.options, literal⟩ := by
  refine ⟨⟨c.subject, c.operator, c.options, literal⟩, ?_, ?_⟩
  · rw [Comparison.ofDraft, Attribute.ofKey?_key]
    exact Comparison.make_of_eqv hmade hsame
  · simp [Comparison.eqv, hsame]

/-- The parts of a comparison before its literal are read as they were written. -/
theorem readComparison_chars (c : Comparison) (rest : List Char) :
    ∃ fuel, 2 * c.literal.chars.length ≤ fuel ∧
      readComparison (c.chars ++ rest) =
        (readLiteral fuel (c.literal.chars ++ rest)).map fun (literal, rest) =>
          (⟨c.subject.key, c.operator, c.options, literal⟩, rest) := by
  refine ⟨2 * (c.literal.chars ++ rest).length + 2, by rw [List.length_append]; omega, ?_⟩
  obtain ⟨tail, htail⟩ : ∃ tail, tail = c.literal.chars ++ rest := ⟨_, rfl⟩
  obtain ⟨d, ds, hcons, hopens⟩ := opens_chars c.literal
  have hskip : skipGap (' ' :: tail) = tail := by
    rw [htail, hcons, skipGap_space]
    exact skipGap_cons (not_isGap_of_opens hopens) _
  have hnone : readOptions tail = none := by
    rw [htail, hcons]
    exact readOptions_of_opens hopens _
  obtain ⟨body, hbody⟩ : ∃ body, body =
      c.operator.symbol.toList ++ (c.options.chars ++ ' ' :: tail) := ⟨_, rfl⟩
  have hoperator : readOperator (skipGap (' ' :: body)) =
      some (c.operator, c.options.chars ++ ' ' :: tail) := by
    rw [skipGap_space, hbody]
    exact readOperator_symbol c.operator c.options tail
  have htext : c.chars ++ rest = c.subject.key.toList ++ ' ' :: body := by
    simp [Comparison.chars, hbody, htail]
  have hblank : ∀ c ∈ (' ' :: body).head?, isKeyChar c = false := by
    simp [isKeyChar, isLetter, isDigit]
  have htake := takeWhile_append_of_stop c.subject.isKeyChar_of_mem_key hblank
  have hdrop := dropWhile_append_of_stop c.subject.isKeyChar_of_mem_key hblank
  obtain ⟨k, ks, hkey, hstart⟩ := c.subject.key_head
  have hfirst : c.subject.key.toList ++ ' ' :: body = k :: (ks ++ ' ' :: body) := by
    rw [hkey, List.cons_append]
  rw [hfirst] at htake hdrop
  rw [htext, ← htail, hfirst]
  by_cases hoptions : c.options = {}
  · simp [readComparison, hstart, htake, hdrop, hoperator, hoptions, CompareOptions.chars, hskip,
      hnone]
  · simp [readComparison, hstart, htake, hdrop, hoperator, readOptions_chars hoptions, hskip]

/-- **A comparison is read back from its text**, and only if its numbers are finite. -/
theorem recovers_readComparison {c : Comparison} (hmade : c.IsMade) {rest : List Char}
    (hrest : Ends rest) :
    Recovers (∀ x ∈ c.literal.numbers, x.isFinite = true) (Remakes c) rest
      (readComparison (c.chars ++ rest)) := by
  obtain ⟨fuel, hfuel, hread⟩ := readComparison_chars c rest
  have hliteral := recovers_readLiteral c.literal hrest hfuel
  rw [hread]
  constructor
  · intro hfinite
    obtain ⟨literal, hfound, hsame⟩ := hliteral.found hfinite
    exact ⟨_, by rw [hfound]; rfl, remakes_of_eqv hmade hsame⟩
  · intro hnot
    rw [hliteral.lost hnot]
    rfl

end PredicateReading

end ElementFinder
