import ElementFinder.Proofs.Predicate.Regular

/-!
# Terms read back

A term is what stands between connectives: a constant, a comparison, a negation, or a predicate
that joins others between parentheses.  A term is consumed up to its end or not read at all
(`ReadsTerm`).  A whole predicate, which stands alone or between parentheses, is consumed up to
its end, or the reader stops before the connective of a term that it cannot read (`ReadsWhole`);
neither a parenthesis nor the end of the text is found there, so whoever asked for the predicate
fails as well.

The further terms after a connective are read one after the other in the same way for both
connectives, so `ReadsFurther` states once how, and `ReadsFurther.readsRun` follows a run.
-/

namespace ElementFinder

namespace Formula

variable {α : Type}

mutual

/-- The atoms of a formula, from left to right. -/
def atoms : Formula α → List α
  | constant _ => []
  | atom a => [a]
  | not p => atoms p
  | and terms => atomsOfAll terms
  | or terms => atomsOfAll terms

/-- The atoms of some formulas. -/
def atomsOfAll : List (Formula α) → List α
  | [] => []
  | p :: rest => atoms p ++ atomsOfAll rest

end

/-- The atoms of some formulas are those of each, one after the other. -/
theorem atomsOfAll_eq (terms : List (Formula α)) : atomsOfAll terms = terms.flatMap atoms := by
  induction terms with
  | nil => rfl
  | cons p terms ih => rw [atomsOfAll, ih, List.flatMap_cons]

end Formula

namespace Predicate

/-- The number literals of a predicate. -/
def numbers (p : Predicate) : List Binary64 :=
  (Formula.atoms p).flatMap fun c => c.literal.numbers

/-- Every number literal is finite. -/
def IsFinite (p : Predicate) : Prop :=
  ∀ x ∈ p.numbers, x.isFinite = true

/-- A negation is finite when what it negates is. -/
theorem isFinite_not {p : Predicate} : IsFinite (.not p) ↔ p.IsFinite := by
  simp only [IsFinite, numbers, Formula.atoms]

/-- A conjunction is finite when all its terms are. -/
theorem isFinite_and {terms : List Predicate} :
    IsFinite (.and terms) ↔ ∀ p ∈ terms, p.IsFinite := by
  have hnumbers : numbers (.and terms) = terms.flatMap numbers := by
    simp only [numbers, Formula.atoms, Formula.atomsOfAll_eq, List.flatMap_assoc]
    rfl
  rw [IsFinite, hnumbers, List.forall_mem_flatMap]
  exact Iff.rfl

/-- A disjunction is finite when all its terms are. -/
theorem isFinite_or {terms : List Predicate} :
    IsFinite (.or terms) ↔ ∀ p ∈ terms, p.IsFinite := by
  have hnumbers : numbers (.or terms) = terms.flatMap numbers := by
    simp only [numbers, Formula.atoms, Formula.atomsOfAll_eq, List.flatMap_assoc]
    rfl
  rw [IsFinite, hnumbers, List.forall_mem_flatMap]
  exact Iff.rfl

/-- The text of a term: between parentheses if it joins others. -/
def termChars (p : Predicate) : List Char :=
  Formula.enclosed p p.chars

end Predicate

namespace PredicateReading

open Predicate

/-! ## What is read of a text -/

/-- What is read of a predicate becomes a predicate equal to it when keys and patterns are
judged. -/
def Restores (p : Predicate) (d : Draft) : Prop :=
  ∃ q, d.traverse Comparison.ofDraft = .ok q ∧ p.eqv q = true

/-- What is read of some predicates, one for each. -/
def RestoresAll (ps : List Predicate) (ds : List Draft) : Prop :=
  ∃ qs, Formula.traverseAll Comparison.ofDraft ds = .ok qs ∧
    Formula.eqvAll Comparison.eqv ps qs = true

/-- Nothing is restored from nothing. -/
theorem restoresAll_nil : RestoresAll [] [] :=
  ⟨[], rfl, rfl⟩

/-- One more predicate is restored from one more draft. -/
theorem Restores.cons {p : Predicate} {ps : List Predicate} {d : Draft} {ds : List Draft}
    (h : Restores p d) (hs : RestoresAll ps ds) : RestoresAll (p :: ps) (d :: ds) := by
  obtain ⟨q, hq, hsame⟩ := h
  obtain ⟨qs, hqs, hsames⟩ := hs
  refine ⟨q :: qs, ?_, ?_⟩
  · rw [Formula.traverseAll, hq, hqs]
    rfl
  · rw [Formula.eqvAll, Bool.and_eq_true]
    exact ⟨hsame, hsames⟩

/-- A negation is restored from the negation of a draft. -/
theorem Restores.not {p : Predicate} {d : Draft} (h : Restores p d) :
    Restores (.not p) (.not d) := by
  obtain ⟨q, hq, hsame⟩ := h
  exact ⟨.not q, by rw [Formula.traverse, hq]; rfl, hsame⟩

/-- A conjunction is restored from the drafts of its terms. -/
theorem RestoresAll.and {ps : List Predicate} {ds : List Draft} (h : RestoresAll ps ds) :
    Restores (.and ps) (.and ds) := by
  obtain ⟨qs, hqs, hsame⟩ := h
  exact ⟨.and qs, by rw [Formula.traverse, hqs]; rfl, hsame⟩

/-- A disjunction is restored from the drafts of its terms. -/
theorem RestoresAll.or {ps : List Predicate} {ds : List Draft} (h : RestoresAll ps ds) :
    Restores (.or ps) (.or ds) := by
  obtain ⟨qs, hqs, hsame⟩ := h
  exact ⟨.or qs, by rw [Formula.traverse, hqs]; rfl, hsame⟩

/-- The end of the text or a closing parenthesis comes next. -/
def Closes (rest : List Char) : Prop :=
  rest = [] ∨ ∃ more, rest = ')' :: more

/-- Something other than a closing parenthesis is left. -/
def Stuck (rest : List Char) : Prop :=
  ∃ c more, skipGap rest = c :: more ∧ c ≠ ')'

/-- No key goes on where the text ends or a parenthesis closes. -/
theorem Closes.ends {rest : List Char} (h : Closes rest) : Ends rest := by
  rcases h with rfl | ⟨more, rfl⟩
  · exact ends_nil
  · exact ends_cons (by decide)

/-- A term is read up to its end if it is finite, and otherwise not at all. -/
structure ReadsTerm (p : Predicate) : Prop where
  recovers : ∀ (fuel : Nat) {rest : List Char}, Ends rest → 4 * p.termChars.length ≤ fuel →
    Recovers p.IsFinite (Restores p) rest (readTerm fuel (p.termChars ++ rest))

/-- A whole predicate is read up to its end if it is finite, and otherwise the reader gets
stuck. -/
structure ReadsWhole (p : Predicate) : Prop where
  found : p.IsFinite → ∀ (fuel : Nat) {rest : List Char}, Closes rest →
    4 * p.chars.length + 2 ≤ fuel →
    ∃ d, readOr fuel (p.chars ++ rest) = some (d, rest) ∧ Restores p d
  stuck : ¬ p.IsFinite → ∀ (fuel : Nat) {rest : List Char}, Closes rest →
    4 * p.chars.length + 2 ≤ fuel →
    ∀ {d more}, readOr fuel (p.chars ++ rest) = some (d, more) → Stuck more

/-! ## Runs of terms -/

/-- A connective between blanks. -/
def separator (word : String) : List Char :=
  ' ' :: word.toList ++ [' ']

/-- The texts of the further terms with the connective before each. -/
def furtherTerms (word : String) (ps : List Predicate) : List Char :=
  ps.flatMap fun p => separator word ++ p.termChars

/-- Joined terms are the first one and then the further ones, each after the connective. -/
theorem charsOfAll_terms (word : String) (p : Predicate) (ps : List Predicate) :
    Formula.charsOfAll Comparison.chars (separator word) (p :: ps) =
      p.termChars ++ furtherTerms word ps := by
  induction ps generalizing p with
  | nil => simp [Formula.charsOfAll, furtherTerms, termChars, Predicate.chars]
  | cons q ps ih =>
      rw [Formula.charsOfAll, ih]
      · simp [furtherTerms, termChars, Predicate.chars]
      · simp

/-- How the further terms of a connective are read one after the other. -/
structure ReadsFurther (word symbol : String)
    (read : Nat → List Char → Option (Draft × List Char))
    (further : Nat → List Char → List Draft × List Char) : Prop where
  taken : ∀ cs, takeConnective word symbol (skipGap (separator word ++ cs)) = some (' ' :: cs)
  stop : ∀ fuel cs, takeConnective word symbol (skipGap cs) = none → further fuel cs = ([], cs)
  lost : ∀ fuel cs more, takeConnective word symbol (skipGap cs) = some more →
    read fuel (skipGap more) = none → further (fuel + 1) cs = ([], cs)
  found : ∀ fuel cs more d rest, takeConnective word symbol (skipGap cs) = some more →
    read fuel (skipGap more) = some (d, rest) →
    further (fuel + 1) cs = (d :: (further fuel rest).1, (further fuel rest).2)

/-- The further terms of a conjunction are read as terms. -/
theorem readsFurther_and : ReadsFurther "AND" "&&" readTerm readAndTail where
  taken := fun cs => rfl
  stop := by
    intro fuel cs h
    cases fuel with
    | zero => rfl
    | succ fuel => simp [readAndTail, h]
  lost := by
    intro fuel cs more h hlost
    simp [readAndTail, h, hlost]
  found := by
    intro fuel cs more d rest h hfound
    simp [readAndTail, h, hfound]

/-- The further terms of a disjunction are read as conjunctions. -/
theorem readsFurther_or : ReadsFurther "OR" "||" readAnd readOrTail where
  taken := fun cs => rfl
  stop := by
    intro fuel cs h
    cases fuel with
    | zero => rfl
    | succ fuel => simp [readOrTail, h]
  lost := by
    intro fuel cs more h hlost
    simp [readOrTail, h, hlost]
  found := by
    intro fuel cs more d rest h hfound
    simp [readOrTail, h, hfound]

/-- The text of a conjunction is that of its first term and of the further ones. -/
theorem chars_and (p : Predicate) (ps : List Predicate) :
    Predicate.chars (.and (p :: ps)) = p.termChars ++ furtherTerms "AND" ps :=
  charsOfAll_terms "AND" p ps

/-- The text of a disjunction is that of its first term and of the further ones. -/
theorem chars_or (p : Predicate) (ps : List Predicate) :
    Predicate.chars (.or (p :: ps)) = p.termChars ++ furtherTerms "OR" ps :=
  charsOfAll_terms "OR" p ps

/-- No key begins with a blank. -/
theorem not_isGap_of_isKeyStart {c : Char} (h : isKeyStart c = true) : isGap c = false := by
  have hne : ∀ d, isKeyStart d = false → c ≠ d := fun d => ne_of_test h
  simp [isGap, hne ' ' (by decide), hne '\t' (by decide), hne '\r' (by decide),
    hne '\n' (by decide)]

/-- The text begins with no blank. -/
def BeginsSolid (cs : List Char) : Prop :=
  ∃ c more, cs = c :: more ∧ isGap c = false

/-- What follows does not change how a text begins. -/
theorem BeginsSolid.append {cs : List Char} (h : BeginsSolid cs) (rest : List Char) :
    BeginsSolid (cs ++ rest) := by
  obtain ⟨c, more, rfl, hc⟩ := h
  exact ⟨c, more ++ rest, rfl, hc⟩

/-- There is no gap to skip before a text that begins with no blank. -/
theorem BeginsSolid.skipGap {cs : List Char} (h : BeginsSolid cs) : skipGap cs = cs := by
  obtain ⟨c, more, rfl, hc⟩ := h
  exact skipGap_cons hc more

/-- Parentheses around a text do not make it begin with a blank. -/
theorem BeginsSolid.termChars {p : Predicate} (h : BeginsSolid p.chars) :
    BeginsSolid p.termChars := by
  cases p with
  | and terms => exact ⟨'(', _, rfl, by decide⟩
  | or terms => exact ⟨'(', _, rfl, by decide⟩
  | constant value => exact h
  | atom c => exact h
  | not q => exact h

/-- The text of a regular predicate begins with no blank. -/
theorem beginsSolid_chars {p : Predicate} (hp : p.IsRegular) : BeginsSolid p.chars := by
  induction hp with
  | constant value => cases value <;> exact ⟨_, _, rfl, by decide⟩
  | @atom c hmade =>
      obtain ⟨k, ks, hkey, hstart⟩ := c.subject.key_head
      have hchars : Predicate.chars (.atom c) = c.chars := rfl
      rw [hchars, Comparison.chars, hkey]
      exact ⟨k, _, rfl, not_isGap_of_isKeyStart hstart⟩
  | not hq ih => exact ⟨'N', _, rfl, by decide⟩
  | @and terms several hall ih =>
      cases terms with
      | nil => simp at several
      | cons p ps =>
          rw [chars_and]
          exact (ih p List.mem_cons_self).termChars.append _
  | @or terms several hall ih =>
      cases terms with
      | nil => simp at several
      | cons p ps =>
          rw [chars_or]
          exact (ih p List.mem_cons_self).termChars.append _

/-- What is read of the further terms: one draft for each if they are finite, and otherwise the
reader stops before a connective. -/
structure ReadsRun (word : String) (ps : List Predicate) (rest : List Char)
    (result : List Draft × List Char) : Prop where
  found : (∀ p ∈ ps, p.IsFinite) → ∃ ds, result = (ds, rest) ∧ RestoresAll ps ds
  stuck : ¬ (∀ p ∈ ps, p.IsFinite) → ∃ ds more, result = (ds, separator word ++ more)

section Runs

variable {word symbol : String} {read : Nat → List Char → Option (Draft × List Char)}
  {further : Nat → List Char → List Draft × List Char}

/-- If each term is recovered before what may follow it, the further terms are read as a run. -/
theorem ReadsFurther.readsRun (h : ReadsFurther word symbol read further)
    (follows : List Char → Prop)
    (hseparator : ∀ cs, follows (separator word ++ cs)) {rest : List Char} (hrest : follows rest)
    (hstop : takeConnective word symbol (skipGap rest) = none) {ps : List Predicate}
    (hregular : ∀ p ∈ ps, p.IsRegular)
    (hread : ∀ p ∈ ps, ∀ fuel {rest}, follows rest → 4 * p.termChars.length + 1 ≤ fuel →
      Recovers p.IsFinite (Restores p) rest (read fuel (p.termChars ++ rest)))
    (fuel : Nat) (hfuel : 4 * (furtherTerms word ps).length ≤ fuel) :
    ReadsRun word ps rest (further fuel (furtherTerms word ps ++ rest)) := by
  induction ps generalizing fuel with
  | nil =>
      have hnothing : further fuel (furtherTerms word [] ++ rest) = ([], rest) := h.stop _ _ hstop
      exact ⟨fun _ => ⟨[], hnothing, restoresAll_nil⟩, fun hnot => absurd (by simp) hnot⟩
  | cons p ps ih =>
      obtain ⟨hp, hps⟩ := List.forall_mem_cons.mp hregular
      have htext : furtherTerms word (p :: ps) ++ rest =
          separator word ++ (p.termChars ++ (furtherTerms word ps ++ rest)) := by
        simp [furtherTerms]
      have hlength : (furtherTerms word (p :: ps)).length =
          word.toList.length + 2 + p.termChars.length + (furtherTerms word ps).length := by
        simp [furtherTerms, separator]
        omega
      obtain ⟨fuel, rfl⟩ : ∃ k, fuel = k + 1 := ⟨fuel - 1, by omega⟩
      -- the text after a term is another separator or what follows the run
      have hfollows : follows (furtherTerms word ps ++ rest) := by
        cases ps with
        | nil => exact hrest
        | cons q ps =>
            rw [furtherTerms, List.flatMap_cons, List.append_assoc, List.append_assoc]
            exact hseparator _
      have htaken := h.taken (p.termChars ++ (furtherTerms word ps ++ rest))
      have hgap : skipGap (' ' :: (p.termChars ++ (furtherTerms word ps ++ rest))) =
          p.termChars ++ (furtherTerms word ps ++ rest) := by
        rw [skipGap_space]
        exact ((beginsSolid_chars hp).termChars.append _).skipGap
      have hterm := hread p List.mem_cons_self fuel hfollows (by omega)
      have hrun := ih hps (fun q hq => hread q (List.mem_cons_of_mem p hq)) fuel (by omega)
      rw [htext]
      constructor
      · intro hfinite
        obtain ⟨hfirst, hothers⟩ := List.forall_mem_cons.mp hfinite
        obtain ⟨d, hd, hrestores⟩ := hterm.found hfirst
        obtain ⟨ds, hds, hall⟩ := hrun.found hothers
        refine ⟨d :: ds, ?_, hrestores.cons hall⟩
        rw [h.found _ _ _ d _ htaken (by rw [hgap]; exact hd), hds]
      · intro hnot
        by_cases hfirst : p.IsFinite
        · obtain ⟨d, hd, -⟩ := hterm.found hfirst
          obtain ⟨ds, more, hds⟩ := hrun.stuck fun hothers =>
            hnot (List.forall_mem_cons.mpr ⟨hfirst, hothers⟩)
          refine ⟨d :: ds, more, ?_⟩
          rw [h.found _ _ _ d _ htaken (by rw [hgap]; exact hd), hds]
        · have hlost := hterm.lost hfirst
          exact ⟨[], _, h.lost _ _ _ htaken (by rw [hgap]; exact hlost)⟩

end Runs

/-! ## Terms -/

section Terms

variable {fuel : Nat} {cs rest : List Char}

/-- After the word or sign for it a negation is read. -/
theorem readTerm_negation {rest' : List Char} (h : takeConnective "NOT" "!" cs = some rest') :
    readTerm (fuel + 1) cs =
      (readTerm fuel (skipGap rest')).map fun (p, rest) => (.not p, rest) := by
  simp [readTerm, h]

/-- A constant is read as a term. -/
theorem readTerm_of_constant {c : Char} {value : Bool}
    (hnone : takeConnective "NOT" "!" (c :: cs) = none) (hparen : c ≠ '(')
    (h : takeFirst constants (c :: cs) = some (value, rest)) :
    readTerm (fuel + 1) (c :: cs) = some (.constant value, rest) := by
  simp [readTerm, hnone, hparen, h]

/-- What is neither a negation, a parenthesis nor a constant is read as a comparison. -/
theorem readTerm_of_comparison {c : Char} (hnone : takeConnective "NOT" "!" (c :: cs) = none)
    (hparen : c ≠ '(') (h : takeFirst constants (c :: cs) = none) :
    readTerm (fuel + 1) (c :: cs) =
      (readComparison (c :: cs)).map fun (d, rest) => (.atom d, rest) := by
  simp [readTerm, hnone, hparen, h]

/-- A constant is read back. -/
theorem readTerm_constant (value : Bool) (hrest : Ends rest) :
    readTerm (fuel + 1) (Predicate.chars (.constant value) ++ rest) =
      some (.constant value, rest) := by
  cases value with
  | true =>
      have htake : takeFirst constants ("TRUEPREDICATE".toList ++ rest) = some (true, rest) :=
        takeFirst_append (by decide) (by simp [constants]) hrest
      exact readTerm_of_constant rfl (by decide) htake
  | false =>
      have htake : takeFirst constants ("FALSEPREDICATE".toList ++ rest) = some (false, rest) :=
        takeFirst_append (by decide) (by simp [constants]) hrest
      exact readTerm_of_constant rfl (by decide) htake

/-- No key is taken for a negation or a constant, so a comparison is read as one. -/
theorem readTerm_atom (c : Comparison) :
    readTerm (fuel + 1) (c.chars ++ rest) =
      (readComparison (c.chars ++ rest)).map fun (d, rest) => (.atom d, rest) := by
  obtain ⟨tail, htail⟩ : ∃ tail, c.chars ++ rest = c.subject.key.toList ++ tail :=
    ⟨_, by rw [Comparison.chars]; simp only [List.append_assoc]; rfl⟩
  have hword : takeKeyword "NOT" (c.subject.key.toList ++ tail) = none :=
    takeKeyword_eq_none (by cases c.subject <;> decide) tail
  have hconstant : takeFirst constants (c.subject.key.toList ++ tail) = none :=
    takeFirst_eq_none (by cases c.subject <;> decide) tail
  obtain ⟨k, ks, hkey, hstart⟩ := c.subject.key_head
  have hmark : k ≠ '!' := ne_of_test hstart (by decide)
  have hparen : k ≠ '(' := ne_of_test hstart (by decide)
  rw [htail]
  rw [hkey, List.cons_append] at hword hconstant ⊢
  exact readTerm_of_comparison (by simp [takeConnective, hword, hmark.symm]) hparen hconstant

/-- A whole predicate between parentheses is read like a term. -/
theorem ReadsWhole.recovers_paren {p : Predicate} (h : ReadsWhole p) (hp : p.IsRegular)
    (fuel : Nat) (rest : List Char) (hfuel : 4 * p.chars.length + 3 ≤ fuel) :
    Recovers p.IsFinite (Restores p) rest
      (readTerm fuel ('(' :: p.chars ++ [')'] ++ rest)) := by
  obtain ⟨fuel, rfl⟩ : ∃ k, fuel = k + 1 := ⟨fuel - 1, by omega⟩
  have hcloses : Closes (')' :: rest) := .inr ⟨rest, rfl⟩
  have htext : '(' :: p.chars ++ [')'] ++ rest = '(' :: (p.chars ++ ')' :: rest) := by simp
  have hgap : skipGap (p.chars ++ ')' :: rest) = p.chars ++ ')' :: rest :=
    ((beginsSolid_chars hp).append _).skipGap
  have hnone : takeConnective "NOT" "!" ('(' :: (p.chars ++ ')' :: rest)) = none := rfl
  rw [htext]
  constructor
  · intro hfinite
    obtain ⟨d, hd, hrestores⟩ := h.found hfinite fuel hcloses (by omega)
    have hclose : skipGap (')' :: rest) = ')' :: rest := skipGap_cons (by decide) rest
    exact ⟨d, by simp [readTerm, hnone, hgap, hd, hclose], hrestores⟩
  · intro hnot
    cases hread : readOr fuel (p.chars ++ ')' :: rest) with
    | none => simp [readTerm, hnone, hgap, hread]
    | some found =>
        obtain ⟨c, more, hskip, hne⟩ := h.stuck hnot fuel hcloses (by omega) hread
        simp [readTerm, hnone, hgap, hread, hskip, hne]

end Terms

/-- A constant is read back. -/
theorem readsTerm_constant (value : Bool) : ReadsTerm (.constant value) := by
  constructor
  intro fuel rest hrest hfuel
  obtain ⟨fuel, rfl⟩ : ∃ k, fuel = k + 1 := by
    have hlength : 0 < (termChars (.constant value)).length := by cases value <;> decide
    exact ⟨fuel - 1, by omega⟩
  refine recovers_of_eq (a := .constant value) ?_ (readTerm_constant value hrest) ?_
  · intro x hx
    cases hx
  · exact ⟨.constant value, rfl, by simp [Predicate.eqv, Formula.eqv]⟩

/-- A comparison that could be made is read back, and only if its numbers are finite. -/
theorem readsTerm_atom {c : Comparison} (hmade : c.IsMade) : ReadsTerm (.atom c) := by
  constructor
  intro fuel rest hrest hfuel
  have hchars : termChars (.atom c) = c.chars := rfl
  rw [hchars] at hfuel ⊢
  obtain ⟨fuel, rfl⟩ : ∃ k, fuel = k + 1 := by
    have hlength : 0 < c.chars.length := by
      rw [Comparison.chars, List.length_append, List.length_cons]
      omega
    exact ⟨fuel - 1, by omega⟩
  have hread := recovers_readComparison hmade hrest
  have hfinite : IsFinite (.atom c) ↔ ∀ x ∈ c.literal.numbers, x.isFinite = true := by
    simp [IsFinite, numbers, Formula.atoms]
  rw [readTerm_atom]
  constructor
  · intro h
    obtain ⟨d, hd, c', hc', hsame⟩ := hread.found (hfinite.mp h)
    refine ⟨.atom d, by rw [hd]; rfl, .atom c', ?_, ?_⟩
    · rw [Formula.traverse, hc']
      rfl
    · exact hsame
  · intro h
    rw [hread.lost fun hall => h (hfinite.mpr hall)]
    rfl

/-- A negation is a whole predicate between parentheses after a keyword. -/
theorem ReadsWhole.readsTerm_not {p : Predicate} (h : ReadsWhole p) (hp : p.IsRegular) :
    ReadsTerm (.not p) := by
  constructor
  intro fuel rest hrest hfuel
  have hchars : termChars (.not p) = "NOT ".toList ++ ('(' :: p.chars ++ [')']) := rfl
  rw [hchars] at hfuel ⊢
  simp only [List.length_append, List.length_cons, List.length_nil] at hfuel
  obtain ⟨fuel, rfl⟩ : ∃ k, fuel = k + 1 := ⟨fuel - 1, by omega⟩
  have hinner := h.recovers_paren hp fuel rest (by omega)
  have htaken : takeConnective "NOT" "!" ("NOT ".toList ++ ('(' :: p.chars ++ [')']) ++ rest) =
      some (' ' :: ('(' :: p.chars ++ [')'] ++ rest)) := rfl
  have hgap : skipGap (' ' :: ('(' :: p.chars ++ [')'] ++ rest)) =
      '(' :: p.chars ++ [')'] ++ rest := by
    rw [skipGap_space]
    exact skipGap_cons (by decide) _
  rw [readTerm_negation htaken, hgap]
  constructor
  · intro hfinite
    obtain ⟨d, hd, hrestores⟩ := hinner.found (isFinite_not.mp hfinite)
    exact ⟨.not d, by rw [hd]; rfl, hrestores.not⟩
  · intro hnot
    rw [hinner.lost fun hfinite => hnot (isFinite_not.mpr hfinite)]
    rfl

end PredicateReading

end ElementFinder
