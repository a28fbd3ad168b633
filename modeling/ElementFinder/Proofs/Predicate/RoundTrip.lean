import ElementFinder.Proofs.Predicate.Terms

/-!
# Predicates read back

The text of a predicate is read back as a predicate equal to it, exactly when its numbers are
finite.

Terms and whole predicates are followed together, by induction on the predicate: a term that
joins others is a whole predicate between parentheses, and a whole predicate is a first term and
a run of further ones.  When the numbers are finite the reader reaches the end of the text; when
one of them is not, it gets stuck before the term with that number, in every conjunction,
disjunction and parenthesis around it.
-/

namespace ElementFinder

namespace PredicateReading

open Predicate

/-! ## Whole predicates -/

section Wholes

variable {fuel : Nat} {cs rest more : List Char} {d : Draft} {ds : List Draft}

/-- Without a first term no conjunction is read. -/
theorem readAnd_of_lost (h : readTerm fuel cs = none) : readAnd (fuel + 1) cs = none := by
  simp [readAnd, h]

/-- A conjunction is its first term and the further ones. -/
theorem readAnd_of_found (h : readTerm fuel cs = some (d, more))
    (hs : readAndTail fuel more = (ds, rest)) :
    readAnd (fuel + 1) cs = some (Formula.joined .and (d :: ds), rest) := by
  simp [readAnd, h, hs]

/-- Without a first term no disjunction is read. -/
theorem readOr_of_lost (h : readAnd fuel cs = none) : readOr (fuel + 1) cs = none := by
  simp [readOr, h]

/-- A disjunction is its first term and the further ones. -/
theorem readOr_of_found (h : readAnd fuel cs = some (d, more))
    (hs : readOrTail fuel more = (ds, rest)) :
    readOr (fuel + 1) cs = some (Formula.joined .or (d :: ds), rest) := by
  simp [readOr, h, hs]

/-- Before the end no connective is found. -/
theorem Closes.takeConnective (h : Closes rest) :
    takeConnective "AND" "&&" (skipGap rest) = none ∧
      takeConnective "OR" "||" (skipGap rest) = none := by
  rcases h with rfl | ⟨more, rfl⟩ <;> exact ⟨rfl, rfl⟩

/-- Where no conjunction goes on a term is read by itself. -/
theorem ReadsTerm.recovers_readAnd {p : Predicate} (h : ReadsTerm p) (hrest : Ends rest)
    (hstop : takeConnective "AND" "&&" (skipGap rest) = none)
    (hfuel : 4 * p.termChars.length + 1 ≤ fuel) :
    Recovers p.IsFinite (Restores p) rest (readAnd fuel (p.termChars ++ rest)) := by
  obtain ⟨fuel, rfl⟩ : ∃ k, fuel = k + 1 := ⟨fuel - 1, by omega⟩
  have hterm := h.recovers fuel hrest (by omega)
  constructor
  · intro hfinite
    obtain ⟨d, hd, hrestores⟩ := hterm.found hfinite
    exact ⟨d, readAnd_of_found hd (readsFurther_and.stop _ _ hstop), hrestores⟩
  · intro hnot
    exact readAnd_of_lost (hterm.lost hnot)

/-- A predicate that is a single term is read as a whole like the term. -/
theorem ReadsTerm.readsWhole {p : Predicate} (h : ReadsTerm p) (hchars : p.termChars = p.chars) :
    ReadsWhole p := by
  have hread : ∀ {fuel rest}, Closes rest → 4 * p.chars.length + 2 ≤ fuel + 1 →
      Recovers p.IsFinite (Restores p) rest (readAnd fuel (p.chars ++ rest)) := by
    intro fuel rest hrest hfuel
    rw [← hchars] at hfuel ⊢
    exact h.recovers_readAnd hrest.ends hrest.takeConnective.1 (by omega)
  constructor
  · intro hfinite fuel rest hrest hfuel
    obtain ⟨fuel, rfl⟩ : ∃ k, fuel = k + 1 := ⟨fuel - 1, by omega⟩
    obtain ⟨d, hd, hrestores⟩ := (hread hrest hfuel).found hfinite
    exact ⟨d, readOr_of_found hd (readsFurther_or.stop _ _ hrest.takeConnective.2), hrestores⟩
  · intro hnot fuel rest hrest hfuel d more hsome
    obtain ⟨fuel, rfl⟩ : ∃ k, fuel = k + 1 := ⟨fuel - 1, by omega⟩
    rw [readOr_of_lost ((hread hrest hfuel).lost hnot)] at hsome
    cases hsome

/-- A predicate that joins terms is read as a term like the whole between parentheses. -/
theorem ReadsWhole.readsTerm {p : Predicate} (h : ReadsWhole p) (hp : p.IsRegular)
    (hchars : p.termChars = '(' :: p.chars ++ [')']) : ReadsTerm p := by
  constructor
  intro fuel rest _ hfuel
  rw [hchars] at hfuel ⊢
  simp only [List.length_append, List.length_cons, List.length_nil] at hfuel
  exact h.recovers_paren hp fuel rest (by omega)

/-- As many drafts are restored as there are predicates. -/
theorem RestoresAll.ne_nil {ps : List Predicate} (h : RestoresAll ps ds) (hps : ps ≠ []) :
    ds ≠ [] := by
  rintro rfl
  obtain ⟨qs, hqs, hsame⟩ := h
  obtain rfl := Except.ok.inj hqs
  cases ps with
  | nil => exact hps rfl
  | cons p ps => cases hsame

/-- Several drafts are joined by the connective. -/
theorem joined_of_ne_nil (join : List Draft → Draft) (h : ds ≠ []) :
    Formula.joined join (d :: ds) = join (d :: ds) := by
  cases ds with
  | nil => exact absurd rfl h
  | cons e ds => rfl

/-- Several terms are a first one and further ones. -/
theorem exists_cons_of_several {terms : List Predicate} (several : 2 ≤ terms.length) :
    ∃ p ps, terms = p :: ps ∧ ps ≠ [] := by
  match terms, several with
  | p :: q :: ps, _ => exact ⟨p, q :: ps, rfl, List.cons_ne_nil q ps⟩

/-- The text after the first term is a connective or what follows the whole. -/
theorem Closes.ends_further (h : Closes rest) (word : String) (ps : List Predicate) :
    Ends (furtherTerms word ps ++ rest) := by
  cases ps with
  | nil => exact h.ends
  | cons p ps => exact ends_cons (c := ' ') (by decide)

/-- What is read of a first term and the further ones: everything if all are finite, and
otherwise nothing, or the reader stops before a connective. -/
structure ReadsTerms (word : String) (ps : List Predicate) (rest : List Char)
    (first : Option (Draft × List Char)) (further : List Char → List Draft × List Char) :
    Prop where
  found : (∀ p ∈ ps, p.IsFinite) → ∃ d more ds, first = some (d, more) ∧
    further more = (ds, rest) ∧ ds ≠ [] ∧ RestoresAll ps (d :: ds)
  stuck : ¬ (∀ p ∈ ps, p.IsFinite) → first = none ∨ ∃ d more ds left, first = some (d, more) ∧
    further more = (ds, separator word ++ left)

/-- A first term that is recovered and a run of further ones are read as several terms. -/
theorem ReadsRun.readsTerms {word : String} {p : Predicate} {ps : List Predicate} (hps : ps ≠ [])
    {first : Option (Draft × List Char)} {further : List Char → List Draft × List Char}
    (hfirst : Recovers p.IsFinite (Restores p) more first)
    (hrun : ReadsRun word ps rest (further more)) :
    ReadsTerms word (p :: ps) rest first further := by
  constructor
  · intro hfinite
    obtain ⟨hfinite, hfinites⟩ := List.forall_mem_cons.mp hfinite
    obtain ⟨d, hd, hrestores⟩ := hfirst.found hfinite
    obtain ⟨ds, hds, hall⟩ := hrun.found hfinites
    exact ⟨d, more, ds, hd, hds, hall.ne_nil hps, hrestores.cons hall⟩
  · intro hnot
    by_cases hfinite : p.IsFinite
    · obtain ⟨d, hd, -⟩ := hfirst.found hfinite
      obtain ⟨ds, left, hds⟩ := hrun.stuck fun hfinites =>
        hnot (List.forall_mem_cons.mpr ⟨hfinite, hfinites⟩)
      exact .inr ⟨d, more, ds, left, hd, hds⟩
    · exact .inl (hfirst.lost hfinite)

/-- The terms of a conjunction are read in one go. -/
theorem readsTerms_and {p : Predicate} {ps : List Predicate} (hps : ps ≠ [])
    (hregular : ∀ q ∈ p :: ps, q.IsRegular) (hterms : ∀ q ∈ p :: ps, ReadsTerm q)
    (fuel : Nat) (hrest : Closes rest)
    (hfuel : 4 * (Predicate.chars (.and (p :: ps))).length ≤ fuel) :
    ReadsTerms "AND" (p :: ps) rest
      (readTerm fuel (Predicate.chars (.and (p :: ps)) ++ rest)) (readAndTail fuel) := by
  obtain ⟨hp, hothers⟩ := List.forall_mem_cons.mp hterms
  rw [chars_and, List.length_append] at hfuel
  rw [chars_and, List.append_assoc]
  apply ReadsRun.readsTerms hps
  · exact hp.recovers fuel (hrest.ends_further "AND" ps) (by omega)
  · apply readsFurther_and.readsRun Ends (fun cs => ends_cons (by decide)) hrest.ends
      hrest.takeConnective.1 (List.forall_mem_cons.mp hregular).2
    · intro q hq fuel rest hends hfuel
      exact (hothers q hq).recovers fuel hends (by omega)
    · omega

/-- The terms of a disjunction are read in one go, each like a conjunction. -/
theorem readsTerms_or {p : Predicate} {ps : List Predicate} (hps : ps ≠ [])
    (hregular : ∀ q ∈ p :: ps, q.IsRegular) (hterms : ∀ q ∈ p :: ps, ReadsTerm q)
    (fuel : Nat) (hrest : Closes rest)
    (hfuel : 4 * (Predicate.chars (.or (p :: ps))).length + 1 ≤ fuel) :
    ReadsTerms "OR" (p :: ps) rest
      (readAnd fuel (Predicate.chars (.or (p :: ps)) ++ rest)) (readOrTail fuel) := by
  obtain ⟨hp, hothers⟩ := List.forall_mem_cons.mp hterms
  rw [chars_or, List.length_append] at hfuel
  rw [chars_or, List.append_assoc]
  apply ReadsRun.readsTerms hps
  · apply hp.recovers_readAnd (hrest.ends_further "OR" ps) _ (by omega)
    -- the first connective is not that of a conjunction
    cases ps with
    | nil => exact absurd rfl hps
    | cons q ps => rfl
  · apply readsFurther_or.readsRun
      (fun cs => Ends cs ∧ takeConnective "AND" "&&" (skipGap cs) = none)
      (fun cs => ⟨ends_cons (by decide), rfl⟩) ⟨hrest.ends, hrest.takeConnective.1⟩
      hrest.takeConnective.2 (List.forall_mem_cons.mp hregular).2
    · intro q hq fuel rest hfollows hfuel
      exact (hothers q hq).recovers_readAnd hfollows.1 hfollows.2 hfuel
    · omega

/-- A conjunction of several terms is read back. -/
theorem readsWhole_and {terms : List Predicate} (several : 2 ≤ terms.length)
    (hregular : ∀ p ∈ terms, p.IsRegular) (hterms : ∀ p ∈ terms, ReadsTerm p) :
    ReadsWhole (.and terms) := by
  obtain ⟨p, ps, rfl, hps⟩ := exists_cons_of_several several
  constructor
  · intro hfinite fuel rest hrest hfuel
    obtain ⟨fuel, rfl⟩ : ∃ k, fuel = k + 2 := ⟨fuel - 2, by omega⟩
    have hread := readsTerms_and hps hregular hterms fuel hrest (by omega)
    obtain ⟨d, more, ds, hd, hds, hne, hall⟩ := hread.found (isFinite_and.mp hfinite)
    have hand := readAnd_of_found hd hds
    rw [joined_of_ne_nil _ hne] at hand
    exact ⟨.and (d :: ds), readOr_of_found hand (readsFurther_or.stop _ _ hrest.takeConnective.2),
      hall.and⟩
  · intro hnot fuel rest hrest hfuel d' left hsome
    obtain ⟨fuel, rfl⟩ : ∃ k, fuel = k + 2 := ⟨fuel - 2, by omega⟩
    have hread := readsTerms_and hps hregular hterms fuel hrest (by omega)
    rcases hread.stuck fun hfinites => hnot (isFinite_and.mpr hfinites) with
      hlost | ⟨d, more, ds, left', hd, hds⟩
    · rw [readOr_of_lost (readAnd_of_lost hlost)] at hsome
      cases hsome
    · -- a disjunction does not go on where the conjunction got stuck
      have hnone : takeConnective "OR" "||" (skipGap (separator "AND" ++ left')) = none := rfl
      rw [readOr_of_found (readAnd_of_found hd hds) (readsFurther_or.stop _ _ hnone)] at hsome
      obtain ⟨-, rfl⟩ := Prod.mk.inj (Option.some.inj hsome)
      exact ⟨'A', _, rfl, by decide⟩

/-- A disjunction of several terms is read back. -/
theorem readsWhole_or {terms : List Predicate} (several : 2 ≤ terms.length)
    (hregular : ∀ p ∈ terms, p.IsRegular) (hterms : ∀ p ∈ terms, ReadsTerm p) :
    ReadsWhole (.or terms) := by
  obtain ⟨p, ps, rfl, hps⟩ := exists_cons_of_several several
  constructor
  · intro hfinite fuel rest hrest hfuel
    obtain ⟨fuel, rfl⟩ : ∃ k, fuel = k + 1 := ⟨fuel - 1, by omega⟩
    have hread := readsTerms_or hps hregular hterms fuel hrest (by omega)
    obtain ⟨d, more, ds, hd, hds, hne, hall⟩ := hread.found (isFinite_or.mp hfinite)
    have hor := readOr_of_found hd hds
    rw [joined_of_ne_nil _ hne] at hor
    exact ⟨.or (d :: ds), hor, hall.or⟩
  · intro hnot fuel rest hrest hfuel d' left hsome
    obtain ⟨fuel, rfl⟩ : ∃ k, fuel = k + 1 := ⟨fuel - 1, by omega⟩
    have hread := readsTerms_or hps hregular hterms fuel hrest (by omega)
    rcases hread.stuck fun hfinites => hnot (isFinite_or.mpr hfinites) with
      hlost | ⟨d, more, ds, left', hd, hds⟩
    · rw [readOr_of_lost hlost] at hsome
      cases hsome
    · rw [readOr_of_found hd hds] at hsome
      obtain ⟨-, rfl⟩ := Prod.mk.inj (Option.some.inj hsome)
      exact ⟨'O', _, rfl, by decide⟩

end Wholes

/-- **Terms and whole predicates are read back**, when their comparisons can be evaluated. -/
theorem reads_of_isRegular {p : Predicate} (hp : p.IsRegular) : ReadsTerm p ∧ ReadsWhole p := by
  induction hp with
  | constant value =>
      have hterm := readsTerm_constant value
      exact ⟨hterm, hterm.readsWhole rfl⟩
  | atom hmade =>
      have hterm := readsTerm_atom hmade
      exact ⟨hterm, hterm.readsWhole rfl⟩
  | not hq ih =>
      have hterm := ih.2.readsTerm_not hq
      exact ⟨hterm, hterm.readsWhole rfl⟩
  | and several hall ih =>
      have hwhole := readsWhole_and several hall fun p hp => (ih p hp).1
      exact ⟨hwhole.readsTerm (.and several hall) rfl, hwhole⟩
  | or several hall ih =>
      have hwhole := readsWhole_or several hall fun p hp => (ih p hp).1
      exact ⟨hwhole.readsTerm (.or several hall) rfl, hwhole⟩

/-- A text that is read up to its end is a draft. -/
theorem readDraft_of_readOr {cs : List Char} {d : Draft} (hcs : BeginsSolid cs)
    (h : readOr (4 * cs.length + 4) cs = some (d, [])) : readDraft cs = some d := by
  rw [readDraft, hcs.skipGap, h]
  rfl

/-- A text that the reader gets stuck in is no draft. -/
theorem readDraft_eq_none {cs : List Char} (hcs : BeginsSolid cs)
    (h : ∀ {d more}, readOr (4 * cs.length + 4) cs = some (d, more) → Stuck more) :
    readDraft cs = none := by
  rw [readDraft, hcs.skipGap]
  cases hread : readOr (4 * cs.length + 4) cs with
  | none => rfl
  | some found =>
      obtain ⟨c, more, hskip, -⟩ := h hread
      simp [hskip]

end PredicateReading

namespace Predicate

/-- A regular predicate is read back if its numbers are finite. -/
theorem IsRegular.ofChars_chars {p : Predicate} (hp : p.IsRegular) (hfinite : p.IsFinite) :
    ∃ q, ofChars p.chars = .ok q ∧ p.eqv q = true := by
  obtain ⟨d, hd, q, hq, hsame⟩ :=
    (PredicateReading.reads_of_isRegular hp).2.found hfinite (4 * p.chars.length + 4)
      (.inl rfl) (by omega)
  rw [List.append_nil] at hd
  refine ⟨q, ?_, hsame⟩
  rw [ofChars, PredicateReading.readDraft_of_readOr (PredicateReading.beginsSolid_chars hp) hd]
  exact hq

/-- A regular predicate with a number that is not finite is not readable. -/
theorem IsRegular.ofChars_chars_error {p : Predicate} (hp : p.IsRegular) (hnot : ¬ p.IsFinite) :
    ofChars p.chars = .error (.unreadable p.display) := by
  have hnone : PredicateReading.readDraft p.chars = none := by
    apply PredicateReading.readDraft_eq_none (PredicateReading.beginsSolid_chars hp)
    intro d more hread
    rw [← List.append_nil p.chars] at hread
    exact (PredicateReading.reads_of_isRegular hp).2.stuck hnot _ (.inl rfl) (by simp) hread
  rw [ofChars, hnone]
  rfl

/-- **Predicates are read back from their text.**  The text of an obtainable predicate is read as
a predicate equal to it exactly when every number literal in it is finite, and with a number that
is not finite it is not readable at all. -/
theorem Obtainable.parse_display {p : Predicate} (hp : p.Obtainable) :
    ((∃ q, parse p.display = .ok q ∧ p.eqv q = true) ↔ ∀ x ∈ p.numbers, x.isFinite = true) ∧
      ((∃ x ∈ p.numbers, x.isFinite = false) →
        parse p.display = .error (.unreadable p.display)) := by
  have hparse : parse p.display = ofChars p.chars := by
    rw [parse, display, String.toList_ofList]
  have herror : ¬ p.IsFinite → parse p.display = .error (.unreadable p.display) := by
    intro hnot
    rw [hparse, hp.isRegular.ofChars_chars_error hnot]
  refine ⟨⟨?_, ?_⟩, ?_⟩
  · rintro ⟨q, hq, -⟩
    by_cases hfinite : p.IsFinite
    · exact hfinite
    · rw [herror hfinite] at hq
      cases hq
  · intro hfinite
    rw [hparse]
    exact hp.isRegular.ofChars_chars hfinite
  · rintro ⟨x, hx, hinfinite⟩
    apply herror
    intro hfinite
    rw [hfinite x hx] at hinfinite
    cases hinfinite

/-- The predicate that a text is read as, or the one that always holds. -/
def readOrAlways (expression : String) : Predicate :=
  (parse expression).toOption.getD always

/-- What is read of an accepted text is obtainable. -/
theorem obtainable_readOrAlways {expression : String} (h : (parse expression).isOk = true) :
    (readOrAlways expression).Obtainable := by
  cases hp : parse expression with
  | error e => simp [hp, Except.isOk, Except.toBool] at h
  | ok p =>
      have hread : readOrAlways expression = p := by
        simp [readOrAlways, hp, Except.toOption]
      exact hread ▸ .parsed hp

/-- Elements with a quotation mark before a backslash in the label, unless they lie left of
`-0.5`. -/
def quotedNotLeft : Predicate :=
  Formula.conj (.atom ⟨.label, .contains, {}, .text "\"\\"⟩) (.not (readOrAlways "x < -0.5"))

/-- The example is obtained from accepted texts. -/
theorem obtainable_quotedNotLeft : quotedNotLeft.Obtainable := by
  have hlabel : attributeMatching "label" .contains "\"\\" =
      .ok (.atom ⟨.label, .contains, {}, .text "\"\\"⟩) := rfl
  have hleft : (parse "x < -0.5").isOk = true := by decide +kernel
  rw [quotedNotLeft]
  exact .conj (.matching hlabel) (.not (obtainable_readOrAlways hleft))

/-- With a finite number the text is read back; a number beyond all finite ones is written with a
word that is not readable. -/
theorem parse_display_quotedNotLeft :
    (∃ q, parse quotedNotLeft.display = .ok q ∧ quotedNotLeft.eqv q = true) ∧
      parse (readOrAlways "x == 1e999").display = .error (.unreadable "rect.x == inf") := by
  have hfar : (parse "x == 1e999").isOk = true := by decide +kernel
  have htext : (readOrAlways "x == 1e999").display = "rect.x == inf" := by decide +kernel
  constructor
  · apply (Obtainable.parse_display obtainable_quotedNotLeft).1.mpr
    decide +kernel
  · rw [← htext]
    apply (Obtainable.parse_display (obtainable_readOrAlways hfar)).2
    decide +kernel

end Predicate

end ElementFinder
