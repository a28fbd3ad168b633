import ElementFinder.Proofs.Chain.Brackets
import ElementFinder.Proofs.Predicate.RoundTrip

/-!
# Class chains read back

The text of a chain that was read from a text is read as a chain equal to it, and without
problems, when the predicates in it can stand between accents on one line and have finite
numbers.

Reading leaves only regular steps: the type is registered, the predicate is regular and the
position fits (`ChainStep.Regular`).  The text of a regular step has one bracketed predicate and
one position at most, so every pass of the reader has one thing to find or nothing: the splitter
meets slashes only between accents (`splitSteps_step`), the search for predicates finds the
predicate that was written, and what is left without it is the position.
-/

namespace ElementFinder

/-- A position of 64 bits. -/
def FitsPosition (i : Int) : Prop :=
  -(Nat.pow 2 63 : Int) ≤ i ∧ i < Nat.pow 2 63

namespace ChainStep

/-- A step as the reader builds it. -/
inductive Regular : ChainStep → Prop where
  | anyDepth : Regular .anyDepth
  | select {t : ElementType} {p : Option Predicate} {i : Option Int}
      (registered : t.isRegistered = true) (predicate : ∀ q ∈ p, q.IsRegular)
      (position : ∀ j ∈ i, FitsPosition j) :
      Regular (.select t p i)

/-- The predicate of a step can stand between accents on one line, and its numbers are finite. -/
def Writable (s : ChainStep) : Prop :=
  ∀ p ∈ s.predicate?, '\x60' ∉ p.display.toList ∧ '\n' ∉ p.display.toList ∧
    ∀ x ∈ p.numbers, x.isFinite = true

end ChainStep

namespace ChainReading

/-! ## Reading leaves regular steps -/

/-- A position that is read fits. -/
theorem fitsPosition_of_position? {cs : List Char} {i : Int} (h : position? cs = some i) :
    FitsPosition i := by
  rw [position?, Option.filter_eq_some_iff] at h
  simpa [FitsPosition] using h.2

/-- The position of a step fits, whichever bracket it is read from. -/
theorem fitsPosition_readPositions (token : String) {position : Option Int}
    (hposition : ∀ j ∈ position, FitsPosition j) (bodies : List (List Char)) :
    ∀ j ∈ (readPositions token position bodies).1, FitsPosition j := by
  induction bodies generalizing position with
  | nil => exact hposition
  | cons body bodies ih =>
      cases hread : position? (trimBlank body) with
      | none => simpa [readPositions, hread] using ih hposition
      | some i =>
          cases position with
          | none =>
              have hfits : ∀ j ∈ some i, FitsPosition j := by
                intro j hj
                obtain rfl := Option.some.inj hj
                exact fitsPosition_of_position? hread
              simpa [readPositions, hread] using ih hfits
          | some j => simpa [readPositions, hread] using ih hposition

/-- The type of a step is a registered one. -/
theorem isRegistered_readType (cs : List Char) : (readType cs).1.isRegistered = true := by
  rw [readType]
  split
  · rfl
  · split
    · rename_i t hlookup
      exact ElementType.isRegistered_of_lookup hlookup
    · rfl

/-- The predicate of a step is one that the reader makes. -/
theorem isRegular_readPredicate (token : String) (brackets : List Char) :
    ∀ p ∈ (readPredicate token brackets).1, p.IsRegular := by
  intro p hp
  rw [readPredicate] at hp
  split at hp
  · cases hp
  · split at hp
    · rename_i q hq
      obtain rfl := Option.some.inj hp
      exact Predicate.isRegular_ofChars hq
    · cases hp

/-- Every step that is read is regular. -/
theorem regular_readStep (cs : List Char) : (readStep cs).1.Regular := by
  rw [readStep]
  split
  · exact .anyDepth
  · exact .select (isRegistered_readType _) (isRegular_readPredicate _ _)
      (fitsPosition_readPositions _ (by simp) _)

/-! ## Reading one step -/

/-- The text of a type. -/
def typeChars (t : ElementType) : List Char :=
  if t.isAny then ['*'] else t.name.toList

/-- A character of the text of a type. -/
def isTypeChar (c : Char) : Bool :=
  PredicateReading.isLetter c || c == '*'

/-- The name of a type is written with characters of type names. -/
theorem isTypeChar_of_mem {t : ElementType} (ht : t.isRegistered = true) :
    ∀ c ∈ typeChars t, isTypeChar c = true := by
  intro c hc
  rw [typeChars] at hc
  split at hc
  · obtain rfl := List.mem_singleton.mp hc
    rfl
  · simp [isTypeChar, ElementType.isLetter_of_mem_name ht c hc]

/-- A canonical name is read as its type. -/
theorem readType_name {t : ElementType} (ht : t.isRegistered = true) :
    readType t.name.toList = (t, []) := by
  have htrim : trimBlank t.name.toList = t.name.toList :=
    trimBlank_eq_self fun c hc =>
      not_isBlank_of_isLetter (ElementType.isLetter_of_mem_name ht c hc)
  have hstar : t.name.toList.head? ≠ some '*' := by
    intro hhead
    have hletter := ElementType.isLetter_of_mem_name ht '*' (List.mem_of_mem_head? hhead)
    exact absurd hletter (by decide)
  rw [readType, htrim, String.ofList_toList, ElementType.lookup_name ht]
  simp [hstar]

/-- The name of a type is read back without a report. -/
theorem readType_typeChars {t : ElementType} (ht : t.isRegistered = true) :
    readType (typeChars t) = (t, []) := by
  rw [typeChars]
  split
  · rename_i hany
    obtain rfl : t = .any := by simpa [ElementType.isAny] using hany
    rfl
  · exact readType_name ht

/-! ## Positions -/

/-- The text between the brackets of a position. -/
def digitsOf (i : Int) : List Char :=
  (toString i).toList

/-- A position is written between brackets. -/
theorem positionChars_some (i : Int) :
    ChainStep.positionChars (some i) = '[' :: digitsOf i ++ [']'] :=
  rfl

/-- A position is written with digits and perhaps a minus sign. -/
theorem isDigit_or_minus {i : Int} : ∀ c ∈ digitsOf i, isDigit c = true ∨ c = '-' := by
  intro c hc
  rw [digitsOf, toList_toString_int, List.mem_append] at hc
  rcases hc with hsign | hdigit
  · split at hsign
    · exact .inr (List.mem_singleton.mp hsign)
    · cases hsign
  · exact .inl (isDigit_of_mem_toDigits hdigit)

/-- What is no digit and no minus sign does not stand in a position. -/
theorem not_mem_position {i : Int} {d : Char} (hdigit : isDigit d = false) (hminus : d ≠ '-') :
    d ∉ digitsOf i := by
  intro hd
  rcases isDigit_or_minus d hd with h | h
  · rw [h] at hdigit
    cases hdigit
  · exact hminus h

/-- A position is read back. -/
theorem position?_digitsOf {i : Int} (hi : FitsPosition i) :
    position? (trimBlank (digitsOf i)) = some i := by
  have htrim : trimBlank (digitsOf i) = digitsOf i := by
    apply trimBlank_eq_self
    intro c hc
    rcases isDigit_or_minus c hc with hdigit | rfl
    · exact not_isBlank_of_isDigit hdigit
    · decide
  rw [htrim, position?, digitsOf, intOfDigits?_toString, Option.filter_eq_some_iff]
  exact ⟨rfl, by simpa [FitsPosition] using hi⟩

/-- The text of a position is one bracket, and of none nothing. -/
theorem splitBrackets_positionChars (position : Option Int) (fuel : Nat) :
    splitBrackets (fuel + 1) (ChainStep.positionChars position) =
      (position.toList.map digitsOf, []) := by
  cases position with
  | none => rfl
  | some i =>
      have hopen : '[' ∉ digitsOf i := not_mem_position (by decide) (by decide)
      have hclose : ']' ∉ digitsOf i := not_mem_position (by decide) (by decide)
      have htake := takeBracket_complete hopen hclose []
      have hend : splitBrackets fuel [] = ([], []) := by cases fuel <;> rfl
      simp [splitBrackets, positionChars_some, htake, hend]

/-- The positions in the text of a position are that position. -/
theorem readPositions_position (token : String) {position : Option Int}
    (hposition : ∀ i ∈ position, FitsPosition i) :
    readPositions token none (position.toList.map digitsOf) =
      (position, []) := by
  cases position with
  | none => rfl
  | some i => simp [readPositions, position?_digitsOf (hposition i rfl)]

/-! ## One step -/

/-- The predicate that is written can stand between accents on one line. -/
def Quotable (p : Predicate) : Prop :=
  '\x60' ∉ p.chars ∧ '\n' ∉ p.chars

/-- No accent stands in a position. -/
theorem not_mem_positionChars (position : Option Int) :
    '\x60' ∉ ChainStep.positionChars position := by
  cases position with
  | none => simp [ChainStep.positionChars]
  | some i =>
      have hnot : '\x60' ∉ digitsOf i := not_mem_position (by decide) (by decide)
      simp [positionChars_some, hnot]

/-- A predicate between accents is found where it was written. -/
theorem findPredicate_predicateChars {p : Predicate} (hp : Quotable p) (rest : List Char) :
    findPredicate (ChainStep.predicateChars (some p) ++ rest) = some ([], p.chars, rest) := by
  exact findPredicate_complete List.not_mem_nil (quotes_of_not_mem hp.1 hp.2) rest

/-- Without the predicate only the position is left. -/
theorem withoutPredicates_brackets {p : Option Predicate} (hp : ∀ q ∈ p, Quotable q)
    (position : Option Int) :
    withoutPredicates (ChainStep.predicateChars p ++ ChainStep.positionChars position).length
      (ChainStep.predicateChars p ++ ChainStep.positionChars position) =
      ChainStep.positionChars position := by
  cases p with
  | none =>
      exact withoutPredicates_of_none (findPredicate_eq_none (not_mem_positionChars position)) _
  | some q =>
      exact withoutPredicates_single
        (findPredicate_predicateChars (hp q rfl) (ChainStep.positionChars position))
        (findPredicate_eq_none (not_mem_positionChars position))

/-- The predicate of a step is read back. -/
theorem readPredicate_brackets (token : String) {p : Option Predicate}
    (hp : ∀ q ∈ p, Quotable q) (hregular : ∀ q ∈ p, q.IsRegular) (hfinite : ∀ q ∈ p, q.IsFinite)
    (position : Option Int) :
    ∃ p', readPredicate token (ChainStep.predicateChars p ++ ChainStep.positionChars position) =
      (p', []) ∧ optionEqv Predicate.eqv p p' = true := by
  cases p with
  | none =>
      refine ⟨none, ?_, rfl⟩
      rw [ChainStep.predicateChars, List.nil_append, readPredicate,
        findPredicate_eq_none (not_mem_positionChars position)]
  | some q =>
      obtain ⟨q', hq', hsame⟩ := (hregular q rfl).ofChars_chars (hfinite q rfl)
      refine ⟨some q', ?_, hsame⟩
      simp only [readPredicate, findPredicate_predicateChars (hp q rfl), hq']

/-- The predicate of a step that can be written can stand between accents. -/
theorem quotable_of_writable {t : ElementType} {p : Option Predicate} {i : Option Int}
    (hw : (ChainStep.select t p i).Writable) : ∀ q ∈ p, Quotable q := by
  intro q hq
  have hdisplay := hw q hq
  rw [Predicate.display, String.toList_ofList] at hdisplay
  exact ⟨hdisplay.1, hdisplay.2.1⟩

/-- A step is written as its type, its predicate and its position. -/
theorem chars_select (t : ElementType) (p : Option Predicate) (i : Option Int) :
    (ChainStep.select t p i).chars =
      typeChars t ++ (ChainStep.predicateChars p ++ ChainStep.positionChars i) := by
  rw [ChainStep.chars, List.append_assoc]
  rfl

/-- What follows the type of a step is nothing or begins with a bracket. -/
theorem head?_brackets (p : Option Predicate) (position : Option Int) :
    ∀ c ∈ (ChainStep.predicateChars p ++ ChainStep.positionChars position).head?,
      (c != '[') = false := by
  intro c hc
  cases p with
  | some q =>
      obtain rfl := Option.some.inj hc
      rfl
  | none =>
      cases position with
      | none => cases hc
      | some i =>
          obtain rfl := Option.some.inj hc
          rfl

/-- No type is written like the marker for any number of levels. -/
theorem typeChars_ne {t : ElementType} (ht : t.isRegistered = true) :
    typeChars t ≠ ['*', '*'] := by
  rw [typeChars]
  split
  · decide
  · intro heq
    have hletter := ElementType.isLetter_of_mem_name ht '*' (by rw [heq]; exact List.mem_cons_self)
    exact absurd hletter (by decide)

/-- The name of a type is not empty. -/
theorem typeChars_ne_nil {t : ElementType} (ht : t.isRegistered = true) : typeChars t ≠ [] := by
  rw [typeChars]
  split
  · decide
  · obtain ⟨short, -, hname⟩ := ElementType.name_of_isRegistered ht
    rw [hname]
    exact List.append_ne_nil_of_left_ne_nil (by decide) _

/-- A step is read back without problems. -/
theorem readStep_chars {s : ChainStep} (hs : s.Regular) (hw : s.Writable) :
    ∃ s', readStep s.chars = (s', []) ∧ s.eqv s' = true := by
  cases hs with
  | anyDepth => exact ⟨.anyDepth, rfl, rfl⟩
  | @select t p i registered predicate position =>
      have hquotable := quotable_of_writable hw
      have hfinite : ∀ q ∈ p, q.IsFinite := fun q hq => (hw q hq).2.2
      have htype : ∀ c ∈ typeChars t, (c != '[') = true := by
        intro c hc
        simpa using ne_of_test (isTypeChar_of_mem registered c hc) (d := '[') (by decide)
      -- The type ends where the first bracket opens.
      have htake := takeWhile_append_of_stop htype (head?_brackets p i)
      have hdrop := dropWhile_append_of_stop htype (head?_brackets p i)
      have hmarker : typeChars t ++ (ChainStep.predicateChars p ++ ChainStep.positionChars i) ≠
          ['*', '*'] := by
        intro heq
        rw [heq] at htake
        exact typeChars_ne registered htake.symm
      obtain ⟨p', hp', hsame⟩ := readPredicate_brackets
        (String.ofList (typeChars t ++ (ChainStep.predicateChars p ++ ChainStep.positionChars i)))
        hquotable predicate hfinite i
      refine ⟨.select t p' i, ?_, by simp [ChainStep.eqv, hsame]⟩
      rw [chars_select, readStep, if_neg hmarker]
      simp only [htake, hdrop, readType_typeChars registered, hp',
        withoutPredicates_brackets hquotable, splitBrackets_positionChars,
        readPositions_position _ position]
      rfl

/-! ## Splitting a chain -/

/-- Outside of accents a step goes on up to the next slash or accent. -/
theorem splitSteps_plain {piece : List Char} (hslash : '/' ∉ piece) (haccent : '\x60' ∉ piece)
    (token rest : List Char) :
    splitSteps false token (piece ++ rest) = splitSteps false (piece.reverse ++ token) rest := by
  induction piece generalizing token with
  | nil => rfl
  | cons c piece ih =>
      simp only [List.mem_cons, not_or] at hslash haccent
      simp [splitSteps, Ne.symm hslash.1, Ne.symm haccent.1, ih hslash.2 haccent.2]

/-- Between accents a step goes on up to the next accent. -/
theorem splitSteps_quoted {piece : List Char} (haccent : '\x60' ∉ piece)
    (token rest : List Char) :
    splitSteps true token (piece ++ rest) = splitSteps true (piece.reverse ++ token) rest := by
  induction piece generalizing token with
  | nil => rfl
  | cons c piece ih =>
      simp only [List.mem_cons, not_or] at haccent
      simp [splitSteps, Ne.symm haccent.1, ih haccent.2]

/-- Slashes between accents do not split. -/
theorem splitSteps_predicateChars {p : Option Predicate} (hp : ∀ q ∈ p, Quotable q)
    (token rest : List Char) :
    splitSteps false token (ChainStep.predicateChars p ++ rest) =
      splitSteps false ((ChainStep.predicateChars p).reverse ++ token) rest := by
  cases p with
  | none => rfl
  | some q =>
      have hquoted := splitSteps_quoted (hp q rfl).1
      simp [ChainStep.predicateChars, splitSteps, hquoted]

/-- The splitter passes over a step. -/
theorem splitSteps_step {s : ChainStep} (hs : s.Regular) (hw : s.Writable)
    (token rest : List Char) :
    splitSteps false token (s.chars ++ rest) =
      splitSteps false (s.chars.reverse ++ token) rest := by
  cases hs with
  | anyDepth => exact splitSteps_plain (by decide) (by decide) token rest
  | @select t p i registered predicate position =>
      have htype : ∀ d, isTypeChar d = false → d ∉ typeChars t := by
        intro d hd hmem
        exact absurd (isTypeChar_of_mem registered d hmem) (by simp [hd])
      have hslash : '/' ∉ ChainStep.positionChars i := by
        cases i with
        | none => simp [ChainStep.positionChars]
        | some j =>
            have hnot : '/' ∉ digitsOf j := not_mem_position (by decide) (by decide)
            simp [positionChars_some, hnot]
      rw [chars_select, List.append_assoc, List.append_assoc,
        splitSteps_plain (htype '/' (by decide)) (htype '\x60' (by decide)),
        splitSteps_predicateChars (quotable_of_writable hw),
        splitSteps_plain hslash (not_mem_positionChars i)]
      simp

/-- A chain is split into its steps. -/
theorem splitSteps_chain {s : ChainStep} {c : Chain} (hs : ∀ r ∈ s :: c, r.Regular)
    (hw : ∀ r ∈ s :: c, r.Writable) :
    splitSteps false [] (Chain.chars (s :: c)) = (s :: c).map ChainStep.chars := by
  induction c generalizing s with
  | nil =>
      have hstep := splitSteps_step (hs s (by simp)) (hw s (by simp)) [] []
      rw [List.append_nil, List.append_nil] at hstep
      rw [Chain.chars, hstep]
      simp [splitSteps]
  | cons r c ih =>
      have hstep := splitSteps_step (hs s (by simp)) (hw s (by simp)) []
        ('/' :: Chain.chars (r :: c))
      rw [List.append_nil] at hstep
      rw [Chain.chars, hstep]
      · simp [splitSteps, ih (List.forall_mem_cons.mp hs).2 (List.forall_mem_cons.mp hw).2]
      · simp

/-- The text of a step ends with its type or with a bracket. -/
theorem getLast?_select {t : ElementType} {p : Option Predicate} {i : Option Int} :
    ∀ c ∈ (ChainStep.select t p i).chars.getLast?, c ∈ (typeChars t).getLast? ∨ c = ']' := by
  intro c hc
  rw [chars_select] at hc
  cases i with
  | some j =>
      have htext : typeChars t ++ (ChainStep.predicateChars p ++ ChainStep.positionChars (some j)) =
          typeChars t ++ (ChainStep.predicateChars p ++ '[' :: digitsOf j) ++ [']'] := by
        simp [positionChars_some]
      rw [htext, List.getLast?_concat] at hc
      exact .inr (Option.some.inj hc).symm
  | none =>
      cases p with
      | some q =>
          have htext : typeChars t ++ (ChainStep.predicateChars (some q) ++
              ChainStep.positionChars none) =
              typeChars t ++ ('[' :: '\x60' :: q.chars ++ ['\x60']) ++ [']'] := by
            simp [ChainStep.predicateChars, ChainStep.positionChars]
          rw [htext, List.getLast?_concat] at hc
          exact .inr (Option.some.inj hc).symm
      | none => exact .inl (by simpa [ChainStep.predicateChars, ChainStep.positionChars] using hc)

/-- The text of a step is not empty and is not trimmed. -/
theorem trimBlank_step {s : ChainStep} (hs : s.Regular) :
    trimBlank s.chars = s.chars ∧ s.chars ≠ [] := by
  cases hs with
  | anyDepth => exact ⟨rfl, by decide⟩
  | @select t p i registered predicate position =>
      have hsolid : ∀ c ∈ typeChars t, isBlank c = false := by
        intro c hc
        have htype := isTypeChar_of_mem registered c hc
        simp only [isTypeChar, Bool.or_eq_true, beq_iff_eq] at htype
        rcases htype with hletter | rfl
        · exact not_isBlank_of_isLetter hletter
        · decide
      obtain ⟨d, ds, hcons⟩ := List.exists_cons_of_ne_nil (typeChars_ne_nil registered)
      constructor
      · apply trimWhile_eq_self
        · intro c hc
          rw [chars_select, hcons] at hc
          rw [← Option.some.inj hc]
          exact hsolid d (by rw [hcons]; exact List.mem_cons_self)
        · intro c hc
          rcases getLast?_select c hc with htype | rfl
          · exact hsolid c (List.mem_of_mem_getLast? htype)
          · decide
      · rw [chars_select, hcons]
        exact List.cons_ne_nil d _

end ChainReading

/-- Chains of regular steps whose predicates can be written are read back step by step. -/
theorem Chain.exists_steps {c : Chain}
    (hsteps : ∀ s ∈ c, ∃ s', ChainReading.readStep s.chars = (s', []) ∧ s.eqv s' = true) :
    ∃ c' : Chain, (c.map ChainStep.chars).map ChainReading.readStep = c'.map (·, []) ∧
      Chain.eqv c c' = true := by
  induction c with
  | nil => exact ⟨[], rfl, rfl⟩
  | cons s c ih =>
      obtain ⟨⟨s', hs', hsame⟩, hothers⟩ := List.forall_mem_cons.mp hsteps
      obtain ⟨c', hc', hsames⟩ := ih hothers
      refine ⟨s' :: c', ?_, by simp [Chain.eqv, hsame, hsames]⟩
      simp only [List.map_cons, hs', hc']

/-- Every step of a chain that was read is regular. -/
theorem ParsedChain.regular_ofText (text : String) :
    ∀ s ∈ (ofText text).chain, s.Regular := by
  intro s hs
  simp only [ofText, List.map_map, List.mem_map] at hs
  obtain ⟨token, -, rfl⟩ := hs
  exact ChainReading.regular_readStep token

/-- **Class chains are read back from their text.**  The text of a chain that was read from a
text is read as a chain equal to it, without problems, if every predicate in it is written
without accent and line feed and has only finite numbers. -/
theorem ParsedChain.ofText_display (text : String)
    (h : ∀ s ∈ (ofText text).chain, ∀ p ∈ s.predicate?, '\x60' ∉ p.display.toList ∧
      '\n' ∉ p.display.toList ∧ ∀ x ∈ p.numbers, x.isFinite = true) :
    ∃ c, ofText (ofText text).chain.display = ⟨c, []⟩ ∧ (ofText text).chain.eqv c = true := by
  have hregular := regular_ofText text
  obtain ⟨q, hq⟩ : ∃ q, q = (ofText text).chain := ⟨_, rfl⟩
  rw [← hq] at h hregular ⊢
  cases q with
  | nil => exact ⟨[], rfl, rfl⟩
  | cons s c =>
      obtain ⟨c', hc', hsame⟩ := Chain.exists_steps fun r hr =>
        ChainReading.readStep_chars (hregular r hr) (h r hr)
      refine ⟨c', ?_, hsame⟩
      have htrim : ((s :: c).map ChainStep.chars).map trimBlank = (s :: c).map ChainStep.chars := by
        rw [List.map_map]
        exact List.map_congr_left fun r hr => (ChainReading.trimBlank_step (hregular r hr)).1
      have hkeep : ((s :: c).map ChainStep.chars).filter (fun token => !token.isEmpty) =
          (s :: c).map ChainStep.chars := by
        rw [List.filter_eq_self]
        intro token htoken
        obtain ⟨r, hr, rfl⟩ := List.mem_map.mp htoken
        simpa using (ChainReading.trimBlank_step (hregular r hr)).2
      rw [ofText, Chain.display, String.toList_ofList, ChainReading.splitSteps_chain hregular h,
        htrim, hkeep, hc']
      simp [List.map_map, Function.comp_def]

/-- A chain with an unknown type, a predicate that quotes a bracket and a slash, and a position
from the end. -/
def ParsedChain.bracketedText : String :=
  "**/Bogus[\x60label == '[2]/x' AND x < 1e0\x60][-03]/ Cell"

/-- The problems of the text are not met again in what is written for its chain. -/
theorem ParsedChain.ofText_display_bracketedText :
    (ofText bracketedText).chain.display =
        "**/*[\x60label == \"[2]/x\" AND rect.x < 1\x60][-3]/XCUIElementTypeCell" ∧
      ∃ c, ofText (ofText bracketedText).chain.display = ⟨c, []⟩ ∧
        (ofText bracketedText).chain.eqv c = true := by
  have hquotable : ((ofText bracketedText).chain.all fun s => s.predicate?.all fun p =>
      p.display.toList.all (fun c => c != '\x60' && c != '\n') && p.numbers.all Binary64.isFinite) =
      true := by decide +kernel
  refine ⟨by decide +kernel, ofText_display bracketedText ?_⟩
  intro s hs p hp
  have hstep := List.all_eq_true.mp hquotable s hs
  rw [Option.mem_def.mp hp, Option.all_some, Bool.and_eq_true, List.all_eq_true,
    List.all_eq_true] at hstep
  refine ⟨fun hmem => ?_, fun hmem => ?_, hstep.2⟩
  · exact absurd (hstep.1 _ hmem) (by decide)
  · exact absurd (hstep.1 _ hmem) (by decide)

end ElementFinder
