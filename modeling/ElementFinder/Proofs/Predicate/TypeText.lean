import ElementFinder.Predicate.Evaluation
import ElementFinder.Proofs.Decimal.ReadBack
import ElementFinder.Proofs.TypeNames

/-!
# Text operators on types

A type reads as its code, and the code is held exactly, so text operators get back the canonical
name from it (`readText?_code`).  The literal on the other side is exchanged first where it names
a registered type: it then reads as the numeral of a code, which has nothing in common with a
name (`not_isInfix_of_numeral`).

So text operators compare the canonical name with the literal as it is written, except that they
never hold of a literal that names a registered type (`holds_type_iff`).
-/

namespace ElementFinder

/-- A search finds exactly the texts that stand somewhere in another. -/
theorem occursIn_iff {needle cs : List Char} : occursIn needle cs = true ↔ needle <:+: cs := by
  induction cs with
  | nil => simp [occursIn]
  | cons c cs ih =>
      rw [occursIn, Bool.or_eq_true, List.isPrefixOf_iff_prefix, ih, List.infix_cons_iff]

/-- The relation between the text of an attribute and the text of a literal that an operator
stands for, if it is one that compares parts of texts. -/
def CompareOperator.relation? : CompareOperator → Option (List Char → List Char → Prop)
  | beginsWith => some fun actual expected => expected <+: actual
  | contains => some fun actual expected => expected <:+: actual
  | endsWith => some fun actual expected => expected <:+ actual
  | within => some fun actual expected => actual <:+: expected
  | _ => none

/-- Of two texts in such a relation one occurs in the other. -/
theorem CompareOperator.infix_of_relation {op : CompareOperator}
    {R : List Char → List Char → Prop} (hop : op.relation? = some R) {actual expected : List Char}
    (h : R actual expected) : expected <:+: actual ∨ actual <:+: expected := by
  cases op <;> cases hop
  · exact .inl h.isInfix
  · exact .inl h
  · exact .inl h.isInfix
  · exact .inr h

/-! ## Numerals and names -/

theorem not_isLetter_of_isDigit {c : Char} (h : isDigit c = true) :
    PredicateReading.isLetter c = false := by
  simp only [isDigit, PredicateReading.isLetter, Bool.and_eq_true, decide_eq_true_eq,
    Bool.or_eq_false_iff, Bool.and_eq_false_iff, decide_eq_false_iff_not, Char.le_def,
    UInt32.le_iff_toNat_le] at h ⊢
  have hnine : ('9' : Char).val.toNat = 57 := rfl
  have hupper : ('A' : Char).val.toNat = 65 := rfl
  have hlower : ('a' : Char).val.toNat = 97 := rfl
  omega

/-- A plain text has no letters. -/
theorem Decimal.Plain.not_isLetter {text : List Char} {m : Magnitude} (h : Plain text m) :
    ∀ c ∈ text, PredicateReading.isLetter c = false := by
  obtain ⟨-, hdigits⟩ := h
  rename_i whole fraction
  have hletters : ∀ c ∈ whole ++ fraction, PredicateReading.isLetter c = false :=
    fun c hc => not_isLetter_of_isDigit (hdigits c hc)
  rw [List.forall_mem_append] at hletters
  rw [pointed, List.forall_mem_append]
  refine ⟨hletters.1, ?_⟩
  rw [fractionChars]
  split
  · exact List.forall_mem_nil _
  · exact List.forall_mem_cons.mpr ⟨by decide, hletters.2⟩

/-- The text of a finite number is not empty and has no letters. -/
theorem Binary64.scalarText_isNumeral {x : Binary64} (hx : x.isFinite = true) :
    x.scalarText.toList ≠ [] ∧
      ∀ c ∈ x.scalarText.toList, PredicateReading.isLetter c = false := by
  obtain ⟨negative, text, m, htext, hplain, -⟩ := scalarText_plain hx
  obtain ⟨c, rest, hcons, -⟩ := hplain.head
  rw [htext]
  cases negative with
  | false => exact ⟨by simp [withSign, hcons], hplain.not_isLetter⟩
  | true =>
      exact ⟨by simp [withSign], List.forall_mem_cons.mpr ⟨by decide, hplain.not_isLetter⟩⟩

/-- A numeral and the name of a type have nothing in common. -/
theorem ElementType.not_isInfix_of_numeral {t : ElementType} (ht : t.isRegistered = true)
    {x : Binary64} (hx : x.isFinite = true) :
    ¬ (x.scalarText.toList <:+: t.name.toList ∨ t.name.toList <:+: x.scalarText.toList) := by
  obtain ⟨hne, hnumeral⟩ := Binary64.scalarText_isNumeral hx
  have hname := isLetter_of_mem_name ht
  have hstem : t.name.toList ≠ [] := by
    obtain ⟨short, -, hsplit⟩ := name_of_isRegistered ht
    simp [hsplit, typeNameStem]
  -- a character of the part would be a letter and none
  have hapart : ∀ part : List Char, part ≠ [] → part ⊆ t.name.toList →
      part ⊆ x.scalarText.toList → False := by
    intro part hpart hin hout
    obtain ⟨c, hc⟩ := List.exists_mem_of_ne_nil part hpart
    have := (hname c (hin hc)).symm.trans (hnumeral c (hout hc))
    cases this
  rintro (h | h)
  · exact hapart _ hne h.subset (List.Subset.refl _)
  · exact hapart _ hstem (List.Subset.refl _) h.subset

/-! ## Both sides of a comparison of types -/

namespace Comparison

variable {c : Comparison}

/-- The code of a type reads as its canonical name. -/
theorem readText?_code (hc : c.subject = .elementType) (t : ElementType) :
    c.readText? (.number (.ofNat t.code.toNat)) = some t.name := by
  have hlt : t.code.toNat < 65536 := t.code.toNat_lt
  have hwhole := (Binary64.ofNat_exact (n := t.code.toNat) (by omega)).2
  have hcode : UInt16.ofNat (min t.code.toNat 65535) = t.code := by
    rw [Nat.min_eq_left (by omega), UInt16.ofNat_toNat]
  simp only [readText?, hc, if_true, Literal.asNumber?, hwhole, Option.getD_some, hcode]

/-- A literal that names no type is read as it is written. -/
theorem codeOfName_of_unnamed {s : String} (hs : ∀ u, ¬ ElementType.NamedBy u s) :
    c.codeOfName (.text s) = .text s := by
  have hnone : ElementType.ofName? s = none :=
    Option.eq_none_iff_forall_ne_some.mpr fun u hu => hs u (ElementType.ofName?_eq_some_iff.mp hu)
  simp [codeOfName, hnone]

/-- A literal that names a type is read as the numeral of its code. -/
theorem codeOfName_of_named (hc : c.subject = .elementType) {s : String} {u : ElementType}
    (hu : u.NamedBy s) : c.codeOfName (.text s) = .number (.ofNat u.code.toNat) := by
  simp [codeOfName, hc, ElementType.ofName?_eq_some_iff.mpr hu]

/-- A text operator relates the texts that its two sides are read as. -/
theorem holdsOf_relation {R : List Char → List Char → Prop}
    (hop : c.operator.relation? = some R) (hcase : c.options.caseless = false)
    {actual expected : Literal} {read written : String} (hread : c.readText? actual = some read)
    (hcode : c.codeOfName c.literal = expected) (hwritten : expected.asText? = some written) :
    c.holdsOf actual = true ↔ R read.toList written.toList := by
  have htest : ∀ test : List Char → List Char → Bool,
      c.testTexts test actual expected = test read.toList written.toList := by
    intro test
    simp [testTexts, hread, hwritten, folded, hcase]
  obtain ⟨subject, operator, options, literal⟩ := c
  cases operator <;> cases hop
  · simp only [holdsOf, hcode, htest, List.isPrefixOf_iff_prefix]
  · simp only [holdsOf, hcode, htest, occursIn_iff]
  · simp only [holdsOf, hcode, htest, List.isSuffixOf_iff_suffix]
  · cases expected with
    | list items => cases hwritten
    | _ => simp only [holdsOf, hcode, htest, occursIn_iff]

/-- A literal that names no type is compared with the canonical name as it is written. -/
theorem holds_of_unnamed {R : List Char → List Char → Prop}
    (hop : c.operator.relation? = some R) (hcase : c.options.caseless = false)
    (hc : c.subject = .elementType) {s : String} (hs : ∀ u, ¬ ElementType.NamedBy u s)
    (hliteral : c.literal = .text s) (e : ElementView) :
    c.holds e = true ↔ R e.attributes.elementType.name.toList s.toList := by
  have hcode : c.codeOfName c.literal = .text s := by
    rw [hliteral, codeOfName_of_unnamed hs]
  rw [holds, hc]
  exact holdsOf_relation hop hcase (readText?_code hc e.attributes.elementType) hcode rfl

/-- A literal that names a type has nothing in common with a canonical name. -/
theorem not_holds_of_named {R : List Char → List Char → Prop}
    (hop : c.operator.relation? = some R) (hcase : c.options.caseless = false)
    (hc : c.subject = .elementType) {s : String} {u : ElementType} (hu : u.NamedBy s)
    (hliteral : c.literal = .text s) {e : ElementView}
    (ht : e.attributes.elementType.isRegistered = true) : c.holds e = false := by
  have hcode : c.codeOfName c.literal = .number (.ofNat u.code.toNat) := by
    rw [hliteral, codeOfName_of_named hc hu]
  have hlt : u.code.toNat < 65536 := u.code.toNat_lt
  have hfinite := (Binary64.ofNat_exact (n := u.code.toNat) (by omega)).1
  rw [← Bool.not_eq_true, holds, hc]
  intro h
  rw [Attribute.read, holdsOf_relation hop hcase (readText?_code hc _) hcode rfl] at h
  exact ElementType.not_isInfix_of_numeral ht hfinite (CompareOperator.infix_of_relation hop h)

/-- **Text operators on types.**  With regard to case they compare the canonical name of the type
with the literal, unless the literal names a registered type: then they never hold. -/
theorem holds_type_iff {e : ElementView}
    (ht : e.attributes.elementType.isRegistered = true) {key : String}
    (hkey : Attribute.ofKey? key = some .elementType) {op : CompareOperator}
    {R : List Char → List Char → Prop} (hop : op.relation? = some R) (markless : Bool)
    (s : String) :
    ∃ c, ofDraft ⟨key, op, ⟨false, markless⟩, .text s⟩ = .ok c ∧
      (c.holds e = true ↔ R e.attributes.elementType.name.toList s.toList ∧
        ∀ u, ¬ ElementType.NamedBy u s) := by
  refine ⟨⟨.elementType, op, ⟨false, markless⟩, .text s⟩, ?_, ?_⟩
  · rw [ofDraft, hkey]
    cases op <;> first | rfl | cases hop
  by_cases hs : ∀ u, ¬ ElementType.NamedBy u s
  · rw [holds_of_unnamed hop rfl rfl hs rfl]
    exact (and_iff_left hs).symm
  · obtain ⟨u, hu⟩ := not_forall_not.mp hs
    rw [not_holds_of_named hop rfl rfl hu rfl ht]
    constructor
    · exact fun h => absurd h Bool.false_ne_true
    · exact fun h => absurd hu (h.2 u)

/-- Buttons, asked for by a part of their name. -/
theorem holds_type_iff_button :
    (ElementView.ofAttributes { elementType := .button }).attributes.elementType.isRegistered =
      true ∧
    ∃ c, ofDraft ⟨"type", .contains, ⟨false, false⟩, .text "Butt"⟩ = .ok c ∧
      (c.holds (ElementView.ofAttributes { elementType := .button }) = true ↔
        "Butt".toList <:+: ElementType.button.name.toList ∧
          ∀ u, ¬ ElementType.NamedBy u "Butt") :=
  ⟨by decide, holds_type_iff (e := ElementView.ofAttributes { elementType := .button })
    (by decide) (show Attribute.ofKey? "type" = some .elementType by decide)
    (show CompareOperator.contains.relation? = some fun actual expected => expected <:+: actual
      from rfl) false "Butt"⟩

/-- The short name of a type occurs in its canonical name, but no element of the type is found by
it. -/
theorem not_contains_shortName :
    "Button".toList <:+: ElementType.button.name.toList ∧
    ∃ c, ofDraft ⟨"type", .contains, {}, .text "Button"⟩ = .ok c ∧
      c.holds (ElementView.ofAttributes { elementType := .button }) = false := by
  have hnamed : ElementType.button.NamedBy "Button" := ⟨by decide, .inr (by decide +kernel)⟩
  refine ⟨by decide +kernel, ⟨.elementType, .contains, {}, .text "Button"⟩, rfl, ?_⟩
  exact not_holds_of_named rfl rfl rfl hnamed rfl (show ElementType.button.isRegistered = true by
    decide)

end Comparison

end ElementFinder
