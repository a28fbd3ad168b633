import ElementFinder.Predicate.Printing
import ElementFinder.Predicate.Reading
import ElementFinder.Proofs.Decimal.Numeral

/-!
# Literals read back

What is written for a literal is read up to its end and not beyond, provided that no character of
a key follows: such a character could continue a word or a number.  `Recovers` states this for
the literals whose numbers are finite, and for the others that nothing is read at all, since the
names of infinity and not-a-number are neither numerals nor words of the notation.

The fuel of the readers bounds the depth of the recursion; each step of it consumes characters,
so a multiple of the length of the text is enough.
-/

namespace ElementFinder

mutual

/-- The numbers in a literal. -/
def Literal.numbers : Literal → List Binary64
  | .text _ => []
  | .number value => [value]
  | .bool _ => []
  | .null => []
  | .list items => Literal.numbersOfAll items

/-- The numbers in some literals. -/
def Literal.numbersOfAll : List Literal → List Binary64
  | [] => []
  | item :: rest => item.numbers ++ Literal.numbersOfAll rest

end

namespace PredicateReading

/-- What a reader returns on the text of something: when `sound`, one that is the same, with all
of the text consumed up to `rest`, and otherwise nothing. -/
structure Recovers {α : Type} (sound : Prop) (same : α → Prop) (rest : List Char)
    (result : Option (α × List Char)) : Prop where
  found : sound → ∃ a, result = some (a, rest) ∧ same a
  lost : ¬ sound → result = none

/-- No character of a key comes next. -/
def Ends (rest : List Char) : Prop :=
  ∀ c ∈ rest.head?, isKeyChar c = false

/-- A character that no key has ends a key. -/
theorem ends_cons {c : Char} {rest : List Char} (h : isKeyChar c = false) : Ends (c :: rest) := by
  intro d hd
  obtain rfl : c = d := by simpa using hd
  exact h

/-- The end of a text ends a key. -/
theorem ends_nil : Ends [] := by
  intro c hc
  cases hc

/-- There is no gap before a character that is no blank. -/
theorem skipGap_cons {c : Char} (h : isGap c = false) (rest : List Char) :
    skipGap (c :: rest) = c :: rest := by
  simp [skipGap, h]

/-- A blank before a text is skipped. -/
theorem skipGap_space (rest : List Char) : skipGap (' ' :: rest) = skipGap rest := by
  have hspace : isGap ' ' = true := by decide
  simp [skipGap, hspace]

/-! ## Words -/

/-- A word is taken from where it stands. -/
theorem takeWord_append (word rest : List Char) : takeWord word (word ++ rest) = some rest := by
  induction word with
  | nil => rfl
  | cons w word ih => simpa [takeWord] using ih

/-- A keyword is taken off its own text. -/
theorem takeKeyword_append (word : String) {rest : List Char} (hrest : Ends rest) :
    takeKeyword word (word.toList ++ rest) = some rest := by
  rw [takeKeyword, takeWord_append]
  cases rest with
  | nil => rfl
  | cons c rest => simp [hrest c rfl]

/-- Two words differ, apart from case, at a place that both have. -/
def differ : List Char → List Char → Bool
  | a :: as, b :: bs => asciiLower a != asciiLower b || differ as bs
  | _, _ => false

/-- A word is not taken from a text that differs from it. -/
theorem takeWord_eq_none {word cs : List Char} (h : differ word cs = true) (rest : List Char) :
    takeWord word (cs ++ rest) = none := by
  induction word generalizing cs with
  | nil => simp [differ] at h
  | cons w word ih =>
      cases cs with
      | nil => simp [differ] at h
      | cons c cs =>
          by_cases hsame : asciiLower w = asciiLower c
          · have hlater : differ word cs = true := by simpa [differ, hsame] using h
            simpa [takeWord, hsame] using ih hlater
          · simp [takeWord, hsame]

/-- A keyword is not taken from a text that differs from it. -/
theorem takeKeyword_eq_none {word : String} {cs : List Char}
    (h : differ word.toList cs = true) (rest : List Char) :
    takeKeyword word (cs ++ rest) = none := by
  rw [takeKeyword, takeWord_eq_none h]

section Tables

variable {α : Type} {words : List (String × α)}

/-- None of some words is taken from a text that differs from all of them. -/
theorem takeFirst_eq_none {cs : List Char} (h : ∀ x ∈ words, differ x.1.toList cs = true)
    (rest : List Char) : takeFirst words (cs ++ rest) = none := by
  rw [takeFirst, List.findSome?_eq_none_iff]
  rintro ⟨word, a⟩ hword
  simp [takeKeyword_eq_none (h _ hword)]

/-- In a table of different words each is taken off its own text. -/
theorem takeFirst_append (hwords : words.Pairwise fun x y => differ x.1.toList y.1.toList = true)
    {word : String} {a : α} (hmem : (word, a) ∈ words) {rest : List Char} (hrest : Ends rest) :
    takeFirst words (word.toList ++ rest) = some (a, rest) := by
  induction words with
  | nil => cases hmem
  | cons x words ih =>
      obtain ⟨hfirst, hlater⟩ := List.pairwise_cons.mp hwords
      rcases List.mem_cons.mp hmem with rfl | hmem
      · simp [takeFirst, takeKeyword_append word hrest]
      · have hnone := takeKeyword_eq_none (hfirst _ hmem) rest
        simpa [takeFirst, hnone] using ih hlater hmem

end Tables

/-- A literal that is a word is read from it. -/
theorem takeFirst_wordLiterals {word : String} {l : Literal} (hmem : (word, l) ∈ wordLiterals)
    {rest : List Char} (hrest : Ends rest) :
    takeFirst wordLiterals (word.toList ++ rest) = some (l, rest) :=
  takeFirst_append (by decide) hmem hrest

/-! ## Texts and numbers -/

/-- A quoted text is read up to its closing mark. -/
theorem readQuoted_escape (cs rest : List Char) :
    readQuoted '"' (cs.flatMap Literal.escape ++ '"' :: rest) = some (cs, rest) := by
  induction cs with
  | nil => simp [readQuoted]
  | cons c cs ih =>
      by_cases hescaped : c = '\\' ∨ c = '"'
      · rcases hescaped with rfl | rfl <;> simp [Literal.escape, readQuoted, unescape, ih]
      · obtain ⟨hslash, hmark⟩ := not_or.mp hescaped
        have hread : ∀ tail, readQuoted '"' (c :: tail) =
            (readQuoted '"' tail).map fun read => (c :: read.1, read.2) := by
          intro tail
          simp [readQuoted, hslash, hmark]
        simp [Literal.escape, hslash, hmark, hread, ih]

section Numbers

open Binary64 Decimal

variable {rest : List Char}

/-- What may follow a number is no digit. -/
theorem Ends.not_digit (hrest : Ends rest) : ∀ c ∈ rest.head?, isDigit c = false := by
  intro c hc
  have hkey := hrest c hc
  simp only [isKeyChar, Bool.or_eq_false_iff] at hkey
  exact hkey.1.1.1.2

/-- Digits are taken up to the next character that is none. -/
theorem takeDigits_append {ds : List Char} (hne : ds ≠ []) (hds : ∀ c ∈ ds, isDigit c = true)
    (hrest : ∀ c ∈ rest.head?, isDigit c = false) : takeDigits (ds ++ rest) = some (ds, rest) := by
  rw [takeDigits, takeWhile_append_of_stop hds hrest, dropWhile_append_of_stop hds hrest]
  cases ds with
  | nil => exact absurd rfl hne
  | cons d ds => rfl

/-- A fraction is taken as it was written, even if there is none. -/
theorem takeFraction_append {fraction : List Char} (hds : ∀ c ∈ fraction, isDigit c = true)
    (hrest : Ends rest) :
    takeFraction (fractionChars fraction ++ rest) = (fractionChars fraction, rest) := by
  cases fraction with
  | nil =>
      cases rest with
      | nil => rfl
      | cons c rest =>
          have hpoint : c ≠ '.' := by
            rintro rfl
            exact absurd (hrest '.' rfl) (by decide)
          simp [fractionChars, takeFraction, hpoint]
  | cons d ds =>
      have htake := takeDigits_append (List.cons_ne_nil d ds) hds hrest.not_digit
      rw [List.cons_append] at htake
      simp [fractionChars, takeFraction, htake]

/-- Where a numeral ends there is no exponent. -/
theorem takeExponent_of_ends (hrest : Ends rest) : takeExponent rest = ([], rest) := by
  cases rest with
  | nil => rfl
  | cons c rest =>
      have hmark : ¬ (c = 'e' ∨ c = 'E') := by
        rintro (rfl | rfl)
        · exact absurd (hrest 'e' rfl) (by decide)
        · exact absurd (hrest 'E' rfl) (by decide)
      simp [takeExponent, hmark]

/-- The digits before a decimal point are taken up to the point. -/
theorem takeDigits_pointed {whole : List Char} (fraction : List Char) (hne : whole ≠ [])
    (hwhole : ∀ c ∈ whole, isDigit c = true) (hrest : Ends rest) :
    takeDigits (pointed whole fraction ++ rest) =
      some (whole, fractionChars fraction ++ rest) := by
  rw [pointed, List.append_assoc]
  apply takeDigits_append hne hwhole
  cases fraction with
  | nil => exact hrest.not_digit
  | cons d ds => simp [fractionChars, isDigit]

/-- A plain text is read as a number up to its end. -/
theorem readNumber_withSign {text : List Char} {m : Magnitude} (h : Plain text m)
    (negative : Bool) (hrest : Ends rest) :
    readNumber (withSign negative text ++ rest) = some (.number (.signed negative m), rest) := by
  have hread := ofNumeral?_withSign h negative
  obtain ⟨first, more, hfirst, hdigit⟩ := h.head
  obtain ⟨hwhole, hdigits⟩ := h
  rename_i whole fraction
  have hw : ∀ c ∈ whole, isDigit c = true := fun c hc => hdigits c (List.mem_append_left _ hc)
  have hf : ∀ c ∈ fraction, isDigit c = true := fun c hc => hdigits c (List.mem_append_right _ hc)
  have htake := takeDigits_pointed fraction hwhole hw hrest
  have hfraction := takeFraction_append hf hrest
  cases negative with
  | true =>
      simp only [withSign, if_true, pointed] at hread
      simp only [readNumber, withSign, if_true, List.cons_append, htake, hfraction,
        takeExponent_of_ends hrest, List.append_nil]
      simp [hread]
  | false =>
      have hminus : first ≠ '-' := ne_of_test hdigit (by decide)
      have hcons : pointed whole fraction ++ rest = first :: (more ++ rest) := by
        rw [hfirst, List.cons_append]
      rw [hcons] at htake
      simp only [withSign, Bool.false_eq_true, if_false, pointed] at hread
      rw [withSign, if_neg Bool.false_ne_true, hcons]
      simp [readNumber, hminus, htake, hfraction, takeExponent_of_ends hrest, hread]

end Numbers

/-- The text of a finite number is read as an equal number. -/
theorem readNumber_scalarText {x : Binary64} (hx : x.isFinite = true) {rest : List Char}
    (hrest : Ends rest) : ∃ y, readNumber (x.scalarText.toList ++ rest) = some (.number y, rest) ∧
      x.eqv y = true := by
  obtain ⟨negative, text, m, htext, hplain, heqv⟩ := Binary64.scalarText_plain hx
  rw [htext]
  exact ⟨.signed negative m, readNumber_withSign hplain negative hrest, heqv⟩

/-- The names of what is not finite. -/
theorem scalarText_of_not_finite {x : Binary64} (hx : ¬ x.isFinite = true) :
    x.scalarText.toList ∈ [['N', 'a', 'N'], ['i', 'n', 'f'], ['-', 'i', 'n', 'f']] := by
  cases x with
  | nan => decide
  | signed negative m =>
      have hinfinite : m.isFinite = false := by simpa [Binary64.isFinite] using hx
      have hzero : m.val ≠ 0 := by
        intro hzero
        simp [Magnitude.isFinite, hzero] at hinfinite
      have htext : (Binary64.signed negative m).scalarText.toList =
          Binary64.withSign negative ['i', 'n', 'f'] := by
        simp [Binary64.scalarText, Binary64.isZero, hzero, toString, Binary64.chars, hinfinite]
      rw [htext]
      cases negative <;> decide

/-- These names are neither numerals nor words. -/
theorem not_read_of_not_finite {x : Binary64} (hx : ¬ x.isFinite = true) (rest : List Char) :
    readNumber (x.scalarText.toList ++ rest) = none ∧
      takeFirst wordLiterals (x.scalarText.toList ++ rest) = none := by
  have hname := scalarText_of_not_finite hx
  simp only [List.mem_cons, List.not_mem_nil, or_false] at hname
  rcases hname with hname | hname | hname <;> rw [hname] <;> exact ⟨rfl, rfl⟩

/-! ## Literals -/

/-- A character that the text of a literal may begin with. -/
def opens (c : Char) : Bool :=
  !isGap c && c != '[' && c != '\x7d'

/-- A character that the text of a number may begin with. -/
def startsNumber (c : Char) : Bool :=
  isDigit c || c == '-' || c == 'i' || c == 'N'

/-- The text of a number begins with a digit, a sign or a letter. -/
theorem scalarText_head (x : Binary64) :
    ∃ c cs, x.scalarText.toList = c :: cs ∧ startsNumber c = true := by
  by_cases hx : x.isFinite = true
  · obtain ⟨negative, text, m, htext, hplain, -⟩ := Binary64.scalarText_plain hx
    rw [htext]
    cases negative with
    | true => exact ⟨'-', text, rfl, by decide⟩
    | false =>
        obtain ⟨c, cs, hcons, hdigit⟩ := hplain.head
        exact ⟨c, cs, hcons, by simp [startsNumber, hdigit]⟩
  · have hname := scalarText_of_not_finite hx
    simp only [List.mem_cons, List.not_mem_nil, or_false] at hname
    rcases hname with hname | hname | hname <;> rw [hname] <;> exact ⟨_, _, rfl, by decide⟩

/-- The characters that begin a number begin a literal. -/
theorem opens_of_startsNumber {c : Char} (hc : startsNumber c = true) : opens c = true := by
  have hne : ∀ d, startsNumber d = false → c ≠ d := fun d => ne_of_test hc
  simp [opens, isGap, hne ' ' (by decide), hne '\t' (by decide), hne '\r' (by decide),
    hne '\n' (by decide), hne '[' (by decide), hne '\x7d' (by decide)]

/-- The text of a literal begins with a character that begins literals. -/
theorem opens_chars (l : Literal) : ∃ c cs, l.chars = c :: cs ∧ opens c = true := by
  cases l with
  | text content => exact ⟨_, _, by rw [Literal.chars, Literal.quoted]; rfl, by decide⟩
  | number value =>
      obtain ⟨c, cs, htext, hstart⟩ := scalarText_head value
      exact ⟨c, cs, by rw [Literal.chars, htext], opens_of_startsNumber hstart⟩
  | bool flag => cases flag <;> exact ⟨_, _, rfl, by decide⟩
  | null => exact ⟨_, _, rfl, by decide⟩
  | list items => exact ⟨_, _, by rw [Literal.chars]; rfl, by decide⟩

/-- The texts of the further items of a list, with the commas before them. -/
def furtherItems (items : List Literal) : List Char :=
  items.flatMap fun item => ',' :: ' ' :: item.chars

/-- The further items of a list stand after a comma and a blank each. -/
theorem furtherItems_cons (item : Literal) (items : List Literal) :
    furtherItems (item :: items) = ',' :: ' ' :: (item.chars ++ furtherItems items) := by
  simp [furtherItems]

/-- The items of a list are the first one and then the further ones. -/
theorem charsOfAll_cons (item : Literal) (items : List Literal) :
    Literal.charsOfAll (item :: items) = item.chars ++ furtherItems items := by
  induction items generalizing item with
  | nil => simp [Literal.charsOfAll, furtherItems]
  | cons next items ih => simp [Literal.charsOfAll, furtherItems, ih]

/-- Reads an item and then the further items. -/
def readItemThen (fuel : Nat) (start : List Char) : Option (List Literal × List Char) :=
  (readLiteral fuel start).bind fun (item, rest) =>
    (readItems fuel false (skipGap rest)).map fun (items, rest) => (item :: items, rest)

/-- No literal begins with a blank. -/
theorem not_isGap_of_opens {c : Char} (h : opens c = true) : isGap c = false := by
  simp only [opens, Bool.and_eq_true, Bool.not_eq_true'] at h
  exact h.1.1

/-- The text of a literal is not empty, so what is enough fuel for it is not zero. -/
theorem exists_eq_succ {l : Literal} {fuel : Nat} (h : 2 * l.chars.length ≤ fuel) :
    ∃ k, fuel = k + 1 := by
  obtain ⟨c, cs, hcons, -⟩ := opens_chars l
  rw [hcons, List.length_cons] at h
  exact ⟨fuel - 1, by omega⟩

/-- The first item of a list follows the bracket directly. -/
theorem readItems_first {fuel : Nat} {c : Char} (hc : opens c = true) (cs : List Char) :
    readItems (fuel + 1) true (c :: cs) = readItemThen fuel (c :: cs) := by
  have hbrace : c ≠ '\x7d' := ne_of_test hc (by decide)
  cases hitem : readLiteral fuel (c :: cs) with
  | none => simp [readItems, readItemThen, hbrace, hitem]
  | some found =>
      cases hitems : readItems fuel false (skipGap found.2) <;>
        simp [readItems, readItemThen, hbrace, hitem, hitems]

/-- A further item of a list follows a comma and a blank. -/
theorem readItems_next {fuel : Nat} {c : Char} (hc : opens c = true) (cs : List Char) :
    readItems (fuel + 1) false (',' :: ' ' :: c :: cs) = readItemThen fuel (c :: cs) := by
  have hskip : skipGap (' ' :: c :: cs) = c :: cs := by
    rw [skipGap_space, skipGap_cons (not_isGap_of_opens hc)]
  cases hitem : readLiteral fuel (c :: cs) with
  | none => simp [readItems, readItemThen, hskip, hitem]
  | some found =>
      cases hitems : readItems fuel false (skipGap found.2) <;>
        simp [readItems, readItemThen, hskip, hitem, hitems]

/-- What follows an item is another item or the end of the list. -/
theorem furtherItems_head (items : List Literal) (rest : List Char) :
    ∃ c cs, furtherItems items ++ '\x7d' :: rest = c :: cs ∧ isKeyChar c = false ∧
      isGap c = false := by
  cases items with
  | nil => exact ⟨_, _, rfl, by decide, by decide⟩
  | cons item items => exact ⟨_, _, rfl, by decide, by decide⟩

/-- If an item and the further items are read back, so are all. -/
theorem recovers_itemThen {item : Literal} {items : List Literal} {fuel : Nat}
    {start rest : List Char}
    (hitem : Recovers (∀ x ∈ item.numbers, x.isFinite = true) (fun l => item.eqv l = true)
      (furtherItems items ++ '\x7d' :: rest) (readLiteral fuel start))
    (hitems : Recovers (∀ x ∈ Literal.numbersOfAll items, x.isFinite = true)
      (fun ls => Literal.eqvAll items ls = true) rest
      (readItems fuel false (furtherItems items ++ '\x7d' :: rest))) :
    Recovers (∀ x ∈ Literal.numbersOfAll (item :: items), x.isFinite = true)
      (fun ls => Literal.eqvAll (item :: items) ls = true) rest (readItemThen fuel start) := by
  have hgap : skipGap (furtherItems items ++ '\x7d' :: rest) =
      furtherItems items ++ '\x7d' :: rest := by
    obtain ⟨c, cs, hcons, -, hgap⟩ := furtherItems_head items rest
    rw [hcons, skipGap_cons hgap]
  simp only [Literal.numbersOfAll, List.forall_mem_append]
  constructor
  · rintro ⟨hfinite, hothers⟩
    obtain ⟨l, hl, hsame⟩ := hitem.found hfinite
    obtain ⟨ls, hls, hsames⟩ := hitems.found hothers
    exact ⟨l :: ls, by simp [readItemThen, hl, hgap, hls], by simp [Literal.eqvAll, hsame, hsames]⟩
  · intro hnot
    by_cases hfinite : ∀ x ∈ item.numbers, x.isFinite = true
    · obtain ⟨l, hl, -⟩ := hitem.found hfinite
      have hlost := hitems.lost fun hothers => hnot ⟨hfinite, hothers⟩
      simp [readItemThen, hl, hgap, hlost]
    · simp [readItemThen, hitem.lost hfinite]

/-! ## Literals read back -/

/-- A reader that returns the same and leaves the rest recovers it. -/
theorem recovers_of_eq {α : Type} {sound : Prop} {same : α → Prop} {rest : List Char} {a : α}
    {result : Option (α × List Char)} (hsound : sound) (hresult : result = some (a, rest))
    (hsame : same a) : Recovers sound same rest result :=
  ⟨fun _ => ⟨a, hresult, hsame⟩, fun hnot => absurd hsound hnot⟩

/-- A number is read back if it is finite, and otherwise nothing is read. -/
theorem recovers_number (value : Binary64) {fuel : Nat} {rest : List Char} (hrest : Ends rest) :
    Recovers (∀ x ∈ (Literal.number value).numbers, x.isFinite = true)
      (fun l => (Literal.number value).eqv l = true) rest
      (readLiteral (fuel + 1) ((Literal.number value).chars ++ rest)) := by
  obtain ⟨c, cs, hcons, hstart⟩ := scalarText_head value
  have hquote : c ≠ '"' := ne_of_test hstart (by decide)
  have hmark : c ≠ '\x27' := ne_of_test hstart (by decide)
  have hbrace : c ≠ '\x7b' := ne_of_test hstart (by decide)
  have hread : readLiteral (fuel + 1) ((Literal.number value).chars ++ rest) =
      (readNumber (value.scalarText.toList ++ rest)).or
        (takeFirst wordLiterals (value.scalarText.toList ++ rest)) := by
    rw [Literal.chars, hcons]
    simp [readLiteral, hquote, hmark, hbrace]
  simp only [Literal.numbers, List.mem_singleton, forall_eq, hread]
  constructor
  · intro hfinite
    obtain ⟨y, hy, hsame⟩ := readNumber_scalarText hfinite hrest
    exact ⟨.number y, by rw [hy, Option.some_or], by simpa [Literal.eqv] using hsame⟩
  · intro hnot
    obtain ⟨hnumber, hword⟩ := not_read_of_not_finite hnot rest
    rw [hnumber, hword, Option.or_none]

/-- A word is read back. -/
theorem readLiteral_word (word : String) {l : Literal} (hmem : (word, l) ∈ wordLiterals)
    {fuel : Nat} {rest : List Char} (hrest : Ends rest) :
    readLiteral (fuel + 1) (word.toList ++ rest) = some (l, rest) := by
  have hread : readLiteral (fuel + 1) (word.toList ++ rest) =
      takeFirst wordLiterals (word.toList ++ rest) := by
    simp only [wordLiterals, List.mem_cons, Prod.mk.injEq, List.not_mem_nil, or_false] at hmem
    rcases hmem with ⟨rfl, -⟩ | ⟨rfl, -⟩ | ⟨rfl, -⟩ | ⟨rfl, -⟩ | ⟨rfl, -⟩ | ⟨rfl, -⟩ <;> rfl
  rw [hread, takeFirst_wordLiterals hmem hrest]

/-- A list is read back if its items are. -/
theorem recovers_list {items : List Literal} {fuel : Nat} {rest : List Char}
    (h : Recovers (∀ x ∈ Literal.numbersOfAll items, x.isFinite = true)
      (fun ls => Literal.eqvAll items ls = true) rest
      (readItems fuel true (Literal.charsOfAll items ++ '\x7d' :: rest))) :
    Recovers (∀ x ∈ (Literal.list items).numbers, x.isFinite = true)
      (fun l => (Literal.list items).eqv l = true) rest
      (readLiteral (fuel + 1) ((Literal.list items).chars ++ rest)) := by
  have hgap : skipGap (Literal.charsOfAll items ++ '\x7d' :: rest) =
      Literal.charsOfAll items ++ '\x7d' :: rest := by
    cases items with
    | nil => exact skipGap_cons (by decide) rest
    | cons item items =>
        obtain ⟨c, cs, hcons, hopens⟩ := opens_chars item
        rw [charsOfAll_cons, hcons]
        exact skipGap_cons (not_isGap_of_opens hopens) _
  have hchars : (Literal.list items).chars ++ rest =
      '\x7b' :: (Literal.charsOfAll items ++ '\x7d' :: rest) := by
    simp [Literal.chars]
  rw [hchars]
  constructor
  · intro hfinite
    obtain ⟨ls, hls, hsame⟩ := h.found hfinite
    exact ⟨.list ls, by simp [readLiteral, hgap, hls], by simpa [Literal.eqv] using hsame⟩
  · intro hnot
    have hlost := h.lost hnot
    simp [readLiteral, hgap, hlost]

-- By induction on the literal.  An opening brace costs one step of fuel and each item two, one
-- for the list and one for the item itself, so twice the length of the text is enough.
mutual

/-- **A literal is read back from its text**, and only if its numbers are finite. -/
theorem recovers_readLiteral : ∀ (l : Literal) {fuel : Nat} {rest : List Char}, Ends rest →
    2 * l.chars.length ≤ fuel →
    Recovers (∀ x ∈ l.numbers, x.isFinite = true) (fun l' => l.eqv l' = true) rest
      (readLiteral fuel (l.chars ++ rest))
  | .text content, fuel, rest, hrest, hfuel => by
      obtain ⟨fuel, rfl⟩ := exists_eq_succ hfuel
      apply recovers_of_eq (a := .text content)
      · simp [Literal.numbers]
      · simp [Literal.chars, Literal.quoted, readLiteral, readQuoted_escape]
      · simp [Literal.eqv]
  | .number value, fuel, rest, hrest, hfuel => by
      obtain ⟨fuel, rfl⟩ := exists_eq_succ hfuel
      exact recovers_number value hrest
  | .bool flag, fuel, rest, hrest, hfuel => by
      obtain ⟨fuel, rfl⟩ := exists_eq_succ hfuel
      apply recovers_of_eq (a := .bool flag)
      · simp [Literal.numbers]
      · cases flag with
        | true => exact readLiteral_word "TRUE" (by simp [wordLiterals]) hrest
        | false => exact readLiteral_word "FALSE" (by simp [wordLiterals]) hrest
      · simp [Literal.eqv]
  | .null, fuel, rest, hrest, hfuel => by
      obtain ⟨fuel, rfl⟩ := exists_eq_succ hfuel
      apply recovers_of_eq (a := .null)
      · simp [Literal.numbers]
      · exact readLiteral_word "NIL" (by simp [wordLiterals]) hrest
      · simp [Literal.eqv]
  | .list items, fuel, rest, hrest, hfuel => by
      obtain ⟨fuel, rfl⟩ := exists_eq_succ hfuel
      apply recovers_list
      apply recovers_readItems_first items
      simp only [Literal.chars, List.length_append, List.length_cons, List.length_nil] at hfuel
      omega

/-- The items of a list are read back up to the end of the list. -/
theorem recovers_readItems_first : ∀ (items : List Literal) {fuel : Nat} {rest : List Char},
    2 * (Literal.charsOfAll items).length + 2 ≤ fuel →
    Recovers (∀ x ∈ Literal.numbersOfAll items, x.isFinite = true)
      (fun ls => Literal.eqvAll items ls = true) rest
      (readItems fuel true (Literal.charsOfAll items ++ '\x7d' :: rest))
  | [], 0, rest, hfuel => by
      omega
  | item :: items, 0, rest, hfuel => by
      omega
  | [], fuel + 1, rest, hfuel => by
      apply recovers_of_eq (a := [])
      · simp [Literal.numbersOfAll]
      · simp [Literal.charsOfAll, readItems]
      · simp [Literal.eqvAll]
  | item :: items, fuel + 1, rest, hfuel => by
      obtain ⟨c, cs, hcons, hopens⟩ := opens_chars item
      obtain ⟨d, ds, hnext, hends, -⟩ := furtherItems_head items rest
      rw [charsOfAll_cons, List.length_append] at hfuel
      rw [charsOfAll_cons, List.append_assoc, hcons, List.cons_append, readItems_first hopens,
        ← List.cons_append, ← hcons]
      apply recovers_itemThen
      · exact recovers_readLiteral item (by rw [hnext]; exact ends_cons hends) (by omega)
      · exact recovers_readItems items (by omega)

/-- The further items of a list are read back up to the end of the list. -/
theorem recovers_readItems : ∀ (items : List Literal) {fuel : Nat} {rest : List Char},
    2 * (furtherItems items).length + 1 ≤ fuel →
    Recovers (∀ x ∈ Literal.numbersOfAll items, x.isFinite = true)
      (fun ls => Literal.eqvAll items ls = true) rest
      (readItems fuel false (furtherItems items ++ '\x7d' :: rest))
  | [], 0, rest, hfuel => by
      omega
  | item :: items, 0, rest, hfuel => by
      omega
  | [], fuel + 1, rest, hfuel => by
      apply recovers_of_eq (a := [])
      · simp [Literal.numbersOfAll]
      · simp [furtherItems, readItems]
      · simp [Literal.eqvAll]
  | item :: items, fuel + 1, rest, hfuel => by
      obtain ⟨c, cs, hcons, hopens⟩ := opens_chars item
      obtain ⟨d, ds, hnext, hends, -⟩ := furtherItems_head items rest
      rw [furtherItems_cons] at hfuel
      simp only [List.length_cons, List.length_append] at hfuel
      rw [furtherItems_cons, List.cons_append, List.cons_append, List.append_assoc, hcons,
        List.cons_append, readItems_next hopens, ← List.cons_append, ← hcons]
      apply recovers_itemThen
      · exact recovers_readLiteral item (by rw [hnext]; exact ends_cons hends) (by omega)
      · exact recovers_readItems items (by omega)

end

end PredicateReading

end ElementFinder
