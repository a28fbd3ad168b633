import ElementFinder.Decimal.Layout
import ElementFinder.Decimal.Reading
import ElementFinder.Proofs.Attributes.Alike
import ElementFinder.Proofs.Decimal.ReadBack

/-!
# Number texts read back

Finite numbers are written with digits and at most one point, never with an exponent.  `Plain`
describes such texts by the digits before and after the point, together with the magnitude that
they are read as: the digits are read as one coefficient, and each digit after the point counts
one down in the exponent.  All three layouts of a decimal are plain texts of what the decimal is
read as, so by the read-back law of the shortest decimals a finite number is read from its own
text, up to the sign of zero, which is not written.
-/

namespace ElementFinder

/-! ## Runs of characters -/

section Runs

variable {p : Char → Bool} {cs rest : List Char}

/-- What is taken ends where the next character does not pass. -/
theorem takeWhile_append_of_stop (hcs : ∀ c ∈ cs, p c = true)
    (hrest : ∀ c ∈ rest.head?, p c = false) : (cs ++ rest).takeWhile p = cs := by
  rw [List.takeWhile_append_of_pos hcs]
  cases rest with
  | nil => simp
  | cons c rest => simp [hrest c rfl]

/-- What is dropped ends where the next character does not pass. -/
theorem dropWhile_append_of_stop (hcs : ∀ c ∈ cs, p c = true)
    (hrest : ∀ c ∈ rest.head?, p c = false) : (cs ++ rest).dropWhile p = rest := by
  rw [List.dropWhile_append_of_pos hcs]
  cases rest with
  | nil => simp
  | cons c rest => simp [hrest c rfl]

/-- Characters that a test tells apart are different. -/
theorem ne_of_test {c d : Char} (hc : p c = true) (hd : p d = false) : c ≠ d := by
  rintro rfl
  rw [hc] at hd
  cases hd

end Runs

/-! ## Digits -/

/-- A numeral of a whole number is digits. -/
theorem isDigit_of_mem_toDigits {n : Nat} {c : Char} (h : c ∈ Nat.toDigits 10 n) :
    isDigit c = true := by
  have hdigit : c.isDigit = true := Nat.isDigit_of_mem_toDigits (by decide) (by decide) h
  simpa [isDigit, Char.isDigit, Char.le_def] using hdigit

/-- The digits of a number write the number. -/
theorem digitsValue_toDigits (n : Nat) : digitsValue 0 (Nat.toDigits 10 n) = n := by
  rw [digitsValue]
  exact (Nat.ofDigitChars_eq_foldl (b := 10)).symm.trans Nat.ofDigitChars_ten_toDigits

/-- The digits of a number read back as the number. -/
theorem natOfDigits?_toDigits (n : Nat) : natOfDigits? (Nat.toDigits 10 n) = some n := by
  have hall : (Nat.toDigits 10 n).all isDigit = true :=
    List.all_eq_true.mpr fun c hc => isDigit_of_mem_toDigits hc
  simp [natOfDigits?, hall, digitsValue_toDigits]

/-- Digits have no sign. -/
theorem splitSign_of_isDigit {c : Char} {rest : List Char} (h : isDigit c = true) :
    splitSign (c :: rest) = (false, c :: rest) := by
  have hminus : c ≠ '-' := ne_of_test h (by decide)
  have hplus : c ≠ '+' := ne_of_test h (by decide)
  simp [splitSign, hminus, hplus]

/-- The text of an integer: digits, after a minus sign if it is negative. -/
theorem toList_toString_int (i : Int) :
    (toString i).toList = (if i < 0 then ['-'] else []) ++ Nat.toDigits 10 i.natAbs := by
  cases i with
  | ofNat n =>
      have hsign : ¬ (Int.ofNat n < 0) := by simp
      rw [if_neg hsign]
      show (Nat.repr n).toList = _
      simp
  | negSucc n =>
      rw [if_pos (Int.negSucc_lt_zero n)]
      show ("-" ++ Nat.repr (n + 1)).toList = _
      simp

/-- An integer is read from its text. -/
theorem intOfDigits?_toString (i : Int) : intOfDigits? (toString i).toList = some i := by
  rw [toList_toString_int]
  by_cases hsign : i < 0
  · rw [if_pos hsign, List.singleton_append, intOfDigits?, splitSign]
    simp only [natOfDigits?_toDigits]
    show some (-(i.natAbs : Int)) = some i
    exact congrArg some (by omega)
  · obtain ⟨c, rest, hcons⟩ :=
      List.exists_cons_of_ne_nil (Nat.toDigits_ne_nil (b := 10) (n := i.natAbs))
    have hdigit : isDigit c = true := by
      apply isDigit_of_mem_toDigits (n := i.natAbs)
      rw [hcons]
      exact List.mem_cons_self
    have hplain : splitSign (Nat.toDigits 10 i.natAbs) = (false, Nat.toDigits 10 i.natAbs) := by
      rw [hcons]
      exact splitSign_of_isDigit hdigit
    rw [if_neg hsign, List.nil_append, intOfDigits?, hplain]
    simp only [natOfDigits?_toDigits]
    show some (i.natAbs : Int) = some i
    exact congrArg some (by omega)

/-- Further digits go on from the value of the first ones. -/
theorem digitsValue_append (start : Nat) (ds es : List Char) :
    digitsValue start (ds ++ es) = digitsValue (digitsValue start ds) es :=
  List.foldl_append

/-- Each zero behind digits makes the value ten times as large. -/
theorem digitsValue_replicate_zero (start k : Nat) :
    digitsValue start (List.replicate k '0') = start * 10 ^ k := by
  induction k generalizing start with
  | zero => simp [digitsValue]
  | succ k ih =>
      have hstep : digitsValue start (List.replicate (k + 1) '0') =
          digitsValue (10 * start) (List.replicate k '0') := rfl
      rw [hstep, ih, Nat.pow_succ', Nat.mul_comm 10 start, Nat.mul_assoc]

namespace Decimal

/-- A point and a fraction, or nothing. -/
def fractionChars (fraction : List Char) : List Char :=
  if fraction.isEmpty then [] else '.' :: fraction

/-- Digits, and a point before a fraction that is not empty. -/
def pointed (whole fraction : List Char) : List Char :=
  whole ++ fractionChars fraction

/-- The texts without sign and exponent, and the magnitude that each is read as. -/
inductive Plain : List Char → Magnitude → Prop where
  | mk {whole fraction : List Char} (nonempty : whole ≠ [])
      (digits : ∀ c ∈ whole ++ fraction, isDigit c = true) :
      Plain (pointed whole fraction)
        (nearest ⟨digitsValue 0 (whole ++ fraction), -(fraction.length : Int)⟩)

/-- Digits around a decimal point are a plain numeral of the nearest number. -/
theorem plain_of_eq {text : List Char} {m : Magnitude} (whole fraction : List Char)
    (nonempty : whole ≠ []) (digits : ∀ c ∈ whole ++ fraction, isDigit c = true)
    (htext : text = pointed whole fraction)
    (hvalue : nearest ⟨digitsValue 0 (whole ++ fraction), -(fraction.length : Int)⟩ = m) :
    Plain text m := by
  subst htext hvalue
  exact .mk nonempty digits

/-- The digit zero is a plain numeral. -/
theorem plain_zero : Plain ['0'] .zero :=
  plain_of_eq ['0'] [] (by simp) (by simp [isDigit]) rfl rfl

section Layouts

variable {c : Nat}

/-- Zeros are digits. -/
theorem isDigit_of_mem_zeros {k : Nat} {x : Char} (h : x ∈ List.replicate k '0') :
    isDigit x = true := by
  rw [List.eq_of_mem_replicate h]
  rfl

/-- A whole number: the exponent is written out as zeros. -/
theorem plain_positional_whole {e : Int} (hc : c ≠ 0) (he : 0 ≤ e) :
    Plain (positional ⟨c, e⟩) (nearest ⟨c, e⟩) := by
  apply plain_of_eq (digits c ++ List.replicate e.toNat '0') []
  · simp [digits]
  · intro x hx
    rw [List.append_nil, List.mem_append] at hx
    exact hx.elim isDigit_of_mem_toDigits isDigit_of_mem_zeros
  · simp [positional, pointed, fractionChars, he, hc]
  · rw [List.append_nil, digitsValue_append, digits, digitsValue_toDigits,
      digitsValue_replicate_zero]
    exact nearest_whole he

/-- A fraction shorter than the digits: the point stands between them. -/
theorem plain_positional_mixed {k : Nat} (hk : 0 < k) (hshort : k < (digits c).length) :
    Plain (positional ⟨c, -(k : Int)⟩) (nearest ⟨c, -(k : Int)⟩) := by
  obtain ⟨n, hn⟩ : ∃ n, n = (digits c).length - k := ⟨_, rfl⟩
  have hsplit : (digits c).take n ++ (digits c).drop n = digits c := List.take_append_drop n _
  have hlength : ((digits c).drop n).length = k := by
    rw [List.length_drop]
    omega
  have hfraction : (digits c).drop n ≠ [] := List.ne_nil_of_length_pos (hlength ▸ hk)
  apply plain_of_eq ((digits c).take n) ((digits c).drop n)
  · have hpos : 0 < ((digits c).take n).length := by
      rw [List.length_take]
      omega
    exact List.ne_nil_of_length_pos hpos
  · rw [hsplit]
    exact fun x hx => isDigit_of_mem_toDigits hx
  · rw [pointed, fractionChars, List.isEmpty_eq_false_iff.mpr hfraction, hn]
    simp [positional, Nat.ne_of_gt hk, hshort]
  · rw [hsplit, hlength, digits, digitsValue_toDigits]

/-- A fraction as long as the digits or longer: all digits stand behind the point, after
zeros. -/
theorem plain_positional_small {k : Nat} (hk : 0 < k) (hlong : (digits c).length ≤ k) :
    Plain (positional ⟨c, -(k : Int)⟩) (nearest ⟨c, -(k : Int)⟩) := by
  apply plain_of_eq ['0'] (List.replicate (k - (digits c).length) '0' ++ digits c)
  · simp
  · intro x hx
    rcases List.mem_append.mp hx with hhead | htail
    · exact isDigit_of_mem_zeros (k := 1) hhead
    · exact (List.mem_append.mp htail).elim isDigit_of_mem_zeros isDigit_of_mem_toDigits
  · have hne : digits c ≠ [] := by simp [digits]
    simp [positional, pointed, fractionChars, Nat.ne_of_gt hk, Nat.not_lt.mpr hlong, hne]
  · have hlength : (List.replicate (k - (digits c).length) '0' ++ digits c).length = k := by
      rw [List.length_append, List.length_replicate, Nat.sub_add_cancel hlong]
    have hzero : digitsValue 0 ['0'] = 0 := rfl
    rw [hlength, digitsValue_append, digitsValue_append, hzero, digitsValue_replicate_zero,
      Nat.zero_mul, digits, digitsValue_toDigits]

end Layouts

/-- Every layout of a decimal is a plain text of what the decimal is read as. -/
theorem plain_positional (d : Decimal) : Plain d.positional d.nearest := by
  obtain ⟨c, e⟩ := d
  by_cases he : 0 ≤ e
  · by_cases hc : c = 0
    · rw [show nearest ⟨c, e⟩ = .zero by simp [nearest, hc]]
      simpa [positional, he, hc] using plain_zero
    · exact plain_positional_whole hc he
  obtain ⟨k, rfl, hk⟩ : ∃ k : Nat, e = -(k : Int) ∧ 0 < k := ⟨(-e).toNat, by omega, by omega⟩
  rcases Nat.lt_or_ge k (digits c).length with hshort | hlong
  · exact plain_positional_mixed hk hshort
  · exact plain_positional_small hk hlong

/-! ## Reading a plain text -/

namespace Plain

variable {text : List Char} {m : Magnitude}

/-- A plain text begins with a digit. -/
theorem head (h : Plain text m) : ∃ c rest, text = c :: rest ∧ isDigit c = true := by
  obtain ⟨hwhole, hdigits⟩ := h
  rename_i whole fraction
  cases whole with
  | nil => exact absurd rfl hwhole
  | cons c whole => exact ⟨c, _, rfl, hdigits c (by simp)⟩

/-- A plain text is read as its magnitude. -/
theorem ofNumeral? (h : Plain text m) : (Decimal.ofNumeral? text).map nearest = some m := by
  obtain ⟨hwhole, hdigits⟩ := h
  rename_i whole fraction
  have hw : ∀ c ∈ whole, isDigit c = true := fun c hc => hdigits c (List.mem_append_left _ hc)
  have hf : ∀ c ∈ fraction, isDigit c = true := fun c hc => hdigits c (List.mem_append_right _ hc)
  have hend : ∀ c ∈ ([] : List Char).head?, isDigit c = false := by simp
  cases fraction with
  | nil =>
      have htake : whole.takeWhile isDigit = whole := by
        simpa using takeWhile_append_of_stop hw hend
      have hdrop : whole.dropWhile isDigit = [] := by
        simpa using dropWhile_append_of_stop hw hend
      simp [Decimal.ofNumeral?, pointed, fractionChars, htake, hdrop, hwhole, digitsValue]
  | cons f fraction =>
      have hpoint : ∀ c ∈ ('.' :: f :: fraction).head?, isDigit c = false := by
        simp [isDigit]
      have htake : (f :: fraction).takeWhile isDigit = f :: fraction := by
        simpa using takeWhile_append_of_stop hf hend
      have hdrop : (f :: fraction).dropWhile isDigit = [] := by
        simpa using dropWhile_append_of_stop hf hend
      simp only [Decimal.ofNumeral?, pointed, fractionChars, List.isEmpty_cons,
        Bool.false_eq_true, if_false, takeWhile_append_of_stop hw hpoint,
        dropWhile_append_of_stop hw hpoint, htake, hdrop, digitsValue_append]
      simp

end Plain

end Decimal

namespace Binary64

open Decimal

/-- The sign before a plain numeral is split off. -/
theorem splitSign_withSign {text : List Char} {m : Magnitude} (h : Plain text m)
    (negative : Bool) : splitSign (withSign negative text) = (negative, text) := by
  cases negative with
  | true => rfl
  | false =>
      obtain ⟨c, rest, rfl, hdigit⟩ := h.head
      exact splitSign_of_isDigit hdigit

/-- A text that begins with a digit is no word that begins with a letter. -/
theorem ofList_ne_word {cs : List Char} {word : String} {c w : Char}
    (hhead : cs.head? = some c) (hdigit : isDigit c = true) (hword : word.toList.head? = some w)
    (hletter : isDigit w = false) : String.ofList (cs.map asciiLower) ≠ word := by
  rintro rfl
  have hlower : asciiLower c = c := by
    have hsmall : ¬ ('A' ≤ c ∧ c ≤ 'Z') := by
      simp only [isDigit, Bool.and_eq_true, decide_eq_true_eq] at hdigit
      intro hupper
      exact absurd (Char.le_trans hupper.1 hdigit.2) (by decide)
    simp [asciiLower, hsmall]
  obtain rfl : c = w := by simpa [hhead, hlower] using hword
  rw [hdigit] at hletter
  cases hletter

/-- A plain text after an optional minus sign is read as the signed magnitude. -/
theorem ofNumeral?_withSign {text : List Char} {m : Magnitude} (h : Plain text m)
    (negative : Bool) : ofNumeral? (withSign negative text) = some (.signed negative m) := by
  have hread := h.ofNumeral?
  obtain ⟨c, rest, hcons, hdigit⟩ := h.head
  have hhead : text.head? = some c := by rw [hcons, List.head?_cons]
  have hinf : String.ofList (text.map asciiLower) ≠ "inf" :=
    ofList_ne_word (w := 'i') hhead hdigit rfl (by decide)
  have hinfinity : String.ofList (text.map asciiLower) ≠ "infinity" :=
    ofList_ne_word (w := 'i') hhead hdigit rfl (by decide)
  have hnan : String.ofList (text.map asciiLower) ≠ "nan" :=
    ofList_ne_word (w := 'n') hhead hdigit rfl (by decide)
  obtain ⟨d, hd, rfl⟩ := Option.map_eq_some_iff.mp hread
  simp [ofNumeral?, splitSign_withSign h, hinf, hinfinity, hnan, hd]

/-- The text of a finite number is plain, after a minus sign if it is negative, and what it is
read as equals the number. -/
theorem scalarText_plain {x : Binary64} (hx : x.isFinite = true) :
    ∃ negative text m, x.scalarText.toList = withSign negative text ∧ Plain text m ∧
      x.eqv (.signed negative m) = true := by
  cases x with
  | nan => cases hx
  | signed negative m =>
      by_cases hzero : m.val = 0
      · refine ⟨false, ['0'], .zero, ?_, plain_zero, ?_⟩
        · simp [scalarText, isZero, hzero, withSign]
        · cases negative <;> simp [eqv, place, hzero, Magnitude.zero]
      · refine ⟨negative, (shortest m).positional, m, ?_, ?_, ?_⟩
        · have hfinite : m.isFinite = true := hx
          simp [scalarText, isZero, hzero, toString, chars, hfinite]
        · simpa [nearest_shortest] using plain_positional (shortest m)
        · exact eqv_self rfl

end Binary64

end ElementFinder
