import ElementFinder.Pattern.Wildcard
import ElementFinder.Proofs.Pattern.Spans

/-!
# Wildcard patterns match as they are meant to

`Glob` says which texts a wildcard pattern describes, with one rule for each kind of character.
A wildcard pattern can be translated to a pattern character by character (`wildcard`), and this
pattern matches exactly the texts described (`occursIn_wildcard`).
-/

namespace ElementFinder

/-- A wildcard pattern describes a text: a star any run of characters, a question mark any one
character, a backslash and a character that character, a backslash at the end nothing, and any
other character itself. -/
def Glob : List Char → List Char → Prop
  | [], text => text = []
  | '*' :: ps, text => ∃ skipped rest, text = skipped ++ rest ∧ Glob ps rest
  | '?' :: ps, text => ∃ c rest, text = c :: rest ∧ Glob ps rest
  | ['\\'], text => text = []
  | '\\' :: c :: ps, text => ∃ rest, text = c :: rest ∧ Glob ps rest
  | c :: ps, text => ∃ rest, text = c :: rest ∧ Glob ps rest

namespace Pattern

/-- One given character; without regard to case, any character of its orbit. -/
def literal (caseless : Bool) (c : Char) : Pattern :=
  one (if caseless then .folded (.single c) else .single c)

/-- The pattern of the characters of a wildcard pattern. -/
def ofWildcard (caseless : Bool) : List Char → Pattern
  | [] => empty
  | '*' :: rest => seq (repeated (one .all) 0 none) (ofWildcard caseless rest)
  | '?' :: rest => seq (one .all) (ofWildcard caseless rest)
  | ['\\'] => empty
  | '\\' :: c :: rest => seq (literal caseless c) (ofWildcard caseless rest)
  | c :: rest => seq (literal caseless c) (ofWildcard caseless rest)

/-- The pattern that matches the texts a wildcard pattern describes. -/
def wildcard (caseless : Bool) (cs : List Char) : Pattern :=
  whole (ofWildcard caseless cs)

variable {text : List Char} {i j : Nat}

theorem contains_single {c d : Char} : (CharSet.single c).contains d.toNat = true ↔ d = c := by
  simp only [CharSet.single, CharSet.contains, List.any_cons, List.any_nil, Bool.or_false,
    Bool.and_eq_true, decide_eq_true_iff]
  constructor
  · rintro ⟨hle, hge⟩
    exact Char.toNat_inj.mp (Nat.le_antisymm hge hle)
  · rintro rfl
    exact ⟨Nat.le_refl _, Nat.le_refl _⟩

theorem contains_all (code : Nat) : CharSet.all.contains code = true := by
  rfl

/-- From a position on, a text starts with a character when it has the character there. -/
theorem drop_eq_cons_iff {c : Char} {rest : List Char} :
    text.drop i = c :: rest ↔ text[i]? = some c ∧ text.drop (i + 1) = rest := by
  constructor
  · intro h
    have hhead := congrArg List.head? h
    have htail := congrArg List.tail h
    exact ⟨by simpa using hhead, by simpa using htail⟩
  · rintro ⟨h, rfl⟩
    obtain ⟨hlt, rfl⟩ := List.getElem?_eq_some_iff.mp h
    exact List.drop_eq_getElem_cons hlt

/-- Any one character stands between two positions next to each other. -/
theorem spans_any : Spans text (one .all) i j ↔ i < text.length ∧ j = i + 1 := by
  simp only [Spans, contains_all, and_true]
  refine and_congr_left fun _ => ?_
  rw [← Option.isSome_iff_exists, Option.isSome_iff_ne_none, ne_eq, List.getElem?_eq_none_iff,
    Nat.not_le]

/-- Any run of characters stands between two positions in order. -/
theorem spans_run (hi : i ≤ text.length) :
    Spans text (repeated (one .all) 0 none) i j ↔ i ≤ j ∧ j ≤ text.length := by
  constructor
  · intro h
    have := h.bounds
    omega
  · rintro ⟨hij, hj⟩
    have hrounds : ∀ n i, i + n ≤ text.length → Iterated (Spans text (one .all)) n i (i + n) := by
      intro n
      induction n with
      | zero => exact fun i _ => rfl
      | succ n ih =>
          intro i hle
          refine ⟨i + 1, spans_any.mpr ⟨by omega, rfl⟩, ?_⟩
          have hrest := ih (i + 1) (by omega)
          rwa [Nat.add_right_comm] at hrest
    have hall := hrounds (j - i) i (by omega)
    rw [Nat.add_sub_cancel' hij] at hall
    exact ⟨j - i, Nat.zero_le _, by simp, hall⟩

/-- A pattern after a character matches to the end when the rest starts with the character. -/
theorem spans_literal_seq {c : Char} {ps : List Char}
    (ih : ∀ {i}, i ≤ text.length →
      (Spans text (ofWildcard false ps) i text.length ↔ Glob ps (text.drop i))) :
    Spans text (seq (literal false c) (ofWildcard false ps)) i text.length ↔
      ∃ rest, text.drop i = c :: rest ∧ Glob ps rest := by
  constructor
  · rintro ⟨k, ⟨⟨d, hd, hc⟩, rfl⟩, hrest⟩
    obtain rfl := contains_single.mp hc
    have hlt := (List.getElem?_eq_some_iff.mp hd).1
    exact ⟨_, drop_eq_cons_iff.mpr ⟨hd, rfl⟩, (ih hlt).mp hrest⟩
  · rintro ⟨_, hdrop, hrest⟩
    obtain ⟨hc, rfl⟩ := drop_eq_cons_iff.mp hdrop
    have hlt := (List.getElem?_eq_some_iff.mp hc).1
    exact ⟨i + 1, ⟨⟨c, hc, contains_single.mpr rfl⟩, rfl⟩, (ih hlt).mpr hrest⟩

/-- **Translation.**  From a position on, the translated pattern matches to the end of the text
exactly when the wildcard pattern describes the rest. -/
theorem spans_ofWildcard (ps : List Char) (hi : i ≤ text.length) :
    Spans text (ofWildcard false ps) i text.length ↔ Glob ps (text.drop i) := by
  have hends : ∀ {i}, i ≤ text.length → (i = text.length ↔ text.drop i = []) := by
    intro i hi
    rw [List.drop_eq_nil_iff]
    omega
  induction ps using ofWildcard.induct generalizing i with
  | case1 => exact hends hi
  | case2 ps ih =>
      rw [ofWildcard, Glob]
      constructor
      · rintro ⟨k, hrun, hrest⟩
        obtain ⟨hik, hk⟩ := (spans_run hi).mp hrun
        refine ⟨(text.drop i).take (k - i), text.drop k, ?_, (ih hk).mp hrest⟩
        have hsplit := List.take_append_drop (k - i) (text.drop i)
        rw [List.drop_drop, Nat.add_sub_cancel' hik] at hsplit
        exact hsplit.symm
      · rintro ⟨skipped, rest, hdrop, hrest⟩
        have hlength := congrArg List.length hdrop
        rw [List.length_drop, List.length_append] at hlength
        have hk : i + skipped.length ≤ text.length := by omega
        have hafter : text.drop (i + skipped.length) = rest := by
          rw [← List.drop_drop, hdrop, List.drop_left]
        refine ⟨i + skipped.length, (spans_run hi).mpr ⟨Nat.le_add_right _ _, hk⟩, (ih hk).mpr ?_⟩
        rwa [hafter]
  | case3 ps ih =>
      rw [ofWildcard, Glob]
      constructor
      · rintro ⟨k, hany, hrest⟩
        obtain ⟨hlt, rfl⟩ := spans_any.mp hany
        exact ⟨_, _, List.drop_eq_getElem_cons hlt, (ih hlt).mp hrest⟩
      · rintro ⟨c, _, hdrop, hrest⟩
        obtain ⟨hc, rfl⟩ := drop_eq_cons_iff.mp hdrop
        have hlt := (List.getElem?_eq_some_iff.mp hc).1
        exact ⟨i + 1, spans_any.mpr ⟨hlt, rfl⟩, (ih hlt).mpr hrest⟩
  | case4 => exact hends hi
  | case5 c ps ih => exact spans_literal_seq ih
  | case6 c ps hstar hmark hend hescape ih =>
      rw [ofWildcard, Glob]
      · exact spans_literal_seq ih
      all_goals assumption

/-- **Wildcard patterns.**  The pattern of a wildcard pattern occurs in exactly the texts that the
wildcard pattern describes. -/
theorem occursIn_wildcard (ps : List Char) :
    (wildcard false ps).occursIn text = true ↔ Glob ps text := by
  rw [wildcard, occursIn_whole, spans_ofWildcard ps (Nat.zero_le _), List.drop_zero]

end Pattern

end ElementFinder
