import ElementFinder.Predicate.Evaluation
import ElementFinder.Proofs.Pattern.Glob

/-!
# Wildcard comparisons

A wildcard pattern is written in the usual notation, character by character: a star as `.*`, a
question mark as `.`, and every other character as itself, with a backslash before it where it would
have a meaning (`wildcardText`).  Read again, this text is a pattern that matches the same texts as
the wildcard pattern (`ofText?_wildcardText`), so nothing in a wildcard pattern is taken for
notation by accident; only a pattern that is too large is refused (`ofText?_wildcardText_of_lt`).
A comparison by a wildcard pattern therefore holds when the pattern describes the whole text
(`Comparison.like_iff_glob`).
-/

namespace ElementFinder

namespace Pattern

/-! ## Patterns in a row -/

/-- Patterns one after the other. -/
def inRow (ps : List Pattern) : Pattern :=
  ps.foldr seq empty

/-- Patterns before another one match in a row, and then it does. -/
theorem advance_foldr_seq (text : List Char) (ps : List Pattern) (q : Pattern) (s : Nat) :
    advance text (ps.foldr seq q) s = advance text q (advance text (inRow ps) s) := by
  induction ps generalizing s with
  | nil => rfl
  | cons p ps ih => exact ih (advance text p s)

/-- Patterns before another one add their weight to it. -/
theorem weight_foldr_seq (ps : List Pattern) (q : Pattern) :
    (ps.foldr seq q).weight = (inRow ps).weight + q.weight := by
  induction ps with
  | nil => exact (Nat.zero_add _).symm
  | cons p ps ih =>
      have hrow : (inRow (p :: ps)).weight = p.weight + (inRow ps).weight := rfl
      rw [List.foldr_cons, weight, ih, hrow, Nat.add_assoc]

/-- A row between two patterns matches as a sequence of three. -/
theorem advance_inRow_between (text : List Char) (first last : Pattern) (ps : List Pattern)
    (s : Nat) :
    advance text (inRow (first :: (ps ++ [last]))) s =
      advance text (seq first (seq (inRow ps) last)) s := by
  rw [inRow, List.foldr_cons, List.foldr_append]
  exact advance_foldr_seq text ps _ _

/-- A row between two patterns weighs as much as a sequence of three. -/
theorem weight_inRow_between (first last : Pattern) (ps : List Pattern) :
    (inRow (first :: (ps ++ [last]))).weight = (seq first (seq (inRow ps) last)).weight := by
  rw [inRow, List.foldr_cons, List.foldr_append, weight, weight_foldr_seq]
  rfl

end Pattern

namespace PatternReading

open Pattern PatternEscape

/-! ## Sequences -/

/-- A part before the later ones, with the height of both. -/
def joinPart (later part : Pattern × Nat) : Pattern × Nat :=
  (.seq part.1 later.1, max later.2 (part.2 + 1))

/-- Several items are joined from the last one to the first. -/
theorem sequence_several (item second : Item) (earlier : List Item) :
    sequence (item :: second :: earlier) =
      ((second :: earlier).map Item.pattern).foldl joinPart
        (item.pattern.1, item.pattern.2 + 1) := by
  rfl

/-- Joining earlier parts puts them before the later ones. -/
theorem foldl_joinPart_fst (earlier : List Item) (later : Pattern × Nat) :
    ((earlier.map Item.pattern).foldl joinPart later).1 =
      (earlier.reverse.map fun i => i.pattern.1).foldr seq later.1 := by
  induction earlier generalizing later with
  | nil => rfl
  | cons item earlier ih =>
      rw [List.map_cons, List.foldl_cons, ih, List.reverse_cons, List.map_append,
        List.foldr_append]
      rfl

/-- Joining parts adds one level to the highest of them at most. -/
theorem foldl_joinPart_snd_le {earlier : List Item} {later : Pattern × Nat} {bound : Nat}
    (h : ∀ i ∈ earlier, i.pattern.2 ≤ bound) (hlater : later.2 ≤ bound + 1) :
    ((earlier.map Item.pattern).foldl joinPart later).2 ≤ bound + 1 := by
  induction earlier generalizing later with
  | nil => exact hlater
  | cons item earlier ih =>
      obtain ⟨hitem, hall⟩ := List.forall_mem_cons.mp h
      exact ih hall (Nat.max_le.mpr ⟨hlater, Nat.succ_le_succ hitem⟩)

/-- A sequence puts the earlier items before the last one. -/
theorem sequence_cons (item : Item) (earlier : List Item) :
    (sequence (item :: earlier)).1 =
      (earlier.reverse.map fun i => i.pattern.1).foldr seq item.pattern.1 := by
  cases earlier with
  | nil => rfl
  | cons second earlier => rw [sequence_several, foldl_joinPart_fst]

/-- A sequence matches what its parts match in a row. -/
theorem advance_sequence (text : List Char) (items : List Item) (s : Nat) :
    advance text (sequence items).1 s =
      advance text (inRow (items.reverse.map fun i => i.pattern.1)) s := by
  cases items with
  | nil => rfl
  | cons item earlier =>
      rw [sequence_cons, List.reverse_cons, List.map_append, inRow, List.foldr_append,
        advance_foldr_seq, advance_foldr_seq]
      rfl

/-- A sequence weighs as much as its parts in a row. -/
theorem weight_sequence (items : List Item) :
    (sequence items).1.weight = (inRow (items.reverse.map fun i => i.pattern.1)).weight := by
  cases items with
  | nil => rfl
  | cons item earlier =>
      rw [sequence_cons, List.reverse_cons, List.map_append, inRow, List.foldr_append,
        weight_foldr_seq, weight_foldr_seq]
      rfl

/-- A sequence is one level higher than its items at most. -/
theorem height_sequence {items : List Item} {bound : Nat}
    (h : ∀ i ∈ items, i.pattern.2 ≤ bound) : (sequence items).2 ≤ bound + 1 := by
  cases items with
  | nil => exact Nat.zero_le _
  | cons item earlier =>
      obtain ⟨hitem, hall⟩ := List.forall_mem_cons.mp h
      cases earlier with
      | nil => exact Nat.le_succ_of_le hitem
      | cons second earlier =>
          rw [sequence_several]
          exact foldl_joinPart_snd_le hall (Nat.succ_le_succ hitem)

/-! ## Reading a wildcard pattern in the usual notation -/

/-- What the characters of a wildcard pattern stand for, one after the other. -/
def wildcardItems (caseless : Bool) : List Char → List Item
  | [] => []
  | '*' :: rest => .part (repeated (one .all) 0 none) 1 :: wildcardItems caseless rest
  | '?' :: rest => .part (one .all) 0 :: wildcardItems caseless rest
  | ['\\'] => []
  | '\\' :: c :: rest => .part (literal caseless c) 0 :: wildcardItems caseless rest
  | c :: rest => .part (literal caseless c) 0 :: wildcardItems caseless rest

variable {caseless : Bool}

/-- The translation of a wildcard pattern is the row of what its characters stand for. -/
theorem ofWildcard_eq_inRow (cs : List Char) :
    ofWildcard caseless cs = inRow ((wildcardItems caseless cs).map fun i => i.pattern.1) := by
  induction cs using ofWildcard.induct with
  | case1 => rfl
  | case2 rest ih => rw [ofWildcard, ih]; rfl
  | case3 rest ih => rw [ofWildcard, ih]; rfl
  | case4 => rfl
  | case5 c rest ih => rw [ofWildcard, ih]; rfl
  | case6 c rest hstar hmark hend hescape ih =>
      rw [ofWildcard, ih, wildcardItems] <;> first | rfl | assumption

/-- Only the stars of a wildcard pattern nest anything. -/
theorem height_wildcardItems (cs : List Char) :
    ∀ i ∈ wildcardItems caseless cs, i.pattern.2 ≤ 1 := by
  induction cs using wildcardItems.induct with
  | case1 => exact fun i hi => absurd hi List.not_mem_nil
  | case2 rest ih => exact List.forall_mem_cons.mpr ⟨Nat.le_refl 1, ih⟩
  | case3 rest ih => exact List.forall_mem_cons.mpr ⟨Nat.zero_le 1, ih⟩
  | case4 => exact fun i hi => absurd hi List.not_mem_nil
  | case5 c rest ih => exact List.forall_mem_cons.mpr ⟨Nat.zero_le 1, ih⟩
  | case6 c rest hstar hmark hend hescape ih =>
      rw [wildcardItems]
      · exact List.forall_mem_cons.mpr ⟨Nat.zero_le 1, ih⟩
      all_goals assumption

/-- After a backslash, a character that has a meaning stands for itself. -/
theorem read_meta {c : Char} (h : isMeta c = true) (f : PatternFlags) (rest : List Char) :
    read f (c :: rest) = some (.literal c, rest) := by
  rw [isMeta, List.contains_iff_mem] at h
  simp only [List.mem_cons, List.not_mem_nil, or_false] at h
  rcases h with rfl | rfl | rfl | rfl | rfl | rfl | rfl | rfl | rfl | rfl | rfl | rfl | rfl | rfl |
    rfl | rfl | rfl | rfl <;> rfl

variable {names : List String} {fuel : Nat} {items : List Item} {branches : List (Pattern × Nat)}

/-- A character is read without regard to case exactly where the flags say so. -/
theorem one_fold_single (c : Char) :
    one (({ caseless := caseless } : PatternFlags).fold (.single c)) = literal caseless c := by
  cases caseless <;> rfl

/-- A character that stands for itself is read as itself. -/
theorem readGroup_escapedChar (c : Char) (rest : List Char) :
    readGroup (fuel + 1) ⟨{ caseless := caseless }, names, escapedChar c ++ rest⟩ items branches =
      readGroup fuel ⟨{ caseless := caseless }, names, rest⟩
        (.part (literal caseless c) 0 :: items) branches := by
  have hskip : ∀ cs, skip { caseless := caseless } cs = cs := fun _ => rfl
  rw [escapedChar, ← one_fold_single]
  split
  · rename_i hmeta
    change readGroup (fuel + 1) ⟨{ caseless := caseless }, names, '\\' :: c :: rest⟩ items
      branches = _
    rw [readGroup]
    simp only [hskip, read_meta hmeta]
    rfl
  · rename_i hplain
    change readGroup (fuel + 1) ⟨{ caseless := caseless }, names, c :: rest⟩ items branches = _
    rw [readGroup]
    simp only [hskip]
    -- the characters that the reader looks for all have a meaning
    split <;> rename_i heq <;> cases heq <;> first | rfl | exact absurd rfl hplain

/-- A character that stands for itself does not make a repetition before it reluctant. -/
theorem skipReluctant_escapedChar (c : Char) (rest : List Char) :
    skipReluctant (escapedChar c ++ rest) = escapedChar c ++ rest := by
  rw [escapedChar]
  split
  · rfl
  · rename_i hplain
    change skipReluctant (c :: rest) = c :: rest
    unfold skipReluctant
    split
    · rename_i heq
      cases heq
      exact absurd rfl hplain
    · rfl

/-- After a star, no character of a wildcard pattern makes the repetition reluctant. -/
theorem skipReluctant_wildcardBody (cs : List Char) :
    skipReluctant (wildcardBody cs ++ ['$']) = wildcardBody cs ++ ['$'] := by
  induction cs using wildcardBody.induct with
  | case1 => rfl
  | case2 rest _ => rfl
  | case3 rest _ => rfl
  | case4 => rfl
  | case5 c rest _ =>
      rw [wildcardBody, List.append_assoc]
      exact skipReluctant_escapedChar c _
  | case6 c rest hstar hmark hend hescape _ =>
      rw [wildcardBody, List.append_assoc]
      · exact skipReluctant_escapedChar c _
      all_goals assumption

/-- A character that stands for itself is written with at least one character. -/
theorem length_escapedChar_pos (c : Char) : 1 ≤ (escapedChar c).length := by
  rw [escapedChar]
  split
  · exact Nat.le_succ 1
  · exact Nat.le_refl 1

/-- Characters before a closing dollar sign are read as items.  No step takes more fuel than it
reads characters. -/
def ReadAs (caseless : Bool) (cs : List Char) (read : List Item) : Prop :=
  ∀ (names : List String) (items : List Item) (branches : List (Pattern × Nat))
    (fuel spare : Nat), cs.length + spare ≤ fuel → ∃ left, spare ≤ left ∧
      readGroup fuel ⟨{ caseless := caseless }, names, cs ++ ['$']⟩ items branches =
        readGroup left ⟨{ caseless := caseless }, names, ['$']⟩ (read.reverse ++ items) branches

namespace ReadAs

/-- Nothing is read as no items. -/
theorem nil : ReadAs caseless [] [] :=
  fun _ _ _ fuel _ h => ⟨fuel, by simpa using h, rfl⟩

/-- One item is read in some steps, then the rest. -/
theorem cons {cs : List Char} {item : Item} {read : List Item} (front : List Char) (steps : Nat)
    (hsteps : steps ≤ front.length)
    (hfront : ∀ names items branches fuel,
      readGroup (fuel + steps) ⟨{ caseless := caseless }, names, front ++ (cs ++ ['$'])⟩ items
          branches =
        readGroup fuel ⟨{ caseless := caseless }, names, cs ++ ['$']⟩ (item :: items) branches)
    (h : ReadAs caseless cs read) : ReadAs caseless (front ++ cs) (item :: read) := by
  intro names items branches fuel spare hfuel
  rw [List.length_append] at hfuel
  obtain ⟨fuel, rfl⟩ := Nat.exists_eq_add_of_le' (show steps ≤ fuel by omega)
  rw [List.append_assoc, hfront, List.reverse_cons, List.append_assoc]
  exact h names (item :: items) branches fuel spare (by omega)

/-- A character that stands for itself is read in one step, then the rest. -/
theorem literal {cs : List Char} {read : List Item} (c : Char) (h : ReadAs caseless cs read) :
    ReadAs caseless (escapedChar c ++ cs) (.part (literal caseless c) 0 :: read) :=
  h.cons (escapedChar c) 1 (length_escapedChar_pos c) fun _ _ _ _ => readGroup_escapedChar c _

end ReadAs

/-- **Reading.**  In the usual notation, each character of a wildcard pattern is read as what it
stands for. -/
theorem readAs_wildcardBody (cs : List Char) :
    ReadAs caseless (wildcardBody cs) (wildcardItems caseless cs) := by
  induction cs using wildcardBody.induct with
  | case1 => exact .nil
  | case2 rest ih =>
      refine ih.cons ['.', '*'] 2 (Nat.le_refl 2) ?_
      intro names items branches fuel
      -- the dot is an item of its own before the star repeats it
      change readGroup fuel
        ⟨{ caseless := caseless }, names, skipReluctant (wildcardBody rest ++ ['$'])⟩ _ _ = _
      rw [skipReluctant_wildcardBody]
      rfl
  | case3 rest ih => exact ih.cons ['.'] 1 (Nat.le_refl 1) fun _ _ _ _ => rfl
  | case4 => exact .nil
  | case5 c rest ih => exact ih.literal c
  | case6 c rest hstar hmark hend hescape ih =>
      rw [wildcardBody, wildcardItems]
      · exact ih.literal c
      all_goals assumption

/-- The items of a wildcard pattern in the usual notation, the last one first. -/
def wholeItems (caseless : Bool) (cs : List Char) : List Item :=
  .part (look .textEnd) 0 :: ((wildcardItems caseless cs).reverse ++ [.part (look .textStart) 0])

/-- The parts of a wildcard pattern in the usual notation stand between the start and the end of
the text. -/
theorem patterns_wholeItems (cs : List Char) :
    (wholeItems caseless cs).reverse.map (fun i => i.pattern.1) =
      look .textStart ::
        ((wildcardItems caseless cs).map (fun i => i.pattern.1) ++ [look .textEnd]) := by
  simp [wholeItems, Item.pattern]

/-- Only the stars of a wildcard pattern in the usual notation nest anything. -/
theorem height_wholeItems (cs : List Char) : ∀ i ∈ wholeItems caseless cs, i.pattern.2 ≤ 1 := by
  refine List.forall_mem_cons.mpr ⟨Nat.zero_le 1, List.forall_mem_append.mpr ⟨?_, ?_⟩⟩
  · exact fun i hi => height_wildcardItems cs i (List.mem_reverse.mp hi)
  · exact List.forall_mem_cons.mpr ⟨Nat.zero_le 1, fun i hi => absurd hi List.not_mem_nil⟩

/-- **Reading, as a whole.**  A wildcard pattern in the usual notation is one sequence. -/
theorem readGroup_wildcardText (cs : List Char) :
    readGroup ((wildcardText cs).length + 1) ⟨{ caseless := caseless }, [], wildcardText cs⟩ [] [] =
      some (sequence (wholeItems caseless cs), ⟨{ caseless := caseless }, [], []⟩) := by
  obtain ⟨left, hleft, hread⟩ := @readAs_wildcardBody caseless cs []
    [.part (look .textStart) 0] [] (wildcardText cs).length 2 (by simp [wildcardText])
  -- the dollar sign and the end of the text take a step each
  obtain ⟨left, rfl⟩ := Nat.exists_eq_add_of_le' hleft
  exact hread.trans rfl

/-- What is read weighs as much as the translation. -/
theorem weight_wholeItems (cs : List Char) :
    (sequence (wholeItems caseless cs)).1.weight = (wildcard caseless cs).weight := by
  rw [weight_sequence, patterns_wholeItems, weight_inRow_between, ← ofWildcard_eq_inRow]
  rfl

/-- What is read matches the same texts as the translation. -/
theorem occursIn_wholeItems (cs text : List Char) :
    (sequence (wholeItems caseless cs)).1.occursIn text =
      (wildcard caseless cs).occursIn text := by
  rw [Pattern.occursIn, advance_sequence, patterns_wholeItems, advance_inRow_between,
    ← ofWildcard_eq_inRow]
  rfl

end PatternReading

namespace Pattern

open PatternReading

variable {caseless : Bool} {cs : List Char}

/-- Only its size keeps a wildcard pattern in the usual notation from being read. -/
theorem ofText?_wildcardText_eq :
    ofText? caseless (wildcardText cs) =
      if (wildcard caseless cs).weight ≤ weightLimit then
        some (sequence (wholeItems caseless cs)).1
      else none := by
  have hheight : (sequence (wholeItems caseless cs)).2 ≤ nestingLimit :=
    Nat.le_trans (height_sequence (height_wholeItems cs)) (by decide)
  rw [ofText?, readGroup_wildcardText]
  simp [hheight, weight_wholeItems]

/-- The text of a wildcard pattern in the usual notation is read as a pattern that matches the
same texts, unless the pattern is too large. -/
theorem ofText?_wildcardText (h : (wildcard caseless cs).weight ≤ weightLimit) :
    ∃ q, ofText? caseless (wildcardText cs) = some q ∧
      ∀ text, q.occursIn text = (wildcard caseless cs).occursIn text :=
  ⟨_, by rw [ofText?_wildcardText_eq, if_pos h], occursIn_wholeItems cs⟩

/-- A wildcard pattern that is too large is refused. -/
theorem ofText?_wildcardText_of_lt (h : weightLimit < (wildcard caseless cs).weight) :
    ofText? caseless (wildcardText cs) = none := by
  rw [ofText?_wildcardText_eq, if_neg (Nat.not_le.mpr h)]

end Pattern

namespace Comparison

variable {c : Comparison} {e : ElementView}

/-- The comparisons by a pattern are decided by it. -/
theorem holds_eq_matchesPattern (hop : c.operator = .like ∨ c.operator = .matching) :
    c.holds e = c.matchesPattern (c.subject.read e) := by
  rcases hop with hop | hop <;> rw [holds, holdsOf, hop]

/-- A comparison by a pattern holds when the pattern matches the text of the attribute. -/
theorem holds_pattern_iff {p : Pattern} (hop : c.operator = .like ∨ c.operator = .matching)
    (hpattern : c.pattern? = some p) :
    c.holds e = true ↔ ∃ actual, c.readText? (c.subject.read e) = some actual ∧
      p.occursIn actual.toList = true := by
  rw [holds_eq_matchesPattern hop, matchesPattern, hpattern]
  cases c.readText? (c.subject.read e) with
  | none => simp
  | some actual => simp

/-- A comparison without a pattern to decide it holds of nothing. -/
theorem not_holds_of_pattern_none (hop : c.operator = .like ∨ c.operator = .matching)
    (hpattern : c.pattern? = none) : c.holds e = false := by
  rw [holds_eq_matchesPattern hop, matchesPattern, hpattern]
  cases c.readText? (c.subject.read e) <;> rfl

variable {subject : Attribute} {options : CompareOptions} {source : String}

/-- A comparison by a wildcard pattern can be made when the pattern is not too large. -/
theorem make_like
    (h : (Pattern.wildcard options.caseless source.toList).weight ≤ PatternReading.weightLimit) :
    make subject .like options (.text source) =
      .ok ⟨subject, .like, options, .text source⟩ := by
  obtain ⟨q, hq, -⟩ := Pattern.ofText?_wildcardText h
  have hpattern : (patternOf? .like options source).isSome = true := by
    rw [patternOf?, hq, Option.isSome_some]
  exact if_pos hpattern

/-- A comparison by a wildcard pattern that is too large cannot be made. -/
theorem make_like_of_lt
    (h : PatternReading.weightLimit < (Pattern.wildcard options.caseless source.toList).weight) :
    make subject .like options (.text source) = .error (.invalidPattern source) := by
  have hpattern : ¬ (patternOf? .like options source).isSome = true := by
    rw [patternOf?, Pattern.ofText?_wildcardText_of_lt h]
    exact Bool.false_ne_true
  exact if_neg hpattern

/-- **Wildcard comparisons.**  A comparison of labels by a wildcard pattern can be made unless the
pattern is too large, and it holds of the elements whose whole label the pattern describes.  So
does the pattern that its text in the usual notation is read as. -/
theorem like_iff_glob (source : String) :
    ((Pattern.wildcard false source.toList).weight ≤ PatternReading.weightLimit →
      ∃ c, make .label .like {} (.text source) = .ok c ∧
        (∀ e : ElementView,
          c.holds e = true ↔ Glob source.toList e.attributes.label.toList) ∧
        ∃ q, Pattern.ofText? false (Pattern.wildcardText source.toList) = some q ∧
          ∀ text, q.occursIn text = true ↔ Glob source.toList text) ∧
      (PatternReading.weightLimit < (Pattern.wildcard false source.toList).weight →
        make .label .like {} (.text source) = .error (.invalidPattern source)) := by
  refine ⟨fun hsize => ?_, @make_like_of_lt .label {} source⟩
  obtain ⟨q, hq, hsame⟩ := Pattern.ofText?_wildcardText hsize
  have hglob : ∀ text, q.occursIn text = true ↔ Glob source.toList text := by
    intro text
    rw [hsame text]
    exact Pattern.occursIn_wildcard source.toList
  have hpattern : pattern? ⟨.label, .like, {}, .text source⟩ = some q := hq
  refine ⟨⟨.label, .like, {}, .text source⟩, make_like hsize, fun e => ?_, q, hq, hglob⟩
  rw [holds_pattern_iff (.inl rfl) hpattern, ← hglob]
  constructor
  · rintro ⟨_, ⟨⟩, hmatch⟩
    exact hmatch
  · exact fun hmatch => ⟨_, rfl, hmatch⟩

/-- A dot, an escaped star, a question mark and a star, each with its own meaning. -/
theorem like_iff_glob_escapedStar :
    (Pattern.wildcard false "1.\\*?*".toList).weight ≤ PatternReading.weightLimit ∧
      ∃ c, make .label .like {} (.text "1.\\*?*") = .ok c ∧
        (∀ e : ElementView, c.holds e = true ↔
          ∃ next rest, e.attributes.label.toList = '1' :: '.' :: '*' :: next :: rest) ∧
        ∃ q, Pattern.ofText? false "^1\\.\\*..*$".toList = some q ∧
          ∀ text, q.occursIn text = true ↔
            ∃ next rest, text = '1' :: '.' :: '*' :: next :: rest := by
  have hsize : (Pattern.wildcard false "1.\\*?*".toList).weight ≤ PatternReading.weightLimit := by
    decide
  have htext : Pattern.wildcardText "1.\\*?*".toList = "^1\\.\\*..*$".toList := by decide
  have hglob : ∀ text, Glob "1.\\*?*".toList text ↔
      ∃ next rest, text = '1' :: '.' :: '*' :: next :: rest := by
    intro text
    change Glob ['1', '.', '\\', '*', '?', '*'] text ↔ _
    constructor
    · rintro ⟨_, rfl, _, rfl, _, rfl, next, rest, rfl, -⟩
      exact ⟨next, rest, rfl⟩
    · rintro ⟨next, rest, rfl⟩
      exact ⟨_, rfl, _, rfl, _, rfl, next, rest, rfl, rest, [], by simp, rfl⟩
  obtain ⟨c, hc, hholds, q, hq, hsame⟩ := (like_iff_glob "1.\\*?*").1 hsize
  rw [htext] at hq
  exact ⟨hsize, c, hc, fun e => (hholds e).trans (hglob _), q, hq,
    fun text => (hsame text).trans (hglob text)⟩

end Comparison

end ElementFinder
