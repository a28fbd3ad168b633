import Mathlib.Data.List.TakeWhile
import ElementFinder.Proofs.Chain.Meaning
import ElementFinder.Proofs.Chain.RoundTrip
import ElementFinder.Text.Search

/-!
# Plain chains and the paths that correspond to them

A plain chain has no predicates and no positions: its steps are markers, wildcards and canonical
names of types.  Such a chain has a counterpart among the path expressions, in which `//` takes the
place of the markers.  Here both texts are written down and the chain is read: it is read without
problems, step by step (`PlainStep.ofText_chainText`), and the path spells the moves of the
chain (`replaceAll_pathText`), once the name of the type that accepts all types is written `*`.
-/

namespace ElementFinder

/-- A step without predicate and position as it is written: the marker for any number of levels,
the wildcard, or the canonical name of a registered type. -/
inductive PlainStep where
  | anyDepth
  | wildcard
  | typed (t : ElementType) (registered : t.isRegistered = true)

namespace PlainStep

/-- The text of a step; in a path it is the name test of the step. -/
def text : PlainStep → String
  | anyDepth => "**"
  | wildcard => "*"
  | typed t _ => t.name

/-- What a step means in a chain. -/
def step : PlainStep → ChainStep
  | anyDepth => .anyDepth
  | wildcard => .select .any none none
  | typed t _ => .select t none none

/-- The text of a chain: the steps with slashes between them. -/
def chainText (steps : List PlainStep) : String :=
  "/".intercalate (steps.map text)

/-- The path below an element: a name test for each step but the markers, after two slashes if
markers stand directly before it and one if not; markers at the end stand for a test of their
own. -/
def pathBelow : (marked : Bool) → List PlainStep → String
  | false, [] => ""
  | true, [] => "//*"
  | _, anyDepth :: rest => pathBelow true rest
  | marked, s :: rest => (if marked then "//" else "/") ++ s.text ++ pathBelow false rest

/-- The path that corresponds to a chain. -/
def pathText (steps : List PlainStep) : String :=
  "/*" ++ pathBelow false steps

end PlainStep

/-! ## Reading the chain -/

namespace ChainReading

/-- Pieces without slashes and accents are split where they were joined. -/
theorem splitSteps_intercalate {piece : List Char} {pieces : List (List Char)}
    (hslash : ∀ p ∈ piece :: pieces, '/' ∉ p) (haccent : ∀ p ∈ piece :: pieces, '\x60' ∉ p) :
    splitSteps false [] (['/'].intercalate (piece :: pieces)) = piece :: pieces := by
  induction pieces generalizing piece with
  | nil =>
      have hsplit := splitSteps_plain (hslash piece (by simp)) (haccent piece (by simp)) [] []
      rw [List.intercalate_singleton, ← List.append_nil piece, hsplit]
      simp [splitSteps]
  | cons next pieces ih =>
      have hsplit := splitSteps_plain (hslash piece (by simp)) (haccent piece (by simp)) []
        ('/' :: ['/'].intercalate (next :: pieces))
      rw [List.intercalate_cons_cons, List.append_assoc, List.singleton_append, hsplit]
      simp only [splitSteps, List.append_nil, List.reverse_reverse]
      rw [ih (fun p hp => hslash p (List.mem_cons_of_mem _ hp))
        (fun p hp => haccent p (List.mem_cons_of_mem _ hp))]
      simp

end ChainReading

namespace PlainStep

open ChainReading

/-- A plain step is written with characters of type names. -/
theorem isTypeChar_of_mem_text (s : PlainStep) : ∀ c ∈ s.text.toList, isTypeChar c = true := by
  cases s with
  | anyDepth => exact List.forall_mem_cons.mpr ⟨rfl, List.forall_mem_singleton.mpr rfl⟩
  | wildcard => exact List.forall_mem_singleton.mpr rfl
  | typed t registered =>
      intro c hc
      simp [isTypeChar, ElementType.isLetter_of_mem_name registered c hc]

/-- No character of a type name is blank. -/
theorem not_isBlank_of_isTypeChar {c : Char} (h : isTypeChar c = true) : isBlank c = false := by
  rcases Bool.or_eq_true _ _ ▸ h with hletter | hstar
  · exact not_isBlank_of_isLetter hletter
  · obtain rfl : c = '*' := by simpa using hstar
    decide

/-- The text of a plain step is not empty. -/
theorem text_ne_nil (s : PlainStep) : s.text.toList ≠ [] := by
  cases s with
  | anyDepth => decide
  | wildcard => decide
  | typed t registered =>
      obtain ⟨short, -, hname⟩ := ElementType.name_of_isRegistered registered
      rw [text, hname]
      exact List.append_ne_nil_of_left_ne_nil (by decide) _

/-- A step is read as what it means, without problems. -/
theorem readStep_text (s : PlainStep) : readStep s.text.toList = (s.step, []) := by
  cases s with
  | anyDepth => rfl
  | wildcard => rfl
  | typed t registered =>
      have hletters := ElementType.isLetter_of_mem_name registered
      have hmarker : t.name.toList ≠ ['*', '*'] := by
        intro heq
        exact absurd (hletters '*' (by simp [heq])) (by decide)
      have hbracket : ∀ c ∈ t.name.toList, (c != '[') = true := by
        intro c hc
        simpa using ne_of_test (hletters c hc) (d := '[') (by decide)
      have htake := List.takeWhile_eq_self_iff.mpr hbracket
      have hdrop := List.dropWhile_eq_nil_iff.mpr hbracket
      rw [text, readStep, if_neg hmarker]
      simp only [htake, hdrop, readType_name registered]
      rfl

/-- **A plain chain is read without problems.** -/
theorem ofText_chainText {steps : List PlainStep} (hsteps : steps ≠ []) :
    ParsedChain.ofText (chainText steps) = ⟨steps.map step, []⟩ := by
  have hnot : ∀ d, isTypeChar d = false → ∀ p ∈ steps.map fun s => s.text.toList, d ∉ p := by
    intro d hd p hp hmem
    obtain ⟨s, -, rfl⟩ := List.mem_map.mp hp
    exact ne_of_test (isTypeChar_of_mem_text s d hmem) hd rfl
  have hsplit : splitSteps false [] (chainText steps).toList =
      steps.map fun s => s.text.toList := by
    obtain ⟨s, rest, rfl⟩ := List.exists_cons_of_ne_nil hsteps
    rw [chainText, String.toList_intercalate, List.map_map]
    exact splitSteps_intercalate (hnot '/' (by decide)) (hnot '\x60' (by decide))
  have htrim : ∀ s : PlainStep, trimBlank s.text.toList = s.text.toList := fun s =>
    trimBlank_eq_self fun c hc => not_isBlank_of_isTypeChar (isTypeChar_of_mem_text s c hc)
  have hkeep : (steps.map fun s => s.text.toList).filter (fun token => !token.isEmpty) =
      steps.map fun s => s.text.toList := by
    refine List.filter_eq_self.mpr ?_
    intro token htoken
    obtain ⟨s, -, rfl⟩ := List.mem_map.mp htoken
    simpa using s.text_ne_nil
  simp only [ParsedChain.ofText, hsplit, List.map_map, Function.comp_def, htrim, hkeep,
    readStep_text, List.flatMap_map]
  simp

end PlainStep

/-! ## Spelling the moves of a chain -/

/-- What begins a text and stands before a character that is not in it stands before it alone. -/
theorem prefix_of_prefix_append {needle piece rest : List Char} (h : needle <+: piece ++ rest)
    (hrest : ∀ c ∈ rest.head?, c ∉ needle) : needle <+: piece := by
  rcases List.prefix_or_prefix_of_prefix h (List.prefix_append piece rest) with hshort | hlong
  · exact hshort
  · obtain ⟨more, rfl⟩ := hlong
    rw [List.prefix_append_right_inj] at h
    cases more with
    | nil => simp
    | cons c more =>
        obtain ⟨after, rfl⟩ := h
        exact absurd (by simp) (hrest c rfl)

/-- Occurrences are replaced piece by piece where none goes over the end of a piece. -/
theorem replaceFrom_append {needle piece rest : List Char}
    (hrest : ∀ c ∈ rest.head?, c ∉ needle) (replacement : List Char) {skip : Nat}
    (hskip : skip ≤ piece.length) :
    replaceFrom needle replacement skip (piece ++ rest) =
      replaceFrom needle replacement skip piece ++ replaceFrom needle replacement 0 rest := by
  induction piece generalizing skip with
  | nil =>
      obtain rfl : skip = 0 := by simpa using hskip
      cases rest <;> rfl
  | cons c piece ih =>
      cases skip with
      | succ skip => exact ih (by simpa using hskip)
      | zero =>
          have hiff : needle.isPrefixOf (c :: (piece ++ rest)) =
              needle.isPrefixOf (c :: piece) := by
            rw [Bool.eq_iff_iff, List.isPrefixOf_iff_prefix, List.isPrefixOf_iff_prefix,
              ← List.cons_append]
            exact ⟨fun h => prefix_of_prefix_append h hrest,
              fun h => h.trans (List.prefix_append _ _)⟩
          rw [List.cons_append, replaceFrom, replaceFrom, hiff]
          split_ifs with hoccurs
          · have hlength := (List.isPrefixOf_iff_prefix.mp hoccurs).length_le
            rw [List.length_cons] at hlength
            rw [ih (by omega), List.append_assoc]
          · rw [ih (Nat.zero_le _), List.cons_append]

namespace ElementType

/-- Of the canonical names only that of the type that accepts all types is rewritten. -/
theorem replaceAll_name {t : ElementType} (ht : t.isRegistered = true) :
    replaceAll any.name.toList ['*'] t.name.toList = ChainReading.typeChars t := by
  have hall : ∀ short ∈ shortTypeNames,
      replaceAll any.name.toList ['*'] (typeNameStem.toList ++ short.toList) =
        if short = "Any" then ['*'] else typeNameStem.toList ++ short.toList := by
    decide +kernel
  obtain ⟨short, hshort, hname⟩ := name_of_isRegistered ht
  have hany : short = "Any" ↔ t.isAny = true := by
    rw [isAny, decide_eq_true_iff]
    constructor
    · rintro rfl
      exact name_inj ht rfl (String.toList_inj.mp hname)
    · rintro rfl
      exact (Option.some.inj hshort).symm
  rw [ChainReading.typeChars, hname, hall short (List.mem_of_getElem? hshort)]
  simp only [hany]

end ElementType

/-- A move of a chain as it is spelled in a path. -/
def ChainMove.pathChars (m : ChainMove) : List Char :=
  (if m.descends then ['/', '/'] else ['/']) ++ ChainReading.typeChars m.elementType

namespace PlainStep

/-- A marker in a path is a second slash before the next step. -/
theorem pathBelow_anyDepth (marked : Bool) (rest : List PlainStep) :
    pathBelow marked (anyDepth :: rest) = pathBelow true rest := by
  cases marked <;> rfl

/-- A step in a path stands after one slash or two. -/
theorem pathBelow_step (marked : Bool) {s : PlainStep} (hs : s ≠ anyDepth)
    (rest : List PlainStep) :
    pathBelow marked (s :: rest) =
      (if marked then "//" else "/") ++ s.text ++ pathBelow false rest := by
  cases s with
  | anyDepth => exact absurd rfl hs
  | wildcard => cases marked <;> rfl
  | typed t registered => cases marked <;> rfl

/-- Below an element a path goes on with a slash or ends. -/
theorem eq_slash_of_head? (marked : Bool) (steps : List PlainStep) :
    ∀ c ∈ (pathBelow marked steps).toList.head?, c = '/' := by
  induction steps generalizing marked with
  | nil => cases marked <;> simp [pathBelow]
  | cons s steps ih =>
      by_cases hs : s = anyDepth
      · subst hs
        rw [pathBelow_anyDepth]
        exact ih true
      · rw [pathBelow_step marked hs]
        cases marked <;> simp

/-- Normalizing writes a step of any type as a star, and keeps the other names. -/
theorem replaceAll_text {s : PlainStep} (hs : s ≠ anyDepth) :
    replaceAll ElementType.any.name.toList ['*'] s.text.toList =
      ChainReading.typeChars s.step.elementType := by
  cases s with
  | anyDepth => exact absurd rfl hs
  | wildcard => rfl
  | typed t registered => exact ElementType.replaceAll_name registered

/-- A plain step is a move to a type without conditions. -/
theorem moves_step (marked : Bool) {s : PlainStep} (hs : s ≠ anyDepth) (c : Chain) :
    Chain.moves marked (s.step :: c) =
      ⟨marked, s.step.elementType, none, none⟩ :: Chain.moves false c := by
  cases s with
  | anyDepth => exact absurd rfl hs
  | wildcard => exact Chain.moves_select marked .any none none c
  | typed t registered => exact Chain.moves_select marked t none none c

/-- The path below an element spells the moves of the chain. -/
theorem replaceAll_pathBelow (marked : Bool) (steps : List PlainStep) :
    replaceAll ElementType.any.name.toList ['*'] (pathBelow marked steps).toList =
      (Chain.moves marked (steps.map step)).flatMap ChainMove.pathChars := by
  induction steps generalizing marked with
  | nil => cases marked <;> rfl
  | cons s steps ih =>
      by_cases hs : s = anyDepth
      · subst hs
        rw [pathBelow_anyDepth, ih, List.map_cons, step, Chain.moves_anyDepth]
      · have hslash : ∀ cs, replaceAll ElementType.any.name.toList ['*'] ('/' :: cs) =
            '/' :: replaceAll ElementType.any.name.toList ['*'] cs := fun _ => rfl
        have hrest : ∀ c ∈ (pathBelow false steps).toList.head?,
            c ∉ ElementType.any.name.toList := by
          intro c hc
          rw [eq_slash_of_head? false steps c hc]
          decide
        have happend := replaceFrom_append hrest ['*'] (Nat.zero_le s.text.toList.length)
        rw [← replaceAll, ← replaceAll, ← replaceAll, replaceAll_text hs, ih] at happend
        rw [pathBelow_step marked hs, List.map_cons, moves_step marked hs, List.flatMap_cons,
          ChainMove.pathChars]
        cases marked <;> simp [hslash, happend]

/-- **The path spells the moves of the chain**, after a test for the top element. -/
theorem replaceAll_pathText (steps : List PlainStep) :
    replaceAll ElementType.any.name.toList ['*'] (pathText steps).toList =
      (⟨false, .any, none, none⟩ :: Chain.moves false (steps.map step)).flatMap
        ChainMove.pathChars := by
  rw [List.flatMap_cons, ← replaceAll_pathBelow, pathText, String.toList_append]
  rfl

end PlainStep

end ElementFinder
