import ElementFinder.Proofs.Chain.Grammar

/-!
# Tokens that conform to the grammar

A token that conforms to the grammar is read without problems as the step that it writes.  The
converse fails: the reader passes over some texts without a word (`Skips`).  These are all of
them, so a token conforms exactly if it is read without problems and nothing of it is passed over
(`conforms_iff`).  A chain is split into its tokens at the slashes outside accents
(`splits_splitSteps`), so the same holds of every token of a chain that is read without problems.
-/

namespace ElementFinder

namespace ChainReading

/-! ## What is passed over -/

/-- The part of a token before its first bracket. -/
def typePart (token : List Char) : List Char :=
  token.takeWhile (· != '[')

/-- The part of a token from its first bracket on. -/
def bracketPart (token : List Char) : List Char :=
  token.dropWhile (· != '[')

/-- What is left of the brackets of a token when predicates and innermost brackets are taken
out. -/
def leftover (cs : List Char) : List Char :=
  (splitBrackets (cs.length + 1) (withoutPredicates cs.length cs)).2

/-- What is passed over without a problem: characters after a wildcard, predicates after the
first, text outside the brackets, and brackets around the predicate. -/
inductive Skips (token : List Char) : Prop
  | afterWildcard (marker : token ≠ ['*', '*'])
      (wildcard : (trimBlank (typePart token)).head? = some '*')
      (more : trimBlank (typePart token) ≠ ['*'])
  | furtherPredicate {before body after : List Char}
      (first : findPredicate (bracketPart token) = some (before, body, after))
      (second : findPredicate after ≠ none)
  | outside {c : Char} (left : c ∈ leftover (bracketPart token)) (solid : isBlank c = false)
  | around {before body after : List Char}
      (first : findPredicate (bracketPart token) = some (before, body, after))
      (opens : '[' ∈ before) (stays : ']' ∉ before)

/-! ## Tokens -/

/-- A token that is no marker is read without problems if each of its parts is. -/
theorem readStep_iff {token : List Char} {s : ChainStep} (hmarker : token ≠ ['*', '*']) :
    readStep token = (s, []) ↔ ∃ t p i bodies,
      s = .select t p i ∧ readType (typePart token) = (t, []) ∧
        readPredicate (String.ofList token) (bracketPart token) = (p, []) ∧
        splitBrackets ((bracketPart token).length + 1)
          (withoutPredicates (bracketPart token).length (bracketPart token)) =
            (bodies, leftover (bracketPart token)) ∧
        HoldsPosition bodies i ∧ hasStray (leftover (bracketPart token)) = false := by
  rcases ht : readType (typePart token) with ⟨t, typeProblems⟩
  rcases hp : readPredicate (String.ofList token) (bracketPart token) with ⟨p, predicateProblems⟩
  rcases hb : splitBrackets ((bracketPart token).length + 1)
    (withoutPredicates (bracketPart token).length (bracketPart token)) with ⟨bodies, left⟩
  rcases hi : readPositions (String.ofList token) none bodies with ⟨i, positionProblems⟩
  have hleft : leftover (bracketPart token) = left := by rw [leftover, hb]
  have hread : readStep token = (.select t p i,
      typeProblems ++ predicateProblems ++ positionProblems ++
        if hasStray left then
          [.malformedChain (String.ofList token) "unbalanced brackets ignored"]
        else []) := by
    rw [typePart] at ht
    rw [bracketPart] at hp hb
    rw [readStep, if_neg hmarker]
    simp only [ht, hp, hb, hi]
  rw [hread, hleft]
  constructor
  · intro h
    obtain ⟨rfl, hnone⟩ := Prod.mk.inj h
    simp only [List.append_eq_nil_iff] at hnone
    obtain ⟨⟨⟨rfl, rfl⟩, rfl⟩, hstray⟩ := hnone
    refine ⟨t, p, i, bodies, rfl, rfl, rfl, rfl, readPositions_iff.mp hi, ?_⟩
    by_contra hsome
    simp [hsome] at hstray
  · rintro ⟨t', p', i', bodies', rfl, htype, hpredicate, hbodies, hposition, hstray⟩
    obtain ⟨rfl, rfl⟩ := Prod.mk.inj htype
    obtain ⟨rfl, rfl⟩ := Prod.mk.inj hpredicate
    obtain ⟨rfl, -⟩ := Prod.mk.inj hbodies
    obtain ⟨rfl, rfl⟩ := Prod.mk.inj (hi.symm.trans (readPositions_iff.mpr hposition))
    simp [hstray]

theorem hasStray_of_blank {cs : List Char} (h : Blank cs) : hasStray cs = false := by
  rw [hasStray, List.any_eq_false]
  intro c hc hstray
  simp only [Bool.or_eq_true, decide_eq_true_eq] at hstray
  rcases hstray with (rfl | rfl) | rfl <;> exact absurd (h _ hc) (by decide)

theorem blank_leftover {token : List Char} (h : ¬ Skips token) :
    Blank (leftover (bracketPart token)) := by
  intro c hc
  by_contra hsolid
  exact h (.outside hc (by simpa using hsolid))

/-- The parts of a token that conforms. -/
theorem parts_append {name brackets : List Char} (hname : '[' ∉ name)
    (hhead : ∀ c ∈ brackets.head?, (c != '[') = false) :
    typePart (name ++ brackets) = name ∧ bracketPart (name ++ brackets) = brackets := by
  have hall : ∀ c ∈ name, (c != '[') = true := by
    intro c hc
    rw [bne_iff_ne]
    rintro rfl
    exact hname hc
  exact ⟨takeWhile_append_of_stop hall hhead, dropWhile_append_of_stop hall hhead⟩

/-- A type with brackets that conform is read without problems, and nothing is passed over. -/
theorem readStep_of_conforms {name brackets : List Char} {t : ElementType} {p : Option Predicate}
    {i : Option Int} (type : TypeText name t) (further : BracketText brackets p i) :
    readStep (name ++ brackets) = (.select t p i, []) ∧ ¬ Skips (name ++ brackets) := by
  obtain ⟨htype, hname, hstar⟩ := type.reads
  obtain ⟨hpart, hbrackets⟩ := parts_append hname further.head
  have hclean := further.clean
  obtain ⟨bodies, left, hsplit, hposition, hblank⟩ := hclean.position
  have hleft : leftover brackets = left := by rw [leftover, hsplit]
  have hmarker : name ++ brackets ≠ ['*', '*'] := by
    intro heq
    rw [heq] at hpart
    have htrim : trimBlank name = ['*', '*'] := by
      rw [← hpart]
      decide
    rw [htrim] at hstar
    exact absurd (hstar rfl) (by decide)
  constructor
  · rw [readStep_iff hmarker, hpart, hbrackets, hleft]
    exact ⟨t, p, i, bodies, rfl, htype, hclean.predicate _, hsplit, hposition,
      hasStray_of_blank hblank⟩
  · intro hskips
    cases hskips with
    | afterWildcard _ wildcard more =>
        rw [hpart] at wildcard more
        exact more (hstar wildcard)
    | furtherPredicate first second =>
        rw [hbrackets] at first
        exact second (hclean.single first).1
    | outside left solid =>
        rw [hbrackets, hleft] at left
        exact not_mem_of_blank hblank solid left
    | around first opens stays =>
        rw [hbrackets] at first
        exact stays ((hclean.single first).2 opens)

/-- What is read without problems conforms if nothing is passed over. -/
theorem conforms_of_readStep {token : List Char} {s : ChainStep}
    (hread : readStep token = (s, [])) (hskips : ¬ Skips token) : Conforms token s := by
  by_cases hmarker : token = ['*', '*']
  · subst hmarker
    obtain ⟨rfl, -⟩ := Prod.mk.inj hread
    exact .anyDepth
  obtain ⟨t, p, i, bodies, rfl, htype, hpredicate, hsplit, hposition, -⟩ :=
    (readStep_iff hmarker).mp hread
  have type : TypeText (typePart token) t := by
    rcases readType_iff.mp htype with ⟨hstar, rfl⟩ | hnamed
    · left
      by_contra hmore
      exact hskips (.afterWildcard hmarker hstar fun heq => hmore ⟨heq, rfl⟩)
    · exact .inr hnamed
  have hclean : Clean (bracketPart token) p i := by
    constructor
    · exact fun other => readPredicate_iff.mpr (readPredicate_iff.mp hpredicate)
    · intro before body after hfind
      constructor
      · by_contra hsecond
        exact hskips (.furtherPredicate hfind hsecond)
      · intro hopens
        by_contra hstays
        exact hskips (.around hfind hopens hstays)
    · exact ⟨bodies, _, hsplit, hposition, blank_leftover hskips⟩
  have hhead : ∀ c ∈ (bracketPart token).head?, (c != '[') = false := by
    intro c hc
    have hstop := List.head?_dropWhile_not (· != '[') token
    rw [← bracketPart, Option.mem_def.mp hc] at hstop
    exact hstop
  rw [← List.takeWhile_append_dropWhile (p := (· != '[')) (l := token)]
  exact .select type (bracketText_iff.mpr ⟨hclean, hhead⟩)

/-- **Conformity.**  A token conforms to the grammar with a step exactly if it is read as the step
without problems and nothing of it is passed over. -/
theorem conforms_iff {token : List Char} {s : ChainStep} :
    Conforms token s ↔ readStep token = (s, []) ∧ ¬ Skips token := by
  constructor
  · rintro (_ | ⟨type, further⟩)
    · refine ⟨rfl, fun hskips => ?_⟩
      cases hskips with
      | afterWildcard marker => exact marker rfl
      | furtherPredicate first => cases first
      | outside left => cases left
      | around first => cases first
    · exact readStep_of_conforms type further
  · exact fun h => conforms_of_readStep h.1 h.2

/-! ## Chains -/

/-- A text ends between accents: it has an odd number of them. -/
def EndsQuoted (cs : List Char) : Prop :=
  cs.count '\x60' % 2 = 1

/-- No slash of a text splits it: each stands between accents. -/
def Unsplit (cs : List Char) : Prop :=
  ∀ before after, cs = before ++ '/' :: after → EndsQuoted before

/-- A text is split at its slashes, but for those between accents. -/
structure Splits (pieces : List (List Char)) (cs : List Char) : Prop where
  nonempty : pieces ≠ []
  joined : ['/'].intercalate pieces = cs
  inside : ∀ piece ∈ pieces, Unsplit piece
  outside : ∀ piece ∈ pieces.dropLast, ¬ EndsQuoted piece

/-- One more character of a piece: a slash has to stand between accents. -/
theorem Unsplit.concat {cs : List Char} {c : Char} (h : Unsplit cs)
    (hc : c = '/' → EndsQuoted cs) : Unsplit (cs ++ [c]) := by
  intro before after heq
  rcases List.eq_nil_or_concat after with rfl | ⟨init, last, rfl⟩
  · obtain ⟨rfl, hlast⟩ := List.append_inj' heq rfl
    exact hc (List.singleton_inj.mp hlast)
  · rw [List.concat_eq_append, ← List.cons_append, ← List.append_assoc] at heq
    exact h before init (List.append_inj_left' heq rfl)

theorem endsQuoted_concat {cs : List Char} {c : Char} :
    EndsQuoted (cs ++ [c]) ↔ if c = '\x60' then ¬ EndsQuoted cs else EndsQuoted cs := by
  rw [EndsQuoted, EndsQuoted, List.count_append, List.count_singleton]
  by_cases hc : c = '\x60'
  · simp only [hc, beq_self_eq_true, if_true]
    omega
  · simp [hc]

/-- **A text is split at its slashes outside accents.** -/
theorem splits_splitSteps {inPredicate : Bool} {token cs : List Char}
    (hstate : inPredicate = true ↔ EndsQuoted token.reverse) (htoken : Unsplit token.reverse) :
    Splits (splitSteps inPredicate token cs) (token.reverse ++ cs) := by
  induction cs generalizing inPredicate token with
  | nil =>
      rw [splitSteps, List.append_nil]
      exact ⟨by simp, List.intercalate_singleton, by simpa using htoken, by simp⟩
  | cons c cs ih =>
      rw [splitSteps]
      split
      · rename_i hslash
        simp only [Bool.and_eq_true, decide_eq_true_eq, Bool.not_eq_true'] at hslash
        obtain ⟨rfl, rfl⟩ := hslash
        have hrest : Splits (splitSteps false [] cs) cs :=
          ih (by simp [EndsQuoted]) (by simp [Unsplit])
        obtain ⟨next, pieces, hpieces⟩ := List.exists_cons_of_ne_nil hrest.nonempty
        constructor
        · exact List.cons_ne_nil _ _
        · rw [hpieces, List.intercalate_cons_cons, ← hpieces, hrest.joined]
          simp
        · exact List.forall_mem_cons.mpr ⟨htoken, hrest.inside⟩
        · rw [hpieces, List.dropLast_cons_cons, ← hpieces]
          exact List.forall_mem_cons.mpr ⟨fun h => by simpa using hstate.mpr h, hrest.outside⟩
      · rename_i hslash
        simp only [Bool.and_eq_true, decide_eq_true_eq, Bool.not_eq_true', not_and,
          Bool.not_eq_false] at hslash
        have hshift : token.reverse ++ c :: cs = (c :: token).reverse ++ cs := by simp
        rw [hshift]
        apply ih
        · rw [List.reverse_cons, endsQuoted_concat, ← hstate]
          split <;> simp
        · rw [List.reverse_cons]
          exact htoken.concat fun hc => hstate.mp (hslash hc)

end ChainReading

open ChainReading

/-- **What conforms to the grammar.**  When a text is read as a chain without problems, a token
that is not blank conforms to the grammar with its step unless something of it is passed over. -/
theorem ParsedChain.conforms_unless_skipped (text : String)
    (h : (ofText text).diagnostics = []) :
    ∃ pieces, Splits pieces text.toList ∧
      List.Forall₂ (fun token s => Conforms token s ↔ ¬ Skips token)
        ((pieces.map trimBlank).filter fun token => !token.isEmpty) (ofText text).chain := by
  have hsplits : Splits (splitSteps false [] text.toList) text.toList :=
    splits_splitSteps (by simp [EndsQuoted]) (by simp [Unsplit])
  refine ⟨_, hsplits, ?_⟩
  obtain ⟨tokens, htokens⟩ : ∃ tokens, tokens =
    ((splitSteps false [] text.toList).map trimBlank).filter fun token => !token.isEmpty := ⟨_, rfl⟩
  have hclean : ∀ token ∈ tokens, (readStep token).2 = [] := by
    simpa [ofText, ← htokens] using h
  have hchain : (ofText text).chain = tokens.map fun token => (readStep token).1 := by
    rw [htokens]
    simp [ofText]
  rw [← htokens, hchain, List.forall₂_map_right_iff, List.forall₂_same]
  intro token htoken
  have hread : readStep token = ((readStep token).1, []) := Prod.ext rfl (hclean token htoken)
  rw [conforms_iff]
  exact and_iff_right hread

/-- A chain with a marker, a position after a blank, and characters after a wildcard. -/
theorem ParsedChain.conforms_unless_skipped_starred :
    (ofText "**/ Cell [2]/*foo").diagnostics = [] ∧
    ∃ pieces, Splits pieces "**/ Cell [2]/*foo".toList ∧
      List.Forall₂ (fun token s => Conforms token s ↔ ¬ Skips token)
        ((pieces.map trimBlank).filter fun token => !token.isEmpty)
        (ofText "**/ Cell [2]/*foo").chain :=
  ⟨by decide +kernel, conforms_unless_skipped "**/ Cell [2]/*foo" (by decide +kernel)⟩

/-- A text is a single token that is read without problems though it does not conform. -/
def ParsedChain.Quiet (text : String) : Prop :=
  (ofText text).diagnostics = [] ∧ splitSteps false [] text.toList = [text.toList] ∧
    ∀ s, ¬ Conforms text.toList s

theorem ParsedChain.quiet_of_skips {text : String}
    (h : (ofText text).diagnostics = [] ∧ splitSteps false [] text.toList = [text.toList])
    (hskips : Skips text.toList) : Quiet text :=
  ⟨h.1, h.2, fun _ hs => (conforms_iff.mp hs).2 hskips⟩

/-- Texts are passed over in each of the four ways. -/
theorem ParsedChain.quiet_each_way :
    Quiet "*foo" ∧ Quiet "Cell[\x60label == 'a'\x60][\x60label == 'b'\x60]" ∧
      Quiet "Cell[1]foo" ∧ Quiet "Cell[[\x60label == 'a'\x60]1]" := by
  refine ⟨quiet_of_skips (by decide +kernel) ?wildcard, quiet_of_skips (by decide +kernel) ?further,
    quiet_of_skips (by decide +kernel) ?outside, quiet_of_skips (by decide +kernel) ?around⟩
  case wildcard =>
    exact .afterWildcard (by decide +kernel) (by decide +kernel) (by decide +kernel)
  case further =>
    have hfirst : findPredicate (bracketPart
        "Cell[\x60label == 'a'\x60][\x60label == 'b'\x60]".toList) =
        some ([], "label == 'a'".toList, "[\x60label == 'b'\x60]".toList) := by decide +kernel
    exact .furtherPredicate hfirst (by decide +kernel)
  case outside => exact .outside (c := 'f') (by decide +kernel) (by decide +kernel)
  case around =>
    have hfirst : findPredicate (bracketPart "Cell[[\x60label == 'a'\x60]1]".toList) =
        some (['['], "label == 'a'".toList, ['1', ']']) := by decide +kernel
    exact .around hfirst (by decide) (by decide)

end ElementFinder
