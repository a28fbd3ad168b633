import ElementFinder.Proofs.Chain.Plain
import ElementFinder.Proofs.XPath.Path

/-!
# Reading paths that spell moves

A path that spells the moves of a plain chain is cut into a slash, or the four tokens that two
slashes stand for, and a name test for every move (`tokensFrom_moves`), and these tokens are read
as one step for every move, with a step to all levels before it where the move descends
(`ofText_moves`).  So what such a path selects is what its steps lead to (`select_moves`).
-/

namespace ElementFinder

open XPath

/-- The test of a path for elements of a type that another type accepts. -/
def XPath.NodeTest.ofType (t : ElementType) : NodeTest :=
  if t.isAny then .anyName else .named t.name

namespace ChainMove

/-- A move as tokens after the slash before it. -/
def innerTokens (m : ChainMove) : List Token :=
  (if m.descends then [.axis .descendantOrSelf, .test .anyNode, .slash] else []) ++
    [.test (.ofType m.elementType)]

/-- A move as tokens of a path. -/
def pathTokens (m : ChainMove) : List Token :=
  .slash :: m.innerTokens

/-- A move as steps of a path. -/
def pathSteps (m : ChainMove) : List Step :=
  (if m.descends then [.mk .descendantOrSelf .anyNode []] else []) ++
    [.mk .child (.ofType m.elementType) []]

end ChainMove

namespace XPath

/-! ## Tokens -/

namespace Lexing

/-- A letter may start a name. -/
theorem isNameStart_of_isLetter {c : Char} (h : PredicateReading.isLetter c = true) :
    inRanges nameStartRanges c = true := by
  have hcode : (97 ≤ c.toNat ∧ c.toNat ≤ 122) ∨ (65 ≤ c.toNat ∧ c.toNat ≤ 90) := by
    simpa [PredicateReading.isLetter, Char.le_def, UInt32.le_iff_toNat_le] using h
  simp only [inRanges, nameStartRanges, List.any_cons, List.any_nil, Bool.or_eq_true,
    Bool.and_eq_true, decide_eq_true_iff]
  omega

/-- A name of letters is taken up to the next slash. -/
theorem takeName?_letters {c : Char} {cs rest : List Char}
    (hletters : ∀ d ∈ c :: cs, PredicateReading.isLetter d = true)
    (hrest : ∀ d ∈ rest.head?, d = '/') :
    takeName? (c :: (cs ++ rest)) = some (String.ofList (c :: cs), rest) := by
  have hmore : ∀ d ∈ cs,
      (inRanges nameStartRanges d || inRanges nameRanges d) = true := by
    intro d hd
    rw [isNameStart_of_isLetter (hletters d (List.mem_cons_of_mem c hd)), Bool.true_or]
  have hstop : ∀ d ∈ rest.head?,
      (inRanges nameStartRanges d || inRanges nameRanges d) = false := by
    intro d hd
    rw [hrest d hd]
    decide
  simp only [takeName?, isNameStart_of_isLetter (hletters c List.mem_cons_self), if_true,
    takeWhile_append_of_stop hmore hstop, dropWhile_append_of_stop hmore hstop]

/-- The text of a type is taken as a name test. -/
theorem takeToken?_typeChars {t : ElementType} (ht : t.isRegistered = true) {rest : List Char}
    (hrest : ∀ d ∈ rest.head?, d = '/') :
    takeToken? false (ChainReading.typeChars t ++ rest) = some ([.test (.ofType t)], rest) := by
  rw [ChainReading.typeChars, NodeTest.ofType]
  split
  · rfl
  · obtain ⟨short, -, hname⟩ := ElementType.name_of_isRegistered ht
    obtain ⟨cs, hcs⟩ : ∃ cs, t.name.toList = 'X' :: cs := ⟨_, hname⟩
    have hletters := ElementType.isLetter_of_mem_name ht
    rw [hcs] at hletters
    have hnamed : takeNamed? ('X' :: (cs ++ rest)) = some (.test (.named t.name), rest) := by
      rw [takeNamed?, takeName?_letters hletters hrest, ← hcs, String.ofList_toList]
      cases rest with
      | nil => rfl
      | cons d rest =>
          obtain rfl := hrest d rfl
          rfl
    rw [hcs, List.cons_append]
    simp only [takeToken?, hnamed]
    rfl

/-- The name of a type begins with a star or with the stem. -/
theorem typeChars_eq_cons {t : ElementType} (ht : t.isRegistered = true) :
    ∃ c cs, ChainReading.typeChars t = c :: cs ∧ (c = '*' ∨ c = 'X') := by
  rw [ChainReading.typeChars]
  split
  · exact ⟨'*', [], rfl, .inl rfl⟩
  · obtain ⟨short, -, hname⟩ := ElementType.name_of_isRegistered ht
    exact ⟨'X', _, hname, .inr rfl⟩

/-- One token after the other; `ends` tells whether an operand ends before the next. -/
theorem tokensFrom_cons (ends : Bool) {fuel : Nat} {operand : Bool} {c : Char}
    {cs rest : List Char} {tokens : List Token} (hc : isSpace c = false)
    (htake : takeToken? operand (c :: cs) = some (tokens, rest))
    (hends : ((tokens.getLast?).map Token.endsOperand).getD operand = ends)
    (hrest : ∀ d ∈ rest.head?, isSpace d = false) :
    tokensFrom (fuel + 1) operand (c :: cs) =
      (tokensFrom fuel ends rest).map (tokens ++ ·) := by
  have hgap : rest.dropWhile isSpace = rest := by
    cases rest with
    | nil => rfl
    | cons d rest => simp [hrest d rfl]
  simp only [tokensFrom, List.dropWhile_cons, hc, Bool.false_eq_true, if_false, htake, hgap,
    hends]

/-- The path of some moves begins with a slash. -/
theorem eq_slash_of_head?_moves (ms : List ChainMove) :
    ∀ d ∈ (ms.flatMap ChainMove.pathChars).head?, d = '/' := by
  intro d hd
  cases ms with
  | nil => cases hd
  | cons m ms =>
      rw [List.flatMap_cons, ChainMove.pathChars] at hd
      cases hdescends : m.descends <;> simpa [hdescends, eq_comm] using hd

/-- **The tokens of a path that spells moves.** -/
theorem tokensFrom_moves {ms : List ChainMove} (hms : ∀ m ∈ ms, m.elementType.isRegistered = true)
    {fuel : Nat} (hfuel : (ms.flatMap ChainMove.pathChars).length < fuel) (operand : Bool) :
    tokensFrom fuel operand (ms.flatMap ChainMove.pathChars) =
      some (ms.flatMap ChainMove.pathTokens) := by
  induction ms generalizing fuel operand with
  | nil =>
      obtain ⟨fuel, rfl⟩ : ∃ n, fuel = n + 1 := ⟨fuel - 1, by omega⟩
      rfl
  | cons m ms ih =>
      obtain ⟨hm, hothers⟩ := List.forall_mem_cons.mp hms
      have hslash := eq_slash_of_head?_moves ms
      have hend : ∀ d ∈ (ms.flatMap ChainMove.pathChars).head?, isSpace d = false := by
        intro d hd
        rw [hslash d hd]
        rfl
      have htest := takeToken?_typeChars hm hslash
      obtain ⟨c, cs, hchars, hc⟩ := typeChars_eq_cons hm
      have hspace : isSpace c = false := by
        rcases hc with rfl | rfl <;> rfl
      rw [hchars, List.cons_append] at htest
      have hhead : ∀ d ∈ (c :: (cs ++ ms.flatMap ChainMove.pathChars)).head?,
          isSpace d = false := by
        simpa using hspace
      have hslashes : 1 ≤ (if m.descends then ['/', '/'] else ['/']).length := by
        split <;> simp
      rw [List.flatMap_cons, ChainMove.pathChars, hchars] at hfuel ⊢
      simp only [List.length_append, List.length_cons] at hfuel
      obtain ⟨fuel, rfl, hless⟩ : ∃ n, fuel = n + 1 + 1 ∧
          (ms.flatMap ChainMove.pathChars).length < n :=
        ⟨fuel - 2, by omega, by omega⟩
      have hname : tokensFrom (fuel + 1) false (c :: (cs ++ ms.flatMap ChainMove.pathChars)) =
          some (.test (.ofType m.elementType) :: ms.flatMap ChainMove.pathTokens) := by
        rw [tokensFrom_cons true hspace htest rfl hend, ih hothers hless]
        rfl
      rw [List.flatMap_cons, ChainMove.pathTokens, ChainMove.innerTokens]
      cases m.descends with
      | true =>
          have htake : takeToken? operand ('/' :: '/' ::
              c :: (cs ++ ms.flatMap ChainMove.pathChars)) =
                some (anyLevel, c :: (cs ++ ms.flatMap ChainMove.pathChars)) :=
            rfl
          refine (tokensFrom_cons false rfl htake rfl hhead).trans ?_
          rw [hname]
          rfl
      | false =>
          have htake : takeToken? operand ('/' :: c :: (cs ++ ms.flatMap ChainMove.pathChars)) =
              some ([.slash], c :: (cs ++ ms.flatMap ChainMove.pathChars)) := by
            rcases hc with rfl | rfl <;> rfl
          refine (tokensFrom_cons false rfl htake rfl hhead).trans ?_
          rw [hname]
          rfl

end Lexing

/-! ## Steps -/

namespace ExprReading

/-- A name test before a slash or the end is a step without predicates. -/
theorem readStep_test {ts rest : List Token} {axis : Axis} {test : NodeTest}
    (haxis : takeAxis ts = (axis, .test test :: rest)) (hrest : ∀ k ∈ rest.head?, k = .slash)
    (fuel : Nat) : readStep (fuel + 2) ts = some (some (.mk axis test []), rest) := by
  have hnone : readPredicates (fuel + 1) rest = some ([], rest) := by
    cases rest with
    | nil => rfl
    | cons k rest =>
        obtain rfl := hrest k rfl
        rfl
  simp only [readStep, haxis, hnone]

/-- The last step ends a path. -/
theorem readSteps_last {fuel : Nat} {ts : List Token} {step : Step}
    (h : readStep fuel ts = some (some step, [])) :
    readSteps (fuel + 1) ts = some (some [step], []) := by
  simp only [readSteps, h]

/-- A step goes on with the steps behind the slash. -/
theorem readSteps_next {fuel : Nat} {ts rest : List Token} {step : Step} {steps : List Step}
    (h : readStep fuel ts = some (some step, .slash :: rest))
    (hrest : readSteps fuel rest = some (some steps, [])) :
    readSteps (fuel + 1) ts = some (some (step :: steps), []) := by
  simp only [readSteps, h, hrest]

/-- The step to all levels that stands before a move, if one does. -/
theorem readSteps_inner {m : ChainMove} {rest : List Token} {steps : List Step} {bound : Nat}
    (hname : ∀ fuel, bound + 2 ≤ fuel →
      readSteps fuel (.test (.ofType m.elementType) :: rest) =
        some (some (.mk .child (.ofType m.elementType) [] :: steps), []))
    {fuel : Nat} (hfuel : bound + 3 ≤ fuel) :
    readSteps fuel (m.innerTokens ++ rest) = some (some (m.pathSteps ++ steps), []) := by
  rw [ChainMove.innerTokens, ChainMove.pathSteps]
  cases m.descends with
  | false => exact hname fuel (by omega)
  | true =>
      obtain ⟨fuel, rfl⟩ : ∃ n, fuel = n + 2 + 1 := ⟨fuel - 3, by omega⟩
      have hlevels : readStep (fuel + 2) (.axis .descendantOrSelf :: .test .anyNode :: .slash ::
          .test (.ofType m.elementType) :: rest) =
            some (some (.mk .descendantOrSelf .anyNode []),
              .slash :: .test (.ofType m.elementType) :: rest) :=
        readStep_test rfl (by simp) fuel
      exact readSteps_next hlevels (hname (fuel + 2) (by omega))

/-- A name test with the moves after it. -/
theorem readSteps_name (test : NodeTest) (ms : List ChainMove) {fuel : Nat}
    (hfuel : 2 * ms.length + 3 ≤ fuel) :
    readSteps fuel (.test test :: ms.flatMap ChainMove.pathTokens) =
      some (some (.mk .child test [] :: ms.flatMap ChainMove.pathSteps), []) := by
  induction ms generalizing test fuel with
  | nil =>
      obtain ⟨fuel, rfl⟩ : ∃ n, fuel = n + 2 + 1 := ⟨fuel - 3, by simp at hfuel; omega⟩
      exact readSteps_last (readStep_test rfl (by simp) fuel)
  | cons m ms ih =>
      rw [List.length_cons] at hfuel
      obtain ⟨fuel, rfl⟩ : ∃ n, fuel = n + 2 + 1 := ⟨fuel - 3, by omega⟩
      have hrest : readSteps (fuel + 2) (m.innerTokens ++ ms.flatMap ChainMove.pathTokens) =
          some (some (m.pathSteps ++ ms.flatMap ChainMove.pathSteps), []) :=
        readSteps_inner (fun _ hname => ih _ hname) (by omega : 2 * ms.length + 1 + 3 ≤ fuel + 2)
      exact readSteps_next (readStep_test rfl (by simp) fuel) hrest

/-- **The steps of a path that spells moves.** -/
theorem readSteps_moves (m : ChainMove) (ms : List ChainMove) {fuel : Nat}
    (hfuel : 2 * ms.length + 4 ≤ fuel) :
    readSteps fuel (m.innerTokens ++ ms.flatMap ChainMove.pathTokens) =
      some (some ((m :: ms).flatMap ChainMove.pathSteps), []) :=
  readSteps_inner (fun _ hname => readSteps_name _ ms hname) hfuel

/-! ## Paths -/

/-- A path from the root: a slash with steps after it. -/
theorem readPath_root {fuel : Nat} {ts : List Token} {steps : List Step}
    (h : readSteps (fuel + 2) ts = some (some steps, [])) :
    readPath (fuel + 3) (.slash :: ts) = some (some (.path .root steps), []) := by
  have hslash : readSteps (fuel + 2) (.slash :: ts) = some (none, .slash :: ts) := rfl
  simp only [readPath, hslash, h]

/-- A path alone is an expression on every level. -/
theorem readLevel_of_readPath {fuel : Nat} {ts : List Token} {e : Expr}
    (h : readPath (fuel + 1) ts = some (some e, [])) (operators : List (List Operator)) :
    readLevel (fuel + 4 + operators.length) operators ts = some (some e, []) := by
  have hunion : readUnion (fuel + 2) ts = some (some e, []) := by
    simp only [readUnion, h, readAlternatives]
  induction operators with
  | nil => simp only [List.length_nil, Nat.add_zero, readLevel, readSigned, hunion]
  | cons o operators ih =>
      have hmore : readOperands (fuel + 4 + operators.length) o operators e [] =
          some (some e, []) := by
        rw [Nat.add_right_comm]
        rfl
      rw [List.length_cons, ← Nat.add_assoc, readLevel, ih]
      exact hmore

end ExprReading

/-- Each move is at least one token. -/
theorem length_le_pathTokens (ms : List ChainMove) :
    ms.length ≤ (ms.flatMap ChainMove.pathTokens).length := by
  induction ms with
  | nil => exact Nat.zero_le _
  | cons m ms ih =>
      simp only [List.flatMap_cons, List.length_append, List.length_cons, ChainMove.pathTokens]
      omega

/-- **A path that spells moves is read as the steps of the moves.** -/
theorem Expr.ofText_moves {m : ChainMove} {ms : List ChainMove}
    (hms : ∀ k ∈ m :: ms, k.elementType.isRegistered = true) :
    Expr.ofText (String.ofList ((m :: ms).flatMap ChainMove.pathChars)) =
      .ok (.path .root ((m :: ms).flatMap ChainMove.pathSteps)) := by
  have htokens : Token.ofText? (String.ofList ((m :: ms).flatMap ChainMove.pathChars)) =
      some ((m :: ms).flatMap ChainMove.pathTokens) := by
    rw [Token.ofText?, String.toList_ofList]
    exact Lexing.tokensFrom_moves hms (by simp) false
  have henough := length_le_pathTokens (m :: ms)
  rw [List.length_cons] at henough
  have hread : ∀ n, ms.length < n →
      ExprReading.readLevel (16 * (n + 1)) ExprReading.levels
        ((m :: ms).flatMap ChainMove.pathTokens) =
          some (some (.path .root ((m :: ms).flatMap ChainMove.pathSteps)), []) := by
    intro n hn
    have hlevels : ExprReading.levels.length = 6 := rfl
    obtain ⟨fuel, hfuel⟩ : ∃ fuel, 16 * (n + 1) = fuel + 2 + 4 + ExprReading.levels.length :=
      ⟨16 * n + 4, by omega⟩
    have hsteps : ExprReading.readSteps (fuel + 2)
        (m.innerTokens ++ ms.flatMap ChainMove.pathTokens) =
          some (some ((m :: ms).flatMap ChainMove.pathSteps), []) :=
      ExprReading.readSteps_moves m ms (by omega)
    rw [hfuel]
    exact ExprReading.readLevel_of_readPath (ExprReading.readPath_root hsteps) _
  rw [Expr.ofText, htokens]
  simp only [hread _ henough]

/-- **What a path that spells moves selects** is what its steps lead to from the root. -/
theorem Document.select_moves (d : Document) {m : ChainMove} {ms : List ChainMove}
    (hms : ∀ k ∈ m :: ms, k.elementType.isRegistered = true) {ns : List Node}
    (hwalk : walk d [.root] ((m :: ms).flatMap ChainMove.pathSteps) = .ok ns) :
    d.select (String.ofList ((m :: ms).flatMap ChainMove.pathChars)) = .ok ns := by
  rw [Document.select, Expr.ofText_moves hms]
  simp only [evaluate_path hwalk]

end XPath

end ElementFinder
