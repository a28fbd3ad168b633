import Mathlib.Data.List.DropRight
import ElementFinder.Proofs.Resolution.Modes

/-!
# What makes a resolution fail

A locator that cannot be read is reported and leads to nothing; a resolution fails for three
reasons only.  A chain without a step fails wherever it starts.  A root that names no live element
fails every locator that looks at the tree.  A chain fails at a step with a position that its
matches do not have.  `LiveTree.Fails` lists these cases, and `resolve_fails_iff` says that they
are all: on a tree that nothing interferes with no element picked on the way and no snapshot can
be stale.
-/

namespace ElementFinder

/-! ## Texts without a step -/

/-- Nothing is left of a text when all of it may be trimmed. -/
theorem trimWhile_eq_nil {p : Char → Bool} {cs : List Char} :
    trimWhile p cs = [] ↔ ∀ c ∈ cs, p c = true := by
  have htwice : (∀ c ∈ cs.dropWhile p, p c = true) ↔ ∀ c ∈ cs, p c = true := by
    rw [← List.dropWhile_eq_nil_iff, List.dropWhile_idempotent, List.dropWhile_eq_nil_iff]
  rw [trimWhile, List.reverse_eq_nil_iff, List.dropWhile_eq_nil_iff, ← htwice]
  simp only [List.mem_reverse]

namespace ChainReading

/-- The characters of the token so far stay in a token. -/
theorem exists_token (inPredicate : Bool) {token : List Char} (cs : List Char) {c : Char}
    (hc : c ∈ token) : ∃ tok ∈ splitSteps inPredicate token cs, c ∈ tok := by
  induction cs generalizing inPredicate token with
  | nil => exact ⟨token.reverse, by simp [splitSteps], by simpa using hc⟩
  | cons d cs ih =>
      rw [splitSteps]
      split
      · exact ⟨token.reverse, by simp, by simpa using hc⟩
      · exact ih _ (List.mem_cons_of_mem d hc)

/-- All tokens are blank when there is nothing but slashes and blanks: an accent, inside which
slashes do not split, is not blank. -/
theorem all_blank_iff (token cs : List Char) :
    (∀ tok ∈ splitSteps false token cs, ∀ c ∈ tok, isBlank c = true) ↔
      (∀ c ∈ token, isBlank c = true) ∧ ∀ c ∈ cs, c = '/' ∨ isBlank c = true := by
  induction cs generalizing token with
  | nil => simp [splitSteps]
  | cons d cs ih =>
      by_cases hslash : d = '/'
      · simp [splitSteps, hslash, ih]
      · by_cases hblank : isBlank d = true
        · have haccent : d ≠ '\x60' := by
            rintro rfl
            exact absurd hblank (by decide)
          simp [splitSteps, hslash, haccent, ih, hblank]
        · -- a character that is not blank goes into a token that is not blank
          refine iff_of_false ?_ ?_
          · intro hall
            have hmore : splitSteps false token (d :: cs) =
                splitSteps (if d = '\x60' then true else false) (d :: token) cs := by
              simp [splitSteps, hslash]
            obtain ⟨tok, htok, hd⟩ := exists_token (if d = '\x60' then true else false) cs
              (List.mem_cons_self (a := d) (l := token))
            exact hblank (hall tok (hmore ▸ htok) d hd)
          · rintro ⟨-, hcs⟩
            rcases hcs d List.mem_cons_self with h | h
            · exact hslash h
            · exact hblank h

end ChainReading

/-- **Chains without a step** are written with slashes and blanks only. -/
theorem ParsedChain.chain_ofText_eq_nil {text : String} :
    (ofText text).chain = [] ↔ ∀ c ∈ text.toList, c = '/' ∨ isBlank c = true := by
  have hblank := ChainReading.all_blank_iff [] text.toList
  simp only [List.not_mem_nil, false_implies, implies_true, true_and] at hblank
  rw [← hblank]
  simp only [ofText, List.map_eq_nil_iff, List.filter_eq_nil_iff, List.forall_mem_map,
    Bool.not_eq_true', Bool.not_eq_false, List.isEmpty_iff]
  refine forall₂_congr fun tok _ => ?_
  exact trimWhile_eq_nil

/-! ## Positions that matches do not have -/

/-- A list has no member at position zero and none further out than it is long. -/
theorem memberAt?_eq_none {ys : List Nat} {i : Int} :
    memberAt? ys i = none ↔ i = 0 ∨ ys.length < i.natAbs := by
  match i with
  | .ofNat 0 => simp [memberAt?]
  | .ofNat (n + 1) =>
      rw [memberAt?, List.getElem?_eq_none_iff]
      simp only [Int.ofNat_eq_natCast]
      omega
  | .negSucc n =>
      rw [memberAt?, List.getElem?_eq_none_iff, List.length_reverse]
      omega

namespace LiveTree

/-- Reading a chain step by step from a set reaches a step with a position: the position and the
number of elements that it picks from. -/
inductive Reaches (t : LiveTree) : (deep : Bool) → List Nat → Chain → Int → Nat → Prop
  | here (deep : Bool) (current : List Nat) (ty : ElementType) (p : Option Predicate) (i : Int)
      (rest : Chain) :
      Reaches t deep current (.select ty p (some i) :: rest) i
        (t.select deep (t.meets ty p) current).length
  | marker {deep : Bool} {current : List Nat} {rest : Chain} {i : Int} {n : Nat}
      (h : Reaches t true current rest i n) : Reaches t deep current (.anyDepth :: rest) i n
  | plain {deep : Bool} {current : List Nat} {ty : ElementType} {p : Option Predicate}
      {rest : Chain} {i : Int} {n : Nat}
      (h : Reaches t false (t.select deep (t.meets ty p) current) rest i n) :
      Reaches t deep current (.select ty p none :: rest) i n
  | picked {deep : Bool} {current : List Nat} {ty : ElementType} {p : Option Predicate} {j : Int}
      {y : Nat} {rest : Chain} {i : Int} {n : Nat}
      (hpick : memberAt? (t.select deep (t.meets ty p) current) j = some y)
      (h : Reaches t false [y] rest i n) :
      Reaches t deep current (.select ty p (some j) :: rest) i n

/-- An evaluation fails at the first step that it reaches with a position that its matches do not
have. -/
theorem evaluate_error_iff {t : LiveTree} {deep : Bool} {current : List Nat} {c : Chain}
    {e : LocatorError} :
    t.evaluate deep current c = .error e ↔
      ∃ i n, t.Reaches deep current c i n ∧ (i = 0 ∨ n < i.natAbs) ∧ e = .invalidPosition i n := by
  fun_induction evaluate t deep current c with
  | case1 current =>
      refine iff_of_false (by simp) ?_
      rintro ⟨i, n, hreaches, -⟩
      cases hreaches
  | case2 current =>
      refine iff_of_false (by simp) ?_
      rintro ⟨i, n, hreaches, -⟩
      cases hreaches
  | case3 deep current rest ih =>
      rw [ih]
      constructor
      · rintro ⟨i, n, hreaches, hbad⟩
        exact ⟨i, n, .marker hreaches, hbad⟩
      · rintro ⟨i, n, hreaches, hbad⟩
        cases hreaches with
        | marker hreaches => exact ⟨i, n, hreaches, hbad⟩
  | case4 deep current ty p rest ih =>
      rw [ih]
      constructor
      · rintro ⟨i, n, hreaches, hbad⟩
        exact ⟨i, n, .plain hreaches, hbad⟩
      · rintro ⟨i, n, hreaches, hbad⟩
        cases hreaches with
        | plain hreaches => exact ⟨i, n, hreaches, hbad⟩
  | case5 deep current ty p i rest found hpick =>
      constructor
      · intro herror
        exact ⟨i, found.length, .here deep current ty p i rest, memberAt?_eq_none.mp hpick,
          (Except.error.inj herror).symm⟩
      · rintro ⟨j, n, hreaches, -, rfl⟩
        cases hreaches with
        | here => rfl
        | picked hsome => exact absurd (hpick.symm.trans hsome) (by simp)
  | case6 deep current ty p i rest found y hpick ih =>
      rw [ih]
      constructor
      · rintro ⟨j, n, hreaches, hbad⟩
        exact ⟨j, n, .picked hpick hreaches, hbad⟩
      · rintro ⟨j, n, hreaches, hbad, he⟩
        cases hreaches with
        | here =>
            have hnone := memberAt?_eq_none.mpr hbad
            exact absurd (hpick.symm.trans hnone) (by simp)
        | picked hsome hreaches =>
            obtain rfl : y = _ := Option.some.inj (hpick.symm.trans hsome)
            exact ⟨j, n, hreaches, hbad, he⟩

end LiveTree

/-! ## Roots that are not live -/

namespace Access.Yields

variable {t : LiveTree}

/-- A query from a stale root fails. -/
theorem query_stale {q : ElementQuery} (h : t.liveId? q.root = none) :
    (Access.query q).Yields t (.error (.tree (.staleElement q.root.text))) := by
  have hlook := Yields.look (t := t) .query fun t => t.query q
  rw [LiveTree.query_stale h q.steps] at hlook
  exact hlook

/-- A snapshot of a stale root fails. -/
theorem snapshot_stale {h : Handle} (hstale : t.liveId? h = none) :
    (Access.snapshot h).Yields t (.error (.tree (.staleElement h.text))) := by
  have hlook := Yields.look (t := t) .snapshot fun t => t.snapshot h
  have hfails : t.snapshot h = .error (.stale h) := by
    simp only [LiveTree.snapshot, hstale, Option.bind_none]
  rw [hfails] at hlook
  exact hlook

end Access.Yields

/-- A walk from a stale root fails at its first position, or arrives at a query from that
root. -/
theorem Chain.walkFrom_stale {t : LiveTree} {root : Handle} (hstale : t.liveId? root = none)
    {q : ElementQuery} (hq : q.root = root) (ms : List ChainMove) :
    (walkFrom q ms).Yields t (.error (.tree (.staleElement root.text))) ∨
      ∃ q', q'.root = root ∧ (walkFrom q ms).Yields t (.ok (.query q')) := by
  induction ms generalizing q with
  | nil => exact .inr ⟨q, hq, .pure _⟩
  | cons m ms ih =>
      have hroot : (m.extend q).root = root := by
        rw [m.extend_eq, hq]
      rw [walkFrom]
      cases hposition : m.position with
      | none => exact ih hroot
      | some i =>
          have hquery := Access.Yields.query_stale (hroot.symm ▸ hstale)
          rw [hroot] at hquery
          exact .inl (Access.Yields.bind_error hquery)

/-- A chain with a step fails from a stale root. -/
theorem Chain.resolve_stale {t : LiveTree} {root : Handle} (hstale : t.liveId? root = none)
    {c : Chain} (hc : c ≠ []) (mode : MatchMode) :
    (c.resolve root mode).Yields t (.error (.tree (.staleElement root.text))) := by
  have hwalk : c.walk root = walkFrom (.start root) (moves false c) := by
    simp [walk, hc]
  rw [resolve, hwalk]
  have hstart : (ElementQuery.start root).root = root := rfl
  obtain hfails | ⟨q, hroot, harrives⟩ := walkFrom_stale hstale hstart (moves false c)
  · exact Access.Yields.bind_error hfails
  · have hquery := Access.Yields.query_stale (hroot.symm ▸ hstale)
    rw [hroot] at hquery
    exact harrives.bind (Access.Yields.bind_error hquery)

/-! ## All failures -/

namespace Locator

/-- A locator is a chain without a step. -/
def IsBlankChain (l : Locator) : Prop :=
  l.strategy = .classChain ∧ ∀ c ∈ l.value.toList, c = '/' ∨ isBlank c = true

/-- A locator is a predicate that cannot be read. -/
def IsUnreadable (l : Locator) : Prop :=
  l.strategy = .predicate ∧ ∃ e, Predicate.parse l.value = .error e

end Locator

/-- The failures of a locator from a root. -/
inductive LiveTree.Fails (t : LiveTree) (l : Locator) (root : Handle) : LocatorError → Prop
  | emptyChain (h : l.IsBlankChain) : Fails t l root (.emptyChain "")
  | staleRoot (hstale : t.liveId? root = none) (hchain : ¬ l.IsBlankChain)
      (hreadable : ¬ l.IsUnreadable) : Fails t l root (.tree (.staleElement root.text))
  | badPosition {x : Nat} {i : Int} {n : Nat} (hchain : l.strategy = .classChain)
      (hlive : t.liveId? root = some x)
      (hreaches : t.Reaches false [x] (ParsedChain.ofText l.value).chain i n)
      (hbad : i = 0 ∨ n < i.natAbs) : Fails t l root (.invalidPosition i n)

namespace LiveTree

variable {t : LiveTree} {root : Handle} {l : Locator}

/-- A stale root fails every locator that looks at the tree. -/
theorem resolve_stale (hstale : t.liveId? root = none) (hchain : ¬ l.IsBlankChain)
    (hreadable : ¬ l.IsUnreadable) (options : ResolverOptions) (mode : MatchMode) :
    (l.resolve options root mode).Yields t (.error (.tree (.staleElement root.text))) := by
  have hquery : ∀ (q : ElementQuery) (diagnostics : List Diagnostic), q.root = root →
      (q.resolve mode diagnostics).Yields t (.error (.tree (.staleElement root.text))) := by
    rintro q diagnostics rfl
    exact Access.Yields.bind_error (Access.Yields.query_stale hstale)
  rw [Locator.resolve]
  cases hstrategy : l.strategy with
  | id | accessibilityId | identifier => exact hquery _ _ rfl
  | name => exact (namedPredicate_yields t l.value).bind (hquery _ _ rfl)
  | className => exact hquery _ _ rfl
  | predicate =>
      cases hparse : Predicate.parse l.value with
      | error e => exact absurd ⟨hstrategy, e, hparse⟩ hreadable
      | ok p => exact hquery _ _ rfl
  | classChain =>
      have hsteps : (ParsedChain.ofText l.value).chain ≠ [] := by
        intro hempty
        exact hchain ⟨hstrategy, ParsedChain.chain_ofText_eq_nil.mp hempty⟩
      exact Access.Yields.bind_error (Chain.resolve_stale hstale hsteps mode)
  | xpath => exact Access.Yields.bind_error (Access.Yields.snapshot_stale hstale)

/-- From a live root everything but a class chain leads to a resolution. -/
theorem Reachable.resolve_live (ht : t.Reachable) {x : Nat} (hx : t.liveId? root = some x)
    (hl : l.strategy ≠ .classChain) (options : ResolverOptions) (mode : MatchMode) :
    ∃ found, (l.resolve options root mode).Yields t (.ok found) := by
  have hwf := ht.wellFormed
  rw [Locator.resolve]
  cases hstrategy : l.strategy with
  | id | accessibilityId | identifier =>
      exact ⟨_, (finds_identified hwf hx l.value).resolve_yields hwf mode []⟩
  | name =>
      exact ⟨_, (namedPredicate_yields t l.value).bind
        ((finds_satisfying hwf hx _).resolve_yields hwf mode [])⟩
  | className => exact ⟨_, (finds_below hwf hx _).resolve_yields hwf mode _⟩
  | predicate =>
      cases hparse : Predicate.parse l.value with
      | error e => exact ⟨_, .pure _⟩
      | ok p => exact ⟨_, (finds_satisfying hwf hx p).resolve_yields hwf mode []⟩
  | classChain => exact absurd hstrategy hl
  | xpath =>
      obtain ⟨d, hproblem⟩ | ⟨r, -, -, -, hroot, hresolve⟩ :=
        hwf.resolveXPath_cases hx options l.value
      · exact ⟨_, hproblem mode⟩
      · have hlive : t.liveId? r.liveRoot = some x := by
          rw [hroot, hx]
        have hrun := Reconciliation.run_yields (r := { r with matched := mode.apply r.matched })
          ht hlive options
        exact ⟨_, hresolve mode _ hrun⟩

/-- A chain without a step fails before anything is looked at. -/
theorem resolve_blankChain (h : l.IsBlankChain) (options : ResolverOptions) (mode : MatchMode) :
    (l.resolve options root mode).Yields t (.error (.emptyChain "")) := by
  obtain ⟨hl, htext⟩ := h
  have hwalk : (Chain.walk [] root).Yields t (.error (.emptyChain "")) := Access.Yields.throw _
  simp only [Locator.resolve, hl, ParsedChain.chain_ofText_eq_nil.mpr htext]
  exact Access.Yields.bind_error (Access.Yields.bind_error hwalk)

/-- A chain with a step fails from a live root at a bad position only. -/
theorem Reachable.resolve_classChain (ht : t.Reachable) {x : Nat} (hx : t.liveId? root = some x)
    (hl : l.strategy = .classChain) (hsolid : ¬ l.IsBlankChain) (options : ResolverOptions)
    (mode : MatchMode) :
    ∃ r, (l.resolve options root mode).Yields t r ∧ ∀ e, r = .error e ↔ t.Fails l root e := by
  have hsteps : (ParsedChain.ofText l.value).chain ≠ [] := by
    intro hempty
    exact hsolid ⟨hl, ParsedChain.chain_ofText_eq_nil.mp hempty⟩
  have hresolve := Chain.resolve_yields ht hx hsteps mode
  have hfails : ∀ e, t.evaluate false [x] (ParsedChain.ofText l.value).chain = .error e ↔
      t.Fails l root e := by
    intro e
    rw [evaluate_error_iff]
    constructor
    · rintro ⟨i, n, hreaches, hbad, rfl⟩
      exact .badPosition hl hx hreaches hbad
    · intro h
      cases h with
      | emptyChain h => exact absurd h hsolid
      | staleRoot hstale => exact absurd (hx.symm.trans hstale) (by simp)
      | badPosition _ hlive hreaches hbad =>
          obtain rfl := Option.some.inj (hx.symm.trans hlive)
          exact ⟨_, _, hreaches, hbad, rfl⟩
  simp only [Locator.resolve, hl]
  cases hresult : t.evaluate false [x] (ParsedChain.ofText l.value).chain with
  | error e =>
      rw [hresult] at hresolve hfails
      exact ⟨_, Access.Yields.bind_error hresolve, fun e' => by rw [← hfails]; simp⟩
  | ok ys =>
      rw [hresult] at hresolve hfails
      exact ⟨_, Access.Yields.bind hresolve (.pure _), fun e' => by rw [← hfails]; simp⟩

/-- Every locator leads to a resolution, or fails as `Fails` says. -/
theorem Reachable.resolve_result (ht : t.Reachable) (options : ResolverOptions) (l : Locator)
    (root : Handle) (mode : MatchMode) :
    ∃ r, (l.resolve options root mode).Yields t r ∧ ∀ e, r = .error e ↔ t.Fails l root e := by
  by_cases hblank : l.IsBlankChain
  · refine ⟨_, resolve_blankChain hblank options mode, fun e => ⟨?_, ?_⟩⟩
    · intro h
      rw [← Except.error.inj h]
      exact .emptyChain hblank
    · intro h
      cases h with
      | emptyChain => rfl
      | staleRoot _ hchain => exact absurd hblank hchain
      | badPosition _ _ hreaches =>
          rw [ParsedChain.chain_ofText_eq_nil.mpr hblank.2] at hreaches
          cases hreaches
  by_cases hunreadable : l.IsUnreadable
  · obtain ⟨hl, e, hparse⟩ := hunreadable
    have hyields : (l.resolve options root mode).Yields t
        (.ok (.ofProblem (.invalidPredicate l.value e.message))) := by
      simp only [Locator.resolve, hl, hparse]
      exact .pure _
    refine ⟨_, hyields, fun e' => iff_of_false (by simp) ?_⟩
    intro h
    cases h with
    | emptyChain h => exact hblank h
    | staleRoot _ _ hreadable => exact hreadable ⟨hl, e, hparse⟩
    | badPosition hchain => exact absurd (hl.symm.trans hchain) (by decide)
  cases hx : t.liveId? root with
  | none =>
      refine ⟨_, resolve_stale hx hblank hunreadable options mode, fun e => ⟨?_, ?_⟩⟩
      · intro h
        rw [← Except.error.inj h]
        exact .staleRoot hx hblank hunreadable
      · intro h
        cases h with
        | emptyChain h => exact absurd h hblank
        | staleRoot => rfl
        | badPosition _ hlive => exact absurd (hx.symm.trans hlive) (by simp)
  | some x =>
      by_cases hl : l.strategy = .classChain
      · exact ht.resolve_classChain hx hl hblank options mode
      · obtain ⟨found, hyields⟩ := ht.resolve_live hx hl options mode
        refine ⟨_, hyields, fun e => iff_of_false (by simp) ?_⟩
        intro h
        cases h with
        | emptyChain h => exact hblank h
        | staleRoot hstale => exact absurd (hx.symm.trans hstale) (by simp)
        | badPosition hchain => exact hl hchain

/-- **What makes a resolution fail.**  On a tree that nothing interferes with, a locator fails in
the cases that `Fails` lists and leads to a resolution in all others.  A predicate that cannot be
read leads to no element and one report, whatever the root is, and so does a path expression from
a live root that selects no nodes. -/
theorem Reachable.resolve_fails_iff (ht : t.Reachable) (options : ResolverOptions) (raw : String)
    (root : Handle) (mode : MatchMode) :
    (∀ e, ((Locator.parse raw).resolve options root mode).runStill t = .error e ↔
        t.Fails (Locator.parse raw) root e) ∧
      ((∀ e, ¬ t.Fails (Locator.parse raw) root e) →
        ∃ found, ((Locator.parse raw).resolve options root mode).runStill t = .ok found) ∧
      (∀ value e, Locator.parse raw = ⟨.predicate, value⟩ → Predicate.parse value = .error e →
        ((Locator.parse raw).resolve options root mode).runStill t =
          .ok ⟨[], [.invalidPredicate value e.message]⟩) ∧
      (∀ value s e, Locator.parse raw = ⟨.xpath, value⟩ → t.snapshot root = .ok s →
        (s.markup options.indexPathRoot).matching value = .error e →
        ((Locator.parse raw).resolve options root mode).runStill t =
          .ok ⟨[], [.invalidXPath value e.reason]⟩) := by
  obtain ⟨r, hyields, hfails⟩ := ht.resolve_result options (Locator.parse raw) root mode
  rw [hyields.runStill_eq]
  refine ⟨hfails, ?_, ?_, ?_⟩
  · intro hnone
    cases r with
    | error e => exact absurd ((hfails e).mp rfl) (hnone e)
    | ok found => exact ⟨found, rfl⟩
  · intro value e hl hparse
    rw [← hyields.runStill_eq, hl]
    simp only [Locator.resolve, hparse]
    exact (Access.Yields.pure _).runStill_eq
  · intro value s e hl hsnapshot hmatching
    rw [← hyields.runStill_eq, hl]
    refine Access.Yields.runStill_eq ((Access.Yields.snapshot hsnapshot).bind ?_)
    rw [hmatching]
    exact .pure _

/-- A chain of slashes fails even from a handle that was never given out, which fails any other
locator; the third cell of two fails from the screen. -/
theorem resolve_fails_iff_twinTables :
    (ofFixture .twinTables).Reachable ∧
    (∀ options mode, ((Locator.parse "class-chain=//").resolve options ⟨"node-9"⟩ mode).runStill
      (ofFixture .twinTables) = .error (.emptyChain "")) ∧
    (∀ options mode, ((Locator.parse "id=save").resolve options ⟨"node-9"⟩ mode).runStill
      (ofFixture .twinTables) = .error (.tree (.staleElement "node-9"))) ∧
    (∀ options mode, ((Locator.parse "class-chain=**/XCUIElementTypeCell[3]").resolve options
      ⟨"node-0"⟩ mode).runStill (ofFixture .twinTables) = .error (.invalidPosition 3 2)) := by
  refine ⟨reachable_twinTables, fun options mode => ?_, fun options mode => ?_,
    fun options mode => ?_⟩
  · have hread : Locator.parse "class-chain=//" = ⟨.classChain, "//"⟩ := by decide +kernel
    have hblank : (Locator.parse "class-chain=//").IsBlankChain := by
      rw [hread]
      exact ⟨rfl, fun c hc => .inl (by simpa using hc)⟩
    exact ((reachable_twinTables.resolve_fails_iff options _ ⟨"node-9"⟩ mode).1 _).mpr
      (.emptyChain hblank)
  · have hid : (Locator.parse "id=save").strategy = .id := by decide +kernel
    refine ((reachable_twinTables.resolve_fails_iff options _ ⟨"node-9"⟩ mode).1 _).mpr
      (.staleRoot (by decide) ?_ ?_)
    · exact fun h => absurd (hid.symm.trans h.1) (by decide)
    · exact fun h => absurd (hid.symm.trans h.1) (by decide)
  · have hchain : (ParsedChain.ofText (Locator.parse
        "class-chain=**/XCUIElementTypeCell[3]").value).chain =
        [.anyDepth, .select .cell none (some 3)] := by
      rfl
    refine ((reachable_twinTables.resolve_fails_iff options _ ⟨"node-0"⟩ mode).1 _).mpr ?_
    refine .badPosition (x := 0) (by decide +kernel) (by decide) ?_ (by decide)
    rw [hchain]
    exact .marker (.here true [0] .cell none 3 [])

end LiveTree

end ElementFinder
