import ElementFinder.Chain.Reading
import ElementFinder.Proofs.TypeNames

/-!
# The brackets of a token

A token is read in passes: the first predicate between accents is looked for, all such predicates
are taken out, and then the innermost brackets of what is left are taken for positions.  Each pass
comes with what it finds, and with where it finds something: `findPredicate_sound` and
`findPredicate_complete` for predicates, `splitBrackets_sound` and `splitBrackets_complete` for
positions.
-/

namespace ElementFinder

namespace ChainReading

/-! ## Predicates -/

/-- A text that can stand between accents: it is on one line, and no accent in it closes the
bracket. -/
structure Quotes (body : List Char) : Prop where
  line : '\n' ∉ body
  closes : ¬ ['\x60', ']'] <:+: body

/-- Nothing may be quoted. -/
theorem quotes_nil : Quotes [] :=
  ⟨List.not_mem_nil, by simp⟩

/-- A quoted text holds no line break, and no accent before a closing bracket. -/
theorem quotes_cons {c : Char} {body : List Char} :
    Quotes (c :: body) ↔
      c ≠ '\n' ∧ ¬ (c = '\x60' ∧ body.head? = some ']') ∧ Quotes body := by
  have hprefix : ['\x60', ']'] <+: c :: body ↔ c = '\x60' ∧ body.head? = some ']' := by
    cases body with
    | nil => simp
    | cons d body => simp [List.cons_prefix_cons, eq_comm]
  constructor
  · intro h
    have hline := h.line
    have hcloses := h.closes
    rw [List.infix_cons_iff, hprefix, not_or] at hcloses
    rw [List.mem_cons, not_or] at hline
    exact ⟨Ne.symm hline.1, hcloses.1, hline.2, hcloses.2⟩
  · rintro ⟨hne, hopen, hbody⟩
    constructor
    · rw [List.mem_cons, not_or]
      exact ⟨Ne.symm hne, hbody.line⟩
    · rw [List.infix_cons_iff, hprefix, not_or]
      exact ⟨hopen, hbody.closes⟩

/-- Without accents a text on one line can stand between accents. -/
theorem quotes_of_not_mem {body : List Char} (haccent : '\x60' ∉ body) (hline : '\n' ∉ body) :
    Quotes body :=
  ⟨hline, fun h => haccent (h.subset List.mem_cons_self)⟩

/-- A quoted predicate is taken as it was written. -/
theorem takePredicate_complete {body : List Char} (h : Quotes body) (rest : List Char) :
    takePredicate (body ++ '\x60' :: ']' :: rest) = some (body, rest) := by
  induction body with
  | nil => rfl
  | cons c body ih =>
      obtain ⟨hline, hopen, hbody⟩ := quotes_cons.mp h
      -- an accent that ends the body stands before the closing accent
      have hearly : ¬ (c = '\x60' ∧ (body ++ '\x60' :: ']' :: rest).head? = some ']') := by
        cases body with
        | nil => simp
        | cons d body => simpa using hopen
      simp only [List.cons_append, takePredicate, ← Bool.decide_and, hearly, decide_false,
        Bool.false_eq_true, if_false, hline, ih hbody, Option.map_some]

/-- What is taken is a quoted predicate. -/
theorem takePredicate_sound {cs body after : List Char}
    (h : takePredicate cs = some (body, after)) :
    cs = body ++ '\x60' :: ']' :: after ∧ Quotes body := by
  induction cs generalizing body with
  | nil => cases h
  | cons c cs ih =>
      rw [takePredicate] at h
      split at h
      · rename_i hcloses
        obtain ⟨rfl, rfl⟩ := Prod.mk.inj (Option.some.inj h)
        simp only [Bool.and_eq_true, decide_eq_true_eq] at hcloses
        obtain ⟨rfl, hhead⟩ := hcloses
        obtain ⟨rest, rfl⟩ := List.head?_eq_some_iff.mp hhead
        exact ⟨rfl, quotes_nil⟩
      split at h
      · cases h
      · rename_i hopen hline
        obtain ⟨⟨body, rest⟩, htake, heq⟩ := Option.map_eq_some_iff.mp h
        obtain ⟨rfl, rfl⟩ := Prod.mk.inj heq
        obtain ⟨rfl, hbody⟩ := ih htake
        refine ⟨rfl, quotes_cons.mpr ⟨hline, ?_, hbody⟩⟩
        rintro ⟨rfl, hhead⟩
        obtain ⟨rest, rfl⟩ := List.head?_eq_some_iff.mp hhead
        simp at hopen

/-- The text of a predicate between accents and brackets. -/
def quoted (body : List Char) : List Char :=
  '[' :: '\x60' :: (body ++ ['\x60', ']'])

/-- A predicate is found behind a text without accents. -/
theorem findPredicate_complete {before body : List Char} (hbefore : '\x60' ∉ before)
    (hbody : Quotes body) (after : List Char) :
    findPredicate (before ++ (quoted body ++ after)) = some (before, body, after) := by
  have hquoted : quoted body ++ after = '[' :: '\x60' :: (body ++ '\x60' :: ']' :: after) := by
    simp [quoted]
  rw [hquoted]
  induction before with
  | nil => simp [findPredicate, takePredicate_complete hbody]
  | cons c before ih =>
      rw [List.mem_cons, not_or] at hbefore
      have hhead : (before ++ '[' :: '\x60' :: (body ++ '\x60' :: ']' :: after)).head? ≠
          some '\x60' := by
        cases before with
        | nil => simp
        | cons d before =>
            intro hd
            obtain rfl : d = '\x60' := by simpa using hd
            exact hbefore.2 List.mem_cons_self
      simp only [List.cons_append, findPredicate, hhead, decide_false, Bool.and_false,
        Bool.false_eq_true, if_false, ih hbefore.2, Option.map_some]

/-- What is found is a predicate between accents and brackets. -/
theorem findPredicate_sound {cs before body after : List Char}
    (h : findPredicate cs = some (before, body, after)) :
    cs = before ++ (quoted body ++ after) ∧ Quotes body := by
  induction cs generalizing before with
  | nil => cases h
  | cons c cs ih =>
      rw [findPredicate] at h
      split at h
      · rename_i found after' hfound
        obtain ⟨rfl, hrest⟩ := Prod.mk.inj (Option.some.inj h)
        obtain ⟨rfl, rfl⟩ := Prod.mk.inj hrest
        split at hfound
        · rename_i hopen
          simp only [Bool.and_eq_true, decide_eq_true_eq] at hopen
          obtain ⟨rfl, hhead⟩ := hopen
          obtain ⟨rest, rfl⟩ := List.head?_eq_some_iff.mp hhead
          obtain ⟨hcs, hbody⟩ := takePredicate_sound hfound
          rw [List.drop_one, List.tail_cons] at hcs
          exact ⟨by simp [quoted, hcs], hbody⟩
        · cases hfound
      · obtain ⟨⟨before, found, rest⟩, hfind, heq⟩ := Option.map_eq_some_iff.mp h
        obtain ⟨rfl, hrest⟩ := Prod.mk.inj heq
        obtain ⟨rfl, rfl⟩ := Prod.mk.inj hrest
        obtain ⟨rfl, hbody⟩ := ih hfind
        exact ⟨rfl, hbody⟩

/-- Without an accent there is no predicate. -/
theorem findPredicate_eq_none {cs : List Char} (h : '\x60' ∉ cs) : findPredicate cs = none := by
  cases hfind : findPredicate cs with
  | none => rfl
  | some found =>
      obtain ⟨hcs, -⟩ := findPredicate_sound hfind
      exact absurd (by rw [hcs]; simp [quoted]) h

/-- Where no predicate is found nothing is taken out. -/
theorem withoutPredicates_of_none {cs : List Char} (h : findPredicate cs = none) (fuel : Nat) :
    withoutPredicates fuel cs = cs := by
  cases fuel with
  | zero => rfl
  | succ fuel => rw [withoutPredicates, h]

/-- A single predicate is taken out. -/
theorem withoutPredicates_single {cs before body after : List Char}
    (h : findPredicate cs = some (before, body, after)) (hafter : findPredicate after = none) :
    withoutPredicates cs.length cs = before ++ after := by
  obtain ⟨fuel, hfuel⟩ : ∃ fuel, cs.length = fuel + 1 := by
    cases cs with
    | nil => cases h
    | cons c cs => exact ⟨cs.length, rfl⟩
  rw [hfuel, withoutPredicates, h]
  simp only [withoutPredicates_of_none hafter]

/-! ## Positions -/

/-- A bracket is taken as it was written. -/
theorem takeBracket_complete {body : List Char} (hopen : '[' ∉ body) (hclose : ']' ∉ body)
    (rest : List Char) : takeBracket (body ++ ']' :: rest) = some (body, rest) := by
  induction body with
  | nil => rfl
  | cons c body ih =>
      simp only [List.mem_cons, not_or] at hopen hclose
      simp [takeBracket, Ne.symm hopen.1, Ne.symm hclose.1, ih hopen.2 hclose.2]

/-- What is taken is a bracket without brackets in it. -/
theorem takeBracket_sound {cs body after : List Char} (h : takeBracket cs = some (body, after)) :
    cs = body ++ ']' :: after ∧ '[' ∉ body ∧ ']' ∉ body := by
  induction cs generalizing body with
  | nil => cases h
  | cons c cs ih =>
      rw [takeBracket] at h
      split at h
      · rename_i hclose
        obtain ⟨rfl, rfl⟩ := Prod.mk.inj (Option.some.inj h)
        exact ⟨by rw [hclose]; rfl, List.not_mem_nil, List.not_mem_nil⟩
      split at h
      · cases h
      · rename_i hclose hopen
        obtain ⟨⟨body, rest⟩, htake, heq⟩ := Option.map_eq_some_iff.mp h
        obtain ⟨rfl, rfl⟩ := Prod.mk.inj heq
        obtain ⟨rfl, hfree⟩ := ih htake
        exact ⟨rfl, by simp [Ne.symm hopen, hfree.1], by simp [Ne.symm hclose, hfree.2]⟩

/-- Without an opening bracket there is nothing to take out. -/
theorem splitBrackets_plain {cs : List Char} (h : '[' ∉ cs) (fuel : Nat) :
    splitBrackets fuel cs = ([], cs) := by
  induction cs generalizing fuel with
  | nil => cases fuel <;> rfl
  | cons c cs ih =>
      rw [List.mem_cons, not_or] at h
      cases fuel with
      | zero => rfl
      | succ fuel => simp [splitBrackets, Ne.symm h.1, ih h.2]

/-- A single bracket is taken out. -/
theorem splitBrackets_complete {before body after : List Char} (hbefore : '[' ∉ before)
    (hopen : '[' ∉ body) (hclose : ']' ∉ body) (hafter : '[' ∉ after) {fuel : Nat}
    (hfuel : before.length < fuel) :
    splitBrackets fuel (before ++ '[' :: (body ++ ']' :: after)) = ([body], before ++ after) := by
  induction before generalizing fuel with
  | nil =>
      obtain ⟨fuel, rfl⟩ : ∃ f, fuel = f + 1 := ⟨fuel - 1, by simp at hfuel; omega⟩
      simp [splitBrackets, takeBracket_complete hopen hclose, splitBrackets_plain hafter]
  | cons c before ih =>
      rw [List.mem_cons, not_or] at hbefore
      rw [List.length_cons] at hfuel
      obtain ⟨fuel, rfl⟩ : ∃ f, fuel = f + 1 := ⟨fuel - 1, by omega⟩
      have hlt : before.length < fuel := by omega
      simp [splitBrackets, Ne.symm hbefore.1, ih hbefore.2 hlt]

/-- Texts that are taken out of brackets stood in them, and the rest is left as it was. -/
theorem splitBrackets_sound (fuel : Nat) {cs left : List Char} {bodies : List (List Char)}
    (h : splitBrackets fuel cs = (bodies, left)) :
    (bodies = [] → left = cs) ∧
      ∀ body, bodies = [body] → ∃ before after, cs = before ++ '[' :: (body ++ ']' :: after) ∧
        left = before ++ after ∧ ']' ∉ body := by
  induction fuel generalizing cs bodies left with
  | zero =>
      obtain ⟨rfl, rfl⟩ := Prod.mk.inj h
      exact ⟨fun _ => rfl, fun _ hbody => by cases hbody⟩
  | succ fuel ih =>
      cases cs with
      | nil =>
          obtain ⟨rfl, rfl⟩ := Prod.mk.inj h
          exact ⟨fun _ => rfl, fun _ hbody => by cases hbody⟩
      | cons c cs =>
          rw [splitBrackets] at h
          split at h
          · rename_i first rest htaken
            split at htaken
            · rename_i hopen
              obtain ⟨⟨others, left'⟩, hrest⟩ : ∃ r, splitBrackets fuel rest = r := ⟨_, rfl⟩
              simp only [hrest] at h
              obtain ⟨rfl, rfl⟩ := Prod.mk.inj h
              obtain ⟨rfl, -, hclose⟩ := takeBracket_sound htaken
              refine ⟨fun hnil => (List.cons_ne_nil _ _ hnil).elim, ?_⟩
              intro body hbody
              obtain ⟨rfl, hnil⟩ := List.cons.inj hbody
              exact ⟨[], rest, by rw [hopen]; rfl, (ih hrest).1 hnil, hclose⟩
            · cases htaken
          · obtain ⟨⟨others, left'⟩, hrest⟩ : ∃ r, splitBrackets fuel cs = r := ⟨_, rfl⟩
            simp only [hrest] at h
            obtain ⟨rfl, rfl⟩ := Prod.mk.inj h
            obtain ⟨hnone, hone⟩ := ih hrest
            refine ⟨fun hnil => by rw [hnone hnil], ?_⟩
            intro body hbody
            obtain ⟨before, after, rfl, rfl, hclose⟩ := hone body hbody
            exact ⟨c :: before, after, rfl, rfl, hclose⟩

/-- What is read as a position and nothing else: no bracket, or one with a position in it. -/
inductive HoldsPosition : List (List Char) → Option Int → Prop
  | none : HoldsPosition [] none
  | some {body : List Char} {i : Int} (read : position? (trimBlank body) = some i) :
      HoldsPosition [body] (some i)

/-- After a position every bracket is a problem. -/
theorem readPositions_further {token : String} {i : Int} {position : Option Int}
    {bodies : List (List Char)} (h : readPositions token (some i) bodies = (position, [])) :
    bodies = [] ∧ position = some i := by
  cases bodies with
  | nil =>
      obtain ⟨rfl, -⟩ := Prod.mk.inj h
      exact ⟨rfl, rfl⟩
  | cons body bodies =>
      cases hread : position? (trimBlank body) <;> simp [readPositions, hread] at h

/-- **At most one position is read without problems.** -/
theorem readPositions_iff {token : String} {position : Option Int} {bodies : List (List Char)} :
    readPositions token none bodies = (position, []) ↔ HoldsPosition bodies position := by
  constructor
  · intro h
    cases bodies with
    | nil =>
        obtain ⟨rfl, -⟩ := Prod.mk.inj h
        exact .none
    | cons body bodies =>
        cases hread : position? (trimBlank body) with
        | none => simp [readPositions, hread] at h
        | some i =>
            simp only [readPositions, hread] at h
            obtain ⟨rfl, rfl⟩ := readPositions_further h
            exact .some hread
  · rintro (_ | ⟨hread⟩)
    · rfl
    · simp [readPositions, hread]

end ChainReading

end ElementFinder
