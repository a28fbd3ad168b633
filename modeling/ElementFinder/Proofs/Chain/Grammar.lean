import ElementFinder.Proofs.Chain.Brackets

/-!
# The grammar of chains

A token of a chain conforms to the grammar if it is the marker for any number of levels, or a type
followed by at most one position and at most one predicate, with blanks besides (`Conforms`).

A type is read without problems from more than its names: whatever begins with the wildcard will
do (`readType_iff`).  The brackets that conform are those in which the reader finds a predicate
and a position at most, and nothing but blanks besides (`bracketText_iff`).  A bracket that holds
a predicate has to be told from one that holds a position, and the two may only stand side by
side, so the proof goes by where the predicate stands to the position.
-/

namespace ElementFinder

namespace ChainReading

/-! ## The grammar -/

/-- A text of blanks. -/
def Blank (cs : List Char) : Prop :=
  ∀ c ∈ cs, isBlank c = true

/-- The brackets of a step: a predicate and a position at most, in either order, each followed by
nothing but blanks. -/
inductive BracketText : List Char → Option Predicate → Option Int → Prop
  | nil : BracketText [] none none
  | predicate {body gap rest : List Char} {p : Predicate} {i : Option Int} (quotes : Quotes body)
      (read : Predicate.ofChars body = .ok p) (blank : Blank gap)
      (further : BracketText rest none i) :
      BracketText (quoted body ++ (gap ++ rest)) (some p) i
  | position {body gap rest : List Char} {p : Option Predicate} {i : Int}
      (read : position? (trimBlank body) = some i) (blank : Blank gap)
      (further : BracketText rest p none) :
      BracketText ('[' :: (body ++ ']' :: (gap ++ rest))) p (some i)

/-- The text of a type: the wildcard, or a name of a registered type, between blanks. -/
def TypeText (cs : List Char) (t : ElementType) : Prop :=
  (trimBlank cs = ['*'] ∧ t = .any) ∨ t.NamedBy (String.ofList cs)

/-- A token conforms to the grammar, and the step is what it writes. -/
inductive Conforms : List Char → ChainStep → Prop
  | anyDepth : Conforms ['*', '*'] .anyDepth
  | select {name brackets : List Char} {t : ElementType} {p : Option Predicate}
      {i : Option Int} (type : TypeText name t) (further : BracketText brackets p i) :
      Conforms (name ++ brackets) (.select t p i)

/-! ## Types -/

theorem not_mem_of_blank {cs : List Char} (h : Blank cs) {c : Char} (hc : isBlank c = false) :
    c ∉ cs := by
  intro hmem
  rw [h c hmem] at hc
  cases hc

theorem namedBy_trimBlank {cs : List Char} {t : ElementType} :
    t.NamedBy (String.ofList (trimBlank cs)) ↔ t.NamedBy (String.ofList cs) := by
  simp only [ElementType.NamedBy, trimText, String.toList_ofList]
  rw [trimBlank, trimBlank, trimWhile_trimWhile]

/-- A type is read without a problem from a text that begins with the wildcard, and from a name of
the type. -/
theorem readType_iff {cs : List Char} {t : ElementType} :
    readType cs = (t, []) ↔
      ((trimBlank cs).head? = some '*' ∧ t = .any) ∨ t.NamedBy (String.ofList cs) := by
  have hnamed : t.NamedBy (String.ofList cs) → (trimBlank cs).head? ≠ some '*' := by
    intro h hhead
    have hletter := h.isLetter '*' (by
      rw [String.toList_ofList]
      exact List.mem_of_mem_head? hhead)
    exact absurd hletter (by decide)
  rw [readType]
  split
  · rename_i hhead
    constructor
    · intro h
      exact .inl ⟨hhead, (Prod.mk.inj h).1.symm⟩
    · rintro (⟨-, rfl⟩ | h)
      · rfl
      · exact absurd hhead (hnamed h)
  · rename_i hhead
    rw [← namedBy_trimBlank, ← ElementType.lookup_eq_ok_iff]
    split
    · rename_i u hu
      rw [hu]
      simp [hhead]
    · rename_i e he
      rw [he]
      simp [hhead]

/-- The text of a type is read as the type, and holds no bracket. -/
theorem TypeText.reads {cs : List Char} {t : ElementType} (h : TypeText cs t) :
    readType cs = (t, []) ∧ '[' ∉ cs ∧
      ((trimBlank cs).head? = some '*' → trimBlank cs = ['*']) := by
  rcases h with ⟨hstar, rfl⟩ | h
  · refine ⟨readType_iff.mpr (.inl ⟨by rw [hstar]; rfl, rfl⟩), ?_, fun _ => hstar⟩
    intro hmem
    rcases mem_trimBlank_or hmem with hblank | htrim
    · exact absurd hblank (by decide)
    · rw [hstar] at htrim
      exact absurd htrim (by decide)
  · have hletters := h.isLetter
    rw [String.toList_ofList] at hletters
    refine ⟨readType_iff.mpr (.inr h), ?_, ?_⟩
    · intro hmem
      rcases mem_trimBlank_or hmem with hblank | htrim
      · exact absurd hblank (by decide)
      · exact absurd (hletters '[' htrim) (by decide)
    · intro hhead
      exact absurd (hletters '*' (List.mem_of_mem_head? hhead)) (by decide)

/-! ## Brackets -/

/-- A character that is neither a digit nor a sign nor blank does not stand in a position. -/
theorem not_mem_of_position? {body : List Char} {i : Int}
    (h : position? (trimBlank body) = some i) {c : Char} (hblank : isBlank c = false)
    (hdigit : isDigit c = false) (hminus : c ≠ '-') (hplus : c ≠ '+') : c ∉ body := by
  intro hc
  rcases mem_trimBlank_or hc with hb | hc
  · rw [hb] at hblank
    cases hblank
  generalize trimBlank body = cs at h hc
  rw [position?, Option.filter_eq_some_iff] at h
  have hdigits : ∀ d ∈ (splitSign cs).2, isDigit d = true := by
    obtain ⟨n, hn, -⟩ := Option.map_eq_some_iff.mp h.1
    obtain ⟨k, hk, -⟩ := Option.bind_eq_some_iff.mp hn
    change natOfDigits? (splitSign cs).2 = some k at hk
    rw [natOfDigits?, Option.ite_none_right_eq_some, Bool.and_eq_true, List.all_eq_true] at hk
    exact hk.1.2
  have hmem : c ∈ (splitSign cs).2 := by
    unfold splitSign
    split
    · exact (List.mem_cons.mp hc).resolve_left hminus
    · exact (List.mem_cons.mp hc).resolve_left hplus
    · exact hc
  rw [hdigits c hmem] at hdigit
  cases hdigit

/-- No bracket and no accent stands in a position. -/
theorem solid_of_position? {body : List Char} {i : Int}
    (h : position? (trimBlank body) = some i) : '[' ∉ body ∧ ']' ∉ body ∧ '\x60' ∉ body :=
  ⟨not_mem_of_position? h (by decide) (by decide) (by decide) (by decide),
    not_mem_of_position? h (by decide) (by decide) (by decide) (by decide),
    not_mem_of_position? h (by decide) (by decide) (by decide) (by decide)⟩

theorem BracketText.eq_nil {cs : List Char} (h : BracketText cs none none) : cs = [] := by
  cases h
  rfl

/-- Brackets stand at the beginning. -/
theorem BracketText.head {cs : List Char} {p : Option Predicate} {i : Option Int}
    (h : BracketText cs p i) : ∀ c ∈ cs.head?, (c != '[') = false := by
  intro c hc
  cases h with
  | nil => cases hc
  | predicate =>
      obtain rfl := Option.some.inj hc
      rfl
  | position =>
      obtain rfl := Option.some.inj hc
      rfl

/-- Without a predicate there is no accent, and innermost brackets are a position at most. -/
theorem BracketText.position_only {gap cs : List Char} {i : Option Int} (hgap : Blank gap)
    (h : BracketText cs none i) :
    '\x60' ∉ gap ++ cs ∧ ∀ fuel, (gap ++ cs).length < fuel → ∃ bodies left,
      splitBrackets fuel (gap ++ cs) = (bodies, left) ∧ HoldsPosition bodies i ∧ Blank left := by
  have haccent : '\x60' ∉ gap := not_mem_of_blank hgap (by decide)
  have hopen : '[' ∉ gap := not_mem_of_blank hgap (by decide)
  cases h with
  | nil =>
      rw [List.append_nil]
      exact ⟨haccent, fun fuel _ => ⟨[], gap, splitBrackets_plain hopen fuel, .none, hgap⟩⟩
  | @position body gap' rest _ i read blank further =>
      obtain rfl := further.eq_nil
      rw [List.append_nil]
      obtain ⟨hbodyOpen, hbodyClose, hbody⟩ := solid_of_position? read
      constructor
      · have hgap' : '\x60' ∉ gap' := not_mem_of_blank blank (by decide)
        simp [haccent, hbody, hgap']
      · intro fuel hfuel
        have hopen' : '[' ∉ gap' := not_mem_of_blank blank (by decide)
        have hlt : gap.length < fuel := by
          rw [List.length_append] at hfuel
          omega
        exact ⟨[body], gap ++ gap', splitBrackets_complete hopen hbodyOpen hbodyClose hopen' hlt,
          .some read, List.forall_mem_append.mpr ⟨hgap, blank⟩⟩

/-- The predicate among brackets, and what is left without it. -/
theorem BracketText.predicate_apart {cs : List Char} {q : Predicate} {i : Option Int}
    (h : BracketText cs (some q) i) :
    ∃ before body after, cs = before ++ (quoted body ++ after) ∧ Quotes body ∧
      Predicate.ofChars body = .ok q ∧ '\x60' ∉ before ∧ ('[' ∈ before → ']' ∈ before) ∧
      ∃ gap rest, before ++ after = gap ++ rest ∧ Blank gap ∧ BracketText rest none i := by
  cases h with
  | @predicate body gap rest _ _ quotes read blank further =>
      exact ⟨[], body, gap ++ rest, rfl, quotes, read, List.not_mem_nil,
        fun hmem => (List.not_mem_nil hmem).elim, gap, rest, rfl, blank,
        further⟩
  | @position first gap rest _ i read blank further =>
      cases further with
      | @predicate body gap' rest _ _ quotes predicate blank' further =>
          obtain rfl := further.eq_nil
          have hfirst : '\x60' ∉ first := (solid_of_position? read).2.2
          have hgap : '\x60' ∉ gap := not_mem_of_blank blank (by decide)
          refine ⟨'[' :: (first ++ ']' :: gap), body, gap', by simp, quotes, predicate,
            by simp [hfirst, hgap], by simp, [], '[' :: (first ++ ']' :: (gap ++ gap' ++ [])),
            by simp, fun c hc => (List.not_mem_nil hc).elim, ?_⟩
          exact .position read (List.forall_mem_append.mpr ⟨blank, blank'⟩) .nil

/-- What the reader finds in brackets that conform. -/
structure Clean (cs : List Char) (p : Option Predicate) (i : Option Int) : Prop where
  predicate : ∀ token, readPredicate token cs = (p, [])
  single : ∀ {before body after}, findPredicate cs = some (before, body, after) →
    findPredicate after = none ∧ ('[' ∈ before → ']' ∈ before)
  position : ∃ bodies left, splitBrackets (cs.length + 1) (withoutPredicates cs.length cs) =
    (bodies, left) ∧ HoldsPosition bodies i ∧ Blank left

/-- A predicate is read without a problem if there is none or the first can be read. -/
theorem readPredicate_iff {token : String} {cs : List Char} {p : Option Predicate} :
    readPredicate token cs = (p, []) ↔
      (findPredicate cs = none ∧ p = none) ∨ ∃ before body after q,
        findPredicate cs = some (before, body, after) ∧ Predicate.ofChars body = .ok q ∧
          p = some q := by
  rw [readPredicate]
  cases hfind : findPredicate cs with
  | none => simp [eq_comm]
  | some found =>
      obtain ⟨before, body, after⟩ := found
      cases hread : Predicate.ofChars body with
      | ok q => simp [hread, eq_comm]
      | error e => simp [hread]

/-- Brackets that conform are read as what they write. -/
theorem BracketText.clean {cs : List Char} {p : Option Predicate} {i : Option Int}
    (h : BracketText cs p i) : Clean cs p i := by
  cases p with
  | none =>
      obtain ⟨haccent, hsplit⟩ := h.position_only (List.forall_mem_nil _)
      rw [List.nil_append] at haccent hsplit
      have hfind : findPredicate cs = none := findPredicate_eq_none haccent
      constructor
      · exact fun token => readPredicate_iff.mpr (.inl ⟨hfind, rfl⟩)
      · intro before body after hfound
        rw [hfind] at hfound
        cases hfound
      · rw [withoutPredicates_of_none hfind]
        exact hsplit _ (Nat.lt_succ_self _)
  | some q =>
      obtain ⟨before, body, after, rfl, quotes, read, haccent, hcloses, gap, rest, hrest, hblank,
        further⟩ := h.predicate_apart
      obtain ⟨hnone, hsplit⟩ := further.position_only hblank
      rw [← hrest] at hnone hsplit
      have hfind := findPredicate_complete haccent quotes after
      have hafter : findPredicate after = none :=
        findPredicate_eq_none fun hmem => hnone (List.mem_append_right _ hmem)
      constructor
      · exact fun token => readPredicate_iff.mpr (.inr ⟨before, body, after, q, hfind, read, rfl⟩)
      · intro before' body' after' hfound
        obtain ⟨rfl, hparts⟩ := Prod.mk.inj (Option.some.inj (hfind.symm.trans hfound))
        obtain ⟨rfl, rfl⟩ := Prod.mk.inj hparts
        exact ⟨hafter, hcloses⟩
      · rw [withoutPredicates_single hfind hafter]
        apply hsplit
        simp only [List.length_append]
        omega

/-- Blanks do not stand before the first bracket. -/
theorem eq_nil_of_head {gap cs : List Char} (hhead : ∀ c ∈ (gap ++ cs).head?, (c != '[') = false)
    (hgap : Blank gap) : gap = [] := by
  cases gap with
  | nil => rfl
  | cons c gap =>
      obtain rfl : c = '[' := by simpa using hhead c rfl
      exact absurd (hgap '[' List.mem_cons_self) (by decide)

/-- Without a predicate, a position at most is found among blanks only in brackets that
conform. -/
theorem bracketText_of_position {cs left : List Char} {bodies : List (List Char)}
    {i : Option Int} {fuel : Nat} (hhead : ∀ c ∈ cs.head?, (c != '[') = false)
    (hsplit : splitBrackets fuel cs = (bodies, left)) (hposition : HoldsPosition bodies i)
    (hblank : Blank left) : BracketText cs none i := by
  obtain ⟨hnone, hone⟩ := splitBrackets_sound fuel hsplit
  cases hposition with
  | none =>
      obtain rfl := hnone rfl
      rw [← List.append_nil left] at hhead
      rw [eq_nil_of_head hhead hblank]
      exact .nil
  | @some body i read =>
      obtain ⟨before, after, rfl, rfl, -⟩ := hone body rfl
      obtain ⟨hbefore, hafter⟩ := List.forall_mem_append.mp hblank
      rw [eq_nil_of_head hhead hbefore, List.nil_append, ← List.append_nil after]
      exact .position read hafter .nil

/-- Brackets around a predicate and what follows it conform if a position at most is found among
blanks without the predicate, and the bracket of the position does not go around it. -/
theorem bracketText_of_predicate {before body after left : List Char}
    {bodies : List (List Char)} {q : Predicate} {i : Option Int} {fuel : Nat}
    (hhead : ∀ c ∈ (before ++ (quoted body ++ after)).head?, (c != '[') = false)
    (quotes : Quotes body) (read : Predicate.ofChars body = .ok q)
    (hcloses : '[' ∈ before → ']' ∈ before)
    (hsplit : splitBrackets fuel (before ++ after) = (bodies, left))
    (hposition : HoldsPosition bodies i) (hblank : Blank left) :
    BracketText (before ++ (quoted body ++ after)) (some q) i := by
  obtain ⟨hnone, hone⟩ := splitBrackets_sound fuel hsplit
  cases hposition with
  | none =>
      obtain rfl := hnone rfl
      obtain ⟨hbefore, hafter⟩ := List.forall_mem_append.mp hblank
      rw [eq_nil_of_head hhead hbefore, List.nil_append, ← List.append_nil after]
      exact .predicate quotes read hafter .nil
  | @some position i hread =>
      obtain ⟨first, last, hcs, rfl, hclose⟩ := hone position rfl
      obtain ⟨hfirst, hlast⟩ := List.forall_mem_append.mp hblank
      -- the position stands behind the predicate, or its bracket opens before it
      rcases List.append_eq_append_iff.mp hcs with ⟨gap, rfl, rfl⟩ | ⟨opened, rfl, hrest⟩
      · obtain ⟨hbefore, hgap⟩ := List.forall_mem_append.mp hfirst
        rw [eq_nil_of_head hhead hbefore, List.nil_append, ← List.append_nil last]
        exact .predicate quotes read hgap (.position hread hlast .nil)
      rw [List.append_assoc] at hhead
      obtain rfl := eq_nil_of_head hhead hfirst
      rw [List.nil_append] at hhead hcloses ⊢
      cases opened with
      | nil =>
          rw [List.nil_append] at hrest ⊢
          rw [← hrest, ← List.nil_append ('[' :: _), ← List.append_nil last]
          exact .predicate quotes read (List.forall_mem_nil _) (.position hread hlast .nil)
      | cons c opened =>
          obtain ⟨rfl, hinner⟩ := List.cons.inj hrest
          have hmem : ']' ∈ opened := (List.mem_cons.mp (hcloses List.mem_cons_self)).resolve_left
            (by decide)
          rcases List.append_eq_append_iff.mp hinner with ⟨closed, rfl, hlast'⟩ | ⟨more, rfl, -⟩
          · cases closed with
            | nil => exact absurd (by simpa using hmem) hclose
            | cons c gap =>
                obtain ⟨rfl, rfl⟩ := List.cons.inj hlast'
                obtain ⟨hgap, hafter⟩ := List.forall_mem_append.mp hlast
                have further := BracketText.predicate quotes read hafter .nil
                simpa using BracketText.position hread hgap further
          · exact absurd (List.mem_append_left _ hmem) hclose

/-- **Exactly the brackets that conform are read cleanly.** -/
theorem bracketText_iff {cs : List Char} {p : Option Predicate} {i : Option Int} :
    BracketText cs p i ↔ Clean cs p i ∧ ∀ c ∈ cs.head?, (c != '[') = false := by
  constructor
  · exact fun h => ⟨h.clean, h.head⟩
  · rintro ⟨h, hhead⟩
    obtain ⟨bodies, left, hsplit, hposition, hblank⟩ := h.position
    rcases readPredicate_iff.mp (h.predicate "") with
      ⟨hfind, rfl⟩ | ⟨before, body, after, q, hfind, hread, rfl⟩
    · rw [withoutPredicates_of_none hfind] at hsplit
      exact bracketText_of_position hhead hsplit hposition hblank
    · obtain ⟨hafter, hcloses⟩ := h.single hfind
      rw [withoutPredicates_single hfind hafter] at hsplit
      obtain ⟨rfl, quotes⟩ := findPredicate_sound hfind
      exact bracketText_of_predicate hhead quotes hread hcloses hsplit hposition hblank

end ChainReading

end ElementFinder
