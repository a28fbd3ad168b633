import Mathlib.Data.List.Nodup
import Mathlib.Data.List.TakeWhile
import ElementFinder.ElementType
import ElementFinder.Predicate.Reading
import ElementFinder.Proofs.Decimal.Numeral

/-!
# Type names are found

A registered type is looked up by its own canonical name: the name consists of letters, so
nothing is trimmed from it, the stem is taken off once, and the short names are distinct, so the
first entry that equals the rest is the entry of the type.  A text finds a type exactly if it is
its canonical or its short name between blanks (`ofName?_eq_some_iff`).
-/

namespace ElementFinder

/-! ## Trimming -/

/-- Nothing is trimmed where nothing stands at either end. -/
theorem trimWhile_eq_self {p : Char → Bool} {cs : List Char}
    (hhead : ∀ c ∈ cs.head?, p c = false) (hlast : ∀ c ∈ cs.getLast?, p c = false) :
    trimWhile p cs = cs := by
  have hkeep : ∀ {ds : List Char}, (∀ c ∈ ds.head?, p c = false) → ds.dropWhile p = ds := by
    intro ds hds
    simpa using dropWhile_append_of_stop (p := p) (List.forall_mem_nil _) hds
  rw [trimWhile, hkeep hhead, hkeep (by rwa [List.head?_reverse]), List.reverse_reverse]

/-- A character is dropped from the front or stays. -/
theorem mem_dropWhile_or {p : Char → Bool} {cs : List Char} {c : Char} (h : c ∈ cs) :
    p c = true ∨ c ∈ cs.dropWhile p := by
  rw [← List.takeWhile_append_dropWhile (p := p) (l := cs), List.mem_append] at h
  exact h.imp_left List.mem_takeWhile_imp

/-- What is trimmed from a text is blank. -/
theorem mem_trimBlank_or {cs : List Char} {c : Char} (h : c ∈ cs) :
    isBlank c = true ∨ c ∈ trimBlank cs := by
  rcases mem_dropWhile_or h with hblank | hdrop
  · exact .inl hblank
  rcases mem_dropWhile_or (List.mem_reverse.mpr hdrop) with hblank | hdrop
  · exact .inl hblank
  · exact .inr (List.mem_reverse.mpr hdrop)

/-- Trimming once is enough. -/
theorem trimWhile_trimWhile (p : Char → Bool) (cs : List Char) :
    trimWhile p (trimWhile p cs) = trimWhile p cs := by
  apply trimWhile_eq_self
  · intro c hc
    have hprefix : trimWhile p cs <+: cs.dropWhile p := by
      rw [trimWhile, ← List.reverse_suffix, List.reverse_reverse]
      exact List.dropWhile_suffix p
    obtain ⟨rest, hrest⟩ := hprefix
    have hhead : (cs.dropWhile p).head? = some c := by
      rw [← hrest, List.head?_append, Option.mem_def.mp hc]
      rfl
    have := List.head?_dropWhile_not p cs
    rw [hhead] at this
    simpa using this
  · intro c hc
    have := List.head?_dropWhile_not p (cs.dropWhile p).reverse
    rw [trimWhile, List.getLast?_reverse] at hc
    rw [Option.mem_def.mp hc] at this
    simpa using this

/-- The visible characters of the basic range are not blank. -/
theorem not_isBlank_of_code {c : Char} (hlow : 33 ≤ c.toNat) (hhigh : c.toNat ≤ 126) :
    isBlank c = false := by
  simp only [isBlank, blankCodes, List.contains_eq_mem, List.mem_cons, List.not_mem_nil, or_false,
    decide_eq_false_iff_not]
  omega

/-- No letter is blank. -/
theorem not_isBlank_of_isLetter {c : Char} (h : PredicateReading.isLetter c = true) :
    isBlank c = false := by
  have hcode : (97 ≤ c.toNat ∧ c.toNat ≤ 122) ∨ (65 ≤ c.toNat ∧ c.toNat ≤ 90) := by
    simpa [PredicateReading.isLetter, Char.le_def, UInt32.le_iff_toNat_le] using h
  exact not_isBlank_of_code (by omega) (by omega)

/-- No digit is blank. -/
theorem not_isBlank_of_isDigit {c : Char} (h : isDigit c = true) : isBlank c = false := by
  have hcode : 48 ≤ c.toNat ∧ c.toNat ≤ 57 := by
    simpa [isDigit, Char.le_def, UInt32.le_iff_toNat_le] using h
  exact not_isBlank_of_code (by omega) (by omega)

/-- A text without blanks is not trimmed. -/
theorem trimBlank_eq_self {cs : List Char} (h : ∀ c ∈ cs, isBlank c = false) :
    trimBlank cs = cs :=
  trimWhile_eq_self (fun c hc => h c (List.mem_of_mem_head? hc))
    (fun c hc => h c (List.mem_of_mem_getLast? hc))

/-! ## Type names -/

namespace ElementType

/-- A registered type is named by the stem and its entry among the short names. -/
theorem name_of_isRegistered {t : ElementType} (ht : t.isRegistered = true) :
    ∃ short, shortTypeNames[t.code.toNat]? = some short ∧
      t.name.toList = typeNameStem.toList ++ short.toList := by
  have hlt : t.code.toNat < shortTypeNames.length := by simpa [isRegistered] using ht
  refine ⟨shortTypeNames[t.code.toNat], List.getElem?_eq_getElem hlt, ?_⟩
  rw [name, if_pos ht, shortName, List.getElem?_eq_getElem hlt, Option.getD_some,
    String.toList_append]

/-- The stem is taken off what begins with it. -/
theorem withoutStem_stem_append (cs : List Char) :
    withoutStem (typeNameStem.toList ++ cs) = cs := by
  rw [withoutStem, ← String.length_toList]
  simp

/-- A name finds a type at the first place where the short names have it without the stem. -/
theorem ofName?_iff_findIdx? {t : ElementType} {name : String} :
    ofName? name = some t ↔
      ∃ code, shortTypeNames.findIdx?
        (· = String.ofList (withoutStem (trimBlank name.toList))) = some code ∧
          ⟨UInt16.ofNat code⟩ = t := by
  rw [ofName?, Option.map_eq_some_iff]

/-- Looking a name up finds the type that has it. -/
theorem lookup_iff_ofName? {t : ElementType} {name : String} :
    lookup name = .ok t ↔ ofName? name = some t := by
  -- the equation of the definition would evaluate the search through all names
  delta lookup
  cases ofName? name <;> simp

/-- The characters of a text of the basic range, read from its bytes. -/
def byteChars (s : String) : List Char :=
  s.toByteArray.data.toList.map fun b => Char.ofNat b.toNat

/-- What has to be looked up name by name: the names differ, they consist of letters as the stem
does, and none begins with the stem.  Bytes are evaluated faster than characters, and numbers are
compared faster than texts. -/
theorem names_checked :
    (shortTypeNames.map fun s =>
      (byteChars s).foldl (fun n c => 256 * n + c.toNat) 0).Nodup ∧
    ((typeNameStem :: shortTypeNames).all fun s => String.ofList (byteChars s) = s &&
      (byteChars s).all PredicateReading.isLetter) = true ∧
    (shortTypeNames.all fun s => !(byteChars typeNameStem).isPrefixOf (byteChars s)) = true := by
  decide +kernel

/-- No two types have one short name. -/
theorem shortTypeNames_nodup : shortTypeNames.Nodup :=
  names_checked.1.of_map _

/-- The stem and the short names are letters, byte for byte. -/
theorem toList_eq_byteChars {s : String} (h : s ∈ typeNameStem :: shortTypeNames) :
    s.toList = byteChars s ∧ ∀ c ∈ byteChars s, PredicateReading.isLetter c = true := by
  have hs := List.all_eq_true.mp names_checked.2.1 s h
  rw [Bool.and_eq_true, decide_eq_true_eq, List.all_eq_true] at hs
  exact ⟨by rw [← hs.1, String.toList_ofList, hs.1], hs.2⟩

/-- The stem and the short names are written with letters. -/
theorem isLetter_of_mem_stem_or_short {s : String} (h : s ∈ typeNameStem :: shortTypeNames) :
    ∀ c ∈ s.toList, PredicateReading.isLetter c = true := by
  rw [(toList_eq_byteChars h).1]
  exact (toList_eq_byteChars h).2

/-- No short name begins with the stem. -/
theorem withoutStem_short {short : String} (h : short ∈ shortTypeNames) :
    withoutStem short.toList = short.toList := by
  have hnot := List.all_eq_true.mp names_checked.2.2 short h
  rw [Bool.not_eq_true'] at hnot
  rw [withoutStem, (toList_eq_byteChars List.mem_cons_self).1,
    (toList_eq_byteChars (List.mem_cons_of_mem _ h)).1, hnot]
  rfl

/-- The name of a registered type is written with letters. -/
theorem isLetter_of_mem_name {t : ElementType} (ht : t.isRegistered = true) :
    ∀ c ∈ t.name.toList, PredicateReading.isLetter c = true := by
  obtain ⟨short, hshort, hname⟩ := name_of_isRegistered ht
  rw [hname, List.forall_mem_append]
  exact ⟨isLetter_of_mem_stem_or_short List.mem_cons_self,
    isLetter_of_mem_stem_or_short (List.mem_cons_of_mem _ (List.mem_of_getElem? hshort))⟩

/-- A name finds the type whose short name it is without the stem. -/
theorem ofName?_iff_short {t : ElementType} {name : String} :
    ofName? name = some t ↔
      shortTypeNames[t.code.toNat]? =
        some (String.ofList (withoutStem (trimBlank name.toList))) := by
  rw [ofName?_iff_findIdx?]
  simp only [List.findIdx?_eq_some_iff_getElem, decide_eq_true_eq]
  constructor
  · rintro ⟨code, ⟨hlt, hentry, -⟩, rfl⟩
    have hsize : shortTypeNames.length = 81 := rfl
    have hnat : (UInt16.ofNat code).toNat = code := by
      rw [UInt16.toNat_ofNat']
      omega
    rw [hnat, List.getElem?_eq_getElem hlt, hentry]
  · intro h
    obtain ⟨hlt, hentry⟩ := List.getElem?_eq_some_iff.mp h
    refine ⟨t.code.toNat, ⟨hlt, hentry, ?_⟩, by simp⟩
    intro j hj hsame
    have hplace : j = t.code.toNat :=
      shortTypeNames_nodup.getElem_inj_iff.mp (hsame.trans hentry.symm)
    omega

/-- A registered type is found by its name. -/
theorem lookup_name {t : ElementType} (ht : t.isRegistered = true) : lookup t.name = .ok t := by
  obtain ⟨short, hshort, hname⟩ := name_of_isRegistered ht
  have htrim : trimBlank t.name.toList = t.name.toList :=
    trimBlank_eq_self fun c hc => not_isBlank_of_isLetter (isLetter_of_mem_name ht c hc)
  rw [lookup_iff_ofName?, ofName?_iff_short, htrim, hname, withoutStem_stem_append,
    String.ofList_toList]
  exact hshort

/-- Registered types have different names. -/
theorem name_inj {t u : ElementType} (ht : t.isRegistered = true) (hu : u.isRegistered = true)
    (h : t.name = u.name) : t = u :=
  Except.ok.inj (by rw [← lookup_name ht, h, lookup_name hu])

/-- A type that is looked up by a name is registered. -/
theorem isRegistered_of_lookup {name : String} {t : ElementType} (h : lookup name = .ok t) :
    t.isRegistered = true := by
  obtain ⟨hlt, -⟩ := List.getElem?_eq_some_iff.mp (ofName?_iff_short.mp (lookup_iff_ofName?.mp h))
  simpa [isRegistered] using hlt

/-- A text names a registered type: between blanks it is the canonical name or the short name. -/
def NamedBy (t : ElementType) (s : String) : Prop :=
  t.isRegistered = true ∧ (trimText s = t.name ∨ trimText s = t.shortName)

/-- What names a type is letters between blanks. -/
theorem NamedBy.isLetter {t : ElementType} {s : String} (h : t.NamedBy s) :
    ∀ c ∈ trimBlank s.toList, PredicateReading.isLetter c = true := by
  obtain ⟨ht, hs⟩ := h
  have htrim : (trimText s).toList = trimBlank s.toList := String.toList_ofList
  obtain ⟨short, hshort, -⟩ := name_of_isRegistered ht
  rw [← htrim]
  rcases hs with hs | hs
  · rw [hs]
    exact isLetter_of_mem_name ht
  · rw [hs, shortName, hshort, Option.getD_some]
    exact isLetter_of_mem_stem_or_short (List.mem_cons_of_mem _ (List.mem_of_getElem? hshort))

/-- **Exactly the names of a type find it.** -/
theorem ofName?_eq_some_iff {s : String} {t : ElementType} :
    ofName? s = some t ↔ t.NamedBy s := by
  have htrim : (trimText s).toList = trimBlank s.toList := String.toList_ofList
  constructor
  · intro h
    have ht := isRegistered_of_lookup (lookup_iff_ofName?.mpr h)
    obtain ⟨short, hshort, hname⟩ := name_of_isRegistered ht
    have hrest : withoutStem (trimBlank s.toList) = short.toList := by
      rw [Option.some.inj (hshort.symm.trans (ofName?_iff_short.mp h)), String.toList_ofList]
    refine ⟨ht, ?_⟩
    rw [withoutStem] at hrest
    split at hrest
    · rename_i hstem
      obtain ⟨rest, hsplit⟩ := List.isPrefixOf_iff_prefix.mp hstem
      rw [← hsplit, ← String.length_toList, List.drop_left] at hrest
      left
      rw [← String.toList_inj, htrim, ← hsplit, hrest, hname]
    · right
      rw [← String.toList_inj, htrim, hrest, shortName, hshort, Option.getD_some]
  · rintro ⟨ht, hs⟩
    obtain ⟨short, hshort, hname⟩ := name_of_isRegistered ht
    have hrest : withoutStem (trimBlank s.toList) = short.toList := by
      rcases hs with hs | hs
      · rw [← htrim, hs, hname, withoutStem_stem_append]
      · rw [← htrim, hs, shortName, hshort, Option.getD_some]
        exact withoutStem_short (List.mem_of_getElem? hshort)
    rw [ofName?_iff_short, hrest, String.ofList_toList]
    exact hshort

/-- A text is looked up as the type that it names. -/
theorem lookup_eq_ok_iff {s : String} {t : ElementType} : lookup s = .ok t ↔ t.NamedBy s :=
  lookup_iff_ofName?.trans ofName?_eq_some_iff

end ElementType

end ElementFinder
