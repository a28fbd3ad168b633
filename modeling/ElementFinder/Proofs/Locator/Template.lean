import Mathlib.Data.List.Basic
import ElementFinder.Locator.Basic

/-!
# Locator templates

A template is filled in one pass over its characters.  What that comes to is said without the pass:
the template is cut at its marks, each the leftmost one behind the mark before it
(`Cut.Leftmost`), and the argument with the number of a mark takes its place (`Cut.fill`).  There is
one such cut for every template, and filling it gives what the pass gives (`exists_leftmost`,
`Cut.Leftmost.unique`).

The same text is made by a loop that goes from one percent sign to the next and takes slices of the
template at byte offsets (`fillSlices`).  A slice exists only where its offset does not lie inside a
character, and the loop finds every slice that it asks for (`fillSlices_append`).

All three are compared by one induction (`mark_induction`): a template is empty, begins with a mark,
or begins with a character that opens none.
-/

namespace ElementFinder

namespace Locator

/-- The marks for an argument in a template. -/
inductive Mark where
  | text
  | number
deriving DecidableEq

/-- The characters of a mark. -/
def Mark.chars : Mark → List Char
  | text => ['%', '@']
  | number => ['%', 'd']

/-- A template cut at marks: the text before the first mark, and each mark with the text behind
it. -/
structure Cut where
  first : List Char
  places : List (Mark × List Char)

/-- A cut at the leftmost marks: what is left has no mark, or it is cut at a mark before which none
begins, and then what is behind that mark is cut in the same way. -/
inductive Cut.Leftmost : List Char → Cut → Prop
  | plain {cs : List Char} (hplain : ∀ m : Mark, ¬ m.chars <:+: cs) : Leftmost cs ⟨cs, []⟩
  | mark {before after : List Char} {t : Cut} (m : Mark)
      (hfirst : ∀ (n : Mark) (a b : List Char),
        before ++ m.chars ++ after = a ++ n.chars ++ b → before.length ≤ a.length)
      (hafter : Leftmost after t) :
      Leftmost (before ++ m.chars ++ after) ⟨before, (m, t.first) :: t.places⟩

/-- The text of a cut template in which the first argument stands for the first mark, the second for
the second and so on.  A mark without an argument stands for itself. -/
def Cut.fill (t : Cut) (arguments : List (List Char)) : List Char :=
  t.first ++ t.places.zipIdx.flatMap fun ((m, text), k) => arguments[k]?.getD m.chars ++ text

/-! ## Marks from left to right -/

/-- Two marks at the start of one text are the same. -/
theorem Mark.eq_of_chars_append {m n : Mark} {a b : List Char}
    (h : m.chars ++ a = n.chars ++ b) : m = n ∧ a = b := by
  cases m <;> cases n <;> simp_all [Mark.chars]

/-- A mark is written with at least one character. -/
theorem Mark.length_chars_pos (m : Mark) : 0 < m.chars.length := by
  cases m <;> exact Nat.zero_lt_two

/-- **Induction along a template.**  It is empty, begins with a mark, or begins with a character
that opens no mark. -/
theorem mark_induction {P : List Char → Prop} (nil : P [])
    (mark : ∀ (m : Mark) (cs : List Char), P cs → P (m.chars ++ cs))
    (other : ∀ (c : Char) (cs : List Char), (∀ m : Mark, ¬ m.chars <+: c :: cs) → P cs →
      P (c :: cs)) (cs : List Char) : P cs := by
  induction hlength : cs.length using Nat.strongRecOn generalizing cs with
  | ind length ih =>
      cases cs with
      | nil => exact nil
      | cons c cs =>
          by_cases hmark : ∃ m : Mark, m.chars <+: c :: cs
          · obtain ⟨m, after, hafter⟩ := hmark
            have hshorter : after.length < length := by
              rw [← hlength, ← hafter, List.length_append]
              exact Nat.lt_add_of_pos_left m.length_chars_pos
            rw [← hafter]
            exact mark m after (ih _ hshorter after rfl)
          · have hshorter : cs.length < length := by
              rw [← hlength]
              exact Nat.lt_succ_self _
            exact other c cs (not_exists.mp hmark) (ih _ hshorter cs rfl)

/-- A mark at the start gives way to the first argument. -/
theorem substitute_mark (m : Mark) (cs : List Char) (arguments : List (List Char)) :
    substitute (m.chars ++ cs) arguments =
      arguments.head?.getD m.chars ++ substitute cs arguments.tail := by
  cases m <;> cases arguments <;> simp [Mark.chars, substitute]

/-- A character that no mark begins with stays. -/
theorem substitute_other {c : Char} {cs : List Char} (h : ∀ m : Mark, ¬ m.chars <+: c :: cs)
    (arguments : List (List Char)) :
    substitute (c :: cs) arguments = c :: substitute cs arguments := by
  have htext : ∀ after, c :: cs ≠ '%' :: '@' :: after := fun after he => h .text ⟨after, he.symm⟩
  have hnumber : ∀ after, c :: cs ≠ '%' :: 'd' :: after :=
    fun after he => h .number ⟨after, he.symm⟩
  rw [substitute]
  · rintro after _ _ - rfl rfl
    exact htext after rfl
  · rintro after - rfl rfl
    exact htext after rfl
  · rintro after _ _ - rfl rfl
    exact hnumber after rfl
  · rintro after - rfl rfl
    exact hnumber after rfl

/-! ## The cut at the leftmost marks -/

namespace Cut

/-- A cut is filled place by place. -/
theorem fill_cons (before : List Char) (m : Mark) (t : Cut) (arguments : List (List Char)) :
    fill ⟨before, (m, t.first) :: t.places⟩ arguments =
      before ++ arguments.head?.getD m.chars ++ t.fill arguments.tail := by
  have hshift : (t.places.zipIdx 1).flatMap
        (fun ((m, text), k) => arguments[k]?.getD m.chars ++ text) =
      t.places.zipIdx.flatMap
        (fun ((m, text), k) => arguments.tail[k]?.getD m.chars ++ text) := by
    rw [List.zipIdx_succ, List.flatMap_map]
    simp only [List.getElem?_tail]
  simp only [fill, List.zipIdx_cons, List.flatMap_cons, hshift, List.head?_eq_getElem?,
    List.append_assoc]

/-- Arguments behind the one for the last mark are not looked at. -/
theorem fill_surplus (t : Cut) {arguments : List (List Char)}
    (h : t.places.length ≤ arguments.length) (surplus : List (List Char)) :
    t.fill (arguments ++ surplus) = t.fill arguments := by
  unfold fill
  congr 1
  refine List.flatMap_congr fun ⟨⟨m, text⟩, k⟩ hk => ?_
  have hlt : k < t.places.length := by simpa using List.snd_lt_of_mem_zipIdx hk
  simp only [List.getElem?_append_left (Nat.lt_of_lt_of_le hlt h)]

namespace Leftmost

/-- A character in front that opens no mark belongs to the text before the first mark. -/
theorem cons {c : Char} {cs : List Char} {t : Cut} (hc : ∀ m : Mark, ¬ m.chars <+: c :: cs)
    (h : t.Leftmost cs) : Leftmost (c :: cs) ⟨c :: t.first, t.places⟩ := by
  cases h with
  | plain hplain =>
      refine .plain fun m hm => ?_
      rcases List.infix_cons_iff.mp hm with hfront | hbelow
      · exact hc m hfront
      · exact hplain m hbelow
  | @mark before after t m hfirst hafter =>
      refine @Leftmost.mark (c :: before) after t m ?_ hafter
      intro n a b hab
      cases a with
      | nil => exact absurd ⟨b, hab.symm⟩ (hc n)
      | cons d a => exact Nat.succ_le_succ (hfirst n a b (List.cons.inj hab).2)

/-- There is one cut at the leftmost marks. -/
theorem unique {cs : List Char} {t u : Cut} (ht : t.Leftmost cs) (hu : u.Leftmost cs) : t = u := by
  induction ht generalizing u with
  | plain hplain =>
      cases hu with
      | plain _ => rfl
      | @mark before after _ m _ _ => exact absurd ⟨before, after, rfl⟩ (hplain m)
  | @mark before after t m hfirst hafter ih =>
      generalize hcs : before ++ m.chars ++ after = cs at hu
      cases hu with
      | plain hplain => exact absurd ⟨before, after, hcs⟩ (hplain m)
      | @mark before' after' t' m' hfirst' hafter' =>
          have hlength := Nat.le_antisymm (hfirst m' _ _ hcs) (hfirst' m _ _ hcs.symm)
          rw [List.append_assoc, List.append_assoc] at hcs
          obtain ⟨rfl, hrest⟩ := List.append_inj hcs hlength
          obtain ⟨rfl, rfl⟩ := Mark.eq_of_chars_append hrest
          rw [ih hafter']

end Leftmost

/-- **The pass fills a cut.**  Every template has a cut at its leftmost marks, and putting arguments
in one pass is filling this cut. -/
theorem exists_leftmost (template : List Char) :
    ∃ t : Cut, t.Leftmost template ∧
      ∀ arguments, substitute template arguments = t.fill arguments := by
  refine mark_induction (P := fun cs => ∃ t : Cut, t.Leftmost cs ∧
    ∀ arguments, substitute cs arguments = t.fill arguments) ?_ ?_ ?_ template
  · refine ⟨⟨[], []⟩, .plain fun m hm => ?_, fun arguments => rfl⟩
    cases m <;> cases List.infix_nil.mp hm
  · rintro m cs ⟨t, ht, hfill⟩
    have hcut := @Leftmost.mark [] cs t m (fun _ _ _ _ => Nat.zero_le _) ht
    refine ⟨⟨[], (m, t.first) :: t.places⟩, hcut, ?_⟩
    intro arguments
    rw [substitute_mark, hfill, fill_cons, List.nil_append]
  · rintro c cs hc ⟨t, ht, hfill⟩
    refine ⟨⟨c :: t.first, t.places⟩, ht.cons hc, ?_⟩
    intro arguments
    rw [substitute_other hc, hfill]
    rfl

end Cut

/-! ## Slices at byte offsets -/

/-- The two parts of a text at a byte offset.  There are none when the offset lies inside a
character or behind the end. -/
def slicesAt? (text : String) (offset : Nat) : Option (String × String) :=
  if h : (⟨offset⟩ : String.Pos.Raw).IsValid text then
    some ((text.sliceTo (text.pos ⟨offset⟩ h)).copy, (text.sliceFrom (text.pos ⟨offset⟩ h)).copy)
  else none

/-- A text is cut where a number of bytes ends with a character. -/
theorem slicesAt?_eq_some_iff {text before after : String} {offset : Nat} :
    slicesAt? text offset = some (before, after) ↔
      text = before ++ after ∧ before.utf8ByteSize = offset := by
  unfold slicesAt?
  constructor
  · intro hslices
    split at hslices
    · rename_i hvalid
      obtain ⟨rfl, rfl⟩ := Prod.mk.inj (Option.some.inj hslices)
      have hsplits := (text.pos ⟨offset⟩ hvalid).splits
      exact ⟨hsplits.eq_append, (congrArg String.Pos.Raw.byteIdx hsplits.offset_eq_rawEndPos).symm⟩
    · cases hslices
  · rintro ⟨rfl, rfl⟩
    have hvalid : (⟨before.utf8ByteSize⟩ : String.Pos.Raw).IsValid (before ++ after) :=
      String.Pos.Raw.isValid_iff_exists_append.mpr ⟨before, after, rfl, rfl⟩
    have hparts := ((before ++ after).pos _ hvalid).splits.eq ⟨rfl, rfl⟩
    rw [dif_pos hvalid, hparts.1, hparts.2]

/-- Fills a template by slices.  A round goes on to the next percent sign and cuts there; then it
cuts off the mark, for which an argument stands if there is one left, or the percent sign alone.
There is no result when a slice is asked for that there is not. -/
def fillSlices (rest : String) (arguments : List String) (out : String) : Option String :=
  match rest.find? '%' with
  | none => some (out ++ rest)
  | some percent =>
    match _hcut : slicesAt? rest percent.offset.byteIdx with
    | none => none
    | some (before, tail) =>
      if tail.startsWith "%@" || tail.startsWith "%d" then
        match _hmark : slicesAt? tail 2 with
        | none => none
        | some (mark, after) =>
          fillSlices after arguments.tail (out ++ before ++ arguments.head?.getD mark)
      else
        match _hsign : slicesAt? tail 1 with
        | none => none
        | some (_, after) => fillSlices after arguments (out ++ before ++ "%")
termination_by rest.utf8ByteSize
decreasing_by
  all_goals
    obtain ⟨rfl, -⟩ := slicesAt?_eq_some_iff.mp _hcut
  · obtain ⟨rfl, hsize⟩ := slicesAt?_eq_some_iff.mp _hmark
    simp only [String.utf8ByteSize_append]
    omega
  · obtain ⟨rfl, hsize⟩ := slicesAt?_eq_some_iff.mp _hsign
    simp only [String.utf8ByteSize_append]
    omega

/-- The loop ends where no percent sign is left. -/
theorem fillSlices_done {rest : String} (h : '%' ∉ rest.toList) (arguments : List String)
    (out : String) : fillSlices rest arguments out = some (out ++ rest) := by
  have hnone : rest.find? '%' = none := by
    cases hfind : rest.find? '%' with
    | none => rfl
    | some percent =>
        obtain ⟨before, after, hsplits, -⟩ := String.find?_char_eq_some_iff_splits.mp hfind
        rw [hsplits.eq_append] at h
        simp at h
  rw [fillSlices, hnone]

/-- A round cuts at the next percent sign. -/
theorem fillSlices_cut {before after : String} (hbefore : '%' ∉ before.toList)
    (arguments : List String) (out : String) :
    fillSlices (before ++ ("%" ++ after)) arguments out =
      if ("%" ++ after).startsWith "%@" || ("%" ++ after).startsWith "%d" then
        (slicesAt? ("%" ++ after) 2).bind fun (mark, rest) =>
          fillSlices rest arguments.tail (out ++ before ++ arguments.head?.getD mark)
      else
        (slicesAt? ("%" ++ after) 1).bind fun (_, rest) =>
          fillSlices rest arguments (out ++ before ++ "%") := by
  have hslices := slicesAt?_eq_some_iff.mpr
    ⟨(rfl : before ++ ("%" ++ after) = _), (rfl : before.utf8ByteSize = _)⟩
  have hvalid : (⟨before.utf8ByteSize⟩ : String.Pos.Raw).IsValid (before ++ ("%" ++ after)) :=
    String.Pos.Raw.isValid_iff_exists_append.mpr ⟨before, _, rfl, rfl⟩
  have hfind : (before ++ ("%" ++ after)).find? '%' = some (String.pos _ _ hvalid) :=
    String.find?_char_eq_some_iff_splits.mpr ⟨before, after, ⟨rfl, rfl⟩, hbefore⟩
  rw [fillSlices, hfind]
  simp only
  split
  · rename_i hcut
    cases hslices.symm.trans hcut
  · rename_i before' tail hcut
    obtain ⟨rfl, rfl⟩ := Prod.mk.inj (Option.some.inj (hslices.symm.trans hcut))
    split
    · cases slicesAt? ("%" ++ after) 2 <;> rfl
    · cases slicesAt? ("%" ++ after) 1 <;> rfl

/-- At a mark the next argument is taken, or the mark stays. -/
theorem fillSlices_mark {before : String} (hbefore : '%' ∉ before.toList) (m : Mark)
    (rest : List Char) (arguments : List String) (out : String) :
    fillSlices (before ++ String.ofList (m.chars ++ rest)) arguments out =
      fillSlices (String.ofList rest) arguments.tail
        (out ++ before ++ arguments.head?.getD (String.ofList m.chars)) := by
  obtain ⟨c, hc⟩ : ∃ c, m.chars = ['%', c] := by cases m <;> exact ⟨_, rfl⟩
  have htail : String.ofList (m.chars ++ rest) = "%" ++ String.ofList (c :: rest) := by
    rw [← String.toList_inj, hc]
    simp
  have hmarked : ("%" ++ String.ofList (c :: rest)).startsWith "%@" ||
      ("%" ++ String.ofList (c :: rest)).startsWith "%d" := by
    rw [← htail, Bool.or_eq_true, String.startsWith_string_iff, String.startsWith_string_iff]
    cases m with
    | text => exact Or.inl ⟨rest, by simp [Mark.chars]⟩
    | number => exact Or.inr ⟨rest, by simp [Mark.chars]⟩
  have hslices : slicesAt? ("%" ++ String.ofList (c :: rest)) 2 =
      some (String.ofList m.chars, String.ofList rest) := by
    rw [← htail, String.ofList_append]
    refine slicesAt?_eq_some_iff.mpr ⟨rfl, ?_⟩
    cases m <;> rfl
  rw [htail, fillSlices_cut hbefore, if_pos hmarked, hslices, Option.bind_some]

/-- A percent sign that opens no mark is text. -/
theorem fillSlices_percent {before : String} (hbefore : '%' ∉ before.toList) {rest : List Char}
    (h : ∀ m : Mark, ¬ m.chars <+: '%' :: rest) (arguments : List String) (out : String) :
    fillSlices (before ++ String.ofList ('%' :: rest)) arguments out =
      fillSlices (String.ofList rest) arguments (out ++ before ++ "%") := by
  have htail : String.ofList ('%' :: rest) = "%" ++ String.ofList rest := by
    rw [← String.toList_inj]
    simp
  have hunmarked : ¬ (("%" ++ String.ofList rest).startsWith "%@" ||
      ("%" ++ String.ofList rest).startsWith "%d") = true := by
    rw [← htail, Bool.or_eq_true, String.startsWith_string_iff, String.startsWith_string_iff,
      @String.toList_ofList ('%' :: rest)]
    rintro (htext | hnumber)
    · exact h .text htext
    · exact h .number hnumber
  have hslices : slicesAt? ("%" ++ String.ofList rest) 1 = some ("%", String.ofList rest) :=
    slicesAt?_eq_some_iff.mpr ⟨rfl, rfl⟩
  rw [htail, fillSlices_cut hbefore, if_neg hunmarked, hslices, Option.bind_some]

/-- **The loop never asks for a slice that there is not.**  It ends with the text that one pass over
the characters makes.  The text in front is what the loop has still to copy when the pass has come
to the template. -/
theorem fillSlices_append {before : String} (hbefore : '%' ∉ before.toList) (template : List Char)
    (arguments : List String) (out : String) :
    fillSlices (before ++ String.ofList template) arguments out =
      some (out ++ before ++
        String.ofList (substitute template (arguments.map String.toList))) := by
  induction template using mark_induction generalizing before arguments out with
  | nil =>
      rw [fillSlices_done (by simpa using hbefore)]
      simp [substitute]
  | mark m rest ih =>
      have hrest := @ih "" (by simp)
      simp only [String.empty_append, String.append_empty] at hrest
      rw [fillSlices_mark hbefore, hrest, substitute_mark]
      cases arguments <;> simp [String.append_assoc, String.ofList_append]
  | other c rest hc ih =>
      rw [substitute_other hc]
      by_cases hpercent : c = '%'
      · subst hpercent
        have hrest := @ih "" (by simp)
        simp only [String.empty_append, String.append_empty] at hrest
        rw [fillSlices_percent hbefore hc, hrest]
        congr 1
        rw [← String.toList_inj]
        simp
      · have hcopied : before ++ String.ofList (c :: rest) =
            before ++ String.singleton c ++ String.ofList rest := by
          rw [← String.toList_inj]
          simp
        have hplain : '%' ∉ (before ++ String.singleton c).toList := by
          simp [hbefore, Ne.symm hpercent]
        rw [hcopied, ih hplain]
        congr 1
        rw [← String.toList_inj]
        simp

/-! ## Templates read as locators -/

/-- What a template is read as depends on the arguments for its marks only. -/
theorem format_eq_of_cut {template : String} {t : Cut}
    (hfill : ∀ arguments, substitute template.toList arguments = t.fill arguments)
    (arguments : List String) :
    format template arguments = parse (String.ofList (t.fill (arguments.map String.toList))) := by
  rw [format, parse, hfill, String.toList_ofList]

/-- **Templates are filled verbatim, in order and once.**  A template has one cut at its leftmost
marks.  It is read as the locator whose text is this cut with the arguments in its places: the first
argument for the first mark and so on, each as it is, and marks that are left over as they are.
Arguments beyond the last mark change nothing.  The loop over byte offsets asks only for slices that
there are, and makes this text. -/
theorem format_fills (template : String) (arguments : List String) :
    ∃ t : Cut,
      (∀ u : Cut, u.Leftmost template.toList ↔ u = t) ∧
      format template arguments =
        parse (String.ofList (t.fill (arguments.map String.toList))) ∧
      (t.places.length ≤ arguments.length → ∀ surplus,
        format template (arguments ++ surplus) = format template arguments) ∧
      fillSlices template arguments "" =
        some (String.ofList (t.fill (arguments.map String.toList))) := by
  obtain ⟨t, hcut, hfill⟩ := Cut.exists_leftmost template.toList
  refine ⟨t, fun u => ⟨fun hu => hu.unique hcut, ?_⟩, format_eq_of_cut hfill arguments, ?_, ?_⟩
  · rintro rfl
    exact hcut
  · intro henough surplus
    rw [format_eq_of_cut hfill, format_eq_of_cut hfill, List.map_append, t.fill_surplus]
    simpa using henough
  · have hloop := @fillSlices_append "" (by simp) template.toList arguments ""
    rw [← hfill]
    simpa using hloop

/-- A percent sign in front of a mark is text, a mark in an argument stays, and so does a mark
without an argument. -/
example : format "id=é%%@/%d%@" ["%d", "7"] = ⟨.id, "é%%d/7%@"⟩ := by decide +kernel

end Locator

end ElementFinder
