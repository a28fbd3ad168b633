import ElementFinder.Pattern.Escape
import Mathlib.Data.List.Infix

/-!
# Local readers

The text of a pattern that is to match a whole text puts the given pattern between the start and the
end of the text, as a group that is closed behind it (`closing`).  A reader is local if it reads a
text the same without the closing, as long as it leaves the closing alone.  Readers that are put
together from local ones are local.
-/

namespace ElementFinder

namespace PatternReading

open PatternEscape

variable {f : PatternFlags} {cs r rest : List Char}

/-- The end of a text that closes a group and stands at the end of the text. -/
def closing : List Char := [')', '$']

/-! ## Parts before the closing -/

/-- What lies between a text and a rest that both have the closing behind them has it too. -/
theorem exists_append_of_suffix (h : rest ++ closing <:+ r) (hr : r <:+ cs ++ closing) :
    ∃ r', r = r' ++ closing ∧ r' <:+ cs ∧ rest <:+ r' := by
  obtain ⟨before, rfl⟩ := (List.suffix_append rest closing).trans h
  refine ⟨before, rfl, ?_, ?_⟩
  · obtain ⟨front, hfront⟩ := hr
    rw [← List.append_assoc] at hfront
    exact ⟨front, List.append_cancel_right hfront⟩
  · obtain ⟨front, hfront⟩ := h
    rw [← List.append_assoc] at hfront
    exact ⟨front, List.append_cancel_right hfront⟩

/-- The closing does not fit into a dollar sign. -/
theorem not_suffix_dollar : ¬ rest ++ closing <:+ ['$'] := by
  intro h
  have hlength := h.length_le
  rw [List.length_append] at hlength
  exact absurd (Nat.le_trans (Nat.le_add_left 2 _) hlength) (by decide)

/-- Blanks and comments are skipped from the front only. -/
theorem skipSpace_suffix (inComment : Bool) (cs : List Char) : skipSpace inComment cs <:+ cs := by
  induction cs generalizing inComment with
  | nil => exact List.suffix_refl _
  | cons c cs ih =>
      rw [skipSpace]
      split
      · exact (ih _).trans (List.suffix_cons c cs)
      split
      · exact (ih _).trans (List.suffix_cons c cs)
      split
      · exact (ih _).trans (List.suffix_cons c cs)
      · exact List.suffix_refl _

/-- Blanks and comments are skipped from the front only, if at all. -/
theorem skip_suffix (f : PatternFlags) (cs : List Char) : skip f cs <:+ cs := by
  rw [skip]
  split
  · exact skipSpace_suffix _ cs
  · exact List.suffix_refl _

/-- Blanks and comments are skipped the same before the closing, unless a comment swallows it. -/
theorem skipSpace_closing (inComment : Bool) (cs : List Char) :
    skipSpace inComment (cs ++ closing) = skipSpace inComment cs ++ closing ∨
      skipSpace inComment (cs ++ closing) = [] ∧ skipSpace inComment cs = [] := by
  induction cs generalizing inComment with
  | nil => cases inComment <;> decide
  | cons c cs ih =>
      rw [List.cons_append, skipSpace, skipSpace]
      split
      · exact ih _
      split
      · exact ih _
      split
      · exact ih _
      · exact .inl rfl

/-- Skipping stops before the closing, unless a comment goes on beyond it. -/
theorem skip_closing (f : PatternFlags) (cs : List Char) :
    skip f (cs ++ closing) = skip f cs ++ closing ∨
      skip f (cs ++ closing) = [] ∧ skip f cs = [] := by
  rw [skip, skip]
  split
  · exact skipSpace_closing _ cs
  · exact .inl rfl

/-- Where the closing is left, blanks and comments are skipped the same without it. -/
theorem skip_of_suffix (h : rest ++ closing <:+ skip f (cs ++ closing)) :
    skip f (cs ++ closing) = skip f cs ++ closing := by
  rcases skip_closing f cs with hskip | ⟨hempty, -⟩
  · exact hskip
  · rw [hempty, List.suffix_nil, List.append_eq_nil_iff] at h
    exact absurd h.2 (by decide)

/-! ## Characters up to another -/

section

variable {d : Char}

end

/-! ## Local readers -/

/-- A reader is local if it gives back an end of the text, and if a text whose closing it leaves
alone is read the same without the closing. -/
structure Local {α : Type} (read : List Char → Option (α × List Char)) : Prop where
  suffix {cs rest : List Char} {a : α} (h : read cs = some (a, rest)) : rest <:+ cs
  alone {cs rest : List Char} {a : α} (h : read (cs ++ closing) = some (a, rest ++ closing)) :
    read cs = some (a, rest)

/-- A reader that needs a character, and goes on as it says. -/
def onFirst {α : Type} (next : Char → List Char → Option (α × List Char)) :
    List Char → Option (α × List Char)
  | [] => none
  | c :: rest => next c rest

namespace Local

variable {α β : Type} {read : List Char → Option (α × List Char)}

variable {cs rest : List Char} {a : α}

/-- A local reader that leaves the whole closing reads the same of nothing. -/
theorem alone_nil (h : Local read) (hread : read closing = some (a, rest ++ closing)) :
    read [] = some (a, rest) :=
  h.alone hread

/-- A local reader reads the same behind a character. -/
theorem alone_cons {c : Char} (h : Local read)
    (hread : read (c :: (cs ++ closing)) = some (a, rest ++ closing)) :
    read (c :: cs) = some (a, rest) :=
  h.alone hread

/-- Reading nothing is local. -/
theorem done (a : α) : Local fun cs => some (a, cs) where
  suffix h := by
    cases h
    exact List.suffix_refl _
  alone h := by
    have hrest := List.append_cancel_right (Prod.mk.inj (Option.some.inj h)).2
    rw [hrest, (Prod.mk.inj (Option.some.inj h)).1]

/-- A reader that always fails is local. -/
theorem fails : Local fun _ => (none : Option (α × List Char)) where
  suffix h := by cases h
  alone h := by cases h

/-- One local reader after another is local. -/
theorem bind {next : α → List Char → Option (β × List Char)} (h : Local read)
    (hnext : ∀ a, Local (next a)) :
    Local fun cs => (read cs).bind fun (a, rest) => next a rest where
  suffix hread := by
    obtain ⟨⟨a, middle⟩, hfirst, hsecond⟩ := Option.bind_eq_some_iff.mp hread
    exact ((hnext a).suffix hsecond).trans (h.suffix hfirst)
  alone hread := by
    obtain ⟨⟨a, middle⟩, hfirst, hsecond⟩ := Option.bind_eq_some_iff.mp hread
    obtain ⟨middle, rfl, -, -⟩ :=
      exists_append_of_suffix ((hnext a).suffix hsecond) (h.suffix hfirst)
    exact Option.bind_eq_some_iff.mpr ⟨(a, middle), h.alone hfirst, (hnext a).alone hsecond⟩

/-- Changing what a local reader returns keeps it local. -/
theorem map (g : α → β) (h : Local read) :
    Local fun cs => (read cs).map fun (a, rest) => (g a, rest) := by
  have hbind := h.bind fun a => done (g a)
  simpa only [Option.map_eq_bind, Function.comp_def] using hbind

/-- A local reader stays local when blanks and comments are skipped before it. -/
theorem skip (f : PatternFlags) (h : Local read) : Local fun cs => read (skip f cs) where
  suffix hread := (h.suffix hread).trans (skip_suffix f _)
  alone hread := by
    rw [skip_of_suffix (h.suffix hread)] at hread
    exact h.alone hread

/-- A reader that goes on as the first character says is local, if every way on is. -/
theorem onFirst {next : Char → List Char → Option (α × List Char)}
    (h : ∀ c, Local (next c)) : Local (onFirst next) where
  suffix {cs rest a} hread := by
    cases cs with
    | nil => cases hread
    | cons c cs => exact ((h c).suffix hread).trans (List.suffix_cons c cs)
  alone {cs rest a} hread := by
    cases cs with
    | nil => exact absurd ((h ')').suffix hread) not_suffix_dollar
    | cons c cs => exact (h c).alone hread

/-- A reader for one character, and another for all others. -/
theorem peek {other : List Char → Option (α × List Char)} {d : Char} (h : Local read)
    (hother : Local other) (hempty : other [] = none) :
    Local (PatternReading.onFirst fun c tail =>
      if c = d then read tail else other (c :: tail)) where
  suffix {cs rest a} hread := by
    cases cs with
    | nil => cases hread
    | cons c cs =>
        rw [PatternReading.onFirst] at hread
        split at hread
        · exact (h.suffix hread).trans (List.suffix_cons c cs)
        · exact hother.suffix hread
  alone {cs rest a} hread := by
    cases cs with
    | nil =>
        change (if ')' = d then read ['$'] else other closing) = _ at hread
        split at hread
        · exact absurd (h.suffix hread) not_suffix_dollar
        · rw [hother.alone_nil hread] at hempty
          cases hempty
    | cons c cs =>
        rw [List.cons_append, PatternReading.onFirst] at hread
        rw [PatternReading.onFirst]
        split at hread
        · rename_i hc
          rw [if_pos hc]
          exact h.alone hread
        · rename_i hc
          rw [if_neg hc]
          exact hother.alone_cons hread

/-- What does not depend on the text. -/
theorem given (found : Option α) : Local fun cs => found.map fun a => (a, cs) := by
  cases found with
  | none => exact fails
  | some a => exact done a

end Local

end PatternReading

end ElementFinder
