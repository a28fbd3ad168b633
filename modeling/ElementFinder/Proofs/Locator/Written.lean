import ElementFinder.Locator.Basic

/-!
# Written locators

Locators are written with the names of strategies and read with keys, of which there is one more
than there are names: `accessibility-id` is an old key for the strategy that is written as
`accessibility id`.  Every name is a key, and no key with its equals sign begins like another, so a
text with a key is read as the strategy of that key and everything behind the first equals sign
(`parse_key`).  A text without a key is read as an identifier (`parse_keyless`).  So reading again
what was written gives the same locator, unless an identifier begins like a key
(`display_reads_back`).
-/

namespace ElementFinder

namespace Locator

/-- A locator with a key is read as its strategy and its value. -/
theorem parse_key {key : String} {s : Strategy} (h : (key, s) ∈ Strategy.keys)
    (value : String) : parse (key ++ "=" ++ value) = ⟨s, value⟩ := by
  have hread : ∀ cs, ofChars (key.toList ++ '=' :: cs) = ⟨s, String.ofList cs⟩ := by
    simp only [Strategy.keys, List.mem_cons, Prod.mk.injEq, List.not_mem_nil, or_false] at h
    intro cs
    rcases h with ⟨rfl, rfl⟩ | ⟨rfl, rfl⟩ | ⟨rfl, rfl⟩ | ⟨rfl, rfl⟩ | ⟨rfl, rfl⟩ | ⟨rfl, rfl⟩ |
      ⟨rfl, rfl⟩ | ⟨rfl, rfl⟩ <;> rfl
  have hchars : (key ++ "=" ++ value).toList = key.toList ++ '=' :: value.toList := by
    simp
  rw [parse, hchars, hread, String.ofList_toList]

/-- The text begins with a key and an equals sign. -/
def Keyed (raw : String) : Prop :=
  ∃ entry ∈ Strategy.keys, ∃ value, raw = entry.1 ++ "=" ++ value

/-- A text without a key is an identifier as a whole. -/
theorem parse_keyless {raw : String} (h : ¬ Keyed raw) : parse raw = ⟨.identifier, raw⟩ := by
  have hother : ∀ key s, (key, s) ∈ Strategy.keys → afterKey? key.toList raw.toList = none := by
    intro key s hkey
    have hprefix : ¬ (key.toList ++ ['=']) <+: raw.toList := by
      intro hprefix
      obtain ⟨value, hvalue⟩ := hprefix
      refine h ⟨(key, s), hkey, String.ofList value, ?_⟩
      rw [← String.toList_inj]
      simpa using hvalue.symm
    simp [afterKey?, List.isPrefixOf_iff_prefix, hprefix]
  rw [parse, ofChars, List.findSome?_eq_none_iff.mpr ?_, String.ofList_toList]
  rintro ⟨key, s⟩ hkey
  simp only [hother key s hkey, Option.map_none]

/-- Strategies other than identifiers are written with their names. -/
theorem display_named {s : Strategy} (h : s ≠ .identifier) (value : String) :
    display ⟨s, value⟩ = s.title ++ "=" ++ value := by
  rw [← String.toList_inj]
  simp [display, chars, h]

theorem display_identifier (value : String) : display ⟨.identifier, value⟩ = value := by
  simp [display, chars]

end Locator

namespace Strategy

/-- Every name but that of identifiers is a key. -/
theorem title_mem_keys {s : Strategy} (h : s ≠ .identifier) : (s.title, s) ∈ keys := by
  cases s with
  | identifier => exact absurd rfl h
  | _ => decide

/-- Every key but the old one is a name. -/
theorem title_of_mem_keys {key : String} {s : Strategy} (h : (key, s) ∈ keys) :
    s ≠ .identifier ∧ (key = s.title ∨ key = "accessibility-id") := by
  have hall : ∀ entry ∈ keys,
      entry.2 ≠ .identifier ∧ (entry.1 = entry.2.title ∨ entry.1 = "accessibility-id") := by
    decide
  exact hall _ h

end Strategy

namespace Locator

/-- What was read is read again from its written form. -/
theorem parse_display_parse (raw : String) : parse (parse raw).display = parse raw := by
  by_cases hkeyed : Keyed raw
  · obtain ⟨⟨key, s⟩, hkey, value, rfl⟩ := hkeyed
    have hs := (Strategy.title_of_mem_keys hkey).1
    rw [parse_key hkey, display_named hs, parse_key (Strategy.title_mem_keys hs)]
  · rw [parse_keyless hkeyed, display_identifier, parse_keyless hkeyed]

/-- The old key is written as the name of its strategy. -/
theorem display_parse_old (value : String) :
    (parse ("accessibility-id=" ++ value)).display = "accessibility id=" ++ value := by
  have hkey : ("accessibility-id", Strategy.accessibilityId) ∈ Strategy.keys := by decide
  have hold : "accessibility-id=" ++ value = "accessibility-id" ++ "=" ++ value := by
    rw [← String.toList_inj]
    simp
  rw [hold, parse_key hkey, display_named (by decide), ← String.toList_inj]
  simp [Strategy.title]

/-- Every text without the old key is its own written form. -/
theorem display_parse {raw : String} (h : ∀ value, raw ≠ "accessibility-id=" ++ value) :
    (parse raw).display = raw := by
  by_cases hkeyed : Keyed raw
  · obtain ⟨⟨key, s⟩, hkey, value, rfl⟩ := hkeyed
    obtain ⟨hs, rfl | rfl⟩ := Strategy.title_of_mem_keys hkey
    · rw [parse_key hkey, display_named hs]
    · refine absurd ?_ (h value)
      rw [← String.toList_inj]
      simp
  · rw [parse_keyless hkeyed, display_identifier]

/-- A locator is read from its written form unless it is an identifier that begins with a key. -/
theorem parse_display_eq_iff (s : Strategy) (value : String) :
    parse (display ⟨s, value⟩) = ⟨s, value⟩ ↔ ¬ (s = .identifier ∧ Keyed value) := by
  by_cases hs : s = .identifier
  · subst hs
    rw [display_identifier]
    constructor
    · rintro hread ⟨-, ⟨key, t⟩, hkey, rest, rfl⟩
      rw [parse_key hkey] at hread
      exact (Strategy.title_of_mem_keys hkey).1 (congrArg Locator.strategy hread)
    · intro hkeyless
      exact parse_keyless fun hkeyed => hkeyless ⟨rfl, hkeyed⟩
  · rw [display_named hs, parse_key (Strategy.title_mem_keys hs)]
    exact iff_of_true rfl fun h => hs h.1

/-- **Written locators are read back.**  Whatever text a locator was read from, its written form is
read as the same locator, and it is the text itself, except that the old key `accessibility-id` is
written as `accessibility id`.  Whatever its strategy and its value, a locator is read from its
written form, except exactly when it is an identifier that begins with a key and an equals sign. -/
theorem display_reads_back :
    (∀ raw, parse (parse raw).display = parse raw) ∧
      (∀ value, (parse ("accessibility-id=" ++ value)).display = "accessibility id=" ++ value) ∧
      (∀ raw, (∀ value, raw ≠ "accessibility-id=" ++ value) → (parse raw).display = raw) ∧
      ∀ (s : Strategy) (value : String),
        parse (display ⟨s, value⟩) = ⟨s, value⟩ ↔
          ¬ (s = .identifier ∧
            ∃ entry ∈ Strategy.keys, ∃ rest, value = entry.1 ++ "=" ++ rest) :=
  ⟨parse_display_parse, display_parse_old, fun _ => display_parse, parse_display_eq_iff⟩

end Locator

end ElementFinder
