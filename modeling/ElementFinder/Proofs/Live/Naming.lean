import ElementFinder.Proofs.Decimal.Numeral
import ElementFinder.Proofs.Live.WellFormed

/-!
# Handles name live elements

A handle is written with the number of its element, so the handle of a number that fits reads
back as that number (`number?_ofNumber`), different elements have different handles, and in a
reachable tree the handle of an element is live exactly as long as the element is.
-/

namespace ElementFinder

namespace Handle

theorem toList_ofNumber (id : Nat) : (ofNumber id).text.toList = stem ++ Nat.toDigits 10 id := by
  simp [ofNumber, String.toList_ofList]

/-- The handle of a number that fits reads back as the number; that of another number is read as
none. -/
theorem number?_ofNumber_eq (id : Nat) :
    (ofNumber id).number? = (some id).filter fun n => n < Nat.pow 2 64 := by
  have hprefix : stem.isPrefixOf (stem ++ Nat.toDigits 10 id) = true := by
    simp
  have hdrop : (stem ++ Nat.toDigits 10 id).drop stem.length = Nat.toDigits 10 id := by
    simp
  have hplus : ∀ rest, Nat.toDigits 10 id ≠ '+' :: rest := by
    intro rest hrest
    have := isDigit_of_mem_toDigits (n := id) (c := '+') (by rw [hrest]; exact List.mem_cons_self)
    exact absurd this (by decide)
  simp only [number?, toList_ofNumber, hprefix, hdrop, if_true, natOfDigits?_toDigits]

/-- A handle of a number that fits reads back as the number. -/
theorem number?_ofNumber {id : Nat} (hfits : id < Nat.pow 2 64) :
    (ofNumber id).number? = some id := by
  rw [number?_ofNumber_eq]
  simpa using hfits

/-- Different numbers have different handles. -/
theorem ofNumber_injective : Function.Injective ofNumber := by
  intro a b h
  have htexts : stem ++ Nat.toDigits 10 a = stem ++ Nat.toDigits 10 b := by
    rw [← toList_ofNumber, ← toList_ofNumber, h]
  have hdigits := List.append_cancel_left htexts
  apply Option.some.inj
  rw [← natOfDigits?_toDigits a, hdigits, natOfDigits?_toDigits]

end Handle

namespace LiveTree

/-- In a reachable tree the handle of a live element names it. -/
theorem Reachable.liveId?_ofNumber {t : LiveTree} (ht : t.Reachable) {id : Nat}
    {node : LiveNode} (hid : t.node? id = some node) :
    t.liveId? (.ofNumber id) = some id := by
  have hfits : id < Nat.pow 2 64 := Nat.lt_trans (lt_nextId hid) ht.fits
  exact liveId?_eq_some.mpr ⟨Handle.number?_ofNumber hfits, node, hid⟩

end LiveTree

/-- A screen with two tables of one cell each, the smallest in which elements look alike. -/
def Fixture.twinTables : Fixture :=
  .mk { label := "screen" }
    [.mk { elementType := .table } [.mk { elementType := .cell, label := "row" } []],
     .mk { elementType := .table } [.mk { elementType := .cell, label := "row" } []]]

theorem LiveTree.reachable_twinTables : (ofFixture .twinTables).Reachable :=
  .load .twinTables (by decide)

end ElementFinder
