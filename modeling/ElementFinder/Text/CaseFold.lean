import ElementFinder.Text.CodeTable

/-!
# Simple case folding

Characters that differ in case alone fold to the same character.  The characters that fold
alike form an orbit, and matching without regard to case treats an orbit as one character.
-/

namespace ElementFinder

namespace CaseFold

/-- The characters that fold to another character. -/
def shifts : List CodeTable.Shift := CodeTable.shifts
  ["CnzbaBgEmabaBDvlwbaBgygbaBgBoxcabByccabhhcabrwcabBuabbErbccabgabbKicabaIcbbcabeabaHybaba",
   "bcbbaHxcababdabaDbbabaHubabaHvbababcabaHxbabaHzcabaIdbabaIbbababeabaIdbabaIfcabaIgbccabg",
   "abaIkbababcabaIkdababcabaIkbababcbbaIjcbcabeabaIlbababeababiabacbababcabacbababcabacbica",
   "bticabtabacbbcabeabbDtbabbCebtcabBoabbFacicabyabaPZfbababcabbGhbabaPZcdababcabbHnbabaCrb",
   "abaCtbecabJvabaEmBrbcabgababjabaEmhabaBmccbaBleabaCmcbbaCldqbaBgsibaBgBfababnabaibabbBeb",
   "abbzeabbpbabbwclcabyabbCcbabbBwdabbCibabbCmcababcabbhbababdcbbFadpbaDcqBfbaBgDcqcabBqBac",
   "abCcabapbgcabpBvcabDtBlbaBwEIpBlbaKTkBnabaKTkgabaKTkBFffbbiDGaabbJFibabbJFhbabbJEybbbbJE",
   "wcabbJExbabbJEqbabbJDsbabaCAEliBqbbELsBtcbbELsMlCwcabFzabbCgdabbLGxcBvcabEahbbiqfbbiqhbb",
   "iqhbbiqfbbirdcbiphbbiBghbbiqhbbiqhbbiqbbbicbbbCwcabbjcabbKPxkdbbDieabbjmbbbicbbbDwobbbic",
   "bbbEicabbhmbbbEycbbbEwcabbjLmabbLDdeabbMKlbabbMFuhabaBcBupbaqBjababBFnzbaBaCTuBvbaBwDsab",
   "abcabbPXfbabbFQsbabbPWpdccabgabbPYqbabbPXlbabbPYtbabbPYscababdababjbbbPZzcBxcabEdbcabhab",
   "abBTYkwcabCmncabGggcabqBecabCtbcabeabbCAGybecabnababcabbCKOedbcabgjcabuabbCKPgbabbCKPrba",
   "bbCKPnbabbCKPdbabbCKPgcabbCKNibabbCKOgbabbCKNlbabaBJsbhcabqabbBwbabbCKPfbabbCAIybbcabjab",
   "abgbcabBfababBIhDbbbCFMuBFSbzbaBgBVzBnbaBoGuBjbaBoHkkbaBnmobaBnqgbaBnibbaBnCQeBybaCmEPkB",
   "fbaBgBGLcBfbaBgBUMqBhbaBi"]

/-- The code point that a code point folds to. -/
def fold (code : Nat) : Nat :=
  CodeTable.map shifts code

/-- All code points that fold like a given one, itself included. -/
def orbit (code : Nat) : List Nat :=
  fold code :: CodeTable.sources shifts (fold code)

end CaseFold

end ElementFinder
