import ElementFinder.Text.CodeTable

/-!
# Lower case

The full mapping of texts to lower case.  Single characters map to single characters, with
two exceptions: the capital I with a dot becomes a small i and a combining dot, and a
capital sigma at the end of a word becomes the final small sigma.
-/

namespace ElementFinder

namespace LowerCase

/-- The characters with a single-character lower case. -/
def shifts : List CodeTable.Shift := CodeTable.shifts
  ["CnzbaBgExwbaBgygbaBgBoxcabByccabhhcabrwcabBuabbErbccabiabaIcbbcabeabaHybababcbbaHxcababd",
   "abaDbbabaHubabaHvbababcabaHxbabaHzcabaIdbabaIbbababeabaIdbabaIfcabaIgbccabgabaIkbababcab",
   "aIkdababcabaIkbababcbbaIjcbcabeabaIlbababeababiabacbababcabacbababcabacbicabticabtabacbb",
   "cabeabbDtbabbCebtcabBoabbFacicabyabaPZfbababcabbGhbabaPZcdababcabbHnbabaCrbabaCtbecabLmb",
   "cabgababjabaEmhabaBmccbaBleabaCmcbbaCldqbaBgsibaBgBsabaijlcabBcabbCidababcabbhbababdcbbF",
   "adpbaDcqBfbaBgDcqcabBqBacabCcabapbgcabpBvcabDtBlbaBwEIpBlbaKTkBnabaKTkgabaKTkBBvDbbaCFMu",
   "DcfbaiDGrababhBqbbELsBtcbbELsMlCwcabGcabbLGxcBvcabEahbbiqfbbiqhbbiqhbbiqfbbirdcbiphbbiBg",
   "hbbiqhbbiqhbbiqbbbicbbbCwcabbjmdbbDieabbjmbbbicbbbDwobbbicbbbEicabbhmbbbEycbbbEwcabbjLma",
   "bbLDdeabbMKlbabbMFuhabaBcBupbaqBjababBFnzbaBaCTuBvbaBwDsababcabbPXfbabbFQsbabbPWpdccabga",
   "bbPYqbabbPXlbabbPYtbabbPYscababdababjbbbPZzcBxcabEdbcabhababBTYkwcabCmncabGggcabqBecabCt",
   "bcabeabbCAGybecabnababcabbCKOedbcabgjcabuabbCKPgbabbCKPrbabbCKPnbabbCKPdbabbCKPgcabbCKNi",
   "babbCKOgbabbCKNlbabaBJsbhcabqabbBwbabbCKPfbabbCAIybbcabeabbCKQpbhcabqabbCKYzzababBHAizba",
   "BgBVzBnbaBoGuBjbaBoHkkbaBnmobaBnqgbaBnibbaBnCQeBybaCmIavbaBgEHkBfbaBgBGLcBfbaBgDsybaBbBU",
   "IyBhbaBi"]

/-- The characters with the property Cased. -/
def cased : List (Nat × Nat) := CodeTable.ranges
  ["CnzgzBvakaeafwbBebHmbdeHzcBihbBeeDsaBqdcbcdbagabcbabtbDebFiiGjbBljBoEFfBlbafacBqbdZwDhcf",
   "DFukfBqccCmHjCmKrcfcBlcfchbabababBecCabgbadcbgddcfemfcbgEmanaqmDxaeacjbadegabababdbfeacd",
   "feearBfdbBFlBzCRuIugddbmBlbafaBTWcBtsBdFcDxddbCyufbcBFpBqbngDbBEAigmeBNtzgzBTtDbDsBjeBjE",
   "mkbobgbbbkbobgbbRjaccbBpbiBUzBynByDpvkvEFiClBGIqClBgycyBMIeDgbCsbbcacbcdblbabgbCmbdchbgb",
   "BbbdbebadgbNbcybybBebybBebybBebybBebybhCSyjbtgfKbCjDGkCpDAazgzgz"]

/-- The characters with the property Case_Ignorable. -/
def ignorable : List (Nat × Nat) := CodeTable.ranges
  ["BnagalaBjabaCtaeabaeacbTjHjebeajbbaJrgHzafaBxBsbabbbbbaBsalfkkbaBjakuqaDxhbjbdBhabaBeBaD",
   "nkCgkeacayxBrcBsahbfiBpCfCdabaeheadgkbnapaCgaediaubBaacbCfaebebccdaBebdalbCfaeebbeaubwfb",
   "aCgacabdiahblbBeaCjamaByadaCdabcfcbdhblbBdaCgacagafbubBcbCfbediaubBdaCuahcbaDmacgliDuaci",
   "jabgCvbBbababaCdnbebbfkbBjjaDydbfbbcbzbecqdnacbgapaDqaXkcBKkcBdbBebBebCmbbgiackdafaBteBz",
   "aCnbBiaEocebjagcIlbcaCgabgbabachgjcaBnaiBtcludBwabebafaBoimbBgdcbbcCeabbdabcCghcbCmfDecb",
   "mbgeagadbByCknaBiDwRdabclcncncnbmeibkacaceBxebjbanaqmBzBgEJrbEjcEvapaDsBfBvaSbaBkddefaDp",
   "fDpcBQBuaBWcfKkaDudbjbaBcdDcboBhDaaxcDyddbiadaeazbfaFvbBarnaBmhzkBucBwacdcbravbCofcbcbma",
   "iaBjalaBzabccbfbbaBbaobfbbaDwejcEracaeaBDZsaFrqWbpdampBiacaGnahagalaBjabaBvaBtbCpavcTtaI",
   "saFteBNpfbBpbiWkcbbfdBoceaGjbWbdBmaBaebaMdbyaCafCskBxdEtaCcoBpacbkcBxdcbcaeakaBycBkebhCk",
   "ambCaikdcaDrccabbgacaGbadhvbCfbdaBlgdeCsfnababaobDhhccbaxaDgfbaebbbJedgbbbBbbDhhcabbEcab",
   "acfbaDxabacdbeJzibbJwbbaeaFodcbeaBgjBofcdiajfccBumbbHqabcbaHtgbfbaDevcgbbbbEsfdabbbgbaCu",
   "bdabaCnaKvblbCaefabaxaHXdqgoQYyldcDSaeChgjdTocBobSoaClqCmbbbnbYGadbgbbEUgbbdGYuBtcwUycjp",
   "cgBedFscCYdCceBxiaoaweboCAigbqcgbbbefCjBhaGenOeaCjdTneJubJjacahbfajaRwgEfhEBfeBSXXpaBeDr",
   "EyJf"]

/-- Whether the first character that is not ignorable is a cased one. -/
def meetsCased (cs : List Char) : Bool :=
  match cs.dropWhile fun c => CodeTable.contains ignorable c.toNat with
  | [] => false
  | c :: _ => CodeTable.contains cased c.toNat

/-- The lower case of one character apart from the final sigma. -/
def single (c : Char) : List Char :=
  if c.toNat = 0x130 then ['i', Char.ofNat 0x307]
  else [Char.ofNat (CodeTable.map shifts c.toNat)]

/-- The lower case of a text; `before` holds the characters already passed, the nearest
first.  A capital sigma ends a word when cased characters stand before it but not after
it. -/
def textFrom (before : List Char) : List Char → List Char
  | [] => []
  | c :: rest =>
    (if c.toNat = 0x3A3 then
      [Char.ofNat (if meetsCased before && !meetsCased rest then 0x3C2 else 0x3C3)]
    else single c) ++ textFrom (c :: before) rest

end LowerCase

/-- The text in lower case. -/
def lowerCase (cs : List Char) : List Char :=
  LowerCase.textFrom [] cs

end ElementFinder
