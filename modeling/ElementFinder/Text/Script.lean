import ElementFinder.Text.CodeTable

/-!
# Scripts

The script of every character, by the names of the scripts.
-/

namespace ElementFinder.Script

/-- The names of each script: its four-letter code and its full name, in lower case and
without separators. -/
def names : List String :=
  ["adlm adlam", "aghb caucasianalbanian", "ahom", "arab arabic", "armi imperialaramaic",
   "armn armenian", "avst avestan", "bali balinese", "bamu bamum", "bass bassavah",
   "batk batak", "beng bengali", "bhks bhaiksuki", "bopo bopomofo", "brah brahmi",
   "brai braille", "bugi buginese", "buhd buhid", "cakm chakma", "cans canadianaboriginal",
   "cari carian", "cham", "cher cherokee", "chrs chorasmian", "copt coptic qaac",
   "cpmn cyprominoan", "cprt cypriot", "cyrl cyrillic", "deva devanagari", "diak divesakuru",
   "dogr dogra", "dsrt deseret", "dupl duployan", "egyp egyptianhieroglyphs", "elba elbasan",
   "elym elymaic", "ethi ethiopic", "geor georgian", "glag glagolitic", "gong gunjalagondi",
   "gonm masaramgondi", "goth gothic", "gran grantha", "grek greek", "gujr gujarati",
   "guru gurmukhi", "hang hangul", "hani han", "hano hanunoo", "hatr hatran", "hebr hebrew",
   "hira hiragana", "hluw anatolianhieroglyphs", "hmng pahawhhmong",
   "hmnp nyiakengpuachuehmong", "hung oldhungarian", "ital olditalic", "java javanese",
   "kali kayahli", "kana katakana", "kawi", "khar kharoshthi", "khmr khmer", "khoj khojki",
   "kits khitansmallscript", "knda kannada", "kthi kaithi", "lana taitham", "laoo lao",
   "latn latin", "lepc lepcha", "limb limbu", "lina lineara", "linb linearb", "lisu",
   "lyci lycian", "lydi lydian", "mahj mahajani", "maka makasar", "mand mandaic",
   "mani manichaean", "marc marchen", "medf medefaidrin", "mend mendekikakui",
   "merc meroiticcursive", "mero meroitichieroglyphs", "mlym malayalam", "modi",
   "mong mongolian", "mroo mro", "mtei meeteimayek", "mult multani", "mymr myanmar",
   "nagm nagmundari", "nand nandinagari", "narb oldnortharabian", "nbat nabataean", "newa",
   "nkoo nko", "nshu nushu", "ogam ogham", "olck olchiki", "orkh oldturkic", "orya oriya",
   "osge osage", "osma osmanya", "ougr olduyghur", "palm palmyrene", "pauc paucinhau",
   "perm oldpermic", "phag phagspa", "phli inscriptionalpahlavi", "phlp psalterpahlavi",
   "phnx phoenician", "plrd miao", "prti inscriptionalparthian", "rjng rejang",
   "rohg hanifirohingya", "runr runic", "samr samaritan", "sarb oldsoutharabian",
   "saur saurashtra", "sgnw signwriting", "shaw shavian", "shrd sharada", "sidd siddham",
   "sind khudawadi", "sinh sinhala", "sogd sogdian", "sogo oldsogdian", "sora sorasompeng",
   "soyo soyombo", "sund sundanese", "sylo sylotinagri", "syrc syriac", "tagb tagbanwa",
   "takr takri", "tale taile", "talu newtailue", "taml tamil", "tang tangut", "tavt taiviet",
   "telu telugu", "tfng tifinagh", "tglg tagalog", "thaa thaana", "thai", "tibt tibetan",
   "tirh tirhuta", "tnsa tangsa", "toto", "ugar ugaritic", "vaii vai", "vith vithkuqi",
   "wara warangciti", "wcho wancho", "xpeo oldpersian", "xsux cuneiform", "yezi yezidi",
   "yiii yi", "zanb zanabazarsquare", "zinh inherited qaai", "zyyy common", "zzzz unknown"]

/-- Lengths of runs of code points of one script, each followed by the number of the
script; numbers past the list of names stand for characters without a script. -/
def runs : List Nat := CodeTable.numbers
  ["CnGgBaCrgGgBaCrBvGgbCrpGgbCrfGgxCrbGgBfCrbGgRhCrBnGgfCrfGgcnuGgEiGfeBrbGgdBrcGheBrbGgbBr",
   "eGhbBrbGgbBrbGgdBrbGhbBrbGhuBrbGhClBroyqBrFdBbcGfGnBbbGhBmfcGhByfcGhdfbGhCdByiGhBbByeGhg",
   "BylGhfdbGggdbGgodbGgddbGgBgdbGgkdlGfBadbGfEedbGgBidoFebGhCiFecGhdFeBwdByFpoGhChDucGhdDuB",
   "uEpcGhpEpbGhBcDbcGhbDbbGhlFefGhBidfGhCxdbGgBddDdBceGfpBccGgBaBcelbGhilcGhclcGhwlbGhhlbGh",
   "bldGhelcGhjlcGhclcGheliGhbleGhclbGhflcGhzlcGhdBtbGhgBteGhcBtcGhwBtbGhhBtbGhcBtbGhcBtbGhc",
   "BtcGhbBtbGhfBteGhcBtcGhdBtdGhbBthGheBtbGhbBthGhrBtkGhdBsbGhjBsbGhdBsbGhwBsbGhhBsbGhcBsbG",
   "hfBscGhkBsbGhdBsbGhdBscGhbBspGheBscGhmBshGhhBsbGhdDzbGhiDzcGhcDzcGhwDzbGhhDzbGhcDzbGhfDz",
   "cGhjDzcGhcDzcGhdDzhGhdDzeGhcDzbGhfDzcGhsDzkGhcFjbGhgFjdGhdFjbGheFjdGhcFjbGhbFjbGhcFjdGhc",
   "FjdGhdFjdGhmFjeGhfFjdGhdFjbGheFjcGhbFjgGhbFjoGhvFjfGhnFmbGhdFmbGhxFmbGhqFmcGhjFmbGhdFmbG",
   "heFmhGhcFmbGhdFmbGhcFmcGheFmcGhkFmhGhjFmnCnbGhdCnbGhxCnbGhkCnbGhfCncGhjCnbGhdCnbGheCnhGh",
   "cCnfGhdCnbGheCncGhkCnbGhdCnmGhnDibGhdDibGhBzDibGhdDibGhgDieGhqDicGhBaDibGhdExbGhsExdGhyE",
   "xbGhjExbGhbExcGhhExdGhbExeGhgExbGhbExbGhiExgGhkExcGhdExmGhCgFqeGhbGgBcFqBlGhcCqbGhbCqbGh",
   "fCqbGhyCqbGhbCqbGhxCqcGhfCqbGhbCqbGhhCqbGhkCqcGheCqBgGhCuFrbGhBkFreGhBnFrbGhBkFrbGhpFrbG",
   "hhFreGgcFrBlGhGeDoBmBlbGhbBlfGhbBlcGhBrBlbGgeBlJwBuCvBkbGheBkcGhhBkbGhbBkbGheBkcGhBpBkbG",
   "heBkcGhBhBkbGheBkcGhhBkbGhbBkbGheBkcGhpBkbGhCfBkbGheBkcGhCpBkcGhBgBkdGhBaBkgGhDiwcGhgwcG",
   "hYqtBdDwdGhCxEodGglEohGhwFojGhbFovBwcGgjGhurmGhnFfbGhdFfbGhcFfmGhDqCkcGhkCkgGhkCkgGhcDkc",
   "GgbDkbGguDkgGhDlDkhGhBrDkfGhCstkGhBfCtbGhmCteGhmCteGhbCtdGhmCtBeFhcGhfFhlGhBsFieGhBaFigG",
   "hlFidGhcFiBgCkBcqcGhcqClCpbGhBdCpcGhlCpgGhkCpgGhoCpcGhBuGfcGhmGfuGhCzhbGhByhCmFcCakiGhek",
   "CeCsdGhpCsdGhdCsBwDxlBbfGhBrBlcGhdBliFciGhdGfbGgnGfbGghGfeGgbGfgGgbGfdGgcGfbGgfGhBmCrfBr",
   "bBbBxCrfBreCrfBrnCrbBbCsCrbBrCmGfJwCrwBrcGhgBrcGhBmBrcGhgBrcGhiBrbGhbBrbGhbBrbGhbBrbGhBf",
   "BrcGhCbBrbGhpBrbGhoBrcGhgBrbGhtBrcGhdBrbGhjBrbGhmGgcGfDjGgbGhlGgbCrcGhlGgbCrpGgbGhnCrdGh",
   "BiGgoGhBhGfpGhBmGgbBrdGgcCrgGgbCrBbGgbCrrGgBpCrdGgeGhZqGgwGhlGgvGhBJsGgJwpYeGgcGhFiGgDsB",
   "mBgCrEmyfGhhyBmBlbGhbBlfGhbBlcGhCeFnhGhcFnoGhbFnxBkjGhhBkbGhhBkbGhhBkbGhhBkbGhhBkbGhhBkb",
   "GhhBkbGhhBkbGhBgBbDqGgBiGhBaBvbGhDlBvmGhIgBvBaGhvGgbBvbGgbBvzGgjBveGfcBuiGgeBveGgbGhDiBz",
   "cGhcGfcGgdBzbGgDmChcGgdChfGhBrnbGhDqBubGhqGgBgnBmGgjGhbGgqChBfBubGhCmGgBfBuDdGgBvChbGgDk",
   "ChGmGgJToBvCmGgBFBkBvBSvGddGhCdGdjGhBwCwLoFwuGhDsBbDkiiGhBiGgDyCrdGgDeCruGhpCrBtFddGhkGg",
   "gGhCeEgiGhCsEriGhmErgGhBgBcBuCgbGgbCgBkEmlGhbEmBdBudGhDaCfbGhbGgkCfeGhcCfBfDobGhCdvjGhov",
   "cGhkvcGhevBgDoCpFlyGhfFlxDmkGhgBkcGhgBkcGhgBkjGhhBkbGhhBkbGhBrCrbGgjCrbBreCrcGgeGhDcwBuD",
   "mcGhkDmgGhQNsBumGhxBueGhBxBuMNcGhOcBvcGhEcBvBmGhhCrmGhfffGhBaBybGhfBybGhbBybGhcBybGhcByb",
   "GhkByTadcGgFodBgGhqdqGfkGggGhoGfcBbBjGgbGhtGgbGheGgeGhfdbGhFfdcGhbGgbGhBgGgBaCrgGgBaCrlG",
   "gkChbGgBtChcGgBfBudGhgBucGhgBucGhgBucGhdBudGhhGgbGhhGgkGhfGgcGhmCvbGhBaCvbGhtCvbGhcCvbGh",
   "pCvcGhoCvBiGhEtCvfGhdGgeGhBtGgdGhjGgDbBrbGhnGgdGhbBrBvGhBtGgbGfFaGhBdCxdGhBxupGhbGfBbGge",
   "GhBkCejGhdCeBbBpfGhBrEffGhBeFvbGhbFvBkGaeGhoGaBqGhDcBfBwEtBeEbcGhkEbgGhBkEaeGhBkEaeGhBoB",
   "iiGhCablGhbblFxbGhpFxbGhhFxbGhcFxbGhlFxbGhpFxbGhhFxbGhcFxdGhCaGimGhLzCujGhwCukGhiCuyGhgC",
   "rbGhBqCrbGhjCrCrGhgBacGhbBabGhBsBabGhcBadGhbBacGhbBawebGhjeBgEdBfDsiGhjDsBwGhtBxbGhcBxfG",
   "hfBxBcEjdGhbEjBaCyfGhbCyBaGiBmGhBgDhyDgeGhuDgcGhBuDgeCjbGhcCjfGhiCjbGhdCjbGhBdCjcGhdCjeG",
   "hkCjhGhjCjhGhBgEqBgDrBgGhBnDceGhmDcjGhCcgdGhhgwElcGhiEltEhfGhiEhsEihGheEimGhhEiDcGhCvDyC",
   "dGhBzCdnGhBzCdhGhgCdBoEniGhkEngGhBmGidGhBdGiiGhcGiIaGhBfdbGhBqGcbGhdGccGhcGcqGhgdiGhjdBh",
   "GhgdBoEziGhBqEywGhBaEcBmGhBcxuGhxBjjGhDaoeGhBkojGhboCpCokGhbCocGhzFahGhkFagGhCbsbGhssiGh",
   "BnCzjGhDsEubGhuExlGhsClbGhBvClCkGhhDnbGhbDnbGheDnbGhpDnbGhlDngGhChEwfGhkEwgGheBqbGhiBqcG",
   "hcBqcGhwBqbGhhBqbGhcBqbGhfBqbGhbGfjBqcGhcBqcGhdBqcGhbBqgGhbBqfGhhBqcGhhBqdGhfBqlGhkGibGh",
   "bGicGhbGibGhBmGibGhkGibGhbGicGhbGibGheGibGhkGibGhcGiiGhcGiBdGhDoDtbGhfDtBeGhCuFsiGhkFsGk",
   "GhCcEvcGhBmEvBiGhCrDjlGhkDjgGhnDktGhCgFggGhkFggGhuDoBcGhBbccGhpceGhxcHdGhCiBeDwGhDfFymGh",
   "bFyhBdcGhbBdcGhiBdbGhcBdbGhBeBdbGhcBdcGhmBdjGhkBdCsGhiDqcGhBuDqcGhlDqBbGhCuGeiGhDfFbnGhq",
   "tCfEehGhkBcDiGhiEuDkGhBiGioGhkGigGhjmbGhBtmbGhomkGhBdmdGhBgDdcGhwDdbGhoDdCvGhhBobGhcBobG",
   "hBsBodGhbBobGhcBobGhjBoiGhkBogGhgBnbGhcBnbGhBlBnbGhcBnbGhgBnhGhkBngGhBsGieGhkGiJmGhzDahG",
   "hrCibGhBpCidGhBdCiDhGhbCwpGhByFjnGhbFjBJmGbDyGhEhGbbGhfGblGhHoGbDXkGhDvznGhBQsBhkGhFXrBh",
   "fGhWlCaKDdGhCgGiCOsGhVxihGhBfDlbGhkDleGhcDlDbFtbGhkFtgGhBejcGhgjkGhCsCbkGhkCbbGhhCbbGhvC",
   "bfGhtCbQqGhCgGiHqGhDnDefGhzGicGhzGiBsGhCxEkeGhCfEkhGhrEkCmGhbFkbDvcBvbCmlGhhBvjGhKFwFkSc",
   "CmBpGhbCmBfFkDtGhElFkMWrGheChbGhhChbGhcChbGhbChLbBzdChpGhbBzBdGhdBzcGhbChoGheChiGhPgDvDK",
   "uGhEdBgfGhnBgdGhjBghGhkBgcGheBgeGgFVgGhJtGgdGhQuGggGhxGgpGhrGgpGhBuGfcGhxGfjGhEmGgCiGhJm",
   "GgkGhBnGgcGhCkGgdGfrGgiGfcGghGfBeGgeGfCjGgvGhCsBrEsGhuGgmGhuGgmGhDjGgjGhzGgFfGhDhGgbGhCt",
   "GgbGhcGgcGhbGgcGhcGgcGheGgbGhmGgbGhbGgbGhhGgbGhCnGgbGheGgcGhiGgbGhhGgbGhBcGgbGheGgbGhfGg",
   "bGhbGgdGhhGgbGhNcGgcGhLgGgcGhByGgZcEspGhfEsbGhpEsBQmGhBfCrgGhgCrIfGhhBmbGhrBmcGhhBmbGhcB",
   "mbGhfBmfGhCkBbBhGhbBbEiGhBtCcdGhoCccGhkCceGhcCcMiGhBfFurGhCgFzfGhbFzRwGhBqDpIgGhBrGieGhb",
   "GiHkGhBfGibGhwGiiGhcGiIqGhhBkbGheBkbGhcBkbGhpBkbGhHpDfcGhqDfBpGhCyaeGhkaeGhcaBEfGhCqGgCy",
   "GhCjGgHmGhedbGhBbdbGhcdbGhbdcGhbdbGhkdbGhedbGhbdbGhbdgGhbdeGhbdbGhbdbGhbdbGhddbGhcdbGhbd",
   "cGhbdbGhbdbGhbdbGhbdbGhbdbGhcdbGhbdcGhedbGhhdbGhedbGhedbGhbdbGhkdbGhrdfGhddbGhfdbGhrdCaG",
   "hcdKkGhBsGgeGhDwGgmGhpGgcGhpGgbGhpGgbGhBlGgkGhGsGgCeGhBaGgbBzcGgnGhBsGgeGhjGghGhcGgoGhgG",
   "gFyGhBLxGgdGhrGgdGhnGgdGhIkGggGhmGgeGhbGgpGhmGgeGhCeGgiGhkGggGhBoGgiGhBeGgcGhmGgeGhcGgoG",
   "hjGgBnGhNgGgiGhoGgcGhnGgdGhlGgdGhCfGgbGhbGgeGhqGgcGhmGgeGhkGghGhFrGgbGhDzGgBNpGhCLFcBvBg",
   "GhGMoBvcGhIOcBvcGhLBlBvpGhXyBvDQwGhUwBvCFyGhHHzBvfGhMOoBvBOGOdGhbGgBeGhDsGgEyGhJgGfLECuG",
   "h"]

/-- The script at a distance from the start of the runs. -/
def inRuns (distance : Nat) : List Nat → Nat
  | extent :: number :: rest =>
    if distance < extent then number else inRuns (distance - extent) rest
  | _ => names.length

/-- The number of the script of a code point. -/
def ofCode (code : Nat) : Nat :=
  inRuns code runs

/-- The number of the script with a name. -/
def number? (name : String) : Option Nat :=
  names.findIdx? fun entry => (entry.splitOn " ").contains name

end ElementFinder.Script
