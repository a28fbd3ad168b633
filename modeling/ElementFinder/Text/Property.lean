import ElementFinder.Text.CodeTable

/-!
# Character properties

The general category of every character, and the properties that words, printing and
patterns use.
-/

namespace ElementFinder

/-- The general categories, by their short names. -/
inductive GeneralCategory where
  | Lu | Ll | Lt | Lm | Lo | Mn | Mc | Me | Nd | Nl | No | Pc | Pd | Ps | Pe | Pi | Pf | Po
  | Sm | Sc | Sk | So | Zs | Zl | Zp | Cc | Cf | Co | Cs | Cn
deriving DecidableEq, Repr

namespace GeneralCategory

/-- The categories in the order in which the table numbers them. -/
def all : List GeneralCategory :=
  [Lu, Ll, Lt, Lm, Lo, Mn, Mc, Me, Nd, Nl, No, Pc, Pd, Ps, Pe, Pi, Pf, Po, Sm, Sc, Sk, So,
   Zs, Zl, Zp, Cc, Cf, Co, Cs, Cn]

/-- Lengths of runs of code points of one category, each followed by the number of the
category. -/
def runs : List Nat := CodeTable.numbers
  ["BgzbwdrbtdrbnbobrbsbrbmcrkicrdscrBaabnbrbobublbuBabbnbsbobsBhzbwbretbvbrbubvbebpbsbBabvb",
   "ubvbsckbubbcrbubkbebqdkbrxabshaybbsibbabbbabbbabbbabbbabbbabbbabbbabbbabbbabbbabbbabbbab",
   "bbabbbabbbabbbabbbabbbabbbabbbabbbabbbabbbabbbabbbabbbabbbacbbabbbabbbabbbabbbabbbabbbab",
   "bbacbbabbbabbbabbbabbbabbbabbbabbbabbbabbbabbbabbbabbbabbbabbbabbbabbbabbbabbbabbbabbbab",
   "bbabbbabbcabbbabbbadbcabbbabbcabbdacbeabbcabbdadbcabbcabbbabbbabbcabbbacbbabbcabbdabbbab",
   "bcacbbebadbeebabcbbbabcbbbabcbbbabbbabbbabbbabbbabbbabbbabbbacbbabbbabbbabbbabbbabbbabbb",
   "abbbabbbacbbabcbbbabbdabbbabbbabbbabbbabbbabbbabbbabbbabbbabbbabbbabbbabbbabbbabbbabbbab",
   "bbabbbabbbabbbabbbabbbabbbabbbabbbabbbabbbabbbabbbahbcabbcacbbabbeabbbabbbabbbabbbaCrbce",
   "BabsdeumdoufdhubdbubdruEifbabbbabbbdbubabbcBdbddbbrbaeBdcubabrdabBdbabBdcabbrabBdjaBjbba",
   "cbdadbbabbbabbbabbbabbbabbbabbbabbbabbbabbbabbbabbbafbbabbbsbabbcacbBzaBwbbabbbabbbabbba",
   "bbbabbbabbbabbbabbbabbbabbbabbbabbbabbbabbbabbbabbbabbbvffchbabbbabbbabbbabbbabbbabbbabb",
   "babbbabbbabbbabbbabbbabbbabbbabbbabbbabbbabbbabbbabbbabbbabbbabbbabbbabbbabbbabbcabbbabb",
   "babbbabbbabbbabbbacbbabbbabbbabbbabbbabbbabbbabbbabbbabbbabbbabbbabbbabbbabbbabbbabbbabb",
   "babbbabbbabbbabbbabbbabbbabbbabbbabbbabbbabbbabbbabbbabbbabbbabbbabbbabbbabbbabbbabbbabb",
   "babbbabbbabbbabbbabbbabbbabbbabbbabbbBdBmacBdbdgrBpbbrbmcBdcvbtbBdBtfbmbfbrcfbrcfbrbfiBd",
   "BbeeBdeecrlBdgBadscrbtcrcvlfbrbBadrBgebdkevfkiercebfDvebrbehfbBabvgfcdcfbvefcekidecvbeor",
   "bBdbBabebfBeeBbfcBdDlelfbeoBdkiBhejfcdbvdrbdcBdbfctweefbdjfbddfbdffcBdprbBdzedfcBdbrbBdl",
   "efBdyebuhecBafBdjfBpebdyfbBaBgfbgCcebfbgbfbedgifegbfcgbehfkecfcrkibrbdpebfcgbBdiecBdcecB",
   "dwebBdhebBdbedBdeecBdbfbedgefcBdcgcBdcgbfbeiBdbgeBdcebBddecfcBdkicectgkbvbtbebrbfcBdcfbg",
   "bBdgeeBdcecBdwebBdhebBdcebBdcebBdcecBdbfbBddgcfeBdcfcBddfdBdbfhBdeebBdbehBdkicfdebfbrkBd",
   "cfbgbBdjebBddebBdwebBdhebBdcebBdfecBdbfbedgffbBdcfbgbBdcgbfcBdbepBdcecfcBdkibrbthBdbegfb",
   "BdbfcgbBdiecBdcecBdwebBdhebBdcebBdfecBdbfbebgbfbgefcBdcgcBdcgbfhBdcfbgeBdcebBddecfcBdkib",
   "vbegkkBdbfbebBdgedBddebBdeedBdcebBdbebBdcedBdcedBddedBdmeeBdcgbfcgdBddgbBddgbfcBdbegBdbg",
   "oBdkidkgvbtbvfBdbfdgbfiebBddebBdxebBdqecBdbfbedfegbBddfbBdefhBdcfbBddebBdcecBdcecfcBdkih",
   "BdbrhkbvbebfcgbriebBddebBdxebBdkebBdfecBdbfbebgbffgbBdbfcgbBdcgcfhBdcgfBddebBdcecfcBdkib",
   "BdcebgmBdcfcgjebBddebBdBpecfbedgefbBddgbBddgbfbebveBddebghkdecfcBdkijkbvgebBdbfcgbBdsedB",
   "dyebBdjebBdbecBdhedBdbfeBddgdfbBdbfbBdiggBdkicBdcgbrmBdBwebfcehfeBdbtgebdifbrkicrBlBdceb",
   "BdbebBdfebBdyebBdbebBdkebfcejfbecBdfebBdbdbBdhfbBdkicBdeeBgBdbedvprbvbrdvcfgvkikkbvbfbvb",
   "fbvbfbnbobnbocgiebBdBkeeBdofbgffbrcffelfbBdBkfbBdivbfgvbBdcvfrevcrBlBdBrecgefbggfbgcfcgc",
   "fbekigrgecgcfeedfbedgcehgdeefnebfcgcfggbfbebgkidgbfcvBmabBdbafBdbacBdBrbbrbddbMrebBdeecB",
   "dhebBdbebBdeecBdBpebBdeecBdBhebBdeecBdhebBdbebBdeecBdpebBdCfebBdeecBdCpecBddfjrukdBdqekv",
   "gBdDiacBdgbcBdbmXwebvbrrebwBaebnbodBdCxedrdjiehBdsedfbgjBdtecfbgcrjBdsecfmBdnebBddebBdcf",
   "mBdCaecfbghfigbfcglfdrbddrbtbebfcBdkigBdkkgBdgrbmerdfbBabfkigBdBjebdCbehBdfecfBiebfbefBd",
   "CsekBdBfebBddfegcfdgeBdcgbfggdfeBdbvdBdcrkiBeecBdfelBdBseeBdBaegBdkibkdBdBivxecfcgbfcBdc",
   "rCbebgbfbghfbBdbfbgbfcgifggkfcBdbfkigBdkigBdhrbdgrcBdofbhBffcBdmfuBdefbgBvebfbgffbgbffgb",
   "fcgiebBdcrkihrkvjfjvdrcfbgBeebgefcgcfbgdfcekiBsebfbgcfdgbfbgdfcgiBderBkeigifcgcfdBdfrkid",
   "BddekiBeegdcrjbbabbfBdBracBddairiBddfbrnfbghfeebfgebfcebgcfbefBdBsbCldnbbdBibBldCmfbabbb",
   "abbbabbbabbbabbbabbbabbbabbbabbbabbbabbbabbbabbbabbbabbbabbbabbbabbbabbbabbbabbbabbbabbb",
   "abbbabbbabbbabbbabbbabbbabbbabbbabbbabbbabbbabbbabbbabbbabbbabbbabbbabbbabbbabbbabbbabbb",
   "abbbabbbabbbabbbabbbabbbabbbabbbabbbabbbabbbabbbabbbabbbabbbabbbabbbabbbabbbabbbabbbabbb",
   "abbbabbbabbbabbbabbbabbbabbbajbbabbbabbbabbbabbbabbbabbbabbbabbbabbbabbbabbbabbbabbbabbb",
   "abbbabbbabbbabbbabbbabbbabbbabbbabbbabbbabbbabbbabbbabbbabbbabbbabbbabbbabbbabbbabbbabbb",
   "abbbabbbabbbabbbabbbabbbabbbabbbabbbabbbabbbabbbajbiagbcBdgacBdibiaibiagbcBdgacBdibbBdba",
   "bBdbabBdbabBdbaibiaobcBdibicibicibicfbbBdcbeabcbubbdudbbBdcbeabcduebcBdcbeabBdduibfaducB",
   "ddbbBdcbeabccubBdlwfBagmcrbpbqbncpbqbnbpirbxbyfBabwjrbpbqercldrbsbnbolrbsbrblkrbwfBabBdk",
   "BabkbdcBdgkdsbnbobdkkdsbnbobBdnddBdBitoBdnfehbfdhmfpBdcvbaevbacvbbdacbdabbbvbacvbsfagvba",
   "bvbabvbabveabvbbeabbeebbcvcbcafsbaebbvbscvbbbvqkBjjbabbejbkcveBdfsfvcsevbscvbscvbshvbsBf",
   "vcscvbsbvbsBfvKisivbnbobnbouvcshvbnboDdvbsBevzsBovgsCuvwBdlvvBdCikDavwkHbvbsjvbsCcvisEhv",
   "bsJovbnbobnbobnbobnbobnbobnbobnboBekBsvfsbnboBfsbnbobnbobnbobnbobnboqsJwvFbsbnbobnbobnbo",
   "bnbobnbobnbobnbobnbobnbobnbobnboClsbnbobnboBgsbnboJysBwvvscvgsBnvcBdFivBwaBwbbabbdacbbab",
   "bbabbbabbeabbbacbbagbcddabbbabbbabbbabbbabbbabbbabbbabbbabbbabbbabbbabbbabbbabbbabbbabbb",
   "abbbabbbabbbabbbabbbabbbabbbabbbabbbabbbabbbabbbabbbabbbabbbabbbabbbabbbabbbabbbabbbabbb",
   "abbbabbbabbbabbbabbbabbbabbbabbbabbbabbbabbbacbgvbabbbabbdfbabbfBderbkcrBmbbBdbbfBdbbcBd",
   "CeehBdbdbroBdbfxejBdhebBdhebBdhebBdhebBdhebBdhebBdhebBdhebBdBgfcrbpbqbpbqdrbpbqbrbpbqjrb",
   "mcrbmbrbpbqcrbpbqbnbobnbobnbobnbofrbdkrcmerbmbrbnnrcvdrbnbobnbobnbobnbobmBiBdBavbBdDlvmB",
   "dIgvBaBdqvbwdrbvbdbebjbnbobnbobnbobnbobnbocvbnbobnbobnbobnbobmbncobvjjefcgbmfdcvdjbdbebr",
   "cvbBdDiecBdcfcucdbebmDmebrddbefBdBrebBdDqebBdcvekkvBgeBmvjBdbvqeBfvbBdkkBevikbvpkBgvkkBn",
   "vpkMivJToeCmvBFCfebdBRzedBdCdvjBdBoegdcrKiebddrqekiceuBdbabbbabbbabbbabbbabbbabbbabbbabb",
   "babbbabbbabbbabbbabbbabbbabbbabbbabbbabbbabbbabbbabbbabbbabbbebfdhbrkfbrbdbabbbabbbabbba",
   "bbbabbbabbbabbbabbbabbbabbbabbbabbbabbbabbcdcfCsekjcfgriBdxujdcubabbbabbbabbbabbbabbbabb",
   "badbbabbbabbbabbbabbbabbbabbbabbbabbbabbbabbbabbbabbbabbbabbbabbbabbbabbbabbbabbbabbbabb",
   "babbbabbbabbbabbbabbbabbbabbbabbbabbbabbbdibbabbbabbcabbbabbbabbbabbbabbbdcubabbbabbbeba",
   "bbbadbbabbbabbbabbbabbbabbbabbbabbbabbbabbbabbfabbfabbbabbbabbbabbbabbbabbbabbbabbeabbba",
   "bbcabbbabbbabbbabbbabbbabbbabbbabbbauBdedbabbbecdbbhebfdebfeebfxecgcfbgevbfdBdgkcvbtbvgB",
   "dCaeeriBdcgByeqgcfiBdcrkigBdsfgedrbebrcebfkiBceifcrxelfcglBdbrBdedBddfbgBvebfcgefcgcfdgn",
   "rbBdbdkieBdcrfebfbdjekifebBdBpegfcgcfcgcfjBddebfiebfbgcBdkicBderqebdgedvbebgbfbgByebfbed",
   "fcecffecfbebfbeyBdcebdcrlebgcfcgcrbecdbgbfkBdgecBdgecBdgejBdhebBdhebBdBrbbuedjbbdcueBdDc",
   "bBjecgbfcgbfcgbrbgbfcBdkigBdQNsemBdxeeBdBxeeBdDAuBcJMeBbOcecBdEceBmBdhbmBdfbfBdbebfkebsn",
   "ebBdfebBdbebBdcebBdcebBdEeeruqvNzebobnqvCmecvCceivBgBdmebtdvqfhrbnbobrgBdqfbrcmclbnbobnb",
   "obnbobnbobnbobnbobnbobnbocrbnboerdldrbBderbmbnbobnbobnbodrbsbmdsbBdbrbtcreBdfebBdFfecBdb",
   "BabBddrbtdrbnbobrbsbrbmcrkicrdscrBaabnbrbobublbuBabbnbsbobsbnbobrbnbocrkebdBtecdBfedBdge",
   "cBdgecBdgecBddedBdctbsbubvctbBdbvescvkBddBacvcBdmebBdBaebBdtebBdcebBdpecBdoeBiBdEtefBddr",
   "eBdBtkdBdjvCbjekrvckdvbBdnvdBdbvBvBdBtvbfFaBdBdedBdBxepBdbfBbkeBdBgeekjBduebjiebjfBdBmef",
   "ffBdBeebBdbrBkeeBdiebrfjBqBdBoaBobDaecBdkigBdBkaeBdBkbeBdBoeiBdCaelBdbrlabBdpabBdhabBdca",
   "bBdlbbBdpbbBdhbbBdcbdBdCaemBdLzejBdwekBdieyBdgdbBdBqdbBdjdCrBdgecBdbebBdBsebBdcedBdbecBd",
   "xebBdbrikxecvhkBfeiBdjkBwBdtebBdcefBdfkwegkdBdbrBaefBdbrBaeBmBdCeeeBdckceqkcBdBukbedfbBd",
   "cffBdefeebBddebBdBdecBddfeBdbfjkhBdjrhBdBdeckbrBdedkBgBdiebvBcecfeBdfkhrjBdCcedBdhrwecBd",
   "iktefBdiksehBdermBdhkDcBdCveCdBdBzanBdBzbhBdgkBkeefiBdkigBdkieebdbewadBdffbmbdwbiBdcsIaB",
   "dBfkbBdBqebBdcfbmcBdceqBddebdceiBdbrivBhBdgfBdekkbeiBdwelfekfrwBdseeferBmBdvehkuBdxejBdb",
   "gbfbgCbepfhreBdukkibfcecfbejBddfbgBtedgefcgcfcrbBaerbfkBdbBacBdzehBdkigBddfBkeffbgifbBdk",
   "ierbecgbeiBdBjebfcrbejBdcfbgBwedgjfcgeeerefbrbgbfkibebrbedrbBduklBdsebBdzedgdfcgbfbgcfgr",
   "bfcebfCkBdhebBdbebBdeebBdpebBdkebrgBdBvebfdgiffBdkigBdcfcgbBdiecBdcecBdwebBdhebBdcebBdfe",
   "bBdcfbecgbfegcBdcgcBddgcBdbegBdbgfBdfecgcBdhfdBdfflBdkebBdbecBdbebBdBmebBdbedggfbBdbgcBd",
   "bgbBdegbBdcgbfbgbfbebfbecrbBdcriBdcfBdBdCbedgifcgdfbgbfeefrkicrbBdbrbfdeBeBdBwedggfbgbfe",
   "gcfbgcfcebrbeiBdkiGkBdBvedgefcBdegcfbgcfxreecfBiBdBwedgifcgbfbgcfdrbelBdkigBdnrtBdBrebfb",
   "gbfcggfbgbfbebrgBdkigBduiBcBdBbecBdbfbgbfcgefbgffeBdkickdrbvheHdBdBsedgjfbgcfbrDwBdBgaBg",
   "bkijkmBdiecBdbecBdiebBdcebBdyeggbBdcgcBdcfbgbfbebgbebgbfdrjBdkiCsBdiecBdBnedgefcBdcfegbf",
   "bebrbebgBbBdbekfBoegfbgbeefirbfiBdbegfcgdfBuenfbgcfdrbefrnBdCvehBdkrDiBdbfbgdfbgbfbgDkBd",
   "BhebroBdkigBdjebBdBlebghfbBdgfbgbfbefrkBdkitkdBdcrBeecBdwfbBdbghfbgcfbgcfCvBdhebBdcebBdB",
   "megfdBdbfbBdcfbBdhfbebfiBdkigBdgebBdcebBdBgefgbBdcfbBdcgbfbgbfbehBdkigBdBpebdceeBdkiJmBd",
   "tecfcgcrhBdcfbebgnebBdBiecgffdBdcgbfbgbfnrkibfDhBdbepBdvkivetrvnBdbrBJmeDyBdEhjbBdfrlBdH",
   "oeDXkBdDtecrnBdBPgeqBabfgepfkBdFXrefBdWleKDdBdBeemfdgdfkiCOsBdVxehBdBfebBdkieBdcrDbebBdk",
   "igBdBeecBdffbrkBdBwehffrevedbrbvkBdkibBdhkbBdvefBdteQqBdddBoecddrkiHqBdBgaBgbxkerfBdzacB",
   "dzbBsBdCxeeBdbfbeCdghBdefndCmBdcdbrbdbflBdcgcddjjBdKXyeBpBdBgeDtBdEleMWrBdedbBdhdbBdcdbB",
   "dLfepBdbeBdBddecBdbeoBdeeiBdPgeDKuBdEdefBdnedBdjehBdkecBdbvcfbreBaFVgBdJgvkidvdBdQuvgBdx",
   "vpBdqvbspBdBufcBdxfjBdEmvCiBdJmvkBdBnvcBdCivcgdfdvggiBaifcvhfBevefCjvvBdCovdfbvEsBdukmBd",
   "ukmBdDjvjBdzkFfBdBaaBabBaahbbBdsbBaaBabbabBdcacBdbacBdcacBdeabBdiaebbBdbbbBdhbbBdlbBaaBa",
   "bcabBdeacBdiabBdhabBdBabcabBdeabBdfabBdbadBdhabBdBabBaaBabBaaBabBaaBabBaaBabBaaBabBaaBcb",
   "cBdzabszbbsgbzabszbbsgbzabszbbsgbzabszbbsgbzabszbbsgbbabbcBdByiTsvCdfevByfivbfovbfcvfrpB",
   "dffbBdpfBQmBdkbbeubgBdgbIfBdhfbBdrfcBdhfbBdcfbBdfffBdCkdBhBdbfEiBdBtedBdhfhdcBdkieBdbebv",
   "MiBdBeebfrBdBseefkifBdbtRwBdBbebdefkiIgBdBeecfbekieBdbrHkBdBfebBddebfcebfhecffebfiBdbebd",
   "IqBdhebBdeebBdcebBdpebBdHpecBdjkhfBpBdBiaBibhfbdeBdkieBdcrBEfBdChkbvdkbtekCyBdBtkbvpkHmB",
   "deebBdBbebBdcebBdbecBdbebBdkebBdeebBdbebBdbegBdbeeBdbebBdbebBdbebBddebBdcebBdbecBdbebBdb",
   "ebBdbebBdbebBdbebBdcebBdbecBdeebBdhebBdeebBdeebBdbebBdkebBdrefBddebBdfebBdreCaBdcsKkBdBs",
   "veBdDwvmBdpvcBdpvbBdpvbBdBlvkBdnkGfvCeBdBdvnBdBsveBdjvhBdcvoBdgvFyBdJrvfuBCbvdBdrvdBdnvd",
   "BdIkvgBdmveBdbvpBdmveBdCeviBdkvgBdBoviBdBevcBdmveBdcvoBdjsBnBdNgviBdovcBdnvdBdlvdBdCfvbB",
   "dbveBdqvcBdmveBdkvhBdFrvbBdDovkibvBNpBdCLFceBgBdGMoecBdIOcecBdLBlepBdXyeDQwBdUweCFyBdHHz",
   "efBdMOoeBOGOdBdbBaBeBdDsBaEyBdJgfDSFoBdDSYoBbcBdDSYoBbcBd"]

/-- The category at a distance from the start of the runs. -/
def inRuns (distance : Nat) : List Nat → GeneralCategory
  | extent :: number :: rest =>
    if distance < extent then (all[number]?).getD Cn else inRuns (distance - extent) rest
  | _ => Cn

/-- The general category of a code point. -/
def ofCode (code : Nat) : GeneralCategory :=
  inRuns code runs

end GeneralCategory

namespace CharProperty

/-- Word characters: letters, marks, decimal digits, connectors and joiners. -/
def word : List (Nat × Nat) := CodeTable.ranges
  ["BwjhzeabzBvakaeafwbBebRpeloehabarEmbbcdbagabcbabtbDebFibGqbBlcagBoiBsbabbbbbaiBaedBdkfCv",
   "eDxbhcjbscaqCgcDwoCbeacacBtsBbekfxbghCwbEycjbsbhcbcvbgbaddcicbcdiaebbeclkabaccbfebcvbgbb",
   "bbbbcabeebccdahdbahplcbibcbvbgbbbecjbcbccapdcjjgbcbhcbcvbgbbbecicbcchcebbecjbaqbbfdcbddb",
   "babbdbdcdleedcbdcagaojqmbcbwbpcibcbdhbbcbbcdcjqdbhbcbwbjbecibcbdhbfcbdcjbcmmbcbBybcbefdh",
   "ecjkfbcbrdxbibacgdaefbabhgjcbnCffobjBnbbabebxbabwcebabgbjcdBgaxbgjlababaejbBjetbrbBjjaCf",
   "CvgCzcBlbafacBqbMubdcgbabdcBobdcBgbdcgbabdcobCebdcCoccBgpqDhcfdXvcqbzfCwdkhvjvltmmbcbbmD",
   "fdaebcjBhcbkgDkhBqfCrkBeblelkBncelBrezgjBmBbeCkbBcckgjnaiBtcluCydjrimElmCdijdBwckfBqccqc",
   "bBmfUncfcBlcfchbabababBecCabgbadcbgddcfemfcbgpbBxbtaBcanaqmBzBgraeacjbadegabababdbkcdfee",
   "arBoBFhBzCRuIugimBlbafacCdhapxjgbgbgbgbgbgbgbgbBfBvaSbczobeceeDhcbccbDlbdfBqbDprBfBwpTsJ",
   "TnCmBGUeCpBtcKidBbuBybjbEkBlicDycDduCceatBzmCrkjgxdabBwcBjmBcdCmokgBebCcjncjgwdCuyccpcek",
   "fcfcfjgbgbBqbngEsbbcjgQNrmweBwMNcObcEbBmgmeflbmbebabbbbbEdBhNysClcCbBolepqpdbycBgebFetjh",
   "zeabzlDkdfcfcfccBjlbzbsbbbocnBiEsCrCaFgaFaBcdBwpaBfBfnBdfBqfBdcBjehbeBqGbcjgBjeBjeBniBzm",
   "kbobgbbbkbobgbbdBzmLyjvkhyfbBpbiCrfcabBrbbdacwkwjBeCnsbbkvkzgzBmCdgbCmdbbfhbcbBccceaBgBc",
   "dBcBjhbBdzCbkvksnrEgCuCdBynBynBnijgBldebwJqBpbbdbqfByBikaiBgBfvBquBbwjCsBfpjChhanyhjgCab",
   "jediBjcajCqedbmbaBjrbBkgdCkgbabdbobjhCgfjgdbhcbcvbgbbbebjcbcccagafgcgdeljbacabBlbjbacabd",
   "bhnbBdCwfjedBeCrbaijGkCbcixfBiCmdaljBmCehjgtBcBacoejggHdCgDxCvvhcachbbbBdbbcimjCshcBtchb",
   "bBbCkiaiCvdasCuDzhDkBgpjgibBsbipjyBdcvbnCvgbbbBrdabbbiijgfbbbBkbbbfhjgBrejJmwjqbBodenkDh",
   "aDbBJlDyEgrHnDXkDspBPfqvkFXqfWkKDdCfCOsVwhBebjgDabjgBdcelCcjdmjjufsQqBsdjHqClBgycyBsCweC",
   "ehqCmbbblgjKXxBpBfDtEkMWrdbgbbbLepaBdccaodiPfDKuEcfmdihjdbGErjTyBtcwUwedfihcgBedFscRbDgb",
   "CsbbcacbcdblbabgbCmbdchbgbBbbdbebadgbNbcybybBebybBebybBebybBebybhcBxTsCceBxiaoaweboBQmBe",
   "gfIfgbqcgbbbefCjBhaEiBsdncjeaMjBerCfScBpIgBqHpBebvibIqgbdbbbobHolgBpCxejBTudbBabbbacabjb",
   "dbabagaeabababcbbbacabababababbbacdbgbdbdbabjbqfcbebqYezgzgzDYkjBNqCLFbBgGMncIObcLBkpXxD",
   "QwUvCFyHHyfMOnBOGXyJf"]

/-- The characters with the property Alphabetic. -/
def alphabetic : List (Nat × Nat) := CodeTable.ranges
  ["CnzgzBvakaeafwbBebRpeloehabaDiaBdrbbcdbagabcbabtbDebFiiGjbBlcagBoBnnbabbbbbaiBaedBdkfCdb",
   "goDxbheheckccaqBvnDwyBgjbeafxcstyhkfxbghaiBpkldggCxbpbceonsbhcbcvbgbadddhcbcbbaiaebbembk",
   "aecbfebcvbgbbbbbbeeebcbeahdbarflcbibcbvbgbbbedibcbbdapdvdecbhcbcvbgbbbedhcbcbjbebbenaqbb",
   "fdcbddbbabbdbdcdleedcbcdagaBombcbwbpdhbcbcibbcbbcdBcdbhbcbwbjbedhbcbcibfcbdncmmbcbBochbc",
   "bcbafdhewfbcbrdxbibacgifbabhsbnCffggaBzbbabebxbabsbccebagaodBgaClhbBjesepbBjCpCcbaceqClk",
   "dcBlbafacBqbMubdcgbabdcBobdcBgbdcgbabdcobCebdcCoBlpqDhcfdXvcqbzfCwdkhtlumtmmbcbbmBzcsoae",
   "aCpDkhBqfCrkBebleixBdcelBrezCcBbeCkctByaxblcBxBzbobhBzBpcdkBrbkoCcwckBjckfBqccBpdbfbbdaf",
   "HjtBhlKrcfcBlcfchbabababBecCabgbadcbgddcfemfcbgEmanaqmDxaeacjbadegabababdbkcdfeearBoBFhB",
   "zCRuIugddbmBlbafacCdhaqwjgbgbgbgbgbgbgbgbBfBvaSbcziheceeDhgcbDlbdfBqbDprBfBwpTsJTnCmBGUe",
   "CpBtcKidpkbuBufhdEiBnicDycDduubBgyBzmCpbaBsfdabckBgfBinBcdByblpaqpkebCcjnswdCqbabayccpcd",
   "lfcfcfjgbgbBqbngEsvQNrmweBwMNcObcEbBmgmeflbmbebabbbbbEdBhNysClcCbBolEmebFeBkzgzlDkdfcfcf",
   "ccBjlbzbsbbbocnBiEsCrCaKhBcdBwBvBfnBdfBqfBdcBjehbeBqGbsBjeBjeBniBzmkbobgbbbkbobgbbdBzmLy",
   "jvkhyfbBpbiCrfcabBrbbdacwkwjBeCnsbbkvkzgzBmCdgbCmdbbfhbcbBcBqBcdBcBjhbBbBbCbkvksnrEgCuCd",
   "BynBynBnBiBbdafwJqBpbbdbqfBycdBckaivBqrBuuBbwjCrBrekCejanyxByrdiBidajClbdjbkabaBjrbBhcag",
   "dCkgbabdbobjhCexdbhcbcvbgbbbedhcbcbdagafgBcjbacabBlbjbacabdbbdabaBsCnbcbducBeCncbbaHcCbc",
   "gzfBiCkbadaChCbcaCtBacnvgHdCeDzClBfhcachbbbBdbbcbcdDphcBtcfbabbBbBycjrCtfasCuDzhDkBgBfib",
   "BsbgbaBxBdcvbnCvgbbbBrdabbbcbacbyfbbbBkbbbdbaxBrKawjqbBodcEhaDbBJlDyEgrHnDXkDspBPfrfzFXq",
   "fWkKDdBuCPdVwhBerDarBdsBvqdBfufsQqBsIdClBgycyBsCweCehqCmbbamgjKXxBpBfDtEkMWrdbgbbbLepaBd",
   "ccaodiPfDKuEcfmdihjeaIWfDgbCsbbcacbcdblbabgbCmbdchbgbBbbdbebadgbNbcybybBebybBebybBebybBe",
   "bybhCSyBegfIfgbqcgbbbefCjBhaEiBskgqaMjBdsBrSqBbIuBdcaHzBebvibIqgbdbbbobHoChCpdadaBUidbBa",
   "bbbacabjbdbabagaeabababcbbbacabababababbbacdbgbdbdbabjbqfcbebqYezgzgzFMkCLFbBgGMncIObcLB",
   "kpXxDQwUvCFyHHyfMOn"]

/-- The characters with the property Lowercase. -/
def lowercase : List (Nat × Nat) := CodeTable.ranges
  ["DtzBvakaeaBkxbhbabababababababababababababababababababababababababababbbabababababababbb",
   "ababababababababababababababababababababababacababccabacadbeacadccacababacabbbacadabacbc",
   "cgacacababababababababbbababababababababbcabadababababababababababababababababababababab",
   "ababababababababgcacbbaeababababCqcBihbBeeDsaBrabadacdsaBbBibbdcbabababababababababababe",
   "bacacbBzBvbababababababababababababababababajabababababababababababababababababababababa",
   "bababababacababababababbbabababababababababababababababababababababababababababababababa",
   "babababababababababababababababaBwBoEHbBqbdBDgfDFuibaEnHjCnababababababababababababababa",
   "babababababababababababababababababababababababababababababababababababababababababababa",
   "babababababababababababababababibabababababababababababababababababababababababababababa",
   "bababababababababababababababababababababiifkhihifkhihinchihihiebbgadcbbidcbihkcbbEranaq",
   "mEfadbdaBbaeaeacbideaBhpeaBGlzCTqBvbadbbababaeabbbhdabababababababababababababababababab",
   "abababababababababababababababababababababababababababababababbhabaeamBlbafaBTWdabababab",
   "ababababababababababababababababababatabababababababababababababcFdababababababcbabababa",
   "bababababababababababababababababababababababababababjbabacababababaeabacabcbabababababa",
   "babababafafabababababababaeabacabababababababavdbabcBFpBqbngDbBEAigmeBOzzBVhBnFgBjFzkbob",
   "gbbRjaccbBpbiBXlByEvvEGoBfBGJwBfChyBMJezBagbrBazBadbabgbkBazBazBazBazBazBazBazBazBaBbBcy",
   "bfBaybfBaybfBaybfBaybfbaCSyjbtgfKbCjDHsBh"]

/-- The characters with the property Uppercase. -/
def uppercase : List (Nat × Nat) := CodeTable.ranges
  ["CnzDxwbgBhabababababababababababababababababababababababababababacabababababababacababab",
   "ababababababababababababababababababababbbabadbbabbbccdbbbcdbbbbababbbacabbbcbabbdahacac",
   "acabababababababacababababababababacacabcbababababababababababababababababababababababab",
   "abababababahbbbcabdbabababaLdabadaiagabcbabbbqbiBjaccdabababababababababababafacabbcByBw",
   "ababababababababababababababababajababababababababababababababababababababababababababab",
   "bbabababababacababababababababababababababababababababababababababababababababababababab",
   "ababababababababababacBlEHdBlbafaBBuDhDGlagBqccMiabababababababababababababababababababa",
   "babababababababababababababababababababababababababababababababababababababababababababa",
   "bababababababababababajababababababababababababababababababababababababababababababababa",
   "babababababababababababababababajhifkhihiflabababaihCudmdmdmeldKcaeadccccadegabababdcdkb",
   "faBaptaBFmzCSuBvBwabccabababdbacaicbabababababababababababababababababababababababababab",
   "ababababababababababababababababababababababaiabaeaBTYjababababababababababababababababa",
   "babababababatabababababababababababababaFfababababababadabababababababababababababababab",
   "ababababababababababababababakababbbabababaeabacabadababababababababababebebabababababab",
   "abdbabbbabababababababayaBHAhzBUzBnFgBjGakbobgbbCQcByGbvEGoBfBGJwBfCmyBMJfzBazBazBaabbca",
   "cbcdbhBazBabbdchbgBbbbdbebadgBbzBazBazBazBazBazBeyBhyBhyBhyBhyBhaGNlBhDBizgzgz"]

/-- The characters with the property Grapheme_Extend. -/
def graphemeExtend : List (Nat × Nat) := CodeTable.ranges
  ["BDoEhKpgKdBsbabbbbbaCukBwuqaDxgcfcbbdBjaBeBaDnkCgijaydbibcbeBrcChiBqxbBfCdabaeheadgkbBda",
   "CgabacdiajakbBaacbCfaebebccdaBebdalbCfaeebbeaubwfbaCgabbbdiahckbBeaChabamajaBoadaCdabcfc",
   "bdhblbBdaCgacbbadcbdhblbBcbCfbbacdiajakbBdaCuaeaccbaiaDdacgmhDuacilgCvbBbababaCdnbebbfkb",
   "BjjaDydbfbbcbzbecqdnacbgapaBBbcBKkdBccBdbBebCmbbgiackjaBtcbaEnbBiaEocebjagcIlbcaCgabgbab",
   "achgjcaBwBtcludBwjecBmimbBgdcfCeabbdabeCehcbFwcbmbgeagadbHqClUeaHnBgEOccFlaDsBfVifEbbBSQ",
   "edbjBgbDcbKmadaeazbfaFvbBarnaBmhzkbaBscBwacdcbcaBkaCpfcbcbmaiaBvaBzabccbfbbaBqbiaJeacaea",
   "BDZsaBCjpqpOcbXhaIsaFteCMgcbbfdBoceaGjbWbdCneMfbCzfCskBxdEtaCcoBpacbkcBxdcbhaCjcBkebhCka",
   "mbCaibaidcaDrccdgacaGbadhvbCfbbabamajaogdeCpacfbacabcecbaobDhhccbaxaDdacfbacabbbbJbacdgb",
   "bbBbbDhhcabbEcabachDxabacdbeJzibbJlakdeaFodcbeaBgjBofcdiajfccBumbbHqabcbaHtgbfbaDevcgbbb",
   "bEsfdabbbgbaCubdabaNjblbCaefcxaHXtagoQYyldcDSaeChgBOiaCldDdalbBDAxbGYzBtcwUwedfihcgBedFs",
   "cCYdCceBxiaoaweboCAigbqcgbbbeDwaGegOlaCjdTodJubJjacahbfaSggEfgBTCAfDrEyJf"]

end CharProperty

end ElementFinder
