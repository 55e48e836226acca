import LinkedData.Text.Affix

/-!
# Names of character properties

The names by which a regular expression may ask for a class of characters, `\p{…}`. Names
are compared loosely: case, spaces, hyphens and underscores do not matter, nor does `is` in
front. A name alone is a yes-or-no property, a general category or a script; a name with a
value is one of a few properties with the value it must have.
-/

namespace LinkedData.Regex

/-- The yes-or-no properties, short and long names. -/
def booleanNames : List String :=
  ["ahex", "asciihexdigit", "alpha", "alphabetic", "bidic", "bidicontrol", "ci", "caseignorable",
   "cased", "cwcf", "changeswhencasefolded", "cwcm", "changeswhencasemapped", "cwl",
   "changeswhenlowercased", "cwt", "changeswhentitlecased", "cwu", "changeswhenuppercased", "dash",
   "di", "defaultignorablecodepoint", "dep", "deprecated", "dia", "diacritic", "emoji", "ecomp",
   "emojicomponent", "emod", "emojimodifier", "ebase", "emojimodifierbase", "epres",
   "emojipresentation", "extpict", "extendedpictographic", "ext", "extender", "grbase",
   "graphemebase", "grext", "graphemeextend", "grlink", "graphemelink", "hex", "hexdigit", "hyphen",
   "idsb", "idsbinaryoperator", "idst", "idstrinaryoperator", "idsu", "idsunaryoperator",
   "idcompatmathcontinue", "idcompatmathstart", "idc", "idcontinue", "ids", "idstart", "ideo",
   "ideographic", "joinc", "joincontrol", "loe", "logicalorderexception", "lower", "lowercase",
   "math", "mcm", "modifiercombiningmark", "nchar", "noncharactercodepoint", "oalpha",
   "otheralphabetic", "odi", "otherdefaultignorablecodepoint", "ogrext", "othergraphemeextend",
   "oidc", "otheridcontinue", "oids", "otheridstart", "olower", "otherlowercase", "omath",
   "othermath", "oupper", "otheruppercase", "patsyn", "patternsyntax", "patws", "patternwhitespace",
   "pcm", "prependedconcatenationmark", "qmark", "quotationmark", "radical", "ri",
   "regionalindicator", "sterm", "sentenceterminal", "sd", "softdotted", "term",
   "terminalpunctuation", "uideo", "unifiedideograph", "upper", "uppercase", "vs",
   "variationselector", "wspace", "whitespace", "space", "xidc", "xidcontinue", "xids", "xidstart"]

/-- The general categories, short and long names. -/
def categoryNames : List String :=
  ["any", "assigned", "ascii", "c", "other", "cc", "control", "cntrl", "cf", "format", "cn",
   "unassigned", "co", "privateuse", "l", "letter", "lc", "casedletter", "ll", "lowercaseletter",
   "lm", "modifierletter", "lo", "otherletter", "lt", "titlecaseletter", "lu", "uppercaseletter",
   "m", "mark", "combiningmark", "mc", "spacingmark", "me", "enclosingmark", "mn", "nonspacingmark",
   "n", "number", "nd", "decimalnumber", "digit", "nl", "letternumber", "no", "othernumber", "p",
   "punctuation", "punct", "pc", "connectorpunctuation", "pd", "dashpunctuation", "pe",
   "closepunctuation", "pf", "finalpunctuation", "pi", "initialpunctuation", "po",
   "otherpunctuation", "ps", "openpunctuation", "s", "symbol", "sc", "currencysymbol", "sk",
   "modifiersymbol", "sm", "mathsymbol", "so", "othersymbol", "z", "separator", "zl",
   "lineseparator", "zp", "paragraphseparator", "zs", "spaceseparator"]

/-- The scripts, short and long names. -/
def scriptNames : List String :=
  ["adlam", "adlm", "aghb", "ahom", "anatolianhieroglyphs", "arab", "arabic", "armenian",
   "armi", "armn", "avestan", "avst", "bali", "balinese", "bamu", "bamum", "bass", "bassavah",
   "batak", "batk", "beng", "bengali", "bhaiksuki", "bhks", "bopo", "bopomofo", "brah", "brahmi",
   "brai", "braille", "bugi", "buginese", "buhd", "buhid", "cakm", "canadianaboriginal", "cans",
   "cari", "carian", "caucasianalbanian", "chakma", "cham", "cher", "cherokee", "chorasmian",
   "chrs", "common", "copt", "coptic", "cpmn", "cprt", "cuneiform", "cypriot", "cyprominoan",
   "cyrillic", "cyrl", "deseret", "deva", "devanagari", "diak", "divesakuru", "dogr", "dogra",
   "dsrt", "dupl", "duployan", "egyp", "egyptianhieroglyphs", "elba", "elbasan", "elym", "elymaic",
   "ethi", "ethiopic", "gara", "garay", "geor", "georgian", "glag", "glagolitic", "gong", "gonm",
   "goth", "gothic", "gran", "grantha", "greek", "grek", "gujarati", "gujr", "gukh", "gunjalagondi",
   "gurmukhi", "guru", "gurungkhema", "han", "hang", "hangul", "hani", "hanifirohingya", "hano",
   "hanunoo", "hatr", "hatran", "hebr", "hebrew", "hira", "hiragana", "hluw", "hmng", "hmnp",
   "hung", "imperialaramaic", "inherited", "inscriptionalpahlavi", "inscriptionalparthian", "ital",
   "java", "javanese", "kaithi", "kali", "kana", "kannada", "katakana", "kawi", "kayahli", "khar",
   "kharoshthi", "khitansmallscript", "khmer", "khmr", "khoj", "khojki", "khudawadi", "kiratrai",
   "kits", "knda", "krai", "kthi", "lana", "lao", "laoo", "latin", "latn", "lepc", "lepcha", "limb",
   "limbu", "lina", "linb", "lineara", "linearb", "lisu", "lyci", "lycian", "lydi", "lydian",
   "mahajani", "mahj", "maka", "makasar", "malayalam", "mand", "mandaic", "mani", "manichaean",
   "marc", "marchen", "masaramgondi", "medefaidrin", "medf", "meeteimayek", "mend", "mendekikakui",
   "merc", "mero", "meroiticcursive", "meroitichieroglyphs", "miao", "mlym", "modi", "mong",
   "mongolian", "mro", "mroo", "mtei", "mult", "multani", "myanmar", "mymr", "nabataean", "nagm",
   "nagmundari", "nand", "nandinagari", "narb", "nbat", "newa", "newtailue", "nko", "nkoo", "nshu",
   "nushu", "nyiakengpuachuehmong", "ogam", "ogham", "olchiki", "olck", "oldhungarian", "olditalic",
   "oldnortharabian", "oldpermic", "oldpersian", "oldsogdian", "oldsoutharabian", "oldturkic",
   "olduyghur", "olonal", "onao", "oriya", "orkh", "orya", "osage", "osge", "osma", "osmanya",
   "ougr", "pahawhhmong", "palm", "palmyrene", "pauc", "paucinhau", "perm", "phag", "phagspa",
   "phli", "phlp", "phnx", "phoenician", "plrd", "prti", "psalterpahlavi", "qaac", "qaai", "rejang",
   "rjng", "rohg", "runic", "runr", "samaritan", "samr", "sarb", "saur", "saurashtra", "sgnw",
   "sharada", "shavian", "shaw", "shrd", "sidd", "siddham", "signwriting", "sind", "sinh",
   "sinhala", "sogd", "sogdian", "sogo", "sora", "sorasompeng", "soyo", "soyombo", "sund",
   "sundanese", "sunu", "sunuwar", "sylo", "sylotinagri", "syrc", "syriac", "tagalog", "tagb",
   "tagbanwa", "taile", "taitham", "taiviet", "takr", "takri", "tale", "talu", "tamil", "taml",
   "tang", "tangsa", "tangut", "tavt", "telu", "telugu", "tfng", "tglg", "thaa", "thaana", "thai",
   "tibetan", "tibt", "tifinagh", "tirh", "tirhuta", "tnsa", "todhri", "todr", "toto",
   "tulutigalari", "tutg", "ugar", "ugaritic", "vai", "vaii", "vith", "vithkuqi", "wancho", "wara",
   "warangciti", "wcho", "xpeo", "xsux", "yezi", "yezidi", "yi", "yiii", "zanabazarsquare", "zanb",
   "zinh", "zyyy"]

/-- The versions in which characters were added. -/
def ageNames : List String :=
  ["1.1", "v11", "2.0", "v20", "2.1", "v21", "3.0", "v30", "3.1", "v31", "3.2", "v32", "4.0", "v40",
   "4.1", "v41", "5.0", "v50", "5.1", "v51", "5.2", "v52", "6.0", "v60", "6.1", "v61", "6.2", "v62",
   "6.3", "v63", "7.0", "v70", "8.0", "v80", "9.0", "v90", "10.0", "v100", "11.0", "v110", "12.0",
   "v120", "12.1", "v121", "13.0", "v130", "14.0", "v140", "15.0", "v150", "15.1", "v151", "16.0",
   "v160"]

/-- The classes of characters at grapheme boundaries. -/
def graphemeBreakNames : List String :=
  ["cn", "control", "cr", "ex", "extend", "l", "lf", "lv", "lvt", "pp", "prepend", "ri",
   "regionalindicator", "sm", "spacingmark", "t", "v", "zwj"]

/-- The classes of characters at word boundaries. -/
def wordBreakNames : List String :=
  ["le", "aletter", "cr", "dq", "doublequote", "extend", "ex", "extendnumlet", "fo", "format", "hl",
   "hebrewletter", "ka", "katakana", "lf", "ml", "midletter", "mn", "midnum", "mb", "midnumlet",
   "nl", "newline", "nu", "numeric", "ri", "regionalindicator", "sq", "singlequote", "wsegspace",
   "zwj"]

/-- The classes of characters at sentence boundaries. -/
def sentenceBreakNames : List String :=
  ["at", "aterm", "cr", "cl", "close", "ex", "extend", "fo", "format", "lf", "lo", "lower", "nu",
   "numeric", "le", "oletter", "sc", "scontinue", "st", "sterm", "se", "sep", "sp", "up", "upper"]

/-- Is the character dropped from a name before it is compared? -/
def isNameFiller (c : Char) : Bool :=
  c == ' ' || c == '_' || c == '-' || 127 < c.toNat

/-- The form in which names are compared. `isc` is a name of its own and keeps its `is`. -/
def looseName (name : String) : String :=
  let kept := fun (cs : List Char) =>
    String.ofList ((cs.filter fun c => !isNameFiller c).map Char.toLower)
  match name.toList with
  | i :: s :: rest =>
    if (i == 'i' || i == 'I') && (s == 's' || s == 'S') then
      let inner := kept rest
      if inner = "c" then "isc" else inner
    else kept (i :: s :: rest)
  | cs => kept cs

/-- Is there a property, category or script of this name? -/
def isClassName (name : String) : Bool :=
  let name := looseName name
  booleanNames.contains name || categoryNames.contains name || scriptNames.contains name

/-- Is there a property of this name that can have this value? -/
def isClassValue (name value : String) : Bool :=
  let name := looseName name
  let value := looseName value
  if name = "gc" || name = "generalcategory" then categoryNames.contains value
  else if name = "sc" || name = "script" || name = "scx" || name = "scriptextensions" then
    scriptNames.contains value
  else if name = "age" then ageNames.contains value
  else if name = "gcb" || name = "graphemeclusterbreak" then graphemeBreakNames.contains value
  else if name = "wb" || name = "wordbreak" then wordBreakNames.contains value
  else if name = "sb" || name = "sentencebreak" then sentenceBreakNames.contains value
  else false

/-- The characters before and after the first place where the piece stands. -/
def splitAtFirst? (piece : List Char) : List Char → Option (List Char × List Char)
  | [] => none
  | c :: rest =>
    match Text.dropFront? piece (c :: rest) with
    | some after => some ([], after)
    | none => (splitAtFirst? piece rest).map fun (before, after) => (c :: before, after)

/-- Is there a class for what stands between the braces: a name, or a name and a value with
`!=`, `:` or `=` between them? -/
def isClassQuery (inner : List Char) : Bool :=
  let parts :=
    (splitAtFirst? ['!', '='] inner).or
      ((splitAtFirst? [':'] inner).or (splitAtFirst? ['='] inner))
  match parts with
  | some (name, value) => isClassValue (String.ofList name) (String.ofList value)
  | none => isClassName (String.ofList inner)

end LinkedData.Regex
