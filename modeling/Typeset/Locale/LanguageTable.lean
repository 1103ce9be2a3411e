/-! The languages that have a two-letter code. -/

namespace Typeset.Locale

set_option maxRecDepth 4000

/-- Two-letter codes with the other names of the language, all in lower case. -/
def languageTable : List (String × List String) := [
  ("aa", ["aar", "afar"]),
  ("ab", ["abk", "abkhazian"]),
  ("ae", ["ave", "avestan"]),
  ("af", ["afr", "afrikaans"]),
  ("ak", ["aka", "akan", "m"]),
  ("am", ["amh", "amharic"]),
  ("an", ["aragonese", "arg"]),
  ("ar", ["ara", "arabic"]),
  ("as", ["asm", "assamese"]),
  ("av", ["ava", "avaric"]),
  ("ay", ["aym", "aymara"]),
  ("az", ["aze", "azerbaijani"]),
  ("ba", ["bak", "bashkir"]),
  ("be", ["bel", "belarusian"]),
  ("bg", ["bul", "bulgarian"]),
  ("bi", ["bis", "bislama"]),
  ("bm", ["bam", "bambara"]),
  ("bn", ["bangla", "ben", "bengali"]),
  ("bo", ["bod", "tib", "tibetan"]),
  ("br", ["bre", "breton"]),
  ("bs", ["bos", "bosnian"]),
  ("ca", ["cat", "catalan"]),
  ("ce", ["che", "chechen"]),
  ("ch", ["cha", "chamorro"]),
  ("co", ["corsican", "cos"]),
  ("cr", ["cre", "cree"]),
  ("cs", ["ces", "cze", "czech"]),
  ("cu", ["chu", "church slavic", "slavic, church"]),
  ("cv", ["chuvash", "chv"]),
  ("cy", ["cym", "wel", "welsh"]),
  ("da", ["dan", "danish"]),
  ("de", ["deu", "ger", "german"]),
  ("dv", ["div", "divehi"]),
  ("dz", ["dzo", "dzongkha"]),
  ("ee", ["ewe"]),
  ("el", ["ell", "gre", "greek, modern (1453-)", "modern greek (1453-)"]),
  ("en", ["eng", "english"]),
  ("eo", ["epo", "esperanto"]),
  ("es", ["spa", "spanish"]),
  ("et", ["est", "estonian"]),
  ("eu", ["baq", "basque", "eus"]),
  ("fa", ["fas", "per", "persian"]),
  ("ff", ["ful", "fulah"]),
  ("fi", ["fin", "finnish"]),
  ("fj", ["fij", "fijian"]),
  ("fo", ["fao", "faroese"]),
  ("fr", ["fra", "fre", "french"]),
  ("fy", ["frisian, western", "fry", "western frisian"]),
  ("ga", ["gle", "irish"]),
  ("gd", ["gaelic, scottish", "gla", "scottish gaelic"]),
  ("gl", ["galician", "glg"]),
  ("gn", ["grn", "guarani"]),
  ("gu", ["guj", "gujarati"]),
  ("gv", ["glv", "manx"]),
  ("ha", ["hau", "hausa"]),
  ("he", ["heb", "hebrew"]),
  ("hi", ["hin", "hindi"]),
  ("ho", ["hiri motu", "hmo"]),
  ("hr", ["croatian", "hrv"]),
  ("ht", ["haitian", "hat"]),
  ("hu", ["hun", "hungarian"]),
  ("hy", ["arm", "armenian", "hye"]),
  ("hz", ["her", "herero"]),
  ("ia", ["ina", "interlingua (international auxiliary language association)"]),
  ("id", ["ind", "indonesian"]),
  ("ie", ["ile", "interlingue"]),
  ("ig", ["ibo", "igbo"]),
  ("ii", ["iii", "sichuan yi", "yi, sichuan"]),
  ("ik", ["inupiaq", "ipk"]),
  ("io", ["ido"]),
  ("is", ["ice", "icelandic", "isl"]),
  ("it", ["ita", "italian"]),
  ("iu", ["iku", "inuktitut"]),
  ("ja", ["japanese", "jpn"]),
  ("jv", ["jav", "javanese"]),
  ("ka", ["geo", "georgian", "kat"]),
  ("kg", ["kon", "kongo"]),
  ("ki", ["kik", "kikuyu"]),
  ("kj", ["kua", "kuanyama"]),
  ("kk", ["kaz", "kazakh"]),
  ("kl", ["kal", "kalaallisut"]),
  ("km", ["khm", "khmer"]),
  ("kn", ["kan", "kannada"]),
  ("ko", ["kor", "korean"]),
  ("kr", ["kanuri", "kau"]),
  ("ks", ["kas", "kashmiri"]),
  ("ku", ["kur", "kurdish"]),
  ("kv", ["kom", "komi"]),
  ("kw", ["cor", "cornish"]),
  ("ky", ["kir", "kirghiz"]),
  ("la", ["lat", "latin"]),
  ("lb", ["ltz", "luxembourgish"]),
  ("lg", ["ganda", "lug"]),
  ("li", ["lim", "limburgan"]),
  ("ln", ["lin", "lingala"]),
  ("lo", ["lao"]),
  ("lt", ["lit", "lithuanian"]),
  ("lu", ["lub", "luba-katanga"]),
  ("lv", ["latvian", "lav"]),
  ("mg", ["malagasy", "mlg"]),
  ("mh", ["mah", "marshallese"]),
  ("mi", ["mao", "maori", "mri"]),
  ("mk", ["mac", "macedonian", "mkd"]),
  ("ml", ["mal", "malayalam"]),
  ("mn", ["mon", "mongolian"]),
  ("mr", ["mar", "marathi"]),
  ("ms", ["malay (macrolanguage)", "may", "msa"]),
  ("mt", ["maltese", "mlt"]),
  ("my", ["bur", "burmese", "mya"]),
  ("na", ["nau", "nauru"]),
  ("nb", ["nob", "norwegian bokmål"]),
  ("nd", ["nde", "ndebele, north", "north ndebele"]),
  ("ne", ["nep", "nepali (macrolanguage)"]),
  ("ng", ["ndo", "ndonga"]),
  ("nl", ["dut", "dutch", "nld"]),
  ("nn", ["nno", "norwegian nynorsk"]),
  ("no", ["nor", "norwegian"]),
  ("nr", ["nbl", "ndebele, south", "south ndebele"]),
  ("nv", ["nav", "navajo"]),
  ("ny", ["chichewa", "nya"]),
  ("oc", ["occitan (post 1500)", "oci"]),
  ("oj", ["oji", "ojibwa"]),
  ("om", ["orm", "oromo"]),
  ("or", ["ori", "oriya (macrolanguage)"]),
  ("os", ["oss", "ossetian"]),
  ("pa", ["pan", "panjabi"]),
  ("pi", ["pali", "pli"]),
  ("pl", ["pol", "polish"]),
  ("ps", ["pus", "pushto"]),
  ("pt", ["por", "portuguese"]),
  ("qu", ["que", "quechua"]),
  ("rm", ["roh", "romansh"]),
  ("rn", ["run", "rundi"]),
  ("ro", ["romanian", "ron", "rum"]),
  ("ru", ["rus", "russian"]),
  ("rw", ["kin", "kinyarwanda"]),
  ("sa", ["san", "sanskrit"]),
  ("sc", ["sardinian", "srd"]),
  ("sd", ["sindhi", "snd"]),
  ("se", ["northern sami", "sami, northern", "sme"]),
  ("sg", ["sag", "sango"]),
  ("sh", ["hbs", "serbo-croatian"]),
  ("si", ["sin", "sinhala"]),
  ("sk", ["slk", "slo", "slovak"]),
  ("sl", ["slovenian", "slv"]),
  ("sm", ["samoan", "smo"]),
  ("sn", ["shona", "sna"]),
  ("so", ["som", "somali"]),
  ("sq", ["alb", "albanian", "sqi"]),
  ("sr", ["serbian", "srp"]),
  ("ss", ["ssw", "swati"]),
  ("st", ["sot", "sotho, southern", "southern sotho"]),
  ("su", ["sun", "sundanese"]),
  ("sv", ["swe", "swedish"]),
  ("sw", ["swa", "swahili (macrolanguage)"]),
  ("ta", ["tam", "tamil"]),
  ("te", ["tel", "telugu"]),
  ("tg", ["tajik", "tgk"]),
  ("th", ["tha", "thai"]),
  ("ti", ["tigrinya", "tir"]),
  ("tk", ["tuk", "turkmen"]),
  ("tl", ["tagalog", "tgl"]),
  ("tn", ["tsn", "tswana"]),
  ("to", ["ton", "tonga (tonga islands)"]),
  ("tr", ["tur", "turkish"]),
  ("ts", ["tso", "tsonga"]),
  ("tt", ["tat", "tatar"]),
  ("tw", ["twi"]),
  ("ty", ["tah", "tahitian"]),
  ("ug", ["uig", "uighur"]),
  ("uk", ["ukr", "ukrainian"]),
  ("ur", ["urd", "urdu"]),
  ("uz", ["uzb", "uzbek"]),
  ("ve", ["ven", "venda"]),
  ("vi", ["vie", "vietnamese"]),
  ("vo", ["vol", "volapük"]),
  ("wa", ["walloon", "wln"]),
  ("wo", ["wol", "wolof"]),
  ("xh", ["xho", "xhosa"]),
  ("yi", ["yid", "yiddish"]),
  ("yo", ["yor", "yoruba"]),
  ("za", ["zha", "zhuang"]),
  ("zh", ["chi", "chinese", "zho"]),
  ("zu", ["zul", "zulu"])]

end Typeset.Locale
