/-! The countries and territories that have a two-letter code. -/

namespace Typeset.Locale

set_option maxRecDepth 4000

/-- Two-letter codes in lower case with the other names of the region, all in lower case. -/
def regionTable : List (String × List String) := [
  ("ad", ["020", "and", "andorra", "principality of andorra", "🇦🇩"]),
  ("ae", ["784", "are", "united arab emirates", "🇦🇪"]),
  ("af", ["004", "afg", "afghanistan", "islamic republic of afghanistan", "🇦🇫"]),
  ("ag", ["028", "antigua and barbuda", "atg", "🇦🇬"]),
  ("ai", ["660", "aia", "anguilla", "🇦🇮"]),
  ("al", ["008", "alb", "albania", "republic of albania", "🇦🇱"]),
  ("am", ["051", "arm", "armenia", "republic of armenia", "🇦🇲"]),
  ("ao", ["024", "ago", "angola", "republic of angola", "🇦🇴"]),
  ("aq", ["010", "antarctica", "ata", "🇦🇶"]),
  ("ar", ["032", "arg", "argentina", "argentine republic", "🇦🇷"]),
  ("as", ["016", "american samoa", "asm", "🇦🇸"]),
  ("at", ["040", "austria", "aut", "republic of austria", "🇦🇹"]),
  ("au", ["036", "aus", "australia", "🇦🇺"]),
  ("aw", ["533", "abw", "aruba", "🇦🇼"]),
  ("ax", ["248", "ala", "åland islands", "🇦🇽"]),
  ("az", ["031", "aze", "azerbaijan", "republic of azerbaijan", "🇦🇿"]),
  ("ba", ["070", "bih", "bosnia and herzegovina", "republic of bosnia and herzegovina", "🇧🇦"]),
  ("bb", ["052", "barbados", "brb", "🇧🇧"]),
  ("bd", ["050", "bangladesh", "bgd", "people's republic of bangladesh", "🇧🇩"]),
  ("be", ["056", "bel", "belgium", "kingdom of belgium", "🇧🇪"]),
  ("bf", ["854", "bfa", "burkina faso", "🇧🇫"]),
  ("bg", ["100", "bgr", "bulgaria", "republic of bulgaria", "🇧🇬"]),
  ("bh", ["048", "bahrain", "bhr", "kingdom of bahrain", "🇧🇭"]),
  ("bi", ["108", "bdi", "burundi", "republic of burundi", "🇧🇮"]),
  ("bj", ["204", "ben", "benin", "republic of benin", "🇧🇯"]),
  ("bl", ["652", "blm", "saint barthélemy", "🇧🇱"]),
  ("bm", ["060", "bermuda", "bmu", "🇧🇲"]),
  ("bn", ["096", "brn", "brunei darussalam", "🇧🇳"]),
  ("bo", ["068", "bol", "bolivia", "bolivia, plurinational state of",
    "plurinational state of bolivia", "🇧🇴"]),
  ("bq", ["535", "bes", "bonaire, sint eustatius and saba", "🇧🇶"]),
  ("br", ["076", "bra", "brazil", "federative republic of brazil", "🇧🇷"]),
  ("bs", ["044", "bahamas", "bhs", "commonwealth of the bahamas", "🇧🇸"]),
  ("bt", ["064", "bhutan", "btn", "kingdom of bhutan", "🇧🇹"]),
  ("bv", ["074", "bouvet island", "bvt", "🇧🇻"]),
  ("bw", ["072", "botswana", "bwa", "republic of botswana", "🇧🇼"]),
  ("by", ["112", "belarus", "blr", "republic of belarus", "🇧🇾"]),
  ("bz", ["084", "belize", "blz", "🇧🇿"]),
  ("ca", ["124", "can", "canada", "🇨🇦"]),
  ("cc", ["166", "cck", "cocos (keeling) islands", "🇨🇨"]),
  ("cd", ["180", "cod", "congo, the democratic republic of the", "🇨🇩"]),
  ("cf", ["140", "caf", "central african republic", "🇨🇫"]),
  ("cg", ["178", "cog", "congo", "republic of the congo", "🇨🇬"]),
  ("ch", ["756", "che", "swiss confederation", "switzerland", "🇨🇭"]),
  ("ci", ["384", "civ", "côte d'ivoire", "republic of côte d'ivoire", "🇨🇮"]),
  ("ck", ["184", "cok", "cook islands", "🇨🇰"]),
  ("cl", ["152", "chile", "chl", "republic of chile", "🇨🇱"]),
  ("cm", ["120", "cameroon", "cmr", "republic of cameroon", "🇨🇲"]),
  ("cn", ["156", "china", "chn", "people's republic of china", "🇨🇳"]),
  ("co", ["170", "col", "colombia", "republic of colombia", "🇨🇴"]),
  ("cr", ["188", "costa rica", "cri", "republic of costa rica", "🇨🇷"]),
  ("cu", ["192", "cub", "cuba", "republic of cuba", "🇨🇺"]),
  ("cv", ["132", "cabo verde", "cpv", "republic of cabo verde", "🇨🇻"]),
  ("cw", ["531", "curaçao", "cuw", "🇨🇼"]),
  ("cx", ["162", "christmas island", "cxr", "🇨🇽"]),
  ("cy", ["196", "cyp", "cyprus", "republic of cyprus", "🇨🇾"]),
  ("cz", ["203", "cze", "czech republic", "czechia", "🇨🇿"]),
  ("de", ["276", "deu", "federal republic of germany", "germany", "🇩🇪"]),
  ("dj", ["262", "dji", "djibouti", "republic of djibouti", "🇩🇯"]),
  ("dk", ["208", "denmark", "dnk", "kingdom of denmark", "🇩🇰"]),
  ("dm", ["212", "commonwealth of dominica", "dma", "dominica", "🇩🇲"]),
  ("do", ["214", "dom", "dominican republic", "🇩🇴"]),
  ("dz", ["012", "algeria", "dza", "people's democratic republic of algeria", "🇩🇿"]),
  ("ec", ["218", "ecu", "ecuador", "republic of ecuador", "🇪🇨"]),
  ("ee", ["233", "est", "estonia", "republic of estonia", "🇪🇪"]),
  ("eg", ["818", "arab republic of egypt", "egy", "egypt", "🇪🇬"]),
  ("eh", ["732", "esh", "western sahara", "🇪🇭"]),
  ("er", ["232", "eri", "eritrea", "the state of eritrea", "🇪🇷"]),
  ("es", ["724", "esp", "kingdom of spain", "spain", "🇪🇸"]),
  ("et", ["231", "eth", "ethiopia", "federal democratic republic of ethiopia", "🇪🇹"]),
  ("fi", ["246", "fin", "finland", "republic of finland", "🇫🇮"]),
  ("fj", ["242", "fiji", "fji", "republic of fiji", "🇫🇯"]),
  ("fk", ["238", "falkland islands (malvinas)", "flk", "🇫🇰"]),
  ("fm", ["583", "federated states of micronesia", "fsm", "micronesia, federated states of",
    "🇫🇲"]),
  ("fo", ["234", "faroe islands", "fro", "🇫🇴"]),
  ("fr", ["250", "fra", "france", "french republic", "🇫🇷"]),
  ("ga", ["266", "gab", "gabon", "gabonese republic", "🇬🇦"]),
  ("gb", ["826", "gbr", "united kingdom", "united kingdom of great britain and northern ireland",
    "🇬🇧"]),
  ("gd", ["308", "grd", "grenada", "🇬🇩"]),
  ("ge", ["268", "geo", "georgia", "🇬🇪"]),
  ("gf", ["254", "french guiana", "guf", "🇬🇫"]),
  ("gg", ["831", "ggy", "guernsey", "🇬🇬"]),
  ("gh", ["288", "gha", "ghana", "republic of ghana", "🇬🇭"]),
  ("gi", ["292", "gib", "gibraltar", "🇬🇮"]),
  ("gl", ["304", "greenland", "grl", "🇬🇱"]),
  ("gm", ["270", "gambia", "gmb", "republic of the gambia", "🇬🇲"]),
  ("gn", ["324", "gin", "guinea", "republic of guinea", "🇬🇳"]),
  ("gp", ["312", "glp", "guadeloupe", "🇬🇵"]),
  ("gq", ["226", "equatorial guinea", "gnq", "republic of equatorial guinea", "🇬🇶"]),
  ("gr", ["300", "grc", "greece", "hellenic republic", "🇬🇷"]),
  ("gs", ["239", "sgs", "south georgia and the south sandwich islands", "🇬🇸"]),
  ("gt", ["320", "gtm", "guatemala", "republic of guatemala", "🇬🇹"]),
  ("gu", ["316", "guam", "gum", "🇬🇺"]),
  ("gw", ["624", "gnb", "guinea-bissau", "republic of guinea-bissau", "🇬🇼"]),
  ("gy", ["328", "guy", "guyana", "republic of guyana", "🇬🇾"]),
  ("hk", ["344", "hkg", "hong kong", "hong kong special administrative region of china", "🇭🇰"]),
  ("hm", ["334", "heard island and mcdonald islands", "hmd", "🇭🇲"]),
  ("hn", ["340", "hnd", "honduras", "republic of honduras", "🇭🇳"]),
  ("hr", ["191", "croatia", "hrv", "republic of croatia", "🇭🇷"]),
  ("ht", ["332", "haiti", "hti", "republic of haiti", "🇭🇹"]),
  ("hu", ["348", "hun", "hungary", "🇭🇺"]),
  ("id", ["360", "idn", "indonesia", "republic of indonesia", "🇮🇩"]),
  ("ie", ["372", "ireland", "irl", "🇮🇪"]),
  ("il", ["376", "isr", "israel", "state of israel", "🇮🇱"]),
  ("im", ["833", "imn", "isle of man", "🇮🇲"]),
  ("in", ["356", "ind", "india", "republic of india", "🇮🇳"]),
  ("io", ["086", "british indian ocean territory", "iot", "🇮🇴"]),
  ("iq", ["368", "iraq", "irq", "republic of iraq", "🇮🇶"]),
  ("ir", ["364", "iran", "iran, islamic republic of", "irn", "islamic republic of iran", "🇮🇷"]),
  ("is", ["352", "iceland", "isl", "republic of iceland", "🇮🇸"]),
  ("it", ["380", "ita", "italian republic", "italy", "🇮🇹"]),
  ("je", ["832", "jersey", "jey", "🇯🇪"]),
  ("jm", ["388", "jam", "jamaica", "🇯🇲"]),
  ("jo", ["400", "hashemite kingdom of jordan", "jor", "jordan", "🇯🇴"]),
  ("jp", ["392", "japan", "jpn", "🇯🇵"]),
  ("ke", ["404", "ken", "kenya", "republic of kenya", "🇰🇪"]),
  ("kg", ["417", "kgz", "kyrgyz republic", "kyrgyzstan", "🇰🇬"]),
  ("kh", ["116", "cambodia", "khm", "kingdom of cambodia", "🇰🇭"]),
  ("ki", ["296", "kir", "kiribati", "republic of kiribati", "🇰🇮"]),
  ("km", ["174", "com", "comoros", "union of the comoros", "🇰🇲"]),
  ("kn", ["659", "kna", "saint kitts and nevis", "🇰🇳"]),
  ("kp", ["408", "democratic people's republic of korea",
    "korea, democratic people's republic of", "north korea", "prk", "🇰🇵"]),
  ("kr", ["410", "kor", "korea, republic of", "south korea", "🇰🇷"]),
  ("kw", ["414", "kuwait", "kwt", "state of kuwait", "🇰🇼"]),
  ("ky", ["136", "cayman islands", "cym", "🇰🇾"]),
  ("kz", ["398", "kaz", "kazakhstan", "republic of kazakhstan", "🇰🇿"]),
  ("la", ["418", "lao", "lao people's democratic republic", "laos", "🇱🇦"]),
  ("lb", ["422", "lbn", "lebanese republic", "lebanon", "🇱🇧"]),
  ("lc", ["662", "lca", "saint lucia", "🇱🇨"]),
  ("li", ["438", "lie", "liechtenstein", "principality of liechtenstein", "🇱🇮"]),
  ("lk", ["144", "democratic socialist republic of sri lanka", "lka", "sri lanka", "🇱🇰"]),
  ("lr", ["430", "lbr", "liberia", "republic of liberia", "🇱🇷"]),
  ("ls", ["426", "kingdom of lesotho", "lesotho", "lso", "🇱🇸"]),
  ("lt", ["440", "lithuania", "ltu", "republic of lithuania", "🇱🇹"]),
  ("lu", ["442", "grand duchy of luxembourg", "lux", "luxembourg", "🇱🇺"]),
  ("lv", ["428", "latvia", "lva", "republic of latvia", "🇱🇻"]),
  ("ly", ["434", "lby", "libya", "🇱🇾"]),
  ("ma", ["504", "kingdom of morocco", "mar", "morocco", "🇲🇦"]),
  ("mc", ["492", "mco", "monaco", "principality of monaco", "🇲🇨"]),
  ("md", ["498", "mda", "moldova", "moldova, republic of", "republic of moldova", "🇲🇩"]),
  ("me", ["499", "mne", "montenegro", "🇲🇪"]),
  ("mf", ["663", "maf", "saint martin (french part)", "🇲🇫"]),
  ("mg", ["450", "madagascar", "mdg", "republic of madagascar", "🇲🇬"]),
  ("mh", ["584", "marshall islands", "mhl", "republic of the marshall islands", "🇲🇭"]),
  ("mk", ["807", "mkd", "north macedonia", "republic of north macedonia", "🇲🇰"]),
  ("ml", ["466", "mali", "mli", "republic of mali", "🇲🇱"]),
  ("mm", ["104", "mmr", "myanmar", "republic of myanmar", "🇲🇲"]),
  ("mn", ["496", "mng", "mongolia", "🇲🇳"]),
  ("mo", ["446", "mac", "macao", "macao special administrative region of china", "🇲🇴"]),
  ("mp", ["580", "commonwealth of the northern mariana islands", "mnp",
    "northern mariana islands", "🇲🇵"]),
  ("mq", ["474", "martinique", "mtq", "🇲🇶"]),
  ("mr", ["478", "islamic republic of mauritania", "mauritania", "mrt", "🇲🇷"]),
  ("ms", ["500", "montserrat", "msr", "🇲🇸"]),
  ("mt", ["470", "malta", "mlt", "republic of malta", "🇲🇹"]),
  ("mu", ["480", "mauritius", "mus", "republic of mauritius", "🇲🇺"]),
  ("mv", ["462", "maldives", "mdv", "republic of maldives", "🇲🇻"]),
  ("mw", ["454", "malawi", "mwi", "republic of malawi", "🇲🇼"]),
  ("mx", ["484", "mex", "mexico", "united mexican states", "🇲🇽"]),
  ("my", ["458", "malaysia", "mys", "🇲🇾"]),
  ("mz", ["508", "moz", "mozambique", "republic of mozambique", "🇲🇿"]),
  ("na", ["516", "nam", "namibia", "republic of namibia", "🇳🇦"]),
  ("nc", ["540", "ncl", "new caledonia", "🇳🇨"]),
  ("ne", ["562", "ner", "niger", "republic of the niger", "🇳🇪"]),
  ("nf", ["574", "nfk", "norfolk island", "🇳🇫"]),
  ("ng", ["566", "federal republic of nigeria", "nga", "nigeria", "🇳🇬"]),
  ("ni", ["558", "nic", "nicaragua", "republic of nicaragua", "🇳🇮"]),
  ("nl", ["528", "kingdom of the netherlands", "netherlands", "nld", "🇳🇱"]),
  ("no", ["578", "kingdom of norway", "nor", "norway", "🇳🇴"]),
  ("np", ["524", "federal democratic republic of nepal", "nepal", "npl", "🇳🇵"]),
  ("nr", ["520", "nauru", "nru", "republic of nauru", "🇳🇷"]),
  ("nu", ["570", "niu", "niue", "🇳🇺"]),
  ("nz", ["554", "new zealand", "nzl", "🇳🇿"]),
  ("om", ["512", "oman", "omn", "sultanate of oman", "🇴🇲"]),
  ("pa", ["591", "pan", "panama", "republic of panama", "🇵🇦"]),
  ("pe", ["604", "per", "peru", "republic of peru", "🇵🇪"]),
  ("pf", ["258", "french polynesia", "pyf", "🇵🇫"]),
  ("pg", ["598", "independent state of papua new guinea", "papua new guinea", "png", "🇵🇬"]),
  ("ph", ["608", "philippines", "phl", "republic of the philippines", "🇵🇭"]),
  ("pk", ["586", "islamic republic of pakistan", "pak", "pakistan", "🇵🇰"]),
  ("pl", ["616", "pol", "poland", "republic of poland", "🇵🇱"]),
  ("pm", ["666", "saint pierre and miquelon", "spm", "🇵🇲"]),
  ("pn", ["612", "pcn", "pitcairn", "🇵🇳"]),
  ("pr", ["630", "pri", "puerto rico", "🇵🇷"]),
  ("ps", ["275", "palestine, state of", "pse", "the state of palestine", "🇵🇸"]),
  ("pt", ["620", "portugal", "portuguese republic", "prt", "🇵🇹"]),
  ("pw", ["585", "palau", "plw", "republic of palau", "🇵🇼"]),
  ("py", ["600", "paraguay", "pry", "republic of paraguay", "🇵🇾"]),
  ("qa", ["634", "qat", "qatar", "state of qatar", "🇶🇦"]),
  ("re", ["638", "reu", "réunion", "🇷🇪"]),
  ("ro", ["642", "romania", "rou", "🇷🇴"]),
  ("rs", ["688", "republic of serbia", "serbia", "srb", "🇷🇸"]),
  ("ru", ["643", "rus", "russian federation", "🇷🇺"]),
  ("rw", ["646", "rwa", "rwanda", "rwandese republic", "🇷🇼"]),
  ("sa", ["682", "kingdom of saudi arabia", "sau", "saudi arabia", "🇸🇦"]),
  ("sb", ["090", "slb", "solomon islands", "🇸🇧"]),
  ("sc", ["690", "republic of seychelles", "seychelles", "syc", "🇸🇨"]),
  ("sd", ["729", "republic of the sudan", "sdn", "sudan", "🇸🇩"]),
  ("se", ["752", "kingdom of sweden", "swe", "sweden", "🇸🇪"]),
  ("sg", ["702", "republic of singapore", "sgp", "singapore", "🇸🇬"]),
  ("sh", ["654", "saint helena, ascension and tristan da cunha", "shn", "🇸🇭"]),
  ("si", ["705", "republic of slovenia", "slovenia", "svn", "🇸🇮"]),
  ("sj", ["744", "sjm", "svalbard and jan mayen", "🇸🇯"]),
  ("sk", ["703", "slovak republic", "slovakia", "svk", "🇸🇰"]),
  ("sl", ["694", "republic of sierra leone", "sierra leone", "sle", "🇸🇱"]),
  ("sm", ["674", "republic of san marino", "san marino", "smr", "🇸🇲"]),
  ("sn", ["686", "republic of senegal", "sen", "senegal", "🇸🇳"]),
  ("so", ["706", "federal republic of somalia", "som", "somalia", "🇸🇴"]),
  ("sr", ["740", "republic of suriname", "sur", "suriname", "🇸🇷"]),
  ("ss", ["728", "republic of south sudan", "south sudan", "ssd", "🇸🇸"]),
  ("st", ["678", "democratic republic of sao tome and principe", "sao tome and principe", "stp",
    "🇸🇹"]),
  ("sv", ["222", "el salvador", "republic of el salvador", "slv", "🇸🇻"]),
  ("sx", ["534", "sint maarten (dutch part)", "sxm", "🇸🇽"]),
  ("sy", ["760", "syr", "syria", "syrian arab republic", "🇸🇾"]),
  ("sz", ["748", "eswatini", "kingdom of eswatini", "swz", "🇸🇿"]),
  ("tc", ["796", "tca", "turks and caicos islands", "🇹🇨"]),
  ("td", ["148", "chad", "republic of chad", "tcd", "🇹🇩"]),
  ("tf", ["260", "atf", "french southern territories", "🇹🇫"]),
  ("tg", ["768", "tgo", "togo", "togolese republic", "🇹🇬"]),
  ("th", ["764", "kingdom of thailand", "tha", "thailand", "🇹🇭"]),
  ("tj", ["762", "republic of tajikistan", "tajikistan", "tjk", "🇹🇯"]),
  ("tk", ["772", "tkl", "tokelau", "🇹🇰"]),
  ("tl", ["626", "democratic republic of timor-leste", "timor-leste", "tls", "🇹🇱"]),
  ("tm", ["795", "tkm", "turkmenistan", "🇹🇲"]),
  ("tn", ["788", "republic of tunisia", "tun", "tunisia", "🇹🇳"]),
  ("to", ["776", "kingdom of tonga", "ton", "tonga", "🇹🇴"]),
  ("tr", ["792", "republic of türkiye", "tur", "türkiye", "🇹🇷"]),
  ("tt", ["780", "republic of trinidad and tobago", "trinidad and tobago", "tto", "🇹🇹"]),
  ("tv", ["798", "tuv", "tuvalu", "🇹🇻"]),
  ("tw", ["158", "taiwan", "taiwan, province of china", "twn", "🇹🇼"]),
  ("tz", ["834", "tanzania", "tanzania, united republic of", "tza",
    "united republic of tanzania", "🇹🇿"]),
  ("ua", ["804", "ukr", "ukraine", "🇺🇦"]),
  ("ug", ["800", "republic of uganda", "uga", "uganda", "🇺🇬"]),
  ("um", ["581", "umi", "united states minor outlying islands", "🇺🇲"]),
  ("us", ["840", "united states", "united states of america", "usa", "🇺🇸"]),
  ("uy", ["858", "eastern republic of uruguay", "uruguay", "ury", "🇺🇾"]),
  ("uz", ["860", "republic of uzbekistan", "uzb", "uzbekistan", "🇺🇿"]),
  ("va", ["336", "holy see (vatican city state)", "vat", "🇻🇦"]),
  ("vc", ["670", "saint vincent and the grenadines", "vct", "🇻🇨"]),
  ("ve", ["862", "bolivarian republic of venezuela", "ven", "venezuela",
    "venezuela, bolivarian republic of", "🇻🇪"]),
  ("vg", ["092", "british virgin islands", "vgb", "virgin islands, british", "🇻🇬"]),
  ("vi", ["850", "vir", "virgin islands of the united states", "virgin islands, u.s.", "🇻🇮"]),
  ("vn", ["704", "socialist republic of viet nam", "viet nam", "vietnam", "vnm", "🇻🇳"]),
  ("vu", ["548", "republic of vanuatu", "vanuatu", "vut", "🇻🇺"]),
  ("wf", ["876", "wallis and futuna", "wlf", "🇼🇫"]),
  ("ws", ["882", "independent state of samoa", "samoa", "wsm", "🇼🇸"]),
  ("ye", ["887", "republic of yemen", "yem", "yemen", "🇾🇪"]),
  ("yt", ["175", "mayotte", "myt", "🇾🇹"]),
  ("za", ["710", "republic of south africa", "south africa", "zaf", "🇿🇦"]),
  ("zm", ["894", "republic of zambia", "zambia", "zmb", "🇿🇲"]),
  ("zw", ["716", "republic of zimbabwe", "zimbabwe", "zwe", "🇿🇼"])]

end Typeset.Locale
