import Mathlib.Tactic.Common
import Typeset.FrontMatter

/-! The fields of a metadata block do not know of each other: each is read from its own keys, and a
value of the wrong shape brings one warning, which names its key and its kind. -/

namespace Typeset.FrontMatter

open Yaml (Reading lastUnder)

variable {entries : List (String × Reading)} {key : String} {v : Option Reading}
  {reading : Reading}

section Shape

/-- What the value of a field has to be. -/
inductive Shape
  | text
  | texts
  | textOrTexts
  | date

/-- A point in time keeps only its date. -/
def dateIn (s : String) : String :=
  ((Date.ofTimestamp? (Text.strip s).toList).map String.ofList).getD s

/-- What is kept of a value. Of a list these are its texts, in their order. -/
def Shape.kept : Shape → Reading → Option Value
  | .text, .text s | .textOrTexts, .text s => some (.str s)
  | .date, .text s => some (.str (dateIn s))
  | .texts, .list items | .textOrTexts, .list items => some (.ofTexts (items.filterMap id))
  | _, _ => none

/-- A value that has the shape in all its items, or says nothing. -/
def Shape.Fits : Shape → Reading → Prop
  | _, .null => True
  | .text, .text _ | .textOrTexts, .text _ | .date, .text _ => True
  | .texts, .list items | .textOrTexts, .list items => ∀ item ∈ items, item.isSome
  | _, _ => False

/-- Of a value that does not fit nothing is kept, unless it is a list with other items. -/
theorem Shape.kept_of_misfit {shape : Shape} (h : ¬shape.Fits reading) :
    shape.kept reading = none ∨ ∃ items, reading = .list items ∧
      shape.kept reading = some (.ofTexts (items.filterMap id)) := by
  cases reading with
  | list items =>
    cases shape with
    | text | date => exact .inl rfl
    | texts | textOrTexts => exact .inr ⟨items, rfl, rfl⟩
  | null => exact absurd trivial h
  | text s =>
    cases shape with
    | texts => exact .inl rfl
    | text | textOrTexts | date => exact absurd trivial h
  | other kind => cases shape <;> exact .inl rfl

/-- A warning about the value under a key. -/
structure Warns (key : String) (reading : Reading) (issue : Issue) : Prop where
  severity : issue.severity = .warning
  code : issue.code = .invalidMetadataField
  details : issue.details = [("field", .str key), ("field_type", .str reading.kindName)]

/-- What a field reports of the value under a key: as much as is kept, and one warning if that is
not all. -/
structure Reads (shape : Shape) (key : String) (v : Option Reading) (r : Reported Value) :
    Prop where
  answer : r.answer = (v.bind shape.kept).getD .null
  warned : ∀ reading, v = some reading → ¬shape.Fits reading →
    ∃ w, r.issues = [w] ∧ Warns key reading w
  silent : (∀ reading, v = some reading → shape.Fits reading) → r.issues = []

variable {shape : Shape} {r : Reported Value}

theorem warns_invalidField (key expected : String) (reading : Reading) :
    Warns key reading (invalidField key expected reading.kindName) := ⟨rfl, rfl, rfl⟩

theorem reads_none : Reads shape key none ⟨.null, []⟩ := by
  constructor <;> simp

/-- A value that fits and is kept as it is. -/
theorem reads_of_fits (h : shape.Fits reading) :
    Reads shape key (some reading) ⟨(shape.kept reading).getD .null, []⟩ := by
  constructor <;> simp [h]

/-- A value of which nothing is kept, and that is warned about. -/
theorem reads_of_misfit (expected : String) (hkept : shape.kept reading = none)
    (h : ¬shape.Fits reading) :
    Reads shape key (some reading) ⟨.null, [invalidField key expected reading.kindName]⟩ := by
  constructor
  case answer => simp [hkept]
  case warned =>
    rintro _ ⟨⟩ -
    exact ⟨_, rfl, warns_invalidField key expected reading⟩
  case silent => exact fun hfits => absurd (hfits reading rfl) h

/-- A list keeps its texts, and is warned about once, however many other items it has. -/
theorem reads_textItems {items : List (Option String)}
    (hkept : shape.kept (.list items) = some (.ofTexts (items.filterMap id)))
    (hfits : shape.Fits (.list items) ↔ ∀ item ∈ items, item.isSome) :
    Reads shape key (some (.list items)) (textItems key items) := by
  by_cases hall : ∀ item ∈ items, item.isSome
  · have h : Reads shape key (some (.list items))
        ⟨(shape.kept (.list items)).getD .null, []⟩ := reads_of_fits (hfits.mpr hall)
    rw [hkept] at h
    rwa [textItems, if_pos (List.all_eq_true.mpr hall)]
  · have hsome : items.all Option.isSome ≠ true := mt List.all_eq_true.mp hall
    rw [textItems, if_neg hsome]
    constructor
    case answer => simp [hkept]
    case warned =>
      rintro _ ⟨⟩ -
      exact ⟨_, rfl, warns_invalidField key "a list of strings" (.list items)⟩
    case silent => exact fun h => absurd (hfits.mp (h _ rfl)) hall

theorem reads_textField (key : String) (v : Option Reading) :
    Reads .text key v (textField key v) := by
  cases v with
  | none => exact reads_none
  | some reading =>
    cases reading with
    | null => exact reads_of_fits trivial
    | text s => exact reads_of_fits trivial
    | list items => exact reads_of_misfit "a string" rfl id
    | other kind => exact reads_of_misfit "a string" rfl id

theorem reads_textListField (key : String) (v : Option Reading) :
    Reads .texts key v (textListField key v) := by
  cases v with
  | none => exact reads_none
  | some reading =>
    cases reading with
    | null => exact reads_of_fits trivial
    | text s => exact reads_of_misfit "a list of strings" rfl id
    | list items => exact reads_textItems rfl Iff.rfl
    | other kind => exact reads_of_misfit "a list of strings" rfl id

theorem reads_authorField (v : Option Reading) :
    Reads .textOrTexts "author" v (authorField v) := by
  cases v with
  | none => exact reads_none
  | some reading =>
    cases reading with
    | null => exact reads_of_fits trivial
    | text s => exact reads_of_fits trivial
    | list items => exact reads_textItems rfl Iff.rfl
    | other kind => exact reads_of_misfit "a string or a list of strings" rfl id

theorem dateField_text (s : String) : dateField (some (.text s)) = ⟨.str (dateIn s), []⟩ := by
  rw [dateField, dateIn]
  cases Date.ofTimestamp? (Text.strip s).toList <;> rfl

theorem reads_dateField (v : Option Reading) : Reads .date "date" v (dateField v) := by
  cases v with
  | none => exact reads_none
  | some reading =>
    cases reading with
    | null => exact reads_of_fits trivial
    | text s =>
      rw [dateField_text]
      exact reads_of_fits trivial
    | list items => exact reads_of_misfit "a string or a date" rfl id
    | other kind => exact reads_of_misfit "a string or a date" rfl id

end Shape

/-! Which keys a field looks at, and what it comes to. -/

section Field

/-- The known fields. -/
inductive Field
  | title
  | author
  | authors
  | description
  | keywords
  | date
  | abstract
  | language
  | region
  deriving DecidableEq

namespace Field

/-- A field of front matter. -/
def of : Field → FrontMatter → Value
  | title, f => f.title
  | author, f => f.author
  | authors, f => f.authors
  | description, f => f.description
  | keywords, f => f.keywords
  | date, f => f.date
  | abstract, f => f.abstract
  | language, f => f.language
  | region, f => f.region

/-- The keys of a field, in the order in which they are looked at. -/
def keys : Field → List String
  | title => ["title"]
  | author => ["author"]
  | authors => ["authors"]
  | description => ["description"]
  | keywords => ["keywords"]
  | date => ["date"]
  | abstract => ["abstract"]
  | language => ["lang", "language"]
  | region => ["region"]

def shape : Field → Shape
  | author => .textOrTexts
  | authors | keywords => .texts
  | date => .date
  | title | description | abstract | language | region => .text

/-- What the value under a key gives to a field. -/
def gives (field : Field) (entries : List (String × Reading)) (key : String) : Option Value :=
  (lastUnder key entries).bind field.shape.kept

/-- The keys up to the first that gives something. -/
def upToFirst (gives : String → Option Value) : List String → List String
  | [] => []
  | key :: rest => key :: if (gives key).isSome then [] else upToFirst gives rest

/-- The keys that a field looks at: one behind others only if these give nothing. -/
def lookedAt (field : Field) (entries : List (String × Reading)) : List String :=
  upToFirst (field.gives entries) field.keys

/-- A field has the first value that its keys give. -/
def value (field : Field) (entries : List (String × Reading)) : Value :=
  (field.keys.findSome? (field.gives entries)).getD .null

/-- A field looks at a key, and the value there does not have its shape. -/
def Misfit (field : Field) (entries : List (String × Reading)) (key : String)
    (reading : Reading) : Prop :=
  key ∈ field.lookedAt entries ∧ lastUnder key entries = some reading ∧ ¬field.shape.Fits reading

/-- What is reported of a field. -/
def reported (entries : List (String × Reading)) : Field → Reported Value
  | title => textField "title" (lastUnder "title" entries)
  | author => authorField (lastUnder "author" entries)
  | authors => textListField "authors" (lastUnder "authors" entries)
  | description => textField "description" (lastUnder "description" entries)
  | keywords => textListField "keywords" (lastUnder "keywords" entries)
  | date => dateField (lastUnder "date" entries)
  | abstract => textField "abstract" (lastUnder "abstract" entries)
  | language => languageField (lastUnder "lang" entries) (lastUnder "language" entries)
  | region => textField "region" (lastUnder "region" entries)

/-- The fields in the order in which they are read. -/
def readingOrder : List Field :=
  [language, title, author, authors, description, keywords, date, abstract, region]

variable {field other : Field}

/-- The field that a key belongs to. -/
def ofKey? (key : String) : Option Field :=
  match key with
  | "title" => some title
  | "author" => some author
  | "authors" => some authors
  | "description" => some description
  | "keywords" => some keywords
  | "date" => some date
  | "abstract" => some abstract
  | "lang" | "language" => some language
  | "region" => some region
  | _ => none

theorem ofKey?_of_mem (h : key ∈ field.keys) : ofKey? key = some field := by
  cases field with
  | language =>
    obtain rfl | rfl : key = "lang" ∨ key = "language" := by simpa [keys] using h
    · rfl
    · rfl
  | _ =>
    obtain rfl := List.mem_singleton.mp h
    rfl

/-- No two fields share a key. -/
theorem eq_of_mem_keys (h : key ∈ field.keys) (hother : key ∈ other.keys) : field = other :=
  Option.some.inj ((ofKey?_of_mem h).symm.trans (ofKey?_of_mem hother))

theorem mem_of_mem_upToFirst {gives : String → Option Value} {keys : List String}
    (h : key ∈ upToFirst gives keys) : key ∈ keys := by
  induction keys with
  | nil => cases h
  | cons k rest ih =>
    rw [upToFirst] at h
    obtain rfl | h := List.mem_cons.mp h
    · exact List.mem_cons_self
    · split at h
      · cases h
      · exact List.mem_cons_of_mem k (ih h)

theorem mem_keys_of_mem_lookedAt (h : key ∈ field.lookedAt entries) : key ∈ field.keys :=
  mem_of_mem_upToFirst h

theorem mem_readingOrder (field : Field) : field ∈ readingOrder := by
  cases field <;> decide

theorem of_ofEntries (field : Field) (entries : List (String × Reading)) :
    field.of (ofEntries entries).answer = (field.reported entries).answer := by
  cases field <;> rfl

theorem issues_ofEntries (entries : List (String × Reading)) :
    (ofEntries entries).issues =
      readingOrder.flatMap fun field => (field.reported entries).issues := by
  simp [ofEntries, readingOrder, reported]

end Field

/-- Whether an issue names a key. -/
def about (key : String) (issue : Issue) : Bool :=
  (issue.details.lookup "field").any (·.isText key)

theorem Warns.about_iff {issue : Issue} {k : String} (h : Warns key reading issue) :
    about k issue ↔ key = k := by
  simp [about, h.details, Value.isText]

theorem Reads.exists_of_mem {shape : Shape} {r : Reported Value} {w : Issue}
    (h : Reads shape key v r) (hw : w ∈ r.issues) :
    ∃ reading, v = some reading ∧ ¬shape.Fits reading ∧ Warns key reading w := by
  by_cases hfits : ∀ reading, v = some reading → shape.Fits reading
  · rw [h.silent hfits] at hw
    cases hw
  · obtain ⟨reading, hreading⟩ := not_forall.mp hfits
    obtain ⟨hv, hmisfit⟩ := Classical.not_imp.mp hreading
    obtain ⟨w', hissues, hwarns⟩ := h.warned reading hv hmisfit
    obtain rfl := List.mem_singleton.mp (hissues ▸ hw)
    exact ⟨reading, hv, hmisfit, hwarns⟩

/-- What a field comes to, and which warnings it brings. -/
structure Reports (field : Field) (entries : List (String × Reading)) (r : Reported Value) :
    Prop where
  answer : r.answer = field.value entries
  warned : ∀ key reading, field.Misfit entries key reading →
    ∃ w, r.issues.filter (about key) = [w] ∧ Warns key reading w
  only : ∀ w ∈ r.issues, ∃ key reading, field.Misfit entries key reading ∧ Warns key reading w

variable {field : Field} {r : Reported Value} {w : Value}

/-- Issues that all name one key, filtered by a key. -/
theorem Reads.filter_issues {shape : Shape} (h : Reads shape key v r) (k : String) :
    r.issues.filter (about k) = if k = key then r.issues else [] := by
  split
  next hk =>
    refine List.filter_eq_self.mpr fun w hw => ?_
    obtain ⟨_, -, -, hwarns⟩ := h.exists_of_mem hw
    exact hwarns.about_iff.mpr hk.symm
  next hk =>
    refine List.filter_eq_nil_iff.mpr fun w hw habout => ?_
    obtain ⟨_, -, -, hwarns⟩ := h.exists_of_mem hw
    exact hk (hwarns.about_iff.mp habout).symm

/-- A field that looks at a single key. -/
theorem Reads.reports (field : Field) (h : Reads field.shape key (lastUnder key entries) r)
    (hlooked : field.lookedAt entries = [key])
    (hvalue : field.value entries = (field.gives entries key).getD .null) :
    Reports field entries r := by
  constructor
  case answer => rw [h.answer, hvalue, Field.gives]
  case warned =>
    rintro k reading ⟨hk, hv, hmisfit⟩
    obtain rfl := List.mem_singleton.mp (hlooked ▸ hk)
    rw [h.filter_issues, if_pos rfl]
    exact h.warned reading hv hmisfit
  case only =>
    intro w hw
    obtain ⟨reading, hv, hmisfit, hwarns⟩ := h.exists_of_mem hw
    exact ⟨key, reading, ⟨by simp [hlooked], hv, hmisfit⟩, hwarns⟩

/-- A field that looks at two keys, as the first gives nothing. -/
theorem Reads.reports_pair (field : Field) {k : String} {r' : Reported Value}
    (h : Reads field.shape key (lastUnder key entries) r)
    (h' : Reads field.shape k (lastUnder k entries) r') (hne : key ≠ k)
    (hlooked : field.lookedAt entries = [key, k])
    (hvalue : field.value entries = (field.gives entries k).getD .null) :
    Reports field entries ⟨r'.answer, r.issues ++ r'.issues⟩ := by
  constructor
  case answer => rw [h'.answer, hvalue, Field.gives]
  case warned =>
    rintro key' reading ⟨hk, hv, hmisfit⟩
    rw [List.filter_append, h.filter_issues, h'.filter_issues]
    rw [hlooked, List.mem_cons, List.mem_singleton] at hk
    obtain rfl | rfl := hk
    · simpa [hne] using h.warned reading hv hmisfit
    · simpa [hne.symm] using h'.warned reading hv hmisfit
  case only =>
    intro w hw
    obtain hw | hw := List.mem_append.mp hw
    · obtain ⟨reading, hv, hmisfit, hwarns⟩ := h.exists_of_mem hw
      exact ⟨key, reading, ⟨by simp [hlooked], hv, hmisfit⟩, hwarns⟩
    · obtain ⟨reading, hv, hmisfit, hwarns⟩ := h'.exists_of_mem hw
      exact ⟨k, reading, ⟨by simp [hlooked], hv, hmisfit⟩, hwarns⟩

/-- A field with a single key looks at that one. -/
theorem Reads.reports_only (field : Field) (h : Reads field.shape key (lastUnder key entries) r)
    (hkeys : field.keys = [key]) : Reports field entries r := by
  refine h.reports field ?_ ?_
  · simp [Field.lookedAt, hkeys, Field.upToFirst]
  · rw [Field.value, hkeys, List.findSome?_singleton]

theorem languageField_of_str {short long : Option Reading} {s : String}
    (h : (textField "lang" short).answer = .str s) :
    languageField short long = textField "lang" short := by
  simp only [languageField, h]
  rw [← h]

theorem languageField_of_null {short long : Option Reading}
    (h : (textField "lang" short).answer = .null) :
    languageField short long = ⟨(textField "language" long).answer,
      (textField "lang" short).issues ++ (textField "language" long).issues⟩ := by
  simp only [languageField, h]

theorem exists_of_kept_text (h : Shape.text.kept reading = some w) : ∃ s, w = .str s := by
  cases reading <;> simp [Shape.kept] at h
  exact ⟨_, h.symm⟩

/-- The long key does not matter where the short one gives a text. -/
theorem languageField_of_gives {w : Value} (long : Option Reading)
    (h : Field.language.gives entries "lang" = some w) :
    languageField (lastUnder "lang" entries) long =
      textField "lang" (lastUnder "lang" entries) := by
  obtain ⟨reading, hreading, hkept⟩ := Option.bind_eq_some_iff.mp h
  obtain ⟨s, rfl⟩ := exists_of_kept_text hkept
  have hanswer : (textField "lang" (lastUnder "lang" entries)).answer = .str s := by
    rw [(reads_textField _ _).answer, hreading]
    exact congrArg (Option.getD · Value.null) hkept
  exact languageField_of_str hanswer

/-- The long key counts only where the short one gives no text. -/
theorem reports_language (entries : List (String × Reading)) :
    Reports .language entries (Field.reported entries .language) := by
  have hshort := reads_textField "lang" (lastUnder "lang" entries)
  have hlong := reads_textField "language" (lastUnder "language" entries)
  rw [Field.reported]
  cases hgives : Field.language.gives entries "lang" with
  | some w =>
    rw [languageField_of_gives _ hgives]
    refine Reads.reports .language hshort ?_ ?_
    · simp [Field.lookedAt, Field.keys, Field.upToFirst, hgives]
    · simp [Field.value, Field.keys, hgives]
  | none =>
    have hanswer : (textField "lang" (lastUnder "lang" entries)).answer = .null :=
      hshort.answer.trans (congrArg (Option.getD · Value.null) hgives)
    rw [languageField_of_null hanswer]
    refine Reads.reports_pair .language hshort hlong (by decide) ?_ ?_
    · simp [Field.lookedAt, Field.keys, Field.upToFirst, hgives]
    · simp [Field.value, Field.keys, hgives]

theorem reports_reported (field : Field) (entries : List (String × Reading)) :
    Reports field entries (field.reported entries) := by
  cases field with
  | title => exact Reads.reports_only .title (reads_textField _ _) rfl
  | author => exact Reads.reports_only .author (reads_authorField _) rfl
  | authors => exact Reads.reports_only .authors (reads_textListField _ _) rfl
  | description => exact Reads.reports_only .description (reads_textField _ _) rfl
  | keywords => exact Reads.reports_only .keywords (reads_textListField _ _) rfl
  | date => exact Reads.reports_only .date (reads_dateField _) rfl
  | abstract => exact Reads.reports_only .abstract (reads_textField _ _) rfl
  | language => exact reports_language entries
  | region => exact Reads.reports_only .region (reads_textField _ _) rfl

end Field

/-! All fields together. -/

section Block

variable {field : Field}

/-- The issues of other fields do not name a key of this one. -/
theorem filter_reported_of_ne {other : Field} (hkey : key ∈ field.keys) (hne : other ≠ field) :
    (other.reported entries).issues.filter (about key) = [] := by
  refine List.filter_eq_nil_iff.mpr fun w hw habout => hne ?_
  obtain ⟨k, reading, ⟨hk, -⟩, hwarns⟩ := (reports_reported other entries).only w hw
  obtain rfl := hwarns.about_iff.mp habout
  exact Field.eq_of_mem_keys (Field.mem_keys_of_mem_lookedAt hk) hkey

theorem flatMap_eq_of_others {α β : Type} {xs : List α} {x : α} {f : α → List β}
    (hnodup : xs.Nodup) (hx : x ∈ xs) (h : ∀ y ≠ x, f y = []) : xs.flatMap f = f x := by
  induction xs with
  | nil => cases hx
  | cons y xs ih =>
    obtain ⟨hy, hnodup⟩ := List.nodup_cons.mp hnodup
    rw [List.flatMap_cons]
    obtain rfl | hmore := List.mem_cons.mp hx
    · have hrest : xs.flatMap f = [] :=
        List.flatMap_eq_nil_iff.mpr fun z hz => h z fun he => hy (he ▸ hz)
      rw [hrest, List.append_nil]
    · rw [h y fun he => hy (he ▸ hmore), ih hnodup hmore, List.nil_append]

/-- The issues that name a key are those of its field. -/
theorem filter_issues (hkey : key ∈ field.keys) : (ofEntries entries).issues.filter (about key) =
    (field.reported entries).issues.filter (about key) := by
  rw [Field.issues_ofEntries, List.filter_flatMap]
  exact flatMap_eq_of_others (by decide) (Field.mem_readingOrder field)
    fun other hne => filter_reported_of_ne hkey hne

/-- What is reported of a field depends only on the keys that it looks at. -/
theorem reported_congr {others : List (String × Reading)}
    (h : ∀ key ∈ field.lookedAt entries, lastUnder key others = lastUnder key entries) :
    field.reported others = field.reported entries := by
  have hfirst (key : String) (rest : List String) (hkeys : field.keys = key :: rest) :
      lastUnder key others = lastUnder key entries :=
    h key (by simp [Field.lookedAt, hkeys, Field.upToFirst])
  cases field with
  | title => simp only [Field.reported, hfirst "title" _ rfl]
  | author => simp only [Field.reported, hfirst "author" _ rfl]
  | authors => simp only [Field.reported, hfirst "authors" _ rfl]
  | description => simp only [Field.reported, hfirst "description" _ rfl]
  | keywords => simp only [Field.reported, hfirst "keywords" _ rfl]
  | date => simp only [Field.reported, hfirst "date" _ rfl]
  | abstract => simp only [Field.reported, hfirst "abstract" _ rfl]
  | region => simp only [Field.reported, hfirst "region" _ rfl]
  | language =>
    simp only [Field.reported, hfirst "lang" _ rfl]
    cases hgives : Field.language.gives entries "lang" with
    | some w => rw [languageField_of_gives _ hgives, languageField_of_gives _ hgives]
    | none =>
      rw [h "language" (by simp [Field.lookedAt, Field.keys, Field.upToFirst, hgives])]

/-- The mapping that a metadata block stands for, by a loader of YAML. -/
def mapping? (load : Yaml.Loader) (raw : String) : Option (List (String × Reading)) :=
  if Text.isBlankText raw then none
  else match load raw with
    | .ok (.mapping entries) => some entries
    | _ => none

theorem decode_of_mapping {load : Yaml.Loader} {raw : String}
    (h : mapping? load raw = some entries) : decode raw load = .ok (ofEntries entries) := by
  unfold mapping? at h
  split at h
  · cases h
  next hshown =>
    split at h <;> cases h
    next hblock => rw [decode, if_neg hshown, hblock]

/-- Each field is read from its own keys. A value that does not fit is dropped, or cut down to the
texts in it, with exactly one warning; no other value brings one, and what stands under further
keys changes neither the field nor its warnings. -/
theorem fields_independent (entries : List (String × Reading)) :
    (∀ load raw, mapping? load raw = some entries → decode raw load = .ok (ofEntries entries)) ∧
    (∀ field : Field, field.of (ofEntries entries).answer = field.value entries) ∧
    (∀ (field : Field) key reading, field.Misfit entries key reading →
      (field.gives entries key = none ∨ ∃ items, reading = .list items ∧
        field.gives entries key = some (.ofTexts (items.filterMap id))) ∧
      ∃ w, (ofEntries entries).issues.filter (about key) = [w] ∧ Warns key reading w) ∧
    (∀ w ∈ (ofEntries entries).issues, ∃ (field : Field) (key : String) (reading : Reading),
      field.Misfit entries key reading ∧ Warns key reading w) ∧
    ∀ (field : Field) (others : List (String × Reading)),
      (∀ key ∈ field.lookedAt entries, lastUnder key others = lastUnder key entries) →
      field.of (ofEntries others).answer = field.of (ofEntries entries).answer ∧
      ∀ key ∈ field.keys, (ofEntries others).issues.filter (about key) =
        (ofEntries entries).issues.filter (about key) := by
  refine ⟨fun load raw => decode_of_mapping, fun field => ?_,
    fun field key reading hmisfit => ⟨?_, ?_⟩, fun w hw => ?_, fun field others hsame => ?_⟩
  · rw [Field.of_ofEntries]
    exact (reports_reported field entries).answer
  · obtain ⟨-, hv, hmisfit⟩ := hmisfit
    rw [Field.gives, hv]
    exact Shape.kept_of_misfit hmisfit
  · rw [filter_issues (Field.mem_keys_of_mem_lookedAt hmisfit.1)]
    exact (reports_reported field entries).warned key reading hmisfit
  · rw [Field.issues_ofEntries] at hw
    obtain ⟨field, -, hw⟩ := List.mem_flatMap.mp hw
    obtain ⟨key, reading, h⟩ := (reports_reported field entries).only w hw
    exact ⟨field, key, reading, h⟩
  · have hreported := reported_congr hsame
    refine ⟨?_, fun key hkey => ?_⟩
    · rw [Field.of_ofEntries, Field.of_ofEntries, hreported]
    · rw [filter_issues hkey, filter_issues hkey, hreported]

/-- A block with a list under the short key of the language, which leaves room for the long one, and
with a number among the authors. -/
def mixedBlock : String := "lang: []\nlanguage: fr\nauthor: [Ann, 7, Ben]\ndate: 2024-02-29 10:00"

/-- The misshapen values of a block are dropped, each with its own warning. -/
theorem fields_independent_mixed : ∃ r, decode mixedBlock = .ok r ∧
    r.answer.language = .str "fr" ∧ r.answer.author = .ofTexts ["Ann", "Ben"] ∧
    r.answer.date = .str "2024-02-29" ∧
    (∃ w, r.issues.filter (about "lang") = [w] ∧ Warns "lang" (.list []) w) ∧
    ∃ w, r.issues.filter (about "author") = [w] ∧
      Warns "author" (.list [some "Ann", none, some "Ben"]) w := by
  have hmapping : mapping? Yaml.load mixedBlock = some
      [("lang", .list []), ("language", .text "fr"), ("author", .list [some "Ann", none, some "Ben"]),
        ("date", .text "2024-02-29 10:00")] := by
    decide +kernel
  obtain ⟨hdecode, hvalue, hwarned, -⟩ := fields_independent [("lang", .list []),
    ("language", .text "fr"), ("author", .list [some "Ann", none, some "Ben"]),
    ("date", .text "2024-02-29 10:00")]
  have hdate : dateIn "2024-02-29 10:00" = "2024-02-29" := by decide +kernel
  refine ⟨_, hdecode _ _ hmapping, hvalue .language, hvalue .author, ?_, ?_, ?_⟩
  · exact (hvalue .date).trans (congrArg Value.str hdate)
  · exact (hwarned .language "lang" _ ⟨List.mem_cons_self, rfl, id⟩).2
  · exact (hwarned .author "author" _ ⟨List.mem_cons_self, rfl, fun h => by simpa using h none⟩).2

end Block

end Typeset.FrontMatter
