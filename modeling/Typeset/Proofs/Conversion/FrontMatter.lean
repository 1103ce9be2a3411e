import Typeset.FrontMatter

/-! When the reading of a metadata block stops, and what it gives where it does not. -/

namespace Typeset

namespace Value

/-- Text, or nothing. -/
def IsText? (v : Value) : Prop := v = .null ∨ ∃ s, v = .str s

/-- A list, or nothing. -/
def IsList? (v : Value) : Prop := v = .null ∨ ∃ items, v = .list items

theorem isText?_null : IsText? .null := .inl rfl

theorem isText?_str (s : String) : IsText? (.str s) := .inr ⟨s, rfl⟩

theorem isText?_ofText? (s : Option String) : IsText? (.ofText? s) := by
  cases s with
  | none => exact isText?_null
  | some s => exact isText?_str s

theorem isList?_null : IsList? .null := .inl rfl

theorem isList?_list (items : List Value) : IsList? (.list items) := .inr ⟨items, rfl⟩

/-- What counts as present is no absent text. -/
theorem IsText?.exists_of_truthy {v : Value} (h : IsText? v) (ht : v.truthy = true) :
    ∃ s, v = .str s := by
  obtain rfl | hs := h
  · cases ht
  · exact hs

end Value

namespace FrontMatter

open Value

/-- Each field has one of its own shapes. -/
structure WellTyped (front : FrontMatter) : Prop where
  title : IsText? front.title
  author : IsText? front.author ∨ IsList? front.author
  authors : IsList? front.authors
  description : IsText? front.description
  keywords : IsList? front.keywords
  date : IsText? front.date
  abstract : IsText? front.abstract
  language : IsText? front.language
  region : IsText? front.region

theorem wellTyped_empty : WellTyped {} := by
  constructor
  case author => exact .inl isText?_null
  case authors => exact isList?_null
  case keywords => exact isList?_null
  all_goals exact isText?_null

section Fields

variable (key : String) (v : Option Yaml.Reading)

theorem textField_isText? : IsText? (textField key v).answer := by
  unfold textField
  split
  · exact isText?_null
  · exact isText?_null
  · exact isText?_str _
  · exact isText?_null

theorem textListField_isList? : IsList? (textListField key v).answer := by
  unfold textListField
  split
  · exact isList?_null
  · exact isList?_null
  · exact isList?_list _
  · exact isList?_null

theorem authorField_shape : IsText? (authorField v).answer ∨ IsList? (authorField v).answer := by
  unfold authorField
  split
  · exact .inl isText?_null
  · exact .inl isText?_null
  · exact .inl (isText?_str _)
  · exact .inr (isList?_list _)
  · exact .inl isText?_null

theorem dateField_isText? : IsText? (dateField v).answer := by
  unfold dateField
  split
  · exact isText?_null
  · exact isText?_null
  · split
    · exact isText?_str _
    · exact isText?_str _
  · exact isText?_null

theorem languageField_isText? (long : Option Yaml.Reading) :
    IsText? (languageField v long).answer := by
  unfold languageField
  dsimp only
  split
  · exact textField_isText? "language" long
  · exact textField_isText? "lang" v

end Fields

theorem ofEntries_wellTyped (entries : List (String × Yaml.Reading)) :
    WellTyped (ofEntries entries).answer where
  title := textField_isText? _ _
  author := authorField_shape _
  authors := textListField_isList? _ _
  description := textField_isText? _ _
  keywords := textListField_isList? _ _
  date := dateField_isText? _
  abstract := textField_isText? _ _
  language := languageField_isText? _ _
  region := textField_isText? _ _

variable {load : Yaml.Loader} {raw : String} {r : Reported FrontMatter}

/-- A block that is loaded, or refused as no YAML: there is nothing to load in a blank one. -/
def Loads (load : Yaml.Loader) (raw : String) : Prop :=
  Text.isBlankText raw = true ∨ ∀ kind words, load raw ≠ .error (.raised kind words)

/-- A block that shows something, and is no mapping or no YAML. -/
def Unusable (load : Yaml.Loader) (raw : String) : Prop :=
  Text.isBlankText raw = false ∧
    ((∃ kind words, load raw = .error (.malformed kind words)) ∨
      ∃ kind, load raw = .ok (.value kind))

theorem not_loads_iff :
    ¬ Loads load raw ↔
      Text.isBlankText raw = false ∧ ∃ kind words, load raw = .error (.raised kind words) := by
  simp [Loads]

theorem decode_of_loads (h : Loads load raw) : ∃ r, decode raw load = .ok r := by
  rw [decode]
  cases hb : Text.isBlankText raw with
  | true => exact ⟨_, rfl⟩
  | false =>
    rw [if_neg (by simp)]
    have hraised := h.resolve_left (by simp [hb])
    cases hy : load raw with
    | ok block => cases block <;> exact ⟨_, rfl⟩
    | error fault =>
      cases fault with
      | malformed kind words => exact ⟨_, rfl⟩
      | raised kind words => exact absurd hy (hraised kind words)

theorem decode_of_raised {kind words : String} (hb : Text.isBlankText raw = false)
    (hy : load raw = .error (.raised kind words)) :
    decode raw load = .error (.foreign kind words) := by
  rw [decode, if_neg (by simp [hb]), hy]

/-- Reading ends unless the loader raises what is no fault of the YAML. -/
theorem decode_ok_iff : (∃ r, decode raw load = .ok r) ↔ Loads load raw := by
  refine ⟨fun ⟨r, hr⟩ => Classical.byContradiction fun hn => ?_, decode_of_loads⟩
  obtain ⟨hb, kind, words, hy⟩ := not_loads_iff.mp hn
  cases hr.symm.trans (decode_of_raised hb hy)

/-- A block that cannot be used gives no field, and one warning. -/
theorem decode_of_unusable (h : Unusable load raw) :
    ∃ warning, decode raw load = .ok ⟨{}, [warning]⟩ ∧ warning.severity = .warning ∧
      warning.code = .invalidFrontmatter := by
  obtain ⟨hb, ⟨kind, words, hy⟩ | ⟨kind, hy⟩⟩ := h
  · rw [decode, if_neg (by simp [hb]), hy]
    exact ⟨_, rfl, rfl, rfl⟩
  · rw [decode, if_neg (by simp [hb]), hy]
    exact ⟨_, rfl, rfl, rfl⟩

theorem decode_wellTyped (h : decode raw load = .ok r) : WellTyped r.answer := by
  unfold decode at h
  split at h
  · cases h
    exact wellTyped_empty
  · split at h <;> cases h
    · exact wellTyped_empty
    · exact wellTyped_empty
    · exact ofEntries_wellTyped _
    · exact wellTyped_empty

theorem decodeValue_wellTyped {v : Value} (h : decodeValue v load = .ok r) :
    WellTyped r.answer := by
  unfold decodeValue at h
  split at h
  · split at h
    · exact decode_wellTyped h
    · cases h
  · cases h
    exact wellTyped_empty

theorem decodeValue_str (raw : String) (load : Yaml.Loader) :
    decodeValue (.str raw) load = decode raw load := by
  by_cases h : raw = ""
  · subst h
    rfl
  · simp [decodeValue, Value.truthy, h]

theorem decodeValue_null (load : Yaml.Loader) : decodeValue .null load = .ok ⟨{}, []⟩ := rfl

end FrontMatter

end Typeset
