import Typeset.Proofs.Conversion.Total

/-! The shapes of metadata that are merged out of settings and decoded front matter. -/

namespace Typeset

open Failure (exists_of_bind)
open Value

variable {settings : Settings} {front : FrontMatter} {m : Metadata} {leadingTitle v w : Value}
  {registers : Locale.Registers}

namespace Value

/-- A list of texts, or nothing. -/
def IsTexts? (v : Value) : Prop := v = .null ∨ ∃ texts, v = .ofTexts texts

theorem isTexts?_null : IsTexts? .null := .inl rfl

theorem isTexts?_ofTexts (texts : List String) : IsTexts? (.ofTexts texts) := .inr ⟨texts, rfl⟩

theorem isTexts?_list_iff {items : List Value} :
    IsTexts? (.list items) ↔ ∀ item ∈ items, ∃ s, item = .str s := by
  constructor
  · rintro (h | ⟨texts, h⟩)
    · cases h
    · cases h
      exact List.forall_mem_map.mpr fun s _ => ⟨s, rfl⟩
  · intro h
    suffices ∃ texts : List String, items = texts.map .str from
      .inr (this.imp fun texts htexts => congrArg Value.list htexts)
    induction items with
    | nil => exact ⟨[], rfl⟩
    | cons item items ih =>
      obtain ⟨⟨s, rfl⟩, hmore⟩ := List.forall_mem_cons.mp h
      obtain ⟨texts, rfl⟩ := ih hmore
      exact ⟨s :: texts, rfl⟩

end Value

namespace FrontMatter

theorem textListField_isTexts? (key : String) (v : Option Yaml.Reading) :
    IsTexts? (textListField key v).answer := by
  unfold textListField
  split
  · exact isTexts?_null
  · exact isTexts?_null
  · exact isTexts?_ofTexts _
  · exact isTexts?_null

/-- The keywords of decoded front matter are texts: other items were dropped. -/
theorem decodeValue_keywords {load : Yaml.Loader} {r : Reported FrontMatter}
    (h : decodeValue v load = .ok r) : IsTexts? r.answer.keywords := by
  have hdecode {raw : String} (h : decode raw load = .ok r) : IsTexts? r.answer.keywords := by
    unfold decode at h
    split at h
    · cases h
      exact isTexts?_null
    · split at h <;> cases h
      · exact isTexts?_null
      · exact isTexts?_null
      · exact textListField_isTexts? _ _
      · exact isTexts?_null
  unfold decodeValue at h
  split at h
  · split at h
    · exact hdecode h
    · cases h
  · cases h
    exact isTexts?_null

end FrontMatter

namespace Metadata

/-- The fields that are written into a header have their shapes. Keywords are a list, of whatever
items. -/
structure Shaped (m : Metadata) : Prop where
  title : ∃ s, m.title = .str s
  authors : ∃ names, m.authors = .ofTexts names
  description : IsText? m.description
  keywords : IsList? m.keywords
  date : IsText? m.date
  abstract : IsText? m.abstract

/-- The title out of its three sources. -/
def mergedTitle (settings : Settings) (front : FrontMatter) (leadingTitle : Value) : Value :=
  (firstPresent [.ofText? settings.title, front.title, leadingTitle]).orElse (.str "")

theorem exists_of_merge (h : merge settings front leadingTitle registers = .ok m) :
    ∃ authors language region, mergeAuthors settings front = .ok authors ∧
      code (Locale.languageIn registers.languages)
        (firstPresent [.ofText? settings.language, front.language]) = .ok language ∧
      code (Locale.regionIn registers.countries)
        (firstPresent [.ofText? settings.region, front.region]) = .ok region ∧
      m = { title := mergedTitle settings front leadingTitle
            authors := .ofTexts authors
            description := firstPresent [.ofText? settings.description, front.description]
            keywords := firstPresent [Settings.ofList? settings.keywords, front.keywords]
            date := firstPresent [.ofText? settings.date, front.date]
            abstract := firstPresent [.ofText? settings.abstract, front.abstract]
            language, region } := by
  obtain ⟨authors, hauthors, h⟩ := exists_of_bind h
  obtain ⟨language, hlanguage, h⟩ := exists_of_bind h
  obtain ⟨region, hregion, h⟩ := exists_of_bind h
  cases h
  exact ⟨authors, language, region, hauthors, hlanguage, hregion, rfl⟩

theorem merge_shaped (hf : front.WellTyped) (hl : IsText? leadingTitle)
    (h : merge settings front leadingTitle registers = .ok m) : m.Shaped := by
  obtain ⟨m', hm', hshapes⟩ := merge_gives settings hf hl registers
  obtain rfl : m' = m := Except.ok.inj (hm'.symm.trans h)
  obtain ⟨authors, language, region, -, -, -, rfl⟩ := exists_of_merge h
  have hkeywords : IsList? (firstPresent [Settings.ofList? settings.keywords, front.keywords]) := by
    cases settings.keywords with
    | none =>
      obtain hnull | ⟨items, hitems⟩ := hf.keywords
      · rw [hnull]
        exact isList?_null
      · rw [hitems]
        exact isList?_list items
    | some items => exact isList?_list items
  exact ⟨hshapes.title, ⟨authors, rfl⟩,
    firstPresent_pair_isText? (isText?_ofText? _) hf.description, hkeywords,
    firstPresent_pair_isText? (isText?_ofText? _) hf.date, hshapes.abstract⟩

/-- The keywords of a document are texts unless the settings name others: theirs are not checked
item by item. -/
theorem merge_keywords (hk : IsTexts? front.keywords)
    (h : merge settings front leadingTitle registers = .ok m) :
    IsTexts? m.keywords ↔ ∀ v ∈ settings.keywords.getD [], ∃ s, v = .str s := by
  obtain ⟨authors, language, region, -, -, -, rfl⟩ := exists_of_merge h
  cases hs : settings.keywords with
  | none =>
    have hfirst : firstPresent [Settings.ofList? none, front.keywords] = front.keywords := by
      obtain hnull | ⟨texts, htexts⟩ := hk
      · rw [hnull]
        rfl
      · rw [htexts]
        rfl
    dsimp only
    rw [hfirst]
    simpa using hk
  | some items => exact isTexts?_list_iff

section Title

variable {title : String}

/-- The title shows something. -/
def Titled (m : Metadata) : Prop := ∃ s, m.title = .str s ∧ Text.isBlankText s = false

theorem Titled.ne_of_blank (h : m.Titled) {s : String} (hs : Text.isBlankText s = true) :
    m.title ≠ .str s := by
  obtain ⟨s', hs', hshown⟩ := h
  rw [hs']
  rintro ⟨rfl⟩
  rw [hs] at hshown
  cases hshown

theorem merge_title (h : merge settings front leadingTitle registers = .ok m) (other : Value) :
    merge settings front other registers =
      .ok { m with title := mergedTitle settings front other } := by
  obtain ⟨authors, language, region, hauthors, hlanguage, hregion, rfl⟩ := exists_of_merge h
  rw [merge, hauthors]
  change (code (Locale.languageIn registers.languages) _ >>= _) = _
  rw [hlanguage]
  change (code (Locale.regionIn registers.countries) _ >>= _) = _
  rw [hregion]
  rfl

theorem orElse_str (s : String) : (Value.str s).orElse (.str "") = .str s := by
  by_cases h : s = ""
  · rw [h]
    rfl
  · rw [Value.orElse, if_pos (by simpa [Value.truthy] using h)]

theorem mergedTitle_str (settings : Settings) (hf : IsText? front.title) (title : String) :
    mergedTitle settings front (.str title) =
      firstPresent [.ofText? settings.title, front.title, .str title] := by
  obtain ⟨s, hs⟩ : ∃ s, firstPresent [.ofText? settings.title, front.title, .str title] =
      .str s := by
    cases settings.title with
    | some s => exact ⟨s, rfl⟩
    | none => obtain hnull | ⟨s, hs⟩ := hf <;> simp [*, firstPresent, Value.ofText?]
  rw [mergedTitle, hs, orElse_str]

/-- The leading heading comes last: its title counts where there is no other. -/
theorem mergedTitle_cases (settings : Settings) (hf : IsText? front.title) (title : String) :
    mergedTitle settings front (.str title) = .str title ∨
      mergedTitle settings front (.str title) = mergedTitle settings front .null := by
  rw [mergedTitle, mergedTitle]
  cases settings.title with
  | some s => exact .inr rfl
  | none =>
    obtain hnull | ⟨s, hs⟩ := hf
    · rw [hnull]
      exact .inl (orElse_str title)
    · rw [hs]
      exact .inr rfl

/-- With the title of a leading heading only the title is another, and it is another only if it
shows something. -/
theorem merge_leading (hf : IsText? front.title) (hm : merge settings front .null registers = .ok m)
    (htitle : ∃ s, m.title = .str s) (hshown : Text.isBlankText title = false) :
    ∃ s, merge settings front (.str title) registers = .ok { m with title := .str s } ∧
      .str s = firstPresent [.ofText? settings.title, front.title, .str title] ∧
      (Text.isBlankText s = true → m.title = .str s) := by
  have hown : m.title = mergedTitle settings front .null := by
    obtain ⟨authors, language, region, -, -, -, rfl⟩ := exists_of_merge hm
    rfl
  have hmerge := merge_title hm (.str title)
  have hstr := mergedTitle_str settings hf title
  obtain hcase | hcase := mergedTitle_cases settings hf title
  · rw [hcase] at hmerge hstr
    refine ⟨title, hmerge, hstr, fun hblank => ?_⟩
    rw [hshown] at hblank
    cases hblank
  · obtain ⟨s, hs⟩ := htitle
    rw [hcase, ← hown, hs] at hmerge hstr
    exact ⟨s, hmerge, hstr, fun _ => hs⟩

end Title

end Metadata

end Typeset
