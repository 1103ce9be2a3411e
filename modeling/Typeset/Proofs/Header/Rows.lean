import Typeset.Proofs.Header.Rule
import Typeset.Proofs.Locale.Code

/-! The header of a document that has metadata, part by part, and the metadata that are read back
from its rule. -/

namespace Typeset.Header

section Recovered

open Image (laidOut)
open Render Rendering
open Value (IsText?)

variable {env : Environment} {m : Metadata} {tokens index : Value} {met : Bool} {output : String}
  {date : Option String} {rule : List String} {abstract body : String} {remoteImage : Bool}

/-- The first row of a header. -/
def openingLine : String := "// ===============  FRONTMATTER  ==============="

/-- The last row of a header. -/
def closingLine : String := "//  ============================================"

/-- The lines that define the abstract, if there is one. -/
def abstractLines (m : Metadata) (abstract : String) : List String :=
  if m.abstract.truthy then ["", "#let abstract = [" ++ abstract ++ "]"] else []

/-- Whether there is something that a title block shows. -/
def shows (m : Metadata) : Bool :=
  m.title.truthy || m.authors.truthy || m.date.truthy || m.abstract.truthy

/-- The lines behind the rule: the abstract, the title block, and the rule for language and
region. -/
def linesBehind (m : Metadata) (date : Option String) (abstract : String) : List String :=
  abstractLines m abstract ++ (if shows m then "" :: titleBlock m date else []) ++
    (if m.language.truthy || m.region.truthy then ["", textRule m] else []) ++ ["", closingLine]

theorem headerLines_of_metadata (howned : hasMetadata m = true) (date : Option String)
    (rule : List String) (abstract : String) :
    headerLines m date rule abstract false =
      openingLine :: "" :: (rule ++ linesBehind m date abstract) := by
  unfold headerLines linesBehind abstractLines shows
  simp only [howned, if_true, Bool.true_and, Bool.false_eq_true, if_false]
  split_ifs <;> simp [spacedAfter, openingLine, closingLine]

/-- The parts that a document is laid out of. -/
theorem exists_of_document (h : (document env m tokens index met).outcome = .ok output) :
    ∃ body date rule abstract remoteImage, (bodyText env m tokens index).outcome = .ok body ∧
      (ownDateAndRule m).outcome = .ok (date, rule) ∧ abstractMarkup m = .ok abstract ∧
      output = laidOut m date rule abstract body remoteImage := by
  obtain ⟨body, hbody, h⟩ := exists_of_bind h
  obtain ⟨⟨date, rule⟩, hdate, h⟩ := exists_of_bind h
  obtain ⟨abstract, habstract, h⟩ := exists_of_bind h
  cases h
  exact ⟨body, date, rule, abstract, _, hbody, hdate, habstract, rfl⟩

/-- The rows of a document that has metadata begin with its rule. -/
theorem exists_textRows_laidOut (howned : hasMetadata m = true) (date : Option String)
    (rule : List String) (abstract body : String) (remoteImage : Bool) :
    ∃ after, Markup.textRows (laidOut m date rule abstract body remoteImage) =
      [openingLine.toList, []] ++ (rule ++ after).flatMap Markup.textRows := by
  have hspaced (more part : List String) : spacedAfter (openingLine :: "" :: (rule ++ more)) part =
      openingLine :: "" :: (rule ++ (more ++ "" :: part)) := by
    simp [spacedAfter]
  obtain ⟨header, hheader⟩ : ∃ header, headerLines m date rule abstract remoteImage =
      openingLine :: "" :: (rule ++ header) := by
    cases remoteImage with
    | false => exact ⟨_, headerLines_of_metadata howned date rule abstract⟩
    | true =>
      have hhelper : headerLines m date rule abstract true =
          spacedAfter (headerLines m date rule abstract false) remoteImageHelper := rfl
      rw [hhelper, headerLines_of_metadata howned, hspaced]
      exact ⟨_, rfl⟩
  obtain ⟨after, hafter⟩ : ∃ after, laidOut m date rule abstract body remoteImage =
      lines (openingLine :: "" :: (rule ++ after)) := by
    rw [laidOut, hheader]
    split
    · exact ⟨header, rfl⟩
    · exact ⟨_, congrArg lines (hspaced header [body])⟩
  have hopening : Markup.textRows openingLine = [openingLine.toList] := by decide
  rw [hafter, Markup.textRows_lines (List.cons_ne_nil _ _), List.flatMap_cons, List.flatMap_cons,
    hopening]
  exact ⟨after, rfl⟩

/-- The rule is read back from any document whose metadata can be written. -/
theorem ruleArguments_document {es : List (String × String)} (howned : hasMetadata m = true)
    (hdate : IsText? m.date) (hentries : entriesOf m (date? m) = .ok es) (hne : es ≠ [])
    (h : (document env m tokens index met).outcome = .ok output) :
    ruleArguments (Markup.textRows output) = some (es.map fun e => (e.1, e.2.toList)) := by
  obtain ⟨body, date, rule, abstract, remoteImage, -, hrule, -, rfl⟩ := exists_of_document h
  have hwritten : ruleOf m = ruleLines es := by rw [ruleOf, hentries]
  rw [ownDateAndRule_outcome hdate howned, hwritten] at hrule
  cases hrule
  obtain ⟨after, hafter⟩ :=
    exists_textRows_laidOut howned (date? m) (ruleLines es) abstract body remoteImage
  have hday : ∀ d ∈ date? m, Standing d.toList := fun _ => standing_date?
  rw [hafter]
  exact ruleArguments_written hne (isEntry_of_entriesOf hday hentries) (by decide) after

/-- Metadata with some texts. -/
def described (rest : Metadata) (title : String) (authors : List String) (description : String)
    (keywords : List String) : Metadata :=
  { rest with title := .str title, authors := .ofTexts authors, description := .str description,
              keywords := .ofTexts keywords }

section Described

variable {rest : Metadata} {title description : String} {authors keywords : List String}

theorem entry_content (name : String) {s : String} (h : s ≠ "") :
    entry name (.str s) bracketed = .ok [(name, "[" ++ Markup.escape s ++ "]")] := by
  rw [entry, if_pos (by simpa [Value.truthy] using h)]
  rfl

theorem entry_texts (name : String) {texts : List String} (h : texts ≠ []) :
    entry name (.ofTexts texts) stringArray = .ok [(name, arrayText texts)] := by
  rw [entry, if_pos (by simpa [Value.ofTexts, Value.truthy] using h), stringArray_ofTexts]
  rfl

theorem entriesOf_described (rest : Metadata) (htitle : title ≠ "") (hauthors : authors ≠ [])
    (hdescription : description ≠ "") (hkeywords : keywords ≠ []) (date : Option String) :
    entriesOf (described rest title authors description keywords) date =
      .ok ([("title", "[" ++ Markup.escape title ++ "]"), ("author", arrayText authors),
        ("description", "[" ++ Markup.escape description ++ "]"),
        ("keywords", arrayText keywords)] ++ date.toList.map fun d => ("date", d)) := by
  rw [entriesOf, described, entry_content "title" htitle, entry_texts "author" hauthors,
    entry_content "description" hdescription, entry_texts "keywords" hkeywords]
  rfl

/-- Title, authors, description and keywords are read back from the rule of a document, whatever
characters they have, and in their order. Tokens with types, and an abstract that is text, always
make such a document. -/
theorem metadata_recovered (env : Environment) (rest : Metadata) (htitle : title ≠ "")
    (hauthors : authors ≠ []) (hdescription : description ≠ "") (hkeywords : keywords ≠ [])
    (hdate : IsText? rest.date) (tokens index : Value) (met : Bool) :
    (∀ output, (document env (described rest title authors description keywords) tokens index
        met).outcome = .ok output →
      ∃ titleValue authorValue descriptionValue keywordsValue,
        ruleArguments (Markup.textRows output) =
          some ([("title", titleValue), ("author", authorValue),
            ("description", descriptionValue), ("keywords", keywordsValue)] ++
            (date? rest).toList.map fun d => ("date", d.toList)) ∧
        content? titleValue = some title ∧ strings? authorValue = some authors ∧
        content? descriptionValue = some description ∧ strings? keywordsValue = some keywords) ∧
      ∀ blocks, tokens = .list blocks → (∀ token ∈ blocks, Token.Typed token) →
        IsText? rest.abstract → IsIndex? index →
        ∃ output, (document env (described rest title authors description keywords) tokens index
          met).outcome = .ok output := by
  refine ⟨fun output h => ?_, ?_⟩
  · have howned : hasMetadata (described rest title authors description keywords) = true := by
      simp [hasMetadata, described, Value.truthy, htitle]
    have hentries :=
      entriesOf_described rest htitle hauthors hdescription hkeywords (date? rest)
    have hread := ruleArguments_document howned hdate hentries (by simp) h
    refine ⟨_, _, _, _, hread.trans ?_, content?_escape title, strings?_arrayText hauthors,
      content?_escape description, strings?_arrayText hkeywords⟩
    rw [List.map_append, List.map_map]
    rfl
  · rintro blocks rfl htyped habstract hindex
    have htypes : (described rest title authors description keywords).WellTyped :=
      ⟨⟨title, rfl⟩, habstract⟩
    obtain ⟨output, houtput, -⟩ := document_ends htypes htyped hindex met
    exact ⟨output, houtput⟩

/-- Metadata full of what separates and closes arguments. -/
def hostile : Metadata :=
  described {} "a], author: (\"b\",)\n)\n#set document(" ["\\\", \"c"] "// [d" ["e,", "\n)"]

theorem metadata_recovered_hostile : ∃ output,
    (document { convertMath := .ok } hostile (.list []) .null).outcome = .ok output ∧
      ∃ titleValue authorValue descriptionValue keywordsValue,
        ruleArguments (Markup.textRows output) =
          some [("title", titleValue), ("author", authorValue),
            ("description", descriptionValue), ("keywords", keywordsValue)] ∧
        content? titleValue = some "a], author: (\"b\",)\n)\n#set document(" ∧
        strings? authorValue = some ["\\\", \"c"] ∧ content? descriptionValue = some "// [d" ∧
        strings? keywordsValue = some ["e,", "\n)"] := by
  have htitle : "a], author: (\"b\",)\n)\n#set document(" ≠ "" := by decide
  have hdescription : "// [d" ≠ "" := by decide
  have hauthors : ["\\\", \"c"] ≠ [] := List.cons_ne_nil _ _
  have hkeywords : ["e,", "\n)"] ≠ [] := List.cons_ne_nil _ _
  obtain ⟨hread, hends⟩ := metadata_recovered { convertMath := .ok } {} htitle hauthors
    hdescription hkeywords (.inl rfl) (.list []) .null false
  obtain ⟨output, houtput⟩ := hends [] rfl (List.forall_mem_nil _) (.inl rfl) (.inl rfl)
  exact ⟨output, houtput, hread output houtput⟩

end Described

end Recovered

/-! The rows of a header. Whatever the metadata say, no row of theirs is taken for the beginning of
the title block. -/

section Rows

open Render
open Value (IsText?)

variable {s t name : String} {m : Metadata} {parts values : List String}
  {date : Option String} {es : List (String × String)} {row : List Char}

/-- No row of the text begins with a hash. -/
def Unmarked (s : String) : Prop := ∀ row ∈ Markup.textRows s, row.head? ≠ some '#'

section Unmarked

theorem Unmarked.append (hs : Unmarked s) (ht : Unmarked t) : Unmarked (s ++ t) := by
  obtain ⟨before, last, first, after, hsRows, htRows, hrows⟩ := Markup.textRows_append s t
  rw [Unmarked, hsRows, List.forall_mem_append, List.forall_mem_singleton] at hs
  rw [Unmarked, htRows, List.forall_mem_cons] at ht
  rw [Unmarked, hrows, List.forall_mem_append, List.forall_mem_cons]
  refine ⟨hs.1, ?_, ht.2⟩
  cases last with
  | nil => exact ht.1
  | cons c last => exact hs.2

theorem unmarked_of_row (hrow : '\n' ∉ s.toList) (hhead : s.toList.head? ≠ some '#') :
    Unmarked s := by
  rw [Unmarked, Markup.textRows, List.splitOn_eq_singleton hrow]
  exact List.forall_mem_singleton.mpr hhead

theorem unmarked_escape (s : String) : Unmarked (Markup.escape s) := by
  rw [Unmarked, Markup.textRows_escape]
  refine List.forall_mem_map.mpr fun row _ hhead => ?_
  obtain ⟨more, hmore⟩ := List.head?_eq_some_iff.mp hhead
  have hprefix : ['#'] <+: Markup.escapeChars row := ⟨more, hmore.symm⟩
  exact absurd (Markup.eq_of_cons_isPrefix_escapeChars rfl hprefix) (by decide)

theorem Unmarked.intercalate (hs : Unmarked s) (h : ∀ part ∈ parts, Unmarked part) :
    Unmarked (s.intercalate parts) := by
  induction parts with
  | nil => exact unmarked_of_row (by simp) (by simp)
  | cons part parts ih =>
    obtain ⟨hpart, hmore⟩ := List.forall_mem_cons.mp h
    by_cases hparts : parts = []
    · rw [hparts, String.intercalate_singleton]
      exact hpart
    · rw [String.intercalate_cons_of_ne_nil hparts]
      exact (hpart.append hs).append (ih hmore)

theorem unmarked_content (s : String) : Unmarked ("[" ++ Markup.escape s ++ "]") :=
  ((unmarked_of_row (by decide) (by decide)).append (unmarked_escape s)).append
    (unmarked_of_row (by decide) (by decide))

theorem unmarked_literal (s : String) : Unmarked (Markup.stringLiteral s) := by
  have hchar (c : Char) : '\n' ∉ Markup.stringChar c := by
    unfold Markup.stringChar
    split_ifs <;> simp_all [eq_comm]
  refine unmarked_of_row ?_ ?_
  · simp [toList_stringLiteral, hchar]
  · simp [toList_stringLiteral]

theorem unmarked_arrayText (values : List String) : Unmarked (arrayText values) := by
  have hliterals : ∀ text ∈ values.map Markup.stringLiteral, Unmarked text :=
    List.forall_mem_map.mpr fun s _ => unmarked_literal s
  unfold arrayText Markup.array
  split
  next text htext =>
    rw [htext] at hliterals
    exact ((unmarked_of_row (by decide) (by decide)).append
      (hliterals text (List.mem_singleton_self text))).append
        (unmarked_of_row (by decide) (by decide))
  next =>
    exact ((unmarked_of_row (by decide) (by decide)).append
      (.intercalate (unmarked_of_row (by decide) (by decide)) hliterals)).append
        (unmarked_of_row (by decide) (by decide))

theorem unmarked_expression (year month day : Nat) :
    Unmarked (Date.expression year month day) := by
  have hdigits (n : Nat) : '\n' ∉ (Text.decimal n).toList := fun h =>
    absurd (Text.isDigit_of_mem_decimal h) (by decide)
  have hopening : '\n' ∉ "datetime(day: ".toList := by decide
  have hmonth : '\n' ∉ ", month: ".toList := by decide
  have hyear : '\n' ∉ ", year: ".toList := by decide
  have hclosing : '\n' ∉ ")".toList := by decide
  refine unmarked_of_row ?_ ?_
  · rw [Date.toList_expression]
    simp only [List.mem_append, not_or]
    exact ⟨hopening, hdigits day, hmonth, hdigits month, hyear, hdigits year, hclosing⟩
  · rw [Date.toList_expression, List.head?_append_of_ne_nil _ (by decide)]
    decide

theorem unmarked_date? {d : String} (h : d ∈ date? m) : Unmarked d := by
  have hword : ∀ word ∈ ["auto", "none"], '\n' ∉ word.toList ∧ word.toList.head? ≠ some '#' := by
    decide
  obtain h | ⟨year, month, day, rfl⟩ := date?_cases h
  · exact unmarked_of_row (hword d h).1 (hword d h).2
  · exact unmarked_expression year month day

theorem unmarked_argumentText (hentries : entriesOf m (date? m) = .ok es) :
    ∀ e ∈ es, Unmarked (argumentText e) := by
  have hnames : ∀ name ∈ argumentNames, '\n' ∉ name.toList ∧ name.toList.head? ≠ some '#' := by
    decide
  intro e he
  obtain ⟨hname, hvalue⟩ := forall_mem_entriesOf unmarked_content unmarked_arrayText
    (fun _ => unmarked_date?) hentries e he
  obtain ⟨hrow, hhead⟩ := hnames e.1 hname
  exact ((unmarked_of_row hrow hhead).append (unmarked_of_row (by decide) (by decide))).append
    hvalue

end Unmarked

section Codes

/-- Registers whose entries have codes of two letters, if any, by which they are found. -/
structure Coded (registers : Locale.Registers) : Prop where
  languages : registers.languages.Coded Locale.Language.alpha2
  countries : registers.countries.Coded fun country => some country.alpha2

theorem coded_registers : Coded Locale.registers := ⟨Locale.coded_languages, Locale.coded_countries⟩

variable {registers : Locale.Registers} {code : String}

theorem newline_notMem_languageIn (hcoded : Coded registers)
    (h : Locale.languageIn registers.languages s = some code) : '\n' ∉ code.toList := fun hmem =>
  absurd ((Locale.isCode_languageIn hcoded.languages h).letters _ hmem) (by decide)

theorem newline_notMem_regionIn (hcoded : Coded registers)
    (h : Locale.regionIn registers.countries s = some code) : '\n' ∉ code.toList := fun hmem =>
  absurd ((Locale.isCode_regionIn hcoded.countries h).letters _ hmem) (by decide)

theorem newline_notMem_code {lookup : String → Option String}
    (hlookup : ∀ s code, lookup s = some code → '\n' ∉ code.toList) {v w : Value}
    (h : Metadata.code lookup v = .ok w) : '\n' ∉ w.shown.toList := by
  have hnull : '\n' ∉ (Value.shown .null).toList := by decide
  unfold Metadata.code at h
  split at h
  · split at h
    next text _ =>
      cases h
      cases hcode : lookup text with
      | none => exact hnull
      | some code => exact hlookup text code hcode
    next => cases h
  · cases h
    exact hnull

theorem newline_notMem_textRule (hlanguage : '\n' ∉ m.language.shown.toList)
    (hregion : '\n' ∉ m.region.shown.toList) : '\n' ∉ (textRule m).toList := by
  unfold textRule
  split_ifs <;> simp [hlanguage, hregion]

end Codes

end Rows

end Typeset.Header
