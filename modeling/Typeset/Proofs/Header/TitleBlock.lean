import Mathlib.Data.List.Infix
import Typeset.Proofs.Conversion.Merged
import Typeset.Proofs.Header.Rows

/-! The title block of a header, and what of it is set before: all, exactly if the rule for the
document could be written or if the block shows nothing that the rule would set. -/

namespace Typeset.Header

open Failure (exists_of_bind)
open Image (sections laidOut laidOut_eq_sections)
open Markup (textRows)
open Render Rendering
open Value (IsText? IsTexts?)

variable {m : Metadata} {date : Option String} {es : List (String × String)} {abstract : String}
  {before after : List (List Char)} {row line : List Char}

/-- The row that the title block begins with. -/
def titleRow : List Char := "#align(center)[".toList

/-- The rows before the title block. -/
def rowsBefore (rows : List (List Char)) : List (List Char) := rows.takeWhile (· != titleRow)

/-- The row on which the title block shows its parts; empty without a title block. -/
def shownRow (rows : List (List Char)) : List Char :=
  ((rows.dropWhile (· != titleRow)).drop 1).headD []

/-- Whether the rule among some rows has an argument of a name. -/
def hasArgument (name : String) (rows : List (List Char)) : Bool :=
  match ruleArguments rows with
  | some arguments => (arguments.map (·.1)).contains name
  | none => false

/-- The beginning of a definition of the abstract. -/
def abstractMark : List Char := "#let abstract = [".toList

/-- What the title block shows is set before it. -/
structure Backed (rows : List (List Char)) : Prop where
  title : "#title()".toList <:+: shownRow rows → hasArgument "title" (rowsBefore rows) = true
  author : "document.author.join".toList <:+: shownRow rows →
    hasArgument "author" (rowsBefore rows) = true
  date : "document.date.display()".toList <:+: shownRow rows →
    hasArgument "date" (rowsBefore rows) = true
  abstract : "#abstract".toList <:+: shownRow rows →
    ∃ row ∈ rowsBefore rows, abstractMark <+: row

/-- The row of a title block by the parts that it shows. -/
def titleLine (title authors dated abstract : Bool) : String :=
  "  " ++ String.intercalate " "
    ((if title then ["#title() \\ \\"] else []) ++
      (if authors then ["#context document.author.join(\", \", last: \" & \") \\ \\"] else []) ++
      (if dated then ["#context document.date.display() \\ \\ "] else []) ++
      (if abstract then ["\\ *Abstract* \\", "#abstract"] else []))

/-- Whether a title block shows the date. -/
def isDated (date : Option String) : Bool := date.isSome && date != some "none"

section Reading

theorem titleBlock_eq (m : Metadata) (date : Option String) : titleBlock m date =
    ["#align(center)[",
      titleLine m.title.truthy m.authors.truthy (isDated date) m.abstract.truthy, "]"] := rfl

/-- The characters of the row, with those of each part by themselves. -/
def titleChars (title authors dated abstract : Bool) : List Char :=
  "  ".toList ++ " ".toList.intercalate
    ((if title then ["#title() \\ \\".toList] else []) ++
      (if authors then
        ["#context document.author.join(\", \", last: \" & \") \\ \\".toList] else []) ++
      (if dated then ["#context document.date.display() \\ \\ ".toList] else []) ++
      (if abstract then ["\\ *Abstract* \\".toList, "#abstract".toList] else []))

theorem toList_titleLine (title authors dated abstract : Bool) :
    (titleLine title authors dated abstract).toList =
      titleChars title authors dated abstract := by
  rw [titleLine, titleChars, String.toList_append, String.toList_intercalate]
  cases title <;> cases authors <;> cases dated <;> cases abstract <;> rfl

theorem isInfix_titleLine_iff (title authors dated abstract : Bool) :
    ("#title()".toList <:+: (titleLine title authors dated abstract).toList ↔ title = true) ∧
      ("document.author.join".toList <:+: (titleLine title authors dated abstract).toList ↔
        authors = true) ∧
      ("document.date.display()".toList <:+: (titleLine title authors dated abstract).toList ↔
        dated = true) ∧
      ("#abstract".toList <:+: (titleLine title authors dated abstract).toList ↔
        abstract = true) := by
  rw [toList_titleLine]
  revert title authors dated abstract
  decide +kernel

theorem newline_notMem_titleLine (title authors dated abstract : Bool) :
    '\n' ∉ (titleLine title authors dated abstract).toList := by
  rw [toList_titleLine]
  revert title authors dated abstract
  decide +kernel

theorem ne_titleRow (h : titleRow ∉ before) : ∀ row ∈ before, (row != titleRow) = true := by
  intro row hrow
  rw [bne_iff_ne]
  rintro rfl
  exact h hrow

theorem rowsBefore_append (h : titleRow ∉ before) :
    rowsBefore (before ++ titleRow :: line :: after) = before := by
  rw [rowsBefore, List.takeWhile_append_of_pos (ne_titleRow h),
    List.takeWhile_cons_of_neg (by simp),
    List.append_nil]

theorem shownRow_append (h : titleRow ∉ before) :
    shownRow (before ++ titleRow :: line :: after) = line := by
  rw [shownRow, List.dropWhile_append_of_pos (ne_titleRow h), List.dropWhile_cons_of_neg (by simp)]
  rfl

/-- Without a title block nothing is shown. -/
theorem backed_of_notMem {rows : List (List Char)} (h : titleRow ∉ rows) : Backed rows := by
  have hnone : shownRow rows = [] := by
    rw [shownRow, List.dropWhile_eq_nil_iff.mpr (ne_titleRow h)]
    rfl
  have hshows {part : List Char} (hpart : part ≠ []) : ¬ part <:+: shownRow rows := by
    rw [hnone, List.infix_nil]
    exact hpart
  exact ⟨fun h => absurd h (hshows (by decide)), fun h => absurd h (hshows (by decide)),
    fun h => absurd h (hshows (by decide)), fun h => absurd h (hshows (by decide))⟩

end Reading

section Arguments

theorem names_entry {name : String} {v : Value} {write : Value → Except Failure String}
    (h : entry name v write = .ok es) : es.map (·.1) = if v.truthy then [name] else [] := by
  obtain ⟨ht, rfl⟩ | ⟨ht, value, -, rfl⟩ := eq_of_entry h
  · rw [if_neg (by simp [ht])]
    rfl
  · rw [if_pos ht]
    rfl

/-- The arguments of the rule are named for what counts as present. -/
theorem names_entriesOf (h : entriesOf m date = .ok es) : es.map (·.1) =
    (if m.title.truthy then ["title"] else []) ++ (if m.authors.truthy then ["author"] else []) ++
      (if m.description.truthy then ["description"] else []) ++
      (if m.keywords.truthy then ["keywords"] else []) ++
      (if date.isSome then ["date"] else []) := by
  obtain ⟨title, htitle, h⟩ := exists_of_bind h
  obtain ⟨author, hauthor, h⟩ := exists_of_bind h
  obtain ⟨description, hdescription, h⟩ := exists_of_bind h
  obtain ⟨keywords, hkeywords, h⟩ := exists_of_bind h
  cases h
  rw [List.map_append, List.map_append, List.map_append, List.map_append, names_entry htitle,
    names_entry hauthor, names_entry hdescription, names_entry hkeywords]
  cases date <;> rfl

theorem entry_text_gives (name : String) {v : Value} (hv : IsText? v) :
    ∃ es, entry name v bracketed = .ok es := by
  rw [entry]
  split
  next ht =>
    obtain ⟨s, rfl⟩ := hv.exists_of_truthy ht
    exact ⟨_, rfl⟩
  next => exact ⟨_, rfl⟩

theorem entry_texts_gives (name : String) {v : Value} (hv : IsTexts? v) :
    ∃ es, entry name v stringArray = .ok es := by
  obtain rfl | ⟨texts, rfl⟩ := hv
  · exact ⟨[], rfl⟩
  · rw [entry, stringArray_ofTexts]
    split <;> exact ⟨_, rfl⟩

/-- Only the keywords can keep the rule from being written. -/
theorem entriesOf_eq_map (hm : m.Shaped) (date : Option String) :
    ∃ g, entriesOf m date = (entry "keywords" m.keywords stringArray).map g := by
  obtain ⟨title, htitle⟩ := entry_text_gives "title" (.inr hm.title)
  obtain ⟨author, hauthor⟩ := entry_texts_gives "author" (.inr hm.authors)
  obtain ⟨description, hdescription⟩ := entry_text_gives "description" hm.description
  rw [entriesOf, htitle, hauthor, hdescription]
  refine ⟨fun keywords =>
    title ++ author ++ description ++ keywords ++ date.toList.map fun d => ("date", d), ?_⟩
  cases entry "keywords" m.keywords stringArray <;> rfl

/-- The rule can be written exactly if the keywords are texts. -/
theorem exists_entriesOf_iff (hm : m.Shaped) (date : Option String) :
    (∃ es, entriesOf m date = .ok es) ↔ IsTexts? m.keywords := by
  obtain ⟨g, hg⟩ := entriesOf_eq_map hm date
  rw [hg]
  constructor
  · rintro ⟨es, h⟩
    obtain ⟨keywords, hkeywords⟩ : ∃ ks, entry "keywords" m.keywords stringArray = .ok ks := by
      cases hk : entry "keywords" m.keywords stringArray with
      | ok ks => exact ⟨ks, rfl⟩
      | error f =>
        rw [hk] at h
        cases h
    obtain hnull | ⟨items, hitems⟩ := hm.keywords
    · exact .inl hnull
    · rw [hitems] at hkeywords ⊢
      obtain ⟨ht, -⟩ | ⟨-, value, hvalue, -⟩ := eq_of_entry hkeywords
      · cases items with
        | nil => exact Value.isTexts?_ofTexts []
        | cons item items => cases ht
      · obtain ⟨texts, hparts, -⟩ := exists_of_stringArray hvalue
        cases hparts
        exact Value.isTexts?_ofTexts texts
  · intro htexts
    obtain ⟨keywords, hkeywords⟩ := entry_texts_gives "keywords" htexts
    rw [hkeywords]
    exact ⟨_, rfl⟩

end Arguments

section Lines

theorem titleRow_notMem_of_unmarked {s : String} (h : Unmarked s) : titleRow ∉ textRows s :=
  fun hmem => h titleRow hmem (by decide)

theorem unmarked_ruleBody (hentries : entriesOf m (date? m) = .ok es) : Unmarked (ruleBody es) := by
  have hseparator : ∀ row ∈ textRows ",\n", row.head? ≠ some '#' := by decide
  refine .intercalate hseparator (List.forall_mem_map.mpr fun e he => ?_)
  exact (unmarked_of_row (by decide) (by decide)).append (unmarked_argumentText hentries e he)

theorem titleRow_notMem_ruleOf (m : Metadata) : ∀ part ∈ ruleOf m, titleRow ∉ textRows part := by
  have hopening : titleRow ∉ textRows "#set document(" := by decide
  have hclosing : titleRow ∉ textRows ")" := by decide
  unfold ruleOf
  split
  next es hes =>
    have hbody := titleRow_notMem_of_unmarked (unmarked_ruleBody hes)
    unfold ruleLines
    split <;> simp [hopening, hclosing, hbody]
  next => exact List.forall_mem_nil _

theorem unmarked_abstractMarkup (h : abstractMarkup m = .ok abstract) : Unmarked abstract := by
  rw [abstractMarkup] at h
  split at h
  · cases hv : m.abstract <;> rw [hv] at h <;> cases h
    exact unmarked_escape _
  · cases h
    exact unmarked_of_row (by decide) (by decide)

/-- The definition of the abstract begins with its mark, and no other row of it with a hash. -/
theorem textRows_abstractLine (h : abstractMarkup m = .ok abstract) :
    ∃ first more,
      textRows ("#let abstract = [" ++ abstract ++ "]") = (abstractMark ++ first) :: more ∧
      ∀ row ∈ more, row.head? ≠ some '#' := by
  have hmark : '\n' ∉ "#let abstract = [".toList := by decide
  have hrest : Unmarked (abstract ++ "]") :=
    (unmarked_abstractMarkup h).append (unmarked_of_row (by decide) (by decide))
  obtain ⟨first, more, hrows⟩ : ∃ first more, textRows (abstract ++ "]") = first :: more :=
    List.exists_cons_of_ne_nil (List.splitOn_ne_nil '\n' _)
  rw [Unmarked, hrows] at hrest
  refine ⟨first, more, ?_, (List.forall_mem_cons.mp hrest).2⟩
  rw [String.append_assoc, Markup.textRows_append_of_row hmark, hrows]
  rfl

/-- A row that begins with a hash is in no definition of an abstract, unless it begins with the
mark. -/
theorem notMem_abstractLine (h : abstractMarkup m = .ok abstract) (hhash : row.head? = some '#')
    (hmark : ¬ abstractMark <+: row) :
    row ∉ textRows ("#let abstract = [" ++ abstract ++ "]") := by
  obtain ⟨first, more, hrows, hmore⟩ := textRows_abstractLine h
  rw [hrows]
  rintro (_ | ⟨_, hmem⟩)
  · exact hmark (List.prefix_append _ _)
  · exact hmore row hmem hhash

theorem titleRow_notMem_abstractLine (h : abstractMarkup m = .ok abstract) :
    titleRow ∉ textRows ("#let abstract = [" ++ abstract ++ "]") :=
  notMem_abstractLine h (by decide) (by decide)

/-- The rows before the title block of a header. -/
def headRows (m : Metadata) (abstract : String) : List (List Char) :=
  [openingLine.toList, []] ++ (ruleOf m ++ (abstractLines m abstract ++ [""])).flatMap textRows

theorem titleRow_notMem_headRows (h : abstractMarkup m = .ok abstract) :
    titleRow ∉ headRows m abstract := by
  have hopening : titleRow ∉ [openingLine.toList, []] := by decide
  have hempty : titleRow ∉ textRows "" := by decide
  have habstract : ∀ part ∈ abstractLines m abstract, titleRow ∉ textRows part := by
    unfold abstractLines
    split <;> simp [hempty, titleRow_notMem_abstractLine h]
  rw [headRows, List.mem_append, List.mem_flatMap]
  rintro (hmem | ⟨part, hpart, hmem⟩)
  · exact hopening hmem
  · rcases List.mem_append.mp hpart with hpart | hpart
    · exact titleRow_notMem_ruleOf m part hpart hmem
    · rcases List.mem_append.mp hpart with hpart | hpart
      · exact habstract part hpart hmem
      · rw [List.mem_singleton.mp hpart] at hmem
        exact hempty hmem

/-- The rows of a header up to its title block, and the row that shows the parts. -/
theorem textRows_titled (howned : hasMetadata m = true) (hshows : shows m = true)
    (date : Option String) (abstract : String) :
    ∃ after, textRows (lines (headerLines m date (ruleOf m) abstract false)) =
      headRows m abstract ++ titleRow ::
        (titleLine m.title.truthy m.authors.truthy (isDated date) m.abstract.truthy).toList ::
          after := by
  have hopening : textRows openingLine = [openingLine.toList] := by decide
  have htitle : textRows "#align(center)[" = [titleRow] := by decide
  have hline : textRows (titleLine m.title.truthy m.authors.truthy (isDated date)
      m.abstract.truthy) = [_] := List.splitOn_eq_singleton (newline_notMem_titleLine _ _ _ _)
  obtain ⟨later, hlater⟩ : ∃ later, ruleOf m ++ linesBehind m date abstract =
      (ruleOf m ++ (abstractLines m abstract ++ [""])) ++ "#align(center)[" ::
        titleLine m.title.truthy m.authors.truthy (isDated date) m.abstract.truthy :: later := by
    rw [linesBehind, if_pos hshows, titleBlock_eq]
    simp only [List.append_assoc, List.cons_append, List.nil_append]
    exact ⟨_, rfl⟩
  rw [headerLines_of_metadata howned, Markup.textRows_lines (List.cons_ne_nil _ _), hlater,
    List.flatMap_cons, List.flatMap_cons, hopening, List.flatMap_append, List.flatMap_cons,
    List.flatMap_cons, htitle, hline, headRows]
  exact ⟨_, rfl⟩

theorem forall_mem_ite {P : String → Prop} {c : Prop} [Decidable c] {xs ys : List String}
    (hx : ∀ part ∈ xs, P part) (hy : ∀ part ∈ ys, P part) :
    ∀ part ∈ if c then xs else ys, P part := by
  split
  · exact hx
  · exact hy

theorem forall_mem_spacedAfter {P : String → Prop} {xs ys : List String} (hempty : P "")
    (hx : ∀ part ∈ xs, P part) (hy : ∀ part ∈ ys, P part) : ∀ part ∈ spacedAfter xs ys, P part :=
  forall_mem_ite hy (List.forall_mem_append.mpr ⟨hx, List.forall_mem_cons.mpr ⟨hempty, hy⟩⟩)

theorem titleRow_notMem_untitled (h : (hasMetadata m && shows m) = false)
    (habstract : abstractMarkup m = .ok abstract) (htext : '\n' ∉ (textRule m).toList)
    (date : Option String) :
    titleRow ∉ textRows (lines (headerLines m date (ruleOf m) abstract false)) := by
  have hopening : titleRow ∉ textRows openingLine := by decide
  have hempty : titleRow ∉ textRows "" := by decide
  have hclosing : titleRow ∉ textRows closingLine := by decide
  have hrule := titleRow_notMem_ruleOf m
  have hdefinition := titleRow_notMem_abstractLine habstract
  have hset : "#set text(".toList <+: (textRule m).toList := by
    obtain ⟨rest, hrest⟩ : ∃ rest, textRule m = "#set text(" ++ rest := ⟨_, String.append_assoc⟩
    rw [hrest, String.toList_append]
    exact List.prefix_append _ _
  have hwords : titleRow ∉ textRows (textRule m) := by
    rw [textRows, List.splitOn_eq_singleton htext, List.mem_singleton]
    intro hrow
    rw [← hrow] at hset
    revert hset
    decide
  have hall : ∀ part ∈ headerLines m date (ruleOf m) abstract false, titleRow ∉ textRows part := by
    have hopened : ∀ part ∈ if hasMetadata m then [openingLine, ""] ++ ruleOf m else [],
        titleRow ∉ textRows part :=
      forall_mem_ite (by simpa [hopening, hempty] using hrule) (List.forall_mem_nil _)
    have habstracted := forall_mem_ite (c := m.abstract.truthy = true)
      (forall_mem_spacedAfter hempty hopened (List.forall_mem_singleton.mpr hdefinition)) hopened
    have hworded := forall_mem_ite (c := (m.language.truthy || m.region.truthy) = true)
      (forall_mem_spacedAfter hempty habstracted (List.forall_mem_singleton.mpr hwords))
      habstracted
    have hclosed : ∀ part ∈ ["", closingLine], titleRow ∉ textRows part := by
      simp [hempty, hclosing]
    rw [shows] at h
    unfold headerLines
    simp only [h, Bool.false_eq_true, if_false]
    exact forall_mem_ite (List.forall_mem_append.mpr ⟨hworded, hclosed⟩) hworded
  by_cases hnone : headerLines m date (ruleOf m) abstract false = []
  · rw [hnone]
    decide
  · rw [Markup.textRows_lines hnone, List.mem_flatMap]
    rintro ⟨part, hpart, hmem⟩
    exact hall part hpart hmem

end Lines

section Backed

theorem ruleRow_notMem_opening : ruleRow ∉ [openingLine.toList, []] := by
  decide

/-- Where the rule was written, its arguments are set before the title block. -/
theorem hasArgument_headRows_of_ok {name : String} (hentries : entriesOf m (date? m) = .ok es)
    (hname : name ∈ es.map (·.1)) (abstract : String) :
    hasArgument name (headRows m abstract) = true := by
  have hrule : ruleOf m = ruleLines es := by rw [ruleOf, hentries]
  have hne : es ≠ [] := by
    rintro rfl
    cases hname
  have hread := ruleArguments_written hne
    (isEntry_of_entriesOf (fun _ => standing_date?) hentries) ruleRow_notMem_opening
    (abstractLines m abstract ++ [""])
  rw [hasArgument, headRows, hrule, hread]
  dsimp only
  rw [List.map_map, List.contains_iff_mem]
  exact hname

/-- Where the rule was left out, nothing is set. -/
theorem hasArgument_headRows_of_error {f : Failure} (hentries : entriesOf m (date? m) = .error f)
    (habstract : abstractMarkup m = .ok abstract) (name : String) :
    hasArgument name (headRows m abstract) = false := by
  have hrule : ruleOf m = [] := by rw [ruleOf, hentries]
  have hempty : ruleRow ∉ textRows "" := by decide
  have hdefinition : ruleRow ∉ textRows ("#let abstract = [" ++ abstract ++ "]") :=
    notMem_abstractLine habstract (by decide) (by decide)
  have hlines : ∀ part ∈ abstractLines m abstract ++ [""], ruleRow ∉ textRows part := by
    unfold abstractLines
    split <;> simp [hempty, hdefinition]
  have hnone : ruleRow ∉ headRows m abstract := by
    rw [headRows, hrule, List.nil_append, List.mem_append, List.mem_flatMap]
    rintro (hmem | ⟨part, hpart, hmem⟩)
    · exact ruleRow_notMem_opening hmem
    · exact hlines part hpart hmem
  have hskip : (headRows m abstract).dropWhile (· != ruleRow) = [] := by
    refine List.dropWhile_eq_nil_iff.mpr fun row hrow => bne_iff_ne.mpr ?_
    rintro rfl
    exact hnone hrow
  rw [hasArgument, ruleArguments, hskip]

/-- The abstract is defined before a title block that shows it. -/
theorem exists_abstractMark (h : m.abstract.truthy = true)
    (habstract : abstractMarkup m = .ok abstract) :
    ∃ row ∈ headRows m abstract, abstractMark <+: row := by
  obtain ⟨first, more, hrows, -⟩ := textRows_abstractLine habstract
  refine ⟨abstractMark ++ first, ?_, List.prefix_append _ _⟩
  rw [headRows, abstractLines, if_pos h]
  refine List.mem_append_right _
    (List.mem_flatMap.mpr ⟨"#let abstract = [" ++ abstract ++ "]", ?_, ?_⟩)
  · simp
  · rw [hrows]
    exact List.mem_cons_self

/-- The abstract is always backed, and the rest by the rule alone. -/
theorem backed_titled (howned : hasMetadata m = true) (hshows : shows m = true)
    (habstract : abstractMarkup m = .ok abstract) :
    Backed (textRows (lines (headerLines m (date? m) (ruleOf m) abstract false))) ↔
      (m.title.truthy = true → hasArgument "title" (headRows m abstract) = true) ∧
        (m.authors.truthy = true → hasArgument "author" (headRows m abstract) = true) ∧
        (isDated (date? m) = true → hasArgument "date" (headRows m abstract) = true) := by
  obtain ⟨after, hrows⟩ := textRows_titled howned hshows (date? m) abstract
  have hfree := titleRow_notMem_headRows habstract
  obtain ⟨htitle, hauthors, hdate, hsummary⟩ :=
    isInfix_titleLine_iff m.title.truthy m.authors.truthy (isDated (date? m)) m.abstract.truthy
  rw [hrows]
  constructor
  · rintro ⟨hone, htwo, hthree, -⟩
    rw [rowsBefore_append hfree, shownRow_append hfree] at hone htwo hthree
    exact ⟨fun h => hone (htitle.mpr h), fun h => htwo (hauthors.mpr h),
      fun h => hthree (hdate.mpr h)⟩
  · rintro ⟨hone, htwo, hthree⟩
    constructor <;> rw [rowsBefore_append hfree, shownRow_append hfree]
    case title => exact fun h => hone (htitle.mp h)
    case author => exact fun h => htwo (hauthors.mp h)
    case date => exact fun h => hthree (hdate.mp h)
    case abstract => exact fun h => exists_abstractMark (hsummary.mp h) habstract

theorem backed_titled_iff (howned : hasMetadata m = true) (hshows : shows m = true)
    (habstract : abstractMarkup m = .ok abstract) :
    Backed (textRows (lines (headerLines m (date? m) (ruleOf m) abstract false))) ↔
      (∃ es, entriesOf m (date? m) = .ok es) ∨
        (m.title.truthy = false ∧ m.authors.truthy = false ∧ isDated (date? m) = false) := by
  rw [backed_titled howned hshows habstract]
  cases hentries : entriesOf m (date? m) with
  | ok es =>
    have hnames := names_entriesOf hentries
    have hset {name : String} (hname : name ∈ es.map (·.1)) :=
      hasArgument_headRows_of_ok hentries hname abstract
    refine iff_of_true ⟨fun h => hset ?_, fun h => hset ?_, fun h => hset ?_⟩ (.inl ⟨es, rfl⟩)
    · simp [hnames, h]
    · simp [hnames, h]
    · have hsome : (date? m).isSome = true := (Bool.and_eq_true_iff.mp h).1
      simp [hnames, hsome]
  | error f => simp [hasArgument_headRows_of_error hentries habstract]

/-- Whether a header shows what the rule would set. -/
def showsSet (m : Metadata) : Bool := m.title.truthy || m.authors.truthy || isDated (date? m)

theorem header_backed_iff {rule : List String} (hm : m.Shaped) (htext : '\n' ∉ (textRule m).toList)
    (hrule : (ownDateAndRule m).outcome = .ok (date, rule))
    (habstract : abstractMarkup m = .ok abstract) :
    Backed (textRows (lines (headerLines m date rule abstract false))) ↔
      IsTexts? m.keywords ∨ showsSet m = false := by
  cases howned : hasMetadata m with
  | false =>
    have hkeywords : m.keywords.truthy = false := by
      rw [hasMetadata] at howned
      exact (Bool.or_eq_false_iff.mp howned).2
    have htexts : IsTexts? m.keywords := by
      obtain hnull | ⟨items, hitems⟩ := hm.keywords
      · exact .inl hnull
      · cases items with
        | nil => exact .inr ⟨[], hitems⟩
        | cons item items =>
          rw [hitems] at hkeywords
          cases hkeywords
    have hlines : headerLines m date rule abstract false =
        headerLines m (date? m) (ruleOf m) abstract false := by
      unfold headerLines
      simp only [howned, Bool.false_eq_true, if_false, Bool.false_and]
    rw [hlines]
    exact iff_of_true
      (backed_of_notMem (titleRow_notMem_untitled (by rw [howned]; rfl) habstract htext _))
      (.inl htexts)
  | true =>
    rw [ownDateAndRule_outcome hm.date howned] at hrule
    cases hrule
    cases hshows : shows m with
    | false =>
      have hset : showsSet m = false := by
        simp only [shows, Bool.or_eq_false_iff] at hshows
        obtain ⟨⟨⟨htitle, hauthors⟩, hdate⟩, -⟩ := hshows
        rw [showsSet, htitle, hauthors, date?, hdate]
        rfl
      exact iff_of_true
        (backed_of_notMem
          (titleRow_notMem_untitled (by rw [howned, hshows]; rfl) habstract htext _))
        (.inr hset)
    | true =>
      rw [backed_titled_iff howned hshows habstract, exists_entriesOf_iff hm]
      simp [showsSet, and_assoc]

/-- Whatever the loader of YAML and the registers, what a title block shows is set before it exactly
if the rule for the document could be written, that is if the keywords of the settings are texts, or
if nothing is shown that the rule would set. -/
theorem titleBlock_backed_iff (settings : Settings) {load : Yaml.Loader}
    {registers : Locale.Registers} (hcoded : Coded registers) {block leadingTitle : Value}
    {front : Reported FrontMatter} (hfront : FrontMatter.decodeValue block load = .ok front)
    (hleading : IsText? leadingTitle) : ∃ m,
      Metadata.merge settings front.answer leadingTitle registers = .ok m ∧
        ∀ env tokens index met,
          (∀ output, (document env m tokens index met).outcome = .ok output → ∃ own helper body,
            output = sections [own, helper, body] ∧
            (document env m (.list []) .null).outcome = .ok own ∧
            helper ∈ ["", lines remoteImageHelper] ∧
            (bodyText env m tokens index).outcome = .ok body ∧
            (Backed (textRows own) ↔
              (∀ v ∈ settings.keywords.getD [], ∃ s, v = .str s) ∨ showsSet m = false)) ∧
          ∀ blocks, tokens = .list blocks → (∀ token ∈ blocks, Token.Typed token) →
            IsIndex? index → ∃ output, (document env m tokens index met).outcome = .ok output := by
  have htyped := FrontMatter.decodeValue_wellTyped hfront
  obtain ⟨m, hmerge, hm⟩ := merge_gives settings htyped hleading registers
  have hshaped := Metadata.merge_shaped htyped hleading hmerge
  have hkeywords := Metadata.merge_keywords (FrontMatter.decodeValue_keywords hfront) hmerge
  have htext : '\n' ∉ (textRule m).toList := by
    obtain ⟨authors, language, region, -, hlanguage, hregion, rfl⟩ :=
      Metadata.exists_of_merge hmerge
    exact newline_notMem_textRule
      (newline_notMem_code (fun _ _ => newline_notMem_languageIn hcoded) hlanguage)
      (newline_notMem_code (fun _ _ => newline_notMem_regionIn hcoded) hregion)
  refine ⟨m, hmerge, fun env tokens index met => ⟨fun output h => ?_, ?_⟩⟩
  · obtain ⟨body, date, rule, abstract, remoteImage, hbody, hrule, habstract, rfl⟩ :=
      exists_of_document h
    refine ⟨_, if remoteImage then lines remoteImageHelper else "", body,
      laidOut_eq_sections date rule abstract body remoteImage,
      Image.document_of_nothing hrule habstract, ?_, hbody, ?_⟩
    · cases remoteImage <;> simp
    · rw [← hkeywords]
      exact header_backed_iff hshaped htext hrule habstract
  · rintro blocks rfl hblocks hindex
    obtain ⟨output, houtput, -⟩ := document_ends hm hblocks hindex met
    exact ⟨output, houtput⟩

/-- A date that is shown, with keywords that are texts. -/
theorem titleBlock_backed_iff_dated : ∃ m output own helper body,
    Metadata.merge { date := some "2024-05-01", keywords := some [.str "a"] } {} .null = .ok m ∧
      (document { convertMath := .ok } m (.list []) .null).outcome = .ok output ∧
      output = sections [own, helper, body] ∧ showsSet m = true ∧ Backed (textRows own) := by
  have hfront : FrontMatter.decodeValue .null = .ok ⟨{}, []⟩ := rfl
  obtain ⟨m, hmerge, h⟩ := titleBlock_backed_iff
    { date := some "2024-05-01", keywords := some [.str "a"] } coded_registers hfront (.inl rfl)
  obtain ⟨hshape, hends⟩ := h { convertMath := .ok } (.list []) .null false
  obtain ⟨output, houtput⟩ := hends [] rfl (List.forall_mem_nil _) (.inl rfl)
  obtain ⟨own, helper, body, hparts, -, -, -, hbacked⟩ := hshape output houtput
  refine ⟨m, output, own, helper, body, hmerge, houtput, hparts, ?_, hbacked.mpr (.inl ?_)⟩
  · cases hmerge
    decide +kernel
  · exact List.forall_mem_singleton.mpr ⟨"a", rfl⟩

/-- Settings with a title and a keyword that is no text. -/
def numberedKeyword : Settings := { title := some "T", keywords := some [.int 1] }

/-- The header of a document with a keyword that is no text. -/
def unbackedHeader : String :=
  "// ===============  FRONTMATTER  ===============\n\n\n" ++
    "#align(center)[\n  #title() \\ \\\n]\n\n" ++
    "//  ============================================"

/-- Metadata with a title and a keyword that is no text. -/
def numberedMetadata : Metadata := { title := .str "T", keywords := .list [.int 1] }

theorem document_numberedMetadata (env : Environment) :
    (document env numberedMetadata (.list []) .null).outcome = .ok unbackedHeader := by
  have hlines : lines (headerLines numberedMetadata none [] "" false) = unbackedHeader := by
    decide +kernel
  rw [← hlines]
  exact Image.document_of_nothing rfl rfl

theorem run_numberedKeyword :
    (Converter.run { settings := numberedKeyword } (.tokens [])).outcome =
      .ok ⟨unbackedHeader, numberedMetadata⟩ :=
  rescue_of_ok (outcome_bind_of_ok (document_numberedMetadata _) _) _

/-- The title is shown, and never set. -/
theorem numberedKeyword_unbacked : ∃ converted,
    (Converter.run { settings := numberedKeyword } (.tokens [])).outcome = .ok converted ∧
      converted.text = unbackedHeader ∧ ¬ Backed (textRows converted.text) := by
  have hshown : "#title()".toList <:+: shownRow (textRows unbackedHeader) := by decide +kernel
  have hunset : hasArgument "title" (rowsBefore (textRows unbackedHeader)) = false := by
    decide +kernel
  have hunbacked : ¬ Backed (textRows unbackedHeader) := fun h => by
    rw [h.title hshown] at hunset
    cases hunset
  exact ⟨⟨unbackedHeader, numberedMetadata⟩, run_numberedKeyword, rfl, hunbacked⟩

end Backed

end Typeset.Header
