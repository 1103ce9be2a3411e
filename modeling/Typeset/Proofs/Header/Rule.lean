import Typeset.Proofs.Header.Reading
import Typeset.Proofs.Image.Helper
import Typeset.Proofs.Date.Calendar

/-! The rule that sets a document's metadata, as a list of named arguments. Whatever the metadata
say, they are read back from it. -/

namespace Typeset.Header

open Typeset.Bracket (IsGap Nested Whole argumentStep inCall isInert)
open Failure (exists_of_bind)
open Image (laidOut)
open Render Rendering
open Scan
open Text (isBlank)
open Value (IsText?)

variable {m : Metadata} {name value s : String} {v : Value} {entries es : List (String × String)}
  {before : List (List Char)} {after : List String} {date : Option String}

/-- A name that an argument can have. -/
def IsName (name : String) : Prop :=
  name ≠ "" ∧ ∀ c ∈ name.toList, isInert c ∧ c ≠ ',' ∧ c ≠ ':' ∧ isBlank c = false

instance : DecidablePred IsName := fun name =>
  have : Decidable (∀ c ∈ name.toList, isInert c ∧ c ≠ ',' ∧ c ≠ ':' ∧ isBlank c = false) :=
    List.decidableBAll _ name.toList
  inferInstanceAs (Decidable (_ ∧ _))

/-- An argument that can be read back: its name and what stands for its value. -/
def IsEntry (entry : String × String) : Prop := IsName entry.1 ∧ Standing entry.2.toList

/-- A named argument as it is written. -/
def argumentText (entry : String × String) : String := entry.1 ++ ": " ++ entry.2

/-- The arguments of the rule, one on each line. -/
def ruleBody (entries : List (String × String)) : String :=
  String.intercalate ",\n" (entries.map fun e => "  " ++ argumentText e)

/-- The lines of the rule with some named arguments. -/
def ruleLines (entries : List (String × String)) : List String :=
  ["#set document("] ++ (if entries.isEmpty then [] else [ruleBody entries]) ++ [")"]

section Written

theorem toList_argumentText (entry : String × String) :
    (argumentText entry).toList = entry.1.toList ++ ':' :: ' ' :: entry.2.toList := by
  simp [argumentText]

theorem IsEntry.whole {entry : String × String} (h : IsEntry entry) :
    Whole (' ' :: ' ' :: (argumentText entry).toList) := by
  obtain ⟨⟨-, hname⟩, hvalue⟩ := h
  have hnameWhole : Whole entry.1.toList :=
    .of_inert fun c hc => ⟨(hname c hc).1, (hname c hc).2.1⟩
  rw [toList_argumentText]
  have hindent : Whole [' ', ' '] := by decide
  have hcolon : Whole [':', ' '] := by decide
  exact hindent.append (hnameWhole.append (hcolon.append hvalue.whole))

theorem IsEntry.trim {entry : String × String} (h : IsEntry entry) :
    Text.trim isBlank (' ' :: ' ' :: (argumentText entry).toList) =
      (argumentText entry).toList := by
  obtain ⟨⟨hne, hname⟩, hvalue⟩ := h
  have hnameNe : entry.1.toList ≠ [] := by simpa using hne
  have hhead : ∀ c ∈ (argumentText entry).toList.head?, isBlank c = false := by
    intro c hc
    rw [toList_argumentText, List.head?_append_of_ne_nil _ hnameNe] at hc
    exact (hname c (List.mem_of_head? hc)).2.2.2
  have hlast : ∀ c ∈ (argumentText entry).toList.getLast?, isBlank c = false := by
    intro c hc
    rw [toList_argumentText, ← List.singleton_append, List.append_cons,
      ← List.append_assoc, List.getLast?_append_of_ne_nil _ hvalue.nonempty] at hc
    exact hvalue.last c hc
  have hlead : ∀ c ∈ [' ', ' '], isBlank c = true := List.all_eq_true.mp rfl
  exact (Text.trim_append_of_head hlead _).trans (Text.trim_eq_self hhead hlast)

theorem IsEntry.named {entry : String × String} (h : IsEntry entry) :
    named (argumentText entry).toList = (entry.1, entry.2.toList) := by
  obtain ⟨⟨-, hname⟩, hvalue⟩ := h
  have hcolon : ∀ c ∈ entry.1.toList, (c != ':') = true := fun c hc => by
    simpa using (hname c hc).2.2.1
  have hlead : ∀ c ∈ [' '], isBlank c = true := List.all_eq_true.mp rfl
  have hvalueTrim : Text.trim isBlank (' ' :: entry.2.toList) = entry.2.toList :=
    (Text.trim_append_of_head hlead _).trans hvalue.trim
  rw [Header.named, toList_argumentText, List.takeWhile_append_of_pos hcolon,
    List.dropWhile_append_of_pos hcolon, List.takeWhile_cons_of_neg (by decide),
    List.dropWhile_cons_of_neg (by decide), List.append_nil, String.ofList_toList, List.drop_one,
    List.tail_cons, hvalueTrim]

/-- The first two of some lines, and what follows them. -/
theorem exists_toList_lines (s t : String) (after : List String) : ∃ rest,
    (lines (s :: t :: after)).toList = s.toList ++ '\n' :: (t.toList ++ rest) := by
  have hpair : lines (s :: t :: after) = s ++ "\n" ++ lines (t :: after) := by
    rw [lines, String.intercalate_cons_of_ne_nil (List.cons_ne_nil _ _), lines]
  have hsecond : ∃ rest, (lines (t :: after)).toList = t.toList ++ rest := by
    cases after with
    | nil => exact ⟨[], by rw [lines, String.intercalate_singleton, List.append_nil]⟩
    | cons u after =>
      rw [lines, String.intercalate_cons_of_ne_nil (List.cons_ne_nil _ _)]
      exact ⟨_, by rw [String.append_assoc, String.toList_append]⟩
  obtain ⟨rest, hrest⟩ := hsecond
  exact ⟨rest, by simp [hpair, hrest]⟩

theorem toList_ruleBody (entries : List (String × String)) : (ruleBody entries).toList =
    (',' :: ['\n']).intercalate (entries.map fun e => ' ' :: ' ' :: (argumentText e).toList) := by
  have hseparator : ",\n".toList = ',' :: ['\n'] := rfl
  rw [ruleBody, String.toList_intercalate, hseparator, List.map_map]
  simp [Function.comp_def]

/-- The arguments are read back up to the parenthesis that closes the rule. -/
theorem arguments_ruleBody (hne : es ≠ []) (h : ∀ e ∈ es, IsEntry e) (rest : List Char) :
    (Bracket.arguments ((ruleBody es).toList ++ '\n' :: ')' :: rest)).map
        (fun (parts, _) => parts.map named) =
      some (es.map fun e => (e.1, e.2.toList)) := by
  have hgap : IsGap ['\n'] := by decide
  have hsome : (es.map fun e => ' ' :: ' ' :: (argumentText e).toList) ≠ [] := by simpa using hne
  have hwritten := Bracket.arguments_written hgap hgap hsome
    (List.forall_mem_map.mpr fun e he => (h e he).whole) rest
  rw [toList_ruleBody]
  refine (congrArg _ hwritten).trans ?_
  rw [Option.map_some]
  dsimp only
  rw [List.map_map, List.map_map]
  refine congrArg some (List.map_congr_left fun e he => ?_)
  exact (congrArg named (h e he).trim).trans (h e he).named

/-- The rule gives back its arguments, wherever it stands. -/
theorem ruleArguments_written (hne : es ≠ []) (h : ∀ e ∈ es, IsEntry e) (hbefore : ruleRow ∉ before)
    (after : List String) :
    ruleArguments (before ++ (ruleLines es ++ after).flatMap Markup.textRows) =
      some (es.map fun e => (e.1, e.2.toList)) := by
  have hrule : ruleLines es ++ after = "#set document(" :: ruleBody es :: ")" :: after := by
    rw [ruleLines, if_neg (by simpa using hne)]
    rfl
  have hrow : Markup.textRows "#set document(" = [ruleRow] := by decide
  have hskip : ∀ row ∈ before, (row != ruleRow) = true := by
    intro row hmem
    rw [bne_iff_ne]
    rintro rfl
    exact hbefore hmem
  obtain ⟨rest, hrest⟩ := exists_toList_lines (ruleBody es) ")" after
  have hbehind : ['\n'].intercalate ((ruleBody es :: ")" :: after).flatMap Markup.textRows) =
      (ruleBody es).toList ++ '\n' :: ')' :: rest := by
    rw [← Markup.textRows_lines (List.cons_ne_nil _ _), Markup.textRows, List.intercalate_splitOn,
      hrest]
    rfl
  rw [hrule, List.flatMap_cons, hrow, List.singleton_append, ruleArguments,
    List.dropWhile_append_of_pos hskip, List.dropWhile_cons_of_neg (by simp)]
  dsimp only
  rw [hbehind, arguments_ruleBody hne h]

end Written

section Metadata

/-- The named argument for a value, if the value counts as present. -/
def entry (name : String) (v : Value) (write : Value → Except Failure String) :
    Except Failure (List (String × String)) :=
  if v.truthy then (write v).map fun value => [(name, value)] else .ok []

/-- The named arguments of the rule. -/
def entriesOf (m : Metadata) (date : Option String) : Except Failure (List (String × String)) := do
  let title ← entry "title" m.title bracketed
  let author ← entry "author" m.authors stringArray
  let description ← entry "description" m.description bracketed
  let keywords ← entry "keywords" m.keywords stringArray
  return title ++ author ++ description ++ keywords ++ date.toList.map fun d => ("date", d)

theorem argument_eq (name : String) (v : Value) (write : Value → Except Failure String) :
    argument name v write = (entry name v write).map fun es => es.map argumentText := by
  rw [argument, entry]
  split
  · cases write v <;> rfl
  · rfl

theorem documentRule_eq (m : Metadata) (date : Option String) :
    documentRule m date = (entriesOf m date).map ruleLines := by
  have hday : date.toList.map ("date: " ++ ·) =
      (date.toList.map fun d => ("date", d)).map argumentText := by
    rw [List.map_map]
    rfl
  rw [documentRule, entriesOf, hday]
  simp only [argument_eq]
  rcases entry "title" m.title bracketed with f | title
  · rfl
  rcases entry "author" m.authors stringArray with f | author
  · rfl
  rcases entry "description" m.description bracketed with f | description
  · rfl
  rcases entry "keywords" m.keywords stringArray with f | keywords
  · rfl
  simp [bind, Except.bind, pure, Except.pure, Except.map, ruleLines, ruleBody, List.isEmpty_iff,
    Function.comp_def]

theorem exists_of_bracketed (h : bracketed v = .ok value) :
    ∃ s, v = .str s ∧ value = "[" ++ Markup.escape s ++ "]" := by
  obtain ⟨markup, hmarkup, h⟩ := exists_of_bind h
  cases h
  cases v <;> cases hmarkup
  exact ⟨_, rfl, rfl⟩

/-- The literals of an array stand for texts, one for each. -/
theorem exists_of_mapM_quoted {vs : List Value} {items : List String}
    (h : (vs.mapM fun item => do
      return "\"" ++ (← Markup.escapeStringValue item) ++ "\"") = .ok items) :
    ∃ texts : List String, vs = texts.map .str ∧ items = texts.map Markup.stringLiteral := by
  induction vs generalizing items with
  | nil =>
    cases h
    exact ⟨[], rfl, rfl⟩
  | cons v vs ih =>
    rw [List.mapM_cons] at h
    obtain ⟨item, hitem, h⟩ := exists_of_bind h
    obtain ⟨more, hmore, h⟩ := exists_of_bind h
    cases h
    obtain ⟨texts, rfl, rfl⟩ := ih hmore
    obtain ⟨escaped, hescaped, hitem⟩ := exists_of_bind hitem
    cases hitem
    cases v <;> cases hescaped
    exact ⟨_ :: texts, rfl, rfl⟩

theorem exists_of_stringArray (h : stringArray v = .ok value) :
    ∃ texts : List String, v.parts = .ok (texts.map .str) ∧ value = arrayText texts := by
  obtain ⟨parts, hparts, h⟩ := exists_of_bind h
  obtain ⟨items, hitems, h⟩ := exists_of_bind h
  cases h
  obtain ⟨texts, rfl, rfl⟩ := exists_of_mapM_quoted hitems
  exact ⟨texts, hparts, rfl⟩

theorem stringArray_ofTexts (texts : List String) :
    stringArray (.ofTexts texts) = .ok (arrayText texts) := by
  have hquoted : ((texts.map Value.str).mapM fun item => do
      return "\"" ++ (← Markup.escapeStringValue item) ++ "\"") =
        (.ok (texts.map Markup.stringLiteral) : Except Failure (List String)) := by
    induction texts with
    | nil => rfl
    | cons s texts ih =>
      rw [List.map_cons, List.mapM_cons, ih]
      rfl
  rw [stringArray, Value.ofTexts]
  exact (congrArg (fun r => r >>= fun items => pure (Markup.array items)) hquoted).trans rfl

theorem eq_of_entry {write : Value → Except Failure String} (h : entry name v write = .ok es) :
    v.truthy = false ∧ es = [] ∨
      v.truthy = true ∧ ∃ value, write v = .ok value ∧ es = [(name, value)] := by
  rw [entry] at h
  split at h
  next ht =>
    cases hv : write v with
    | error f =>
      rw [hv] at h
      cases h
    | ok value =>
      rw [hv] at h
      cases h
      exact .inr ⟨ht, value, rfl, rfl⟩
  next ht =>
    cases h
    exact .inl ⟨by simpa using ht, rfl⟩

/-- The names of the arguments that the rule can have. -/
def argumentNames : List String := ["title", "author", "description", "keywords", "date"]

/-- What holds of content, of arrays and of the date holds of the value of every argument. -/
theorem forall_mem_entriesOf {P : String → Prop}
    (hcontent : ∀ s, P ("[" ++ Markup.escape s ++ "]")) (harray : ∀ texts, P (arrayText texts))
    (hdate : ∀ d ∈ date, P d) (h : entriesOf m date = .ok es) :
    ∀ e ∈ es, e.1 ∈ argumentNames ∧ P e.2 := by
  have hbracketed {name : String} {v : Value} {es : List (String × String)}
      (hname : name ∈ argumentNames) (h : entry name v bracketed = .ok es) :
      ∀ e ∈ es, e.1 ∈ argumentNames ∧ P e.2 := by
    obtain ⟨-, rfl⟩ | ⟨-, value, hv, rfl⟩ := eq_of_entry h
    · exact List.forall_mem_nil _
    · obtain ⟨s, -, rfl⟩ := exists_of_bracketed hv
      exact List.forall_mem_singleton.mpr ⟨hname, hcontent s⟩
  have hstrings {name : String} {v : Value} {es : List (String × String)}
      (hname : name ∈ argumentNames) (h : entry name v stringArray = .ok es) :
      ∀ e ∈ es, e.1 ∈ argumentNames ∧ P e.2 := by
    obtain ⟨-, rfl⟩ | ⟨-, value, hv, rfl⟩ := eq_of_entry h
    · exact List.forall_mem_nil _
    · obtain ⟨texts, -, rfl⟩ := exists_of_stringArray hv
      exact List.forall_mem_singleton.mpr ⟨hname, harray texts⟩
  obtain ⟨title, htitle, h⟩ := exists_of_bind h
  obtain ⟨author, hauthor, h⟩ := exists_of_bind h
  obtain ⟨description, hdescription, h⟩ := exists_of_bind h
  obtain ⟨keywords, hkeywords, h⟩ := exists_of_bind h
  cases h
  have hday : ∀ e ∈ date.toList.map fun d => ("date", d), e.1 ∈ argumentNames ∧ P e.2 :=
    List.forall_mem_map.mpr fun d hd =>
      ⟨by simp [argumentNames], hdate d (Option.mem_toList.mp hd)⟩
  simp only [List.forall_mem_append]
  exact ⟨⟨⟨⟨hbracketed (by decide) htitle, hstrings (by decide) hauthor⟩,
    hbracketed (by decide) hdescription⟩, hstrings (by decide) hkeywords⟩, hday⟩

theorem isEntry_of_entriesOf (hdate : ∀ d ∈ date, Standing d.toList)
    (h : entriesOf m date = .ok es) : ∀ e ∈ es, IsEntry e := by
  have hnames : ∀ name ∈ argumentNames, IsName name := by decide
  intro e he
  obtain ⟨hname, hvalue⟩ := forall_mem_entriesOf standing_content standing_arrayText hdate h e he
  exact ⟨hnames e.1 hname, hvalue⟩

end Metadata

section Date

theorem isInert_of_isDigit {c : Char} (h : c.isDigit = true) : isInert c := by
  rw [Bracket.isInert, Bool.not_eq_true', Bool.eq_false_iff]
  intro hmem
  simp only [List.contains_eq_mem, decide_eq_true_eq, List.mem_cons, List.not_mem_nil,
    or_false] at hmem
  rcases hmem with rfl | rfl | rfl | rfl | rfl | rfl | rfl | rfl <;> cases h

theorem whole_expression (year month day : Nat) :
    Whole (Date.expression year month day).toList := by
  have hdigits (n : Nat) : Nested (Text.decimal n).toList :=
    .of_inert fun _ hc => isInert_of_isDigit (Text.isDigit_of_mem_decimal hc)
  have hmonth : Nested ", month: ".toList := by decide
  have hyear : Nested ", year: ".toList := by decide
  have hopening : run argumentStep inCall "datetime(day: ".toList =
      some ⟨[.call, .call], .plain⟩ := by decide
  have hclosing : run argumentStep ⟨[.call, .call], .plain⟩ ")".toList = some inCall := by decide
  rw [Date.toList_expression, Whole, run_append_of_eq hopening, run_append_of_eq (hdigits day),
    run_append_of_eq hmonth, run_append_of_eq (hdigits month), run_append_of_eq hyear,
    run_append_of_eq (hdigits year), hclosing]

theorem standing_expression (year month day : Nat) :
    Standing (Date.expression year month day).toList := by
  have hopening : "datetime(day: ".toList ≠ [] := by decide
  have hclosing : ")".toList ≠ [] := by decide
  have hfirst : "datetime(day: ".toList.head? = some 'd' := by decide
  have hlast : ")".toList.getLast? = some ')' := by decide
  refine ⟨?_, whole_expression year month day, ?_, ?_⟩
  · rw [Date.toList_expression]
    exact List.append_ne_nil_of_left_ne_nil hopening _
  · rw [Date.toList_expression, List.head?_append_of_ne_nil _ hopening, hfirst]
    rintro _ ⟨⟩
    rfl
  · simp only [Date.toList_expression, ← List.append_assoc]
    rw [List.getLast?_append_of_ne_nil _ hclosing, hlast]
    rintro _ ⟨⟩
    rfl

/-- A date is one of two words, or a call. -/
theorem parse_answer (s : String) : (Date.parse s).answer ∈ ["auto", "none"] ∨
    ∃ year month day, (Date.parse s).answer = Date.expression year month day := by
  unfold Date.parse
  dsimp only
  split
  next h => exact .inl (by simpa using h)
  next =>
    split
    · split
      · exact .inr ⟨_, _, _, rfl⟩
      · exact .inl List.mem_cons_self
    · exact .inl List.mem_cons_self

/-- The date that a document is given. -/
def date? (m : Metadata) : Option String :=
  if m.date.truthy then m.date.str?.map fun s => (Date.parse s).answer else none

theorem date?_cases {d : String} (h : d ∈ date? m) :
    d ∈ ["auto", "none"] ∨ ∃ year month day, d = Date.expression year month day := by
  rw [date?] at h
  split at h
  · obtain ⟨s, -, rfl⟩ := Option.map_eq_some_iff.mp h
    exact parse_answer s
  · cases h

theorem standing_date? {d : String} (h : d ∈ date? m) : Standing d.toList := by
  have hauto : Standing ('a' :: (['u', 't'] ++ ['o'])) := .enclosed rfl rfl (by decide)
  have hnone : Standing ('n' :: (['o', 'n'] ++ ['e'])) := .enclosed rfl rfl (by decide)
  obtain h | ⟨year, month, day, rfl⟩ := date?_cases h
  · simp only [List.mem_cons, List.not_mem_nil, or_false] at h
    obtain rfl | rfl := h
    · exact hauto
    · exact hnone
  · exact standing_expression year month day

theorem documentDate_outcome (h : IsText? m.date) : (documentDate m).outcome = .ok (date? m) := by
  rw [documentDate, date?]
  split
  next ht =>
    obtain ⟨s, hs⟩ := h.exists_of_truthy ht
    rw [hs]
    rfl
  next => rfl

/-- The rule of a document; metadata that cannot be written leave it out. -/
def ruleOf (m : Metadata) : List String :=
  match entriesOf m (date? m) with
  | .ok es => ruleLines es
  | .error _ => []

theorem rescue_documentRule (m : Metadata) (date : Option String) :
    (rescue (do
        let rule ← documentRule m date
        pure (date, rule))
      fun cause => do
        report (brokenMetadata cause)
        pure (date, [])).outcome =
      .ok (date, match entriesOf m date with
        | .ok es => ruleLines es
        | .error _ => []) := by
  rw [documentRule_eq]
  cases entriesOf m date <;> rfl

theorem rescue_of_ok {α : Type} {r : Rendering α} {a : α} (h : r.outcome = .ok a)
    (handler : Failure → Rendering α) : (r.rescue handler).outcome = .ok a := by
  rw [Rendering.rescue, h]
  exact h

theorem ownDateAndRule_outcome (h : IsText? m.date) (howned : hasMetadata m = true) :
    (ownDateAndRule m).outcome = .ok (date? m, ruleOf m) := by
  rw [ownDateAndRule, if_pos howned, dateAndRule]
  refine rescue_of_ok ?_ _
  exact (outcome_bind_of_ok (documentDate_outcome h) _).trans (rescue_documentRule m _)

end Date

end Typeset.Header
