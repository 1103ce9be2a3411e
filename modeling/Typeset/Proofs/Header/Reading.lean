import Mathlib.Data.List.Basic
import Typeset.Proofs.Bracket.Argument
import Typeset.Proofs.Markup.Escaped
import Typeset.Render.Document

/-! The rule that sets a document's metadata as Typst reads it: its arguments by name, the literal
text of content, and the strings of an array. -/

namespace Typeset.Header

open Typeset.Bracket (IsGap Nested Whole)
open Text (isBlank)

variable {cs rest value : List Char} {parts : List (List Char)} {values : List String}

/-- Literal text up to the bracket that closes its content, and what follows that. None if anything
in the text means more to markup than itself. -/
def literalText : List Char → Option (List Char × List Char)
  | [] => none
  | '\\' :: c :: rest => (literalText rest).map fun (text, after) => (c :: text, after)
  | c :: rest =>
    if c = ']' then some ([], rest)
    else if Markup.isSpecial c || Markup.opensComment c rest then none
    else (literalText rest).map fun (text, after) => (c :: text, after)

/-- The text of content that is literal. -/
def content? : List Char → Option String
  | '[' :: rest =>
    match literalText rest with
    | some (text, []) => some (String.ofList text)
    | _ => none
  | _ => none

/-- The character that a letter stands for behind a backslash in a string literal. -/
def escaped? (c : Char) : Option Char :=
  if c = '\\' || c = '"' then some c
  else if c = 'n' then some '\n'
  else if c = 'r' then some '\r'
  else if c = 't' then some '\t'
  else none

/-- What a string literal stands for, read from behind its opening mark, and what follows it. -/
def stringText : List Char → Option (List Char × List Char)
  | [] => none
  | '\\' :: c :: rest => do
    let d ← escaped? c
    let (text, after) ← stringText rest
    return (d :: text, after)
  | c :: rest =>
    if c = '"' then some ([], rest)
    else if c = '\\' then none
    else (stringText rest).map fun (text, after) => (c :: text, after)

/-- The text of a string literal. -/
def string? : List Char → Option String
  | '"' :: rest =>
    match stringText rest with
    | some (text, []) => some (String.ofList text)
    | _ => none
  | _ => none

/-- The items between the parentheses of an array. A comma may follow the last one, and a single one
without a comma is no array. -/
def items? (parts : List (List Char)) : Option (List (List Char)) :=
  if parts.getLast? = some [] then some parts.dropLast
  else if parts.length = 1 then none
  else some parts

/-- The texts of an array of string literals. -/
def strings? : List Char → Option (List String)
  | '(' :: rest =>
    match Bracket.arguments rest with
    | some (parts, []) => (items? parts).bind fun items => items.mapM string?
    | _ => none
  | _ => none

/-- A named argument: its name stands before its first colon. -/
def named (argument : List Char) : String × List Char :=
  (String.ofList (argument.takeWhile (· != ':')),
    Text.trim isBlank ((argument.dropWhile (· != ':')).drop 1))

/-- The row that the rule begins with. -/
def ruleRow : List Char := "#set document(".toList

/-- The named arguments of the rule among some rows, if there is one. -/
def ruleArguments (rows : List (List Char)) : Option (List (String × List Char)) :=
  match rows.dropWhile (· != ruleRow) with
  | [] => none
  | _ :: behind =>
    (Bracket.arguments (['\n'].intercalate behind)).map fun (parts, _) => parts.map named

section Values

/-- An escaped text does not open a comment where the text itself does not. -/
theorem opensComment_escapeChars (c : Char) (cs rest : List Char)
    (h : Markup.opensComment c cs = false) :
    Markup.opensComment c (Markup.escapeChars cs ++ ']' :: rest) = false := by
  cases cs with
  | nil => simp [Markup.opensComment, Markup.escapeChars]
  | cons d cs =>
    rw [Markup.escapeChars]
    split
    · simp [Markup.opensComment]
    · simpa [Markup.opensComment] using h

theorem literalText_escapeChars (cs rest : List Char) :
    literalText (Markup.escapeChars cs ++ ']' :: rest) = some (cs, rest) := by
  induction cs with
  | nil => rfl
  | cons c cs ih =>
    by_cases h : Markup.isSpecial c || Markup.opensComment c cs
    · rw [Markup.escapeChars, if_pos h, List.cons_append, List.cons_append, literalText, ih]
      rfl
    · obtain ⟨hspecial, hcomment⟩ := not_or.mp (mt (Bool.or_eq_true _ _).mpr h)
      have hslash : c ≠ '\\' := by
        rintro rfl
        exact hspecial rfl
      have hclose : c ≠ ']' := by
        rintro rfl
        exact hspecial rfl
      have hlater := opensComment_escapeChars c cs rest (by simpa using hcomment)
      rw [Markup.escapeChars, if_neg h, List.cons_append, literalText, if_neg hclose,
        if_neg (by simp [hspecial, hlater]), ih]
      · rfl
      · exact fun _ _ he => absurd he hslash

theorem toList_content (s : String) : ("[" ++ Markup.escape s ++ "]").toList =
    '[' :: (Markup.escapeChars s.toList ++ [']']) := by
  simp [Markup.escape]

/-- Escaped text in brackets is the text itself. -/
theorem content?_escape (s : String) :
    content? ("[" ++ Markup.escape s ++ "]").toList = some s := by
  rw [toList_content, content?, literalText_escapeChars]
  dsimp only
  rw [String.ofList_toList]

theorem stringText_stringChar (c : Char) (rest : List Char) :
    stringText (Markup.stringChar c ++ rest) =
      (stringText rest).map fun (text, after) => (c :: text, after) := by
  have hescape (d e : Char) (h : escaped? d = some e) : stringText ('\\' :: d :: rest) =
      (stringText rest).map fun (text, after) => (e :: text, after) := by
    rw [stringText, h]
    cases stringText rest <;> rfl
  unfold Markup.stringChar
  split_ifs with hslash hquote hnewline
  · rw [hslash]
    exact hescape '\\' '\\' rfl
  · rw [hquote]
    exact hescape '"' '"' rfl
  · rw [hnewline]
    exact hescape 'n' '\n' rfl
  · rw [List.singleton_append, stringText, if_neg hquote, if_neg hslash]
    exact fun _ _ he => absurd he hslash

theorem stringText_literal (cs rest : List Char) :
    stringText (cs.flatMap Markup.stringChar ++ '"' :: rest) = some (cs, rest) := by
  induction cs with
  | nil => rfl
  | cons c cs ih =>
    rw [List.flatMap_cons, List.append_assoc, stringText_stringChar, ih]
    rfl

theorem toList_stringLiteral (s : String) : (Markup.stringLiteral s).toList =
    '"' :: (s.toList.flatMap Markup.stringChar ++ ['"']) := by
  simp [Markup.stringLiteral, Markup.escapeString]

/-- A string literal is the text that it was written for. -/
theorem string?_stringLiteral (s : String) : string? (Markup.stringLiteral s).toList = some s := by
  rw [toList_stringLiteral, string?, stringText_literal]
  dsimp only
  rw [String.ofList_toList]

end Values

section Arrays

/-- What stands for a value: one argument, with no white space around it. -/
structure Standing (value : List Char) : Prop where
  nonempty : value ≠ []
  whole : Whole value
  head : ∀ c ∈ value.head?, isBlank c = false
  last : ∀ c ∈ value.getLast?, isBlank c = false

theorem Standing.trim (h : Standing value) : Text.trim isBlank value = value :=
  Text.trim_eq_self h.head h.last

theorem Standing.enclosed {first last : Char} (hfirst : isBlank first = false)
    (hlast : isBlank last = false) (h : Whole (first :: (cs ++ [last]))) :
    Standing (first :: (cs ++ [last])) where
  nonempty := List.cons_ne_nil _ _
  whole := h
  head := by
    rintro c ⟨⟩
    exact hfirst
  last := by
    rw [← List.cons_append, List.getLast?_concat]
    rintro c ⟨⟩
    exact hlast

theorem standing_literal (s : String) : Standing (Markup.stringLiteral s).toList := by
  have h := Whole.literal s
  rw [toList_stringLiteral] at h ⊢
  exact .enclosed (by decide) (by decide) h

theorem standing_content (s : String) : Standing ("[" ++ Markup.escape s ++ "]").toList := by
  rw [toList_content]
  exact .enclosed (by decide) (by decide) (.bracketed (Bracket.balanced_escapeChars s.toList))

/-- The string literals for some texts. -/
def literals (values : List String) : List (List Char) :=
  values.map fun s => (Markup.stringLiteral s).toList

theorem standing_of_mem_literals (h : value ∈ literals values) : Standing value := by
  obtain ⟨s, -, rfl⟩ := List.mem_map.mp h
  exact standing_literal s

theorem mapM_literals (values : List String) : (literals values).mapM string? = some values := by
  induction values with
  | nil => rfl
  | cons s values ih =>
    rw [literals, List.map_cons, List.mapM_cons, string?_stringLiteral, ← literals, ih]
    rfl

theorem map_trim (h : ∀ value ∈ parts, Standing value) :
    parts.map (Text.trim isBlank) = parts := by
  calc parts.map (Text.trim isBlank)
      = parts.map id := List.map_congr_left fun value hvalue => (h value hvalue).trim
    _ = parts := List.map_id parts

/-- The array of the string literals for some texts. -/
def arrayText (values : List String) : String := Markup.array (values.map Markup.stringLiteral)

theorem toList_arrayText_single (s : String) : (arrayText [s]).toList =
    '(' :: ((Markup.stringLiteral s).toList ++ ',' :: [] ++ [')']) := by
  simp [arrayText, Markup.array]

theorem toList_arrayText_several (s t : String) (values : List String) :
    (arrayText (s :: t :: values)).toList =
      '(' :: ((',' :: [' ']).intercalate (literals (s :: t :: values)) ++ [')']) := by
  have hseparator : ", ".toList = ',' :: [' '] := rfl
  have hliterals : ((s :: t :: values).map Markup.stringLiteral).map String.toList =
      literals (s :: t :: values) := List.map_map
  rw [← hliterals, ← hseparator]
  simp [arrayText, Markup.array]

theorem standing_arrayText (values : List String) : Standing (arrayText values).toList := by
  have hinside : ∀ value ∈ literals values, Nested value := by
    intro value hvalue
    obtain ⟨s, -, rfl⟩ := List.mem_map.mp hvalue
    exact .literal s
  match values with
  | [] =>
    have hempty : Standing ('(' :: ([] ++ [')'])) := .enclosed rfl rfl (by decide)
    exact hempty
  | [s] =>
    have hcomma : Nested [','] := by decide
    rw [toList_arrayText_single]
    exact .enclosed (by decide) (by decide) (.grouped (.append (.literal s) hcomma))
  | s :: t :: values =>
    have hcomma : Nested (',' :: [' ']) := by decide
    rw [toList_arrayText_several]
    exact .enclosed (by decide) (by decide) (.grouped (.intercalate hcomma hinside))

theorem isGap_blank : IsGap [' '] := by
  decide

theorem isGap_nil : IsGap [] := by
  decide

/-- The items of an array are what stands between its parentheses. -/
theorem strings?_of_arguments (h : Bracket.arguments rest = some (parts, []))
    (hitems : items? parts = some (literals values)) :
    strings? ('(' :: rest) = some values := by
  rw [strings?, h]
  dsimp only
  rw [hitems, Option.bind_some, mapM_literals]

theorem strings?_arrayText (hne : values ≠ []) :
    strings? (arrayText values).toList = some values := by
  obtain ⟨s, values, rfl⟩ := List.exists_cons_of_ne_nil hne
  cases values with
  | nil =>
    have hparts : Bracket.arguments ((Markup.stringLiteral s).toList ++ ([','] ++ [')'])) =
        some ([(Markup.stringLiteral s).toList, []], []) := by
      rw [List.singleton_append, Bracket.arguments_comma (.literal s), (standing_literal s).trim,
        ← List.nil_append [')'], Bracket.arguments_last isGap_nil.whole]
      rfl
    rw [toList_arrayText_single, List.append_assoc]
    exact strings?_of_arguments hparts rfl
  | cons t values =>
    have hsome : literals (s :: t :: values) ≠ [] := List.cons_ne_nil _ _
    have hparts := Bracket.arguments_written isGap_blank isGap_nil hsome
      (fun value hvalue => (standing_of_mem_literals hvalue).whole) []
    rw [map_trim fun value hvalue => standing_of_mem_literals hvalue] at hparts
    -- No string literal is empty, so that the last item is one.
    have hlast : (literals (s :: t :: values)).getLast? ≠ some [] := by
      intro h
      obtain ⟨u, -, hu⟩ := List.mem_map.mp (List.mem_of_getLast? h)
      rw [toList_stringLiteral] at hu
      cases hu
    have hitems : items? (literals (s :: t :: values)) = some (literals (s :: t :: values)) := by
      rw [items?, if_neg hlast, if_neg (by simp [literals])]
    rw [toList_arrayText_several]
    exact strings?_of_arguments hparts hitems

end Arrays

end Typeset.Header
