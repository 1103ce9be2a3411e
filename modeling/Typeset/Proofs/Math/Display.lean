import Typeset.Markdown.Span
import Typeset.Proofs.Math.Delimiter
import Typeset.Proofs.Render.Form
import Typeset.Token.Normal

/-! Formulas in running text, from the dollar signs of the source to those of the document: which
formulas are shown like a formula between double dollars. -/

namespace Typeset.Math

open Markdown (Inline)
open Markdown.Span (doubleDollar? math?)

variable {cs raw after : List Char} {text : String}

/-- A formula from between dollar signs, as the reader hands it on: only between double ones is the
length of the source known. -/
def dollarPart (double : Bool) (raw : List Char) : Inline :=
  .math raw (if double then some (raw.length + 4) else none)

/-- The length of the source of a formula from between dollar signs. -/
def sourceLength (double : Bool) (raw : List Char) : Nat :=
  raw.length + if double then 4 else 2

/-- The white space around a formula, inside the dollar signs. -/
def padding (raw : List Char) : Nat := raw.length - (Text.trim Text.isBlank raw).length

section Read

theorem doubleDollar?_eq_some {part : Inline}
    (h : doubleDollar? cs = some (part, after)) :
    ['$', '$'] <+: cs ∧ ∃ raw, part = dollarPart true raw := by
  unfold doubleDollar? at h
  split at h
  next rest =>
    dsimp only at h
    split at h
    · split at h
      · cases h
      · cases h
        exact ⟨⟨rest, rfl⟩, _, rfl⟩
    · cases h
  next => cases h

theorem escapedDollars?_ne (raw : List Char) (span : Option Nat) :
    Markdown.Span.escapedDollars? cs ≠ some (.math raw span, after) := by
  unfold Markdown.Span.escapedDollars?
  split
  · split <;> simp
  · simp

/-- Between single dollar signs the formula starts at once, so that two of them in a row open
nothing. -/
theorem singleDollar?_eq_some {part : Inline}
    (h : Markdown.Span.singleDollar? cs = some (part, after)) :
    ¬ ['$', '$'] <+: cs ∧ ∃ raw, part = .math raw none := by
  unfold Markdown.Span.singleDollar? at h
  split at h
  next rest =>
    split at h
    next body c behind hbody =>
      split at h
      · cases h
      next hstart =>
        cases h
        refine ⟨?_, body, rfl⟩
        rintro ⟨more, hmore⟩
        obtain rfl : '$' :: more = rest := by simpa using hmore
        cases hbody
        simp at hstart
    next => cases h
  next => cases h

theorem fencedFormula?_eq_some {part : Inline}
    (h : Markdown.Span.fencedFormula? cs = some (part, after)) :
    ¬ ['$', '$'] <+: cs ∧ ∃ raw, part = .math raw none := by
  unfold Markdown.Span.fencedFormula? at h
  split at h
  next rest =>
    obtain ⟨k, hk, h⟩ := List.exists_of_findSome?_eq_some h
    obtain ⟨⟨body, behind⟩, _, h⟩ := Option.map_eq_some_iff.mp h
    cases h
    refine ⟨?_, body, rfl⟩
    rintro ⟨more, hmore⟩
    obtain rfl : '$' :: more = rest := by simpa using hmore
    simp at hk
  next => cases h

/-- A rule for the formulas that do not stand between double dollar signs: it knows nothing of the
length of their source. -/
def IsStockRule (rule : List Char → Option (Inline × List Char)) : Prop :=
  ∀ cs raw span after, rule cs = some (.math raw span, after) →
    span = none ∧ ¬ ['$', '$'] <+: cs

/-- The rules behind that for double dollar signs. -/
def stockMath? (cs : List Char) : Option (Inline × List Char) :=
  (Markdown.Span.escapedDollars? cs).orElse fun _ =>
    (Markdown.Span.fencedFormula? cs).orElse fun _ => Markdown.Span.singleDollar? cs

theorem isStockRule_stockMath? : IsStockRule stockMath? := by
  intro cs raw span after h
  simp only [stockMath?, Option.orElse_eq_or, Option.or_eq_some_iff] at h
  rcases h with hescaped | ⟨-, hfenced | ⟨-, hsingle⟩⟩
  · exact (escapedDollars?_ne raw span hescaped).elim
  · obtain ⟨hopen, body, hbody⟩ := fencedFormula?_eq_some hfenced
    cases hbody
    exact ⟨rfl, hopen⟩
  · obtain ⟨hopen, body, hbody⟩ := singleDollar?_eq_some hsingle
    cases hbody
    exact ⟨rfl, hopen⟩

/-- A formula is handed on as one from between double dollars exactly if two dollar signs open
it. -/
theorem eq_dollarPart {rule : List Char → Option (Inline × List Char)} (hrule : IsStockRule rule)
    {span : Option Nat}
    (h : ((doubleDollar? cs).orElse fun _ => rule cs) = some (.math raw span, after)) :
    Inline.math raw span = dollarPart (decide (['$', '$'] <+: cs)) raw := by
  simp only [Option.orElse_eq_or, Option.or_eq_some_iff] at h
  rcases h with hdouble | ⟨-, hstock⟩
  · obtain ⟨hopen, body, hbody⟩ := doubleDollar?_eq_some hdouble
    rw [decide_eq_true hopen]
    cases hbody
    rfl
  · obtain ⟨rfl, hopen⟩ := hrule cs raw span after hstock
    rw [decide_eq_false hopen]
    rfl

end Read

section Shown

/-- The token of a formula in running text. -/
def formulaToken (raw : List Char) (length : Nat) : Value :=
  .object [("type", .str "inline_math"), ("raw", Markdown.ofChars raw),
    ("attrs", .object [("span", .int length)])]

/-- A formula of unknown source length is taken for one from between single dollar signs. -/
theorem inlineMath_token (double : Bool) (raw : List Char) :
    Token.inlineMath (dollarPart double raw).token =
      .ok (formulaToken raw (sourceLength double raw)) := by
  cases double with
  | true =>
    have htoken : (dollarPart true raw).token = formulaToken raw (sourceLength true raw) := by
      simp [dollarPart, Inline.token, formulaToken, sourceLength]
    rw [htoken]
    rfl
  | false =>
    have htoken :
        (dollarPart false raw).token = Token.leaf "inline_math" (String.ofList raw) := by
      simp [dollarPart, Inline.token]
    have hcount : (Value.str (String.ofList raw)).count = .ok raw.length := by
      simp [Value.count, Value.parts, Except.map]
    have hraw : (Token.leaf "inline_math" (String.ofList raw)).field "raw" (.str "") =
        .ok (.str (String.ofList raw)) := rfl
    have hattrs : (Token.leaf "inline_math" (String.ofList raw)).field "attrs" .null =
        .ok .null := rfl
    have hspan : (Value.null.orElse (.object [])).field "span" .null = .ok .null := rfl
    rw [htoken]
    simp only [Token.inlineMath, hraw, hattrs, hspan, hcount, bind, Except.bind, pure, Except.pure]
    rfl

theorem kind_dollarPart (double : Bool) (raw : List Char) :
    Token.kind (dollarPart double raw).token = .ok (.str "inline_math") := by
  cases double with
  | true => simp [dollarPart, Inline.token, Token.kind, Value.field_object]
  | false => simp [dollarPart, Inline.token, Token.kind, Token.leaf, Value.field_object]

theorem normalize_dollarPart (double : Bool) (raw : List Char) :
    Token.normalize (dollarPart double raw).token =
      .ok [formulaToken raw (sourceLength double raw)] := by
  have hkey : Token.kindKey (.str "inline_math") = .ok (some "inline_math") := rfl
  rw [Token.normalize, kind_dollarPart]
  simp only [bind, Except.bind, hkey, inlineMath_token]
  rfl

theorem length_trim_le (raw : List Char) :
    (Text.trim Text.isBlank raw).length ≤ raw.length := by
  obtain ⟨lead, blanks, hraw, -⟩ := Text.exists_trim raw
  have hlength := congrArg List.length hraw
  simp only [List.length_append] at hlength
  omega

/-- A formula from between single dollar signs is taken for one from between double ones if it has
as much white space around it as two dollar signs take up. -/
theorem displays_sourceLength (double : Bool) (raw : List Char) :
    displays (String.ofList raw) (some (sourceLength double raw)) =
      (double || decide (2 ≤ padding raw)) := by
  have hle := length_trim_le raw
  have hlength : (Text.strip (String.ofList raw)).length =
      (Text.trim Text.isBlank raw).length := by
    rw [Text.strip, String.toList_ofList, String.length_ofList]
  rw [displays, hlength, Bool.eq_iff_iff, decide_eq_true_iff, Bool.or_eq_true, decide_eq_true_iff,
    sourceLength, padding, Render.displayOverhead]
  cases double with
  | true =>
    simp
    omega
  | false =>
    simp
    omega

theorem convertOrKeep_outcome_ok (env : Render.Environment) (stage : Stage) (latex : String) :
    ∃ text, (Render.convertOrKeep env stage latex).outcome = .ok text := by
  unfold Render.convertOrKeep
  cases env.convertMath latex with
  | ok text => exact ⟨text, rfl⟩
  | error cause => exact ⟨latex, rfl⟩

theorem inline_formulaToken {env : Render.Environment} (active : List String) (double : Bool)
    (h : (Render.convertOrKeep env .inlineMath (Text.strip (String.ofList raw))).outcome =
      .ok text) :
    (Render.inline env active (formulaToken raw (sourceLength double raw))).outcome =
      .ok (framed (double || decide (2 ≤ padding raw)) text) := by
  have hshown := framed_inlineFormula _ (some (sourceLength double raw)) h
  rw [displays_sourceLength] at hshown
  rw [← hshown]
  have hkind : Token.kind (formulaToken raw (sourceLength double raw)) =
      .ok (.str "inline_math") := rfl
  rw [Render.inline_of_form hkind rfl]
  rfl

theorem framed_injective (text : String) : Function.Injective (framed · text) := by
  have hlength (display : Bool) :
      (framed display text).length = text.length + if display then 4 else 2 := by
    have hopen : "$ ".length = 2 := rfl
    have hclose : " $".length = 2 := rfl
    have hdollar : "$".length = 1 := rfl
    cases display with
    | true =>
      simp only [framed, if_true, String.length_append, hopen, hclose]
      omega
    | false =>
      simp only [framed, Bool.false_eq_true, if_false, String.length_append, hdollar]
      omega
  intro a b h
  have hab := congrArg String.length h
  dsimp only at hab
  rw [hlength, hlength] at hab
  cases a <;> cases b <;> simp_all

end Shown

/-- A formula is shown as it was written exactly if double dollars were around it or less than two
characters of white space inside the single ones. -/
theorem dollars_kept_iff (env : Render.Environment) (active : List String) :
    (∀ rule, IsStockRule rule → ∀ cs raw span after,
      ((doubleDollar? cs).orElse fun _ => rule cs) = some (.math raw span, after) →
        Inline.math raw span = dollarPart (decide (['$', '$'] <+: cs)) raw) ∧
    ∀ double raw,
      Render.isDisplay (Markdown.ofChars raw) (.int (sourceLength double raw)) =
        .ok (double || decide (2 ≤ padding raw)) ∧
      ∃ token text, Token.normalize (dollarPart double raw).token = .ok [token] ∧
        (Render.convertOrKeep env .inlineMath (Text.strip (String.ofList raw))).outcome =
          .ok text ∧
        (Render.inline env active token).outcome =
          .ok (framed (double || decide (2 ≤ padding raw)) text) ∧
        ((Render.inline env active token).outcome = .ok (framed double text) ↔
          double = true ∨ padding raw < 2) := by
  refine ⟨fun rule hrule cs raw span after => eq_dollarPart hrule, fun double raw => ⟨?_, ?_⟩⟩
  · rw [← displays_sourceLength]
    exact isDisplay_spanValue _ (some (sourceLength double raw))
  obtain ⟨text, htext⟩ :=
    convertOrKeep_outcome_ok env .inlineMath (Text.strip (String.ofList raw))
  have hshown := inline_formulaToken active double htext
  refine ⟨_, text, normalize_dollarPart double raw, htext, hshown, ?_⟩
  rw [hshown, Except.ok.injEq, (framed_injective text).eq_iff]
  cases double with
  | true => simp
  | false => simp

/-- A single blank leaves the formula in its line. -/
theorem dollars_kept_iff_oneBlank :
    math? "$x $".toList = some (.math ['x', ' '] none, []) ∧
      Inline.math ['x', ' '] none = dollarPart false ['x', ' '] ∧
      Render.isDisplay (.str "x ") (.int (sourceLength false ['x', ' '])) = .ok false :=
  ⟨rfl, (dollars_kept_iff { convertMath := .ok } []).1 stockMath? isStockRule_stockMath?
      "$x $".toList ['x', ' '] none [] rfl,
    ((dollars_kept_iff { convertMath := .ok } []).2 false ['x', ' ']).1⟩

/-- Two blanks before the closing dollar sign make a formula from between single dollar signs one
on a line of its own. -/
theorem paddedFormula_displayed :
    math? "$x  $".toList = some (dollarPart false ['x', ' ', ' '], []) ∧
      Token.normalize (dollarPart false ['x', ' ', ' ']).token =
        .ok [formulaToken ['x', ' ', ' '] 5] ∧
      Render.isDisplay (.str "x  ") (.int 5) = .ok true ∧
      (Render.inline { convertMath := .ok } [] (formulaToken ['x', ' ', ' '] 5)).outcome =
        .ok "$ x $" ∧
      framed false "x" = "$x$" := by
  have hkeep : (Render.convertOrKeep { convertMath := .ok } .inlineMath
      (Text.strip (String.ofList ['x', ' ', ' ']))).outcome = .ok "x" := by
    rfl
  exact ⟨rfl, normalize_dollarPart false _, rfl, inline_formulaToken [] false hkeep,
    rfl⟩

end Typeset.Math
