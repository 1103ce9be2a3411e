import Typeset.Proofs.Math.Call
import Typeset.Proofs.Math.Legible
import Typeset.Proofs.Math.Sign
import Typeset.Render.Leaf

/-! The dollar signs around a formula in running text: when Typst takes the last one for the end of
the formula, and none before it. -/

namespace Typeset.Math

open Latex (Node Legible IsCommandName)

variable {name : String} {nodes after arguments rest place : List Node} {out held done : Pieces}
  {piece text : List Char}

/-- A place where nothing is put down that Typst reads otherwise than it was meant: no dollar sign
among characters, no quotation mark for a command, and no escape or string directly behind a
backslash that has lost its blank. -/
structure Sound (place : List Node) (held : Pieces) : Prop where
  chars : ∀ text rest, place = .chars text :: rest → '$' ∉ text
  command : ∀ source arguments rest, place ≠ .command "\"" source arguments :: rest
  apart : ∀ move after, Turn place move after →
    Scan.run Mode.read .plain held.whole = some .escaped →
      ∀ c ∈ (move.puts held).head?, Ordinary c

section Ready

theorem tidy_of_ordinary {p : List Char} (h : ∀ c ∈ p, Ordinary c) : Tidy p := by
  induction p with
  | nil => rfl
  | cons c p ih =>
    obtain ⟨hc, hp⟩ := List.forall_mem_cons.mp h
    exact hc.tidy_cons_iff.mpr (ih hp)

theorem ordinary_of_isLetter {c : Char} (h : Text.isLetter c = true) : Ordinary c := by
  refine ⟨?_, ?_, ?_⟩
  all_goals
    rintro rfl
    revert h
    decide

theorem tidy_greek : ∀ name ∈ greek, Tidy (spaced name) := by
  decide

theorem tidy_symbolTable : ∀ row ∈ symbolTable, Tidy (spaced row.2) := by
  decide +kernel

theorem tidy_functions : ∀ f ∈ functions, Tidy f.1.toList := by
  decide

theorem tidy_specials :
    ∀ source ∈ Latex.specials, Tidy (if source = ['~'] then [' '] else source) := by
  decide

theorem tidy_spaced_own (hname : IsCommandName name) (hquote : name ≠ "\"")
    (h : symbol? name = none) : Tidy (spaced name) := by
  have hblank : Ordinary ' ' := by decide
  have hend : Tidy [' '] := by decide
  cases hname with
  | word hword =>
    have hletters := tidy_of_ordinary fun c hc => ordinary_of_isLetter (hword c hc)
    exact hblank.tidy_cons_iff.mpr (hletters.append hend)
  | sign c =>
    have hc : Ordinary c := by
      refine ⟨?_, ?_, ?_⟩
      · rintro rfl
        cases h
      · rintro rfl
        cases h
      · rintro rfl
        exact hquote rfl
    rw [spaced, String.toList_singleton]
    exact hblank.tidy_cons_iff.mpr (hc.tidy_cons_iff.mpr hend)
  | @delimiter c hc =>
    rw [spaced, String.toList_ofList]
    exact hblank.tidy_cons_iff.mpr ((tidy_escape c).append hend)

theorem tidy_spaced (hname : IsCommandName name) (hquote : name ≠ "\"") {symbol : String}
    (h : role name = .name symbol) : Tidy (spaced symbol) := by
  have hspells := spells_role name
  rw [h] at hspells
  cases hspells with
  | symbol hsymbol =>
    rcases cases_of_symbol? hsymbol with ⟨hgreek, rfl⟩ | hmem
    · exact tidy_greek _ hgreek
    · exact tidy_symbolTable _ hmem
  | own hnone => exact tidy_spaced_own hname hquote hnone

theorem tidy_literal {before behind : String}
    (hbefore : Scan.run Mode.read .plain before.toList = some .string)
    (hbehind : Scan.run Mode.read .string behind.toList = some .plain) (cs : List Char) :
    Tidy (before.toList ++ literalText cs ++ behind.toList) := by
  rw [Tidy, List.append_assoc, Scan.run_append_of_eq hbefore,
    Scan.run_append_of_eq (run_literalText cs), hbehind]

/-- Ready text of a command leaves the reading of math as it finds it. -/
theorem tidy_ready (hname : IsCommandName name) (hquote : name ≠ "\"")
    (h : form name arguments rest = .ok (.ready text, after)) : Tidy text := by
  cases takes_of_form h with
  | silent hrole => rfl
  | name hrole => exact tidy_spaced hname hquote hrole
  | @text before behind node left after hrole h =>
    have hspells := spells_role name
    rw [hrole] at hspells
    cases hspells with
    | quoted => exact tidy_literal (by decide) (by decide) node.verbatim
    | operator => exact tidy_literal (by decide) (by decide) node.verbatim

end Ready

section Written

/-- What is written at sound places is read as math up to its end. -/
theorem loose_of_writeAfter (h : writeAfter nodes out = .ok done) :
    (∀ n ∈ nodes, Legible n) → (∀ place held, Reaches nodes out place held → Sound place held) →
      Loose out.whole → Loose done.whole := by
  refine writeAfter_induction (motive := fun nodes out done => (∀ n ∈ nodes, Legible n) →
    (∀ place held, Reaches nodes out place held → Sound place held) →
      Loose out.whole → Loose done.whole) (fun out _ _ => id) ?_ h
  intro nodes after move out done hturn hinner ih hlegible hsound hout
  have hhere := hsound nodes out (.here nodes out)
  have htext {body : List Node} {text : List Char} (hbody : Inner nodes body)
      (hwrite : write body = .ok text) : Loose text := by
    obtain ⟨written, hwritten, rfl⟩ := exists_of_write hwrite
    have hnil : Loose (Pieces.whole {}) := .inl rfl
    exact (hinner hbody hwritten (hbody.legible hlegible)
      (fun place held hreach => hsound place held (.inner out hbody hreach)) hnil).text
  -- what one turn puts down is loose, and the place being sound keeps it apart from the rest
  have hputs : Loose (move.puts out) := by
    cases hturn with
    | chars text _ =>
      cases (List.forall_mem_cons.mp hlegible).1 with
      | chars hslash => exact (tidy_plain hslash (hhere.chars text after rfl)).loose
    | comment source _ => exact .inl rfl
    | special source _ =>
      cases (List.forall_mem_cons.mp hlegible).1 with
      | special hsource => exact (tidy_specials source hsource).loose
    | group opener _ hbody => exact (htext (.group opener _ after) hbody).operandText out
    | math source _ hbody => exact (htext (.math source _ after) hbody).operandText out
    | environment source _ hlayout hcells =>
      refine (loose_layoutText hlayout fun texts htexts text' htext' => ?_).operandText out
      obtain ⟨row, hrow, hwrite⟩ := exists_of_mem_right (forall₂_of_mapM hcells) htexts
      obtain ⟨cell, hcell, hbody⟩ := exists_of_mem_right (forall₂_of_mapM hwrite) htext'
      exact htext (.cell _ source after hrow hcell) hbody
    | @ready source name arguments rest after text hform =>
      cases (List.forall_mem_cons.mp hlegible).1 with
      | command _ hname _ =>
        have hquote : name ≠ "\"" := by
          rintro rfl
          exact hhere.command source arguments rest rfl
        exact (tidy_ready hname hquote hform).loose.operandText out
    | application source hform hf htexts =>
      have hfunction := tidy_functions _ (functions_of_form hform hf)
      refine (tidy_applied hfunction fun text' htext' => ?_).loose.operandText out
      obtain ⟨node, hnode, hbody⟩ := exists_of_mem_right (forall₂_of_mapM htexts) htext'
      exact htext (.operand source hform hf hnode) hbody
  refine ih (hturn.legible hlegible)
    (fun place held hreach => hsound place held (.later hturn hreach)) ?_
  rw [move.on_eq]
  exact hout.add hputs (hhere.apart move after hturn)

theorem reaches_chars (h : Reaches (.chars text :: rest) out place held) :
    place = .chars text :: rest ∧ held = out ∨ Reaches rest (out.add (plain text)) place held := by
  cases h with
  | here => exact .inl ⟨rfl, rfl⟩
  | inner out hinner => cases hinner
  | later hturn h =>
    cases hturn
    exact .inr h

/-- Where no backslash is at the end, nothing needs to be kept apart. -/
theorem sound_of_tidy (hheld : Tidy held.whole)
    (hchars : ∀ text rest, place = .chars text :: rest → '$' ∉ text)
    (hcommand : ∀ source arguments rest, place ≠ .command "\"" source arguments :: rest) :
    Sound place held := by
  refine ⟨hchars, hcommand, ?_⟩
  intro move after _ hescaped
  cases hheld.symm.trans hescaped

theorem sound_of_reaches_nil (h : Reaches [] out place held) : Sound place held := by
  cases h with
  | here => exact ⟨by rintro _ _ ⟨⟩, by rintro _ _ _ ⟨⟩, by rintro _ _ ⟨⟩⟩
  | inner out hinner => cases hinner
  | later hturn => cases hturn

end Written

/-- A reader of LaTeX that makes legible nodes of whatever it reads. -/
def IsReader (read : Reader) : Prop :=
  ∀ latex nodes rest, read latex = .ok (nodes, rest) → ∀ node ∈ nodes, Legible node

/-- A formula whose LaTeX is sound wherever the writer comes to. -/
def Undisturbed (read : Reader) (latex : String) : Prop :=
  ∀ nodes rest, read latex = .ok (nodes, rest) →
    ∀ place held, Reaches nodes {} place held → Sound place held

/-- A text with a dollar sign on each side: read from behind the first one, no other one ends it
before the last, and the last one is neither escaped nor in a string. -/
def Delimited (cs : List Char) : Prop := ∃ body, cs = '$' :: (body ++ ['$']) ∧ Tidy body

/-- A formula in running text as it is put down. -/
def framed (display : Bool) (text : String) : String :=
  if display then "$ " ++ text ++ " $" else "$" ++ text ++ "$"

/-- The length of the source of a formula, if it is known. -/
def spanValue : Option Int → Value
  | none => .null
  | some n => .int n

/-- Whether the source of a formula is long enough for double dollars. -/
def displays (latex : String) : Option Int → Bool
  | none => false
  | some n => decide (((Text.strip latex).length + Render.displayOverhead : Int) ≤ n)

section Formula

variable {read : Reader} {latex source text : String}

theorem isReader_reader : IsReader reader := by
  intro latex nodes rest hread
  rw [reader] at hread
  split at hread
  next found hfound =>
    cases hread
    exact Latex.legible_read hfound
  next => cases hread

theorem loose_of_convert (hreader : IsReader read) (htext : convertBy read latex = .ok text)
    (hsound : Undisturbed read latex) : Loose text.toList := by
  cases hblank : Text.isBlankText latex with
  | true =>
    rw [convertBy, if_pos hblank] at htext
    cases htext
    exact .inl rfl
  | false =>
    cases hread : read latex with
    | error fault =>
      rw [convertBy, hblank, if_neg (by decide), hread] at htext
      cases fault <;> cases htext
    | ok found =>
      obtain ⟨nodes, rest⟩ := found
      obtain ⟨done, hdone, heq⟩ := exists_of_convert htext hblank hread
      have hnil : Loose (Pieces.whole {}) := .inl rfl
      rw [heq]
      exact (loose_of_writeAfter hdone (hreader latex nodes rest hread)
        (hsound nodes rest hread) hnil).text

theorem delimited_iff (body : List Char) : Delimited ('$' :: (body ++ ['$'])) ↔ Tidy body := by
  constructor
  · rintro ⟨other, heq, hother⟩
    obtain ⟨-, heq⟩ := List.cons.inj heq
    rw [(List.append_left_inj _).mp heq]
    exact hother
  · intro h
    exact ⟨body, rfl, h⟩

/-- Between blanks, a backslash at the end escapes a blank. -/
theorem delimited_framed_iff (display : Bool) (text : String) :
    Delimited (framed display text).toList ↔
      Loose text.toList ∧ (display = true ∨ Even (endSlashes text.toList)) := by
  cases display with
  | true =>
    have hframed : (framed true text).toList =
        '$' :: ((' ' :: (text.toList ++ [' '])) ++ ['$']) := by
      simp [framed]
    have hblank : Ordinary ' ' := by decide
    rw [hframed, delimited_iff, hblank.tidy_cons_iff]
    constructor
    · intro h
      exact ⟨h.loose.of_blanks (List.forall_mem_singleton.mpr rfl), .inl rfl⟩
    · rintro ⟨h, -⟩
      have hend : Tidy [] := rfl
      exact h.append_cons hblank hend
  | false =>
    have hframed : (framed false text).toList = '$' :: (text.toList ++ ['$']) := by
      simp [framed]
    rw [hframed, delimited_iff]
    constructor
    · intro h
      exact ⟨h.loose, .inr (h.loose.tidy_iff.mp h)⟩
    · rintro ⟨h, hend | hend⟩
      · cases hend
      · exact h.tidy_iff.mpr hend

theorem isDisplay_spanValue (latex : String) (span : Option Int) :
    Render.isDisplay (.str latex) (spanValue span) = .ok (displays latex span) := by
  cases span with
  | none => rfl
  | some n =>
    have hcompare (k : Int) : (compare n k != .lt) = decide (k ≤ n) := by
      rw [Bool.eq_iff_iff, bne_iff_ne, ne_eq, Int.compare_eq_lt, decide_eq_true_iff, Int.not_lt]
    exact congrArg Except.ok (hcompare _)

/-- What stands between the dollar signs: the Typst form of a formula, or its LaTeX if it has
none. -/
def converted (read : Reader) (source : String) : String :=
  match convertBy read source with
  | .ok text => text
  | .error _ => source

theorem framed_inlineFormula {env : Render.Environment} (latex : String) (span : Option Int)
    (h : (Render.convertOrKeep env .inlineMath (Text.strip latex)).outcome = .ok text) :
    (Render.inlineFormula env (.str latex) (spanValue span)).outcome =
      .ok (framed (displays latex span) text) := by
  have hlatex : (Value.str latex).asText = .ok latex := rfl
  unfold Render.inlineFormula
  rw [Rendering.lift_bind_of_ok hlatex]
  dsimp only
  rw [Rendering.bind_of_ok h, Rendering.lift_bind_of_ok (isDisplay_spanValue latex span)]
  cases hdisplay : displays latex span with
  | true => rfl
  | false => rfl

theorem inlineFormula_eq (env : Render.Environment) (read : Reader) (latex : String)
    (span : Option Int) :
    (Render.inlineFormula { env with convertMath := convertBy read } (.str latex)
      (spanValue span)).outcome =
        .ok (framed (displays latex span) (converted read (Text.strip latex))) := by
  refine framed_inlineFormula latex span ?_
  unfold Render.convertOrKeep converted
  dsimp only
  cases convertBy read (Text.strip latex) with
  | ok text => rfl
  | error cause => rfl

/-- Whatever the reader of LaTeX, a formula in running text stands between dollar signs. Where it
stays LaTeX, they close it exactly if no dollar sign comes between in the LaTeX, read as Typst reads
it, its end is in no string and, without a blank behind it, the backslashes at its end pair up.
Where it becomes Typst undisturbed, no dollar sign comes between and its end is in no string, and
they close it if there are blanks inside them or the backslashes at its end pair up. -/
theorem inlineFormula_delimited (hreader : IsReader read) (env : Render.Environment)
    (latex : String) (span : Option Int) :
    ∃ text, (Render.inlineFormula { env with convertMath := convertBy read } (.str latex)
        (spanValue span)).outcome = .ok (framed (displays latex span) text) ∧
      match convertBy read (Text.strip latex) with
      | .error _ =>
        text = Text.strip latex ∧
          (Delimited (framed (displays latex span) text).toList ↔
            Loose text.toList ∧ (displays latex span = true ∨ Even (endSlashes text.toList)))
      | .ok typst =>
        text = typst ∧
          (Undisturbed read (Text.strip latex) →
            Loose text.toList ∧
              (displays latex span = true ∨ Even (endSlashes text.toList) →
                Delimited (framed (displays latex span) text).toList)) := by
  refine ⟨_, inlineFormula_eq env read latex span, ?_⟩
  cases hconvert : convertBy read (Text.strip latex) with
  | error cause =>
    have htext : converted read (Text.strip latex) = Text.strip latex := by
      rw [converted, hconvert]
    exact ⟨htext, delimited_framed_iff _ _⟩
  | ok typst =>
    have htext : converted read (Text.strip latex) = typst := by rw [converted, hconvert]
    refine ⟨htext, fun hsound => ?_⟩
    have hloose := loose_of_convert hreader hconvert hsound
    rw [delimited_framed_iff, htext]
    exact ⟨hloose, fun hend => ⟨hloose, hend⟩⟩

/-- A power in braces is written at sound places only, and closed by its last dollar sign. -/
theorem inlineFormula_delimited_power :
    Undisturbed reader "x^\x7b2\x7d" ∧ convert "x^\x7b2\x7d" = .ok "x^2" ∧
      (Render.inlineFormula { convertMath := convert } (.str "x^\x7b2\x7d") .null).outcome =
        .ok "$x^2$" ∧
      Delimited "$x^2$".toList := by
  have hread : Latex.read "x^\x7b2\x7d".toList =
      some ([.chars ['x', '^'], .group '\x7b' [.chars ['2']]], []) := by rfl
  have hsound : Undisturbed reader "x^\x7b2\x7d" := by
    intro nodes rest hnodes place held hreach
    rw [reader_of_read hread] at hnodes
    cases hnodes
    rcases reaches_chars hreach with ⟨rfl, rfl⟩ | hreach
    · refine sound_of_tidy rfl ?_ (by rintro _ _ _ ⟨⟩)
      rintro _ _ ⟨⟩
      decide
    cases hreach with
    | here nodes out => exact sound_of_tidy (by decide) (by rintro _ _ ⟨⟩) (by rintro _ _ _ ⟨⟩)
    | inner out hinner hreach =>
      cases hinner
      rcases reaches_chars hreach with ⟨rfl, rfl⟩ | hreach
      · refine sound_of_tidy rfl ?_ (by rintro _ _ _ ⟨⟩)
        rintro _ _ ⟨⟩
        decide
      · exact sound_of_reaches_nil hreach
    | later hturn hreach =>
      cases hturn
      exact sound_of_reaches_nil hreach
  have hconvert : convert "x^\x7b2\x7d" = .ok "x^2" := by
    have hwrite : write [.chars ['x', '^'], .group '\x7b' [.chars ['2']]] = .ok "x^2".toList := by
      rw [write, writeAfter_of_turn (.chars _ _),
        writeAfter_of_turn (.group _ _ (write_chars ['2'])), writeAfter]
      exact congrArg Except.ok (by decide)
    exact convert_of_read (by decide) hread hwrite
  have hstrip : Text.strip "x^\x7b2\x7d" = "x^\x7b2\x7d" := by decide
  obtain ⟨text, houtcome, hcases⟩ :=
    inlineFormula_delimited isReader_reader { convertMath := convert } "x^\x7b2\x7d" none
  rw [convert] at hconvert
  rw [hstrip, hconvert] at hcases
  obtain ⟨rfl, hclosed⟩ := hcases
  exact ⟨hsound, hconvert, houtcome, (hclosed hsound).2 (.inr (by decide))⟩

/-- A backslash at the very end is not read, the formula stays LaTeX, and its last dollar sign is
escaped. -/
theorem inlineFormula_openEnd :
    (Render.inlineFormula { convertMath := convert } (.str "x\\") .null).outcome = .ok "$x\\$" ∧
      ¬ Delimited "$x\\$".toList := by
  have hread : Latex.read "x\\".toList = some ([.chars ['x']], ['\\']) := by rfl
  have hstrip : Text.strip "x\\" = "x\\" := by decide
  have htext : converted reader "x\\" = "x\\" := by
    rw [converted, convertBy, if_neg (by decide), reader_of_read hread]
    rfl
  constructor
  · have heq := inlineFormula_eq { convertMath := convert } reader "x\\" none
    rw [hstrip, htext] at heq
    exact heq
  · have hdelimited : "$x\\$".toList = '$' :: (['x', '\\'] ++ ['$']) := rfl
    rw [hdelimited, delimited_iff]
    decide

end Formula

end Typeset.Math
