import Typeset.Proofs.Math.Apart
import Typeset.Proofs.Math.Delimiter

/-! Operands of scripts. Whether something is put in parentheses is read off the end of what has
been put down before it; here it is told from the LaTeX before it. -/

namespace Typeset.Math

open Latex (Node Legible IsCommandName)
open Text (isBlank trim trimRight isAlphanumeric)

variable {nodes rest after place : List Node} {node : Node} {name : String} {held out : Pieces}
  {move : Move} {past : List (Node × List Char)} {text p q put : List Char} {c : Char} {b : Bool}

/-- The last character of a text that is not white space. -/
def lastSolid (p : List Char) : Option Char := p.reverse.find? fun c => !isBlank c

/-- Whether a text ends in a script mark, white space apart. -/
def endsInMark (p : List Char) : Bool := (lastSolid p).any isScriptMark

/-- White space and comments. -/
def isGap : Node → Bool
  | .chars text => text.all isBlank
  | .comment _ => true
  | .special source => source == ['~']
  | _ => false

/-- Characters that end in a script mark of LaTeX. -/
def isScripted : Node → Bool
  | .chars text => endsInMark text
  | _ => false

/-- What is no script mark of LaTeX, but can come to a text that ends in one: a sign that is
escaped, and nodes that are written by themselves. -/
def isMistakable : Node → Bool
  | .command name _ _ => name == "_" || name == "^"
  | .group _ _ => true
  | .math _ _ => true
  | .environment _ _ _ => true
  | _ => false

/-- The turns from the beginning of some nodes to a place, the last one first: the node that each
begins with, and what it puts down. -/
inductive Trail (nodes : List Node) : List (Node × List Char) → List Node → Pieces → Prop
  | start : Trail nodes [] nodes {}
  | turn {past : List (Node × List Char)} {node : Node} {rest after : List Node} {held : Pieces}
    {move : Move} (h : Trail nodes past (node :: rest) held)
    (hturn : Turn (node :: rest) move after) :
    Trail nodes ((node, move.puts held) :: past) after (move.on held)

/-- The turns before a place end in a script mark, white space and comments apart, of which only one
may have put anything down. -/
inductive Awaits : Bool → List (Node × List Char) → Prop
  | mark (gap : Bool) {node : Node} {put : List Char} (past : List (Node × List Char))
    (hput : endsInMark put = true) (hnode : isScripted node = true ∨ isMistakable node = true) :
    Awaits gap ((node, put) :: past)
  | nothing {gap : Bool} {node : Node} {past : List (Node × List Char)} (hnode : isGap node = true)
    (h : Awaits gap past) : Awaits gap ((node, []) :: past)
  | blank {node : Node} {put : List Char} {past : List (Node × List Char)}
    (hnode : isGap node = true) (hput : put ≠ []) (h : Awaits false past) :
    Awaits true ((node, put) :: past)

section Last

theorem lastSolid_append (p q : List Char) :
    lastSolid (p ++ q) = (lastSolid q).or (lastSolid p) := by
  rw [lastSolid, List.reverse_append, List.find?_append]
  rfl

theorem lastSolid_of_blank (h : ∀ c ∈ p, isBlank c = true) : lastSolid p = none := by
  simpa [lastSolid] using h

theorem lastSolid_solid (h : isBlank c = false) : lastSolid [c] = some c := by
  simp [lastSolid, h]

theorem isBlank_lastSolid (h : lastSolid p = some c) : isBlank c = false := by
  simpa using List.find?_some h

theorem isBlank_of_lastSolid (h : lastSolid p = none) : ∀ c ∈ p, isBlank c = true := by
  simpa [lastSolid] using h

theorem lastSolid_of_lead {lead : List Char} (h : ∀ c ∈ lead, isBlank c = true) :
    lastSolid (lead ++ p) = lastSolid p := by
  rw [lastSolid_append, lastSolid_of_blank h, Option.or_none]

theorem lastSolid_of_blanks {blanks : List Char} (h : ∀ c ∈ blanks, isBlank c = true) :
    lastSolid (p ++ blanks) = lastSolid p := by
  rw [lastSolid_append, lastSolid_of_blank h, Option.none_or]

theorem lastSolid_dropWhile (p : List Char) : lastSolid (p.dropWhile isBlank) = lastSolid p := by
  obtain ⟨lead, hp, hlead⟩ := Text.exists_dropWhile p
  conv_rhs => rw [hp, lastSolid_of_lead hlead]

theorem lastSolid_trimRight (p : List Char) : lastSolid (trimRight isBlank p) = lastSolid p := by
  obtain ⟨blanks, hp, hblanks⟩ := Text.exists_trimRight p
  conv_rhs => rw [hp, lastSolid_of_blanks hblanks]

theorem getLast?_trimRight (p : List Char) : (trimRight isBlank p).getLast? = lastSolid p := by
  rw [trimRight, List.getLast?_reverse, lastSolid, List.find?_eq_head?_dropWhile_not]
  simp

/-- What is written for plain characters ends as they do. -/
theorem lastSolid_plain (text : List Char) : lastSolid (plain text) = lastSolid text := by
  induction text with
  | nil => rfl
  | cons c rest ih =>
    have hgap : ∀ d ∈ if rest.head?.any (fuses c) then [' '] else [], isBlank d = true := by
      split
      · exact List.forall_mem_singleton.mpr rfl
      · simp
    have hmark : lastSolid ((if c == '"' || c == '/' then ['\\'] else []) ++ [c]) =
        lastSolid [c] := by
      cases hc : isBlank c with
      | true =>
        have hquote : c ≠ '"' := ne_of_isBlank hc rfl
        have hslash : c ≠ '/' := ne_of_isBlank hc rfl
        simp [hquote, hslash]
      | false => rw [lastSolid_append, lastSolid_solid hc, Option.some_or]
    rw [plain_cons, List.append_cons, lastSolid_append, lastSolid_of_lead hgap, ih, hmark,
      ← lastSolid_append]
    rfl

end Last

section Ends

theorem expectsOperand_eq (out : Pieces) :
    out.expectsOperand = endsInMark (out.reversed.take 2).reverse.flatten := by
  rw [Pieces.expectsOperand, endsInMark, getLast?_trimRight]
  cases lastSolid (out.reversed.take 2).reverse.flatten <;> rfl

/-- The last character of the last piece, white space apart. -/
def Pieces.lastSolid (out : Pieces) : Option Char := out.reversed.head?.bind Math.lastSolid

theorem expectsOperand_cons (p : List Char) (more : List (List Char)) :
    (Pieces.mk (p :: more)).expectsOperand =
      ((lastSolid p).or (Pieces.mk more).lastSolid).any isScriptMark := by
  rw [expectsOperand_eq, endsInMark]
  cases more with
  | nil =>
    rw [Pieces.lastSolid]
    simp
  | cons q more =>
    rw [Pieces.lastSolid]
    simp [lastSolid_append]

/-- Another piece ends as it did by itself, and the piece before it as before. -/
theorem exists_add (out : Pieces) (hput : put ≠ []) :
    ∃ p more, (out.add put).reversed = p :: more ∧ lastSolid p = lastSolid put ∧
      (Pieces.mk more).lastSolid = out.lastSolid := by
  obtain ⟨reversed⟩ := out
  have hne : put.isEmpty = false := by
    rw [List.isEmpty_eq_false_iff]
    exact hput
  have hgap (before q : List Char) :
      lastSolid (if runsInto before q then ' ' :: q else q) = lastSolid q := by
    split
    · have hblank : ∀ c ∈ [' '], isBlank c = true := List.forall_mem_singleton.mpr rfl
      exact lastSolid_of_lead hblank
    · rfl
  rw [Pieces.add, hne, if_neg (by decide)]
  cases reversed with
  | nil => exact ⟨put, [], rfl, rfl, rfl⟩
  | cons before earlier =>
    dsimp only
    by_cases hscript : startsScript put = true
    · rw [if_pos hscript]
      exact ⟨_, _, rfl, by rw [hgap, lastSolid_dropWhile], lastSolid_trimRight before⟩
    · rw [if_neg hscript]
      exact ⟨_, _, rfl, hgap _ _, rfl⟩

theorem lastSolid_add (out : Pieces) (hput : put ≠ []) :
    (out.add put).lastSolid = lastSolid put := by
  obtain ⟨p, more, hadd, hlast, -⟩ := exists_add out hput
  rw [Pieces.lastSolid, hadd]
  exact hlast

theorem expectsOperand_add (out : Pieces) (hput : put ≠ []) :
    (out.add put).expectsOperand = ((lastSolid put).or out.lastSolid).any isScriptMark := by
  obtain ⟨p, more, hadd, hlast, hmore⟩ := exists_add out hput
  have hout : out.add put = ⟨p :: more⟩ := by rw [← hadd]
  rw [hout, expectsOperand_cons, hlast, hmore]

theorem add_nil (out : Pieces) : out.add [] = out := rfl

/-- An operand of a script is never nothing, nor only white space. -/
theorem lastSolid_operandText (h : out.expectsOperand = true) (p : List Char) :
    lastSolid (out.operandText p) = some ')' ∨
      ∃ c, lastSolid (out.operandText p) = some c ∧ lastSolid p = some c := by
  rw [Pieces.operandText, if_pos h]
  split
  next c hc =>
    right
    have hlast : lastSolid p = some c := by
      rw [← lastSolid_dropWhile, ← getLast?_trimRight, ← trim, hc]
      rfl
    exact ⟨c, lastSolid_solid (isBlank_lastSolid hlast), hlast⟩
  next =>
    left
    rw [lastSolid_append]
    rfl

theorem endsInMark_operandText (h : endsInMark (out.operandText p) = true) :
    endsInMark p = true := by
  cases hexpects : out.expectsOperand with
  | false => rwa [Pieces.operandText, hexpects, if_neg (by decide)] at h
  | true =>
    rw [endsInMark] at h ⊢
    rcases lastSolid_operandText hexpects p with hlast | ⟨c, hlast, hp⟩
    · rw [hlast] at h
      cases h
    · rwa [hp, ← hlast]

theorem expectsOperand_of_lastSolid (h : out.lastSolid.any isScriptMark = true) :
    out.expectsOperand = true := by
  obtain ⟨reversed⟩ := out
  cases reversed with
  | nil => cases h
  | cons p more =>
    rw [Pieces.lastSolid, List.head?_cons, Option.bind_some] at h
    rw [expectsOperand_cons]
    cases hp : lastSolid p with
    | none =>
      rw [hp] at h
      cases h
    | some c => rwa [hp] at h

end Ends

section Turn

theorem mark_of_symbolTable :
    ∀ row ∈ symbolTable, endsInMark row.2.toList = true → row.1 = "_" := by
  decide +kernel

theorem mark_of_specials : ∀ source ∈ Latex.specials,
    endsInMark (if source = ['~'] then [' '] else source) = false ∧
      (lastSolid (if source = ['~'] then [' '] else source) = none → source = ['~']) := by
  decide

theorem endsInMark_append (h : lastSolid q = some c) (p : List Char) :
    endsInMark (p ++ q) = isScriptMark c := by
  rw [endsInMark, lastSolid_append, h]
  rfl

theorem endsInMark_spaced (name : String) : endsInMark (spaced name) = endsInMark name.toList := by
  have hblank : ∀ c ∈ [' '], isBlank c = true := List.forall_mem_singleton.mpr rfl
  rw [spaced, endsInMark, lastSolid_of_blanks hblank]
  exact congrArg _ (lastSolid_of_lead hblank)

theorem mark_of_own (hname : IsCommandName name) (h : endsInMark name.toList = true) :
    name = "_" ∨ name = "^" := by
  obtain ⟨c, hlast, hmark⟩ := (Option.any_eq_true _ _).mp h
  have hmem : c ∈ name.toList := List.mem_reverse.mp (List.mem_of_find?_eq_some hlast)
  simp only [isScriptMark, Bool.or_eq_true, beq_iff_eq] at hmark
  cases hname with
  | word hletters =>
    have hletter := hletters c hmem
    rcases hmark with rfl | rfl
    · exact absurd hletter (by decide)
    · exact absurd hletter (by decide)
  | sign d =>
    rw [String.toList_singleton, List.mem_singleton] at hmem
    subst hmem
    rcases hmark with rfl | rfl
    · exact .inr rfl
    · exact .inl rfl
  | @delimiter d hd =>
    have hall : Latex.delimiterChars.any (fun d => endsInMark ['\\', d]) = false := by decide
    rw [String.toList_ofList] at h
    exact absurd h (List.any_eq_false.mp hall d hd)

/-- The names that end in a script mark are those of the two escaped signs. -/
theorem mark_of_name (hname : IsCommandName name) {symbol : String}
    (hrole : role name = .name symbol) (h : endsInMark symbol.toList = true) :
    name = "_" ∨ name = "^" := by
  have hspells := spells_role name
  rw [hrole] at hspells
  cases hspells with
  | symbol hsymbol =>
    rcases cases_of_symbol? hsymbol with ⟨-, rfl⟩ | hmem
    · exact mark_of_own hname h
    · exact .inl (mark_of_symbolTable _ hmem h)
  | own => exact mark_of_own hname h

/-- What is put down ends in a script mark only if it is one in LaTeX or mistaken for one. -/
theorem Turn.scripted (hturn : Turn (node :: rest) move after) (hlegible : Legible node)
    (h : endsInMark (move.puts held) = true) :
    isScripted node = true ∨ isMistakable node = true := by
  cases hturn with
  | chars text =>
    rw [Move.puts, endsInMark, lastSolid_plain] at h
    exact .inl h
  | comment source => cases h
  | special source =>
    cases hlegible with
    | special hsource =>
      rw [Move.puts, (mark_of_specials source hsource).1] at h
      cases h
  | group => exact .inr rfl
  | math => exact .inr rfl
  | environment => exact .inr rfl
  | @ready source name arguments _ _ text hform =>
    have hmark := endsInMark_operandText h
    cases hlegible with
    | command _ hname _ =>
      cases takes_of_form hform with
      | silent => cases hmark
      | name hrole =>
        rw [endsInMark_spaced] at hmark
        right
        simpa [isMistakable] using mark_of_name hname hrole hmark
      | text hrole =>
        have hspells := spells_role name
        rw [hrole] at hspells
        cases hspells with
        | quoted =>
          rw [endsInMark_append (c := '"') rfl] at hmark
          cases hmark
        | operator =>
          rw [endsInMark_append (c := ')') rfl] at hmark
          cases hmark
  | application =>
    have hmark := endsInMark_operandText h
    rw [applied, endsInMark_append (q := [')']) (c := ')') rfl] at hmark
    cases hmark

/-- White space and comments put down white space. -/
theorem Turn.blank_of_gap (hturn : Turn (node :: rest) move after) (h : isGap node = true) :
    lastSolid (move.puts held) = none := by
  cases hturn with
  | chars text =>
    rw [Move.puts, lastSolid_plain]
    exact lastSolid_of_blank (List.all_eq_true.mp h)
  | comment source => rfl
  | special source =>
    have hsource : source = ['~'] := by simpa [isGap] using h
    rw [hsource]
    rfl
  | _ => cases h

/-- Behind a script mark nothing else puts down white space. -/
theorem Turn.gap_of_blank (hturn : Turn (node :: rest) move after) (hlegible : Legible node)
    (hexpects : held.expectsOperand = true) (h : lastSolid (move.puts held) = none) :
    isGap node = true := by
  have hattach (piece : List Char) (hnone : lastSolid (held.operandText piece) = none) : False := by
    rcases lastSolid_operandText hexpects piece with hlast | ⟨c, hlast, -⟩
    · cases hlast.symm.trans hnone
    · cases hlast.symm.trans hnone
  cases hturn with
  | chars text =>
    rw [Move.puts, lastSolid_plain] at h
    exact List.all_eq_true.mpr (isBlank_of_lastSolid h)
  | comment source => rfl
  | special source =>
    cases hlegible with
    | special hsource =>
      rw [isGap, (mark_of_specials source hsource).2 h]
      rfl
  | group => exact (hattach _ h).elim
  | math => exact (hattach _ h).elim
  | environment => exact (hattach _ h).elim
  | ready => exact (hattach _ h).elim
  | application => exact (hattach _ h).elim

end Turn

section Trail

theorem Trail.legible (h : Trail nodes past place held) (hnodes : ∀ n ∈ nodes, Legible n) :
    ∀ n ∈ place, Legible n := by
  induction h with
  | start => exact hnodes
  | turn _ hturn ih => exact hturn.legible ih

/-- What is written to the end is written by such turns. -/
theorem exists_trail {done : Pieces} (h : writeAfter place held = .ok done)
    (htrail : Trail nodes past place held) : ∃ past', Trail nodes past' [] done := by
  refine writeAfter_induction (motive := fun place held done =>
    ∀ past, Trail nodes past place held → ∃ past', Trail nodes past' [] done)
    (fun held past htrail => ⟨past, htrail⟩) ?_ h past htrail
  intro place after move held done hturn _ ih past htrail
  obtain ⟨node, rest, rfl⟩ := List.exists_cons_of_ne_nil hturn.ne_nil
  exact ih _ (htrail.turn hturn)

theorem awaits_nil_iff (hgap : Awaits b past → isGap node = true) :
    Awaits b ((node, []) :: past) ↔ Awaits b past := by
  constructor
  · intro h
    cases h with
    | mark _ _ hput => cases hput
    | nothing _ h => exact h
    | blank _ hput => exact absurd rfl hput
  · exact fun h => .nothing (hgap h) h

theorem awaits_false_iff (hput : put ≠ [])
    (hmark : endsInMark put = true → isScripted node = true ∨ isMistakable node = true) :
    Awaits false ((node, put) :: past) ↔ endsInMark put = true := by
  constructor
  · intro h
    cases h with
    | mark _ _ hend => exact hend
    | nothing => exact absurd rfl hput
  · exact fun h => .mark false past h (hmark h)

theorem awaits_true_iff (hput : put ≠ [])
    (hmark : endsInMark put = true → isScripted node = true ∨ isMistakable node = true)
    (hblank : isGap node = true → lastSolid put = none)
    (hgap : lastSolid put = none → Awaits false past → isGap node = true) :
    Awaits true ((node, put) :: past) ↔
      endsInMark put = true ∨ lastSolid put = none ∧ Awaits false past := by
  constructor
  · intro h
    cases h with
    | mark _ _ hend => exact .inl hend
    | nothing => exact absurd rfl hput
    | blank hnode _ h => exact .inr ⟨hblank hnode, h⟩
  · rintro (h | ⟨hnone, h⟩)
    · exact .mark true past h (hmark h)
    · exact .blank (hgap hnone h) hput h

/-- The writer takes what it puts down next for the operand of a script exactly if the turns before
end in a script mark. -/
theorem Trail.awaits_iff (h : Trail nodes past place held) (hnodes : ∀ n ∈ nodes, Legible n) :
    (Awaits true past ↔ held.expectsOperand = true) ∧
      (Awaits false past ↔ held.lastSolid.any isScriptMark = true) := by
  induction h with
  | start =>
    constructor
    · exact ⟨by rintro ⟨⟩, by rintro ⟨⟩⟩
    · exact ⟨by rintro ⟨⟩, by rintro ⟨⟩⟩
  | @turn past node rest after held move h hturn ih =>
    have hlegible := (List.forall_mem_cons.mp (h.legible hnodes)).1
    obtain ⟨htrue, hfalse⟩ := ih
    have hexpects (b : Bool) (hawaits : Awaits b past) : held.expectsOperand = true := by
      cases b with
      | true => exact htrue.mp hawaits
      | false => exact expectsOperand_of_lastSolid (hfalse.mp hawaits)
    have hgap (b : Bool) (hawaits : Awaits b past) (hnone : lastSolid (move.puts held) = none) :
        isGap node = true :=
      hturn.gap_of_blank hlegible (hexpects b hawaits) hnone
    rw [move.on_eq]
    by_cases hput : move.puts held = []
    · have hnone : lastSolid (move.puts held) = none := by rw [hput]; rfl
      rw [hput, add_nil, awaits_nil_iff fun h => hgap _ h hnone,
        awaits_nil_iff fun h => hgap _ h hnone]
      exact ⟨htrue, hfalse⟩
    · have hmark : endsInMark (move.puts held) = true →
          isScripted node = true ∨ isMistakable node = true := hturn.scripted hlegible
      rw [expectsOperand_add held hput, lastSolid_add held hput, ← endsInMark,
        awaits_false_iff hput hmark,
        awaits_true_iff hput hmark hturn.blank_of_gap fun hnone h => hgap false h hnone, hfalse]
      refine ⟨?_, Iff.rfl⟩
      rw [endsInMark]
      cases lastSolid (move.puts held) with
      | none => simp
      | some c => simp

/-- Where no turn is mistaken for a script mark, it is the LaTeX that ends in one. -/
theorem Awaits.endsIn (h : Awaits b past)
    (hnone : ∀ x ∈ past, isMistakable x.1 = true → endsInMark x.2 = false) :
    EndsIn (isScripted · = true) (isGap · = true) (past.map Prod.fst).reverse := by
  induction h with
  | mark gap past hput hnode =>
    have hscripted := hnode.resolve_right fun hmistakable => by
      have hend := hnone _ List.mem_cons_self hmistakable
      rw [hput] at hend
      cases hend
    rw [List.map_cons, List.reverse_cons, endsIn_append, endsIn_cons]
    exact .inl (.inr ⟨by simp, hscripted⟩)
  | nothing hnode _ ih =>
    rw [List.map_cons, List.reverse_cons, endsIn_append]
    exact .inr ⟨by simpa using hnode, ih (List.forall_mem_cons.mp hnone).2⟩
  | blank hnode _ _ ih =>
    rw [List.map_cons, List.reverse_cons, endsIn_append]
    exact .inr ⟨by simpa using hnode, ih (List.forall_mem_cons.mp hnone).2⟩

end Trail

/-- A text as the operand of a script: in parentheses unless it is a single character. -/
def scriptOperand (piece : List Char) : List Char :=
  match trim isBlank piece with
  | [c] => [c]
  | operand => '(' :: operand ++ [')']

section Operand

theorem operandText_eq (out : Pieces) (piece : List Char) :
    out.operandText piece = if out.expectsOperand then scriptOperand piece else piece := by
  unfold Pieces.operandText scriptOperand
  generalize trim isBlank piece = operand
  rcases operand with _ | ⟨c, _ | ⟨d, more⟩⟩ <;> rfl

/-- A character of the LaTeX has a letter or numeral directly behind it only if it has one in its
own run of characters, and nothing is put between the two. -/
theorem Meets.clings_iff {g : Glyph} {next : Option Glyph} {behind : Option Char}
    (h : Meets g next) (hg : g.origin = .data behind) (halnum : isAlphanumeric g.char = true) :
    (∃ y ∈ next, isAlphanumeric y.char = true) ↔
      ∃ d, behind = some d ∧ isAlphanumeric d = true ∧ fuses g.char d = false := by
  have hmeets := h halnum
  constructor
  · rintro ⟨y, rfl, hy⟩
    have hgrips : y.grips = true := by rw [Glyph.grips, hy, Bool.true_or]
    rw [Option.filter_some, hgrips, if_pos rfl] at hmeets
    cases hmeets with
    | data _ hfree =>
      cases hg
      exact ⟨_, rfl, hy, hfree⟩
    | _ => cases hg
  · rintro ⟨d, rfl, hd, hfree⟩
    split at hmeets
    next y hy =>
      have hmem : y ∈ next := (Option.mem_filter_iff.mp hy).1
      cases hmeets with
      | data =>
        cases hg
        exact ⟨_, hmem, hd⟩
      | _ => cases hg
    next => exact absurd ⟨d, hg, hd, hfree⟩ hmeets

/-- What is put down is put in parentheses exactly where the turns before it end in a script mark:
one of LaTeX, where none is mistaken for one. And a letter or numeral of a run has the next one
directly behind it exactly where the two are numerals or not of the alphabet. -/
theorem script_operands (hlegible : ∀ n ∈ nodes, Legible n) :
    (∀ past place held piece after, Trail nodes past place held →
      Turn place (.attach piece) after →
        (Awaits true past → (Move.attach piece).puts held = scriptOperand piece) ∧
        (¬ Awaits true past → (Move.attach piece).puts held = piece) ∧
        (Awaits true past → (∀ x ∈ past, isMistakable x.1 = true → endsInMark x.2 = false) →
          EndsIn (isScripted · = true) (isGap · = true) (past.map Prod.fst).reverse)) ∧
      ∀ text, write nodes = .ok text →
        (∃ past done, Trail nodes past [] done ∧ text = done.text) ∧
        ∃ glyphs, writeGlyphs nodes = .ok glyphs ∧ glyphText glyphs = text ∧
          ∀ before g after, glyphs = before ++ g :: after →
            ∀ next, g.origin = .data next → isAlphanumeric g.char = true →
              ((∃ y ∈ after.head?, isAlphanumeric y.char = true) ↔
                ∃ d, next = some d ∧ isAlphanumeric d = true ∧ fuses g.char d = false) := by
  constructor
  · intro past place held piece after htrail _
    obtain ⟨hawaits, -⟩ := htrail.awaits_iff hlegible
    refine ⟨fun h => ?_, fun h => ?_, fun h hnone => h.endsIn hnone⟩
    · rw [Move.puts, operandText_eq, if_pos (hawaits.mp h)]
    · rw [hawaits] at h
      rw [Move.puts, operandText_eq, if_neg h]
  · intro text hwrite
    obtain ⟨glyphs, hglyphs, htext, hsettled⟩ :=
      (kept_settled fun _ _ => True).exists_glyphs hwrite hlegible fun _ _ _ => trivial
    obtain ⟨done, hdone, rfl⟩ := exists_of_write hwrite
    obtain ⟨past, htrail⟩ := exists_trail hdone .start
    refine ⟨⟨past, done, htrail, rfl⟩, glyphs, hglyphs, htext,
      fun before g after heq next hg halnum => ?_⟩
    rw [heq] at hsettled
    exact hsettled.meets.clings_iff hg halnum

/-- A group behind a script mark and a comment is an operand. -/
theorem script_operands_group :
    (∀ n ∈ [Node.chars ['x', '^'], .comment "%c\n".toList, .group '\x7b' [.chars ['a', 'b']]],
        Legible n) ∧
      ∃ held, Trail
          [.chars ['x', '^'], .comment "%c\n".toList, .group '\x7b' [.chars ['a', 'b']]]
          [(.comment "%c\n".toList, []), (.chars ['x', '^'], ['x', '^'])]
          [.group '\x7b' [.chars ['a', 'b']]] held ∧
        Turn [.group '\x7b' [.chars ['a', 'b']]] (.attach "a b".toList) [] ∧
        (Move.attach "a b".toList).puts held = "(a b)".toList := by
  have hlegible : ∀ n ∈ [Node.chars ['x', '^'], .comment "%c\n".toList,
      .group '\x7b' [.chars ['a', 'b']]], Legible n := by
    refine List.forall_mem_cons.mpr ⟨.chars (by decide), List.forall_mem_cons.mpr ⟨.comment _, ?_⟩⟩
    exact List.forall_mem_singleton.mpr (.group _ (List.forall_mem_singleton.mpr
      (.chars (by decide))))
  have htrail := Trail.turn (.turn .start (.chars ['x', '^'] [.comment "%c\n".toList,
    .group '\x7b' [.chars ['a', 'b']]]))
      (.comment "%c\n".toList [.group '\x7b' [.chars ['a', 'b']]])
  have hturn : Turn [.group '\x7b' [.chars ['a', 'b']]] (.attach "a b".toList) [] :=
    .group _ _ (write_chars ['a', 'b'])
  have hawaits : Awaits true [(.comment "%c\n".toList, []), (.chars ['x', '^'], ['x', '^'])] :=
    .nothing rfl (.mark true [] (by decide) (.inl (by decide)))
  exact ⟨hlegible, _, htrail, hturn,
    ((script_operands hlegible).1 _ _ _ _ _ htrail hturn).1 hawaits⟩

/-- An escaped sign is taken for a script mark, and a numeral that is a script by itself for the
beginning of a number. -/
theorem script_mistaken :
    convert "\\_\x7bab\x7d" = .ok "\\_ (a b)" ∧ convert "x^12" = .ok "x^12" ∧
      (∃ nodes held, Latex.read "\\_\x7bab\x7d".toList = some (nodes, []) ∧
        Trail nodes [(.command "_" "\\_".toList [], " \\_ ".toList)]
          [.group '\x7b' [.chars ['a', 'b']]] held ∧
        Turn [.group '\x7b' [.chars ['a', 'b']]] (.attach "a b".toList) [] ∧
        (Move.attach "a b".toList).puts held = "(a b)".toList ∧
        ¬ EndsIn (isScripted · = true) (isGap · = true) [.command "_" "\\_".toList []]) ∧
      ∃ nodes, Latex.read "x^12".toList = some (nodes, []) ∧
        writeGlyphs nodes = .ok [⟨'x', .data (some '^')⟩, ⟨'^', .data (some '1')⟩,
          ⟨'1', .data (some '2')⟩, ⟨'2', .data none⟩] := by
  have hread : Latex.read "\\_\x7bab\x7d".toList =
      some ([.command "_" "\\_".toList [], .group '\x7b' [.chars ['a', 'b']]], []) := by rfl
  have hreadRun : Latex.read "x^12".toList = some ([.chars ['x', '^', '1', '2']], []) := by rfl
  have hform : form "_" [] [.group '\x7b' [.chars ['a', 'b']]] =
      .ok (.ready " \\_ ".toList, [.group '\x7b' [.chars ['a', 'b']]]) := by rfl
  have hturn : Turn [.group '\x7b' [.chars ['a', 'b']]] (.attach "a b".toList) [] :=
    .group _ _ (write_chars ['a', 'b'])
  have hwrite : write [.command "_" "\\_".toList [], .group '\x7b' [.chars ['a', 'b']]] =
      .ok "\\_ (a b)".toList := by
    rw [write, writeAfter_of_turn (.ready _ hform), writeAfter_of_turn hturn, writeAfter]
    exact congrArg Except.ok (by decide)
  have hwriteRun : write [.chars ['x', '^', '1', '2']] = .ok "x^12".toList := by
    rw [write_chars]
    exact congrArg Except.ok (by decide)
  refine ⟨convert_of_read (by decide) hread hwrite, convert_of_read (by decide) hreadRun hwriteRun,
    ⟨_, _, hread, .turn .start (.ready "\\_".toList hform), hturn, by decide, ?_⟩,
    _, hreadRun, ?_⟩
  · rw [endsIn_cons]
    rintro (h | ⟨-, h⟩)
    · exact endsIn_nil h
    · cases h
  · rw [writeGlyphs, writeGlyphsAfter, writeGlyphsAfter]
    exact congrArg Except.ok (by decide)

end Operand

end Typeset.Math
