import Typeset.Math.Convert
import Typeset.Proofs.Math.Argument
import Typeset.Proofs.Math.Turn

/-! The calls of Typst functions that come out of a formula, and what Typst takes for their
arguments. -/

namespace Typeset.Math

open Latex (Node)
open Text (isBlank)

variable {nodes place : List Node} {call : Call} {out held done : Pieces}

/-- A call of a Typst function, out of the written parts of what it stands for. -/
inductive Call
  | applied (function : String) (texts : List (List Char))
  | matrix (delimiters : Delimiters) (cells : List (List (List Char)))
  | cases (cells : List (List (List Char)))
  deriving DecidableEq, Repr

/-- The rows that have something in them. -/
def filled (cells : List (List (List Char))) : List (List (List Char)) :=
  cells.filter fun row => row.any fun cell => !cell.isEmpty

/-- The name of the function that is called. -/
def Call.name : Call → String
  | .applied function _ => function
  | .matrix _ _ => "mat"
  | .cases _ => "cases"

/-- A call as it is put down. -/
def Call.text : Call → List Char
  | .applied function texts => Math.applied function texts
  | .matrix delimiters cells => (Layout.matrix delimiters).text cells
  | .cases cells => Layout.cases.text cells

/-- What is to be an argument of a call, row by row: each part of a fraction, a root, a style or an
accent, each cell of a matrix behind the delimiters given for it, each row of cases. -/
def Call.rows : Call → List (List (List Char))
  | .applied _ texts => [texts]
  | .matrix .usual cells => filled cells
  | .matrix (.given text) cells =>
    match filled cells with
    | [] => [[("delim: " ++ text).toList, []]]
    | row :: more => (("delim: " ++ text).toList :: row) :: more
  | .cases cells => [(filled cells).map (joined " & ")]

/-- What is to be an argument of a call, with the sign that ends it: semicolons between rows, commas
inside them and a parenthesis at the end. -/
def Call.parts (call : Call) : List (List Char × Char) := signed call.rows

/-- The functions that take a fixed number of arguments, and how many. -/
def functions : List (String × Nat) :=
  fractions.map (fun f => (f.2, 2)) ++ ("root", 2) :: ("sqrt", 1) :: ("op", 1) ::
    (styles ++ accents).map fun f => (f.2, 1)

/-- A function has as many texts as it takes arguments. -/
def Call.Arranged : Call → Prop
  | .applied function texts => (function, texts.length) ∈ functions
  | _ => True

/-- A call that the writer puts down in the turn of the first of some nodes. -/
inductive Calls : List Node → Call → Prop
  | application (source : List Char) {name function : String}
    {arguments rest after operands : List Node} {f : Form} {texts : List (List Char)}
    (hform : form name arguments rest = .ok (f, after))
    (hf : f.application? = some (function, operands))
    (htexts : operands.mapM (fun node => write (inside node)) = .ok texts) :
    Calls (.command name source arguments :: rest) (.applied function texts)
  | operator (source : List Char) {arguments rest after : List Node} {text : List Char}
    (hform : form "operatorname" arguments rest = .ok (.ready (applied "op" [text]), after)) :
    Calls (.command "operatorname" source arguments :: rest) (.applied "op" [text])
  | matrix (source : List Char) (rest : List Node) {name : String} {body : List Node}
    {delimiters : Delimiters} {cells : List (List (List Char))}
    (hlayout : layout? name = some (.matrix delimiters))
    (hcells : (Math.rows (layoutBody name body)).mapM (fun row => row.mapM write) = .ok cells) :
    Calls (.environment name source body :: rest) (.matrix delimiters cells)
  | cases (source : List Char) (rest : List Node) {name : String} {body : List Node}
    {cells : List (List (List Char))} (hlayout : layout? name = some .cases)
    (hcells : (Math.rows (layoutBody name body)).mapM (fun row => row.mapM write) = .ok cells) :
    Calls (.environment name source body :: rest) (.cases cells)

/-- A call that comes out of a LaTeX expression, at whatever depth, by a reader. -/
def Emits (read : Reader) (latex : String) (call : Call) : Prop :=
  Text.isBlankText latex = false ∧ ∃ nodes rest place held,
    read latex = .ok (nodes, rest) ∧ Reaches nodes {} place held ∧ Calls place call

section Shape

/-- Between its parentheses a call has its parts with their signs. -/
theorem Call.text_eq (call : Call) : call.text = call.name.toList ++ '(' :: laid call.parts := by
  rw [parts, laid_signed]
  cases call with
  | applied function texts =>
    rw [rows, List.map_singleton, joined_singleton]
    simp [text, name, Math.applied]
  | matrix delimiters cells =>
    cases delimiters with
    | usual =>
      have htext : (Call.matrix .usual cells).text =
          "mat(".toList ++ joined "; " ((filled cells).map (joined ", ")) ++ [')'] := rfl
      have hopen : "mat(".toList = "mat".toList ++ ['('] := by decide
      rw [htext, rows, hopen, List.append_assoc, List.append_assoc]
      rfl
    | given delimiter =>
      have hfilled : ∀ row ∈ filled cells, row ≠ [] := by
        rintro row hrow rfl
        cases (List.mem_filter.mp hrow).2
      rw [rows]
      have htext : (Call.matrix (.given delimiter) cells).text =
          ("mat(delim: " ++ delimiter ++ ", ").toList ++
            joined "; " ((filled cells).map (joined ", ")) ++ [')'] := rfl
      rw [htext]
      cases hcells : filled cells with
      | nil => simp [name, joined]
      | cons row more =>
        rw [hcells] at hfilled
        obtain ⟨cell, row, rfl⟩ := List.exists_cons_of_ne_nil (hfilled row List.mem_cons_self)
        cases more with
        | nil => simp [name, joined_singleton, joined_cons_cons]
        | cons next more => simp [name, joined_cons_cons]
  | cases cells =>
    have htext : (Call.cases cells).text =
        "cases(".toList ++ joined ", " ((filled cells).map (joined " & ")) ++ [')'] := rfl
    have hopen : "cases(".toList = "cases".toList ++ ['('] := by decide
    rw [rows, List.map_singleton, joined_singleton, htext, hopen, List.append_assoc,
      List.append_assoc]
    rfl

/-- The name of a function, in which there is no white space. -/
def IsWord (word : List Char) : Prop := word ≠ [] ∧ (word.all fun c => !isBlank c) = true

instance : DecidablePred IsWord := fun _ => inferInstanceAs (Decidable (_ ∧ _))

theorem isWord_of_functions : ∀ f ∈ functions, IsWord f.1.toList := by
  decide

theorem IsWord.solid {word : List Char} (h : IsWord word) : ∀ c ∈ word, isBlank c = false :=
  fun c hc => by simpa using List.all_eq_true.mp h.2 c hc

theorem Call.isWord_name (h : call.Arranged) : IsWord call.name.toList := by
  cases call with
  | applied function texts => exact isWord_of_functions _ h
  | matrix delimiters cells =>
    rw [name]
    decide
  | cases cells =>
    rw [name]
    decide

theorem squeeze_append_of_solid {word p : List Char} (h : ∀ c ∈ word, isBlank c = false) :
    squeeze (word ++ p) = word ++ squeeze p := by
  induction word with
  | nil => rfl
  | cons c word ih =>
    obtain ⟨hc, hword⟩ := List.forall_mem_cons.mp h
    rw [List.cons_append, squeeze_cons_of_solid hc, ih hword, List.cons_append]

theorem Call.squeeze_text (h : call.Arranged) :
    squeeze call.text = call.name.toList ++ '(' :: squeeze (laid call.parts) := by
  have hopen : isBlank '(' = false := rfl
  rw [call.text_eq, squeeze_append_of_solid (isWord_name h).solid, squeeze_cons_of_solid hopen]

theorem Call.firm_text (h : call.Arranged) : Firm call.text := by
  have hsolid := (isWord_name h).solid
  obtain ⟨c, word, hname⟩ := List.exists_cons_of_ne_nil (isWord_name h).1
  rw [call.text_eq, parts, laid_signed]
  refine ⟨by simp, ?_, ?_⟩
  · rw [hname] at hsolid ⊢
    rintro _ ⟨⟩
    exact hsolid c List.mem_cons_self
  · intro d hd
    rw [← List.cons_append, ← List.append_assoc, List.getLast?_concat] at hd
    cases hd
    rfl

end Shape

section Role

variable {name function : String} {f : Form} {arguments rest after operands : List Node}

/-- A fraction or a root has two parts, and any other function one. -/
theorem functions_of_form (hform : form name arguments rest = .ok (f, after))
    (hf : f.application? = some (function, operands)) :
    (function, operands.length) ∈ functions := by
  cases takes_of_form hform with
  | silent hrole => cases hf
  | name hrole => cases hf
  | text hrole h => cases hf
  | function hrole h =>
    cases hf
    have hspells := spells_role name
    rw [hrole] at hspells
    cases hspells with
    | function hlookup =>
      exact List.mem_append_right _ (List.mem_cons_of_mem _ (List.mem_cons_of_mem _
        (List.mem_cons_of_mem _ (List.mem_map.mpr ⟨_, mem_of_lookup hlookup, rfl⟩))))
  | fraction hrole hfirst hsecond =>
    cases hf
    have hspells := spells_role name
    rw [hrole] at hspells
    cases hspells with
    | fraction hlookup =>
      exact List.mem_append_left _ (List.mem_map.mpr ⟨_, mem_of_lookup hlookup, rfl⟩)
  | sqrt hrole h =>
    cases hf
    exact List.mem_append_right _ (List.mem_cons_of_mem _ List.mem_cons_self)
  | root hrole h hindex =>
    cases hf
    exact List.mem_append_right _ List.mem_cons_self

end Role

section Emitted

variable {read : Reader} {latex text : String} {source one two : List Char}

theorem Calls.turn (h : Calls place call) : ∃ after, Turn place (.attach call.text) after := by
  cases h with
  | application source hform hf htexts => exact ⟨_, .application source hform hf htexts⟩
  | operator source hform => exact ⟨_, .ready source hform⟩
  | matrix source rest hlayout hcells => exact ⟨_, .environment source rest hlayout hcells⟩
  | cases source rest hlayout hcells => exact ⟨_, .environment source rest hlayout hcells⟩

theorem Calls.arranged (h : Calls place call) : call.Arranged := by
  cases h with
  | application source hform hf htexts =>
    have hlength := (forall₂_of_mapM htexts).length_eq
    rw [Call.Arranged, ← hlength]
    exact functions_of_form hform hf
  | operator source hform => exact List.mem_append_right _ (List.mem_cons_of_mem _
      (List.mem_cons_of_mem _ List.mem_cons_self))
  | matrix source rest hlayout hcells => trivial
  | cases source rest hlayout hcells => trivial

theorem exists_of_convert {nodes : List Node} {rest : List Char}
    (htext : convertBy read latex = .ok text) (hblank : Text.isBlankText latex = false)
    (hread : read latex = .ok (nodes, rest)) :
    ∃ done, writeAfter nodes {} = .ok done ∧ text.toList = done.text := by
  rw [convertBy, hblank, if_neg (by decide), hread] at htext
  dsimp only at htext
  split at htext
  · cases htext
  · split at htext
    · cases htext
    next written hwrite =>
      obtain ⟨done, hdone, rfl⟩ := exists_of_write hwrite
      cases htext
      exact ⟨done, hdone, String.toList_ofList⟩

/-- Characters written by themselves. -/
def charsText (text : List Char) : List Char := (Pieces.add {} (plain text)).text

theorem write_chars (text : List Char) : write [.chars text] = .ok (charsText text) := by
  rw [write, writeAfter_of_turn (.chars text []), writeAfter]
  rfl

/-- A fraction of characters comes to a call of two arguments. -/
theorem emits_fraction (hblank : Text.isBlankText latex = false)
    (hread : read latex = .ok
      ([.command "frac" source [.group '\x7b' [.chars one], .group '\x7b' [.chars two]]], [])) :
    Emits read latex (.applied "frac" [charsText one, charsText two]) ∧
      convertBy read latex = .ok (String.ofList
        (Pieces.attach {} (applied "frac" [charsText one, charsText two])).text) := by
  have hform : form "frac" [.group '\x7b' [.chars one], .group '\x7b' [.chars two]] [] =
      .ok (.binary "frac" (.group '\x7b' [.chars one]) (.group '\x7b' [.chars two]), []) := by
    rfl
  have htexts : [Node.group '\x7b' [.chars one], .group '\x7b' [.chars two]].mapM
      (fun node => write (inside node)) = .ok [charsText one, charsText two] :=
    mapM_of_forall₂ (.cons (write_chars one) (.cons (write_chars two) .nil))
  refine ⟨⟨hblank, _, _, _, _, hread, .here _ _, .application source hform rfl htexts⟩, ?_⟩
  refine convertBy_of_read hblank hread ?_
  rw [write, writeAfter_of_turn (.application source hform rfl htexts), writeAfter]
  rfl

/-- Whatever the reader, every call that comes out of a formula stands in its Typst form. Typst
takes the parts of the call for its arguments, one by one and up to the parenthesis that was meant
to close it, exactly if each part is one argument by itself. -/
theorem arguments_emitted_iff (htext : convertBy read latex = .ok text)
    (hcall : Emits read latex call) :
    call.Arranged ∧ ∃ before behind after,
      text.toList = before ++ (call.name.toList ++ '(' :: (behind ++ after)) ∧
      squeeze call.text = call.name.toList ++ '(' :: behind ∧
      (arguments (behind ++ after) =
          (call.parts.map fun part => (solid part.1, part.2), solid after) ↔
        ∀ part ∈ call.parts, Whole part.1) := by
  obtain ⟨hblank, nodes, rest, place, held, hread, hreach, hcalls⟩ := hcall
  obtain ⟨done, hdone, htext⟩ := exists_of_convert htext hblank hread
  obtain ⟨written, hwritten, hshows⟩ := hreach.shows hdone
  obtain ⟨afterwards, hturn⟩ := hcalls.turn
  have harranged := hcalls.arranged
  have hshown : Shows (squeeze call.text) call.text :=
    ⟨_, List.infix_rfl, call.firm_text harranged, rfl⟩
  obtain ⟨before, after, hwithin⟩ := (hshows _ (hturn.shows hwritten hshown)).within_text
  rw [← Pieces.text_eq, ← htext, call.squeeze_text harranged] at hwithin
  refine ⟨harranged, before, _, after, ?_, call.squeeze_text harranged, ?_⟩
  · rw [← hwithin]
    simp
  · rw [arguments_squeeze]
    exact arguments_laid_iff (signed_rows call.rows) after

/-- A plain fraction comes to a call whose arguments are its two parts. -/
theorem arguments_emitted_plain :
    Emits reader "\\frac\x7ba\x7d\x7bb\x7d" (.applied "frac" [['a'], ['b']]) ∧
      convert "\\frac\x7ba\x7d\x7bb\x7d" = .ok "frac(a, b)" ∧
      ∃ before behind after,
        "frac(a, b)".toList = before ++ ("frac".toList ++ '(' :: (behind ++ after)) ∧
        arguments (behind ++ after) = ([(['a'], ','), (['b'], ')')], solid after) := by
  have hread : Latex.read "\\frac\x7ba\x7d\x7bb\x7d".toList = some
      ([.command "frac" "\\frac\x7ba\x7d\x7bb\x7d".toList
        [.group '\x7b' [.chars ['a']], .group '\x7b' [.chars ['b']]]], []) := by rfl
  obtain ⟨hemits, hconvert⟩ := emits_fraction (by decide) (reader_of_read hread)
  have htext : convert "\\frac\x7ba\x7d\x7bb\x7d" = .ok "frac(a, b)" := by
    rw [convert, hconvert]
    exact congrArg Except.ok (by decide)
  refine ⟨hemits, htext, ?_⟩
  obtain ⟨-, before, behind, after, htext, -, hiff⟩ := arguments_emitted_iff htext hemits
  exact ⟨before, behind, after, htext, hiff.mpr (by decide)⟩

/-- A comma in a numerator makes three arguments of two parts. -/
theorem arguments_of_comma :
    Emits reader "\\frac\x7ba,b\x7d\x7bc\x7d" (.applied "frac" [['a', ',', 'b'], ['c']]) ∧
      convert "\\frac\x7ba,b\x7d\x7bc\x7d" = .ok "frac(a,b, c)" ∧
      arguments "a,b, c)".toList = ([(['a'], ','), (['b'], ','), (['c'], ')')], []) := by
  have hread : Latex.read "\\frac\x7ba,b\x7d\x7bc\x7d".toList = some
      ([.command "frac" "\\frac\x7ba,b\x7d\x7bc\x7d".toList
        [.group '\x7b' [.chars ['a', ',', 'b']], .group '\x7b' [.chars ['c']]]], []) := by rfl
  obtain ⟨hemits, hconvert⟩ := emits_fraction (by decide) (reader_of_read hread)
  refine ⟨hemits, ?_, by decide⟩
  rw [convert, hconvert]
  exact congrArg Except.ok (by decide)

end Emitted

end Typeset.Math
