import Typeset.Math.Writer
import Typeset.Proofs.Math.Spacing
import Typeset.Proofs.Lists

/-! The turns in which the writer goes through nodes: what each one does to the pieces so far, and
which nodes are written by themselves for it. -/

namespace Typeset.Math

open Latex (Node)
open Failure (exists_of_bind)

variable {nodes after body place : List Node} {move : Move} {out held done : Pieces} {u : List Char}

/-- What is done to the pieces so far. -/
inductive Move
  | skip
  | add (piece : List Char)
  | attach (piece : List Char)

/-- The pieces after a move. -/
def Move.on : Move → Pieces → Pieces
  | .skip, out => out
  | .add piece, out => out.add piece
  | .attach piece, out => out.attach piece

/-- What a move puts down behind the pieces so far. -/
def Move.puts : Move → Pieces → List Char
  | .skip, _ => []
  | .add piece, _ => piece
  | .attach piece, out => out.operandText piece

theorem Move.on_eq (move : Move) (out : Pieces) : move.on out = out.add (move.puts out) := by
  cases move with
  | skip => rfl
  | add piece => rfl
  | attach piece => exact out.attach_eq piece

/-- The function that a form applies, and the nodes that it is applied to. -/
def Form.application? : Form → Option (String × List Node)
  | .ready _ => none
  | .unary function operand => some (function, [operand])
  | .binary function first second => some (function, [first, second])
  | .root index radicand => some ("root", [index, radicand])

/-- What a form comes to, its nodes written one after the other. -/
def Form.written {ε : Type} (inner : List Node → Except ε (List Char)) :
    Form → Except ε (List Char)
  | .ready text => .ok text
  | .unary function node => do return applied function [← inner (inside node)]
  | .binary function first second => do
    let one ← inner (inside first)
    let two ← inner (inside second)
    return applied function [one, two]
  | .root index radicand => do
    let two ← inner (inside radicand)
    let one ← inner (inside index)
    return applied "root" [one, two]

/-- The first of some nodes is written, with what it takes from those behind it: the move that this
is, and the nodes that are left. -/
inductive Turn : List Node → Move → List Node → Prop
  | chars (text : List Char) (rest : List Node) :
    Turn (.chars text :: rest) (.add (plain text)) rest
  | comment (source : List Char) (rest : List Node) : Turn (.comment source :: rest) .skip rest
  | special (source : List Char) (rest : List Node) :
    Turn (.special source :: rest) (.add (if source = ['~'] then [' '] else source)) rest
  | group (opener : Char) (rest : List Node) {body : List Node} {text : List Char}
    (hbody : write body = .ok text) : Turn (.group opener body :: rest) (.attach text) rest
  | math (source : List Char) (rest : List Node) {body : List Node} {text : List Char}
    (hbody : write body = .ok text) : Turn (.math source body :: rest) (.attach text) rest
  | environment (source : List Char) (rest : List Node) {name : String} {body : List Node}
    {layout : Layout} {cells : List (List (List Char))} (hlayout : layout? name = some layout)
    (hcells : (rows (layoutBody name body)).mapM (fun row => row.mapM write) = .ok cells) :
    Turn (.environment name source body :: rest) (.attach (layout.text cells)) rest
  | ready (source : List Char) {name : String} {arguments rest after : List Node}
    {text : List Char} (hform : form name arguments rest = .ok (.ready text, after)) :
    Turn (.command name source arguments :: rest) (.attach text) after
  | application (source : List Char) {name function : String}
    {arguments rest after operands : List Node} {f : Form} {texts : List (List Char)}
    (hform : form name arguments rest = .ok (f, after))
    (hf : f.application? = some (function, operands))
    (htexts : operands.mapM (fun node => write (inside node)) = .ok texts) :
    Turn (.command name source arguments :: rest) (.attach (applied function texts)) after

/-- Nodes that are written by themselves in the turn of the first of some nodes. -/
inductive Inner : List Node → List Node → Prop
  | group (opener : Char) (body rest : List Node) : Inner (.group opener body :: rest) body
  | math (source : List Char) (body rest : List Node) : Inner (.math source body :: rest) body
  | cell (name : String) (source : List Char) (rest : List Node) {body cell : List Node}
    {row : List (List Node)} (hrow : row ∈ rows (layoutBody name body)) (hcell : cell ∈ row) :
    Inner (.environment name source body :: rest) cell
  | operand (source : List Char) {name function : String}
    {arguments rest after operands : List Node} {f : Form} {node : Node}
    (hform : form name arguments rest = .ok (f, after))
    (hf : f.application? = some (function, operands)) (hnode : node ∈ operands) :
    Inner (.command name source arguments :: rest) (inside node)

/-- A place that the writer comes to, with the pieces that it has there, on its way from another:
turn by turn, or into nodes that it writes by themselves. -/
inductive Reaches : List Node → Pieces → List Node → Pieces → Prop
  | here (nodes : List Node) (out : Pieces) : Reaches nodes out nodes out
  | inner {nodes body place : List Node} {held : Pieces} (out : Pieces) (hinner : Inner nodes body)
    (h : Reaches body {} place held) : Reaches nodes out place held
  | later {nodes after place : List Node} {move : Move} {out held : Pieces}
    (hturn : Turn nodes move after) (h : Reaches after (move.on out) place held) :
    Reaches nodes out place held

/-- The ways in which a command of a name can be written, by the tables that the name is in. -/
inductive Spells (command : String) : Role → Prop
  | silent (places : Bool) : Spells command (.silent places)
  | symbol {text : String} (h : symbol? command = some text) : Spells command (.name text)
  | own (h : symbol? command = none) : Spells command (.name command)
  | fraction {function : String} (h : fractions.lookup command = some function) :
    Spells command (.fraction function)
  | root : Spells command .root
  | function {function : String} (h : (styles ++ accents).lookup command = some function) :
    Spells command (.function function)
  | quoted : Spells command (.text " \"" "\" ")
  | operator : Spells command (.text "op(\"" "\")")

/-- A Greek letter has the name of its command, and any other symbol one from the table. -/
theorem cases_of_symbol? {command text : String} (h : symbol? command = some text) :
    command ∈ greek ∧ text = command ∨ (command, text) ∈ symbolTable := by
  unfold symbol? at h
  split at h
  next hgreek =>
    cases h
    exact .inl ⟨by simpa using hgreek, rfl⟩
  next => exact .inr (mem_of_lookup h)

theorem spells_role (command : String) : Spells command (role command) := by
  unfold role
  split
  · exact .silent _
  split
  next hsymbol => exact .symbol hsymbol
  next hsymbol =>
    split
    · exact .own hsymbol
    split
    next hlookup => exact .fraction hlookup
    split
    · exact .root
    split
    next hlookup => exact .function hlookup
    split
    · exact .quoted
    split
    · exact .operator
    · exact .own hsymbol

/-- What a command takes and comes to, by the role that it plays. -/
inductive Takes (command : String) (arguments rest : List Node) : Form → List Node → Prop
  | silent {places : Bool} (hrole : role command = .silent places) :
    Takes command arguments rest (.ready []) (if places then dropStop rest else rest)
  | name {text : String} (hrole : role command = .name text) :
    Takes command arguments rest (.ready (spaced text)) rest
  | text {before behind : String} {node : Node} {left after : List Node}
    (hrole : role command = .text before behind)
    (h : operand command (arguments.filter fun n => !n.isOptional) rest = .ok (node, left, after)) :
    Takes command arguments rest
      (.ready (before.toList ++ literalText node.verbatim ++ behind.toList)) after
  | function {function : String} {node : Node} {left after : List Node}
    (hrole : role command = .function function)
    (h : operand command (arguments.filter fun n => !n.isOptional) rest = .ok (node, left, after)) :
    Takes command arguments rest (.unary function node) after
  | fraction {function : String} {first second : Node} {left left' between after : List Node}
    (hrole : role command = .fraction function)
    (hfirst : operand command (arguments.filter fun n => !n.isOptional) rest =
      .ok (first, left, between))
    (hsecond : operand command left between = .ok (second, left', after)) :
    Takes command arguments rest (.binary function first second) after
  | sqrt {node : Node} {left after : List Node} (hrole : role command = .root)
    (h : operand command (arguments.filter fun n => !n.isOptional) (rootIndex arguments rest).2 =
      .ok (node, left, after)) :
    Takes command arguments rest (.unary "sqrt" node) after
  | root {index node : Node} {left after : List Node} (hrole : role command = .root)
    (h : operand command (arguments.filter fun n => !n.isOptional) (rootIndex arguments rest).2 =
      .ok (node, left, after))
    (hindex : (rootIndex arguments rest).1 = some index) :
    Takes command arguments rest (.root index node) after

theorem takes_of_form {command : String} {arguments rest after : List Node} {f : Form}
    (h : form command arguments rest = .ok (f, after)) :
    Takes command arguments rest f after := by
  unfold form at h
  dsimp only at h
  split at h
  next hrole =>
    cases h
    exact .silent hrole
  next hrole =>
    cases h
    exact .name hrole
  next hrole =>
    split at h
    · cases h
    next hfirst =>
      split at h
      · cases h
      next hsecond =>
        cases h
        exact .fraction hrole hfirst hsecond
  next hrole =>
    split at h
    · cases h
    next hoperand =>
      split at h
      next hindex =>
        cases h
        exact .root hrole hoperand hindex
      next =>
        cases h
        exact .sqrt hrole hoperand
  next hrole =>
    split at h
    · cases h
    next hoperand =>
      cases h
      exact .function hrole hoperand
  next hrole =>
    split at h
    · cases h
    next hoperand =>
      cases h
      exact .text hrole hoperand

section Form

variable {ε : Type} {inner : List Node → Except ε (List Char)} {f : Form} {function : String}
  {operands : List Node} {texts : List (List Char)} {text : List Char}

theorem Form.written_of_application (hf : f.application? = some (function, operands))
    (htexts : operands.mapM (fun node => inner (inside node)) = .ok texts) :
    f.written inner = .ok (applied function texts) := by
  have hall := forall₂_of_mapM htexts
  cases f with
  | ready text => cases hf
  | unary function node =>
    cases hf
    obtain _ | ⟨hone, _ | _⟩ := hall
    rw [Form.written, hone]
    rfl
  | binary function first second =>
    cases hf
    obtain _ | ⟨hone, _ | ⟨htwo, _ | _⟩⟩ := hall
    rw [Form.written, hone, htwo]
    rfl
  | root index radicand =>
    cases hf
    obtain _ | ⟨hone, _ | ⟨htwo, _ | _⟩⟩ := hall
    rw [Form.written, hone, htwo]
    rfl

theorem Form.cases_of_written (h : f.written inner = .ok text) :
    f = .ready text ∨ ∃ function operands texts, f.application? = some (function, operands) ∧
      operands.mapM (fun node => inner (inside node)) = .ok texts := by
  cases f with
  | ready text =>
    cases h
    exact .inl rfl
  | unary function node =>
    obtain ⟨one, hone, -⟩ := exists_of_bind h
    exact .inr ⟨_, _, _, rfl, mapM_of_forall₂ (.cons hone .nil)⟩
  | binary function first second =>
    obtain ⟨one, hone, h⟩ := exists_of_bind h
    obtain ⟨two, htwo, -⟩ := exists_of_bind h
    exact .inr ⟨_, _, _, rfl, mapM_of_forall₂ (.cons hone (.cons htwo .nil))⟩
  | root index radicand =>
    obtain ⟨two, htwo, h⟩ := exists_of_bind h
    obtain ⟨one, hone, -⟩ := exists_of_bind h
    exact .inr ⟨_, _, _, rfl, mapM_of_forall₂ (.cons hone (.cons htwo .nil))⟩

end Form

section Turn

theorem mapM_attach {α β ε : Type} (xs : List α) (f : α → Except ε β) :
    xs.attach.mapM (fun ⟨x, _⟩ => f x) = xs.mapM f := by
  rw [List.mapM_subtype (fun _ _ => rfl), List.unattach_attach]

/-- The cells of an environment are written one by one. -/
theorem writeAfter_environment (name : String) (source : List Char) (body rest : List Node)
    (out : Pieces) :
    writeAfter (.environment name source body :: rest) out =
      match layout? name with
      | none => .error (.unsupportedEnvironment name)
      | some layout =>
        ((rows (layoutBody name body)).mapM fun row => row.mapM write) >>= fun cells =>
          writeAfter rest (out.attach (layout.text cells)) := by
  rw [writeAfter]
  cases layout? name with
  | none => rfl
  | some layout =>
    dsimp only
    simp only [mapM_attach]

/-- A command is written by its form, out of what it takes from the nodes behind it. -/
theorem writeAfter_command (name : String) (source : List Char) (arguments rest : List Node)
    (out : Pieces) :
    writeAfter (.command name source arguments :: rest) out =
      match form name arguments rest with
      | .error e => .error e
      | .ok (f, after) => f.written write >>= fun text => writeAfter after (out.attach text) := by
  rw [writeAfter]
  split
  next hform =>
    rw [hform]
    rfl
  next hform =>
    rw [hform]
    rfl
  next node after hform =>
    rw [hform]
    dsimp only [Form.written]
    cases write (inside node) <;> rfl
  next first second after hform =>
    rw [hform]
    dsimp only [Form.written]
    cases write (inside first) with
    | error e => rfl
    | ok one => cases write (inside second) <;> rfl
  next index radicand after hform =>
    rw [hform]
    dsimp only [Form.written]
    cases write (inside radicand) with
    | error e => rfl
    | ok two => cases write (inside index) <;> rfl

/-- Every turn does to the pieces what its move says, and goes on. -/
theorem writeAfter_of_turn (h : Turn nodes move after) (out : Pieces) :
    writeAfter nodes out = writeAfter after (move.on out) := by
  cases h with
  | chars text rest => rw [writeAfter, Move.on]
  | comment source rest => rw [writeAfter, Move.on]
  | special source rest => rw [writeAfter, Move.on]
  | group opener rest hbody =>
    rw [writeAfter, hbody, Move.on]
    rfl
  | math source rest hbody =>
    rw [writeAfter, hbody, Move.on]
    rfl
  | environment source rest hlayout hcells =>
    rw [writeAfter_environment, hlayout, hcells, Move.on]
    rfl
  | ready source hform =>
    rw [writeAfter_command, hform, Move.on]
    rfl
  | application source hform hf htexts =>
    rw [writeAfter_command, hform, Move.on]
    dsimp only
    rw [Form.written_of_application hf htexts]
    rfl

/-- What is written goes turn by turn. -/
theorem exists_turn {node : Node} {rest : List Node}
    (h : writeAfter (node :: rest) out = .ok done) :
    ∃ move after, Turn (node :: rest) move after ∧ writeAfter after (move.on out) = .ok done := by
  suffices hturn : ∃ move after, Turn (node :: rest) move after by
    obtain ⟨move, after, hturn⟩ := hturn
    exact ⟨move, after, hturn, by rw [← writeAfter_of_turn hturn out, h]⟩
  cases node with
  | chars text => exact ⟨_, _, .chars text rest⟩
  | comment source => exact ⟨_, _, .comment source rest⟩
  | special source => exact ⟨_, _, .special source rest⟩
  | group opener body =>
    rw [writeAfter] at h
    obtain ⟨text, hbody, -⟩ := exists_of_bind h
    exact ⟨_, _, .group opener rest hbody⟩
  | math source body =>
    rw [writeAfter] at h
    obtain ⟨text, hbody, -⟩ := exists_of_bind h
    exact ⟨_, _, .math source rest hbody⟩
  | environment name source body =>
    rw [writeAfter_environment] at h
    cases hlayout : layout? name with
    | none =>
      rw [hlayout] at h
      cases h
    | some layout =>
      rw [hlayout] at h
      obtain ⟨cells, hcells, -⟩ := exists_of_bind h
      exact ⟨_, _, .environment source rest hlayout hcells⟩
  | command name source arguments =>
    rw [writeAfter_command] at h
    cases hform : form name arguments rest with
    | error e =>
      rw [hform] at h
      cases h
    | ok taken =>
      rw [hform] at h
      obtain ⟨text, hwritten, -⟩ := exists_of_bind h
      obtain heq | ⟨function, operands, texts, hf, htexts⟩ := Form.cases_of_written hwritten
      · exact ⟨_, _, .ready source (hform.trans (by rw [← heq]))⟩
      · exact ⟨_, _, .application source hform hf htexts⟩

end Turn

section Within

variable {texts row : List (List Char)} {cells : List (List (List Char))} {text : List Char}

theorem joined_cons (between : String) (text : List Char) (texts : List (List Char)) :
    ∃ more, joined between (text :: texts) = text ++ more ∧ joined between texts <:+ more := by
  cases texts with
  | nil => exact ⟨[], by rw [joined_singleton, List.append_nil], List.nil_suffix⟩
  | cons next texts =>
    exact ⟨between.toList ++ joined between (next :: texts),
      joined_cons_cons between text next texts, List.suffix_append _ _⟩

theorem within_joined (h : text ∈ texts) (between : String) : text <:+: joined between texts := by
  induction texts with
  | nil => cases h
  | cons first texts ih =>
    obtain ⟨more, heq, hmore⟩ := joined_cons between first texts
    rw [heq]
    obtain rfl | h := List.mem_cons.mp h
    · exact (List.prefix_append _ _).isInfix
    · exact (ih h).trans (hmore.isInfix.trans (List.suffix_append _ _).isInfix)

theorem within_applied (h : text ∈ texts) (function : String) :
    text <:+: applied function texts :=
  (within_joined h ", ").trans ⟨function.toList ++ ['('], [')'], by simp [applied]⟩

/-- A cell with something in it is not left out. -/
theorem Layout.within_text (layout : Layout) (hrow : row ∈ cells) (htext : text ∈ row)
    (hne : text ≠ []) : text <:+: layout.text cells := by
  have hkept : row ∈ cells.filter fun row => row.any fun cell => !cell.isEmpty := by
    refine List.mem_filter.mpr ⟨hrow, List.any_eq_true.mpr ⟨text, htext, ?_⟩⟩
    simp [hne]
  have hwithin (between outer : String) : text <:+: joined outer
      ((cells.filter fun row => row.any fun cell => !cell.isEmpty).map (joined between)) :=
    (within_joined htext between).trans
      (within_joined (List.mem_map_of_mem hkept) outer)
  cases layout with
  | matrix delimiters =>
    refine (hwithin ", " "; ").trans ?_
    cases delimiters with
    | usual => exact ⟨_, [')'], rfl⟩
    | given delimiter => exact ⟨_, [')'], rfl⟩
  | cases => exact (hwithin " & " ", ").trans ⟨_, [')'], rfl⟩
  | lines => exact hwithin " & " " \\ "

end Within

section Run

theorem exists_of_write {text : List Char} (h : write nodes = .ok text) :
    ∃ done, writeAfter nodes {} = .ok done ∧ text = done.text := by
  rw [write] at h
  cases hdone : writeAfter nodes {} with
  | error e =>
    rw [hdone] at h
    cases h
  | ok done =>
    rw [hdone] at h
    cases h
    exact ⟨done, rfl, rfl⟩

/-- What is written by itself in a turn is part of what is put down, unless nothing comes of it. -/
theorem exists_of_inner (hturn : Turn nodes move after) (h : Inner nodes body) :
    ∃ text piece, write body = .ok text ∧ move = .attach piece ∧
      (text ≠ [] → text <:+: piece) := by
  cases hturn with
  | chars text rest => cases h
  | comment source rest => cases h
  | special source rest => cases h
  | group opener rest hbody =>
    cases h
    exact ⟨_, _, hbody, rfl, fun _ => List.infix_rfl⟩
  | math source rest hbody =>
    cases h
    exact ⟨_, _, hbody, rfl, fun _ => List.infix_rfl⟩
  | environment source rest hlayout hcells =>
    cases h with
    | cell _ _ _ hrow hcell =>
      obtain ⟨texts, htexts, hwrite⟩ := exists_of_mem_left (forall₂_of_mapM hcells) hrow
      obtain ⟨text, htext, hbody⟩ := exists_of_mem_left (forall₂_of_mapM hwrite) hcell
      exact ⟨text, _, hbody, rfl, fun hne => Layout.within_text _ htexts htext hne⟩
  | ready source hform =>
    cases h with
    | operand _ hother hf hnode =>
      rw [hform] at hother
      cases hother
      cases hf
  | application source hform hf htexts =>
    cases h with
    | operand _ hother hg hnode =>
      rw [hform] at hother
      cases hother
      rw [hf] at hg
      cases hg
      obtain ⟨text, htext, hbody⟩ := exists_of_mem_left (forall₂_of_mapM htexts) hnode
      exact ⟨text, _, hbody, rfl, fun _ => within_applied htext _⟩

theorem Form.sizeOf_operands {f : Form} {function : String} {operands : List Node} {node : Node}
    {bound : Nat} (h : f.Below bound) (hf : f.application? = some (function, operands))
    (hnode : node ∈ operands) : sizeOf node < bound := by
  cases f with
  | ready text => cases hf
  | unary function operand =>
    cases hf
    rw [List.mem_singleton] at hnode
    rw [hnode]
    exact h
  | binary function first second =>
    cases hf
    rcases List.mem_pair.mp hnode with rfl | rfl
    · exact h.1
    · exact h.2
  | root index radicand =>
    cases hf
    rcases List.mem_pair.mp hnode with rfl | rfl
    · exact h.1
    · exact h.2

theorem Turn.ne_nil (h : Turn nodes move after) : nodes ≠ [] := by
  cases h <;> exact List.cons_ne_nil _ _

theorem Turn.size (h : Turn nodes move after) : sizeOf after < sizeOf nodes := by
  cases h with
  | ready source hform =>
    have hsize := (form_size hform).2
    simp
    omega
  | application source hform hf htexts =>
    have hsize := (form_size hform).2
    simp
    omega
  | _ =>
    rw [List.cons.sizeOf_spec]
    omega

theorem Inner.size (h : Inner nodes body) : sizeOf body < sizeOf nodes := by
  cases h with
  | group opener body rest =>
    simp
    omega
  | math source body rest =>
    simp
    omega
  | @cell name source rest body cell row hrow hcell =>
    have hcell := sizeOf_cell_le hrow hcell
    have hbody := sizeOf_layoutBody_le name body
    simp
    omega
  | @operand source name function arguments rest after operands f node hform hf hnode =>
    have hnode := Form.sizeOf_operands (form_size hform).1 hf hnode
    have hinside := sizeOf_inside_le node
    simp
    omega

/-- What holds before anything is written, and is kept by each turn when it holds of the nodes that
are written by themselves for it, holds of everything that is written. -/
theorem writeAfter_induction {motive : List Node → Pieces → Pieces → Prop}
    (nil : ∀ out, motive [] out out)
    (turn : ∀ {nodes after : List Node} {move : Move} {out done : Pieces}, Turn nodes move after →
      (∀ {body written}, Inner nodes body → writeAfter body {} = .ok written →
        motive body {} written) →
      motive after (move.on out) done → motive nodes out done)
    (h : writeAfter nodes out = .ok done) : motive nodes out done := by
  induction hn : sizeOf nodes using Nat.strong_induction_on generalizing nodes out done with
  | h n ih =>
    subst hn
    cases nodes with
    | nil =>
      rw [writeAfter] at h
      cases h
      exact nil out
    | cons node rest =>
      obtain ⟨move, after, hturn, hafter⟩ := exists_turn h
      exact turn hturn (fun hinner hbody => ih _ hinner.size hbody rfl) (ih _ hturn.size hafter rfl)

/-- Whatever is shown before a turn is still shown when everything is written. -/
theorem shows_of_writeAfter (h : writeAfter nodes out = .ok done) :
    Shows u out.whole → Shows u done.whole := by
  refine writeAfter_induction (motive := fun _ out done => Shows u out.whole → Shows u done.whole)
    (fun out => id) ?_ h
  intro nodes after move out done hturn _ ih hshows
  apply ih
  cases move with
  | skip => exact hshows
  | add piece => exact hshows.add_left piece
  | attach piece => exact hshows.attach_left piece

/-- What is put down in a turn is shown when everything is written. -/
theorem Turn.shows {piece : List Char} (hturn : Turn nodes (.attach piece) after)
    (h : writeAfter nodes out = .ok done) (hshows : Shows u piece) : Shows u done.whole := by
  rw [writeAfter_of_turn hturn] at h
  exact shows_of_writeAfter h (hshows.attach_right out)

/-- What is shown at a place that the writer comes to is shown when everything is written. -/
theorem Reaches.shows (h : Reaches nodes out place held)
    (hwrite : writeAfter nodes out = .ok done) :
    ∃ written, writeAfter place held = .ok written ∧
      ∀ u, Shows u written.whole → Shows u done.whole := by
  induction h generalizing done with
  | here nodes out => exact ⟨done, hwrite, fun _ => id⟩
  | @inner nodes body place held out hinner _ ih =>
    cases nodes with
    | nil => cases hinner
    | cons node rest =>
      obtain ⟨move, after, hturn, hafter⟩ := exists_turn hwrite
      -- text written by itself is squeezed and trimmed before it stands in the piece put down
      obtain ⟨text, piece, hbody, rfl, hwithin⟩ := exists_of_inner hturn hinner
      obtain ⟨whole, hwhole, rfl⟩ := exists_of_write hbody
      obtain ⟨written, hwritten, hshows⟩ := ih hwhole
      refine ⟨written, hwritten, fun u hu => ?_⟩
      exact hturn.shows hwrite ((hshows u hu).text.of_within (hwithin (hshows u hu).text.ne_nil))
  | later hturn _ ih =>
    rw [writeAfter_of_turn hturn] at hwrite
    exact ih hwrite

end Run

end Typeset.Math
