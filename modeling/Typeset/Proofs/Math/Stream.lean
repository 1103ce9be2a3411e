import Typeset.Proofs.Math.Turn

/-! The nodes that the writer goes through, as a stream. They are taken one by one from the front,
and what is left of a run of characters is put back before the others. Every turn makes the stream
smaller all the same, and what is written by itself in it is a smaller tree; so the writer with
bounds on its loops and on its depth gives what the writer without them gives. -/

namespace Typeset.Math

open Latex (Node)

/-- Nodes that are taken from the front: those ahead, the one that was taken last, and all that were
put back, each beside the one that had been taken last. -/
structure NodeStream where
  ahead : List Node
  last : Option Node := none
  returned : List (Option Node × Node) := []

/-- Why a writer with bounds stops short: a bound is used up, or there is an obstacle. -/
inductive Halt
  | exhausted
  | obstacle (obstacle : Obstacle)

/-- What is drawn from a stream. Where it fails, the stream stays as far as it was drawn. -/
abbrev Drawing := EStateM Halt NodeStream

/-- The stream that is left. -/
def leaves {α : Type} (m : Drawing α) (s : NodeStream) : NodeStream :=
  match m.run s with
  | .ok _ t => t
  | .error _ t => t

/-- The next node is taken. -/
def next : Drawing (Option Node) := do
  let s ← get
  match s.ahead with
  | [] => return none
  | node :: rest => do
    set { s with ahead := rest, last := some node }
    return some node

/-- The next node is looked at. -/
def peek : Drawing (Option Node) := do return (← get).ahead.head?

/-- A node is put before those ahead. -/
def push (node : Node) : Drawing Unit :=
  modify fun s => { s with ahead := node :: s.ahead, returned := s.returned ++ [(s.last, node)] }

/-- Characters are put back, if there are any. -/
def putBack (text : List Char) : Drawing Unit :=
  if text.isEmpty then return () else push (.chars text)

/-- The next argument, looked for in a number of turns: a node that is no run of characters, or the
next character that is not white space. -/
def drawOperand? : Nat → Drawing (Option Node)
  | 0 => throw .exhausted
  | turns + 1 => do
    match ← next with
    | none => return none
    | some node =>
      match node.chars? with
      | none => return some node
      | some text =>
        match text.dropWhile Text.isBlank with
        | [] => drawOperand? turns
        | c :: more => do
          putBack more
          return some (.chars [c])

/-- Text in brackets at the very start of the nodes ahead. -/
def drawBracket? : Drawing (Option Node) := do
  match ← peek with
  | some (.chars ('[' :: text)) =>
    let inner := text.takeWhile (· != ']')
    match text.drop inner.length with
    | [] => return none
    | _ :: more => do
      let _ ← next
      putBack more
      return some (.chars inner)
  | _ => return none

/-- A full stop at the very start of the nodes ahead. -/
def drawStop : Drawing Unit := do
  match ← peek with
  | some (.chars ('.' :: more)) => do
    let _ ← next
    putBack more
  | _ => return ()

/-- An argument of a command, out of those it was given or the nodes ahead, with what is left of
those it was given. -/
def drawOperand (name : String) : List Node → Drawing (Node × List Node)
  | node :: more => return (node, more)
  | [] => do
    match ← drawOperand? ((← get).ahead.length + 1) with
    | some node => return (node, [])
    | none => throw (.obstacle (.missingArgument name))

/-- The index of a root: given in brackets, or in brackets at the start of the nodes ahead. -/
def drawIndex (arguments : List Node) : Drawing (Option Node) :=
  match arguments.find? Node.isOptional with
  | some node => return some node
  | none => drawBracket?

/-- The form of a command with the arguments it was given. -/
def drawForm (command : String) (arguments : List Node) : Drawing Form := do
  let given := arguments.filter fun node => !node.isOptional
  match role command with
  | .silent places => do
    if places then drawStop
    return .ready []
  | .name text => return .ready (spaced text)
  | .fraction function => do
    let (first, given) ← drawOperand command given
    let (second, _) ← drawOperand command given
    return .binary function first second
  | .root => do
    let index ← drawIndex arguments
    let (radicand, _) ← drawOperand command given
    match index with
    | some index => return .root index radicand
    | none => return .unary "sqrt" radicand
  | .function function => do
    let (node, _) ← drawOperand command given
    return .unary function node
  | .text before behind => do
    let (node, _) ← drawOperand command given
    return .ready (before.toList ++ literalText node.verbatim ++ behind.toList)

/-- What is done for a node that was taken, and taken from those ahead of it. -/
def drawMove (inner : List Node → Except Halt (List Char)) : Node → Drawing Move
  | .chars text => return .add (plain text)
  | .comment _ => return .skip
  | .special source => return .add (if source = ['~'] then [' '] else source)
  | .group _ body => return .attach (← ofExcept (inner body))
  | .math _ body => return .attach (← ofExcept (inner body))
  | .environment name _ body => do
    match layout? name with
    | none => throw (.obstacle (.unsupportedEnvironment name))
    | some layout =>
      let cells ← ofExcept ((rows (layoutBody name body)).mapM fun row => row.mapM inner)
      return .attach (layout.text cells)
  | .command name _ arguments => do
    let form ← drawForm name arguments
    return .attach (← ofExcept (form.written inner))

/-- One turn: the next node is taken and written, unless there is none. -/
def turn (inner : List Node → Except Halt (List Char)) (out : Pieces) :
    Drawing (Option Pieces) := do
  match ← next with
  | none => return none
  | some node => return some ((← drawMove inner node).on out)

/-- The loop of the writer, for a number of turns at most. -/
def loop (inner : List Node → Except Halt (List Char)) : Nat → Pieces → Drawing Pieces
  | 0, _ => throw .exhausted
  | turns + 1, out => do
    match ← turn inner out with
    | none => return out
    | some out => loop inner turns out

/-- Nodes written by themselves, each loop in a number of turns that its nodes give and nested no
deeper than a bound. -/
def writeWithin (turns : List Node → Nat) : Nat → List Node → Except Halt (List Char)
  | 0, _ => .error .exhausted
  | depth + 1, nodes =>
    match (loop (writeWithin turns depth) (turns nodes) {}).run { ahead := nodes } with
    | .ok out _ => .ok out.text
    | .error halt _ => .error halt

/-- What nodes weigh: one for each, and the length that it has. -/
def load (length : Node → Nat) : List Node → Nat
  | [] => 0
  | node :: rest => 1 + length node + load length rest

/-- The turns that a loop over nodes is given: as many as the nodes weigh, and one more to find that
none is left. -/
def allowance (length : Node → Nat) (nodes : List Node) : Nat := load length nodes + 1

/-- What was put back is an end of the characters that had been taken last, and not all of them. -/
def Remainder (returned : Option Node × Node) : Prop :=
  ∃ text fragment, returned = (some (.chars text), .chars fragment) ∧
    fragment ≠ [] ∧ fragment <:+ text ∧ fragment ≠ text

/-- How a stream comes out of another: nodes are taken, and the rest of characters is put back right
after they were taken. -/
inductive Drawn : NodeStream → NodeStream → Prop
  | refl (s : NodeStream) : Drawn s s
  | take {s t : NodeStream} {node : Node} {rest : List Node} (hahead : s.ahead = node :: rest)
    (h : Drawn { s with ahead := rest, last := some node } t) : Drawn s t
  | part {s t : NodeStream} {text fragment : List Char} {rest : List Node}
    (hahead : s.ahead = .chars text :: rest) (hne : fragment ≠ [])
    (hsuffix : fragment <:+ text) (hproper : fragment ≠ text)
    (h : Drawn ⟨.chars fragment :: rest, some (.chars text),
      s.returned ++ [(some (.chars text), .chars fragment)]⟩ t) : Drawn s t

variable {α β : Type} {m : Drawing α} {f : α → Drawing β} {a : α} {halt : Halt}
  {s t u : NodeStream} {node : Node} {rest : List Node} {text more : List Char}
  {length : Node → Nat} {inner other : List Node → Except Halt (List Char)} {out : Pieces}

section Drawing

theorem run_bind_ok (h : m.run s = .ok a t) : (m >>= f).run s = (f a).run t := by
  rw [EStateM.run_bind, h]

theorem run_bind_error (h : m.run s = .error halt t) : (m >>= f).run s = .error halt t := by
  rw [EStateM.run_bind, h]

theorem next_nil (h : s.ahead = []) : next.run s = .ok none s := by
  rw [next, EStateM.run_bind, EStateM.run_get]
  dsimp only
  rw [h]
  rfl

theorem next_cons (h : s.ahead = node :: rest) :
    next.run s = .ok (some node) { s with ahead := rest, last := some node } := by
  rw [next, EStateM.run_bind, EStateM.run_get]
  dsimp only
  rw [h]
  rfl

end Drawing

section Drawn

theorem Drawn.trans (hst : Drawn s t) (htu : Drawn t u) : Drawn s u := by
  induction hst with
  | refl s => exact htu
  | take hahead _ ih => exact .take hahead (ih htu)
  | part hahead hne hsuffix hproper _ ih => exact .part hahead hne hsuffix hproper (ih htu)

theorem load_cons (length : Node → Nat) (node : Node) (rest : List Node) :
    load length (node :: rest) = 1 + length node + load length rest := rfl

/-- Nothing that is drawn makes the stream heavier, whatever length nodes other than characters
have. -/
theorem Drawn.load_le (hlength : ∀ text, length (.chars text) = text.length) (h : Drawn s t) :
    load length t.ahead ≤ load length s.ahead := by
  induction h with
  | refl s => exact Nat.le_refl _
  | take hahead _ ih =>
    rw [hahead, load_cons]
    exact Nat.le_add_left_of_le ih
  | part hahead hne hsuffix _ _ ih =>
    rw [load_cons, hlength] at ih
    rw [hahead, load_cons, hlength]
    have hle := hsuffix.length_le
    omega

/-- The nodes ahead are no larger trees than before. -/
theorem Drawn.size_le (h : Drawn s t) : sizeOf t.ahead ≤ sizeOf s.ahead := by
  induction h with
  | refl s => exact Nat.le_refl _
  | take hahead _ ih =>
    rw [hahead, List.cons.sizeOf_spec]
    exact Nat.le_add_left_of_le ih
  | @part s t text fragment rest hahead hne hsuffix _ _ ih =>
    obtain ⟨before, rfl⟩ := hsuffix
    have hle := sizeOf_le_of_sublist (List.drop_sublist before.length (before ++ fragment))
    rw [List.drop_left] at hle
    rw [List.cons.sizeOf_spec, Node.chars.sizeOf_spec] at ih
    rw [hahead, List.cons.sizeOf_spec, Node.chars.sizeOf_spec]
    omega

/-- Everything that is put back is the rest of the characters that were taken right before. -/
theorem Drawn.returned (h : Drawn s t) :
    ∃ more, t.returned = s.returned ++ more ∧ ∀ p ∈ more, Remainder p := by
  induction h with
  | refl s => exact ⟨[], (List.append_nil _).symm, List.forall_mem_nil _⟩
  | take hahead _ ih => exact ih
  | @part s t text fragment rest hahead hne hsuffix hproper _ ih =>
    obtain ⟨more, hmore, hall⟩ := ih
    refine ⟨(some (.chars text), .chars fragment) :: more, ?_, ?_⟩
    · rw [hmore, List.append_assoc, List.singleton_append]
    · exact List.forall_mem_cons.mpr ⟨⟨text, fragment, rfl, hne, hsuffix, hproper⟩, hall⟩

/-- Characters are taken, and what is left of them behind one of them is put back. -/
theorem exists_putBack {c : Char} (hahead : s.ahead = .chars text :: rest)
    (hsuffix : c :: more <:+ text) :
    ∃ t, (putBack more).run { s with ahead := rest, last := some (.chars text) } = .ok () t ∧
      t.ahead = (if more = [] then rest else .chars more :: rest) ∧ Drawn s t := by
  have hmore : more <:+ text := (List.suffix_cons c more).trans hsuffix
  have hproper : more ≠ text := by
    rintro rfl
    exact absurd hsuffix.length_le (by simp)
  cases more with
  | nil => exact ⟨_, rfl, rfl, .take hahead (.refl _)⟩
  | cons d more =>
    exact ⟨_, rfl, rfl, .part hahead (List.cons_ne_nil d more) hmore hproper (.refl _)⟩

end Drawn

/-- What is drawn from a stream is what is expected of the nodes ahead, and so are the nodes that
are left; or the obstacle is the one that is expected. -/
inductive Agrees (f : α → List Node → β) (s : NodeStream) (expected : Except Obstacle β)
    (result : EStateM.Result Halt NodeStream α) : Prop
  | ok {a : α} {t : NodeStream} (hexpected : expected = .ok (f a t.ahead))
    (hresult : result = .ok a t) (h : Drawn s t) : Agrees f s expected result
  | error {e : Obstacle} {t : NodeStream} (hexpected : expected = .error e)
    (hresult : result = .error (.obstacle e) t) (h : Drawn s t) : Agrees f s expected result

section Command

/-- The next argument is found within as many turns as there are nodes ahead, and one more. -/
theorem exists_drawOperand? {turns : Nat} (h : s.ahead.length < turns) :
    ∃ t, (drawOperand? turns).run s = .ok ((nextOperand? s.ahead).map Prod.fst) t ∧
      t.ahead = ((nextOperand? s.ahead).map Prod.snd).getD [] ∧ Drawn s t := by
  induction turns generalizing s with
  | zero => exact absurd h (Nat.not_lt_zero _)
  | succ turns ih =>
    cases hahead : s.ahead with
    | nil =>
      refine ⟨s, ?_, hahead, .refl s⟩
      rw [drawOperand?, run_bind_ok (next_nil hahead)]
      rfl
    | cons node rest =>
      rw [drawOperand?, run_bind_ok (next_cons hahead), nextOperand?]
      dsimp only
      cases hchars : node.chars? with
      | none => exact ⟨_, rfl, rfl, .take hahead (.refl _)⟩
      | some text =>
        obtain rfl : node = .chars text := by
          cases node <;> cases hchars
          rfl
        have hsuffix := List.dropWhile_suffix Text.isBlank (l := text)
        dsimp only
        cases hsolid : text.dropWhile Text.isBlank with
        | nil =>
          have hfewer : rest.length < turns := by
            rw [hahead, List.length_cons] at h
            omega
          obtain ⟨t, hrun, hleft, hdrawn⟩ :=
            @ih { s with ahead := rest, last := some (.chars text) } hfewer
          exact ⟨t, hrun, hleft, .take hahead hdrawn⟩
        | cons c more =>
          obtain ⟨t, hrun, hleft, hdrawn⟩ := exists_putBack hahead (hsolid ▸ hsuffix)
          refine ⟨t, ?_, ?_, hdrawn⟩
          · dsimp only
            rw [run_bind_ok hrun]
            cases more <;> rfl
          · rw [hleft]
            cases more <;> rfl

theorem exists_drawBracket? (s : NodeStream) :
    ∃ t, drawBracket?.run s = .ok ((nextBracket? s.ahead).map Prod.fst) t ∧
      t.ahead = ((nextBracket? s.ahead).map Prod.snd).getD s.ahead ∧ Drawn s t := by
  have hpeek : peek.run s = .ok s.ahead.head? s := rfl
  rw [drawBracket?, run_bind_ok hpeek]
  split
  next _ text hhead =>
    obtain ⟨others, hahead⟩ := List.head?_eq_some_iff.mp hhead
    rw [hahead, nextBracket?]
    dsimp only
    cases hdrop : text.drop (text.takeWhile (· != ']')).length with
    | nil => exact ⟨s, rfl, hahead, .refl s⟩
    | cons c more =>
      have hsuffix : c :: more <:+ '[' :: text :=
        hdrop ▸ (List.drop_suffix _ _).trans (List.suffix_cons _ _)
      obtain ⟨t, hrun, hleft, hdrawn⟩ := exists_putBack hahead hsuffix
      refine ⟨t, ?_, ?_, hdrawn⟩
      · dsimp only
        rw [run_bind_ok (next_cons hahead), run_bind_ok hrun]
        cases more <;> rfl
      · rw [hleft]
        cases more <;> rfl
  next hother =>
    have hnone : nextBracket? s.ahead = none := by
      unfold nextBracket?
      split
      next text others hahead => exact (hother text (by rw [hahead]; rfl)).elim
      next => rfl
    rw [hnone]
    exact ⟨s, rfl, rfl, .refl s⟩

theorem exists_drawStop (s : NodeStream) :
    ∃ t, drawStop.run s = .ok () t ∧ t.ahead = dropStop s.ahead ∧ Drawn s t := by
  have hpeek : peek.run s = .ok s.ahead.head? s := rfl
  rw [drawStop, run_bind_ok hpeek]
  split
  next more hhead =>
    obtain ⟨others, hahead⟩ := List.head?_eq_some_iff.mp hhead
    obtain ⟨t, hrun, hleft, hdrawn⟩ := exists_putBack hahead List.suffix_rfl
    refine ⟨t, ?_, ?_, hdrawn⟩
    · rw [run_bind_ok (next_cons hahead), hrun]
    · rw [hleft, hahead]
      cases more <;> rfl
  next hother =>
    refine ⟨s, rfl, ?_, .refl s⟩
    unfold dropStop
    split
    next others hahead => exact (hother [] (by rw [hahead]; rfl)).elim
    next more others _ hahead => exact (hother more (by rw [hahead]; rfl)).elim
    next => rfl

theorem exists_drawIndex (arguments : List Node) (s : NodeStream) :
    ∃ t, (drawIndex arguments).run s = .ok (rootIndex arguments s.ahead).1 t ∧
      t.ahead = (rootIndex arguments s.ahead).2 ∧ Drawn s t := by
  unfold drawIndex rootIndex
  cases arguments.find? Node.isOptional with
  | some node => exact ⟨s, rfl, rfl, .refl s⟩
  | none =>
    obtain ⟨t, hrun, hleft, hdrawn⟩ := exists_drawBracket? s
    refine ⟨t, ?_, ?_, hdrawn⟩
    · rw [hrun]
      cases nextBracket? s.ahead <;> rfl
    · rw [hleft]
      cases nextBracket? s.ahead <;> rfl

theorem drawOperand_agrees (name : String) (given : List Node) (s : NodeStream) :
    Agrees (fun drawn rest => (drawn.1, drawn.2, rest)) s (operand name given s.ahead)
      ((drawOperand name given).run s) := by
  cases given with
  | cons node more => exact .ok rfl rfl (.refl s)
  | nil =>
    obtain ⟨t, hrun, hleft, hdrawn⟩ := exists_drawOperand? (Nat.lt_succ_self s.ahead.length)
    rw [operand, drawOperand, EStateM.run_bind, EStateM.run_get]
    dsimp only
    rw [run_bind_ok hrun]
    cases hnext : nextOperand? s.ahead with
    | none => exact .error rfl rfl hdrawn
    | some drawn =>
      rw [hnext] at hleft
      exact .ok (by rw [hleft]; rfl) rfl hdrawn

/-- A command takes from the stream what it takes from the nodes ahead. -/
theorem drawForm_agrees (command : String) (arguments : List Node) (s : NodeStream) :
    Agrees Prod.mk s (form command arguments s.ahead) ((drawForm command arguments).run s) := by
  unfold form drawForm
  dsimp only
  generalize arguments.filter (fun node => !node.isOptional) = given
  cases role command with
  | silent places =>
    cases places with
    | false => exact .ok rfl rfl (.refl s)
    | true =>
      obtain ⟨t, hrun, hleft, hdrawn⟩ := exists_drawStop s
      refine .ok (a := .ready []) ?_ ?_ hdrawn
      · rw [hleft]
        rfl
      · dsimp only
        rw [if_pos rfl, run_bind_ok hrun]
        rfl
  | name text => exact .ok rfl rfl (.refl s)
  | fraction function =>
    dsimp only
    obtain ⟨hfirst, hrun, hdrawn⟩ | ⟨hfirst, hrun, hdrawn⟩ := drawOperand_agrees command given s
    · rw [hfirst, run_bind_ok hrun]
      dsimp only
      next drawn t =>
      obtain ⟨hsecond, hrun, hmore⟩ | ⟨hsecond, hrun, hmore⟩ :=
        drawOperand_agrees command drawn.2 t
      · exact .ok (by rw [hsecond]) (run_bind_ok hrun) (hdrawn.trans hmore)
      · exact .error (by rw [hsecond]) (run_bind_error hrun) (hdrawn.trans hmore)
    · exact .error (by rw [hfirst]) (run_bind_error hrun) hdrawn
  | root =>
    obtain ⟨t, hrun, hleft, hdrawn⟩ := exists_drawIndex arguments s
    dsimp only
    rw [run_bind_ok hrun, ← hleft]
    obtain ⟨hradicand, hrun, hmore⟩ | ⟨hradicand, hrun, hmore⟩ := drawOperand_agrees command given t
    · rw [hradicand, run_bind_ok hrun]
      cases (rootIndex arguments s.ahead).1 with
      | none => exact .ok rfl rfl (hdrawn.trans hmore)
      | some index => exact .ok rfl rfl (hdrawn.trans hmore)
    · exact .error (by rw [hradicand]) (run_bind_error hrun) (hdrawn.trans hmore)
  | function function =>
    obtain ⟨hfirst, hrun, hdrawn⟩ | ⟨hfirst, hrun, hdrawn⟩ := drawOperand_agrees command given s
    · exact .ok (by rw [hfirst]) (run_bind_ok hrun) hdrawn
    · exact .error (by rw [hfirst]) (run_bind_error hrun) hdrawn
  | text before behind =>
    obtain ⟨hfirst, hrun, hdrawn⟩ | ⟨hfirst, hrun, hdrawn⟩ := drawOperand_agrees command given s
    · exact .ok (by rw [hfirst]) (run_bind_ok hrun) hdrawn
    · exact .error (by rw [hfirst]) (run_bind_error hrun) hdrawn

end Command

section Turn

variable {nodes : List Node} {move : Move} {turns : Nat} {bound depth : Nat}

/-- What is written by itself takes nothing from the stream. -/
theorem leaves_ofExcept (r : Except Halt α) (g : α → β) (s : NodeStream) :
    leaves (do return g (← ofExcept r)) s = s := by
  cases r <;> rfl

theorem leaves_of_ok (h : m.run s = .ok a t) : leaves m s = t := by
  rw [leaves, h]

theorem leaves_of_error (h : m.run s = .error halt t) : leaves m s = t := by
  rw [leaves, h]

theorem leaves_bind_of_ok (h : m.run s = .ok a t) : leaves (m >>= f) s = leaves (f a) t := by
  rw [leaves, run_bind_ok h, leaves]

theorem leaves_bind_of_error (h : m.run s = .error halt t) : leaves (m >>= f) s = t :=
  leaves_of_error (run_bind_error h)

theorem drawn_bind (hm : Drawn s (leaves m s))
    (hf : ∀ a t, m.run s = .ok a t → Drawn t (leaves (f a) t)) : Drawn s (leaves (m >>= f) s) := by
  cases hrun : m.run s with
  | ok a t =>
    rw [leaves_of_ok hrun] at hm
    rw [leaves_bind_of_ok hrun]
    exact hm.trans (hf a t hrun)
  | error halt t =>
    rw [leaves_of_error hrun] at hm
    rwa [leaves_bind_of_error hrun]

theorem drawn_drawMove (inner : List Node → Except Halt (List Char)) (node : Node)
    (s : NodeStream) : Drawn s (leaves (drawMove inner node) s) := by
  cases node with
  | chars text => exact .refl s
  | comment source => exact .refl s
  | special source => exact .refl s
  | group opener body =>
    rw [drawMove, leaves_ofExcept]
    exact .refl s
  | math source body =>
    rw [drawMove, leaves_ofExcept]
    exact .refl s
  | environment name source body =>
    rw [drawMove]
    cases layout? name with
    | none => exact .refl s
    | some layout =>
      dsimp only
      rw [leaves_ofExcept]
      exact .refl s
  | command name source arguments =>
    rw [drawMove]
    refine drawn_bind ?_ fun form t _ => ?_
    · obtain ⟨-, hrun, h⟩ | ⟨-, hrun, h⟩ := drawForm_agrees name arguments s
      · rwa [leaves_of_ok hrun]
      · rwa [leaves_of_error hrun]
    · rw [leaves_ofExcept]
      exact .refl t

theorem turn_nil (h : s.ahead = []) : (turn inner out).run s = .ok none s := by
  rw [turn, run_bind_ok (next_nil h)]
  rfl

/-- A turn takes the next node, whatever else it takes. -/
theorem drawn_turn (inner : List Node → Except Halt (List Char)) (out : Pieces)
    (h : s.ahead = node :: rest) :
    Drawn { s with ahead := rest, last := some node } (leaves (turn inner out) s) := by
  rw [turn, leaves_bind_of_ok (next_cons h)]
  exact drawn_bind (drawn_drawMove inner node _) fun move t _ => .refl t

theorem turn_of_move (h : s.ahead = node :: rest)
    (hmove : (drawMove inner node).run { s with ahead := rest, last := some node } = .ok move t) :
    (turn inner out).run s = .ok (some (move.on out)) t := by
  rw [turn, run_bind_ok (next_cons h)]
  dsimp only
  rw [run_bind_ok hmove]
  rfl

theorem turn_of_error (h : s.ahead = node :: rest)
    (hmove : (drawMove inner node).run { s with ahead := rest, last := some node } =
      .error halt t) : (turn inner out).run s = .error halt t := by
  rw [turn, run_bind_ok (next_cons h)]
  exact run_bind_error hmove

/-- Every turn makes the stream lighter, whether or not it succeeds. -/
theorem load_turn_lt (inner : List Node → Except Halt (List Char)) (out : Pieces)
    (hlength : ∀ text, length (.chars text) = text.length) (h : s.ahead ≠ []) :
    load length (leaves (turn inner out) s).ahead < load length s.ahead := by
  obtain ⟨node, rest, hahead⟩ := List.exists_cons_of_ne_nil h
  have hle := (drawn_turn inner out hahead).load_le hlength
  rw [hahead, load_cons]
  dsimp only at hle
  omega

/-- A whole run of the loop does nothing to the stream that its turns do not do. -/
theorem drawn_loop (inner : List Node → Except Halt (List Char)) (turns : Nat) (out : Pieces)
    (s : NodeStream) : Drawn s (leaves (loop inner turns out) s) := by
  induction turns generalizing s out with
  | zero => exact .refl s
  | succ turns ih =>
    rw [loop]
    refine drawn_bind ?_ fun next t _ => ?_
    · cases hahead : s.ahead with
      | nil =>
        rw [leaves_of_ok (turn_nil hahead)]
        exact .refl s
      | cons node rest => exact .take hahead (drawn_turn inner out hahead)
    · cases next with
      | none => exact .refl t
      | some out => exact ih out t

/-- The loop ends with nothing ahead. -/
theorem ahead_of_loop {done : Pieces} (h : (loop inner turns out).run s = .ok done t) :
    t.ahead = [] := by
  induction turns generalizing s out with
  | zero => cases h
  | succ turns ih =>
    rw [loop] at h
    cases hrun : (turn inner out).run s with
    | error halt u =>
      rw [run_bind_error hrun] at h
      cases h
    | ok next u =>
      rw [run_bind_ok hrun] at h
      cases next with
      | some next => exact ih h
      | none =>
        cases h
        cases hahead : s.ahead with
        | nil =>
          rw [turn_nil hahead] at hrun
          cases hrun
          exact hahead
        | cons node rest =>
          cases hmove : (drawMove inner node).run { s with ahead := rest, last := some node } with
          | ok move v =>
            rw [turn_of_move hahead hmove] at hrun
            cases hrun
          | error halt v =>
            rw [turn_of_error hahead hmove] at hrun
            cases hrun

theorem Form.written_congr {f : Form} (h : ∀ function operands,
    f.application? = some (function, operands) → ∀ node ∈ operands,
      other (inside node) = inner (inside node)) : f.written other = f.written inner := by
  cases f with
  | ready text => rfl
  | unary function node =>
    have hall := h _ _ rfl
    simp only [List.forall_mem_cons] at hall
    rw [Form.written, Form.written, hall.1]
  | binary function first second =>
    have hall := h _ _ rfl
    simp only [List.forall_mem_cons] at hall
    rw [Form.written, Form.written, hall.1, hall.2.1]
  | root index radicand =>
    have hall := h _ _ rfl
    simp only [List.forall_mem_cons] at hall
    rw [Form.written, Form.written, hall.1, hall.2.1]

/-- What is done for a node depends only on how the nodes are written that are written by
themselves for it. -/
theorem drawMove_congr (h : ∀ body, Inner (node :: s.ahead) body → other body = inner body) :
    (drawMove other node).run s = (drawMove inner node).run s := by
  cases node with
  | chars text => rfl
  | comment source => rfl
  | special source => rfl
  | group opener body => rw [drawMove, drawMove, h body (.group opener body _)]
  | math source body => rw [drawMove, drawMove, h body (.math source body _)]
  | environment name source body =>
    have hcells : (rows (layoutBody name body)).mapM (fun row => row.mapM other) =
        (rows (layoutBody name body)).mapM (fun row => row.mapM inner) :=
      mapM_congr fun row hrow => mapM_congr fun cell hcell =>
        h cell (.cell name source _ hrow hcell)
    rw [drawMove, drawMove, hcells]
  | command name source arguments =>
    rw [drawMove, drawMove]
    obtain ⟨hform, hrun, -⟩ | ⟨-, hrun, -⟩ := drawForm_agrees name arguments s
    · rw [run_bind_ok hrun, run_bind_ok hrun,
        Form.written_congr fun function operands hf node hnode =>
          h _ (.operand source hform hf hnode)]
    · rw [run_bind_error hrun, run_bind_error hrun]

/-- A turn depends only on how smaller trees are written. -/
theorem turn_congr (h : ∀ body, sizeOf body < sizeOf s.ahead → other body = inner body)
    (out : Pieces) : (turn other out).run s = (turn inner out).run s := by
  cases hahead : s.ahead with
  | nil => rw [turn_nil hahead, turn_nil hahead]
  | cons node rest =>
    have hmove := @drawMove_congr { s with ahead := rest, last := some node } node inner other
      fun body hbody => h body (hahead ▸ hbody.size)
    cases hrun : (drawMove inner node).run { s with ahead := rest, last := some node } with
    | ok move t => rw [turn_of_move hahead hrun, turn_of_move hahead (hmove.trans hrun)]
    | error halt t => rw [turn_of_error hahead hrun, turn_of_error hahead (hmove.trans hrun)]

end Turn

section Bounded

variable {nodes : List Node} {move : Move} {turns bound depth : Nat}

theorem Form.written_mapError {δ ε : Type} (word : ε → δ)
    (inner : List Node → Except ε (List Char)) (f : Form) :
    f.written (fun body => (inner body).mapError word) = (f.written inner).mapError word := by
  cases f with
  | ready text => rfl
  | unary function node =>
    rw [Form.written, Form.written]
    cases inner (inside node) <;> rfl
  | binary function first second =>
    rw [Form.written, Form.written]
    cases inner (inside first) with
    | error e => rfl
    | ok one => cases inner (inside second) <;> rfl
  | root index radicand =>
    rw [Form.written, Form.written]
    cases inner (inside radicand) with
    | error e => rfl
    | ok two => cases inner (inside index) <;> rfl

/-- The writer without bounds, its obstacles among the reasons to stop short. -/
def unbounded (nodes : List Node) : Except Halt (List Char) := (write nodes).mapError .obstacle

/-- The writer goes on from what was done for a node with the nodes that are left, or meets the same
obstacle. -/
inductive Proceeds (nodes : List Node) (out : Pieces)
    (result : EStateM.Result Halt NodeStream Move) : Prop
  | ok {move : Move} {t : NodeStream} (hresult : result = .ok move t)
    (h : writeAfter nodes out = writeAfter t.ahead (move.on out)) : Proceeds nodes out result
  | error {e : Obstacle} {t : NodeStream} (hresult : result = .error (.obstacle e) t)
    (h : writeAfter nodes out = .error e) : Proceeds nodes out result

theorem proceeds_attach {r : Except Obstacle α} {g : α → List Char}
    (h : writeAfter nodes out = r >>= fun a => writeAfter s.ahead (out.attach (g a))) :
    Proceeds nodes out
      ((do return .attach (g (← ofExcept (r.mapError .obstacle))) : Drawing Move).run s) := by
  cases r with
  | ok a => exact .ok rfl h
  | error e => exact .error rfl h

theorem drawMove_proceeds (node : Node) (s : NodeStream) (out : Pieces) :
    Proceeds (node :: s.ahead) out ((drawMove unbounded node).run s) := by
  cases node with
  | chars text => exact .ok rfl (by rw [writeAfter, Move.on])
  | comment source => exact .ok rfl (by rw [writeAfter, Move.on])
  | special source => exact .ok rfl (by rw [writeAfter, Move.on])
  | group opener body =>
    rw [drawMove, unbounded]
    exact proceeds_attach (g := id) (by rw [writeAfter]; rfl)
  | math source body =>
    rw [drawMove, unbounded]
    exact proceeds_attach (g := id) (by rw [writeAfter]; rfl)
  | environment name source body =>
    rw [drawMove]
    have henvironment := writeAfter_environment name source body s.ahead out
    cases hlayout : layout? name with
    | none =>
      rw [hlayout] at henvironment
      exact .error rfl henvironment
    | some layout =>
      rw [hlayout] at henvironment
      have hcells : (rows (layoutBody name body)).mapM (List.mapM unbounded) =
          ((rows (layoutBody name body)).mapM (List.mapM write)).mapError .obstacle := by
        rw [← mapM_mapError]
        exact mapM_congr fun row _ => mapM_mapError Halt.obstacle write row
      dsimp only
      rw [hcells]
      exact proceeds_attach henvironment
  | command name source arguments =>
    rw [drawMove]
    have hcommand := writeAfter_command name source arguments s.ahead out
    obtain ⟨hform, hrun, -⟩ | ⟨hform, hrun, -⟩ := drawForm_agrees name arguments s
    · rw [hform] at hcommand
      rw [run_bind_ok hrun]
      have hwritten := Form.written_mapError Halt.obstacle write
      rw [show unbounded = fun body => (write body).mapError .obstacle from rfl, hwritten]
      exact proceeds_attach (g := id) hcommand
    · rw [hform] at hcommand
      exact .error (run_bind_error hrun) hcommand

/-- With as many turns as the stream weighs and one more, the loop gives what it gives without a
bound on its turns. -/
theorem loop_agrees (s : NodeStream) (out : Pieces)
    (hlength : ∀ text, length (.chars text) = text.length)
    (hinner : ∀ body, sizeOf body < bound → inner body = unbounded body)
    (hsize : sizeOf s.ahead ≤ bound) (hturns : load length s.ahead < turns) :
    Agrees (fun done _ => done) s (writeAfter s.ahead out) ((loop inner turns out).run s) := by
  -- each turn leaves nodes that weigh less, and no larger trees than those that the bound is for
  induction turns generalizing s out with
  | zero => exact absurd hturns (Nat.not_lt_zero _)
  | succ turns ih =>
    have hturn := turn_congr (fun body hbody => hinner body (Nat.lt_of_lt_of_le hbody hsize)) out
    cases hahead : s.ahead with
    | nil =>
      have hrun : (loop inner (turns + 1) out).run s = .ok out s := by
        rw [loop, run_bind_ok (turn_nil hahead)]
        rfl
      exact .ok (by rw [writeAfter]) hrun (.refl s)
    | cons node rest =>
      obtain ⟨hmove, hwrite⟩ | ⟨hmove, hwrite⟩ :=
        drawMove_proceeds node { s with ahead := rest, last := some node } out
      · next move t =>
        rw [turn_of_move hahead hmove] at hturn
        have hdrawn := drawn_turn inner out hahead
        rw [leaves_of_ok hturn] at hdrawn
        have hlight := load_turn_lt inner out hlength (hahead ▸ List.cons_ne_nil node rest)
        rw [leaves_of_ok hturn] at hlight
        have hsmall := (Drawn.take hahead hdrawn).size_le
        rw [loop, run_bind_ok hturn, hwrite]
        obtain ⟨hexpected, hrun, hmore⟩ | ⟨hexpected, hrun, hmore⟩ :=
          @ih t (move.on out) (hsmall.trans hsize) (by omega)
        · exact .ok hexpected hrun ((Drawn.take hahead hdrawn).trans hmore)
        · exact .error hexpected hrun ((Drawn.take hahead hdrawn).trans hmore)
      · rw [turn_of_error hahead hmove] at hturn
        have hdrawn := drawn_turn inner out hahead
        rw [leaves_of_error hturn] at hdrawn
        exact .error hwrite (by rw [loop]; exact run_bind_error hturn) (.take hahead hdrawn)

theorem writeWithin_of_ok {turns : List Node → Nat} {done : Pieces}
    (h : (loop (writeWithin turns depth) (turns nodes) {}).run { ahead := nodes } = .ok done t) :
    writeWithin turns (depth + 1) nodes = .ok done.text := by
  rw [writeWithin, h]

theorem writeWithin_of_error {turns : List Node → Nat}
    (h : (loop (writeWithin turns depth) (turns nodes) {}).run { ahead := nodes } =
      .error halt t) : writeWithin turns (depth + 1) nodes = .error halt := by
  rw [writeWithin, h]

/-- The writer with bounds gives what the writer without them gives, if it may go as deep as its
nodes are large and each loop has as many turns as its nodes weigh, and one more. -/
theorem writeWithin_eq (hlength : ∀ text, length (.chars text) = text.length)
    (h : sizeOf nodes < depth) :
    writeWithin (allowance length) depth nodes = unbounded nodes := by
  induction depth generalizing nodes with
  | zero => exact absurd h (Nat.not_lt_zero _)
  | succ depth ih =>
    rw [unbounded, write]
    obtain ⟨hexpected, hrun, -⟩ | ⟨hexpected, hrun, -⟩ :=
      loop_agrees { ahead := nodes } {} hlength
        (fun body hbody => ih (Nat.lt_of_lt_of_le hbody (Nat.le_of_lt_succ h))) (Nat.le_refl _)
        (Nat.lt_succ_self _)
    · rw [writeWithin_of_ok hrun, hexpected]
      rfl
    · rw [writeWithin_of_error hrun, hexpected]
      rfl

end Bounded

/-- The writer uses up its stream. With bounds on its turns and on its depth it gives what it gives
without them. Each turn makes the nodes ahead weigh less, whether or not it succeeds, and whatever
length nodes other than characters have; the nodes that are written by themselves in it are smaller
trees, and it depends on no others. In a whole run of the loop, all that is put back is an end of
the characters that were taken right before, and not all of them; and where the loop ends, nothing
is ahead. -/
theorem stream_consumed (length : Node → Nat)
    (hlength : ∀ text, length (.chars text) = text.length) :
    (∀ nodes depth, sizeOf nodes < depth →
      writeWithin (allowance length) depth nodes = (write nodes).mapError .obstacle) ∧
    (∀ nodes body, Inner nodes body → sizeOf body < sizeOf nodes) ∧
    ∀ (inner : List Node → Except Halt (List Char)) (out : Pieces) (s : NodeStream),
      (s.ahead ≠ [] → load length (leaves (turn inner out) s).ahead < load length s.ahead) ∧
      (∀ other, (∀ body, sizeOf body < sizeOf s.ahead → other body = inner body) →
        (turn other out).run s = (turn inner out).run s) ∧
      ∀ turns,
        (∃ more, (leaves (loop inner turns out) s).returned = s.returned ++ more ∧
          ∀ returned ∈ more, Remainder returned) ∧
        ∀ done t, (loop inner turns out).run s = .ok done t → t.ahead = [] := by
  refine ⟨fun nodes depth h => writeWithin_eq hlength h, fun nodes body h => h.size,
    fun inner out s => ⟨?_, ?_, ?_⟩⟩
  · exact load_turn_lt inner out hlength
  · exact fun other h => turn_congr h out
  · exact fun turns => ⟨(drawn_loop inner turns out s).returned, fun done t => ahead_of_loop⟩

/-- The length of a run of characters; other nodes have none. -/
def charLength (node : Node) : Nat := (node.chars?.getD []).length

/-- A root, and characters out of which come its index and its radicand. -/
def cubeRoot : List Node := [.command "sqrt" "\\sqrt".toList [], .chars "[3]12".toList]

/-- The rest of the characters is put back twice. -/
theorem loop_cubeRoot :
    (loop (writeWithin (allowance charLength) 1999) (allowance charLength cubeRoot) {}).run
        { ahead := cubeRoot } =
      .ok ⟨["2".toList, "root(3, 1)".toList]⟩
        ⟨[], some (.chars "2".toList), [(some (.chars "[3]12".toList), .chars "12".toList),
          (some (.chars "12".toList), .chars "2".toList)]⟩ := by
  rfl

/-- What is written within bounds, and all that was put back on the way. -/
theorem stream_consumed_cubeRoot :
    (∀ text, charLength (.chars text) = text.length) ∧ sizeOf cubeRoot < 1999 ∧ cubeRoot ≠ [] ∧
      writeWithin (allowance charLength) 2000 cubeRoot = .ok "root(3, 1)2".toList ∧
      (write cubeRoot).mapError Halt.obstacle = .ok "root(3, 1)2".toList ∧
      Inner cubeRoot [.chars "3".toList] ∧ sizeOf [Node.chars "3".toList] < sizeOf cubeRoot ∧
      load charLength (leaves (turn unbounded {}) { ahead := cubeRoot }).ahead <
        load charLength cubeRoot ∧
      (turn unbounded {}).run { ahead := cubeRoot } =
        (turn (writeWithin (allowance charLength) 1999) {}).run { ahead := cubeRoot } ∧
      Remainder (some (.chars "[3]12".toList), .chars "12".toList) ∧
      Remainder (some (.chars "12".toList), .chars "2".toList) := by
  have hlength (text : List Char) : charLength (.chars text) = text.length := rfl
  have hsize : sizeOf cubeRoot < 1999 := by decide
  have hne : cubeRoot ≠ [] := List.cons_ne_nil _ _
  have hform : form "sqrt" [] [.chars "[3]12".toList] =
      .ok (.root (.chars "3".toList) (.chars "1".toList), [.chars "2".toList]) := by rfl
  have hindex : Inner cubeRoot [.chars "3".toList] := .operand _ hform rfl List.mem_cons_self
  have htext : Pieces.text ⟨["2".toList, "root(3, 1)".toList]⟩ = "root(3, 1)2".toList := by decide
  have hwritten := writeWithin_of_ok loop_cubeRoot
  rw [htext] at hwritten
  obtain ⟨hbounded, hsmall, hturns⟩ := stream_consumed charLength hlength
  obtain ⟨-, hsame, hloop⟩ :=
    hturns (writeWithin (allowance charLength) 1999) {} { ahead := cubeRoot }
  obtain ⟨hless, -, -⟩ := hturns unbounded {} { ahead := cubeRoot }
  obtain ⟨⟨more, hmore, hall⟩, -⟩ := hloop (allowance charLength cubeRoot)
  rw [leaves_of_ok loop_cubeRoot] at hmore
  subst hmore
  simp only [List.forall_mem_cons] at hall
  have hinner (body : List Node) (hbody : sizeOf body < sizeOf cubeRoot) :
      unbounded body = writeWithin (allowance charLength) 1999 body :=
    (hbounded body 1999 (hbody.trans hsize)).symm
  exact ⟨hlength, hsize, hne, hwritten, (hbounded cubeRoot 2000 (by omega)).symm.trans hwritten,
    hindex, hsmall _ _ hindex, hless hne, hsame unbounded hinner, hall.1, hall.2.1⟩

end Typeset.Math
