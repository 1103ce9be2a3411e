import Typeset.Latex.Node
import Typeset.Math.Symbol
import Typeset.Math.Pieces
import Typeset.Text.Quoted

/-! What a command becomes, and what it takes from the nodes after it. A command that was not given
its arguments takes them there, down to single characters; what is left of a run of characters goes
back in front of the others. -/

namespace Typeset.Math

open Latex (Node)

/-- Why an expression has no form in Typst. -/
inductive Obstacle
  | missingArgument (command : String)
  | unsupportedEnvironment (name : String)
  deriving DecidableEq, Repr

/-- The words for an obstacle. -/
def Obstacle.reason : Obstacle → String
  | .missingArgument command => "\\" ++ command ++ " is missing an argument"
  | .unsupportedEnvironment name => "unsupported environment " ++ Text.quote name

/-- What a command becomes: ready text, or a function of nodes still to be written. -/
inductive Form
  | ready (text : List Char)
  | unary (function : String) (operand : Node)
  | binary (function : String) (first second : Node)
  | root (index radicand : Node)

/-- The next argument among the nodes after a command, and what follows it: a node that is no run
of characters, or the next character that is not white space. -/
def nextOperand? : List Node → Option (Node × List Node)
  | [] => none
  | node :: rest =>
    match node.chars? with
    | none => some (node, rest)
    | some text =>
      match text.dropWhile Text.isBlank with
      | [] => nextOperand? rest
      | [c] => some (.chars [c], rest)
      | c :: more => some (.chars [c], .chars more :: rest)

/-- An argument of a command, out of those it was given or the nodes after it, with what is left of
either. -/
def operand (name : String) (given rest : List Node) :
    Except Obstacle (Node × List Node × List Node) :=
  match given with
  | node :: more => .ok (node, more, rest)
  | [] =>
    match nextOperand? rest with
    | some (node, rest) => .ok (node, [], rest)
    | none => .error (.missingArgument name)

/-- Text in brackets at the very start of the nodes after a command, and what follows it. -/
def nextBracket? (rest : List Node) : Option (Node × List Node) :=
  match rest with
  | .chars ('[' :: text) :: others =>
    let inner := text.takeWhile (· != ']')
    match text.drop inner.length with
    | [] => none
    | [_] => some (.chars inner, others)
    | _ :: more => some (.chars inner, .chars more :: others)
  | _ => none

/-- The nodes after a command, without a full stop at their very start: it stands for a delimiter
that is not there. -/
def dropStop (rest : List Node) : List Node :=
  match rest with
  | .chars ['.'] :: others => others
  | .chars ('.' :: more) :: others => .chars more :: others
  | _ => rest

/-- A name with a blank on both sides. -/
def spaced (name : String) : List Char := ' ' :: name.toList ++ [' ']

/-- Text inside a string literal. -/
def literalText (cs : List Char) : List Char :=
  cs.flatMap fun c => if c == '\\' || c == '"' then ['\\', c] else [c]

/-- The ways in which a command is written. -/
inductive Role
  /-- Nothing is written; a command that places a delimiter swallows one that is not there. -/
  | silent (places : Bool)
  /-- A name or sign of its own. -/
  | name (text : String)
  /-- A function of two arguments. -/
  | fraction (function : String)
  | root
  /-- A function of one argument. -/
  | function (function : String)
  /-- An argument that is text, between a beginning and an end. -/
  | text (before after : String)

/-- How a command is written. A command that has no translation is a name in both languages. -/
def role (command : String) : Role :=
  if ignored.contains command then
    .silent (command == "left" || command == "right" || command == "middle")
  else match symbol? command with
  | some symbol => .name symbol
  | none =>
    if operators.contains command then .name command
    else match fractions.lookup command with
    | some function => .fraction function
    | none =>
      if command == "sqrt" then .root
      else match (styles ++ accents).lookup command with
      | some function => .function function
      | none =>
        if textCommands.contains command then .text " \"" "\" "
        else if command == "operatorname" then .text "op(\"" "\")"
        else .name command

/-- The index of a root: given in brackets, or in brackets at the start of the nodes after it. -/
def rootIndex (arguments rest : List Node) : Option Node × List Node :=
  match arguments.find? Node.isOptional with
  | some node => (some node, rest)
  | none =>
    match nextBracket? rest with
    | some (node, rest) => (some node, rest)
    | none => (none, rest)

/-- The form of a command with the arguments it was given, and the nodes that it leaves of those
after it. -/
def form (command : String) (arguments rest : List Node) : Except Obstacle (Form × List Node) :=
  let given := arguments.filter fun node => !node.isOptional
  match role command with
  | .silent places => .ok (.ready [], if places then dropStop rest else rest)
  | .name text => .ok (.ready (spaced text), rest)
  | .fraction function =>
    match operand command given rest with
    | .error e => .error e
    | .ok (first, given, rest) =>
      match operand command given rest with
      | .error e => .error e
      | .ok (second, _, rest) => .ok (.binary function first second, rest)
  | .root =>
    match operand command given (rootIndex arguments rest).2 with
    | .error e => .error e
    | .ok (radicand, _, rest') =>
      match (rootIndex arguments rest).1 with
      | some index => .ok (.root index radicand, rest')
      | none => .ok (.unary "sqrt" radicand, rest')
  | .function function =>
    match operand command given rest with
    | .error e => .error e
    | .ok (node, _, rest) => .ok (.unary function node, rest)
  | .text before after =>
    match operand command given rest with
    | .error e => .error e
    | .ok (node, _, rest) =>
      .ok (.ready (before.toList ++ literalText node.verbatim ++ after.toList), rest)

/-- Whether the nodes that a form is still to write are smaller than a bound. -/
def Form.Below (bound : Nat) : Form → Prop
  | .ready _ => True
  | .unary _ node => sizeOf node < bound
  | .binary _ first second => sizeOf first < bound ∧ sizeOf second < bound
  | .root index radicand => sizeOf index < bound ∧ sizeOf radicand < bound

theorem sizeOf_le_of_sublist {α : Type} [SizeOf α] {part whole : List α} (h : part.Sublist whole) :
    sizeOf part ≤ sizeOf whole := by
  induction h with
  | slnil => exact Nat.le_refl _
  | cons a h ih =>
    simp only [List.cons.sizeOf_spec]
    omega
  | cons_cons a h ih =>
    simp only [List.cons.sizeOf_spec]
    omega

theorem nextOperand?_size {nodes rest : List Node} {node : Node}
    (h : nextOperand? nodes = some (node, rest)) :
    sizeOf node < sizeOf nodes ∧ sizeOf rest ≤ sizeOf nodes := by
  fun_induction nextOperand? nodes with
  | case1 => simp at h
  | case2 item others _ =>
    simp only [Option.some.injEq, Prod.mk.injEq] at h
    obtain ⟨rfl, rfl⟩ := h
    simp
    omega
  | case3 item others text _ _ ih =>
    have := ih h
    simp
    omega
  | case4 item others text hc c hd =>
    simp only [Option.some.injEq, Prod.mk.injEq] at h
    obtain ⟨rfl, rfl⟩ := h
    have hs := sizeOf_le_of_sublist (List.dropWhile_sublist Text.isBlank (l := text))
    rw [hd] at hs
    cases item <;> simp [Node.chars?] at hc
    subst hc
    simp at hs ⊢
    omega
  | case5 item others text hc c more hne hd =>
    simp only [Option.some.injEq, Prod.mk.injEq] at h
    obtain ⟨rfl, rfl⟩ := h
    have hs := sizeOf_le_of_sublist (List.dropWhile_sublist Text.isBlank (l := text))
    rw [hd] at hs
    cases item <;> simp [Node.chars?] at hc
    subst hc
    cases more <;> simp at hs ⊢ <;> omega

theorem operand_size {command : String} {given rest given' rest' : List Node} {node : Node}
    (h : operand command given rest = .ok (node, given', rest')) :
    sizeOf node < sizeOf given + sizeOf rest ∧ sizeOf given' ≤ sizeOf given ∧
      sizeOf rest' ≤ sizeOf rest := by
  unfold operand at h
  split at h
  · simp only [Except.ok.injEq, Prod.mk.injEq] at h
    obtain ⟨rfl, rfl, rfl⟩ := h
    simp
    omega
  · split at h
    · next hn =>
      simp only [Except.ok.injEq, Prod.mk.injEq] at h
      obtain ⟨rfl, rfl, rfl⟩ := h
      have := nextOperand?_size hn
      simp
      omega
    · simp at h

theorem nextBracket?_size {nodes rest : List Node} {node : Node}
    (h : nextBracket? nodes = some (node, rest)) :
    sizeOf node < sizeOf nodes ∧ sizeOf rest ≤ sizeOf nodes := by
  unfold nextBracket? at h
  split at h
  · next text others =>
    have ht := sizeOf_le_of_sublist (List.takeWhile_sublist (· != ']') (l := text))
    have hd := sizeOf_le_of_sublist (List.drop_sublist (text.takeWhile (· != ']')).length text)
    dsimp only at h
    split at h
    · simp at h
    · simp only [Option.some.injEq, Prod.mk.injEq] at h
      obtain ⟨rfl, rfl⟩ := h
      simp
      omega
    · next heq =>
      simp only [Option.some.injEq, Prod.mk.injEq] at h
      obtain ⟨rfl, rfl⟩ := h
      rw [heq] at hd
      simp at hd ⊢
      omega
  · simp at h

theorem dropStop_size (rest : List Node) : sizeOf (dropStop rest) ≤ sizeOf rest := by
  unfold dropStop
  split
  · exact Nat.le_add_left _ _
  · simp only [List.cons.sizeOf_spec, Node.chars.sizeOf_spec]
    omega
  · exact Nat.le_refl _

theorem rootIndex_size (arguments rest : List Node) :
    sizeOf (rootIndex arguments rest).2 ≤ sizeOf rest ∧
      ∀ node, (rootIndex arguments rest).1 = some node →
        sizeOf node < sizeOf arguments + sizeOf rest := by
  unfold rootIndex
  split
  · next node hf =>
    refine ⟨Nat.le_refl _, ?_⟩
    intro other h
    simp only [Option.some.injEq] at h
    subst h
    have := List.sizeOf_lt_of_mem (List.mem_of_find?_eq_some hf)
    omega
  · split
    · next node others hb =>
      have hs := nextBracket?_size hb
      refine ⟨hs.2, ?_⟩
      intro other h
      simp only [Option.some.injEq] at h
      subst h
      omega
    · exact ⟨Nat.le_refl _, by simp⟩

/-- What a command takes is smaller than what it was given and what follows it, and it never makes
what follows it larger. -/
theorem form_size {command : String} {arguments rest rest' : List Node} {f : Form}
    (h : form command arguments rest = .ok (f, rest')) :
    f.Below (sizeOf arguments + sizeOf rest) ∧ sizeOf rest' ≤ sizeOf rest := by
  have hg := sizeOf_le_of_sublist
    (List.filter_sublist (p := fun node => !node.isOptional) (l := arguments))
  unfold form at h
  dsimp only at h
  split at h
  · next places _ =>
    simp only [Except.ok.injEq, Prod.mk.injEq] at h
    obtain ⟨rfl, rfl⟩ := h
    refine ⟨trivial, ?_⟩
    split
    · exact dropStop_size rest
    · exact Nat.le_refl _
  · simp only [Except.ok.injEq, Prod.mk.injEq] at h
    obtain ⟨rfl, rfl⟩ := h
    exact ⟨trivial, Nat.le_refl _⟩
  · split at h
    · simp at h
    · next h1 =>
      split at h
      · simp at h
      · next h2 =>
        simp only [Except.ok.injEq, Prod.mk.injEq] at h
        obtain ⟨rfl, rfl⟩ := h
        have s1 := operand_size h1
        have s2 := operand_size h2
        simp only [Form.Below]
        omega
  · have hr := rootIndex_size arguments rest
    split at h
    · simp at h
    · next h1 =>
      have s1 := operand_size h1
      split at h
      · next index hi =>
        simp only [Except.ok.injEq, Prod.mk.injEq] at h
        obtain ⟨rfl, rfl⟩ := h
        have := hr.2 index hi
        simp only [Form.Below]
        omega
      · simp only [Except.ok.injEq, Prod.mk.injEq] at h
        obtain ⟨rfl, rfl⟩ := h
        simp only [Form.Below]
        omega
  · split at h
    · simp at h
    · next h1 =>
      simp only [Except.ok.injEq, Prod.mk.injEq] at h
      obtain ⟨rfl, rfl⟩ := h
      have := operand_size h1
      simp only [Form.Below]
      omega
  · split at h
    · simp at h
    · next h1 =>
      simp only [Except.ok.injEq, Prod.mk.injEq] at h
      obtain ⟨rfl, rfl⟩ := h
      have := operand_size h1
      exact ⟨trivial, this.2.2⟩

end Typeset.Math
