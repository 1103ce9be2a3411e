import Typeset.Proofs.Math.Unbraced

/-! Comments in a formula. They are passed over wherever the writer comes to one; what a command
takes from behind itself is looked for by itself, and there a comment is something to be taken. -/

namespace Typeset.Math

open Latex (Node)

variable {nodes commented rest rest' after body body' arguments arguments' : List Node}
  {n m node : Node} {name : String} {text : List Char} {c : Char}

/-- Whether a node is a comment. -/
def isComment : Node → Bool
  | .comment _ => true
  | _ => false

mutual

/-- Whether no comment stands in a node, at any depth. -/
def isBare : Node → Bool
  | .comment _ => false
  | .group _ body => areBare body
  | .math _ body => areBare body
  | .environment _ _ body => areBare body
  | .command _ _ arguments => areBare arguments
  | _ => true

/-- Whether no comment stands in nodes. -/
def areBare : List Node → Bool
  | [] => true
  | node :: rest => isBare node && areBare rest

end

mutual

/-- Comments put in among nodes, and into them. -/
inductive Commented : List Node → List Node → Prop
  | nil : Commented [] []
  | put (source : List Char) {nodes commented : List Node} (h : Commented nodes commented) :
    Commented nodes (.comment source :: commented)
  | keep {n m : Node} {nodes commented : List Node} (hnode : Within n m)
    (h : Commented nodes commented) : Commented (n :: nodes) (m :: commented)

/-- Comments put into a node at any depth. Where none is put, it keeps its source. -/
inductive Within : Node → Node → Prop
  | same (n : Node) : Within n n
  | group (opener : Char) {body body' : List Node} (h : Commented body body') :
    Within (.group opener body) (.group opener body')
  | math {source source' : List Char} {body body' : List Node}
    (hsource : body' = body → source' = source) (h : Commented body body') :
    Within (.math source body) (.math source' body')
  | environment (name : String) {source source' : List Char} {body body' : List Node}
    (hsource : body' = body → source' = source) (h : Commented body body') :
    Within (.environment name source body) (.environment name source' body')
  | command (name : String) {source source' : List Char} {arguments arguments' : List Node}
    (hsource : arguments' = arguments → source' = source) (h : Each arguments arguments') :
    Within (.command name source arguments) (.command name source' arguments')

/-- Comments put into the arguments of a command. -/
inductive Each : List Node → List Node → Prop
  | nil : Each [] []
  | cons {n m : Node} {nodes commented : List Node} (hnode : Within n m)
    (h : Each nodes commented) : Each (n :: nodes) (m :: commented)

end

/-- The nodes behind the comments that some nodes begin with. -/
def behindComments (nodes : List Node) : List Node := nodes.dropWhile isComment

/-- Comments stand before characters that begin with a given one. -/
def Hides (c : Char) (nodes : List Node) : Prop :=
  ∃ source more text others, nodes = .comment source :: more ∧
    behindComments more = .chars (c :: text) :: others

/-- The arguments of a command, a number of them, out of those it was given and the nodes behind
it. -/
def operands (name : String) : Nat → List Node → List Node → List Node
  | 0, _, _ => []
  | count + 1, given, rest =>
    match operand name given rest with
    | .ok (node, left, after) => node :: operands name count left after
    | .error _ => []

/-- The arguments that a command is written with, other than the index of a root. -/
def taken (name : String) (arguments rest : List Node) : List Node :=
  let given := arguments.filter fun node => !node.isOptional
  match role name with
  | .root => operands name 1 given (rootIndex arguments rest).2
  | role => operands name role.operands given rest

/-- A command meets no comment where it looks for something: for an argument, in a text that it
quotes, for a full stop that stands for a delimiter, or for the index of a root. -/
structure Unheeding (name : String) (arguments rest : List Node) : Prop where
  argument : ∀ node ∈ taken name arguments rest, isComment node = false
  quoted : ∀ before behind, role name = .text before behind →
    ∀ node ∈ taken name arguments rest, isBare node = true
  stop : role name = .silent true → ¬ Hides '.' rest
  index : role name = .root → arguments.find? Node.isOptional = none → ¬ Hides '[' rest

/-- At the first of some nodes no comment is met where something is looked for; that is a group at
the start of an array, too. -/
def Clear : List Node → Prop
  | .command name _ arguments :: rest => Unheeding name arguments rest
  | .environment name _ (.comment _ :: body) :: _ =>
    name = "array" → ∀ opener inner more, behindComments body ≠ .group opener inner :: more
  | _ => True

section Commented

theorem commented_refl (nodes : List Node) : Commented nodes nodes := by
  induction nodes with
  | nil => exact .nil
  | cons n nodes ih => exact .keep (.same n) ih

theorem each_refl (nodes : List Node) : Each nodes nodes := by
  induction nodes with
  | nil => exact .nil
  | cons n nodes ih => exact .cons (.same n) ih

mutual

/-- Where no comment is, none has been put. -/
theorem Commented.eq_of_bare {nodes commented : List Node} :
    Commented nodes commented → areBare commented = true → commented = nodes
  | .nil, _ => rfl
  | .put _ _, hbare => by cases hbare
  | .keep hnode h, hbare => by
    obtain ⟨hm, hrest⟩ := Bool.and_eq_true_iff.mp hbare
    rw [hnode.eq_of_bare hm, h.eq_of_bare hrest]

theorem Within.eq_of_bare {n m : Node} : Within n m → isBare m = true → m = n
  | .same _, _ => rfl
  | .group opener h, hbare => congrArg (Node.group opener) (h.eq_of_bare hbare)
  | .math hsource h, hbare => by
    have heq := h.eq_of_bare hbare
    rw [hsource heq, heq]
  | .environment _ hsource h, hbare => by
    have heq := h.eq_of_bare hbare
    rw [hsource heq, heq]
  | .command _ hsource h, hbare => by
    have heq := h.eq_of_bare hbare
    rw [hsource heq, heq]

theorem Each.eq_of_bare {nodes commented : List Node} :
    Each nodes commented → areBare commented = true → commented = nodes
  | .nil, _ => rfl
  | .cons hnode h, hbare => by
    obtain ⟨hm, hrest⟩ := Bool.and_eq_true_iff.mp hbare
    rw [hnode.eq_of_bare hm, h.eq_of_bare hrest]

end

theorem Within.chars_left (h : Within (.chars text) m) : m = .chars text := by
  cases h
  rfl

theorem Within.chars_right (h : Within n (.chars text)) : n = .chars text := by
  cases h
  rfl

theorem Within.chars? (h : Within n m) : m.chars? = n.chars? := by
  cases h <;> rfl

theorem Within.isOptional (h : Within n m) : m.isOptional = n.isOptional := by
  cases h <;> rfl

theorem Within.inside (h : Within n m) : Commented (inside n) (inside m) := by
  cases h with
  | same n => exact commented_refl _
  | group opener h => exact h
  | math hsource h => exact .keep (.math hsource h) .nil
  | environment name hsource h => exact .keep (.environment name hsource h) .nil
  | command name hsource h => exact .keep (.command name hsource h) .nil

theorem Each.filter (h : Each arguments arguments') :
    Each (arguments.filter fun n => !n.isOptional) (arguments'.filter fun n => !n.isOptional) := by
  induction arguments' generalizing arguments with
  | nil =>
    cases h
    exact .nil
  | cons m arguments' ih =>
    cases h with
    | cons hnode h =>
      rw [List.filter_cons, List.filter_cons, hnode.isOptional]
      split
      · exact .cons hnode (ih h)
      · exact ih h

theorem Each.forall₂ (h : Each arguments arguments') :
    List.Forall₂ Within arguments arguments' := by
  induction arguments' generalizing arguments with
  | nil =>
    cases h
    exact .nil
  | cons m arguments' ih =>
    cases h with
    | cons hnode h => exact .cons hnode (ih h)

theorem Each.find (h : Each arguments arguments') :
    arguments.find? Node.isOptional = none ∧ arguments'.find? Node.isOptional = none ∨
      ∃ n m, arguments.find? Node.isOptional = some n ∧
        arguments'.find? Node.isOptional = some m ∧ Within n m := by
  induction arguments' generalizing arguments with
  | nil =>
    cases h
    exact .inl ⟨rfl, rfl⟩
  | cons m arguments' ih =>
    cases h with
    | @cons n _ _ _ hnode h =>
      rw [List.find?_cons, List.find?_cons, hnode.isOptional]
      cases n.isOptional with
      | true => exact .inr ⟨n, m, rfl, rfl, hnode⟩
      | false => exact ih h

end Commented

section Taken

/-- What is looked for among nodes with comments is found unless a comment is found first. -/
theorem Commented.nextOperand (h : Commented rest rest')
    (hnext : nextOperand? rest = some (node, after)) :
    ∃ node' after', nextOperand? rest' = some (node', after') ∧
      (isComment node' = false → Within node node' ∧ Commented after after') := by
  induction rest' generalizing rest with
  | nil =>
    cases h
    cases hnext
  | cons m rest' ih =>
    cases h with
    | put source h =>
      refine ⟨.comment source, rest', rfl, ?_⟩
      rintro ⟨⟩
    | @keep n _ nodes _ hnode h =>
      rw [nextOperand?] at hnext ⊢
      rw [hnode.chars?]
      cases hchars : n.chars? with
      | none =>
        rw [hchars] at hnext
        cases hnext
        exact ⟨m, rest', rfl, fun _ => ⟨hnode, h⟩⟩
      | some text =>
        rw [hchars] at hnext
        dsimp only at hnext ⊢
        rcases hdrop : text.dropWhile Text.isBlank with _ | ⟨c, _ | ⟨d, more⟩⟩
        · rw [hdrop] at hnext
          exact ih h hnext
        · rw [hdrop] at hnext
          cases hnext
          exact ⟨_, _, rfl, fun _ => ⟨.same _, h⟩⟩
        · rw [hdrop] at hnext
          cases hnext
          exact ⟨_, _, rfl, fun _ => ⟨.same _, .keep (.same _) h⟩⟩

theorem Commented.operand {given given' left : List Node} (h : Commented rest rest')
    (hgiven : Each given given') (hoperand : operand name given rest = .ok (node, left, after)) :
    ∃ node' left' after', operand name given' rest' = .ok (node', left', after') ∧
      (isComment node' = false → Within node node' ∧ Each left left' ∧ Commented after after') := by
  cases hgiven with
  | nil =>
    rw [Math.operand] at hoperand ⊢
    cases hnext : nextOperand? rest with
    | none =>
      rw [hnext] at hoperand
      cases hoperand
    | some found =>
      rw [hnext] at hoperand
      cases hoperand
      obtain ⟨node', after', hnext', hwithin⟩ := h.nextOperand hnext
      rw [hnext']
      refine ⟨node', [], after', rfl, fun hbare => ?_⟩
      exact ⟨(hwithin hbare).1, .nil, (hwithin hbare).2⟩
  | cons hnode hgiven =>
    cases hoperand
    exact ⟨_, _, _, rfl, fun _ => ⟨hnode, hgiven, h⟩⟩

theorem Commented.behindComments_chars (h : Commented (.chars text :: rest) rest') :
    ∃ others, behindComments rest' = .chars text :: others := by
  induction rest' with
  | nil => cases h
  | cons m rest' ih =>
    cases h with
    | put source h => exact ih h
    | keep hnode h =>
      rw [hnode.chars_left]
      exact ⟨rest', rfl⟩

theorem Commented.head_left (h : Commented (.chars (c :: text) :: rest) rest')
    (hclear : ¬ Hides c rest') :
    ∃ more, rest' = .chars (c :: text) :: more ∧ Commented rest more := by
  cases h with
  | put source h =>
    obtain ⟨others, hbehind⟩ := h.behindComments_chars
    exact absurd ⟨source, _, text, others, rfl, hbehind⟩ hclear
  | keep hnode h => exact ⟨_, by rw [hnode.chars_left], h⟩

theorem Commented.head_right (h : Commented rest (.chars text :: rest')) :
    ∃ more, rest = .chars text :: more ∧ Commented more rest' := by
  cases h with
  | keep hnode h => exact ⟨_, by rw [hnode.chars_right], h⟩

theorem dropStop_eq (h : ∀ text more, rest ≠ .chars ('.' :: text) :: more) :
    dropStop rest = rest := by
  unfold dropStop
  split
  · exact absurd rfl (h _ _)
  · exact absurd rfl (h _ _)
  · rfl

theorem Commented.dropStop (h : Commented rest rest') (hclear : ¬ Hides '.' rest') :
    Commented (dropStop rest) (dropStop rest') := by
  by_cases hstop : ∃ text more, rest = .chars ('.' :: text) :: more
  · obtain ⟨text, more, rfl⟩ := hstop
    obtain ⟨more', rfl, hmore⟩ := h.head_left hclear
    cases text with
    | nil => exact hmore
    | cons c text => exact .keep (.same _) hmore
  · have hnot : ∀ text more, rest ≠ .chars ('.' :: text) :: more :=
      fun text more heq => hstop ⟨text, more, heq⟩
    have hnot' : ∀ text more, rest' ≠ .chars ('.' :: text) :: more := by
      rintro text more rfl
      obtain ⟨others, rfl, -⟩ := h.head_right
      exact hnot text others rfl
    rwa [dropStop_eq hnot, dropStop_eq hnot']

theorem nextBracket?_eq_none (h : ∀ text more, rest ≠ .chars ('[' :: text) :: more) :
    nextBracket? rest = none := by
  unfold nextBracket?
  split
  · exact absurd rfl (h _ _)
  · rfl

theorem nextBracket?_cons (text : List Char) (more : List Node) :
    nextBracket? (.chars ('[' :: text) :: more) =
      match text.drop (text.takeWhile (· != ']')).length with
      | [] => none
      | [_] => some (.chars (text.takeWhile (· != ']')), more)
      | _ :: tail => some (.chars (text.takeWhile (· != ']')), .chars tail :: more) := rfl

theorem Commented.nextBracket (h : Commented rest rest') (hclear : ¬ Hides '[' rest') :
    nextBracket? rest = none ∧ nextBracket? rest' = none ∨
      ∃ node after after', nextBracket? rest = some (node, after) ∧
        nextBracket? rest' = some (node, after') ∧ Commented after after' := by
  by_cases hbracket : ∃ text more, rest = .chars ('[' :: text) :: more
  · obtain ⟨text, more, rfl⟩ := hbracket
    obtain ⟨more', rfl, hmore⟩ := h.head_left hclear
    rw [nextBracket?_cons, nextBracket?_cons]
    rcases text.drop (text.takeWhile (· != ']')).length with _ | ⟨d, _ | ⟨e, tail⟩⟩
    · exact .inl ⟨rfl, rfl⟩
    · exact .inr ⟨_, _, _, rfl, rfl, hmore⟩
    · exact .inr ⟨_, _, _, rfl, rfl, .keep (.same _) hmore⟩
  · have hnot : ∀ text more, rest ≠ .chars ('[' :: text) :: more :=
      fun text more heq => hbracket ⟨text, more, heq⟩
    have hnot' : ∀ text more, rest' ≠ .chars ('[' :: text) :: more := by
      rintro text more rfl
      obtain ⟨others, rfl, -⟩ := h.head_right
      exact hnot text others rfl
    exact .inl ⟨nextBracket?_eq_none hnot, nextBracket?_eq_none hnot'⟩

/-- The index of a root is found with comments as without. -/
theorem Commented.rootIndex (h : Commented rest rest') (harguments : Each arguments arguments')
    (hclear : arguments'.find? Node.isOptional = none → ¬ Hides '[' rest') :
    Commented (rootIndex arguments rest).2 (rootIndex arguments' rest').2 ∧
      ((rootIndex arguments rest).1 = none ∧ (rootIndex arguments' rest').1 = none ∨
        ∃ n m, (rootIndex arguments rest).1 = some n ∧ (rootIndex arguments' rest').1 = some m ∧
          Within n m) := by
  unfold Math.rootIndex
  rcases harguments.find with ⟨hnone, hnone'⟩ | ⟨n, m, hsome, hsome', hwithin⟩
  · rw [hnone, hnone']
    rcases h.nextBracket (hclear hnone') with ⟨hbracket, hbracket'⟩ |
      ⟨node, after, after', hbracket, hbracket', hafter⟩
    · rw [hbracket, hbracket']
      exact ⟨h, .inl ⟨rfl, rfl⟩⟩
    · rw [hbracket, hbracket']
      exact ⟨hafter, .inr ⟨node, node, rfl, rfl, .same node⟩⟩
  · rw [hsome, hsome']
    exact ⟨h, .inr ⟨n, m, rfl, rfl, hwithin⟩⟩

/-- A command comes to the same with comments as without, but for those that are still to be
written in its arguments. -/
inductive Alike : Form → Form → Prop
  | ready (text : List Char) : Alike (.ready text) (.ready text)
  | application {f f' : Form} {function : String} {nodes commented : List Node}
    (hf : f.application? = some (function, nodes))
    (hf' : f'.application? = some (function, commented)) (h : Each nodes commented) : Alike f f'

theorem taken_eq (hrole : role name ≠ .root) (arguments rest : List Node) :
    taken name arguments rest =
      operands name (role name).operands (arguments.filter fun n => !n.isOptional) rest := by
  unfold taken
  dsimp only
  split
  · exact absurd ‹_› hrole
  · rfl

theorem taken_root (hrole : role name = .root) (arguments rest : List Node) :
    taken name arguments rest = operands name 1 (arguments.filter fun n => !n.isOptional)
      (rootIndex arguments rest).2 := by
  unfold taken
  rw [hrole]

/-- An argument that is no comment is found with comments as without, and the others are looked for
behind it. -/
theorem Commented.argument {count : Nat} {given given' left : List Node} (h : Commented rest rest')
    (hgiven : Each given given')
    (hoperand : Math.operand name given rest = .ok (node, left, after))
    (hclear : ∀ m ∈ operands name (count + 1) given' rest', isComment m = false) :
    ∃ node' left' after', Math.operand name given' rest' = .ok (node', left', after') ∧
      Within node node' ∧ Each left left' ∧ Commented after after' ∧
      operands name (count + 1) given' rest' = node' :: operands name count left' after' := by
  obtain ⟨node', left', after', hoperand', hwithin⟩ := h.operand hgiven hoperand
  have htaken : operands name (count + 1) given' rest' =
      node' :: operands name count left' after' := by
    rw [operands, hoperand']
  obtain ⟨hnode, hleft, hafter⟩ := hwithin (hclear node' (htaken ▸ List.mem_cons_self))
  exact ⟨node', left', after', hoperand', hnode, hleft, hafter, htaken⟩

theorem Commented.form {f : Form} (h : Commented rest rest')
    (harguments : Each arguments arguments') (hclear : Unheeding name arguments' rest')
    (hform : form name arguments rest = .ok (f, after)) :
    ∃ f' after', form name arguments' rest' = .ok (f', after') ∧ Alike f f' ∧
      Commented after after' := by
  have hgiven := harguments.filter
  unfold Math.form at hform ⊢
  dsimp only at hform ⊢
  cases hrole : role name with
  | silent places =>
    rw [hrole] at hform
    cases hform
    refine ⟨_, _, rfl, .ready [], ?_⟩
    cases places with
    | false => exact h
    | true => exact h.dropStop (hclear.stop hrole)
  | name symbol =>
    rw [hrole] at hform
    cases hform
    exact ⟨_, _, rfl, .ready _, h⟩
  | text before behind =>
    have htaken := taken_eq (by rw [hrole]; rintro ⟨⟩) arguments' rest'
    have hargument := hclear.argument
    have hquoted := hclear.quoted before behind hrole
    rw [htaken, hrole] at hargument hquoted
    rw [hrole] at hform
    dsimp only at hform ⊢
    split at hform
    · cases hform
    next node left after hoperand =>
      cases hform
      obtain ⟨node', left', after', hoperand', hnode, -, hafter, hmem⟩ :=
        h.argument hgiven hoperand hargument
      have hbare : isBare node' = true := hquoted node' (hmem ▸ List.mem_cons_self)
      rw [hoperand', hnode.eq_of_bare hbare]
      exact ⟨_, _, rfl, .ready _, hafter⟩
  | function function =>
    have hargument := hclear.argument
    rw [taken_eq (by rw [hrole]; rintro ⟨⟩), hrole] at hargument
    rw [hrole] at hform
    dsimp only at hform ⊢
    split at hform
    · cases hform
    next node left after hoperand =>
      cases hform
      obtain ⟨node', left', after', hoperand', hnode, -, hafter, -⟩ :=
        h.argument hgiven hoperand hargument
      rw [hoperand']
      exact ⟨_, _, rfl, .application rfl rfl (.cons hnode .nil), hafter⟩
  | fraction function =>
    have hargument := hclear.argument
    rw [taken_eq (by rw [hrole]; rintro ⟨⟩), hrole] at hargument
    rw [hrole] at hform
    dsimp only at hform ⊢
    split at hform
    · cases hform
    next first left between hfirst =>
      split at hform
      · cases hform
      next second _ after hsecond =>
        cases hform
        obtain ⟨first', left', between', hfirst', hone, hleft, hbetween, hmem⟩ :=
          h.argument hgiven hfirst hargument
        rw [Role.operands, hmem] at hargument
        obtain ⟨second', _, after', hsecond', htwo, -, hafter, -⟩ :=
          hbetween.argument hleft hsecond fun m hm => hargument m (List.mem_cons_of_mem _ hm)
        rw [hfirst']
        dsimp only
        rw [hsecond']
        exact ⟨_, _, rfl, .application rfl rfl (.cons hone (.cons htwo .nil)), hafter⟩
  | root =>
    have hargument := hclear.argument
    rw [taken_root hrole] at hargument
    rw [hrole] at hform
    dsimp only at hform ⊢
    obtain ⟨hbehind, hindex⟩ := h.rootIndex harguments (hclear.index hrole)
    split at hform
    · cases hform
    next node left after hoperand =>
      obtain ⟨node', left', after', hoperand', hnode, -, hafter, -⟩ :=
        hbehind.argument hgiven hoperand hargument
      rw [hoperand']
      dsimp only
      rcases hindex with ⟨hnone, hnone'⟩ | ⟨n, m, hsome, hsome', hnm⟩
      · rw [hnone] at hform
        rw [hnone']
        cases hform
        exact ⟨_, _, rfl, .application rfl rfl (.cons hnode .nil), hafter⟩
      · rw [hsome] at hform
        rw [hsome']
        cases hform
        exact ⟨_, _, rfl, .application rfl rfl (.cons hnm (.cons hnode .nil)), hafter⟩

end Taken

end Typeset.Math
