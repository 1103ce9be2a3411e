import Typeset.Proofs.Math.Call

/-! Arguments without braces. A command that was given none takes characters of the run behind it,
and goes on as if each of them stood in braces. -/

namespace Typeset.Math

open Latex (Node charsNode)
open Text (isBlank)

variable {name : String} {text more : List Char} {c : Char} {node : Node}
  {rest left after : List Node} {source written : List Char}

/-- How many arguments a command takes of those behind it, other than a root, which looks for an
index as well. -/
def Role.operands : Role → Nat
  | .fraction _ => 2
  | .function _ => 1
  | .text _ _ => 1
  | _ => 0

/-- What a command of a role comes to when its arguments are single characters. -/
def Role.called : Role → List Char → List Char
  | .fraction f, cs => applied f (cs.map fun c => charsText [c])
  | .function f, cs => applied f (cs.map fun c => charsText [c])
  | .text before behind, cs => before.toList ++ literalText cs ++ behind.toList
  | _, _ => []

/-- What follows in a text behind its first characters that are not white space, a number of
them. -/
def behindSolid : Nat → List Char → List Char
  | 0, text => text
  | count + 1, text => behindSolid count (text.dropWhile isBlank).tail

/-- A character in braces. -/
def braced (c : Char) : Node := .group '\x7b' [.chars [c]]

section Run

/-- The first character that is not white space, with the white space before it and what is
behind. -/
theorem exists_solid {count : Nat} (h : count + 1 ≤ (solid text).length) :
    ∃ lead c more, text = lead ++ c :: more ∧ text.dropWhile isBlank = c :: more ∧
      solid (lead ++ [c]) = [c] ∧ count ≤ (solid more).length := by
  obtain ⟨lead, htext, hlead⟩ := Text.exists_dropWhile text
  have hnone : solid lead = [] := by simpa [solid] using hlead
  cases hdrop : text.dropWhile isBlank with
  | nil =>
    rw [htext, hdrop, List.append_nil, hnone] at h
    cases h
  | cons c more =>
    have hc : isBlank c = false := by
      have hhead := List.head_dropWhile_not (p := isBlank) (l := text) (by simp [hdrop])
      simpa [hdrop] using hhead
    have hone : solid (lead ++ [c]) = [c] := by
      rw [solid_append, hnone, solid_cons_of_solid hc]
      rfl
    rw [hdrop] at htext
    refine ⟨lead, c, more, htext, rfl, hone, ?_⟩
    rw [htext, List.append_cons, solid_append, hone] at h
    simpa using h

theorem solid_of_lead {lead : List Char} (h : text = lead ++ c :: more)
    (hone : solid (lead ++ [c]) = [c]) : solid text = c :: solid more := by
  rw [h, List.append_cons, solid_append, hone]
  rfl

/-- The text behind some characters is an end of the text, and what stands before it has those
characters and no others that are not white space. -/
theorem exists_behindSolid {count : Nat} (h : count ≤ (solid text).length) :
    ∃ before, text = before ++ behindSolid count text ∧ solid before = (solid text).take count := by
  induction count generalizing text with
  | zero => exact ⟨[], rfl, rfl⟩
  | succ count ih =>
    obtain ⟨lead, c, more, htext, hdrop, hone, hcount⟩ := exists_solid h
    obtain ⟨before, hmore, hbefore⟩ := ih hcount
    refine ⟨lead ++ c :: before, ?_, ?_⟩
    · rw [behindSolid, hdrop, List.tail_cons, List.append_assoc, List.cons_append, ← hmore]
      exact htext
    · rw [List.append_cons, solid_append, hone, hbefore, solid_of_lead htext hone]
      rfl

/-- A run of characters gives its first one that is not white space, and what is left of it stays
in its place. -/
theorem operand_run (h : text.dropWhile isBlank = c :: more) (rest : List Node) :
    operand name [] (.chars text :: rest) = .ok (.chars [c], [], charsNode more ++ rest) := by
  have hnext : nextOperand? (.chars text :: rest) = some (.chars [c], charsNode more ++ rest) := by
    rw [nextOperand?, Node.chars?]
    dsimp only
    rw [h]
    cases more with
    | nil => rfl
    | cons d more => rfl
  rw [operand, hnext]

theorem operand_braced (c : Char) (rest : List Node) :
    operand name [] (braced c :: rest) = .ok (braced c, [], rest) := rfl

/-- It makes no difference whether nothing is left of a run or an empty one. -/
theorem writeAfter_charsNode (text : List Char) (rest : List Node) (out : Pieces) :
    writeAfter (charsNode text ++ rest) out = writeAfter (.chars text :: rest) out := by
  cases text with
  | nil =>
    rw [writeAfter]
    rfl
  | cons c text => rfl

end Run

section Turn

theorem turn_function {function : String} (hrole : role name = .function function)
    (h : operand name [] rest = .ok (node, left, after))
    (hnode : write (inside node) = .ok written) :
    Turn (.command name source [] :: rest) (.attach (applied function [written])) after := by
  have hform : form name [] rest = .ok (.unary function node, after) := by
    rw [form, hrole]
    dsimp only
    rw [List.filter_nil, h]
  exact .application source hform rfl (mapM_of_forall₂ (.cons hnode .nil))

theorem turn_fraction {function : String} {first second : Node} {left' between : List Node}
    {one two : List Char} (hrole : role name = .fraction function)
    (hone : operand name [] rest = .ok (first, left, between))
    (htwo : operand name left between = .ok (second, left', after))
    (hfirst : write (inside first) = .ok one) (hsecond : write (inside second) = .ok two) :
    Turn (.command name source [] :: rest) (.attach (applied function [one, two])) after := by
  have hform : form name [] rest = .ok (.binary function first second, after) := by
    rw [form, hrole]
    dsimp only
    rw [List.filter_nil, hone]
    dsimp only
    rw [htwo]
  exact .application source hform rfl (mapM_of_forall₂ (.cons hfirst (.cons hsecond .nil)))

theorem turn_text {before behind : String} (hrole : role name = .text before behind)
    (h : operand name [] rest = .ok (node, left, after)) :
    Turn (.command name source [] :: rest)
      (.attach (before.toList ++ literalText node.verbatim ++ behind.toList)) after := by
  have hform : form name [] rest =
      .ok (.ready (before.toList ++ literalText node.verbatim ++ behind.toList), after) := by
    rw [form, hrole]
    dsimp only
    rw [List.filter_nil, h]
  exact .ready source hform

/-- What a command without arguments takes from a run of characters, and what it takes from
characters in braces, is written alike. -/
theorem exists_turn_run (hsome : 0 < (role name).operands)
    (henough : (role name).operands ≤ (solid text).length) (source : List Char)
    (rest : List Node) :
    Turn (.command name source [] :: .chars text :: rest)
        (.attach ((role name).called ((solid text).take (role name).operands)))
        (charsNode (behindSolid (role name).operands text) ++ rest) ∧
      Turn (.command name source [] ::
          (((solid text).take (role name).operands).map braced ++
            .chars (behindSolid (role name).operands text) :: rest))
        (.attach ((role name).called ((solid text).take (role name).operands)))
        (.chars (behindSolid (role name).operands text) :: rest) := by
  cases hrole : role name with
  | silent places =>
    rw [hrole] at hsome
    cases hsome
  | name symbol =>
    rw [hrole] at hsome
    cases hsome
  | root =>
    rw [hrole] at hsome
    cases hsome
  | function function =>
    rw [hrole] at henough
    obtain ⟨lead, c, more, htext, hdrop, hone, -⟩ := exists_solid henough
    have hsolid := solid_of_lead htext hone
    simp only [Role.operands, Role.called, behindSolid, hdrop, hsolid, List.tail_cons,
      List.take_succ_cons, List.take_zero, List.map_cons, List.map_nil]
    exact ⟨turn_function hrole (operand_run hdrop rest) (write_chars [c]),
      turn_function hrole (operand_braced c _) (write_chars [c])⟩
  | text before behind =>
    rw [hrole] at henough
    obtain ⟨lead, c, more, htext, hdrop, hone, -⟩ := exists_solid henough
    have hsolid := solid_of_lead htext hone
    simp only [Role.operands, Role.called, behindSolid, hdrop, hsolid, List.tail_cons,
      List.take_succ_cons, List.take_zero, List.map_cons, List.map_nil]
    exact ⟨turn_text hrole (operand_run hdrop rest), turn_text hrole (operand_braced c _)⟩
  | fraction function =>
    rw [hrole] at henough
    obtain ⟨lead, c, more, htext, hdrop, hone, hmore⟩ := exists_solid henough
    obtain ⟨lead', d, last, htext', hdrop', hone', -⟩ := exists_solid hmore
    have hsolid := solid_of_lead htext hone
    have hsolid' := solid_of_lead htext' hone'
    simp only [Role.operands, Role.called, behindSolid, hdrop, hsolid, hdrop', hsolid',
      List.tail_cons, List.take_succ_cons, List.take_zero, List.map_cons, List.map_nil]
    have hleft : charsNode more ++ rest = .chars more :: rest := by
      cases more with
      | nil => cases hdrop'
      | cons e more => rfl
    have hsecond : operand name [] (charsNode more ++ rest) =
        .ok (.chars [d], [], charsNode last ++ rest) := by
      rw [hleft]
      exact operand_run hdrop' rest
    exact ⟨turn_fraction hrole (operand_run hdrop rest) hsecond (write_chars [c]) (write_chars [d]),
      turn_fraction hrole (operand_braced c _) (operand_braced d _) (write_chars [c])
        (write_chars [d])⟩

end Turn

/-- A command that was given no arguments takes them from a run of characters behind it as it takes
them in braces, and what is left of the run is written next, once. -/
theorem run_braced (hsome : 0 < (role name).operands)
    (henough : (role name).operands ≤ (solid text).length) (source : List Char)
    (rest : List Node) (out : Pieces) :
    writeAfter (.command name source [] :: .chars text :: rest) out =
        writeAfter (.command name source [] ::
          (((solid text).take (role name).operands).map braced ++
            .chars (behindSolid (role name).operands text) :: rest)) out ∧
      writeAfter (.command name source [] :: .chars text :: rest) out =
        writeAfter (.chars (behindSolid (role name).operands text) :: rest)
          (out.attach ((role name).called ((solid text).take (role name).operands))) ∧
      ∃ before, text = before ++ behindSolid (role name).operands text ∧
        solid before = (solid text).take (role name).operands := by
  obtain ⟨hrun, hbraced⟩ := exists_turn_run hsome henough source rest
  have hwritten := writeAfter_of_turn hrun out
  rw [writeAfter_charsNode] at hwritten
  refine ⟨?_, hwritten, exists_behindSolid henough⟩
  rw [hwritten, writeAfter_of_turn hbraced]

/-- Two characters of a run are the parts of a binomial, and the third is left. -/
theorem run_braced_binomial :
    0 < (role "binom").operands ∧ (role "binom").operands ≤ (solid " 1 2/".toList).length ∧
      writeAfter [.command "binom" "\\binom".toList [], .chars " 1 2/".toList] {} =
        writeAfter [.command "binom" "\\binom".toList [], braced '1', braced '2', .chars ['/']]
          {} :=
  ⟨by decide, by decide, (run_braced (by decide) (by decide) "\\binom".toList [] {}).1⟩

end Typeset.Math
