import Typeset.Proofs.Latex.Legible
import Typeset.Proofs.Math.Turn

/-! In legible nodes the writer comes to legible nodes only: those that a turn leaves, and those
that are written by themselves for it. -/

namespace Typeset.Math

open Latex (Node Legible)

variable {name : String} {nodes after body given arguments rest : List Node} {node : Node}
  {move : Move} {f : Form} {text : List Char}

section Operand

theorem legible_sublist {part : List Char} (hpart : part ⊆ text) (h : Legible (.chars text)) :
    Legible (.chars part) := by
  cases h with
  | chars hslash => exact .chars fun hmem => hslash (hpart hmem)

theorem eq_chars_of_chars? (h : node.chars? = some text) : node = .chars text := by
  cases node with
  | chars other =>
    cases h
    rfl
  | _ => cases h

theorem legible_nextOperand (h : nextOperand? nodes = some (node, rest))
    (hnodes : ∀ n ∈ nodes, Legible n) : Legible node ∧ ∀ n ∈ rest, Legible n := by
  fun_induction nextOperand? nodes with
  | case1 => cases h
  | case2 first more _ =>
    cases h
    exact List.forall_mem_cons.mp hnodes
  | case3 first more text _ _ ih => exact ih h (List.forall_mem_cons.mp hnodes).2
  | case4 first more text hchars c hdrop =>
    cases h
    obtain ⟨hfirst, hmore⟩ := List.forall_mem_cons.mp hnodes
    rw [eq_chars_of_chars? hchars] at hfirst
    refine ⟨legible_sublist ?_ hfirst, hmore⟩
    rw [← hdrop]
    exact List.dropWhile_subset _
  | case5 first more text hchars c left hne hdrop =>
    cases h
    obtain ⟨hfirst, hmore⟩ := List.forall_mem_cons.mp hnodes
    rw [eq_chars_of_chars? hchars] at hfirst
    have hsub : c :: left ⊆ text := by
      rw [← hdrop]
      exact List.dropWhile_subset _
    obtain ⟨hc, hleft⟩ := List.cons_subset.mp hsub
    have hone : [c] ⊆ text := List.cons_subset.mpr ⟨hc, List.nil_subset text⟩
    exact ⟨legible_sublist hone hfirst,
      List.forall_mem_cons.mpr ⟨legible_sublist hleft hfirst, hmore⟩⟩

theorem legible_operand {left : List Node} (h : operand name given rest = .ok (node, left, after))
    (hgiven : ∀ n ∈ given, Legible n) (hrest : ∀ n ∈ rest, Legible n) :
    Legible node ∧ (∀ n ∈ left, Legible n) ∧ ∀ n ∈ after, Legible n := by
  unfold operand at h
  split at h
  · cases h
    obtain ⟨hnode, hleft⟩ := List.forall_mem_cons.mp hgiven
    exact ⟨hnode, hleft, hrest⟩
  · split at h
    next hnext =>
      cases h
      obtain ⟨hnode, hafter⟩ := legible_nextOperand hnext hrest
      exact ⟨hnode, by simp, hafter⟩
    next => cases h

theorem legible_nextBracket (h : nextBracket? nodes = some (node, rest))
    (hnodes : ∀ n ∈ nodes, Legible n) : Legible node ∧ ∀ n ∈ rest, Legible n := by
  unfold nextBracket? at h
  split at h
  next text others =>
    obtain ⟨htext, hothers⟩ := List.forall_mem_cons.mp hnodes
    have hinner : Legible (.chars (text.takeWhile (· != ']'))) :=
      legible_sublist (fun c hc => List.mem_cons_of_mem _ (List.takeWhile_subset _ hc)) htext
    dsimp only at h
    split at h
    · cases h
    · cases h
      exact ⟨hinner, hothers⟩
    next d more _ hdrop =>
      cases h
      refine ⟨hinner, List.forall_mem_cons.mpr ⟨legible_sublist (fun c hc => ?_) htext, hothers⟩⟩
      have hmem : c ∈ d :: more := List.mem_cons_of_mem _ hc
      rw [← hdrop] at hmem
      exact List.mem_cons_of_mem _ (List.mem_of_mem_drop hmem)
  next => cases h

theorem legible_dropStop (h : ∀ n ∈ rest, Legible n) : ∀ n ∈ dropStop rest, Legible n := by
  unfold dropStop
  split
  · exact (List.forall_mem_cons.mp h).2
  next more others _ =>
    obtain ⟨htext, hothers⟩ := List.forall_mem_cons.mp h
    exact List.forall_mem_cons.mpr
      ⟨legible_sublist (fun c hc => List.mem_cons_of_mem _ hc) htext, hothers⟩
  · exact h

theorem legible_rootIndex (harguments : ∀ n ∈ arguments, Legible n)
    (hrest : ∀ n ∈ rest, Legible n) :
    (∀ n, (rootIndex arguments rest).1 = some n → Legible n) ∧
      ∀ n ∈ (rootIndex arguments rest).2, Legible n := by
  unfold rootIndex
  split
  next node hfind =>
    refine ⟨?_, hrest⟩
    rintro _ ⟨⟩
    exact harguments node (List.mem_of_find?_eq_some hfind)
  next =>
    split
    next hbracket =>
      obtain ⟨hnode, hafter⟩ := legible_nextBracket hbracket hrest
      refine ⟨?_, hafter⟩
      rintro _ ⟨⟩
      exact hnode
    next =>
      refine ⟨?_, hrest⟩
      rintro _ ⟨⟩

/-- What a command takes is legible, and so is what it leaves. -/
theorem legible_form (h : form name arguments rest = .ok (f, after))
    (harguments : name ≠ "verb" → ∀ n ∈ arguments, Legible n) (hrest : ∀ n ∈ rest, Legible n) :
    (∀ function operands, f.application? = some (function, operands) →
      ∀ n ∈ operands, Legible n) ∧ ∀ n ∈ after, Legible n := by
  have hready (text : List Char) : ∀ function operands,
      (Form.ready text).application? = some (function, operands) → ∀ n ∈ operands, Legible n := by
    rintro _ _ ⟨⟩
  by_cases hverb : name = "verb"
  · subst hverb
    have hrole : role "verb" = .name "verb" := by rfl
    unfold form at h
    rw [hrole] at h
    cases h
    exact ⟨hready _, hrest⟩
  have harguments := harguments hverb
  have hgiven : ∀ n ∈ arguments.filter fun n => !n.isOptional, Legible n :=
    fun n hn => harguments n (List.mem_filter.mp hn).1
  obtain ⟨hindex, hafter⟩ := legible_rootIndex harguments hrest
  cases takes_of_form h with
  | silent hrole =>
    refine ⟨hready _, ?_⟩
    split
    · exact legible_dropStop hrest
    · exact hrest
  | name hrole => exact ⟨hready _, hrest⟩
  | text hrole h => exact ⟨hready _, (legible_operand h hgiven hrest).2.2⟩
  | function hrole h =>
    obtain ⟨hnode, -, hafter⟩ := legible_operand h hgiven hrest
    refine ⟨?_, hafter⟩
    rintro _ _ ⟨⟩
    exact List.forall_mem_singleton.mpr hnode
  | fraction hrole hone htwo =>
    obtain ⟨hfirst, hleft, hbetween⟩ := legible_operand hone hgiven hrest
    obtain ⟨hsecond, -, hafter⟩ := legible_operand htwo hleft hbetween
    refine ⟨?_, hafter⟩
    rintro _ _ ⟨⟩
    exact List.forall_mem_cons.mpr ⟨hfirst, List.forall_mem_singleton.mpr hsecond⟩
  | sqrt hrole h =>
    obtain ⟨hnode, -, hafter⟩ := legible_operand h hgiven hafter
    refine ⟨?_, hafter⟩
    rintro _ _ ⟨⟩
    exact List.forall_mem_singleton.mpr hnode
  | root hrole h hsome =>
    obtain ⟨hnode, -, hafter⟩ := legible_operand h hgiven hafter
    refine ⟨?_, hafter⟩
    rintro _ _ ⟨⟩
    exact List.forall_mem_cons.mpr ⟨hindex _ hsome, List.forall_mem_singleton.mpr hnode⟩

end Operand

section Turn

/-- The cells of legible nodes are legible, pieces of plain characters among them. -/
theorem legible_cell {row : List (List Node)} {cell : List Node} (hrow : row ∈ rows nodes)
    (hcell : cell ∈ row) (hnodes : ∀ n ∈ nodes, Legible n) : ∀ n ∈ cell, Legible n := by
  fun_induction rows nodes generalizing row cell with
  | case1 =>
    rw [List.mem_singleton.mp hrow, List.mem_singleton] at hcell
    rw [hcell]
    exact List.forall_mem_nil _
  | case2 rest first cells others heq source arguments ih =>
    rw [heq] at ih
    rcases List.mem_cons.mp hrow with rfl | hrow
    · rw [List.mem_singleton.mp hcell]
      exact List.forall_mem_nil _
    · exact ih hrow hcell (List.forall_mem_cons.mp hnodes).2
  | case3 rest first cells others heq ih =>
    rw [heq] at ih
    obtain ⟨-, hrest⟩ := List.forall_mem_cons.mp hnodes
    rcases List.mem_cons.mp hrow with rfl | hrow
    · rcases List.mem_cons.mp hcell with rfl | hcell
      · exact List.forall_mem_nil _
      · exact ih List.mem_cons_self hcell hrest
    · exact ih (List.mem_cons_of_mem _ hrow) hcell hrest
  | case4 rest first cells others heq text ih =>
    rw [heq] at ih
    obtain ⟨htext, hrest⟩ := List.forall_mem_cons.mp hnodes
    rcases List.mem_cons.mp hrow with rfl | hrow
    · rcases mem_piecesBefore hcell with hcell | ⟨piece, hpiece, hcell⟩
      · exact ih List.mem_cons_self hcell hrest
      · have hlegible := legible_sublist (sublist_of_mem_splitOn hpiece).subset htext
        rcases hcell with rfl | rfl
        · exact List.forall_mem_singleton.mpr hlegible
        · exact List.forall_mem_cons.mpr ⟨hlegible, ih List.mem_cons_self List.mem_cons_self hrest⟩
    · exact ih (List.mem_cons_of_mem _ hrow) hcell hrest
  | case5 node rest first cells others heq _ _ _ ih =>
    rw [heq] at ih
    obtain ⟨hnode, hrest⟩ := List.forall_mem_cons.mp hnodes
    rcases List.mem_cons.mp hrow with rfl | hrow
    · rcases List.mem_cons.mp hcell with rfl | hcell
      · exact List.forall_mem_cons.mpr ⟨hnode, ih List.mem_cons_self List.mem_cons_self hrest⟩
      · exact ih List.mem_cons_self (List.mem_cons_of_mem _ hcell) hrest
    · exact ih (List.mem_cons_of_mem _ hrow) hcell hrest
  | case6 node rest _ ih => exact ih hrow hcell (List.forall_mem_cons.mp hnodes).2

theorem layoutBody_subset (name : String) (body : List Node) : layoutBody name body ⊆ body := by
  unfold layoutBody
  split
  · split
    · exact List.subset_cons_self _ _
    · exact List.Subset.refl _
  · exact List.Subset.refl _

theorem legible_inside (h : Legible node) : ∀ n ∈ inside node, Legible n := by
  cases h with
  | group opener hbody => exact hbody
  | _ =>
    refine List.forall_mem_singleton.mpr ?_
    constructor <;> assumption

theorem Turn.legible (h : Turn nodes move after) (hnodes : ∀ n ∈ nodes, Legible n) :
    ∀ n ∈ after, Legible n := by
  cases h with
  | ready source hform =>
    obtain ⟨hcommand, hrest⟩ := List.forall_mem_cons.mp hnodes
    cases hcommand with
    | command _ _ harguments => exact (legible_form hform harguments hrest).2
  | application source hform hf htexts =>
    obtain ⟨hcommand, hrest⟩ := List.forall_mem_cons.mp hnodes
    cases hcommand with
    | command _ _ harguments => exact (legible_form hform harguments hrest).2
  | _ => exact (List.forall_mem_cons.mp hnodes).2

theorem Inner.legible (h : Inner nodes body) (hnodes : ∀ n ∈ nodes, Legible n) :
    ∀ n ∈ body, Legible n := by
  cases h with
  | group opener body rest =>
    cases (List.forall_mem_cons.mp hnodes).1 with
    | group _ hbody => exact hbody
  | math source body rest =>
    cases (List.forall_mem_cons.mp hnodes).1 with
    | math _ hbody => exact hbody
  | @cell name source rest body _ row hrow hcell =>
    cases (List.forall_mem_cons.mp hnodes).1 with
    | environment _ _ hbody =>
      exact legible_cell hrow hcell fun n hn => hbody n (layoutBody_subset name body hn)
  | operand source hform hf hnode =>
    obtain ⟨hcommand, hrest⟩ := List.forall_mem_cons.mp hnodes
    cases hcommand with
    | command _ _ harguments =>
      exact legible_inside ((legible_form hform harguments hrest).1 _ _ hf _ hnode)

theorem Reaches.legible {place : List Node} {out held : Pieces}
    (h : Reaches nodes out place held) (hnodes : ∀ n ∈ nodes, Legible n) :
    ∀ n ∈ place, Legible n := by
  induction h with
  | here nodes out => exact hnodes
  | inner out hinner h ih => exact ih (hinner.legible hnodes)
  | later hturn h ih => exact ih (hturn.legible hnodes)

end Turn

end Typeset.Math
