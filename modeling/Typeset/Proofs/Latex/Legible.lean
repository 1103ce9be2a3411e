import Mathlib.Data.List.TakeWhile
import Typeset.Latex.Reader

/-! What the reader makes of any LaTeX: no backslash is left among characters, special runs are
those of the table, and commands have the names that LaTeX can spell. -/

namespace Typeset.Latex

variable {input start rest space pending : List Char} {token : Token} {name : String}

/-- The characters that make a math delimiter behind a backslash. -/
def delimiterChars : List Char := ['(', ')', '[', ']']

/-- A name that a command can have: letters, a single character, or a math delimiter. -/
inductive IsCommandName : String → Prop
  | word {name : String} (h : ∀ c ∈ name.toList, Text.isLetter c = true) : IsCommandName name
  | sign (c : Char) : IsCommandName (String.singleton c)
  | delimiter {c : Char} (h : c ∈ delimiterChars) : IsCommandName (String.ofList ['\\', c])

/-- A node as the reader makes it. What stands behind the command for verbatim text is as it may
be. -/
inductive Legible : Node → Prop
  | chars {text : List Char} (h : '\\' ∉ text) : Legible (.chars text)
  | comment (source : List Char) : Legible (.comment source)
  | special {source : List Char} (h : source ∈ specials) : Legible (.special source)
  | group (opener : Char) {body : List Node} (h : ∀ node ∈ body, Legible node) :
    Legible (.group opener body)
  | math (source : List Char) {body : List Node} (h : ∀ node ∈ body, Legible node) :
    Legible (.math source body)
  | command (source : List Char) {name : String} {arguments : List Node}
    (hname : IsCommandName name) (h : name ≠ "verb" → ∀ node ∈ arguments, Legible node) :
    Legible (.command name source arguments)
  | environment (name : String) (source : List Char) {body : List Node}
    (h : ∀ node ∈ body, Legible node) : Legible (.environment name source body)

/-- A token as the reader finds it. -/
def Token.Legible : Token → Prop
  | .char c => c ≠ '\\'
  | .command name => IsCommandName name
  | .delimiter mark => mark = ['$'] ∨ mark = ['$', '$'] ∨ ∃ c ∈ delimiterChars, mark = ['\\', c]
  | .special run => run ∈ specials
  | _ => True

section Token

theorem blank_of_blanks (input : List Char) : ∀ c ∈ (blanks input).1, Text.isBlank c = true := by
  fun_induction blanks input with
  | case1 => simp
  | case2 => simp
  | case3 c rest _ hc ih => exact List.forall_mem_cons.mpr ⟨hc, ih⟩
  | case4 => simp

theorem not_mem_of_blank (h : ∀ c ∈ space, Text.isBlank c = true) : '\\' ∉ space := by
  intro hmem
  have hslash := h _ hmem
  cases hslash

theorem not_mem_of_ended {brackets environments inDollar : Bool}
    (h : scan brackets environments inDollar input = .ended space) : '\\' ∉ space := by
  have hblank := blank_of_blanks input
  unfold scan at h
  dsimp only at h
  split at h
  · cases h
    exact not_mem_of_blank hblank
  · cases h
  · split at h
    · cases h
    · split at h <;> cases h
  · cases h

theorem escape_legible {environments : Bool}
    (h : escape environments input = some (token, rest)) : token.Legible := by
  unfold escape at h
  split at h
  · cases h
  next c more =>
    split at h
    next hdelimiter =>
      cases h
      exact .inr (.inr ⟨c, by simpa [delimiterChars, or_assoc] using hdelimiter, rfl⟩)
    next =>
      split at h
      next =>
        dsimp only at h
        split at h
        · obtain ⟨⟨name, after⟩, -, heq⟩ := Option.map_eq_some_iff.mp h
          cases heq
          trivial
        · split at h
          · obtain ⟨⟨name, after⟩, -, heq⟩ := Option.map_eq_some_iff.mp h
            cases heq
            trivial
          · cases h
            refine .word fun d hd => ?_
            rw [String.toList_ofList] at hd
            exact List.mem_takeWhile_imp hd
      next =>
        cases h
        exact .sign c

theorem special_mem {run : List Char} (h : special? input = some run) : run ∈ specials :=
  List.mem_of_find?_eq_some h

theorem plainToken_legible {c : Char} (hc : c ≠ '\\') (brackets inDollar : Bool)
    (rest : List Char) : (plainToken brackets inDollar c rest).1.Legible := by
  unfold plainToken
  split
  · trivial
  split
  · trivial
  split
  · trivial
  split
  · split
    · split
      · exact .inl rfl
      · exact .inr (.inl rfl)
    · exact .inl rfl
  · split
    next hspecial => exact special_mem hspecial
    next => exact hc

theorem scan_legible {brackets environments inDollar : Bool}
    (h : scan brackets environments inDollar input = .found space token start rest) :
    token.Legible ∧ '\\' ∉ space := by
  have hblank := blank_of_blanks input
  unfold scan at h
  split at h
  next blank start' heq =>
    rw [heq] at hblank
    have hspace : '\\' ∉ blank := not_mem_of_blank hblank
    split at h
    · cases h
    · cases h
      exact ⟨trivial, hspace⟩
    · split at h
      next hescape =>
        cases h
        exact ⟨escape_legible hescape, hspace⟩
      next => split at h <;> cases h
    next c rest' _ hslash =>
      cases h
      exact ⟨plainToken_legible hslash _ _ _, hspace⟩

end Token

/-- A reading of nothing but legible nodes. -/
def Reading.Legible (r : Reading) : Prop :=
  ∀ read rest, r = some (read, rest) → ∀ node ∈ read, Latex.Legible node

section Reading

variable {body : Char → List Char → Reading} {inDollar : Bool}

theorem Reading.legible_none : Reading.Legible none := by
  rintro read rest ⟨⟩

theorem Reading.legible_some {read : List Node} (h : ∀ node ∈ read, Latex.Legible node)
    (rest : List Char) : Reading.Legible (some (read, rest)) := by
  rintro _ _ ⟨⟩
  exact h

theorem Reading.Legible.after {r : Reading} {read : List Node} (hr : r.Legible)
    (h : ∀ node ∈ read, Latex.Legible node) : (Reading.after read r).Legible := by
  intro all rest heq
  obtain ⟨⟨more, _⟩, hmore, heq⟩ := Option.map_eq_some_iff.mp heq
  cases heq
  exact List.forall_mem_append.mpr ⟨h, hr _ _ hmore⟩

/-- What goes on from a part of the input is legible if it is wherever it goes on from. -/
theorem Reading.legible_bind {α : Type} {part : Option α} {next : α → Reading}
    (h : ∀ a, part = some a → (next a).Legible) : Reading.Legible (part >>= next) := by
  cases part with
  | none => exact legible_none
  | some a => exact h a rfl

theorem legible_charsNode {text : List Char} (h : '\\' ∉ text) :
    ∀ node ∈ charsNode text, Legible node := by
  unfold charsNode
  split
  · simp
  · exact List.forall_mem_singleton.mpr (.chars h)

theorem legible_argument (hbody : ∀ c input, (body c input).Legible) {rounds : Nat} {node : Node}
    (h : argument body inDollar rounds input = some (node, rest)) : Legible node := by
  induction rounds generalizing input with
  | zero => cases h
  | succ rounds ih =>
    rw [argument] at h
    split at h
    next hscan =>
      obtain ⟨htoken, -⟩ := scan_legible hscan
      split at h
      · cases h
        exact .chars (by simpa using htoken.symm)
      · cases h
        exact .chars (by decide)
      · split at h
        · cases h
        · cases h
          exact .command _ htoken (by simp)
      next mark =>
        split at h
        next hslash =>
          cases h
          rcases htoken with rfl | rfl | ⟨c, hc, rfl⟩
          · cases hslash
          · cases hslash
          · exact .command _ (.delimiter hc) (by simp)
        next hslash =>
          cases h
          rcases htoken with rfl | rfl | ⟨c, hc, rfl⟩
          · exact .chars (by decide)
          · exact .chars (by decide)
          · exact absurd rfl hslash
      · obtain ⟨⟨inner, _⟩, hinner, heq⟩ := Option.map_eq_some_iff.mp h
        cases heq
        exact .group _ (hbody _ _ _ _ hinner)
      · cases h
        exact .chars (by simp)
      · cases h
        exact .special htoken
      · exact ih h
      · cases h
      · cases h
    · cases h

theorem legible_optional (hbody : ∀ c input, (body c input).Legible) (tight : Bool)
    (input : List Char) : (optional body inDollar tight input).Legible := by
  unfold optional
  split
  · exact Reading.legible_some (by simp) _
  · split
    · intro read rest h
      obtain ⟨⟨inner, _⟩, hinner, heq⟩ := Option.map_eq_some_iff.mp h
      cases heq
      exact List.forall_mem_singleton.mpr (.group _ (hbody _ _ _ _ hinner))
    · exact Reading.legible_some (by simp) _
    · exact Reading.legible_none

theorem legible_star (input : List Char) : (star inDollar input).Legible := by
  unfold star
  split
  · exact Reading.legible_some (List.forall_mem_singleton.mpr (.chars (by decide))) _
  · exact Reading.legible_some (by simp) _
  · exact Reading.legible_none

theorem legible_slots (hbody : ∀ c input, (body c input).Legible) (tight : Bool)
    (row : List Slot) (input : List Char) : (slots body inDollar tight row input).Legible := by
  induction row generalizing input with
  | nil => exact Reading.legible_some (by simp) _
  | cons slot more ih =>
    unfold slots
    cases slot with
    | star =>
      refine Reading.legible_bind fun taken htaken => (ih taken.2).after ?_
      exact legible_star input _ _ htaken
    | optional =>
      refine Reading.legible_bind fun taken htaken => (ih taken.2).after ?_
      exact legible_optional hbody tight input _ _ htaken
    | required =>
      refine Reading.legible_bind fun taken htaken => (ih taken.2).after ?_
      exact List.forall_mem_singleton.mpr (legible_argument hbody htaken)

theorem signature_verbatim : ∀ row ∈ commandTable, row.1 = .verbatim → row.2 = ["verb"] := by
  decide

theorem eq_verb_of_verbatim (h : commandSignature name = .verbatim) : name = "verb" := by
  unfold commandSignature signatureIn at h
  split at h
  next row hrow =>
    have hmem := List.mem_of_find?_eq_some hrow
    have hname := List.find?_some hrow
    rw [signature_verbatim row hmem h] at hname
    simpa using hname
  next => cases h

theorem legible_commandArguments (hbody : ∀ c input, (body c input).Legible)
    (hname : name ≠ "verb") (input : List Char) :
    (commandArguments body inDollar name input).Legible := by
  unfold commandArguments
  split
  · exact legible_slots hbody _ _ input
  next hverbatim => exact absurd (eq_verb_of_verbatim hverbatim) hname

end Reading

section Nodes

theorem legible_nodes (rounds : Nat) (closer : Closer) (inDollar : Bool) (hpending : '\\' ∉ pending)
    (input : List Char) : (nodes rounds closer inDollar pending input).Legible := by
  induction rounds generalizing closer inDollar pending input with
  | zero => exact Reading.legible_none
  | succ rounds ih =>
    have hbody (opener : Char) (rest : List Char) :
        (nodes rounds (.brace (closingOf opener)) inDollar [] rest).Legible :=
      ih _ _ (by simp) rest
    rw [nodes]
    dsimp only
    split
    · exact Reading.legible_none
    · split
      · exact Reading.legible_some (legible_charsNode hpending) _
      · exact Reading.legible_none
    next space hscan =>
      have hheld : '\\' ∉ pending ++ space := by
        simp [hpending, not_mem_of_ended hscan]
      split
      · exact Reading.legible_some (legible_charsNode hheld) _
      · exact Reading.legible_none
    next space token start rest hscan =>
      obtain ⟨htoken, hspace⟩ := scan_legible hscan
      have hheld : '\\' ∉ pending ++ space := by simp [hpending, hspace]
      have hhere := legible_charsNode hheld
      have hgoOn {node : Node} (hnode : Legible node) (rest : List Char) :
          (Reading.after (charsNode (pending ++ space) ++ [node])
            (nodes rounds closer inDollar [] rest)).Legible :=
        (ih _ _ (by simp) rest).after
          (List.forall_mem_append.mpr ⟨hhere, List.forall_mem_singleton.mpr hnode⟩)
      split
      next c => exact ih _ _ (by simp [hpending, hspace, Ne.symm htoken]) _
      next => exact ih _ _ (by simp [hpending, hspace]) _
      next => exact hgoOn (.comment _) _
      next => exact hgoOn (.special htoken) _
      next =>
        split
        · exact Reading.legible_some hhere _
        · exact Reading.legible_none
      next =>
        split
        · exact Reading.legible_some hhere _
        · exact Reading.legible_none
      next c =>
        exact Reading.legible_bind fun inner hinner => hgoOn (.group c (hbody _ _ _ _ hinner)) _
      next name =>
        refine Reading.legible_bind fun rest _ => Reading.legible_bind fun inner hinner => ?_
        exact hgoOn (.environment name _ (ih _ _ (by simp) _ _ _ hinner)) _
      next mark =>
        split
        · exact Reading.legible_some hhere _
        · refine Reading.legible_bind fun close _ => Reading.legible_bind fun inner hinner => ?_
          exact hgoOn (.math _ (ih _ _ (by simp) _ _ _ hinner)) _
      next name =>
        refine Reading.legible_bind fun arguments harguments => ?_
        refine hgoOn (.command _ htoken fun hname => ?_) _
        exact legible_commandArguments hbody hname _ _ _ harguments

/-- Whatever is read is legible. -/
theorem legible_read {latex rest : List Char} {read : List Node}
    (h : Latex.read latex = some (read, rest)) : ∀ node ∈ read, Legible node :=
  legible_nodes _ _ _ (by simp) latex _ _ h

end Nodes

end Typeset.Latex
