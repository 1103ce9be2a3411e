import Typeset.Markup.Escape
import Typeset.Proofs.Markup.Rows

/-! Escaped text, row by row. Characters that need no escape stay as they are, so that a row begins
with such characters exactly if it began with them before. -/

namespace Typeset.Markup

section Rows

variable {c : Char} {cs rest plain : List Char}

/-- A character that is shown literally as it is, whatever follows. -/
def IsPlain (c : Char) : Prop := isSpecial c = false ∧ c ≠ '/'

instance : DecidablePred IsPlain := fun _ => inferInstanceAs (Decidable (_ ∧ _))

theorem isPlain_blank : IsPlain ' ' := by
  decide

theorem escapeChars_cons_of_plain (h : IsPlain c) (rest : List Char) :
    escapeChars (c :: rest) = c :: escapeChars rest := by
  obtain ⟨hspecial, hslash⟩ := h
  rw [escapeChars, if_neg (by simp [hspecial, opensComment, hslash])]

theorem escapeChars_append_of_plain (h : ∀ c ∈ plain, IsPlain c) (rest : List Char) :
    escapeChars (plain ++ rest) = plain ++ escapeChars rest := by
  induction plain with
  | nil => rfl
  | cons c plain ih =>
    obtain ⟨hc, hplain⟩ := List.forall_mem_cons.mp h
    rw [List.cons_append, escapeChars_cons_of_plain hc, ih hplain, List.cons_append]

theorem escapeChars_injective : Function.Injective escapeChars := by
  intro cs ds h
  rw [← unescapeChars_escapeChars cs, ← unescapeChars_escapeChars ds, h]

theorem escapeChars_eq_iff_of_plain (h : ∀ c ∈ plain, IsPlain c) :
    escapeChars cs = plain ↔ cs = plain := by
  have hsame : escapeChars plain = plain := by
    simpa [escapeChars] using escapeChars_append_of_plain h []
  constructor
  · intro heq
    exact escapeChars_injective (heq.trans hsame.symm)
  · rintro rfl
    exact hsame

/-- The escape of a special character begins with a backslash. -/
theorem isPrefix_escapeChars_iff_of_plain (h : ∀ c ∈ plain, IsPlain c) :
    plain <+: escapeChars cs ↔ plain <+: cs := by
  constructor
  · intro hprefix
    induction plain generalizing cs with
    | nil => exact List.nil_prefix
    | cons c plain ih =>
      obtain ⟨hc, hplain⟩ := List.forall_mem_cons.mp h
      cases cs with
      | nil => simp [escapeChars] at hprefix
      | cons d rest =>
        rw [escapeChars] at hprefix
        split at hprefix
        · obtain ⟨rfl, -⟩ := List.cons_prefix_cons.mp hprefix
          exact absurd hc (by decide)
        · obtain ⟨rfl, hrest⟩ := List.cons_prefix_cons.mp hprefix
          exact List.cons_prefix_cons.mpr ⟨rfl, ih hplain hrest⟩
  · rintro ⟨rest, rfl⟩
    rw [escapeChars_append_of_plain h]
    exact List.prefix_append _ _

/-- A special character does not begin an escaped text, unless it is a backslash. -/
theorem eq_of_cons_isPrefix_escapeChars (hc : isSpecial c = true) (h : [c] <+: escapeChars cs) :
    c = '\\' := by
  cases cs with
  | nil => simp [escapeChars] at h
  | cons d rest =>
    rw [escapeChars] at h
    split at h
    · exact (List.cons_prefix_cons.mp h).1
    next hplain =>
      obtain ⟨rfl, -⟩ := List.cons_prefix_cons.mp h
      simp [hc] at hplain

/-- What opens a comment does so within its row. -/
theorem opensComment_head {row : List Char} {more : List (List Char)}
    (h : rest.splitOn '\n' = row :: more) : opensComment c rest = opensComment c row := by
  cases rest with
  | nil =>
    obtain ⟨rfl, -⟩ : row = [] ∧ more = [] := by simpa [eq_comm] using h
    rfl
  | cons d rest =>
    rw [List.splitOn_cons_eq_if_modifyHead] at h
    by_cases hd : d = '\n'
    · subst hd
      rw [if_pos (beq_self_eq_true '\n')] at h
      cases h
      simp [opensComment]
    · obtain ⟨first, others, hrows⟩ := List.exists_cons_of_ne_nil (List.splitOn_ne_nil '\n' rest)
      rw [if_neg (by simpa using hd), hrows, List.modifyHead_cons] at h
      cases h
      rfl

theorem splitOn_escapeChars (cs : List Char) :
    (escapeChars cs).splitOn '\n' = (cs.splitOn '\n').map escapeChars := by
  -- An escape looks one character ahead, which is no character of the next row.
  induction cs with
  | nil => rfl
  | cons c rest ih =>
    obtain ⟨row, more, hrows⟩ := List.exists_cons_of_ne_nil (List.splitOn_ne_nil '\n' rest)
    by_cases hc : c = '\n'
    · subst hc
      rw [escapeChars_cons_of_plain (by decide), List.splitOn_cons_eq_if_modifyHead,
        if_pos (beq_self_eq_true '\n'), ih, List.splitOn_cons_eq_if_modifyHead,
        if_pos (beq_self_eq_true '\n')]
      rfl
    · have hslash : ('\\' == '\n') = false := rfl
      rw [List.splitOn_cons_eq_if_modifyHead c, if_neg (by simpa using hc), hrows,
        List.modifyHead_cons, List.map_cons, escapeChars, escapeChars, opensComment_head hrows]
      rw [hrows, List.map_cons] at ih
      split
      · rw [List.splitOn_cons_eq_if_modifyHead, hslash, if_neg Bool.false_ne_true,
          List.splitOn_cons_eq_if_modifyHead, if_neg (by simpa using hc), ih,
          List.modifyHead_cons, List.modifyHead_cons]
      · rw [List.splitOn_cons_eq_if_modifyHead, if_neg (by simpa using hc), ih,
          List.modifyHead_cons]

theorem textRows_escape (s : String) : textRows (escape s) = (textRows s).map escapeChars := by
  rw [textRows, escape, String.toList_ofList, splitOn_escapeChars, textRows]

end Rows

/-! Escaping makes text literal and loses nothing of it: each character that markup gives a meaning
has a backslash before it, no other character has, and the text comes back when the backslashes are
taken away. -/

section Literal

variable {c : Char} {cs rest : List Char}

/-- The characters that markup gives a meaning, wherever they stand. -/
def marks : List Char := ['\\', '#', '*', '_', '`', '[', ']', '$', '<', '>', '@', '~']

/-- What is met when each backslash is passed over with the character behind it: the other
characters, each with the one behind it. -/
def unpaired : List Char → List (Char × Option Char)
  | '\\' :: _ :: rest => unpaired rest
  | c :: rest => (c, rest.head?) :: unpaired rest
  | [] => []

/-- A character that means something to markup, given the one behind it: a slash begins a comment
before another slash or an asterisk. -/
def IsMark (place : Char × Option Char) : Prop :=
  place.1 ∈ marks ∨ place.1 = '/' ∧ (place.2 = some '/' ∨ place.2 = some '*')

/-- Text that holds nothing that means something to markup. -/
structure Unmarked (cs : List Char) : Prop where
  noMark : ∀ c ∈ cs, c ∉ marks
  noLineComment : ¬ ['/', '/'] <:+: cs
  noBlockComment : ¬ ['/', '*'] <:+: cs

/-- Escaped text as it was before. -/
def unescape (s : String) : String := String.ofList (unescapeChars s.toList)

theorem isSpecial_iff : isSpecial c ↔ c ∈ marks := by
  simp [isSpecial, marks, or_assoc]

theorem opensComment_iff :
    opensComment c rest ↔ c = '/' ∧ (rest.head? = some '/' ∨ rest.head? = some '*') := by
  simp [opensComment]

section Unpaired

theorem unpaired_pair (c : Char) (rest : List Char) :
    unpaired ('\\' :: c :: rest) = unpaired rest := rfl

theorem unpaired_cons (h : c ≠ '\\') (rest : List Char) :
    unpaired (c :: rest) = (c, rest.head?) :: unpaired rest := by
  rw [unpaired]
  rintro _ _ rfl
  exact (h rfl).elim

/-- Escaped text begins as the text did, or with a backslash. -/
theorem head?_escapeChars (cs : List Char) :
    (escapeChars cs).head? = some '\\' ∨ (escapeChars cs).head? = cs.head? := by
  cases cs with
  | nil => exact .inr rfl
  | cons c rest =>
    rw [escapeChars]
    split
    · exact .inl rfl
    · exact .inr rfl

/-- Nothing that means something is left outside the pairs. -/
theorem not_isMark_of_unpaired (cs : List Char) :
    ∀ place ∈ unpaired (escapeChars cs), ¬ IsMark place := by
  induction cs with
  | nil => exact List.forall_mem_nil _
  | cons c rest ih =>
    rw [escapeChars]
    split
    · rw [unpaired_pair]
      exact ih
    next hplain =>
      obtain ⟨hspecial, hcomment⟩ : ¬ isSpecial c ∧ ¬ opensComment c rest := by
        simpa using hplain
      have hback : c ≠ '\\' := by
        rintro rfl
        exact hspecial rfl
      rw [unpaired_cons hback]
      refine List.forall_mem_cons.mpr ⟨?_, ih⟩
      rintro (hmark | ⟨hslash, hnext⟩)
      · exact hspecial (isSpecial_iff.mpr hmark)
      -- A backslash behind the slash keeps it from what came after it.
      · rcases head?_escapeChars rest with hhead | hhead
        · simp [hhead] at hnext
        · exact hcomment (opensComment_iff.mpr ⟨hslash, hhead ▸ hnext⟩)

end Unpaired

section Unmarked

theorem pair_infix_cons {a b : Char} :
    [a, b] <:+: c :: rest ↔ (a = c ∧ rest.head? = some b) ∨ [a, b] <:+: rest := by
  rw [List.infix_cons_iff, List.cons_prefix_cons]
  cases rest with
  | nil => simp
  | cons d rest => simp [eq_comm]

theorem unmarked_nil : Unmarked [] := ⟨List.forall_mem_nil _, by simp, by simp⟩

theorem unmarked_cons_iff :
    Unmarked (c :: rest) ↔ ¬ (isSpecial c ∨ opensComment c rest) ∧ Unmarked rest := by
  rw [isSpecial_iff, opensComment_iff]
  constructor
  · rintro ⟨hmark, hline, hblock⟩
    obtain ⟨hc, hrest⟩ := List.forall_mem_cons.mp hmark
    rw [pair_infix_cons, not_or] at hline hblock
    refine ⟨?_, hrest, hline.2, hblock.2⟩
    rintro (h | ⟨rfl, h | h⟩)
    · exact hc h
    · exact hline.1 ⟨rfl, h⟩
    · exact hblock.1 ⟨rfl, h⟩
  · rintro ⟨hc, hrest, hline, hblock⟩
    refine ⟨List.forall_mem_cons.mpr ⟨fun h => hc (.inl h), hrest⟩, ?_, ?_⟩
    · rw [pair_infix_cons]
      rintro (⟨rfl, h⟩ | h)
      · exact hc (.inr ⟨rfl, .inl h⟩)
      · exact hline h
    · rw [pair_infix_cons]
      rintro (⟨rfl, h⟩ | h)
      · exact hc (.inr ⟨rfl, .inr h⟩)
      · exact hblock h

theorem length_le_escapeChars (cs : List Char) : cs.length ≤ (escapeChars cs).length := by
  induction cs with
  | nil => exact Nat.le_refl 0
  | cons c rest ih =>
    rw [escapeChars]
    split
    · simp only [List.length_cons]
      omega
    · exact Nat.succ_le_succ ih

/-- Only text that means something is changed. -/
theorem escapeChars_eq_self_iff : escapeChars cs = cs ↔ Unmarked cs := by
  induction cs with
  | nil => exact iff_of_true rfl unmarked_nil
  | cons c rest ih =>
    rw [unmarked_cons_iff, ← ih, escapeChars]
    split
    next hmarked =>
      refine iff_of_false (fun heq => ?_) fun h => h.1 (by simpa using hmarked)
      have hlength := congrArg List.length heq
      have hle := length_le_escapeChars rest
      simp only [List.length_cons] at hlength
      omega
    next hplain =>
      rw [List.cons_inj_right]
      exact (and_iff_right (by simpa using hplain)).symm

end Unmarked

/-- Escaped text is the text again when each backslash is taken away and the character behind it
kept; outside such pairs it holds nothing that means something to markup; just the text that means
nothing is its own escape; and different texts are escaped differently. -/
theorem escape_literal :
    (∀ s, unescape (escape s) = s) ∧
      (∀ s, ∀ place ∈ unpaired (escape s).toList, ¬ IsMark place) ∧
      (∀ s, escape s = s ↔ Unmarked s.toList) ∧ Function.Injective escape := by
  have hinverse : Function.LeftInverse unescape escape := by
    intro s
    rw [unescape, escape, String.toList_ofList, unescapeChars_escapeChars, String.ofList_toList]
  refine ⟨hinverse, fun s => ?_, fun s => ?_, hinverse.injective⟩
  · rw [escape, String.toList_ofList]
    exact not_isMark_of_unpaired s.toList
  · rw [← String.toList_inj, escape, String.toList_ofList]
    exact escapeChars_eq_self_iff

example : escape "///* a/b \\/" = "\\/\\/\\/\\* a/b \\\\/" := by decide

end Literal

end Typeset.Markup
