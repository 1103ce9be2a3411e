import Mathlib.Data.List.DropRight
import Mathlib.Data.List.TakeWhile
import Typeset.Text.Blank

/-! The ends of a text: the white space that is cut off there, and runs of one character. -/

namespace Typeset.Text

variable {p : Char → Bool} {cs lead gap : List Char}

theorem exists_trimRight (cs : List Char) :
    ∃ blanks, cs = trimRight isBlank cs ++ blanks ∧ ∀ c ∈ blanks, isBlank c = true := by
  refine ⟨(cs.reverse.takeWhile isBlank).reverse, ?_, fun c hc => ?_⟩
  · rw [trimRight, ← List.reverse_append, List.takeWhile_append_dropWhile, List.reverse_reverse]
  · exact List.mem_takeWhile_imp (List.mem_reverse.mp hc)

theorem exists_dropWhile (cs : List Char) :
    ∃ lead, cs = lead ++ cs.dropWhile isBlank ∧ ∀ c ∈ lead, isBlank c = true :=
  ⟨cs.takeWhile isBlank, List.takeWhile_append_dropWhile.symm, fun _ => List.mem_takeWhile_imp⟩

theorem exists_trim (cs : List Char) :
    ∃ lead blanks, cs = lead ++ (trim isBlank cs ++ blanks) ∧ (∀ c ∈ lead, isBlank c = true) ∧
      ∀ c ∈ blanks, isBlank c = true := by
  obtain ⟨lead, hcs, hlead⟩ := exists_dropWhile cs
  obtain ⟨blanks, hrest, hblanks⟩ := exists_trimRight (cs.dropWhile isBlank)
  exact ⟨lead, blanks, by rw [trim, ← hrest, ← hcs], hlead, hblanks⟩

theorem trimRight_concat (q : Char → Bool) (c : Char) (cs : List Char) :
    trimRight q (cs ++ [c]) = if q c then trimRight q cs else cs ++ [c] :=
  List.rdropWhile_concat q cs c

/-- White space before a text does not matter where the text is trimmed. -/
theorem trim_append_of_head (hlead : ∀ c ∈ lead, p c = true) (cs : List Char) :
    trim p (lead ++ cs) = trim p cs := by
  rw [trim, List.dropWhile_append_of_pos hlead, trim]

/-- White space after a text does not matter where the text is trimmed. -/
theorem trim_append_of_last (hgap : ∀ c ∈ gap, p c = true) (cs : List Char) :
    trim p (cs ++ gap) = trim p cs := by
  have hright (ds : List Char) : trimRight p (ds ++ gap) = trimRight p ds := by
    rw [trimRight, List.reverse_append,
      List.dropWhile_append_of_pos fun c hc => hgap c (List.mem_reverse.mp hc), trimRight]
  rw [trim, trim, List.dropWhile_append]
  split
  next hall =>
    rw [List.isEmpty_iff] at hall
    have hnone : gap.dropWhile p = [] := List.dropWhile_eq_nil_iff.mpr hgap
    rw [hall, hnone]
  next => exact hright _

theorem trim_eq_self (hhead : ∀ c ∈ cs.head?, p c = false)
    (hlast : ∀ c ∈ cs.getLast?, p c = false) :
    trim p cs = cs := by
  have hkeep {ds : List Char} (h : ∀ c ∈ ds.head?, p c = false) : ds.dropWhile p = ds := by
    cases ds with
    | nil => rfl
    | cons c ds => exact List.dropWhile_cons_of_neg (by simp [h c rfl])
  have hreverse : cs.reverse.dropWhile p = cs.reverse :=
    hkeep (by rwa [List.head?_reverse])
  rw [trim, hkeep hhead, trimRight, hreverse, List.reverse_reverse]

theorem head?_dropWhile {c : Char} (h : c ∈ (cs.dropWhile p).head?) : p c = false := by
  have hnot := List.head?_dropWhile_not p cs
  rw [Option.mem_def.mp h] at hnot
  exact hnot

/-- A trimmed text does not begin with white space. -/
theorem head?_trim {c : Char} (h : c ∈ (trim isBlank cs).head?) : isBlank c = false := by
  obtain ⟨blanks, hrest, -⟩ := exists_trimRight (cs.dropWhile isBlank)
  have hstart : c ∈ (cs.dropWhile isBlank).head? := by
    rw [hrest]
    exact List.mem_head?_append_of_mem_head? h
  exact head?_dropWhile hstart

/-- A trimmed text does not end with white space. -/
theorem getLast?_trim {c : Char} (h : c ∈ (trim isBlank cs).getLast?) : isBlank c = false := by
  rw [trim, trimRight, List.getLast?_reverse] at h
  exact head?_dropWhile h

theorem length_trim_le (cs : List Char) : (trim isBlank cs).length ≤ cs.length := by
  obtain ⟨lead, blanks, hcs, -, -⟩ := exists_trim cs
  have hlength := congrArg List.length hcs
  simp only [List.length_append] at hlength
  omega

theorem trim_eq_of_length_le (h : cs.length ≤ (trim isBlank cs).length) : trim isBlank cs = cs := by
  obtain ⟨lead, blanks, hcs, -, -⟩ := exists_trim cs
  have hlength := congrArg List.length hcs
  simp only [List.length_append] at hlength
  obtain rfl : lead = [] := List.eq_nil_of_length_eq_zero (by omega)
  obtain rfl : blanks = [] := List.eq_nil_of_length_eq_zero (by omega)
  rw [List.nil_append, List.append_nil] at hcs
  exact hcs.symm

/-- A text begins with a run of any character, if only an empty one. -/
theorem exists_run (c : Char) (cs : List Char) :
    ∃ count rest, cs = List.replicate count c ++ rest ∧ rest.head? ≠ some c := by
  induction cs with
  | nil => exact ⟨0, [], rfl, by simp⟩
  | cons d cs ih =>
    by_cases hd : d = c
    · obtain ⟨count, rest, rfl, hrest⟩ := ih
      exact ⟨count + 1, rest, by rw [hd]; rfl, hrest⟩
    · exact ⟨0, d :: cs, rfl, by simpa using hd⟩

variable {c : Char} {rest : List Char}

theorem takeWhile_run (count : Nat) (h : rest.head? ≠ some c) :
    (List.replicate count c ++ rest).takeWhile (· == c) = List.replicate count c := by
  rw [List.takeWhile_append_of_pos fun d hd => by simp [List.eq_of_mem_replicate hd]]
  cases rest with
  | nil => exact List.append_nil _
  | cons d rest =>
    have hd : ¬(d == c) = true := by simpa using h
    have hnil : (d :: rest).takeWhile (· == c) = [] := List.takeWhile_cons_of_neg hd
    rw [hnil, List.append_nil]

theorem dropWhile_run (count : Nat) (h : rest.head? ≠ some c) :
    (List.replicate count c ++ rest).dropWhile (· == c) = rest := by
  rw [List.dropWhile_append_of_pos fun d hd => by simp [List.eq_of_mem_replicate hd]]
  cases rest with
  | nil => rfl
  | cons d rest =>
    have hd : ¬(d == c) = true := by simpa using h
    exact List.dropWhile_cons_of_neg hd

end Typeset.Text
