import Mathlib.Algebra.Group.Nat.Even
import Mathlib.Data.List.DropRight
import Typeset.Math.Writer
import Typeset.Proofs.Lists
import Typeset.Proofs.Math.Spacing
import Typeset.Proofs.Text.Scan

/-! Reading math up to the dollar sign that ends it, and what the ways in which pieces are put
together do to it. -/

namespace Typeset.Math

open Text (isBlank trim exists_trim)

variable {c : Char} {p q : List Char} {out : Pieces}

/-- One character of math; none where a dollar sign ends it. -/
def Mode.read (m : Mode) (c : Char) : Option Mode :=
  if m = .plain ∧ c = '$' then none else some (m.next c)

/-- A text that no dollar sign ends and that leaves the reading as it finds it. -/
def Tidy (p : List Char) : Prop := Scan.run Mode.read .plain p = some .plain

/-- A text that no dollar sign ends. What follows it may be escaped. -/
def Loose (p : List Char) : Prop := Tidy p ∨ Scan.run Mode.read .plain p = some .escaped

/-- A character that neither ends math nor begins an escape or a string. -/
def Ordinary (c : Char) : Prop := c ≠ '$' ∧ c ≠ '\\' ∧ c ≠ '"'

/-- How many backslashes a text ends in. -/
def endSlashes (p : List Char) : Nat := (p.rtakeWhile (· == '\\')).length

instance : DecidablePred Tidy := fun _ => inferInstanceAs (Decidable (_ = some Mode.plain))

instance : DecidablePred Ordinary := fun _ => inferInstanceAs (Decidable (_ ∧ _))

section Read

theorem Ordinary.read (h : Ordinary c) (m : Mode) : m.read c = some m.settled := by
  obtain ⟨hdollar, hslash, hquote⟩ := h
  cases m <;> simp [Mode.read, Mode.next, Mode.settled, hdollar, hslash, hquote]

theorem ordinary_of_isBlank (h : isBlank c = true) : Ordinary c :=
  ⟨ne_of_isBlank h rfl, ne_of_isBlank h rfl, ne_of_isBlank h rfl⟩

theorem Mode.read_blank (m : Mode) (h : isBlank c = true) : m.read c = some m.settled :=
  (ordinary_of_isBlank h).read m

theorem read_escaped (c : Char) : Mode.read .escaped c = some .plain := by
  simp [Mode.read, Mode.next]

theorem tidy_escape (c : Char) : Tidy ['\\', c] := by
  simp [Tidy, Mode.read, Mode.next]

theorem run_blanks (h : ∀ c ∈ p, isBlank c = true) (hne : p ≠ []) (m : Mode) :
    Scan.run Mode.read m p = some m.settled := by
  induction p generalizing m with
  | nil => exact absurd rfl hne
  | cons c p ih =>
    obtain ⟨hc, hp⟩ := List.forall_mem_cons.mp h
    rw [Scan.run_cons, m.read_blank hc, Option.bind_some]
    by_cases hnil : p = []
    · rw [hnil, Scan.run_nil]
    · rw [ih hp hnil, Mode.settled_settled]

theorem run_squeeze (m : Mode) (p : List Char) :
    Scan.run Mode.read m (squeeze p) = Scan.run Mode.read m p := by
  induction p generalizing m with
  | nil => rfl
  | cons c p ih =>
    cases hc : isBlank c with
    | false =>
      rw [squeeze_cons_of_solid hc, Scan.run_cons, Scan.run_cons]
      simp only [ih]
    | true =>
      have hblank : isBlank ' ' = true := rfl
      rw [squeeze_cons_of_blank hc, Scan.run_cons, m.read_blank hc, Option.bind_some]
      split
      next hhead =>
        obtain ⟨more, hmore⟩ := List.head?_eq_some_iff.mp hhead
        rw [← ih, hmore, Scan.run_cons, Scan.run_cons, m.read_blank hblank,
          m.settled.read_blank hblank, Mode.settled_settled]
      next => rw [Scan.run_cons, m.read_blank hblank, Option.bind_some, ih]

end Read

section Tidy

theorem Tidy.append (hp : Tidy p) (hq : Tidy q) : Tidy (p ++ q) := by
  rw [Tidy, Scan.run_append_of_eq hp]
  exact hq

theorem Tidy.loose (h : Tidy p) : Loose p := .inl h

theorem Tidy.append_loose (hp : Tidy p) (hq : Loose q) : Loose (p ++ q) := by
  rw [Loose, Tidy, Scan.run_append_of_eq hp]
  exact hq

theorem tidy_blanks (h : ∀ c ∈ p, isBlank c = true) : Tidy p := by
  by_cases hne : p = []
  · rw [hne]
    rfl
  · exact run_blanks h hne .plain

theorem Ordinary.run_cons (h : Ordinary c) (p : List Char) :
    Scan.run Mode.read .plain (c :: p) = Scan.run Mode.read .plain p := by
  rw [Scan.run_cons, h.read, Option.bind_some, Mode.settled]

theorem Ordinary.tidy_cons_iff (h : Ordinary c) : Tidy (c :: p) ↔ Tidy p := by
  rw [Tidy, h.run_cons, Tidy]

theorem Ordinary.loose_cons_iff (h : Ordinary c) : Loose (c :: p) ↔ Loose p := by
  rw [Loose, h.tidy_cons_iff, h.run_cons, Loose]

/-- A backslash at the end takes along an ordinary character, and what follows that is read as by
itself. -/
theorem Loose.run_append_cons (hp : Loose p) (hc : Ordinary c) (q : List Char) :
    Scan.run Mode.read .plain (p ++ c :: q) = Scan.run Mode.read .plain q := by
  rcases hp with hp | hp
  · rw [Scan.run_append_of_eq hp, hc.run_cons]
  · rw [Scan.run_append_of_eq hp, Scan.run_cons, read_escaped, Option.bind_some]

theorem Loose.append_cons (hp : Loose p) (hc : Ordinary c) (hq : Tidy q) : Tidy (p ++ c :: q) := by
  rw [Tidy, hp.run_append_cons hc]
  exact hq

theorem Loose.append_cons_loose (hp : Loose p) (hc : Ordinary c) (hq : Loose q) :
    Loose (p ++ c :: q) := by
  rw [Loose, Tidy, hp.run_append_cons hc]
  exact hq

theorem Loose.of_blanks {blanks : List Char} (h : Loose (p ++ blanks))
    (hblanks : ∀ c ∈ blanks, isBlank c = true) : Loose p := by
  by_cases hne : blanks = []
  · rwa [hne, List.append_nil] at h
  · cases hp : Scan.run Mode.read .plain p with
    | none =>
      have hnone := @Scan.run_append_of_none _ _ _ _ blanks hp
      rcases h with h | h
      · rw [Tidy, hnone] at h
        cases h
      · rw [hnone] at h
        cases h
    | some m =>
      have hend : Scan.run Mode.read .plain (p ++ blanks) = some m.settled := by
        rw [Scan.run_append_of_eq hp, run_blanks hblanks hne]
      rw [Loose, Tidy, hend] at h
      rw [Loose, Tidy, hp]
      cases m with
      | plain => exact .inl rfl
      | escaped => exact .inr rfl
      | string => rcases h with h | h <;> cases h
      | stringEscaped => rcases h with h | h <;> cases h

theorem Loose.of_lead {lead : List Char} (h : Loose (lead ++ p))
    (hlead : ∀ c ∈ lead, isBlank c = true) : Loose p := by
  rwa [Loose, Tidy, Scan.run_append_of_eq (tidy_blanks hlead)] at h

theorem Loose.trim (h : Loose p) : Loose (trim isBlank p) := by
  obtain ⟨lead, blanks, hp, hlead, hblanks⟩ := exists_trim p
  rw [hp] at h
  exact (h.of_lead hlead).of_blanks hblanks

theorem Loose.text (h : Loose out.whole) : Loose out.text := by
  rw [Pieces.text_eq]
  refine Loose.trim ?_
  rwa [Loose, Tidy, run_squeeze]

theorem Loose.parenthesized (h : Loose p) : Tidy ('(' :: p ++ [')']) := by
  have hopen : Tidy ['('] := rfl
  have hclose : Tidy [] := rfl
  have hend : Tidy (p ++ [')']) := h.append_cons (by decide) hclose
  exact hopen.append hend

end Tidy

section Slashes

theorem run_concat (p : List Char) (c : Char) :
    Scan.run Mode.read .plain (p ++ [c]) =
      (Scan.run Mode.read .plain p).bind fun m => m.read c := by
  simp [Scan.run_append]

theorem endSlashes_concat_slash (p : List Char) : endSlashes (p ++ ['\\']) = endSlashes p + 1 := by
  rw [endSlashes, List.rtakeWhile_concat_pos _ _ _ (by decide), List.length_append]
  rfl

theorem endSlashes_concat (p : List Char) (hc : c ≠ '\\') : endSlashes (p ++ [c]) = 0 := by
  rw [endSlashes, List.rtakeWhile_concat_neg _ _ _ (by simpa using hc)]
  rfl

/-- One more backslash pairs up with one that was open, and is open otherwise. -/
theorem loose_concat_slash (h : Loose (p ++ ['\\'])) :
    Loose p ∧ (Tidy (p ++ ['\\']) ↔ ¬ Tidy p) := by
  have hslash (m : Mode) : m.read '\\' = some (m.next '\\') := by
    cases m <;> rfl
  rw [Loose, Tidy, run_concat] at h
  rw [Loose, Tidy, Tidy, run_concat]
  cases hp : Scan.run Mode.read .plain p with
  | none =>
    rw [hp] at h
    rcases h with h | h <;> cases h
  | some m =>
    rw [hp, Option.bind_some, hslash] at h
    rw [Option.bind_some, hslash]
    cases m with
    | plain => exact ⟨.inl rfl, by decide⟩
    | escaped => exact ⟨.inr rfl, by decide⟩
    | string => rcases h with h | h <;> cases h
    | stringEscaped => rcases h with h | h <;> cases h

theorem Loose.tidy_concat (h : Loose (p ++ [c])) (hc : c ≠ '\\') : Tidy (p ++ [c]) := by
  have hopen (m : Mode) : m.read c ≠ some .escaped := by
    cases m <;> grind [Mode.read, Mode.next]
  rcases h with h | h
  · exact h
  · rw [run_concat] at h
    obtain ⟨m, -, hm⟩ := Option.bind_eq_some_iff.mp h
    exact absurd hm (hopen m)

/-- No backslash is open at the end if and only if those at the end pair up. -/
theorem Loose.tidy_iff (h : Loose p) : Tidy p ↔ Even (endSlashes p) := by
  induction p using List.reverseRecOn with
  | nil => exact iff_of_true rfl (by decide)
  | append_singleton p c ih =>
    by_cases hc : c = '\\'
    · subst hc
      obtain ⟨hp, hiff⟩ := loose_concat_slash h
      rw [hiff, ih hp, endSlashes_concat_slash, Nat.even_add_one]
    · exact iff_of_true (h.tidy_concat hc) (by rw [endSlashes_concat p hc]; decide)

end Slashes

section Pieces

theorem ordinary_of_isScriptMark (h : isScriptMark c = true) : Ordinary c := by
  simp only [isScriptMark, Bool.or_eq_true, beq_iff_eq] at h
  rcases h with rfl | rfl
  · decide
  · decide

theorem Loose.operandText (h : Loose p) (out : Pieces) : Loose (out.operandText p) := by
  unfold Pieces.operandText
  split
  · split
    next c hc =>
      rw [← hc]
      exact h.trim
    next => exact h.trim.parenthesized.loose
  · exact h

/-- One more piece keeps what is put together loose, if it does not begin with what a backslash at
the end would take apart. -/
theorem Loose.add (hout : Loose out.whole) (hp : Loose p)
    (hapart : Scan.run Mode.read .plain out.whole = some .escaped → ∀ c ∈ p.head?, Ordinary c) :
    Loose (out.add p).whole := by
  obtain ⟨kept, blanks, gap, lead, rest, hwhole, hpiece, hadd, hgap, hblanks, hlead, hcase⟩ :=
    out.whole_add p
  have hblank : Ordinary ' ' := by decide
  rw [hadd]
  rcases hcase with ⟨rfl, rfl⟩ | ⟨c, more, rfl, hc⟩
  · rw [List.append_nil] at hwhole
    rw [List.nil_append] at hpiece
    rw [hwhole] at hout hapart
    rw [hpiece] at hp hapart
    rcases hgap with rfl | rfl
    · rcases hout with hout | hout
      · exact hout.append_loose hp
      · cases rest with
        | nil => exact .inr (by rwa [List.nil_append, List.append_nil])
        | cons c more =>
          have hc : Ordinary c := hapart hout c rfl
          exact Loose.append_cons_loose (.inr hout) hc (hc.loose_cons_iff.mp hp)
    · exact hout.append_cons_loose hblank hp
  · -- the white space that a script mark takes away may have been escaped
    have hc : Ordinary c := ordinary_of_isScriptMark hc
    rw [hwhole] at hout
    rw [hpiece] at hp
    have hkept : Loose kept := hout.of_blanks hblanks
    have hrest : Loose (c :: more) := hp.of_lead hlead
    rcases hgap with rfl | rfl
    · exact hkept.append_cons_loose hc (hc.loose_cons_iff.mp hrest)
    · exact hkept.append_cons_loose hblank hrest

end Pieces

section Written

variable {texts : List (List Char)} {between : String}

/-- A separator that goes between texts even where one of them ends in a backslash. -/
def Separates (between : String) : Prop :=
  ∃ c more, between.toList = c :: more ∧ Ordinary c ∧ Tidy more

theorem loose_joined (h : ∀ p ∈ texts, Loose p) (hbetween : Separates between) :
    Loose (joined between texts) := by
  obtain ⟨c, more, hbetween, hc, hmore⟩ := hbetween
  induction texts with
  | nil => exact .inl rfl
  | cons p texts ih =>
    obtain ⟨hp, htexts⟩ := List.forall_mem_cons.mp h
    cases texts with
    | nil =>
      rw [joined_singleton]
      exact hp
    | cons q texts =>
      rw [joined_cons_cons, hbetween, ← List.append_assoc]
      exact (hp.append_cons hc hmore).append_loose (ih htexts)

theorem tidy_applied {function : String} (hfunction : Tidy function.toList)
    (h : ∀ p ∈ texts, Loose p) : Tidy (applied function texts) := by
  have hjoined : Loose (joined ", " texts) := loose_joined h ⟨',', [' '], rfl, by decide, by decide⟩
  rw [applied, List.append_assoc, List.cons_append, ← List.cons_append]
  exact hfunction.append hjoined.parenthesized

/-- What a matrix begins with. -/
def Delimiters.opening : Delimiters → List Char
  | .usual => "mat(".toList
  | .given text => ("mat(delim: " ++ text ++ ", ").toList

theorem tidy_opening : ∀ row ∈ matrices, Tidy row.2.opening := by
  decide

theorem mem_matrices_of_layout? {name : String} {delimiters : Delimiters}
    (h : layout? name = some (.matrix delimiters)) : (name, delimiters) ∈ matrices := by
  unfold layout? at h
  split at h
  next hlookup =>
    cases h
    exact mem_of_lookup hlookup
  next => split_ifs at h <;> cases h

theorem matrix_text (delimiters : Delimiters) (cells : List (List (List Char))) :
    (Layout.matrix delimiters).text cells = delimiters.opening ++ joined "; "
      ((cells.filter fun row => row.any fun cell => !cell.isEmpty).map (joined ", ")) ++ [')'] := by
  cases delimiters <;> rfl

theorem cases_text (cells : List (List (List Char))) :
    Layout.cases.text cells = "cases(".toList ++ joined ", "
      ((cells.filter fun row => row.any fun cell => !cell.isEmpty).map (joined " & ")) ++ [')'] :=
  rfl

theorem lines_text (cells : List (List (List Char))) :
    Layout.lines.text cells = joined " \\ "
      ((cells.filter fun row => row.any fun cell => !cell.isEmpty).map (joined " & ")) :=
  rfl

theorem loose_rows {cells : List (List (List Char))} {inner outer : String}
    (h : ∀ row ∈ cells, ∀ p ∈ row, Loose p) (hinner : Separates inner) (houter : Separates outer) :
    Loose (joined outer
      ((cells.filter fun row => row.any fun cell => !cell.isEmpty).map (joined inner))) := by
  refine loose_joined (fun p hp => ?_) houter
  obtain ⟨row, hrow, rfl⟩ := List.mem_map.mp hp
  exact loose_joined (h row (List.mem_filter.mp hrow).1) hinner

theorem loose_layoutText {layout : Layout} {name : String} (hlayout : layout? name = some layout)
    {cells : List (List (List Char))} (h : ∀ row ∈ cells, ∀ p ∈ row, Loose p) :
    Loose (layout.text cells) := by
  have hcomma : Separates ", " := ⟨',', [' '], rfl, by decide, by decide⟩
  have hsemicolon : Separates "; " := ⟨';', [' '], rfl, by decide, by decide⟩
  have hampersand : Separates " & " := ⟨' ', ['&', ' '], rfl, by decide, by decide⟩
  have hbreak : Separates " \\ " := ⟨' ', ['\\', ' '], rfl, by decide, by decide⟩
  have hend : Tidy [] := rfl
  cases layout with
  | matrix delimiters =>
    have hopening : Tidy delimiters.opening := tidy_opening _ (mem_matrices_of_layout? hlayout)
    rw [matrix_text]
    have hrows := hopening.append_loose (loose_rows h hcomma hsemicolon)
    exact (hrows.append_cons (by decide) hend).loose
  | cases =>
    have hopening : Tidy "cases(".toList := by decide
    have hrows := hopening.append_loose (loose_rows h hampersand hcomma)
    exact (hrows.append_cons (by decide) hend).loose
  | lines => exact loose_rows h hampersand hbreak

theorem ordinary_of_fuses {d : Char} (h : fuses c d = true) : Ordinary c := by
  refine ⟨?_, ?_, ?_⟩
  all_goals
    rintro rfl
    simp [fuses] at h

/-- The blanks that keep characters apart change nothing. -/
theorem run_separate (m : Mode) (p : List Char) :
    Scan.run Mode.read m (separate p) = Scan.run Mode.read m p := by
  fun_induction separate p generalizing m with
  | case1 c d rest hfuses ih =>
    have hc := (ordinary_of_fuses hfuses).read m
    have hblank := @Mode.read_blank ' ' m.settled rfl
    rw [Scan.run_cons, hc, Option.bind_some, Scan.run_cons, hblank, Option.bind_some,
      Mode.settled_settled, ih, @Scan.run_cons _ _ _ c, hc, Option.bind_some]
  | case2 c d rest _ ih =>
    rw [Scan.run_cons, @Scan.run_cons _ _ _ c]
    simp only [ih]
  | case3 p => rfl

/-- Characters without backslashes and dollar signs are written tidily. -/
theorem tidy_plain (hslash : '\\' ∉ p) (hdollar : '$' ∉ p) : Tidy (plain p) := by
  rw [plain, Tidy, run_separate]
  induction p with
  | nil => rfl
  | cons c p ih =>
    rw [List.mem_cons, not_or] at hslash hdollar
    have hmore := ih hslash.2 hdollar.2
    rw [List.flatMap_cons]
    split
    next hmarked =>
      rw [Scan.run_append_of_eq (tidy_escape c), hmore]
    next hmarked =>
      have hquote : c ≠ '"' := fun heq => by simp [heq] at hmarked
      have hc : Ordinary c := ⟨Ne.symm hdollar.1, Ne.symm hslash.1, hquote⟩
      rw [List.singleton_append, Scan.run_cons, hc.read, Option.bind_some, Mode.settled, hmore]

/-- Inside its marks, the text of a string is read as the string goes on. -/
theorem run_literalText (p : List Char) :
    Scan.run Mode.read .string (literalText p) = some .string := by
  induction p with
  | nil => rfl
  | cons c p ih =>
    rw [literalText, List.flatMap_cons, ← literalText]
    split
    next =>
      have hescape : Scan.run Mode.read .string ['\\', c] = some .string := by
        simp [Mode.read, Mode.next]
      rw [Scan.run_append_of_eq hescape, ih]
    next hmarked =>
      have hread : Mode.read .string c = some .string := by
        simp only [Bool.or_eq_true, beq_iff_eq, not_or] at hmarked
        simp [Mode.read, Mode.next, hmarked]
      rw [List.singleton_append, Scan.run_cons, hread, Option.bind_some, ih]

end Written

end Typeset.Math
