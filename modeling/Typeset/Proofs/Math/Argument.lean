import Typeset.Math.Writer
import Typeset.Proofs.Math.Spacing
import Typeset.Proofs.Text.Scan

/-! The arguments of a call as Typst reads them: up to commas and semicolons that stand in no
parentheses of their own, are not escaped and are in no string. -/

namespace Typeset.Math

open Text (isBlank)

variable {s t : Mode × Nat} {c sign : Char} {held p rest : List Char}
  {rows : List (List (List Char))} {parts : List (List Char × Char)}

/-- One character inside a call, by how the reading stands and how many parentheses are open; none
where the character is a sign that ends an argument. -/
def step : Mode × Nat → Char → Option (Mode × Nat)
  | (.plain, depth), c =>
    if c = '(' then some (.plain, depth + 1)
    else if c = ')' then if depth = 0 then none else some (.plain, depth - 1)
    else if (c = ',' ∨ c = ';') ∧ depth = 0 then none
    else some (Mode.plain.next c, depth)
  | (mode, depth), c => some (mode.next c, depth)

/-- Where the reading of an argument begins. -/
def start : Mode × Nat := (.plain, 0)

/-- The characters of a text that are not white space. -/
def solid (cs : List Char) : List Char := cs.filter fun c => !isBlank c

/-- The arguments that are read, each with the sign that ends it, and what stands behind the
parenthesis that closes the call; or what no sign ends. White space is left out. -/
def argumentsFrom (s : Mode × Nat) (held : List Char) :
    List Char → List (List Char × Char) × List Char
  | [] => ([], held)
  | c :: rest =>
    match step s c with
    | some t => argumentsFrom t (if isBlank c then held else held ++ [c]) rest
    | none =>
      if c = ')' then ([(held, c)], solid rest)
      else ((held, c) :: (argumentsFrom start [] rest).1, (argumentsFrom start [] rest).2)

/-- The arguments of a call, read from behind its opening parenthesis. -/
def arguments (cs : List Char) : List (List Char × Char) × List Char := argumentsFrom start [] cs

/-- A text that is one argument wherever it stands: no sign ends it inside, and it closes what it
opens. -/
def Whole (p : List Char) : Prop := Scan.run step start p = some start

instance : DecidablePred Whole := fun _ => inferInstanceAs (Decidable (_ = some start))

section Step

theorem step_blank (s : Mode × Nat) (h : isBlank c = true) :
    step s c = some (s.1.settled, s.2) := by
  obtain ⟨m, depth⟩ := s
  have hopen : c ≠ '(' := ne_of_isBlank h rfl
  have hclose : c ≠ ')' := ne_of_isBlank h rfl
  have hcomma : c ≠ ',' := ne_of_isBlank h rfl
  have hsemicolon : c ≠ ';' := ne_of_isBlank h rfl
  cases m <;> simp [step, hopen, hclose, hcomma, hsemicolon, Mode.next_blank _ h]

theorem solid_of_step (h : step s c = none) : isBlank c = false := by
  by_contra hc
  rw [step_blank s (by simpa using hc)] at h
  cases h

/-- The signs that end an argument. -/
def IsSign (sign : Char) : Prop := sign = ',' ∨ sign = ';' ∨ sign = ')'

theorem step_start (h : IsSign sign) : step start sign = none := by
  rcases h with rfl | rfl | rfl <;> rfl

/-- Inside parentheses, a string or behind a backslash no sign ends an argument. -/
theorem exists_step (h : IsSign sign) (hs : s ≠ start) : ∃ t, step s sign = some t := by
  obtain ⟨_ | _ | _ | _, depth⟩ := s
  · cases depth with
    | zero => exact absurd rfl hs
    | succ depth => rcases h with rfl | rfl | rfl <;> exact ⟨_, rfl⟩
  all_goals exact ⟨_, rfl⟩

end Step

section Arguments

theorem solid_append (p q : List Char) : solid (p ++ q) = solid p ++ solid q :=
  List.filter_append p q

theorem solid_cons_of_solid (h : isBlank c = false) (p : List Char) :
    solid (c :: p) = c :: solid p := List.filter_cons_of_pos (by simp [h])

theorem argumentsFrom_of_some (h : step s c = some t) :
    argumentsFrom s held (c :: rest) =
      argumentsFrom t (held ++ solid [c]) rest := by
  rw [argumentsFrom, h]
  cases hc : isBlank c <;> simp [solid, hc]

theorem argumentsFrom_of_run (h : Scan.run step s p = some t) :
    argumentsFrom s held (p ++ rest) = argumentsFrom t (held ++ solid p) rest := by
  induction p generalizing s held with
  | nil =>
    cases h
    rw [solid, List.filter_nil, List.append_nil, List.nil_append]
  | cons c p ih =>
    rw [Scan.run_cons] at h
    obtain ⟨u, hu, h⟩ := Option.bind_eq_some_iff.mp h
    rw [List.cons_append, argumentsFrom_of_some hu, ih h, List.append_assoc, ← solid_append,
      List.singleton_append]

/-- The first argument goes on from what is held. -/
theorem held_isPrefix {first : List Char × Char}
    (h : (argumentsFrom s held p).1.head? = some first) : held <+: first.1 := by
  induction p generalizing s held with
  | nil => cases h
  | cons c p ih =>
    cases hs : step s c with
    | some t =>
      rw [argumentsFrom_of_some hs] at h
      exact (List.prefix_append held _).trans (ih h)
    | none =>
      rw [argumentsFrom, hs] at h
      dsimp only at h
      split at h <;> cases h <;> exact List.prefix_rfl

theorem argumentsFrom_blank (h : isBlank c = true) :
    argumentsFrom s held (c :: rest) = argumentsFrom (s.1.settled, s.2) held rest := by
  rw [argumentsFrom_of_some (step_blank s h), solid, List.filter_cons_of_neg (by simp [h]),
    List.filter_nil, List.append_nil]

theorem solid_squeeze (p : List Char) : solid (squeeze p) = solid p := by
  induction p with
  | nil => rfl
  | cons c p ih =>
    cases hc : isBlank c with
    | false => rw [squeeze_cons_of_solid hc, solid_cons_of_solid hc, solid_cons_of_solid hc, ih]
    | true =>
      have hskip : solid (c :: p) = solid p := List.filter_cons_of_neg (by simp [hc])
      rw [squeeze_cons_of_blank hc, hskip]
      split
      · exact ih
      · exact ih

/-- How much white space stands in a place makes no difference. -/
theorem argumentsFrom_squeeze (rest : List Char) :
    argumentsFrom s held (squeeze p ++ rest) = argumentsFrom s held (p ++ rest) := by
  induction p generalizing s held with
  | nil => rfl
  | cons c p ih =>
    cases hc : isBlank c with
    | false =>
      rw [squeeze_cons_of_solid hc, List.cons_append, List.cons_append]
      cases hs : step s c with
      | some t => rw [argumentsFrom_of_some hs, argumentsFrom_of_some hs, ih]
      | none =>
        rw [argumentsFrom, argumentsFrom, hs, solid_append, solid_squeeze, ← solid_append, ih]
    | true =>
      have hblank : isBlank ' ' = true := rfl
      rw [List.cons_append, argumentsFrom_blank hc, squeeze_cons_of_blank hc]
      split
      next hhead =>
        obtain ⟨more, hmore⟩ := List.head?_eq_some_iff.mp hhead
        rw [← ih, hmore, List.cons_append, argumentsFrom_blank hblank, argumentsFrom_blank hblank,
          Mode.settled_settled]
      next => rw [List.cons_append, argumentsFrom_blank hblank, ih]

theorem arguments_squeeze (p rest : List Char) :
    arguments (squeeze p ++ rest) = arguments (p ++ rest) :=
  argumentsFrom_squeeze rest

end Arguments

/-- Texts with the signs that end them: a parenthesis ends the last one, and only it. -/
inductive Signed : List (List Char × Char) → Prop
  | last (p : List Char) : Signed [(p, ')')]
  | more (p : List Char) {sign : Char} {parts : List (List Char × Char)}
    (hsign : sign = ',' ∨ sign = ';') (h : Signed parts) : Signed ((p, sign) :: parts)

/-- The texts with their signs, as one text. -/
def laid : List (List Char × Char) → List Char
  | [] => []
  | [(p, sign)] => p ++ [sign]
  | (p, sign) :: more => p ++ sign :: ' ' :: laid more

section Laid

theorem whole_of_first (hsign : IsSign sign)
    (hfirst : (arguments (p ++ sign :: rest)).1.head? = some (solid p, c)) : Whole p := by
  have hsolid : isBlank sign = false := solid_of_step (step_start hsign)
  cases hrun : Scan.run step start p with
  | some t =>
    by_cases ht : t = start
    · rw [Whole, hrun, ht]
    · -- the sign is part of the argument, which is longer than the text
      obtain ⟨u, hu⟩ := exists_step hsign ht
      rw [arguments, argumentsFrom_of_run hrun, argumentsFrom_of_some hu,
        solid_cons_of_solid hsolid] at hfirst
      have hlength := (held_isPrefix hfirst).length_le
      simp only [List.nil_append, List.length_append, List.length_cons] at hlength
      omega
  | none =>
    -- a sign inside the text ends the argument, which is shorter than the text
    obtain ⟨before, d, after, t, rfl, hbefore, hstop⟩ := Scan.exists_of_run_none hrun
    have hd := solid_of_step hstop
    rw [arguments, List.append_assoc, argumentsFrom_of_run hbefore, List.cons_append,
      argumentsFrom, hstop] at hfirst
    have hsame : solid before = solid (before ++ d :: after) := by
      dsimp only at hfirst
      split at hfirst <;> exact (Prod.mk.inj (Option.some.inj hfirst)).1
    have hlength := congrArg List.length hsame
    rw [solid_append, solid_cons_of_solid hd] at hlength
    simp at hlength

theorem arguments_last (h : Whole p) (rest : List Char) :
    arguments (p ++ ')' :: rest) = ([(solid p, ')')], solid rest) := by
  rw [arguments, argumentsFrom_of_run h]
  rfl

theorem arguments_more (h : Whole p) (hsign : sign = ',' ∨ sign = ';') (rest : List Char) :
    arguments (p ++ sign :: ' ' :: rest) =
      ((solid p, sign) :: (arguments rest).1, (arguments rest).2) := by
  have hstop : step start sign = none := step_start (hsign.imp_right .inl)
  have hclose : sign ≠ ')' := by rcases hsign with rfl | rfl <;> decide
  have hblank : isBlank ' ' = true := rfl
  rw [arguments, argumentsFrom_of_run h, argumentsFrom, hstop]
  dsimp only
  rw [if_neg hclose, argumentsFrom_blank hblank]
  rfl

theorem Signed.laid_cons {q : List Char} (h : Signed parts) :
    laid ((q, sign) :: parts) = q ++ sign :: ' ' :: laid parts := by
  cases h <;> rfl

/-- Each text is one argument exactly if all of them are whole. -/
theorem arguments_laid_iff (h : Signed parts) (rest : List Char) :
    arguments (laid parts ++ rest) = (parts.map fun part => (solid part.1, part.2), solid rest) ↔
      ∀ part ∈ parts, Whole part.1 := by
  induction h with
  | last p =>
    rw [List.forall_mem_singleton, laid, List.append_assoc, List.singleton_append]
    refine ⟨fun heq => ?_, fun hp => arguments_last hp rest⟩
    exact whole_of_first (.inr (.inr rfl)) (by rw [heq]; rfl)
  | @more p sign parts hsign h ih =>
    rw [List.forall_mem_cons, h.laid_cons, List.append_assoc, List.cons_append, List.cons_append]
    constructor
    · intro heq
      have hp : Whole p := whole_of_first (hsign.imp_right .inl) (by rw [heq]; rfl)
      rw [arguments_more hp hsign, List.map_cons, Prod.mk.injEq, List.cons.injEq] at heq
      exact ⟨hp, ih.mp (Prod.ext heq.1.2 heq.2)⟩
    · rintro ⟨hp, hmore⟩
      rw [arguments_more hp hsign, ih.mpr hmore]
      rfl

end Laid

section Rows

/-- The texts of a row, with commas between them. A row without any is one text with nothing in
it. -/
def signedRow (last : Char) : List (List Char) → List (List Char × Char)
  | [] => [([], last)]
  | [p] => [(p, last)]
  | p :: more => (p, ',') :: signedRow last more

/-- Rows of texts, with semicolons between the rows. -/
def signed : List (List (List Char)) → List (List Char × Char)
  | [] => [([], ')')]
  | [row] => signedRow ')' row
  | row :: more => signedRow ';' row ++ signed more

theorem signed_lastRow (row : List (List Char)) : Signed (signedRow ')' row) := by
  fun_induction signedRow ')' row with
  | case1 => exact .last []
  | case2 p => exact .last p
  | case3 p more _ ih => exact .more p (.inl rfl) ih

theorem Signed.row (h : Signed parts) (row : List (List Char)) :
    Signed (signedRow ';' row ++ parts) := by
  fun_induction signedRow ';' row with
  | case1 => exact .more [] (.inr rfl) h
  | case2 p => exact .more p (.inr rfl) h
  | case3 p more _ ih => exact .more p (.inl rfl) ih

theorem signed_rows (rows : List (List (List Char))) : Signed (signed rows) := by
  fun_induction signed rows with
  | case1 => exact .last []
  | case2 row => exact signed_lastRow row
  | case3 row more _ ih => exact ih.row row

theorem laid_lastRow (row : List (List Char)) :
    laid (signedRow ')' row) = joined ", " row ++ [')'] := by
  fun_induction signedRow ')' row with
  | case1 => rfl
  | case2 p => rw [laid, joined_singleton]
  | case3 p more hmore ih =>
    obtain ⟨q, more, rfl⟩ := List.exists_cons_of_ne_nil hmore
    rw [(signed_lastRow (q :: more)).laid_cons, ih, joined_cons_cons]
    simp

theorem laid_row (h : Signed parts) (row : List (List Char)) :
    laid (signedRow ';' row ++ parts) = joined ", " row ++ ("; ".toList ++ laid parts) := by
  fun_induction signedRow ';' row with
  | case1 =>
    rw [List.singleton_append, h.laid_cons]
    rfl
  | case2 p =>
    rw [List.singleton_append, h.laid_cons, joined_singleton]
    rfl
  | case3 p more hmore ih =>
    obtain ⟨q, more, rfl⟩ := List.exists_cons_of_ne_nil hmore
    rw [List.cons_append, (h.row (q :: more)).laid_cons, ih, joined_cons_cons]
    simp

/-- Rows as they are written are their texts with their signs. -/
theorem laid_signed (rows : List (List (List Char))) :
    laid (signed rows) = joined "; " (rows.map (joined ", ")) ++ [')'] := by
  fun_induction signed rows with
  | case1 => rfl
  | case2 row => rw [laid_lastRow, List.map_singleton, joined_singleton]
  | case3 row more hmore ih =>
    obtain ⟨next, more, rfl⟩ := List.exists_cons_of_ne_nil hmore
    rw [laid_row (signed_rows (next :: more)), ih]
    simp only [List.map_cons, joined_cons_cons, List.append_assoc]

end Rows

end Typeset.Math
