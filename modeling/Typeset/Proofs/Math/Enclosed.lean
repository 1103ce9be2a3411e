import Typeset.Proofs.Math.Apart
import Typeset.Proofs.Math.Delimiter

/-! The strings in the Typst form of a formula: where no backslash takes a quotation mark along,
their letters are read inside them. -/

namespace Typeset.Math

open Latex (Node Legible)
open Text (isAlphanumeric)

variable {g : Glyph} {m : Mode} {p q : List Glyph} {texts : List (List Glyph)} {cs : List Char}
  {arguments rest after : List Node} {text : List Char} {name : String} {out : Draft}

/-- Where the reading of math stands behind a text. -/
def Mode.behind (m : Mode) (cs : List Char) : Mode := cs.foldl Mode.next m

/-- Whether what is read next stands in a string. -/
def Mode.inString : Mode → Bool
  | .string => true
  | .stringEscaped => true
  | _ => false

/-- The letters and numerals of strings are read inside strings. -/
def Enclosed : Mode → List Glyph → Prop
  | _, [] => True
  | m, g :: rest =>
    (g.origin = .quoted → isAlphanumeric g.char = true → m.inString = true) ∧
      Enclosed (m.next g.char) rest

section Enclosed

@[simp] theorem behind_cons (m : Mode) (c : Char) (cs : List Char) :
    m.behind (c :: cs) = (m.next c).behind cs := rfl

theorem behind_of_run {m' : Mode} (h : Scan.run Mode.read m cs = some m') : m.behind cs = m' := by
  induction cs generalizing m with
  | nil => exact Option.some.inj h
  | cons c cs ih =>
    obtain ⟨t, ht, hrest⟩ := Option.bind_eq_some_iff.mp (Scan.run_cons.symm.trans h)
    rw [Mode.read] at ht
    split at ht
    · cases ht
    · cases ht
      exact ih hrest

theorem enclosed_append :
    Enclosed m (p ++ q) ↔ Enclosed m p ∧ Enclosed (m.behind (glyphText p)) q := by
  induction p generalizing m with
  | nil => exact ⟨fun h => ⟨trivial, h⟩, fun h => h.2⟩
  | cons g p ih =>
    rw [List.cons_append, Enclosed, Enclosed, ih, glyphText_cons, behind_cons, and_assoc]

theorem enclosed_of_free (h : ∀ g ∈ p, g.origin = .quoted → isAlphanumeric g.char = false)
    (m : Mode) : Enclosed m p := by
  induction p generalizing m with
  | nil => trivial
  | cons g p ih =>
    obtain ⟨hg, hp⟩ := List.forall_mem_cons.mp h
    refine ⟨fun hquoted halnum => ?_, ih hp _⟩
    rw [hg hquoted] at halnum
    cases halnum

theorem enclosed_filling (cs : List Char) (m : Mode) : Enclosed m (filling cs) := by
  refine enclosed_of_free (fun g hg hquoted => ?_) m
  obtain ⟨c, -, rfl⟩ := List.mem_map.mp hg
  cases hquoted

theorem Enclosed.append_tidy (hp : Enclosed .plain p) (htidy : Tidy (glyphText p))
    (hq : Enclosed .plain q) : Enclosed .plain (p ++ q) :=
  enclosed_append.mpr ⟨hp, by rwa [behind_of_run htidy]⟩

/-- A backslash takes along an ordinary character, and changes nothing else. -/
theorem Enclosed.escaped (h : Enclosed .plain p) (hhead : ∀ g ∈ p.head?, Ordinary g.char) :
    Enclosed .escaped p := by
  cases p with
  | nil => trivial
  | cons g p =>
    obtain ⟨-, hslash, hquote⟩ := hhead g rfl
    have hnext : Mode.next .plain g.char = Mode.next .escaped g.char := by
      simp [Mode.next, hslash, hquote]
    exact ⟨h.1, hnext ▸ h.2⟩

theorem Enclosed.append_apart (hp : Enclosed .plain p) (hloose : Loose (glyphText p))
    (hq : Enclosed .plain q) (hhead : ∀ g ∈ q.head?, Ordinary g.char) :
    Enclosed .plain (p ++ q) := by
  rcases hloose with htidy | hescaped
  · exact hp.append_tidy htidy hq
  · exact enclosed_append.mpr ⟨hp, by rw [behind_of_run hescaped]; exact hq.escaped hhead⟩

theorem enclosed_blank (hg : g.isBlank = true) :
    Enclosed m (g :: p) ↔ Enclosed m.settled p := by
  rw [Enclosed, m.next_blank hg]
  refine ⟨And.right, fun h => ⟨fun _ halnum => ?_, h⟩⟩
  rw [isAlphanumeric_of_isBlank hg] at halnum
  cases halnum

theorem tidy_of_blank (h : ∀ g ∈ p, g.isBlank = true) : Tidy (glyphText p) := by
  refine tidy_blanks fun c hc => ?_
  obtain ⟨g, hg, rfl⟩ := List.mem_map.mp hc
  exact h g hg

theorem Enclosed.of_lead (h : Enclosed .plain (p ++ q)) (hp : ∀ g ∈ p, g.isBlank = true) :
    Enclosed .plain q := by
  have hq := (enclosed_append.mp h).2
  rwa [behind_of_run (tidy_of_blank hp)] at hq

theorem Enclosed.trim (h : Enclosed .plain p) : Enclosed .plain (trimGlyphs p) := by
  obtain ⟨lead, blanks, hp, hlead, -⟩ := exists_trimGlyphs p
  rw [hp] at h
  exact (enclosed_append.mp (h.of_lead hlead)).1

theorem Enclosed.squeeze (h : Enclosed m p) : Enclosed m (squeezeGlyphs p) := by
  induction p generalizing m with
  | nil => trivial
  | cons g p ih =>
    rw [squeezeGlyphs]
    split
    next hg =>
      have hp := ih ((enclosed_blank hg).mp h)
      split
      next hhead =>
        -- the blank that is already there leads where this one does
        obtain ⟨y, more, hsqueezed, hblank⟩ := exists_blank_squeezeGlyphs hhead
        rw [hsqueezed, enclosed_blank hblank, Mode.settled_settled] at hp
        rw [hsqueezed]
        exact (enclosed_blank hblank).mpr hp
      next => exact (enclosed_blank rfl).mpr hp
    next => exact ⟨h.1, ih h.2⟩

theorem enclosed_gap (h : Enclosed .plain p) : Enclosed .plain (filling [' '] ++ p) :=
  (enclosed_filling [' '] .plain).append_tidy rfl h

theorem Enclosed.add {piece : List Glyph} (hloose : Loose out.pieces.whole)
    (h : Enclosed .plain out.whole) (hpiece : Enclosed .plain piece)
    (hapart : Scan.run Mode.read .plain out.pieces.whole = some .escaped →
      ∀ c ∈ (glyphText piece).head?, Ordinary c) :
    Enclosed .plain (out.add piece).whole := by
  obtain ⟨kept, blanks, gap, lead, rest, hseam⟩ := out.exists_seam piece
  rw [← glyphText_whole, hseam.before_eq, glyphText_append] at hloose hapart
  rw [hseam.before_eq] at h
  rw [hseam.piece_eq] at hpiece hapart
  have hkept := (enclosed_append.mp h).1
  have hkeptLoose : Loose (glyphText kept) := by
    refine hloose.of_blanks fun c hc => ?_
    obtain ⟨g, hg, rfl⟩ := List.mem_map.mp hc
    exact hseam.blank_behind g hg
  have hrest := hpiece.of_lead hseam.blank_ahead
  rw [hseam.whole_eq]
  rcases hseam.apart with rfl | ⟨rfl, -⟩
  · refine hkept.append_apart hkeptLoose (enclosed_gap hrest) ?_
    rintro _ ⟨⟩
    exact ordinary_of_isBlank rfl
  rw [List.nil_append]
  rcases hseam.mark with ⟨rfl, rfl⟩ | ⟨g, more, rfl, hmark⟩
  · rw [glyphText_nil, List.append_nil, List.nil_append] at hapart
    rcases hkeptLoose with htidy | hescaped
    · exact hkept.append_tidy htidy hrest
    · refine hkept.append_apart (.inr hescaped) hrest fun g hg => ?_
      have hchar : g.char ∈ (glyphText rest).head? := by
        rw [glyphText, List.head?_map, hg]
        rfl
      exact hapart hescaped g.char hchar
  · refine hkept.append_apart hkeptLoose hrest ?_
    rintro _ ⟨⟩
    exact ordinary_of_isScriptMark hmark

end Enclosed

section Put

theorem Enclosed.parenthesized (h : Enclosed .plain p) :
    Enclosed .plain (filling ['('] ++ p ++ filling [')']) :=
  enclosed_append.mpr
    ⟨(enclosed_filling ['('] .plain).append_tidy rfl h, enclosed_filling [')'] _⟩

theorem Enclosed.operandGlyphs (h : Enclosed .plain p) (out : Draft) :
    Enclosed .plain (out.operandGlyphs p) := by
  rcases out.operandGlyphs_cases p with heq | heq | heq <;> rw [heq]
  · exact h
  · exact h.trim
  · exact h.trim.parenthesized

theorem enclosed_joined {between : String} (h : ∀ p ∈ texts, Enclosed .plain p)
    (hloose : ∀ p ∈ texts, Loose (glyphText p)) (hbetween : Separates between) :
    Enclosed .plain (joinedGlyphs between texts) := by
  obtain ⟨c, more, hcs, hc, hmore⟩ := hbetween
  have hsign : Tidy (glyphText (filling between.toList)) := by
    rw [glyphText_filling, hcs]
    exact hc.tidy_cons_iff.mpr hmore
  have hhead (q : List Glyph) : ∀ g ∈ (filling between.toList ++ q).head?, Ordinary g.char := by
    rw [hcs]
    rintro _ ⟨⟩
    exact hc
  induction texts with
  | nil => trivial
  | cons p texts ih =>
    obtain ⟨hp, htexts⟩ := List.forall_mem_cons.mp h
    obtain ⟨hpLoose, htextsLoose⟩ := List.forall_mem_cons.mp hloose
    cases texts with
    | nil => rwa [joinedGlyphs_singleton]
    | cons q texts =>
      rw [joinedGlyphs_cons_cons]
      exact hp.append_apart hpLoose
        ((enclosed_filling _ .plain).append_tidy hsign (ih htexts htextsLoose)) (hhead _)

theorem quoted_free_nameFrom (word : List Char) (place : Nat) (cs : List Char) :
    ∀ g ∈ nameFrom word place cs, g.origin ≠ .quoted := by
  induction cs generalizing place with
  | nil => simp [nameFrom]
  | cons c cs ih =>
    rw [nameFrom, List.forall_mem_cons]
    exact ⟨by rintro ⟨⟩, ih (place + 1)⟩

theorem enclosed_callGlyphs (word : List Char) (m : Mode) : Enclosed m (callGlyphs word) := by
  refine enclosed_of_free (fun g hg hquoted => ?_) m
  rcases List.mem_append.mp hg with hg | hg
  · exact absurd hquoted (quoted_free_nameFrom word 0 word g hg)
  · rw [List.mem_singleton.mp hg]
    decide

theorem enclosed_dataGlyphs (text : List Char) (m : Mode) : Enclosed m (dataGlyphs text) := by
  induction text generalizing m with
  | nil => trivial
  | cons c rest ih =>
    rw [dataGlyphs]
    refine enclosed_append.mpr ⟨?_, by rintro ⟨⟩, enclosed_append.mpr ⟨enclosed_filling _ _, ih _⟩⟩
    split
    · exact enclosed_filling ['\\'] m
    · trivial

theorem enclosed_opening : ∀ row ∈ matrices, ∀ g ∈ openingGlyphs row.2,
    g.origin = .quoted → isAlphanumeric g.char = false := by
  decide

/-- The text of a string, read from inside it. -/
theorem enclosed_literalText (cs : List Char) :
    Enclosed .string (quotedGlyphs (literalText cs)) := by
  induction cs with
  | nil => trivial
  | cons c cs ih =>
    rw [literalText, List.flatMap_cons, ← literalText, quotedGlyphs, List.map_append]
    split
    next => exact ⟨fun _ _ => rfl, fun _ _ => rfl, ih⟩
    next hmarked =>
      have hnext : Mode.next .string c = .string := by
        simp only [Bool.or_eq_true, beq_iff_eq, not_or] at hmarked
        simp [Mode.next, hmarked]
      refine ⟨fun _ _ => rfl, ?_⟩
      change Enclosed (Mode.next .string c) (quotedGlyphs (literalText cs))
      rwa [hnext]

/-- A string between marks of its own. -/
theorem enclosed_literal (before behind : List Char)
    (hbefore : Scan.run Mode.read .plain before = some .string)
    (hbeforeFree : before.any isAlphanumeric = false)
    (hbehindFree : behind.any isAlphanumeric = false) (cs : List Char) :
    Enclosed .plain (quotedGlyphs (before ++ literalText cs ++ behind)) := by
  have hfree {marks : List Char} (hmarks : marks.any isAlphanumeric = false) (m : Mode) :
      Enclosed m (quotedGlyphs marks) := by
    refine enclosed_of_free (fun g hg _ => ?_) m
    obtain ⟨c, hc, rfl⟩ := List.mem_map.mp hg
    exact Bool.eq_false_iff.mpr (List.any_eq_false.mp hmarks c hc)
  rw [quotedGlyphs, List.map_append, List.map_append]
  refine enclosed_append.mpr ⟨enclosed_append.mpr ⟨hfree hbeforeFree _, ?_⟩, hfree hbehindFree _⟩
  rw [← quotedGlyphs, glyphText_quoted, behind_of_run hbefore]
  exact enclosed_literalText cs

theorem enclosed_readyGlyphs (h : form name arguments rest = .ok (.ready text, after)) :
    Enclosed .plain (readyGlyphs name text) := by
  have hstands := stands_readyGlyphs h
  generalize readyGlyphs name text = glyphs at hstands ⊢
  cases hstands with
  | nothing => trivial
  | @name word hrole =>
    refine enclosed_append.mpr ⟨enclosed_gap (enclosed_of_free (fun g hg hquoted => ?_) _),
      enclosed_filling _ _⟩
    exact absurd hquoted (quoted_free_nameFrom word.toList 0 _ g hg)
  | string cs => exact enclosed_literal _ _ (by decide) (by decide) (by decide) cs
  | operator cs =>
    have hcall : Enclosed .plain (callGlyphs "op".toList) := enclosed_callGlyphs _ _
    refine hcall.append_tidy (by decide) ?_
    exact enclosed_literal "\"".toList "\")".toList (by decide) (by decide) (by decide) cs

theorem enclosed_call (word : List Char) (hword : Tidy (word ++ ['('])) (h : Enclosed .plain p) :
    Enclosed .plain (callGlyphs word ++ p ++ filling [')']) :=
  enclosed_append.mpr
    ⟨(enclosed_callGlyphs word .plain).append_tidy (by rwa [glyphText_callGlyphs]) h,
      enclosed_filling _ _⟩

theorem enclosed_layoutGlyphs {layout : Layout} {cells : List (List (List Glyph))}
    (hlayout : layout? name = some layout)
    (h : ∀ row ∈ cells, ∀ cell ∈ row, Enclosed .plain cell)
    (hloose : ∀ row ∈ cells, ∀ cell ∈ row, Loose (glyphText cell)) :
    Enclosed .plain (layoutGlyphs layout cells) := by
  have hcomma : Separates ", " := ⟨',', [' '], rfl, by decide, by decide⟩
  have hsemicolon : Separates "; " := ⟨';', [' '], rfl, by decide, by decide⟩
  have hampersand : Separates " & " := ⟨' ', ['&', ' '], rfl, by decide, by decide⟩
  have hbreak : Separates " \\ " := ⟨' ', ['\\', ' '], rfl, by decide, by decide⟩
  have hrows {inner outer : String} (hinner : Separates inner) (houter : Separates outer) :
      Enclosed .plain (joinedGlyphs outer ((cells.filter fun row =>
        row.any fun cell => !cell.isEmpty).map (joinedGlyphs inner))) := by
    refine enclosed_joined (fun p hp => ?_) (fun p hp => ?_) houter
    · obtain ⟨row, hrow, rfl⟩ := List.mem_map.mp hp
      have hmem := (List.mem_filter.mp hrow).1
      exact enclosed_joined (h row hmem) (hloose row hmem) hinner
    · obtain ⟨row, hrow, rfl⟩ := List.mem_map.mp hp
      rw [glyphText_joinedGlyphs]
      refine loose_joined (fun q hq => ?_) hinner
      obtain ⟨cell, hcell, rfl⟩ := List.mem_map.mp hq
      exact hloose row (List.mem_filter.mp hrow).1 cell hcell
  cases layout with
  | matrix delimiters =>
    have hrow := mem_matrices_of_layout? hlayout
    have hopening : Tidy (glyphText (openingGlyphs delimiters)) := by
      rw [glyphText_openingGlyphs _ hrow]
      exact tidy_opening _ hrow
    refine enclosed_append.mpr ⟨?_, enclosed_filling _ _⟩
    exact (enclosed_of_free (enclosed_opening _ hrow) .plain).append_tidy hopening
      (hrows hcomma hsemicolon)
  | cases => exact enclosed_call _ (by decide) (hrows hampersand hcomma)
  | lines => exact hrows hampersand hbreak

/-- A place that can be read as math, where the nodes are as the parser makes them. -/
def Meant (place : List Node) (held : Pieces) : Prop :=
  (∀ n ∈ place, Legible n) ∧ Sound place held

/-- Strings are put down so that they are read as strings, and stay so at every step of the
writer. -/
theorem kept_enclosed :
    Kept Meant (fun out => Loose out.pieces.whole ∧ Enclosed .plain out.whole)
      fun glyphs => Loose (glyphText glyphs) ∧ Enclosed .plain glyphs where
  empty := ⟨.inl rfl, trivial⟩
  text {out} hout := by
    rw [glyphText_text]
    exact ⟨hout.1.text, hout.2.squeeze.trim⟩
  add {place move after out piece} hplace hturn htext hout hpiece := by
    have hapart (hescaped : Scan.run Mode.read .plain out.pieces.whole = some .escaped) :
        ∀ c ∈ (glyphText piece).head?, Ordinary c := by
      rw [htext]
      exact hplace.2.apart move after hturn hescaped
    rw [pieces_add]
    exact ⟨hout.1.add hpiece.1 hapart, hout.2.add hout.1 hpiece.2 hapart⟩
  operand {out piece} hpiece := by
    rw [glyphText_operandGlyphs]
    exact ⟨hpiece.1.operandText _, hpiece.2.operandGlyphs _⟩
  data {text rest held} hplace := by
    rw [glyphText_dataGlyphs]
    cases (List.forall_mem_cons.mp hplace.1).1 with
    | chars hslash =>
      exact ⟨(tidy_plain hslash (hplace.2.chars text rest rfl)).loose, enclosed_dataGlyphs _ _⟩
  special source hsource := by
    rw [glyphText_filling]
    exact ⟨(tidy_specials source hsource).loose, enclosed_filling _ _⟩
  ready {name source text arguments rest after held} hplace hform := by
    rw [glyphText_readyGlyphs hform]
    cases (List.forall_mem_cons.mp hplace.1).1 with
    | command _ hname _ =>
      have hquote : name ≠ "\"" := by
        rintro rfl
        exact hplace.2.command source arguments rest rfl
      exact ⟨(tidy_ready hname hquote hform).loose, enclosed_readyGlyphs hform⟩
  applied {function texts} hfunction htexts := by
    have hword := tidy_functions _ hfunction
    have hloose : ∀ p ∈ texts.map glyphText, Loose p := by
      intro p hp
      obtain ⟨text, htext, rfl⟩ := List.mem_map.mp hp
      exact (htexts text htext).1
    have hjoined : Enclosed .plain (joinedGlyphs ", " texts) :=
      enclosed_joined (fun p hp => (htexts p hp).2) (fun p hp => (htexts p hp).1)
        ⟨',', [' '], rfl, by decide, by decide⟩
    rw [glyphText_appliedGlyphs]
    exact ⟨(tidy_applied hword hloose).loose, enclosed_call _ (hword.append rfl) hjoined⟩
  layout {name layout cells} hlayout hcells := by
    rw [glyphText_layoutGlyphs hlayout]
    refine ⟨loose_layoutText hlayout fun row hrow p hp => ?_, enclosed_layoutGlyphs hlayout
      (fun row hrow cell hcell => (hcells row hrow cell hcell).2)
      fun row hrow cell hcell => (hcells row hrow cell hcell).1⟩
    obtain ⟨cells', hmem, rfl⟩ := List.mem_map.mp hrow
    obtain ⟨cell, hcell, rfl⟩ := List.mem_map.mp hp
    exact (hcells cells' hmem cell hcell).1

end Put

end Typeset.Math
