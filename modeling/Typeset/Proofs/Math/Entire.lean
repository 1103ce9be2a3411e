import Typeset.Proofs.Math.Apart

/-! Names in the Typst form of a formula. -/

namespace Typeset.Math

/-! Properties of names that hold of the whole Typst form of a formula as soon as they hold of each
name in it, since nothing else is made of names. -/

section Assembly

open Latex (Node)

variable {p : List Glyph} {texts : List (List Glyph)} {word text : List Char}
  {name : String} {arguments rest after : List Node} {out : Draft} {P : List Glyph → Prop}

/-- The names that are not the name of a command: functions, and what matrices and cases need. -/
def keywords : List String := functions.map Prod.fst ++ ["mat", "delim", "none", "cases"]

/-- A glyph that is no character of a name. -/
def Glyph.Nameless (g : Glyph) : Prop := ∀ word place, g.origin ≠ .name word place

/-- A property that is kept where texts are put together and where white space is left out, and
holds of the names that are no command's and of what has no name in it. -/
structure Assembles (P : List Glyph → Prop) : Prop where
  nameless : ∀ {p}, (∀ g ∈ p, g.Nameless) → P p
  keyword : ∀ {keyword}, keyword ∈ keywords → P (nameGlyphs keyword.toList)
  append : ∀ {p q}, P p → P q → P (p ++ q)
  of_blanks : ∀ {p blanks}, P (p ++ blanks) → (∀ g ∈ blanks, g.isBlank = true) → P p
  of_lead : ∀ {lead p}, P (lead ++ p) → (∀ g ∈ lead, g.isBlank = true) → P p
  squeeze : ∀ {p}, P p → P (squeezeGlyphs p)

section Nameless

theorem nameless_filling (cs : List Char) : ∀ g ∈ filling cs, g.Nameless := by
  intro g hg
  obtain ⟨c, -, rfl⟩ := List.mem_map.mp hg
  rintro _ _ ⟨⟩

theorem nameless_quoted (cs : List Char) : ∀ g ∈ quotedGlyphs cs, g.Nameless := by
  intro g hg
  obtain ⟨c, -, rfl⟩ := List.mem_map.mp hg
  rintro _ _ ⟨⟩

theorem nameless_dataGlyphs (text : List Char) : ∀ g ∈ dataGlyphs text, g.Nameless := by
  induction text with
  | nil => simp [dataGlyphs]
  | cons c rest ih =>
    rw [dataGlyphs, List.forall_mem_append, List.forall_mem_cons, List.forall_mem_append]
    refine ⟨?_, by rintro _ _ ⟨⟩, nameless_filling _, ih⟩
    split
    · exact nameless_filling ['\\']
    · simp

theorem keyword_of_functions {function : String} {count : Nat} (h : (function, count) ∈ functions) :
    function ∈ keywords :=
  List.mem_append_left _ (List.mem_map_of_mem h)

end Nameless

namespace Assembles

theorem filling (h : Assembles P) (cs : List Char) : P (filling cs) :=
  h.nameless (nameless_filling cs)

theorem quoted (h : Assembles P) (cs : List Char) : P (quotedGlyphs cs) :=
  h.nameless (nameless_quoted cs)

theorem call (h : Assembles P) (hword : P (nameGlyphs word)) : P (callGlyphs word) := by
  refine h.append hword (h.nameless ?_)
  rw [List.forall_mem_singleton]
  rintro _ _ ⟨⟩

theorem joined (h : Assembles P) (between : String) (htexts : ∀ p ∈ texts, P p) :
    P (joinedGlyphs between texts) := by
  induction texts with
  | nil => exact h.filling []
  | cons p texts ih =>
    obtain ⟨hp, hrest⟩ := List.forall_mem_cons.mp htexts
    cases texts with
    | nil => rwa [joinedGlyphs_singleton]
    | cons q texts =>
      rw [joinedGlyphs_cons_cons]
      exact h.append hp (h.append (h.filling _) (ih hrest))

theorem called (h : Assembles P) {keyword : String} (hkeyword : keyword ∈ keywords) (hp : P p) :
    P (callGlyphs keyword.toList ++ p ++ Math.filling [')']) :=
  h.append (h.append (h.call (h.keyword hkeyword)) hp) (h.filling _)

theorem opening (h : Assembles P) (delimiters : Delimiters) : P (openingGlyphs delimiters) := by
  have hmat : P (callGlyphs "mat".toList) := h.call (h.keyword (by decide))
  cases delimiters with
  | usual => exact hmat
  | given text =>
    have hdelim : P (nameGlyphs "delim".toList) := h.keyword (by decide)
    have hvalue : P (if text = "#none" then Math.filling ['#'] ++ nameGlyphs "none".toList
        else quotedGlyphs text.toList) := by
      split
      · exact h.append (h.filling _) (h.keyword (by decide))
      · exact h.quoted _
    exact h.append (h.append (h.append (h.append hmat hdelim) (h.filling _)) hvalue) (h.filling _)

theorem layout (h : Assembles P) {layout : Layout} {cells : List (List (List Glyph))}
    (hcells : ∀ row ∈ cells, ∀ cell ∈ row, P cell) : P (layoutGlyphs layout cells) := by
  have hrows (inner outer : String) : P (joinedGlyphs outer ((cells.filter fun row =>
      row.any fun cell => !cell.isEmpty).map (joinedGlyphs inner))) := by
    refine h.joined outer fun p hp => ?_
    obtain ⟨row, hrow, rfl⟩ := List.mem_map.mp hp
    exact h.joined inner (hcells row (List.mem_filter.mp hrow).1)
  cases layout with
  | matrix delimiters =>
    exact h.append (h.append (h.opening delimiters) (hrows _ _)) (h.filling _)
  | cases => exact h.called (by decide) (hrows _ _)
  | lines => exact hrows _ _

theorem ready (h : Assembles P) (hform : form name arguments rest = .ok (.ready text, after))
    (hname : ∀ symbol, role name = .name symbol → P (nameGlyphs symbol.toList)) :
    P (readyGlyphs name text) := by
  have hstands := stands_readyGlyphs hform
  generalize readyGlyphs name text = glyphs at hstands ⊢
  cases hstands with
  | nothing => exact h.filling []
  | name hrole => exact h.append (h.append (h.filling _) (hname _ hrole)) (h.filling _)
  | string cs => exact h.quoted _
  | operator cs =>
    have hop : "op" ∈ keywords := by decide
    exact h.append (h.call (h.keyword hop)) (h.quoted _)

theorem trim (h : Assembles P) (hp : P p) : P (trimGlyphs p) := by
  obtain ⟨lead, blanks, heq, hlead, hblanks⟩ := exists_trimGlyphs p
  rw [heq] at hp
  exact h.of_blanks (h.of_lead hp hlead) hblanks

theorem operand (h : Assembles P) (hp : P p) : P (out.operandGlyphs p) := by
  rcases out.operandGlyphs_cases p with heq | heq | heq <;> rw [heq]
  · exact hp
  · exact h.trim hp
  · exact h.append (h.append (h.filling _) (h.trim hp)) (h.filling _)

theorem add (h : Assembles P) {piece : List Glyph} (hout : P out.whole) (hpiece : P piece) :
    P (out.add piece).whole := by
  obtain ⟨kept, blanks, gap, lead, rest, hseam⟩ := out.exists_seam piece
  have hgap : P gap := by
    rcases hseam.apart with rfl | ⟨rfl, -⟩
    · exact h.filling _
    · exact h.filling []
  rw [hseam.before_eq] at hout
  rw [hseam.piece_eq] at hpiece
  rw [hseam.whole_eq]
  exact h.append (h.of_blanks hout hseam.blank_behind)
    (h.append hgap (h.of_lead hpiece hseam.blank_ahead))

/-- Such a property is kept at every step of the writer, if it holds of the names of the commands
that the writer comes to. -/
theorem kept {known : List Node → Pieces → Prop} (h : Assembles P)
    (hname : ∀ {name source arguments rest held symbol},
      known (.command name source arguments :: rest) held → role name = .name symbol →
        P (nameGlyphs symbol.toList)) :
    Kept known (fun out => P out.whole) P where
  empty := h.filling []
  text hout := h.trim (h.squeeze hout)
  add _ _ _ hout hpiece := h.add hout hpiece
  operand hpiece := h.operand hpiece
  data _ := h.nameless (nameless_dataGlyphs _)
  special _ _ := h.filling _
  ready hplace hform := h.ready hform fun _ hrole => hname hplace hrole
  applied hfunction htexts := h.called (keyword_of_functions hfunction) (h.joined ", " htexts)
  layout _ hcells := h.layout hcells

end Assembles

end Assembly

/-! Names in the Typst form of a formula stay whole: nothing comes between the characters of a
name, and none of them is lost, but for white space. -/

section Wholeness

open Text (isBlank)

variable {g : Glyph} {x x' y y' : Option Glyph} {p q : List Glyph} {word : List Char} {c : Char}

/-- A glyph that is there and is no white space. -/
def seen (x : Option Glyph) : Option Glyph := x.filter fun g => !g.isBlank

/-- Two neighbours in a text, or an end of it, break no name: one of them is a character of a name
exactly if the other is the character that the name has beside it. -/
def Continues (x y : Option Glyph) : Prop :=
  ∀ (word : List Char) (place : Nat) (c d : Char), word[place]? = some c →
    word[place + 1]? = some d → isBlank c = false → isBlank d = false →
      (x = some ⟨c, .name word place⟩ ↔ y = some ⟨d, .name word (place + 1)⟩)

/-- No name is broken in a text, nor where it begins and ends. -/
def Entire : Option Glyph → List Glyph → Prop
  | x, [] => Continues x none
  | x, g :: rest => Continues x (some g) ∧ Entire (some g) rest

section Entire

theorem eq_some_iff_seen (hc : isBlank c = false) (origin : Origin) :
    x = some ⟨c, origin⟩ ↔ seen x = some ⟨c, origin⟩ := by
  rw [seen, Option.filter_eq_some_iff]
  refine ⟨fun h => ⟨h, ?_⟩, And.left⟩
  rw [Glyph.isBlank, hc]
  rfl

/-- White space beside a name is as good as nothing. -/
theorem Continues.congr (h : Continues x y) (hx : seen x = seen x') (hy : seen y = seen y') :
    Continues x' y' := by
  intro word place c d hc hd hcSolid hdSolid
  rw [eq_some_iff_seen hcSolid, eq_some_iff_seen hdSolid, ← hx, ← hy, ← eq_some_iff_seen hcSolid,
    ← eq_some_iff_seen hdSolid]
  exact h word place c d hc hd hcSolid hdSolid

theorem Continues.ends (hx : Continues x none) (hy : Continues none y) : Continues x y := by
  intro word place c d hc hd hcSolid hdSolid
  have hleft := hx word place c d hc hd hcSolid hdSolid
  have hright := hy word place c d hc hd hcSolid hdSolid
  exact ⟨fun h => (Option.some_ne_none _ (hleft.mp h).symm).elim,
    fun h => (Option.some_ne_none _ (hright.mpr h).symm).elim⟩

theorem continues_of_nameless (hx : ∀ g ∈ x, g.Nameless) (hy : ∀ g ∈ y, g.Nameless) :
    Continues x y := by
  intro word place c d _ _ _ _
  exact ⟨fun h => absurd rfl (hx _ h word place), fun h => absurd rfl (hy _ h word (place + 1))⟩

theorem seen_of_blank (h : g.isBlank = true) : seen (some g) = none := by
  rw [seen, Option.filter_some, h]
  rfl

theorem Entire.congr (h : Entire x p) (hx : seen x = seen x') : Entire x' p := by
  cases p with
  | nil => exact Continues.congr h hx rfl
  | cons g p => exact ⟨h.1.congr hx rfl, h.2⟩

theorem Entire.append (hp : Entire x p) (hq : Entire none q) : Entire x (p ++ q) := by
  induction p generalizing x with
  | nil =>
    cases q with
    | nil => exact hp
    | cons g q => exact ⟨Continues.ends hp hq.1, hq.2⟩
  | cons g p ih => exact ⟨hp.1, ih hp.2⟩

theorem Entire.continues (h : Entire x (p ++ q)) : Continues (p.getLast?.or x) q.head? := by
  induction p generalizing x with
  | nil =>
    cases q with
    | nil => exact h
    | cons g q => exact h.1
  | cons g p ih =>
    have hlast : (g :: p).getLast?.or x = p.getLast?.or (some g) := by
      rw [List.getLast?_cons]
      cases p.getLast? <;> rfl
    rw [hlast]
    exact ih h.2

theorem entire_of_nameless (hx : ∀ g ∈ x, g.Nameless) (hp : ∀ g ∈ p, g.Nameless) : Entire x p := by
  induction p generalizing x with
  | nil => exact continues_of_nameless hx (by simp)
  | cons g p ih =>
    obtain ⟨hg, hrest⟩ := List.forall_mem_cons.mp hp
    have hsome : ∀ g' ∈ some g, g'.Nameless := by
      rintro _ ⟨⟩
      exact hg
    exact ⟨continues_of_nameless hx hsome, ih hsome hrest⟩

theorem Entire.of_blanks {blanks : List Glyph} (h : Entire x (p ++ blanks))
    (hblanks : ∀ g ∈ blanks, g.isBlank = true) : Entire x p := by
  induction p generalizing x with
  | nil =>
    cases blanks with
    | nil => exact h
    | cons g blanks => exact h.1.congr rfl (seen_of_blank (hblanks g List.mem_cons_self))
  | cons g p ih => exact ⟨h.1, ih h.2⟩

theorem Entire.of_lead {lead : List Glyph} (h : Entire x (lead ++ p)) (hx : seen x = none)
    (hlead : ∀ g ∈ lead, g.isBlank = true) : Entire none p := by
  induction lead generalizing x with
  | nil => exact h.congr hx
  | cons g lead ih =>
    obtain ⟨hg, hrest⟩ := List.forall_mem_cons.mp hlead
    exact ih h.2 (seen_of_blank hg) hrest

theorem Entire.squeeze (h : Entire x p) : Entire x (squeezeGlyphs p) := by
  induction p generalizing x with
  | nil => exact h
  | cons g p ih =>
    rw [squeezeGlyphs]
    cases hg : g.isBlank with
    | false => exact ⟨h.1, ih h.2⟩
    | true =>
      have hrest := ih h.2
      have hgap (y : Glyph) (hy : y.isBlank = true) : Continues x (some y) :=
        h.1.congr rfl ((seen_of_blank hg).trans (seen_of_blank hy).symm)
      rw [if_pos rfl]
      split
      next hhead =>
        obtain ⟨y, more, hsqueezed, hblank⟩ := exists_blank_squeezeGlyphs hhead
        rw [hsqueezed] at hrest ⊢
        exact ⟨hgap y hblank, hrest.2⟩
      next => exact ⟨hgap _ rfl, hrest.congr (seen_of_blank hg)⟩

end Entire

section Name

theorem continues_name {place : Nat} {d : Char} (hc : word[place]? = some c)
    (hd : word[place + 1]? = some d) :
    Continues (some ⟨c, .name word place⟩) (some ⟨d, .name word (place + 1)⟩) := by
  intro word' place' c' d' hc' hd' _ _
  constructor
  · intro h
    cases h
    cases hd.symm.trans hd'
    rfl
  · intro h
    cases h
    cases hc.symm.trans hc'
    rfl

/-- The end of a name goes on behind the character before it. -/
theorem entire_nameFrom {place : Nat} (hc : word[place]? = some c) :
    Entire (some ⟨c, .name word place⟩)
      (nameFrom word (place + 1) (word.drop (place + 1))) := by
  induction hcs : word.drop (place + 1) generalizing place c with
  | nil =>
    have hlast : word[place + 1]? = none := by rw [← List.head?_drop, hcs, List.head?_nil]
    intro word' place' c' d' _ hd' _ _
    refine ⟨fun h => ?_, by rintro ⟨⟩⟩
    cases h
    cases hlast.symm.trans hd'
  | cons d cs ih =>
    have hd : word[place + 1]? = some d := by rw [← List.head?_drop, hcs, List.head?_cons]
    exact ⟨continues_name hc hd, ih hd (by rw [← List.tail_drop, hcs, List.tail_cons])⟩

theorem entire_nameGlyphs (word : List Char) : Entire none (nameGlyphs word) := by
  cases word with
  | nil => exact continues_of_nameless (by simp) (by simp)
  | cons c cs =>
    refine ⟨?_, entire_nameFrom rfl⟩
    intro word place c' d' _ _ _ _
    constructor
    · rintro ⟨⟩
    · rintro ⟨⟩

theorem assembles_entire : Assembles (Entire none) where
  nameless h := entire_of_nameless (by simp) h
  keyword _ := entire_nameGlyphs _
  append hp hq := hp.append hq
  of_blanks h hblanks := h.of_blanks hblanks
  of_lead h hlead := h.of_lead rfl hlead
  squeeze h := h.squeeze

/-- Names stay whole at every step of the writer. -/
theorem kept_entire (known : List Latex.Node → Pieces → Prop) :
    Kept known (fun out => Entire none out.whole) (Entire none) :=
  assembles_entire.kept fun _ _ => entire_nameGlyphs _

end Name

end Wholeness

end Typeset.Math
