import Typeset.Proofs.Token.Piece

/-! Footnote marks in a run of text. A mark is found whatever stands around it, unless it is taken
for an image whose label begins with a caret. -/

namespace Typeset.Token

variable {known : List String} {identifier before after rest : List Char}

/-- A name that a footnote mark may give: not empty, and without brackets and white space. -/
structure IsName (identifier : List Char) : Prop where
  ne_nil : identifier ≠ []
  bare : Bare identifier
  solid : ∀ c ∈ identifier, Text.isBlank c = false

/-- A reference to a footnote as it is written. -/
def noteMark (identifier : List Char) : List Char := group ('^' :: identifier)

/-- An exclamation mark takes the brackets behind it for an image, unless a parenthesis or a colon
follows them. -/
structure Swallowed (before after : List Char) : Prop where
  bang : before.getLast? = some '!'
  parenthesis : after.head? ≠ some '('
  colon : after.head? ≠ some ':'

/-- Whether a token is a reference to a footnote. -/
def isNote : Value → Bool
  | .object fields => ((fields.lookup "type").getD .null).isText "footnote_ref"
  | _ => false

/-- The references to footnotes in a run of text. -/
def notesIn (known : List String) (cs : List Char) : List Value :=
  (splitReferences known (String.ofList cs)).filter isNote

section Mark

theorem IsName.bare_caret (h : IsName identifier) : Bare ('^' :: identifier) :=
  List.forall_mem_cons.mpr ⟨rfl, h.bare⟩

theorem lone_caret (rest : List Char) : Lone ('^' :: identifier) rest :=
  fun hlabel => absurd rfl hlabel.head

theorem unmarked?_noteMark (h : IsName identifier) :
    unmarked? (noteMark identifier ++ rest) = none := by
  rw [noteMark, unmarked?, group?_group h.bare_caret]
  rfl

theorem reference?_noteMark (h : IsName identifier) :
    reference? known (noteMark identifier ++ rest) =
      some (some (.footnote (String.ofList identifier)), rest) := by
  have hmark : (!false && '^' == '^' && !identifier.isEmpty &&
      !identifier.any Text.isBlank) = true := by
    have hne : identifier.isEmpty = false := by simpa using h.ne_nil
    have hsolid : identifier.any Text.isBlank = false := by
      rw [List.any_eq_false]
      exact fun c hc => by simp [h.solid c hc]
    rw [hne, hsolid]
    rfl
  rw [noteMark, reference?_group, named?_single h.bare_caret (lone_caret rest), single?,
    if_pos hmark]

theorem reference?_bang_noteMark (h : IsName identifier)
    (hhead : rest.head? = some '(' ∨ rest.head? = some ':') :
    reference? known ('!' :: (noteMark identifier ++ rest)) = none := by
  have hafter : (rest.head? == some '(' || rest.head? == some ':') = true := by simpa using hhead
  rw [reference?_bang, noteMark, named?_single h.bare_caret (lone_caret rest), single?,
    if_neg (by simp), if_pos hafter]

/-- Behind an exclamation mark a mark is an image, or nothing at all. -/
theorem single?_bang_caret (known : List String) (identifier : List Char)
    (hp : rest.head? ≠ some '(') (hc : rest.head? ≠ some ':') :
    ∃ found, single? known true ('^' :: identifier) rest = some (found, rest) ∧
      ∀ name, found ≠ some (.footnote name) := by
  have hafter : ¬ (rest.head? == some '(' || rest.head? == some ':') = true := by simp [hp, hc]
  rw [single?, if_neg (by simp), if_neg hafter]
  split
  · exact ⟨_, rfl, fun name h => by cases h⟩
  · exact ⟨_, rfl, fun name h => by cases h⟩

theorem exists_reference?_bang_noteMark (known : List String) (h : IsName identifier)
    (hp : rest.head? ≠ some '(') (hc : rest.head? ≠ some ':') :
    ∃ found, reference? known ('!' :: (noteMark identifier ++ rest)) = some (found, rest) ∧
      ∀ name, found ≠ some (.footnote name) := by
  obtain ⟨found, hsingle, hfound⟩ := single?_bang_caret known identifier hp hc
  refine ⟨found, ?_, hfound⟩
  rw [reference?_bang, noteMark, named?_single h.bare_caret (lone_caret rest), hsingle]

/-- An exclamation mark that swallows a mark makes one piece with it. -/
theorem pieces_bang_noteMark (known : List String) (h : IsName identifier)
    (hp : rest.head? ≠ some '(') (hc : rest.head? ≠ some ':') :
    ∃ piece, pieces known ('!' :: (noteMark identifier ++ rest)) = piece :: pieces known rest ∧
      ∀ name, piece ≠ .reference (.footnote name) := by
  obtain ⟨found, hwhole, hfound⟩ := exists_reference?_bang_noteMark known h hp hc
  cases found with
  | none =>
    rw [← List.cons_append] at hwhole
    exact ⟨_, pieces_of_passed hwhole, fun name hpiece => by cases hpiece⟩
  | some r =>
    refine ⟨_, pieces_of_some hwhole, fun name hpiece => hfound name ?_⟩
    rw [Piece.reference.inj hpiece]

end Mark

theorem isNote_text (s : String) : isNote (text s) = false := rfl

theorem isNote_footnote (name : String) : isNote (Reference.footnote name).token = true := rfl

theorem isNote_target (image : Bool) (form : ReferenceForm) (label name : String) :
    isNote (Reference.target image form label name).token = false := by
  cases image <;> rfl

theorem notesIn_eq (known : List String) (cs : List Char) :
    notesIn known cs = ((targets (pieces known cs)).map Reference.token).filter isNote := by
  rw [notesIn, filter_splitReferences isNote_text, String.toList_ofList]

/-- A mark that is not swallowed is read by itself. -/
theorem pieces_noteMark (h : IsName identifier) (hs : ¬ Swallowed before after) :
    pieces known (before ++ (noteMark identifier ++ after)) =
      pieces known before ++
        .reference (.footnote (String.ofList identifier)) :: pieces known after := by
  have hapart : Apart known before (noteMark identifier ++ after) := by
    refine ⟨opens_group _ _, ⟨nofun, nofun⟩, fun hbang => ?_, fun _ => unmarked?_noteMark h⟩
    apply reference?_bang_noteMark h
    by_contra hafter
    obtain ⟨hp, hc⟩ := not_or.mp hafter
    exact hs ⟨hbang, hp, hc⟩
  rw [pieces_append hapart, pieces_of_some (reference?_noteMark h)]

theorem notesIn_cons (known : List String) {cs more : List Char} {piece : Piece} {ps : List Piece}
    (hcs : pieces known cs = ps ++ piece :: pieces known more)
    (hpiece : ∀ name, piece ≠ .reference (.footnote name)) :
    notesIn known cs = ((targets ps).map Reference.token).filter isNote ++ notesIn known more := by
  rw [notesIn_eq, notesIn_eq, hcs, targets_append, List.map_append, List.filter_append]
  congr 1
  cases piece with
  | plain source => rfl
  | reference target =>
    cases target with
    | footnote name => exact absurd rfl (hpiece name)
    | target image form label name =>
      rw [targets, List.map_cons, List.filter_cons_of_neg (by simp [isNote_target])]

theorem pieces_append_bang (known : List String) (cs : List Char) :
    pieces known (cs ++ ['!']) = pieces known cs ++ [.plain ['!']] := by
  have hapart : Apart known cs ['!'] := ⟨nofun, ⟨nofun, nofun⟩, fun _ => rfl, fun _ => rfl⟩
  have hbang : reference? known ['!'] = none := rfl
  rw [pieces_append hapart, pieces_of_none hbang, pieces_nil]

/-- A mark that is swallowed is no reference to a footnote. -/
theorem notesIn_of_swallowed (h : IsName identifier) (hs : Swallowed before after) :
    notesIn known (before ++ (noteMark identifier ++ after)) =
      notesIn known before ++ notesIn known after := by
  obtain ⟨rest, rfl⟩ := List.getLast?_eq_some_iff.mp hs.bang
  obtain ⟨piece, hpieces, hpiece⟩ := pieces_bang_noteMark known h hs.parenthesis hs.colon
  have hwhole : pieces known (rest ++ ['!'] ++ (noteMark identifier ++ after)) =
      pieces known rest ++ piece :: pieces known after := by
    rw [List.append_assoc, List.singleton_append, noteMark, pieces_append apart_bang,
      ← noteMark, hpieces]
  rw [notesIn_cons known hwhole hpiece, notesIn_eq known (rest ++ ['!']), pieces_append_bang,
    targets_append, targets, targets, List.append_nil]

/-- A footnote mark is a reference to its footnote, whatever stands before and behind it, unless it
is swallowed; one that is swallowed is no reference to a footnote. -/
theorem splitReferences_noteMark (known : List String) (before after : List Char)
    (h : IsName identifier) :
    (splitReferences known (String.ofList (before ++ (noteMark identifier ++ after))) =
        splitFrom known [] before ++
          (Reference.footnote (String.ofList identifier)).token :: splitFrom known [] after ↔
      ¬ Swallowed before after) ∧
      (Swallowed before after →
        notesIn known (before ++ (noteMark identifier ++ after)) =
          notesIn known before ++ notesIn known after) := by
  have hswallowed : Swallowed before after →
      notesIn known (before ++ (noteMark identifier ++ after)) =
        notesIn known before ++ notesIn known after := notesIn_of_swallowed h
  refine ⟨⟨fun hread hs => ?_, fun hs => ?_⟩, hswallowed⟩
  · -- The reading as a footnote would have one reference more.
    have hnotes := hswallowed hs
    rw [notesIn, hread, List.filter_append, List.filter_cons_of_pos (isNote_footnote _)] at hnotes
    rw [notesIn, notesIn, filter_splitReferences isNote_text, filter_splitReferences isNote_text,
      String.toList_ofList, String.toList_ofList, ← filter_assemble isNote_text [],
      ← filter_assemble isNote_text [], ← splitFrom_nil_eq, ← splitFrom_nil_eq] at hnotes
    have hlength := congrArg List.length hnotes
    simp at hlength
  · have hwhole : splitFrom known [] (before ++ (noteMark identifier ++ after)) =
        splitFrom known [] before ++
          (Reference.footnote (String.ofList identifier)).token :: splitFrom known [] after := by
      rw [splitFrom_nil_eq, splitFrom_nil_eq, splitFrom_nil_eq, pieces_noteMark h hs,
        assemble_append_reference]
    rw [splitReferences_of_mem (t := (Reference.footnote (String.ofList identifier)).token)]
    · rw [String.toList_ofList, hwhole]
    · rw [String.toList_ofList, hwhole]
      exact List.mem_append_right _ List.mem_cons_self

theorem splitReferences_noteMark_afterWord :
    IsName ['1'] ∧ ¬ Swallowed ['a'] ['.'] ∧
      splitReferences [] "a[^1]." = [text "a", (Reference.footnote "1").token, text "."] := by
  have hname : IsName ['1'] :=
    ⟨List.cons_ne_nil _ _, by decide, List.forall_mem_singleton.mpr rfl⟩
  have hfree : ¬ Swallowed ['a'] ['.'] := fun h => by cases h.bang
  refine ⟨hname, hfree, ?_⟩
  have hread := (splitReferences_noteMark [] ['a'] ['.'] hname).1.mpr hfree
  have hword : splitFrom [] [] ['a'] = [text "a"] := by cbv
  have hstop : splitFrom [] [] ['.'] = [text "."] := by cbv
  rw [hword, hstop] at hread
  exact hread

/-- A mark right behind an exclamation mark stays text. -/
theorem splitReferences_bangMark : splitReferences [] "![^1]" = [text "![^1]"] := by
  cbv

end Typeset.Token
