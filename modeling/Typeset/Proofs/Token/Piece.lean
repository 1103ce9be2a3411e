import Typeset.Proofs.Token.Group

/-! A text read from left to right as pieces: references, and text that none of them takes up. Where
no reference reaches over a place, the texts on both sides of it are read apart. -/

namespace Typeset.Token

/-- A piece of a text. -/
inductive Piece
  | plain (source : List Char)
  | reference (target : Reference)
  deriving DecidableEq, Repr

/-- The part of a text before one of its endings. -/
def consumed (cs rest : List Char) : List Char := cs.take (cs.length - rest.length)

/-- The pieces of a text. -/
def pieces (known : List String) (cs : List Char) : List Piece :=
  match cs with
  | [] => []
  | c :: rest =>
    match _h : reference? known (c :: rest) with
    | some (some r, after) => .reference r :: pieces known after
    | some (none, after) => .plain (consumed (c :: rest) after) :: pieces known after
    | none => .plain [c] :: pieces known rest
termination_by cs.length
decreasing_by
  · exact length_reference?_lt _h
  · exact length_reference?_lt _h
  · simp

/-- Pieces as tokens, with text that waits to be joined with the text after it. -/
def assemble (held : List Char) : List Piece → List Value
  | [] => textRun held
  | .plain source :: rest => assemble (held ++ source) rest
  | .reference target :: rest => textRun held ++ target.token :: assemble [] rest

/-- The references among pieces. -/
def targets : List Piece → List Reference
  | [] => []
  | .plain _ :: ps => targets ps
  | .reference target :: ps => target :: targets ps

/-- The text of pieces, apart from their references. -/
def spelled : List Piece → List Char
  | [] => []
  | .plain source :: ps => source ++ spelled ps
  | .reference _ :: ps => spelled ps

variable {known : List String} {c : Char} {cs before rest after held source : List Char}
  {r : Reference} {ps qs : List Piece}

section Pieces

theorem pieces_nil : pieces known [] = [] := by rw [pieces]

theorem pieces_of_none (h : reference? known (c :: rest) = none) :
    pieces known (c :: rest) = .plain [c] :: pieces known rest := by
  rw [pieces]
  split <;> simp_all

theorem pieces_of_some (h : reference? known cs = some (some r, after)) :
    pieces known cs = .reference r :: pieces known after := by
  cases cs with
  | nil => cases h
  | cons c rest =>
    rw [pieces]
    split <;> simp_all

theorem pieces_of_passed (h : reference? known (source ++ after) = some (none, after)) :
    pieces known (source ++ after) = .plain source :: pieces known after := by
  cases hcs : source ++ after with
  | nil =>
    rw [hcs] at h
    cases h
  | cons c rest =>
    have hsource : consumed (c :: rest) after = source := by
      rw [consumed, ← hcs]
      simp
    rw [hcs] at h
    rw [pieces]
    split <;> simp_all

theorem consumed_append (source after : List Char) : consumed (source ++ after) after = source := by
  rw [consumed, List.length_append, Nat.add_sub_cancel, List.take_left']
  rfl

theorem exists_of_named? {image : Bool} {found : Option Reference}
    (h : named? known image cs = some (found, after)) :
    ∃ inner more, cs = group inner ++ (more ++ after) := by
  obtain ⟨first, second, -, -, rfl, -⟩ | ⟨first, -, -, rfl, -⟩ := named?_cases h
  · exact ⟨first, group second, rfl⟩
  · exact ⟨first, [], rfl⟩

/-- What has the form of a reference stands before what follows it. -/
theorem exists_of_reference? {found : Option Reference}
    (h : reference? known cs = some (found, after)) :
    ∃ source, source ≠ [] ∧ cs = source ++ after := by
  obtain ⟨body, rfl, hbody⟩ | h := named?_of_reference? h
  · obtain ⟨inner, more, rfl⟩ := exists_of_named? hbody
    exact ⟨'!' :: (group inner ++ more), List.cons_ne_nil _ _, by simp⟩
  · obtain ⟨inner, more, rfl⟩ := exists_of_named? h
    exact ⟨group inner ++ more, by simp [group], by rw [List.append_assoc]⟩

/-- The scan of a text yields the tokens of its pieces. -/
theorem splitFrom_eq (known : List String) (done cs : List Char) :
    splitFrom known done cs = assemble done.reverse (pieces known cs) := by
  induction done, cs using splitFrom.induct known with
  | case1 done => rw [splitFrom, pieces_nil, assemble]
  | case2 done c rest r after h ih =>
    rw [pieces_of_some h, assemble, splitFrom]
    split
    · simp_all
    · simp_all
    · simp_all
  | case3 done c rest after h ih =>
    obtain ⟨source, -, hsource⟩ := exists_of_reference? h
    have hpieces := h
    rw [hsource] at hpieces
    have htake : (c :: rest).take ((c :: rest).length - after.length) = source := by
      rw [hsource]
      exact consumed_append source after
    rw [htake, List.reverse_append, List.reverse_reverse] at ih
    rw [splitFrom]
    split
    · simp_all
    · next after' h' =>
      cases h.symm.trans h'
      rw [htake, ih, hsource, pieces_of_passed hpieces, assemble]
    · simp_all
  | case4 done c rest h ih =>
    rw [pieces_of_none h, assemble, splitFrom]
    split
    · simp_all
    · simp_all
    · rw [ih, List.reverse_cons]

end Pieces

/-- What may stand before a group and is read with it. -/
def IsMark (mark : List Char) : Prop := mark = [] ∨ mark = ['!']

section Apart

/-- No reference reaches from a text into the text after it. -/
structure Apart (known : List String) (before rest : List Char) : Prop where
  opens : Opens rest
  head : rest.head? ≠ some '(' ∧ rest.head? ≠ some ':'
  bang : before.getLast? = some '!' → reference? known ('!' :: rest) = none
  lone : EndsInLabel before → unmarked? rest = none

theorem EndsInLabel.append (h : EndsInLabel cs) (before : List Char) :
    EndsInLabel (before ++ cs) := by
  obtain ⟨head, inner, rfl, hinner⟩ := h
  exact ⟨before ++ head, inner, (List.append_assoc _ _ _).symm, hinner⟩

theorem EndsInLabel.getLast? (h : EndsInLabel cs) : cs.getLast? = some ']' := by
  obtain ⟨head, inner, rfl, -⟩ := h
  exact getLast?_append_group head inner

theorem Apart.drop (h : Apart known (before ++ cs) rest) : Apart known cs rest where
  opens := h.opens
  head := h.head
  bang hlast := h.bang (by rw [List.getLast?_append, hlast, Option.some_or])
  lone hlabel := h.lone (hlabel.append before)

/-- What has the form of a reference at the front of a text does not depend on a text apart. -/
theorem reference?_append (hcs : cs ≠ []) (h : Apart known cs rest) :
    reference? known (cs ++ rest) =
      (reference? known cs).map fun found => (found.1, found.2 ++ rest) := by
  obtain ⟨c, body, rfl⟩ := List.exists_cons_of_ne_nil hcs
  have hlone (first : List Char) (hf : EndsInLabel (group first) → EndsInLabel (c :: body)) :
      Lone first rest := fun hlabel => h.lone (hf ⟨[], first, rfl, hlabel⟩)
  by_cases hc : c = '!'
  · subst hc
    by_cases hbody : body = []
    · subst hbody
      exact h.bang rfl
    · rw [List.cons_append, reference?_bang, reference?_bang]
      refine named?_append hbody h.opens h.head fun first hfirst => hlone first fun hlabel => ?_
      rw [hfirst]
      exact hlabel.append ['!']
  · rw [List.cons_append, reference?_of_ne hc, reference?_of_ne hc, ← List.cons_append]
    refine named?_append hcs h.opens h.head fun first hfirst => hlone first fun hlabel => ?_
    rw [hfirst]
    exact hlabel

/-- Texts that are apart are read apart. -/
theorem pieces_append (h : Apart known before rest) :
    pieces known (before ++ rest) = pieces known before ++ pieces known rest := by
  induction before using pieces.induct known with
  | case1 => rw [pieces_nil, List.nil_append, List.nil_append]
  | case2 c body r after hr ih =>
    have hwhole := reference?_append (List.cons_ne_nil c body) h
    obtain ⟨source, -, hsource⟩ := exists_of_reference? hr
    rw [hsource] at h
    rw [hr] at hwhole
    rw [pieces_of_some hwhole, pieces_of_some hr, ih h.drop, List.cons_append]
  | case3 c body after hr ih =>
    have hwhole := reference?_append (List.cons_ne_nil c body) h
    obtain ⟨source, -, hsource⟩ := exists_of_reference? hr
    rw [hsource] at h hr hwhole
    rw [hr, List.append_assoc] at hwhole
    rw [hsource, List.append_assoc, pieces_of_passed hwhole, pieces_of_passed hr, ih h.drop,
      List.cons_append]
  | case4 c body hr ih =>
    have hwhole := reference?_append (List.cons_ne_nil c body) h
    rw [hr] at hwhole
    rw [← List.singleton_append] at h
    have hrest := ih h.drop
    have hstep : pieces known (c :: body ++ rest) = .plain [c] :: pieces known (body ++ rest) :=
      pieces_of_none hwhole
    rw [hstep, pieces_of_none hr, hrest, List.cons_append]

theorem apart_group {inner : List Char} (hlast : before.getLast? ≠ some '!')
    (hlone : EndsInLabel before → unmarked? (group inner ++ rest) = none) :
    Apart known before (group inner ++ rest) where
  opens := opens_group inner rest
  head := ⟨nofun, nofun⟩
  bang h := absurd h hlast
  lone := hlone

/-- A group behind an exclamation mark is read with it. -/
theorem apart_bang {inner : List Char} : Apart known before ('!' :: (group inner ++ rest)) where
  opens := by
    rw [Opens, List.find?_cons_of_neg (by decide)]
    exact opens_group inner rest
  head := ⟨nofun, nofun⟩
  bang _ := rfl
  lone _ := rfl

/-- A group with the mark before it is read by itself, unless it is the second of two. -/
theorem apart_of_not_endsInLabel (known : List String) (h : ¬ EndsInLabel before) :
    ∃ head mark, before = head ++ mark ∧ IsMark mark ∧
      ∀ inner rest, Apart known head (mark ++ (group inner ++ rest)) := by
  by_cases hlast : before.getLast? = some '!'
  · obtain ⟨head, rfl⟩ := List.getLast?_eq_some_iff.mp hlast
    exact ⟨head, ['!'], rfl, .inr rfl, fun _ _ => apart_bang⟩
  · exact ⟨before, [], (List.append_nil _).symm, .inl rfl,
      fun _ _ => apart_group hlast fun hlabel => absurd hlabel h⟩

theorem reference?_of_inert (hc : c ≠ '[') (hbang : c = '!' → rest.head? ≠ some '[') :
    reference? known (c :: rest) = none := by
  by_cases h : c = '!'
  · subst h
    rw [reference?_bang]
    cases rest with
    | nil => rfl
    | cons d rest => exact named?_of_none (group?_of_ne fun hd => hbang rfl (congrArg some hd))
  · rw [reference?_of_ne h]
    exact named?_of_none (group?_of_ne hc)

/-- Text without an opening bracket has no part in what follows, unless it ends in an exclamation
mark. -/
theorem pieces_inert (known : List String) (rest : List Char) (h : '[' ∉ source)
    (hlast : source.getLast? ≠ some '!') :
    ∃ ms, targets ms = [] ∧ spelled ms = source ∧
      pieces known (source ++ rest) = ms ++ pieces known rest := by
  induction source with
  | nil => exact ⟨[], rfl, rfl, rfl⟩
  | cons c source ih =>
    obtain ⟨hc, hmore⟩ := List.ne_and_not_mem_of_not_mem_cons h
    have hnone : reference? known (c :: (source ++ rest)) = none := by
      refine reference?_of_inert (Ne.symm hc) ?_
      rintro rfl hhead
      cases source with
      | nil => exact hlast rfl
      | cons d source => exact hmore (by simp_all)
    have hlast' : source.getLast? ≠ some '!' := by
      intro hs
      rw [List.getLast?_cons, hs] at hlast
      exact hlast rfl
    obtain ⟨ms, htargets, hspelled, hpieces⟩ := ih hmore hlast'
    refine ⟨.plain [c] :: ms, htargets, ?_, ?_⟩
    · rw [spelled, hspelled, List.singleton_append]
    · rw [List.cons_append, pieces_of_none hnone, hpieces, List.cons_append]

end Apart

section Assemble

/-- Each reference of a text is read at one of its places. -/
theorem exists_of_mem_targets (h : r ∈ targets (pieces known cs)) :
    ∃ source after, reference? known source = some (some r, after) := by
  induction cs using pieces.induct known with
  | case1 =>
    rw [pieces_nil] at h
    cases h
  | case2 c rest r' after hr ih =>
    rw [pieces_of_some hr] at h
    obtain rfl | h := List.mem_cons.mp h
    · exact ⟨_, _, hr⟩
    · exact ih h
  | case3 c rest after hr ih =>
    obtain ⟨source, -, hsource⟩ := exists_of_reference? hr
    rw [hsource] at h hr
    rw [pieces_of_passed hr] at h
    exact ih h
  | case4 c rest hr ih =>
    rw [pieces_of_none hr] at h
    exact ih h

theorem assemble_append_reference (held : List Char) (ps qs : List Piece) (r : Reference) :
    assemble held (ps ++ .reference r :: qs) = assemble held ps ++ r.token :: assemble [] qs := by
  induction ps generalizing held with
  | nil => rfl
  | cons p ps ih =>
    cases p with
    | plain source => exact ih (held ++ source)
    | reference target =>
      rw [List.cons_append, assemble, assemble, ih, List.append_assoc, List.cons_append]

theorem targets_append (ps qs : List Piece) : targets (ps ++ qs) = targets ps ++ targets qs := by
  induction ps with
  | nil => rfl
  | cons p ps ih =>
    cases p with
    | plain source => exact ih
    | reference target =>
      rw [List.cons_append, targets, targets, ih, List.cons_append]

theorem filter_textRun {p : Value → Bool} (h : ∀ s, p (text s) = false) (cs : List Char) :
    (textRun cs).filter p = [] := by
  rw [textRun]
  split
  · rfl
  · rw [List.filter_cons_of_neg (by simp [h]), List.filter_nil]

/-- Text apart, the tokens of pieces are those of their references. -/
theorem filter_assemble {p : Value → Bool} (h : ∀ s, p (text s) = false) (held : List Char)
    (ps : List Piece) :
    (assemble held ps).filter p = ((targets ps).map Reference.token).filter p := by
  induction ps generalizing held with
  | nil => exact filter_textRun h held
  | cons q ps ih =>
    cases q with
    | plain source => exact ih (held ++ source)
    | reference target =>
      rw [assemble, List.filter_append, filter_textRun h, List.nil_append, targets, List.map_cons,
        List.filter_cons, List.filter_cons, ih]

/-- Pieces of text go on with the text that is held. -/
theorem assemble_append_of_plain (h : targets ps = []) (held : List Char) (qs : List Piece) :
    assemble held (ps ++ qs) = assemble (held ++ spelled ps) qs := by
  induction ps generalizing held with
  | nil => rw [List.nil_append, spelled, List.append_nil]
  | cons p ps ih =>
    cases p with
    | plain source => rw [List.cons_append, assemble, ih h, spelled, List.append_assoc]
    | reference target => cases h

theorem mem_assemble_of_held {held : List Char} (h : held ≠ []) (ps : List Piece) :
    ∃ more, text (String.ofList (held ++ more)) ∈ assemble held ps := by
  have hrun (cs : List Char) (hcs : cs ≠ []) : text (String.ofList cs) ∈ textRun cs := by
    rw [textRun, if_neg (by simpa using hcs)]
    exact List.mem_singleton.mpr rfl
  induction ps generalizing held with
  | nil => exact ⟨[], by rw [List.append_nil, assemble]; exact hrun held h⟩
  | cons p ps ih =>
    cases p with
    | plain source =>
      have hheld : held ++ source ≠ [] := by simp [h]
      obtain ⟨more, hmem⟩ := ih hheld
      exact ⟨source ++ more, by rw [← List.append_assoc]; exact hmem⟩
    | reference target =>
      refine ⟨[], ?_⟩
      rw [List.append_nil, assemble]
      exact List.mem_append_left _ (hrun held h)

/-- Pieces of text come out as part of one token. -/
theorem mem_assemble_of_plain {ms : List Piece} (h : targets ms = []) (hne : spelled ms ≠ [])
    (held : List Char) (ps qs : List Piece) :
    ∃ u v, text (String.ofList (u ++ spelled ms ++ v)) ∈ assemble held (ps ++ (ms ++ qs)) := by
  induction ps generalizing held with
  | nil =>
    rw [List.nil_append, assemble_append_of_plain h]
    have hheld : held ++ spelled ms ≠ [] := by simp [hne]
    obtain ⟨more, hmem⟩ := mem_assemble_of_held hheld qs
    exact ⟨held, more, hmem⟩
  | cons p ps ih =>
    cases p with
    | plain source => exact ih (held ++ source)
    | reference target =>
      obtain ⟨u, v, hmem⟩ := ih []
      exact ⟨u, v, List.mem_append_right _ (List.mem_cons_of_mem _ hmem)⟩

theorem spelled_pieces (h : targets (pieces known cs) = []) : spelled (pieces known cs) = cs := by
  induction cs using pieces.induct known with
  | case1 => rw [pieces_nil, spelled]
  | case2 c rest r after hr ih =>
    rw [pieces_of_some hr] at h
    cases h
  | case3 c rest after hr ih =>
    obtain ⟨source, -, hsource⟩ := exists_of_reference? hr
    rw [hsource] at hr h ⊢
    rw [pieces_of_passed hr] at h ⊢
    rw [spelled, ih h]
  | case4 c rest hr ih =>
    rw [pieces_of_none hr] at h ⊢
    rw [spelled, ih h, List.singleton_append]

end Assemble

section Split

theorem splitFrom_nil_eq (known : List String) (cs : List Char) :
    splitFrom known [] cs = assemble [] (pieces known cs) := splitFrom_eq known [] cs

theorem splitReferences_of_mem {s : String} {t : Value} (h : t ∈ splitFrom known [] s.toList) :
    splitReferences known s = splitFrom known [] s.toList := by
  rw [splitReferences]
  split
  next hnil => rw [hnil] at h; cases h
  next => rfl

/-- A text without references stays one token. -/
theorem splitReferences_of_plain {s : String} (h : targets (pieces known s.toList) = []) :
    splitReferences known s = [text s] := by
  have hsplit : splitFrom known [] s.toList = textRun s.toList := by
    have hall := assemble_append_of_plain h [] []
    rw [List.append_nil, List.nil_append, spelled_pieces h, assemble] at hall
    rw [splitFrom_nil_eq, hall]
  rw [splitReferences, hsplit, textRun]
  split <;> simp_all

/-- A reference with text behind it. -/
theorem splitReferences_of_reference {s : String}
    (h : reference? known s.toList = some (some r, after)) (hne : after ≠ [])
    (hrest : targets (pieces known after) = []) :
    splitReferences known s = [r.token, text (String.ofList after)] := by
  have hafter : assemble [] (pieces known after) = [text (String.ofList after)] := by
    have hall := assemble_append_of_plain hrest [] []
    rw [List.append_nil, List.nil_append, spelled_pieces hrest, assemble] at hall
    rw [hall, textRun, if_neg (by simpa using hne)]
  have hsplit : splitFrom known [] s.toList = [r.token, text (String.ofList after)] := by
    rw [splitFrom_nil_eq, pieces_of_some h, assemble, hafter]
    rfl
  rw [splitReferences_of_mem (hsplit ▸ List.mem_cons_self), hsplit]

theorem filter_splitReferences {p : Value → Bool} (h : ∀ s, p (text s) = false) (s : String) :
    (splitReferences known s).filter p =
      ((targets (pieces known s.toList)).map Reference.token).filter p := by
  rw [← filter_assemble h [], ← splitFrom_nil_eq, splitReferences]
  split
  next hnil =>
    rw [hnil, List.filter_cons_of_neg (by simp [h])]
  next => rfl

end Split

end Typeset.Token
