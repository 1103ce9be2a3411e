import Typeset.Proofs.Source.Fenced

/-! Link definitions in a document without paragraphs: fenced code, blank lines and definitions, in
any order. Code blocks a definition as a paragraph would: behind it, over other definitions, none is
taken out until a blank line comes. -/

namespace Typeset.Source

open Text (isBlank)

variable {line opening closing : Line} {content : List Line} {d : LinkDefinition}

/-- A part of a document without paragraphs. -/
inductive Piece
  | code (opening : Line) (content : List Line) (closing : Line)
  | blank (line : Line)
  | definition (line : Line) (d : LinkDefinition)

namespace Piece

def lines : Piece → List Line
  | code opening content closing => opening :: (content ++ [closing])
  | blank line => [line]
  | definition line _ => [line]

/-- A fence of Markdown that is closed by its last line and none before, a blank line, or a link
definition at the beginning of its line. -/
def Sound : Piece → Prop
  | code opening content closing => ∃ f, openedFence? opening = some f ∧
    (∀ line ∈ content, f.closedBy line = false) ∧ f.closedBy closing = true
  | blank line => line.all isBlank = true
  | definition line d => link? line = some d

/-- No line of code is misread. -/
def Clear : Piece → Prop
  | code opening content _ => ∀ f, openedFence? opening = some f →
    ∀ line ∈ content, ¬Misread (some f) line
  | blank _ => True
  | definition .. => True

end Piece

variable {earlier : List Piece} {piece : Piece}

/-- Behind the end of a fence, with nothing but definitions between. -/
inductive BehindCode : List Piece → Prop
  | code (earlier : List Piece) (opening : Line) (content : List Line) (closing : Line) :
    BehindCode (earlier ++ [.code opening content closing])
  | definition {earlier : List Piece} (h : BehindCode earlier) (line : Line)
    (d : LinkDefinition) : BehindCode (earlier ++ [.definition line d])

section BehindCode

theorem BehindCode.last (h : BehindCode (earlier ++ [piece])) :
    (∃ opening content closing, piece = .code opening content closing) ∨
      ∃ line d, piece = .definition line d ∧ BehindCode earlier := by
  generalize heq : earlier ++ [piece] = pieces at h
  cases h with
  | code first opening content closing =>
    exact .inl ⟨opening, content, closing, (List.append_singleton_inj.mp heq).2⟩
  | definition h line d =>
    obtain ⟨rfl, hpiece⟩ := List.append_singleton_inj.mp heq
    exact .inr ⟨line, d, hpiece, h⟩

theorem not_behindCode_nil : ¬BehindCode [] := by
  intro h
  generalize heq : ([] : List Piece) = pieces at h
  cases h with
  | code => simp at heq
  | definition => simp at heq

theorem not_behindCode_blank (line : Line) : ¬BehindCode (earlier ++ [.blank line]) := by
  intro h
  obtain ⟨opening, content, closing, heq⟩ | ⟨line, d, heq, -⟩ := h.last
  · cases heq
  · cases heq

theorem behindCode_definition :
    BehindCode (earlier ++ [.definition line d]) ↔ BehindCode earlier := by
  refine ⟨fun h => ?_, fun h => .definition h line d⟩
  obtain ⟨opening, content, closing, heq⟩ | ⟨line, d, -, h⟩ := h.last
  · cases heq
  · exact h

end BehindCode

section Lines

/-- The line of a definition begins with a bracket, and is no footnote. -/
theorem eq_bracket_of_link? (h : link? line = some d) :
    ∃ c rest, line = '[' :: c :: rest ∧ c ≠ '^' := by
  unfold link? at h
  split at h
  next c rest =>
    split at h
    · cases h
    next hc => exact ⟨c, rest, rfl, fun hcaret => hc (by simp [hcaret])⟩
  · cases h

theorem starts_of_link? (h : link? line = some d) : Starts line := by
  obtain ⟨c, rest, rfl, -⟩ := eq_bracket_of_link? h
  exact starts_bracket _

theorem fence?_of_link? (h : link? line = some d) : fence? line = none := by
  obtain ⟨c, rest, rfl, -⟩ := eq_bracket_of_link? h
  rfl

theorem noteStart?_of_link? (h : link? line = some d) : noteStart? line = none := by
  obtain ⟨c, rest, rfl, hc⟩ := eq_bracket_of_link? h
  simp [noteStart?, hc]

/-- The fences that are open as definitions are taken out are fences of Markdown, too. -/
theorem exists_fence_of_fence? {run : Line} (h : fence? line = some run) :
    ∃ f : Fence, run = f.run := by
  by_cases hmisread : Misread none line
  · cases hmisread with
    | @opening margin count behind hmargin hcount hbehind hmore =>
      rw [fence?_lead margin (by omega) (by decide) hbehind,
        if_pos ⟨.inl rfl, hcount, hmargin⟩] at h
      cases h
      exact ⟨⟨'`', count, .inl rfl, hcount⟩, rfl⟩
  · rw [fence?_of_not_misread hmisread] at h
    obtain ⟨f, -, rfl⟩ := Option.map_eq_some_iff.mp h
    exact ⟨f, rfl⟩

theorem exists_fence_of_opened {before : List Line} {run : Line}
    (h : (Place.behind before).opened = some run) : ∃ f : Fence, run = f.run := by
  induction before using List.reverseRecOn with
  | nil => cases h
  | append_singleton before line ih =>
    rw [opened_concat] at h
    cases hbefore : (Place.behind before).opened with
    | none =>
      rw [hbefore] at h
      exact exists_fence_of_fence? h
    | some other =>
      rw [hbefore, nextOpened] at h
      split at h
      · cases h
      · cases h
        exact ih hbefore

variable {f : Fence}

theorem exists_mark_of_closesFence (h : closesFence f.run line = true) :
    ∃ lead rest, (∀ c ∈ lead, isBlank c = true) ∧ line = lead ++ f.mark :: rest := by
  obtain ⟨lead, count, behind, hlead, hcount, -, rfl⟩ := closesFence_iff.mp h
  obtain ⟨count, rfl⟩ :=
    Nat.exists_eq_succ_of_ne_zero (Nat.pos_iff_ne_zero.mp (Fence.pos_of_le hcount))
  exact ⟨lead, List.replicate count f.mark ++ behind, hlead, rfl⟩

theorem closesFence_blank (h : line.all isBlank = true) : closesFence f.run line = false := by
  rw [Bool.eq_false_iff]
  intro hcloses
  obtain ⟨lead, rest, -, rfl⟩ := exists_mark_of_closesFence hcloses
  have hmark := List.all_eq_true.mp h f.mark (by simp)
  rw [f.mark_shown] at hmark
  cases hmark

theorem closesFence_bracket (rest : Line) : closesFence f.run ('[' :: rest) = false := by
  rw [Bool.eq_false_iff]
  intro hcloses
  obtain ⟨lead, more, hlead, heq⟩ := exists_mark_of_closesFence hcloses
  cases lead with
  | nil =>
    obtain ⟨hmark, -⟩ := List.cons.inj heq
    have hkind := f.isMark
    rw [← hmark] at hkind
    exact absurd hkind (by decide)
  | cons c lead =>
    obtain ⟨rfl, -⟩ := List.cons.inj heq
    exact absurd (hlead '[' List.mem_cons_self) (by decide)

end Lines

section Pieces

/-- A blank line behind which no fence is open admits a definition. -/
theorem Place.admits_next_blank {place : Place} (h : line.all isBlank = true)
    (hrun : ∀ run, place.opened = some run → ∃ f : Fence, run = f.run)
    (hopened : (place.next line).opened = none) : (place.next line).admits = true := by
  cases place with
  | text afterBlank =>
    rw [Place.next, Place.outside_blank afterBlank h]
    rfl
  | code run =>
    obtain ⟨f, rfl⟩ := hrun run rfl
    rw [Place.next, closesFence_blank h] at hopened
    cases hopened
  | note =>
    rw [Place.next]
    split
    · rfl
    · rfl
  | gap =>
    rw [Place.next, Place.outside_blank true h]
    split
    · rfl
    · rfl

/-- A definition does not change what may come behind it. -/
theorem Place.next_definition {place : Place} (h : link? line = some d)
    (hrun : ∀ run, place.opened = some run → ∃ f : Fence, run = f.run)
    (hopened : (place.next line).opened = none) :
    place.opened = none ∧ (place.next line).admits = place.admits := by
  have hstarts := starts_of_link? h
  have houtside (afterBlank : Bool) :
      Place.outside afterBlank line = .text afterBlank := by
    cases afterBlank with
    | true => simp [Place.outside, fence?_of_link? h, noteStart?_of_link? h, h]
    | false => simp [Place.outside, fence?_of_link? h, noteStart?_of_link? h, hstarts.shown]
  cases place with
  | text afterBlank => exact ⟨rfl, by rw [Place.next, houtside]⟩
  | code run =>
    obtain ⟨f, rfl⟩ := hrun run rfl
    obtain ⟨c, rest, rfl, -⟩ := eq_bracket_of_link? h
    rw [Place.next, closesFence_bracket] at hopened
    cases hopened
  | note =>
    have hnext : Place.next .note line = .text true := by
      simp [Place.next, hstarts.unindented, hstarts.shown, houtside]
    exact ⟨rfl, by rw [hnext]; rfl⟩
  | gap =>
    have hnext : Place.next .gap line = .text true := by
      simp [Place.next, hstarts.unindented, houtside]
    exact ⟨rfl, by rw [hnext]; rfl⟩

/-- A line that closes a fence might open one. -/
theorem isSome_fence?_of_closedBy {f : Fence} (h : f.closedBy line = true) :
    (fence? line).isSome = true := by
  obtain ⟨margin, count, behind, hmargin, hcount, hbehind, rfl⟩ := closedBy_iff.mp h
  rw [fence?_lead margin (Fence.pos_of_le hcount) f.mark_ne_space (Fence.head?_blank hbehind),
    if_pos ⟨f.isMark, Nat.le_trans f.long hcount, hmargin⟩]
  rfl

/-- A line that closes a fence of Markdown leaves none open only by closing one, and then admits no
definition. -/
theorem Place.admits_next_closing {place : Place} {f : Fence} (h : f.closedBy line = true)
    (hopened : (place.next line).opened = none) : (place.next line).admits = false := by
  have hfence := isSome_fence?_of_closedBy h
  cases hplace : place.opened with
  | none =>
    rw [Place.opened_next, hplace, nextOpened] at hopened
    rw [hopened] at hfence
    cases hfence
  | some run =>
    cases place with
    | code fence =>
      rw [Place.next] at hopened ⊢
      split
      · rfl
      · rfl
    | text afterBlank => cases hplace
    | note => cases hplace
    | gap => cases hplace

/-- Where no fence is open, a definition may come unless there is code above. -/
theorem admits_iff (h : ∀ piece ∈ earlier, piece.Sound)
    (hopened : (Place.behind (earlier.flatMap Piece.lines)).opened = none) :
    (Place.behind (earlier.flatMap Piece.lines)).admits = true ↔ ¬BehindCode earlier := by
  induction earlier using List.reverseRecOn with
  | nil => exact iff_of_true rfl not_behindCode_nil
  | append_singleton earlier piece ih =>
    rw [List.flatMap_append, List.flatMap_singleton] at hopened ⊢
    obtain ⟨hearlier, hpiece⟩ := List.forall_mem_append.mp h
    have hpiece := hpiece piece List.mem_cons_self
    have hrun (run : Line) := @exists_fence_of_opened (earlier.flatMap Piece.lines) run
    cases piece with
    | blank line =>
      rw [Piece.lines, Place.behind_concat] at hopened ⊢
      exact iff_of_true (Place.admits_next_blank hpiece hrun hopened) (not_behindCode_blank line)
    | definition line d =>
      rw [Piece.lines, Place.behind_concat] at hopened ⊢
      obtain ⟨hbefore, hadmits⟩ := Place.next_definition hpiece hrun hopened
      rw [hadmits, behindCode_definition]
      exact ih hearlier hbefore
    | code opening content closing =>
      obtain ⟨f, -, -, hcloses⟩ := hpiece
      rw [Piece.lines, ← List.cons_append, ← List.append_assoc, Place.behind_concat] at hopened ⊢
      rw [Place.admits_next_closing hcloses hopened]
      exact iff_of_false Bool.false_ne_true fun hnot => hnot (.code earlier opening content closing)

/-- A fence is open from its first line to its last, in any reading. -/
theorem foldl_code {σ : Type} {next : σ → Line → σ} {outside : σ} (inside : σ)
    (hopening : next outside opening = inside)
    (hcontent : ∀ line ∈ content, next inside line = inside)
    (hclosing : next inside closing = outside) :
    (opening :: (content ++ [closing])).foldl next outside = outside := by
  have hinside : content.foldl next inside = inside := by
    induction content with
    | nil => rfl
    | cons line content ih =>
      obtain ⟨hline, hmore⟩ := List.forall_mem_cons.mp hcontent
      rw [List.foldl_cons, hline]
      exact ih hmore
  rw [List.foldl_cons, hopening, List.foldl_concat, hinside, hclosing]

theorem openedFence?_of_fence? (h : fence? line = none) : openedFence? line = none := by
  by_cases hmisread : Misread none line
  · exact (fence?_of_misread hmisread).2
  · rw [fence?_of_not_misread hmisread] at h
    exact Option.map_eq_none_iff.mp h

/-- In Markdown no fence is open behind the pieces. -/
theorem openFence_of_sound (h : ∀ piece ∈ earlier, piece.Sound) :
    openFence (earlier.flatMap Piece.lines) = none := by
  induction earlier using List.reverseRecOn with
  | nil => rfl
  | append_singleton earlier piece ih =>
    obtain ⟨hearlier, hpiece⟩ := List.forall_mem_append.mp h
    have hpiece := hpiece piece List.mem_cons_self
    have hbefore := ih hearlier
    rw [openFence] at hbefore
    rw [openFence, List.flatMap_append, List.flatMap_singleton, List.foldl_append, hbefore]
    cases piece with
    | blank line => exact openedFence?_of_fence? (fence?_blank hpiece)
    | definition line d => exact openedFence?_of_fence? (fence?_of_link? hpiece)
    | code opening content closing =>
      obtain ⟨f, hopening, hcontent, hclosing⟩ := hpiece
      refine foldl_code (some f) hopening (fun line hline => ?_) ?_
      · rw [nextFence, hcontent line hline, if_neg Bool.false_ne_true]
      · rw [nextFence, hclosing, if_pos rfl]

theorem opened_append (before ls : List Line) :
    (Place.behind (before ++ ls)).opened = ls.foldl nextOpened (Place.behind before).opened := by
  induction ls using List.reverseRecOn with
  | nil => rw [List.append_nil, List.foldl_nil]
  | append_singleton ls line ih =>
    rw [← List.append_assoc, opened_concat, ih, List.foldl_concat]

/-- Where no line of code is misread, none is left open as definitions are taken out. -/
theorem opened_of_clear (h : ∀ piece ∈ earlier, piece.Sound)
    (hclear : ∀ piece ∈ earlier, piece.Clear) :
    (Place.behind (earlier.flatMap Piece.lines)).opened = none := by
  induction earlier using List.reverseRecOn with
  | nil => rfl
  | append_singleton earlier piece ih =>
    obtain ⟨hearlier, hpiece⟩ := List.forall_mem_append.mp h
    obtain ⟨hearlierClear, hpieceClear⟩ := List.forall_mem_append.mp hclear
    have hpiece := hpiece piece List.mem_cons_self
    have hpieceClear := hpieceClear piece List.mem_cons_self
    rw [List.flatMap_append, List.flatMap_singleton, opened_append, ih hearlier hearlierClear]
    cases piece with
    | blank line => exact fence?_blank hpiece
    | definition line d => exact fence?_of_link? hpiece
    | code opening content closing =>
      obtain ⟨f, hopening, hcontent, hclosing⟩ := hpiece
      have hopened : ¬Misread none opening := by
        intro hmisread
        rw [(fence?_of_misread hmisread).2] at hopening
        cases hopening
      refine foldl_code (some f.run) ?_ (fun line hline => ?_) ?_
      · rw [nextOpened, fence?_of_not_misread hopened, hopening, Option.map_some]
      · rw [nextOpened, closesFence_of_not_misread (hpieceClear f hopening line hline),
          hcontent line hline, if_neg Bool.false_ne_true]
      · rw [nextOpened, closesFence_of_closedBy hclosing, if_pos rfl]

end Pieces

/-- In a document without paragraphs, a link definition lies outside the fences of Markdown. It is
taken out exactly if no fence is left open as definitions are taken out, either, and no code stands
above it with nothing but definitions between; otherwise it stays. No fence is left open where no
line of code is misread. -/
theorem definition_taken_iff {cs : List Char} {after : List Line}
    (hlines : Text.lines cs = earlier.flatMap Piece.lines ++ line :: after)
    (hsound : ∀ piece ∈ earlier, piece.Sound) (hlink : link? line = some d) :
    openFence (earlier.flatMap Piece.lines) = none ∧
      (Gives cs (earlier.flatMap Piece.lines) { kept := [[]], links := [d] } ↔
        (Place.behind (earlier.flatMap Piece.lines)).opened = none ∧ ¬BehindCode earlier) ∧
      (Gives cs (earlier.flatMap Piece.lines) { kept := [line] } ↔
        ¬((Place.behind (earlier.flatMap Piece.lines)).opened = none ∧ ¬BehindCode earlier)) ∧
      ((∀ piece ∈ earlier, piece.Clear) →
        (Place.behind (earlier.flatMap Piece.lines)).opened = none) := by
  have hstarts := starts_of_link? hlink
  have htaken (h : (Place.behind (earlier.flatMap Piece.lines)).opened = none ∧
      ¬BehindCode earlier) :
      Gives cs (earlier.flatMap Piece.lines) { kept := [[]], links := [d] } := by
    have hadmits := (admits_iff hsound h.1).mpr h.2
    refine gives_of_rest hstarts hlines ?_
    rw [h.1, hadmits]
    exact ⟨_, liftFrom_of_link (fence?_of_link? hlink) (noteStart?_of_link? hlink) hlink⟩
  have hkept (h : ¬((Place.behind (earlier.flatMap Piece.lines)).opened = none ∧
      ¬BehindCode earlier)) : Gives cs (earlier.flatMap Piece.lines) { kept := [line] } := by
    cases hopened : (Place.behind (earlier.flatMap Piece.lines)).opened with
    | some run => exact gives_inside hstarts hlines hopened
    | none =>
      have hadmits : (Place.behind (earlier.flatMap Piece.lines)).admits = false := by
        rw [Bool.eq_false_iff]
        intro hadmits
        exact h ⟨hopened, (admits_iff hsound hopened).mp hadmits⟩
      refine gives_of_rest hstarts hlines ?_
      rw [hopened, hadmits]
      exact ⟨_, liftFrom_of_plain (fence?_of_link? hlink) (noteStart?_of_link? hlink) rfl⟩
  obtain ⟨htakenIff, hkeptIff⟩ := gives_iff hstarts rfl htaken hkept
  exact ⟨openFence_of_sound hsound, htakenIff, hkeptIff, opened_of_clear hsound⟩

/-- Code with a definition in it, a blank line and a definition. -/
def spacedPieces : List Piece :=
  [.code "~~~ x".toList ["[a]: b".toList] " ~~~~ ".toList, .blank [' '],
    .definition "[c]: /u".toList ⟨"c", "/u", none⟩]

def spaced : List Char := "~~~ x\n[a]: b\n ~~~~ \n \n[c]: /u\n[d]: <v> (t)\n\nz".toList

theorem definition_taken_iff_spaced :
    Text.lines spaced = spacedPieces.flatMap Piece.lines ++ "[d]: <v> (t)".toList :: [[], ['z']] ∧
      (∀ piece ∈ spacedPieces, piece.Sound) ∧
      link? "[d]: <v> (t)".toList = some ⟨"d", "v", some "t"⟩ ∧
      openFence (spacedPieces.flatMap Piece.lines) = none ∧
      (Gives spaced (spacedPieces.flatMap Piece.lines)
          { kept := [[]], links := [⟨"d", "v", some "t"⟩] } ↔
        (Place.behind (spacedPieces.flatMap Piece.lines)).opened = none ∧
          ¬BehindCode spacedPieces) ∧
      (Gives spaced (spacedPieces.flatMap Piece.lines) { kept := ["[d]: <v> (t)".toList] } ↔
        ¬((Place.behind (spacedPieces.flatMap Piece.lines)).opened = none ∧
          ¬BehindCode spacedPieces)) ∧
      ((∀ piece ∈ spacedPieces, piece.Clear) →
        (Place.behind (spacedPieces.flatMap Piece.lines)).opened = none) := by
  have hlines : Text.lines spaced =
      spacedPieces.flatMap Piece.lines ++ "[d]: <v> (t)".toList :: [[], ['z']] := by cbv
  have hsound : ∀ piece ∈ spacedPieces, piece.Sound := by
    simp only [spacedPieces, List.forall_mem_cons]
    exact ⟨⟨⟨'~', 3, by decide, by decide⟩, rfl, by decide, by decide⟩, rfl, by cbv,
      List.forall_mem_nil _⟩
  have hlink : link? "[d]: <v> (t)".toList = some ⟨"d", "v", some "t"⟩ := by cbv
  exact ⟨hlines, hsound, hlink, definition_taken_iff hlines hsound hlink⟩

/-- A definition straight below code is not taken out, though no paragraph stands above it. -/
theorem definition_belowCode_stays :
    Text.lines "```\na\n```\n[b]: /u".toList =
        (Piece.code "```".toList [['a']] "```".toList).lines ++ "[b]: /u".toList :: [] ∧
      (Piece.code "```".toList [['a']] "```".toList).Sound ∧
      link? "[b]: /u".toList = some ⟨"b", "/u", none⟩ ∧
      (liftDefinitions "```\na\n```\n[b]: /u".toList).links = [] :=
  ⟨by cbv, ⟨⟨'`', 3, by decide, by decide⟩, rfl, by decide, by decide⟩, by cbv, by cbv⟩

/-- A line of code that is misread ends the fence, so that its last line opens another one. -/
example : (Piece.code "```".toList ["    ```".toList] "```".toList).Sound ∧
    (liftDefinitions "```\n    ```\n```\n\n[b]: /u".toList).links = [] :=
  ⟨⟨⟨'`', 3, by decide, by decide⟩, rfl, by decide, by decide⟩, by cbv⟩

end Typeset.Source
