import Typeset.Proofs.Source.Written
import Typeset.Proofs.Text.Lines

/-! Lifting undoes writing down: the definitions of a document that holds nothing else come back as
they are, in order, and only empty lines stay. -/

namespace Typeset.Source

variable {d : LinkDefinition} {defs : List Written} {rest : List Line}

theorem Unbroken.append {cs ds : List Char} (hc : Unbroken cs) (hd : Unbroken ds) :
    Unbroken (cs ++ ds) := by
  intro c h
  exact (List.mem_append.mp h).elim (hc c) (hd c)

theorem Unbroken.cons {c : Char} {cs : List Char} (hc : Text.isLineBreak c = false)
    (hcs : Unbroken cs) : Unbroken (c :: cs) :=
  List.forall_mem_cons.mpr ⟨hc, hcs⟩

theorem unbroken_nil : Unbroken [] := List.forall_mem_nil _

theorem unbroken_titlePart (title : Option String) (h : ∀ t ∈ title, Unbroken t.toList) :
    Unbroken (titlePart title) := by
  cases title with
  | none => exact unbroken_nil
  | some t => exact .cons rfl (.cons rfl ((h t rfl).append (.cons rfl unbroken_nil)))

theorem LinkDefinition.Writable.unbroken_line (h : d.Writable) : Unbroken d.line := by
  have hend := unbroken_titlePart d.title h.title_unbroken
  have hurl : Unbroken (d.url.toList ++ '>' :: titlePart d.title) :=
    h.url_unbroken.append (.cons rfl hend)
  exact .cons rfl (h.label_unbroken.append (.cons rfl (.cons rfl (.cons rfl (.cons rfl hurl)))))

theorem Written.Fits.unbroken {w : Written} (h : w.Fits) :
    ∀ line ∈ w.lines, line ≠ [] ∧ Unbroken line := by
  intro line hl
  cases w with
  | link d =>
    obtain rfl := List.mem_singleton.mp hl
    exact ⟨List.cons_ne_nil _ _, LinkDefinition.Writable.unbroken_line h⟩
  | note identifier first more =>
    obtain ⟨-, hid, hfirst, hmore⟩ := h
    obtain rfl | hl := List.mem_cons.mp hl
    · have hidentifier : Unbroken identifier := by
        intro c hc
        have hblank := (hid c hc).2
        cases hb : Text.isLineBreak c with
        | false => rfl
        | true => rw [Text.isBlank_of_isLineBreak hb] at hblank; cases hblank
      have hbody : Unbroken (']' :: ':' :: ' ' :: first) :=
        .cons rfl (.cons rfl (.cons rfl hfirst))
      exact ⟨List.cons_ne_nil _ _, .cons rfl (.cons rfl (hidentifier.append hbody))⟩
    · obtain ⟨body, hb, rfl⟩ := List.mem_map.mp hl
      exact ⟨List.cons_ne_nil _ _,
        .cons rfl (.cons rfl (.cons rfl (.cons rfl (hmore body hb))))⟩

theorem lines_written {ending : List Char} (hne : defs ≠ []) (h : ∀ w ∈ defs, w.Fits)
    (hend : ending = [] ∨ ending = ['\n']) :
    Text.lines (written defs ++ ending) = defs.flatMap Written.lines := by
  refine Text.lines_intercalate ?_ ?_ hend
  · obtain ⟨w, defs, rfl⟩ := List.exists_cons_of_ne_nil hne
    obtain ⟨line, more, hw⟩ := w.lines_eq_cons
    simp [hw]
  · intro line hl
    obtain ⟨w, hw, hl⟩ := List.mem_flatMap.mp hl
    exact (h w hw).unbroken line hl

theorem liftFrom_link (h : d.Writable) :
    liftFrom none true (d.line :: rest) =
      { liftFrom none true rest with
        kept := [] :: (liftFrom none true rest).kept
        links := d :: (liftFrom none true rest).links } := by
  have hfence : fence? d.line = none := fence?_bracket
  rw [liftFrom]
  simp [hfence, noteStart?_line h, link?_line h]

theorem liftFrom_note {identifier first : Line} {more : List Line}
    (h : (Written.note identifier first more).Fits)
    (hrest : continuation rest = ([], rest)) :
    liftFrom none true ((Written.note identifier first more).lines ++ rest) =
      { liftFrom none true rest with
        kept := [] :: (liftFrom none true rest).kept
        notes := ⟨String.ofList identifier, String.ofList (['\n'].intercalate (first :: more))⟩ ::
          (liftFrom none true rest).notes } := by
  have hstart := noteStart?_head identifier first h.1 h.2.1
  rw [Written.lines, List.cons_append, liftFrom]
  simp only [fence?_bracket, hstart, continuation_indented more hrest]

/-- Each definition leaves one empty line behind. -/
theorem liftFrom_written (h : ∀ w ∈ defs, w.Fits) :
    liftFrom none true (defs.flatMap Written.lines) =
      { kept := defs.map fun _ => []
        links := defs.filterMap Written.link?
        notes := defs.filterMap Written.note? } := by
  induction defs with
  | nil => rw [List.flatMap_nil, liftFrom]; rfl
  | cons w defs ih =>
    have hw := h w List.mem_cons_self
    have htail := ih fun v hv => h v (List.mem_cons_of_mem w hv)
    cases w with
    | link d =>
      rw [List.flatMap_cons, Written.lines, List.singleton_append, liftFrom_link hw, htail]
      rfl
    | note identifier first more =>
      rw [List.flatMap_cons, liftFrom_note hw (continuation_written defs), htail]
      rfl

theorem liftDefinitions_nil : liftDefinitions [] = {} := by
  rw [liftDefinitions, show Text.lines [] = [] from rfl, liftFrom]

theorem liftDefinitions_newline : liftDefinitions ['\n'] = { kept := [[]] } := by
  rw [liftDefinitions, show Text.lines ['\n'] = [[]] from rfl, liftFrom]
  simp [fence?, noteStart?, link?, liftFrom]

theorem map_token_link? (defs : List Written) :
    (defs.filterMap Written.link?).map LinkDefinition.token = defs.filterMap Written.token? := by
  rw [List.map_filterMap]
  congr 1
  funext w
  cases w <;> rfl

theorem all_newline_intercalate {α : Type} (xs : List α) :
    ∀ c ∈ ['\n'].intercalate (xs.map fun _ => ([] : List Char)), c = '\n' := by
  induction xs with
  | nil => simp
  | cons x xs ih =>
    cases xs with
    | nil => simp
    | cons y ys =>
      rw [List.map_cons, List.map_cons, List.intercalate_cons_cons, List.nil_append]
      exact List.forall_mem_cons.mpr ⟨rfl, ih⟩

theorem lift_written (defs : List Written) (ending : List Char) (h : ∀ w ∈ defs, w.Fits)
    (hend : ending = [] ∨ ending = ['\n']) :
    (liftDefinitions (written defs ++ ending)).links.map LinkDefinition.token =
        defs.filterMap Written.token? ∧
      (liftDefinitions (written defs ++ ending)).notes = defs.filterMap Written.note? ∧
      ∀ c ∈ (liftDefinitions (written defs ++ ending)).text, c = '\n' := by
  by_cases hne : defs = []
  · subst hne
    obtain rfl | rfl := hend
    · rw [show written [] ++ [] = [] from rfl, liftDefinitions_nil]
      exact ⟨rfl, rfl, List.forall_mem_nil _⟩
    · rw [show written [] ++ ['\n'] = ['\n'] from rfl, liftDefinitions_newline]
      exact ⟨rfl, rfl, List.forall_mem_nil _⟩
  · rw [liftDefinitions, lines_written hne h hend, liftFrom_written h]
    exact ⟨map_token_link? defs, rfl, all_newline_intercalate defs⟩

/-- A title of quotation marks of the other kind, a footnote that begins with a fence and goes on
with what looks like a definition and with an empty line. -/
def hostile : List Written :=
  [.link ⟨"a [b", "<x y \"z\"", some "it's [c]: <d> (e)"⟩,
    .note ['^', '['] ['`', '`', '`'] [['[', 'a', ']', ':', ' ', 'b'], [], ['\t', 'x']],
    .link ⟨"a [b", "", none⟩,
    .note ['n'] [] []]

theorem lift_written_hostile :
    (∀ w ∈ hostile, w.Fits) ∧
      (liftDefinitions (written hostile ++ ['\n'])).links.map LinkDefinition.token =
          hostile.filterMap Written.token? ∧
        (liftDefinitions (written hostile ++ ['\n'])).notes =
          [⟨"^[", "```\n[a]: b\n\n\tx"⟩, ⟨"n", ""⟩] ∧
        ∀ c ∈ (liftDefinitions (written hostile ++ ['\n'])).text, c = '\n' := by
  have h : ∀ w ∈ hostile, w.Fits := by
    simp only [hostile, List.forall_mem_cons]
    refine ⟨?_, ?_, ?_, ?_, List.forall_mem_nil _⟩
    · constructor <;> decide
    · refine ⟨by decide, ?_, by decide, by decide⟩
      exact List.forall_mem_cons.mpr ⟨by decide, List.forall_mem_singleton.mpr (by decide)⟩
    · constructor <;> decide
    · exact ⟨by decide, List.forall_mem_singleton.mpr (by decide), by decide, by decide⟩
  exact ⟨h, lift_written hostile ['\n'] h (.inr rfl)⟩

end Typeset.Source
