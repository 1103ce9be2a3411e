import Typeset.Proofs.Source.Place
import Typeset.Proofs.Text.Trim

/-! Footnotes and fenced code. A line `[^id]:` is taken out exactly where no fence is open, but
which fences are open is not read as in Markdown: a line of inline code between three backticks
opens one here, and a closing fence may stand as far in as it likes. Until the first such line the
two readings agree, and directly behind it they do not. -/

namespace Typeset.Source

variable {line behind : Line} {before after : List Line}

/-- A fence by its character and how many of them it has. -/
structure Fence where
  mark : Char
  count : Nat
  isMark : mark = '`' ∨ mark = '~'
  long : 3 ≤ count

/-- The fence that a line opens in Markdown: three or more backticks or tildes, at most three spaces
in, and behind backticks no further one. -/
def openedFence? (line : Line) : Option Fence :=
  let body := line.dropWhile (· == ' ')
  match body with
  | [] => none
  | mark :: _ =>
    if h : (mark = '`' ∨ mark = '~') ∧ 3 ≤ (body.takeWhile (· == mark)).length ∧
        (line.takeWhile (· == ' ')).length ≤ 3 ∧
        (mark = '`' → '`' ∉ body.dropWhile (· == mark)) then
      some ⟨mark, (body.takeWhile (· == mark)).length, h.1, h.2.1⟩
    else none

namespace Fence

variable {f : Fence}

/-- Whether a line closes a fence in Markdown: at most three spaces in, it holds the fence's
character, at least as often, and nothing behind it but white space. -/
def closedBy (f : Fence) (line : Line) : Bool :=
  let body := line.dropWhile (· == ' ')
  (line.takeWhile (· == ' ')).length ≤ 3 &&
    f.count ≤ (body.takeWhile (· == f.mark)).length &&
    (body.dropWhile (· == f.mark)).all Text.isBlank

/-- The characters of a fence. -/
def run (f : Fence) : Line := List.replicate f.count f.mark

theorem mark_shown (f : Fence) : Text.isBlank f.mark = false := by
  rcases f.isMark with h | h
  · rw [h]; rfl
  · rw [h]; rfl

theorem mark_ne_space (f : Fence) : f.mark ≠ ' ' := by
  intro h
  have hmark := f.mark_shown
  rw [h] at hmark
  cases hmark

theorem pos_of_le {count : Nat} (h : f.count ≤ count) : 0 < count := by
  have hlong := f.long
  omega

theorem head?_run (f : Fence) : f.run.head? = some f.mark := by
  obtain ⟨count, hcount⟩ :=
    Nat.exists_eq_succ_of_ne_zero (Nat.pos_iff_ne_zero.mp (f.pos_of_le (Nat.le_refl _)))
  rw [run, hcount, List.replicate_succ, List.head?_cons]

/-- White space behind a fence's marks ends them. -/
theorem head?_blank (h : ∀ c ∈ behind, Text.isBlank c = true) : behind.head? ≠ some f.mark := by
  intro hhead
  have hmark := h f.mark (List.mem_of_mem_head? hhead)
  rw [f.mark_shown] at hmark
  cases hmark

end Fence

/-- The fence that is open behind one more line, in Markdown. -/
def nextFence : Option Fence → Line → Option Fence
  | none, line => openedFence? line
  | some f, line => if f.closedBy line then none else some f

/-- The fence that is open behind lines, in Markdown. -/
def openFence (before : List Line) : Option Fence := before.foldl nextFence none

/-- The run of characters that is open behind one more line, as definitions are taken out. -/
def nextOpened : Option Line → Line → Option Line
  | none, line => fence? line
  | some run, line => if closesFence run line then none else some run

theorem Place.opened_outside (afterBlank : Bool) (line : Line) :
    (Place.outside afterBlank line).opened = fence? line := by
  unfold Place.outside
  cases fence? line with
  | some run => rfl
  | none =>
    cases noteStart? line with
    | some found => rfl
    | none =>
      cases if afterBlank then link? line else none with
      | some d => rfl
      | none => rfl

/-- The fence is read line by line, whatever stands outside it. -/
theorem Place.opened_next (place : Place) (line : Line) :
    (place.next line).opened = nextOpened place.opened line := by
  cases place with
  | text afterBlank => exact Place.opened_outside afterBlank line
  | code run =>
    rw [Place.next, Place.opened, nextOpened]
    split
    · rfl
    · rfl
  | note =>
    rw [Place.next]
    split
    next h => exact (fence?_indented h).symm
    next =>
      split
      next hblank => exact (fence?_blank hblank).symm
      next => exact Place.opened_outside true line
  | gap =>
    rw [Place.next]
    split
    next h => exact (fence?_indented h).symm
    next => exact Place.opened_outside true line

section Lines

variable {margin count : Nat} {mark : Char}

theorem blank_margin (margin : Nat) : ∀ c ∈ List.replicate margin ' ', Text.isBlank c = true := by
  intro c hc
  rw [List.eq_of_mem_replicate hc]
  rfl

theorem head?_lead (mark : Char) (hcount : 0 < count) (behind : Line) :
    (List.replicate count mark ++ behind).head? = some mark := by
  obtain ⟨count, rfl⟩ := Nat.exists_eq_succ_of_ne_zero (Nat.pos_iff_ne_zero.mp hcount)
  rw [List.replicate_succ, List.cons_append, List.head?_cons]

/-- A line with so many marks behind a margin, as definitions are taken out. -/
theorem fence?_lead (margin : Nat) (hcount : 0 < count) (hmark : mark ≠ ' ')
    (hbehind : behind.head? ≠ some mark) :
    fence? (List.replicate margin ' ' ++ (List.replicate count mark ++ behind)) =
      if (mark = '`' ∨ mark = '~') ∧ 3 ≤ count ∧ margin ≤ 3 then
        some (List.replicate count mark)
      else none := by
  have hhead := head?_lead mark hcount behind
  have hspaces := Text.takeWhile_run (c := ' ') margin (by rw [hhead]; simpa using hmark)
  have hrun := Text.takeWhile_run count hbehind
  obtain ⟨rest, hrest⟩ := List.head?_eq_some_iff.mp hhead
  unfold fence?
  simp only [hspaces, List.drop_left]
  rw [hrest] at hrun ⊢
  simp only [hrun, List.length_replicate]
  grind

/-- A line with so many marks behind a margin, in Markdown. -/
theorem openedFence?_lead (margin : Nat) (hcount : 0 < count) (hmark : mark ≠ ' ')
    (hbehind : behind.head? ≠ some mark) :
    openedFence? (List.replicate margin ' ' ++ (List.replicate count mark ++ behind)) =
      if h : (mark = '`' ∨ mark = '~') ∧ 3 ≤ count ∧ margin ≤ 3 ∧ (mark = '`' → '`' ∉ behind) then
        some ⟨mark, count, h.1, h.2.1⟩
      else none := by
  have hhead := head?_lead mark hcount behind
  have hfree : (List.replicate count mark ++ behind).head? ≠ some ' ' := by
    rw [hhead]
    simpa using hmark
  have hspaces := Text.takeWhile_run margin hfree
  have hbody := Text.dropWhile_run margin hfree
  have hrun := Text.takeWhile_run count hbehind
  have hrest := Text.dropWhile_run count hbehind
  obtain ⟨rest, heq⟩ := List.head?_eq_some_iff.mp hhead
  rw [heq] at hspaces hbody hrun hrest
  unfold openedFence?
  rw [heq]
  simp only [hspaces, hbody, hrun, hrest, List.length_replicate]

variable {f : Fence}

theorem closedBy_iff :
    f.closedBy line = true ↔ ∃ margin count behind, margin ≤ 3 ∧ f.count ≤ count ∧
      (∀ c ∈ behind, Text.isBlank c = true) ∧
      line = List.replicate margin ' ' ++ (List.replicate count f.mark ++ behind) := by
  constructor
  · intro h
    obtain ⟨margin, body, rfl, hbody⟩ := Text.exists_run ' ' line
    obtain ⟨count, behind, rfl, hbehind⟩ := Text.exists_run f.mark body
    simp only [Fence.closedBy, Text.takeWhile_run margin hbody, Text.dropWhile_run margin hbody,
      Text.takeWhile_run count hbehind, Text.dropWhile_run count hbehind, List.length_replicate,
      Bool.and_eq_true, decide_eq_true_eq, List.all_eq_true] at h
    exact ⟨margin, count, behind, h.1.1, h.1.2, h.2, rfl⟩
  · rintro ⟨margin, count, behind, hmargin, hcount, hblank, rfl⟩
    have hbehind : behind.head? ≠ some f.mark := Fence.head?_blank hblank
    have hbody : (List.replicate count f.mark ++ behind).head? ≠ some ' ' := by
      rw [head?_lead f.mark (Fence.pos_of_le hcount)]
      simpa using f.mark_ne_space
    simp only [Fence.closedBy, Text.takeWhile_run margin hbody, Text.dropWhile_run margin hbody,
      Text.takeWhile_run count hbehind, Text.dropWhile_run count hbehind, List.length_replicate,
      Bool.and_eq_true, decide_eq_true_eq, List.all_eq_true]
    exact ⟨⟨hmargin, hcount⟩, hblank⟩

/-- As definitions are taken out, a fence is closed by marks behind any white space. -/
theorem closesFence_iff :
    closesFence f.run line = true ↔ ∃ lead count behind, (∀ c ∈ lead, Text.isBlank c = true) ∧
      f.count ≤ count ∧ (∀ c ∈ behind, Text.isBlank c = true) ∧
      line = lead ++ (List.replicate count f.mark ++ behind) := by
  have hrun : f.run.length = f.count := List.length_replicate
  constructor
  · intro h
    simp only [closesFence, hrun, f.head?_run, Bool.and_eq_true, decide_eq_true_eq,
      List.all_eq_true, beq_iff_eq, Option.some.injEq] at h
    obtain ⟨lead, behind, hline, hlead, hbehind⟩ := Text.exists_trim line
    have hmarks : Text.trim Text.isBlank line =
        List.replicate (Text.trim Text.isBlank line).length f.mark :=
      List.eq_replicate_iff.mpr ⟨rfl, fun c hc => (h.2 c hc).symm⟩
    exact ⟨lead, _, behind, hlead, h.1, hbehind, by rw [← hmarks]; exact hline⟩
  · rintro ⟨lead, count, behind, hlead, hcount, hbehind, rfl⟩
    have hself : Text.trim Text.isBlank (List.replicate count f.mark) =
        List.replicate count f.mark := by
      have hmark (c : Char) (hc : c ∈ List.replicate count f.mark) : Text.isBlank c = false := by
        rw [List.eq_of_mem_replicate hc]
        exact f.mark_shown
      exact Text.trim_eq_self (fun c hc => hmark c (List.mem_of_mem_head? hc))
        (fun c hc => hmark c (List.mem_of_mem_getLast? hc))
    have htrim : Text.trim Text.isBlank (lead ++ (List.replicate count f.mark ++ behind)) =
        List.replicate count f.mark := by
      rw [Text.trim_append_of_head hlead, Text.trim_append_of_last hbehind, hself]
    simp only [closesFence, htrim, hrun, f.head?_run, List.length_replicate, Bool.and_eq_true,
      decide_eq_true_eq, List.all_eq_true, beq_iff_eq, Option.some.injEq]
    exact ⟨hcount, fun c hc => (List.eq_of_mem_replicate hc).symm⟩

/-- The marks of a fence end the white space before them. -/
theorem takeWhile_lead {lead : Line} (hlead : ∀ c ∈ lead, Text.isBlank c = true)
    (hcount : 0 < count) (behind : Line) :
    (lead ++ (List.replicate count f.mark ++ behind)).takeWhile Text.isBlank = lead := by
  obtain ⟨count, rfl⟩ := Nat.exists_eq_succ_of_ne_zero (Nat.pos_iff_ne_zero.mp hcount)
  rw [List.takeWhile_append_of_pos hlead, List.replicate_succ, List.cons_append,
    List.takeWhile_cons_of_neg (by simp [f.mark_shown]), List.append_nil]

theorem closesFence_of_closedBy (h : f.closedBy line = true) : closesFence f.run line = true := by
  obtain ⟨margin, count, behind, -, hcount, hbehind, rfl⟩ := closedBy_iff.mp h
  exact closesFence_iff.mpr ⟨_, count, behind, blank_margin margin, hcount, hbehind, rfl⟩

end Lines

/-- The lines on which the two readings part, by the fence that is open in Markdown: backticks with
more of them behind, which open no fence there, and marks further in than a closing fence may be. -/
inductive Misread : Option Fence → Line → Prop
  | opening {margin count : Nat} {behind : Line} (hmargin : margin ≤ 3) (hcount : 3 ≤ count)
    (hbehind : behind.head? ≠ some '`') (hmore : '`' ∈ behind) :
    Misread none (List.replicate margin ' ' ++ (List.replicate count '`' ++ behind))
  | closing {f : Fence} {lead behind : Line} {count : Nat}
    (hlead : ∀ c ∈ lead, Text.isBlank c = true) (hcount : f.count ≤ count)
    (hbehind : ∀ c ∈ behind, Text.isBlank c = true)
    (hdeep : ∀ margin ≤ 3, lead ≠ List.replicate margin ' ') :
    Misread (some f) (lead ++ (List.replicate count f.mark ++ behind))

section Readings

variable {f : Fence} {state : Option Fence}

/-- Outside fences, a line that is not misread opens the same fence in both readings. -/
theorem fence?_of_not_misread (h : ¬Misread none line) :
    fence? line = (openedFence? line).map Fence.run := by
  obtain ⟨margin, body, rfl, hbody⟩ := Text.exists_run ' ' line
  cases body with
  | nil =>
    have hblank : (List.replicate margin ' ' ++ []).all Text.isBlank = true := by
      rw [List.append_nil, List.all_eq_true]
      exact blank_margin margin
    have hnone : openedFence? (List.replicate margin ' ' ++ []) = none := by
      simp only [openedFence?, Text.dropWhile_run margin hbody]
    rw [fence?_blank hblank, hnone]
    rfl
  | cons mark rest =>
    obtain ⟨count, behind, hrest, hbehind⟩ := Text.exists_run mark (mark :: rest)
    have hmark : mark ≠ ' ' := by simpa using hbody
    have hcount : 0 < count := by
      rcases Nat.eq_zero_or_pos count with rfl | hpos
      · rw [List.replicate_zero, List.nil_append] at hrest
        rw [← hrest] at hbehind
        exact absurd rfl hbehind
      · exact hpos
    rw [hrest] at h ⊢
    rw [fence?_lead margin hcount hmark hbehind, openedFence?_lead margin hcount hmark hbehind]
    by_cases hopens : (mark = '`' ∨ mark = '~') ∧ 3 ≤ count ∧ margin ≤ 3
    · obtain ⟨hkind, hlong, hmargin⟩ := hopens
      have hno : mark = '`' → '`' ∉ behind := by
        rintro rfl hmem
        exact h (.opening hmargin hlong hbehind hmem)
      rw [if_pos ⟨hkind, hlong, hmargin⟩, dif_pos ⟨hkind, hlong, hmargin, hno⟩]
      rfl
    · rw [if_neg hopens, dif_neg fun h => hopens ⟨h.1, h.2.1, h.2.2.1⟩]
      rfl

theorem fence?_of_misread (h : Misread none line) :
    (fence? line).isSome = true ∧ openedFence? line = none := by
  cases h with
  | @opening margin count behind hmargin hcount hbehind hmore =>
    have hpos : 0 < count := by omega
    rw [fence?_lead margin hpos (by decide) hbehind, if_pos ⟨.inl rfl, hcount, hmargin⟩,
      openedFence?_lead margin hpos (by decide) hbehind, dif_neg fun h => h.2.2.2 rfl hmore]
    exact ⟨rfl, rfl⟩

/-- Inside a fence, a line that is not misread closes it in both readings or in neither. -/
theorem closesFence_of_not_misread (h : ¬Misread (some f) line) :
    closesFence f.run line = f.closedBy line := by
  rw [Bool.eq_iff_iff]
  refine ⟨fun hcloses => ?_, closesFence_of_closedBy⟩
  obtain ⟨lead, count, behind, hlead, hcount, hbehind, rfl⟩ := closesFence_iff.mp hcloses
  by_contra hopen
  refine h (.closing hlead hcount hbehind ?_)
  rintro margin hmargin rfl
  exact hopen (closedBy_iff.mpr ⟨margin, count, behind, hmargin, hcount, hbehind, rfl⟩)

theorem closesFence_of_misread (h : Misread (some f) line) :
    closesFence f.run line = true ∧ f.closedBy line = false := by
  cases h with
  | @closing _ lead behind count hlead hcount hbehind hdeep =>
    refine ⟨closesFence_iff.mpr ⟨lead, count, behind, hlead, hcount, hbehind, rfl⟩, ?_⟩
    rw [Bool.eq_false_iff]
    intro hcloses
    obtain ⟨margin, count', behind', hmargin, hcount', -, heq⟩ := closedBy_iff.mp hcloses
    -- What stands before the marks is the white space at the beginning of the line, either way.
    have hwhite := congrArg (List.takeWhile Text.isBlank) heq
    rw [takeWhile_lead hlead (Fence.pos_of_le hcount),
      takeWhile_lead (blank_margin margin) (Fence.pos_of_le hcount')] at hwhite
    exact hdeep margin hmargin hwhite

/-- Readings that agree go on to agree behind a line that is not misread. -/
theorem nextOpened_of_not_misread (h : ¬Misread state line) :
    nextOpened (state.map Fence.run) line = (nextFence state line).map Fence.run := by
  cases state with
  | none => exact fence?_of_not_misread h
  | some f =>
    rw [Option.map_some, nextOpened, nextFence, closesFence_of_not_misread h]
    split
    · rfl
    · rfl

/-- Behind a line that is misread, only one of them has a fence open. -/
theorem nextOpened_of_misread (h : Misread state line) :
    nextOpened (state.map Fence.run) line = none ↔ nextFence state line ≠ none := by
  cases state with
  | none =>
    obtain ⟨hsome, hnone⟩ := fence?_of_misread h
    simpa [nextOpened, nextFence, hnone, ← Option.isSome_iff_ne_none] using hsome
  | some f =>
    obtain ⟨hcloses, hopen⟩ := closesFence_of_misread h
    simp [nextOpened, nextFence, hcloses, hopen]

end Readings

/-- Lines none of which is misread where it is met. -/
def Faithful (before : List Line) : Prop :=
  ∀ earlier line later, before = earlier ++ line :: later → ¬Misread (openFence earlier) line

theorem faithful_nil : Faithful [] := by
  intro earlier line later h
  simp at h

theorem faithful_concat :
    Faithful (before ++ [line]) ↔ Faithful before ∧ ¬Misread (openFence before) line := by
  constructor
  · intro h
    refine ⟨fun earlier l later heq => ?_, h before line [] rfl⟩
    exact h earlier l (later ++ [line]) (by rw [heq, List.append_assoc, List.cons_append])
  · rintro ⟨hbefore, hline⟩ earlier l later heq
    rcases List.eq_nil_or_concat' later with rfl | ⟨front, last, rfl⟩
    · obtain ⟨rfl, hl⟩ := List.append_inj' heq rfl
      cases hl
      exact hline
    · rw [← List.cons_append, ← List.append_assoc] at heq
      exact hbefore earlier l front (List.append_inj' heq rfl).1

theorem openFence_concat : openFence (before ++ [line]) = nextFence (openFence before) line :=
  List.foldl_concat nextFence none line before

theorem opened_concat : (Place.behind (before ++ [line])).opened =
    nextOpened (Place.behind before).opened line := by
  rw [Place.behind_concat, Place.opened_next]

/-- Where no line is misread, the fence that is open is the one of Markdown. -/
theorem opened_of_faithful (h : Faithful before) :
    (Place.behind before).opened = (openFence before).map Fence.run := by
  induction before using List.reverseRecOn with
  | nil => rfl
  | append_singleton before line ih =>
    obtain ⟨hbefore, hline⟩ := faithful_concat.mp h
    rw [opened_concat, ih hbefore, nextOpened_of_not_misread hline, openFence_concat]

/-- Up to the first line that is misread, the two readings tell the same lines to be code exactly
if there is none. -/
theorem opened_eq_none_iff (h : Faithful before.dropLast) :
    ((Place.behind before).opened = none ↔ openFence before = none) ↔ Faithful before := by
  rcases List.eq_nil_or_concat' before with rfl | ⟨front, last, rfl⟩
  · exact iff_of_true ⟨fun _ => rfl, fun _ => rfl⟩ faithful_nil
  · rw [List.dropLast_concat] at h
    rw [faithful_concat, opened_concat, opened_of_faithful h, openFence_concat]
    by_cases hlast : Misread (openFence front) last
    · rw [nextOpened_of_misread hlast]
      grind
    · rw [nextOpened_of_not_misread hlast, Option.map_eq_none_iff]
      exact iff_of_true Iff.rfl ⟨h, hlast⟩

/-- The footnote that begins on a line: its identifier and text, and the body in the lines below. -/
def noteFrom (identifier text : Line) (after : List Line) : NoteDefinition :=
  { identifier := String.ofList identifier
    body := String.ofList (['\n'].intercalate (unspaced text :: (continuation after).1)) }

/-- The first line of a footnote is taken out, with the lines below that go on with it, exactly if
no fence is open at it, and stays otherwise. With the fences of Markdown this is so if no line
before it is misread; and directly behind the first line that is misread it is not. -/
theorem noteLine_taken_iff {cs : List Char} {identifier text : Line}
    (hlines : Text.lines cs = before ++ line :: after) (hnote : NoteLine identifier text line) :
    (Gives cs before { kept := [[]], notes := [noteFrom identifier text after] } ↔
        (Place.behind before).opened = none) ∧
      (Gives cs before { kept := [line] } ↔ (Place.behind before).opened ≠ none) ∧
      (Faithful before.dropLast →
        ((Gives cs before { kept := [[]], notes := [noteFrom identifier text after] } ↔
          openFence before = none) ↔ Faithful before)) := by
  have hstart : noteStart? line = some (identifier, unspaced text) :=
    noteStart?_eq_some_iff.mpr ⟨text, hnote, rfl⟩
  have hstarts : Starts line := by
    rw [hnote.line_eq]
    exact starts_bracket _
  have hfence : fence? line = none := by
    rw [hnote.line_eq]
    rfl
  have htaken (h : (Place.behind before).opened = none) :
      Gives cs before { kept := [[]], notes := [noteFrom identifier text after] } := by
    refine gives_of_rest hstarts hlines ?_
    rw [h]
    exact ⟨_, liftFrom_of_note hfence hstart⟩
  have hkept (h : (Place.behind before).opened ≠ none) : Gives cs before { kept := [line] } := by
    obtain ⟨run, hrun⟩ := Option.ne_none_iff_exists'.mp h
    exact gives_inside hstarts hlines hrun
  obtain ⟨htakenIff, hkeptIff⟩ := gives_iff hstarts rfl htaken hkept
  refine ⟨htakenIff, hkeptIff, fun hfaithful => ?_⟩
  rw [htakenIff]
  exact opened_eq_none_iff hfaithful

/-- A footnote behind a line of backticks, with a line of its body below. -/
def behindTicks : List Char := "```\n[^1]: a\n    b".toList

theorem noteLine_digit : NoteLine ['1'] [' ', 'a'] "[^1]: a".toList :=
  ⟨rfl, List.cons_ne_nil _ _, List.forall_mem_singleton.mpr ⟨by decide, rfl⟩⟩

theorem noteLine_taken_iff_behindTicks :
    Text.lines behindTicks = ["```".toList] ++ "[^1]: a".toList :: ["    b".toList] ∧
      NoteLine ['1'] [' ', 'a'] "[^1]: a".toList ∧ Faithful ["```".toList].dropLast ∧
      (Gives behindTicks ["```".toList]
          { kept := [[]], notes := [noteFrom ['1'] [' ', 'a'] ["    b".toList]] } ↔
        (Place.behind ["```".toList]).opened = none) ∧
      (Gives behindTicks ["```".toList] { kept := ["[^1]: a".toList] } ↔
        (Place.behind ["```".toList]).opened ≠ none) ∧
      (Faithful ["```".toList].dropLast →
        ((Gives behindTicks ["```".toList]
            { kept := [[]], notes := [noteFrom ['1'] [' ', 'a'] ["    b".toList]] } ↔
          openFence ["```".toList] = none) ↔ Faithful ["```".toList])) := by
  have hlines : Text.lines behindTicks =
      ["```".toList] ++ "[^1]: a".toList :: ["    b".toList] := by cbv
  exact ⟨hlines, noteLine_digit, faithful_nil, noteLine_taken_iff hlines noteLine_digit⟩

/-- Inline code between three backticks opens no fence, and yet the footnote below it stays. -/
theorem inlineCode_hides_note :
    Text.lines "```x```\n[^1]: a".toList = ["```x```".toList] ++ "[^1]: a".toList :: [] ∧
      NoteLine ['1'] [' ', 'a'] "[^1]: a".toList ∧ openFence ["```x```".toList] = none ∧
      (liftDefinitions "```x```\n[^1]: a".toList).notes = [] :=
  ⟨by cbv, noteLine_digit, rfl, by cbv⟩

/-- Backticks further in than a closing fence may be, and yet the line of code below them is taken
for a footnote. -/
example : (openFence ["```".toList, "    ```".toList]).isSome = true ∧
    (liftDefinitions "```\n    ```\n[^1]: a\n```".toList).notes = [⟨"1", "a"⟩] :=
  ⟨rfl, by cbv⟩

end Typeset.Source
