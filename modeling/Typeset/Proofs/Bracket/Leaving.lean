import Typeset.Proofs.Bracket.Layout
import Typeset.Proofs.Markup.Ending
import Typeset.Proofs.Render.Footnote

/-! Text that leaves brackets of content open. They add up where texts are put one after the other,
and what is written around a text closes no more than it opened itself. -/

namespace Typeset.Bracket

open Markup (Unfinished)
open Render Scan

variable {s t : State} {frames : List Frame} {cs : List Char} {P Q : Prop} {text : String}
  {m n : Nat}

/-- Text that leaves brackets open in one case, and is closed otherwise. -/
def LeavesOpen (P : Prop) (text : String) : Prop := ∃ count, Leaves count text ∧ (0 < count ↔ P)

theorem Leaves.indent (h : Leaves n text) (level : Int) : Leaves n (Markup.indent text level) := by
  intro frames hf
  rw [run_indent settled_plain]
  exact h frames hf

theorem Closed.leavesOpen (h : Closed .content text) (hP : ¬P) : LeavesOpen P text :=
  ⟨0, h, iff_of_false (Nat.lt_irrefl 0) hP⟩

theorem LeavesOpen.congr (h : LeavesOpen P text) (hPQ : P ↔ Q) : LeavesOpen Q text := by
  obtain ⟨count, hl, hc⟩ := h
  exact ⟨count, hl, hc.trans hPQ⟩

theorem LeavesOpen.append {after : String} (h : LeavesOpen P text) (ha : LeavesOpen Q after) :
    LeavesOpen (P ∨ Q) (text ++ after) := by
  obtain ⟨m, hm, hP⟩ := h
  obtain ⟨n, hn, hQ⟩ := ha
  refine ⟨m + n, hm.append hn, ?_⟩
  rw [← hP, ← hQ]
  omega

theorem LeavesOpen.indent (h : LeavesOpen P text) (level : Int) :
    LeavesOpen P (Markup.indent text level) := by
  obtain ⟨count, hl, hc⟩ := h
  exact ⟨count, hl.indent level, hc⟩

theorem LeavesOpen.wrapped {name opening closing : String}
    (hw : inlineKind? name = some (.wrapped opening closing)) (h : LeavesOpen P text) :
    LeavesOpen P (opening ++ text ++ closing) := by
  obtain ⟨count, hl, hc⟩ := h
  exact ⟨count, hl.wrapped hw, hc⟩

/-- Texts in two groups with something closed between any two of them. -/
theorem LeavesOpen.joined {separator : String} {xs ys : List String}
    (hs : Closed .content separator) (hx : LeavesOpen P (separator.intercalate xs))
    (hy : LeavesOpen Q (separator.intercalate ys)) :
    LeavesOpen (P ∨ Q) (separator.intercalate (xs ++ ys)) := by
  by_cases hxs : xs = []
  · subst hxs
    simpa using hx.append hy
  · by_cases hys : ys = []
    · subst hys
      simpa using hx.append hy
    · have hsep : LeavesOpen False separator := hs.leavesOpen not_false
      rw [String.intercalate_append_of_ne_nil hxs hys]
      simpa using (hx.append hsep).append hy

theorem LeavesOpen.joined_cons {separator : String} {texts : List String}
    (hs : Closed .content separator) (h : LeavesOpen P text)
    (hrest : LeavesOpen Q (separator.intercalate texts)) :
    LeavesOpen (P ∨ Q) (separator.intercalate (text :: texts)) := by
  have hfirst : LeavesOpen P (separator.intercalate [text]) := by
    rwa [String.intercalate_singleton]
  exact hfirst.joined hs hrest

theorem LeavesOpen.heading (h : LeavesOpen P text) (level : Nat) :
    LeavesOpen P (headingMark level ++ " " ++ text) := by
  have hmark := (@closed_heading level "" (closed_inert .content rfl)).leavesOpen not_false
  simpa using hmark.append h

/-- The lead of an item is its marker and the text behind it. -/
theorem LeavesOpen.itemLead {marker : String} (hm : Closed .content marker)
    (h : LeavesOpen P text) (level : Int) :
    LeavesOpen P (lines (itemLead marker text level)) := by
  have hspace : LeavesOpen False (marker ++ " ") :=
    (hm.append (closed_inert .content rfl)).leavesOpen not_false
  obtain ⟨count, hl, hc⟩ := hspace.append h
  refine ⟨count, fun frames hf => ?_, by simpa using hc⟩
  rw [run_itemLead marker text settled_plain]
  exact hl frames hf

/-- A text that leaves brackets open is not well bracketed. -/
theorem LeavesOpen.wellBracketed_iff (h : LeavesOpen P text) : WellBracketed text ↔ ¬P := by
  obtain ⟨count, hl, hc⟩ := h
  rw [WellBracketed, hl [] rfl, ← hc]
  cases count with
  | zero => simp
  | succ count => simp [List.replicate_succ]

theorem isInert_of_isBlank {c : Char} (h : Text.isBlank c = true) : isInert c = true := by
  have hne {d : Char} (hd : Text.isBlank d = false) : c ≠ d := Math.ne_of_isBlank h hd
  simp [isInert, @hne '\\' rfl, @hne '`' rfl, @hne '[' rfl, @hne ']' rfl, @hne '#' rfl,
    @hne '"' rfl, @hne '(' rfl, @hne ')' rfl]

theorem LeavesOpen.quoteBlock (h : LeavesOpen P text) (level : Int) :
    LeavesOpen P (quoteBlock text level) := by
  have hnewline : Closed .content "\n" := closed_inert .content rfl
  unfold Render.quoteBlock
  dsimp only
  split
  next hblank =>
    have hclosed : Closed .content text := Balanced.of_inert fun c hc =>
      isInert_of_isBlank (List.all_eq_true.mp hblank c hc)
    exact (closed_quotation hnewline).leavesOpen (h.wellBracketed_iff.mp hclosed.wellBracketed)
  next =>
    have hrow : LeavesOpen False "\n" := hnewline.leavesOpen not_false
    obtain ⟨count, hl, hc⟩ := (hrow.append (h.indent (level + 1))).append hrow
    refine ⟨count, ?_, by simpa using hc⟩
    simpa [lines, String.append_assoc] using hl.quotation level

theorem read_ne_escaped {c : Char} (hc : c ≠ '\\') (h : read frames c = some t) :
    t.mode ≠ .escaped := by
  unfold read at h
  grind

/-- Only a backslash leaves the next character escaped. -/
theorem step_ne_escaped {c : Char} (hc : c ≠ '\\') (h : step s c = some t) :
    t.mode ≠ .escaped := by
  obtain ⟨fs, mode⟩ := s
  have hread := @read_ne_escaped t fs c hc
  unfold step at h
  grind

/-- The modes that a character leads to which is read as markup: only escapes, raw text and strings
are left out. -/
def Unescaped (mode : Mode) : Prop :=
  mode = .plain ∨ mode = .name ∨ ∃ count, mode = .ticks count

/-- A backslash escapes the next character where it is not escaped itself. -/
theorem step_backslash (h : step s '\\' = some t) :
    (t.mode = .escaped → Unescaped s.mode) ∧ (Unescaped t.mode → s.mode = .escaped) := by
  obtain ⟨fs, mode⟩ := s
  cases mode with
  | plain =>
    obtain rfl : ⟨fs, .escaped⟩ = t := Option.some.inj h
    simp [Unescaped]
  | escaped =>
    obtain rfl : ⟨fs, .plain⟩ = t := Option.some.inj h
    simp
  | name =>
    obtain rfl : ⟨fs, .escaped⟩ = t := Option.some.inj h
    simp [Unescaped]
  | ticks count =>
    by_cases hcount : count = 2
    · subst hcount
      obtain rfl : ⟨fs, .escaped⟩ = t := Option.some.inj h
      simp [Unescaped]
    · obtain rfl : ⟨fs, .raw count 0⟩ = t := by simpa [step, hcount] using h
      simp [Unescaped]
  | raw count met =>
    obtain rfl : ⟨fs, .raw count 0⟩ = t := Option.some.inj h
    simp [Unescaped]
  | string =>
    obtain rfl : ⟨fs, .stringEscaped⟩ = t := Option.some.inj h
    simp [Unescaped]
  | stringEscaped =>
    obtain rfl : ⟨fs, .string⟩ = t := Option.some.inj h
    simp [Unescaped]

/-- How the reading of a text ends tells whether its last backslash escapes what follows. -/
theorem unfinished_of_run (h : run step ⟨frames, .plain⟩ cs = some t) :
    (t.mode = .escaped → Unfinished cs) ∧ (Unescaped t.mode → ¬Unfinished cs) := by
  induction cs using List.reverseRecOn generalizing t with
  | nil =>
    obtain rfl : (⟨frames, .plain⟩ : State) = t := by simpa using h
    exact ⟨by simp, fun _ => Markup.not_unfinished_nil⟩
  | append_singleton cs c ih =>
    rw [run_append] at h
    obtain ⟨s, hs, hstep⟩ := Option.bind_eq_some_iff.mp h
    obtain ⟨hescaped, hread⟩ := ih hs
    have hstep : step s c = some t := by simpa using hstep
    by_cases hc : c = '\\'
    · subst hc
      obtain ⟨hbefore, hafter⟩ := step_backslash hstep
      rw [Markup.unfinished_slash, not_not]
      exact ⟨fun ht => hread (hbefore ht), fun ht => hescaped (hafter ht)⟩
    · have hfinished : ¬Unfinished (cs ++ [c]) := Markup.not_unfinished_concat hc
      exact ⟨fun ht => absurd ht (step_ne_escaped hc hstep), fun _ => hfinished⟩

theorem isName_of_isBlank {c : Char} (h : Text.isBlank c = true) : isName c = false := by
  have hne {d : Char} (hd : Text.isBlank d = false) : c ≠ d := Math.ne_of_isBlank h hd
  have hcode : c.val.toNat = c.toNat := rfl
  simp only [Text.isBlank, Bool.or_eq_true, Bool.and_eq_true, decide_eq_true_eq,
    beq_iff_eq] at h
  have hrange {low high : Char} (hl : 32 < low.toNat) (hh : high.toNat < 133) :
      ¬(c.val ≥ low.val ∧ c.val ≤ high.val) := by
    have hlow : low.val.toNat = low.toNat := rfl
    have hhigh : high.val.toNat = high.toNat := rfl
    rw [ge_iff_le, UInt32.le_iff_toNat_le, UInt32.le_iff_toNat_le]
    omega
  have hboth {p q : Prop} [Decidable p] [Decidable q] (h : ¬(p ∧ q)) :
      (decide p && decide q) = false := by
    rw [← Bool.decide_and]
    exact decide_eq_false h
  have hupper : c.isUpper = false := decide_eq_false (@hrange 'A' 'Z' (by decide) (by decide))
  have hlower : c.isLower = false := hboth (@hrange 'a' 'z' (by decide) (by decide))
  have hdigit : c.isDigit = false := hboth (@hrange '0' '9' (by decide) (by decide))
  have halpha : c.isAlphanum = false := by
    change ((c.isUpper || c.isLower) || c.isDigit) = false
    rw [hupper, hlower, hdigit]
    rfl
  simp [isName, halpha, @hne '-' rfl, @hne '_' rfl, @hne '.' rfl]

theorem run_of_stays (h : ∀ c ∈ cs, step s c = some s) : run step s cs = some s := by
  induction cs with
  | nil => rfl
  | cons c rest ih =>
    obtain ⟨hc, hrest⟩ := List.forall_mem_cons.mp h
    rw [run_cons, hc]
    exact ih hrest

/-- The modes in which the next character is read as markup. -/
def Reads (mode : Mode) : Prop := mode = .plain ∨ mode = .name ∨ mode = .ticks 2

theorem Reads.unescaped {mode : Mode} (h : Reads mode) : Unescaped mode :=
  h.imp_right fun h => h.imp_right fun h => ⟨2, h⟩

/-- What a blank leads to: to markup from markup and from an escape, and otherwise to raw text or a
string, where blanks change nothing. -/
theorem step_blank {c : Char} (hb : Text.isBlank c = true) (s : State) :
    (s.mode = .escaped ∨ Reads s.mode) ∧ step s c = some ⟨s.frames, .plain⟩ ∨
      ∃ t, step s c = some t ∧ t.mode ≠ .plain ∧
        ∀ d, Text.isBlank d = true → step t d = some t := by
  have hne {d : Char} (hd : Text.isBlank d = false) : c ≠ d := Math.ne_of_isBlank hb hd
  obtain ⟨fs, mode⟩ := s
  have hread : read fs c = some ⟨fs, .plain⟩ := step_inert (isInert_of_isBlank hb)
  have hraw (count : Nat) (d : Char) (hd : Text.isBlank d = true) :
      step ⟨fs, .raw count 0⟩ d = some ⟨fs, .raw count 0⟩ :=
    step_raw_of_ne (Math.ne_of_isBlank hd rfl)
  have hstring (d : Char) (hd : Text.isBlank d = true) :
      step ⟨fs, .string⟩ d = some ⟨fs, .string⟩ := by
    have hslash : d ≠ '\\' := Math.ne_of_isBlank hd rfl
    have hquote : d ≠ '"' := Math.ne_of_isBlank hd rfl
    simp [step, hslash, hquote]
  cases mode with
  | plain => exact .inl ⟨.inr (.inl rfl), hread⟩
  | escaped => exact .inl ⟨.inl rfl, rfl⟩
  | name =>
    refine .inl ⟨.inr (.inr (.inl rfl)), ?_⟩
    simp [step, isName_of_isBlank hb, @hne '(' rfl, hread]
  | ticks count =>
    by_cases hcount : count = 2
    · subst hcount
      refine .inl ⟨.inr (.inr (.inr rfl)), ?_⟩
      simp [step, @hne '`' rfl, hread]
    · refine .inr ⟨⟨fs, .raw count 0⟩, ?_, by simp, hraw count⟩
      simp [step, @hne '`' rfl, hcount]
  | raw count met => exact .inr ⟨_, step_raw_of_ne (hne rfl), by simp, hraw count⟩
  | string => exact .inr ⟨_, hstring c hb, by simp, hstring⟩
  | stringEscaped => exact .inr ⟨_, rfl, by simp, hstring⟩

/-- Where blanks lead to markup, markup or an escape stands before them. -/
theorem before_blanks {fs : List Frame} (hb : Markup.Blank cs)
    (h : run step s cs = some ⟨fs, .plain⟩) :
    s.frames = fs ∧ (s.mode = .escaped ∨ Reads s.mode) := by
  cases cs with
  | nil =>
    obtain rfl : s = ⟨fs, .plain⟩ := by simpa using h
    exact ⟨rfl, .inr (.inl rfl)⟩
  | cons c rest =>
    obtain ⟨hc, hrest⟩ := List.forall_mem_cons.mp hb
    rw [run_cons] at h
    obtain ⟨hmode, hstep⟩ | ⟨t, hstep, hne, hstays⟩ := step_blank hc s
    · rw [hstep, Option.bind_some,
        run_of_stays fun d hd => step_inert (isInert_of_isBlank (hrest d hd))] at h
      exact ⟨congrArg State.frames (Option.some.inj h), hmode⟩
    · rw [hstep, Option.bind_some, run_of_stays fun d hd => hstays d (hrest d hd)] at h
      exact absurd (congrArg State.mode (Option.some.inj h)) hne

/-- The bracket behind a text that is read as markup. -/
theorem step_closing {fs : List Frame} (h : Reads s.mode) (hf : s.frames = .content :: fs) :
    step s ']' = some ⟨fs, .plain⟩ := by
  obtain ⟨gs, mode⟩ := s
  obtain rfl : gs = .content :: fs := hf
  obtain rfl | rfl | rfl := h <;> rfl

/-- Reading a text without the blanks around it comes to the brackets that it leaves open, and to an
escape exactly if the text dangles. -/
theorem run_strip (h : Leaves n text) (hf : frames.headD .content = .content) :
    ∃ t, run step ⟨frames, .plain⟩ (Text.strip text).toList = some t ∧
      t.frames = List.replicate n .content ++ frames ∧
      (Markup.Dangling text.toList → t.mode = .escaped) ∧
      (¬Markup.Dangling text.toList → Reads t.mode) := by
  obtain ⟨lead, trail, hcs, hl, ht⟩ := Comment.exists_blanks text.toList
  have hlead : run step ⟨frames, .plain⟩ lead = some ⟨frames, .plain⟩ :=
    run_of_stays fun c hc => step_inert (isInert_of_isBlank (hl c hc))
  have hrun := h frames hf
  rw [hcs, run_append_of_eq hlead, run_append] at hrun
  obtain ⟨t, htrim, hrest⟩ := Option.bind_eq_some_iff.mp hrun
  obtain ⟨hframes, hmode⟩ := before_blanks ht hrest
  rw [← String.toList_ofList (l := Text.trim Text.isBlank text.toList), ← Text.strip] at htrim
  obtain ⟨hescaped, hreads⟩ := unfinished_of_run htrim
  rw [Markup.unfinished_strip] at hescaped hreads
  refine ⟨t, htrim, hframes, fun hd => ?_, fun hd => ?_⟩
  · obtain hmode | hmode := hmode
    · exact hmode
    · exact absurd hd (hreads hmode.unescaped)
  · exact hmode.resolve_left fun hmode => hd (hescaped hmode)

theorem run_footnoteOpening (hf : frames.headD .content = .content) :
    run step ⟨frames, .plain⟩ "#footnote[".toList = some ⟨.content :: frames, .plain⟩ := by
  have hname : ∀ c ∈ "footnote".toList, isName c := List.all_eq_true.mp rfl
  have hlist : "#footnote[".toList = ('#' :: "footnote".toList) ++ ['['] := rfl
  rw [hlist, run_append_of_eq (run_hash_name hf hname)]
  rfl

/-- A footnote's bracket is left open exactly if what stands in it dangles. -/
theorem LeavesOpen.footnote {texts : List String} (h : LeavesOpen P (" ".intercalate texts)) :
    LeavesOpen (P ∨ Markup.Dangling (" ".intercalate texts).toList) (footnoteMarkup texts) := by
  obtain ⟨count, hl, hP⟩ := h
  by_cases hd : Markup.Dangling (" ".intercalate texts).toList
  · refine ⟨count + 1, fun frames hf => ?_, iff_of_true (Nat.succ_pos count) (.inr hd)⟩
    obtain ⟨t, ht, hframes, hescaped, -⟩ := @run_strip (.content :: frames) _ _ hl rfl
    have hclosing : step t ']' = some ⟨t.frames, .plain⟩ := by
      rw [step, hescaped hd]
    rw [footnoteMarkup, String.toList_append, String.toList_append, List.append_assoc,
      run_append_of_eq (run_footnoteOpening hf), run_append_of_eq ht]
    have hlist : "]".toList = [']'] := rfl
    rw [hlist, run_cons, hclosing, hframes, replicate_content_cons, List.replicate_succ]
    rfl
  · refine ⟨count, fun frames hf => ?_, hP.trans (or_iff_left hd).symm⟩
    obtain ⟨t, ht, hframes, -, hreads⟩ := @run_strip (.content :: frames) _ _ hl rfl
    rw [replicate_content_cons] at hframes
    have hlist : "]".toList = [']'] := rfl
    rw [footnoteMarkup, String.toList_append, String.toList_append, List.append_assoc,
      run_append_of_eq (run_footnoteOpening hf), run_append_of_eq ht, hlist, run_cons,
      step_closing (hreads hd) hframes]
    rfl

end Typeset.Bracket
