import Typeset.Proofs.Text.Scan

/-! Markup read from left to right by its brackets. What follows a backslash, raw text and string
literals are passed over. -/

namespace Typeset.Bracket

open Scan

/-- What encloses a place: the brackets of content, or the parentheses of a call. -/
inductive Frame
  | content
  | call
  deriving DecidableEq

/-- How the next character is taken. -/
inductive Mode
  | plain
  /-- After a backslash. -/
  | escaped
  /-- After a hash and the letters of a name. -/
  | name
  /-- After as many of the backticks that open raw text. -/
  | ticks (count : Nat)
  /-- In raw text that ends with `count` backticks in a row, after `met` of them. -/
  | raw (count met : Nat)
  | string
  | stringEscaped
  deriving DecidableEq

/-- The frames that are open, the innermost first, and how to go on. -/
structure State where
  frames : List Frame
  mode : Mode
  deriving DecidableEq

/-- A character of a name. -/
def isName (c : Char) : Bool := c.isAlphanum || c == '-' || c == '_' || c == '.'

/-- One character outside raw text and string literals. A bracket that closes nothing cannot be
read. -/
def read (frames : List Frame) (c : Char) : Option State :=
  if c = '\\' then some ⟨frames, .escaped⟩
  else if c = '`' then some ⟨frames, .ticks 1⟩
  else if c = '[' then some ⟨.content :: frames, .plain⟩
  else if c = ']' then
    match frames with
    | .content :: outer => some ⟨outer, .plain⟩
    | _ => none
  else
    match frames with
    | .call :: outer =>
      if c = '"' then some ⟨frames, .string⟩
      else if c = '(' then some ⟨.call :: frames, .plain⟩
      else if c = ')' then some ⟨outer, .plain⟩
      else some ⟨frames, .plain⟩
    | _ => some ⟨frames, if c = '#' then .name else .plain⟩

/-- One character. Two backticks are raw text with nothing in it, any other number opens raw text
up to as many; a name with a parenthesis after it is a call. -/
def step (s : State) (c : Char) : Option State :=
  match s.mode with
  | .plain => read s.frames c
  | .escaped => some ⟨s.frames, .plain⟩
  | .name =>
    if isName c then some s
    else if c = '(' then some ⟨.call :: s.frames, .plain⟩
    else read s.frames c
  | .ticks count =>
    if c = '`' then some ⟨s.frames, .ticks (count + 1)⟩
    else if count = 2 then read s.frames c
    else some ⟨s.frames, .raw count 0⟩
  | .raw count met =>
    if c = '`' then
      if met + 1 = count then some ⟨s.frames, .plain⟩ else some ⟨s.frames, .raw count (met + 1)⟩
    else some ⟨s.frames, .raw count 0⟩
  | .string =>
    if c = '\\' then some ⟨s.frames, .stringEscaped⟩
    else if c = '"' then some ⟨s.frames, .plain⟩
    else some s
  | .stringEscaped => some ⟨s.frames, .string⟩

/-- Every closing bracket matches an opening one before it, none is left open, and the end lies
outside raw text and string literals. -/
def WellBracketed (text : String) : Prop := run step ⟨[], .plain⟩ text.toList = some ⟨[], .plain⟩

instance (text : String) : Decidable (WellBracketed text) :=
  inferInstanceAs (Decidable (_ = _))

example : WellBracketed "#link(\"]\")[\\]]" ∧ ¬ WellBracketed "#quote[]]" := by decide

/-- Characters that leave everything open as it was, wherever they stand right inside such a frame.
Outside all frames is like inside content. -/
def Balanced (frame : Frame) (cs : List Char) : Prop :=
  ∀ frames : List Frame, frames.headD .content = frame →
    run step ⟨frames, .plain⟩ cs = some ⟨frames, .plain⟩

/-- Text that leaves everything open as it was wherever it stands right inside such a frame. -/
def Closed (frame : Frame) (text : String) : Prop := Balanced frame text.toList

/-- Text that leaves some brackets of content open, wherever content may stand. -/
def Leaves (count : Nat) (text : String) : Prop :=
  ∀ frames : List Frame, frames.headD .content = .content →
    run step ⟨frames, .plain⟩ text.toList =
      some ⟨List.replicate count .content ++ frames, .plain⟩

variable {s t : State} {frame : Frame} {frames : List Frame} {c : Char} {xs ys cs : List Char}

theorem step_raw_of_ne {count before : Nat} (h : c ≠ '`') :
    step ⟨frames, .raw count before⟩ c = some ⟨frames, .raw count 0⟩ := if_neg h

theorem step_raw_of_lt {count before : Nat} (h : before + 1 < count) :
    step ⟨frames, .raw count before⟩ '`' = some ⟨frames, .raw count (before + 1)⟩ := by
  simp [step, Nat.ne_of_lt h]

theorem step_raw_last {before : Nat} :
    step ⟨frames, .raw (before + 1) before⟩ '`' = some ⟨frames, .plain⟩ := by
  simp [step]

theorem Balanced.nil : Balanced frame [] := fun _ _ => rfl

theorem Balanced.append (hx : Balanced frame xs) (hy : Balanced frame ys) :
    Balanced frame (xs ++ ys) := by
  intro frames hf
  rw [run_append_of_eq (hx frames hf)]
  exact hy frames hf

theorem Balanced.intercalate {parts : List (List Char)} (hs : Balanced frame cs)
    (h : ∀ part ∈ parts, Balanced frame part) : Balanced frame (cs.intercalate parts) := by
  induction parts with
  | nil => exact Balanced.nil
  | cons part rest ih =>
    obtain ⟨hpart, hrest⟩ := List.forall_mem_cons.mp h
    cases rest with
    | nil => simpa using hpart
    | cons next rest =>
      rw [List.intercalate_cons_cons]
      exact (hpart.append hs).append (ih hrest)

/-- A character that means nothing outside raw text and string literals. -/
def isInert (c : Char) : Bool := not (['\\', '`', '[', ']', '#', '"', '(', ')'].contains c)

theorem step_inert (h : isInert c) : step ⟨frames, .plain⟩ c = some ⟨frames, .plain⟩ := by
  simp [isInert] at h
  obtain ⟨h1, h2, h3, h4, h5, h6, h7, h8⟩ := h
  rcases frames with _ | ⟨_ | _, outer⟩ <;> simp [step, read, *]

theorem Balanced.of_inert (h : ∀ c ∈ cs, isInert c) : Balanced frame cs := by
  intro frames _
  induction cs with
  | nil => rfl
  | cons c rest ih =>
    obtain ⟨hc, hrest⟩ := List.forall_mem_cons.mp h
    rw [run_cons, step_inert hc]
    exact ih hrest

/-- Content in brackets may stand anywhere. -/
theorem Balanced.bracketed (h : Balanced .content cs) :
    Balanced frame ('[' :: (cs ++ [']'])) := by
  intro frames _
  have hopen : step ⟨frames, .plain⟩ '[' = some ⟨.content :: frames, .plain⟩ := rfl
  rw [run_cons, hopen, Option.bind_some, run_append_of_eq (h (.content :: frames) rfl)]
  rfl

/-- Parentheses may stand inside those of a call. -/
theorem Balanced.grouped (h : Balanced .call cs) : Balanced .call ('(' :: (cs ++ [')'])) := by
  intro frames hf
  rcases frames with _ | ⟨_ | _, outer⟩ <;> cases hf
  have hopen : step ⟨.call :: outer, .plain⟩ '(' = some ⟨.call :: .call :: outer, .plain⟩ := rfl
  rw [run_cons, hopen, Option.bind_some, run_append_of_eq (h (.call :: .call :: outer) rfl)]
  rfl

theorem run_name (h : ∀ c ∈ cs, isName c) : run step ⟨frames, .name⟩ cs = some ⟨frames, .name⟩ := by
  induction cs with
  | nil => rfl
  | cons c rest ih =>
    obtain ⟨hc, hrest⟩ := List.forall_mem_cons.mp h
    simp [step, hc, ih hrest]

theorem run_hash_name {name : List Char} (hf : frames.headD .content = .content)
    (h : ∀ c ∈ name, isName c) :
    run step ⟨frames, .plain⟩ ('#' :: name) = some ⟨frames, .name⟩ := by
  have hhash : step ⟨frames, .plain⟩ '#' = some ⟨frames, .name⟩ := by
    rcases frames with _ | ⟨_ | _, outer⟩ <;> simp_all [step, read]
  rw [run_cons, hhash]
  exact run_name h

/-- A call with arguments in parentheses. -/
theorem Balanced.called {name : List Char} (hname : ∀ c ∈ name, isName c) (h : Balanced .call cs) :
    Balanced .content (('#' :: name) ++ '(' :: (cs ++ [')'])) := by
  intro frames hf
  have hopen : step ⟨frames, .name⟩ '(' = some ⟨.call :: frames, .plain⟩ := rfl
  rw [run_append_of_eq (run_hash_name hf hname), run_cons, hopen, Option.bind_some,
    run_append_of_eq (h (.call :: frames) rfl)]
  rfl

theorem Closed.wellBracketed {text : String} (h : Closed .content text) : WellBracketed text :=
  h [] rfl

theorem Closed.append {before after : String} (hb : Closed frame before)
    (ha : Closed frame after) : Closed frame (before ++ after) := by
  rw [Closed, String.toList_append]
  exact Balanced.append hb ha

theorem Closed.intercalate {separator : String} {parts : List String}
    (hs : Closed frame separator) (h : ∀ part ∈ parts, Closed frame part) :
    Closed frame (separator.intercalate parts) := by
  rw [Closed, String.toList_intercalate]
  exact Balanced.intercalate hs (List.forall_mem_map.mpr h)

theorem closed_inert (frame : Frame) {text : String} (h : text.toList.all isInert) :
    Closed frame text := Balanced.of_inert (List.all_eq_true.mp h)

theorem Closed.bracketed {text : String} (frame : Frame) (h : Closed .content text) :
    Closed frame ("[" ++ text ++ "]") := by
  have h := @Balanced.bracketed frame _ h
  simpa [Closed] using h

theorem Closed.grouped {text : String} (h : Closed .call text) :
    Closed .call ("(" ++ text ++ ")") := by
  have h := Balanced.grouped h
  simpa [Closed] using h

theorem Closed.called {name text : String} (hname : name.toList.all isName)
    (h : Closed .call text) : Closed .content ("#" ++ name ++ "(" ++ text ++ ")") := by
  have h := Balanced.called (List.all_eq_true.mp hname) h
  simpa [Closed] using h

variable {text : String} {m n : Nat}

theorem headD_replicate (hf : frames.headD .content = .content) (count : Nat) :
    (List.replicate count Frame.content ++ frames).headD .content = .content := by
  cases count with
  | zero => exact hf
  | succ count => rfl

theorem replicate_content_cons (count : Nat) (frames : List Frame) :
    List.replicate count Frame.content ++ .content :: frames =
      .content :: (List.replicate count .content ++ frames) := by
  rw [← List.cons_append, ← List.replicate_succ, List.replicate_succ', List.append_assoc]
  rfl

theorem Leaves.append {after : String} (hm : Leaves m text) (hn : Leaves n after) :
    Leaves (m + n) (text ++ after) := by
  intro frames hf
  rw [String.toList_append, run_append_of_eq (hm frames hf), hn _ (headD_replicate hf m),
    ← List.append_assoc, List.replicate_append_replicate, Nat.add_comm]

theorem Closed.leaves (h : Closed .content text) : Leaves 0 text := h

theorem Leaves.applied {name : String} (hname : name.toList.all isName) (h : Leaves n text) :
    Leaves n ("#" ++ name ++ "[" ++ text ++ "]") := by
  intro frames hf
  have hopen : step ⟨frames, .name⟩ '[' = some ⟨.content :: frames, .plain⟩ := rfl
  have hclose : step ⟨.content :: (List.replicate n .content ++ frames), .plain⟩ ']' =
      some ⟨List.replicate n .content ++ frames, .plain⟩ := rfl
  have hlist : ("#" ++ name ++ "[" ++ text ++ "]").toList =
      ('#' :: name.toList) ++ '[' :: (text.toList ++ [']']) := by simp
  rw [hlist, run_append_of_eq (run_hash_name hf (List.all_eq_true.mp hname)), run_cons, hopen,
    Option.bind_some, run_append_of_eq (h (.content :: frames) rfl), replicate_content_cons,
    run_cons, hclose]
  rfl

end Typeset.Bracket
