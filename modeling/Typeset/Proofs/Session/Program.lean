import Typeset.Render.Block

/-! Rendering as steps on one session that is changed in place: footnotes are marked while they are
expanded and unmarked afterwards, issues are appended, and a failure keeps what was changed before
it. -/

namespace Typeset

open Render

/-- What a rendering reads and changes as it goes. -/
structure Session where
  env : Environment
  /-- The footnotes that are being expanded. -/
  active : List String := []
  issues : List Issue := []
  /-- Whether a remote image was met. -/
  remoteImage : Bool := false
  /-- For each expansion of a footnote, in order, the footnotes being expanded from then on, the
  innermost first. -/
  opened : List (List String) := []

namespace Session

/-- A session with a footnote marked as being expanded. -/
def mark (key : String) (s : Session) : Session :=
  { s with active := s.active.insert key, opened := s.opened ++ [s.active.insert key] }

/-- A session with a footnote no longer marked. -/
def unmark (key : String) (s : Session) : Session :=
  { s with active := s.active.filter (· != key) }

/-- A session to which something was appended. -/
def extend (s : Session) (issues : List Issue) (remoteImage : Bool)
    (opened : List (List String)) : Session :=
  { s with
    issues := s.issues ++ issues
    remoteImage := s.remoteImage || remoteImage
    opened := s.opened ++ opened }

theorem extend_extend (s : Session) (is js : List Issue) (b c : Bool)
    (o p : List (List String)) :
    (s.extend is b o).extend js c p = s.extend (is ++ js) (b || c) (o ++ p) := by
  simp [extend, List.append_assoc, Bool.or_assoc]

/-- Unmarking undoes a marking, whatever was appended in between. -/
theorem unmark_extend_mark {s : Session} {key : String} (h : key ∉ s.active) (is : List Issue)
    (b : Bool) (o : List (List String)) :
    ((s.mark key).extend is b o).unmark key = s.extend is b ((key :: s.active) :: o) := by
  have hf : s.active.filter (· != key) = s.active := by
    apply List.filter_eq_self.mpr
    intro k hk
    have hne : k ≠ key := fun he => h (he ▸ hk)
    simpa using hne
  simp [mark, unmark, extend, List.insert_of_not_mem h, hf]

end Session

/-- A step on a session: its outcome and the session after it, or nothing if it would nest
expansions of footnotes deeper than it may. -/
def Act (α : Type) : Type := Session → Option (Except Failure α × Session)

namespace Act

variable {α β : Type}

/-- One step, and another on its answer. A failure keeps what was changed. -/
def andThen (x : Act α) (next : α → Act β) : Act β := fun s =>
  match x s with
  | none => none
  | some (.error f, t) => some (.error f, t)
  | some (.ok a, t) => next a t

/-- Do what a computation does: append its issues and note a remote image. -/
def perform (r : Rendering α) : Act α := fun s =>
  some (r.outcome, s.extend r.issues r.remoteImage [])

instance : Monad Act where
  pure a := perform (pure a)
  bind := andThen

instance : MonadLift Rendering Act where
  monadLift := perform

/-- What the session looks things up in. -/
def environment : Act Environment := fun s => some (.ok s.env, s)

/-- The footnotes that are marked as being expanded. -/
def marked : Act (List String) := fun s => some (.ok s.active, s)

/-- Stop for good. -/
def giveUp : Act α := fun _ => none

/-- A step with another in place of its failure. -/
def rescue (x : Act α) (handler : Failure → Act α) : Act α := fun s =>
  match x s with
  | none => none
  | some (.error f, t) => handler f t
  | some (.ok a, t) => some (.ok a, t)

/-- A step with a footnote marked as being expanded, and unmarked however the step ends. -/
def expanding (key : String) (x : Act α) : Act α := fun s =>
  match x (s.mark key) with
  | none => none
  | some (outcome, t) => some (outcome, t.unmark key)

end Act

end Typeset

/-! The renderers as steps on a session. What encloses a token is not handed down but read off the
session, where expansions of footnotes have marked it. Expansions may nest to a given depth. -/

namespace Typeset.Act

open Render

mutual

/-- Inlines, one after the other. -/
def inlines (depth : Nat) : List Value → Act String
  | [] => pure ""
  | token :: rest => do
    let here ← inline depth token
    let more ← inlines depth rest
    pure (here ++ more)
termination_by tokens => (depth, 4 * sizeOf tokens)

/-- The inlines below a token. -/
def inlinesBelow (depth : Nat) (token : Value) : Act String :=
  match _h : token.children with
  | .error f => perform (Rendering.fail f)
  | .ok children => inlines depth children
termination_by (depth, 4 * sizeOf token)
decreasing_by
  all_goals
    apply Prod.Lex.right
    have := Value.sizeOf_children_lt _h
    omega

/-- One inline token. -/
def inline (depth : Nat) (token : Value) : Act String := do
  let env ← environment
  let kind ← Token.kind token
  match (← Token.kindKey kind).bind inlineKind? with
  | none => unknownInline env kind
  | some .text => textMarkup token
  | some (.wrapped opening closing) => do
    let text ← inlinesBelow depth token
    pure (opening ++ text ++ closing)
  | some .code => codeMarkup token
  | some .link => do
    let url ← token.attr "url" (.str "")
    let label ← inlinesBelow depth token
    linkMarkup url label
  | some .linkReference => do
    let identifier ← identifierOf token
    match env.definitions.find (Text.lower identifier) with
    | some d => do
      let label ← inlinesBelow depth token
      linkMarkup d.url label
    | none => do
      Rendering.report (unresolved "Link" identifier)
      let text ← inlinesBelow depth token
      if text ≠ "" then pure text
      else Markup.escapeValue ((← token.attr "label" .null).orElse (.str identifier))
  | some .image => do imageMarkup (← token.attr "url" (.str ""))
  | some .imageReference => imageReferenceMarkup env token
  | some .footnoteReference => footnoteReference depth token
  | some .formula => do
    let span ← token.attr "span" .null
    inlineFormula env (← token.field "raw" (.str "")) span
  | some .lineBreak => pure "\\\n"
  | some .softBreak => pure " "
termination_by (depth, 4 * sizeOf token + 1)

/-- A footnote in the place of a reference to it. It is marked while it is expanded. -/
def footnoteReference (depth : Nat) (token : Value) : Act String := do
  let identifier ← identifierOf token
  let key := Text.lower identifier
  let env ← environment
  let active ← marked
  match env.footnotes.find key with
  | none => do
    Rendering.report (inlineWarning .unresolvedFootnote
      ("Footnote reference [^" ++ identifier ++ "] has no matching definition")
      "identifier" (.str identifier))
    pure ""
  | some note =>
    if key ∈ active then do
      Rendering.report (inlineWarning .footnoteCycle
        ("Footnote [^" ++ identifier ++ "] references itself") "identifier" (.str identifier))
      pure ""
    else
      match _hd : depth with
      | 0 => giveUp
      | deeper + 1 =>
        expanding key <| rescue
          (do
            if env.rendersFootnotes then pure () else Rendering.fail .noBlockRenderer
            let body ← note.body.tokens
            let parts ← blocks deeper body 0
            pure ("#footnote[" ++ Text.strip (String.intercalate " " parts) ++ "]"))
          (fun cause => do
            Rendering.report (brokenFootnote identifier cause)
            pure "")
termination_by (depth, 4 * sizeOf token)
decreasing_by
  subst _hd
  exact Prod.Lex.left _ _ (Nat.lt_succ_self deeper)

/-- Blocks, those that show something. -/
def blocks (depth : Nat) (tokens : List Value) (indent : Int) : Act (List String) :=
  match tokens with
  | [] => pure []
  | token :: rest => do
    let here ← block depth token indent
    let more ← blocks depth rest indent
    match here with
    | some text => pure (if text = "" then more else text :: more)
    | none => pure more
termination_by (depth, 4 * sizeOf tokens)

/-- One block. A failure inside it is reported, and only the block is left out. -/
def block (depth : Nat) (token : Value) (indent : Int) : Act (Option String) := do
  let kind ← Token.kind token
  let key ← Token.kindKey kind
  if (key.map isSilent).getD false then pure none
  else match key.bind blockKind? with
  | none => do
    Rendering.report (unknownBlock kind)
    pure none
  | some form =>
    rescue (blockOf depth form token indent)
      (fun cause => do
        Rendering.report (brokenBlock kind cause)
        pure none)
termination_by (depth, 4 * sizeOf token + 3)

/-- A block of a known kind. -/
def blockOf (depth : Nat) (form : BlockKind) (token : Value) (indent : Int) :
    Act (Option String) := do
  match form with
  | .heading => do
    let level ← headingLevel (← token.attr "level" (.int 1))
    let text ← inlinesBelow depth token
    match level with
    | some level => pure (some (Markup.indent (headingMark level ++ " " ++ text) indent))
    | none => Rendering.fail .mismatch
  | .paragraph => do
    let text ← paragraph depth token
    pure (some (Markup.indent text indent))
  | .list => do
    let marker ← listMarker token
    match _h : token.children with
    | .error f => perform (Rendering.fail f)
    | .ok children => do
      let parts ← items depth marker children indent
      pure (some (lines parts))
  | .listItem => do
    let text ← item depth "-" token indent
    pure (some text)
  | .code => do pure (some (← codeBlock token indent))
  | .quote =>
    match _h : token.children with
    | .error f => perform (Rendering.fail f)
    | .ok children => do
      let parts ← blocks depth children 0
      pure (some (quoteBlock (String.intercalate "\n\n" parts) indent))
  | .rule => pure (some (Markup.indent rule indent))
  | .table => table depth token indent
  | .formula => do
    let text ← blockFormula (← environment) (← token.field "raw" (.str ""))
    pure (some (Markup.indent text indent))
  | .html => htmlBlock token indent
termination_by (depth, 4 * sizeOf token + 2)
decreasing_by
  all_goals
    apply Prod.Lex.right
    first
      | omega
      | exact Nat.lt_add_right 2
          (Nat.mul_lt_mul_of_pos_left (Value.sizeOf_children_lt _h) (by simp))

/-- The text of a paragraph. -/
def paragraph (depth : Nat) (token : Value) : Act String := do
  if ← isOutlineMarker (← environment) token then pure outline else inlinesBelow depth token
termination_by (depth, 4 * sizeOf token + 1)

/-- The items of a list. -/
def items (depth : Nat) (marker : String) (tokens : List Value) (indent : Int) :
    Act (List String) :=
  match tokens with
  | [] => pure []
  | token :: rest => do
    let here ← item depth marker token indent
    let more ← items depth marker rest indent
    pure (here :: more)
termination_by (depth, 4 * sizeOf tokens)

/-- One item of a list. -/
def item (depth : Nat) (marker : String) (token : Value) (indent : Int) : Act String :=
  match _h : itemParts token with
  | .error f => perform (Rendering.fail f)
  | .ok [] => pure (Markup.indent marker indent)
  | .ok (first :: more) => do
    let kind ← first.field "type" .null
    if kind.isText "paragraph" then
      let text ← paragraph depth first
      let parts ← blocks depth more (indent + 1)
      pure (lines (itemLead marker text indent ++ parts))
    else
      let parts ← blocks depth (first :: more) (indent + 1)
      pure (lines (Markup.indent marker indent :: parts))
termination_by (depth, 4 * sizeOf token)
decreasing_by
  all_goals
    apply Prod.Lex.right
    have := sizeOf_itemParts_lt _h
    simp at this ⊢
    omega

/-- The cells of a row. -/
def cells (depth : Nat) : List Value → Act (List String)
  | [] => pure []
  | token :: rest => do
    let here ← inlinesBelow depth token
    let more ← cells depth rest
    pure (here :: more)
termination_by tokens => (depth, 4 * sizeOf tokens)

/-- The rows of a table. -/
def rows (depth : Nat) : List Value → Act (List (List String))
  | [] => pure []
  | token :: rest => do
    let here ← row depth token
    let more ← rows depth rest
    pure (here :: more)
termination_by tokens => (depth, 4 * sizeOf tokens)

/-- The cells below a row. -/
def row (depth : Nat) (token : Value) : Act (List String) :=
  match _h : token.children with
  | .error f => perform (Rendering.fail f)
  | .ok children => cells depth children
termination_by (depth, 4 * sizeOf token)
decreasing_by
  all_goals
    apply Prod.Lex.right
    have := Value.sizeOf_children_lt _h
    omega

/-- A table. -/
def table (depth : Nat) (token : Value) (indent : Int) : Act (Option String) :=
  match _h : rowsOf token with
  | .error f => perform (Rendering.fail f)
  | .ok [] => do
    Rendering.report (emptyTable "Empty table found (no rows)")
    pure none
  | .ok (header :: body) => do
    let columns ← (← header.field "children" (.list [])).count
    if columns = 0 then
      Rendering.report (emptyTable "Table has no columns")
      pure none
    else
      let align ← alignments token columns
      let head ← row depth header
      let body ← rows depth body
      pure (some (Markup.indent (tableMarkup align head body) indent))
termination_by (depth, 4 * sizeOf token)
decreasing_by
  all_goals
    apply Prod.Lex.right
    have := sizeOf_rowsOf_lt _h
    simp at this
    omega

end

/-- Blocks with a text between those that show something. -/
def blocksText (depth : Nat) (tokens : List Value) (indent : Int) (separator : String) :
    Act String := do
  let parts ← blocks depth tokens indent
  pure (String.intercalate separator parts)

end Typeset.Act
