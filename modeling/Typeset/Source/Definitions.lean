import Typeset.Token.Basic
import Typeset.Text.Blank

/-! Link and footnote definitions on lines of their own, taken out of a document before it is read
as Markdown. A definition leaves an empty line behind. -/

namespace Typeset.Source

/-- A line of text without its ending. -/
abbrev Line := List Char

/-- A link definition: `[label]: url "title"`. -/
structure LinkDefinition where
  label : String
  url : String
  title : Option String
  deriving DecidableEq, Repr

/-- The token of a link definition. -/
def LinkDefinition.token (d : LinkDefinition) : Value :=
  Token.marked "definition"
    [("identifier", .str d.label), ("label", .str d.label), ("url", .str d.url),
      ("title", .ofText? d.title)]

/-- A footnote definition: its identifier and the Markdown of its body. -/
structure NoteDefinition where
  identifier : String
  body : String
  deriving DecidableEq, Repr

/-- What is left of a document, and what has been taken out of it. -/
structure Lifted where
  kept : List Line := []
  links : List LinkDefinition := []
  notes : List NoteDefinition := []

/-- A space or a tab. -/
def isSpaceOrTab (c : Char) : Bool := c == ' ' || c == '\t'

/-- The fence that a line opens: three or more backticks or tildes, at most three spaces in. -/
def fence? (line : Line) : Option Line :=
  let spaces := line.takeWhile (· == ' ')
  let body := line.drop spaces.length
  if 3 < spaces.length then none
  else match body with
    | c :: _ =>
      if c = '`' || c = '~' then
        let run := body.takeWhile (· == c)
        if 3 ≤ run.length then some run else none
      else none
    | [] => none

/-- Whether a line closes a fence: white space apart it holds nothing but the fence's character, at
least as often. -/
def closesFence (fence line : Line) : Bool :=
  let text := Text.trim Text.isBlank line
  fence.length ≤ text.length && text.all fun c => fence.head? == some c

/-- The identifier and first line of a footnote definition. -/
def noteStart? (line : Line) : Option (Line × Line) :=
  match line with
  | '[' :: '^' :: rest =>
    let identifier := rest.takeWhile fun c => c != ']' && !Text.isBlank c
    match rest.drop identifier.length with
    | ']' :: ':' :: text =>
      if identifier.isEmpty then none
      else match text with
        | c :: more => some (identifier, if isSpaceOrTab c then more else text)
        | [] => some (identifier, [])
    | _ => none
  | _ => none

/-- A line without one level of indentation, if it has one: four spaces or a tab. -/
def outdent? (line : Line) : Option Line :=
  match line with
  | ' ' :: ' ' :: ' ' :: ' ' :: rest => some rest
  | '\t' :: rest => some rest
  | _ => none

/-- The lines that go on with a footnote, outdented, and the lines after them. A blank line goes on
only if an indented one follows it. -/
def continuation : List Line → List Line × List Line
  | [] => ([], [])
  | line :: rest =>
    match outdent? line with
    | some text =>
      let (body, after) := continuation rest
      (text :: body, after)
    | none =>
      if line.all Text.isBlank && (rest.head?.bind outdent?).isSome then
        let (body, after) := continuation rest
        ([] :: body, after)
      else ([], line :: rest)

theorem length_continuation_le (lines : List Line) :
    (continuation lines).2.length ≤ lines.length := by
  fun_induction continuation lines with
  | case1 => simp
  | case2 line rest text h body after hc ih => simp_all; omega
  | case3 line rest h hb body after hc ih => simp_all; omega
  | case4 => simp

/-- A title between marks, at the front of a text. -/
def title? : List Char → Option (List Char × List Char)
  | '"' :: rest => close '"' rest
  | '\'' :: rest => close '\'' rest
  | '(' :: rest => close ')' rest
  | _ => none
where
  close (mark : Char) (rest : List Char) : Option (List Char × List Char) :=
    match rest.dropWhile (· != mark) with
    | _ :: after => some (rest.takeWhile (· != mark), after)
    | [] => none

/-- The end of a definition after its target: a title or nothing. -/
def targetEnd? (cs : List Char) : Option (Option String) :=
  let body := cs.dropWhile isSpaceOrTab
  if body.isEmpty then some none
  else if body.length = cs.length then none
  else match title? body with
    | some (title, after) =>
      if after.all isSpaceOrTab then some (some (String.ofList title)) else none
    | none => none

/-- A target without the angle brackets around it. -/
def bare (url : List Char) : List Char :=
  if url.head? == some '<' && url.getLast? == some '>' then (url.drop 1).dropLast else url

/-- The target and title of a definition: a target between angle brackets if what follows it
allows, else one up to white space. -/
def target? (cs : List Char) : Option (List Char × Option String) :=
  let bracketed := match cs with
    | '<' :: rest =>
      match rest.dropWhile (· != '>') with
      | '>' :: after => (targetEnd? after).map fun title => (rest.takeWhile (· != '>'), title)
      | _ => none
    | _ => none
  match bracketed with
  | some found => some found
  | none =>
    let word := cs.takeWhile (!Text.isBlank ·)
    if word.isEmpty then none
    else (targetEnd? (cs.drop word.length)).map fun title => (bare word, title)

/-- The link definition on a line. -/
def link? (line : Line) : Option LinkDefinition :=
  match line with
  | '[' :: c :: rest =>
    if c = ']' || c = '^' then none
    else
      let label := c :: rest.takeWhile (· != ']')
      match rest.drop (label.length - 1) with
      | ']' :: ':' :: after =>
        (target? (after.dropWhile isSpaceOrTab)).map fun (url, title) =>
          ⟨String.ofList (Text.trim Text.isBlank label), String.ofList url, title⟩
      | _ => none
  | _ => none

/-- Takes the definitions out of lines. Inside a fence there are none, and a link definition cannot
follow a line of text. -/
def liftFrom (fence : Option Line) (afterBlank : Bool) (lines : List Line) : Lifted :=
  match lines with
  | [] => {}
  | line :: rest =>
    match fence with
    | some f =>
      let later := liftFrom (if closesFence f line then none else some f) afterBlank rest
      { later with kept := line :: later.kept }
    | none =>
      match fence? line with
      | some f =>
        let later := liftFrom (some f) false rest
        { later with kept := line :: later.kept }
      | none =>
        match noteStart? line with
        | some (identifier, text) =>
          let body := text :: (continuation rest).1
          let later := liftFrom none true (continuation rest).2
          { later with
            kept := [] :: later.kept
            notes := ⟨String.ofList identifier, String.ofList (List.intercalate ['\n'] body)⟩ ::
              later.notes }
        | none =>
          match if afterBlank then link? line else none with
          | some link =>
            let later := liftFrom none afterBlank rest
            { later with kept := [] :: later.kept, links := link :: later.links }
          | none =>
            let later := liftFrom none (line.all Text.isBlank) rest
            { later with kept := line :: later.kept }
termination_by lines.length
decreasing_by
  all_goals simp_wf
  all_goals have := length_continuation_le rest; omega

/-- The lines left of a document, as text. -/
def Lifted.text (l : Lifted) : List Char := List.intercalate ['\n'] l.kept

/-- Takes the definitions out of a document. -/
def liftDefinitions (cs : List Char) : Lifted := liftFrom none true (Text.lines cs)

end Typeset.Source
