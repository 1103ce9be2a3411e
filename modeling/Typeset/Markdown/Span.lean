import Typeset.Markdown.Emphasis
import Typeset.Markdown.Html
import Typeset.Markdown.Label
import Typeset.Text.Hex

/-! The constructs inside a line of text, read from left to right. A reader here takes the text from
the place where its construct begins and gives back what follows it. -/

namespace Typeset.Markdown.Span

/-- What a text's reading depends on: where labels lead, and how texts inside constructs are read,
outside or inside a link. -/
structure Setting where
  targets : List LinkTarget
  nested : Bool → List Char → List Inline

/-- A construct at the front of a text: its piece, what follows it, and whether that is inside a
link. -/
structure Found where
  piece : Piece
  rest : List Char
  inLink : Bool

/-- The part of a text before one of its endings. -/
def before (cs rest : List Char) : List Char := cs.take (cs.length - rest.length)

/-- A text up to its first unescaped dollar sign. An escape cannot cross a line end. -/
def formula? (acrossLines : Bool) : List Char → Option (List Char × List Char)
  | [] => none
  | '\\' :: c :: rest =>
    if c = '\n' then none
    else (formula? acrossLines rest).map fun (body, after) => ('\\' :: c :: body, after)
  | c :: rest =>
    if c = '$' then some ([], c :: rest)
    else if c = '\\' || (c = '\n' && !acrossLines) then none
    else (formula? acrossLines rest).map fun (body, after) => (c :: body, after)

/-- A formula between double dollar signs, without any dollar sign in it. -/
def doubleDollar? (cs : List Char) : Option (Inline × List Char) :=
  match cs with
  | '$' :: '$' :: rest =>
    let body := rest.takeWhile (· != '$')
    match rest.drop body.length with
    | '$' :: '$' :: after =>
      if body.isEmpty then none else some (.math body (some (body.length + 4)), after)
    | _ => none
  | _ => none

/-- A formula between double dollar signs with escaped dollar signs in it, or an empty one. -/
def escapedDollars? (cs : List Char) : Option (Inline × List Char) :=
  match cs with
  | '$' :: '$' :: rest =>
    match formula? true rest with
    | some (body, '$' :: '$' :: after) => some (.displayMath body, after)
    | _ => none
  | _ => none

/-- A formula between a dollar sign with backquotes and as many backquotes with a dollar sign. -/
def fencedFormula? (cs : List Char) : Option (Inline × List Char) :=
  match cs with
  | '$' :: rest =>
    let ticks := rest.takeWhile (· == '\x60')
    (List.range ticks.length).reverse.findSome? fun k =>
      (Text.cut? (ticks.take (k + 1) ++ ['$']) (rest.drop (k + 1))).map fun (body, after) =>
        (.math body none, after)
  | _ => none

/-- A formula between single dollar signs. White space cannot follow the first, nor a digit the
second. -/
def singleDollar? (cs : List Char) : Option (Inline × List Char) :=
  match cs with
  | '$' :: rest =>
    match formula? false rest with
    | some (body, _ :: after) =>
      if body.isEmpty || body.head?.any Text.isBlank || after.head?.any Text.isDecimalDigit then
        none
      else some (.math body none, after)
    | _ => none
  | _ => none

/-- A formula. -/
def math? (cs : List Char) : Option (Inline × List Char) :=
  (doubleDollar? cs).orElse fun _ => (escapedDollars? cs).orElse fun _ =>
    (fencedFormula? cs).orElse fun _ => singleDollar? cs

/-- A text up to the first run of exactly so many backquotes, and what follows the run. -/
def untilTicks? (width : Nat) (cs : List Char) : Option (List Char × List Char) :=
  match cs with
  | [] => none
  | c :: rest =>
    if c = '\x60' then
      let ticks := c :: rest.takeWhile (· == '\x60')
      let after := rest.drop (ticks.length - 1)
      if ticks.length = width then some ([], after)
      else (untilTicks? width after).map fun (body, after) => (ticks ++ body, after)
    else (untilTicks? width rest).map fun (body, after) => (c :: body, after)
termination_by cs.length
decreasing_by
  · exact Nat.lt_succ_of_le (List.drop_sublist _ rest).length_le
  · exact Nat.lt_succ_self _

/-- Code as it is shown: on one line, and without a space at either end if there are two of them
around something. -/
def codeText (body : List Char) : List Char :=
  let line := body.map fun c => if c = '\n' then ' ' else c
  if line.head? = some ' ' && line.getLast? = some ' ' && !line.all Text.isBlank then
    (line.drop 1).dropLast
  else line

/-- Code between equal runs of backquotes. A run without an equal is text. -/
def code (cs : List Char) : Inline × List Char :=
  let ticks := cs.takeWhile (· == '\x60')
  let rest := cs.drop ticks.length
  match untilTicks? ticks.length rest with
  | some (body, after) => (.code (codeText body), after)
  | none => (.text ticks, rest)

/-- Punctuation behind backslashes, without them. -/
def escapes : List Char → List Char × List Char
  | '\\' :: c :: rest =>
    if isPunctuation c then (c :: (escapes rest).1, (escapes rest).2) else ([], '\\' :: c :: rest)
  | cs => ([], cs)

/-- The end of a line: a hard one after a backslash or after two spaces or more. The white space
that begins the next line goes with it. -/
def lineEnd? (cs : List Char) : Option (Inline × List Char) :=
  match cs with
  | '\\' :: '\n' :: rest => some (.hardBreak, rest.dropWhile Text.isBlank)
  | _ =>
    let spaces := cs.takeWhile (· == ' ')
    match cs.drop spaces.length with
    | '\n' :: rest =>
      some (if 2 ≤ spaces.length then .hardBreak else .softBreak, rest.dropWhile Text.isBlank)
    | _ => none

/-- Whether doubled marks may open at the front of a text: something that is neither white space nor
the mark follows them. -/
def opensPair (mark : Char) (cs : List Char) : Bool :=
  match cs with
  | a :: b :: c :: _ => a == mark && b == mark && c != mark && !Text.isBlank c
  | _ => false

/-- A text up to doubled marks that close. White space cannot precede them, nor a single further
mark follow. -/
def untilPair? (mark : Char) (last : Option Char) : List Char → Option (List Char × List Char)
  | [] => none
  | c :: rest =>
    let closed : Option (List Char × List Char) :=
      match rest with
      | d :: after =>
        let single := after.head? == some mark && after[1]? != some mark
        if c == mark && d == mark && last.any (!Text.isBlank ·) && !single then some ([], after)
        else none
      | [] => none
    closed.orElse fun _ =>
      (untilPair? mark (some c) rest).map fun (body, after) => (c :: body, after)

/-- Text between doubled marks. -/
def pair? (s : Setting) (inLink : Bool) (mark : Char) (format : Format) (cs : List Char) :
    Option (Inline × List Char) :=
  (untilPair? mark none (cs.drop 2)).map fun (body, after) =>
    (.formatted format (s.nested inLink body), after)

/-- A text up to a mark that closes a script, from its first character on. There is no white space
inside but spaces behind backslashes; a mark behind a backslash closes only if no other does. -/
def script? (mark : Char) (first : Bool) (cs : List Char) : Option (List Char × List Char) :=
  match cs with
  | [] => none
  | c :: rest =>
    if c = mark && !first then some ([], rest)
    else if c = '\\' then
      let slashes := c :: rest.takeWhile (· == '\\')
      match _h : rest.drop (slashes.length - 1) with
      | d :: after =>
        if d = mark then
          if slashes.length % 2 = 1 then
            match script? mark false after with
            | some (body, after) => some (slashes ++ d :: body, after)
            | none => some (slashes, after)
          else some (slashes, after)
        else if d = ' ' then (script? mark false after).map fun (body, after) =>
          (slashes.dropLast ++ d :: body, after)
        else if Text.isBlank d then none
        else (script? mark false after).map fun (body, after) => (slashes ++ d :: body, after)
      | [] => none
    else if Text.isBlank c then none
    else (script? mark false rest).map fun (body, after) => (c :: body, after)
termination_by cs.length
decreasing_by
  · have h := congrArg List.length _h
    simp at h ⊢
    omega
  · have h := congrArg List.length _h
    simp at h ⊢
    omega
  · have h := congrArg List.length _h
    simp at h ⊢
    omega
  · simp

/-- A superscript or subscript. -/
def script (s : Setting) (inLink : Bool) (mark : Char) (format : Format) (cs : List Char) :
    Option (Inline × List Char) :=
  (script? mark true (cs.drop 1)).map fun (body, after) =>
    (.formatted format (s.nested inLink body), after)

/-- An address with a scheme in angle brackets. -/
def bracketedAddress? (cs : List Char) : Option (List Char × List Char) :=
  match cs with
  | '<' :: c :: rest =>
    let scheme := c :: rest.takeWhile fun c => c.isAlphanum || ".+-".toList.contains c
    match rest.drop (scheme.length - 1) with
    | ':' :: more =>
      let path := more.takeWhile fun c => c != '<' && c != '>' && 32 < c.toNat
      match more.drop path.length with
      | '>' :: after =>
        if c.isAlpha && 2 ≤ scheme.length && scheme.length ≤ 32 then
          some (scheme ++ ':' :: path, after)
        else none
      | _ => none
    | _ => none
  | _ => none

/-- Whether a text may stand between the dots of a mail address's domain. -/
def isDomainLabel (label : List Char) : Bool :=
  label.length ≤ 63 && label.all (fun c => c.isAlphanum || c == '-') &&
    label.head?.any Char.isAlphanum && label.getLast?.any Char.isAlphanum

/-- A text cut at each occurrence of a character. -/
def splitAt (c : Char) : List Char → List (List Char)
  | [] => [[]]
  | d :: rest =>
    if d = c then [] :: splitAt c rest
    else match splitAt c rest with
      | [] => [[d]]
      | word :: words => (d :: word) :: words

/-- A mail address in angle brackets. -/
def bracketedMail? (cs : List Char) : Option (List Char × List Char) :=
  match cs with
  | '<' :: rest =>
    let name := rest.takeWhile fun c =>
      c.isAlphanum || ".!#$%&'*+/=?^_\x60\x7b|\x7d~-".toList.contains c
    match rest.drop name.length with
    | '@' :: more =>
      let domain := more.takeWhile fun c => c != '>'
      match more.drop domain.length with
      | '>' :: after =>
        if !name.isEmpty && (splitAt '.' domain).all isDomainLabel then
          some (name ++ '@' :: domain, after)
        else none
      | _ => none
    | _ => none
  | _ => none

/-- An address that stands in the text as it is. It does not end in punctuation that closes a
sentence or a bracket. -/
def bareAddress? (cs : List Char) : Option (List Char × List Char) := do
  let rest ← (Text.after? "http://".toList cs).orElse fun _ => Text.after? "https://".toList cs
  let word := rest.takeWhile fun c => !Text.isBlank c && c != '<'
  let word := Text.trimRight (".,:;\"')]".toList.contains ·) word
  if word.length < 2 then none
  else
    let after := rest.drop word.length
    some (before cs after, after)

/-- A link that shows its own address. Inside a link it is text, with what is around it. -/
def ownLink (inLink : Bool) (scheme shown source : List Char) : Inline :=
  if inLink then .text source
  else .link false false ⟨address (scheme ++ shown), none⟩ [.text shown]

/-- An address in angle brackets, or a tag. -/
def bracket? (inLink : Bool) (cs : List Char) : Option Found :=
  match bracketedAddress? cs with
  | some (shown, rest) => some ⟨.plain (ownLink inLink [] shown (before cs rest)), rest, inLink⟩
  | none =>
    match bracketedMail? cs with
    | some (shown, rest) =>
      some ⟨.plain (ownLink inLink "mailto:".toList shown (before cs rest)), rest, inLink⟩
    | none => (Html.inline? cs).map fun rest =>
      let tag := before cs rest
      ⟨.plain (.html tag), rest, (inLink || Html.opensLink tag) && !Html.closesLink tag⟩

/-- What follows the first character of a link's text, or the escape, code, tag or address that it
begins. -/
def afterUnit (c : Char) (rest : List Char) : List Char :=
  if c = '\\' then rest.drop 1
  else if c = '\x60' then (code (c :: rest)).2
  else if c = '<' then ((bracket? false (c :: rest)).map Found.rest).getD rest
  else rest

/-- What follows the bracket that closes a link's text. Brackets inside are balanced, and those in
escapes, code, tags and addresses do not count. -/
def afterText? (depth : Nat) (cs : List Char) : Option (List Char) :=
  match cs with
  | [] => none
  | c :: rest =>
    if c = ']' && depth = 0 then some rest
    else
      let inner := if c = ']' then depth - 1 else if c = '[' then depth + 1 else depth
      if (afterUnit c rest).length ≤ rest.length then afterText? inner (afterUnit c rest) else none
termination_by cs.length
decreasing_by simp_wf; omega

/-- The target of a link whose text is followed by a label, by empty brackets or by nothing. -/
def labelled? (targets : List LinkTarget) (text after : List Char) :
    Option (Target × List Char) :=
  let second := match after with
    | '[' :: more => label? more
    | _ => none
  let find (label rest : List Char) := (findTarget? targets label).map fun target => (target, rest)
  match second with
  | some (label, rest) =>
    if !label.isEmpty then find label rest
    else if isLabel text then find text rest
    else none
  | none => if isLabel text then find text after else none

/-- A link or an image, from the text in its brackets on. -/
def link? (s : Setting) (image inLink : Bool) (cs : List Char) : Option (Inline × List Char) := do
  let after ← afterText? 0 cs
  let text := (before cs after).dropLast
  let direct := match after with
    | '(' :: more => inlineTarget? more
    | _ => none
  let children := s.nested (inLink || !image) text
  match direct with
  | some (target, rest) => some (.link image false target children, rest)
  | none =>
    let (target, rest) ← labelled? s.targets text after
    some (.link image true target children, rest)

/-- The construct at the front of a text, whose last character before that is known. -/
def construct? (s : Setting) (inLink : Bool) (last : Option Char) (cs : List Char) : Option Found :=
  let plain (found : Inline × List Char) : Found := ⟨.plain found.1, found.2, inLink⟩
  match cs with
  | [] => none
  | c :: rest =>
    if c = '\\' then
      let (text, after) := escapes cs
      if text.isEmpty then (lineEnd? cs).map plain else some (plain (.text text, after))
    else if c = '$' then (math? cs).map plain
    else if c = '\x60' then some (plain (code cs))
    else if c = '*' || c = '_' then
      let more := rest.takeWhile (· == c)
      let after := rest.drop more.length
      some ⟨.run (Run.between last c (more.length + 1) after.head?), after, inLink⟩
    else if c = '~' then
      if opensPair c cs then (pair? s inLink c .strikethrough cs).map plain
      else (script s inLink c .subscript cs).map plain
    else if c = '=' then
      if opensPair c cs then (pair? s inLink c .mark cs).map plain else none
    else if c = '^' then (script s inLink c .superscript cs).map plain
    else if c = '[' then if inLink then none else (link? s false inLink rest).map plain
    else if c = '!' then
      match rest with
      | '[' :: more => (link? s true inLink more).map plain
      | _ => none
    else if c = '<' then bracket? inLink cs
    else if c = ' ' || c = '\n' then (lineEnd? cs).map plain
    else if c = 'h' then
      (bareAddress? cs).map fun (shown, after) => plain (ownLink inLink [] shown shown, after)
    else none

/-- The pieces of a text. What begins no construct is text; `held` are such characters that wait to
be joined, latest first. -/
def scan (s : Setting) (inLink : Bool) (last : Option Char) (held cs : List Char) : List Piece :=
  let text : List Piece := if held.isEmpty then [] else [.plain (.text held.reverse)]
  match cs with
  | [] => text
  | c :: rest =>
    match construct? s inLink last (c :: rest) with
    | some found =>
      if found.rest.length < (c :: rest).length then
        text ++ found.piece ::
          scan s found.inLink (before (c :: rest) found.rest).getLast? [] found.rest
      else text
    | none => scan s inLink (some c) (c :: held) rest
termination_by cs.length
decreasing_by
  all_goals
    simp only [List.length_cons] at *
    omega

/-- The parts of a text, with constructs inside constructs down to a depth. An empty text has an
empty part. -/
def read (targets : List LinkTarget) : Nat → Bool → List Char → List Inline
  | 0, _, cs => [.text cs]
  | depth + 1, inLink, cs =>
    match readEmphasis (scan ⟨targets, read targets depth⟩ inLink none [] cs) with
    | [] => [.text cs]
    | parts => parts

end Typeset.Markdown.Span

namespace Typeset.Markdown

/-- How deep constructs inside a line may be nested. -/
def depthLimit : Nat := 20

/-- A character that does not count at the ends of a text. -/
def isEdgeBlank (c : Char) : Bool := [' ', '\r', '\n', '\t', '\x0c'].contains c

/-- The parts of a paragraph, heading or cell. -/
def readInlines (targets : List LinkTarget) (text : List Char) : List Inline :=
  Span.read targets depthLimit false (Text.trim isEdgeBlank text)

end Typeset.Markdown
