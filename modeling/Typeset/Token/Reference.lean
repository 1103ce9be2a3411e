import Typeset.Token.Basic
import Typeset.Text.Blank
import Typeset.Text.Case

/-! References inside runs of text: `[label][identifier]`, `[identifier][]`, `[identifier]` and
`[^identifier]`, the first three also for images after an exclamation mark. -/

namespace Typeset.Token

/-- A square bracket. -/
def isBracket (c : Char) : Bool := c == '[' || c == ']'

/-- A bracket group without brackets inside at the front of a text: its content and what follows
it. -/
def group? : List Char → Option (List Char × List Char)
  | '[' :: rest =>
    match rest.dropWhile (!isBracket ·) with
    | ']' :: after => some (rest.takeWhile (!isBracket ·), after)
    | _ => none
  | _ => none

theorem eq_of_group? {cs inner rest : List Char} (h : group? cs = some (inner, rest)) :
    cs = '[' :: (inner ++ ']' :: rest) := by
  unfold group? at h
  split at h
  · next body =>
    split at h
    · next after ha =>
      simp only [Option.some.injEq, Prod.mk.injEq] at h
      obtain ⟨rfl, rfl⟩ := h
      rw [← ha, List.takeWhile_append_dropWhile]
    · simp at h
  · simp at h

/-- How a reference names its target. -/
inductive ReferenceForm
  | full
  | collapsed
  | shortcut
  deriving DecidableEq, Repr

def ReferenceForm.name : ReferenceForm → String
  | .full => "full"
  | .collapsed => "collapsed"
  | .shortcut => "shortcut"

/-- A reference inside text. -/
inductive Reference
  | footnote (identifier : String)
  | target (image : Bool) (form : ReferenceForm) (label identifier : String)
  deriving DecidableEq, Repr

/-- The token of a reference. -/
def Reference.token : Reference → Value
  | .footnote identifier =>
    marked "footnote_ref" [("identifier", .str identifier), ("label", .str identifier)]
  | .target true form label identifier =>
    marked "image_reference"
      [("identifier", .str identifier), ("label", .str label), ("alt", .str label),
        ("reference_type", .str form.name)]
  | .target false form label identifier =>
    markedBranch "link_reference"
      [("identifier", .str identifier), ("label", .str label), ("reference_type", .str form.name)]
      (if label = "" then [] else [text label])

/-- Text without the white space around it. -/
def trimmed (cs : List Char) : String := String.ofList (Text.trim Text.isBlank cs)

/-- A group that no footnote mark opens. -/
def unmarked? (cs : List Char) : Option (List Char × List Char) :=
  (group? cs).filter fun g => g.1.head? != some '^'

/-- What two bracket groups refer to: the second names the target, or the first if the second is
blank. -/
def paired? (image : Bool) (first second : List Char) : Option Reference :=
  if trimmed second != "" then
    some (.target image .full (String.ofList first) (trimmed second))
  else if trimmed first != "" then
    some (.target image .collapsed (String.ofList first) (trimmed first))
  else none

/-- A reference that is written at the front of a text, and what follows it. What has the form of a
reference but refers to nothing is none, and is passed over as a whole. A shortcut needs a known
identifier, and neither a parenthesis nor a colon after it. -/
def reference? (known : List String) (cs : List Char) : Option (Option Reference × List Char) :=
  let image := cs.head? == some '!'
  let body := if image then cs.drop 1 else cs
  match group? body with
  | none => none
  | some (first, rest) =>
    match (unmarked? body).bind fun _ => unmarked? rest with
    | some (second, rest) => some (paired? image first second, rest)
    | none =>
      match first with
      | [] => none
      | c :: identifier =>
        if !image && c == '^' && !identifier.isEmpty && !identifier.any Text.isBlank then
          some (some (.footnote (String.ofList identifier)), rest)
        else if rest.head? == some '(' || rest.head? == some ':' then none
        else if known.contains (Text.lower (trimmed first)) then
          some (some (.target image .shortcut (String.ofList first) (trimmed first)), rest)
        else some (none, rest)

theorem length_group?_lt {cs inner rest : List Char} (h : group? cs = some (inner, rest)) :
    rest.length < cs.length := by
  rw [eq_of_group? h]
  simp
  omega

theorem length_reference?_lt {known : List String} {cs rest : List Char} {r : Option Reference}
    (h : reference? known cs = some (r, rest)) : rest.length < cs.length := by
  unfold reference? at h
  simp only at h
  have hb : (if (cs.head? == some '!') = true then cs.drop 1 else cs).length ≤ cs.length := by
    split <;> simp
  split at h
  · simp at h
  · next first rest' hg =>
    have h1 := length_group?_lt hg
    split at h
    · next second rest'' hu =>
      have h2 : rest''.length < rest'.length := by
        obtain ⟨_, _, hu⟩ := Option.bind_eq_some_iff.1 hu
        exact length_group?_lt (Option.filter_eq_some_iff.1 hu).1
      simp only [Option.some.injEq, Prod.mk.injEq] at h
      obtain ⟨_, rfl⟩ := h
      omega
    · split at h
      · simp at h
      · split at h
        · simp only [Option.some.injEq, Prod.mk.injEq] at h
          obtain ⟨_, rfl⟩ := h
          omega
        · split at h
          · simp at h
          · split at h <;> simp only [Option.some.injEq, Prod.mk.injEq] at h <;>
              obtain ⟨_, rfl⟩ := h <;> omega

/-- Text that stands between references, unless there is none. -/
def textRun (cs : List Char) : List Value := if cs.isEmpty then [] else [text (String.ofList cs)]

/-- The references in a text and the text between them; `done` is the text just read, backwards. -/
def splitFrom (known : List String) (done cs : List Char) : List Value :=
  match cs with
  | [] => textRun done.reverse
  | c :: rest =>
    match _h : reference? known (c :: rest) with
    | some (some r, after) => textRun done.reverse ++ r.token :: splitFrom known [] after
    | some (none, after) =>
      splitFrom known (((c :: rest).take ((c :: rest).length - after.length)).reverse ++ done) after
    | none => splitFrom known (c :: done) rest
termination_by cs.length
decreasing_by
  · exact length_reference?_lt _h
  · exact length_reference?_lt _h
  · simp

/-- A run of text as text and references. Text without references stays one token, even if it is
empty. -/
def splitReferences (known : List String) (s : String) : List Value :=
  match splitFrom known [] s.toList with
  | [] => [text s]
  | tokens => tokens

end Typeset.Token
