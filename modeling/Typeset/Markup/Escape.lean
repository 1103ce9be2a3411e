/-! Literal text inside markup and inside string literals. -/

namespace Typeset.Markup

/-- The characters that markup gives a meaning wherever they stand. -/
def isSpecial (c : Char) : Bool :=
  c == '\\' || c == '#' || c == '*' || c == '_' || c == '`' || c == '[' || c == ']' || c == '$' ||
    c == '<' || c == '>' || c == '@' || c == '~'

/-- A slash opens a comment before another slash or an asterisk. -/
def opensComment (c : Char) (rest : List Char) : Bool :=
  c == '/' && (rest.head? == some '/' || rest.head? == some '*')

/-- Text with a backslash before each character that markup would not take literally. -/
def escapeChars : List Char → List Char
  | [] => []
  | c :: rest =>
    if isSpecial c || opensComment c rest then '\\' :: c :: escapeChars rest
    else c :: escapeChars rest

/-- Text that markup shows literally. -/
def escape (s : String) : String := String.ofList (escapeChars s.toList)

/-- One character inside a string literal. -/
def stringChar (c : Char) : List Char :=
  if c = '\\' then ['\\', '\\']
  else if c = '"' then ['\\', '"']
  else if c = '\n' then ['\\', 'n']
  else [c]

/-- Text between the marks of a string literal. -/
def escapeString (s : String) : String := String.ofList (s.toList.flatMap stringChar)

/-- A string literal. -/
def stringLiteral (s : String) : String := "\"" ++ escapeString s ++ "\""

/-- Escaped text with its backslashes taken away. -/
def unescapeChars : List Char → List Char
  | [] => []
  | ['\\'] => []
  | '\\' :: c :: rest => c :: unescapeChars rest
  | c :: rest => c :: unescapeChars rest

theorem unescapeChars_escapeChars (cs : List Char) : unescapeChars (escapeChars cs) = cs := by
  induction cs with
  | nil => rfl
  | cons c rest ih =>
    by_cases h : isSpecial c || opensComment c rest
    · simp [escapeChars, h, unescapeChars, ih]
    · have hc : c ≠ '\\' := by
        rintro rfl
        simp [isSpecial] at h
      rw [escapeChars, if_neg h, unescapeChars, ih]
      · simp [hc]
      · simp [hc]

end Typeset.Markup
