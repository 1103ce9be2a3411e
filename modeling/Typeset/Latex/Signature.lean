import Typeset.Text.Blank

/-! What LaTeX commands and environments take after their names. -/

namespace Typeset.Latex

/-- One thing that a command may take: a star, text in brackets, or an argument. -/
inductive Slot
  | star
  | optional
  | required
  deriving DecidableEq, Repr

/-- What a command takes: a row of slots, or text up to a delimiter, as it stands. -/
inductive Signature
  | slots (row : List Slot)
  | verbatim
  deriving DecidableEq, Repr

/-- The commands that take something, by what they take. -/
def commandTable : List (Signature × List String) :=
  [(.slots [.star, .optional],
    ["\\"]),
   (.slots [.star, .optional, .optional, .required],
    ["cite", "citet", "citep", "citealt", "citealp", "citeauthor", "Citet", "Citep",
     "Citealt", "Citealp", "Citeauthor"]),
   (.slots [.star, .optional, .required],
    ["chapter", "section", "subsection", "subsubsection", "pagagraph", "subparagraph"]),
   (.slots [.star, .optional, .required, .required, .required],
    ["rowcolors"]),
   (.slots [.star, .required],
    ["hspace", "vspace"]),
   (.slots [.star, .required, .optional, .optional, .required],
    ["newcommand", "renewcommand", "providecommand"]),
   (.slots [.star, .required, .optional, .optional, .required, .required],
    ["newenvironment", "renewenvironment", "provideenvironment"]),
   (.slots [.star, .required, .required],
    ["DeclareMathOperator"]),
   (.verbatim,
    ["verb"]),
   (.slots [.optional],
    ["item"]),
   (.slots [.optional, .optional, .required],
    ["citefullauthor", "citeyear", "citeyearpar", "citetalias", "citepalias"]),
   (.slots [.optional, .required],
    ["documentclass", "usepackage", "RequirePackage", "selectlanguage", "includegraphics",
     "footnote", "hphantom", "vphantom", "sqrt", "xleftarrow", "xrightarrow", "color",
     "pagecolor", "pdfloesung", "pdfsolution"]),
   (.slots [.optional, .required, .optional, .required],
    ["colorlet"]),
   (.slots [.optional, .required, .optional, .required, .required],
    ["fcolorbox"]),
   (.slots [.optional, .required, .required],
    ["setlength", "addlength", "setcounter", "addcounter", "textcolor", "colorbox"]),
   (.slots [.optional, .required, .required, .required],
    ["definecolor", "providecolor"]),
   (.slots [.required],
    ["mbox", "title", "author", "date", "input", "include", "bibliography", "emph",
     "textrm", "textit", "textbf", "textmd", "textsc", "textsf", "textsl", "texttt",
     "textup", "text", "mathrm", "mathbb", "mathbf", "mathit", "mathsf", "mathtt",
     "mathcal", "mathscr", "mathfrak", "label", "ref", "autoref", "cref", "Cref", "eqref",
     "url", "hypersetup", "keywords", "'", "`", "\"", "c", "^", "~", "H", "k", "=", "b",
     ".", "d", "r", "u", "v", "ensuremath", "not", "vec", "dot", "hat", "check", "breve",
     "acute", "grave", "tilde", "bar", "ddot", "overline", "underline", "widehat",
     "widetilde", "wideparen", "overleftarrow", "overrightarrow", "overleftrightarrow",
     "underleftarrow", "underrightarrow", "underleftrightarrow", "overbrace", "underbrace",
     "overgroup", "undergroup", "overbracket", "underbracket", "overlinesegment",
     "underlinesegment", "overleftharpoon", "overrightharpoon", "ket", "bra", "citetext",
     "citenum", "UebungLoesungFont", "UebungHinweisFont", "UebungExTitleFont",
     "UebungSubExTitleFont", "UebungTipsFont", "UebungLabel", "UebungSubLabel",
     "UebungLabelEnum", "UebungLabelEnumSub", "UebungSolLabel", "UebungHinweisLabel",
     "UebungHinweiseLabel", "UebungSolEquationLabel", "UebungTipsLabel",
     "UebungTipsEquationLabel", "UebungsblattTitleSeries", "UebungsblattTitleSolutions",
     "UebungsblattTitleTips", "UebungsblattNumber", "UebungsblattTitleFont",
     "UebungTitleCenterVSpacing", "UebungAttachedSolutionTitleTop",
     "UebungAttachedSolutionTitleFont", "UebungAttachedSolutionTitle",
     "UebungTextAttachedSolution", "UebungDueByLabel", "UebungDueBy", "UebungLecture",
     "UebungProf", "UebungLecturer", "UebungSemester", "UebungLogoFile", "UebungLanguage",
     "UebungStyle", "keywords", "subuebung", "subexercise", "exenumfulllabel", "hint",
     "hints", "hinweis", "hinweise"]),
   (.slots [.required, .optional],
    ["uebung", "exercise"]),
   (.slots [.required, .required],
    ["frac", "nicefrac", "braket", "ketbra", "texorpdfstring", "defcitealias"]),
   (.slots [.required, .required, .required],
    ["boxframe"])]

/-- The environments that take something, by what they take. -/
def environmentTable : List (Signature × List String) :=
  [(.verbatim,
    ["verbatim"]),
   (.slots [.optional],
    ["figure", "figure*", "table", "table*", "theorem", "proposition", "lemma",
     "corollary", "definition", "conjecture", "remark", "proof", "thm", "prop", "lem",
     "cor", "conj", "rem", "defn", "enumerate", "itemize", "description"]),
   (.slots [.optional, .required],
    ["array"]),
   (.slots [.required],
    ["tabular", "alignat", "alignat*"]),
   (.slots [.required, .optional, .required],
    ["tabularx"]),
   (.slots [.required, .required],
    ["tabular*"])]

/-- What a name takes by a table; a name that is not there takes nothing. -/
def signatureIn (table : List (Signature × List String)) (name : String) : Signature :=
  match table.find? fun row => row.2.contains name with
  | some row => row.1
  | none => .slots []

/-- What a command takes. -/
def commandSignature (name : String) : Signature := signatureIn commandTable name

/-- What an environment takes. -/
def environmentSignature (name : String) : Signature := signatureIn environmentTable name

/-- The runs of characters that stand for something else, longest first. -/
def specials : List (List Char) :=
  [['-', '-', '-'], ['-', '-'], ['\'', '\''], ['`', '`'], ['!', '`'], ['?', '`'], ['&'], ['~']]

/-- The special run that a text starts with. -/
def special? (input : List Char) : Option (List Char) :=
  specials.find? fun run => Text.startsWith run input

end Typeset.Latex
