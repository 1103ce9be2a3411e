/-! The names of LaTeX math and what they are in Typst. -/

namespace Typeset.Math

/-- The letters of the Greek alphabet that both languages name alike. -/
def greek : List String :=
  ["alpha", "beta", "gamma", "delta", "zeta", "eta", "theta", "iota", "kappa", "lambda", "mu",
   "nu", "xi", "omicron", "pi", "rho", "sigma", "tau", "upsilon", "chi", "psi", "omega", "Alpha",
   "Beta", "Gamma", "Delta", "Epsilon", "Zeta", "Eta", "Theta", "Iota", "Kappa", "Lambda", "Mu",
   "Nu", "Xi", "Omicron", "Pi", "Rho", "Sigma", "Tau", "Upsilon", "Phi", "Chi", "Psi", "Omega"]

/-- The symbols that the two languages write differently, and a few that they share. -/
def symbolTable : List (String × String) :=
  [("epsilon", "epsilon.alt"), ("phi", "phi.alt"), ("varepsilon", "epsilon"),
   ("vartheta", "theta.alt"), ("varphi", "phi"), ("varpi", "pi.alt"), ("varrho", "rho.alt"),
   ("varsigma", "sigma.alt"), ("cdot", "dot.op"), ("times", "times"), ("div", "div"),
   ("pm", "plus.minus"), ("mp", "minus.plus"), ("ast", "ast"), ("star", "star"),
   ("circ", "compose"), ("bullet", "bullet"), ("oplus", "plus.circle"),
   ("otimes", "times.circle"), ("leq", "<="), ("le", "<="), ("geq", ">="), ("ge", ">="),
   ("neq", "!="), ("ne", "!="), ("approx", "approx"), ("sim", "tilde.op"), ("simeq", "tilde.eq"),
   ("cong", "tilde.equiv"), ("equiv", "equiv"), ("propto", "prop"), ("ll", "<<"), ("gg", ">>"),
   ("in", "in"), ("notin", "in.not"), ("ni", "in.rev"), ("subset", "subset"),
   ("subseteq", "subset.eq"), ("supset", "supset"), ("supseteq", "supset.eq"), ("cup", "union"),
   ("cap", "sect"), ("setminus", "without"), ("emptyset", "emptyset"),
   ("varnothing", "emptyset"), ("forall", "forall"), ("exists", "exists"), ("neg", "not"),
   ("lnot", "not"), ("land", "and"), ("wedge", "and"), ("lor", "or"), ("vee", "or"),
   ("mid", "divides"), ("parallel", "parallel"), ("perp", "perp"), ("angle", "angle"),
   ("to", "->"), ("rightarrow", "->"), ("leftarrow", "<-"), ("gets", "<-"),
   ("leftrightarrow", "<->"), ("Rightarrow", "=>"), ("Leftarrow", "arrow.l.double"),
   ("Leftrightarrow", "<=>"), ("iff", "<==>"), ("implies", "==>"), ("mapsto", "|->"),
   ("uparrow", "arrow.t"), ("downarrow", "arrow.b"), ("longrightarrow", "-->"),
   ("longleftarrow", "<--"), ("sum", "sum"), ("prod", "product"), ("coprod", "product.co"),
   ("int", "integral"), ("iint", "integral.double"), ("iiint", "integral.triple"),
   ("oint", "integral.cont"), ("bigcup", "union.big"), ("bigcap", "sect.big"),
   ("infty", "infinity"), ("partial", "partial"), ("nabla", "nabla"), ("ell", "ell"),
   ("hbar", "planck.reduce"), ("Re", "Re"), ("Im", "Im"), ("aleph", "aleph"), ("prime", "prime"),
   ("degree", "degree"), ("dots", "dots.h"), ("ldots", "dots.h"), ("cdots", "dots.c"),
   ("vdots", "dots.v"), ("ddots", "dots.down"), ("langle", "angle.l"), ("rangle", "angle.r"),
   ("lfloor", "floor.l"), ("rfloor", "floor.r"), ("lceil", "ceil.l"), ("rceil", "ceil.r"),
   ("vert", "|"), ("Vert", "||"), ("|", "||"), (",", "thin"), (":", "med"), (";", "med"),
   ("!", ""), (" ", "space"), ("quad", "quad"), ("qquad", "wide"), ("\x7b", "\\\x7b"),
   ("\x7d", "\\\x7d"), ("%", "%"), ("$", "\\$"), ("#", "\\#"), ("&", "\\&"), ("_", "\\_"),
   ("\\", " \\ ")]

/-- The Typst symbol for a LaTeX command. -/
def symbol? (name : String) : Option String :=
  if greek.contains name then some name else symbolTable.lookup name

/-- The named operators, the same in both languages. -/
def operators : List String :=
  ["Pr", "arccos", "arcsin", "arctan", "arg", "cos", "cosh", "cot", "coth", "csc", "deg", "det",
   "dim", "exp", "gcd", "hom", "inf", "ker", "lg", "lim", "liminf", "limsup", "ln", "log", "max",
   "min", "mod", "sec", "sin", "sinh", "sup", "tan", "tanh"]

/-- Commands that only size or place what follows them. -/
def ignored : List String :=
  ["Big", "Bigg", "Bigl", "Bigr", "big", "bigg", "bigl", "bigr", "displaystyle", "left",
   "limits", "middle", "nolimits", "right", "scriptstyle", "textstyle"]

/-- The commands of two parts, and the Typst functions for them. -/
def fractions : List (String × String) :=
  [("frac", "frac"), ("dfrac", "frac"), ("tfrac", "frac"), ("cfrac", "frac"), ("binom", "binom")]

/-- The commands that set their argument in another style, and the Typst functions for them. -/
def styles : List (String × String) :=
  [("mathrm", "upright"), ("mathbf", "bold"), ("boldsymbol", "bold"), ("bm", "bold"),
   ("mathit", "italic"), ("mathcal", "cal"), ("mathbb", "bb"), ("mathsf", "sans"),
   ("mathtt", "mono"), ("mathfrak", "frak")]

/-- The commands that put something over or under their argument, and the Typst functions for
them. -/
def accents : List (String × String) :=
  [("hat", "hat"), ("widehat", "hat"), ("bar", "macron"), ("overline", "overline"),
   ("underline", "underline"), ("vec", "arrow"), ("overrightarrow", "arrow"), ("tilde", "tilde"),
   ("widetilde", "tilde"), ("dot", "dot"), ("ddot", "dot.double"), ("check", "caron"),
   ("breve", "breve"), ("acute", "acute"), ("grave", "grave"), ("overbrace", "overbrace"),
   ("underbrace", "underbrace")]

/-- The commands whose argument is text. -/
def textCommands : List String :=
  ["mbox", "text", "textbf", "textit", "textrm"]

/-- What stands around a matrix: the delimiters that Typst puts there unasked, or others. -/
inductive Delimiters
  | usual
  | given (text : String)
  deriving DecidableEq, Repr

/-- The environments that are matrices. -/
def matrices : List (String × Delimiters) :=
  [("matrix", .given "#none"), ("smallmatrix", .given "#none"), ("array", .given "#none"),
   ("pmatrix", .usual), ("bmatrix", .given "\"[\""), ("Bmatrix", .given "\"\x7b\""),
   ("vmatrix", .given "\"|\""), ("Vmatrix", .given "\"||\"")]

/-- The environments of aligned lines. -/
def alignments : List String :=
  ["align", "align*", "alignat", "alignat*", "aligned", "eqnarray", "eqnarray*", "equation",
   "equation*", "gather", "gather*", "gathered", "multline", "multline*", "split"]

end Typeset.Math
