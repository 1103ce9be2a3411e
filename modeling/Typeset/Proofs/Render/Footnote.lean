import Typeset.Render.Block

/-! What a reference to a footnote renders to, case by case: no such footnote, a footnote that is
being expanded already, or its expansion. -/

namespace Typeset.Render

variable {env : Environment} {active : List String}

/-- The report of a reference to a footnote that is not defined. -/
def unresolvedFootnote (identifier : String) : Issue :=
  inlineWarning .unresolvedFootnote
    ("Footnote reference [^" ++ identifier ++ "] has no matching definition")
    "identifier" (.str identifier)

/-- The report of a reference to a footnote inside its own expansion. -/
def footnoteCycle (identifier : String) : Issue :=
  inlineWarning .footnoteCycle
    ("Footnote [^" ++ identifier ++ "] references itself") "identifier" (.str identifier)

/-- A footnote's markup around the blocks of its body. -/
def footnoteMarkup (parts : List String) : String :=
  "#footnote[" ++ Text.strip (String.intercalate " " parts) ++ "]"

/-- The body of a footnote under a key, its blocks rendered in their place. -/
def expandedBody (env : Environment) (active : List String) (key : String) (note : Footnote) :
    Rendering String := do
  if env.rendersFootnotes then pure () else Rendering.fail .noBlockRenderer
  let body ← note.body.tokens
  let parts ← blocks env (key :: active) body 0
  pure (footnoteMarkup parts)

/-- A footnote's expansion; one that fails is reported and left out. -/
def expansion (env : Environment) (active : List String) (identifier : String) (note : Footnote) :
    Rendering String :=
  (expandedBody env active (Text.lower identifier) note).rescue fun cause => do
    Rendering.report (brokenFootnote identifier cause)
    pure ""

/-- What stands for a reference to a footnote of some identifier. -/
def noteFor (env : Environment) (active : List String) (identifier : String) : Rendering String :=
  match env.footnotes.find (Text.lower identifier) with
  | none => do
    Rendering.report (unresolvedFootnote identifier)
    pure ""
  | some note =>
    if Text.lower identifier ∈ active then do
      Rendering.report (footnoteCycle identifier)
      pure ""
    else expansion env active identifier note

theorem footnoteReference_eq (token : Value) :
    footnoteReference env active token =
      (liftM (identifierOf token) >>= fun identifier => noteFor env active identifier) := by
  rw [footnoteReference]
  congr 1
  funext identifier
  unfold noteFor
  dsimp only
  split
  next hf => simp only [hf, unresolvedFootnote]
  next note hf =>
    simp only [hf]
    split
    · rfl
    · rfl

/-- A reference to a footnote expands to blocks, each with its text if it shows something. -/
structure Expands (env : Environment) (active : List String) (identifier : String)
    (body : List Value) (parts : List String) : Prop where
  inactive : Text.lower identifier ∉ active
  rendersFootnotes : env.rendersFootnotes = true
  defined : ∃ note, env.footnotes.find (Text.lower identifier) = some note ∧
    note.body.tokens = .ok body
  rendered : (blocks env (Text.lower identifier :: active) body 0).outcome = .ok parts

variable {identifier : String} {body others : List Value} {parts more : List String}

theorem Expands.unique (h : Expands env active identifier body parts)
    (ho : Expands env active identifier others more) : body = others ∧ parts = more := by
  obtain ⟨note, hf, hb⟩ := h.defined
  obtain ⟨other, hf', hb'⟩ := ho.defined
  obtain rfl : note = other := by simpa [hf] using hf'
  obtain rfl : body = others := by simpa [hb] using hb'
  exact ⟨rfl, by simpa [h.rendered] using ho.rendered⟩

theorem expands_or_not (env : Environment) (active : List String) (identifier : String) :
    (∃ body parts, Expands env active identifier body parts) ∨
      ∀ body parts, ¬Expands env active identifier body parts := by
  simpa only [not_exists] using
    Classical.em (∃ body parts, Expands env active identifier body parts)

/-- Fewer footnotes are left to expand inside an expansion. -/
theorem Expands.remaining_lt (h : Expands env active identifier body parts) :
    env.remaining (Text.lower identifier :: active) < env.remaining active := by
  obtain ⟨note, hf, _⟩ := h.defined
  exact Environment.remaining_lt hf h.inactive

theorem noteFor_of_expands (h : Expands env active identifier body parts) :
    (noteFor env active identifier).outcome = .ok (footnoteMarkup parts) := by
  obtain ⟨note, hf, hb⟩ := h.defined
  have hbody : (expandedBody env active (Text.lower identifier) note).outcome =
      .ok (footnoteMarkup parts) := by
    rw [expandedBody, if_pos h.rendersFootnotes, Rendering.lift_bind_of_ok hb,
      Rendering.bind_of_ok h.rendered]
    rfl
  simp only [noteFor, hf, if_neg h.inactive, expansion, Rendering.rescue, hbody]

/-- A reference to a footnote that is not expanded shows nothing. -/
theorem noteFor_of_not_expands (h : ∀ body parts, ¬ Expands env active identifier body parts) :
    (noteFor env active identifier).outcome = .ok "" := by
  unfold noteFor
  cases hf : env.footnotes.find (Text.lower identifier) with
  | none => rfl
  | some note =>
    dsimp only
    split
    next => rfl
    next ha =>
      unfold expansion Rendering.rescue
      cases ho : (expandedBody env active (Text.lower identifier) note).outcome with
      | error cause => rfl
      | ok text =>
        unfold expandedBody at ho
        split at ho
        next hr =>
          obtain ⟨body, hb, ho⟩ := Rendering.exists_of_bind ho
          obtain ⟨parts, hp, _⟩ := Rendering.exists_of_bind ho
          exact (h body parts ⟨ha, hr, ⟨note, hf, hb⟩, hp⟩).elim
        next =>
          obtain ⟨_, hfail, _⟩ := Rendering.exists_of_bind ho
          cases hfail

end Typeset.Render
