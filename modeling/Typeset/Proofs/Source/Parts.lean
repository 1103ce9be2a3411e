import Typeset.Proofs.Token.Run
import Typeset.Source.Document

/-! The tokens of a document, part by part: its metadata block, its text, and what was taken out of
the text. -/

namespace Typeset.Source

open Token Failure

variable {read : List Char → List Value} {source : List Char} {tokens : List Value}

/-- A document without its metadata block, with its definitions taken out. -/
def liftedFrom (source : List Char) : Lifted := liftDefinitions (splitFrontMatter source).2

/-- The texts of a document that are read as Markdown: what is left of it, and its footnotes. -/
def Lifted.texts (lifted : Lifted) : List (List Char) :=
  lifted.text :: lifted.notes.map fun note => note.body.toList

/-- The tokens of a document, part by part. -/
inductive Assembled (read : List Char → List Value) (source : List Char) : List Value → Prop
  | intro {front body notes : List Value}
    (hfront : ∀ t ∈ front, ∃ raw, t = leaf "frontmatter" raw)
    (hbody : canonical (liftedFrom source).known (read (liftedFrom source).text) = .ok body)
    (hnotes : List.Forall₂ (fun note t => ∃ children, t = note.token children ∧
      canonical (liftedFrom source).known (read note.body.toList) = .ok children)
        (liftedFrom source).notes notes) :
    Assembled read source
      (front ++ (body ++ ((liftedFrom source).links.map LinkDefinition.token ++ notes)))

theorem assembled_of_tokensBy (h : tokensBy read source = .ok tokens) :
    Assembled read source tokens := by
  rw [tokensBy] at h
  obtain ⟨body, hbody, h⟩ := exists_of_bind h
  obtain ⟨notes, hnotes, h⟩ := exists_of_bind h
  cases h
  rw [List.append_assoc, List.append_assoc]
  refine .intro ?_ hbody ?_
  · intro t ht
    obtain ⟨block, -, rfl⟩ := Option.map_eq_some_iff.mp (Option.mem_toList.mp ht)
    exact ⟨_, rfl⟩
  · refine (forall₂_of_mapM hnotes).imp fun note t hnote => ?_
    obtain ⟨children, hchildren, hnote⟩ := exists_of_bind hnote
    cases hnote
    exact ⟨children, rfl, hchildren⟩

/-- A document that is one block and definitions. -/
theorem tokens_of_block {tree out : Value} (hfront : splitFrontMatter source = (none, source))
    (hnotes : (liftDefinitions source).notes = [])
    (htrees : normalizeAll (Markdown.tokens (liftDefinitions source).text) = .ok [tree])
    (hout : resolve (liftDefinitions source).known tree = .ok out) :
    Source.tokens source =
      .ok (out :: (liftDefinitions source).links.map LinkDefinition.token) := by
  have hbody : canonical (liftDefinitions source).known
      (Markdown.tokens (liftDefinitions source).text) = .ok [out] := by
    rw [canonical, htrees]
    change [tree].mapM (resolve _) = _
    rw [List.mapM_cons, hout]
    rfl
  rw [Source.tokens, tokensBy, hfront]
  dsimp only
  rw [hbody, hnotes]
  exact congrArg Except.ok (List.append_nil _)

/-- A document that is a paragraph of text and definitions. -/
theorem tokens_of_paragraph {s : String} (hfront : splitFrontMatter source = (none, source))
    (hnotes : (liftDefinitions source).notes = [])
    (htrees : normalizeAll (Markdown.tokens (liftDefinitions source).text) =
      .ok [branch "paragraph" [Token.text s]]) :
    Source.tokens source =
      .ok (branch "paragraph" (splitReferences (liftDefinitions source).known s) ::
        (liftDefinitions source).links.map LinkDefinition.token) :=
  tokens_of_block hfront hnotes htrees (resolve_branch_text _ rfl s)

end Typeset.Source
