import Typeset.Failure

/-! What a conversion reports without stopping. -/

namespace Typeset

/-- How grave an issue is: a fallback was taken, or a part is missing from the output. -/
inductive Severity
  | warning
  | error
  deriving DecidableEq, Repr

def Severity.name : Severity → String
  | .warning => "warning"
  | .error => "error"

/-- The kinds of issues. -/
inductive IssueCode
  | duplicateDefinition
  | duplicateFootnote
  | collectionFailed
  | titleExtractionFailed
  | invalidFrontmatter
  | invalidMetadataField
  | invalidDate
  | unresolvedLinkReference
  | unresolvedFootnote
  | footnoteCycle
  | mathFallback
  | emptyTable
  | unknownBlock
  | unknownInline
  | blockRenderError
  | inlineRenderError
  | metadataRenderError
  | fatal
  deriving DecidableEq, Repr

def IssueCode.name : IssueCode → String
  | .duplicateDefinition => "DUPLICATE_DEFINITION"
  | .duplicateFootnote => "DUPLICATE_FOOTNOTE"
  | .collectionFailed => "COLLECTION_FAILED"
  | .titleExtractionFailed => "TITLE_EXTRACTION_FAILED"
  | .invalidFrontmatter => "INVALID_FRONTMATTER"
  | .invalidMetadataField => "INVALID_METADATA_FIELD"
  | .invalidDate => "INVALID_DATE"
  | .unresolvedLinkReference => "UNRESOLVED_LINK_REFERENCE"
  | .unresolvedFootnote => "UNRESOLVED_FOOTNOTE"
  | .footnoteCycle => "FOOTNOTE_CYCLE"
  | .mathFallback => "MATH_FALLBACK"
  | .emptyTable => "EMPTY_TABLE"
  | .unknownBlock => "UNKNOWN_BLOCK"
  | .unknownInline => "UNKNOWN_INLINE"
  | .blockRenderError => "BLOCK_RENDER_ERROR"
  | .inlineRenderError => "INLINE_RENDER_ERROR"
  | .metadataRenderError => "METADATA_RENDER_ERROR"
  | .fatal => "FATAL"

/-- The part of a conversion that reports an issue. -/
inductive Stage
  | definitionCollection
  | footnoteCollection
  | titleExtraction
  | frontmatterParsing
  | outputBuilding
  | blockRendering
  | inlineRendering
  | tableRendering
  | blockMath
  | inlineMath
  | markdownParsing
  | conversion
  deriving DecidableEq, Repr

def Stage.name : Stage → String
  | .definitionCollection => "definition collection"
  | .footnoteCollection => "footnote collection"
  | .titleExtraction => "title extraction"
  | .frontmatterParsing => "frontmatter parsing"
  | .outputBuilding => "output building"
  | .blockRendering => "block rendering"
  | .inlineRendering => "inline rendering"
  | .tableRendering => "table rendering"
  | .blockMath => "block math"
  | .inlineMath => "inline math"
  | .markdownParsing => "markdown parsing"
  | .conversion => "conversion"

/-- A problem met during a conversion. -/
structure Issue where
  severity : Severity
  code : IssueCode
  message : String
  stage : Stage
  details : List (String × Value) := []
  cause : Option Failure := none

/-- An answer together with the issues reported on the way to it. -/
structure Reported (α : Type) where
  answer : α
  issues : List Issue := []

end Typeset
