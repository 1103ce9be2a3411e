import Typeset.Proofs.Header.TitleBlock
import Typeset.Proofs.Token.Leading

/-! What changes when a conversion takes the leading heading for the title of the document: the
title, and the heading is left out of the body with the issues that it reports. -/

namespace Typeset

open Failure (Gives)
open Image (sections)
open Rendering
open Value (IsText?)

namespace Render

variable {env : Environment} {active : List String} {indent : Int} {m : Metadata}
  {tokens before after : List Value} {heading token : Value} {body : String}

section Blocks

theorem kind_of_type {name : String} (h : token.field "type" .null = .ok (.str name)) :
    Token.kind token = .ok (.str name) := by
  cases token with
  | object fields =>
    rw [Value.field_object] at h
    rw [Token.kind, Value.field_object]
    cases ht : fields.lookup "type" with
    | none =>
      rw [ht] at h
      cases h
    | some v =>
      rw [ht] at h
      exact h
  | _ => cases h

/-- Definitions are no blocks. -/
theorem blocks_definitional (h : ∀ t ∈ before, Token.IsDefinitional t) (rest : List Value) :
    blocks env active (before ++ rest) indent = blocks env active rest indent := by
  induction before with
  | nil => rfl
  | cons token before ih =>
    obtain ⟨⟨name, hname, hskip⟩, hmore⟩ := List.forall_mem_cons.mp h
    rw [List.cons_append, blocks, block_of_silent (kind_of_type hname) hskip, pure_bind, ih hmore]
    exact bind_pure _

/-- A text with a block before it. -/
theorem blocksText_cons {shown : Option String}
    (hhere : (block env [] heading 0).outcome = .ok shown)
    (hbody : (blocksText env after 0 "\n\n").outcome = .ok body) :
    (blocksText env (heading :: after) 0 "\n\n").outcome =
      .ok (sections [shown.getD "", body]) := by
  obtain ⟨parts, hparts, htext⟩ := exists_of_bind hbody
  cases htext
  have hshown : ∀ part ∈ parts, part ≠ "" := blocks_yield_shown after parts hparts
  have hcons (part : String) (hpart : part ≠ "") :
      String.intercalate "\n\n" (part :: parts) =
        sections [part, String.intercalate "\n\n" parts] := by
    have hsplit :=
      @intercalate_append "\n\n" [part] parts (List.forall_mem_singleton.mpr hpart) hshown
    rwa [List.singleton_append, String.intercalate_singleton] at hsplit
  have hblocks : (blocks env [] (heading :: after) 0).outcome = .ok
      (match shown with
        | some text => if text = "" then parts else text :: parts
        | none => parts) := by
    rw [blocks, outcome_bind_of_ok hhere, outcome_bind_of_ok hparts]
    cases shown <;> rfl
  rw [blocksText, outcome_bind_of_ok hblocks]
  cases shown with
  | none => rw [Option.getD_none, Image.sections_cons_empty, Image.sections_singleton]; rfl
  | some text =>
    dsimp only
    split
    next h => rw [h, Option.getD_some, Image.sections_cons_empty, Image.sections_singleton]; rfl
    next h => exact congrArg Except.ok (hcons text h)

theorem issues_blocks_cons (heading : Value) (after : List Value)
    (hhere : ∃ shown, (block env active heading indent).outcome = .ok shown) :
    (blocks env active (heading :: after) indent).issues =
      (block env active heading indent).issues ++ (blocks env active after indent).issues := by
  obtain ⟨shown, hhere⟩ := hhere
  rw [blocks, bind_of_ok hhere, Rendering.after, issues_bind_of_quiet]
  cases shown <;> exact fun _ _ => rfl

end Blocks

section Body

theorem isIndex_iff (n k : Nat) : ((Value.int n).compareTo? k != some .eq) = true ↔ k ≠ n := by
  rw [Value.compareTo?, bne_iff_ne, ne_eq, Option.some_inj, Std.LawfulEqOrd.compare_eq_iff_eq,
    Int.natCast_inj, eq_comm]

theorem filter_zipIdx {n start : Nat} (h : ∀ t ∈ tokens.zipIdx start, t.2 ≠ n) :
    ((tokens.zipIdx start).filter fun t => (Value.int n).compareTo? t.2 != some .eq).map (·.1) =
      tokens := by
  rw [List.filter_eq_self.mpr fun t ht => (isIndex_iff n t.2).mpr (h t ht)]
  exact List.zipIdx_map_fst start tokens

/-- The body without the heading that became the title. -/
theorem bodyTokens_of_index (hm : ∃ s, m.title = .str s ∧ Text.isBlankText s = false)
    (before : List Value) (heading : Value) (after : List Value) :
    bodyTokens m (.list (before ++ heading :: after)) (.int before.length) =
      .ok (before ++ after) := by
  obtain ⟨s, hs, hshown⟩ := hm
  have hbefore : ∀ t ∈ before.zipIdx, t.2 ≠ before.length := by
    intro t ht
    have hlt := List.snd_lt_of_mem_zipIdx ht
    omega
  have hafter : ∀ t ∈ after.zipIdx (before.length + 1), t.2 ≠ before.length := by
    intro t ht
    have hle := List.le_snd_of_mem_zipIdx ht
    omega
  unfold bodyTokens
  dsimp only
  rw [hs]
  change (if Text.isBlankText s then _ else _) = _
  rw [hshown, if_neg Bool.false_ne_true, List.zipIdx_append, List.filter_append, Nat.zero_add,
    List.zipIdx_cons, List.filter_cons_of_neg (by rw [isIndex_iff, not_not]), List.map_append,
    filter_zipIdx hbefore, filter_zipIdx hafter]
  rfl

/-- A blank title takes no heading out of the body. -/
theorem bodyTokens_of_blank (hm : ∃ s, m.title = .str s ∧ Text.isBlankText s = true)
    (tokens : List Value) (n : Nat) : bodyTokens m (.list tokens) (.int n) = .ok tokens := by
  obtain ⟨s, hs, hblank⟩ := hm
  unfold bodyTokens
  dsimp only
  rw [hs]
  change (if Text.isBlankText s then _ else _) = _
  rw [hblank]
  rfl

theorem issues_blocksText (env : Environment) (tokens : List Value) (separator : String) :
    (blocksText env tokens indent separator).issues = (blocks env [] tokens indent).issues :=
  issues_bind_of_quiet fun _ _ => rfl

/-- With a blank title no heading is left out. -/
theorem document_of_blank (hm : ∃ s, m.title = .str s ∧ Text.isBlankText s = true)
    (tokens : List Value) (n : Nat) :
    document env m (.list tokens) (.int n) = document env m (.list tokens) .null := by
  have hall : bodyTokens m (.list tokens) .null = .ok tokens := rfl
  unfold document bodyText
  rw [bodyTokens_of_blank hm, hall]

/-- A document reports what its blocks report, and then what its metadata do. -/
theorem issues_document {shown : List Value} {tokens index : Value}
    (htokens : bodyTokens m tokens index = .ok shown)
    (hbody : (blocksText env shown 0 "\n\n").outcome = .ok body) :
    (document env m tokens index).issues =
      (blocks env [] shown 0).issues ++ (ownDateAndRule m).issues := by
  have htext : bodyText env m tokens index = blocksText env shown 0 "\n\n" :=
    lift_bind_of_ok htokens _
  rw [document, htext]
  change (blocksText env shown 0 "\n\n" >>= _).issues = _
  rw [bind_of_ok hbody, Rendering.after, issues_blocksText]
  refine congrArg _ (issues_bind_of_quiet fun _ _ => issues_bind_of_quiet fun _ _ => rfl)

end Body

section Metadata

open Header

/-- What is reported if the rule cannot be written for the keywords. -/
def keywordIssues (m : Metadata) : List Issue :=
  match entry "keywords" m.keywords stringArray with
  | .ok _ => []
  | .error cause => [brokenMetadata cause]

theorem issues_ownDateAndRule (hm : m.Shaped) :
    (ownDateAndRule m).issues = (documentDate m).issues ++ keywordIssues m := by
  rw [ownDateAndRule]
  split
  next =>
    have hrule (date : Option String) : (rescue (do
          let rule ← documentRule m date
          pure (date, rule))
        fun cause => do
          report (brokenMetadata cause)
          pure (date, [])).issues = keywordIssues m := by
      obtain ⟨g, hg⟩ := entriesOf_eq_map hm date
      rw [documentRule_eq, hg, keywordIssues]
      cases entry "keywords" m.keywords stringArray <;> rfl
    have hdate := documentDate_outcome hm.date
    rw [dateAndRule, bind_of_ok hdate, rescue, Rendering.after, rescue_documentRule, hrule]
  next howned =>
    simp only [hasMetadata, Bool.not_eq_true, Bool.or_eq_false_iff] at howned
    obtain ⟨⟨-, hdate⟩, hkeywords⟩ := howned
    rw [documentDate, hdate, keywordIssues, entry, hkeywords]
    rfl

/-- Another title changes nothing in what metadata report. -/
theorem issues_ownDateAndRule_title (hm : m.Shaped) (title : String) :
    (ownDateAndRule { m with title := .str title }).issues = (ownDateAndRule m).issues := by
  have htitled : { m with title := .str title }.Shaped := { hm with title := ⟨title, rfl⟩ }
  rw [issues_ownDateAndRule hm, issues_ownDateAndRule htitled]
  rfl

end Metadata

end Render

namespace Converter

open Render Token

variable {c : Converter} {tokens : List Value} {raw : Value} {front : Reported FrontMatter}
  {found : Option LeadingTitle} {m : Metadata} {text dump : String}

/-- A converter that takes the leading heading for the title of a document, or does not. -/
def withLeading (c : Converter) (taken : Value) : Converter :=
  { c with settings := { c.settings with leadingHeadingAsTitle := taken } }

/-- What the rendering of some tokens looks things up in. -/
def environmentOf (c : Converter) (tokens : List Value) : Render.Environment :=
  c.environment (definitions (.list tokens)).answer (footnotes (.list tokens)).answer

/-- The position of the heading that became the title. -/
def indexOf (found : Option LeadingTitle) : Value :=
  (found.map fun t => Value.int t.index).getD .null

/-- The issues that are reported before the document is made. -/
def issuesBefore (tokens : List Value) (front : Reported FrontMatter) : List Issue :=
  (definitions (.list tokens)).issues ++ (footnotes (.list tokens)).issues ++ front.issues

/-- A conversion that finds its metadata gives the document of its tokens. -/
theorem run_of_front (hdump : c.dump tokens = .ok dump) (hraw : metadataBlock tokens = .ok raw)
    (hfront : FrontMatter.decodeValue raw c.loadYaml = .ok front)
    (hfound : c.leadingTitle (definitions (.list tokens)).answer (.list tokens) = ⟨found, []⟩)
    (hm : Metadata.merge c.settings front.answer (.ofText? (found.map (·.title))) c.registers =
      .ok m)
    {made : Rendering String}
    (hmade : document (c.environmentOf tokens) m (.list tokens) (indexOf found) = made)
    (htext : made.outcome = .ok text) :
    c.run (.tokens tokens) =
      { outcome := .ok { text, metadata := m }
        issues := issuesBefore tokens front ++ made.issues
        remoteImage := made.remoteImage } := by
  have heq : c.ofTokens tokens =
      { outcome := .ok { text, metadata := m }
        issues := issuesBefore tokens front ++ made.issues
        remoteImage := made.remoteImage } := by
    rw [ofTokens, lift_bind_of_ok hdump, bind_of_ok rfl, bind_of_ok rfl, lift_bind_of_ok hraw,
      lift_bind_of_ok hfront, bind_of_ok rfl, hfound, bind_of_ok rfl, lift_bind_of_ok hm]
    change Rendering.after _ (Rendering.after _ (Rendering.after _ (Rendering.after _
      (document (c.environmentOf tokens) m (.list tokens) (indexOf found) >>= _)))) = _
    rw [hmade, bind_of_ok htext]
    simp [Rendering.after, ofReported, issuesBefore]
  rw [run]
  change (c.ofTokens tokens).rescue stopConverting = _
  rw [heq, rescue]

/-- A conversion whose tokens cannot be shown though that is asked for stops at once. -/
theorem run_of_unshown {f : Failure} (hdump : c.dump tokens = .error f) :
    c.run (.tokens tokens) = stopConverting f := by
  have heq : c.ofTokens tokens = { outcome := .error f } := by
    rw [ofTokens, bind_of_error hdump]
    rfl
  rw [run]
  change (c.ofTokens tokens).rescue stopConverting = _
  rw [heq, rescue]
  rfl

/-- A conversion whose front matter cannot be decoded stops, whatever becomes of the title. -/
theorem run_of_stop {f : Failure} (hdump : c.dump tokens = .ok dump)
    (hraw : metadataBlock tokens = .ok raw)
    (hfront : FrontMatter.decodeValue raw c.loadYaml = .error f) :
    c.run (.tokens tokens) =
      { outcome := (stopConverting (α := Converted) f).outcome
        issues := (definitions (.list tokens)).issues ++ (footnotes (.list tokens)).issues ++
          (stopConverting (α := Converted) f).issues } := by
  have heq : c.ofTokens tokens =
      { outcome := .error f
        issues := (definitions (.list tokens)).issues ++ (footnotes (.list tokens)).issues } := by
    rw [ofTokens, lift_bind_of_ok hdump, bind_of_ok rfl, bind_of_ok rfl, lift_bind_of_ok hraw,
      bind_of_error hfront]
    simp [Rendering.after, ofReported, withOutcome, liftM, monadLift, MonadLift.monadLift,
      Rendering.ofExcept]
  rw [run]
  change (c.ofTokens tokens).rescue stopConverting = _
  rw [heq, rescue]
  rfl

theorem metadataBlock_gives {P : Fields → Prop} (h : ∀ t ∈ tokens, Tree P t) :
    ∃ block, metadataBlock tokens = .ok block := by
  induction tokens with
  | nil => exact ⟨_, rfl⟩
  | cons token rest ih =>
    obtain ⟨hhere, hmore⟩ := List.forall_mem_cons.mp h
    obtain ⟨kind, hkind, -⟩ := hhere.anyField_gives "type" .null
    obtain ⟨raw, hraw, -⟩ := hhere.anyField_gives "raw" (.str "")
    rw [metadataBlock, hkind]
    change ∃ block, (if kind.isText "frontmatter" = true then token.field "raw" (.str "")
      else metadataBlock rest) = .ok block
    split
    · exact ⟨raw, hraw⟩
    · exact ih hmore

theorem typed_of_regular {token : Value} (h : Tree Regular token) : Typed token := by
  cases h with
  | object here =>
    have hnone : Addressed [] := List.forall_mem_nil _
    obtain ⟨_, hkind, name, rfl, -⟩ := (here.spoken hnone).kind_gives
    exact ⟨name, hkind⟩

/-- A document with the body that some tokens have: before it stand its metadata, and the helper if
a remote image was met. -/
structure Framed (env : Render.Environment) (tokens : List Value) (content : String)
    (document : Converted) : Prop where
  body : (blocksText env tokens 0 "\n\n").outcome = .ok content
  text : ∃ own, (Render.document env document.metadata (.list []) .null).outcome = .ok own ∧
    document.text = sections [own,
      if (blocks env [] tokens 0).remoteImage then lines remoteImageHelper else "", content]

theorem exists_framed {env : Render.Environment} {index : Value} {shown : List Value}
    (h : (document env m (.list tokens) index).outcome = .ok text)
    (hshown : bodyTokens m (.list tokens) index = .ok shown) :
    ∃ body, Framed env shown body ⟨text, m⟩ := by
  obtain ⟨shown', body, date, rule, abstract, hshown', hbody, hrule, habstract, rfl⟩ :=
    Image.document_eq_ok_iff.mp h
  obtain rfl : shown = shown' := Except.ok.inj (hshown.symm.trans hshown')
  exact ⟨body, hbody, _, Image.document_of_nothing hrule habstract,
    Image.laidOut_eq_sections date rule abstract body _⟩

/-- The conversion of tokens by a converter that takes the leading heading for the title, or does
not. -/
def runLeading (c : Converter) (taken : Value) (tokens : List Value) : Rendering Converted :=
  (c.withLeading taken).run (.tokens tokens)

section Runs

variable {yes no : Value} {made : Rendering String} (hdump : c.dump tokens = .ok dump)
  (hraw : metadataBlock tokens = .ok raw)
  (hfront : FrontMatter.decodeValue raw c.loadYaml = .ok front)

include hdump hraw hfront

theorem runLeading_yes (hyes : yes.truthy = true)
    (hfound : Token.leadingTitle (definitions (.list tokens)).answer (.list tokens) = ⟨found, []⟩)
    (hm : Metadata.merge c.settings front.answer (.ofText? (found.map (·.title))) c.registers =
      .ok m)
    (hmade : document (c.environmentOf tokens) m (.list tokens) (indexOf found) = made)
    (htext : made.outcome = .ok text) :
    c.runLeading yes tokens =
      { outcome := .ok { text, metadata := m }
        issues := issuesBefore tokens front ++ made.issues
        remoteImage := made.remoteImage } := by
  have htaken : (c.withLeading yes).leadingTitle (definitions (.list tokens)).answer
      (.list tokens) = ⟨found, []⟩ := (if_pos hyes).trans hfound
  exact run_of_front (c := c.withLeading yes) hdump hraw hfront htaken hm hmade htext

theorem runLeading_no (hno : no.truthy = false)
    (hm : Metadata.merge c.settings front.answer .null c.registers = .ok m)
    (hmade : document (c.environmentOf tokens) m (.list tokens) .null = made)
    (htext : made.outcome = .ok text) :
    c.runLeading no tokens =
      { outcome := .ok { text, metadata := m }
        issues := issuesBefore tokens front ++ made.issues
        remoteImage := made.remoteImage } := by
  have hnone : (c.withLeading no).leadingTitle (definitions (.list tokens)).answer
      (.list tokens) = ⟨none, []⟩ := if_neg (ne_true_of_eq_false hno)
  exact run_of_front (c := c.withLeading no) hdump hraw hfront hnone hm hmade htext

end Runs

/-- Two conversions of the same tokens differ in the heading that gave a title: one of them has the
body of the other without the markup of the heading, and reports what the other does without what
the heading does. -/
def HeadingLeftOut (c : Converter) (tokens : List Value) (t : LeadingTitle)
    (on off : Rendering Converted) (documentOn documentOff : Converted) : Prop :=
  ∃ before heading after shown body earlier later,
    t.index = before.length ∧
    Led (definitions (.list tokens)).answer tokens before heading after t.title ∧
    (block (c.environmentOf tokens) [] heading 0).outcome = .ok shown ∧
    Framed (c.environmentOf tokens) (before ++ after) body documentOn ∧
    Framed (c.environmentOf tokens) tokens (sections [shown.getD "", body]) documentOff ∧
    on.issues = earlier ++ later ∧
    off.issues = earlier ++ (block (c.environmentOf tokens) [] heading 0).issues ++ later

section Moved

variable {env : Render.Environment} {targets : Targets Definition} {before after : List Value}
  {heading : Value} {title merged textOn textOff : String}

/-- Where the heading became the title, what stands before and after it is the body. -/
theorem exists_framed_moved (hl : Led targets tokens before heading after title)
    (htyped : ∀ t ∈ tokens, Typed t) (hshown : Text.isBlankText merged = false)
    (hon : (document env { m with title := .str merged } (.list tokens)
      (.int before.length)).outcome = .ok textOn)
    (hoff : (document env m (.list tokens) .null).outcome = .ok textOff) :
    ∃ shown body, (block env [] heading 0).outcome = .ok shown ∧
      Framed env (before ++ after) body ⟨textOn, { m with title := .str merged }⟩ ∧
      Framed env tokens (sections [shown.getD "", body]) ⟨textOff, m⟩ := by
  obtain rfl := hl.split
  obtain ⟨shown, hhere⟩ := @block_outcome_ok env [] 0 heading
    (htyped heading (List.mem_append_right _ List.mem_cons_self))
  obtain ⟨body, hbody⟩ := exists_framed hon (bodyTokens_of_index ⟨merged, rfl, hshown⟩ _ _ _)
  obtain ⟨whole, hwhole⟩ := exists_framed hoff rfl
  have hafter : (blocksText env after 0 "\n\n").outcome = .ok body := by
    rw [← hbody.body, blocksText, blocksText, blocks_definitional hl.skipped]
  have hparts : whole = sections [shown.getD "", body] := by
    have hsame := hwhole.body
    rw [blocksText, blocks_definitional hl.skipped, ← blocksText,
      blocksText_cons hhere hafter] at hsame
    exact (Except.ok.inj hsame).symm
  exact ⟨shown, body, hhere, hbody, hparts ▸ hwhole⟩

/-- The issues are those without the heading's own. -/
theorem issues_document_moved (hl : Led targets tokens before heading after title)
    (hm : m.Shaped) (hshown : Text.isBlankText merged = false) {shown : Option String}
    {body whole : String} (hhere : (block env [] heading 0).outcome = .ok shown)
    (hbody : (blocksText env (before ++ after) 0 "\n\n").outcome = .ok body)
    (hwhole : (blocksText env tokens 0 "\n\n").outcome = .ok whole) :
    (document env m (.list tokens) .null).issues = (block env [] heading 0).issues ++
      (document env { m with title := .str merged } (.list tokens)
        (.int before.length)).issues := by
  obtain rfl := hl.split
  rw [issues_document (bodyTokens_of_index ⟨merged, rfl, hshown⟩ _ _ _) hbody,
    issues_document rfl hwhole, issues_ownDateAndRule_title hm, blocks_definitional hl.skipped,
    blocks_definitional hl.skipped, issues_blocks_cons heading after ⟨shown, hhere⟩,
    List.append_assoc]

end Moved

/-- Whatever the loader of YAML and the registers, whether the leading heading is taken for the
title of a document matters only if the conversion gets as far, there is such a heading and the
merged title shows something. Then the heading gives the title unless the settings or the front
matter have one, and just the heading is missing from the body, with the issues that it reports. -/
theorem leadingTitle_moves (c : Converter) {yes no : Value} (hyes : yes.truthy = true)
    (hno : no.truthy = false) (h : ∀ t ∈ tokens, Tree Regular t) :
    ∃ found raw,
      Token.leadingTitle (definitions (.list tokens)).answer (.list tokens) = ⟨found, []⟩ ∧
      metadataBlock tokens = .ok raw ∧
      (∀ f, c.dump tokens = .error f ∨ FrontMatter.decodeValue raw c.loadYaml = .error f →
        c.runLeading yes tokens = c.runLeading no tokens) ∧
      ∀ dump front, c.dump tokens = .ok dump →
        FrontMatter.decodeValue raw c.loadYaml = .ok front → ∃ on off,
        (c.runLeading yes tokens).outcome = .ok on ∧
        (c.runLeading no tokens).outcome = .ok off ∧
        (found = none ∨ ¬ on.metadata.Titled →
          c.runLeading yes tokens = c.runLeading no tokens) ∧
        ∀ t ∈ found,
          on.metadata.title = Metadata.firstPresent
            [.ofText? c.settings.title, front.answer.title, .str t.title] ∧
          on.metadata = { off.metadata with title := on.metadata.title } ∧
          (on.metadata.Titled →
            HeadingLeftOut c tokens t (c.runLeading yes tokens) (c.runLeading no tokens) on
              off) := by
  have htyped : ∀ t ∈ tokens, Typed t := fun t ht => typed_of_regular (h t ht)
  obtain ⟨found, hfound, hled⟩ := leadingTitle_eq (definitions_addressed h) h
  obtain ⟨raw, hraw⟩ := metadataBlock_gives h
  refine ⟨found, raw, hfound, hraw, fun f hf => ?_, fun dump front hdump hf => ?_⟩
  · have hstop {dump : String} {f : Failure} (hdump : c.dump tokens = .ok dump)
        (hf : FrontMatter.decodeValue raw c.loadYaml = .error f) (taken : Value) :=
      run_of_stop (c := c.withLeading taken) hdump hraw hf
    have hunshown {f : Failure} (hdump : c.dump tokens = .error f) (taken : Value) :=
      run_of_unshown (c := c.withLeading taken) hdump
    rw [runLeading, runLeading]
    cases hdump : c.dump tokens with
    | error g => rw [hunshown hdump yes, hunshown hdump no]
    | ok dump =>
      obtain hf | hf := hf
      · cases hdump.symm.trans hf
      · rw [hstop hdump hf yes, hstop hdump hf no]
  have hfront := FrontMatter.decodeValue_wellTyped hf
  have hnull : IsText? .null := .inl rfl
  obtain ⟨m, hm, hwell⟩ := merge_gives c.settings hfront hnull c.registers
  obtain ⟨textOff, hoffText, -⟩ : Ends (fun _ => True)
      (document (c.environmentOf tokens) m (.list tokens) .null) :=
    document_ends hwell htyped (.inl rfl)
  have hoff := runLeading_no hdump hraw hf hno hm rfl hoffText
  have hoffOutcome : (c.runLeading no tokens).outcome = .ok ⟨textOff, m⟩ := by rw [hoff]
  cases found with
  | none =>
    have hsame := (runLeading_yes hdump hraw hf hyes hfound hm rfl hoffText).trans hoff.symm
    have honOutcome : (c.runLeading yes tokens).outcome = .ok ⟨textOff, m⟩ := by
      rw [hsame, hoffOutcome]
    exact ⟨_, _, honOutcome, hoffOutcome, fun _ => hsame, nofun⟩
  | some t =>
    obtain ⟨before, heading, after, hindex, hl⟩ := hled t rfl
    obtain ⟨s, hmOn, hfirst, hother⟩ :=
      Metadata.merge_leading hfront.title hm hwell.title hl.notBlank
    cases hblank : Text.isBlankText s with
    | true =>
      -- The blank title is not that of the heading, so all metadata are the same.
      have hmetadata : { m with title := .str s } = m := by rw [← hother hblank]
      have hdocument : document (c.environmentOf tokens) m (.list tokens) (.int t.index) =
          document (c.environmentOf tokens) m (.list tokens) .null :=
        document_of_blank ⟨s, hother hblank, hblank⟩ tokens t.index
      rw [hmetadata] at hmOn
      have hsame :=
        (runLeading_yes hdump hraw hf hyes hfound hmOn hdocument hoffText).trans hoff.symm
      have honOutcome : (c.runLeading yes tokens).outcome = .ok ⟨textOff, m⟩ := by
        rw [hsame, hoffOutcome]
      refine ⟨_, _, honOutcome, hoffOutcome, fun _ => hsame, ?_⟩
      rintro _ ⟨rfl⟩
      exact ⟨(hother hblank).trans hfirst, rfl,
        fun htitled => absurd (hother hblank) (htitled.ne_of_blank hblank)⟩
    | false =>
      have hwellOn : Metadata.WellTyped { m with title := .str s } := ⟨⟨s, rfl⟩, hwell.abstract⟩
      have hposition : indexOf (some t) = .int before.length := by rw [← hindex]; rfl
      obtain ⟨textOn, honText, -⟩ : Ends (fun _ => True) (document (c.environmentOf tokens)
          { m with title := .str s } (.list tokens) (.int before.length)) :=
        document_ends hwellOn htyped (.inr ⟨_, rfl⟩)
      have hon := runLeading_yes hdump hraw hf hyes hfound hmOn (by rw [hposition]) honText
      obtain ⟨shown, body, hhere, hbody, hwhole⟩ :=
        exists_framed_moved hl htyped hblank honText hoffText
      have hissues := issues_document_moved hl (Metadata.merge_shaped hfront hnull hm) hblank
        hhere hbody.body hwhole.body
      refine ⟨_, _, congrArg Rendering.outcome hon, hoffOutcome, ?_, ?_⟩
      · rintro (h | h)
        · cases h
        · exact absurd ⟨s, rfl, hblank⟩ h
      · rintro _ ⟨rfl⟩
        refine ⟨hfirst, rfl, fun _ => ⟨before, heading, after, shown, body,
          issuesBefore tokens front, _, hindex, hl, hhere, hbody, hwhole,
          congrArg Rendering.issues hon, ?_⟩⟩
        rw [List.append_assoc, ← hissues]
        exact congrArg Rendering.issues hoff

/-- A heading behind an empty metadata block. -/
def headedTokens : List Value :=
  [leaf "frontmatter" "", branch "heading" [Token.text "T"], leaf "block_html" "x"]

theorem regular_headedTokens : ∀ t ∈ headedTokens, Tree Regular t := by
  have hleaf (kind raw : String) : Tree Regular (leaf kind raw) := by
    refine .object ⟨?_, ?_, ?_⟩ ?_ ?_ <;> simp
  have hheading : Tree Regular (branch "heading" [Token.text "T"]) := by
    refine .object ⟨?_, ?_, ?_⟩ ?_ ?_ <;> simp
    exact hleaf "text" "T"
  simp [headedTokens, hleaf, hheading]

theorem leadingTitle_headedTokens (targets : Targets Definition) :
    Token.leadingTitle targets (.list headedTokens) = ⟨some ⟨"T", 1⟩, []⟩ := by
  have hparts : plainParts targets [Token.text "T"] = .ok [.str "T"] := by
    rw [plainParts, plainPart, plainParts]
    rfl
  have htext : plainText targets (.list [Token.text "T"]) = .ok "T" := by
    change (plainParts targets [Token.text "T"] >>= join) = _
    rw [hparts]
    rfl
  have hstrip : Text.strip "T" = "T" := by decide
  have hsearch : (Value.list headedTokens).tokens.bind (leadingFrom targets 0) =
      .ok (some ⟨"T", 1⟩) := by
    change (plainText targets (.list [Token.text "T"]) >>= fun title => .ok
      (if Text.strip title = "" then none else some (LeadingTitle.mk (Text.strip title) 1))) = _
    rw [htext]
    change Except.ok (if Text.strip "T" = "" then none else some (LeadingTitle.mk _ 1)) = _
    rw [hstrip, if_neg (by decide)]
  rw [Token.leadingTitle, hsearch]

/-- The heading behind the metadata block becomes the title. -/
theorem leadingTitle_moves_headed : ∃ on off shown body,
    (runLeading {} (.bool true) headedTokens).outcome = .ok on ∧
      (runLeading {} (.bool false) headedTokens).outcome = .ok off ∧
      on.metadata = { off.metadata with title := .str "T" } ∧
      Framed (environmentOf {} headedTokens) headedTokens (sections [shown, body]) off ∧
      Framed (environmentOf {} headedTokens) [leaf "frontmatter" "", leaf "block_html" "x"] body
        on := by
  have hyes : (Value.bool true).truthy = true := rfl
  have hno : (Value.bool false).truthy = false := rfl
  obtain ⟨found, raw, hfound, hraw, -, h⟩ := leadingTitle_moves {} hyes hno regular_headedTokens
  cases (leadingTitle_headedTokens _).symm.trans hfound
  have hempty : raw = .str "" := Except.ok.inj (hraw.symm.trans rfl)
  obtain ⟨on, off, hon, hoff, hsame, hmoved⟩ := h "" ⟨{}, []⟩ rfl (by rw [hempty]; rfl)
  obtain ⟨htitle, hmetadata, hmoved⟩ := hmoved _ rfl
  rw [htitle] at hmetadata
  obtain ⟨before, heading, after, shown, body, -, -, hindex, hl, -, hbody, hwhole, -⟩ :=
    hmoved ⟨"T", htitle, by decide⟩
  have hsplit := hl.split
  obtain ⟨first, rfl⟩ := List.length_eq_one_iff.mp hindex.symm
  cases hsplit
  exact ⟨on, off, _, body, hon, hoff, hmetadata, hwhole, hbody⟩

end Converter

end Typeset
