import Typeset.Proofs.Conversion.Total
import Typeset.Proofs.Render.Unresolved

/-! Conversion of tokens as the renderers take them: it comes to an end unless their front matter
cannot be loaded, and warns once about each reference that leads nowhere. -/

namespace Typeset.Converter

open Token Rendering

variable {env : Render.Environment} {active : List String} {indent : Int}
  {definitions : Targets Definition} {token : Value} {tokens : List Value}

/-- The front matter that is found first is text, if there is any. -/
theorem metadataBlock_text (htokens : ∀ t ∈ tokens, Tree Finished t)
    (hblocks : OfTypes blockTypes tokens) :
    metadataBlock tokens = .ok .null ∨ ∃ raw, metadataBlock tokens = .ok (.str raw) := by
  induction tokens with
  | nil => exact .inl rfl
  | cons token rest ih =>
    obtain ⟨hhere, hmore⟩ := List.forall_mem_cons.mp htokens
    obtain ⟨⟨name, -, hname⟩, hkinds⟩ := ofTypes_cons.mp hblocks
    rw [metadataBlock, type_of_name hname]
    by_cases hfront : name = "frontmatter"
    · subst hfront
      exact .inr ⟨_, hhere.regular.raw_text⟩
    · have hrest : (Value.str name).isText "frontmatter" = false := by
        simpa [Value.isText] using hfront
      change (if (Value.str name).isText "frontmatter" = true then _ else _) = _ ∨
        ∃ raw, (if (Value.str name).isText "frontmatter" = true then _ else _) = _
      rw [hrest]
      exact ih hmore hkinds

/-- A conversion of tokens ends if they can be shown where that is asked for, and if the front
matter that is found first can be loaded. -/
theorem run_tokens_ok_iff (c : Converter) (htokens : ∀ t ∈ tokens, Tree Finished t)
    (hblocks : OfTypes blockTypes tokens) :
    (∃ document, (run c (.tokens tokens)).outcome = .ok document) ↔
      (∃ dump, c.dump tokens = .ok dump) ∧
        ∀ raw, metadataBlock tokens = .ok (.str raw) → FrontMatter.Loads c.loadYaml raw := by
  have htyped : ∀ t ∈ tokens, Typed t := fun t ht => ⟨_, (htokens t ht).regular.kind_text⟩
  have hrun : run c (.tokens tokens) = (c.ofTokens tokens).rescue stopConverting := rfl
  have hstopped {f : Failure} (hf : (c.ofTokens tokens).outcome = .error f) :
      ¬ ∃ document, (run c (.tokens tokens)).outcome = .ok document := by
    rintro ⟨document, hdocument⟩
    rw [hrun, rescue, hf] at hdocument
    cases hdocument
  have hended {front : Value} {dump : String} {r : Reported FrontMatter}
      (hdump : c.dump tokens = .ok dump) (hfront : metadataBlock tokens = .ok front)
      (hr : FrontMatter.decodeValue front c.loadYaml = .ok r) :
      ∃ document, (run c (.tokens tokens)).outcome = .ok document := by
    obtain ⟨document, hdocument, -⟩ :=
      ofTokens_ends hdump hfront hr (FrontMatter.decodeValue_wellTyped hr) htyped
    exact ⟨document, by rw [hrun, rescue, hdocument, hdocument]⟩
  cases hdump : c.dump tokens with
  | error f =>
    have hf : (c.ofTokens tokens).outcome = .error f := by
      rw [ofTokens, bind_of_error hdump]
      rfl
    refine iff_of_false (hstopped hf) ?_
    rintro ⟨⟨dump, hd⟩, -⟩
    cases hd
  | ok dump =>
    refine Iff.trans ?_ (and_iff_right ⟨dump, rfl⟩).symm
    obtain hnull | ⟨raw, hraw⟩ := metadataBlock_text htokens hblocks
    · refine iff_of_true (hended hdump hnull (FrontMatter.decodeValue_null _)) fun raw h => ?_
      cases hnull.symm.trans h
    · have hvalue := FrontMatter.decodeValue_str raw c.loadYaml
      cases hd : FrontMatter.decode raw c.loadYaml with
      | error f =>
        refine iff_of_false (hstopped (ofTokens_stops hdump hraw (hvalue.trans hd))) fun h => ?_
        obtain ⟨r, hr⟩ := FrontMatter.decode_of_loads (h raw hraw)
        cases hd.symm.trans hr
      | ok r =>
        refine iff_of_true (hended hdump hraw (hvalue.trans hd)) fun raw' h => ?_
        cases hraw.symm.trans h
        exact FrontMatter.decode_ok_iff.mp ⟨r, hd⟩

/-- Blocks are rendered without an error. The references that lead nowhere are warned about in the
order in which they are shown, each once and with its identifier, and no others are. A conversion of
them only fails where they cannot be shown though that is asked for, or where the loader of YAML
fails on the front matter and not for its YAML. -/
theorem unresolved_warned_once (hd : Addressed env.definitions)
    (htokens : ∀ t ∈ tokens, Render.Shown env.definitions t) (hblocks : OfTypes blockTypes tokens) :
    (∃ parts, (Render.blocks env active tokens indent).outcome = .ok parts) ∧
      (∀ issue ∈ (Render.blocks env active tokens indent).issues, issue.severity = .warning) ∧
      (Render.blocks env active tokens indent).issues.filter Render.IsLostWarning =
        Render.lostWarnings env.definitions (tokens.flatMap Render.references) ∧
      ∀ c : Converter, (∃ document, (run c (.tokens tokens)).outcome = .ok document) ↔
        (∃ dump, c.dump tokens = .ok dump) ∧
          ∀ raw, metadataBlock tokens = .ok (.str raw) → FrontMatter.Loads c.loadYaml raw := by
  obtain ⟨hends, hwarns, hsaid⟩ :=
    (Render.telling_inductive hd).holds.blocks active tokens indent htokens hblocks
  exact ⟨hends, hwarns, hsaid,
    fun c => run_tokens_ok_iff c (fun t ht => (htokens t ht).tree) hblocks⟩

/-- A reference by its identifier, around other inlines. -/
def referenceTo (kind identifier : String) (children : List Value) : Value :=
  markedBranch kind [("identifier", .str identifier)] children

/-- A quotation of a link without a target around an image without one, and of a link with one. -/
def lostQuotation : Value :=
  markedBranch "block_quote" []
    [markedBranch "paragraph" []
      [referenceTo "link_reference" "Lost" [referenceTo "image_reference" "Gone" []],
        referenceTo "link_reference" "HOME" []]]

/-- The targets of the quotation. -/
def homeTargets : Targets Definition := [("home", { identifier := .str "home", url := .str "/" })]

theorem fit_identifier (identifier : String) : Fit [("identifier", .str identifier)] := by
  refine ⟨⟨?_, ?_, ?_⟩, ?_, ?_, ?_, ?_, ?_⟩ <;> simp

theorem shown_referenceTo {kind : String} (identifier : String)
    (hkind : kind ∈ Render.targetKinds) (htokens : ∀ t ∈ tokens, Render.Shown definitions t)
    (hplaced : OfTypes ((typesBelow kind).getD []) tokens) :
    Render.Shown definitions (referenceTo kind identifier tokens) := by
  have hothers : ∀ kind ∈ Render.targetKinds,
      kind ∉ ["footnote_ref", "table"] ∧ kind ≠ "paragraph" := by decide
  have hother := hothers kind hkind
  exact Render.shown_markedBranch (fit_identifier identifier) hother.1
    (fun hp => absurd hp hother.2) hplaced htokens

theorem words_lostQuotation :
    ¬ Layout.IsMarker (wordings homeTargets
      [referenceTo "link_reference" "Lost" [referenceTo "image_reference" "Gone" []],
        referenceTo "link_reference" "HOME" []]) := by
  rw [← Layout.lower_strip_eq_iff, wordings_cons, wordings_cons, wording_eq, wording_eq]
  have hlink : listed (referenceTo "link_reference" "Lost"
      [referenceTo "image_reference" "Gone" []]) = [referenceTo "image_reference" "Gone" []] := rfl
  have hhome : listed (referenceTo "link_reference" "HOME" []) = [] := rfl
  rw [hlink, hhome, wordings_cons, wording_eq]
  decide

theorem shown_lostQuotation : Render.Shown homeTargets lostQuotation := by
  have hnone (t : Value) (ht : t ∈ []) : Render.Shown homeTargets t := nomatch ht
  have himage := shown_referenceTo "Gone" (by decide : "image_reference" ∈ _) hnone (by decide)
  have hlink := shown_referenceTo "Lost" (by decide : "link_reference" ∈ _)
    (List.forall_mem_singleton.mpr himage) (by decide)
  have hhome := shown_referenceTo "HOME" (by decide : "link_reference" ∈ _) hnone (by decide)
  refine Render.shown_markedBranch fit_nil (by decide) (fun hp => absurd hp (by decide)) (by decide)
    (List.forall_mem_singleton.mpr ?_)
  exact Render.shown_markedBranch fit_nil (by decide) (fun _ => words_lostQuotation) (by decide)
    (List.forall_mem_cons.mpr ⟨hlink, List.forall_mem_singleton.mpr hhome⟩)

theorem lostWarnings_lostQuotation :
    Render.lostWarnings homeTargets (Render.references lostQuotation) =
      [Render.unresolved "Link" "Lost", Render.unresolved "Image" "Gone"] := by
  have hreferences : Render.references lostQuotation =
      [referenceTo "link_reference" "Lost" [referenceTo "image_reference" "Gone" []],
        referenceTo "image_reference" "Gone" [], referenceTo "link_reference" "HOME" []] := by
    simp [lostQuotation, referenceTo, Render.references_markedBranch, Render.targetKinds,
      typesBelow, inlineHolders]
  rw [hreferences]
  rfl

/-- The link and the image without a target are warned about, outside in, and the conversion
ends. -/
theorem unresolved_warned_once_nested :
    (Render.blocks { definitions := homeTargets, convertMath := .ok } [] [lostQuotation]
      0).issues.filter Render.IsLostWarning =
        [Render.unresolved "Link" "Lost", Render.unresolved "Image" "Gone"] ∧
      ∃ document, (run {} (.tokens [lostQuotation])).outcome = .ok document := by
  have hd : Addressed homeTargets := List.forall_mem_singleton.mpr ⟨"/", rfl⟩
  obtain ⟨-, -, hsaid, hends⟩ :=
    @unresolved_warned_once { definitions := homeTargets, convertMath := .ok } [] 0
      [lostQuotation] hd (List.forall_mem_singleton.mpr shown_lostQuotation) (by decide)
  constructor
  · rw [hsaid, List.flatMap_singleton]
    exact lostWarnings_lostQuotation
  · refine (hends {}).mpr ⟨⟨"", rfl⟩, fun raw hraw => ?_⟩
    cases hraw

/-- A metadata block with a binary number that has no digit. -/
def brokenFront : Value := leaf "frontmatter" "title: 0b_\n"

theorem shown_brokenFront : Render.Shown [] brokenFront where
  tree := tree_leaf _ rfl
  unhindered := Value.everywhere_leaf ⟨nofun, nofun, nofun⟩

/-- It is a block like any other, yet ends the conversion. -/
theorem brokenFront_aborts :
    (∀ t ∈ [brokenFront], Render.Shown [] t) ∧ OfTypes blockTypes [brokenFront] ∧
      ¬ ∃ document, (run {} (.tokens [brokenFront])).outcome = .ok document := by
  have hshown : ∀ t ∈ [brokenFront], Render.Shown [] t :=
    List.forall_mem_singleton.mpr shown_brokenFront
  have hblocks : OfTypes blockTypes [brokenFront] := by decide
  refine ⟨hshown, hblocks, fun hends => ?_⟩
  obtain ⟨-, hloads⟩ := (run_tokens_ok_iff {} (fun t ht => (hshown t ht).tree) hblocks).mp hends
  exact not_loads_badNumber (hloads _ rfl)

end Typeset.Converter
