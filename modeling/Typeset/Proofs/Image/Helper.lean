import Typeset.Proofs.Conversion.Total
import Typeset.Proofs.Image.Calls
import Typeset.Proofs.Markup.Rows
import Typeset.Proofs.Render.Plain

/-! A document brings the helper for remote images, once and before its body, exactly if its blocks
meet one. -/

namespace Typeset.Image

open Render Rendering

variable {m : Metadata} {parts before more : List String} {part : String}

/-- Parts with empty lines between them; what is empty leaves no trace. -/
def sections (parts : List String) : String :=
  String.intercalate "\n\n" (parts.filter (· ≠ ""))

/-- The first row of the definition of the helper. -/
def helperRow : String := "#let external-image(url) = \x7b"

/-- How often the definition of the helper begins in a text. -/
def helpers (s : String) : Nat := (Markup.textRows s).count helperRow.toList

theorem helpers_newline (s t : String) : helpers (s ++ "\n" ++ t) = helpers s + helpers t := by
  rw [helpers, Markup.textRows_newline, List.count_append, helpers, helpers]

theorem helpers_lines (parts : List String) :
    helpers (lines parts) = (parts.flatMap Markup.textRows).count helperRow.toList := by
  cases parts with
  | nil => rfl
  | cons part rest => rw [helpers, Markup.textRows_lines (List.cons_ne_nil part rest)]

/-- An empty line is a row of its own. -/
theorem gap_eq (s t : String) : s ++ "\n\n" ++ t = s ++ "\n" ++ "" ++ "\n" ++ t := by
  simp [String.append_assoc]

theorem helpers_sections (parts : List String) :
    helpers (sections parts) = (parts.flatMap Markup.textRows).count helperRow.toList := by
  induction parts with
  | nil => rfl
  | cons part rest ih =>
    by_cases hpart : part = ""
    · subst hpart
      have hnone : helpers "" = 0 := rfl
      rw [sections, List.filter_cons_of_neg (by simp), ← sections, ih, List.flatMap_cons,
        List.count_append, ← helpers, hnone, Nat.zero_add]
    · rw [sections, List.filter_cons_of_pos (by simpa using hpart), List.flatMap_cons,
        List.count_append, ← helpers, ← ih, sections]
      by_cases hrest : rest.filter (· ≠ "") = []
      · rw [hrest, String.intercalate_singleton]
        rfl
      · rw [String.intercalate_cons_of_ne_nil hrest, gap_eq, helpers_newline, helpers_newline]
        rfl

theorem helpers_of_row {s : String} (h : '\n' ∉ s.toList) :
    helpers s = if s = helperRow then 1 else 0 := by
  rw [helpers, Markup.textRows, List.splitOn_eq_singleton h, List.count_singleton]
  simp [String.toList_inj]

theorem helpers_of_rows (h : ∀ s ∈ parts, '\n' ∉ s.toList) :
    helpers (lines parts) = parts.count helperRow := by
  rw [helpers_lines]
  induction parts with
  | nil => rfl
  | cons part rest ih =>
    obtain ⟨hpart, hrest⟩ := List.forall_mem_cons.mp h
    rw [List.flatMap_cons, List.count_append, ← helpers, helpers_of_row hpart, ih hrest,
      List.count_cons, Nat.add_comm]
    simp

theorem helpers_remoteImageHelper : helpers (lines remoteImageHelper) = 1 := by
  have hrows : ∀ s ∈ remoteImageHelper, '\n' ∉ s.toList := by simp [remoteImageHelper]
  rw [helpers_of_rows hrows]
  decide

theorem lines_ne_empty (hmem : part ∈ parts) (hne : part ≠ "") : lines parts ≠ "" := by
  induction parts with
  | nil => cases hmem
  | cons head rest ih =>
    by_cases hrest : rest = []
    · subst hrest
      obtain rfl := List.mem_singleton.mp hmem
      simpa [lines] using hne
    · rw [lines, String.intercalate_cons_of_ne_nil hrest]
      simp

/-- Lines that show something, unless there are none. -/
def Solid (parts : List String) : Prop := parts = [] ∨ lines parts ≠ ""

theorem sections_cons_empty (parts : List String) : sections ("" :: parts) = sections parts := by
  rw [sections, List.filter_cons_of_neg (by simp), sections]

theorem sections_singleton (s : String) : sections [s] = s := by
  by_cases h : s = ""
  · subst h
    rfl
  · simp [sections, h]

theorem sections_pair {s t : String} (hs : s ≠ "") (ht : t ≠ "") :
    sections [s, t] = s ++ "\n\n" ++ t := by
  simp [sections, hs, ht]

theorem sections_nested (s t u : String) :
    sections [sections [s, t], u] = sections [s, t, u] := by
  by_cases hs : s = ""
  · subst hs
    rw [sections_cons_empty, sections_singleton, sections_cons_empty]
  · by_cases ht : t = ""
    · simp [sections, hs, ht]
    · rw [sections_pair hs ht]
      by_cases hu : u = ""
      · simp [sections, hs, ht, hu]
      · simp [sections, hs, ht, hu, String.append_assoc]

theorem sections_pair_empty (s : String) : sections [s, ""] = s := by
  by_cases hs : s = ""
  · subst hs
    rfl
  · simp [sections, hs]

theorem lines_spacedAfter (hbefore : Solid before) (hmore : lines more ≠ "") :
    lines (spacedAfter before more) = sections [lines before, lines more] := by
  rcases hbefore with rfl | hbefore
  · have hnone : lines [] = "" := rfl
    rw [hnone, sections_cons_empty, sections_singleton]
    rfl
  · have hne : before ≠ [] := by
      rintro rfl
      exact hbefore rfl
    have hmoreNe : more ≠ [] := by
      rintro rfl
      exact hmore rfl
    have hspaced : spacedAfter before more = before ++ "" :: more := by
      simp [spacedAfter, hne]
    rw [hspaced, sections_pair hbefore hmore, gap_eq, lines,
      String.intercalate_append_of_ne_nil hne (by simp),
      String.intercalate_cons_of_ne_nil hmoreNe]
    simp only [lines, String.append_assoc]

theorem lines_spacedAfter_ne_empty (before : List String) (hmem : part ∈ more) (hne : part ≠ "") :
    lines (spacedAfter before more) ≠ "" := by
  refine lines_ne_empty ?_ hne
  unfold spacedAfter
  split
  · exact hmem
  · exact List.mem_append_right _ (List.mem_cons_of_mem _ hmem)

theorem solid_headerLines (date : Option String) (rule : List String) (abstract : String) :
    Solid (headerLines m date rule abstract false) := by
  have htext : textRule m ≠ "" := by simp [textRule]
  have habstract : "#let abstract = [" ++ abstract ++ "]" ≠ "" := by simp
  have hclosing : "//  ============================================" ∈
      ["", "//  ============================================"] := by simp
  unfold headerLines
  simp only [Bool.false_eq_true, if_false]
  split
  · exact .inr (lines_ne_empty (List.mem_append_right _ hclosing) (by decide))
  next howned =>
    simp only [howned, Bool.false_and, Bool.false_eq_true, if_false]
    split
    · exact .inr (lines_spacedAfter_ne_empty _ (List.mem_singleton_self _) htext)
    · split
      · exact .inr (lines_spacedAfter_ne_empty _ (List.mem_singleton_self _) habstract)
      · exact .inl rfl

/-- The lines of a document out of its parts. -/
def laidOut (m : Metadata) (date : Option String) (rule : List String) (abstract body : String)
    (remoteImage : Bool) : String :=
  let header := headerLines m date rule abstract remoteImage
  lines (if body = "" then header else spacedAfter header [body])

theorem laidOut_eq_sections (date : Option String) (rule : List String) (abstract body : String)
    (remoteImage : Bool) :
    laidOut m date rule abstract body remoteImage =
      sections [lines (headerLines m date rule abstract false),
        if remoteImage then lines remoteImageHelper else "", body] := by
  have hsolid := @solid_headerLines m date rule abstract
  have hhelper : lines remoteImageHelper ≠ "" :=
    lines_ne_empty (List.mem_cons_self ..) (by decide)
  have hbody {before : List String} (hbefore : Solid before) :
      lines (if body = "" then before else spacedAfter before [body]) =
        sections [lines before, body] := by
    split
    next hempty => rw [hempty, sections_pair_empty]
    next hne =>
      have hsingle : lines [body] = body := by simp [lines]
      rw [lines_spacedAfter hbefore (by rwa [hsingle]), hsingle]
  cases remoteImage with
  | false =>
    rw [laidOut, hbody hsolid, if_neg Bool.false_ne_true, ← sections_nested, sections_pair_empty]
  | true =>
    have hheader : headerLines m date rule abstract true =
        spacedAfter (headerLines m date rule abstract false) remoteImageHelper := rfl
    have hwhole : Solid (spacedAfter (headerLines m date rule abstract false) remoteImageHelper) :=
      .inr (lines_spacedAfter_ne_empty _ (List.mem_cons_self ..) (by decide))
    rw [laidOut, hheader, hbody hwhole, lines_spacedAfter hsolid hhelper, sections_nested,
      if_pos rfl]

variable {env : Environment} {tokens index : Value} {output : String}

theorem document_eq_ok_iff : (document env m tokens index).outcome = .ok output ↔
    ∃ shown body date rule abstract, bodyTokens m tokens index = .ok shown ∧
      (blocksText env shown 0 "\n\n").outcome = .ok body ∧
      (ownDateAndRule m).outcome = .ok (date, rule) ∧ abstractMarkup m = .ok abstract ∧
      output = laidOut m date rule abstract body (blocks env [] shown 0).remoteImage := by
  have hflag {shown : List Value} (h : bodyTokens m tokens index = .ok shown) :
      (bodyText env m tokens index).remoteImage = (blocks env [] shown 0).remoteImage := by
    rw [bodyText, Rendering.lift_bind_of_ok h]
    exact remoteImage_bind_of_quiet fun _ => rfl
  constructor
  · intro h
    obtain ⟨body, hbody, h⟩ := Rendering.exists_of_bind h
    obtain ⟨shown, hshown, htext⟩ := Rendering.exists_of_bind hbody
    obtain ⟨⟨date, rule⟩, hdate, h⟩ := Rendering.exists_of_bind h
    obtain ⟨abstract, habstract, h⟩ := Rendering.exists_of_bind h
    rw [Bool.false_or, hflag hshown] at h
    cases h
    exact ⟨shown, body, date, rule, abstract, hshown, htext, hdate, habstract, rfl⟩
  · rintro ⟨shown, body, date, rule, abstract, hshown, htext, hdate, habstract, rfl⟩
    have hbody : (bodyText env m tokens index).outcome = .ok body := by
      rw [bodyText, Rendering.lift_bind_of_ok hshown]
      exact htext
    have habstract : (liftM (abstractMarkup m) : Rendering String).outcome = .ok abstract :=
      habstract
    refine (outcome_bind_of_ok hbody _).trans ((outcome_bind_of_ok hdate _).trans ?_)
    refine (outcome_bind_of_ok habstract _).trans ?_
    rw [Bool.false_or, hflag hshown]
    rfl

/-- Without blocks a document is the lines of its metadata. -/
theorem document_of_nothing {date : Option String} {rule : List String} {abstract : String}
    (hdate : (ownDateAndRule m).outcome = .ok (date, rule))
    (habstract : abstractMarkup m = .ok abstract) :
    (document env m (.list []) .null).outcome =
      .ok (lines (headerLines m date rule abstract false)) := by
  have hnone : blocks env [] [] 0 = pure [] := by rw [blocks]
  have hbody : (blocksText env [] 0 "\n\n").outcome = .ok "" := by
    rw [blocksText, hnone]
    rfl
  have hflag : (blocks env [] [] 0).remoteImage = false := by rw [hnone, pure_remoteImage]
  refine document_eq_ok_iff.mpr ⟨[], "", date, rule, abstract, rfl, hbody, hdate, habstract, ?_⟩
  rw [hflag]
  rfl

/-- A document is its metadata and its body, and between them the helper for remote images, exactly
if a call that its blocks lead to is one for the markup of an image with a remote address. The
definition of the helper then begins once more than it does in the metadata and in the body
themselves. Tokens with types, and metadata of the right shapes, always make a document. -/
theorem remoteImages_backed (env : Environment) (m : Metadata) (tokens index : Value) :
    (∀ output, (document env m tokens index).outcome = .ok output →
      ∃ shown body own, bodyTokens m tokens index = .ok shown ∧
        (blocksText env shown 0 "\n\n").outcome = .ok body ∧
        (document env m (.list []) .null).outcome = .ok own ∧
        ((∃ url, isRemote url = true ∧ Reaches env ([], .blocks shown 0) url) →
          output = sections [own, lines remoteImageHelper, body] ∧
            helpers output = helpers own + 1 + helpers body) ∧
        ((∀ url, Reaches env ([], .blocks shown 0) url → isRemote url = false) →
          output = sections [own, body] ∧ helpers output = helpers own + helpers body)) ∧
      ∀ blocks, tokens = .list blocks → (∀ token ∈ blocks, Token.Typed token) → m.WellTyped →
        IsIndex? index → ∃ output, (document env m tokens index).outcome = .ok output := by
  refine ⟨fun output h => ?_, ?_⟩
  · obtain ⟨shown, body, date, rule, abstract, hshown, hbody, hdate, habstract, rfl⟩ :=
      document_eq_ok_iff.mp h
    refine ⟨shown, body, _, hshown, hbody, document_of_nothing hdate habstract, fun hmet => ?_,
      fun hnone => ?_⟩
    · -- The flag is read off the blocks alone: metadata are never asked for images.
      have hflag := (remoteImage_blocks_iff env [] shown 0).mpr hmet
      rw [hflag, laidOut_eq_sections, if_pos rfl]
      refine ⟨rfl, ?_⟩
      rw [helpers_sections, List.flatMap_cons, List.count_append, List.flatMap_cons,
        List.count_append, List.flatMap_singleton, ← helpers, ← helpers, ← helpers,
        helpers_remoteImageHelper, Nat.add_assoc]
    · have hflag : (blocks env [] shown 0).remoteImage = false := by
        rw [Bool.eq_false_iff, ne_eq, remoteImage_blocks_iff]
        rintro ⟨url, hurl, hreach⟩
        rw [hnone url hreach] at hurl
        cases hurl
      rw [hflag, laidOut_eq_sections, if_neg Bool.false_ne_true]
      have hsame (s t : String) : sections [s, "", t] = sections [s, t] := by
        rw [← sections_nested, sections_pair_empty]
      rw [hsame]
      refine ⟨rfl, ?_⟩
      rw [helpers_sections, List.flatMap_cons, List.count_append, List.flatMap_singleton,
        ← helpers, ← helpers]
  · rintro blocks rfl htyped hm hindex
    obtain ⟨output, houtput, -⟩ := document_ends hm htyped hindex
    exact ⟨output, houtput⟩

/-- An image with a remote address in a quotation. -/
def quotedImage : Value := Token.branch "block_quote" [imageParagraph (.str "HTTP://x")]

theorem quotedImage_reaches :
    Reaches { convertMath := .ok } ([], .blocks [quotedImage] 0) "HTTP://x" := by
  refine ⟨[], .head .firstBlock (.head (.form rfl rfl) (.head (.quote rfl) ?_))⟩
  refine .head .firstBlock (.head (.form rfl rfl) (.head .paragraph ?_))
  refine .head (.text (isOutlineMarker_imageParagraph _)) (.head (.below rfl) ?_)
  exact .head .firstInline (.single (.image rfl rfl rfl))

theorem remoteImages_backed_quotedImage :
    Reaches { convertMath := .ok } ([], .blocks [quotedImage] 0) "HTTP://x" ∧
      ∃ output body own,
        (document { convertMath := .ok } {} (.list [quotedImage]) .null).outcome = .ok output ∧
        output = sections [own, lines remoteImageHelper, body] ∧
        helpers output = helpers own + 1 + helpers body := by
  obtain ⟨hshape, hends⟩ :=
    remoteImages_backed { convertMath := .ok } {} (.list [quotedImage]) .null
  have htyped : ∀ token ∈ [quotedImage], Token.Typed token :=
    List.forall_mem_singleton.mpr ⟨"block_quote", rfl⟩
  obtain ⟨output, houtput⟩ := hends [quotedImage] rfl htyped ⟨⟨"", rfl⟩, .inl rfl⟩ (.inl rfl)
  obtain ⟨shown, body, own, hshown, -, -, hmet, -⟩ := hshape output houtput
  obtain rfl : [quotedImage] = shown := Except.ok.inj hshown
  exact ⟨quotedImage_reaches, output, body, own, houtput, hmet ⟨_, rfl, quotedImage_reaches⟩⟩

end Typeset.Image
