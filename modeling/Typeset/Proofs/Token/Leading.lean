import Mathlib.Data.List.DropRight
import Typeset.Proofs.Token.Canonical
import Typeset.Token.Collect

/-! The heading that gives a document its title: among well-formed tokens the search for it always
comes to an answer, and what it finds is the first token that is no definition. -/

namespace Typeset.Token

open Failure

variable {definitions : Targets Definition} {fields : Fields} {token : Value} {tokens : List Value}

/-- Attributes as references and definitions have them. -/
structure Attributes (attrs : Fields) : Prop where
  identifier : ∀ v, ("identifier", v) ∈ attrs → ∃ s, v = .str s
  url : ∀ v, ("url", v) ∈ attrs → ∃ s, v = .str s
  label : ∀ v, ("label", v) ∈ attrs → v = .null ∨ ∃ s, v = .str s

/-- A well-formed token: its type and its raw text are texts, and its attributes an object. -/
structure Regular (fields : Fields) : Prop where
  kind : ∀ v, fields.lookup "type" = some v → ∃ name, v = .str name
  raw : ∀ v, ("raw", v) ∈ fields → ∃ s, v = .str s
  attrs : ∀ v, ("attrs", v) ∈ fields → ∃ attrs, v = .object attrs ∧ Attributes attrs

/-- The targets have addresses that are texts. -/
def Addressed (definitions : Targets Definition) : Prop :=
  ∀ entry ∈ definitions, ∃ s, entry.2.url = .str s

section Regular

theorem Regular.attrs_gives (h : Regular fields) :
    Gives (fun v => ∃ attrs, v = .object attrs ∧ Attributes attrs)
      ((Value.object fields).field "attrs" (.object [])) := by
  refine (field_gives fields "attrs" _).mono ?_
  rintro v (hv | rfl)
  · exact h.attrs v hv
  · exact ⟨[], rfl, by simp, by simp, by simp⟩

theorem Regular.reference_gives (h : Regular fields) (hd : Addressed definitions) :
    Gives (fun v => ∃ s, v = .str s) (referenceText definitions (.object fields)) := by
  rw [referenceText]
  refine h.attrs_gives.bind ?_
  rintro _ ⟨attrs, rfl, hattrs⟩
  refine ((field_gives attrs "identifier" _).mono ?_).bind (Q := fun v => ∃ s, v = .str s) ?_
  · rintro v (hv | rfl)
    · exact hattrs.identifier v hv
    · exact ⟨"", rfl⟩
  rintro _ ⟨identifier, rfl⟩
  refine Gives.bind (Q := fun key => key = identifier) (gives_ok rfl) ?_
  rintro _ rfl
  split
  next d hfound => exact gives_ok (hd _ (mem_of_lookup hfound))
  next =>
    refine (field_gives attrs "label" _).bind fun label hlabel => gives_ok ?_
    have hlabel : label = .null ∨ ∃ s, label = .str s := by
      obtain hmem | rfl := hlabel
      · exact hattrs.label label hmem
      · exact .inl rfl
    obtain rfl | ⟨s, rfl⟩ := hlabel
    · exact ⟨_, rfl⟩
    · rw [Value.orElse]
      split <;> exact ⟨_, rfl⟩

theorem Regular.spoken (h : Regular fields) (hd : Addressed definitions) :
    Spoken definitions fields where
  kind := h.kind
  raw := h.raw
  reference _ := h.reference_gives hd

end Regular

section Definitions

theorem Addressed.set {found : Targets Definition} (h : Addressed found) (key : String)
    {d : Definition} (hd : ∃ s, d.url = .str s) : Addressed (found.set key d) := by
  induction found with
  | nil => exact List.forall_mem_singleton.mpr hd
  | cons entry rest ih =>
    obtain ⟨hentry, hrest⟩ := List.forall_mem_cons.mp h
    obtain ⟨k, u⟩ := entry
    rw [Targets.set]
    split
    · exact List.forall_mem_cons.mpr ⟨hd, hrest⟩
    · exact List.forall_mem_cons.mpr ⟨hentry, ih hrest⟩

theorem addDefinition_addressed {found found' : Targets Definition} {issues : List Issue}
    (ht : Tree Regular token) (hfound : Addressed found)
    (h : addDefinition token found = .ok (found', issues)) : Addressed found' := by
  obtain ⟨kind, -, h⟩ := exists_of_bind h
  split at h
  · cases ht with
    | @object fields here list below =>
      obtain ⟨_, hattrs, attrs, rfl, hgood⟩ := here.attrs_gives
      obtain ⟨_, hfield, h⟩ := exists_of_bind h
      cases hattrs.symm.trans hfield
      obtain ⟨value, -, h⟩ := exists_of_bind h
      obtain ⟨identifier, -, h⟩ := exists_of_bind h
      obtain ⟨url, hurl, h⟩ := exists_of_bind h
      obtain ⟨title, -, h⟩ := exists_of_bind h
      obtain ⟨label, -, h⟩ := exists_of_bind h
      cases h
      obtain ⟨_, hfound', hmem⟩ := field_gives attrs "url" (.str "")
      cases hfound'.symm.trans hurl
      refine hfound.set _ ?_
      obtain hmem | rfl := hmem
      · exact hgood.url url hmem
      · exact ⟨"", rfl⟩
  · cases h
    exact hfound

/-- The addresses of what well-formed tokens define are texts. -/
theorem definitions_addressed (h : ∀ t ∈ tokens, Tree Regular t) :
    Addressed (Token.definitions (.list tokens)).answer := by
  have hsearch (found : Targets Definition) (hfound : Addressed found) :
      Addressed (searchFrom addDefinition found tokens).found := by
    induction tokens generalizing found with
    | nil => exact hfound
    | cons token rest ih =>
      obtain ⟨hhere, hmore⟩ := List.forall_mem_cons.mp h
      rw [searchFrom]
      cases hs : addDefinition token found with
      | error f => exact hfound
      | ok next =>
        obtain ⟨found', issues⟩ := next
        exact ih hmore found' (addDefinition_addressed hhere hfound hs)
  rw [Token.definitions, Search.report]
  split
  · exact hsearch [] (List.forall_mem_nil _)
  · exact hsearch [] (List.forall_mem_nil _)

end Definitions

section Search

/-- A token that is no content. -/
def IsDefinitional (token : Value) : Prop :=
  ∃ name, token.field "type" .null = .ok (.str name) ∧ isDefinitional name = true

variable {before after : List Value} {heading : Value} {title : String}

/-- The title is that of a heading of the first level, with nothing but definitions before it. -/
structure Led (definitions : Targets Definition) (tokens before : List Value) (heading : Value)
    (after : List Value) (title : String) : Prop where
  split : tokens = before ++ heading :: after
  skipped : ∀ token ∈ before, IsDefinitional token
  kind : heading.field "type" .null = .ok (.str "heading")
  first : ∃ level, heading.attr "level" (.int 1) = .ok level ∧ level.compareTo? 1 = some .eq
  words : ∃ children text, heading.field "children" (.list []) = .ok children ∧
    plainText definitions children = .ok text ∧ title = Text.strip text
  shown : title ≠ ""

theorem Led.cons (h : Led definitions tokens before heading after title)
    (ht : IsDefinitional token) :
    Led definitions (token :: tokens) (token :: before) heading after title :=
  { h with
    split := congrArg _ h.split
    skipped := List.forall_mem_cons.mpr ⟨ht, h.skipped⟩ }

theorem strip_eq_empty_of_blank {s : String} (h : Text.isBlankText (Text.strip s) = true) :
    Text.strip s = "" := by
  rw [Text.isBlankText, Text.strip, String.toList_ofList, List.all_eq_true] at h
  have htwice := List.rdropWhile_idempotent Text.isBlank (s.toList.dropWhile Text.isBlank)
  have hnone : Text.trim Text.isBlank s.toList = [] :=
    htwice.symm.trans (List.rdropWhile_eq_nil_iff.mpr h)
  rw [Text.strip, hnone]

/-- The title is the stripped text of the heading, so it shows something. -/
theorem Led.notBlank (h : Led definitions tokens before heading after title) :
    Text.isBlankText title = false := by
  obtain ⟨children, text, -, -, htitle⟩ := h.words
  rw [Bool.eq_false_iff]
  intro hblank
  rw [htitle] at hblank
  exact h.shown (htitle.trans (strip_eq_empty_of_blank hblank))

theorem Regular.exists_kindKey (h : Regular fields) :
    ∃ kind key, (Value.object fields).field "type" .null = .ok kind ∧ kindKey kind = .ok key ∧
      ∀ name ∈ key, kind = .str name := by
  rw [Value.field_object]
  cases ht : fields.lookup "type" with
  | none => exact ⟨_, _, rfl, rfl, nofun⟩
  | some kind =>
    obtain ⟨name, rfl⟩ := h.kind kind ht
    refine ⟨_, _, rfl, kindKey_str name, fun name' hname => ?_⟩
    cases hname
    rfl

theorem leadingFrom_gives (hd : Addressed definitions) (h : ∀ t ∈ tokens, Tree Regular t)
    (start : Nat) :
    Gives (fun found => ∀ t ∈ found, ∃ before heading after,
        t.index = start + before.length ∧ Led definitions tokens before heading after t.title)
      (leadingFrom definitions start tokens) := by
  have hnone (P : LeadingTitle → Prop) : Gives (fun found => ∀ t ∈ found, P t) (.ok none) :=
    gives_ok nofun
  induction tokens generalizing start with
  | nil => exact hnone _
  | cons token rest ih =>
    obtain ⟨hhere, hmore⟩ := List.forall_mem_cons.mp h
    cases hhere with
    | @object fields here list below =>
      have htree : Tree Regular (.object fields) := .object here list below
      obtain ⟨kind, key, hkind, hkey, hname⟩ := here.exists_kindKey
      rw [leadingFrom, hkind]
      change Gives _ (kindKey kind >>= _)
      rw [hkey]
      cases key with
      | none => exact hnone _
      | some name =>
        obtain rfl := hname name rfl
        change Gives _ (if isDefinitional name then _ else _)
        by_cases hskip : isDefinitional name = true
        · rw [if_pos hskip]
          refine (ih hmore (start + 1)).mono fun found hfound t ht => ?_
          obtain ⟨before, heading, after, hindex, hled⟩ := hfound t ht
          refine ⟨.object fields :: before, heading, after, ?_, hled.cons ⟨name, hkind, hskip⟩⟩
          rw [hindex, List.length_cons]
          omega
        rw [if_neg hskip]
        by_cases hheading : name = "heading"
        · rw [if_pos hheading]
          obtain ⟨level, hlevel⟩ : ∃ level,
              (Value.object fields).attr "level" (.int 1) = .ok level := by
            obtain ⟨_, hattrs, attrs, rfl, -⟩ := here.attrs_gives
            rw [Value.attr, hattrs]
            exact ⟨_, rfl⟩
          rw [hlevel]
          change Gives _ (if level.compareTo? 1 = some .eq then _ else _)
          split
          next hfirst =>
            obtain ⟨_, hchildren, items, rfl, hitems⟩ := htree.childrenField_gives
            obtain ⟨text, htext, -⟩ := plainText_spoken_gives definitions fun t ht =>
              (hitems t ht).mono fun _ hr => hr.spoken hd
            rw [hchildren]
            change Gives _ (plainText definitions (.list items) >>= _)
            rw [htext]
            refine gives_ok fun t ht => ?_
            split at ht
            next => cases ht
            next hshown =>
              cases ht
              exact ⟨[], .object fields, rest, rfl, rfl, List.forall_mem_nil _, hheading ▸ hkind,
                ⟨level, hlevel, hfirst⟩, ⟨_, text, hchildren, htext, rfl⟩, hshown⟩
          next => exact hnone _
        · rw [if_neg hheading]
          exact hnone _

/-- Among well-formed tokens the search comes to an answer, without an issue: it finds no title, or
that of the heading with which the content starts. -/
theorem leadingTitle_eq (hd : Addressed definitions) (h : ∀ t ∈ tokens, Tree Regular t) :
    ∃ found, leadingTitle definitions (.list tokens) = ⟨found, []⟩ ∧
      ∀ t ∈ found, ∃ before heading after,
        t.index = before.length ∧ Led definitions tokens before heading after t.title := by
  obtain ⟨found, hfound, hled⟩ := leadingFrom_gives hd h 0
  refine ⟨found, ?_, fun t ht => ?_⟩
  · have hsearch : (Value.list tokens).tokens.bind (leadingFrom definitions 0) = .ok found := hfound
    rw [leadingTitle, hsearch]
  · obtain ⟨before, heading, after, hindex, hl⟩ := hled t ht
    exact ⟨before, heading, after, hindex.trans (Nat.zero_add _), hl⟩

end Search

end Typeset.Token
