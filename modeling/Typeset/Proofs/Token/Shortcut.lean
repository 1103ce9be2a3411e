import Typeset.Proofs.Token.Piece
import Typeset.Proofs.Token.Run
import Typeset.Render.Leaf

/-! Shortcut references in a run of text: each names a known identifier, and a word in brackets that
names none stays text. -/

namespace Typeset.Token

variable {known : List String} {image : Bool} {form : ReferenceForm} {label identifier s : String}
  {cs before word after rest first : List Char} {t : Value} {r : Reference}

/-- A reference to a link or an image by nothing but an identifier. -/
structure IsShortcut (token : Value) : Prop where
  kind : Token.kind token = .ok (.str "link_reference") ∨
    Token.kind token = .ok (.str "image_reference")
  form : token.attr "reference_type" .null = .ok (.str ReferenceForm.shortcut.name)

/-- A reference with a known identifier, if it is a shortcut. -/
def Reference.Known (known : List String) : Reference → Prop
  | .target _ .shortcut _ identifier => Text.lower identifier ∈ known
  | _ => True

section Known

theorem single?_known (h : single? known image first rest = some (some r, after)) :
    r.Known known := by
  obtain ⟨-, ⟨identifier, -, -, -, -, hfound⟩ | ⟨hknown, hfound⟩ | hfound⟩ := single?_cases h
  · cases hfound
    trivial
  · cases hfound
    exact hknown
  · cases hfound

theorem paired?_known {second : List Char} (h : paired? image first second = some r) :
    r.Known known := by
  unfold paired? at h
  split at h
  · cases h
    trivial
  · split at h
    · cases h
      trivial
    · cases h

theorem named?_known (h : named? known image cs = some (some r, after)) : r.Known known := by
  obtain ⟨first, second, -, -, -, hfound⟩ | ⟨first, -, -, -, hown⟩ := named?_cases h
  · exact paired?_known hfound.symm
  · exact single?_known hown

theorem reference?_known (h : reference? known cs = some (some r, after)) : r.Known known := by
  obtain ⟨body, -, hbody⟩ | h := named?_of_reference? h
  · exact named?_known hbody
  · exact named?_known h

/-- A shortcut is only read where its identifier is known. -/
theorem targets_known (known : List String) (cs : List Char) :
    ∀ r ∈ targets (pieces known cs), r.Known known := by
  intro r hr
  obtain ⟨source, after, hread⟩ := exists_of_mem_targets hr
  exact reference?_known hread

theorem mem_assemble {held : List Char} {ps : List Piece} (h : t ∈ assemble held ps) :
    (∃ s, t = text s) ∨ ∃ r ∈ targets ps, t = r.token := by
  have hrun (cs : List Char) (ht : t ∈ textRun cs) : ∃ s, t = text s := by
    rw [textRun] at ht
    split at ht
    · cases ht
    · exact ⟨_, List.mem_singleton.mp ht⟩
  induction ps generalizing held with
  | nil => exact .inl (hrun held h)
  | cons p ps ih =>
    cases p with
    | plain source => exact ih h
    | reference target =>
      obtain h | h := List.mem_append.mp h
      · exact .inl (hrun held h)
      obtain rfl | h := List.mem_cons.mp h
      · exact .inr ⟨target, List.mem_cons_self, rfl⟩
      obtain htext | ⟨r, hr, ht⟩ := ih h
      · exact .inl htext
      · exact .inr ⟨r, List.mem_cons_of_mem _ hr, ht⟩

theorem mem_splitReferences (h : t ∈ splitReferences known s) :
    (∃ s, t = text s) ∨ ∃ r ∈ targets (pieces known s.toList), t = r.token := by
  rw [splitReferences, splitFrom_nil_eq] at h
  split at h
  · exact .inl ⟨s, List.mem_singleton.mp h⟩
  · exact mem_assemble h

/-- The token of a shortcut whose identifier is known. -/
def KnownShortcut (known : List String) (token : Value) : Prop :=
  ∃ image label identifier, token = (Reference.target image .shortcut label identifier).token ∧
    Text.lower identifier ∈ known

theorem IsShortcut.name (name : String) (h : IsShortcut t) (hk : Token.kind t = .ok (.str name)) :
    name = "link_reference" ∨ name = "image_reference" := by
  have hkind := h.kind
  rw [hk] at hkind
  simpa using hkind

theorem not_isShortcut_text (s : String) : ¬ IsShortcut (text s) := by
  intro h
  have hname := h.name "text" rfl
  simp at hname

theorem knownShortcut_of_isShortcut (hr : r.Known known) (h : IsShortcut r.token) :
    KnownShortcut known r.token := by
  cases r with
  | footnote name =>
    have hname := h.name "footnote_ref" rfl
    simp at hname
  | target image form label identifier =>
    have hname : (Reference.target image form label identifier).token.attr "reference_type" .null =
        .ok (.str form.name) := by cases image <;> rfl
    have hform := hname.symm.trans h.form
    cases form with
    | shortcut => exact ⟨image, label, identifier, rfl, hr⟩
    | full => simp [ReferenceForm.name] at hform
    | collapsed => simp [ReferenceForm.name] at hform

/-- The tokens below a reference are text. -/
theorem isChild_token (h : r.token.IsChild t) : ∃ s, t = text s := by
  obtain ⟨fields, items, hfields, hitems, ht⟩ := h
  cases r with
  | footnote name =>
    cases hfields
    cases hitems
  | target image form label identifier =>
    cases image with
    | true =>
      cases hfields
      cases hitems
    | false =>
      cases hfields
      cases hitems
      split at ht
      · cases ht
      · exact ⟨label, List.mem_singleton.mp ht⟩

/-- All shortcuts in what a run of text comes to have known identifiers. -/
theorem splitReferences_everywhere (ht : t ∈ splitReferences known s) :
    t.Everywhere fun t => IsShortcut t → KnownShortcut known t := by
  have htext (s : String) :
      (text s).Everywhere fun t => IsShortcut t → KnownShortcut known t :=
    Value.everywhere_leaf fun h => absurd h (not_isShortcut_text s)
  obtain ⟨s, rfl⟩ | ⟨r, hr, rfl⟩ := mem_splitReferences ht
  · exact htext s
  · refine .intro (knownShortcut_of_isShortcut (targets_known known _ r hr)) fun u hu => ?_
    obtain ⟨s, rfl⟩ := isChild_token hu
    exact htext s

/-- Tokens in the form of the renderers are no shortcuts: they are named otherwise, or they have no
attributes. -/
theorem not_isShortcut_of_named {K : Value → Prop} (h : Named K t) : ¬ IsShortcut t := by
  obtain ⟨fields, rfl, hheaded⟩ := h
  intro hs
  obtain ⟨name, hname, hfree⟩ | ⟨kind, -, -, hattrs⟩ := hheaded.kind
  · have hkind : Token.kind (.object fields) = .ok (.str name) := by
      rw [Token.kind, Value.field_object, hname]
      rfl
    obtain rfl | rfl := hs.name name hkind <;> simp [isForeign, isReserved] at hfree
  · have hform := hs.form
    rw [Value.attr, Value.field_object, hattrs] at hform
    cases hform

theorem isShortcut_withChildren {children : List Value} (h : IsShortcut (withChildren children t)) :
    IsShortcut t := by
  have hkind : Token.kind (withChildren children t) = Token.kind t :=
    field_withChildren (by decide) children t _
  have hattrs : (withChildren children t).attr "reference_type" .null =
      t.attr "reference_type" .null := by
    rw [Value.attr, Value.attr, field_withChildren (by decide)]
  exact ⟨hkind ▸ h.kind, hattrs ▸ h.form⟩

/-- Wherever a shortcut comes about, its identifier is known. -/
theorem canonical_everywhere {tokens outs : List Value} (h : canonical known tokens = .ok outs) :
    ∀ out ∈ outs, out.Everywhere fun t => IsShortcut t → KnownShortcut known t := by
  obtain ⟨trees, htrees, hres⟩ := exists_of_canonical h
  have hnamed := normalizeAll_everywhere (K := fun _ => True) tokens htrees
    fun t _ u _ _ _ => trivial
  intro out hout
  obtain ⟨tree, htree, hout⟩ := exists_of_mem_right hres hout
  refine resolve_everywhere (P := fun t => ¬ IsShortcut t) (fun t hp h => absurd h hp)
    (fun t children hp h => absurd (isShortcut_withChildren h) hp) known tree hout ?_ ?_
  · exact fun t ht => not_isShortcut_of_named (hnamed tree htree t ht)
  · exact fun s _ t ht => splitReferences_everywhere ht

end Known

section Word

/-- A word in brackets that is no part of a longer reference. -/
structure StandsAlone (before word after : List Char) : Prop where
  label : IsLabel word
  before : ¬ EndsInLabel before
  after : unmarked? after = none

theorem single?_unknown (image : Bool) (rest : List Char) (h : IsLabel word)
    (hk : Text.lower (trimmed word) ∉ known) :
    single? known image word rest = none ∨ single? known image word rest = some (none, rest) := by
  cases word with
  | nil => exact .inl rfl
  | cons c more =>
    have hcaret : c ≠ '^' := fun hc => h.head (congrArg some hc)
    rw [single?, if_neg (by simp [hcaret])]
    split
    · exact .inl rfl
    · rw [if_neg (by simpa using hk)]
      exact .inr rfl

theorem not_mem_bracketed (h : Bare word) : '[' ∉ word ++ [']'] := by
  intro hmem
  obtain hmem | hmem := List.mem_append.mp hmem
  · cases h '[' hmem
  · cases List.mem_singleton.mp hmem

/-- A word in brackets on its own that is no reference is text. -/
theorem pieces_word_of_passed (h : IsLabel word) (ha : unmarked? after = none)
    (hs : single? known false word after = none ∨
      single? known false word after = some (none, after)) :
    ∃ ms, targets ms = [] ∧ spelled ms = group word ∧
      pieces known (group word ++ after) = ms ++ pieces known after := by
  have hread : reference? known (group word ++ after) = single? known false word after := by
    rw [reference?_group, named?_single h.bare fun _ => ha]
  obtain hs | hs := hs
  · have hlast : (word ++ [']']).getLast? ≠ some '!' := by simp
    obtain ⟨ms, htargets, hspelled, hpieces⟩ :=
      pieces_inert known after (not_mem_bracketed h.bare) hlast
    refine ⟨.plain ['['] :: ms, htargets, ?_, ?_⟩
    · rw [spelled, hspelled]
      rfl
    · rw [group, List.cons_append] at hread ⊢
      rw [pieces_of_none (hread.trans hs), hpieces]
      rfl
  · refine ⟨[.plain (group word)], rfl, List.append_nil _, ?_⟩
    rw [pieces_of_passed (hread.trans hs)]
    rfl

theorem pieces_marked_word_of_passed {mark : List Char} (hmark : IsMark mark) (h : IsLabel word)
    (ha : unmarked? after = none)
    (hs : ∀ image, single? known image word after = none ∨
      single? known image word after = some (none, after)) :
    ∃ ms, targets ms = [] ∧ spelled ms = mark ++ group word ∧
      pieces known (mark ++ (group word ++ after)) = ms ++ pieces known after := by
  obtain rfl | rfl := hmark
  · exact pieces_word_of_passed h ha (hs false)
  have hread : reference? known ('!' :: (group word ++ after)) =
      single? known true word after := by
    rw [reference?_bang, named?_single h.bare fun _ => ha]
  obtain hnone | hnone := hs true
  · obtain ⟨ms, htargets, hspelled, hpieces⟩ := pieces_word_of_passed h ha (hs false)
    refine ⟨.plain ['!'] :: ms, htargets, ?_, ?_⟩
    · rw [spelled, hspelled]
    · rw [List.singleton_append, pieces_of_none (hread.trans hnone), hpieces]
      rfl
  · refine ⟨[.plain ('!' :: group word)], rfl, List.append_nil _, ?_⟩
    rw [← List.cons_append] at hread
    rw [← List.append_assoc, List.singleton_append, pieces_of_passed (hread.trans hnone)]
    rfl

/-- A word in brackets that names nothing is text. -/
theorem pieces_word (h : IsLabel word) (ha : unmarked? after = none)
    (hk : Text.lower (trimmed word) ∉ known) :
    ∃ ms, targets ms = [] ∧ spelled ms = group word ∧
      pieces known (group word ++ after) = ms ++ pieces known after :=
  pieces_word_of_passed h ha (single?_unknown false after h hk)

theorem pieces_marked_word {mark : List Char} (hmark : IsMark mark) (h : IsLabel word)
    (ha : unmarked? after = none) (hk : Text.lower (trimmed word) ∉ known) :
    ∃ ms, targets ms = [] ∧ spelled ms = mark ++ group word ∧
      pieces known (mark ++ (group word ++ after)) = ms ++ pieces known after :=
  pieces_marked_word_of_passed hmark h ha fun image => single?_unknown image after h hk

/-- A word in brackets that names nothing stays part of one text. -/
theorem exists_text_of_word (h : StandsAlone before word after)
    (hk : Text.lower (trimmed word) ∉ known) :
    ∃ u v, text (String.ofList (u ++ group word ++ v)) ∈
      splitReferences known (String.ofList (before ++ (group word ++ after))) := by
  obtain ⟨head, mark, rfl, hmark, hapart⟩ := apart_of_not_endsInLabel known h.before
  obtain ⟨ms, htargets, hspelled, hms⟩ := pieces_marked_word hmark h.label h.after hk
  have hpieces : pieces known (head ++ mark ++ (group word ++ after)) =
      pieces known head ++ (ms ++ pieces known after) := by
    rw [List.append_assoc, pieces_append (hapart word after), hms]
  have hne : spelled ms ≠ [] := by simp [hspelled, group]
  obtain ⟨u, v, hmem⟩ :=
    mem_assemble_of_plain htargets hne [] (pieces known head) (pieces known after)
  rw [← hpieces, ← splitFrom_nil_eq, hspelled, ← List.append_assoc u] at hmem
  refine ⟨u ++ mark, v, ?_⟩
  rw [splitReferences_of_mem (by rw [String.toList_ofList]; exact hmem), String.toList_ofList]
  exact hmem

end Word

end Typeset.Token
