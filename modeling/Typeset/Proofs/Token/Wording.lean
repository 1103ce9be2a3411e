import Typeset.Proofs.Token.Leading
import Typeset.Proofs.Token.Leaves

/-! The words of tokens: what is left of them without their formatting. Images, footnotes and
formulas have no words, and code has those it quotes. -/

namespace Typeset.Token

open Failure

variable {definitions : Targets Definition} {fields : Fields} {token : Value} {tokens : List Value}

/-- An attribute of a token that is text, which is empty if the token does not have it. -/
def attrText (key : String) (token : Value) : String :=
  match token with
  | .object fields =>
    match fields.lookup "attrs" with
    | some (.object attrs) => ((attrs.lookup key).bind Value.str?).getD ""
    | _ => ""
  | _ => ""

/-- What a reference without a label says: the address of its target, or what names it. -/
def unlabelled (definitions : Targets Definition) (token : Value) : String :=
  match definitions.find (Text.lower (attrText "identifier" token)) with
  | some d => (d.url.str?).getD ""
  | none =>
    if attrText "label" token = "" then attrText "identifier" token else attrText "label" token

/-- The words of a token. -/
def wording (definitions : Targets Definition) (token : Value) : String :=
  let below := String.join ((listed token).attach.map fun t => wording definitions t.1)
  match nameOf token with
  | some "text" | some "codespan" => rawOf token
  | some "link_reference" => if Text.isBlankText below then unlabelled definitions token else below
  | some "linebreak" => "\n"
  | some "softbreak" => " "
  | some "image" | some "image_reference" | some "footnote_ref" => ""
  | _ => below
termination_by sizeOf token
decreasing_by exact sizeOf_lt_of_mem_listed t.2

/-- The words of tokens, one after the other. -/
def wordings (definitions : Targets Definition) (tokens : List Value) : String :=
  String.join (tokens.map (wording definitions))

theorem wording_eq (definitions : Targets Definition) (token : Value) :
    wording definitions token =
      match nameOf token with
      | some "text" | some "codespan" => rawOf token
      | some "link_reference" =>
        if Text.isBlankText (wordings definitions (listed token)) then unlabelled definitions token
        else wordings definitions (listed token)
      | some "linebreak" => "\n"
      | some "softbreak" => " "
      | some "image" | some "image_reference" | some "footnote_ref" => ""
      | _ => wordings definitions (listed token) := by
  rw [wording, List.attach_map_val]
  rfl

@[simp] theorem wordings_nil : wordings definitions [] = "" := rfl

@[simp] theorem wordings_cons :
    wordings definitions (token :: tokens) =
      wording definitions token ++ wordings definitions tokens := by
  simp [wordings, String.join_cons]

theorem wordings_append (xs ys : List Value) :
    wordings definitions (xs ++ ys) = wordings definitions xs ++ wordings definitions ys := by
  simp [wordings]

section Join

theorem join_append {xs ys : List Value} {s t : String} (hx : join xs = .ok s)
    (hy : join ys = .ok t) : join (xs ++ ys) = .ok (s ++ t) := by
  unfold join Value.needTexts at *
  rw [List.mapM_append]
  cases hxs : xs.mapM Value.needText with
  | error f => simp [hxs, Except.map] at hx
  | ok as =>
    cases hys : ys.mapM Value.needText with
    | error f => simp [hys, Except.map] at hy
    | ok bs =>
      simp only [hxs, hys, Except.map, Except.ok.injEq] at hx hy
      subst hx hy
      simp [bind, Except.bind, pure, Except.pure, Except.map]

theorem join_singleton (s : String) : join [.str s] = .ok s := by
  simp [join, Value.needTexts, Value.needText, Except.map, bind, Except.bind, pure, Except.pure]

end Join

section Regular

theorem regular_leaf (kind raw : String) : Tree Regular (leaf kind raw) := by
  refine .object ⟨?_, ?_, ?_⟩ ?_ ?_ <;> simp

theorem regular_branch (kind : String) (h : ∀ t ∈ tokens, Tree Regular t) :
    Tree Regular (branch kind tokens) := by
  refine .object ⟨?_, ?_, ?_⟩ ?_ ?_ <;> simp
  exact h

theorem regular_marked (kind : String) {attrs : Fields} (h : Attributes attrs) :
    Tree Regular (marked kind attrs) := by
  refine .object ⟨?_, ?_, ?_⟩ ?_ ?_ <;> simp [h]

theorem Tree.kind_text (h : Tree Regular token) :
    Token.kind token = .ok (.str ((nameOf token).getD "")) := by
  cases h with
  | @object fields here =>
    rw [Token.kind, Value.field_object, nameOf]
    cases ht : fields.lookup "type" with
    | none => rfl
    | some v =>
      obtain ⟨name, rfl⟩ := here.kind v ht
      rfl

theorem Tree.raw_text (h : Tree Regular token) :
    token.field "raw" (.str "") = .ok (.str (rawOf token)) := by
  cases h with
  | object here => exact field_raw here.raw

/-- The attributes of a well-formed token: those it has, or none. -/
theorem Tree.exists_attrs (h : Tree Regular token) :
    ∃ attrs, token.field "attrs" (.object []) = .ok (.object attrs) ∧ Attributes attrs ∧
      ∀ key, attrText key token = ((attrs.lookup key).bind Value.str?).getD "" := by
  cases h with
  | @object fields here =>
    rw [Value.field_object]
    cases ha : fields.lookup "attrs" with
    | none =>
      exact ⟨[], rfl, ⟨by simp, by simp, by simp⟩, fun key => by simp [attrText, ha]⟩
    | some v =>
      obtain ⟨attrs, rfl, hattrs⟩ := here.attrs v (mem_of_lookup ha)
      exact ⟨attrs, rfl, hattrs, fun key => by simp [attrText, ha]⟩

theorem Attributes.identifier_eq {attrs : Fields} (h : Attributes attrs) :
    (Value.object attrs).field "identifier" (.str "") =
      .ok (.str (((attrs.lookup "identifier").bind Value.str?).getD "")) := by
  rw [Value.field_object]
  cases hi : attrs.lookup "identifier" with
  | none => rfl
  | some v =>
    obtain ⟨s, rfl⟩ := h.identifier v (mem_of_lookup hi)
    rfl

theorem Attributes.label_orElse {attrs : Fields} (h : Attributes attrs) (s : String) :
    ((attrs.lookup "label").getD .null).orElse (.str s) =
      .str (if ((attrs.lookup "label").bind Value.str?).getD "" = "" then s
        else ((attrs.lookup "label").bind Value.str?).getD "") := by
  cases hl : attrs.lookup "label" with
  | none => rfl
  | some v =>
    obtain rfl | ⟨label, rfl⟩ := h.label v (mem_of_lookup hl)
    · rfl
    · by_cases hne : label = "" <;> simp [Value.orElse, Value.truthy, Value.str?, hne]

theorem Addressed.url_eq (hd : Addressed definitions) {key : String} {d : Definition}
    (h : definitions.find key = some d) : d.url = .str ((d.url.str?).getD "") := by
  obtain ⟨s, hs⟩ := hd _ (mem_of_lookup h)
  simp only at hs
  rw [hs]
  rfl

theorem Tree.referenceText_eq (h : Tree Regular token) (hd : Addressed definitions) :
    referenceText definitions token = .ok (.str (unlabelled definitions token)) := by
  obtain ⟨attrs, hattrs, hgood, htext⟩ := h.exists_attrs
  have hid : (Value.object attrs).field "identifier" (.str "") =
      .ok (.str (attrText "identifier" token)) := by
    rw [htext]
    exact hgood.identifier_eq
  have hlabel : (Value.object attrs).field "label" .null =
      .ok ((attrs.lookup "label").getD .null) := rfl
  rw [referenceText, unlabelled]
  simp only [hattrs, hid, bind, Except.bind, Value.asText]
  cases hf : definitions.find (Text.lower (attrText "identifier" token)) with
  | some d => exact congrArg _ (hd.url_eq hf)
  | none =>
    simp only [hlabel]
    rw [hgood.label_orElse, ← htext]

end Regular

section PlainText

mutual

/-- The plain text of well-formed tokens is their words. -/
theorem plainParts_wordings (hd : Addressed definitions) :
    (tokens : List Value) → (∀ t ∈ tokens, Tree Regular t) →
      ∃ parts, plainParts definitions tokens = .ok parts ∧
        join parts = .ok (wordings definitions tokens)
  | [], _ => by
    rw [plainParts]
    exact ⟨[], rfl, rfl⟩
  | token :: rest, h => by
    obtain ⟨hhere, hmore⟩ := List.forall_mem_cons.mp h
    obtain ⟨here, hh, hjoin⟩ := plainPart_wording hd token hhere
    obtain ⟨more, hm, hrest⟩ := plainParts_wordings hd rest hmore
    rw [plainParts, hh, hm, wordings_cons]
    exact ⟨here ++ more, rfl, join_append hjoin hrest⟩
termination_by tokens => sizeOf tokens

theorem plainPart_wording (hd : Addressed definitions) (token : Value) (h : Tree Regular token) :
    ∃ parts, plainPart definitions token = .ok parts ∧
      join parts = .ok (wording definitions token) := by
  have hchildren := h.children_eq
  have hsize := Value.sizeOf_children_lt hchildren
  obtain ⟨below, hbelow, hjoin⟩ := plainParts_wordings hd (listed token) h.listed
  rw [plainPart, h.kind_text, wording_eq]
  split
  next f hf => cases hchildren.symm.trans hf
  next items hi =>
    cases hchildren.symm.trans hi
    split
    case h_1 hn | h_2 hn =>
      rw [hn, h.raw_text]
      exact ⟨[.str (rawOf token)], rfl, join_singleton _⟩
    case h_3 hn =>
      simp only [hn, hbelow, hjoin, h.referenceText_eq hd, bind, Except.bind]
      by_cases hblank : Text.isBlankText (wordings definitions (listed token)) = true
      · rw [if_pos hblank, if_pos hblank]
        exact ⟨_, rfl, join_singleton _⟩
      · rw [if_neg hblank, if_neg hblank]
        exact ⟨_, rfl, join_singleton _⟩
    case h_4 hn | h_5 hn =>
      rw [hn]
      exact ⟨_, rfl, join_singleton _⟩
    case h_6 hn | h_7 hn | h_8 hn =>
      rw [hn]
      exact ⟨[], rfl, rfl⟩
    case h_9 htext hcode hlink hline hsoft himage hreference hnote =>
      refine ⟨[.str (wordings definitions (listed token))], ?_, join_singleton _⟩
      have hother : (nameOf token).getD "" ∉ ["text", "codespan", "link_reference", "linebreak",
          "softbreak", "image", "image_reference", "footnote_ref"] := by
        cases hn : nameOf token <;> simp_all
      simp only [List.mem_cons, List.not_mem_nil, or_false, not_or] at hother
      simp only [hbelow, hjoin, bind, Except.bind, Value.isText, beq_iff_eq, Bool.or_eq_true,
        hother, or_self, if_false]
      rfl
termination_by sizeOf token

end

end PlainText

end Typeset.Token
