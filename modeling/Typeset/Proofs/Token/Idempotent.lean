import Typeset.Proofs.Token.Below
import Typeset.Proofs.Token.SourceForm

/-! A tree that has been searched for references is left as it is by a second search. The text that
a reference cuts off is read as it was read in front of the reference, no two texts come to stand
next to each other, and nothing below a reference is searched. -/

namespace Typeset.Token

open Failure

variable {known : List String} {image : Bool} {cs tail source held after : List Char}
  {s w : String} {r : Reference} {ms ps : List Piece} {token t u out : Value}
  {items merged us : List Value} {parts : List (List Value)}

section Slice

/-- What has the form of a reference in front of a text that opens a group has this form without
that text, unless it takes up some of it. -/
theorem named?_slice (hcs : cs ≠ []) (hopens : Opens tail)
    (hhead : tail.head? ≠ some '(' ∧ tail.head? ≠ some ':')
    (hwithin : ∀ found ∈ named? known image (cs ++ tail), tail.length ≤ found.2.length) :
    named? known image (cs ++ tail) =
      (named? known image cs).map fun found => (found.1, found.2 ++ tail) := by
  apply named?_append hcs hopens hhead
  rintro first rfl hlabel
  by_contra hpair
  obtain ⟨⟨second, rest⟩, hsecond⟩ := Option.ne_none_iff_exists'.mp hpair
  obtain ⟨hs, rfl⟩ := unmarked?_eq_some_iff.mp hsecond
  have hlength := hwithin _ (named?_pair hlabel hs)
  simp [group] at hlength
  omega

theorem reference?_slice (known : List String) (hcs : cs ≠ []) (hopens : Opens tail)
    (hhead : tail.head? ≠ some '(' ∧ tail.head? ≠ some ':')
    (hwithin : ∀ found ∈ reference? known (cs ++ tail), tail.length ≤ found.2.length) :
    reference? known (cs ++ tail) =
      (reference? known cs).map fun found => (found.1, found.2 ++ tail) := by
  obtain ⟨c, body, rfl⟩ := List.exists_cons_of_ne_nil hcs
  by_cases hc : c = '!'
  · subst hc
    rw [List.cons_append, reference?_bang] at hwithin ⊢
    rw [reference?_bang]
    by_cases hbody : body = []
    · subst hbody
      -- An exclamation mark alone would only be read together with the group behind it.
      rw [List.nil_append] at hwithin ⊢
      have hnone : named? known true tail = none := by
        by_contra hsome
        obtain ⟨⟨found, after⟩, hfound⟩ := Option.ne_none_iff_exists'.mp hsome
        obtain ⟨inner, more, rfl⟩ := exists_of_named? hfound
        have hlength := hwithin _ hfound
        simp [group] at hlength
        omega
      rw [hnone]
      rfl
    · exact named?_slice hbody hopens hhead hwithin
  · rw [List.cons_append, reference?_of_ne hc] at hwithin ⊢
    rw [reference?_of_ne hc]
    exact named?_slice hcs hopens hhead hwithin

theorem opens_of_reference? (h : reference? known tail = some (some r, after)) :
    Opens tail ∧ tail.head? ≠ some '(' ∧ tail.head? ≠ some ':' := by
  obtain ⟨body, rfl, hbody⟩ | h := named?_of_reference? h
  · obtain ⟨inner, more, rfl⟩ := exists_of_named? hbody
    have hapart : Apart known [] ('!' :: (group inner ++ (more ++ after))) := apart_bang
    exact ⟨hapart.opens, by simp⟩
  · obtain ⟨inner, more, rfl⟩ := exists_of_named? h
    exact ⟨opens_group _ _, by simp [group]⟩

/-- Text that was read in front of a reference is read in the same way without it. -/
theorem pieces_slice (htail : reference? known tail = some (some r, after))
    (hpieces : pieces known (spelled ms ++ tail) = ms ++ pieces known tail)
    (hplain : targets ms = []) : pieces known (spelled ms) = ms := by
  obtain ⟨hopens, hhead⟩ := opens_of_reference? htail
  induction ms with
  | nil => exact pieces_nil
  | cons m ms ih =>
    cases m with
    | reference target => cases hplain
    | plain source =>
      rw [spelled, List.append_assoc, List.cons_append] at hpieces
      have hne : source ++ spelled ms ≠ [] := by
        intro hnil
        rw [← List.append_assoc, hnil, List.nil_append, pieces_of_some htail] at hpieces
        cases hpieces
      have hslice := reference?_slice known hne hopens hhead
      rw [List.append_assoc] at hslice
      cases hread : reference? known (source ++ (spelled ms ++ tail)) with
      | none =>
        obtain ⟨c, body, hcs⟩ := List.exists_cons_of_ne_nil hne
        have hwhole : source ++ (spelled ms ++ tail) = c :: (body ++ tail) := by
          rw [← List.append_assoc, hcs, List.cons_append]
        have hstep := hread
        rw [hwhole] at hpieces hstep
        rw [pieces_of_none hstep] at hpieces
        obtain ⟨hpiece, hmore⟩ := List.cons.inj hpieces
        cases hpiece
        obtain rfl : spelled ms = body := (List.cons.inj hcs).2
        rw [hread] at hslice
        have hnone := Option.map_eq_none_iff.mp (hslice (by simp)).symm
        rw [List.singleton_append] at hnone
        rw [spelled, List.singleton_append, pieces_of_none hnone, ih hmore hplain]
      | some found =>
        obtain ⟨found, rest⟩ := found
        cases found with
        | some r' =>
          rw [pieces_of_some hread] at hpieces
          cases hpieces
        | none =>
          obtain ⟨source', -, hsource⟩ := exists_of_reference? hread
          have hpassed := hread
          rw [hsource] at hpassed hpieces
          rw [pieces_of_passed hpassed] at hpieces
          obtain ⟨hpiece, hmore⟩ := List.cons.inj hpieces
          cases hpiece
          obtain rfl := List.append_cancel_left hsource
          rw [hread] at hslice
          have hsame := hslice (by simp)
          obtain ⟨⟨found, rest⟩, hself, heq⟩ := Option.map_eq_some_iff.mp hsame.symm
          obtain ⟨rfl, hrest⟩ := Prod.mk.inj heq
          obtain rfl := List.append_cancel_right hrest
          rw [spelled, pieces_of_passed hself, ih hmore hplain]

theorem spelled_append (ps qs : List Piece) : spelled (ps ++ qs) = spelled ps ++ spelled qs := by
  induction ps with
  | nil => rfl
  | cons p ps ih =>
    cases p with
    | plain source => rw [List.cons_append, spelled, spelled, ih, List.append_assoc]
    | reference target => exact ih

theorem eq_of_mem_textRun (h : text s ∈ textRun held) : s.toList = held := by
  rw [textRun] at h
  split at h
  · cases h
  · cases List.mem_singleton.mp h
    exact String.toList_ofList

theorem spelled_plain (ms : List Piece) (source : List Char) :
    spelled (ms ++ [.plain source]) = spelled ms ++ source := by
  rw [spelled_append, spelled, spelled, List.append_nil]

theorem targets_plain (ms : List Piece) (source : List Char) :
    targets (ms ++ [.plain source]) = targets ms := by
  rw [targets_append, targets, targets, List.append_nil]

/-- A piece of text in front of the rest joins the pieces before it. -/
theorem pieces_hold (hread : pieces known (source ++ after) = .plain source :: pieces known after)
    (hpieces : pieces known (spelled ms ++ (source ++ after)) =
      ms ++ pieces known (source ++ after)) :
    pieces known (spelled (ms ++ [.plain source]) ++ after) =
      ms ++ [.plain source] ++ pieces known after := by
  rw [spelled_plain, List.append_assoc, hpieces, hread, List.append_assoc, List.singleton_append]

/-- Text that is left between references is not read in another way on its own. -/
theorem plain_of_mem_assemble (hpieces : pieces known (spelled ms ++ cs) = ms ++ pieces known cs)
    (hplain : targets ms = []) (h : text s ∈ assemble (spelled ms) (pieces known cs)) :
    targets (pieces known s.toList) = [] := by
  induction cs using pieces.induct known generalizing ms with
  | case1 =>
    rw [pieces_nil] at h hpieces
    rw [List.append_nil, List.append_nil] at hpieces
    rw [eq_of_mem_textRun h, hpieces, hplain]
  | case2 c rest r after hr ih =>
    rw [pieces_of_some hr, assemble] at h
    rcases List.mem_append.mp h with h | h
    · rw [eq_of_mem_textRun h, pieces_slice hr hpieces hplain, hplain]
    · rcases List.mem_cons.mp h with h | h
      · have htext := isTextRun_token r
        rw [← h] at htext
        cases htext
      · have hnone : pieces known (spelled [] ++ after) = [] ++ pieces known after := rfl
        exact ih hnone rfl h
  | case3 c rest after hr ih =>
    obtain ⟨source, -, hsource⟩ := exists_of_reference? hr
    rw [hsource] at hr hpieces h
    have hread := pieces_of_passed hr
    rw [hread, assemble, ← spelled_plain] at h
    exact ih (pieces_hold hread hpieces) (by rwa [targets_plain]) h
  | case4 c rest hr ih =>
    have hread : pieces known ([c] ++ rest) = .plain [c] :: pieces known rest :=
      pieces_of_none hr
    rw [pieces_of_none hr, assemble, ← spelled_plain] at h
    exact ih (pieces_hold hread hpieces) (by rwa [targets_plain]) h

/-- The text that a run of text comes to comes to itself. -/
theorem splitReferences_slice (h : text w ∈ splitReferences known s) :
    splitReferences known w = [text w] := by
  rcases splitReferences_cases known s with hs | ⟨-, hs⟩
  · have hnone : pieces known (spelled [] ++ s.toList) = [] ++ pieces known s.toList := rfl
    rw [hs] at h
    exact splitReferences_of_plain (plain_of_mem_assemble hnone rfl h)
  · rw [hs] at h
    cases List.mem_singleton.mp h
    exact hs

end Slice

section Merge

/-- Joined tokens have no text next to text. -/
theorem spaced_of_mergeText {tokens : List Value} (h : mergeText tokens = .ok merged) :
    Spaced merged := by
  induction tokens generalizing merged with
  | nil =>
    cases h
    exact .nil
  | cons t tokens ih =>
    obtain ⟨ms, hms, hjoin⟩ := exists_of_mergeText h
    have hspaced := ih hms
    rcases joinOnto_cases hjoin with ⟨-, u, more, first, second, rfl, hu, -, -, rfl⟩ | ⟨hother, rfl⟩
    · obtain ⟨hnext, hmore⟩ := List.isChain_cons.mp hspaced
      exact List.isChain_cons.mpr ⟨fun v hv _ => hnext v hv hu, hmore⟩
    · exact List.isChain_cons.mpr ⟨fun u hu ht => hother ht u hu, hspaced⟩

/-- Where no text stands next to text nothing is joined. -/
theorem mergeText_of_spaced {tokens : List Value} (h : Spaced tokens)
    (hobject : ∀ t ∈ tokens, ∃ fields, t = .object fields) : mergeText tokens = .ok tokens := by
  induction tokens with
  | nil => rfl
  | cons t tokens ih =>
    obtain ⟨⟨fields, rfl⟩, hmore⟩ := List.forall_mem_cons.mp hobject
    obtain ⟨hnext, htail⟩ := List.isChain_cons.mp h
    rw [mergeText_object, ih htail hmore]
    exact joinOnto_of_other fun ht u hu => hnext u hu ht

end Merge

section Below

theorem splitReferences_ne_nil (known : List String) (s : String) :
    splitReferences known s ≠ [] := by
  rw [splitReferences]
  split
  · exact List.cons_ne_nil _ _
  next hne => exact hne

theorem ne_nil_of_splitRun {part : List Value} (h : splitRun known t = .ok part) : part ≠ [] := by
  rcases splitRun_cases h with ⟨-, rfl⟩ | ⟨-, s, -, rfl⟩
  · exact List.cons_ne_nil t []
  · exact splitReferences_ne_nil known s

theorem ne_nil_of_below (h : below known items = .ok us) (hne : items ≠ []) : us ≠ [] := by
  obtain ⟨each, merged, parts, heach, hmerged, hparts, rfl⟩ := exists_of_below h
  have heach : each ≠ [] := by
    rintro rfl
    cases heach
    exact hne rfl
  obtain ⟨m, ms, rfl⟩ := List.exists_cons_of_ne_nil (mergeText_ne_nil hmerged heach)
  obtain ⟨part, parts, hm, -, rfl⟩ := List.forall₂_cons_left_iff.mp (forall₂_of_mapM hparts)
  intro hnil
  exact ne_nil_of_splitRun hm (List.append_eq_nil_iff.mp hnil).1

/-- Where no text stands next to text, none does after the texts have been split. -/
theorem spaced_flatten (h : List.Forall₂ (fun m part => splitRun known m = .ok part) merged parts)
    (hspaced : Spaced merged) : Spaced parts.flatten := by
  induction h with
  | nil => exact .nil
  | @cons m part merged parts hm hrest ih =>
    obtain ⟨hnext, hmore⟩ := List.isChain_cons.mp hspaced
    rw [List.flatten_cons]
    rcases splitRun_cases hm with ⟨htext, rfl⟩ | ⟨htext, s, -, rfl⟩
    · refine List.isChain_cons.mpr ⟨fun u _ hm => ?_, ih hmore⟩
      rw [htext] at hm
      cases hm
    · refine List.isChain_append.mpr ⟨spaced_splitReferences known s, ih hmore, ?_⟩
      intro x _ y hy _
      -- The next token is no text, and it comes to itself.
      cases hrest with
      | nil => cases hy
      | @cons m' part' _ _ hm' _ =>
        have hother := hnext m' rfl htext
        rcases splitRun_cases hm' with ⟨-, rfl⟩ | ⟨htext', -⟩
        · cases hy
          exact hother
        · rw [hother] at htext'
          cases htext'

theorem spaced_of_below (h : below known items = .ok us) : Spaced us := by
  obtain ⟨each, merged, parts, -, hmerged, hparts, rfl⟩ := exists_of_below h
  exact spaced_flatten (forall₂_of_mapM hparts) (spaced_of_mergeText hmerged)

/-- A token that a search leaves as it is: a text without references, or a token below which none
are left. -/
inductive Still (known : List String) : Value → Prop
  | text {w : String} (h : splitReferences known w = [text w]) : Still known (text w)
  | other {u : Value} (htext : isTextRun u = false) (h : resolve known u = .ok u) : Still known u

theorem resolved_of_other (htext : isTextRun t = false) (h : resolve known t = .ok u) :
    Resolved known t u := by
  rw [Resolved, if_neg (by simp [htext])]
  exact h

theorem Still.resolved (h : Still known u) : Resolved known u u := by
  cases h with
  | text => exact resolved_text known _
  | other htext hres => exact resolved_of_other htext hres

theorem Still.splitRun (h : Still known u) : splitRun known u = .ok [u] := by
  cases h with
  | text hsplit => exact congrArg Except.ok hsplit
  | other htext => rw [Token.splitRun, if_neg (by simp [htext])]

theorem still_of_resolve (htext : isTextRun t = false) (hres : resolve known t = .ok u)
    (h : resolve known u = .ok u) : Still known u :=
  .other ((resolved_of_other htext hres).isTextRun.trans htext) h

/-- The token of a reference is not searched, or has nothing below it. -/
theorem resolve_token (known : List String) (r : Reference) :
    resolve known r.token = .ok r.token := by
  rcases r with _ | ⟨_ | _, _, _, _⟩ <;> rw [resolve] <;> rfl

theorem still_of_mem_splitReferences (h : u ∈ splitReferences known s) : Still known u := by
  rcases mem_splitReferences h with ⟨w, rfl⟩ | ⟨r, -, rfl⟩
  · exact .text (splitReferences_slice h)
  · exact .other (isTextRun_token r) (resolve_token known r)

/-- Tokens that a search leaves as they are stay as they are together if no text stands next to
text. -/
theorem below_of_still (hspaced : Spaced us) (h : ∀ u ∈ us, Still known u) :
    below known us = .ok us := by
  have heach : List.Forall₂ (Resolved known) us us :=
    List.forall₂_same.mpr fun u hu => (h u hu).resolved
  have hmerged : mergeText us = .ok us :=
    mergeText_of_spaced hspaced fun u hu => (h u hu).resolved.alike.object
  have hparts : us.mapM (Token.splitRun known) = .ok (us.map fun u => [u]) := by
    apply mapM_of_forall₂
    rw [List.forall₂_map_right_iff]
    exact List.forall₂_same.mpr fun u hu => (h u hu).splitRun
  have hall := below_of_parts heach hmerged hparts
  rwa [← List.flatMap_def, List.flatMap_singleton'] at hall

end Below

section Resolve

theorem Rebuilt.exists_below (h : Rebuilt known items token out) :
    ∃ us, below known items = .ok us ∧ out = withChildren us token := by
  obtain ⟨heach, hmerged, hparts⟩ := h
  exact ⟨_, below_of_parts heach hmerged hparts, rfl⟩

theorem presentChildren_withChildren (children : List Value) (fields : Fields) :
    presentChildren (withChildren children (.object fields)) = .ok children := by
  have hlookup : (Value.setField "children" (.list children) fields).lookup "children" =
      some (.list children) := Value.lookup_setField _ _ _
  rw [withChildren, presentChildren, Value.field_object, Value.children, Value.childrenAs, hlookup]
  cases children <;> rfl

theorem searched_withChildren (hs : searched token = .ok items) (hne : items ≠ [])
    (children : List Value) : searched (withChildren children token) = .ok children := by
  obtain ⟨fields, rfl⟩ := object_of_searched hs
  obtain ⟨kind, hkind, hs⟩ := exists_of_bind hs
  obtain ⟨key, hkey, hs⟩ := exists_of_bind hs
  rw [← field_withChildren (by decide) children] at hkind
  rw [searched_of_key hkind hkey]
  split at hs
  · cases hs
    exact absurd rfl hne
  next hopen =>
    rw [if_neg hopen]
    exact presentChildren_withChildren children fields

theorem withChildren_withChildren (us children : List Value) (token : Value) :
    withChildren us (withChildren children token) = withChildren us token := by
  cases token with
  | object fields =>
    rw [withChildren, withChildren, withChildren, Value.setField_setField]
  | _ => rfl

/-- What a search has come to is left as it is by a second search. -/
theorem resolve_of_resolved (known : List String) (token : Value) {out : Value}
    (h : resolve known token = .ok out) : resolve known out = .ok out := by
  obtain ⟨items, hs, ⟨-, hout⟩ | ⟨hne, hbuilt⟩⟩ := resolve_cases h
  · rwa [hout] at h ⊢
  · obtain ⟨us, hbelow, hout⟩ := hbuilt.exists_below
    have hstill : ∀ u ∈ us, Still known u := by
      intro u hu
      rcases mem_of_below hbelow hu with ⟨t, ht, htext, hres⟩ | ⟨s, hu⟩
      · have hsize := sizeOf_searched_lt hs ht
        exact still_of_resolve htext hres (resolve_of_resolved known t hres)
      · exact still_of_mem_splitReferences hu
    have hagain := resolve_of_below (searched_withChildren hs hne us) (ne_nil_of_below hbelow hne)
      (below_of_still (spaced_of_below hbelow) hstill)
    rw [hout]
    rwa [withChildren_withChildren] at hagain
termination_by sizeOf token

/-- To search a tree a second time changes nothing; and a plain tree can always be searched. -/
theorem resolve_idempotent (known : List String) (token : Value) :
    (resolve known token >>= resolve known) = resolve known token ∧
      (Tree Plain token →
        ∃ out, resolve known token = .ok out ∧ resolve known out = .ok out) := by
  refine ⟨?_, fun htree => ?_⟩
  · cases h : resolve known token with
    | error f => rfl
    | ok out => exact resolve_of_resolved known token h
  · obtain ⟨out, hout, -⟩ := resolve_gives known token htree
    exact ⟨out, hout, resolve_of_resolved known token hout⟩

/-- Texts that meet with brackets, with references inside and beside emphasis. -/
theorem resolve_idempotent_nested :
    ∃ out, resolve ["c"] (branch "paragraph" [text "[][ ][c](d) [c", text "][e] ![^", text "n](",
        branch "emphasis" [text "[c]!", text "[c]"], text "[c]"]) = .ok out ∧
      resolve ["c"] out = .ok out := by
  refine (resolve_idempotent ["c"] _).2 (tree_branch rfl ?_)
  have hemphasis : Tree Plain (branch "emphasis" [text "[c]!", text "[c]"]) :=
    tree_branch rfl (by simp [tree_text])
  simp [tree_text, hemphasis]

end Resolve

end Typeset.Token
