import Typeset.Proofs.Token.Canonical
import Typeset.Proofs.Token.Run

/-! What the tokens below one come to. Two parts of them come to their results by themselves, unless
text meets text where one part ends and the other begins. -/

namespace Typeset.Token

open Failure

variable {known : List String} {token t u : Value} {xs ys as bs items each out : List Value}

/-- What tokens that stand below one come to in the search for references. -/
def below (known : List String) (items : List Value) : Except Failure (List Value) := do
  splitRuns known (← resolveEach known items)

/-- No run of text reaches from the end of one list into the other. -/
def Parted (xs ys : List Value) : Prop :=
  (xs.map isTextRun).getLast? = some true → (ys.map isTextRun).head? ≠ some true

section Merge

theorem parted_of_right (h : ∀ t ∈ ys.head?, isTextRun t = false) : Parted xs ys := by
  intro _ hhead
  rw [List.head?_map, Option.map_eq_some_iff] at hhead
  obtain ⟨t, ht, htext⟩ := hhead
  rw [h t ht] at htext
  cases htext

theorem parted_of_left (h : ∀ t ∈ xs.getLast?, isTextRun t = false) : Parted xs ys := by
  intro hlast
  rw [List.getLast?_map, Option.map_eq_some_iff] at hlast
  obtain ⟨t, ht, htext⟩ := hlast
  rw [h t ht] at htext
  cases htext

theorem joinOnto_append (hne : xs ≠ []) (h : joinOnto t xs = .ok as) (ys : List Value) :
    joinOnto t (xs ++ ys) = .ok (as ++ ys) := by
  obtain ⟨x, xs, rfl⟩ := List.exists_cons_of_ne_nil hne
  by_cases hjoin : isTextRun t = true ∧ isTextRun x = true
  · obtain ⟨ht, hx⟩ := hjoin
    rw [joinOnto_of_text ht hx] at h
    rw [List.cons_append, joinOnto_of_text ht hx]
    obtain ⟨first, hfirst, h⟩ := exists_of_bind h
    obtain ⟨second, hsecond, h⟩ := exists_of_bind h
    cases h
    rw [hfirst, hsecond]
    rfl
  · have hother (rest : List Value) : joinOnto t (x :: rest) = .ok (t :: x :: rest) := by
      refine joinOnto_of_other fun ht u hu => ?_
      cases hu
      simpa [ht] using hjoin
    rw [hother] at h
    cases h
    exact hother _

theorem joinOnto_ne_nil (h : joinOnto t xs = .ok as) : as ≠ [] := by
  rcases joinOnto_cases h with ⟨-, u, more, first, second, -, -, -, -, rfl⟩ | ⟨-, rfl⟩
  · exact List.cons_ne_nil _ _
  · exact List.cons_ne_nil _ _

theorem mergeText_ne_nil (h : mergeText xs = .ok as) (hne : xs ≠ []) : as ≠ [] := by
  obtain ⟨x, xs, rfl⟩ := List.exists_cons_of_ne_nil hne
  obtain ⟨ms, -, hjoin⟩ := exists_of_mergeText h
  exact joinOnto_ne_nil hjoin

/-- Joined or not, the first token is text or not as it was. -/
theorem head_mergeText (h : mergeText xs = .ok as) :
    (as.map isTextRun).head? = (xs.map isTextRun).head? := by
  cases xs with
  | nil =>
    cases h
    rfl
  | cons x xs =>
    obtain ⟨ms, -, hjoin⟩ := exists_of_mergeText h
    rcases joinOnto_cases hjoin with ⟨hx, u, more, first, second, -, -, -, -, rfl⟩ | ⟨-, rfl⟩
    · exact congrArg some hx.symm
    · rfl

theorem mergeText_append (h : Parted xs ys) (hx : mergeText xs = .ok as)
    (hy : mergeText ys = .ok bs) : mergeText (xs ++ ys) = .ok (as ++ bs) := by
  induction xs generalizing as with
  | nil =>
    cases hx
    exact hy
  | cons x xs ih =>
    obtain ⟨ms, hms, hjoin⟩ := exists_of_mergeText hx
    obtain ⟨fields, rfl⟩ : ∃ fields, x = .object fields := by
      cases x with
      | object fields => exact ⟨fields, rfl⟩
      | _ => cases hx
    rw [List.cons_append, mergeText_object]
    by_cases hne : xs = []
    · subst hne
      cases hms
      rw [joinOnto_of_other (by simp)] at hjoin
      cases hjoin
      rw [List.nil_append, hy]
      refine joinOnto_of_other fun htext u hu => ?_
      have hhead := h (by rw [List.map_singleton, htext]; rfl)
      rw [← head_mergeText hy, List.head?_map, hu] at hhead
      simpa using hhead
    · have hrest : Parted xs ys := by
        intro hlast
        apply h
        rw [List.map_cons, List.getLast?_cons, hlast]
        rfl
      rw [ih hrest hms]
      exact joinOnto_append (mergeText_ne_nil hms hne) hjoin bs

/-- Text after text is one text. -/
theorem mergeText_texts {ss : List String} (h : ss ≠ []) :
    mergeText (ss.map text) = .ok [text (String.ofList (ss.flatMap String.toList))] := by
  induction ss with
  | nil => exact absurd rfl h
  | cons s ss ih =>
    have hjoin (us : List Value) : mergeText (text s :: us) = mergeText us >>= joinOnto (text s) :=
      rfl
    by_cases hne : ss = []
    · subst hne
      rw [List.map_singleton, List.flatMap_singleton, String.ofList_toList]
      rfl
    · rw [List.map_cons, hjoin, ih hne, List.flatMap_cons, String.ofList_append,
        String.ofList_toList]
      rfl

end Merge

section Below

theorem resolveEach_eq_ok_iff :
    resolveEach known items = .ok each ↔ List.Forall₂ (Resolved known) items each := by
  refine ⟨resolveEach_forall₂, fun h => ?_⟩
  induction h with
  | nil => rw [resolveEach]
  | @cons t u items each ht _ ih =>
    rw [resolveEach, ih]
    by_cases htext : isTextRun t = true
    · rw [if_pos htext, ht.of_text htext]
      rfl
    · rw [if_neg htext, ht.of_other (by simpa using htext)]
      rfl

theorem map_isTextRun_of_resolved (h : List.Forall₂ (Resolved known) items each) :
    each.map isTextRun = items.map isTextRun := by
  induction h with
  | nil => rfl
  | cons ht _ ih => rw [List.map_cons, List.map_cons, ht.isTextRun, ih]

theorem below_nil : below known [] = .ok [] := by
  rw [below, resolveEach]
  rfl

theorem exists_of_below (h : below known items = .ok out) :
    ∃ each merged parts, List.Forall₂ (Resolved known) items each ∧ mergeText each = .ok merged ∧
      merged.mapM (splitRun known) = .ok parts ∧ out = parts.flatten := by
  obtain ⟨each, heach, h⟩ := exists_of_bind h
  obtain ⟨merged, hmerged, h⟩ := exists_of_bind h
  obtain ⟨parts, hparts, h⟩ := exists_of_bind h
  cases h
  exact ⟨each, merged, parts, resolveEach_eq_ok_iff.mp heach, hmerged, hparts, rfl⟩

theorem below_of_parts {merged : List Value} {parts : List (List Value)}
    (heach : List.Forall₂ (Resolved known) items each) (hmerged : mergeText each = .ok merged)
    (hparts : merged.mapM (splitRun known) = .ok parts) :
    below known items = .ok parts.flatten := by
  rw [below, resolveEach_eq_ok_iff.mpr heach]
  change splitRuns known each = _
  rw [splitRuns, hmerged]
  change (merged.mapM (splitRun known) >>= _) = _
  rw [hparts]
  rfl

theorem below_gives (known : List String) (h : ∀ t ∈ items, Tree Plain t) :
    Gives (fun _ => True) (below known items) :=
  (resolveEach_gives known items h).bind fun _ heach => splitRuns_gives known heach

theorem below_append (h : Parted xs ys) (hx : below known xs = .ok as)
    (hy : below known ys = .ok bs) : below known (xs ++ ys) = .ok (as ++ bs) := by
  obtain ⟨eachx, mergedx, partsx, heachx, hmergedx, hpartsx, rfl⟩ := exists_of_below hx
  obtain ⟨eachy, mergedy, partsy, heachy, hmergedy, hpartsy, rfl⟩ := exists_of_below hy
  have hparted : Parted eachx eachy := by
    rw [Parted, map_isTextRun_of_resolved heachx, map_isTextRun_of_resolved heachy]
    exact h
  rw [← List.flatten_append]
  refine below_of_parts (List.rel_append heachx heachy)
    (mergeText_append hparted hmergedx hmergedy) ?_
  rw [List.mapM_append, hpartsx, hpartsy]
  rfl

/-- A token comes to itself with what the tokens below it come to. -/
theorem resolve_of_below (hs : searched token = .ok items) (hne : items ≠ [])
    (h : below known items = .ok out) : resolve known token = .ok (withChildren out token) := by
  obtain ⟨kind, hkind, hs⟩ := exists_of_bind hs
  obtain ⟨key, hkey, hs⟩ := exists_of_bind hs
  obtain ⟨each, heach, hruns⟩ := exists_of_bind h
  split at hs
  · cases hs
    exact absurd rfl hne
  next hopen =>
    obtain ⟨children, hchildren, hpresent⟩ := exists_of_bind hs
    have htruthy : children.truthy = true := by
      by_contra hfalsy
      rw [if_neg hfalsy] at hpresent
      cases hpresent
      exact hne rfl
    rw [resolve]
    extract_lets rebuilt
    have hrebuilt : rebuilt () = .ok (withChildren out token) := by
      subst rebuilt
      dsimp only
      split
      next f hf => cases hs.symm.trans hf
      next items' hitems =>
        cases hs.symm.trans hitems
        rw [hchildren]
        change (if children.truthy = true then _ else _) = _
        rw [if_pos htruthy, heach]
        change (splitRuns known each >>= _) = _
        rw [hruns]
        rfl
    rw [hkind]
    change (kindKey kind >>= _) = _
    rw [hkey]
    cases key with
    | none => exact hrebuilt
    | some name =>
      change (if isOpaque name = true then _ else _) = _
      rw [Option.any_some] at hopen
      rw [if_neg hopen]
      exact hrebuilt

theorem resolved_text (known : List String) (s : String) :
    Resolved known (text s) (text s) := by
  rw [Resolved, if_pos (show isTextRun (text s) = true from rfl)]

theorem below_texts {ss : List String} (h : ss ≠ []) :
    below known (ss.map text) =
      .ok (splitReferences known (String.ofList (ss.flatMap String.toList))) := by
  have heach : List.Forall₂ (Resolved known) (ss.map text) (ss.map text) :=
    List.forall₂_same.mpr fun t ht => by
      obtain ⟨s, -, rfl⟩ := List.mem_map.mp ht
      exact resolved_text known s
  rw [below_of_parts heach (mergeText_texts h) rfl]
  exact congrArg Except.ok (List.append_nil _)

/-- Below a token stand the tokens that were searched by themselves, and what runs of text came
to. -/
theorem mem_of_below (h : below known items = .ok out) (hu : u ∈ out) :
    (∃ t ∈ items, isTextRun t = false ∧ resolve known t = .ok u) ∨
      ∃ s, u ∈ splitReferences known s := by
  obtain ⟨each, merged, parts, heach, hmerged, hparts, rfl⟩ := exists_of_below h
  obtain ⟨part, hpart, hu⟩ := List.mem_flatten.mp hu
  obtain ⟨m, hm, hsplit⟩ := exists_of_mem_right (forall₂_of_mapM hparts) hpart
  rcases splitRun_cases hsplit with ⟨htext, rfl⟩ | ⟨-, s, -, rfl⟩
  · obtain rfl := List.mem_singleton.mp hu
    obtain ⟨t, ht, hres⟩ := exists_of_mem_right heach ((mem_of_mergeText hmerged htext).mp hm)
    have htext' := hres.isTextRun.symm.trans htext
    exact .inl ⟨t, ht, htext', hres.of_other htext'⟩
  · exact .inr ⟨s, hu⟩

end Below

end Typeset.Token
