import Typeset.Proofs.Lists
import Typeset.Proofs.Token.Normal

/-! The runs of text of a token tree, and what the search for references makes of the tree: each run
gives way to its text and references, and everything else stays as it is. -/

namespace Typeset.Token

open Failure

variable {known : List String} {token t u out : Value} {tokens items each merged : List Value}
  {s : String}

/-- The tokens below a token that is searched for references; an opaque token is not. -/
def searched (token : Value) : Except Failure (List Value) := do
  let key ← kindKey (← token.field "type" .null)
  if key.any isOpaque then return [] else presentChildren token

/-- A run of text among tokens: neighbouring text, joined. -/
def Joined (items : List Value) (s : String) : Prop :=
  ∃ merged t, mergeText items = .ok merged ∧ t ∈ merged ∧ isTextRun t = true ∧ runText t = .ok s

/-- A run of text in a token tree, at a place that is searched. -/
inductive Run : Value → String → Prop
  | own {token : Value} {items : List Value} {s : String} (hs : searched token = .ok items)
    (hr : Joined items s) : Run token s
  | deeper {token t : Value} {items : List Value} {s : String} (hs : searched token = .ok items)
    (ht : t ∈ items) (htext : isTextRun t = false) (hr : Run t s) : Run token s

section Field

theorem field_withChildren {key : String} (h : key ≠ "children") (children : List Value)
    (token : Value) (default : Value) :
    (withChildren children token).field key default = token.field key default := by
  cases token with
  | object fields =>
    rw [withChildren, Value.field_object, Value.field_object, Value.lookup_setField_of_ne h]
  | _ => rfl

theorem isTextRun_withChildren (children : List Value) (token : Value) :
    isTextRun (withChildren children token) = isTextRun token := by
  cases token with
  | object fields =>
    rw [withChildren, isTextRun, isTextRun, Value.lookup_setField_of_ne (by decide)]
  | _ => rfl

theorem isChild_withChildren (children : List Value) (fields : List (String × Value)) :
    (withChildren children (.object fields)).IsChild t ↔ t ∈ children := by
  have hlookup : (Value.setField "children" (.list children) fields).lookup "children" =
      some (.list children) := Value.lookup_setField _ _ _
  constructor
  · rintro ⟨fields', items, hfields, hitems, hmem⟩
    cases hfields
    cases hlookup.symm.trans hitems
    exact hmem
  · intro hmem
    exact ⟨_, children, rfl, hlookup, hmem⟩

end Field

section Merge

/-- Two tokens are alike if both are the same text, or neither is text. -/
structure Alike (t u : Value) : Prop where
  object : ∃ fields, t = .object fields
  text : isTextRun t = isTextRun u
  same : isTextRun t = true → t = u

theorem Alike.rfl (h : ∃ fields, t = .object fields) : Alike t t :=
  ⟨h, Eq.refl _, fun _ => Eq.refl _⟩

theorem joinOnto_of_text (ht : isTextRun t = true) (hu : isTextRun u = true) :
    joinOnto t (u :: tokens) = (do
      let first ← runText t
      let second ← runText u
      .ok (Token.text (first ++ second) :: tokens)) := by
  rw [joinOnto, if_pos ht, if_pos hu]
  rfl

theorem joinOnto_of_other (h : isTextRun t = true → ∀ u ∈ tokens.head?, isTextRun u = false) :
    joinOnto t tokens = .ok (t :: tokens) := by
  unfold joinOnto
  split
  next ht =>
    cases tokens with
    | nil => rfl
    | cons u tokens =>
      dsimp only
      rw [h ht u rfl]
      rfl
  next => rfl

/-- A token is joined with a text behind it if both are text, and else stands in front of the
rest. -/
theorem joinOnto_cases (h : joinOnto t tokens = .ok merged) :
    (isTextRun t = true ∧ ∃ u more first second, tokens = u :: more ∧ isTextRun u = true ∧
      runText t = .ok first ∧ runText u = .ok second ∧
        merged = Token.text (first ++ second) :: more) ∨
      (isTextRun t = true → ∀ u ∈ tokens.head?, isTextRun u = false) ∧ merged = t :: tokens := by
  by_cases hjoin : isTextRun t = true ∧ ∃ u ∈ tokens.head?, isTextRun u = true
  · obtain ⟨ht, u, hu, hutext⟩ := hjoin
    obtain ⟨more, rfl⟩ : ∃ more, tokens = u :: more := List.head?_eq_some_iff.mp hu
    rw [joinOnto_of_text ht hutext] at h
    obtain ⟨first, hfirst, h⟩ := exists_of_bind h
    obtain ⟨second, hsecond, h⟩ := exists_of_bind h
    cases h
    exact .inl ⟨ht, u, more, first, second, rfl, hutext, hfirst, hsecond, rfl⟩
  · have hother : isTextRun t = true → ∀ u ∈ tokens.head?, isTextRun u = false := by
      intro ht u hu
      simpa using fun hutext => hjoin ⟨ht, u, hu, hutext⟩
    rw [joinOnto_of_other hother] at h
    cases h
    exact .inr ⟨hother, rfl⟩

theorem joinOnto_alike {ts us ms : List Value} (h : Alike t u) (hs : List.Forall₂ Alike ts us)
    (hm : joinOnto u us = .ok ms) :
    ∃ ns, joinOnto t ts = .ok ns ∧ List.Forall₂ Alike ns ms := by
  by_cases hjoin : isTextRun u = true ∧ ∃ n ∈ us.head?, isTextRun n = true
  · obtain ⟨hu, n, hn, hntext⟩ := hjoin
    obtain ⟨us, rfl⟩ : ∃ more, us = n :: more := List.head?_eq_some_iff.mp hn
    obtain ⟨n', ts, hn', hmore, rfl⟩ := List.forall₂_cons_right_iff.mp hs
    obtain rfl := h.same (h.text.trans hu)
    obtain rfl := hn'.same (hn'.text.trans hntext)
    rw [joinOnto_of_text hu hntext] at hm ⊢
    obtain ⟨first, hfirst, hm⟩ := exists_of_bind hm
    obtain ⟨second, hsecond, hm⟩ := exists_of_bind hm
    cases hm
    rw [hfirst, hsecond]
    exact ⟨_, rfl, .cons (.rfl ⟨_, rfl⟩) hmore⟩
  · have hus : isTextRun u = true → ∀ n ∈ us.head?, isTextRun n = false :=
      fun hu n hn => by simpa using fun htext => hjoin ⟨hu, n, hn, htext⟩
    have hts : isTextRun t = true → ∀ n ∈ ts.head?, isTextRun n = false := by
      intro ht n hn
      obtain ⟨ts, rfl⟩ : ∃ more, ts = n :: more := List.head?_eq_some_iff.mp hn
      obtain ⟨n', us, hn', hs, rfl⟩ := List.forall₂_cons_left_iff.mp hs
      rw [hn'.text]
      exact hus (h.text.symm.trans ht) n' rfl
    rw [joinOnto_of_other hus] at hm
    cases hm
    exact ⟨_, joinOnto_of_other hts, .cons h hs⟩

theorem mergeText_object (fields : Fields) (rest : List Value) :
    mergeText (.object fields :: rest) = mergeText rest >>= joinOnto (.object fields) := rfl

theorem exists_of_mergeText (hm : mergeText (t :: tokens) = .ok merged) :
    ∃ ms, mergeText tokens = .ok ms ∧ joinOnto t ms = .ok merged := by
  cases t with
  | object fields =>
    rw [mergeText_object] at hm
    exact exists_of_bind hm
  | _ => cases hm

/-- What is joined does not depend on what the tokens between the text are. -/
theorem mergeText_alike {ts us ms : List Value} (h : List.Forall₂ Alike ts us)
    (hm : mergeText us = .ok ms) :
    ∃ ns, mergeText ts = .ok ns ∧ List.Forall₂ Alike ns ms := by
  induction h generalizing ms with
  | nil => exact ⟨[], rfl, by cases hm; exact .nil⟩
  | @cons t u ts us htu _ ih =>
    obtain ⟨ms, hms, hjoin⟩ := exists_of_mergeText hm
    obtain ⟨ns, hns, hall⟩ := ih hms
    obtain ⟨fields, rfl⟩ := htu.object
    rw [mergeText_object, hns]
    exact joinOnto_alike htu hall hjoin

theorem mem_of_joinOnto (hm : joinOnto u tokens = .ok merged) (htext : isTextRun t = false) :
    t ∈ merged ↔ t ∈ u :: tokens := by
  rcases joinOnto_cases hm with ⟨hu, n, more, first, second, rfl, hn, -, -, rfl⟩ | ⟨-, rfl⟩
  · have hne (v : Value) (hv : isTextRun v = true) : t ≠ v := by
      rintro rfl
      rw [hv] at htext
      cases htext
    have hjoined : isTextRun (Token.text (first ++ second)) = true := rfl
    simp [hne u hu, hne n hn, hne _ hjoined]
  · rfl

/-- Joining text leaves the other tokens as they are. -/
theorem mem_of_mergeText (hm : mergeText tokens = .ok merged) (htext : isTextRun t = false) :
    t ∈ merged ↔ t ∈ tokens := by
  induction tokens generalizing merged with
  | nil => cases hm; rfl
  | cons u tokens ih =>
    obtain ⟨ms, hms, hjoin⟩ := exists_of_mergeText hm
    rw [mem_of_joinOnto hjoin htext, List.mem_cons, List.mem_cons, ih hms]

end Merge

section Resolve

theorem searched_of_key {kind : Value} {key : Option String}
    (hkind : token.field "type" .null = .ok kind) (hkey : kindKey kind = .ok key) :
    searched token = if key.any isOpaque then .ok [] else presentChildren token := by
  rw [searched, hkind]
  change (kindKey kind >>= _) = _
  rw [hkey]
  rfl

theorem object_of_searched (hs : searched token = .ok items) :
    ∃ fields, token = .object fields := by
  cases token with
  | object fields => exact ⟨fields, rfl⟩
  | _ => cases hs

theorem object_of_isTextRun (ht : isTextRun token = true) : ∃ fields, token = .object fields := by
  cases token with
  | object fields => exact ⟨fields, rfl⟩
  | _ => cases ht

theorem presentChildren_of_searched (hs : searched token = .ok items) (ht : t ∈ items) :
    presentChildren token = .ok items := by
  obtain ⟨kind, hkind, hs⟩ := exists_of_bind hs
  obtain ⟨key, hkey, hs⟩ := exists_of_bind hs
  split at hs
  · cases hs
    cases ht
  · exact hs

/-- What the search makes of a token below one that is searched. -/
def Resolved (known : List String) (t u : Value) : Prop :=
  if isTextRun t then u = t else resolve known t = .ok u

theorem resolveEach_forall₂ (h : resolveEach known items = .ok each) :
    List.Forall₂ (Resolved known) items each := by
  induction items generalizing each with
  | nil =>
    rw [resolveEach] at h
    cases h
    exact .nil
  | cons t items ih =>
    have hstep : ∃ u more, Resolved known t u ∧ resolveEach known items = .ok more ∧
        each = u :: more := by
      rw [resolveEach] at h
      unfold Resolved
      split at h
      next ht =>
        change (resolveEach known items >>= _) = _ at h
        obtain ⟨more, hmore, h⟩ := exists_of_bind h
        cases h
        exact ⟨t, more, by rw [if_pos ht], hmore, rfl⟩
      next ht =>
        obtain ⟨u, hu, h⟩ := exists_of_bind h
        obtain ⟨more, hmore, h⟩ := exists_of_bind h
        cases h
        exact ⟨u, more, by rw [if_neg ht]; exact hu, hmore, rfl⟩
    obtain ⟨u, more, hu, hmore, rfl⟩ := hstep
    exact .cons hu (ih hmore)

/-- What is below a token has been searched and joined, and each run has given way to its text and
references. -/
inductive Rebuilt (known : List String) (items : List Value) (token : Value) : Value → Prop
  | intro {each merged : List Value} {parts : List (List Value)}
    (heach : List.Forall₂ (Resolved known) items each) (hmerged : mergeText each = .ok merged)
    (hparts : merged.mapM (splitRun known) = .ok parts) :
    Rebuilt known items token (withChildren parts.flatten token)

/-- Children that count as present are some. -/
theorem ne_nil_of_truthy {children : Value} (hfield : token.field "children" .null = .ok children)
    (ht : children.truthy = true) (hitems : token.children = .ok items) : items ≠ [] := by
  rintro rfl
  cases token with
  | object fields =>
    rw [Value.field_object] at hfield
    rw [Value.children, Value.childrenAs] at hitems
    cases hc : fields.lookup "children" with
    | none =>
      rw [hc] at hfield
      cases hfield
      cases ht
    | some c =>
      rw [hc] at hfield hitems
      cases hfield
      cases c with
      | list items =>
        cases hitems
        cases ht
      | str s => simp_all [Value.tokens, Value.truthy]
      | object fields => simp_all [Value.tokens, Value.truthy]
      | _ => cases hitems
  | _ => cases hfield

/-- A token that has been searched is as it was, or has what its runs of text came to below it. -/
theorem resolve_cases (h : resolve known token = .ok out) :
    ∃ items, searched token = .ok items ∧
      (items = [] ∧ out = token ∨ items ≠ [] ∧ Rebuilt known items token out) := by
  rw [resolve] at h
  obtain ⟨kind, hkind, h⟩ := exists_of_bind h
  obtain ⟨key, hkey, h⟩ := exists_of_bind h
  extract_lets below at h
  have hopen (hbelow : below () = .ok out) :
      ∃ items, presentChildren token = .ok items ∧
        (items = [] ∧ out = token ∨ items ≠ [] ∧ Rebuilt known items token out) := by
    subst below
    dsimp only at hbelow
    split at hbelow
    · cases hbelow
    next items hitems =>
      refine ⟨items, hitems, ?_⟩
      obtain ⟨children, hchildren, hbelow⟩ := exists_of_bind hbelow
      split at hbelow
      next htruthy =>
        obtain ⟨each, heach, hbelow⟩ := exists_of_bind hbelow
        obtain ⟨flat, hflat, hbelow⟩ := exists_of_bind hbelow
        obtain ⟨merged, hmerged, hflat⟩ := exists_of_bind hflat
        obtain ⟨parts, hparts, hflat⟩ := exists_of_bind hflat
        cases hflat
        cases hbelow
        obtain ⟨children', hchildren', hitems⟩ := exists_of_bind hitems
        cases hchildren.symm.trans hchildren'
        rw [if_pos htruthy] at hitems
        exact .inr ⟨ne_nil_of_truthy hchildren htruthy hitems,
          .intro (resolveEach_forall₂ heach) hmerged hparts⟩
      next htruthy =>
        cases hbelow
        obtain ⟨children', hchildren', hitems⟩ := exists_of_bind hitems
        cases hchildren.symm.trans hchildren'
        rw [if_neg htruthy] at hitems
        cases hitems
        exact .inl ⟨rfl, rfl⟩
  rw [searched_of_key hkind hkey]
  cases key with
  | none => exact hopen h
  | some name =>
    dsimp only [Option.any_some] at h ⊢
    split at h
    next hname =>
      cases h
      exact ⟨[], if_pos hname, .inl ⟨rfl, rfl⟩⟩
    next hname =>
      rw [if_neg hname]
      exact hopen h

theorem isChild_of_searched (hs : searched token = .ok items) (ht : t ∈ items) :
    token.IsChild t :=
  Value.isChild_of_children
    (children_of_presentChildren (presentChildren_of_searched hs ht) ht) ht

theorem sizeOf_searched_lt (hs : searched token = .ok items) (ht : t ∈ items) :
    sizeOf t < sizeOf token := by
  have hitems := sizeOf_presentChildren_lt (presentChildren_of_searched hs ht)
  have hmem := List.sizeOf_lt_of_mem ht
  omega

theorem Resolved.isTextRun (h : Resolved known t u) : isTextRun u = Token.isTextRun t := by
  unfold Resolved at h
  split at h
  · rw [h]
  · obtain ⟨items, -, ⟨-, rfl⟩ | ⟨-, hbuilt⟩⟩ := resolve_cases h
    · rfl
    · cases hbuilt
      exact isTextRun_withChildren _ t

theorem Resolved.of_text (h : Resolved known t u) (ht : Token.isTextRun t = true) : u = t := by
  rwa [Resolved, if_pos ht] at h

theorem Resolved.of_other (h : Resolved known t u) (ht : Token.isTextRun t = false) :
    resolve known t = .ok u := by
  rwa [Resolved, if_neg (by simp [ht])] at h

theorem Resolved.alike (h : Resolved known t u) : Alike t u := by
  refine ⟨?_, h.isTextRun.symm, fun ht => (h.of_text ht).symm⟩
  cases ht : Token.isTextRun t with
  | true => exact object_of_isTextRun ht
  | false =>
    obtain ⟨items, hs, -⟩ := resolve_cases (h.of_other ht)
    exact object_of_searched hs

/-- A run of text is split at its references, and any other token stays as it is. -/
theorem splitRun_cases {part : List Value} (h : splitRun known t = .ok part) :
    isTextRun t = false ∧ part = [t] ∨
      isTextRun t = true ∧ ∃ s, runText t = .ok s ∧ part = splitReferences known s := by
  rw [splitRun] at h
  split at h
  next htext =>
    cases hs : runText t with
    | error f =>
      rw [hs] at h
      cases h
    | ok s =>
      rw [hs] at h
      cases h
      exact .inr ⟨htext, s, rfl, rfl⟩
  next htext =>
    cases h
    exact .inl ⟨by simpa using htext, rfl⟩

/-- Below a token that has been rebuilt stand the tokens that were searched by themselves, and what
the runs of text between them came to. -/
theorem Rebuilt.isChild_iff (h : Rebuilt known items token out) (hs : searched token = .ok items) :
    out.IsChild u ↔ (∃ t ∈ items, isTextRun t = false ∧ resolve known t = .ok u) ∨
      ∃ s, Joined items s ∧ u ∈ splitReferences known s := by
  obtain ⟨heach, hmerged, hparts⟩ := h
  obtain ⟨ns, hns, hsame⟩ := mergeText_alike (heach.imp fun _ _ h => h.alike) hmerged
  have hsplit := forall₂_of_mapM hparts
  obtain ⟨fields, rfl⟩ := object_of_searched hs
  rw [isChild_withChildren, List.mem_flatten]
  constructor
  · rintro ⟨part, hpart, hu⟩
    obtain ⟨m, hm, hsplit⟩ := exists_of_mem_right hsplit hpart
    rcases splitRun_cases hsplit with ⟨htext, rfl⟩ | ⟨htext, s, hr, rfl⟩
    · obtain rfl := List.mem_singleton.mp hu
      have hin := (mem_of_mergeText hmerged htext).mp hm
      obtain ⟨t, ht, hres⟩ := exists_of_mem_right heach hin
      have htext' := hres.isTextRun.symm.trans htext
      exact .inl ⟨t, ht, htext', hres.of_other htext'⟩
    · obtain ⟨n, hn, hnm⟩ := exists_of_mem_right hsame hm
      obtain rfl := hnm.same (hnm.text.trans htext)
      exact .inr ⟨s, ⟨ns, n, hns, hn, htext, hr⟩, hu⟩
  · rintro (⟨t, ht, htext, hres⟩ | ⟨s, ⟨ns', n, hns', hn, htext, hr⟩, hu⟩)
    · obtain ⟨u', hu', hres'⟩ := exists_of_mem_left heach ht
      cases hres.symm.trans (hres'.of_other htext)
      have hutext := hres'.isTextRun.trans htext
      have hin := (mem_of_mergeText hmerged hutext).mpr hu'
      obtain ⟨part, hpart, hone⟩ := exists_of_mem_left hsplit hin
      rw [splitRun, if_neg (by simp [hutext])] at hone
      cases hone
      exact ⟨[u], hpart, List.mem_singleton.mpr rfl⟩
    · cases hns.symm.trans hns'
      obtain ⟨m, hm, hnm⟩ := exists_of_mem_left hsame hn
      obtain rfl := hnm.same htext
      obtain ⟨part, hpart, hrun⟩ := exists_of_mem_left hsplit hm
      rw [splitRun, if_pos htext, hr] at hrun
      cases hrun
      exact ⟨_, hpart, hu⟩

/-- What holds everywhere in a token that is searched, and everywhere in what its runs of text come
to, holds everywhere in the outcome. -/
theorem resolve_everywhere {P Q : Value → Prop} (hkeep : ∀ t, P t → Q t)
    (hbuild : ∀ t children, P t → Q (withChildren children t)) (known : List String)
    (token : Value) {out : Value} (h : resolve known token = .ok out) (hp : token.Everywhere P)
    (hruns : ∀ s, Run token s → ∀ t ∈ splitReferences known s, t.Everywhere Q) :
    out.Everywhere Q := by
  obtain ⟨items, hs, ⟨-, rfl⟩ | ⟨-, hbuilt⟩⟩ := resolve_cases h
  · exact fun t ht => hkeep t (hp t ht)
  · have hself : Q out := by
      cases hbuilt
      exact hbuild _ _ hp.self
    refine .intro hself fun u hu => ?_
    obtain ⟨t, ht, htext, hres⟩ | ⟨s, hjoined, hsplit⟩ := (hbuilt.isChild_iff hs).mp hu
    · have hsize := sizeOf_searched_lt hs ht
      exact resolve_everywhere hkeep hbuild known t hres (hp.child (isChild_of_searched hs ht))
        fun s hrun => hruns s (.deeper hs ht htext hrun)
    · exact hruns s (.own hs hjoined) u hsplit
termination_by sizeOf token

theorem rebuilt_of_ne_nil (h : resolve known token = .ok out) (hs : searched token = .ok items)
    (hne : items ≠ []) : Rebuilt known items token out := by
  obtain ⟨items', hs', ⟨rfl, -⟩ | ⟨-, hbuilt⟩⟩ := resolve_cases h
  · cases hs.symm.trans hs'
    exact absurd rfl hne
  · cases hs.symm.trans hs'
    exact hbuilt

theorem Rebuilt.exists_resolved (h : Rebuilt known items token out) (ht : t ∈ items)
    (htext : isTextRun t = false) : ∃ u, resolve known t = .ok u := by
  obtain ⟨heach, -, -⟩ := h
  obtain ⟨u, -, hu⟩ := exists_of_mem_left heach ht
  exact ⟨u, hu.of_other htext⟩

theorem Joined.ne_nil (h : Joined items s) : items ≠ [] := by
  rintro rfl
  obtain ⟨merged, t, hm, ht, -⟩ := h
  cases hm
  cases ht

/-- What a run of text comes to stands in the outcome of the search. -/
theorem resolve_within (hrun : Run token s) (h : resolve known token = .ok out)
    (ht : t ∈ splitReferences known s) : out.Within t := by
  induction hrun generalizing out with
  | own hs hr =>
    have hbuilt := rebuilt_of_ne_nil h hs hr.ne_nil
    exact .single ((hbuilt.isChild_iff hs).mpr (.inr ⟨_, hr, ht⟩))
  | deeper hs hmem htext hr ih =>
    have hbuilt := rebuilt_of_ne_nil h hs (List.ne_nil_of_mem hmem)
    obtain ⟨u, hu⟩ := hbuilt.exists_resolved hmem htext
    exact .head ((hbuilt.isChild_iff hs).mpr (.inl ⟨_, hmem, htext, hu⟩)) (ih hu ht)

theorem field_resolve (key : String) (hkey : key ≠ "children") (default : Value)
    (h : resolve known token = .ok out) : out.field key default = token.field key default := by
  obtain ⟨items, -, ⟨-, rfl⟩ | ⟨-, hbuilt⟩⟩ := resolve_cases h
  · rfl
  · cases hbuilt
    exact field_withChildren hkey _ token default

/-- A token with a single run of text below it has what the run comes to. -/
theorem resolve_branch_text (known : List String) {name : String} (hname : isOpaque name = false)
    (s : String) :
    resolve known (branch name [text s]) = .ok (branch name (splitReferences known s)) := by
  have heach : resolveEach known [text s] = .ok [text s] := by
    rw [resolveEach, resolveEach]
    rfl
  have hruns : splitRuns known [text s] = .ok (splitReferences known s) := by
    rw [← List.append_nil (splitReferences known s)]
    rfl
  have hkind : (branch name [text s]).field "type" .null = .ok (.str name) := rfl
  have hchildren : presentChildren (branch name [text s]) = .ok [text s] := rfl
  have hfield : (branch name [text s]).field "children" .null = .ok (.list [text s]) := rfl
  rw [resolve, hkind]
  simp only [bind, Except.bind, kindKey_str, hname]
  split
  next hopaque => cases hopaque
  next =>
    split
    next herror => cases hchildren.symm.trans herror
    next items hitems =>
      cases hchildren.symm.trans hitems
      have htruthy : (Value.list [text s]).truthy = true := rfl
      simp only [hfield, heach, htruthy, if_true, hruns]
      rfl

/-- Tokens are brought into their form first, and then searched one by one. -/
theorem exists_of_canonical {outs : List Value} (h : canonical known tokens = .ok outs) :
    ∃ trees, normalizeAll tokens = .ok trees ∧
      List.Forall₂ (fun t u => resolve known t = .ok u) trees outs := by
  obtain ⟨trees, htrees, h⟩ := exists_of_bind h
  exact ⟨trees, htrees, forall₂_of_mapM h⟩

/-- Every run of text stands in the tokens as its text and references. -/
theorem exists_within_of_canonical {texts trees outs : List Value} {tree : Value} {run : String}
    (h : canonical known texts = .ok outs) (htrees : normalizeAll texts = .ok trees)
    (htree : tree ∈ trees) (hrun : Run tree run) (ht : t ∈ splitReferences known run) :
    ∃ out ∈ outs, out.Within t := by
  obtain ⟨trees', htrees', hres⟩ := exists_of_canonical h
  cases htrees.symm.trans htrees'
  obtain ⟨out, hout, hr⟩ := exists_of_mem_left hres htree
  exact ⟨out, hout, resolve_within hrun hr ht⟩

end Resolve

end Typeset.Token
