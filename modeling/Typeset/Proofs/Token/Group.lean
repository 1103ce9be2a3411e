import Mathlib.Data.List.TakeWhile
import Typeset.Token.Reference

/-! Bracket groups at the front of a text, what they refer to, and which of it does not depend on
what comes later. -/

namespace Typeset.Token

variable {known : List String} {image : Bool} {cs inner first second rest after : List Char}
  {found : Option Reference}

/-- Text without square brackets. -/
def Bare (cs : List Char) : Prop := ∀ c ∈ cs, isBracket c = false

instance : DecidablePred Bare := fun cs => List.decidableBAll _ cs

/-- A text in brackets. -/
def group (inner : List Char) : List Char := '[' :: (inner ++ [']'])

/-- A bracket group that may name a target: a footnote mark opens no such group. -/
structure IsLabel (inner : List Char) : Prop where
  bare : Bare inner
  head : inner.head? ≠ some '^'

/-- A text ends in a group that may name a target. -/
def EndsInLabel (cs : List Char) : Prop :=
  ∃ head inner, cs = head ++ group inner ∧ IsLabel inner

section Group

theorem dropWhile_bare (h : Bare inner) :
    (inner ++ ']' :: rest).dropWhile (!isBracket ·) = ']' :: rest := by
  rw [List.dropWhile_append_of_pos fun c hc => by simp [h c hc],
    List.dropWhile_cons_of_neg (by decide)]

theorem takeWhile_bare (h : Bare inner) :
    (inner ++ ']' :: rest).takeWhile (!isBracket ·) = inner := by
  rw [List.takeWhile_append_of_pos fun c hc => by simp [h c hc],
    List.takeWhile_cons_of_neg (by decide), List.append_nil]

theorem group?_group (h : Bare inner) : group? (group inner ++ rest) = some (inner, rest) := by
  have hcs : group inner ++ rest = '[' :: (inner ++ ']' :: rest) := by simp [group]
  rw [hcs, group?]
  simp only [dropWhile_bare h, takeWhile_bare h]

theorem bare_of_group? (h : group? cs = some (inner, rest)) : Bare inner := by
  unfold group? at h
  split at h
  · next body =>
    split at h
    · cases h
      intro c hc
      simpa using List.mem_takeWhile_imp hc
    · cases h
  · cases h

theorem group?_of_ne {c : Char} (h : c ≠ '[') : group? (c :: cs) = none := by
  unfold group?
  split
  · next heq => exact absurd (List.cons.inj heq).1 h
  · rfl

theorem group?_eq_some_iff :
    group? cs = some (inner, rest) ↔ Bare inner ∧ cs = group inner ++ rest := by
  constructor
  · intro h
    exact ⟨bare_of_group? h, by rw [eq_of_group? h]; simp [group]⟩
  · rintro ⟨hbare, rfl⟩
    exact group?_group hbare

theorem unmarked?_eq_some_iff :
    unmarked? cs = some (inner, rest) ↔ IsLabel inner ∧ cs = group inner ++ rest := by
  rw [unmarked?, Option.filter_eq_some_iff, group?_eq_some_iff]
  constructor
  · rintro ⟨⟨hbare, rfl⟩, hhead⟩
    exact ⟨⟨hbare, by simpa using hhead⟩, rfl⟩
  · rintro ⟨⟨hbare, hhead⟩, rfl⟩
    exact ⟨⟨hbare, rfl⟩, by simpa using hhead⟩

theorem getLast?_append_group (cs inner : List Char) : (cs ++ group inner).getLast? = some ']' := by
  simp [group, List.getLast?_append, List.getLast?_cons]

theorem unmarked?_group (h : IsLabel inner) :
    unmarked? (group inner ++ rest) = some (inner, rest) :=
  unmarked?_eq_some_iff.mpr ⟨h, rfl⟩

/-- Texts whose first bracket, if they have one, does not close a group before them. -/
def Opens (rest : List Char) : Prop := rest.find? isBracket ≠ some ']'

theorem opens_group (inner rest : List Char) : Opens (group inner ++ rest) := by
  rw [Opens, group, List.cons_append, List.find?_cons_of_pos (by decide)]
  decide

theorem not_opens_of_bare (h : Bare inner) : ¬ Opens (inner ++ ']' :: rest) := by
  intro hopens
  apply hopens
  rw [List.find?_append, List.find?_eq_none.mpr fun c hc => by simp [h c hc], Option.none_or,
    List.find?_cons_of_pos (by decide)]

/-- A group at the front of a text is found whatever follows the text. -/
theorem group?_append (hcs : cs ≠ []) (hrest : Opens rest) :
    group? (cs ++ rest) = (group? cs).map fun g => (g.1, g.2 ++ rest) := by
  obtain ⟨c, body, rfl⟩ := List.exists_cons_of_ne_nil hcs
  by_cases hc : c = '['
  · subst hc
    cases hg : group? ('[' :: body) with
    | some g =>
      obtain ⟨hbare, heq⟩ := group?_eq_some_iff.mp hg
      rw [heq, List.append_assoc, group?_group hbare]
      rfl
    | none =>
      cases hw : group? ('[' :: body ++ rest) with
      | none => rfl
      | some g =>
        obtain ⟨hbare, heq⟩ := group?_eq_some_iff.mp hw
        have hbody : body ++ rest = g.1 ++ ']' :: g.2 := by simpa [group] using heq
        obtain ⟨more, hin, hout⟩ | ⟨more, hin, hout⟩ := List.append_eq_append_iff.mp hbody
        · -- The group would be closed by a bracket of what follows.
          rw [hin] at hbare
          have hmore : Bare more := fun c hc => hbare c (List.mem_append_right body hc)
          rw [hout] at hrest
          exact absurd hrest (not_opens_of_bare hmore)
        · cases more with
          | nil =>
            rw [List.nil_append] at hout
            rw [← hout] at hrest
            exact absurd hrest (not_opens_of_bare (List.forall_mem_nil _))
          | cons d more =>
            obtain ⟨rfl, -⟩ := List.cons.inj hout
            have hfound : group? ('[' :: body) = some (g.1, more) :=
              group?_eq_some_iff.mpr ⟨hbare, by simp [group, hin]⟩
            rw [hfound] at hg
            cases hg
  · rw [List.cons_append, group?_of_ne hc, group?_of_ne hc]
    rfl

theorem unmarked?_append (hcs : cs ≠ []) (hrest : Opens rest) :
    unmarked? (cs ++ rest) = (unmarked? cs).map fun g => (g.1, g.2 ++ rest) := by
  rw [unmarked?, unmarked?, group?_append hcs hrest]
  cases group? cs with
  | none => rfl
  | some g =>
    rw [Option.map_some, Option.filter_some, Option.filter_some]
    split <;> rfl

end Group

section Named

/-- What a single group refers to. -/
def single? (known : List String) (image : Bool) (first rest : List Char) :
    Option (Option Reference × List Char) :=
  match first with
  | [] => none
  | c :: identifier =>
    if !image && c == '^' && !identifier.isEmpty && !identifier.any Text.isBlank then
      some (some (.footnote (String.ofList identifier)), rest)
    else if rest.head? == some '(' || rest.head? == some ':' then none
    else if known.contains (Text.lower (trimmed first)) then
      some (some (.target image .shortcut (String.ofList first) (trimmed first)), rest)
    else some (none, rest)

/-- What the groups at the front of a text refer to, behind an exclamation mark or not. -/
def named? (known : List String) (image : Bool) (body : List Char) :
    Option (Option Reference × List Char) :=
  match group? body with
  | none => none
  | some (first, rest) =>
    match (unmarked? body).bind fun _ => unmarked? rest with
    | some (second, rest) => some (paired? image first second, rest)
    | none => single? known image first rest

/-- A group on its own names a footnote, a known identifier, or nothing. -/
theorem single?_cases (h : single? known image first rest = some (found, after)) :
    after = rest ∧
      ((∃ identifier, image = false ∧ first = '^' :: identifier ∧ identifier ≠ [] ∧
        (∀ c ∈ identifier, Text.isBlank c = false) ∧
        found = some (.footnote (String.ofList identifier))) ∨
      (Text.lower (trimmed first) ∈ known ∧
        found = some (.target image .shortcut (String.ofList first) (trimmed first))) ∨
      found = none) := by
  cases first with
  | nil => cases h
  | cons c identifier =>
    rw [single?] at h
    split at h
    next hnote =>
      cases h
      obtain ⟨⟨⟨himage, hcaret⟩, hne⟩, hsolid⟩ := by simpa only [Bool.and_eq_true] using hnote
      obtain rfl : c = '^' := by simpa using hcaret
      exact ⟨rfl, .inl ⟨identifier, by simpa using himage, rfl, by simpa using hne,
        by simpa using hsolid, rfl⟩⟩
    next =>
      split at h
      · cases h
      · split at h
        next hknown =>
          cases h
          exact ⟨rfl, .inr (.inl ⟨List.contains_iff_mem.mp hknown, rfl⟩)⟩
        next =>
          cases h
          exact ⟨rfl, .inr (.inr rfl)⟩

theorem reference?_bang : reference? known ('!' :: cs) = named? known true cs := rfl

theorem reference?_group :
    reference? known (group inner ++ rest) = named? known false (group inner ++ rest) := rfl

theorem reference?_of_ne {c : Char} (hb : c ≠ '!') :
    reference? known (c :: cs) = named? known false (c :: cs) := by
  have himage : ((c :: cs).head? == some '!') = false := by simpa using hb
  unfold reference?
  simp only [himage]
  rfl

/-- What has the form of a reference stands behind an exclamation mark, or at the very front. -/
theorem named?_of_reference? (h : reference? known cs = some (found, after)) :
    (∃ body, cs = '!' :: body ∧ named? known true body = some (found, after)) ∨
      named? known false cs = some (found, after) := by
  cases cs with
  | nil => cases h
  | cons c body =>
    by_cases hc : c = '!'
    · subst hc
      rw [reference?_bang] at h
      exact .inl ⟨body, rfl, h⟩
    · rw [reference?_of_ne hc] at h
      exact .inr h

theorem named?_of_none (h : group? cs = none) : named? known image cs = none := by
  rw [named?, h]

theorem named?_pair (hf : IsLabel first) (hs : IsLabel second) :
    named? known image (group first ++ (group second ++ rest)) =
      some (paired? image first second, rest) := by
  simp only [named?, group?_group hf.bare, unmarked?_group hf, unmarked?_group hs,
    Option.bind_some]

/-- A group is on its own if it cannot be the first of two. -/
def Lone (first rest : List Char) : Prop := IsLabel first → unmarked? rest = none

theorem named?_single (hf : Bare first) (h : Lone first rest) :
    named? known image (group first ++ rest) = single? known image first rest := by
  have hnone : ((unmarked? (group first ++ rest)).bind fun _ => unmarked? rest) = none := by
    cases hu : unmarked? (group first ++ rest) with
    | none => rfl
    | some g =>
      obtain ⟨hl, heq⟩ := unmarked?_eq_some_iff.mp hu
      have hg : group? (group first ++ rest) = some (first, rest) := group?_group hf
      rw [heq, group?_group hl.bare] at hg
      obtain ⟨rfl, -⟩ := Prod.mk.inj (Option.some.inj hg)
      exact h hl
  simp only [named?, group?_group hf, hnone]

/-- A text begins with no group, with two groups that name a target together, or with a group on its
own. -/
theorem groups_cases (cs : List Char) :
    group? cs = none ∨
      (∃ first second rest, IsLabel first ∧ IsLabel second ∧
        cs = group first ++ (group second ++ rest)) ∨
      ∃ first rest, Bare first ∧ Lone first rest ∧ cs = group first ++ rest := by
  cases hg : group? cs with
  | none => exact .inl rfl
  | some g =>
    obtain ⟨first, rest⟩ := g
    obtain ⟨hbare, rfl⟩ := group?_eq_some_iff.mp hg
    by_cases hpair : IsLabel first ∧ ∃ g, unmarked? rest = some g
    · obtain ⟨hf, ⟨second, after⟩, hs⟩ := hpair
      obtain ⟨hlabel, rfl⟩ := unmarked?_eq_some_iff.mp hs
      exact .inr (.inl ⟨first, second, after, hf, hlabel, rfl⟩)
    · refine .inr (.inr ⟨first, rest, hbare, fun hf => ?_, rfl⟩)
      exact Option.eq_none_iff_forall_ne_some.mpr fun g hs => hpair ⟨hf, g, hs⟩

/-- What the groups at the front of a text refer to, they refer to as a pair, or one does so on its
own. -/
theorem named?_cases (h : named? known image cs = some (found, after)) :
    (∃ first second, IsLabel first ∧ IsLabel second ∧
      cs = group first ++ (group second ++ after) ∧ found = paired? image first second) ∨
    ∃ first, Bare first ∧ Lone first after ∧ cs = group first ++ after ∧
      single? known image first after = some (found, after) := by
  obtain hnone | ⟨first, second, rest, hf, hs, rfl⟩ | ⟨first, rest, hf, hl, rfl⟩ := groups_cases cs
  · rw [named?_of_none hnone] at h
    cases h
  · rw [named?_pair hf hs] at h
    cases h
    exact .inl ⟨first, second, hf, hs, rfl, rfl⟩
  · rw [named?_single hf hl] at h
    obtain ⟨rfl, -⟩ := single?_cases h
    exact .inr ⟨first, hf, hl, rfl, h⟩

theorem single?_append
    (h : after = [] → rest.head? ≠ some '(' ∧ rest.head? ≠ some ':') :
    single? known image first (after ++ rest) =
      (single? known image first after).map fun found => (found.1, found.2 ++ rest) := by
  have hhead : ((after ++ rest).head? == some '(' || (after ++ rest).head? == some ':') =
      (after.head? == some '(' || after.head? == some ':') := by
    cases after with
    | nil =>
      obtain ⟨hp, hc⟩ := h rfl
      simp [hp, hc]
    | cons c after => rfl
  cases first with
  | nil => rfl
  | cons c identifier =>
    simp only [single?, hhead]
    split
    · rfl
    · split
      · rfl
      · split
        · rfl
        · rfl

/-- What the groups at the front of a text refer to does not depend on what follows the text, unless
the text is a label and what follows begins with another, or with a bracket of another kind. -/
theorem named?_append (hcs : cs ≠ []) (hrest : Opens rest)
    (hhead : rest.head? ≠ some '(' ∧ rest.head? ≠ some ':')
    (hlone : ∀ first, cs = group first → Lone first rest) :
    named? known image (cs ++ rest) =
      (named? known image cs).map fun found => (found.1, found.2 ++ rest) := by
  obtain hnone | ⟨first, second, after, hf, hs, rfl⟩ | ⟨first, after, hf, hl, rfl⟩ :=
    groups_cases cs
  · have hnone' : group? (cs ++ rest) = none := by rw [group?_append hcs hrest, hnone]; rfl
    rw [named?_of_none hnone, named?_of_none hnone']
    rfl
  · rw [List.append_assoc, List.append_assoc, named?_pair hf hs, named?_pair hf hs]
    rfl
  · have hl' : Lone first (after ++ rest) := by
      intro hlabel
      by_cases hafter : after = []
      · subst hafter
        exact hlone first (List.append_nil _) hlabel
      · rw [unmarked?_append hafter hrest, hl hlabel]
        rfl
    rw [List.append_assoc, named?_single hf hl', named?_single hf hl]
    exact single?_append fun _ => hhead

end Named

end Typeset.Token
