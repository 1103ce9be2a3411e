import Typeset.Log.Registry

/-! The tree of loggers: which names stand above a name, and which loggers its records come to. -/

namespace Typeset.Log

variable {name above other child : String} {cs : List Char} {reg : Registry}

/-- A name, or one above it in the tree: what stands before one of its dots. -/
def AtOrAbove (above name : String) : Prop := above = name ∨ ∃ rest, name = above ++ "." ++ rest

theorem AtOrAbove.trans (h : AtOrAbove other above) (h' : AtOrAbove above name) :
    AtOrAbove other name := by
  obtain rfl | ⟨rest, rfl⟩ := h
  · exact h'
  · obtain rfl | ⟨more, rfl⟩ := h'
    · exact .inr ⟨rest, rfl⟩
    · exact .inr ⟨rest ++ "." ++ more, by simp only [String.append_assoc]⟩

theorem length_lt_append (above rest : String) : above.length < (above ++ "." ++ rest).length := by
  have hdot : ".".length = 1 := rfl
  rw [String.length_append, String.length_append, hdot]
  omega

/-- Of two names above a name, the longer one is below the other. -/
theorem AtOrAbove.of_length_le (h : AtOrAbove other name) (h' : AtOrAbove above name)
    (hlength : other.length ≤ above.length) : AtOrAbove other above := by
  obtain rfl | ⟨more, rfl⟩ := h'
  · exact h
  · obtain rfl | ⟨rest, hrest⟩ := h
    · exact absurd hlength (Nat.not_le.mpr (length_lt_append above more))
    · have htexts : above.toList ++ '.' :: more.toList = other.toList ++ '.' :: rest.toList := by
        simpa [← String.toList_inj] using hrest
      rw [← String.length_toList, ← String.length_toList] at hlength
      obtain ⟨tail, htail⟩ :=
        List.prefix_of_prefix_length_le ⟨_, htexts.symm⟩ (List.prefix_append _ _) hlength
      rw [← htail, List.append_assoc] at htexts
      cases tail with
      | nil => exact .inl (String.toList_inj.mp (by simpa using htail))
      | cons c tail =>
        obtain ⟨rfl, -⟩ := List.cons.inj (List.append_cancel_left htexts)
        refine .inr ⟨String.ofList tail, String.toList_inj.mp ?_⟩
        simp [← htail]

theorem AtOrAbove.beginsWith (h : AtOrAbove above name) : beginsWith name above = true := by
  rw [Log.beginsWith, List.isPrefixOf_iff_prefix]
  obtain rfl | ⟨rest, rfl⟩ := h
  · exact List.prefix_rfl
  · rw [String.append_assoc, String.toList_append]
    exact List.prefix_append _ _

theorem length_le_of_beginsWith (h : beginsWith name above = true) :
    above.length ≤ name.length := by
  rw [beginsWith, List.isPrefixOf_iff_prefix] at h
  simpa only [String.length_toList] using h.length_le

section Names

theorem split_of_mem_beforeDots (h : above ∈ beforeDots cs) :
    above ≠ "" ∧ ∃ rest, cs = rest ++ '.' :: above.toList.reverse := by
  induction cs using beforeDots.induct with
  | case1 => cases h
  | case2 => cases h
  | case3 d rest ih =>
    rw [beforeDots, if_pos rfl] at h
    obtain rfl | h := List.mem_cons.mp h
    · exact ⟨by simp, [], by simp⟩
    · obtain ⟨hne, more, hrest⟩ := ih h
      exact ⟨hne, '.' :: d :: more, by rw [hrest]; rfl⟩
  | case4 c d rest hdot ih =>
    rw [beforeDots, if_neg hdot] at h
    obtain ⟨hne, more, hrest⟩ := ih h
    exact ⟨hne, c :: more, by rw [hrest]; rfl⟩

/-- Names further up are shorter. -/
theorem pairwise_beforeDots (cs : List Char) :
    (beforeDots cs).Pairwise fun near far => far.length < near.length := by
  induction cs using beforeDots.induct with
  | case1 => exact .nil
  | case2 => exact .nil
  | case3 d rest ih =>
    rw [beforeDots, if_pos rfl]
    refine List.pairwise_cons.mpr ⟨fun far hfar => ?_, ih⟩
    obtain ⟨-, more, rfl⟩ := split_of_mem_beforeDots hfar
    simp only [← String.length_toList, String.toList_ofList, List.length_reverse, List.length_cons,
      List.length_append]
    omega
  | case4 c d rest hdot ih => rwa [beforeDots, if_neg hdot]

theorem split_reverse_iff : (∃ rest, name.toList.reverse = rest ++ '.' :: above.toList.reverse) ↔
    ∃ rest, name = above ++ "." ++ rest := by
  constructor
  · rintro ⟨rest, h⟩
    refine ⟨String.ofList rest.reverse, ?_⟩
    rw [← String.toList_inj, ← List.reverse_inj, h]
    simp
  · rintro ⟨rest, rfl⟩
    exact ⟨rest.toList.reverse, by simp⟩

theorem atOrAbove_of_mem (h : above ∈ namesAbove name) : AtOrAbove above name :=
  .inr (split_reverse_iff.mp (split_of_mem_beforeDots h).2)

theorem pairwise_namesAbove (name : String) :
    (namesAbove name).Pairwise fun near far => far.length < near.length :=
  pairwise_beforeDots _

theorem length_lt_of_mem (h : above ∈ namesAbove name) : above.length < name.length := by
  obtain ⟨rest, rfl⟩ := split_reverse_iff.mp (split_of_mem_beforeDots h).2
  exact length_lt_append above rest

/-- A name whose dots all count: none stands at its start or behind another one, and what stands
before a dot is not how the name of the root begins. -/
structure Regular (name : String) : Prop where
  dots : ∀ above rest, name = above ++ "." ++ rest → above.toList.getLast? ≠ some '.'
  start : ∀ above rest, name = above ++ "." ++ rest → beginsWith rootName above = false

end Names

section Entries

variable {α : Type}

theorem lookup_setEntry (key : String) (a : α) (entries : List (String × α)) (other : String) :
    (setEntry key a entries).lookup other =
      if other = key then some a else entries.lookup other := by
  by_cases h : other = key
  · subst h
    rw [if_pos rfl]
    induction entries with
    | nil => simp [setEntry]
    | cons entry rest ih =>
      obtain ⟨k, b⟩ := entry
      rw [setEntry]
      split
      next hk => rw [hk, List.lookup_cons_self]
      next hk => rw [List.lookup_cons, beq_false_of_ne (Ne.symm hk), ih]
  · rw [if_neg h]
    induction entries with
    | nil => rw [setEntry, List.lookup_cons, beq_false_of_ne h]
    | cons entry rest ih =>
      obtain ⟨k, b⟩ := entry
      rw [setEntry, List.lookup_cons]
      split
      next hk => rw [hk, List.lookup_cons, beq_false_of_ne h]
      next hk => rw [List.lookup_cons, ih]

theorem lookup_foldl_setEntry (keys : List String) (a : α) (entries : List (String × α))
    (other : String) : (keys.foldl (fun acc key => setEntry key a acc) entries).lookup other =
      if other ∈ keys then some a else entries.lookup other := by
  induction keys generalizing entries with
  | nil => rfl
  | cons key keys ih =>
    rw [List.foldl_cons, ih, lookup_setEntry]
    by_cases hkey : other = key <;> simp [hkey]

end Entries

/-! Making loggers keeps the tree in order: each logger has the nearest one above it as its parent,
but for names that the name of the root begins with. -/

section Tree

/-- The tree is in order. -/
structure Wired (reg : Registry) : Prop where
  root : reg.has rootName = false
  parent : ∀ name, reg.parent name = rootName ∨
    reg.parent name ∈ namesAbove name ∧ reg.has (reg.parent name) = true
  waiting : ∀ other name, (other, name) ∈ reg.waiting →
    reg.has name = true ∧ other ∈ namesAbove name
  /-- A name above a logger is the parent or further up, or no logger has it yet. -/
  nearest : ∀ name other, reg.has name = true → other ∈ namesAbove name →
    reg.parent name ≠ rootName ∧ other.length ≤ (reg.parent name).length ∨
      reg.has other = false ∧ (other, name) ∈ reg.waiting ∨ beginsWith rootName other = true

theorem Wired.empty : Wired {} where
  root := rfl
  parent _ := .inl rfl
  waiting _ _ h := nomatch h
  nearest _ _ h := nomatch h

theorem mem_orphans_iff : child ∈ reg.orphans name ↔
    (name, child) ∈ reg.waiting ∧ beginsWith (reg.parent child) name = false := by
  simp [Registry.orphans, and_assoc]

theorem has_iff : reg.has name = true ↔ ∃ parent, reg.parents.lookup name = some parent := by
  rw [Registry.has, Option.isSome_iff_exists]

theorem loggerName_of_ne_root (h : loggerName name ≠ rootName) : loggerName name = name := by
  by_cases hname : name = ""
  · rw [hname] at h
    exact absurd rfl h
  · rw [loggerName, if_neg hname]

theorem found_of_has (h : reg.has name = true) : reg.found name = reg := by
  rw [Registry.found, if_pos (by simp [h])]

theorem found_of_root (h : loggerName name = rootName) : reg.found name = reg := by
  rw [Registry.found, if_pos (by simp [h])]

/-- Making a logger changes nothing but the tree. -/
theorem found_loggers (reg : Registry) (name : String) :
    (reg.found name).loggers = reg.loggers ∧ (reg.found name).configured = reg.configured := by
  rw [Registry.found]
  split <;> exact ⟨rfl, rfl⟩

theorem found_logger (reg : Registry) (name other : String) :
    (reg.found name).logger other = reg.logger other := by
  rw [Registry.logger, (found_loggers reg name).1, Registry.logger]

/-- An orphan has its parent further up than the name that it waits for. -/
theorem length_parent_lt_of_orphan (h : Wired reg) (horphan : child ∈ reg.orphans name)
    (hparent : reg.parent child ≠ rootName) : (reg.parent child).length < name.length := by
  obtain ⟨hwaits, hbegins⟩ := mem_orphans_iff.mp horphan
  obtain hroot | ⟨hmem, -⟩ := h.parent child
  · exact absurd hroot hparent
  · refine Nat.lt_of_not_le fun hlength => ?_
    have habove : AtOrAbove name (reg.parent child) :=
      (atOrAbove_of_mem (h.waiting _ _ hwaits).2).of_length_le (atOrAbove_of_mem hmem) hlength
    rw [habove.beginsWith] at hbegins
    cases hbegins

/-- Of names that grow shorter, the first with a property is the longest with it. -/
theorem find?_or_takeWhile {names : List String} {p : String → Bool}
    (hsorted : names.Pairwise fun near far => far.length < near.length) (h : other ∈ names) :
    (∃ first, names.find? p = some first ∧ other.length ≤ first.length) ∨
      p other = false ∧ other ∈ names.takeWhile fun n => !p n := by
  induction names with
  | nil => cases h
  | cons near names ih =>
    obtain ⟨hnear, hsorted⟩ := List.pairwise_cons.mp hsorted
    cases hp : p near with
    | true =>
      refine .inl ⟨near, by simp [hp], ?_⟩
      obtain rfl | h := List.mem_cons.mp h
      · exact Nat.le_refl _
      · exact Nat.le_of_lt (hnear other h)
    | false =>
      obtain rfl | h := List.mem_cons.mp h
      · exact .inr ⟨hp, by simp [hp]⟩
      · simpa [hp] using (ih hsorted h).imp_right fun ⟨hother, hmem⟩ => ⟨hother, .inr hmem⟩

section New

variable (hname : loggerName name ≠ rootName) (hnew : reg.has name = false)

include hname hnew

theorem lookup_parents_found (other : String) : (reg.found name).parents.lookup other =
    if other = name then some (((namesAbove name).find? reg.has).getD rootName)
    else if other ∈ reg.orphans name then some name
    else reg.parents.lookup other := by
  rw [Registry.found, if_neg (by simp [hname, hnew]), lookup_setEntry, lookup_foldl_setEntry]

theorem waiting_found : (reg.found name).waiting = reg.waiting ++
    ((namesAbove name).takeWhile fun n => !reg.has n).map fun n => (n, name) := by
  rw [Registry.found, if_neg (by simp [hname, hnew])]

theorem has_found_self : (reg.found name).has name = true := by
  rw [has_iff, lookup_parents_found hname hnew, if_pos rfl]
  exact ⟨_, rfl⟩

theorem parent_found_self :
    (reg.found name).parent name = ((namesAbove name).find? reg.has).getD rootName := by
  rw [Registry.parent, lookup_parents_found hname hnew, if_pos rfl, Option.getD_some]

theorem parent_found_of_orphan (hne : other ≠ name) (h : other ∈ reg.orphans name) :
    (reg.found name).parent other = name := by
  rw [Registry.parent, lookup_parents_found hname hnew, if_neg hne, if_pos h, Option.getD_some]

theorem parent_found_of_other (hne : other ≠ name) (h : other ∉ reg.orphans name) :
    (reg.found name).parent other = reg.parent other := by
  rw [Registry.parent, lookup_parents_found hname hnew, if_neg hne, if_neg h, Registry.parent]

theorem has_found_iff (h : Wired reg) :
    (reg.found name).has other = true ↔ other = name ∨ reg.has other = true := by
  rw [has_iff, lookup_parents_found hname hnew]
  split
  next hsame => simp [hsame]
  next hne =>
    split
    next horphan => simp [(h.waiting _ _ (mem_orphans_iff.mp horphan).1).1]
    next => simp [hne, has_iff]

/-- The new logger has the nearest one above it as its parent. -/
theorem nearest_found_self (h : Wired reg) (hother : other ∈ namesAbove name) :
    (reg.found name).parent name ≠ rootName ∧
        other.length ≤ ((reg.found name).parent name).length ∨
      (reg.found name).has other = false ∧ (other, name) ∈ (reg.found name).waiting := by
  obtain ⟨first, hfind, hlength⟩ | ⟨habsent, hmem⟩ :=
    find?_or_takeWhile (p := reg.has) (pairwise_namesAbove name) hother
  · rw [parent_found_self hname hnew, hfind]
    refine .inl ⟨?_, hlength⟩
    rintro rfl
    exact Bool.false_ne_true (h.root.symm.trans (List.find?_some hfind))
  · have hne : other ≠ name := fun hsame =>
      absurd (length_lt_of_mem hother) (hsame ▸ Nat.lt_irrefl _)
    refine .inr ⟨?_, ?_⟩
    · rw [Bool.eq_false_iff, ne_eq, has_found_iff hname hnew h]
      simp [hne, habsent]
    · rw [waiting_found hname hnew]
      exact List.mem_append_right _ (List.mem_map_of_mem hmem)

/-- A logger that was there before gets the new one as its parent if that is nearer than its old
parent and it waits for it. -/
theorem nearest_found_of_ne (h : Wired reg) (hne : child ≠ name) (hchild : reg.has child = true)
    (hother : other ∈ namesAbove child) :
    (reg.found name).parent child ≠ rootName ∧
        other.length ≤ ((reg.found name).parent child).length ∨
      (reg.found name).has other = false ∧ (other, child) ∈ (reg.found name).waiting ∨
        beginsWith rootName other = true := by
  have hroot : name ≠ rootName := loggerName_of_ne_root hname ▸ hname
  have hwaits (hnone : other ≠ name) (h' : reg.has other = false ∧ (other, child) ∈ reg.waiting) :
      (reg.found name).has other = false ∧ (other, child) ∈ (reg.found name).waiting := by
    refine ⟨?_, waiting_found hname hnew ▸ List.mem_append_left _ h'.2⟩
    rw [Bool.eq_false_iff, ne_eq, has_found_iff hname hnew h]
    simp [hnone, h'.1]
  by_cases horphan : child ∈ reg.orphans name
  · rw [parent_found_of_orphan hname hnew hne horphan]
    by_cases hlength : other.length ≤ name.length
    · exact .inl ⟨hroot, hlength⟩
    · have hnone : other ≠ name := fun hsame => hlength (hsame ▸ Nat.le_refl _)
      obtain ⟨hparent, hup⟩ | hwaiting | hbegins := h.nearest child other hchild hother
      · exact absurd (Nat.le_trans hup
          (Nat.le_of_lt (length_parent_lt_of_orphan h horphan hparent))) hlength
      · exact .inr (.inl (hwaits hnone hwaiting))
      · exact .inr (.inr hbegins)
  · rw [parent_found_of_other hname hnew hne horphan]
    obtain hup | hwaiting | hbegins := h.nearest child other hchild hother
    · exact .inl hup
    · by_cases hsame : other = name
      · subst hsame
        have hbegins : beginsWith (reg.parent child) other = true :=
          Bool.of_not_eq_false fun hnot => horphan (mem_orphans_iff.mpr ⟨hwaiting.2, hnot⟩)
        by_cases hparent : reg.parent child = rootName
        · exact .inr (.inr (hparent ▸ hbegins))
        · exact .inl ⟨hparent, length_le_of_beginsWith hbegins⟩
      · exact .inr (.inl (hwaits hsame hwaiting))
    · exact .inr (.inr hbegins)

theorem wired_found_of_new (h : Wired reg) : Wired (reg.found name) := by
  have hroot : name ≠ rootName := loggerName_of_ne_root hname ▸ hname
  have hhas {other : String} : (reg.found name).has other = true ↔
      other = name ∨ reg.has other = true := has_found_iff hname hnew h
  have hkeep {other : String} (hother : reg.has other = true) :
      (reg.found name).has other = true := hhas.mpr (.inr hother)
  have hself := has_found_self hname hnew
  refine ⟨?_, fun other => ?_, fun other child hwaits => ?_, fun child other hchild hother => ?_⟩
  · rw [Bool.eq_false_iff, ne_eq, hhas, h.root]
    simp [Ne.symm hroot]
  · by_cases hne : other = name
    · rw [hne, parent_found_self hname hnew]
      cases hfind : (namesAbove name).find? reg.has with
      | none => exact .inl rfl
      | some p => exact .inr ⟨List.mem_of_find?_eq_some hfind, hkeep (List.find?_some hfind)⟩
    · by_cases horphan : other ∈ reg.orphans name
      · rw [parent_found_of_orphan hname hnew hne horphan]
        exact .inr ⟨(h.waiting _ _ (mem_orphans_iff.mp horphan).1).2, hself⟩
      · rw [parent_found_of_other hname hnew hne horphan]
        exact (h.parent other).imp_right fun ⟨hmem, hp⟩ => ⟨hmem, hkeep hp⟩
  · rw [waiting_found hname hnew, List.mem_append, List.mem_map] at hwaits
    obtain hwaits | ⟨absent, habsent, heq⟩ := hwaits
    · obtain ⟨hchild, hmem⟩ := h.waiting _ _ hwaits
      exact ⟨hkeep hchild, hmem⟩
    · cases heq
      exact ⟨hself, (List.takeWhile_sublist _).mem habsent⟩
  · by_cases hne : child = name
    · rw [hne] at hother ⊢
      exact (nearest_found_self hname hnew h hother).imp_right .inl
    · exact nearest_found_of_ne hname hnew h hne ((hhas.mp hchild).resolve_left hne) hother

end New

/-- Making a logger keeps the tree in order. -/
theorem Wired.found (h : Wired reg) (name : String) : Wired (reg.found name) := by
  by_cases hname : loggerName name = rootName
  · rwa [found_of_root hname]
  · cases hnew : reg.has name with
    | true => rwa [found_of_has hnew]
    | false => exact wired_found_of_new hname hnew h

theorem Wired.has_found (h : Wired reg) (hname : loggerName name ≠ rootName) :
    (reg.found name).has other = true ↔ other = name ∨ reg.has other = true := by
  cases hnew : reg.has name with
  | true =>
    rw [found_of_has hnew]
    refine ⟨.inr, ?_⟩
    rintro (rfl | hother)
    · exact hnew
    · exact hother
  | false => exact has_found_iff hname hnew h

end Tree

/-! The way up from a logger: it comes past names of growing shortness to the root, and past every
logger above if all dots of the name count. -/

section Climb

end Climb

end Typeset.Log
