import Mathlib
import Typeset.Locale.Basic
import Typeset.Proofs.Text.Lowered
import Typeset.Proofs.Text.Trim

/-! Codes of languages and of regions. A text that names one of them comes to a code, and the code
names the same one, whichever code or name the text was. -/

namespace Typeset.Locale

variable {α : Type} {register : Register α} {code? : α → Option String} {entry : α}
  {ls : Register Language} {cs : Register Country}
  {table : List (String × List String)} {isLetter : Char → Bool} {c mark : Char}
  {s v p before after code : String}

section Letters

theorem ascii_of_isAlpha (h : c.isAlpha = true) : c.toNat < 0x80 := by
  have hbelow (bound : Char) (hbound : bound.toNat < 0x80) (hle : c.val ≤ bound.val) :
      c.toNat < 0x80 :=
    Nat.lt_of_le_of_lt (UInt32.le_iff_toNat_le.mp hle) hbound
  simp only [Char.isAlpha, Char.isUpper, Char.isLower, Bool.or_eq_true, Bool.and_eq_true,
    decide_eq_true_eq] at h
  obtain ⟨-, hle⟩ | ⟨-, hle⟩ := h
  · exact hbelow 'Z' (by decide) hle
  · exact hbelow 'z' (by decide) hle

/-- A letter stays where a text is stripped or taken apart. -/
theorem solid_of_isAlpha (h : c.isAlpha = true) :
    Text.isBlank c = false ∧ isTagSeparator c = false := by
  have hall : ∀ n < 0x80, (Char.ofNat n).isAlpha = true →
      Text.isBlank (Char.ofNat n) = false ∧ isTagSeparator (Char.ofNat n) = false := by decide
  have hhere := hall c.toNat (ascii_of_isAlpha h)
  rw [Char.ofNat_toNat] at hhere
  exact hhere h

/-- A code of two letters of one kind. -/
structure IsCode (isLetter : Char → Bool) (s : String) : Prop where
  length : s.length = 2
  letters : ∀ c ∈ s.toList, isLetter c = true

theorem IsCode.imp {isOther : Char → Bool} (h : IsCode isLetter s)
    (himp : ∀ c, isLetter c = true → isOther c = true) : IsCode isOther s :=
  ⟨h.length, fun c hc => himp c (h.letters c hc)⟩

theorem IsCode.of_isLower (h : IsCode Char.isLower s) : IsCode Char.isAlpha s :=
  h.imp fun c hc => by rw [Char.isAlpha, hc, Bool.or_true]

theorem IsCode.of_isUpper (h : IsCode Char.isUpper s) : IsCode Char.isAlpha s :=
  h.imp fun c hc => by rw [Char.isAlpha, hc, Bool.true_or]

variable (h : IsCode Char.isAlpha s)

include h

theorem IsCode.ne_empty : s ≠ "" := by
  rintro rfl
  cases h.length

theorem IsCode.strip : Text.strip s = s := by
  have hsolid {c : Char} (hc : c ∈ s.toList) := (solid_of_isAlpha (h.letters c hc)).1
  rw [Text.strip, Text.trim_eq_self (fun c hc => hsolid (List.mem_of_mem_head? hc))
    (fun c hc => hsolid (List.mem_of_mem_getLast? hc)), String.ofList_toList]

theorem IsCode.primary : primary s = s := by
  rw [Locale.primary, List.takeWhile_eq_self_iff.mpr, String.ofList_toList]
  intro c hc
  rw [(solid_of_isAlpha (h.letters c hc)).2, Bool.not_false]

theorem IsCode.toList_lower : (Text.lower s).toList = s.toList.map Char.toLower := by
  rw [Text.lower, String.toList_ofList,
    Text.lowerFrom_of_ascii fun c hc => ascii_of_isAlpha (h.letters c hc)]

theorem IsCode.toList_upper : (Text.upper s).toList = s.toList.map Char.toUpper := by
  rw [Text.upper, String.toList_ofList,
    Text.upperChars_of_ascii fun c hc => ascii_of_isAlpha (h.letters c hc)]

theorem IsCode.lower : IsCode Char.isLower (Text.lower s) := by
  constructor
  · rw [← String.length_toList, h.toList_lower, List.length_map, String.length_toList, h.length]
  · rw [h.toList_lower, List.forall_mem_map]
    exact fun c hc => (Char.isLower_toLower_eq_isAlpha c).trans (h.letters c hc)

theorem IsCode.upper : IsCode Char.isUpper (Text.upper s) := by
  constructor
  · rw [← String.length_toList, h.toList_upper, List.length_map, String.length_toList, h.length]
  · rw [h.toList_upper, List.forall_mem_map]
    exact fun c hc => (Char.isUpper_toUpper_eq_isAlpha c).trans (h.letters c hc)

theorem IsCode.lower_lower : Text.lower (Text.lower s) = Text.lower s := by
  rw [← String.toList_inj, h.lower.of_isLower.toList_lower, h.toList_lower, List.map_map]
  exact List.map_congr_left fun c _ => Char.toLower_toLower_eq_toLower c

theorem IsCode.lower_upper : Text.lower (Text.upper s) = Text.lower s := by
  rw [← String.toList_inj, h.upper.of_isUpper.toList_lower, h.toList_upper, h.toList_lower,
    List.map_map]
  exact List.map_congr_left fun c _ => Char.toLower_toUpper_eq_toLower c

omit h in
theorem IsCode.lower_eq (h : IsCode Char.isLower s) : Text.lower s = s := by
  rw [← String.toList_inj, h.of_isLower.toList_lower]
  have hkeep : ∀ c ∈ s.toList, c.toLower = id c := fun c hc =>
    Char.toLower_eq_of_not_isUpper fun hupper => Char.not_isLower_of_isUpper hupper (h.letters c hc)
  rw [List.map_congr_left hkeep, List.map_id]

end Letters

section Register

/-- An entry that a register gives for a code or a name. -/
def Register.Holds (register : Register α) (entry : α) : Prop :=
  (∃ kind code, register.byCode kind code = some entry) ∨ ∃ name, register.byName name = some entry

/-- A register whose two-letter codes tell its entries apart, and which does not care for the case
of a code. -/
structure Register.Coded (register : Register α) (code? : α → Option String) : Prop where
  letters : ∀ {entry code}, register.Holds entry → code? entry = some code →
    IsCode Char.isAlpha code
  own : ∀ {entry code}, register.Holds entry → code? entry = some code →
    register.byCode .alpha2 code = some entry
  caseless : ∀ {c d} kind, Text.lower c = Text.lower d →
    register.byCode kind c = register.byCode kind d

theorem holds_of_find (h : register.find v = some entry) : register.Holds entry := by
  unfold Register.find at h
  dsimp only at h
  split at h
  next found hfound =>
    cases h
    obtain ⟨kind, -, hkind⟩ := List.exists_of_findSome?_eq_some hfound
    exact .inl ⟨kind, _, hkind⟩
  next => exact .inr ⟨v, h⟩

/-- An entry is found by its two-letter code, in letters of either case. -/
theorem Register.Coded.find (h : register.Coded code?) (hheld : register.Holds entry)
    (hcode : code? entry = some code) (hs : IsCode Char.isAlpha s)
    (hcase : Text.lower s = Text.lower code) : register.find s = some entry := by
  have hown : register.byCode .alpha2 (Text.lower s) = some entry := by
    rw [h.caseless .alpha2 (hs.lower_lower.trans hcase), h.own hheld hcode]
  rw [Register.find, hs.lower.length]
  simp [codeKinds, hown]

theorem mem_of_codeOf? (h : codeOf? table v = some code) : code ∈ table.map (·.1) := by
  obtain ⟨row, hrow, rfl⟩ := Option.map_eq_some_iff.mp h
  exact List.mem_map_of_mem (List.mem_of_find?_eq_some hrow)

theorem mem_of_codeNaming? (h : codeNaming? table v = some code) : code ∈ table.map (·.1) := by
  obtain ⟨row, hrow, rfl⟩ := Option.map_eq_some_iff.mp h
  exact List.mem_map_of_mem (List.mem_of_find?_eq_some hrow)

theorem codeOf?_of_mem (h : code ∈ table.map (·.1)) : codeOf? table code = some code := by
  obtain ⟨row, hrow, rfl⟩ := List.mem_map.mp h
  have hsome : (table.find? fun other => other.1 == row.1).isSome := by
    rw [List.find?_isSome]
    exact ⟨row, hrow, beq_self_eq_true row.1⟩
  obtain ⟨found, hfound⟩ := Option.isSome_iff_exists.mp hsome
  have hsame := List.find?_some hfound
  rw [codeOf?, hfound, Option.map_some, eq_of_beq hsame]

theorem exists_of_holds_ofTable {ofCode : String → α}
    (h : (Register.ofTable ofCode table).Holds entry) :
    ∃ code ∈ table.map (·.1), ofCode code = entry := by
  obtain ⟨kind, v, hfound⟩ | ⟨name, hfound⟩ := h
  · cases kind <;> obtain ⟨code, hcode, rfl⟩ := Option.map_eq_some_iff.mp hfound
    case alpha2 => exact ⟨code, mem_of_codeOf? hcode, rfl⟩
    all_goals exact ⟨code, mem_of_codeNaming? hcode, rfl⟩
  · obtain ⟨code, hcode, rfl⟩ := Option.map_eq_some_iff.mp hfound
    obtain hcode | ⟨-, hcode⟩ := Option.or_eq_some_iff.mp hcode
    · exact ⟨code, mem_of_codeOf? hcode, rfl⟩
    · exact ⟨code, mem_of_codeNaming? hcode, rfl⟩

/-- A table of codes in lower case makes such a register. -/
theorem coded_ofTable {ofCode : String → α} (hcode : ∀ code, code? (ofCode code) = some code)
    (htable : ∀ code ∈ table.map (·.1), IsCode Char.isLower code) :
    (Register.ofTable ofCode table).Coded code? where
  letters {_ code} hheld hown := by
    obtain ⟨own, hmem, rfl⟩ := exists_of_holds_ofTable hheld
    obtain rfl : own = code := Option.some.inj ((hcode own).symm.trans hown)
    exact (htable own hmem).of_isLower
  own {_ code} hheld hown := by
    obtain ⟨own, hmem, rfl⟩ := exists_of_holds_ofTable hheld
    obtain rfl : own = code := Option.some.inj ((hcode own).symm.trans hown)
    change (codeOf? table (Text.lower own)).map ofCode = _
    rw [(htable own hmem).lower_eq, codeOf?_of_mem hmem, Option.map_some]
  caseless kind hcase := by
    simp only [Register.ofTable, hcase]

theorem coded_languages : languages.Coded Language.alpha2 := by
  refine coded_ofTable (fun _ => rfl) fun code hmem => ?_
  have htable : ∀ row ∈ languageTable.map (·.1), row.length = 2 ∧ row.toList.all Char.isLower := by
    decide +kernel
  exact ⟨(htable code hmem).1, List.all_eq_true.mp (htable code hmem).2⟩

theorem coded_countries : countries.Coded fun country => some country.alpha2 := by
  refine coded_ofTable (fun _ => rfl) fun code hmem => ?_
  have htable : ∀ row ∈ regionTable.map (·.1), row.length = 2 ∧ row.toList.all Char.isLower := by
    decide +kernel
  exact ⟨(htable code hmem).1, List.all_eq_true.mp (htable code hmem).2⟩

end Register

section Results

theorem languageIn_eq_some (h : languageIn ls v = some code) :
    ∃ language alpha2, ls.Holds language ∧ language.alpha2 = some alpha2 ∧
      code = Text.lower alpha2 := by
  obtain ⟨candidate, -, hfound⟩ := List.exists_of_findSome?_eq_some h
  split at hfound
  · cases hfound
  · obtain ⟨language, hfind, hcode⟩ := Option.bind_eq_some_iff.mp hfound
    obtain ⟨alpha2, halpha2, hlower⟩ := Option.bind_eq_some_iff.mp hcode
    split at hlower
    · cases hlower
    · cases hlower
      exact ⟨language, alpha2, holds_of_find hfind, halpha2, rfl⟩

theorem regionIn_eq_some (h : regionIn cs v = some code) :
    ∃ country, cs.Holds country ∧ code = Text.upper country.alpha2 := by
  unfold regionIn at h
  dsimp only at h
  split at h
  · cases h
  · obtain ⟨country, hfind, rfl⟩ := Option.map_eq_some_iff.mp h
    exact ⟨country, holds_of_find hfind, rfl⟩

/-- A text that is a single part is looked for as it stands. -/
theorem languageIn_of_primary (hstrip : Text.strip p = p) (hpart : primary p = p) (hne : p ≠ "") :
    languageIn ls p = (ls.find p).bind Language.code? := by
  rw [languageIn, hstrip, hpart]
  simp only [List.findSome?_cons, List.findSome?_nil, if_neg hne]
  cases (ls.find p).bind Language.code? <;> rfl

theorem isCode_languageIn (hcoded : ls.Coded Language.alpha2)
    (h : languageIn ls v = some code) : IsCode Char.isLower code := by
  obtain ⟨language, alpha2, hheld, halpha2, rfl⟩ := languageIn_eq_some h
  exact (hcoded.letters hheld halpha2).lower

theorem isCode_regionIn (hcoded : cs.Coded fun country => some country.alpha2)
    (h : regionIn cs v = some code) : IsCode Char.isUpper code := by
  obtain ⟨country, hheld, rfl⟩ := regionIn_eq_some h
  exact (hcoded.letters hheld rfl).upper

theorem languageIn_code (hcoded : ls.Coded Language.alpha2)
    (h : languageIn ls v = some code) : languageIn ls code = some code := by
  obtain ⟨language, alpha2, hheld, halpha2, rfl⟩ := languageIn_eq_some h
  have hletters := hcoded.letters hheld halpha2
  have hlower := hletters.lower.of_isLower
  have hfind := hcoded.find hheld halpha2 hlower hletters.lower_lower
  rw [languageIn_of_primary hlower.strip hlower.primary hlower.ne_empty, hfind]
  simp [Language.code?, halpha2, hletters.ne_empty]

theorem regionIn_code (hcoded : cs.Coded fun country => some country.alpha2)
    (h : regionIn cs v = some code) : regionIn cs code = some code := by
  obtain ⟨country, hheld, rfl⟩ := regionIn_eq_some h
  have hletters := hcoded.letters hheld rfl
  have hupper := hletters.upper.of_isUpper
  have hfind := hcoded.find hheld rfl hupper hletters.lower_upper
  rw [regionIn, hupper.strip, if_neg hupper.ne_empty, hfind]
  rfl

theorem strip_append (hbefore : ∀ c ∈ before.toList, Text.isBlank c = true)
    (hafter : ∀ c ∈ after.toList, Text.isBlank c = true) :
    Text.strip (before ++ v ++ after) = Text.strip v := by
  rw [Text.strip, String.toList_append, String.toList_append, Text.trim_append_of_last hafter,
    Text.trim_append_of_head hbefore, Text.strip]

theorem primary_tag (hpart : ∀ c ∈ p.toList, isTagSeparator c = false)
    (hmark : isTagSeparator mark = true) : primary (p ++ String.singleton mark ++ s) = p := by
  have hstop : (mark :: s.toList).takeWhile (fun c => !isTagSeparator c) = [] :=
    List.takeWhile_cons_of_neg (by simp [hmark])
  rw [primary, String.toList_append, String.toList_append, List.append_assoc,
    List.takeWhile_append_of_pos fun c hc => by simp [hpart c hc], String.toList_singleton,
    List.singleton_append, hstop, List.append_nil, String.ofList_toList]

/-- What stands behind the first part of a tag does not matter where the part is a code or name. -/
theorem languageIn_tag (hpart : ∀ c ∈ p.toList, isTagSeparator c = false)
    (hstrip : Text.strip p = p) (h : languageIn ls p = some code)
    (hmark : isTagSeparator mark = true) (hlast : ∀ c ∈ s.toList.getLast?, Text.isBlank c = false) :
    languageIn ls (p ++ String.singleton mark ++ s) = some code := by
  have hne : p ≠ "" := by
    rintro rfl
    cases h
  have hprimary : primary p = p := by
    rw [primary, List.takeWhile_eq_self_iff.mpr fun c hc => by simp [hpart c hc],
      String.ofList_toList]
  have hfound : (ls.find p).bind Language.code? = some code := by
    rw [← languageIn_of_primary hstrip hprimary hne, h]
  have htrim : Text.trim Text.isBlank p.toList = p.toList := by
    rw [← String.toList_inj, Text.strip, String.toList_ofList] at hstrip
    exact hstrip
  have hsolid : Text.isBlank mark = false := by
    rw [isTagSeparator, Bool.or_eq_true, beq_iff_eq, beq_iff_eq] at hmark
    obtain rfl | rfl := hmark <;> decide
  have hwhole : Text.strip (p ++ String.singleton mark ++ s) = p ++ String.singleton mark ++ s := by
    rw [Text.strip, Text.trim_eq_self, String.ofList_toList]
    · intro c hc
      rw [String.toList_append, String.toList_append, List.append_assoc,
        List.head?_append_of_ne_nil _ (by simpa using hne), ← htrim] at hc
      exact Text.head?_trim hc
    · intro c hc
      rw [String.toList_append, String.toList_append, String.toList_singleton, List.append_assoc,
        List.getLast?_append_of_ne_nil _ (by simp), List.singleton_append, List.getLast?_cons] at hc
      cases hs : s.toList.getLast? with
      | none =>
        rw [hs] at hc
        cases hc
        exact hsolid
      | some d =>
        rw [hs] at hc
        cases hc
        exact hlast d hs
  rw [languageIn, hwhole, primary_tag hpart hmark]
  simp only [List.findSome?_cons, if_neg hne, hfound]

/-- In registers whose codes tell their entries apart, a text gives nothing or a code that gives
itself; a tag gives what its first part does, and white space around a text does not matter. -/
theorem codes_stable (hls : ls.Coded Language.alpha2)
    (hcs : cs.Coded fun country => some country.alpha2) :
    (∀ v, ∀ code ∈ languageIn ls v, IsCode Char.isLower code ∧ languageIn ls code = some code) ∧
    (∀ v, ∀ code ∈ regionIn cs v, IsCode Char.isUpper code ∧ regionIn cs code = some code) ∧
    (∀ p code mark s, (∀ c ∈ p.toList, isTagSeparator c = false) → Text.strip p = p →
      languageIn ls p = some code → isTagSeparator mark = true →
      (∀ c ∈ s.toList.getLast?, Text.isBlank c = false) →
      languageIn ls (p ++ String.singleton mark ++ s) = some code) ∧
    ∀ before v after, (∀ c ∈ before.toList, Text.isBlank c = true) →
      (∀ c ∈ after.toList, Text.isBlank c = true) →
      languageIn ls (before ++ v ++ after) = languageIn ls v ∧
      regionIn cs (before ++ v ++ after) = regionIn cs v := by
  refine ⟨fun v code h => ?_, fun v code h => ?_,
    fun p code mark s hpart hstrip h hmark hlast => ?_, fun before v after hbefore hafter => ?_⟩
  · exact ⟨isCode_languageIn hls h, languageIn_code hls h⟩
  · exact ⟨isCode_regionIn hcs h, regionIn_code hcs h⟩
  · exact languageIn_tag hpart hstrip h hmark hlast
  · have hstrip := strip_append (v := v) hbefore hafter
    exact ⟨by rw [languageIn, hstrip, languageIn], by rw [regionIn, hstrip, regionIn]⟩

/-- A three-letter code in capitals, and a tag that begins with it, between white space. -/
theorem codes_stable_frenchTag : languages.Coded Language.alpha2 ∧
    (countries.Coded fun country => some country.alpha2) ∧
    languageIn languages "FRE" = some "fr" ∧ languageIn languages "fr" = some "fr" ∧
    languageIn languages "\tFRE_Latn-CA\n" = some "fr" ∧
    regionIn countries "France" = some "FR" ∧ regionIn countries "FR" = some "FR" := by
  obtain ⟨hlanguage, hregion, htag, hblank⟩ := codes_stable coded_languages coded_countries
  have hfrench : languageIn languages "FRE" = some "fr" := by decide +kernel
  have hfrance : regionIn countries "France" = some "FR" := by decide +kernel
  have htagged : languageIn languages ("FRE" ++ String.singleton '_' ++ "Latn-CA") = some "fr" :=
    htag "FRE" "fr" '_' "Latn-CA" (by simp [isTagSeparator]) (by decide) hfrench (by decide)
      (by simp [Text.isBlank])
  refine ⟨coded_languages, coded_countries, hfrench, (hlanguage "FRE" "fr" hfrench).2, ?_, hfrance,
    (hregion "France" "FR" hfrance).2⟩
  exact (hblank "\t" "FRE_Latn-CA" "\n" (by simp [Text.isBlank]) (by simp [Text.isBlank])).1.trans
    htagged

end Results

end Typeset.Locale
