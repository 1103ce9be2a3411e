import Mathlib.Tactic.IntervalCases
import Typeset.FrontMatter
import Typeset.Proofs.Text.Lowered
import Typeset.Proofs.Text.Trim
import Typeset.Text.Hex

/-! Dates as authors write them. Every text is a keyword, a day of the calendar or neither, and a
point in time is as good as its day. -/

namespace Typeset.Date

variable {cs digits rest mark clock ys ms ds hs ns : List Char} {c : Char}
  {low high y m d y' m' d' : Nat} {value date keyword : String}

section Form

theorem takeDigits_append (low high : Nat) (rest : List Char)
    (hdigits : ∀ c ∈ digits, Text.isDecimalDigit c = true) (hlow : low ≤ digits.length)
    (hhigh : digits.length ≤ high)
    (hstop : digits.length = high ∨ ∀ c ∈ rest.head?, Text.isDecimalDigit c = false) :
    takeDigits low high (digits ++ rest) = some (digits, rest) := by
  have hnone : (rest.take (high - digits.length)).takeWhile Text.isDecimalDigit = [] := by
    obtain hfull | hhead := hstop
    · rw [hfull, Nat.sub_self, List.take_zero, List.takeWhile_nil]
    · cases rest with
      | nil => rw [List.take_nil, List.takeWhile_nil]
      | cons c rest =>
        cases high - digits.length with
        | zero => rfl
        | succ n =>
          rw [List.take_succ_cons, List.takeWhile_cons_of_neg (by simp [hhead c rfl])]
  rw [takeDigits, List.take_append, List.take_of_length_le hhigh,
    List.takeWhile_append_of_pos hdigits, hnone, List.append_nil, if_neg (Nat.not_lt.mpr hlow),
    List.drop_left]

theorem of_takeDigits (h : takeDigits low high cs = some (digits, rest)) :
    cs = digits ++ rest ∧ low ≤ digits.length ∧ digits.length ≤ high ∧
      ∀ c ∈ digits, Text.isDecimalDigit c = true := by
  unfold takeDigits at h
  dsimp only at h
  split at h
  · cases h
  next hlow =>
    cases h
    have hprefix := (List.takeWhile_prefix (l := cs.take high) Text.isDecimalDigit).trans
      (List.take_prefix high cs)
    refine ⟨(List.prefix_iff_eq_append.mp hprefix).symm, Nat.not_lt.mp hlow, ?_,
      fun c hc => List.mem_takeWhile_imp hc⟩
    exact (List.takeWhile_prefix _).length_le.trans (List.length_take_le high cs)

/-- Four digits, one or two, and one or two, joined by hyphens. -/
structure Form (cs ys ms ds : List Char) : Prop where
  text : cs = ys ++ '-' :: ms ++ '-' :: ds
  year : ys.length = 4
  month : ms.length = 1 ∨ ms.length = 2
  day : ds.length = 1 ∨ ds.length = 2
  digits : ∀ c ∈ ys ++ ms ++ ds, Text.isDecimalDigit c = true

theorem leadingDate_append (h : Form cs ys ms ds) (rest : List Char)
    (hstop : ∀ c ∈ rest.head?, Text.isDecimalDigit c = false) :
    leadingDate (cs ++ rest) = some ((ys, ms, ds), rest) := by
  obtain ⟨rfl, hyear, hmonth, hday, hdigits⟩ := h
  simp only [List.forall_mem_append] at hdigits
  have hhyphen (more : List Char) : ∀ c ∈ ('-' :: more).head?, Text.isDecimalDigit c = false := by
    rintro _ ⟨⟩
    decide
  have hys := takeDigits_append 4 4 ('-' :: (ms ++ '-' :: (ds ++ rest))) hdigits.1.1
    hyear.ge hyear.le (.inl hyear)
  have hms := takeDigits_append 1 2 ('-' :: (ds ++ rest)) hdigits.1.2 (by omega)
    (by omega) (.inr (hhyphen _))
  have hds := takeDigits_append 1 2 rest hdigits.2 (by omega) (by omega) (.inr hstop)
  have hafter (more : List Char) : Text.after? ['-'] ('-' :: more) = some more := rfl
  simp [leadingDate, hys, hms, hds, hafter]

theorem of_leadingDate (h : leadingDate cs = some ((ys, ms, ds), rest)) :
    ∃ date, Form date ys ms ds ∧ cs = date ++ rest := by
  simp only [leadingDate, Option.bind_eq_bind, Option.bind_eq_some_iff, Prod.exists,
    Option.some.injEq, Prod.mk.injEq] at h
  obtain ⟨ys, behindYear, hys, atMonth, hmark, ms, behindMonth, hms, atDay, hmark', ds, rest, hds,
    ⟨rfl, rfl, rfl⟩, rfl⟩ := h
  obtain ⟨rfl, hlow, hhigh, hyear⟩ := of_takeDigits hys
  obtain rfl := Text.eq_append_of_after? hmark
  obtain ⟨rfl, hlow', hhigh', hmonth⟩ := of_takeDigits hms
  obtain rfl := Text.eq_append_of_after? hmark'
  obtain ⟨rfl, hlow'', hhigh'', hday⟩ := of_takeDigits hds
  refine ⟨_, ⟨rfl, by omega, by omega, by omega, ?_⟩, by simp⟩
  simp only [List.forall_mem_append]
  exact ⟨⟨hyear, hmonth⟩, hday⟩

/-- A text of the form of a date, for the numbers that its digits write. -/
def Writes (cs : List Char) (y m d : Nat) : Prop :=
  ∃ ys ms ds, Form cs ys ms ds ∧ Text.numberOfDigits ys = y ∧ Text.numberOfDigits ms = m ∧
    Text.numberOfDigits ds = d

theorem numbers?_eq_some_iff : numbers? cs = some (y, m, d) ↔ Writes cs y m d := by
  constructor
  · intro h
    unfold numbers? at h
    split at h
    next ys ms ds hlead =>
      obtain ⟨date, hform, rfl⟩ := of_leadingDate hlead
      cases h
      exact ⟨ys, ms, ds, (List.append_nil date).symm ▸ hform, rfl, rfl, rfl⟩
    next => cases h
  · rintro ⟨ys, ms, ds, hform, rfl, rfl, rfl⟩
    have hlead := leadingDate_append hform [] (by simp)
    rw [List.append_nil] at hlead
    rw [numbers?, hlead]

end Form

section Calendar

/-- A year with a 29th of February. -/
def Leap (year : Nat) : Prop := 4 ∣ year ∧ (100 ∣ year → 400 ∣ year)

instance (year : Nat) : Decidable (Leap year) := inferInstanceAs (Decidable (_ ∧ (_ → _)))

/-- The lengths of the months, in their order. -/
def monthLengths (year : Nat) : List Nat :=
  [31, if Leap year then 29 else 28, 31, 30, 31, 30, 31, 31, 30, 31, 30, 31]

/-- A day of one of the twelve months of a year, from the first year on. -/
structure OnCalendar (y m d : Nat) : Prop where
  year : 0 < y
  month : 0 < m ∧ m ≤ 12
  day : 0 < d ∧ d ≤ (monthLengths y).getD (m - 1) 0

theorem isLeap_iff : isLeap y = true ↔ Leap y := by
  simp only [isLeap, Leap, Bool.and_eq_true, Bool.or_eq_true, beq_iff_eq, bne_iff_ne, ne_eq]
  omega

theorem getD_monthLengths (hpos : 0 < m) (hle : m ≤ 12) :
    (monthLengths y).getD (m - 1) 0 = daysIn y m := by
  have hfebruary : (if Leap y then 29 else 28) = daysIn y 2 := by
    simp only [daysIn, isLeap_iff, if_true]
  rw [monthLengths, hfebruary]
  interval_cases m <;> rfl

theorem fault?_eq_none_iff : fault? y m d = none ↔ OnCalendar y m d := by
  unfold fault?
  simp only [Bool.or_eq_true, decide_eq_true_eq]
  split
  next hy => exact iff_of_false (by simp) fun h => absurd h.year (by omega)
  split
  next hm => exact iff_of_false (by simp) fun h => absurd h.month (by omega)
  next hy hm =>
    have hlength := getD_monthLengths (y := y) (m := m) (by omega) (by omega)
    split
    next hd => exact iff_of_false (by simp) fun h => absurd (hlength ▸ h.day) (by omega)
    next hd => exact iff_of_true rfl ⟨by omega, by omega, hlength ▸ by omega⟩

end Calendar

section Expression

theorem toList_expression (y m d : Nat) : (expression y m d).toList =
    "datetime(day: ".toList ++ ((Text.decimal d).toList ++ (", month: ".toList ++
      ((Text.decimal m).toList ++ (", year: ".toList ++ ((Text.decimal y).toList ++
        ")".toList))))) := by
  delta expression
  simp only [String.toList_append, List.append_assoc]

/-- An expression tells the numbers of its day. -/
theorem expression_inj (h : expression y m d = expression y' m' d') :
    y = y' ∧ m = m' ∧ d = d' := by
  have hdigits (n : Nat) : ∀ c ∈ (Text.decimal n).toList, c.isDigit = true := fun c hc =>
    Text.isDigit_of_mem_decimal hc
  rw [← String.toList_inj, toList_expression, toList_expression] at h
  obtain ⟨hday, h⟩ := Text.digits_inj (hdigits d) (hdigits d') (by decide)
    (List.append_cancel_left h)
  obtain ⟨hmonth, h⟩ := Text.digits_inj (hdigits m) (hdigits m') (by decide)
    (List.append_cancel_left h)
  obtain ⟨hyear, -⟩ := Text.digits_inj (hdigits y) (hdigits y') (by decide)
    (List.append_cancel_left h)
  exact ⟨Text.decimal_inj hyear, Text.decimal_inj hmonth, Text.decimal_inj hday⟩

end Expression

section Parse

/-- The words that stand for a date of their own. -/
def keywords : List String := ["auto", "none"]

theorem parse_keyword (hkeyword : keyword ∈ keywords)
    (h : Text.lower (Text.strip value) = keyword) : parse value = ⟨keyword, []⟩ := by
  have hword : keyword = "auto" ∨ keyword = "none" := by simpa [keywords] using hkeyword
  unfold parse
  dsimp only
  rw [h, if_pos (by simpa using hword)]

/-- A date is longer than the keywords, and lowering does not shorten it to one. -/
theorem lower_notMem_keywords (h : Writes (Text.strip value).toList y m d) :
    Text.lower (Text.strip value) ∉ keywords := by
  have hhome : ∀ keyword ∈ keywords, keyword.length = 4 ∧
      keyword.toList.all fun c => decide (Text.IsHome c) := by decide
  obtain ⟨ys, ms, ds, ⟨htext, hyear, hmonth, hday, -⟩, -⟩ := h
  intro hmem
  obtain ⟨hlength, hletters⟩ := hhome _ hmem
  have hlower : Text.lowerFrom [] (Text.strip value).toList =
      (Text.lower (Text.strip value)).toList := by
    rw [Text.lower, String.toList_ofList]
  have hcase :
      (Text.strip value).toList.map Char.toLower = (Text.lower (Text.strip value)).toList :=
    (Text.lowerFrom_eq_iff fun c hc =>
      of_decide_eq_true (List.all_eq_true.mp hletters c hc)).mp hlower
  have hcount := congrArg List.length hcase
  rw [List.length_map, String.length_toList (s := Text.lower _), hlength, htext] at hcount
  simp only [List.length_append, List.length_cons] at hcount
  omega

theorem parse_date (h : Writes (Text.strip value).toList y m d) (hday : OnCalendar y m d) :
    parse value = ⟨expression y m d, []⟩ := by
  have hword := lower_notMem_keywords h
  simp only [keywords, List.mem_cons, List.not_mem_nil, or_false] at hword
  unfold parse
  dsimp only
  rw [if_neg (by simpa using hword), numbers?_eq_some_iff.mpr h]
  dsimp only
  rw [fault?_eq_none_iff.mpr hday]

/-- What is neither a keyword nor a day of the calendar stands for today, with one warning. -/
theorem parse_other (hword : Text.lower (Text.strip value) ∉ keywords)
    (hnone : ∀ y m d, Writes (Text.strip value).toList y m d → ¬ OnCalendar y m d) :
    ∃ warning, parse value = ⟨"auto", [warning]⟩ ∧ warning.severity = .warning ∧
      warning.code = .invalidDate := by
  simp only [keywords, List.mem_cons, List.not_mem_nil, or_false] at hword
  unfold parse
  dsimp only
  rw [if_neg (by simpa using hword)]
  split
  next y m d hnumbers =>
    have hfault := hnone y m d (numbers?_eq_some_iff.mp hnumbers)
    rw [← fault?_eq_none_iff] at hfault
    split
    next hnofault => exact absurd hnofault hfault
    next fault _ => exact ⟨_, rfl, rfl, rfl⟩
  next => exact ⟨_, rfl, rfl, rfl⟩

theorem parse_eq_expression_iff : parse value = ⟨expression y m d, []⟩ ↔
    Writes (Text.strip value).toList y m d ∧ OnCalendar y m d := by
  constructor
  · intro h
    by_cases hword : Text.lower (Text.strip value) ∈ keywords
    · have hkeywords : ∀ keyword ∈ keywords, keyword.toList.head? ≠ some 'd' := by decide
      have hcall : (expression y m d).toList.head? = some 'd' := by
        rw [toList_expression, List.head?_append_of_ne_nil _ (by decide)]
        decide
      rw [parse_keyword hword rfl] at h
      injection h with hsame
      exact absurd (hsame ▸ hcall) (hkeywords _ hword)
    · by_cases hdate : ∃ y m d, Writes (Text.strip value).toList y m d ∧ OnCalendar y m d
      · obtain ⟨y', m', d', hwrites, hday⟩ := hdate
        rw [parse_date hwrites hday] at h
        injection h with hsame
        obtain ⟨rfl, rfl, rfl⟩ := expression_inj hsame
        exact ⟨hwrites, hday⟩
      · obtain ⟨warning, hparse, -⟩ := parse_other hword fun y m d hwrites hday =>
          hdate ⟨y, m, d, hwrites, hday⟩
        rw [hparse] at h
        injection h with _ hissues
        cases hissues
  · rintro ⟨hwrites, hday⟩
    exact parse_date hwrites hday

end Parse

section Timestamp

/-- What stands between a day and a time of day: the letter T in either case, or blanks. -/
def Joins (mark : List Char) : Prop :=
  mark = ['T'] ∨ mark = ['t'] ∨ mark ≠ [] ∧ ∀ c ∈ mark, c = ' ' ∨ c = '\t'

/-- One or two digits, a colon and two digits. -/
structure Clock (cs hs ms : List Char) : Prop where
  text : cs = hs ++ ':' :: ms
  hour : hs.length = 1 ∨ hs.length = 2
  minute : ms.length = 2
  digits : ∀ c ∈ hs ++ ms, Text.isDecimalDigit c = true

theorem isBlank_of_digit (h : Text.isDecimalDigit c = true) : Text.isBlank c = false := by
  have hall : ∀ first ∈ Text.digitZeros, ∀ value < 10,
      Text.isBlank (Char.ofNat (first + value)) = false := by decide +kernel
  obtain ⟨value, hvalue⟩ := Option.isSome_iff_exists.mp h
  obtain ⟨first, hfirst, rfl⟩ := Option.map_eq_some_iff.mp hvalue
  have hrange := List.find?_some hfirst
  simp only [Bool.and_eq_true, decide_eq_true_eq] at hrange
  have hhere := hall first (List.mem_of_find?_eq_some hfirst) (c.toNat - first) (by omega)
  rwa [Nat.add_sub_cancel' hrange.1, Char.ofNat_toNat] at hhere

theorem startsWithClock_append (h : Clock cs hs ms) (rest : List Char) :
    startsWithClock (cs ++ rest) = true := by
  obtain ⟨rfl, hhour, hminute, hdigits⟩ := h
  obtain ⟨hhours, hminutes⟩ := List.forall_mem_append.mp hdigits
  have hhs := takeDigits_append 1 2 (':' :: (ms ++ rest)) hhours (by omega)
    (by omega) (.inr (by
      rintro _ ⟨⟩
      decide))
  have hms := takeDigits_append 2 2 rest hminutes hminute.ge hminute.le (.inl hminute)
  rw [List.append_assoc, List.cons_append, startsWithClock, hhs]
  simp only [hms, Option.isSome_some]

/-- No blank begins a time of day. -/
theorem Clock.dropWhile_blanks (h : Clock cs hs ns) :
    (cs ++ rest).dropWhile (fun c => c = ' ' || c = '\t') = cs ++ rest := by
  obtain ⟨rfl, hhour, -, hdigits⟩ := h
  cases hs with
  | nil => simp at hhour
  | cons c hs =>
    have hsolid := isBlank_of_digit (hdigits c (by simp))
    have hblank : ¬ (decide (c = ' ') || decide (c = '\t')) = true := by
      simp only [Bool.or_eq_true, decide_eq_true_eq]
      rintro (rfl | rfl) <;> cases hsolid
    exact List.dropWhile_cons_of_neg hblank

theorem Joins.ne_nil (h : Joins mark) : mark ≠ [] := by
  obtain rfl | rfl | ⟨hne, -⟩ := h
  · exact List.cons_ne_nil _ _
  · exact List.cons_ne_nil _ _
  · exact hne

theorem Joins.head_other (h : Joins mark) :
    ∀ c ∈ mark.head?, Text.isDecimalDigit c = false := by
  intro c hc
  obtain rfl | rfl | ⟨-, hblank⟩ := h
  · cases hc
    decide
  · cases hc
    decide
  · obtain rfl | rfl := hblank c (List.mem_of_mem_head? hc) <;> decide

theorem ofTimestamp?_append (h : Form cs ys ms ds) (hmark : Joins mark)
    (hclock : Clock clock hs ns) :
    ofTimestamp? (cs ++ (mark ++ (clock ++ rest))) = some cs := by
  have htime := startsWithClock_append hclock rest
  have hlead := leadingDate_append h (mark ++ (clock ++ rest))
    (by rw [List.head?_append_of_ne_nil _ hmark.ne_nil]; exact hmark.head_other)
  rw [ofTimestamp?, hlead, h.text]
  obtain rfl | rfl | ⟨hne, hblank⟩ := hmark
  · simp only [List.cons_append, List.nil_append, htime, if_true]
  · simp only [List.cons_append, List.nil_append, htime, if_true]
  · have hbehind : (mark ++ (clock ++ rest)).dropWhile (fun c => c = ' ' || c = '\t') =
        clock ++ rest := by
      rw [List.dropWhile_append_of_pos fun c hc => by simpa using hblank c hc,
        hclock.dropWhile_blanks]
    cases mark with
    | nil => exact absurd rfl hne
    | cons c blanks =>
      rw [List.cons_append] at hbehind ⊢
      obtain rfl | rfl := hblank c List.mem_cons_self <;> simp [hbehind, htime]

theorem Form.head_digit (h : Form cs ys ms ds) : ∀ c ∈ cs.head?, Text.isDecimalDigit c = true := by
  intro c hc
  have hne : ys ≠ [] := List.ne_nil_of_length_pos (by rw [h.year]; decide)
  rw [h.text, List.append_assoc, List.head?_append_of_ne_nil _ hne] at hc
  exact h.digits c (by simp [List.mem_of_mem_head? hc])

theorem Form.last_digit (h : Form cs ys ms ds) :
    ∀ c ∈ cs.getLast?, Text.isDecimalDigit c = true := by
  intro c hc
  have hne : ds ≠ [] := by
    rintro rfl
    simpa using h.day
  rw [h.text, List.getLast?_append_of_ne_nil _ (by simp), List.getLast?_cons_of_ne_nil hne] at hc
  exact h.digits c (by simp [List.mem_of_mem_getLast? hc])

theorem dateField_form (h : Form date.toList ys ms ds) :
    FrontMatter.dateField (some (.text date)) = ⟨.str date, []⟩ := by
  have hstrip : (Text.strip date).toList = date.toList := by
    rw [Text.strip, String.toList_ofList, Text.trim_eq_self
      (fun c hc => isBlank_of_digit (h.head_digit c hc))
      (fun c hc => isBlank_of_digit (h.last_digit c hc))]
  have hlead := leadingDate_append h [] (by simp)
  rw [List.append_nil] at hlead
  rw [FrontMatter.dateField, hstrip, ofTimestamp?, hlead]

/-- A point in time stands for its day in a metadata block. -/
theorem dateField_timestamp (h : Form date.toList ys ms ds) (hmark : Joins mark)
    (hclock : Clock clock hs ns)
    (hvalue : (Text.strip value).toList = date.toList ++ (mark ++ (clock ++ rest))) :
    FrontMatter.dateField (some (.text value)) = ⟨.str date, []⟩ := by
  rw [FrontMatter.dateField, hvalue, ofTimestamp?_append h hmark hclock]
  simp only [String.ofList_toList]

end Timestamp

/-- Every text is one of two words, a day of the calendar, or stands for today with one warning.
In a metadata block a day with a time behind it is read as the day alone. -/
theorem parse_trichotomy :
    (∀ value, ∀ keyword ∈ ["auto", "none"], Text.lower (Text.strip value) = keyword →
      parse value = ⟨keyword, []⟩) ∧
    (∀ value y m d, parse value = ⟨expression y m d, []⟩ ↔
      Writes (Text.strip value).toList y m d ∧ OnCalendar y m d) ∧
    (∀ value, Text.lower (Text.strip value) ∉ ["auto", "none"] →
      (∀ y m d, Writes (Text.strip value).toList y m d → ¬ OnCalendar y m d) →
      ∃ warning, parse value = ⟨"auto", [warning]⟩ ∧ warning.severity = .warning ∧
        warning.code = .invalidDate) ∧
    ∀ value date mark clock rest ys ms ds hs ns, Form date.toList ys ms ds → Joins mark →
      Clock clock hs ns →
      (Text.strip value).toList = date.toList ++ (mark ++ (clock ++ rest)) →
      FrontMatter.dateField (some (.text value)) = ⟨.str date, []⟩ ∧
      FrontMatter.dateField (some (.text date)) = ⟨.str date, []⟩ := by
  refine ⟨fun value keyword hkeyword h => parse_keyword hkeyword h,
    fun value y m d => parse_eq_expression_iff, fun value hword hnone => parse_other hword hnone,
    ?_⟩
  intro value date mark clock rest ys ms ds hs ns hform hmark hclock hvalue
  exact ⟨dateField_timestamp hform hmark hclock hvalue, dateField_form hform⟩

/-- A word in mixed case, a leap day in digits of another script, a day that a year lacks, and a
point in time between blanks. -/
theorem parse_trichotomy_leapDay :
    parse " AuTO" = ⟨"auto", []⟩ ∧
    parse "２０００-2-29\n" = ⟨"datetime(day: 29, month: 2, year: 2000)", []⟩ ∧
    (∃ warning, parse "2100-02-29" = ⟨"auto", [warning]⟩ ∧ warning.severity = .warning ∧
      warning.code = .invalidDate) ∧
    FrontMatter.dateField (some (.text " 2024-1-5 \t9:05Z ")) = ⟨.str "2024-1-5", []⟩ := by
  obtain ⟨hkeyword, hdate, hother, htime⟩ := parse_trichotomy
  have hleap : Writes (Text.strip "２０００-2-29\n").toList 2000 2 29 :=
    numbers?_eq_some_iff.mp (by decide +kernel)
  refine ⟨hkeyword " AuTO" "auto" (by simp) (by decide +kernel),
    (hdate _ 2000 2 29).mpr ⟨hleap, fault?_eq_none_iff.mp (by decide +kernel)⟩,
    hother "2100-02-29" (by decide +kernel) fun y m d hwrites hday => ?_,
    (htime _ "2024-1-5" " \t".toList "9:05".toList "Z".toList "2024".toList ['1'] ['5'] ['9']
      "05".toList ?_ ?_ ?_ (by decide +kernel)).1⟩
  · have hnumbers : numbers? (Text.strip "2100-02-29").toList = some (2100, 2, 29) := by
      decide +kernel
    cases hnumbers.symm.trans (numbers?_eq_some_iff.mpr hwrites)
    exact absurd (fault?_eq_none_iff.mpr hday) (by decide +kernel)
  · exact ⟨rfl, rfl, .inl rfl, .inl rfl, List.all_eq_true.mp (by decide +kernel)⟩
  · exact .inr (.inr ⟨List.cons_ne_nil _ _, by simp⟩)
  · exact ⟨rfl, .inl rfl, rfl, List.all_eq_true.mp (by decide +kernel)⟩

end Typeset.Date
