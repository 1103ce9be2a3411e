import Typeset.Json.Reader
import Typeset.Proofs.Json.Line
import Typeset.Proofs.Value.Fields

/-! What the JSON text of a value is read back as: the value itself, unless it has a number with a
fraction or with too many digits, or an object with a key twice. -/

namespace Typeset.Json

variable {cs rest more : List Char} {c : Char} {fuel : Nat} {v : Value} {vs : List Value}
  {fs done : List (String × Value)}

section String

theorem hexValue?_hexDigit {n : Nat} (h : n < 16) : Text.hexValue? (Text.hexDigit n) = some n := by
  interval_cases n <;> decide

theorem hexUnit_hexDigits {n : Nat} (h : n < 0x10000) (rest : List Char) :
    hexUnit (Text.hexDigits 4 n ++ rest) = some (n, rest) := by
  have hdigit (m : Nat) : Text.hexValue? (Text.hexDigit (m % 16)) = some (m % 16) :=
    hexValue?_hexDigit (Nat.mod_lt m (by decide))
  have hvalue : ((n / 16 / 16 / 16 % 16 * 16 + n / 16 / 16 % 16) * 16 + n / 16 % 16) * 16 +
      n % 16 = n := by omega
  simp [Text.hexDigits, hexUnit, hdigit, hvalue]

/-- A control character by its code point. -/
theorem escaped_hexDigits (h : c.toNat < 0x20) (rest : List Char) :
    escaped ('u' :: Text.hexDigits 4 c.toNat ++ rest) = some (c, rest) := by
  have hhigh : ¬(0xD800 ≤ c.toNat) := by omega
  have hlow : ¬(0xDC00 ≤ c.toNat) := by omega
  simp [escaped, hexUnit_hexDigits (by omega : c.toNat < 0x10000), hhigh, hlow, Char.ofNat_toNat]

/-- One character of a text is read back as itself, however it is written. -/
theorem stringBody_escapeChar (fuel : Nat) (done : List Char) (c : Char) (rest : List Char) :
    stringBody (fuel + 1) done (escapeChar c ++ rest) = stringBody fuel (c :: done) rest := by
  have hbehind (cs : List Char) (h : escaped (cs ++ rest) = some (c, rest)) :
      stringBody (fuel + 1) done ('\\' :: cs ++ rest) = stringBody fuel (c :: done) rest := by
    rw [List.cons_append, stringBody, if_neg (by decide), if_pos rfl, h]
  unfold escapeChar
  split_ifs with hmark hnewline hreturn htab hback hfeed hcontrol
  · obtain rfl | rfl : c = '"' ∨ c = '\\' := by simpa using hmark
    · exact hbehind ['"'] rfl
    · exact hbehind ['\\'] rfl
  · exact hbehind ['n'] (hnewline ▸ rfl)
  · exact hbehind ['r'] (hreturn ▸ rfl)
  · exact hbehind ['t'] (htab ▸ rfl)
  · exact hbehind ['b'] (by rw [← Char.ofNat_toNat c, hback]; rfl)
  · exact hbehind ['f'] (by rw [← Char.ofNat_toNat c, hfeed]; rfl)
  · exact hbehind _ (escaped_hexDigits hcontrol rest)
  · obtain ⟨hquote, hslash⟩ : c ≠ '"' ∧ c ≠ '\\' := by simpa using hmark
    rw [List.singleton_append, stringBody, if_neg hquote, if_neg hslash, if_neg hcontrol]

theorem stringBody_flatMap (cs done rest : List Char) (h : cs.length < fuel) :
    stringBody fuel done (cs.flatMap escapeChar ++ '"' :: rest) =
      some (String.ofList (done.reverse ++ cs), rest) := by
  induction cs generalizing fuel done with
  | nil =>
    obtain ⟨fuel, rfl⟩ := Nat.exists_eq_succ_of_ne_zero (Nat.ne_zero_of_lt h)
    rw [List.append_nil]
    exact if_pos rfl
  | cons c cs ih =>
    obtain ⟨fuel, rfl⟩ := Nat.exists_eq_succ_of_ne_zero (Nat.ne_zero_of_lt h)
    rw [List.flatMap_cons, List.append_assoc, stringBody_escapeChar,
      ih _ (Nat.lt_of_succ_lt_succ h), List.reverse_cons, List.append_assoc, List.singleton_append]

theorem escapeChar_ne_nil (c : Char) : escapeChar c ≠ [] := by
  unfold escapeChar
  split_ifs <;> simp

theorem length_le_flatMap (cs : List Char) : cs.length ≤ (cs.flatMap escapeChar).length := by
  induction cs with
  | nil => exact le_rfl
  | cons c cs ih =>
    have hpos := List.length_pos_of_ne_nil (escapeChar_ne_nil c)
    rw [List.flatMap_cons, List.length_append, List.length_cons]
    omega

/-- Text as it is written, up to the mark that ends it. -/
def written (s : String) : List Char := s.toList.flatMap escapeChar ++ ['"']

theorem toList_string (s : String) : (string s).toList = '"' :: written s := by
  rw [string, String.toList_ofList, written]

/-- A text is read back with the fuel that its reader has. -/
theorem stringBody_written (s : String) (rest : List Char) :
    stringBody ((written s ++ rest).length + 1) [] (written s ++ rest) = some (s, rest) := by
  have hlength : s.toList.length < (written s ++ rest).length + 1 := by
    have := length_le_flatMap s.toList
    simp only [written, List.length_append]
    omega
  have hbody := stringBody_flatMap s.toList [] rest hlength
  rwa [List.reverse_nil, List.nil_append, String.ofList_toList,
    ← List.singleton_append, ← List.append_assoc] at hbody

end String

section Number

/-- What comes behind a number does not go on with it. -/
def Ended (rest : List Char) : Prop :=
  ∀ c ∈ rest.head?, c.isDigit = false ∧ c ≠ '.' ∧ c ≠ 'e' ∧ c ≠ 'E'

theorem ne_of_isDigit (h : c.isDigit = true) {d : Char} (hd : d.isDigit = false) : c ≠ d := by
  rintro rfl
  exact Bool.false_ne_true (hd.symm.trans h)

/-- A number but zero does not begin with a zero. -/
theorem head?_toDigits {n : Nat} (h : 0 < n) : (Nat.toDigits 10 n).head? ≠ some '0' := by
  induction n using Nat.strongRecOn with
  | ind n ih =>
    obtain hsmall | hlarge := Nat.lt_or_ge n 10
    · interval_cases n <;> decide
    · have hne : Nat.toDigits 10 (n / 10) ≠ [] := Nat.toDigits_ne_nil
      rw [Nat.toDigits_of_base_le (by decide) hlarge, List.head?_append_of_ne_nil _ hne]
      exact ih (n / 10) (Nat.div_lt_self h (by decide)) (Nat.div_pos hlarge (by decide))

theorem toList_decimal_int (n : Int) : (Text.decimal n).toList =
    (if n < 0 then ['-'] else []) ++ Nat.toDigits 10 n.natAbs := by
  unfold Text.decimal
  split <;> simp

theorem wholeOf_decimal (n : Int) : Value.wholeOf (Text.decimal n).toList = n := by
  have hdigits : (Nat.toDigits 10 n.natAbs).foldl
      (fun n c => if c.isDigit then 10 * n + (c.toNat - 48) else n) 0 = n.natAbs := by
    rw [List.foldl_ext _ (fun n c => 10 * n + (c.toNat - 48)) 0
      fun m c hc => if_pos (Text.isDigit_of_mem_toDigits hc)]
    exact Nat.ofDigitChars_ten_toDigits
  have hsign : (Nat.toDigits 10 n.natAbs).head? ≠ some '-' := fun h =>
    absurd (Text.isDigit_of_mem_toDigits (List.mem_of_head? h)) (by decide)
  rw [toList_decimal_int, Value.wholeOf]
  split
  next hneg =>
    have hn : -(n.natAbs : Int) = n := by omega
    simpa [hdigits] using hn
  next hnat =>
    have hn : (n.natAbs : Int) = n := by omega
    simpa [hdigits, hsign] using hn

theorem digits_span (h : ∀ c ∈ cs, c.isDigit = true) (hrest : Ended rest) :
    (cs ++ rest).takeWhile Char.isDigit = cs ∧ (cs ++ rest).dropWhile Char.isDigit = rest := by
  rw [List.takeWhile_append_of_pos h, List.dropWhile_append_of_pos h]
  cases rest with
  | nil => simp
  | cons c rest =>
    have hc : c.isDigit = false := (hrest c rfl).1
    simp [hc]

theorem wholePart_toDigits (n : Nat) (hrest : Ended rest) :
    wholePart (Nat.toDigits 10 n ++ rest) = some (Nat.toDigits 10 n, rest) := by
  obtain rfl | hn := Nat.eq_zero_or_pos n
  · rfl
  · have hne : Nat.toDigits 10 n ≠ [] := Nat.toDigits_ne_nil
    obtain ⟨htake, hdrop⟩ :=
      digits_span (fun c hc => Text.isDigit_of_mem_toDigits (n := n) hc) hrest
    rw [wholePart, htake, hdrop, if_neg (by simp [hne])]
    intro more hzero
    refine head?_toDigits hn ?_
    rw [← List.head?_append_of_ne_nil (Nat.toDigits 10 n) hne, hzero, List.head?_cons]

theorem fractionPart_of_ended (h : Ended rest) : fractionPart rest = ([], rest) := by
  unfold fractionPart
  split
  next => exact absurd rfl (h '.' rfl).2.1
  next => rfl

theorem exponentPart_of_ended (h : Ended rest) : exponentPart rest = ([], rest) := by
  cases rest with
  | nil => rfl
  | cons c rest =>
    obtain ⟨-, -, hsmall, hlarge⟩ := h c rfl
    simp [exponentPart, hsmall, hlarge]

/-- A whole number is read from its decimal text, which must not be too long for it. -/
theorem number_decimal {n : Int} (hn : Text.isWritable n = true) (hrest : Ended rest) :
    number ((Text.decimal n).toList ++ rest) = some (.int n, rest) := by
  have hsign : signPart ['-'] ((Text.decimal n).toList ++ rest) =
      (if n < 0 then ['-'] else [], Nat.toDigits 10 n.natAbs ++ rest) := by
    rw [toList_decimal_int]
    split
    · rfl
    · have hne : Nat.toDigits 10 n.natAbs ≠ [] := Nat.toDigits_ne_nil
      obtain ⟨c, more, hcs⟩ := List.exists_cons_of_ne_nil hne
      have hc : c.isDigit = true := Text.isDigit_of_mem_toDigits (hcs ▸ List.mem_cons_self)
      have hminus : c ≠ '-' := ne_of_isDigit hc rfl
      simp [hcs, signPart, hminus]
  have hlength : (Nat.toDigits 10 n.natAbs).length ≤ Text.digitLimit := of_decide_eq_true hn
  rw [number, hsign]
  simp only [wholePart_toDigits _ hrest, fractionPart_of_ended hrest, exponentPart_of_ended hrest,
    Option.bind_eq_bind, Option.bind_some, List.append_nil, ← toList_decimal_int, wholeOf_decimal,
    List.isEmpty_nil, Bool.and_self, Bool.not_true, if_pos hlength]
  rfl

end Number

/-! Where a value starts, and what reading it back comes to. -/

section Value

/-- A value without fractions, in whose objects each key comes once. -/
inductive Whole : Value → Prop
  | null : Whole .null
  | bool (b : Bool) : Whole (.bool b)
  | int (n : Int) : Whole (.int n)
  | str (s : String) : Whole (.str s)
  | list {items : List Value} (h : ∀ v ∈ items, Whole v) : Whole (.list items)
  | object {fields : List (String × Value)} (hkeys : (Value.keysOf fields).Nodup)
    (h : ∀ f ∈ fields, Whole f.2) : Whole (.object fields)

/-- A character that stands where it is, between blanks. -/
def Solid (c : Char) : Prop := ∀ more, skipBlanks (c :: more) = c :: more

theorem solid_of_ne (h : (c = ' ' || c = '\n' || c = '\r' || c = '\t') = false) : Solid c :=
  fun _ => List.dropWhile_cons_of_neg (by simp [h])

theorem solid_of_isDigit (h : c.isDigit = true) : Solid c := by
  have hspace : c ≠ ' ' := ne_of_isDigit h rfl
  have hnewline : c ≠ '\n' := ne_of_isDigit h rfl
  have hreturn : c ≠ '\r' := ne_of_isDigit h rfl
  have htab : c ≠ '\t' := ne_of_isDigit h rfl
  exact solid_of_ne (by simp [hspace, hnewline, hreturn, htab])

/-- The start of a value, which is not the end of a list or an object. -/
def Opens (cs : List Char) : Prop :=
  ∃ c more, cs = c :: more ∧ Solid c ∧ c ≠ ']' ∧ c ≠ '\x7d'

theorem Opens.append (h : Opens cs) (rest : List Char) : Opens (cs ++ rest) := by
  obtain ⟨c, more, rfl, hc⟩ := h
  exact ⟨c, more ++ rest, rfl, hc⟩

theorem Opens.skipBlanks (h : Opens cs) : skipBlanks cs = cs := by
  obtain ⟨c, more, rfl, hsolid, -⟩ := h
  exact hsolid more

theorem opens_of_isDigit (h : c.isDigit = true) : Opens (c :: cs) :=
  ⟨c, cs, rfl, solid_of_isDigit h, ne_of_isDigit h rfl, ne_of_isDigit h rfl⟩

theorem opens_decimal (n : Int) : Opens (Text.decimal n).toList := by
  unfold Text.decimal
  split
  · exact ⟨'-', Nat.toDigits 10 n.natAbs, by simp, solid_of_ne rfl, by decide, by decide⟩
  · rw [String.toList_ofList]
    have hne : Nat.toDigits 10 n.natAbs ≠ [] := Nat.toDigits_ne_nil
    obtain ⟨c, more, hcs⟩ := List.exists_cons_of_ne_nil hne
    rw [hcs]
    exact opens_of_isDigit (Text.isDigit_of_mem_toDigits (hcs ▸ List.mem_cons_self))

theorem start_decimal {n : Int} (h : (Text.decimal n).toList = c :: cs) :
    c.isDigit = true ∨ c = '-' := by
  rw [toList_decimal_int] at h
  split at h
  · exact .inr (List.cons.inj h).1.symm
  · rw [List.nil_append] at h
    exact .inl (Text.isDigit_of_mem_toDigits (h ▸ List.mem_cons_self))

theorem opens_line (h : Whole v) : Opens (line v).toList := by
  cases h with
  | null => exact ⟨'n', _, rfl, solid_of_ne rfl, by decide, by decide⟩
  | bool b =>
    cases b with
    | true => exact ⟨'t', _, rfl, solid_of_ne rfl, by decide, by decide⟩
    | false => exact ⟨'f', _, rfl, solid_of_ne rfl, by decide, by decide⟩
  | int n => exact opens_decimal n
  | str s => exact ⟨'"', _, toList_string s, solid_of_ne rfl, by decide, by decide⟩
  | list h => exact ⟨'[', _, by simp [line]; rfl, solid_of_ne rfl, by decide, by decide⟩
  | object hkeys h => exact ⟨'\x7b', _, by simp [line]; rfl, solid_of_ne rfl, by decide, by decide⟩

/-- A value is read back from its text and leaves what comes behind it. -/
def ReadsBack (v : Value) : Prop :=
  ∀ {fuel : Nat} {cs rest : List Char}, skipBlanks cs = (line v).toList ++ rest → Ended rest →
    (line v).toList.length ≤ fuel → value fuel cs = some (v, rest)

theorem readsBack_of_succ (hopens : Opens (line v).toList)
    (h : ∀ {fuel : Nat} {cs rest : List Char}, skipBlanks cs = (line v).toList ++ rest →
      Ended rest → (line v).toList.length ≤ fuel + 1 → value (fuel + 1) cs = some (v, rest)) :
    ReadsBack v := by
  intro fuel cs rest hcs hrest hfuel
  obtain ⟨c, more, hline, -⟩ := hopens
  obtain ⟨fuel, rfl⟩ : ∃ n, fuel = n + 1 :=
    Nat.exists_eq_succ_of_ne_zero fun h0 => by simp [hline, h0] at hfuel
  exact h hcs hrest hfuel

/-- What the reader does, by the characters it comes to. -/
structure Reader (fuel : Nat) (cs : List Char) : Prop where
  null {rest : List Char} : skipBlanks cs = 'n' :: 'u' :: 'l' :: 'l' :: rest →
    value (fuel + 1) cs = some (.null, rest)
  bool {rest : List Char} (b : Bool) : skipBlanks cs = (line (.bool b)).toList ++ rest →
    value (fuel + 1) cs = some (.bool b, rest)
  str {rest : List Char} : skipBlanks cs = '"' :: rest → value (fuel + 1) cs =
    (stringBody (rest.length + 1) [] rest).map fun (s, rest) => (.str s, rest)
  emptyList {rest : List Char} : skipBlanks cs = '[' :: ']' :: rest →
    value (fuel + 1) cs = some (.list [], rest)
  list {rest more : List Char} {c : Char} : skipBlanks cs = '[' :: rest →
    skipBlanks rest = c :: more → c ≠ ']' →
    value (fuel + 1) cs = (items fuel (c :: more)).map fun (vs, rest) => (.list vs, rest)
  emptyObject {rest : List Char} : skipBlanks cs = '\x7b' :: '\x7d' :: rest →
    value (fuel + 1) cs = some (.object [], rest)
  object {rest more : List Char} {c : Char} : skipBlanks cs = '\x7b' :: rest →
    skipBlanks rest = c :: more → c ≠ '\x7d' →
    value (fuel + 1) cs = (fields fuel [] (c :: more)).map fun (fs, rest) => (.object fs, rest)
  numeral {v : Value} {rest more : List Char} {c : Char} : skipBlanks cs = c :: rest →
    c.isDigit = true ∨ c = '-' → number (c :: rest) = some (v, more) →
    value (fuel + 1) cs = some (v, more)
  lastItem {v : Value} {rest more : List Char} : value fuel cs = some (v, rest) →
    skipBlanks rest = ']' :: more → items (fuel + 1) cs = some ([v], more)
  item {v : Value} {rest more : List Char} : value fuel cs = some (v, rest) →
    skipBlanks rest = ',' :: more →
    items (fuel + 1) cs = (items fuel more).map fun (vs, rest) => (v :: vs, rest)
  lastField {key : String} {v : Value} {after rest more : List Char}
    {done : List (String × Value)} : skipBlanks cs = '"' :: (written key ++ ':' :: after) →
    value fuel after = some (v, rest) → skipBlanks rest = '\x7d' :: more →
    fields (fuel + 1) done cs = some (Value.setField key v done, more)
  field {key : String} {v : Value} {after rest more : List Char}
    {done : List (String × Value)} : skipBlanks cs = '"' :: (written key ++ ':' :: after) →
    value fuel after = some (v, rest) → skipBlanks rest = ',' :: more →
    fields (fuel + 1) done cs = fields fuel (Value.setField key v done) more

theorem reader (fuel : Nat) (cs : List Char) : Reader fuel cs := by
  have hcolon (after : List Char) : skipBlanks (':' :: after) = ':' :: after :=
    solid_of_ne rfl after
  constructor
  case null =>
    intro rest h
    rw [value, h]
    rfl
  case bool =>
    intro rest b h
    rw [value, h]
    cases b <;> rfl
  case str =>
    intro rest h
    rw [value, h]
    rfl
  case emptyList =>
    intro rest h
    rw [value, h]
    rfl
  case list =>
    intro rest more c h hrest hc
    simp only [value, h, hrest]
    split
    next he => exact absurd (List.cons.inj he).1 hc
    next => rfl
  case emptyObject =>
    intro rest h
    rw [value, h]
    rfl
  case object =>
    intro rest more c h hrest hc
    simp only [value, h, hrest]
    split
    next he => exact absurd (List.cons.inj he).1 hc
    next => rfl
  case numeral =>
    intro v rest more c h hc hnumber
    rw [value, h]
    split
    case h_7 => rw [hnumber, Option.orElse_some]
    all_goals
      next he =>
        obtain rfl := (List.cons.inj he).1
        simp at hc
  case lastItem =>
    intro v rest more hvalue h
    simp only [items, hvalue, h]
  case item =>
    intro v rest more hvalue h
    simp only [items, hvalue, h]
  case lastField =>
    intro key v after rest more done hkey hvalue h
    simp only [fields, hkey, stringBody_written, hcolon after, hvalue, h]
  case field =>
    intro key v after rest more done hkey hvalue h
    simp only [fields, hkey, stringBody_written, hcolon after, hvalue, h]

theorem readsBack_null : ReadsBack .null :=
  readsBack_of_succ (opens_line .null) fun hcs _ _ => (reader _ _).null hcs

theorem readsBack_bool (b : Bool) : ReadsBack (.bool b) :=
  readsBack_of_succ (opens_line (.bool b)) fun hcs _ _ => (reader _ _).bool b hcs

theorem readsBack_str (s : String) : ReadsBack (.str s) :=
  readsBack_of_succ (opens_line (.str s)) fun {fuel cs rest} hcs _ _ => by
    have hline : skipBlanks cs = '"' :: (written s ++ rest) := by
      rw [hcs, line, toList_string, List.cons_append]
    rw [(reader _ _).str hline, stringBody_written, Option.map_some]

theorem readsBack_int {n : Int} (h : Text.isWritable n = true) : ReadsBack (.int n) :=
  readsBack_of_succ (opens_line (.int n)) fun {fuel cs rest} hcs hrest _ => by
    obtain ⟨c, more, hline, -⟩ := opens_decimal n
    have hstart : skipBlanks cs = c :: (more ++ rest) := by
      rw [hcs, line, hline, List.cons_append]
    refine (reader _ _).numeral hstart (start_decimal hline) ?_
    rw [← List.cons_append, ← hline]
    exact number_decimal h hrest

end Value

/-! Several values, with a comma and a blank between them. -/

section Several

variable {part : String} {parts : List String}

/-- The texts of items or fields, on their line. -/
def joined (parts : List String) : List Char := (", ".intercalate parts).toList

theorem joined_singleton (part : String) : joined [part] = part.toList := by
  rw [joined, String.intercalate_singleton]

theorem joined_cons (part : String) (h : parts ≠ []) :
    joined (part :: parts) = part.toList ++ ',' :: ' ' :: joined parts := by
  rw [joined, String.intercalate_cons_of_ne_nil h, String.toList_append, String.toList_append,
    List.append_assoc]
  rfl

theorem opens_joined (h : Opens part.toList) : Opens (joined (part :: parts)) := by
  by_cases hparts : parts = []
  · rwa [hparts, joined_singleton]
  · rw [joined_cons part hparts]
    exact h.append _

theorem skipBlanks_space (cs : List Char) : skipBlanks (' ' :: cs) = skipBlanks cs := rfl

theorem ended_cons (hdigit : c.isDigit = false) (h : c ∉ ['.', 'e', 'E']) : Ended (c :: rest) := by
  rintro d hd
  cases hd
  simpa [hdigit] using h

/-- The items of a list. Each takes one step of fuel, and has at least one character for it. -/
theorem items_joined (hne : vs ≠ []) (hvs : ∀ v ∈ vs, Whole v ∧ ReadsBack v)
    (h : skipBlanks cs = joined (lineItems vs) ++ ']' :: rest)
    (hfuel : (joined (lineItems vs)).length < fuel) : items fuel cs = some (vs, rest) := by
  induction vs generalizing fuel cs with
  | nil => exact absurd rfl hne
  | cons v vs ih =>
    obtain ⟨⟨hwhole, hv⟩, hmore⟩ := List.forall_mem_cons.mp hvs
    obtain ⟨fuel, rfl⟩ := Nat.exists_eq_succ_of_ne_zero (Nat.ne_zero_of_lt hfuel)
    cases vs with
    | nil =>
      rw [lineItems, lineItems, joined_singleton] at h hfuel
      have hvalue := hv h (ended_cons rfl (by decide)) (Nat.lt_succ_iff.mp hfuel)
      exact (reader _ _).lastItem hvalue (solid_of_ne rfl rest)
    | cons w vs =>
      rw [lineItems, joined_cons _ (by simp [lineItems])] at h hfuel
      rw [List.append_assoc] at h
      simp only [List.length_append, List.length_cons] at hfuel
      have hfits : (line v).toList.length ≤ fuel := by omega
      have hvalue := hv h (ended_cons rfl (by decide)) hfits
      rw [(reader _ _).item hvalue (solid_of_ne rfl _), ih (by simp) hmore ?_ (by omega)]
      · rfl
      · have hopens : Opens (joined (lineItems (w :: vs))) :=
          opens_joined (opens_line (hmore w List.mem_cons_self).1)
        exact (skipBlanks_space _).trans (hopens.append _).skipBlanks

theorem opens_field (key : String) (v : Value) :
    Opens (string key ++ ": " ++ line v).toList := by
  rw [String.append_assoc, String.toList_append, toList_string]
  exact ⟨'"', _, rfl, solid_of_ne rfl, by decide, by decide⟩

/-- A field as its reader meets it: its key, a colon, and its value. -/
theorem field_parts {key : String} (hwhole : Whole v) (hv : ReadsBack v) (hrest : Ended rest)
    (h : skipBlanks cs = (string key ++ ": " ++ line v).toList ++ rest)
    (hfuel : (line v).toList.length ≤ fuel) :
    ∃ after, skipBlanks cs = '"' :: (written key ++ ':' :: after) ∧
      value fuel after = some (v, rest) := by
  refine ⟨' ' :: ((line v).toList ++ rest), ?_, hv ?_ hrest hfuel⟩
  · rw [h, String.toList_append, String.toList_append, toList_string]
    simp
  · exact (skipBlanks_space _).trans ((opens_line hwhole).append rest).skipBlanks

/-- The fields of an object, behind those already read. As no key comes twice, each field is put at
the end and overrides none. -/
theorem fields_joined (hne : fs ≠ []) (hfs : ∀ f ∈ fs, Whole f.2 ∧ ReadsBack f.2)
    (hkeys : (Value.keysOf (done ++ fs)).Nodup)
    (h : skipBlanks cs = joined (lineFields fs) ++ '\x7d' :: rest)
    (hfuel : (joined (lineFields fs)).length < fuel) :
    fields fuel done cs = some (done ++ fs, rest) := by
  induction fs generalizing fuel cs done with
  | nil => exact absurd rfl hne
  | cons f fs ih =>
    obtain ⟨key, v⟩ := f
    obtain ⟨hwhole, hv⟩ : Whole v ∧ ReadsBack v := hfs _ List.mem_cons_self
    obtain ⟨fuel, rfl⟩ := Nat.exists_eq_succ_of_ne_zero (Nat.ne_zero_of_lt hfuel)
    have hset : Value.setField key v done = done ++ [(key, v)] := by
      rw [Value.keysOf, List.map_append] at hkeys
      exact Value.setField_of_notMem fun hmem =>
        (List.nodup_append.mp hkeys).2.2 key hmem key List.mem_cons_self rfl
    cases fs with
    | nil =>
      rw [lineFields, lineFields, joined_singleton] at h hfuel
      simp only [String.toList_append, List.length_append] at hfuel
      have hfits : (line v).toList.length ≤ fuel := by omega
      obtain ⟨after, hkey, hvalue⟩ := field_parts hwhole hv (ended_cons rfl (by decide)) h hfits
      rw [(reader _ _).lastField hkey hvalue (solid_of_ne rfl rest), hset]
    | cons g fs =>
      rw [lineFields, joined_cons _ (by simp [lineFields])] at h hfuel
      rw [List.append_assoc] at h
      simp only [String.toList_append, List.length_append, List.length_cons] at hfuel
      have hmore : ∀ f ∈ g :: fs, Whole f.2 ∧ ReadsBack f.2 := fun f hf =>
        hfs f (List.mem_cons_of_mem _ hf)
      have hopens : Opens (joined (lineFields (g :: fs))) := opens_joined (opens_field g.1 g.2)
      have hnext : fields fuel (done ++ [(key, v)])
          (' ' :: (joined (lineFields (g :: fs)) ++ '\x7d' :: rest)) =
            some (done ++ [(key, v)] ++ g :: fs, rest) :=
        ih (List.cons_ne_nil g fs) hmore (by rwa [List.append_assoc])
          ((skipBlanks_space _).trans (hopens.append _).skipBlanks) (by omega)
      have hfits : (line v).toList.length ≤ fuel := by omega
      obtain ⟨after, hkey, hvalue⟩ := field_parts hwhole hv (ended_cons rfl (by decide)) h hfits
      rw [(reader _ _).field hkey hvalue (solid_of_ne rfl _), hset,
        List.append_cons done (key, v) (g :: fs)]
      exact hnext

end Several

theorem toList_line_list (vs : List Value) :
    (line (.list vs)).toList = '[' :: (joined (lineItems vs) ++ [']']) := by
  rw [line, String.toList_append, String.toList_append]
  rfl

theorem toList_line_object (fs : List (String × Value)) :
    (line (.object fs)).toList = '\x7b' :: (joined (lineFields fs) ++ ['\x7d']) := by
  rw [line, String.toList_append, String.toList_append]
  rfl

theorem readsBack_list (hvs : ∀ v ∈ vs, Whole v ∧ ReadsBack v) : ReadsBack (.list vs) := by
  refine readsBack_of_succ (opens_line (.list fun v hv => (hvs v hv).1))
    fun {fuel cs rest} hcs _ hfuel => ?_
  rw [toList_line_list] at hcs hfuel
  rw [List.cons_append, List.append_assoc, List.singleton_append] at hcs
  simp only [List.length_cons, List.length_append] at hfuel
  cases vs with
  | nil => exact (reader _ _).emptyList hcs
  | cons v vs =>
    have hopens : Opens (joined (lineItems (v :: vs))) :=
      opens_joined (opens_line (hvs v List.mem_cons_self).1)
    obtain ⟨c, more, htext, hsolid, hclose, -⟩ := hopens.append (']' :: rest)
    have hskip := (hopens.append (']' :: rest)).skipBlanks
    rw [(reader _ _).list hcs (hskip.trans htext) hclose, ← htext,
      items_joined (List.cons_ne_nil v vs) hvs hskip (by omega)]
    rfl

theorem readsBack_object (hkeys : (Value.keysOf fs).Nodup)
    (hfs : ∀ f ∈ fs, Whole f.2 ∧ ReadsBack f.2) : ReadsBack (.object fs) := by
  refine readsBack_of_succ (opens_line (.object hkeys fun f hf => (hfs f hf).1))
    fun {fuel cs rest} hcs _ hfuel => ?_
  rw [toList_line_object] at hcs hfuel
  rw [List.cons_append, List.append_assoc, List.singleton_append] at hcs
  simp only [List.length_cons, List.length_append] at hfuel
  cases fs with
  | nil => exact (reader _ _).emptyObject hcs
  | cons f fs =>
    have hopens : Opens (joined (lineFields (f :: fs))) := opens_joined (opens_field f.1 f.2)
    obtain ⟨c, more, htext, hsolid, -, hend⟩ := hopens.append ('\x7d' :: rest)
    have hskip := (hopens.append ('\x7d' :: rest)).skipBlanks
    rw [(reader _ _).object hcs (hskip.trans htext) hend, ← htext,
      fields_joined (List.cons_ne_nil f fs) hfs hkeys hskip (by omega)]
    rfl

theorem itemsWritable_iff : Value.itemsWritable vs = true ↔ ∀ v ∈ vs, v.isWritable = true := by
  induction vs with
  | nil => simp [Value.itemsWritable]
  | cons v vs ih => simp [Value.itemsWritable, ih]

theorem fieldsWritable_iff : Value.fieldsWritable fs = true ↔ ∀ f ∈ fs, f.2.isWritable = true := by
  induction fs with
  | nil => simp [Value.fieldsWritable]
  | cons f fs ih => simp [Value.fieldsWritable, ih]

theorem isWritable_object : (Value.object fs).isWritable = true ↔
    ∀ f ∈ fs, f.2.isWritable = true := by
  rw [Value.isWritable, fieldsWritable_iff]

/-- A value is read back if its whole numbers are not too long to be read. -/
theorem readsBack (h : Whole v) (hwritable : v.isWritable = true) : ReadsBack v := by
  induction h with
  | null => exact readsBack_null
  | bool b => exact readsBack_bool b
  | int n => exact readsBack_int hwritable
  | str s => exact readsBack_str s
  | list h ih =>
    rw [Value.isWritable, itemsWritable_iff] at hwritable
    exact readsBack_list fun v hv => ⟨h v hv, ih v hv (hwritable v hv)⟩
  | object hkeys h ih =>
    rw [isWritable_object] at hwritable
    exact readsBack_object hkeys fun f hf => ⟨h f hf, ih f hf (hwritable f hf)⟩

/-- The text of a value is read back as the value. -/
theorem read_line (h : Whole v) (hwritable : v.isWritable = true) :
    read (line v) = some v := by
  have hvalue : value (2 * (line v).toList.length + 2) (line v).toList = some (v, []) := by
    refine readsBack h hwritable ?_ (fun c hc => nomatch hc) (by omega)
    rw [List.append_nil]
    exact (opens_line h).skipBlanks
  rw [read, hvalue]
  rfl

theorem Whole.reals {P : String → Prop} (h : Whole v) : Reals P v := by
  induction h with
  | null => exact .null
  | bool b => exact .bool b
  | int n => exact .int n
  | str s => exact .str s
  | list _ ih => exact .list ih
  | object _ _ ih => exact .object ih

/-- A value without fractions is written without any control character. -/
theorem clear_line (h : Whole v) : Clear (line v).toList := by
  intro c hc
  by_contra hcontrol
  exact control_notMem_line (Nat.not_le.mp hcontrol) h.reals hc

/-- A value is written only if its whole numbers are not too long. -/
theorem dumps_eq_ok_iff {text : String} :
    dumps v = .ok text ↔ v.isWritable = true ∧ line v = text := by
  rw [dumps]
  split <;> simp [*]

end Typeset.Json
