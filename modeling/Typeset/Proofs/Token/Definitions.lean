import Mathlib.Data.Finset.Card
import Typeset.Token.Collect

/-! What the top level of a document defines, read token by token, and what the search for
definitions makes of it: the last definition of a key is kept, and each of the others is named by
the warning of the next one. -/

namespace Typeset.Token

/-- What the token of a definition says. -/
structure Entry where
  identifier : String
  url : Value
  title : Value
  label : Value

/-- Identifiers that differ only in case are the same key. -/
def Entry.key (e : Entry) : String := Text.lower e.identifier

def Entry.definition (e : Entry) : Definition := ⟨.str e.identifier, e.url, e.title, e.label⟩

/-- What a token defines by itself; the tokens below it do not count. A malformed token has the
failure of whatever it lacks. -/
def entryOf : Value → Except Failure (Option Entry)
  | .object fields =>
    match fields.lookup "type" with
    | some (.str "definition") =>
      match fields.lookup "attrs" with
      | none => .error .missingKey
      | some (.object attrs) =>
        match attrs.lookup "identifier" with
        | none => .error .missingKey
        | some (.str identifier) =>
          .ok (some ⟨identifier, (attrs.lookup "url").getD (.str ""),
            (attrs.lookup "title").getD .null, (attrs.lookup "label").getD .null⟩)
        | some _ => .error .noMember
      | some _ => .error .mismatch
    | _ => .ok none
  | _ => .error .noMember

/-- The definitions before the first malformed token, and its failure. -/
def entriesOf : List Value → List Entry × Option Failure
  | [] => ([], none)
  | token :: rest =>
    match entryOf token with
    | .error f => ([], some f)
    | .ok none => entriesOf rest
    | .ok (some e) => (e :: (entriesOf rest).1, (entriesOf rest).2)

/-- A value that cannot be gone through is as malformed as a token. -/
def entriesIn (tokens : Value) : List Entry × Option Failure :=
  match tokens.tokens with
  | .ok items => entriesOf items
  | .error f => ([], some f)

/-- The last entry of a key. -/
def lastOf (key : String) (es : List Entry) : Option Entry := es.reverse.find? (·.key == key)

/-- The warning of an entry whose key has been defined before: it names the target that was the
last one until then. -/
def warning? (before : List Entry) (e : Entry) : Option Issue :=
  (lastOf e.key before).map fun earlier => duplicateDefinition e.identifier earlier.url e.url

/-- The warnings of all entries, each with those before it. -/
def warnings (es : List Entry) : List Issue :=
  (List.range es.length).filterMap fun i => es[i]?.bind (warning? (es.take i))

/-- The issue of a search that broke off. -/
def brokenOff (cause : Failure) : Issue where
  severity := .error
  code := .collectionFailed
  message := "Error collecting definitions: " ++ cause.text
  stage := .definitionCollection
  cause := some cause

variable {e : Entry} {es seen : List Entry} {found : Targets Definition} {token : Value}
  {key : String}

theorem lastOf_append (key : String) (xs ys : List Entry) :
    lastOf key (xs ++ ys) = (lastOf key ys).or (lastOf key xs) := by
  rw [lastOf, List.reverse_append, List.find?_append]
  rfl

theorem lastOf_singleton (key : String) (e : Entry) :
    lastOf key [e] = if e.key = key then some e else none := by
  by_cases h : e.key = key <;> simp [lastOf, h]

theorem lastOf_eq_none_iff : lastOf key es = none ↔ key ∉ es.map Entry.key := by
  simp [lastOf, List.find?_eq_none]

theorem warnings_append_singleton (es : List Entry) (e : Entry) :
    warnings (es ++ [e]) = warnings es ++ (warning? es e).toList := by
  have hlast : ((es ++ [e])[es.length]?.bind (warning? ((es ++ [e]).take es.length))) =
      warning? es e := by simp
  rw [warnings, List.length_append, List.length_singleton, List.range_succ, List.filterMap_append]
  congr 1
  · refine List.filterMap_congr fun i hi => ?_
    have hlt : i < es.length := List.mem_range.mp hi
    rw [List.getElem?_append_left hlt, List.take_append_of_le_length hlt.le]
  · rw [List.filterMap_cons, hlast]
    cases warning? es e <;> rfl

/-- A key has a warning for each of its entries but the first. -/
theorem length_warnings (es : List Entry) :
    (warnings es).length + (es.map Entry.key).toFinset.card = es.length := by
  induction es using List.reverseRecOn with
  | nil => rfl
  | append_singleton es e ih =>
    rw [warnings_append_singleton, List.length_append, List.map_append, List.toFinset_append,
      List.map_singleton, List.toFinset_cons, List.toFinset_nil, insert_empty_eq,
      Finset.union_comm, ← Finset.insert_eq, List.length_append, List.length_singleton]
    by_cases h : e.key ∈ es.map Entry.key
    · have hne := mt lastOf_eq_none_iff.mp (not_not.mpr h)
      obtain ⟨earlier, he⟩ := Option.ne_none_iff_exists'.mp hne
      rw [Finset.insert_eq_of_mem (List.mem_toFinset.mpr h), warning?, he, Option.map_some,
        Option.toList_some, List.length_singleton]
      omega
    · rw [Finset.card_insert_of_notMem (mt List.mem_toFinset.mp h), warning?,
        lastOf_eq_none_iff.mpr h, Option.map_none, Option.toList_none, List.length_nil]
      omega

/-- The targets found so far are the last ones of their keys. -/
def Holds (seen : List Entry) (found : Targets Definition) : Prop :=
  ∀ key, found.find key = (lastOf key seen).map Entry.definition

theorem holds_nil : Holds [] [] := fun _ => rfl

theorem Holds.set (h : Holds seen found) :
    Holds (seen ++ [e]) (found.set e.key e.definition) := by
  intro key
  rw [lastOf_append, lastOf_singleton]
  by_cases hk : e.key = key
  · subst hk
    rw [Targets.find_set_self, if_pos rfl]
    rfl
  · rw [Targets.find_set_of_ne _ _ (Ne.symm hk), if_neg hk, h key]
    rfl

theorem entryOf_of_other {fields : List (String × Value)}
    (h : fields.lookup "type" ≠ some (.str "definition")) :
    entryOf (.object fields) = .ok none := by
  rw [entryOf]
  split
  next htype => exact absurd htype h
  next => rfl

theorem entryOf_of_field {kind : Value} (h : token.field "type" .null = .ok kind)
    (hk : kind ≠ .str "definition") : entryOf token = .ok none := by
  cases token with
  | object fields =>
    refine entryOf_of_other fun hlookup => hk ?_
    rw [Value.field_object, hlookup] at h
    cases h
    rfl
  | _ => cases h

theorem addDefinition_of_other {fields : List (String × Value)}
    (h : fields.lookup "type" ≠ some (.str "definition")) :
    addDefinition (.object fields) found = .ok (found, []) := by
  have hkind : (((fields.lookup "type").getD .null).isText "definition") = false := by
    cases htype : fields.lookup "type" with
    | none => rfl
    | some kind =>
      cases kind with
      | str name => simpa [Value.isText, htype] using h
      | _ => rfl
  rw [addDefinition, Value.field_object]
  simp [bind, Except.bind, hkind, pure, Except.pure]

/-- A step takes up what the token defines, and warns of an earlier target of the same key. -/
theorem addDefinition_of_holds (h : Holds seen found) (token : Value) :
    addDefinition token found = (entryOf token).map fun
      | none => (found, [])
      | some e => (found.set e.key e.definition, (warning? seen e).toList) := by
  cases token with
  | object fields =>
    by_cases htype : fields.lookup "type" = some (.str "definition")
    · simp only [addDefinition, Value.field_object, entryOf, htype, Option.getD_some, Value.isText,
        bind, Except.bind, beq_self_eq_true, if_true]
      cases fields.lookup "attrs" with
      | none => rfl
      | some attrs =>
        cases attrs with
        | object attrs =>
          simp only [Option.getD_some, Value.required, Value.field_object]
          cases attrs.lookup "identifier" with
          | none => rfl
          | some identifier =>
            cases identifier with
            | str identifier =>
              simp only [Value.asText, h (Text.lower identifier), Except.map, warning?, Entry.key]
              cases lastOf (Text.lower identifier) seen <;> rfl
            | _ => rfl
        | _ => rfl
    · rw [addDefinition_of_other htype, entryOf_of_other htype]
      rfl
  | _ => rfl

theorem searchFrom_of_error {α : Type} {step : Value → α → Except Failure (α × List Issue)}
    {found : α} {f : Failure} {rest : List Value} (h : step token found = .error f) :
    searchFrom step found (token :: rest) = ⟨found, [], some f⟩ := by
  rw [searchFrom, h]

theorem searchFrom_of_ok {α : Type} {step : Value → α → Except Failure (α × List Issue)}
    {found next : α} {issues : List Issue} {rest : List Value}
    (h : step token found = .ok (next, issues)) :
    searchFrom step found (token :: rest) =
      ⟨(searchFrom step next rest).found, issues ++ (searchFrom step next rest).issues,
        (searchFrom step next rest).failure⟩ := by
  rw [searchFrom, h]

/-- A search goes through the entries before the first malformed token, and no further. -/
theorem searchFrom_of_holds (h : Holds seen found) (tokens : List Value) :
    Holds (seen ++ (entriesOf tokens).1) (searchFrom addDefinition found tokens).found ∧
      warnings seen ++ (searchFrom addDefinition found tokens).issues =
        warnings (seen ++ (entriesOf tokens).1) ∧
      (searchFrom addDefinition found tokens).failure = (entriesOf tokens).2 := by
  induction tokens generalizing seen found with
  | nil =>
    rw [entriesOf, searchFrom, List.append_nil, List.append_nil]
    exact ⟨h, rfl, rfl⟩
  | cons token rest ih =>
    have hstep := addDefinition_of_holds h token
    cases hentry : entryOf token with
    | error f =>
      rw [hentry] at hstep
      rw [searchFrom_of_error hstep, entriesOf, hentry, List.append_nil, List.append_nil]
      exact ⟨h, rfl, rfl⟩
    | ok entry =>
      rw [hentry] at hstep
      rw [searchFrom_of_ok hstep, entriesOf, hentry]
      cases entry with
      | none => exact ih h
      | some e =>
        obtain ⟨hfound, hissues, hfailure⟩ := ih (h.set (e := e))
        rw [List.append_assoc] at hfound hissues
        rw [warnings_append_singleton, List.append_assoc] at hissues
        exact ⟨hfound, hissues, hfailure⟩

/-- What the search finds and reports, on any value. -/
theorem definitions_of_entries (tokens : Value) :
    Holds (entriesIn tokens).1 (definitions tokens).answer ∧
      (definitions tokens).issues =
        warnings (entriesIn tokens).1 ++ ((entriesIn tokens).2.map brokenOff).toList := by
  rw [definitions, search, entriesIn]
  cases tokens.tokens with
  | error f => exact ⟨holds_nil, rfl⟩
  | ok items =>
    obtain ⟨hfound, hissues, hfailure⟩ := searchFrom_of_holds holds_nil items
    rw [List.nil_append] at hfound hissues
    rw [← hissues]
    cases hf : (entriesOf items).2 with
    | none =>
      rw [hf] at hfailure
      rw [Search.report, hfailure]
      exact ⟨hfound, (List.append_nil _).symm⟩
    | some f =>
      rw [hf] at hfailure
      rw [Search.report, hfailure]
      exact ⟨hfound, rfl⟩

theorem entriesOf_wellFormed {tokens : List Value}
    (h : ∀ token ∈ tokens, ∃ e, entryOf token = .ok e) :
    (entriesOf tokens).2 = none := by
  induction tokens with
  | nil => rfl
  | cons token rest ih =>
    obtain ⟨entry, he⟩ := h token List.mem_cons_self
    have hrest := ih fun t ht => h t (List.mem_cons_of_mem token ht)
    rw [entriesOf, he]
    cases entry with
    | none => exact hrest
    | some e => exact hrest

theorem entriesOf_append_of_none {before : List Value} (h : ∀ t ∈ before, entryOf t = .ok none)
    (rest : List Value) : entriesOf (before ++ rest) = entriesOf rest := by
  induction before with
  | nil => rfl
  | cons t before ih =>
    obtain ⟨ht, hmore⟩ := List.forall_mem_cons.mp h
    rw [List.cons_append, entriesOf, ht]
    exact ih hmore

theorem entriesOf_append_malformed {before after : List Value} {f : Failure}
    (h : ∀ t ∈ before, ∃ e, entryOf t = .ok e) (hf : entryOf token = .error f) :
    entriesOf (before ++ token :: after) = ((entriesOf before).1, some f) := by
  induction before with
  | nil => simp only [List.nil_append, entriesOf, hf]
  | cons first rest ih =>
    obtain ⟨entry, he⟩ := h first List.mem_cons_self
    have hrest := ih fun t ht => h t (List.mem_cons_of_mem first ht)
    rw [List.cons_append, entriesOf, entriesOf, he, hrest]
    cases entry <;> rfl

end Typeset.Token
