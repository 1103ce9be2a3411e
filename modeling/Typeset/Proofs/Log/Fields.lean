import Typeset.Log.Record
import Typeset.Proofs.Json.RoundTrip
import Typeset.Proofs.Value.Fields

/-! The line of a record says all that was given for the record: each key with the value of the last
source that knows it. -/

namespace Typeset.Log

open Failure (exists_of_bind)
open Json (Whole)

variable {r : Record} {P : Value → Prop}

/-- The values that a record brings to its line. -/
def Record.values (r : Record) : List Value :=
  r.issue.toList.flatMap (fun note => [note.code, note.severity, note.stage, note.details]) ++
    r.extra.map (·.2) ++ [r.stack]

section Tells

/-- What an issue says under a key. Details that are empty are left out. -/
def IssueNote.tells (note : IssueNote) (key : String) : Option Value :=
  if key = "code" then some note.code
  else if key = "severity" then some note.severity
  else if key = "stage" then some note.stage
  else if key = "details" then (if note.details.truthy then some note.details else none)
  else if key = "cause" then note.cause.map fun (kind, words) => .str (kind ++ ": " ++ words)
  else none

/-- What a record says by itself, under the keys that are always there. -/
def Record.tellsItself (r : Record) (time key : String) : Option Value :=
  if key = "ts" then some (.str time)
  else if key = "level" then some (.str (levelName r.level))
  else if key = "logger" then some (.str r.logger)
  else if key = "message" then some (.str r.message)
  else none

/-- What a record says under a key: the trace of calls before the exception, then the further
fields, of which the last one counts, then the issue, then the record itself. -/
def Record.tells (r : Record) (time key : String) : Option Value :=
  (if key = "stack_info" ∧ r.stack.truthy = true then some r.stack else none).or <|
  (if key = "exception" then r.exception.map .str else none).or <|
  (r.extra.reverse.lookup key).or <|
  (r.issue.bind fun note => note.tells key).or <|
  r.tellsItself time key

theorem lookup_noteFields (note : IssueNote) (key : String) :
    note.fields.reverse.lookup key = note.tells key := by
  unfold IssueNote.tells
  split_ifs <;> cases hdetails : note.details.truthy <;> cases hcause : note.cause <;>
    simp [*, IssueNote.fields, Value.lookup_cons_ite] at *

theorem lookup_base (r : Record) (time key : String) :
    [("ts", Value.str time), ("level", .str (levelName r.level)), ("logger", .str r.logger),
      ("message", .str r.message)].lookup key = r.tellsItself time key := by
  simp [Record.tellsItself, Value.lookup_cons_ite]

theorem lookup_fields (r : Record) (time key : String) :
    (r.fields time).lookup key = r.tells time key := by
  have hnote : ((r.issue.map IssueNote.fields).getD []).reverse.lookup key =
      r.issue.bind fun note => note.tells key := by
    cases r.issue with
    | none => rfl
    | some note => exact lookup_noteFields note key
  have hexception :
      (r.exception.map fun text => ("exception", Value.str text)).toList.reverse.lookup key =
        if key = "exception" then r.exception.map .str else none := by
    cases r.exception <;> simp [Value.lookup_cons_ite]
  have hstack (fields : List (String × Value)) : (if r.stack.truthy then
      Value.setField "stack_info" r.stack fields else fields).lookup key =
        (if key = "stack_info" ∧ r.stack.truthy = true then some r.stack else none).or
          (fields.lookup key) := by
    by_cases hkey : key = "stack_info" <;> cases r.stack.truthy <;>
      simp [hkey, Value.lookup_setField_ite]
  rw [Record.tells, Record.fields, hstack, Value.lookup_override, hexception,
    Value.lookup_override, Value.lookup_override, hnote, lookup_base]

end Tells

section Line

/-- What holds of every text and of the values that come with a record holds of all its fields. -/
theorem forall_fields (hstr : ∀ s, P (.str s)) (h : ∀ v ∈ r.values, P v) (time : String) :
    ∀ f ∈ r.fields time, P f.2 := by
  simp only [Record.values, List.forall_mem_append, List.forall_mem_map,
    List.forall_mem_singleton] at h
  obtain ⟨⟨hnote, hextra⟩, hstack⟩ := h
  have hissue : ∀ f ∈ (r.issue.map IssueNote.fields).getD [], P f.2 := by
    cases hi : r.issue with
    | none => exact List.forall_mem_nil _
    | some note =>
      obtain ⟨hcode, hseverity, hstage, hdetails⟩ :
          P note.code ∧ P note.severity ∧ P note.stage ∧ P note.details := by
        simpa [hi] using hnote
      have hcause : ∀ f ∈ (note.cause.map fun cause =>
          ("cause", Value.str (cause.1 ++ ": " ++ cause.2))).toList, P f.2 := by
        cases note.cause <;> simp [hstr]
      simp only [Option.map_some, Option.getD_some, IssueNote.fields, List.forall_mem_append]
      refine ⟨⟨by simp [hcode, hseverity, hstage], ?_⟩, hcause⟩
      split <;> simp [hdetails]
  have hexception : ∀ f ∈ (r.exception.map fun text => ("exception", Value.str text)).toList,
      P f.2 := by
    cases r.exception <;> simp [hstr]
  have hbase : ∀ f ∈ [("ts", Value.str time), ("level", .str (levelName r.level)),
      ("logger", .str r.logger), ("message", .str r.message)], P f.2 := by
    simp [hstr]
  have hraised := Value.forall_override
    (Value.forall_override (Value.forall_override hbase hissue) hextra) hexception
  rw [Record.fields]
  split
  · exact Value.forall_setField _ hstack hraised
  · exact hraised

theorem nodup_fields (r : Record) (time : String) : (Value.keysOf (r.fields time)).Nodup := by
  have hbase : (Value.keysOf [("ts", Value.str time), ("level", .str (levelName r.level)),
      ("logger", .str r.logger), ("message", .str r.message)]).Nodup := by
    simp [Value.keysOf]
  have hraised := Value.nodup_keysOf_override
    (r.exception.map fun text => ("exception", Value.str text)).toList
    (Value.nodup_keysOf_override r.extra
      (Value.nodup_keysOf_override ((r.issue.map IssueNote.fields).getD []) hbase))
  rw [Record.fields]
  split
  · exact Value.nodup_keysOf_setField _ _ hraised
  · exact hraised

/-- The keys that every record has. -/
def guaranteedKeys : List String := ["ts", "level", "logger", "message"]

theorem isSome_tellsItself (r : Record) (time : String) :
    ∀ key ∈ guaranteedKeys, (r.tellsItself time key).isSome := by
  simp [guaranteedKeys, Record.tellsItself]

theorem isSome_tells {key : String} (r : Record) (time : String) (hkey : key ∈ guaranteedKeys) :
    (r.tells time key).isSome := by
  simp [Record.tells, isSome_tellsItself r time key hkey]

theorem line_of_writable {time : String} (htime : timestamp r.created = .ok time)
    (h : (Value.object (r.fields time)).isWritable = true) :
    r.line = .ok (Json.line (.object (r.fields time))) := by
  rw [Record.line, htime]
  exact Json.dumps_eq_ok_iff.mpr ⟨h, rfl⟩

/-- A record is written if its time can be shown and no number that it says is too long. -/
theorem line_ok_iff : (∃ line, r.line = .ok line) ↔ ∃ time, timestamp r.created = .ok time ∧
    ∀ key v, r.tells time key = some v → v.isWritable = true := by
  have hfields (time : String) : (Value.object (r.fields time)).isWritable = true ↔
      ∀ key v, r.tells time key = some v → v.isWritable = true := by
    simp only [Json.isWritable_object, ← lookup_fields,
      Value.lookup_eq_some_iff (nodup_fields r time), Prod.forall]
  constructor
  · rintro ⟨line, hline⟩
    obtain ⟨time, htime, hdumps⟩ := exists_of_bind hline
    exact ⟨time, htime, (hfields time).mp (Json.dumps_eq_ok_iff.mp hdumps).1⟩
  · rintro ⟨time, htime, hwritable⟩
    exact ⟨_, line_of_writable htime ((hfields time).mpr hwritable)⟩

/-- A record without fractions is written on one line, and read back as the object that says what
the record says: no key twice, each with its last value, and the guaranteed keys among them. It is
written if its time can be shown and no number that it says is too long. -/
theorem line_reads_back (h : ∀ v ∈ r.values, Whole v) :
    ((∃ line, r.line = .ok line) ↔ ∃ time, timestamp r.created = .ok time ∧
      ∀ key v, r.tells time key = some v → v.isWritable = true) ∧
    ∀ line, r.line = .ok line → '\n' ∉ line.toList ∧ '\r' ∉ line.toList ∧
      ∃ time fields, timestamp r.created = .ok time ∧ Json.read line = some (.object fields) ∧
        (Value.keysOf fields).Nodup ∧ (∀ key, fields.lookup key = r.tells time key) ∧
        ∀ key ∈ guaranteedKeys, (fields.lookup key).isSome := by
  refine ⟨line_ok_iff, fun line hline => ?_⟩
  obtain ⟨time, htime, hdumps⟩ := exists_of_bind hline
  obtain ⟨hwritable, rfl⟩ := Json.dumps_eq_ok_iff.mp hdumps
  have hwhole : Whole (.object (r.fields time)) :=
    .object (nodup_fields r time) (forall_fields Whole.str h time)
  have hclear := Json.clear_line hwhole
  refine ⟨hclear.notMem (by decide), hclear.notMem (by decide), time, r.fields time, htime,
    Json.read_line hwhole hwritable, nodup_fields r time, lookup_fields r time,
    fun key hkey => ?_⟩
  rw [lookup_fields]
  exact isSome_tells r time hkey

/-- A record whose further fields override its message, twice, and the code of its issue. -/
def clashingRecord : Record where
  level := 30
  logger := "a"
  message := "first"
  issue := some { code := .str "FATAL", severity := .str "error", stage := .str "conversion"
                  details := .object [("kept", .list [.int (-3), .null, .str "\"\\\n\r\x01"])]
                  cause := some ("ValueError", "two\nlines") }
  extra := [("message", .str "second"), ("code", .int 7), ("message", .str "third")]
  stack := .str "trace"

/-- Clashing keys keep their last value, and control characters come back as they were. -/
theorem line_reads_back_clashing : ∃ line fields, clashingRecord.line = .ok line ∧
    '\n' ∉ line.toList ∧ Json.read line = some (.object fields) ∧
    fields.lookup "ts" = some (.str "1970-01-01T00:00:00+00:00") ∧
    fields.lookup "message" = some (.str "third") ∧ fields.lookup "code" = some (.int 7) ∧
    fields.lookup "cause" = some (.str "ValueError: two\nlines") ∧
    fields.lookup "details" =
      some (.object [("kept", .list [.int (-3), .null, .str "\"\\\n\r\x01"])]) ∧
    fields.lookup "stack_info" = some (.str "trace") := by
  have hdetails : Whole (.object [("kept", .list [.int (-3), .null, .str "\"\\\n\r\x01"])]) :=
    .object (by decide) (List.forall_mem_singleton.mpr
      (.list (by simp [Whole.int, Whole.null, Whole.str])))
  have hvalues : ∀ v ∈ clashingRecord.values, Whole v := by
    simp [Record.values, clashingRecord, Whole.str, Whole.int, hdetails]
  have htime : timestamp clashingRecord.created = .ok "1970-01-01T00:00:00+00:00" := by
    rfl
  obtain ⟨-, hback⟩ := line_reads_back hvalues
  have hwritable : (Value.object (clashingRecord.fields "1970-01-01T00:00:00+00:00")).isWritable =
      true := by
    decide +kernel
  have hline := line_of_writable htime hwritable
  obtain ⟨hnewline, -, time, fields, htime', hread, -, htells, -⟩ := hback _ hline
  obtain rfl := Except.ok.inj (htime.symm.trans htime')
  exact ⟨_, fields, hline, hnewline, hread, htells "ts", htells "message", htells "code",
    htells "cause", htells "details", htells "stack_info"⟩

end Line

end Typeset.Log
