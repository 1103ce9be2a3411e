import Typeset.Conversion.Basic

/-! The stages of a conversion stop with failures of their own only, never with one that a
conversion as a whole is ended by. -/

namespace Typeset

namespace Failure

variable {α β : Type} {P : Failure → Prop}

/-- If the computation stops, then with a failure of this kind. -/
def Only (P : Failure → Prop) (x : Except Failure α) : Prop := ∀ f, x = .error f → P f

theorem only_ok (a : α) : Only P (.ok a : Except Failure α) := by
  intro f h
  cases h

theorem only_error {f : Failure} (h : P f) : Only P (.error f : Except Failure α) := by
  intro g hg
  cases hg
  exact h

theorem Only.bind {x : Except Failure α} {next : α → Except Failure β} (hx : Only P x)
    (hn : ∀ a, Only P (next a)) : Only P (x >>= next) := by
  cases x with
  | error f => exact only_error (hx f rfl)
  | ok a => exact hn a

theorem Only.map {x : Except Failure α} (hx : Only P x) (g : α → β) : Only P (x.map g) := by
  cases x with
  | error f => exact only_error (hx f rfl)
  | ok a => exact only_ok (g a)

theorem Only.ite {c : Prop} [Decidable c] {x y : Except Failure α} (hx : Only P x)
    (hy : Only P y) : Only P (if c then x else y) := by
  split
  · exact hx
  · exact hy

/-- A failure that comes from inside a stage. -/
def Inner (f : Failure) : Prop := f.isReported = false

end Failure

open Failure

namespace Value

theorem field_inner (v : Value) (key : String) (default : Value) :
    Only Inner (v.field key default) := by
  cases v with
  | object fields => exact only_ok _
  | _ => exact only_error rfl

theorem parts_inner (v : Value) : Only Inner v.parts := by
  cases v with
  | list items => exact only_ok _
  | str s => exact only_ok _
  | object fields => exact only_ok _
  | _ => exact only_error rfl

theorem asText_inner (v : Value) : Only Inner v.asText := by
  cases v with
  | str s => exact only_ok _
  | _ => exact only_error rfl

theorem needText_inner (v : Value) : Only Inner v.needText := by
  cases v with
  | str s => exact only_ok _
  | _ => exact only_error rfl

end Value

theorem metadataBlock_inner (tokens : List Value) : Only Inner (metadataBlock tokens) := by
  induction tokens with
  | nil => exact only_ok _
  | cons token rest ih =>
    rw [metadataBlock]
    refine (Value.field_inner _ _ _).bind fun kind => ?_
    split
    · exact Value.field_inner _ _ _
    · exact ih

namespace FrontMatter

theorem decode_inner (raw : String) (load : Yaml.Loader) : Only Inner (decode raw load) := by
  unfold decode
  split
  · exact only_ok _
  · split
    · exact only_ok _
    · exact only_ok _
    · exact only_ok _
    · exact only_ok _
    · exact only_error rfl

theorem decodeValue_inner (v : Value) (load : Yaml.Loader) : Only Inner (decodeValue v load) := by
  unfold decodeValue
  split
  · split
    · exact decode_inner _ load
    · exact only_error rfl
  · exact only_ok _

end FrontMatter

namespace Metadata

theorem authorValues_inner (author authors : Value) : Only Inner (authorValues author authors) := by
  unfold authorValues
  split
  · exact Value.parts_inner _
  · split
    · exact only_ok _
    · exact only_ok _
    · exact only_ok _

theorem resolveAuthors_inner (author authors : Value) :
    Only Inner (resolveAuthors author authors) :=
  (authorValues_inner author authors).bind fun _ => only_ok _

theorem mergeAuthors_inner (settings : Settings) (front : FrontMatter) :
    Only Inner (mergeAuthors settings front) := by
  refine (resolveAuthors_inner _ _).bind fun own => ?_
  split
  · exact resolveAuthors_inner _ _
  · exact only_ok _

theorem code_inner (lookup : String → Option String) (v : Value) : Only Inner (code lookup v) := by
  unfold code
  split
  · split
    · exact only_ok _
    · exact only_error rfl
  · exact only_ok _

theorem merge_inner (settings : Settings) (front : FrontMatter) (title : Value)
    (registers : Locale.Registers) : Only Inner (merge settings front title registers) := by
  refine (mergeAuthors_inner settings front).bind fun authors => ?_
  refine (code_inner _ _).bind fun language => ?_
  exact (code_inner _ _).bind fun region => only_ok _

end Metadata

namespace Rendering

variable {α β : Type} {P : Failure → Prop}

/-- If the computation stops, its failure has the property. -/
def Fails (P : Failure → Prop) (r : Rendering α) : Prop := Only P r.outcome

theorem fails_pure (a : α) : Fails P (pure a : Rendering α) := only_ok a

theorem fails_lift {x : Except Failure α} (h : Only P x) : Fails P (liftM x : Rendering α) := h

theorem fails_report (issue : Issue) : Fails P (report issue) := only_ok ()

theorem fails_ofReported (r : Reported α) : Fails P (ofReported r) := only_ok _

theorem Fails.bind {r : Rendering α} {next : α → Rendering β} (hr : Fails P r)
    (hn : ∀ a, Fails P (next a)) : Fails P (r >>= next) := by
  intro f hf
  cases ho : r.outcome with
  | error g =>
    rw [bind_of_error ho] at hf
    cases hf
    exact hr f ho
  | ok a =>
    rw [bind_of_ok ho] at hf
    exact hn a f hf

/-- A rescued computation stops only as its handler does. -/
theorem fails_rescue {r : Rendering α} {handler : Failure → Rendering α}
    (h : ∀ f, Fails P (handler f)) : Fails P (r.rescue handler) := by
  intro f hf
  cases ho : r.outcome with
  | ok a =>
    rw [rescue, ho] at hf
    cases ho.symm.trans hf
  | error g =>
    rw [rescue, ho] at hf
    exact h g f hf

end Rendering

namespace Render

open Rendering

variable {env : Environment} {active : List String}

theorem kindKey_inner (kind : Value) : Only Inner (Token.kindKey kind) := by
  unfold Token.kindKey
  split
  · exact only_ok _
  · exact only_error rfl

/-- A block stops only where its kind cannot be looked up. -/
theorem block_inner (token : Value) (indent : Int) :
    Fails Inner (block env active token indent) := by
  rw [block]
  refine (fails_lift (Value.field_inner _ _ _)).bind fun kind => ?_
  refine (fails_lift (kindKey_inner kind)).bind fun key => ?_
  split
  · exact fails_pure _
  · split
    · exact (fails_report _).bind fun _ => fails_pure _
    · exact fails_rescue fun cause => (fails_report _).bind fun _ => fails_pure _

theorem blocks_inner (tokens : List Value) (indent : Int) :
    Fails Inner (blocks env active tokens indent) := by
  induction tokens with
  | nil =>
    rw [blocks]
    exact fails_pure _
  | cons token rest ih =>
    rw [blocks]
    refine (block_inner token indent).bind fun here => ih.bind fun more => ?_
    cases here with
    | none => exact fails_pure _
    | some text => exact fails_pure _

theorem bodyTokens_inner (m : Metadata) (tokens index : Value) :
    Only Inner (bodyTokens m tokens index) := by
  unfold bodyTokens
  split
  · exact Value.parts_inner _
  · refine (Value.asText_inner _).bind fun title => ?_
    refine (Value.parts_inner _).bind fun all => ?_
    split
    · exact only_ok _
    · exact only_ok _

theorem bodyText_inner (m : Metadata) (tokens index : Value) :
    Fails Inner (bodyText env m tokens index) := by
  refine (fails_lift (bodyTokens_inner m tokens index)).bind fun body => ?_
  exact (blocks_inner body 0).bind fun parts => fails_pure _

theorem ownDateAndRule_inner (m : Metadata) : Fails Inner (ownDateAndRule m) := by
  unfold ownDateAndRule
  split
  · exact fails_rescue fun cause => (fails_report _).bind fun _ => fails_pure _
  · exact fails_pure _

theorem abstractMarkup_inner (m : Metadata) : Only Inner (abstractMarkup m) := by
  unfold abstractMarkup
  split
  · exact (Value.needText_inner _).map _
  · exact only_ok _

theorem document_inner (m : Metadata) (tokens index : Value) :
    Fails Inner (document env m tokens index) := by
  refine Fails.bind (bodyText_inner m tokens index) fun text => ?_
  refine (ownDateAndRule_inner m).bind fun dated => ?_
  exact (fails_lift (abstractMarkup_inner m)).bind fun abstract => fails_pure _

end Render

theorem Json.dumpsTree_inner (v : Value) : Only Inner (Json.dumpsTree v) := by
  unfold dumpsTree
  exact .ite (only_ok _) (only_error rfl)

theorem Converter.dump_inner (c : Converter) (tokens : List Value) :
    Only Inner (c.dump tokens) := by
  unfold dump
  exact .ite ((Json.dumpsTree_inner _).map _) (only_ok _)

open Rendering in
/-- Whatever the tokens are, and whatever the readers of YAML and of LaTeX raise, the stages of a
conversion stop with failures of their own. -/
theorem Converter.ofTokens_inner (c : Converter) (tokens : List Value) :
    Fails Inner (c.ofTokens tokens) := by
  unfold ofTokens
  refine (fails_lift (c.dump_inner tokens)).bind fun dump => ?_
  refine (fails_ofReported _).bind fun definitions => ?_
  refine (fails_ofReported _).bind fun footnotes => ?_
  refine (fails_lift (metadataBlock_inner tokens)).bind fun block => ?_
  refine (fails_lift (FrontMatter.decodeValue_inner block _)).bind fun front => ?_
  refine (fails_ofReported _).bind fun front => ?_
  refine (fails_ofReported _).bind fun leading => ?_
  refine (fails_lift (Metadata.merge_inner c.settings front _ _)).bind fun metadata => ?_
  exact (Render.document_inner metadata _ _).bind fun text => fails_pure _

end Typeset
