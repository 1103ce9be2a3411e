import Mathlib.Data.List.Nodup
import Mathlib.Data.List.Perm.Subperm
import Typeset.Proofs.Render.Footnote
import Typeset.Proofs.Render.Induction
import Typeset.Proofs.Session.Program

/-! A step follows a computation if, wherever footnotes are marked as the computation is told, it
ends as the computation ends and changes the session by what the computation reports. -/

namespace Typeset.Act

section Follows

open Render

variable {α β : Type} {env : Environment} {active : List String}

/-- Footnotes that came to be expanded inside one another below those expanded already: each of them
once, none of them one of those, and all of them defined. -/
def Nested (env : Environment) (active chain : List String) : Prop :=
  ∃ keys, chain = keys ++ active ∧ keys.Nodup ∧
    ∀ key ∈ keys, key ∉ active ∧ key ∈ env.footnotes.map (·.1)

theorem Nested.single {key : String} (ha : key ∉ active)
    (hk : key ∈ env.footnotes.map (·.1)) : Nested env active (key :: active) :=
  ⟨[key], rfl, List.nodup_singleton key, by simpa using ⟨ha, by simpa using hk⟩⟩

theorem Nested.below {key : String} {chain : List String} (ha : key ∉ active)
    (hk : key ∈ env.footnotes.map (·.1)) (h : Nested env (key :: active) chain) :
    Nested env active chain := by
  obtain ⟨keys, rfl, hnd, hkeys⟩ := h
  refine ⟨keys ++ [key], by simp, ?_, ?_⟩
  · refine List.nodup_append.mpr ⟨hnd, List.nodup_singleton key, ?_⟩
    intro k hmem k' hk' heq
    subst heq
    exact (hkeys k hmem).1 (by simp_all)
  · intro k hmem
    rcases List.mem_append.mp hmem with hmem | hmem
    · exact ⟨fun h => (hkeys k hmem).1 (List.mem_cons_of_mem _ h), (hkeys k hmem).2⟩
    · rw [List.mem_singleton.mp hmem]
      exact ⟨ha, hk⟩

/-- No more footnotes are expanded inside one another than are defined. -/
theorem Nested.length_le {chain : List String} (h : Nested env active chain) :
    chain.length ≤ env.footnotes.length + active.length := by
  obtain ⟨keys, rfl, hnd, hkeys⟩ := h
  have hsub : keys ⊆ env.footnotes.map (·.1) := fun k hk => (hkeys k hk).2
  have hle := (hnd.subperm hsub).length_le
  simp only [List.length_map] at hle
  simpa using hle

/-- On every session with this environment and these footnotes marked, the step ends as the
computation ends, and all it changes is to append. -/
def Follows (env : Environment) (active : List String) (x : Act α) (r : Rendering α) : Prop :=
  ∃ opened, (∀ chain ∈ opened, Nested env active chain) ∧
    ∀ s : Session, s.env = env → s.active = active →
      x s = some (r.outcome, s.extend r.issues r.remoteImage opened)

theorem follows_perform (r : Rendering α) : Follows env active (perform r) r :=
  ⟨[], by simp, fun _ _ _ => rfl⟩

theorem follows_pure (a : α) : Follows env active (pure a) (pure a) := follows_perform (pure a)

theorem Follows.bind {x : Act α} {r : Rendering α} {f : α → Act β} {g : α → Rendering β}
    (hx : Follows env active x r) (hf : ∀ a, Follows env active (f a) (g a)) :
    Follows env active (x >>= f) (r >>= g) := by
  obtain ⟨o, ho, hx⟩ := hx
  cases hr : r.outcome with
  | error e =>
    refine ⟨o, ho, fun s he ha => ?_⟩
    simp only [Bind.bind, andThen, hx s he ha, hr, Rendering.andThen, Rendering.withOutcome]
  | ok a =>
    obtain ⟨p, hp, hfa⟩ := hf a
    refine ⟨o ++ p, ?_, fun s he ha => ?_⟩
    · intro chain hc
      rcases List.mem_append.mp hc with hc | hc
      · exact ho chain hc
      · exact hp chain hc
    · have hnext := hfa (s.extend r.issues r.remoteImage o) he ha
      simp only [Bind.bind, andThen, hx s he ha, hr, hnext, Rendering.andThen, Rendering.after,
        Session.extend_extend]

theorem Follows.rescue {x : Act α} {r : Rendering α} {f : Failure → Act α}
    {g : Failure → Rendering α} (hx : Follows env active x r)
    (hf : ∀ e, Follows env active (f e) (g e)) :
    Follows env active (x.rescue f) (r.rescue g) := by
  obtain ⟨o, ho, hx⟩ := hx
  cases hr : r.outcome with
  | ok a =>
    refine ⟨o, ho, fun s he ha => ?_⟩
    simp only [Act.rescue, hx s he ha, hr, Rendering.rescue]
  | error e =>
    obtain ⟨p, hp, hfe⟩ := hf e
    refine ⟨o ++ p, ?_, fun s he ha => ?_⟩
    · intro chain hc
      rcases List.mem_append.mp hc with hc | hc
      · exact ho chain hc
      · exact hp chain hc
    · have hnext := hfe (s.extend r.issues r.remoteImage o) he ha
      simp only [Act.rescue, hx s he ha, hr, hnext, Rendering.rescue, Rendering.after,
        Session.extend_extend]

theorem follows_environment {f : Environment → Act α} {r : Rendering α}
    (h : Follows env active (f env) r) : Follows env active (environment >>= f) r := by
  obtain ⟨o, ho, hx⟩ := h
  refine ⟨o, ho, fun s he ha => ?_⟩
  simpa only [Bind.bind, andThen, environment, he] using hx s he ha

theorem follows_marked {f : List String → Act α} {r : Rendering α}
    (h : Follows env active (f active) r) : Follows env active (marked >>= f) r := by
  obtain ⟨o, ho, hx⟩ := h
  refine ⟨o, ho, fun s he ha => ?_⟩
  simpa only [Bind.bind, andThen, marked, ha] using hx s he ha

/-- A step with a footnote marked leaves no trace of the mark, and its expansion is one more that
was begun. -/
theorem Follows.expanding {key : String} {x : Act α} {r : Rendering α} (hk : key ∉ active)
    (hd : key ∈ env.footnotes.map (·.1)) (hx : Follows env (key :: active) x r) :
    Follows env active (x.expanding key) r := by
  obtain ⟨o, ho, hx⟩ := hx
  refine ⟨(key :: active) :: o, ?_, fun s he ha => ?_⟩
  · intro chain hc
    rcases List.mem_cons.mp hc with rfl | hc
    · exact Nested.single hk hd
    · exact (ho chain hc).below hk hd
  · subst ha
    have hm := hx (s.mark key) he (List.insert_of_not_mem hk)
    simp only [Act.expanding, hm, Session.unmark_extend_mark hk]

end Follows

/-! The renderers on a session follow the renderers that are told which footnotes enclose them. -/

section Simulation

open Render

variable {env : Environment} {active : List String} {depth : Nat}

theorem inline_follows {token : Value}
    (hb : Follows env active (inlinesBelow depth token) (Render.inlinesBelow env active token))
    (hf : Follows env active (footnoteReference depth token)
      (Render.footnoteReference env active token)) :
    Follows env active (inline depth token) (Render.inline env active token) := by
  rw [inline, Render.inline]
  refine follows_environment ?_
  refine (follows_perform _).bind fun kind => ?_
  refine (follows_perform _).bind fun key => ?_
  cases key.bind inlineKind? with
  | none => exact follows_perform _
  | some form =>
    cases form with
    | text => exact follows_perform _
    | wrapped opening closing => exact hb.bind fun text => follows_pure _
    | code => exact follows_perform _
    | link =>
      refine (follows_perform _).bind fun url => ?_
      exact hb.bind fun label => follows_perform _
    | linkReference =>
      refine (follows_perform _).bind fun identifier => ?_
      cases env.definitions.find (Text.lower identifier) with
      | some d => exact hb.bind fun label => follows_perform _
      | none =>
        refine (follows_perform _).bind fun _ => ?_
        refine hb.bind fun text => ?_
        split
        · exact follows_pure _
        · exact (follows_perform _).bind fun label => follows_perform _
    | image => exact (follows_perform _).bind fun url => follows_perform _
    | imageReference => exact follows_perform _
    | footnoteReference => exact hf
    | formula =>
      refine (follows_perform _).bind fun span => ?_
      exact (follows_perform _).bind fun raw => follows_perform _
    | lineBreak => exact follows_pure _
    | softBreak => exact follows_pure _

/-- Where a footnote may be expanded, fewer are left to expand inside it, so that the depth that is
left suffices there. -/
theorem footnoteReference_follows {token : Value} (hd : env.remaining active ≤ depth)
    (h : ∀ identifier note, env.footnotes.find (Text.lower identifier) = some note →
      Text.lower identifier ∉ active → ∀ body deeper,
        env.remaining (Text.lower identifier :: active) ≤ deeper →
          Follows env (Text.lower identifier :: active) (blocks deeper body 0)
            (Render.blocks env (Text.lower identifier :: active) body 0)) :
    Follows env active (footnoteReference depth token)
      (Render.footnoteReference env active token) := by
  rw [footnoteReference, footnoteReference_eq]
  refine (follows_perform _).bind fun identifier => ?_
  refine follows_environment ?_
  refine follows_marked ?_
  unfold noteFor
  cases hf : env.footnotes.find (Text.lower identifier) with
  | none => exact (follows_perform _).bind fun _ => follows_pure _
  | some note =>
    dsimp only
    split
    next => exact (follows_perform _).bind fun _ => follows_pure _
    next ha =>
      have hlt := Environment.remaining_lt hf ha
      cases depth with
      | zero => omega
      | succ deeper =>
        refine Follows.expanding ha (Targets.mem_keys_of_find hf) ?_
        refine Follows.rescue ?_ fun cause => ?_
        · have hbody := (follows_perform note.body.tokens).bind fun body =>
            (h identifier note hf ha body deeper (by omega)).bind fun parts =>
              follows_pure (footnoteMarkup parts)
          unfold expandedBody
          split
          · exact hbody
          · exact (follows_perform _).bind fun _ => hbody
        · exact (follows_perform _).bind fun _ => follows_pure _

theorem block_follows {token : Value} {indent : Int}
    (h : ∀ form, Follows env active (blockOf depth form token indent)
      (Render.blockOf env active form token indent)) :
    Follows env active (block depth token indent) (Render.block env active token indent) := by
  rw [block, Render.block]
  refine (follows_perform _).bind fun kind => ?_
  refine (follows_perform _).bind fun key => ?_
  split
  · exact follows_pure _
  · cases key.bind blockKind? with
    | none => exact (follows_perform _).bind fun _ => follows_pure _
    | some form =>
      refine (h form).rescue fun cause => ?_
      exact (follows_perform _).bind fun _ => follows_pure _

theorem heading_follows {token : Value} {indent : Int}
    (hb : Follows env active (inlinesBelow depth token) (Render.inlinesBelow env active token)) :
    Follows env active (blockOf depth .heading token indent)
      (Render.blockOf env active .heading token indent) := by
  rw [blockOf, Render.blockOf]
  refine (follows_perform _).bind fun value => ?_
  refine (follows_perform _).bind fun level => ?_
  refine hb.bind fun text => ?_
  cases level with
  | some level => exact follows_pure _
  | none => exact follows_perform _

theorem list_follows {token : Value} {indent : Int}
    (h : ∀ marker children, token.children = .ok children →
      Follows env active (items depth marker children indent)
        (Render.items env active marker children indent)) :
    Follows env active (blockOf depth .list token indent)
      (Render.blockOf env active .list token indent) := by
  rw [blockOf, Render.blockOf]
  refine (follows_perform _).bind fun marker => ?_
  cases hc : token.children with
  | error f => exact follows_perform _
  | ok children => exact (h marker children hc).bind fun parts => follows_pure _

theorem quote_follows {token : Value} {indent : Int}
    (h : ∀ children, token.children = .ok children →
      Follows env active (blocks depth children 0) (Render.blocks env active children 0)) :
    Follows env active (blockOf depth .quote token indent)
      (Render.blockOf env active .quote token indent) := by
  rw [blockOf, Render.blockOf]
  cases hc : token.children with
  | error f => exact follows_perform _
  | ok children => exact (h children hc).bind fun parts => follows_pure _

theorem item_follows {marker : String} {token : Value} {indent : Int}
    (h : ∀ first more, itemParts token = .ok (first :: more) →
      Follows env active (paragraph depth first) (Render.paragraph env active first) ∧
      Follows env active (blocks depth more (indent + 1))
        (Render.blocks env active more (indent + 1)) ∧
      Follows env active (blocks depth (first :: more) (indent + 1))
        (Render.blocks env active (first :: more) (indent + 1))) :
    Follows env active (item depth marker token indent)
      (Render.item env active marker token indent) := by
  rw [item, Render.item]
  rcases hc : itemParts token with f | _ | ⟨first, more⟩
  · exact follows_perform _
  · exact follows_pure _
  · obtain ⟨hp, hm, ha⟩ := h first more hc
    refine (follows_perform _).bind fun kind => ?_
    split
    · exact hp.bind fun text => hm.bind fun parts => follows_pure _
    · exact ha.bind fun parts => follows_pure _

theorem table_follows {token : Value} {indent : Int}
    (h : ∀ header body, rowsOf token = .ok (header :: body) →
      Follows env active (row depth header) (Render.row env active header) ∧
      Follows env active (rows depth body) (Render.rows env active body)) :
    Follows env active (table depth token indent) (Render.table env active token indent) := by
  rw [table, Render.table]
  rcases hc : rowsOf token with f | _ | ⟨header, body⟩
  · exact follows_perform _
  · exact (follows_perform _).bind fun _ => follows_pure _
  · obtain ⟨hh, hb⟩ := h header body hc
    refine (follows_perform _).bind fun children => ?_
    refine (follows_perform _).bind fun columns => ?_
    split
    · exact (follows_perform _).bind fun _ => follows_pure _
    · refine (follows_perform _).bind fun align => ?_
      exact hh.bind fun head => hb.bind fun body => follows_pure _

/-- A renderer on a session follows another at every depth that leaves room for the footnotes that
are not expanded yet. -/
def Tracks {α : Type} (env : Environment) (active : List String) (x : Nat → Act α)
    (r : Rendering α) : Prop :=
  ∀ depth, env.remaining active ≤ depth → Follows env active (x depth) r

/-- Each renderer tracks its counterpart. -/
def tracking (env : Environment) : Property where
  inlines active tokens := Tracks env active (inlines · tokens) (Render.inlines env active tokens)
  inlinesBelow active token :=
    Tracks env active (inlinesBelow · token) (Render.inlinesBelow env active token)
  inline active token := Tracks env active (inline · token) (Render.inline env active token)
  footnoteReference active token :=
    Tracks env active (footnoteReference · token) (Render.footnoteReference env active token)
  blocks active tokens indent :=
    Tracks env active (blocks · tokens indent) (Render.blocks env active tokens indent)
  block active token indent :=
    Tracks env active (block · token indent) (Render.block env active token indent)
  blockOf active form token indent :=
    Tracks env active (blockOf · form token indent) (Render.blockOf env active form token indent)
  paragraph active token :=
    Tracks env active (paragraph · token) (Render.paragraph env active token)
  items active marker tokens indent :=
    Tracks env active (items · marker tokens indent)
      (Render.items env active marker tokens indent)
  item active marker token indent :=
    Tracks env active (item · marker token indent) (Render.item env active marker token indent)
  cells active tokens := Tracks env active (cells · tokens) (Render.cells env active tokens)
  rows active tokens := Tracks env active (rows · tokens) (Render.rows env active tokens)
  row active token := Tracks env active (row · token) (Render.row env active token)
  table active token indent :=
    Tracks env active (table · token indent) (Render.table env active token indent)

theorem tracking_inductive (env : Environment) : (tracking env).Inductive env where
  inlinesNil depth _ := by
    simp only [inlines, Render.inlines]
    exact follows_pure ""
  inlinesCons h hr depth hd := by
    simp only [inlines, Render.inlines]
    exact (h depth hd).bind fun here => (hr depth hd).bind fun more => follows_pure _
  inlinesBelow {active token} h depth hd := by
    simp only [inlinesBelow, Render.inlinesBelow]
    cases hc : token.children with
    | error f => exact follows_perform _
    | ok children => exact h children hc depth hd
  inline hb hf depth hd := inline_follows (hb depth hd) (hf depth hd)
  footnoteReference h depth hd := by
    refine footnoteReference_follows hd fun identifier note hf ha body deeper hle => ?_
    exact h identifier note hf ha body deeper hle
  blocksNil depth _ := by
    simp only [blocks, Render.blocks]
    exact follows_pure []
  blocksCons h hr depth hd := by
    simp only [blocks, Render.blocks]
    refine (h depth hd).bind fun here => (hr depth hd).bind fun more => ?_
    cases here with
    | some text => exact follows_pure _
    | none => exact follows_pure _
  block h depth hd := block_follows fun form => h form depth hd
  heading hb depth hd := heading_follows (hb depth hd)
  paragraphBlock hp depth hd := by
    simp only [blockOf, Render.blockOf]
    exact (hp depth hd).bind fun text => follows_pure _
  list h depth hd := list_follows fun marker children hc => h marker children hc depth hd
  listItem h depth hd := by
    simp only [blockOf, Render.blockOf]
    exact (h depth hd).bind fun text => follows_pure _
  code depth _ := by
    simp only [blockOf, Render.blockOf]
    exact (follows_perform _).bind fun text => follows_pure _
  quote h depth hd := quote_follows fun children hc => h children hc depth hd
  rule depth _ := by
    simp only [blockOf, Render.blockOf]
    exact follows_pure _
  tableBlock h depth hd := by
    simp only [blockOf, Render.blockOf]
    exact h depth hd
  formula depth _ := by
    simp only [blockOf, Render.blockOf]
    refine follows_environment ?_
    refine (follows_perform _).bind fun raw => ?_
    exact (follows_perform _).bind fun text => follows_pure _
  html depth _ := by
    simp only [blockOf, Render.blockOf]
    exact follows_perform _
  paragraph hb depth hd := by
    simp only [paragraph, Render.paragraph]
    refine follows_environment ?_
    refine (follows_perform _).bind fun marker => ?_
    split
    · exact follows_pure _
    · exact hb depth hd
  itemsNil depth _ := by
    simp only [items, Render.items]
    exact follows_pure []
  itemsCons h hr depth hd := by
    simp only [items, Render.items]
    exact (h depth hd).bind fun here => (hr depth hd).bind fun more => follows_pure _
  item h depth hd := by
    refine item_follows fun first more hc => ?_
    obtain ⟨hp, hm, ha⟩ := h first more hc
    exact ⟨hp depth hd, hm depth hd, ha depth hd⟩
  cellsNil depth _ := by
    simp only [cells, Render.cells]
    exact follows_pure []
  cellsCons h hr depth hd := by
    simp only [cells, Render.cells]
    exact (h depth hd).bind fun here => (hr depth hd).bind fun more => follows_pure _
  rowsNil depth _ := by
    simp only [rows, Render.rows]
    exact follows_pure []
  rowsCons h hr depth hd := by
    simp only [rows, Render.rows]
    exact (h depth hd).bind fun here => (hr depth hd).bind fun more => follows_pure _
  row {active token} h depth hd := by
    simp only [row, Render.row]
    cases hc : token.children with
    | error f => exact follows_perform _
    | ok children => exact h children hc depth hd
  table h depth hd := by
    refine table_follows fun header body hc => ?_
    obtain ⟨hh, hb⟩ := h header body hc
    exact ⟨hh depth hd, hb depth hd⟩

/-- On a session a block is rendered as it is with the footnotes that are marked there. -/
theorem block_tracks (env : Environment) (active : List String) (token : Value) (indent : Int) :
    Tracks env active (block · token indent) (Render.block env active token indent) :=
  (tracking_inductive env).holds.block active token indent

theorem inlines_track (env : Environment) (active : List String) (tokens : List Value) :
    Tracks env active (inlines · tokens) (Render.inlines env active tokens) :=
  (tracking_inductive env).holds.inlines active tokens

theorem blocks_track (env : Environment) (active : List String) (tokens : List Value)
    (indent : Int) :
    Tracks env active (blocks · tokens indent) (Render.blocks env active tokens indent) :=
  (tracking_inductive env).holds.blocks active tokens indent

end Simulation

end Typeset.Act
