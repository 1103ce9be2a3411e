import Typeset.Render.Block

/-! Induction along the calls of the renderers: a property of each of them, and what has to be shown
of each on the ground that it holds of those it calls. -/

namespace Typeset.Render

/-- A property of each renderer on given tokens, inside the expansion of given footnotes. -/
structure Property where
  inlines : List String → List Value → Prop
  inlinesBelow : List String → Value → Prop
  inline : List String → Value → Prop
  footnoteReference : List String → Value → Prop
  blocks : List String → List Value → Int → Prop
  block : List String → Value → Int → Prop
  blockOf : List String → BlockKind → Value → Int → Prop
  paragraph : List String → Value → Prop
  items : List String → String → List Value → Int → Prop
  item : List String → String → Value → Int → Prop
  cells : List String → List Value → Prop
  rows : List String → List (Value) → Prop
  row : List String → Value → Prop
  table : List String → Value → Int → Prop

namespace Property

/-- Each renderer has the property if those that it calls have it. -/
structure Inductive (env : Environment) (P : Property) : Prop where
  inlinesNil : ∀ {active}, P.inlines active []
  inlinesCons : ∀ {active token rest},
    P.inline active token → P.inlines active rest → P.inlines active (token :: rest)
  inlinesBelow : ∀ {active token},
    (∀ children, token.children = .ok children → P.inlines active children) →
      P.inlinesBelow active token
  inline : ∀ {active token},
    P.inlinesBelow active token → P.footnoteReference active token → P.inline active token
  footnoteReference : ∀ {active token},
    (∀ identifier note, env.footnotes.find (Text.lower identifier) = some note →
      Text.lower identifier ∉ active →
        ∀ body, P.blocks (Text.lower identifier :: active) body 0) →
      P.footnoteReference active token
  blocksNil : ∀ {active indent}, P.blocks active [] indent
  blocksCons : ∀ {active token rest indent},
    P.block active token indent → P.blocks active rest indent →
      P.blocks active (token :: rest) indent
  block : ∀ {active token indent},
    (∀ form, P.blockOf active form token indent) → P.block active token indent
  heading : ∀ {active token indent},
    P.inlinesBelow active token → P.blockOf active .heading token indent
  paragraphBlock : ∀ {active token indent},
    P.paragraph active token → P.blockOf active .paragraph token indent
  list : ∀ {active token indent},
    (∀ marker children, token.children = .ok children → P.items active marker children indent) →
      P.blockOf active .list token indent
  listItem : ∀ {active token indent},
    P.item active "-" token indent → P.blockOf active .listItem token indent
  code : ∀ {active token indent}, P.blockOf active .code token indent
  quote : ∀ {active token indent},
    (∀ children, token.children = .ok children → P.blocks active children 0) →
      P.blockOf active .quote token indent
  rule : ∀ {active token indent}, P.blockOf active .rule token indent
  tableBlock : ∀ {active token indent},
    P.table active token indent → P.blockOf active .table token indent
  formula : ∀ {active token indent}, P.blockOf active .formula token indent
  html : ∀ {active token indent}, P.blockOf active .html token indent
  paragraph : ∀ {active token}, P.inlinesBelow active token → P.paragraph active token
  itemsNil : ∀ {active marker indent}, P.items active marker [] indent
  itemsCons : ∀ {active marker token rest indent},
    P.item active marker token indent → P.items active marker rest indent →
      P.items active marker (token :: rest) indent
  item : ∀ {active marker token indent},
    (∀ first more, itemParts token = .ok (first :: more) →
      P.paragraph active first ∧ P.blocks active more (indent + 1) ∧
        P.blocks active (first :: more) (indent + 1)) →
      P.item active marker token indent
  cellsNil : ∀ {active}, P.cells active []
  cellsCons : ∀ {active token rest},
    P.inlinesBelow active token → P.cells active rest → P.cells active (token :: rest)
  rowsNil : ∀ {active}, P.rows active []
  rowsCons : ∀ {active token rest},
    P.row active token → P.rows active rest → P.rows active (token :: rest)
  row : ∀ {active token},
    (∀ children, token.children = .ok children → P.cells active children) → P.row active token
  table : ∀ {active token indent},
    (∀ header body, rowsOf token = .ok (header :: body) →
      P.row active header ∧ P.rows active body) →
      P.table active token indent

/-- The renderers that are called from outside have the property everywhere. -/
structure Holds (P : Property) : Prop where
  inlines : ∀ active tokens, P.inlines active tokens
  blocks : ∀ active tokens indent, P.blocks active tokens indent
  block : ∀ active token indent, P.block active token indent

theorem Inductive.holds {env : Environment} {P : Property} (h : P.Inductive env) : P.Holds := by
  have all := inlines.mutual_induct env P.inlines P.inline P.footnoteReference P.blocks P.block
    P.blockOf P.table P.rows P.row P.cells P.inlinesBelow P.item P.paragraph P.items
    (fun _ => h.inlinesNil)
    (fun _ _ _ hi hr => h.inlinesCons hi hr)
    (fun _ _ hb hf => h.inline hb hf)
    (fun _ _ hb => h.footnoteReference fun identifier note hf ha => hb identifier note hf ha)
    (fun _ _ => h.blocksNil)
    (fun _ _ _ _ hb hr => h.blocksCons hb hr)
    (fun _ _ _ hb => h.block hb)
    (fun _ _ _ hb => h.heading hb)
    (fun _ _ _ hp => h.paragraphBlock hp)
    (fun _ _ _ hi => h.list hi)
    (fun _ _ _ hi => h.listItem hi)
    (fun _ _ _ => h.code)
    (fun _ _ _ f hc => h.quote fun children hc' => by simp [hc] at hc')
    (fun _ _ _ children hc hb => h.quote fun children' hc' => by simp_all)
    (fun _ _ _ => h.rule)
    (fun _ _ _ ht => h.tableBlock ht)
    (fun _ _ _ => h.formula)
    (fun _ _ _ => h.html)
    (fun _ _ _ f hc => h.table fun header body hc' => by simp [hc] at hc')
    (fun _ _ _ hc => h.table fun header body hc' => by simp [hc] at hc')
    (fun _ _ _ header body hc hh hb => h.table fun header' body' hc' => by simp_all)
    (fun _ => h.rowsNil)
    (fun _ _ _ hi hr => h.rowsCons hi hr)
    (fun _ _ f hc => h.row fun children hc' => by simp [hc] at hc')
    (fun _ _ children hc hb => h.row fun children' hc' => by simp_all)
    (fun _ => h.cellsNil)
    (fun _ _ _ hi hr => h.cellsCons hi hr)
    (fun _ _ f hc => h.inlinesBelow fun children hc' => by simp [hc] at hc')
    (fun _ _ children hc hb => h.inlinesBelow fun children' hc' => by simp_all)
    (fun _ _ _ _ f hc => h.item fun first more hc' => by simp [hc] at hc')
    (fun _ _ _ _ hc => h.item fun first more hc' => by simp [hc] at hc')
    (fun _ _ _ _ first more hc hp hm ha => h.item fun first' more' hc' => by simp_all)
    (fun _ _ hb => h.paragraph hb)
    (fun _ _ _ => h.itemsNil)
    (fun _ _ _ _ _ hi hr => h.itemsCons hi hr)
  exact ⟨all.1, all.2.2.2.1, all.2.2.2.2.1⟩

end Property

end Typeset.Render
