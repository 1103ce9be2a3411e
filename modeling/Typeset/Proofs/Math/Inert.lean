import Typeset.Proofs.Math.Commented
import Typeset.Proofs.Math.Delimiter

/-! A formula with comments is written as without them, wherever no command meets one that it does
not pass over. -/

namespace Typeset.Math

open Latex (Node)

variable {nodes commented rest rest' after body body' arguments : List Node} {n m : Node}
  {name : String} {text : List Char}

section Rows

/-- A node that goes into a cell as it is: no plain characters, which an ampersand takes apart, and
no end of a row or a cell. -/
def IsContent (n : Node) : Prop :=
  (∀ source arguments, n ≠ .command "\\" source arguments) ∧ n ≠ .special ['&'] ∧
    ∀ text, n ≠ .chars text

theorem exists_piecesBefore (pieces : List (List Char)) (cell : List Node)
    (cells : List (List Node)) :
    ∃ first more, piecesBefore pieces cell cells = first :: more := by
  fun_cases piecesBefore pieces cell cells
  · exact ⟨_, _, rfl⟩
  · exact ⟨_, _, rfl⟩
  · exact ⟨_, _, rfl⟩

theorem exists_rows (nodes : List Node) :
    ∃ cell cells others, rows nodes = (cell :: cells) :: others := by
  induction nodes with
  | nil => exact ⟨[], [], [], rfl⟩
  | cons n nodes ih =>
    obtain ⟨cell, cells, others, hrows⟩ := ih
    rw [rows, hrows]
    dsimp only
    split
    · exact ⟨_, _, _, rfl⟩
    · exact ⟨_, _, _, rfl⟩
    next text =>
      obtain ⟨first, more, hpieces⟩ := exists_piecesBefore (text.splitOn '&') cell cells
      exact ⟨first, more, others, by rw [hpieces]⟩
    · exact ⟨_, _, _, rfl⟩

theorem rows_content {cell : List Node} {cells : List (List Node)}
    {others : List (List (List Node))} (hn : IsContent n)
    (hrows : rows rest = (cell :: cells) :: others) :
    rows (n :: rest) = ((n :: cell) :: cells) :: others := by
  rw [rows, hrows]
  dsimp only
  split
  · exact absurd rfl (hn.1 _ _)
  · exact absurd rfl hn.2.1
  · exact absurd rfl (hn.2.2 _)
  · rfl

theorem Within.isContent (h : Within n m) (hn : IsContent n) : IsContent m := by
  cases h with
  | same => exact hn
  | group => exact ⟨by rintro _ _ ⟨⟩, by rintro ⟨⟩, by rintro _ ⟨⟩⟩
  | math => exact ⟨by rintro _ _ ⟨⟩, by rintro ⟨⟩, by rintro _ ⟨⟩⟩
  | environment => exact ⟨by rintro _ _ ⟨⟩, by rintro ⟨⟩, by rintro _ ⟨⟩⟩
  | command name =>
    refine ⟨fun source arguments heq => ?_, by rintro ⟨⟩, by rintro _ ⟨⟩⟩
    obtain ⟨rfl, -⟩ := Node.command.inj heq
    exact hn.1 _ _ rfl

theorem exists_of_not_content (h : ¬ IsContent n) :
    (∃ source arguments, n = .command "\\" source arguments) ∨ n = .special ['&'] ∨
      ∃ text, n = .chars text := by
  by_contra hnot
  rw [not_or, not_or, not_exists, not_exists] at hnot
  exact h ⟨fun source arguments heq => hnot.1 source ⟨arguments, heq⟩, hnot.2⟩

theorem Within.command_left {source : List Char}
    (h : Within (.command name source arguments) m) :
    ∃ source' arguments', m = .command name source' arguments' ∧ Each arguments arguments' := by
  cases h with
  | same => exact ⟨source, arguments, rfl, each_refl arguments⟩
  | command _ _ harguments => exact ⟨_, _, rfl, harguments⟩

theorem Commented.piecesBefore {cell cell' : List Node} {cells cells' : List (List Node)}
    (pieces : List (List Char)) (hcell : Commented cell cell')
    (hcells : List.Forall₂ Commented cells cells') :
    List.Forall₂ Commented (piecesBefore pieces cell cells) (piecesBefore pieces cell' cells') := by
  induction pieces with
  | nil => exact .cons hcell hcells
  | cons text more ih =>
    cases more with
    | nil => exact .cons (.keep (.same _) hcell) hcells
    | cons next more => exact .cons (commented_refl _) ih

/-- Comments stay in the cells that they are put into. -/
theorem Commented.rows (h : Commented body body') :
    List.Forall₂ (List.Forall₂ Commented) (rows body) (rows body') := by
  induction body' generalizing body with
  | nil =>
    cases h
    exact .cons (.cons .nil .nil) .nil
  | cons m body' ih =>
    obtain ⟨cell', cells', others', hrows'⟩ := exists_rows body'
    cases h with
    | put source h =>
      have hcontent : IsContent (.comment source) :=
        ⟨by rintro _ _ ⟨⟩, by rintro ⟨⟩, by rintro _ ⟨⟩⟩
      obtain ⟨cell, cells, others, hrows⟩ := exists_rows body
      have hih := ih h
      rw [hrows, hrows'] at hih
      obtain _ | ⟨_ | ⟨hcell, hcells⟩, hothers⟩ := hih
      rw [hrows, rows_content hcontent hrows']
      exact .cons (.cons (.put source hcell) hcells) hothers
    | @keep n _ nodes _ hnode h =>
      obtain ⟨cell, cells, others, hrows⟩ := exists_rows nodes
      have hih := ih h
      rw [hrows, hrows'] at hih
      by_cases hn : IsContent n
      · obtain _ | ⟨_ | ⟨hcell, hcells⟩, hothers⟩ := hih
        rw [rows_content hn hrows, rows_content (hnode.isContent hn) hrows']
        exact .cons (.cons (.keep hnode hcell) hcells) hothers
      · rcases exists_of_not_content hn with ⟨source, arguments, rfl⟩ | rfl | ⟨text, rfl⟩
        · obtain ⟨source', arguments', rfl, -⟩ := hnode.command_left
          rw [Math.rows, Math.rows, hrows, hrows']
          exact .cons (.cons .nil .nil) hih
        · cases hnode
          obtain _ | ⟨hrow, hothers⟩ := hih
          rw [Math.rows, Math.rows, hrows, hrows']
          exact .cons (.cons .nil hrow) hothers
        · cases hnode
          obtain _ | ⟨_ | ⟨hcell, hcells⟩, hothers⟩ := hih
          rw [Math.rows, Math.rows, hrows, hrows']
          exact .cons (hcell.piecesBefore _ hcells) hothers

theorem Commented.behindComments_group {opener : Char} {inner : List Node}
    (h : Commented (.group opener inner :: body) body') :
    ∃ inner' others, behindComments body' = .group opener inner' :: others := by
  induction body' with
  | nil => cases h
  | cons m body' ih =>
    cases h with
    | put source h => exact ih h
    | keep hnode h =>
      cases hnode with
      | same => exact ⟨inner, body', rfl⟩
      | group => exact ⟨_, body', rfl⟩

theorem layoutBody_eq
    (h : name = "array" → ∀ opener inner more, body ≠ .group opener inner :: more) :
    layoutBody name body = body := by
  unfold layoutBody
  split
  · split
    next harray => exact absurd rfl (h (by simpa using harray) _ _ _)
    next => rfl
  · rfl

theorem layoutBody_group (opener : Char) (inner more : List Node) :
    layoutBody name (.group opener inner :: more) =
      if name == "array" then more else .group opener inner :: more := rfl

/-- The columns of an array are left out with comments as without. -/
theorem Commented.layoutBody {source : List Char} (h : Commented body body')
    (hclear : Clear (.environment name source body' :: rest)) :
    Commented (layoutBody name body) (layoutBody name body') := by
  have hgroup (opener : Char) {inner inner' more more' : List Node}
      (hinner : Commented inner inner') (hmore : Commented more more') :
      Commented (Math.layoutBody name (.group opener inner :: more))
        (Math.layoutBody name (.group opener inner' :: more')) := by
    rw [layoutBody_group, layoutBody_group]
    split
    · exact hmore
    · exact .keep (.group opener hinner) hmore
  cases h with
  | nil => exact commented_refl _
  | put comment h =>
    rw [layoutBody_eq, layoutBody_eq]
    · exact .put comment h
    · rintro - _ _ _ ⟨⟩
    · rintro harray opener inner more rfl
      obtain ⟨inner', others, hbehind⟩ := h.behindComments_group
      exact hclear harray opener inner' others hbehind
  | @keep n m _ _ hnode h =>
    cases hnode with
    | same n =>
      cases n with
      | group opener inner => exact hgroup opener (commented_refl inner) h
      | _ => exact .keep (.same _) h
    | group opener hinner => exact hgroup opener hinner h
    | math hsource hinner => exact .keep (.math hsource hinner) h
    | environment _ hsource hinner => exact .keep (.environment _ hsource hinner) h
    | command _ hsource hinner => exact .keep (.command _ hsource hinner) h

end Rows

section Turn

variable {move : Move}

/-- What is written by themselves of nodes with comments is written as without. -/
def Keeps (nodes commented : List Node) : Prop :=
  ∀ {body body' : List Node} {text : List Char}, Inner nodes body → Inner commented body' →
    Commented body body' → write body = .ok text → write body' = .ok text

/-- A turn is the same with comments as without, and leaves the same but for comments. -/
theorem Commented.turn (hnode : Within n m) (h : Commented rest rest')
    (hturn : Turn (n :: rest) move after) (hclear : Clear (m :: rest'))
    (hkeeps : Keeps (n :: rest) (m :: rest')) :
    ∃ after', Turn (m :: rest') move after' ∧ Commented after after' := by
  cases hturn with
  | chars text =>
    cases hnode
    exact ⟨rest', .chars text rest', h⟩
  | comment source =>
    cases hnode
    exact ⟨rest', .comment source rest', h⟩
  | special source =>
    cases hnode
    exact ⟨rest', .special source rest', h⟩
  | @group opener _ body text hbody =>
    obtain ⟨body', rfl, hinner⟩ : ∃ body', m = .group opener body' ∧ Commented body body' := by
      cases hnode with
      | same => exact ⟨body, rfl, commented_refl body⟩
      | group _ hinner => exact ⟨_, rfl, hinner⟩
    have hbody' := hkeeps (.group opener body rest) (.group opener body' rest') hinner hbody
    exact ⟨rest', .group opener rest' hbody', h⟩
  | @math source _ body text hbody =>
    obtain ⟨source', body', rfl, hinner⟩ :
        ∃ source' body', m = .math source' body' ∧ Commented body body' := by
      cases hnode with
      | same => exact ⟨source, body, rfl, commented_refl body⟩
      | math _ hinner => exact ⟨_, _, rfl, hinner⟩
    have hbody' := hkeeps (.math source body rest) (.math source' body' rest') hinner hbody
    exact ⟨rest', .math source' rest' hbody', h⟩
  | @environment source _ name body layout cells hlayout hcells =>
    obtain ⟨source', body', rfl, hinner⟩ :
        ∃ source' body', m = .environment name source' body' ∧ Commented body body' := by
      cases hnode with
      | same => exact ⟨source, body, rfl, commented_refl body⟩
      | environment _ _ hinner => exact ⟨_, _, rfl, hinner⟩
    refine ⟨rest', .environment source' rest' hlayout ?_, h⟩
    exact mapM_of_related (hinner.layoutBody hclear).rows hcells
      fun row hrow row' hrow' hcommented texts htexts =>
        mapM_of_related hcommented htexts fun cell hcell cell' hcell' hinner text hwrite =>
          hkeeps (.cell name source rest hrow hcell) (.cell name source' rest' hrow' hcell') hinner
            hwrite
  | @ready source name arguments _ _ text hform =>
    obtain ⟨source', arguments', rfl, harguments⟩ := hnode.command_left
    obtain ⟨f', after', hform', halike, hafter⟩ := h.form harguments hclear hform
    cases halike with
    | ready => exact ⟨after', .ready source' hform', hafter⟩
    | application hf => cases hf
  | @application source name function arguments _ _ nodes f texts hform hf htexts =>
    obtain ⟨source', arguments', rfl, harguments⟩ := hnode.command_left
    obtain ⟨f', after', hform', halike, hafter⟩ := h.form harguments hclear hform
    cases halike with
    | ready => cases hf
    | application hf₁ hf' heach =>
      cases hf.symm.trans hf₁
      refine ⟨after', .application source' hform' hf' ?_, hafter⟩
      exact mapM_of_related heach.forall₂ htexts fun node hmem node' hmem' hwithin text hwrite =>
        hkeeps (.operand source hform hf hmem) (.operand source' hform' hf' hmem') hwithin.inside
          hwrite

/-- What is written of some nodes is written of the nodes with comments. -/
theorem writeAfter_commented {out done : Pieces} (h : writeAfter nodes out = .ok done) :
    ∀ commented, Commented nodes commented →
      (∀ place held, Reaches commented out place held → Clear place) →
        writeAfter commented out = .ok done := by
  refine writeAfter_induction (motive := fun nodes out done => ∀ commented,
    Commented nodes commented → (∀ place held, Reaches commented out place held → Clear place) →
      writeAfter commented out = .ok done) ?_ ?_ h
  · intro out commented hcommented hclear
    induction commented with
    | nil => rw [writeAfter]
    | cons m commented ih =>
      cases hcommented with
      | put source hcommented =>
        rw [writeAfter]
        exact ih hcommented fun place held hreach =>
          hclear place held (.later (.comment source commented) hreach)
  · intro nodes after move out done hturn hinner hafter commented hcommented hclear
    -- the comments in front are passed over one by one, then the turns are the same
    induction commented with
    | nil =>
      cases hcommented
      exact absurd rfl hturn.ne_nil
    | cons m commented ih =>
      cases hcommented with
      | put source hcommented =>
        rw [writeAfter]
        exact ih hcommented fun place held hreach =>
          hclear place held (.later (.comment source commented) hreach)
      | @keep n _ rest _ hnode hrest =>
        have hkeeps : Keeps (n :: rest) (m :: commented) := by
          intro body body' text hbody hbody' hcommented hwrite
          obtain ⟨written, hwritten, rfl⟩ := exists_of_write hwrite
          rw [write, hinner hbody hwritten body' hcommented fun place held hreach =>
            hclear place held (.inner out hbody' hreach)]
          rfl
        obtain ⟨after', hturn', hcommented⟩ :=
          hrest.turn hnode hturn (hclear _ _ (.here _ _)) hkeeps
        rw [writeAfter_of_turn hturn']
        exact hafter after' hcommented fun place held hreach =>
          hclear place held (.later hturn' hreach)

/-- Comments change nothing, and make nothing fail, unless a command meets one where it looks for
something behind itself or in what it quotes, or an array begins with one. -/
theorem comments_inert (h : write nodes = .ok text) (hcommented : Commented nodes commented)
    (hclear : ∀ place held, Reaches commented {} place held → Clear place) :
    write commented = .ok text := by
  obtain ⟨done, hdone, rfl⟩ := exists_of_write h
  rw [write, writeAfter_commented hdone commented hcommented hclear]
  rfl

theorem clear_of_reaches_nil {out held : Pieces} {place : List Node}
    (h : Reaches [] out place held) : Clear place := by
  cases h with
  | here => trivial
  | inner _ hinner => cases hinner
  | later hturn => cases hturn

/-- Comments behind a script mark and behind an argument are passed over. -/
theorem comments_inert_power :
    write [.chars ['x', '^'], .command "hat" "\\hat".toList [], .chars ['a', 'b']] =
        .ok "x^(hat(a))b".toList ∧
      Commented [.chars ['x', '^'], .command "hat" "\\hat".toList [], .chars ['a', 'b']]
        [.chars ['x', '^'], .comment "%c\n".toList, .command "hat" "\\hat".toList [],
          .chars ['a', 'b'], .comment "%d\n".toList] ∧
      write [.chars ['x', '^'], .comment "%c\n".toList, .command "hat" "\\hat".toList [],
        .chars ['a', 'b'], .comment "%d\n".toList] = .ok "x^(hat(a))b".toList := by
  have hcommented : Commented
      [.chars ['x', '^'], .command "hat" "\\hat".toList [], .chars ['a', 'b']]
      [.chars ['x', '^'], .comment "%c\n".toList, .command "hat" "\\hat".toList [],
        .chars ['a', 'b'], .comment "%d\n".toList] :=
    .keep (.same _) (.put _ (.keep (.same _) (.keep (.same _) (.put _ .nil))))
  have hrole : role "hat" = .function "hat" := by rfl
  have hform (rest : List Node) : form "hat" [] (.chars ['a', 'b'] :: rest) =
      .ok (.unary "hat" (.chars ['a']), .chars ['b'] :: rest) := by
    rw [form, hrole]
    rfl
  have hwrite : write [.chars ['x', '^'], .command "hat" "\\hat".toList [], .chars ['a', 'b']] =
      .ok "x^(hat(a))b".toList := by
    have htexts : [Node.chars ['a']].mapM (fun node => write (inside node)) =
        .ok [charsText ['a']] := mapM_of_forall₂ (.cons (write_chars ['a']) .nil)
    rw [write, writeAfter_of_turn (.chars _ _),
      writeAfter_of_turn (.application _ (hform []) rfl htexts), writeAfter_of_turn (.chars _ _),
      writeAfter]
    exact congrArg Except.ok (by decide)
  refine ⟨hwrite, hcommented, comments_inert hwrite hcommented fun place held hreach => ?_⟩
  rcases reaches_chars hreach with ⟨rfl, -⟩ | hreach
  · trivial
  cases hreach with
  | here => trivial
  | inner _ hinner => cases hinner
  | later hturn hreach =>
    cases hturn
    cases hreach with
    | here =>
      refine ⟨by decide, fun before behind htext => ?_, fun hsilent => ?_, fun hroot => ?_⟩
      · cases hrole.symm.trans htext
      · cases hrole.symm.trans hsilent
      · cases hrole.symm.trans hroot
    | inner _ hinner hreach =>
      cases hinner with
      | operand _ hform' hf hnode =>
        cases (hform _).symm.trans hform'
        cases hf
        rw [List.mem_singleton.mp hnode] at hreach
        rcases reaches_chars hreach with ⟨rfl, -⟩ | hreach
        · trivial
        · exact clear_of_reaches_nil hreach
    | later hturn hreach =>
      cases hturn with
      | ready _ hform' => cases (hform _).symm.trans hform'
      | application _ hform' hf htexts =>
        cases (hform _).symm.trans hform'
        rcases reaches_chars hreach with ⟨rfl, -⟩ | hreach
        · trivial
        cases hreach with
        | here => trivial
        | inner _ hinner => cases hinner
        | later hturn hreach =>
          cases hturn
          exact clear_of_reaches_nil hreach

/-- A comment between a binomial and its parts is taken for the first of them. -/
theorem comments_taken_binomial :
    convert "\\binom\x7ba\x7d\x7bb\x7d" = .ok "binom(a, b)" ∧
      convert "\\binom%c\n\x7ba\x7d\x7bb\x7d" = .ok "binom(, a)b" ∧
      ∃ nodes commented, Latex.read "\\binom\x7ba\x7d\x7bb\x7d".toList = some (nodes, []) ∧
        Latex.read "\\binom%c\n\x7ba\x7d\x7bb\x7d".toList = some (commented, []) ∧
        Commented nodes commented ∧ write nodes = .ok "binom(a, b)".toList ∧
          write commented = .ok "binom(, a)b".toList := by
  have hread : Latex.read "\\binom\x7ba\x7d\x7bb\x7d".toList =
      some ([.command "binom" "\\binom".toList [], braced 'a', braced 'b'], []) := by rfl
  have hreadCommented : Latex.read "\\binom%c\n\x7ba\x7d\x7bb\x7d".toList =
      some ([.command "binom" "\\binom".toList [], .comment "%c\n".toList, braced 'a', braced 'b'],
        []) := by rfl
  have hcommented : Commented [.command "binom" "\\binom".toList [], braced 'a', braced 'b']
      [.command "binom" "\\binom".toList [], .comment "%c\n".toList, braced 'a', braced 'b'] :=
    .keep (.same _) (.put _ (commented_refl _))
  have hcomment : write [.comment "%c\n".toList] = .ok [] := by
    rw [write, writeAfter, writeAfter]
    rfl
  have hwrite : write [.command "binom" "\\binom".toList [], braced 'a', braced 'b'] =
      .ok "binom(a, b)".toList := by
    rw [write, writeAfter_of_turn (turn_fraction (by rfl) (operand_braced 'a' _)
      (operand_braced 'b' _) (write_chars ['a']) (write_chars ['b'])), writeAfter]
    exact congrArg Except.ok (by decide)
  have hwriteCommented : write [.command "binom" "\\binom".toList [], .comment "%c\n".toList,
      braced 'a', braced 'b'] = .ok "binom(, a)b".toList := by
    have hform : form "binom" [] [.comment "%c\n".toList, braced 'a', braced 'b'] =
        .ok (.binary "binom" (.comment "%c\n".toList) (braced 'a'), [braced 'b']) := by rfl
    have htexts : [.comment "%c\n".toList, braced 'a'].mapM (fun node => write (inside node)) =
        .ok [[], charsText ['a']] :=
      mapM_of_forall₂ (.cons hcomment (.cons (write_chars ['a']) .nil))
    have hlast : Turn [braced 'b'] (.attach (charsText ['b'])) [] :=
      .group _ _ (write_chars ['b'])
    rw [write, writeAfter_of_turn (.application _ hform rfl htexts), writeAfter_of_turn hlast,
      writeAfter]
    exact congrArg Except.ok (by decide)
  exact ⟨convert_of_read (by decide) hread hwrite,
    convert_of_read (by decide) hreadCommented hwriteCommented, _, _, hread, hreadCommented,
    hcommented, hwrite, hwriteCommented⟩

end Turn

end Typeset.Math
