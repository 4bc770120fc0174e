import Arbiter.Proofs.Canon.CutStmt
import Arbiter.Proofs.Canon.RelabelStmt
import Arbiter.Proofs.Canon.Undo
import Arbiter.Proofs.Flow.Contents

/-! Canonical form loses no more than the choice of names and literals. Main statements: statements in
canonical form are told apart by their text; items with one canonical text differ by an exchange of names
and of literals. -/

namespace Arbiter.Syntax

section Texts

variable {body body' : List Stmt}

/-- The lines of a text, each with a break before it. -/
theorem lineChars_text {texts : List String} (some : texts ≠ []) :
    lineChars 0 texts = '\n' :: ("\n".intercalate texts).toList := by
  induction texts with
  | nil => exact absurd rfl some
  | cons t texts ih =>
    cases texts with
    | nil => simp [lineChars]
    | cons u texts =>
      have first : lineChars 0 (t :: u :: texts) = '\n' :: (t.toList ++ lineChars 0 (u :: texts)) := by
        simp [lineChars]
      rw [first, ih (List.cons_ne_nil u texts), String.intercalate_cons_cons]
      simp

theorem Stmt.Formed.lines_ne_nil {s : Stmt} (h : s.Formed .shown) : s.lines ≠ [] := by
  rw [Ne, h.presents.empty, Stmt.tree]
  simp

theorem lineChars_block (h : ∀ s ∈ body, s.Formed .shown) :
    lineChars 0 (blockLines body) = lineChars 0 (body.map Stmt.text) := by
  induction body with
  | nil => rfl
  | cons s body ih =>
    obtain ⟨hs, hb⟩ := List.forall_mem_cons.1 h
    have one : lineChars 0 [s.text] = lineChars 0 s.lines := by
      rw [lineChars_text hs.lines_ne_nil, lineChars_text (List.cons_ne_nil _ _), String.intercalate_singleton]
      rfl
    have append : ∀ ts us, lineChars 0 (ts ++ us) = lineChars 0 ts ++ lineChars 0 us := fun ts us =>
      List.flatMap_append
    rw [blockLines, append, ih hb, ← one, ← append]
    rfl

/-- The characters of a block and a break before it, as tokens. -/
theorem readKinds_block (h : ∀ s ∈ body, s.Formed .shown) (some : body ≠ []) :
    readKinds (.code []) ('\n' :: ("\n".intercalate (body.map Stmt.text)).toList) =
      lineTokens 0 (blockTree body) := by
  have lines : Presents (blockLines body) (blockTree body) := presents_block fun s hs => (h s hs).presents
  have ends : LineEnds [] := nofun
  have reads := lines.reads 0 ends
  have none : readKinds (.code []) [] = [] := by decide +kernel
  rw [List.append_nil, none, List.append_nil, lineChars_block h,
    lineChars_text (by simpa using some)] at reads
  exact reads

theorem isFlat_block (h : ∀ s ∈ body, s.Formed .shown) : ∀ l ∈ blockTree body, l.IsFlat :=
  (presents_block fun s hs => (h s hs).presents).flat

theorem Stmt.Formed.head_ne_nil {s : Stmt} (h : s.Formed .shown) : s.head ≠ [] := by
  intro none
  cases h.opens with
  | word kind =>
    rw [none] at kind
    cases kind
  | led led _ head =>
    obtain ⟨k, rest, same, -⟩ := startsPlain_of_regular led
    rw [none, same] at head
    cases head

/-- Statements have some text. -/
theorem text_ne_empty (h : ∀ s ∈ body, s.Formed .shown) (some : body ≠ []) :
    "\n".intercalate (body.map Stmt.text) ≠ "" := by
  intro empty
  have reads := readKinds_block h some
  have blank : readKinds (.code []) ['\n'] = lineTokens 0 [.mk [] []] := by decide +kernel
  rw [empty] at reads
  have flat : ∀ l ∈ [Line.mk [] []], l.IsFlat := List.forall_mem_singleton.2 (.mk nofun nofun)
  obtain ⟨one, -⟩ := cut_lines 0 _ _ (isFlat_block h) flat (.inl rfl) (.inl rfl)
    (closed_eq (reads.symm.trans blank))
  obtain ⟨s, body, rfl⟩ := List.exists_cons_of_ne_nil some
  have member : Line.mk s.head s.inner ∈ blockTree (s :: body) := by simp [blockTree]
  rw [one, List.mem_singleton, Line.mk.injEq] at member
  exact (h s List.mem_cons_self).head_ne_nil member.1

/-- Statements in canonical form are told apart by their text. -/
theorem block_eq_of_text (h : ∀ s ∈ body, s.Formed .shown) (h' : ∀ s ∈ body', s.Formed .shown)
    (same : "\n".intercalate (body.map Stmt.text) = "\n".intercalate (body'.map Stmt.text)) : body = body' := by
  by_cases none : body = []
  · subst none
    by_contra some
    exact text_ne_empty h' (Ne.symm some) same.symm
  · by_cases none' : body' = []
    · subst none'
      exact absurd same (text_ne_empty h none)
    · have tokens : lineTokens 0 (blockTree body) = lineTokens 0 (blockTree body') := by
        rw [← readKinds_block h none, ← readKinds_block h' none', same]
      obtain ⟨trees, -⟩ := cut_lines 0 _ _ (isFlat_block h) (isFlat_block h') (.inl rfl) (.inl rfl)
        (closed_eq tokens)
      exact cut_block h h' (fun s hs => (h s hs).told) trees

end Texts

/-! Labels of targets. -/

mutual

theorem asTarget_labels {ctx : Context} : ∀ (e : Expr) {t : Expr}, e.asTarget? ctx = some t →
    exprLabels t = exprLabels e
  | .name .., _, rfl | .attribute .., _, rfl | .subscript .., _, rfl => rfl
  | .starred value _, t, h => by
    obtain ⟨v, found, rfl⟩ := Option.map_eq_some_iff.1 h
    rw [exprLabels, exprLabels, asTarget_labels value found]
  | .tuple elts _, t, h | .list elts _, t, h => by
    obtain ⟨ts, found, rfl⟩ := Option.map_eq_some_iff.1 h
    rw [exprLabels, exprLabels, asTargets_labels elts found]

theorem asTargets_labels {ctx : Context} : ∀ (es : List Expr) {ts : List Expr}, asTargets? ctx es = some ts →
    listLabels ts = listLabels es
  | [], _, rfl => rfl
  | e :: es, ts, h => by
    simp only [asTargets?, Option.bind_eq_bind, Option.bind_eq_some_iff, Option.pure_def] at h
    obtain ⟨t, first, ts', rest, same⟩ := h
    cases same
    rw [listLabels, listLabels, asTarget_labels e first, asTargets_labels es rest]

end

end Arbiter.Syntax

namespace Arbiter.Flow.Item

open Syntax

/-- The item is the statement, or the expression that the statement consists of, be it as a target. -/
inductive Shows : Item → Stmt → Prop
  | stmt (s : Stmt) : Shows (.stmt s) s
  | expr (e : Expr) : Shows (.expr e) (.expr e)
  | target {e t : Expr} (same : e.asTarget? .store = some t) : Shows (.expr t) (.expr e)

/-- Items that differ at most in the contexts of a target, or in that one is an expression and the other the
statement that consists of it. -/
def Alike (i j : Item) : Prop := ∃ s : Stmt, i.Shows s ∧ j.Shows s

section

variable {i : Item} {s : Stmt}

theorem Shows.text (h : i.Shows s) : i.text = s.text := by
  have single : ∀ e : Expr, (Stmt.expr e).text = e.text := fun e => String.intercalate_singleton
  cases h with
  | stmt => rfl
  | expr e => exact (single e).symm
  | @target e t same => exact (alike_of_asTarget e same).text.trans (single e).symm

theorem Shows.labels (h : i.Shows s) : i.labels = stmtLabels s := by
  cases h with
  | stmt | expr => rfl
  | @target e t same => exact asTarget_labels e same

theorem Shows.relabel (h : i.Shows s) (r : Relabeling) : (i.relabel r).Shows (relabelStmt r s) := by
  cases h with
  | stmt => exact .stmt _
  | expr => exact .expr _
  | @target e t same => exact .target (asTarget_relabel r e same)

theorem Alike.relabel {j : Item} (h : i.Alike j) (r : Relabeling) : (i.relabel r).Alike (j.relabel r) := by
  obtain ⟨s, left, right⟩ := h
  exact ⟨_, left.relabel r, right.relabel r⟩

/-- What a well-formed item shows. -/
theorem Formed.shows (h : i.Formed) (tame : i.isTame = true) :
    ∃ s, i.Shows s ∧ s.Formed .source ∧ s.isTame = true := by
  cases h with
  | @stmt s h => exact ⟨s, .stmt s, h, tame⟩
  | @expr e h => exact ⟨.expr e, .expr e, .expr h, tame⟩
  | @target head t h =>
    exact ⟨.expr head, .target h.same, .expr h.regular, (asTarget_isTame false head h.same).symm.trans tame⟩

end

end Arbiter.Flow.Item

/-! Items of accepted programs. -/

namespace Arbiter.Flow

open Syntax

/-- What a block of the graph of a program holds, if the program is accepted. -/
def blockItems (source : String) (b : Nat) : List Item :=
  match parseProgram source with
  | .ok body => (Graph.ofProgram body).items b
  | .error _ => []

/-- The item is held by a block of the graph of an accepted program. -/
def Item.IsAccepted (item : Item) : Prop := ∃ source b, item ∈ blockItems source b

theorem Item.IsAccepted.formed {item : Item} (h : item.IsAccepted) : item.Formed := by
  obtain ⟨source, b, member⟩ := h
  unfold blockItems at member
  split at member
  · exact formed_of_mem_items ‹_› member
  · cases member

end Arbiter.Flow

namespace Arbiter.Canon

open Syntax Arbiter.Flow Arbiter.Canon.Numbering

/-! Items. -/

section Items

variable {items items' : List Item} {body : List Stmt}

theorem exists_shown (accepted : ∀ item ∈ items, item.IsAccepted) (tame : ∀ item ∈ items, item.isTame = true) :
    ∃ body, List.Forall₂ Item.Shows items body ∧ ∀ s ∈ body, s.Formed .source ∧ s.isTame = true := by
  induction items with
  | nil => exact ⟨[], .nil, nofun⟩
  | cons item items ih =>
    obtain ⟨ha, accepted⟩ := List.forall_mem_cons.1 accepted
    obtain ⟨ht, tame⟩ := List.forall_mem_cons.1 tame
    obtain ⟨s, shows, formed⟩ := ha.formed.shows ht
    obtain ⟨body, whole, others⟩ := ih accepted tame
    exact ⟨s :: body, .cons shows whole, List.forall_mem_cons.2 ⟨formed, others⟩⟩

theorem labels_shown (h : List.Forall₂ Item.Shows items body) : items.flatMap Item.labels = blockLabels body := by
  induction h with
  | nil => rfl
  | cons first _ ih => rw [List.flatMap_cons, blockLabels, first.labels, ih]

theorem relabel_shown (h : List.Forall₂ Item.Shows items body) (r : Relabeling) :
    List.Forall₂ Item.Shows (items.map (Item.relabel r)) (relabelBlock r body) := by
  induction h with
  | nil => exact .nil
  | cons first _ ih => exact .cons (first.relabel r) ih

theorem text_shown (h : List.Forall₂ Item.Shows items body) : items.map Item.text = body.map Stmt.text := by
  induction h with
  | nil => rfl
  | cons first _ ih => rw [List.map_cons, List.map_cons, first.text, ih]

theorem alike_of_shown (h : List.Forall₂ Item.Shows items body) (h' : List.Forall₂ Item.Shows items' body) :
    List.Forall₂ Item.Alike items items' := by
  induction h generalizing items' with
  | nil =>
    cases h'
    exact .nil
  | cons first _ ih =>
    cases h' with
    | cons first' others' => exact .cons ⟨_, first, first'⟩ (ih others')

/-- Items that show what a relabeling makes of what other items show. -/
theorem alike_of_relabeled {r : Relabeling} {body' : List Stmt} (h : List.Forall₂ Item.Shows items body)
    (h' : List.Forall₂ Item.Shows items' body') (same : relabelBlock r body = body') :
    List.Forall₂ Item.Alike (items.map (Item.relabel r)) items' := by
  subst same
  exact alike_of_shown (relabel_shown h r) h'

end Items

/-- Nothing tells the canonical forms of the items apart: they have one text, or one hash that is not the hash
of two texts. -/
inductive Agree (items items' : List Item) : Prop
  | text (same : canonicalText items = canonicalText items')
  | hash (same : contentHash items = contentHash items')
    (injective : Digest.sha256Hex (canonicalText items) = Digest.sha256Hex (canonicalText items') →
      canonicalText items = canonicalText items')

theorem Agree.canonicalText_eq {items items' : List Item} (h : Agree items items') :
    canonicalText items = canonicalText items' := by
  cases h with
  | text same => exact same
  | hash same injective =>
    by_cases none : items = []
    · subst none
      rw [(contentHash_eq_emptyHash items').1 same.symm]
    · have none' : items' ≠ [] := by
        rintro rfl
        exact none ((contentHash_eq_emptyHash items).1 same)
      rw [contentHash, contentHash, if_neg (by simpa using none), if_neg (by simpa using none')] at same
      exact injective same

/-- Exchanging names and literals makes the first items into the second, up to the contexts of targets and to
which expressions are statements. -/
structure Exchanges (names : String → String) (literals : Literal → Literal) (items items' : List Item) :
    Prop where
  length_eq : items.length = items'.length
  bijOn_names : Set.BijOn names (namesOf (items.flatMap Item.labels)) (namesOf (items'.flatMap Item.labels))
  bijOn_literals : Set.BijOn literals (literalsOf (items.flatMap Item.labels))
    (literalsOf (items'.flatMap Item.labels))
  alike : List.Forall₂ Item.Alike (items.map (Item.relabel (.exchange names literals))) items'
  /-- Operators, attributes, keywords, imports and structure are the same. -/
  frames : List.Forall₂ Item.Alike (items.map (Item.relabel .blank)) (items'.map (Item.relabel .blank))

/-- What is left without names and literals does not depend on them. -/
theorem frames_of_alike {names : String → String} {literals : Literal → Literal} {items items' : List Item}
    (h : List.Forall₂ Item.Alike (items.map (Item.relabel (.exchange names literals))) items') :
    List.Forall₂ Item.Alike (items.map (Item.relabel .blank)) (items'.map (Item.relabel .blank)) := by
  have kept : items.map (Item.relabel .blank) =
      (items.map (Item.relabel (.exchange names literals))).map (Item.relabel .blank) := by
    simp only [List.map_map, Function.comp_def, relabel_comp, Relabeling.blank_comp_exchange]
  rw [kept, List.forall₂_map_left_iff, List.forall₂_map_right_iff]
  exact h.imp fun _ _ alike => alike.relabel .blank

/-- Items of accepted programs, without yields and stray stars, that canonical form does not tell apart are
one but for the choice of names and literals. -/
theorem exchange_of_agree {items items' : List Item} (accepted : ∀ item ∈ items, item.IsAccepted)
    (accepted' : ∀ item ∈ items', item.IsAccepted) (tame : ∀ item ∈ items, item.isTame = true)
    (tame' : ∀ item ∈ items', item.isTame = true) (same : Agree items items') :
    ∃ names literals, Exchanges names literals items items' := by
  obtain ⟨body, shown, formed⟩ := exists_shown accepted tame
  obtain ⟨body', shown', formed'⟩ := exists_shown accepted' tame'
  have canonical : ∀ {body} (n : Numbering), (∀ s ∈ body, s.Formed .source ∧ s.isTame = true) →
      ∀ s ∈ relabelBlock n.relabeling body, s.Formed .shown := by
    intro body n formed
    rw [relabelBlock_eq]
    exact List.forall_mem_map.2 fun s hs => (formed s hs).1.shown (isCanonical_relabeling n) (formed s hs).2
  have listed := labels_shown shown
  have listed' := labels_shown shown'
  have texts := same.canonicalText_eq
  simp only [canonicalText, Canon.canonical, listed, listed', text_shown (relabel_shown shown _),
    text_shown (relabel_shown shown' _)] at texts
  -- Both canonical forms show the same statements, and the second numbering can be undone.
  have blocks := block_eq_of_text (canonical _ formed) (canonical _ formed') texts
  have labels := map_onLabel blocks
  have exchanged := (relabelBlock_comp _ _ body).symm.trans ((congrArg _ blocks).trans (undo_relabel body'))
  rw [undo_comp_relabeling] at exchanged
  have alike := alike_of_relabeled shown shown' exchanged
  refine ⟨_, _, ?_, ?_, ?_, alike, frames_of_alike alike⟩
  · have lengths := congrArg List.length blocks
    simpa only [relabelBlock_eq, List.length_map, ← shown.length_eq, ← shown'.length_eq] using lengths
  · rw [listed, listed']
    exact bijOn_names labels
  · rw [listed, listed']
    exact bijOn_literals labels

theorem exchange_of_agree_comparisons :
    (blockItems "total = 1\nif total > 1:\n    pass\n" 1).map Item.text = ["total = 1", "total > 1"] ∧
    (blockItems "first = 'one'\nfirst > 'one'\n" 1).map Item.text = ["first = 'one'", "first > 'one'"] ∧
    ∃ names literals, Exchanges names literals (blockItems "total = 1\nif total > 1:\n    pass\n" 1)
      (blockItems "first = 'one'\nfirst > 'one'\n" 1) := by
  have tame : (blockItems "total = 1\nif total > 1:\n    pass\n" 1).all Item.isTame = true := by decide +kernel
  have tame' : (blockItems "first = 'one'\nfirst > 'one'\n" 1).all Item.isTame = true := by decide +kernel
  have same : canonicalText (blockItems "total = 1\nif total > 1:\n    pass\n" 1) =
      canonicalText (blockItems "first = 'one'\nfirst > 'one'\n" 1) := by decide +kernel
  exact ⟨by decide +kernel, by decide +kernel, exchange_of_agree (fun _ h => ⟨_, _, h⟩) (fun _ h => ⟨_, _, h⟩)
    (List.all_eq_true.1 tame) (List.all_eq_true.1 tame') (.text same)⟩

end Arbiter.Canon
