import Arbiter.Proofs.Canon.Heads

/-! How lines begin. Main statements: the first line of a statement tells of which sort it is, and the lines
of a statement are told apart from those that follow. -/

namespace Arbiter.Syntax

open TokenKind (op name)
open Syntax.Parser

/-- What sort of line something is. -/
inductive LineKind
  | functionDef
  | classDef
  | ret
  | delete
  | assign
  | augAssign
  | annAssign
  | forLoop
  | whileLoop
  | branch
  | withBlock
  | raise
  | tryBlock
  | assert
  | imports
  | importFrom
  | global
  | nonlocal
  | matchBlock
  | expr
  | pass
  | breakLoop
  | continueLoop
  | async
  | decorator
  /-- A line that goes on with a statement. -/
  | arm
deriving DecidableEq

def lineWords : List (String × LineKind) := [
  ("async", .async), ("def", .functionDef), ("class", .classDef), ("return", .ret), ("del", .delete),
  ("for", .forLoop), ("while", .whileLoop), ("if", .branch), ("with", .withBlock), ("raise", .raise),
  ("try", .tryBlock), ("assert", .assert), ("import", .imports), ("from", .importFrom), ("global", .global),
  ("nonlocal", .nonlocal), ("match", .matchBlock), ("pass", .pass), ("break", .breakLoop),
  ("continue", .continueLoop), ("else", .arm), ("except", .arm), ("finally", .arm)]

/-- The sort of the lines that begin with the token, unless that begins an expression. -/
def TokenKind.lineKind? : TokenKind → Option LineKind
  | .name w => lineWords.lookup w
  | .op s => if s = "@" then some .decorator else none
  | _ => none

def lineKind? (ks : List TokenKind) : Option LineKind :=
  match (headOf ks).lineKind? with
  | some .async => (headOf ks.tail).lineKind?
  | kind => kind

/-- The sort of a line that begins with an expression, by the token after that. -/
def TokenKind.ledKind : TokenKind → LineKind
  | .op "=" => .assign
  | .op ":" => .annAssign
  | .endMarker => .expr
  | _ => .augAssign

def Stmt.kind : Stmt → LineKind
  | .functionDef .. => .functionDef
  | .classDef .. => .classDef
  | .ret _ => .ret
  | .delete _ => .delete
  | .assign .. => .assign
  | .augAssign .. => .augAssign
  | .annAssign .. => .annAssign
  | .forLoop .. => .forLoop
  | .whileLoop .. => .whileLoop
  | .branch .. => .branch
  | .withBlock .. => .withBlock
  | .raise .. => .raise
  | .tryBlock .. => .tryBlock
  | .assert .. => .assert
  | .imports _ => .imports
  | .importFrom .. => .importFrom
  | .global _ => .global
  | .nonlocal _ => .nonlocal
  | .matchBlock .. => .matchBlock
  | .expr _ => .expr
  | .pass => .pass
  | .breakLoop => .breakLoop
  | .continueLoop => .continueLoop

/-! Expressions begin as no such line does. -/

theorem IsNamePlaceholder.lineKind? {id : String} (h : IsNamePlaceholder id) :
    (name id).lineKind? = none := by
  obtain ⟨n, rfl⟩ := h
  rw [TokenKind.lineKind?, List.lookup_eq_none_iff]
  intro entry member
  have small : ∀ entry ∈ lineWords, entry.1.toList.head? ≠ some 'V' := by decide
  rw [bne_iff_ne]
  intro same
  refine small entry member ?_
  rw [← same, String.toList_append]
  rfl

def Part.StartsPlain : Part → Prop
  | .expr e => ∃ k rest, e.kinds = k :: rest ∧ k.lineKind? = none
  | _ => True

theorem startsPlain_of_regular {part : Part} (h : Regular .shown part) : part.StartsPlain := by
  have left : ∀ {value : Expr} (least : Nat) (tail : List TokenKind), (Part.expr value).StartsPlain →
      ∃ k rest, value.kindsWithin least value.kinds ++ tail = k :: rest ∧ k.lineKind? = none := by
    intro value least tail h
    unfold Expr.kindsWithin
    split
    · exact ⟨_, _, rfl, rfl⟩
    · obtain ⟨k, rest, same, plain⟩ := h
      exact ⟨k, rest ++ tail, by rw [same]; rfl, plain⟩
  induction h with
  | name _ fits => exact ⟨_, _, rfl, fits.lineKind?⟩
  | @number text h =>
    refine ⟨.number text, [], ?_, rfl⟩
    rcases Rendered.numberConstant_cases text with same | same | same <;> rw [same] <;> rfl
  | strings some spelled plain =>
    rw [Part.StartsPlain, Expr.kinds, Rendered.kinds_stringConstant some spelled plain]
    obtain ⟨p, pieces, rfl⟩ := List.exists_cons_of_ne_nil some
    exact ⟨_, _, rfl, rfl⟩
  | word w => rcases w with _ | _ | _ <;> exact ⟨_, _, rfl, rfl⟩
  | member _ _ _ hv => exact left _ _ hv
  | subscript _ _ hv _ =>
    rw [Part.StartsPlain, Rendered.kinds_subscript, List.append_assoc]
    exact left _ _ hv
  | set some _ =>
    rw [Part.StartsPlain, Expr.kinds, if_neg (by simpa using some)]
    exact ⟨_, _, rfl, rfl⟩
  | binary _ _ hl _ => exact left _ _ hl
  | @unary _ o => cases o <;> exact ⟨_, _, rfl, rfl⟩
  | bool _ _ _ hf => exact left _ _ hf
  | compare _ _ _ hl => exact left _ _ hl
  | call _ _ _ _ hf | ifElse _ _ _ _ hf =>
    rw [Part.StartsPlain, Expr.kinds, List.append_assoc]
    exact left _ _ hf
  | named _ fits => exact ⟨_, _, rfl, fits.lineKind?⟩
  | yield allowed | yieldFrom allowed | strayed allowed => cases allowed
  | ellipsis | joinedStr | tuple | list | dict | lambda | listComp | setComp | generatorExp | dictComp
  | await => exact ⟨_, _, rfl, rfl⟩
  | starred | item | slice | entry | noEntry | entries | index | noClause | clause => trivial

theorem Regular.lineKind? {e : Expr} (h : Regular .shown (.expr e)) (tail : List TokenKind) :
    lineKind? (e.kinds ++ tail) = none := by
  obtain ⟨k, rest, same, plain⟩ := startsPlain_of_regular h
  unfold Syntax.lineKind?
  rw [same, List.cons_append, headOf_cons, plain]

/-! Statements. -/

/-- What the first line of a statement begins with: a word that tells its sort, or an expression. -/
inductive Stmt.Opens (s : Stmt) : Prop
  | word (kind : lineKind? s.head = some s.kind)
  | led {first : Expr} {tail : List TokenKind} (h : Regular .shown (.expr first))
    (stop : Stop Strength.named tail) (head : s.head = first.kinds ++ tail)
    (kind : (headOf tail).ledKind = s.kind)

theorem ledKind_augmented (o : BinaryOp) : (op (o.symbol ++ "=")).ledKind = .augAssign := by
  cases o <;> rfl

theorem stop_augmented (o : BinaryOp) {s : Nat} (pos : 0 < s) (K : List TokenKind) :
    Stop s (op (o.symbol ++ "=") :: K) := by
  have none : (op (o.symbol ++ "=")).joins = 0 := by cases o <;> rfl
  exact none.trans_lt pos

theorem stop_nil {s : Nat} (pos : 0 < s) : Stop s [] := pos

theorem Stmt.Formed.opens {s : Stmt} (h : s.Formed .shown) : s.Opens := by
  cases h with
  | @functionDef _ _ _ _ _ isAsync | @forLoop _ _ _ _ _ isAsync | @withBlock _ _ isAsync =>
    cases isAsync <;> exact .word rfl
  | @assign _ _ value nonempty hh ht hv =>
    obtain ⟨e, heads, rfl⟩ := List.exists_cons_of_ne_nil nonempty
    cases alike_of_asTargets _ ht with
    | @cons _ t _ ts alike _ =>
      have head : (Stmt.assign (t :: ts) value).head = e.kinds ++ op "=" ::
          (ts.flatMap (fun t => t.kinds ++ [op "="]) ++ value.kinds) := by
        rw [Stmt.head, List.flatMap_cons, alike.kinds, List.append_assoc, List.append_assoc]
        rfl
      exact .led (hh e List.mem_cons_self) (stop_cons (by decide) _) head rfl
  | @augAssign e t value o ht hv =>
    have head : (Stmt.augAssign t o value).head = e.kinds ++ op (o.symbol ++ "=") :: value.kinds := by
      rw [Stmt.head, (alike_of_asTarget e ht.same).kinds]
    exact .led ht.regular (stop_augmented o (by decide) _) head (ledKind_augmented o)
  | @annAssign e t annotation value ht ha hv =>
    have head : (Stmt.annAssign t annotation value).head = e.kinds ++ op ":" ::
        ( annotation.kindsWithin Strength.test annotation.kinds ++ optionalKinds [op "="] value) := by
      rw [Stmt.head, (alike_of_asTarget e ht.same).kinds, List.append_assoc]
      rfl
    exact .led ht.regular (stop_cons (by decide) _) head rfl
  | expr h => exact .led h (stop_nil (by decide)) (List.append_nil _).symm rfl
  | _ => exact .word rfl

/-- Statements with one first line are of one sort. -/
theorem Stmt.Formed.kind_eq {s s' : Stmt} (h : s.Formed .shown) (h' : s'.Formed .shown)
    (same : s.head = s'.head) : s.kind = s'.kind := by
  cases h.opens with
  | word kind =>
    cases h'.opens with
    | word kind' => exact Option.some.inj (kind.symm.trans (same ▸ kind'))
    | led led _ head => rw [same, head, led.lineKind?] at kind; cases kind
  | led led stop head kind =>
    cases h'.opens with
    | word kind' => rw [← same, head, led.lineKind?] at kind'; cases kind'
    | led led' stop' head' kind' =>
      obtain ⟨-, rfl⟩ := cut_whole led led' stop stop' (head.symm.trans (same.trans head'))
      exact kind.symm.trans kind'

/-! Lines of statements one after the other. -/

def Line.kind? (l : Line) : Option LineKind := lineKind? l.head

/-- The lines go on with no statement. -/
def StartsAnew (ls : List Line) : Prop := ∀ l ∈ ls.head?, l.kind? ≠ some .arm

section Trees

variable {s s' : Stmt} {ls ls' : List Line}

theorem Stmt.Formed.head_kind (h : s.Formed .shown) (inner : List Line) :
    (Line.mk s.head inner).kind? ≠ some .decorator ∧ (Line.mk s.head inner).kind? ≠ some .arm := by
  show lineKind? s.head ≠ _ ∧ lineKind? s.head ≠ _
  cases h.opens with
  | word kind =>
    rw [kind]
    cases s <;> exact ⟨nofun, nofun⟩
  | led led _ head =>
    rw [head, led.lineKind?]
    exact ⟨nofun, nofun⟩

theorem above_kind (s : Stmt) : ∀ l ∈ s.above, l.kind? = some .decorator := by
  have decorators : ∀ es : List Expr, ∀ l ∈ es.map decoratorLine, l.kind? = some .decorator := fun es =>
    List.forall_mem_map.2 fun e _ => rfl
  cases s with
  | functionDef _ _ _ es | classDef _ _ _ _ es => exact decorators es
  | _ => nofun

theorem armLine_kind {word : String} (h : word ∈ ["else", "finally"]) (ls : List Line) :
    ∀ l ∈ armLine word ls, l.kind? = some .arm := by
  unfold armLine
  split
  · nofun
  · simp only [List.mem_cons, List.not_mem_nil, or_false] at h
    rcases h with rfl | rfl <;> exact List.forall_mem_singleton.2 rfl

theorem handlerTree_kind (handlers : List Handler) : ∀ l ∈ handlerTree handlers, l.kind? = some .arm := by
  induction handlers with
  | nil => nofun
  | cons h handlers ih =>
    obtain ⟨type, id, body⟩ := h
    exact List.forall_mem_cons.2 ⟨rfl, ih⟩

theorem arms_kind (s : Stmt) : ∀ l ∈ s.arms, l.kind? = some .arm := by
  cases s with
  | forLoop | whileLoop | branch => exact armLine_kind (by decide) _
  | tryBlock body handlers orelse finalbody =>
    exact List.forall_mem_append.2 ⟨handlerTree_kind handlers, List.forall_mem_append.2
      ⟨armLine_kind (by decide) _, armLine_kind (by decide) _⟩⟩
  | _ => nofun

/-- Two statements with the same lines, as far as their own blocks are concerned. -/
structure Stmt.SameLines (s s' : Stmt) : Prop where
  above : s.above = s'.above
  head : s.head = s'.head
  inner : s.inner = s'.inner
  arms : s.arms = s'.arms

theorem cut_tree (h : s.Formed .shown) (h' : s'.Formed .shown) (anew : StartsAnew ls) (anew' : StartsAnew ls')
    (same : s.tree ++ ls = s'.tree ++ ls') : s.SameLines s' ∧ ls = ls' := by
  simp only [Stmt.tree, List.append_assoc, List.cons_append] at same
  have first : ∀ {s : Stmt} {ls : List Line}, s.Formed .shown →
      ∀ l ∈ (Line.mk s.head s.inner :: ls).head?, (l.kind? == some .decorator) = false := by
    rintro s ls h _ ⟨⟩
    exact beq_eq_false_iff_ne.2 (h.head_kind _).1
  obtain ⟨above, rest⟩ := cut_while (p := fun l => l.kind? == some .decorator)
    (fun l hl => beq_iff_eq.2 (above_kind s l hl)) (fun l hl => beq_iff_eq.2 (above_kind s' l hl))
    (first h) (first h') same
  obtain ⟨head, rest⟩ := List.cons.inj rest
  obtain ⟨arms, left⟩ := cut_while (p := fun l => l.kind? == some .arm)
    (fun l hl => beq_iff_eq.2 (arms_kind s l hl)) (fun l hl => beq_iff_eq.2 (arms_kind s' l hl))
    (fun l hl => beq_eq_false_iff_ne.2 (anew l hl)) (fun l hl => beq_eq_false_iff_ne.2 (anew' l hl)) rest
  exact ⟨⟨above, congrArg Line.head head, (Line.mk.inj head).2, arms⟩, left⟩

theorem startsAnew_block {body : List Stmt} (h : ∀ s ∈ body, s.Formed .shown) : StartsAnew (blockTree body) := by
  intro l hl
  cases body with
  | nil => cases hl
  | cons s body =>
    rw [blockTree] at hl
    cases up : s.above with
    | nil =>
      rw [up] at hl
      cases hl
      exact ((h s List.mem_cons_self).head_kind _).2
    | cons d ds =>
      have decorator := above_kind s d (up ▸ List.mem_cons_self)
      rw [up] at hl
      cases hl
      rw [decorator]
      decide

end Trees

end Arbiter.Syntax
