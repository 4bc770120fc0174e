import Arbiter.Proofs.Canon.Renaming
import Mathlib.Data.List.Basic
import Mathlib.Data.List.Induction

/-! Numbering on the way. A pass over a tree gives every name and literal that it meets its number, or the
next one if it has none, and goes on with the numbers so far. Main statement: to go over a tree in this way is
to note its labels first and then to put placeholders everywhere by the numbers at the end. -/

namespace Arbiter.Syntax

/-- Both do the same to what has one of the labels, and to all that has none. -/
structure Relabeling.Agree (r r' : Relabeling) (labels : List Label) : Prop where
  name : ∀ id, .name id ∈ labels → r.name id = r'.name id
  literal : ∀ c l, literal? c = some l → .literal l ∈ labels → r.constant c = r'.constant c
  piece : ∀ s, .literal ⟨.str, s⟩ ∈ labels → r.piece s = r'.piece s
  other : ∀ c, literal? c = none → r.constant c = r'.constant c
  format : r.format = r'.format

theorem Relabeling.Agree.mono {r r' : Relabeling} {labels labels' : List Label} (h : r.Agree r' labels)
    (sub : labels' ⊆ labels) : r.Agree r' labels' :=
  ⟨fun id member => h.name id (sub member), fun c l found member => h.literal c l found (sub member),
    fun s member => h.piece s (sub member), h.other, h.format⟩

end Arbiter.Syntax

namespace Arbiter.Canon

open Syntax Arbiter.Flow

namespace Numbering

/-- Nothing has a number. -/
def fresh : Numbering := ⟨[], []⟩

/-- What is not there yet comes last. -/
def enter {α : Type} [DecidableEq α] (as : List α) (a : α) : List α := if a ∈ as then as else as ++ [a]

/-- A label that has no number gets the next. -/
def add (n : Numbering) : Label → Numbering
  | .name id => { n with names := enter n.names id }
  | .literal l => { n with literals := enter n.literals l }

def after (n : Numbering) (labels : List Label) : Numbering := labels.foldl add n

/-- The label has a number. -/
def Has (n : Numbering) : Label → Prop
  | .name id => id ∈ n.names
  | .literal l => l ∈ n.literals

/-- What has a number in `n` has the same in `n'`. -/
structure Extends (n n' : Numbering) : Prop where
  names : n.names <+: n'.names
  literals : n.literals <+: n'.literals

variable {n n' n'' : Numbering} {labels labels' : List Label} {l : Label}

namespace Extends

theorem refl (n : Numbering) : n.Extends n := ⟨List.prefix_rfl, List.prefix_rfl⟩

theorem trans (h : n.Extends n') (h' : n'.Extends n'') : n.Extends n'' :=
  ⟨h.names.trans h'.names, h.literals.trans h'.literals⟩

theorem has (h : n.Extends n') (known : n.Has l) : n'.Has l := by
  cases l with
  | name => exact h.names.subset known
  | literal => exact h.literals.subset known

theorem idxOf_eq {α : Type} [BEq α] [LawfulBEq α] {as bs : List α} (h : as <+: bs) {a : α} (member : a ∈ as) :
    bs.idxOf a = as.idxOf a := by
  obtain ⟨rest, rfl⟩ := h
  exact List.idxOf_append_of_mem member

theorem namePlaceholder_eq (h : n.Extends n') {id : String} (known : id ∈ n.names) :
    n'.namePlaceholder id = n.namePlaceholder id := by
  rw [namePlaceholder, idxOf_eq h.names known]
  rfl

theorem literalPlaceholder_eq (h : n.Extends n') {l : Literal} (known : l ∈ n.literals) :
    n'.literalPlaceholder l = n.literalPlaceholder l := by
  rw [literalPlaceholder, idxOf_eq h.literals known]
  rfl

/-- Labels that have a number are treated alike later on. -/
theorem agree (h : n.Extends n') (known : ∀ l ∈ labels, n.Has l) :
    n.relabeling.Agree n'.relabeling labels where
  name id member := (h.namePlaceholder_eq (known _ member)).symm
  literal c l found member := by
    simp only [relabeling, constantPlaceholder, found, h.literalPlaceholder_eq (known _ member)]
  piece s member := (h.literalPlaceholder_eq (known _ member)).symm
  other c none := by simp only [relabeling, constantPlaceholder, none]
  format := rfl

end Extends

section Enter

variable {α : Type} [DecidableEq α] (as : List α) (a : α)

theorem prefix_enter : as <+: enter as a := by
  unfold enter
  split
  · exact List.prefix_rfl
  · exact List.prefix_append _ _

theorem mem_enter : a ∈ enter as a := by
  unfold enter
  split
  · assumption
  · exact List.mem_append_right _ List.mem_cons_self

theorem eraseDups_snoc : (as ++ [a]).eraseDups = enter as.eraseDups a := by
  by_cases member : a ∈ as <;> simp [List.eraseDups_append, List.removeAll, enter, member, List.eraseDups_cons]

end Enter

theorem extends_add (n : Numbering) (l : Label) : n.Extends (n.add l) := by
  cases l with
  | name id => exact ⟨prefix_enter _ _, List.prefix_rfl⟩
  | literal l => exact ⟨List.prefix_rfl, prefix_enter _ _⟩

theorem has_add (n : Numbering) (l : Label) : (n.add l).Has l := by
  cases l with
  | name id => exact mem_enter _ _
  | literal l => exact mem_enter _ _

theorem after_append (n : Numbering) (labels labels' : List Label) :
    n.after (labels ++ labels') = (n.after labels).after labels' := List.foldl_append

theorem extends_after (n : Numbering) (labels : List Label) : n.Extends (n.after labels) := by
  induction labels generalizing n with
  | nil => exact .refl n
  | cons l labels ih => exact (n.extends_add l).trans (ih (n.add l))

theorem has_after (n : Numbering) (labels : List Label) : ∀ l ∈ labels, (n.after labels).Has l := by
  induction labels generalizing n with
  | nil => exact nofun
  | cons l labels ih =>
    intro l' member
    rcases List.mem_cons.1 member with rfl | member
    · exact ((n.add l').extends_after labels).has (n.has_add l')
    · exact ih (n.add l) l' member

/-- One more label. -/
theorem ofLabels_snoc (labels : List Label) (l : Label) :
    ofLabels (labels ++ [l]) = (ofLabels labels).add l := by
  cases l with
  | name id | literal l =>
    simp only [ofLabels, add, List.filterMap_append, List.filterMap_cons, List.filterMap_nil, nameOf?, literalOf?,
      List.append_nil, eraseDups_snoc]

/-- The numbers of some labels are those that they get one after another. -/
theorem ofLabels_eq_after (labels : List Label) : ofLabels labels = fresh.after labels := by
  induction labels using List.reverseRecOn with
  | nil => rfl
  | append_singleton labels l ih => rw [ofLabels_snoc, ih, after_append]; rfl

end Numbering

/-- A step of a pass: what it makes, and the numbers with which the pass goes on. -/
abbrev Pass := StateM Numbering

namespace Pass

variable {α β : Type} {x : Pass α} {labels labels' : List Label}

@[simp] theorem bind_apply (x : Pass α) (k : α → Pass β) (n : Numbering) : (x >>= k) n = k (x n).1 (x n).2 := rfl

/-- The step numbers the labels in their order and makes `value` of the numbers at its end, to which other
labels make no difference. -/
structure Numbers (x : Pass α) (labels : List Label) (value : Relabeling → α) : Prop where
  run : ∀ n, x n = (value (n.after labels).relabeling, n.after labels)
  reads : ∀ {r r'}, r.Agree r' labels → value r = value r'

namespace Numbers

variable {f : Relabeling → α}

/-- What has no label. -/
theorem still {a : α} (same : ∀ r : Relabeling, r.format = id → f r = a)
    (reads : ∀ {r r'}, r.Agree r' [] → f r = f r') : Numbers (pure a) [] f :=
  ⟨fun n => congrArg (·, n) (same n.relabeling rfl).symm, reads⟩

protected theorem pure (a : α) : Numbers (pure a) [] fun _ => a := still (fun _ _ => rfl) fun _ => rfl

/-- Numbers that are given later leave what was made before as it is. -/
protected theorem bind {k : α → Pass β} {g : α → Relabeling → β} (hx : Numbers x labels f)
    (hk : ∀ a, Numbers (k a) labels' (g a)) : Numbers (x >>= k) (labels ++ labels') fun r => g (f r) r where
  run n := by
    have earlier : f (n.after labels).relabeling = f ((n.after labels).after labels').relabeling :=
      hx.reads (((n.after labels).extends_after labels').agree (n.has_after labels))
    rw [bind_apply, hx.run, (hk _).run, Numbering.after_append, earlier]
  reads {r r'} h := by
    rw [hx.reads (h.mono (List.subset_append_left _ _)), (hk _).reads (h.mono (List.subset_append_right _ _))]

/-- The last part of a tree. -/
theorem last (hx : Numbers x labels f) (g : α → β) :
    Numbers (x >>= fun a => pure (g a)) labels fun r => g (f r) := by
  simpa only [List.append_nil] using hx.bind fun a => Numbers.pure (g a)

end Numbers

/-! The pass over each kind of tree, part by part in the order in which numbers are given. -/

def name (id : String) : Pass String := fun n => ((n.add (.name id)).namePlaceholder id, n.add (.name id))

def optionalName : Option String → Pass (Option String)
  | none => pure none
  | some id => return some (← name id)

def names : List String → Pass (List String)
  | [] => pure []
  | id :: rest => return (← name id) :: (← names rest)

def literal (l : Literal) : Pass String := fun n =>
  ((n.add (.literal l)).literalPlaceholder l, n.add (.literal l))

def constant (c : Constant) : Pass Constant :=
  match literal? c with
  | some l => return .str ("'" ++ (← literal l) ++ "'")
  | none => pure c

mutual

def expr : Expr → Pass Expr
  | .name id ctx => return .name (← name id) ctx
  | .constant c => return .constant (← constant c)
  | .joinedStr ps => return .joinedStr (← parts ps)
  | .attribute value attr ctx => return .attribute (← expr value) attr ctx
  | .subscript value index ctx => return .subscript (← expr value) (← expr index) ctx
  | .slice lower upper step => return .slice (← option lower) (← option upper) (← option step)
  | .starred value ctx => return .starred (← expr value) ctx
  | .tuple elts ctx => return .tuple (← exprs elts) ctx
  | .list elts ctx => return .list (← exprs elts) ctx
  | .set elts => return .set (← exprs elts)
  | .dict items => return .dict (← dictItems items)
  | .binary left op right => return .binary (← expr left) op (← expr right)
  | .unary op operand => return .unary op (← expr operand)
  | .bool op values => return .bool op (← exprs values)
  | .compare left rest => return .compare (← expr left) (← comparands rest)
  | .call func args kws => return .call (← expr func) (← exprs args) (← keywords kws)
  | .ifElse test body orelse => return .ifElse (← expr test) (← expr body) (← expr orelse)
  | .lambda ps body => return .lambda (← params ps) (← expr body)
  | .listComp elt gs => return .listComp (← expr elt) (← generators gs)
  | .setComp elt gs => return .setComp (← expr elt) (← generators gs)
  | .generatorExp elt gs => return .generatorExp (← expr elt) (← generators gs)
  | .dictComp key value gs => return .dictComp (← expr key) (← expr value) (← generators gs)
  | .await value => return .await (← expr value)
  | .yield value => return .yield (← option value)
  | .yieldFrom value => return .yieldFrom (← expr value)
  | .named target value => return .named (← expr target) (← expr value)

def exprs : List Expr → Pass (List Expr)
  | [] => pure []
  | e :: es => return (← expr e) :: (← exprs es)

def option : Option Expr → Pass (Option Expr)
  | none => pure none
  | some e => return some (← expr e)

/-- A piece is a string. Formats are passed over. -/
def parts : List FStringPart → Pass (List FStringPart)
  | [] => pure []
  | .literal s :: rest => return .literal (← literal ⟨.str, s⟩) :: (← parts rest)
  | .formatted value conversion spec :: rest =>
    return .formatted (← expr value) conversion spec :: (← parts rest)

def dictItems : List DictItem → Pass (List DictItem)
  | [] => pure []
  | .entry key value :: rest => return .entry (← expr key) (← expr value) :: (← dictItems rest)
  | .spread value :: rest => return .spread (← expr value) :: (← dictItems rest)

def comparands : List Comparand → Pass (List Comparand)
  | [] => pure []
  | ⟨op, value⟩ :: rest => return ⟨op, ← expr value⟩ :: (← comparands rest)

def keywords : List Keyword → Pass (List Keyword)
  | [] => pure []
  | ⟨arg, value⟩ :: rest => return ⟨arg, ← expr value⟩ :: (← keywords rest)

def generators : List Generator → Pass (List Generator)
  | [] => pure []
  | ⟨target, iter, ifs, isAsync⟩ :: rest =>
    return ⟨← expr target, ← expr iter, ← exprs ifs, isAsync⟩ :: (← generators rest)

def argument : Argument → Pass Argument
  | ⟨id, type⟩ => return ⟨← name id, ← option type⟩

def params : List Param → Pass (List Param)
  | [] => pure []
  | .plain arg default :: rest => return .plain (← argument arg) (← option default) :: (← params rest)
  | .posOnlyMarker :: rest => return .posOnlyMarker :: (← params rest)
  | .varArgs none :: rest => return .varArgs none :: (← params rest)
  | .varArgs (some arg) :: rest => return .varArgs (some (← argument arg)) :: (← params rest)
  | .kwArgs arg :: rest => return .kwArgs (← argument arg) :: (← params rest)

end

def keys : List MappingItem → Pass (List Expr)
  | [] => pure []
  | ⟨key, _⟩ :: rest => return (← expr key) :: (← keys rest)

mutual

/-- All keys of a mapping come before its patterns. -/
def pattern : Pattern → Pass Pattern
  | .value e => return .value (← expr e)
  | .singleton c => pure (.singleton c)
  | .sequence ps => return .sequence (← patterns ps)
  | .mapping items rest =>
    return .mapping ((← keys items).zipWith .mk (← mapped items)) (← optionalName rest)
  | .cls head ps kws => return .cls (← expr head) (← patterns ps) (← keywordPatterns kws)
  | .star id => return .star (← optionalName id)
  | .wildcard => pure .wildcard
  | .capture id => return .capture (← name id)
  | .bind p id => return .bind (← pattern p) (← name id)
  | .or ps => return .or (← patterns ps)

def patterns : List Pattern → Pass (List Pattern)
  | [] => pure []
  | p :: ps => return (← pattern p) :: (← patterns ps)

def mapped : List MappingItem → Pass (List Pattern)
  | [] => pure []
  | ⟨_, p⟩ :: rest => return (← pattern p) :: (← mapped rest)

def keywordPatterns : List KeywordPattern → Pass (List KeywordPattern)
  | [] => pure []
  | ⟨attr, p⟩ :: rest => return ⟨attr, ← pattern p⟩ :: (← keywordPatterns rest)

end

def withItems : List WithItem → Pass (List WithItem)
  | [] => pure []
  | ⟨context, vars⟩ :: rest => return ⟨← expr context, ← option vars⟩ :: (← withItems rest)

mutual

def stmt : Stmt → Pass Stmt
  | .functionDef id ps body decorators returns isAsync =>
    return .functionDef (← name id) (← params ps) (← block body) (← exprs decorators) (← option returns) isAsync
  | .classDef id bases kws body decorators =>
    return .classDef (← name id) (← exprs bases) (← keywords kws) (← block body) (← exprs decorators)
  | .ret value => return .ret (← option value)
  | .delete targets => return .delete (← exprs targets)
  | .assign targets value => return .assign (← exprs targets) (← expr value)
  | .augAssign target op value => return .augAssign (← expr target) op (← expr value)
  | .annAssign target type value => return .annAssign (← expr target) (← expr type) (← option value)
  | .forLoop target iter body orelse isAsync =>
    return .forLoop (← expr target) (← expr iter) (← block body) (← block orelse) isAsync
  | .whileLoop test body orelse => return .whileLoop (← expr test) (← block body) (← block orelse)
  | .branch test body orelse => return .branch (← expr test) (← block body) (← block orelse)
  | .withBlock items body isAsync => return .withBlock (← withItems items) (← block body) isAsync
  | .raise exc cause => return .raise (← option exc) (← option cause)
  | .tryBlock body hs orelse finalbody =>
    return .tryBlock (← block body) (← handlers hs) (← block orelse) (← block finalbody)
  | .assert test msg => return .assert (← expr test) (← option msg)
  | .imports aliases => pure (.imports aliases)
  | .importFrom module aliases level => pure (.importFrom module aliases level)
  | .global ids => return .global (← names ids)
  | .nonlocal ids => return .nonlocal (← names ids)
  | .matchBlock subject cs => return .matchBlock (← expr subject) (← cases cs)
  | .expr value => return .expr (← expr value)
  | .pass => pure .pass
  | .breakLoop => pure .breakLoop
  | .continueLoop => pure .continueLoop

def block : List Stmt → Pass (List Stmt)
  | [] => pure []
  | s :: rest => return (← stmt s) :: (← block rest)

def handlers : List Handler → Pass (List Handler)
  | [] => pure []
  | ⟨type, id, body⟩ :: rest =>
    return ⟨← option type, ← optionalName id, ← block body⟩ :: (← handlers rest)

def cases : List MatchCase → Pass (List MatchCase)
  | [] => pure []
  | ⟨p, guard, body⟩ :: rest => return ⟨← pattern p, ← option guard, ← block body⟩ :: (← cases rest)

end

def item : Item → Pass Item
  | .stmt s => return .stmt (← stmt s)
  | .expr e => return .expr (← expr e)

/-- The items of a block, one after another. -/
def items : List Item → Pass (List Item)
  | [] => pure []
  | i :: rest => return (← item i) :: (← items rest)

/-! Each pass numbers the labels of its tree. -/

theorem numbers_name (id : String) : Numbers (name id) [.name id] (·.name id) :=
  ⟨fun _ => rfl, fun h => h.name id List.mem_cons_self⟩

theorem numbers_literal (s : String) : Numbers (literal ⟨.str, s⟩) [.literal ⟨.str, s⟩] (·.piece s) :=
  ⟨fun _ => rfl, fun h => h.piece s List.mem_cons_self⟩

theorem numbers_constant (c : Constant) :
    Numbers (constant c) ((literal? c).toList.map .literal) (·.constant c) := by
  cases found : literal? c with
  | none =>
    refine ⟨fun n => ?_, fun h => h.other c found⟩
    simp only [constant, found, Numbering.relabeling, Numbering.constantPlaceholder]
    rfl
  | some l =>
    refine ⟨fun n => ?_, fun h => h.literal c l found List.mem_cons_self⟩
    simp only [constant, found, Numbering.relabeling, Numbering.constantPlaceholder]
    rfl

theorem numbers_optionalName : (id : Option String) →
    Numbers (optionalName id) (id.toList.map .name) (id.map ·.name)
  | none => .pure none
  | some id => (numbers_name id).last some

theorem numbers_names : (ids : List String) → Numbers (names ids) (ids.map .name) (ids.map ·.name)
  | [] => .pure []
  | id :: rest => (numbers_name id).bind fun x => (numbers_names rest).last (x :: ·)

mutual

theorem numbers_expr : (e : Expr) → Numbers (expr e) (exprLabels e) (relabelExpr · e)
  | .name id ctx => (numbers_name id).last (Expr.name · ctx)
  | .constant c => (numbers_constant c).last Expr.constant
  | .joinedStr ps => (numbers_parts ps).last Expr.joinedStr
  | .attribute e attr ctx => (numbers_expr e).last (Expr.attribute · attr ctx)
  | .subscript e f ctx => (numbers_expr e).bind fun x => (numbers_expr f).last (Expr.subscript x · ctx)
  | .slice lower upper step => by
    simpa only [expr, exprLabels, relabelExpr, List.append_assoc] using
      (numbers_option lower).bind fun x => (numbers_option upper).bind fun y =>
        (numbers_option step).last (Expr.slice x y)
  | .starred e ctx => (numbers_expr e).last (Expr.starred · ctx)
  | .tuple es ctx => (numbers_exprs es).last (Expr.tuple · ctx)
  | .list es ctx => (numbers_exprs es).last (Expr.list · ctx)
  | .set es => (numbers_exprs es).last Expr.set
  | .dict items => (numbers_dictItems items).last Expr.dict
  | .binary e op f => (numbers_expr e).bind fun x => (numbers_expr f).last (Expr.binary x op)
  | .unary op e => (numbers_expr e).last (Expr.unary op)
  | .bool op es => (numbers_exprs es).last (Expr.bool op)
  | .compare e rest => (numbers_expr e).bind fun x => (numbers_comparands rest).last (Expr.compare x)
  | .call e es kws => by
    simpa only [expr, exprLabels, relabelExpr, List.append_assoc] using
      (numbers_expr e).bind fun x => (numbers_exprs es).bind fun y =>
        (numbers_keywords kws).last (Expr.call x y)
  | .ifElse e f f' => by
    simpa only [expr, exprLabels, relabelExpr, List.append_assoc] using
      (numbers_expr e).bind fun x => (numbers_expr f).bind fun y => (numbers_expr f').last (Expr.ifElse x y)
  | .lambda ps e => (numbers_params ps).bind fun x => (numbers_expr e).last (Expr.lambda x)
  | .listComp e gs => (numbers_expr e).bind fun x => (numbers_generators gs).last (Expr.listComp x)
  | .setComp e gs => (numbers_expr e).bind fun x => (numbers_generators gs).last (Expr.setComp x)
  | .generatorExp e gs => (numbers_expr e).bind fun x => (numbers_generators gs).last (Expr.generatorExp x)
  | .dictComp e f gs => by
    simpa only [expr, exprLabels, relabelExpr, List.append_assoc] using
      (numbers_expr e).bind fun x => (numbers_expr f).bind fun y =>
        (numbers_generators gs).last (Expr.dictComp x y)
  | .await e => (numbers_expr e).last Expr.await
  | .yield e => (numbers_option e).last Expr.yield
  | .yieldFrom e => (numbers_expr e).last Expr.yieldFrom
  | .named e f => (numbers_expr e).bind fun x => (numbers_expr f).last (Expr.named x)

theorem numbers_exprs : (es : List Expr) → Numbers (exprs es) (listLabels es) (relabelExprs · es)
  | [] => .pure []
  | e :: es => (numbers_expr e).bind fun x => (numbers_exprs es).last (x :: ·)

theorem numbers_option : (e : Option Expr) → Numbers (option e) (optionLabels e) (relabelOption · e)
  | none => .pure none
  | some e => (numbers_expr e).last some

/-- A format stays under numbers, and relabelings that agree do the same to it. -/
theorem numbers_parts : (ps : List FStringPart) → Numbers (parts ps) (partLabels ps) (relabelParts · ps)
  | [] => .pure []
  | .literal s :: rest =>
    (numbers_literal s).bind fun x => (numbers_parts rest).last (FStringPart.literal x :: ·)
  | .formatted e conversion spec :: rest => by
    have format : ∀ x y, Numbers (pure (FStringPart.formatted x conversion spec :: y)) []
        fun r => .formatted x conversion (spec.map r.format) :: y := fun x y =>
      .still (fun r keeps => by rw [keeps, Option.map_id_apply]) fun h => by rw [h.format]
    simpa only [parts, partLabels, relabelParts, List.append_nil] using
      (numbers_expr e).bind fun x => (numbers_parts rest).bind fun y => format x y

theorem numbers_dictItems :
    (items : List DictItem) → Numbers (dictItems items) (dictLabels items) (relabelDict · items)
  | [] => .pure []
  | .entry key value :: rest => by
    simpa only [dictItems, dictLabels, relabelDict, List.append_assoc] using
      (numbers_expr key).bind fun x => (numbers_expr value).bind fun y =>
        (numbers_dictItems rest).last (DictItem.entry x y :: ·)
  | .spread value :: rest =>
    (numbers_expr value).bind fun x => (numbers_dictItems rest).last (DictItem.spread x :: ·)

theorem numbers_comparands :
    (rest : List Comparand) → Numbers (comparands rest) (comparandLabels rest) (relabelComparands · rest)
  | [] => .pure []
  | ⟨op, value⟩ :: rest =>
    (numbers_expr value).bind fun x => (numbers_comparands rest).last (Comparand.mk op x :: ·)

theorem numbers_keywords :
    (kws : List Keyword) → Numbers (keywords kws) (keywordLabels kws) (relabelKeywords · kws)
  | [] => .pure []
  | ⟨arg, value⟩ :: rest =>
    (numbers_expr value).bind fun x => (numbers_keywords rest).last (Keyword.mk arg x :: ·)

theorem numbers_generators :
    (gs : List Generator) → Numbers (generators gs) (generatorLabels gs) (relabelGenerators · gs)
  | [] => .pure []
  | ⟨target, iter, ifs, isAsync⟩ :: rest => by
    simpa only [generators, generatorLabels, relabelGenerators, List.append_assoc] using
      (numbers_expr target).bind fun x => (numbers_expr iter).bind fun y => (numbers_exprs ifs).bind fun z =>
        (numbers_generators rest).last (Generator.mk x y z isAsync :: ·)

theorem numbers_argument :
    (arg : Argument) → Numbers (argument arg) (argumentLabels arg) (relabelArgument · arg)
  | ⟨id, type⟩ => (numbers_name id).bind fun x => (numbers_option type).last (Argument.mk x)

theorem numbers_params : (ps : List Param) → Numbers (params ps) (paramLabels ps) (relabelParams · ps)
  | [] => .pure []
  | .plain arg default :: rest => by
    simpa only [params, paramLabels, relabelParams, List.append_assoc] using
      (numbers_argument arg).bind fun x => (numbers_option default).bind fun y =>
        (numbers_params rest).last (Param.plain x y :: ·)
  | .posOnlyMarker :: rest => (numbers_params rest).last (Param.posOnlyMarker :: ·)
  | .varArgs none :: rest => (numbers_params rest).last (Param.varArgs none :: ·)
  | .varArgs (some arg) :: rest =>
    (numbers_argument arg).bind fun x => (numbers_params rest).last (Param.varArgs (some x) :: ·)
  | .kwArgs arg :: rest =>
    (numbers_argument arg).bind fun x => (numbers_params rest).last (Param.kwArgs x :: ·)

end

theorem numbers_keys (items : List MappingItem) :
    Numbers (keys items) (mappingKeyLabels items) fun r => items.map (relabelExpr r ·.key) := by
  induction items with
  | nil => exact .pure []
  | cons i rest ih =>
    obtain ⟨key, p⟩ := i
    exact (numbers_expr key).bind fun x => ih.last (x :: ·)

theorem relabelMapping_eq_zipWith (r : Relabeling) (items : List MappingItem) : relabelMapping r items =
    (items.map (relabelExpr r ·.key)).zipWith .mk (items.map (relabelPattern r ·.pattern)) := by
  induction items with
  | nil => rfl
  | cons i rest ih =>
    obtain ⟨key, p⟩ := i
    rw [relabelMapping, ih, List.map_cons, List.map_cons, List.zipWith_cons_cons]

mutual

theorem numbers_pattern : (p : Pattern) → Numbers (pattern p) (patternLabels p) (relabelPattern · p)
  | .value e => (numbers_expr e).last Pattern.value
  | .singleton c => .pure (Pattern.singleton c)
  | .sequence ps => (numbers_patterns ps).last Pattern.sequence
  | .mapping items rest => by
    simpa only [pattern, patternLabels, relabelPattern, relabelMapping_eq_zipWith, List.append_assoc] using
      (numbers_keys items).bind fun x => (numbers_mapped items).bind fun y =>
        (numbers_optionalName rest).last (Pattern.mapping (x.zipWith .mk y))
  | .cls head ps kws => by
    simpa only [pattern, patternLabels, relabelPattern, List.append_assoc] using
      (numbers_expr head).bind fun x => (numbers_patterns ps).bind fun y =>
        (numbers_keywordPatterns kws).last (Pattern.cls x y)
  | .star id => (numbers_optionalName id).last Pattern.star
  | .wildcard => .pure Pattern.wildcard
  | .capture id => (numbers_name id).last Pattern.capture
  | .bind p id => (numbers_pattern p).bind fun x => (numbers_name id).last (Pattern.bind x)
  | .or ps => (numbers_patterns ps).last Pattern.or

theorem numbers_patterns :
    (ps : List Pattern) → Numbers (patterns ps) (patternsLabels ps) (relabelPatterns · ps)
  | [] => .pure []
  | p :: ps => (numbers_pattern p).bind fun x => (numbers_patterns ps).last (x :: ·)

theorem numbers_mapped : (items : List MappingItem) →
    Numbers (mapped items) (mappingLabels items) fun r => items.map (relabelPattern r ·.pattern)
  | [] => .pure []
  | ⟨_, p⟩ :: rest => (numbers_pattern p).bind fun x => (numbers_mapped rest).last (x :: ·)

theorem numbers_keywordPatterns : (kws : List KeywordPattern) →
    Numbers (keywordPatterns kws) (keywordPatternLabels kws) (relabelKeywordPatterns · kws)
  | [] => .pure []
  | ⟨attr, p⟩ :: rest =>
    (numbers_pattern p).bind fun x => (numbers_keywordPatterns rest).last (KeywordPattern.mk attr x :: ·)

end

theorem numbers_withItems : (items : List WithItem) →
    Numbers (withItems items) (items.flatMap withItemLabels) fun r => items.map (relabelWithItem r)
  | [] => .pure []
  | ⟨context, vars⟩ :: rest => by
    simpa only [withItems, List.flatMap_cons, withItemLabels, List.map_cons, relabelWithItem,
      List.append_assoc] using
      (numbers_expr context).bind fun x => (numbers_option vars).bind fun y =>
        (numbers_withItems rest).last (WithItem.mk x y :: ·)

mutual

theorem numbers_stmt : (s : Stmt) → Numbers (stmt s) (stmtLabels s) (relabelStmt · s)
  | .functionDef id ps body decorators returns isAsync => by
    simpa only [stmt, stmtLabels, relabelStmt, List.cons_append, List.nil_append, List.append_assoc] using
      (numbers_name id).bind fun x => (numbers_params ps).bind fun y => (numbers_block body).bind fun z =>
        (numbers_exprs decorators).bind fun u =>
          (numbers_option returns).last (Stmt.functionDef x y z u · isAsync)
  | .classDef id bases kws body decorators => by
    simpa only [stmt, stmtLabels, relabelStmt, List.cons_append, List.nil_append, List.append_assoc] using
      (numbers_name id).bind fun x => (numbers_exprs bases).bind fun y => (numbers_keywords kws).bind fun z =>
        (numbers_block body).bind fun u => (numbers_exprs decorators).last (Stmt.classDef x y z u)
  | .ret value => (numbers_option value).last Stmt.ret
  | .delete targets => (numbers_exprs targets).last Stmt.delete
  | .assign targets value => (numbers_exprs targets).bind fun x => (numbers_expr value).last (Stmt.assign x)
  | .augAssign target op value =>
    (numbers_expr target).bind fun x => (numbers_expr value).last (Stmt.augAssign x op)
  | .annAssign target type value => by
    simpa only [stmt, stmtLabels, relabelStmt, List.append_assoc] using
      (numbers_expr target).bind fun x => (numbers_expr type).bind fun y =>
        (numbers_option value).last (Stmt.annAssign x y)
  | .forLoop target iter body orelse isAsync => by
    simpa only [stmt, stmtLabels, relabelStmt, List.append_assoc] using
      (numbers_expr target).bind fun x => (numbers_expr iter).bind fun y => (numbers_block body).bind fun z =>
        (numbers_block orelse).last (Stmt.forLoop x y z · isAsync)
  | .whileLoop test body orelse => by
    simpa only [stmt, stmtLabels, relabelStmt, List.append_assoc] using
      (numbers_expr test).bind fun x => (numbers_block body).bind fun y =>
        (numbers_block orelse).last (Stmt.whileLoop x y)
  | .branch test body orelse => by
    simpa only [stmt, stmtLabels, relabelStmt, List.append_assoc] using
      (numbers_expr test).bind fun x => (numbers_block body).bind fun y =>
        (numbers_block orelse).last (Stmt.branch x y)
  | .withBlock items body isAsync =>
    (numbers_withItems items).bind fun x => (numbers_block body).last (Stmt.withBlock x · isAsync)
  | .raise exc cause => (numbers_option exc).bind fun x => (numbers_option cause).last (Stmt.raise x)
  | .tryBlock body hs orelse finalbody => by
    simpa only [stmt, stmtLabels, relabelStmt, List.append_assoc] using
      (numbers_block body).bind fun x => (numbers_handlers hs).bind fun y =>
        (numbers_block orelse).bind fun z => (numbers_block finalbody).last (Stmt.tryBlock x y z)
  | .assert test msg => (numbers_expr test).bind fun x => (numbers_option msg).last (Stmt.assert x)
  | .imports aliases => .pure (Stmt.imports aliases)
  | .importFrom module aliases level => .pure (Stmt.importFrom module aliases level)
  | .global ids => (numbers_names ids).last Stmt.global
  | .nonlocal ids => (numbers_names ids).last Stmt.nonlocal
  | .matchBlock subject cs =>
    (numbers_expr subject).bind fun x => (numbers_cases cs).last (Stmt.matchBlock x)
  | .expr value => (numbers_expr value).last Stmt.expr
  | .pass => .pure Stmt.pass
  | .breakLoop => .pure Stmt.breakLoop
  | .continueLoop => .pure Stmt.continueLoop

theorem numbers_block : (body : List Stmt) → Numbers (block body) (blockLabels body) (relabelBlock · body)
  | [] => .pure []
  | s :: rest => (numbers_stmt s).bind fun x => (numbers_block rest).last (x :: ·)

theorem numbers_handlers :
    (hs : List Handler) → Numbers (handlers hs) (handlerLabels hs) (relabelHandlers · hs)
  | [] => .pure []
  | ⟨type, id, body⟩ :: rest => by
    simpa only [handlers, handlerLabels, relabelHandlers, List.append_assoc] using
      (numbers_option type).bind fun x => (numbers_optionalName id).bind fun y =>
        (numbers_block body).bind fun z => (numbers_handlers rest).last (Handler.mk x y z :: ·)

theorem numbers_cases : (cs : List MatchCase) → Numbers (cases cs) (caseLabels cs) (relabelCases · cs)
  | [] => .pure []
  | ⟨p, guard, body⟩ :: rest => by
    simpa only [cases, caseLabels, relabelCases, List.append_assoc] using
      (numbers_pattern p).bind fun x => (numbers_option guard).bind fun y => (numbers_block body).bind fun z =>
        (numbers_cases rest).last (MatchCase.mk x y z :: ·)

end

theorem numbers_item : (i : Item) → Numbers (item i) i.labels (i.relabel ·)
  | .stmt s => (numbers_stmt s).last Item.stmt
  | .expr e => (numbers_expr e).last Item.expr

theorem numbers_items :
    (is : List Item) → Numbers (items is) (is.flatMap Item.labels) fun r => is.map (Item.relabel r)
  | [] => .pure []
  | i :: rest => (numbers_item i).bind fun x => (numbers_items rest).last (x :: ·)

end Pass

end Arbiter.Canon
