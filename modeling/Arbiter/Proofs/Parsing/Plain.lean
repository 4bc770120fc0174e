import Arbiter.Proofs.Parsing.Kinds
import Arbiter.Syntax.Expr
import Mathlib.Data.List.Forall2

/-! The expressions whose text keeps all that their tree says. An f-string does not, since the inside of
its fields is rendered; nor does a member of a number, whose point goes to the number, or a star apart
from the items of a display and the arguments of a call, where the grammar has none. -/

namespace Arbiter.Syntax

def Expr.isNumber : Expr → Bool
  | .constant (.int _) | .constant (.float _) | .constant (.complex _) => true
  | _ => false

/-- A point right behind the expression goes on with its last number. -/
def Expr.takesPoint : Expr → Bool
  | .constant (.int _) | .constant (.float _) => true
  | _ => false

theorem Expr.takesPoint_of_isNumber {e : Expr} (h : e.isNumber = false) : e.takesPoint = false := by
  unfold takesPoint
  split
  · cases h
  · cases h
  · rfl

mutual

/-- The expression has no f-string, no member of a number, and no star but on the items of displays and
the arguments of calls, and at its top if `star`. -/
def Expr.isPlain (star : Bool) : Expr → Bool
  | .name _ _ | .constant _ => true
  | .joinedStr _ => false
  | .attribute value _ _ => !value.isNumber && value.isPlain false
  | .subscript value index _ => value.isPlain false && index.isPlain false
  | .slice lower upper step => optionPlain lower && optionPlain upper && optionPlain step
  | .starred value _ => star && value.isPlain false
  | .tuple elts _ | .list elts _ | .set elts => allPlain true elts
  | .dict items => dictPlain items
  | .binary left _ right => left.isPlain false && right.isPlain false
  | .unary _ operand => operand.isPlain false
  | .bool _ values => allPlain false values
  | .compare left rest => left.isPlain false && comparandsPlain rest
  | .call func args keywords => func.isPlain false && allPlain true args && keywordsPlain keywords
  | .ifElse test body orelse => test.isPlain false && body.isPlain false && orelse.isPlain false
  | .lambda params body => paramsPlain params && body.isPlain false
  | .listComp elt generators | .setComp elt generators | .generatorExp elt generators =>
    elt.isPlain false && generatorsPlain generators
  | .dictComp key value generators =>
    key.isPlain false && value.isPlain false && generatorsPlain generators
  | .await value | .yieldFrom value => value.isPlain false
  | .yield value => optionPlain value
  | .named target value => target.isPlain false && value.isPlain false

def allPlain (star : Bool) : List Expr → Bool
  | [] => true
  | e :: es => e.isPlain star && allPlain star es

def optionPlain : Option Expr → Bool
  | none => true
  | some e => e.isPlain false

def dictPlain : List DictItem → Bool
  | [] => true
  | .entry key value :: rest => key.isPlain false && value.isPlain false && dictPlain rest
  | .spread value :: rest => value.isPlain false && dictPlain rest

def comparandsPlain : List Comparand → Bool
  | [] => true
  | ⟨_, value⟩ :: rest => value.isPlain false && comparandsPlain rest

def keywordsPlain : List Keyword → Bool
  | [] => true
  | ⟨_, value⟩ :: rest => value.isPlain false && keywordsPlain rest

def generatorsPlain : List Generator → Bool
  | [] => true
  | ⟨target, iter, ifs, _⟩ :: rest =>
    target.isPlain false && iter.isPlain false && allPlain false ifs && generatorsPlain rest

def argumentPlain : Argument → Bool
  | ⟨_, annotation⟩ => optionPlain annotation

def paramsPlain : List Param → Bool
  | [] => true
  | .plain arg default :: rest => argumentPlain arg && optionPlain default && paramsPlain rest
  | .posOnlyMarker :: rest | .varArgs none :: rest => paramsPlain rest
  | .varArgs (some arg) :: rest | .kwArgs arg :: rest => argumentPlain arg && paramsPlain rest

end

/-! What plainness says about the members of lists. -/

def Param.default? : Param → Option Expr
  | .plain _ default => default
  | _ => none

/-- The name of a parameter. -/
def Param.name? : Param → Option String
  | .plain arg _ | .varArgs (some arg) | .kwArgs arg => some arg.name
  | .posOnlyMarker | .varArgs none => none

/-- The annotation of a parameter. -/
def Param.annotation? : Param → Option Expr
  | .plain arg _ | .varArgs (some arg) | .kwArgs arg => arg.annotation
  | .posOnlyMarker | .varArgs none => none

def DictItem.parts : DictItem → List Expr
  | .entry key value => [key, value]
  | .spread value => [value]

theorem allPlain_iff {star : Bool} {es : List Expr} :
    allPlain star es = true ↔ ∀ e ∈ es, e.isPlain star = true := by
  induction es with
  | nil => simp [allPlain]
  | cons e es ih => simp [allPlain, ih]

theorem optionPlain_iff {o : Option Expr} :
    optionPlain o = true ↔ ∀ e ∈ o, e.isPlain false = true := by
  cases o <;> simp [optionPlain]

theorem dictPlain_iff {items : List DictItem} :
    dictPlain items = true ↔ ∀ item ∈ items, ∀ e ∈ item.parts, e.isPlain false = true := by
  induction items with
  | nil => simp [dictPlain]
  | cons item items ih => cases item <;> simp [dictPlain, DictItem.parts, ih]

theorem comparandsPlain_iff {rest : List Comparand} :
    comparandsPlain rest = true ↔ ∀ c ∈ rest, c.value.isPlain false = true := by
  induction rest with
  | nil => simp [comparandsPlain]
  | cons c rest ih =>
    obtain ⟨o, value⟩ := c
    simp [comparandsPlain, ih]

theorem keywordsPlain_iff {keywords : List Keyword} :
    keywordsPlain keywords = true ↔ ∀ k ∈ keywords, k.value.isPlain false = true := by
  induction keywords with
  | nil => simp [keywordsPlain]
  | cons k keywords ih =>
    obtain ⟨arg, value⟩ := k
    simp [keywordsPlain, ih]

theorem plain_default_of_paramsPlain {params : List Param} (h : paramsPlain params = true) :
    ∀ p ∈ params, ∀ d ∈ p.default?, d.isPlain false = true := by
  induction params with
  | nil => simp
  | cons p params ih =>
    match p with
    | .plain arg default =>
      simp only [paramsPlain, Bool.and_eq_true, optionPlain_iff] at h
      exact List.forall_mem_cons.2 ⟨h.1.2, ih h.2⟩
    | .posOnlyMarker | .varArgs none =>
      exact List.forall_mem_cons.2 ⟨by simp [Param.default?], ih h⟩
    | .varArgs (some arg) | .kwArgs arg =>
      simp only [paramsPlain, Bool.and_eq_true] at h
      exact List.forall_mem_cons.2 ⟨by simp [Param.default?], ih h.2⟩

theorem isPlain_true {e : Expr} (h : e.isPlain false = true) : e.isPlain true = true := by
  cases e with
  | starred value ctx => cases h
  | _ => exact h

/-! A target differs from its expression in contexts only, which have no text. -/

structure Expr.Alike (e t : Expr) : Prop where
  text : t.text = e.text
  kinds : t.kinds = e.kinds
  strength : t.strength = e.strength
  plain : ∀ star, t.isPlain star = e.isPlain star

section Lists

variable {es ts : List Expr}

theorem textsWithin_alike (least : Nat) (h : List.Forall₂ Expr.Alike es ts) :
    textsWithin least ts = textsWithin least es := by
  induction h with
  | nil => rfl
  | cons same _ ih => simp only [textsWithin, Expr.within, same.text, same.strength, ih]

theorem kindsOfItems_alike (least : Nat) (h : List.Forall₂ Expr.Alike es ts) :
    kindsOfItems least ts = kindsOfItems least es := by
  induction h with
  | nil => rfl
  | cons same _ ih => simp only [kindsOfItems, Expr.kindsWithin, same.kinds, same.strength, ih]

theorem allPlain_alike (star : Bool) (h : List.Forall₂ Expr.Alike es ts) :
    allPlain star ts = allPlain star es := by
  induction h with
  | nil => rfl
  | cons same _ ih => simp only [allPlain, same.plain, ih]

end Lists

mutual

theorem alike_of_asTarget {ctx : Context} : ∀ (e : Expr) {t : Expr}, e.asTarget? ctx = some t →
    e.Alike t
  | .name .., _, rfl => ⟨rfl, rfl, rfl, fun _ => rfl⟩
  | .attribute .., _, rfl => ⟨rfl, rfl, rfl, fun _ => rfl⟩
  | .subscript value index _, _, rfl =>
    ⟨by cases index <;> rfl, by cases index <;> rfl, rfl, fun _ => rfl⟩
  | .starred value _, t, h => by
    obtain ⟨v, found, rfl⟩ := Option.map_eq_some_iff.1 h
    have same := alike_of_asTarget value found
    refine ⟨?_, ?_, rfl, fun star => ?_⟩
    · simp only [Expr.text, Expr.within, same.text, same.strength]
    · simp only [Expr.kinds, Expr.kindsWithin, same.kinds, same.strength]
    · simp only [Expr.isPlain, same.plain]
  | .tuple elts _, t, h => by
    obtain ⟨ts, found, rfl⟩ := Option.map_eq_some_iff.1 h
    have same := alike_of_asTargets elts found
    refine ⟨?_, ?_, rfl, fun star => ?_⟩
    · simp only [Expr.text, textsWithin_alike _ same]
    · simp only [Expr.kinds, kindsOfItems_alike _ same]
    · simp only [Expr.isPlain, allPlain_alike _ same]
  | .list elts _, t, h => by
    obtain ⟨ts, found, rfl⟩ := Option.map_eq_some_iff.1 h
    have same := alike_of_asTargets elts found
    refine ⟨?_, ?_, rfl, fun star => ?_⟩
    · simp only [Expr.text, textsWithin_alike _ same]
    · simp only [Expr.kinds, kindsOfItems_alike _ same]
    · simp only [Expr.isPlain, allPlain_alike _ same]

theorem alike_of_asTargets {ctx : Context} : ∀ (es : List Expr) {ts : List Expr},
    asTargets? ctx es = some ts → List.Forall₂ Expr.Alike es ts
  | [], _, rfl => .nil
  | e :: es, ts, h => by
    simp only [asTargets?, Option.bind_eq_bind, Option.bind_eq_some_iff, Option.pure_def] at h
    obtain ⟨t, first, ts', rest, same⟩ := h
    cases same
    exact .cons (alike_of_asTarget e first) (alike_of_asTargets es rest)

end

end Arbiter.Syntax
