import Arbiter.Proofs.Parsing.Readable

/-! Reading displays and comprehensions back. -/

namespace Arbiter.Syntax

open TokenKind (op name)
open Syntax.Parser

/-! Parts that are no expressions of their own. -/

/-- What follows an item of a list that `closing` ends. -/
def Follows (closing : String) (K : List TokenKind) : Prop :=
  headOf K = op "," ∨ headOf K = op closing

def closings : List String := [")", "]", "\x7d"]

/-- An item of a display or an argument of a call. -/
structure ReadableItem (e : Expr) : Prop where
  front : ∀ K, Strength.test ≤ (headOf (e.kindsWithin Strength.test e.kinds ++ K)).opens ∨
    headOf (e.kindsWithin Strength.test e.kinds ++ K) = op "*"
  reads : ∀ {n K}, (e.kindsWithin Strength.test e.kinds).length ≤ n → Stop Strength.test K →
    Takes (starOr (grammar (n + 1)).bitOr (grammar (n + 1)).test)
      (e.kindsWithin Strength.test e.kinds ++ K) e K
  argument : ∀ {n K}, (e.kindsWithin Strength.test e.kinds).length ≤ n → Follows ")" K →
    Takes (grammar (n + 1)).callItem (e.kindsWithin Strength.test e.kinds ++ K) (.positional e) K

structure ReadableEntry (e : Expr) : Prop where
  front : ∀ K, headOf (e.kindsWithin Strength.test e.kinds ++ K) ≠ op "]"
  reads : ∀ {n K}, (e.kindsWithin Strength.test e.kinds).length ≤ n → Follows "]" K →
    Takes (grammar (n + 1)).subscriptItem (e.kindsWithin Strength.test e.kinds ++ K) e K

def ReadableIndex (e : Expr) : Prop := ∀ {n K}, (indexKinds e).length ≤ n →
  Takes (grammar (n + 1)).subscriptIndex (indexKinds e ++ op "]" :: K) e (op "]" :: K)

/-- The clause of a comprehension that comes next, if any. -/
def clauseNext (g : Grammar) : Parser (Option Generator) := do
  optionally (← atGenerator) g.generator

def ReadableClauses (gens : List Generator) : Prop :=
  ∀ {n closing K}, closing ∈ closings → (generatorKinds gens).length ≤ n →
    Items (fun _ => clauseNext (grammar (n + 1))) [] (generatorKinds gens ++ op closing :: K) gens
      (op closing :: K)

/-- The tokens of a part are read as the part. An expression that binds less tightly than all others
is read between brackets only. -/
def Part.IsReadable : Part → Prop
  | .expr e => Readable e
  | .item e => ReadableItem e
  | .entry e => ReadableEntry e
  | .index e => ReadableIndex e
  | .clauses gens => ReadableClauses gens

theorem Follows.stop {closing : String} (h : closing ∈ ":" :: closings) {K : List TokenKind}
    (follows : Follows closing K) {s : Nat} (pos : 0 < s) : Stop s K := by
  have joins : ∀ closing ∈ ":" :: closings, (op closing).joins = 0 := by decide
  unfold Stop
  rcases follows with comma | last
  · rw [comma]
    exact pos
  · rw [last, joins closing h]
    exact pos

theorem Follows.ne {closing : String} {K : List TokenKind} (follows : Follows closing K) {k : TokenKind}
    (comma : k ≠ op ",") (last : k ≠ op closing) : headOf K ≠ k := by
  rintro rfl
  exact follows.elim comma last

theorem Follows.noGenerator {closing : String} {K : List TokenKind} (follows : Follows closing K) :
    Takes atGenerator K false K := by
  have sign : ∀ word, headOf K ≠ name word := by
    intro word same
    rcases follows with comma | last
    · cases comma.symm.trans same
    · cases last.symm.trans same
  exact takes_not_atGenerator (sign _) (sign _)

theorem length_le_commaKinds {ks : List TokenKind} {kinds : List (List TokenKind)} (h : ks ∈ kinds) :
    ks.length ≤ (commaKinds kinds).length := by
  cases kinds with
  | nil => cases h
  | cons first more =>
    rw [commaKinds, List.length_append]
    rcases List.mem_cons.1 h with rfl | h
    · exact Nat.le_add_right _ _
    · have inside := (List.sublist_flatten_of_mem (List.mem_map_of_mem (f := (op "," :: ·)) h)).length_le
      rw [← List.flatMap_def, List.length_cons] at inside
      omega

namespace ReadableItem

variable {e : Expr} {elts : List Expr} {n : Nat} {closing : String} {K : List TokenKind}

theorem front_ne (h : ReadableItem e) {k : TokenKind} (opens : k.opens < Strength.test)
    (other : k ≠ op "*") (K : List TokenKind) :
    headOf (e.kindsWithin Strength.test e.kinds ++ K) ≠ k := by
  rintro rfl
  rcases h.front K with le | star
  · exact Nat.not_lt_of_le le opens
  · exact other star

theorem takes_more (member : closing ∈ closings) (h : ∀ e ∈ elts, ReadableItem e)
    (enough : ∀ e ∈ elts, (e.kindsWithin Strength.test e.kinds).length ≤ n) :
    Takes ((grammar (n + 1)).moreItems closing)
      (elts.flatMap (fun e => op "," :: e.kindsWithin Strength.test e.kinds) ++ op closing :: K)
      elts K := by
  have known : ∀ closing ∈ closings, (op closing).opens < Strength.test ∧ op closing ≠ op "*" ∧
      op closing ≠ op "," := by decide
  obtain ⟨opens, star, comma⟩ := known closing member
  refine Takes.bind (takes_afterCommas (P := Follows closing) (fun _ => .inl rfl) (.inr rfl)
    (fun e he K follows => ⟨?_, ?_⟩) (takes_commaNext_none comma))
    ((takes_expectOp _).bind (takes_pure _))
  · have stays := takes_at (K := e.kindsWithin Strength.test e.kinds ++ K) (op closing)
    rwa [beq_false_of_ne ((h e he).front_ne opens star K)] at stays
  · exact (h e he).reads (enough e he) (follows.stop (.tail _ member) (by decide))

end ReadableItem

theorem follows_more {α : Type} (kinds : α → List TokenKind) (xs : List α) (closing : String)
    (K : List TokenKind) : Follows closing (xs.flatMap (fun x => op "," :: kinds x) ++ op closing :: K) := by
  cases xs with
  | nil => exact .inr rfl
  | cons x xs => exact .inl rfl

/-- The shape of the tokens of items between commas. -/
theorem commaKinds_items (e : Expr) (elts : List Expr) (K : List TokenKind) :
    commaKinds (kindsOfItems Strength.test (e :: elts)) ++ K =
      e.kindsWithin Strength.test e.kinds ++
        (elts.flatMap (fun e => op "," :: e.kindsWithin Strength.test e.kinds) ++ K) := by
  rw [kindsOfItems_eq, List.map_cons, commaKinds, List.flatMap_map, List.append_assoc]

theorem length_item_le {e : Expr} {elts : List Expr} (h : e ∈ elts) :
    (e.kindsWithin Strength.test e.kinds).length ≤
      (commaKinds (kindsOfItems Strength.test elts)).length := by
  rw [kindsOfItems_eq]
  exact length_le_commaKinds (List.mem_map_of_mem h)

namespace Readable

variable {e : Expr} {elts : List Expr}

/-! Displays. -/

theorem list (regular : Regular .strict (.expr (.list elts .load))) (h : ∀ e ∈ elts, ReadableItem e) :
    Readable (.list elts .load) := by
  refine of_atom regular rfl fun {n K} enough _ => ?_
  have kinds : (Expr.list elts .load).kinds ++ K =
      op "[" :: (commaKinds (kindsOfItems Strength.test elts) ++ op "]" :: K) := by
    simp [Expr.kinds]
  have fuel : (commaKinds (kindsOfItems Strength.test elts)).length + 2 ≤ n := by
    simp only [Expr.kinds, List.length_cons, List.length_append, List.length_nil] at enough
    omega
  obtain ⟨m, rfl⟩ : ∃ m, n = m + 1 := ⟨n - 1, by omega⟩
  rw [kinds]
  refine takes_peek.bind ((takes_expectOp _).bind ?_)
  cases elts with
  | nil => exact takes_of_eat (takes_pure _)
  | cons first more =>
    have bound : ∀ e ∈ first :: more, (e.kindsWithin Strength.test e.kinds).length ≤ m :=
      fun e he => Nat.le_trans (length_item_le he) (by omega)
    have follows := follows_more (fun e => e.kindsWithin Strength.test e.kinds) more "]" K
    have hf := h first List.mem_cons_self
    rw [commaKinds_items]
    refine takes_of_not_eat (hf.front_ne (by decide) (by decide) _) ?_
    refine (hf.reads (bound _ List.mem_cons_self) (follows.stop (by decide) (by decide))).bind ?_
    refine follows.noGenerator.bind (Takes.bind ?_ (takes_pure _))
    exact ReadableItem.takes_more (by decide) (fun e he => h e (.tail _ he))
      fun e he => bound e (.tail _ he)

theorem tuple (regular : Regular .strict (.expr (.tuple elts .load))) (h : ∀ e ∈ elts, ReadableItem e) :
    Readable (.tuple elts .load) := by
  refine of_atom regular rfl fun {n K} enough _ => ?_
  have kinds : (Expr.tuple elts .load).kinds ++ K = op "(" ::
      (commaKinds (kindsOfItems Strength.test elts) ++
        ((if elts.length = 1 then [op ","] else []) ++ op ")" :: K)) := by
    simp [Expr.kinds, tupleKinds, kindsOfItems_eq]
  have fuel : (commaKinds (kindsOfItems Strength.test elts)).length + 2 ≤ n := by
    refine Nat.le_trans ?_ enough
    simp only [Expr.kinds, tupleKinds, List.length_cons, List.length_append, List.length_nil]
    omega
  obtain ⟨m, rfl⟩ : ∃ m, n = m + 1 := ⟨n - 1, by omega⟩
  have bound : ∀ e ∈ elts, (e.kindsWithin Strength.test e.kinds).length ≤ m :=
    fun e he => Nat.le_trans (length_item_le he) (by omega)
  rw [kinds]
  refine takes_peek.bind ((takes_expectOp _).bind ?_)
  cases elts with
  | nil => exact takes_of_eat (takes_pure _)
  | cons first more =>
    have hf := h first List.mem_cons_self
    rw [commaKinds_items]
    refine takes_of_not_eat (hf.front_ne (by decide) (by decide) _) ?_
    refine takes_of_not_at (hf.front_ne (by decide) (by decide) _) ?_
    -- A comma follows the first item, whether or not a second item does.
    cases more with
    | nil =>
      refine (hf.reads (bound _ List.mem_cons_self) (stop_cons (by decide) _)).bind ?_
      refine (takes_not_atGenerator (by simp) (by simp)).bind (takes_of_at rfl ?_)
      have rest : Takes (afterCommas (atOp ")") (starOr (grammar (m + 1)).bitOr (grammar (m + 1)).test))
          (op "," :: op ")" :: K) [] (op ")" :: K) := takes_afterCommas_stop (takes_at (op ")"))
      exact Takes.bind (rest.bind ((takes_expectOp _).bind (takes_pure _))) (takes_pure _)
    | cons second more =>
      refine (hf.reads (bound _ List.mem_cons_self) (stop_cons (by decide) _)).bind ?_
      refine (takes_not_atGenerator (by simp) (by simp)).bind (takes_of_at rfl (Takes.bind ?_ (takes_pure _)))
      exact ReadableItem.takes_more (by decide) (fun e he => h e (.tail _ he))
        fun e he => bound e (.tail _ he)

theorem set (regular : Regular .strict (.expr (.set elts))) (some : elts ≠ [])
    (h : ∀ e ∈ elts, ReadableItem e) : Readable (.set elts) := by
  refine of_atom regular rfl fun {n K} enough _ => ?_
  have braces : (Expr.set elts).kinds =
      op "\x7b" :: commaKinds (kindsOfItems Strength.test elts) ++ [op "\x7d"] := by
    rw [Expr.kinds, if_neg (by simpa using some)]
  have kinds : (Expr.set elts).kinds ++ K =
      op "\x7b" :: (commaKinds (kindsOfItems Strength.test elts) ++ op "\x7d" :: K) := by
    simp [braces]
  have fuel : (commaKinds (kindsOfItems Strength.test elts)).length + 2 ≤ n := by
    simp only [braces, List.length_cons, List.length_append, List.length_nil] at enough
    omega
  obtain ⟨m, rfl⟩ : ∃ m, n = m + 1 := ⟨n - 1, by omega⟩
  have bound : ∀ e ∈ elts, (e.kindsWithin Strength.test e.kinds).length ≤ m :=
    fun e he => Nat.le_trans (length_item_le he) (by omega)
  rw [kinds]
  obtain ⟨first, more, rfl⟩ := List.exists_cons_of_ne_nil some
  have follows := follows_more (fun e => e.kindsWithin Strength.test e.kinds) more "\x7d" K
  have hf := h first List.mem_cons_self
  rw [commaKinds_items]
  refine takes_peek.bind ((takes_expectOp _).bind ?_)
  refine takes_of_not_eat (hf.front_ne (by decide) (by decide) _) ?_
  refine takes_of_not_eat (hf.front_ne (by decide) (by decide) _) ?_
  refine (hf.reads (bound _ List.mem_cons_self) (follows.stop (by decide) (by decide))).bind ?_
  refine takes_of_not_eat (follows.ne (by decide) (by decide)) ?_
  refine follows.noGenerator.bind (Takes.bind ?_ (takes_pure _))
  exact ReadableItem.takes_more (by decide) (fun e he => h e (.tail _ he))
    fun e he => bound e (.tail _ he)

variable {n least : Nat} {K : List TokenKind}

/-- An operand begins with no token that begins only looser ones. -/
theorem front_ne (h : Readable e) (upper : least ≤ Strength.atom) {k : TokenKind}
    (opens : k.opens < least) (K : List TokenKind) : headOf (e.kindsWithin least e.kinds ++ K) ≠ k := by
  rintro rfl
  exact Nat.not_lt_of_le ((h.opening.within upper).opens_le K) opens

theorem inTest (h : Readable e) (enough : (e.kindsWithin Strength.test e.kinds).length ≤ n)
    (stop : Stop Strength.test K) :
    Takes (grammar (n + 1)).test (e.kindsWithin Strength.test e.kinds ++ K) e K :=
  h.whole (s := Strength.test) (by decide) enough (by decide) (Nat.le_refl _) stop

theorem inBitOr (h : Readable e) (enough : (e.kindsWithin Strength.bitOr e.kinds).length ≤ n)
    (stop : Stop Strength.bitOr K) :
    Takes (grammar (n + 1)).bitOr (e.kindsWithin Strength.bitOr e.kinds ++ K) e K :=
  h.whole (s := Strength.bitOr) (by decide) enough (by decide) (Nat.le_refl _) stop

theorem takes_dictItem {item : DictItem} (h : ∀ e ∈ item.parts, Readable e)
    (enough : item.kinds.length ≤ n) (follows : Follows "\x7d" K) :
    Takes (grammar (n + 1)).dictItem (item.kinds ++ K) item K := by
  cases item with
  | entry key value =>
    have hk := h key List.mem_cons_self
    have hv := h value (.tail key List.mem_cons_self)
    simp only [DictItem.kinds, List.length_append, List.length_cons] at enough
    rw [DictItem.kinds, List.append_assoc, List.cons_append]
    refine takes_of_not_eat (hk.front_ne (by decide) (by decide) _) ?_
    refine (hk.inTest (by omega) (stop_cons (by decide) _)).bind ((takes_expectOp _).bind ?_)
    exact (hv.inTest (by omega) (follows.stop (by decide) (by decide))).bind (takes_pure _)
  | spread value =>
    have hv := h value List.mem_cons_self
    simp only [DictItem.kinds, List.length_cons] at enough
    refine takes_of_eat (Takes.bind ?_ (takes_pure _))
    exact hv.inBitOr (by omega) (follows.stop (by decide) (by decide))

theorem takes_moreDictItems {first : DictItem} {items : List DictItem}
    (h : ∀ item ∈ items, ∀ e ∈ item.parts, Readable e)
    (enough : ∀ item ∈ items, item.kinds.length ≤ n) :
    Takes ((grammar (n + 1)).moreDictItems first)
      (items.flatMap (fun item => op "," :: item.kinds) ++ op "\x7d" :: K)
      (.dict (first :: items)) K := by
  have front : ∀ item : DictItem, (∀ e ∈ item.parts, Readable e) → ∀ K,
      headOf (item.kinds ++ K) ≠ op "\x7d" := by
    intro item h K
    cases item with
    | entry key value =>
      rw [DictItem.kinds, List.append_assoc]
      exact (h key List.mem_cons_self).front_ne (by decide) (by decide) _
    | spread value => simp [DictItem.kinds]
  refine Takes.bind (takes_afterCommas (P := Follows "\x7d") (fun _ => .inl rfl) (.inr rfl)
    (fun item hi K follows => ⟨?_, ?_⟩) (takes_commaNext_none (by simp)))
    ((takes_expectOp _).bind (takes_pure _))
  · have stays := takes_at (K := item.kinds ++ K) (op "\x7d")
    rwa [beq_false_of_ne (front item (h item hi) K)] at stays
  · exact takes_dictItem (h item hi) (enough item hi) follows

theorem dict {items : List DictItem} (regular : Regular .strict (.expr (.dict items)))
    (h : ∀ item ∈ items, ∀ e ∈ item.parts, Readable e) : Readable (.dict items) := by
  refine of_atom regular rfl fun {n K} enough _ => ?_
  have kinds : (Expr.dict items).kinds ++ K =
      op "\x7b" :: (commaKinds (items.map DictItem.kinds) ++ op "\x7d" :: K) := by
    simp [Expr.kinds, dictKinds_eq]
  have fuel : (commaKinds (items.map DictItem.kinds)).length + 2 ≤ n := by
    simp only [Expr.kinds, dictKinds_eq, List.length_cons, List.length_append, List.length_nil]
      at enough
    omega
  obtain ⟨m, rfl⟩ : ∃ m, n = m + 1 := ⟨n - 1, by omega⟩
  have bound : ∀ item ∈ items, item.kinds.length ≤ m := fun item hi =>
    Nat.le_trans (length_le_commaKinds (List.mem_map_of_mem hi)) (by omega)
  rw [kinds]
  refine takes_peek.bind ((takes_expectOp _).bind ?_)
  cases items with
  | nil => exact takes_of_eat (takes_pure _)
  | cons first more =>
    have parts := h first List.mem_cons_self
    have enough := bound first List.mem_cons_self
    have follows := follows_more DictItem.kinds more "\x7d" K
    have rest : Takes ((grammar (m + 1)).moreDictItems first)
        (more.flatMap (fun item => op "," :: item.kinds) ++ op "\x7d" :: K) (.dict (first :: more)) K :=
      takes_moreDictItems (fun item hi => h item (.tail _ hi)) fun item hi => bound item (.tail _ hi)
    rw [List.map_cons, commaKinds, List.flatMap_map, List.append_assoc]
    cases first with
    | entry key value =>
      have hk := parts key List.mem_cons_self
      have hv := parts value (.tail key List.mem_cons_self)
      simp only [DictItem.kinds, List.length_append, List.length_cons] at enough
      rw [DictItem.kinds, List.append_assoc, List.cons_append]
      refine takes_of_not_eat (hk.front_ne (by decide) (by decide) _) ?_
      refine takes_of_not_eat (hk.front_ne (by decide) (by decide) _) ?_
      refine Takes.bind (takes_of_not_eat (hk.front_ne (by decide) (by decide) _)
        (hk.inTest (by omega) (stop_cons (by decide) _))) (takes_of_eat ?_)
      refine (hv.inTest (by omega) (follows.stop (by decide) (by decide))).bind ?_
      exact follows.noGenerator.bind rest
    | spread value =>
      have hv := parts value List.mem_cons_self
      simp only [DictItem.kinds, List.length_cons] at enough
      refine takes_of_not_eat (by simp [DictItem.kinds]) (takes_of_eat (Takes.bind ?_ rest))
      exact hv.inBitOr (by omega) (follows.stop (by decide) (by decide))

/-! Comprehensions. -/

section Comprehensions

variable {value : Expr} {gens : List Generator}

theorem stop_generators {s : Nat} (pos : 0 < s) (more : Stop s K) (gens : List Generator) :
    Stop s (generatorKinds gens ++ K) := by
  cases gens with
  | nil => exact more
  | cons c gens =>
    obtain ⟨target, iter, ifs, isAsync⟩ := c
    cases isAsync <;> exact pos

theorem takes_atGenerator (some : gens ≠ []) (K : List TokenKind) :
    Takes atGenerator (generatorKinds gens ++ K) true (generatorKinds gens ++ K) := by
  obtain ⟨⟨target, iter, ifs, isAsync⟩, gens, rfl⟩ := List.exists_cons_of_ne_nil some
  cases isAsync with
  | false => exact takes_of_at rfl (takes_pure true)
  | true =>
    refine takes_of_not_at (by simp [generatorKinds]) (takes_of_at rfl ?_)
    exact takes_peekSecond.bind (takes_pure true)

/-- The clauses of a comprehension, up to the bracket that ends it. -/
theorem takes_clauses {α : Type} {f : List Generator → Parser α} {B : Parser α} {closing : String}
    {a : α} {K' : List TokenKind} (some : gens ≠ []) (h : ReadableClauses gens)
    (member : closing ∈ closings) (enough : (generatorKinds gens).length ≤ n)
    (rest : Takes (f gens) (op closing :: K) a K') :
    Takes (do if ← atGenerator then (do let gens ← (grammar (n + 1)).generators; f gens) else B)
      (generatorKinds gens ++ op closing :: K) a K' :=
  (takes_atGenerator some _).bind ((h member enough).takes_many.bind rest)

theorem stop_clauses {closing : String} (member : closing ∈ closings) (gens : List Generator)
    (K : List TokenKind) : Stop Strength.test (generatorKinds gens ++ op closing :: K) := by
  have joins : ∀ closing ∈ closings, (op closing).joins < Strength.test := by decide
  exact stop_generators (by decide) (stop_cons (joins closing member) K) gens

theorem listComp (regular : Regular .strict (.expr (.listComp value gens))) (some : gens ≠ [])
    (hv : Readable value) (hg : ReadableClauses gens) : Readable (.listComp value gens) := by
  refine of_atom regular rfl fun {n K} enough _ => ?_
  have kinds : (Expr.listComp value gens).kinds ++ K = op "[" ::
      (value.kindsWithin Strength.test value.kinds ++ (generatorKinds gens ++ op "]" :: K)) := by
    simp [Expr.kinds]
  have fuel : (value.kindsWithin Strength.test value.kinds).length + (generatorKinds gens).length +
      2 ≤ n := by
    simpa [Expr.kinds, Nat.add_assoc] using enough
  obtain ⟨m, rfl⟩ : ∃ m, n = m + 1 := ⟨n - 1, by omega⟩
  rw [kinds]
  refine takes_peek.bind ((takes_expectOp _).bind ?_)
  refine takes_of_not_eat (hv.front_ne (by decide) (by decide) _) ?_
  refine Takes.bind (takes_of_not_eat (hv.front_ne (by decide) (by decide) _)
    (hv.inTest (by omega) (stop_clauses (by decide) gens K))) ?_
  exact takes_clauses some hg (by decide) (by omega) ((takes_expectOp _).bind (takes_pure _))

theorem generatorExp (regular : Regular .strict (.expr (.generatorExp value gens))) (some : gens ≠ [])
    (hv : Readable value) (hg : ReadableClauses gens) : Readable (.generatorExp value gens) := by
  refine of_atom regular rfl fun {n K} enough _ => ?_
  have kinds : (Expr.generatorExp value gens).kinds ++ K = op "(" ::
      (value.kindsWithin Strength.test value.kinds ++ (generatorKinds gens ++ op ")" :: K)) := by
    simp [Expr.kinds]
  have fuel : (value.kindsWithin Strength.test value.kinds).length + (generatorKinds gens).length +
      2 ≤ n := by
    simpa [Expr.kinds, Nat.add_assoc] using enough
  obtain ⟨m, rfl⟩ : ∃ m, n = m + 1 := ⟨n - 1, by omega⟩
  rw [kinds]
  refine takes_peek.bind ((takes_expectOp _).bind ?_)
  refine takes_of_not_eat (hv.front_ne (by decide) (by decide) _) ?_
  refine takes_of_not_at (hv.front_ne (by decide) (by decide) _) ?_
  refine Takes.bind (takes_of_not_eat (hv.front_ne (by decide) (by decide) _)
    (hv.inTest (by omega) (stop_clauses (by decide) gens K))) ?_
  exact takes_clauses some hg (by decide) (by omega) ((takes_expectOp _).bind (takes_pure _))

/-- No sign follows where clauses do. -/
theorem generators_ne_op (some : gens ≠ []) (s : String) (K : List TokenKind) :
    headOf (generatorKinds gens ++ K) ≠ op s := by
  obtain ⟨⟨target, iter, ifs, isAsync⟩, gens, rfl⟩ := List.exists_cons_of_ne_nil some
  cases isAsync <;> simp [generatorKinds]

theorem setComp (regular : Regular .strict (.expr (.setComp value gens))) (some : gens ≠ [])
    (hv : Readable value) (hg : ReadableClauses gens) : Readable (.setComp value gens) := by
  refine of_atom regular rfl fun {n K} enough _ => ?_
  have kinds : (Expr.setComp value gens).kinds ++ K = op "\x7b" ::
      (value.kindsWithin Strength.test value.kinds ++ (generatorKinds gens ++ op "\x7d" :: K)) := by
    simp [Expr.kinds]
  have fuel : (value.kindsWithin Strength.test value.kinds).length + (generatorKinds gens).length +
      2 ≤ n := by
    simpa [Expr.kinds, Nat.add_assoc] using enough
  obtain ⟨m, rfl⟩ : ∃ m, n = m + 1 := ⟨n - 1, by omega⟩
  rw [kinds]
  refine takes_peek.bind ((takes_expectOp _).bind ?_)
  refine takes_of_not_eat (hv.front_ne (by decide) (by decide) _) ?_
  refine takes_of_not_eat (hv.front_ne (by decide) (by decide) _) ?_
  refine Takes.bind (takes_of_not_eat (hv.front_ne (by decide) (by decide) _)
    (hv.inTest (by omega) (stop_clauses (by decide) gens K))) ?_
  refine takes_of_not_eat (generators_ne_op some _ _) ?_
  exact takes_clauses some hg (by decide) (by omega) ((takes_expectOp _).bind (takes_pure _))

theorem dictComp {key : Expr} (regular : Regular .strict (.expr (.dictComp key value gens)))
    (some : gens ≠ []) (hk : Readable key) (hv : Readable value) (hg : ReadableClauses gens) :
    Readable (.dictComp key value gens) := by
  refine of_atom regular rfl fun {n K} enough _ => ?_
  have kinds : (Expr.dictComp key value gens).kinds ++ K = op "\x7b" ::
      (key.kindsWithin Strength.test key.kinds ++ op ":" ::
        (value.kindsWithin Strength.test value.kinds ++ (generatorKinds gens ++ op "\x7d" :: K))) := by
    simp [Expr.kinds]
  have fuel : (key.kindsWithin Strength.test key.kinds).length +
      (value.kindsWithin Strength.test value.kinds).length + (generatorKinds gens).length + 3 ≤ n := by
    refine Nat.le_trans (Nat.le_of_eq ?_) enough
    simp only [Expr.kinds, List.length_cons, List.length_append, List.length_nil]
    omega
  obtain ⟨m, rfl⟩ : ∃ m, n = m + 1 := ⟨n - 1, by omega⟩
  rw [kinds]
  refine takes_peek.bind ((takes_expectOp _).bind ?_)
  refine takes_of_not_eat (hk.front_ne (by decide) (by decide) _) ?_
  refine takes_of_not_eat (hk.front_ne (by decide) (by decide) _) ?_
  refine Takes.bind (takes_of_not_eat (hk.front_ne (by decide) (by decide) _)
    (hk.inTest (by omega) (stop_cons (by decide) _))) (takes_of_eat ?_)
  refine (hv.inTest (by omega) (stop_clauses (by decide) gens K)).bind ?_
  exact takes_clauses some hg (by decide) (by omega) ((takes_expectOp _).bind (takes_pure _))

end Comprehensions

end Readable

end Arbiter.Syntax
