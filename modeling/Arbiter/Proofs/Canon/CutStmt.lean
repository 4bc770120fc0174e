import Arbiter.Proofs.Canon.LineKind

/-! Statements told apart. Main statement: statements in canonical form are told apart by their lines of
tokens. -/

namespace Arbiter.Syntax

open TokenKind (op name)
open Syntax.Parser

section Parts

variable {K K' : List TokenKind}

theorem cut_async {a a' : Bool} {k : TokenKind} (other : k ≠ name "async")
    (same : asyncKinds a ++ k :: K = asyncKinds a' ++ k :: K') : a = a' ∧ K = K' := by
  cases a with
  | false =>
    cases a' with
    | false => exact ⟨rfl, (List.cons.inj same).2⟩
    | true => exact absurd (List.cons.inj same).1 other
  | true =>
    cases a' with
    | false => exact absurd (List.cons.inj same).1.symm other
    | true => exact ⟨rfl, (List.cons.inj (List.cons.inj same).2).2⟩

/-- An expression that may be missing, after a mark. -/
theorem cut_optional {mark : TokenKind} {o o' : Option Expr} (h : ∀ e ∈ o, Regular .shown (.expr e))
    (h' : ∀ e ∈ o', Regular .shown (.expr e)) (stop : Stop Strength.named K) (stop' : Stop Strength.named K')
    (other : headOf K ≠ mark) (other' : headOf K' ≠ mark)
    (same : optionalKinds [mark] o ++ K = optionalKinds [mark] o' ++ K') : o = o' ∧ K = K' := by
  have marked : ∀ o, optionalKinds [mark] o = o.elim [] (mark :: ·.kinds) := by
    intro o
    cases o <;> rfl
  rw [marked, marked] at same
  exact cut_maybe (fun e he e' he' => cut_whole (h e he) (h' e' he')) stop stop' other other' same

/-- The same where the expression may have to stand in brackets. -/
theorem cut_option {mark : TokenKind} {o o' : Option Expr} (h : ∀ e ∈ o, Regular .shown (.expr e))
    (h' : ∀ e ∈ o', Regular .shown (.expr e)) (stop : Stop Strength.test K) (stop' : Stop Strength.test K')
    (other : headOf K ≠ mark) (other' : headOf K' ≠ mark)
    (same : optionKinds [mark] o ++ K = optionKinds [mark] o' ++ K') : o = o' ∧ K = K' := by
  have marked : ∀ o, optionKinds [mark] o = o.elim [] fun e => mark :: e.kindsWithin Strength.test e.kinds := by
    intro o
    cases o <;> rfl
  rw [marked, marked] at same
  exact cut_maybe (fun e he e' he' => cut_within (h e he) (h' e' he') (by decide) (by decide)) stop stop' other
    other' same

/-- The same without a mark, before what begins no expression. -/
theorem cut_unmarked {o o' : Option Expr} (h : ∀ e ∈ o, Regular .shown (.expr e))
    (h' : ∀ e ∈ o', Regular .shown (.expr e)) (stop : Stop Strength.named K) (stop' : Stop Strength.named K')
    (low : (headOf K).opens < Strength.named) (low' : (headOf K').opens < Strength.named)
    (same : optionalKinds [] o ++ K = optionalKinds [] o' ++ K') : o = o' ∧ K = K' := by
  cases o with
  | none =>
    cases o' with
    | none => exact ⟨rfl, same⟩
    | some e' => exact absurd (congrArg headOf same).symm ((h' e' rfl).head_ne low _)
  | some e =>
    cases o' with
    | none => exact absurd (congrArg headOf same) ((h e rfl).head_ne low' _)
    | some e' => exact (cut_whole (h e rfl) (h' e' rfl) stop stop' same).imp_left (congrArg some)

/-! Targets. -/

theorem Targets.strength {ctx : Context} {e t : Expr} (h : Targets .shown ctx e t) :
    e.strength = Strength.atom := by
  have same := h.same
  cases e <;> first | rfl | cases same

theorem cut_target {ctx : Context} {e e' t t' : Expr} (h : Targets .shown ctx e t)
    (h' : Targets .shown ctx e' t') : Cut Expr.kinds (Stop Strength.atom) t t' := by
  intro K K' stop stop' same
  rw [(alike_of_asTarget e h.same).kinds, (alike_of_asTarget e' h'.same).kinds] at same
  obtain ⟨rfl, left⟩ := cut_tight h.regular h'.regular (by decide) (Nat.le_refl _) h.strength.ge h'.strength.ge
    stop stop' same
  exact ⟨Option.some.inj (h.same.symm.trans h'.same), left⟩

theorem cut_deleted {es es' ts ts' : List Expr} (h : ∀ e ∈ es, Regular .shown (.expr e))
    (h' : ∀ e ∈ es', Regular .shown (.expr e)) (ht : asTargets? .del es = some ts)
    (ht' : asTargets? .del es' = some ts')
    (same : commaKinds (kindsOfItems Strength.test ts) = commaKinds (kindsOfItems Strength.test ts')) :
    ts = ts' := by
  rw [kindsOfItems_alike _ (alike_of_asTargets es ht), kindsOfItems_alike _ (alike_of_asTargets es' ht'),
    kindsOfItems_eq, kindsOfItems_eq] at same
  have front : ∀ {e : Expr} {K}, Regular .shown (.expr e) →
      headOf (e.kindsWithin Strength.test e.kinds ++ K) ∉ [TokenKind.endMarker] := by
    intro e K h last
    have begins : Begins Strength.test (e.kindsWithin Strength.test e.kinds) := h.begins_shown.within (by decide)
    have opens := begins.opens_le K
    rw [List.mem_singleton.1 last] at opens
    exact absurd opens (by decide)
  obtain ⟨rfl, -⟩ := cut_commas (P := Stop Strength.test) [.endMarker]
    (fun e he e' he' => cut_within (h e he) (h' e' he') (by decide) (by decide))
    (fun e he K => front (he.elim (h e) (h' e))) (fun K => stop_cons (by decide) K)
    (fun K last => by rw [Stop, List.mem_singleton.1 last]; decide) (by simp) (by simp) (by simp)
    (closed_eq same)
  exact Option.some.inj (ht.symm.trans ht')

/-- Targets and the value that is assigned to them. -/
theorem cut_assigned {es es' ts ts' : List Expr} {v v' : Expr} (h : ∀ e ∈ es, Regular .shown (.expr e))
    (h' : ∀ e ∈ es', Regular .shown (.expr e)) (ht : asTargets? .store es = some ts)
    (ht' : asTargets? .store es' = some ts') (hv : Regular .shown (.expr v)) (hv' : Regular .shown (.expr v'))
    (same : ts.flatMap (fun t => t.kinds ++ [op "="]) ++ v.kinds =
      ts'.flatMap (fun t => t.kinds ++ [op "="]) ++ v'.kinds) : ts = ts' ∧ v = v' := by
  -- Heads and value are expressions with signs between them.
  have listed : ∀ {es ts : List Expr} {v : Expr}, asTargets? .store es = some ts →
      ∃ x xs, es ++ [v] = x :: xs ∧
        ts.flatMap (fun t => t.kinds ++ [op "="]) ++ v.kinds =
          x.kinds ++ (xs.flatMap (op "=" :: ·.kinds) ++ []) := by
    intro es ts v ht
    have alike := alike_of_asTargets es ht
    clear ht
    induction alike with
    | nil => exact ⟨v, [], rfl, by simp⟩
    | @cons e t es ts first more ih =>
      obtain ⟨x, xs, all, kinds⟩ := ih
      refine ⟨e, x :: xs, by rw [List.cons_append, all], ?_⟩
      rw [List.flatMap_cons, List.append_assoc, kinds, first.kinds]
      simp
  obtain ⟨x, xs, all, kinds⟩ := listed (v := v) ht
  obtain ⟨x', xs', all', kinds'⟩ := listed (v := v') ht'
  have regular : ∀ e ∈ x :: xs, Regular .shown (.expr e) :=
    all ▸ List.forall_mem_append.2 ⟨h, List.forall_mem_singleton.2 hv⟩
  have regular' : ∀ e ∈ x' :: xs', Regular .shown (.expr e) :=
    all' ▸ List.forall_mem_append.2 ⟨h', List.forall_mem_singleton.2 hv'⟩
  rw [kinds, kinds'] at same
  obtain ⟨whole, -⟩ := cut_separated (P := Stop Strength.named)
    (fun e he e' he' => cut_whole (regular e he) (regular' e' he')) (fun K => stop_cons (by decide) K)
    (stop_nil (by decide)) (stop_nil (by decide)) (by simp) (by simp) same
  rw [← all, ← all'] at whole
  obtain ⟨rfl, value⟩ := List.append_inj' whole rfl
  exact ⟨Option.some.inj (ht.symm.trans ht'), List.head_eq_of_cons_eq value⟩

/-! Parameters. -/

/-- A parameter ends here. -/
def ParamEnds (K : List TokenKind) : Prop := headOf K = op "," ∨ headOf K = op ")"

theorem ParamEnds.stop (h : ParamEnds K) : Stop Strength.test K := by
  rcases h with h | h <;> rw [Stop, h] <;> decide

theorem cut_argument {a a' : Argument} (h : ∀ e ∈ a.annotation, Regular .shown (.expr e))
    (h' : ∀ e ∈ a'.annotation, Regular .shown (.expr e)) :
    Cut argumentKinds (fun K => Stop Strength.test K ∧ headOf K ≠ op ":") a a' := by
  intro K K' ends ends' same
  obtain ⟨id, annotation⟩ := a
  obtain ⟨id', annotation'⟩ := a'
  simp only [argumentKinds, List.cons_append, List.cons.injEq, TokenKind.name.injEq] at same
  obtain ⟨rfl, rest⟩ := same
  obtain ⟨rfl, left⟩ := cut_option h h' ends.1 ends'.1 ends.2 ends'.2 rest
  exact ⟨rfl, left⟩

theorem ParamEnds.argument (h : ParamEnds K) (default : Option Expr) :
    Stop Strength.test (optionKinds [op "="] default ++ K) ∧ headOf (optionKinds [op "="] default ++ K) ≠ op ":" := by
  cases default with
  | none => exact ⟨h.stop, by rcases h with h | h <;> simp [optionKinds, h]⟩
  | some e => exact ⟨stop_cons (by decide) _, by simp [optionKinds]⟩

/-- The sign before a parameter, or its name. -/
def Param.sort : Param → Nat
  | .plain _ _ => 0
  | .posOnlyMarker => 1
  | .varArgs none => 2
  | .varArgs (some _) => 3
  | .kwArgs _ => 4

/-- The same by the tokens of the parameter and what follows them. -/
def paramSort : List TokenKind → Nat
  | .name _ :: _ => 0
  | .op "/" :: _ => 1
  | .op "*" :: .name _ :: _ => 3
  | .op "*" :: _ => 2
  | _ => 4

theorem paramSort_kinds (p : Param) (ends : ParamEnds K) : paramSort (p.kinds ++ K) = p.sort := by
  match p with
  | .plain ⟨_, _⟩ _ | .posOnlyMarker | .varArgs (some ⟨_, _⟩) | .kwArgs ⟨_, _⟩ => rfl
  | .varArgs none =>
    cases K with
    | nil => rfl
    | cons k K => rcases ends with rfl | rfl <;> rfl

theorem cut_param {p p' : Param} (h : p.Formed .shown) (h' : p'.Formed .shown) :
    Cut Param.kinds ParamEnds p p' := by
  intro K K' ends ends' same
  have sort : p.sort = p'.sort := by rw [← paramSort_kinds p ends, same, paramSort_kinds p' ends']
  have alone : ∀ {L : List TokenKind}, ParamEnds L → Stop Strength.test L ∧ headOf L ≠ op ":" :=
    fun ends => ends.argument none
  match p, p', sort with
  | .plain a d, .plain a' d', _ =>
    rw [Param.kinds, Param.kinds, List.append_assoc, List.append_assoc] at same
    obtain ⟨rfl, rest⟩ := cut_argument h.annotation h'.annotation (ends.argument d) (ends'.argument d') same
    have noSign : ∀ {K}, ParamEnds K → headOf K ≠ op "=" := by
      intro K ends
      rcases ends with h | h <;> simp [h]
    obtain ⟨rfl, left⟩ := cut_option h.default h'.default ends.stop ends'.stop (noSign ends) (noSign ends') rest
    exact ⟨rfl, left⟩
  | .posOnlyMarker, .posOnlyMarker, _ | .varArgs none, .varArgs none, _ => exact ⟨rfl, List.append_cancel_left same⟩
  | .varArgs (some a), .varArgs (some a'), _ | .kwArgs a, .kwArgs a', _ =>
    obtain ⟨rfl, left⟩ := cut_argument h.annotation h'.annotation (alone ends) (alone ends') (List.cons.inj same).2
    exact ⟨rfl, left⟩

theorem cut_params {ps ps' : List Param} (h : ∀ p ∈ ps, p.Formed .shown) (h' : ∀ p ∈ ps', p.Formed .shown)
    (same : commaKinds (paramKinds ps) ++ op ")" :: K = commaKinds (paramKinds ps') ++ op ")" :: K') :
    ps = ps' ∧ K = K' := by
  rw [paramKinds_eq, paramKinds_eq] at same
  have front : ∀ (p : Param) K, headOf (p.kinds ++ K) ∉ [op ")"] := by
    intro p K
    match p with
    | .plain ⟨_, _⟩ _ | .posOnlyMarker | .varArgs none | .varArgs (some ⟨_, _⟩) | .kwArgs ⟨_, _⟩ =>
      simp [Param.kinds, argumentKinds]
  obtain ⟨whole, left⟩ := cut_commas [op ")"] (fun p hp p' hp' => cut_param (h p hp) (h' p' hp'))
    (fun p _ => front p) (fun K => .inl rfl) (fun K last => .inr (List.mem_singleton.1 last)) (by simp) (by simp)
    (by simp) same
  exact ⟨whole, (List.cons.inj left).2⟩

/-! Items, names and modules. -/

theorem cut_withItem {i i' : WithItem} (h : i.Formed .shown) (h' : i'.Formed .shown) :
    Cut WithItem.kinds (fun K => Stop Strength.test K ∧ headOf K ≠ name "as") i i' := by
  intro K K' ends ends' same
  obtain ⟨context, vars⟩ := i
  obtain ⟨context', vars'⟩ := i'
  have behind : ∀ {o : Option Expr} {K}, Stop Strength.test K → Stop Strength.test (optionalKinds [name "as"] o ++ K) := by
    intro o K stop
    cases o with
    | none => exact stop
    | some e => exact stop_cons (by decide) _
  have marked : ∀ o, optionalKinds [name "as"] o = o.elim [] (name "as" :: ·.kinds) := by
    intro o
    cases o <;> rfl
  simp only [WithItem.kinds, List.append_assoc] at same
  obtain ⟨rfl, rest⟩ := cut_within h.context h'.context (by decide) (by decide) (behind ends.1) (behind ends'.1) same
  rw [marked, marked] at rest
  have targets : ∀ t ∈ vars, ∀ t' ∈ vars', Cut Expr.kinds (Stop Strength.atom) t t' := by
    intro t ht t' ht'
    obtain ⟨e, target⟩ := h.vars t ht
    obtain ⟨e', target'⟩ := h'.vars t' ht'
    exact cut_target target target'
  obtain ⟨rfl, left⟩ := cut_maybe targets (ends.1.mono (by decide)) (ends'.1.mono (by decide)) ends.2 ends'.2 rest
  exact ⟨rfl, left⟩

theorem cut_withItems {is is' : List WithItem} (h : ∀ i ∈ is, i.Formed .shown) (h' : ∀ i ∈ is', i.Formed .shown)
    (same : commaKinds (is.map WithItem.kinds) ++ [op ":"] = commaKinds (is'.map WithItem.kinds) ++ [op ":"]) :
    is = is' := by
  have front : ∀ {i : WithItem} {K}, i.Formed .shown → headOf (i.kinds ++ K) ∉ [op ":"] := by
    intro i K h last
    have begins : Begins Strength.test (i.context.kindsWithin Strength.test i.context.kinds) :=
      h.context.begins_shown.within (by decide)
    have opens := begins.opens_le (optionalKinds [name "as"] i.vars ++ K)
    rw [← List.append_assoc, ← WithItem.kinds, List.mem_singleton.1 last] at opens
    exact absurd opens (by decide)
  exact (cut_commas [op ":"] (fun i hi i' hi' => cut_withItem (h i hi) (h' i' hi'))
    (fun i hi K => front (hi.elim (h i) (h' i))) (fun K => ⟨stop_cons (by decide) K, by simp⟩)
    (fun K last => by rw [Stop, List.mem_singleton.1 last]; exact ⟨by decide, by simp⟩) (by simp) (by simp) (by simp)
    same).1

theorem cut_names {ids ids' : List String}
    (same : commaKinds (ids.map fun id => [name id]) = commaKinds (ids'.map fun id => [name id])) : ids = ids' :=
  have cut : ∀ id ∈ ids, ∀ id' ∈ ids', Cut (fun id => [name id]) (fun _ => True) id id' :=
    fun id _ id' _ K K' _ _ same => by simpa using same
  (cut_commas [.endMarker] cut (by simp) (by simp) (by simp) (by simp) (by simp) (by simp)
    (closed_eq same)).1

/-- Where something is imported from. -/
theorem cut_module {m m' : Option String} {level level' : Nat} (h : ∀ s ∈ m, IsDottedName s)
    (h' : ∀ s ∈ m', IsDottedName s)
    (same : pointKinds level ++ (textKinds (m.getD "") ++ name "import" :: K) =
      pointKinds level' ++ (textKinds (m'.getD "") ++ name "import" :: K')) :
    level = level' ∧ m = m' ∧ K = K' := by
  have none : textKinds "" = [] := by decide +kernel
  have points : ∀ {m : Option String} {K}, (∀ s ∈ m, IsDottedName s) →
      (headOf (textKinds (m.getD "") ++ name "import" :: K)).isPoint = false := by
    intro m K h
    cases m with
    | none => rw [Option.getD_none, none]; rfl
    | some s =>
      obtain ⟨first, more, -, -, kinds, -⟩ := (h s rfl).exists_kinds
      rw [Option.getD_some, kinds]
      rfl
  have apart : ∀ {s : String} {K K'}, IsDottedName s → textKinds s ++ K ≠ name "import" :: K' := by
    intro s K K' h same
    obtain ⟨first, more, hf, -, kinds, -⟩ := h.exists_kinds
    rw [kinds, dottedKinds, List.cons_append, List.cons.injEq, TokenKind.name.injEq] at same
    have reserved := hf.notKeyword
    rw [same.1] at reserved
    exact absurd reserved (by decide)
  obtain ⟨rfl, rest⟩ := cut_points (points h) (points h') same
  cases m with
  | none =>
    cases m' with
    | none => exact ⟨rfl, rfl, (List.cons.inj (List.append_cancel_left rest)).2⟩
    | some s' =>
      rw [Option.getD_none, none] at rest
      exact absurd rest.symm (apart (h' s' rfl))
  | some s =>
    cases m' with
    | none =>
      rw [Option.getD_none, none] at rest
      exact absurd rest (apart (h s rfl))
    | some s' =>
      obtain ⟨rfl, left⟩ := cut_dotted (h s rfl) (h' s' rfl) (by simp) (by simp) rest
      exact ⟨rfl, rfl, (List.cons.inj left).2⟩

theorem classCall_injective {id id' : String} {bases bases' : List Expr} {keywords keywords' : List Keyword}
    (same : classCall id bases keywords = classCall id' bases' keywords') :
    id = id' ∧ bases = bases' ∧ keywords = keywords' := by
  unfold classCall at same
  split at same <;> split at same <;> cases same
  · simp_all
  · exact ⟨rfl, rfl, rfl⟩

theorem cut_decorators {es es' : List Expr} (h : ∀ e ∈ es, Regular .shown (.expr e))
    (h' : ∀ e ∈ es', Regular .shown (.expr e)) (same : es.map decoratorLine = es'.map decoratorLine) : es = es' := by
  induction es generalizing es' with
  | nil => exact (List.map_eq_nil_iff.1 same.symm).symm
  | cons e es ih =>
    cases es' with
    | nil => cases same
    | cons e' es' =>
      obtain ⟨first, more⟩ := List.cons.inj same
      have kinds := (List.cons.inj (congrArg Line.head first)).2
      obtain ⟨he, hs⟩ := List.forall_mem_cons.1 h
      obtain ⟨he', hs'⟩ := List.forall_mem_cons.1 h'
      have whole : Stop Strength.test [] := stop_nil (by decide)
      obtain ⟨rfl, -⟩ := cut_within he he' (by decide) (by decide) whole whole (closed_eq kinds)
      rw [ih hs hs' more]

end Parts

/-! Blocks. -/

/-- No other statement in canonical form has the lines of this one. -/
def Stmt.IsTold (s : Stmt) : Prop := ∀ s' : Stmt, s'.Formed .shown → s.SameLines s' → s = s'

section Blocks

variable {body body' : List Stmt}

/-- The first member of lines of statements. -/
theorem cut_block (h : ∀ s ∈ body, s.Formed .shown) (h' : ∀ s ∈ body', s.Formed .shown)
    (told : ∀ s ∈ body, s.IsTold) (same : blockTree body = blockTree body') : body = body' := by
  induction body generalizing body' with
  | nil =>
    cases body' with
    | nil => rfl
    | cons s' body' => simp [blockTree] at same
  | cons s body ih =>
    cases body' with
    | nil => simp [blockTree] at same
    | cons s' body' =>
      obtain ⟨hs, hb⟩ := List.forall_mem_cons.1 h
      obtain ⟨hs', hb'⟩ := List.forall_mem_cons.1 h'
      obtain ⟨first, others⟩ := List.forall_mem_cons.1 told
      rw [blockTree_cons, blockTree_cons] at same
      obtain ⟨lines, rest⟩ := cut_tree hs hs' (startsAnew_block hb) (startsAnew_block hb') same
      rw [first s' hs' lines, ih hb hb' others rest]

theorem cut_armLine {word : String} {ls ls' : List Line} (same : armLine word ls = armLine word ls') : ls = ls' := by
  cases ls with
  | nil =>
    cases ls' with
    | nil => rfl
    | cons l' ls' => cases same
  | cons l ls =>
    cases ls' with
    | nil => cases same
    | cons l' ls' => exact (Line.mk.inj (List.cons.inj same).1).2

/-- The word that a line begins with. -/
def Line.word (l : Line) : TokenKind := headOf l.head

theorem armLine_word (word : String) (ls : List Line) : ∀ l ∈ armLine word ls, l.word = name word := by
  unfold armLine
  split
  · nofun
  · exact List.forall_mem_singleton.2 rfl

theorem handlerTree_word (handlers : List Handler) : ∀ l ∈ handlerTree handlers, l.word = name "except" := by
  induction handlers with
  | nil => nofun
  | cons h handlers ih =>
    obtain ⟨type, id, body⟩ := h
    exact List.forall_mem_cons.2 ⟨rfl, ih⟩

/-- Lines that begin with the word come first. -/
theorem cut_word {word : String} {ls ls' ms ms' : List Line} (inside : ∀ l ∈ ls, l.word = name word)
    (inside' : ∀ l ∈ ls', l.word = name word) (other : ∀ l ∈ ms, l.word ≠ name word)
    (other' : ∀ l ∈ ms', l.word ≠ name word) (same : ls ++ ms = ls' ++ ms') : ls = ls' ∧ ms = ms' :=
  cut_while (p := fun l => l.word == name word) (fun l hl => beq_iff_eq.2 (inside l hl))
    (fun l hl => beq_iff_eq.2 (inside' l hl))
    (fun l hl => beq_eq_false_iff_ne.2 (other l (List.mem_of_head? hl)))
    (fun l hl => beq_eq_false_iff_ne.2 (other' l (List.mem_of_head? hl))) same

theorem cut_arms {ls ls' ms ms' : List Line}
    (same : armLine "else" ls ++ armLine "finally" ms = armLine "else" ls' ++ armLine "finally" ms') :
    ls = ls' ∧ ms = ms' := by
  have other : ∀ ms, ∀ l ∈ armLine "finally" ms, l.word ≠ name "else" := by
    intro ms l hl
    rw [armLine_word "finally" ms l hl]
    nofun
  obtain ⟨left, right⟩ := cut_word (armLine_word "else" ls) (armLine_word "else" ls') (other ms) (other ms') same
  exact ⟨cut_armLine left, cut_armLine right⟩

theorem cut_handlers {hs hs' : List Handler} (types : ∀ h ∈ hs, ∀ e ∈ h.type, Regular .shown (.expr e))
    (types' : ∀ h ∈ hs', ∀ e ∈ h.type, Regular .shown (.expr e))
    (bodies : ∀ h ∈ hs, ∀ s ∈ h.body, s.Formed .shown) (bodies' : ∀ h ∈ hs', ∀ s ∈ h.body, s.Formed .shown)
    (told : ∀ h ∈ hs, ∀ s ∈ h.body, s.IsTold) (same : handlerTree hs = handlerTree hs') : hs = hs' := by
  induction hs generalizing hs' with
  | nil =>
    cases hs' with
    | nil => rfl
    | cons h' hs' =>
      obtain ⟨_, _, _⟩ := h'
      cases same
  | cons h hs ih =>
    cases hs' with
    | nil =>
      obtain ⟨_, _, _⟩ := h
      cases same
    | cons h' hs' =>
      obtain ⟨type, id, body⟩ := h
      obtain ⟨type', id', body'⟩ := h'
      obtain ⟨ht, moreTypes⟩ := List.forall_mem_cons.1 types
      obtain ⟨ht', moreTypes'⟩ := List.forall_mem_cons.1 types'
      obtain ⟨hb, moreBodies⟩ := List.forall_mem_cons.1 bodies
      obtain ⟨hb', moreBodies'⟩ := List.forall_mem_cons.1 bodies'
      obtain ⟨tb, moreTold⟩ := List.forall_mem_cons.1 told
      simp only [handlerTree, List.cons.injEq, Line.mk.injEq, Handler.head, List.cons_append, List.append_assoc,
        true_and] at same
      obtain ⟨⟨head, block⟩, more⟩ := same
      have behind : ∀ o, Stop Strength.named (boundKinds o ++ [op ":"]) ∧
          (headOf (boundKinds o ++ [op ":"])).opens < Strength.named := by
        intro o
        cases o with
        | none => exact ⟨stop_cons (by decide) _, by decide⟩
        | some id => exact ⟨stop_cons (by decide) _, by simp [boundKinds]; decide⟩
      obtain ⟨rfl, rest⟩ := cut_unmarked ht ht' (behind id).1 (behind id').1 (behind id).2 (behind id').2 head
      obtain ⟨rfl, -⟩ := cut_bound (by simp) (by simp) rest
      obtain rfl := cut_block hb hb' tb block
      obtain rfl := ih moreTypes moreTypes' moreBodies moreBodies' moreTold more
      rfl

theorem cut_cases {cs cs' : List MatchCase} (patterns : ∀ c ∈ cs, c.pattern.Formed .shown)
    (patterns' : ∀ c ∈ cs', c.pattern.Formed .shown) (guards : ∀ c ∈ cs, ∀ e ∈ c.guard, Regular .shown (.expr e))
    (guards' : ∀ c ∈ cs', ∀ e ∈ c.guard, Regular .shown (.expr e))
    (bodies : ∀ c ∈ cs, ∀ s ∈ c.body, s.Formed .shown) (bodies' : ∀ c ∈ cs', ∀ s ∈ c.body, s.Formed .shown)
    (told : ∀ c ∈ cs, ∀ s ∈ c.body, s.IsTold) (same : caseTree cs = caseTree cs') : cs = cs' := by
  induction cs generalizing cs' with
  | nil =>
    cases cs' with
    | nil => rfl
    | cons c' cs' =>
      obtain ⟨_, _, _⟩ := c'
      cases same
  | cons c cs ih =>
    cases cs' with
    | nil =>
      obtain ⟨_, _, _⟩ := c
      cases same
    | cons c' cs' =>
      obtain ⟨pattern, guard, body⟩ := c
      obtain ⟨pattern', guard', body'⟩ := c'
      obtain ⟨hp, morePatterns⟩ := List.forall_mem_cons.1 patterns
      obtain ⟨hp', morePatterns'⟩ := List.forall_mem_cons.1 patterns'
      obtain ⟨hg, moreGuards⟩ := List.forall_mem_cons.1 guards
      obtain ⟨hg', moreGuards'⟩ := List.forall_mem_cons.1 guards'
      obtain ⟨hb, moreBodies⟩ := List.forall_mem_cons.1 bodies
      obtain ⟨hb', moreBodies'⟩ := List.forall_mem_cons.1 bodies'
      obtain ⟨tb, moreTold⟩ := List.forall_mem_cons.1 told
      simp only [caseTree, List.cons.injEq, Line.mk.injEq, MatchCase.head, List.cons_append, List.append_assoc,
        true_and] at same
      obtain ⟨⟨head, block⟩, more⟩ := same
      have behind : ∀ o, PatternEnds (optionalKinds [name "if"] o ++ [op ":"]) := by
        intro o
        cases o with
        | none => exact patternEnds_closing (by decide) []
        | some e => exact ⟨stop_cons (by decide) _, by simp [optionalKinds], by simp [optionalKinds]⟩
      obtain ⟨rfl, rest⟩ := hp.cuts _ hp' (behind guard) (behind guard') head
      have colon : Stop Strength.named [op ":"] := stop_cons (by decide) []
      obtain ⟨rfl, -⟩ := cut_optional hg hg' colon colon (by simp) (by simp) rest
      obtain rfl := cut_block hb hb' tb block
      obtain rfl := ih morePatterns morePatterns' moreGuards moreGuards' moreBodies moreBodies' moreTold more
      rfl

/-- The sign before the equals sign tells the operator. -/
theorem augmented_injective {o o' : BinaryOp} (same : o.symbol ++ "=" = o'.symbol ++ "=") : o = o' := by
  cases o <;> cases o' <;> first | rfl | exact absurd same (by decide)

theorem Stmt.Formed.told_of_kind {s : Stmt} (h : s.Formed .shown)
    (same : ∀ s', s'.Formed .shown → s.kind = s'.kind → s.SameLines s' → s = s') : s.IsTold :=
  fun s' h' lines => same s' h' (h.kind_eq h' lines.head) lines

/-- Statements in canonical form are told apart by their lines. -/
theorem Stmt.Formed.told {s : Stmt} (h : s.Formed .shown) : s.IsTold := by
  have ends : ∀ {s : Nat}, 0 < s → Stop s [] := stop_nil
  have colon : ∀ {s : Nat}, 0 < s → Stop s [op ":"] := fun pos => stop_cons pos []
  have marked : ∀ {s : Nat} {k : TokenKind} {o : Option Expr}, k.joins < s → 0 < s → Stop s (optionalKinds [k] o) := by
    intro s k o low pos
    cases o with
    | none => exact stop_nil pos
    | some e => exact stop_cons low _
  have alone : ∀ {e e' : Expr}, Regular .shown (.expr e) → Regular .shown (.expr e') → e.kinds = e'.kinds → e = e' :=
    fun h h' same => (cut_whole h h' (ends (by decide)) (ends (by decide)) (closed_eq same)).1
  have headed : ∀ {e e' : Expr}, Regular .shown (.expr e) → Regular .shown (.expr e') →
      e.kinds ++ [op ":"] = e'.kinds ++ [op ":"] → e = e' :=
    fun h h' same => (cut_whole h h' (colon (by decide)) (colon (by decide)) same).1
  have optional : ∀ {k : TokenKind} {o o' : Option Expr}, k ≠ .endMarker → (∀ e ∈ o, Regular .shown (.expr e)) →
      (∀ e ∈ o', Regular .shown (.expr e)) → optionalKinds [k] o = optionalKinds [k] o' → o = o' :=
    fun other h h' same => (cut_optional h h' (ends (by decide)) (ends (by decide)) (Ne.symm other) (Ne.symm other)
      (closed_eq same)).1
  induction h with
  | @functionDef id params body decorators returns isAsync binds hp hb hd hr ih =>
    refine (Stmt.Formed.functionDef binds hp hb hd hr).told_of_kind fun s' h' kind lines => ?_
    cases h' with
    | functionDef binds' hp' hb' hd' hr' =>
      have head := lines.head
      simp only [Stmt.head, List.cons_append, List.append_assoc] at head
      obtain ⟨rfl, signature⟩ := cut_async (by simp) head
      simp only [List.cons.injEq, TokenKind.name.injEq, true_and] at signature
      obtain ⟨rfl, brackets⟩ := signature
      obtain ⟨rfl, arrow⟩ := cut_params hp hp' brackets
      obtain ⟨rfl, -⟩ := cut_option hr hr' (colon (by decide)) (colon (by decide)) (by simp) (by simp) arrow
      obtain rfl := cut_block hb hb' ih lines.inner
      obtain rfl := cut_decorators hd hd' lines.above
      rfl
    | _ => cases kind
  | classDef call hb hd ih =>
    refine (Stmt.Formed.classDef call hb hd).told_of_kind fun s' h' kind lines => ?_
    cases h' with
    | classDef call' hb' hd' =>
      have same := headed (regular_classCall call) (regular_classCall call') (List.cons.inj lines.head).2
      obtain ⟨rfl, rfl, rfl⟩ := classCall_injective same
      obtain rfl := cut_block hb hb' ih lines.inner
      obtain rfl := cut_decorators hd hd' lines.above
      rfl
    | _ => cases kind
  | ret h =>
    refine (Stmt.Formed.ret h).told_of_kind fun s' h' kind lines => ?_
    cases h' with
    | ret h' =>
      obtain ⟨rfl, -⟩ := cut_unmarked h h' (ends (by decide)) (ends (by decide)) (by decide) (by decide)
        (closed_eq (List.cons.inj lines.head).2)
      rfl
    | _ => cases kind
  | delete hh ht =>
    refine (Stmt.Formed.delete hh ht).told_of_kind fun s' h' kind lines => ?_
    cases h' with
    | delete hh' ht' => rw [cut_deleted hh hh' ht ht' (List.cons.inj lines.head).2]
    | _ => cases kind
  | assign nonempty hh ht hv =>
    refine (Stmt.Formed.assign nonempty hh ht hv).told_of_kind fun s' h' kind lines => ?_
    cases h' with
    | assign nonempty' hh' ht' hv' =>
      obtain ⟨rfl, rfl⟩ := cut_assigned hh hh' ht ht' hv hv' lines.head
      rfl
    | _ => cases kind
  | @augAssign head target value o ht hv =>
    refine (Stmt.Formed.augAssign ht hv).told_of_kind fun s' h' kind lines => ?_
    cases h' with
    | @augAssign head' target' value' o' ht' hv' =>
      obtain ⟨rfl, rest⟩ := cut_target ht ht' (stop_augmented o (by decide) _) (stop_augmented o' (by decide) _)
        lines.head
      obtain ⟨sign, value⟩ := List.cons.inj rest
      obtain rfl := augmented_injective (TokenKind.op.inj sign)
      rw [alone hv hv' value]
    | _ => cases kind
  | annAssign ht ha hv =>
    refine (Stmt.Formed.annAssign ht ha hv).told_of_kind fun s' h' kind lines => ?_
    cases h' with
    | annAssign ht' ha' hv' =>
      have head := lines.head
      simp only [Stmt.head, List.cons_append, List.append_assoc] at head
      obtain ⟨rfl, annotation⟩ := cut_target ht ht' (stop_cons (by decide) _) (stop_cons (by decide) _) head
      obtain ⟨rfl, value⟩ := cut_within ha ha' (by decide) (by decide) (marked (by decide) (by decide))
        (marked (by decide) (by decide)) (List.cons.inj annotation).2
      rw [optional (by simp) hv hv' value]
    | _ => cases kind
  | forLoop ht hi hb ho ihb iho =>
    refine (Stmt.Formed.forLoop ht hi hb ho).told_of_kind fun s' h' kind lines => ?_
    cases h' with
    | forLoop ht' hi' hb' ho' =>
      have head := lines.head
      simp only [Stmt.head, List.cons_append, List.append_assoc] at head
      obtain ⟨rfl, loop⟩ := cut_async (by simp) head
      obtain ⟨rfl, rest⟩ := cut_target ht ht' (stop_cons (by decide) _) (stop_cons (by decide) _) loop
      obtain rfl := headed hi hi' (List.cons.inj rest).2
      obtain rfl := cut_block hb hb' ihb lines.inner
      obtain rfl := cut_block ho ho' iho (cut_armLine lines.arms)
      rfl
    | _ => cases kind
  | whileLoop ht hb ho ihb iho =>
    refine (Stmt.Formed.whileLoop ht hb ho).told_of_kind fun s' h' kind lines => ?_
    cases h' with
    | whileLoop ht' hb' ho' =>
      obtain rfl := headed ht ht' (List.cons.inj lines.head).2
      obtain rfl := cut_block hb hb' ihb lines.inner
      obtain rfl := cut_block ho ho' iho (cut_armLine lines.arms)
      rfl
    | _ => cases kind
  | branch ht hb ho ihb iho =>
    refine (Stmt.Formed.branch ht hb ho).told_of_kind fun s' h' kind lines => ?_
    cases h' with
    | branch ht' hb' ho' =>
      obtain rfl := headed ht ht' (List.cons.inj lines.head).2
      obtain rfl := cut_block hb hb' ihb lines.inner
      obtain rfl := cut_block ho ho' iho (cut_armLine lines.arms)
      rfl
    | _ => cases kind
  | withBlock hi hb ih =>
    refine (Stmt.Formed.withBlock hi hb).told_of_kind fun s' h' kind lines => ?_
    cases h' with
    | withBlock hi' hb' =>
      have head := lines.head
      simp only [Stmt.head, List.cons_append, List.append_assoc] at head
      obtain ⟨rfl, rest⟩ := cut_async (by simp) head
      obtain rfl := cut_withItems hi hi' rest
      obtain rfl := cut_block hb hb' ih lines.inner
      rfl
    | _ => cases kind
  | raise he hc =>
    refine (Stmt.Formed.raise he hc).told_of_kind fun s' h' kind lines => ?_
    have low : ∀ o, (headOf (optionalKinds [name "from"] o)).opens < Strength.named := by
      intro o
      cases o <;> exact Nat.le_of_ble_eq_true rfl
    cases h' with
    | raise he' hc' =>
      obtain ⟨rfl, rest⟩ := cut_unmarked he he' (marked (by decide) (by decide)) (marked (by decide) (by decide))
        (low _) (low _) (List.cons.inj lines.head).2
      rw [optional (by simp) hc hc' rest]
    | _ => cases kind
  | tryBlock hb types binds hh ho hf ends guarded ihb ihh iho ihf =>
    refine (Stmt.Formed.tryBlock hb types binds hh ho hf ends guarded).told_of_kind fun s' h' kind lines => ?_
    cases h' with
    | tryBlock hb' types' binds' hh' ho' hf' _ _ =>
      have other : ∀ ls ms, ∀ l ∈ armLine "else" ls ++ armLine "finally" ms, l.word ≠ name "except" := by
        intro ls ms
        refine List.forall_mem_append.2 ⟨fun l hl => ?_, fun l hl => ?_⟩ <;> rw [armLine_word _ _ l hl] <;> simp
      obtain ⟨handlers, rest⟩ := cut_word (handlerTree_word _) (handlerTree_word _) (other _ _) (other _ _) lines.arms
      obtain ⟨orelse, finalbody⟩ := cut_arms rest
      obtain rfl := cut_block hb hb' ihb lines.inner
      obtain rfl := cut_handlers types types' hh hh' ihh handlers
      obtain rfl := cut_block ho ho' iho orelse
      obtain rfl := cut_block hf hf' ihf finalbody
      rfl
    | _ => cases kind
  | assert ht hm =>
    refine (Stmt.Formed.assert ht hm).told_of_kind fun s' h' kind lines => ?_
    cases h' with
    | assert ht' hm' =>
      obtain ⟨rfl, rest⟩ := cut_whole ht ht' (marked (by decide) (by decide)) (marked (by decide) (by decide))
        (List.cons.inj lines.head).2
      rw [optional (by simp) hm hm' rest]
    | _ => cases kind
  | imports h some =>
    refine (Stmt.Formed.imports h some).told_of_kind fun s' h' kind lines => ?_
    cases h' with
    | imports h' => rw [cut_aliases h h' (List.cons.inj lines.head).2]
    | _ => cases kind
  | importFrom hm h origin some =>
    refine (Stmt.Formed.importFrom hm h origin some).told_of_kind fun s' h' kind lines => ?_
    cases h' with
    | importFrom hm' h' =>
      have head := lines.head
      simp only [Stmt.head, List.cons_append, List.append_assoc] at head
      obtain ⟨rfl, rfl, rest⟩ := cut_module hm hm' (List.cons.inj head).2
      rw [cut_aliases h h' rest]
    | _ => cases kind
  | global h some =>
    refine (Stmt.Formed.global h some).told_of_kind fun s' h' kind lines => ?_
    cases h' with
    | global h' => rw [cut_names (List.cons.inj lines.head).2]
    | _ => cases kind
  | nonlocal h some =>
    refine (Stmt.Formed.nonlocal h some).told_of_kind fun s' h' kind lines => ?_
    cases h' with
    | nonlocal h' => rw [cut_names (List.cons.inj lines.head).2]
    | _ => cases kind
  | matchBlock hs hp hg hb some alone ih =>
    refine (Stmt.Formed.matchBlock hs hp hg hb some alone).told_of_kind fun s' h' kind lines => ?_
    cases h' with
    | matchBlock hs' hp' hg' hb' =>
      obtain rfl := headed hs hs' (List.cons.inj lines.head).2
      obtain rfl := cut_cases hp hp' hg hg' hb hb' ih lines.inner
      rfl
    | _ => cases kind
  | expr h =>
    refine (Stmt.Formed.expr h).told_of_kind fun s' h' kind lines => ?_
    cases h' with
    | expr h' => rw [alone h h' lines.head]
    | _ => cases kind
  | pass | breakLoop | continueLoop =>
    intro s' h' lines
    have kind := Stmt.Formed.kind_eq (by constructor) h' lines.head
    cases h' <;> first | rfl | cases kind

end Blocks

end Arbiter.Syntax
