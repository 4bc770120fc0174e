import Arbiter.Canon.Numbering
import Arbiter.Proofs.Canon.Placeholder
import Arbiter.Proofs.Canon.Tame

/-! Canonical form of expressions. Main statement: tame code from a source, relabeled with placeholders,
keeps to the grammar of canonical form. -/

namespace Arbiter.Syntax

/-- The relabeling has placeholders for names and numbered literals, and leaves other constants and format
texts be. -/
structure Relabeling.IsCanonical (r : Relabeling) : Prop where
  name : ∀ id, IsNamePlaceholder (r.name id)
  piece : ∀ s, IsPiecePlaceholder (r.piece s)
  literal : ∀ c, (literal? c).isSome = true →
    ∃ s, IsPiecePlaceholder s ∧ r.constant c = .str ("'" ++ s ++ "'")
  other : ∀ c, literal? c = none → r.constant c = c
  format : r.format = id

theorem isCanonical_relabeling (n : Canon.Numbering) : n.relabeling.IsCanonical where
  name _ := ⟨_, rfl⟩
  piece _ := ⟨_, rfl⟩
  literal c some := by
    obtain ⟨l, found⟩ := Option.isSome_iff_exists.1 some
    refine ⟨n.literalPlaceholder l, ⟨_, rfl⟩, ?_⟩
    show n.constantPlaceholder c = _
    unfold Canon.Numbering.constantPlaceholder
    rw [found]
  other c none := by
    show n.constantPlaceholder c = c
    unfold Canon.Numbering.constantPlaceholder
    rw [none]
  format := rfl

/-! Lists of a relabeled tree. -/

section Lists

variable (r : Relabeling)

theorem relabelExprs_eq (es : List Expr) : relabelExprs r es = es.map (relabelExpr r) := by
  induction es with
  | nil => rfl
  | cons e es ih => rw [relabelExprs, ih, List.map_cons]

theorem relabelOption_eq (o : Option Expr) : relabelOption r o = o.map (relabelExpr r) := by
  cases o <;> rfl

def relabelPart : FStringPart → FStringPart
  | .literal s => .literal (r.piece s)
  | .formatted value conversion spec => .formatted (relabelExpr r value) conversion (spec.map r.format)

theorem relabelParts_eq (parts : List FStringPart) :
    relabelParts r parts = parts.map (relabelPart r) := by
  induction parts with
  | nil => rfl
  | cons part parts ih => cases part <;> rw [relabelParts, ih] <;> rfl

variable {r} in
theorem formatted_of_relabelParts {parts : List FStringPart} {value : Expr}
    {conversion : Option Char} {spec : Option String} (keeps : r.format = id)
    (h : .formatted value conversion spec ∈ relabelParts r parts) :
    ∃ v, value = relabelExpr r v ∧ .formatted v conversion spec ∈ parts := by
  rw [relabelParts_eq] at h
  obtain ⟨part, member, same⟩ := List.mem_map.1 h
  cases part <;> cases same
  rw [keeps, Option.map_id_apply]
  exact ⟨_, rfl, member⟩

variable {r} in
theorem literal_of_relabelParts {parts : List FStringPart} {s : String}
    (h : .literal s ∈ relabelParts r parts) : ∃ t, s = r.piece t := by
  rw [relabelParts_eq] at h
  obtain ⟨part, -, same⟩ := List.mem_map.1 h
  cases part <;> cases same
  exact ⟨_, rfl⟩

def relabelDictItem : DictItem → DictItem
  | .entry key value => .entry (relabelExpr r key) (relabelExpr r value)
  | .spread value => .spread (relabelExpr r value)

theorem relabelDict_eq (items : List DictItem) :
    relabelDict r items = items.map (relabelDictItem r) := by
  induction items with
  | nil => rfl
  | cons item items ih => cases item <;> rw [relabelDict, ih] <;> rfl

theorem relabelComparands_eq (rest : List Comparand) :
    relabelComparands r rest = rest.map fun c => ⟨c.op, relabelExpr r c.value⟩ := by
  induction rest with
  | nil => rfl
  | cons c rest ih =>
    obtain ⟨op, value⟩ := c
    rw [relabelComparands, ih, List.map_cons]

theorem relabelKeywords_eq (keywords : List Keyword) :
    relabelKeywords r keywords = keywords.map fun k => ⟨k.arg, relabelExpr r k.value⟩ := by
  induction keywords with
  | nil => rfl
  | cons k keywords ih =>
    obtain ⟨arg, value⟩ := k
    rw [relabelKeywords, ih, List.map_cons]

theorem relabelGenerators_ne_nil {gens : List Generator} (h : gens ≠ []) :
    relabelGenerators r gens ≠ [] := by
  cases gens with
  | nil => exact h
  | cons c gens =>
    obtain ⟨target, iter, ifs, isAsync⟩ := c
    exact List.cons_ne_nil _ _

def relabelParam : Param → Param
  | .plain arg default => .plain (relabelArgument r arg) (relabelOption r default)
  | .posOnlyMarker => .posOnlyMarker
  | .varArgs none => .varArgs none
  | .varArgs (some arg) => .varArgs (some (relabelArgument r arg))
  | .kwArgs arg => .kwArgs (relabelArgument r arg)

theorem relabelParams_eq (params : List Param) :
    relabelParams r params = params.map (relabelParam r) := by
  induction params with
  | nil => rfl
  | cons p params ih =>
    match p with
    | .plain _ _ | .posOnlyMarker | .varArgs none | .varArgs (some _) | .kwArgs _ =>
      rw [relabelParams, ih]
      rfl

end Lists

mutual

theorem asTarget_relabel (r : Relabeling) {ctx : Context} : ∀ (e : Expr) {t : Expr},
    e.asTarget? ctx = some t → (relabelExpr r e).asTarget? ctx = some (relabelExpr r t)
  | .name .., _, rfl | .attribute .., _, rfl | .subscript .., _, rfl => rfl
  | .starred value _, t, h => by
    obtain ⟨v, found, rfl⟩ := Option.map_eq_some_iff.1 h
    simp only [relabelExpr, Expr.asTarget?, asTarget_relabel r value found, Option.map_some]
  | .tuple elts _, t, h | .list elts _, t, h => by
    obtain ⟨ts, found, rfl⟩ := Option.map_eq_some_iff.1 h
    simp only [relabelExpr, Expr.asTarget?, asTargets_relabel r elts found, Option.map_some]

theorem asTargets_relabel (r : Relabeling) {ctx : Context} : ∀ (es : List Expr) {ts : List Expr},
    asTargets? ctx es = some ts → asTargets? ctx (relabelExprs r es) = some (relabelExprs r ts)
  | [], _, rfl => rfl
  | e :: es, ts, h => by
    simp only [asTargets?, Option.bind_eq_bind, Option.bind_eq_some_iff, Option.pure_def] at h
    obtain ⟨t, first, ts', rest, same⟩ := h
    cases same
    simp only [relabelExprs, asTargets?, asTarget_relabel r e first, asTargets_relabel r es rest]
    rfl

end

theorem strength_relabel (r : Relabeling) (e : Expr) : (relabelExpr r e).strength = e.strength := by
  cases e <;> rfl

/-! Constants. -/

theorem lineStringLength?_plain {q : Char} {cs : List Char} (quote : q ≠ '\\')
    (plain : ∀ c ∈ cs, c ≠ '\\' ∧ c ≠ q ∧ c ≠ '\n') (rest : List Char) :
    lineStringLength? q (cs ++ ([q] ++ rest)) = some (cs.length + 1) := by
  induction cs with
  | nil =>
    rw [List.nil_append, List.singleton_append, lineStringLength?_cons quote, if_pos rfl]
    rfl
  | cons c cs ih =>
    obtain ⟨noEscape, noQuote, noBreak⟩ := plain c List.mem_cons_self
    rw [List.cons_append, lineStringLength?_cons noEscape, if_neg noQuote, if_neg noBreak,
      ih fun d hd => plain d (.tail c hd)]
    rfl

/-- A placeholder has nothing in it that a string would have to hide. -/
theorem IsPiecePlaceholder.plain {s : String} (h : IsPiecePlaceholder s) :
    ∀ c ∈ s.toList, c ≠ '\\' ∧ c ≠ '\'' ∧ c ≠ '\n' := by
  obtain ⟨n, rfl⟩ := h
  intro c hc
  rcases List.mem_append.1 (String.toList_append ▸ hc) with hc | hc
  · have letters : "CONST_".toList.all (fun c => c ≠ '\\' ∧ c ≠ '\'' ∧ c ≠ '\n') = true := by decide
    exact of_decide_eq_true (List.all_eq_true.1 letters c hc)
  · have digit := isDigit_toString hc
    refine ⟨?_, ?_, ?_⟩ <;> rintro rfl <;> cases digit

theorem spells_quoted {s : String} (h : IsPiecePlaceholder s) :
    Spells ("'" ++ s ++ "'") (.string ("'" ++ s ++ "'")) := by
  have chars : ("'" ++ s ++ "'").toList = '\'' :: (s.toList ++ ['\'']) := by simp
  refine ⟨'\'', s.toList ++ ['\''], chars, fun rest _ => ?_⟩
  have plain := h.plain
  have first : [ '\'', '\''].isPrefixOf (s.toList ++ ['\''] ++ rest) = false := by
    obtain ⟨n, rfl⟩ := h
    rw [String.toList_append]
    rfl
  have long : stringLength? '\'' (s.toList ++ ['\''] ++ rest) = some (s.toList ++ ['\'']).length := by
    rw [stringLength?, first, if_neg Bool.false_ne_true, List.append_assoc, List.length_append]
    exact lineStringLength?_plain (by decide) plain rest
  rw [lexeme_quote (.inr rfl), long]
  simp only [spelling_append, ← chars, String.ofList_toList]

theorem shown_quoted {s : String} (h : IsPiecePlaceholder s) :
    Regular .shown (.expr (.constant (.str ("'" ++ s ++ "'")))) := by
  have one : stringConstant [⟨"'" ++ s ++ "'", .start⟩] = .str ("'" ++ s ++ "'") := by
    simp [stringConstant, StringPiece.marks]
  rw [← one]
  refine .strings (List.cons_ne_nil _ _) (List.forall_mem_singleton.2 (spells_quoted h))
    (List.forall_mem_singleton.2 ?_)
  simp [StringPiece.isFString, StringPiece.marks]

section Shown

variable {r : Relabeling} (canonical : r.IsCanonical)
include canonical

theorem shown_constant {c : Constant}
    (h : literal? c = none → Regular .shown (.expr (.constant c))) :
    Regular .shown (.expr (relabelExpr r (.constant c))) := by
  rw [relabelExpr]
  cases found : literal? c with
  | none =>
    rw [canonical.other c found]
    exact h found
  | some l =>
    obtain ⟨s, piece, same⟩ := canonical.literal c (by rw [found]; rfl)
    rw [same]
    exact shown_quoted piece

/-- No number of canonical form takes a point. -/
theorem takesPoint_relabel (e : Expr) : (relabelExpr r e).takesPoint = false := by
  cases e with
  | constant c =>
    rw [relabelExpr]
    cases found : literal? c with
    | none =>
      rw [canonical.other c found]
      cases c <;> first | rfl | cases found
    | some l =>
      obtain ⟨s, -, same⟩ := canonical.literal c (by rw [found]; rfl)
      rw [same]
      rfl
  | _ => rfl

end Shown

/-- What is known of a tame part after it is relabeled. -/
def Part.IsShown (r : Relabeling) : Part → Prop
  | .expr e | .item e => e.isTame true = true → Regular .shown (.item (relabelExpr r e))
  | .entry e => e.isTame true = true → Regular .shown (.entry (relabelExpr r e))
  | .index e => e.isTame false = true → Regular .shown (.index (relabelExpr r e))
  | .clauses gens => generatorsTame gens = true → Regular .shown (.clauses (relabelGenerators r gens))

theorem Regular.shown_of_item {r : Relabeling} {e : Expr}
    (h : Regular .shown (.item (relabelExpr r e))) (tame : e.isTame false = true) :
    Regular .shown (.expr (relabelExpr r e)) := by
  cases e with
  | starred value ctx => cases tame
  | _ =>
    rw [relabelExpr] at h ⊢
    cases h with
    | item he => exact he

theorem Part.IsShown.expr {r : Relabeling} {e : Expr} (h : (Part.expr e).IsShown r)
    (tame : e.isTame false = true) : Regular .shown (.expr (relabelExpr r e)) :=
  (h (isTame_true tame)).shown_of_item tame

theorem shown_option {r : Relabeling} {o : Option Expr}
    (h : ∀ e ∈ o, (Part.expr e).IsShown r) (tame : optionTame o = true) :
    ∀ e ∈ relabelOption r o, Regular .shown (.expr e) := by
  cases o with
  | none => nofun
  | some e =>
    rintro _ ⟨⟩
    exact (h e rfl).expr tame

theorem shown_exprs {r : Relabeling} {es : List Expr} (h : ∀ e ∈ es, (Part.expr e).IsShown r)
    (tame : allTame false es = true) : ∀ e ∈ relabelExprs r es, Regular .shown (.expr e) := by
  rw [relabelExprs_eq]
  exact List.forall_mem_map.2 fun e he => (h e he).expr (allTame_iff.1 tame e he)

theorem shown_items {r : Relabeling} {es : List Expr} (h : ∀ e ∈ es, (Part.item e).IsShown r)
    (tame : allTame true es = true) : ∀ e ∈ relabelExprs r es, Regular .shown (.item e) := by
  rw [relabelExprs_eq]
  exact List.forall_mem_map.2 fun e he => h e he (allTame_iff.1 tame e he)

theorem relabelExprs_ne_nil {r : Relabeling} {es : List Expr} (h : es ≠ []) :
    relabelExprs r es ≠ [] := by
  rw [relabelExprs_eq]
  simpa using h

theorem isShown_of_regular {r : Relabeling} (canonical : r.IsCanonical) {part : Part}
    (h : Regular .source part) : part.IsShown r := by
  induction h with
  | @name id _ _ => exact fun _ => .item (.name (canonical.name id).isIdentifier (canonical.name id))
  | number h => exact fun _ => .item (shown_constant canonical fun _ => .number h)
  | strings some spelled plain =>
    exact fun _ => .item (shown_constant canonical fun _ => .strings some spelled plain)
  | word w => exact fun _ => .item (shown_constant canonical fun _ => .word w)
  | ellipsis => exact fun _ => .item (shown_constant canonical fun _ => .ellipsis)
  | joinedStr _ _ marks _ h =>
    intro tame
    rw [relabelExpr]
    refine .item (.joinedStr trivial (fun value conversion spec member => ?_)
      (fun value conversion spec member => ?_) fun s member => ?_)
    · obtain ⟨v, rfl, before⟩ := formatted_of_relabelParts canonical.format member
      exact (h v conversion spec before).expr (partsTame_iff.1 tame v conversion spec before)
    · obtain ⟨v, -, before⟩ := formatted_of_relabelParts canonical.format member
      exact marks v conversion spec before
    · obtain ⟨t, rfl⟩ := literal_of_relabelParts member
      exact canonical.piece t
  | member _ _ ha hv =>
    exact fun tame => .item (.member (hv.expr tame) (.inr (takesPoint_relabel canonical _)) ha)
  | subscript _ _ hv hi =>
    intro tame
    simp only [Expr.isTame, Bool.and_eq_true] at tame
    exact .item (.subscript (hv.expr tame.1) (hi tame.2))
  | tuple _ h => exact fun tame => .item (.tuple (shown_items h tame))
  | list _ h => exact fun tame => .item (.list (shown_items h tame))
  | set some _ h => exact fun tame => .item (.set (relabelExprs_ne_nil some) (shown_items h tame))
  | dict _ h =>
    intro tame
    have plain := dictTame_iff.1 tame
    rw [relabelExpr, relabelDict_eq]
    refine .item (.dict (List.forall_mem_map.2 fun item member => ?_))
    have parts := fun e he => (h item member e he).expr (plain item member e he)
    cases item with
    | entry key value =>
      exact List.forall_mem_cons.2 ⟨parts key List.mem_cons_self,
        List.forall_mem_singleton.2 (parts value (.tail _ List.mem_cons_self))⟩
    | spread value => exact List.forall_mem_singleton.2 (parts value List.mem_cons_self)
  | binary _ _ hl hr =>
    intro tame
    simp only [Expr.isTame, Bool.and_eq_true] at tame
    exact .item (.binary (hl.expr tame.1) (hr.expr tame.2))
  | unary _ h => exact fun tame => .item (.unary (h.expr tame))
  | bool _ _ _ hf hs hr =>
    intro tame
    simp only [Expr.isTame, allTame, Bool.and_eq_true] at tame
    exact .item (.bool (hf.expr tame.1) (hs.expr tame.2.1) (shown_exprs hr tame.2.2))
  | compare some _ _ hl hr =>
    intro tame
    simp only [Expr.isTame, Bool.and_eq_true] at tame
    rw [relabelExpr, relabelComparands_eq]
    exact .item (.compare (by simpa using some) (hl.expr tame.1) (List.forall_mem_map.2 fun c hc =>
      (hr c hc).expr (comparandsTame_iff.1 tame.2 c hc)))
  | call _ _ _ names hf ha hk =>
    intro tame
    simp only [Expr.isTame, Bool.and_eq_true] at tame
    rw [relabelExpr, relabelKeywords_eq]
    exact .item (.call (hf.expr tame.1.1) (shown_items ha tame.1.2) (List.forall_mem_map.2 fun k hm =>
      (hk k hm).expr (keywordsTame_iff.1 tame.2 k hm)) (List.forall_mem_map.2 names))
  | ifElse _ _ _ ht hb ho =>
    intro tame
    simp only [Expr.isTame, Bool.and_eq_true] at tame
    exact .item (.ifElse (ht.expr tame.1.1) (hb.expr tame.1.2) (ho.expr tame.2))
  | lambda simple _ _ defaults hb =>
    intro tame
    simp only [Expr.isTame, Bool.and_eq_true] at tame
    have values := paramsTame_iff.1 tame.1
    rw [relabelExpr, relabelParams_eq]
    refine .item (.lambda (List.forall_mem_map.2 fun p hp => ?_) (List.forall_mem_map.2 fun p hp => ?_)
      (hb.expr tame.2))
    · have plain := simple p hp
      match p with
      | .plain ⟨_, none⟩ _ | .varArgs (some ⟨_, none⟩) | .kwArgs ⟨_, none⟩ =>
        exact ⟨(canonical.name _).isIdentifier, rfl⟩
      | .posOnlyMarker | .varArgs none => exact plain
    · have default := defaults p hp
      have plain := (values p hp).2
      match p with
      | .plain _ _ => exact shown_option default (optionTame_iff.2 plain)
      | .posOnlyMarker | .varArgs none | .varArgs (some _) | .kwArgs _ => nofun
  | listComp some _ _ he hg =>
    intro tame
    simp only [Expr.isTame, Bool.and_eq_true] at tame
    exact .item (.listComp (relabelGenerators_ne_nil r some) (he.expr tame.1) (hg tame.2))
  | setComp some _ _ he hg =>
    intro tame
    simp only [Expr.isTame, Bool.and_eq_true] at tame
    exact .item (.setComp (relabelGenerators_ne_nil r some) (he.expr tame.1) (hg tame.2))
  | generatorExp some _ _ he hg =>
    intro tame
    simp only [Expr.isTame, Bool.and_eq_true] at tame
    exact .item (.generatorExp (relabelGenerators_ne_nil r some) (he.expr tame.1) (hg tame.2))
  | dictComp some _ _ _ hk hv hg =>
    intro tame
    simp only [Expr.isTame, Bool.and_eq_true] at tame
    exact .item (.dictComp (relabelGenerators_ne_nil r some) (hk.expr tame.1.1) (hv.expr tame.1.2)
      (hg tame.2))
  | await _ h => exact fun tame => .item (.await (h.expr tame))
  | yield | yieldFrom => exact fun tame => nomatch tame
  | @named id _ _ _ _ hv =>
    intro tame
    simp only [Expr.isTame, Bool.true_and] at tame
    exact .item (.named (canonical.name id).isIdentifier (canonical.name id) (hv.expr tame))
  | strayed _ _ h => exact fun tame => .starred (h.expr tame)
  | starred _ h => exact fun tame => .starred (h.expr tame)
  | item _ h => exact h
  | slice _ _ _ hl hu hs =>
    intro tame
    simp only [Expr.isTame, Bool.and_eq_true] at tame
    exact .slice (shown_option hl tame.1.1) (shown_option hu tame.1.2) (shown_option hs tame.2)
  | entry _ h => exact fun tame => .entry (h tame)
  | noEntry => exact fun _ => .noEntry
  | entries some _ h =>
    intro tame
    refine .entries (relabelExprs_ne_nil some) ?_
    rw [relabelExprs_eq]
    exact List.forall_mem_map.2 fun e he => h e he (allTame_iff.1 tame e he)
  | @index e single _ h =>
    intro tame
    refine .index (fun elts ctx same => ?_) (h (isTame_true tame))
    cases e <;> cases same
    exact single _ _ rfl
  | noClause => exact fun _ => .noClause
  | @clause head target iter ifs _ gens _ ht _ _ _ hh hi hc hg =>
    intro tame
    simp only [generatorsTame, Bool.and_eq_true, asTarget_isTame false head ht] at tame
    exact .clause (hh.expr tame.1.1.1) (asTarget_relabel r head ht) (hi.expr tame.1.1.2)
      (shown_exprs hc tame.1.2) (hg tame.2)

/-- Tame code from a source, relabeled, is in canonical form. -/
theorem Expr.Formed.shown {r : Relabeling} (canonical : r.IsCanonical) {e : Expr} (h : e.Formed)
    (tame : e.isTame false = true) : Regular .shown (.expr (relabelExpr r e)) :=
  (isShown_of_regular canonical h).expr tame

end Arbiter.Syntax
