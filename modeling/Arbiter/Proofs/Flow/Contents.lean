import Arbiter.Proofs.Flow.Links
import Arbiter.Proofs.Parsing.StmtSound

/-! What the blocks of a flow graph hold. Main statement: every item of the graph of an accepted program
is a well-formed statement or expression, or what such an expression is as a target. -/

namespace Arbiter.Flow

open Syntax

inductive Item.Formed : Item → Prop
  | stmt {s : Stmt} (h : s.Formed .source) : Formed (.stmt s)
  | expr {e : Expr} (h : e.Formed) : Formed (.expr e)
  /-- The target of a loop. -/
  | target {head t : Expr} (h : Targets .source .store head t) : Formed (.expr t)

/-- All items of the graph are well formed. -/
def Graph.AllFormed (g : Graph) : Prop := ∀ b, ∀ item ∈ g.items b, item.Formed

namespace Build

variable {α β : Type}

/-- All items that `x` puts into a graph are well formed. -/
def PutsFormed (x : Build α) : Prop := ∀ g : Graph, g.AllFormed → (x g).2.AllFormed

namespace PutsFormed

protected theorem pure (a : α) : PutsFormed (pure a) := fun _ h => h

protected theorem bind {x : Build α} {f : α → Build β} (hx : PutsFormed x) (hf : ∀ a, PutsFormed (f a)) :
    PutsFormed (x >>= f) := fun g h => hf _ _ (hx g h)

protected theorem put (b : Nat) {item : Item} (formed : item.Formed) : PutsFormed (put b item) := by
  intro g h a i hi
  have hi : i ∈ (g.addItem b item).items a := hi
  by_cases same : b = a
  · subst same
    simp only [Graph.items, Graph.addItem, Array.getElem?_modify] at hi
    cases found : g.blocks[b]? with
    | none => simp [found] at hi
    | some block =>
      simp only [found, if_true, Option.map_some, Option.getD_some, List.mem_append,
        List.mem_singleton] at hi
      rcases hi with old | rfl
      · exact h b i (by simpa [Graph.items, found] using old)
      · exact formed
  · rw [Graph.items_addItem_of_ne same] at hi
    exact h a i hi

protected theorem join (a b : Nat) : PutsFormed (join a b) := fun g h c => by
  show ∀ item ∈ (g.join a b).items c, _
  rw [Graph.items_join]
  exact h c

protected theorem newBlock : PutsFormed newBlock := fun g h c => by
  show ∀ item ∈ g.addBlock.items c, _
  rw [Graph.items_addBlock]
  exact h c

protected theorem branchFrom (b : Nat) : PutsFormed (branchFrom b) :=
  .bind .newBlock fun _ => .bind (.join _ _) fun _ => .pure _

theorem forM_join (merge : Nat) : (ends : List Nat) → PutsFormed (ends.forM (join · merge))
  | [] => .pure _
  | _ :: ends => .bind (.join _ _) fun _ => forM_join merge ends

end PutsFormed

end Build

open Build

theorem formed_matchHeader {subject : Expr} {cases : List MatchCase}
    (h : (Stmt.matchBlock subject cases).Formed .source) : (matchHeader subject cases).Formed .source := by
  cases h with
  | matchBlock hs hp hg hb some alone =>
    exact .matchBlock hs (List.forall_mem_map.2 hp) (List.forall_mem_map.2 hg)
      (List.forall_mem_map.2 (by simp)) (by simpa using some) (List.forall_mem_map.2 alone)

mutual

theorem walk_formed : (s : Stmt) → s.Formed .source → (cursor : Nat) → PutsFormed (walk s cursor)
  | .branch test body [], h, cursor => by
    cases h with
    | branch ht hb ho =>
      exact .bind (.put cursor (.expr ht)) fun _ => .bind (.branchFrom cursor) fun _ =>
        .bind (walkBlock_formed body hb _) fun _ => .bind (.pure cursor) fun _ =>
          .bind (.branchFrom _) fun _ => .bind (.join _ _) fun _ => .pure _
  | .branch test body (s :: rest), h, cursor => by
    cases h with
    | branch ht hb ho =>
      exact .bind (.put cursor (.expr ht)) fun _ => .bind (.branchFrom cursor) fun _ =>
        .bind (walkBlock_formed body hb _) fun _ => .bind (.branchFrom cursor) fun _ =>
          .bind (walkBlock_formed (s :: rest) ho _) fun _ => .bind (.branchFrom _) fun _ =>
            .bind (.join _ _) fun _ => .pure _
  | .forLoop target iter body orelse _, h, cursor => by
    cases h with
    | forLoop ht hi hb ho =>
      exact .bind (.branchFrom cursor) fun header => .bind (.put header (.expr hi)) fun _ =>
        .bind (.put header (.target ht)) fun _ => .bind (.branchFrom _) fun _ => .bind (.branchFrom _) fun _ =>
          .bind (walkBlock_formed body hb _) fun _ => .bind (.join _ _) fun _ => walkBlock_formed orelse ho _
  | .whileLoop test body orelse, h, cursor => by
    cases h with
    | whileLoop ht hb ho =>
      exact .bind (.branchFrom cursor) fun header => .bind (.put header (.expr ht)) fun _ =>
        .bind (.branchFrom _) fun _ => .bind (.branchFrom _) fun _ =>
          .bind (walkBlock_formed body hb _) fun _ => .bind (.join _ _) fun _ => walkBlock_formed orelse ho _
  | .matchBlock subject cases, h, cursor => by
    have header := Item.Formed.stmt (formed_matchHeader h)
    cases h with
    | matchBlock hs hp hg hb =>
      exact .bind (.put cursor header) fun _ => .bind (walkCases_formed cases hb cursor) fun ends =>
        .bind (.branchFrom cursor) fun merge => .bind (.forM_join merge ends) fun _ => .pure merge
  | .functionDef _ _ body _ _ _, h, cursor => by
    have item := Item.Formed.stmt h
    cases h with
    | functionDef _ _ hb => exact .bind (.put cursor item) fun _ => walkBlock_formed body hb cursor
  | .classDef _ _ _ body _, h, cursor => by
    have item := Item.Formed.stmt h
    cases h with
    | classDef _ hb => exact .bind (.put cursor item) fun _ => walkBlock_formed body hb cursor
  | .withBlock _ body _, h, cursor => by
    have item := Item.Formed.stmt h
    cases h with
    | withBlock _ hb => exact .bind (.put cursor item) fun _ => walkBlock_formed body hb cursor
  | .tryBlock body handlers orelse finalbody, h, cursor => by
    have item := Item.Formed.stmt h
    cases h with
    | tryBlock hb _ _ hh ho hf =>
      exact .bind (.put cursor item) fun _ => .bind (walkBlock_formed body hb cursor) fun _ =>
        .bind (walkHandlers_formed handlers hh _) fun _ => .bind (walkBlock_formed orelse ho _) fun _ =>
          walkBlock_formed finalbody hf _
  | .ret _, h, cursor | .delete _, h, cursor | .assign _ _, h, cursor | .augAssign _ _ _, h, cursor
  | .annAssign _ _ _, h, cursor | .raise _ _, h, cursor | .assert _ _, h, cursor | .imports _, h, cursor
  | .importFrom _ _ _, h, cursor | .global _, h, cursor | .nonlocal _, h, cursor | .expr _, h, cursor
  | .pass, h, cursor | .breakLoop, h, cursor | .continueLoop, h, cursor =>
    .bind (.put cursor (.stmt h)) fun _ => .pure cursor

theorem walkBlock_formed : (body : List Stmt) → (∀ s ∈ body, s.Formed .source) → (cursor : Nat) →
    PutsFormed (walkBlock body cursor)
  | [], _, _ => .pure _
  | s :: rest, h, cursor => .bind (walk_formed s (h s List.mem_cons_self) cursor) fun next =>
    walkBlock_formed rest (fun s hs => h s (.tail _ hs)) next

theorem walkHandlers_formed : (handlers : List Handler) →
    (∀ h ∈ handlers, ∀ s ∈ h.body, s.Formed .source) → (cursor : Nat) →
    PutsFormed (walkHandlers handlers cursor)
  | [], _, _ => .pure _
  | ⟨_, _, body⟩ :: rest, h, cursor => .bind (walkBlock_formed body (h _ List.mem_cons_self) cursor)
    fun next => walkHandlers_formed rest (fun c hc => h c (.tail _ hc)) next

theorem walkCases_formed : (cases : List MatchCase) → (∀ c ∈ cases, ∀ s ∈ c.body, s.Formed .source) →
    (cursor : Nat) → PutsFormed (walkCases cases cursor)
  | [], _, _ => .pure _
  | ⟨_, _, body⟩ :: rest, h, cursor => .bind (.branchFrom cursor) fun start =>
    .bind (walkBlock_formed body (h _ List.mem_cons_self) start) fun _ =>
      .bind (walkCases_formed rest (fun c hc => h c (.tail _ hc)) cursor) fun _ => .pure _

end

/-- The blocks of an accepted program hold well-formed items. -/
theorem formed_of_mem_items {source : String} {body : List Stmt} (h : parseProgram source = .ok body)
    {b : Nat} {item : Item} (member : item ∈ (Graph.ofProgram body).items b) : item.Formed := by
  have start : Graph.initial.AllFormed := by
    intro b item hi
    have none : ∀ block ∈ Graph.initial.blocks, block.items = [] := by simp [Graph.initial]
    cases found : Graph.initial.blocks[b]? with
    | none => simp [Graph.items, found] at hi
    | some block =>
      simp [Graph.items, found, none block (Array.mem_of_getElem? found)] at hi
  have walked := walkBlock_formed body (formed_of_parseProgram h) Graph.entry Graph.initial start
  exact PutsFormed.join _ Graph.exit _ walked b item member

end Arbiter.Flow
