import Arbiter.Proofs.Flow.Links

/-! The flow graph of a relabelled program is the flow graph of the program, with its items
relabelled. -/

namespace Arbiter.Flow

open Syntax

def Block.relabel (r : Relabeling) (b : Block) : Block :=
  { b with items := b.items.map (.relabel r) }

namespace Graph

def relabel (r : Relabeling) (g : Graph) : Graph := ⟨g.blocks.map (.relabel r)⟩

variable (r : Relabeling) (g : Graph) (a b : Nat)

@[simp] theorem size_relabel : (g.relabel r).size = g.size := by simp [size, relabel]

@[simp] theorem successors_relabel : (g.relabel r).successors b = g.successors b := by
  simp [successors, relabel, Block.relabel, Function.comp_def]

@[simp] theorem items_relabel : (g.relabel r).items b = (g.items b).map (.relabel r) := by
  cases h : g.blocks[b]? <;> simp [items, relabel, Block.relabel, h]

theorem relabel_initial : initial.relabel r = initial := by
  simp [relabel, initial, Block.relabel]

theorem relabel_addItem (item : Item) :
    (g.addItem b item).relabel r = (g.relabel r).addItem b (item.relabel r) := by
  refine congrArg Graph.mk (Array.ext_getElem? fun i => ?_)
  simp only [relabel, addItem, Array.getElem?_map, Array.getElem?_modify]
  split <;> simp [Block.relabel, Function.comp_def]

theorem relabel_join : (g.join a b).relabel r = (g.relabel r).join a b := by
  refine congrArg Graph.mk (Array.ext_getElem? fun i => ?_)
  simp only [relabel, join, Array.getElem?_map, Array.getElem?_modify]
  split <;> split <;> simp [Block.relabel, Function.comp_def]

theorem relabel_addBlock : g.addBlock.relabel r = (g.relabel r).addBlock := by
  simp [relabel, addBlock, size, Block.relabel]

end Graph

namespace Build

variable {r : Relabeling} {α β : Type}

/-- `y` does on a relabelled graph what `x` does on the graph, and its items are relabelled. -/
def Mirrors (r : Relabeling) (x y : Build α) : Prop :=
  ∀ g : Graph, y (g.relabel r) = ((x g).1, (x g).2.relabel r)

namespace Mirrors

protected theorem pure (a : α) : Mirrors r (pure a) (pure a) := fun _ => rfl

protected theorem bind {x y : Build α} {f f' : α → Build β} (h : Mirrors r x y)
    (hf : ∀ a, Mirrors r (f a) (f' a)) : Mirrors r (x >>= f) (y >>= f') := by
  intro g
  rw [bind_apply, bind_apply, h g]
  exact hf _ _

protected theorem put (b : Nat) (item : Item) :
    Mirrors r (put b item) (put b (item.relabel r)) :=
  fun g => congrArg ((), ·) (g.relabel_addItem r b item).symm

protected theorem join (a b : Nat) : Mirrors r (join a b) (join a b) :=
  fun g => congrArg ((), ·) (g.relabel_join r a b).symm

protected theorem newBlock : Mirrors r newBlock newBlock :=
  fun g => Prod.ext (g.size_relabel r) (g.relabel_addBlock r).symm

protected theorem branchFrom (b : Nat) : Mirrors r (branchFrom b) (branchFrom b) :=
  .bind .newBlock fun _ => .bind (.join _ _) fun _ => .pure _

theorem forM_join (merge : Nat) : (ends : List Nat) →
    Mirrors r (ends.forM (join · merge)) (ends.forM (join · merge))
  | [] => .pure _
  | _ :: ends => .bind (.join _ _) fun _ => forM_join merge ends

/-- The head of a loop and its two ways on: into the body and back, or behind the loop. -/
theorem loop {x x' y y' : Nat → Build Nat} (hx : ∀ c, Mirrors r (x c) (x' c))
    (hy : ∀ c, Mirrors r (y c) (y' c)) (header : Nat) :
    Mirrors r
      (do
        let bodyBlock ← branchFrom header
        let after ← branchFrom header
        let bodyEnd ← x bodyBlock
        join bodyEnd header
        y after)
      (do
        let bodyBlock ← branchFrom header
        let after ← branchFrom header
        let bodyEnd ← x' bodyBlock
        join bodyEnd header
        y' after) :=
  .bind (.branchFrom _) fun _ => .bind (.branchFrom _) fun _ => .bind (hx _) fun _ =>
    .bind (.join _ _) fun _ => hy _

end Mirrors

end Build

open Build

variable (r : Relabeling)

theorem relabel_matchHeader (subject : Expr) (cases : List MatchCase) :
    relabelStmt r (matchHeader subject cases) =
      matchHeader (relabelExpr r subject) (relabelCases r cases) := by
  have bodies : relabelCases r (cases.map fun c => { c with body := [] }) =
      (relabelCases r cases).map fun c => { c with body := [] } := by
    induction cases with
    | nil => rfl
    | cons c cases ih =>
      obtain ⟨pattern, guard, body⟩ := c
      simp only [List.map_cons, relabelCases, relabelBlock, ih]
  exact congrArg (Stmt.matchBlock _) bodies

mutual

theorem walk_relabel :
    (s : Stmt) → (cursor : Nat) → Mirrors r (walk s cursor) (walk (relabelStmt r s) cursor)
  | .branch test body [], cursor =>
    .bind (.put cursor (.expr test)) fun _ => .bind (.branchFrom cursor) fun _ =>
      .bind (walkBlock_relabel body _) fun _ => .bind (.pure cursor) fun _ =>
        .bind (.branchFrom _) fun _ => .bind (.join _ _) fun _ => .pure _
  | .branch test body (s :: rest), cursor =>
    .bind (.put cursor (.expr test)) fun _ => .bind (.branchFrom cursor) fun _ =>
      .bind (walkBlock_relabel body _) fun _ => .bind (.branchFrom cursor) fun _ =>
        .bind (walkBlock_relabel (s :: rest) _) fun _ => .bind (.branchFrom _) fun _ =>
          .bind (.join _ _) fun _ => .pure _
  | .forLoop target iter body orelse _, cursor =>
    .bind (.branchFrom cursor) fun header => .bind (.put header (.expr iter)) fun _ =>
      .bind (.put header (.expr target)) fun _ =>
        .loop (walkBlock_relabel body) (walkBlock_relabel orelse) header
  | .whileLoop test body orelse, cursor =>
    .bind (.branchFrom cursor) fun header => .bind (.put header (.expr test)) fun _ =>
      .loop (walkBlock_relabel body) (walkBlock_relabel orelse) header
  | .matchBlock subject cases, cursor => by
    have header : Mirrors r (put cursor (.stmt (matchHeader subject cases)))
        (put cursor (.stmt (matchHeader (relabelExpr r subject) (relabelCases r cases)))) := by
      rw [← relabel_matchHeader]
      exact .put cursor (.stmt _)
    exact .bind header fun _ => .bind (walkCases_relabel cases cursor) fun ends =>
      .bind (.branchFrom cursor) fun merge => .bind (.forM_join merge ends) fun _ => .pure merge
  | .functionDef _ _ body _ _ _, cursor | .classDef _ _ _ body _, cursor
  | .withBlock _ body _, cursor =>
    .bind (.put cursor (.stmt _)) fun _ => walkBlock_relabel body cursor
  | .tryBlock body handlers orelse finalbody, cursor =>
    .bind (.put cursor (.stmt _)) fun _ =>
      .bind (walkBlock_relabel body cursor) fun _ => .bind (walkHandlers_relabel handlers _)
        fun _ => .bind (walkBlock_relabel orelse _) fun _ => walkBlock_relabel finalbody _
  | .ret _, cursor | .delete _, cursor | .assign _ _, cursor | .augAssign _ _ _, cursor
  | .annAssign _ _ _, cursor | .raise _ _, cursor | .assert _ _, cursor | .imports _, cursor
  | .importFrom _ _ _, cursor | .global _, cursor | .nonlocal _, cursor | .expr _, cursor
  | .pass, cursor | .breakLoop, cursor | .continueLoop, cursor =>
    .bind (.put cursor (.stmt _)) fun _ => .pure cursor

theorem walkBlock_relabel : (body : List Stmt) → (cursor : Nat) →
    Mirrors r (walkBlock body cursor) (walkBlock (relabelBlock r body) cursor)
  | [], _ => .pure _
  | s :: rest, cursor => .bind (walk_relabel s cursor) fun next => walkBlock_relabel rest next

theorem walkHandlers_relabel : (handlers : List Handler) → (cursor : Nat) →
    Mirrors r (walkHandlers handlers cursor) (walkHandlers (relabelHandlers r handlers) cursor)
  | [], _ => .pure _
  | ⟨_, _, body⟩ :: rest, cursor =>
    .bind (walkBlock_relabel body cursor) fun next => walkHandlers_relabel rest next

theorem walkCases_relabel : (cases : List MatchCase) → (cursor : Nat) →
    Mirrors r (walkCases cases cursor) (walkCases (relabelCases r cases) cursor)
  | [], _ => .pure _
  | ⟨_, _, body⟩ :: rest, cursor =>
    .bind (.branchFrom cursor) fun start => .bind (walkBlock_relabel body start) fun _ =>
      .bind (walkCases_relabel rest cursor) fun _ => .pure _

end

/-- Relabelling a program changes neither the blocks of its graph nor how they are joined. -/
theorem Graph.ofProgram_relabel (body : List Stmt) :
    ofProgram (relabelBlock r body) = (ofProgram body).relabel r := by
  have walked := walkBlock_relabel r body entry initial
  rw [relabel_initial] at walked
  rw [ofProgram, ofProgram, walked]
  exact (relabel_join r _ _ _).symm

end Arbiter.Flow
