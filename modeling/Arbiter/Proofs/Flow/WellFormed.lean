import Arbiter.Proofs.Flow.Open

/-! The flow graph of every program has one entry and one exit, and each of its blocks lies between
them: a statement closes the open end at which it starts and leaves one new end. -/

namespace Arbiter.Flow

open Syntax Arbiter.Flow.Graph

namespace Build

variable {x : Build Nat} {cursor : Nat} {g : Graph} {ends : List Nat} {item : Item}

/-- `x` closes the open end `cursor` and leaves one new end, its value. -/
def Continues (x : Build Nat) (cursor : Nat) : Prop :=
  ∀ g ends, g.Open (cursor :: ends) → (x g).2.Open ((x g).1 :: ends) ∧ g.Extends (x g).2

namespace Continues

protected theorem pure (cursor : Nat) : Continues (pure cursor) cursor :=
  fun g _ h => ⟨h, .refl g⟩

protected theorem bind {f : Nat → Build Nat} (hx : x.Continues cursor)
    (hf : ∀ c, (f c).Continues c) : Continues (x >>= f) cursor := by
  intro g ends h
  obtain ⟨h1, e1⟩ := hx g ends h
  obtain ⟨h2, e2⟩ := hf _ _ ends h1
  exact ⟨h2, e1.trans e2⟩

protected theorem put (hx : x.Continues cursor) (item : Item) :
    Continues (do put cursor item; x) cursor := by
  intro g ends h
  obtain ⟨h1, e1⟩ := hx _ ends (h.addItem (h.end_ne cursor List.mem_cons_self) item)
  exact ⟨h1, (Extends.addItem g cursor item).trans e1⟩

/-- Two arms that part behind `cursor` and meet again. -/
protected theorem arms {x y : Nat → Build Nat} (hx : ∀ c, (x c).Continues c)
    (hy : ∀ c, (y c).Continues c) (cursor : Nat) :
    Continues (do
      let thenBlock ← branchFrom cursor
      let thenEnd ← x thenBlock
      let elseBlock ← branchFrom cursor
      let elseEnd ← y elseBlock
      let merge ← branchFrom thenEnd
      join elseEnd merge
      return merge) cursor := by
  intro g ends h
  have hlt := h.end_lt cursor List.mem_cons_self
  obtain ⟨h1, e1⟩ := hx _ _ _ (h.branchFrom hlt (h.end_ne cursor List.mem_cons_self))
  have hlt' := h1.end_lt cursor (List.mem_cons_of_mem _ List.mem_cons_self)
  obtain ⟨h2, e2⟩ := hy _ _ _ h1.swap.advance
  obtain ⟨h3, e3⟩ := h2.meet
  have first := (Extends.branchFrom hlt).trans e1
  have second := (Extends.branchFrom hlt').trans e2
  exact ⟨h3, first.trans (second.trans e3)⟩

/-- An arm that parts behind `cursor` and meets what goes on from there. -/
protected theorem arm {x : Nat → Build Nat} (hx : ∀ c, (x c).Continues c) (cursor : Nat) :
    Continues (do
      let thenBlock ← branchFrom cursor
      let thenEnd ← x thenBlock
      let merge ← branchFrom thenEnd
      join cursor merge
      return merge) cursor := by
  intro g ends h
  have hlt := h.end_lt cursor List.mem_cons_self
  obtain ⟨h1, e1⟩ := hx _ _ _ (h.branchFrom hlt (h.end_ne cursor List.mem_cons_self))
  obtain ⟨h2, e2⟩ := h1.swap.meet
  exact ⟨h2, ((Extends.branchFrom hlt).trans e1).trans e2⟩

/-- A new block behind `cursor`, from which `x` goes on. -/
protected theorem ahead {x : Nat → Build Nat} (hx : ∀ c, c ≠ entry → (x c).Continues c)
    (cursor : Nat) : Continues (do let next ← branchFrom cursor; x next) cursor := by
  intro g ends h
  have htwo := h.two_le
  obtain ⟨h1, e1⟩ := hx g.size (by simp [entry]; omega) _ _ h.advance
  exact ⟨h1, (Extends.branchFrom (h.end_lt cursor List.mem_cons_self)).trans e1⟩

/-- A loop from the block `header`: its body leads back, and the way on parts from it. -/
protected theorem loop {x y : Nat → Build Nat} (hx : ∀ c, (x c).Continues c)
    (hy : ∀ c, (y c).Continues c) {header : Nat} (hentry : header ≠ entry) :
    Continues (do
      let bodyBlock ← branchFrom header
      let after ← branchFrom header
      let bodyEnd ← x bodyBlock
      join bodyEnd header
      y after) header := by
  intro g ends h
  have hlt := h.end_lt header List.mem_cons_self
  let g1 := g.addBlock.join header g.size
  let g2 := g1.addBlock.join header g1.size
  have hlt1 : header < g1.size := by simp [g1]; omega
  have h2 : g2.Open (g.size :: g1.size :: ends) :=
    (h.branchFrom hlt (h.end_ne header List.mem_cons_self)).swap.advance.swap
  have hafter : g2.Reaches header g1.size :=
    .single ((mem_successors_join (by simp; omega)).mpr (.inr ⟨rfl, rfl⟩))
  obtain ⟨h3, e3⟩ := hx _ _ _ h2
  have e13 := (Extends.branchFrom hlt).trans ((Extends.branchFrom hlt1).trans e3)
  -- The body's end may be closed: the header it is joined to leads on to the block after the loop.
  have h4 := h3.joinTo (Nat.lt_of_lt_of_le hlt e13.size_le) hentry
    ⟨g1.size, List.mem_cons_self, hafter.extend e3⟩
  obtain ⟨h5, e5⟩ := hy _ _ _ h4
  exact ⟨h5, (e13.trans (.join (h3.end_lt _ List.mem_cons_self))).trans e5⟩

end Continues

/-- `x` leaves new ends, its values, beside those that are open. -/
def Parts (x : Build (List Nat)) (cursor : Nat) : Prop :=
  ∀ g ends, g.Open ends → cursor < g.size → cursor ≠ exit →
    (x g).2.Open ((x g).1 ++ ends) ∧ g.Extends (x g).2

namespace Parts

protected theorem nil (cursor : Nat) : Parts (pure []) cursor := fun g _ h _ _ => ⟨h, .refl g⟩

protected theorem cons {x : Nat → Build Nat} {y : Build (List Nat)}
    (hx : ∀ c, (x c).Continues c) (hy : y.Parts cursor) :
    Parts (do
      let start ← branchFrom cursor
      let last ← x start
      let more ← y
      return last :: more) cursor := by
  intro g ends h hlt hne
  obtain ⟨h1, e1⟩ := hx _ _ _ (h.branchFrom hlt hne)
  have e01 := (Extends.branchFrom hlt).trans e1
  obtain ⟨h2, e2⟩ := hy _ _ h1 (Nat.lt_of_lt_of_le hlt e01.size_le) hne
  refine ⟨h2.congr fun e => ?_, e01.trans e2⟩
  simp only [bind_apply, branchFrom_apply, pure_apply, List.mem_append, List.mem_cons]
  rw [or_assoc]
  exact or_left_comm

end Parts

/-- Joins ends to the end `merge`. -/
theorem forM_join_open {merge : Nat} (hmerge : merge < g.size) (hentry : merge ≠ entry)
    (lasts : List Nat) (h : g.Open (lasts ++ merge :: ends)) :
    ((lasts.forM (join · merge) : Build Unit) g).2.Open (merge :: ends) ∧
      g.Extends ((lasts.forM (join · merge) : Build Unit) g).2 := by
  induction lasts generalizing g with
  | nil => exact ⟨h, .refl g⟩
  | cons last rest ih =>
    have hlast := h.end_lt last List.mem_cons_self
    have h1 := h.joinTo hmerge hentry
      ⟨merge, List.mem_append_right _ List.mem_cons_self, .refl merge⟩
    obtain ⟨h2, e2⟩ := ih (by simpa using hmerge) h1
    exact ⟨h2, (Extends.join hlast).trans e2⟩

/-- Cases part behind `cursor`, and all of them meet the way on from there. -/
theorem Parts.meet {x : Build (List Nat)} {cursor : Nat} (hx : x.Parts cursor) :
    Continues (do
      let ends ← x
      let merge ← branchFrom cursor
      ends.forM (join · merge)
      return merge) cursor := by
  intro g ends h
  have hlt := h.end_lt cursor List.mem_cons_self
  obtain ⟨h1, e1⟩ := hx _ _ h hlt (h.end_ne cursor List.mem_cons_self)
  have htwo := h1.two_le
  have hlt1 : cursor < (x g).2.size := Nat.lt_of_lt_of_le hlt e1.size_le
  have h2 : Graph.Open _ (cursor :: ((x g).1 ++ ends)) := h1.congr fun e => by
    simp only [List.mem_cons, List.mem_append]
    exact or_left_comm
  have h3 : Graph.Open _ ((x g).1 ++ (x g).2.size :: ends) := h2.advance.congr fun e => by
    simp only [List.mem_cons, List.mem_append]
    exact or_left_comm
  obtain ⟨h4, e4⟩ := forM_join_open (by simp) (by simp [entry]; omega) _ h3
  exact ⟨h4, (e1.trans (.branchFrom hlt1)).trans e4⟩

end Build

open Build

mutual

/-- Every statement closes the end at which it starts and leaves one new end. -/
theorem walk_continues : (s : Stmt) → (cursor : Nat) → (walk s cursor).Continues cursor
  | .branch test body [], cursor => .put (.arm (walkBlock_continues body) cursor) (.expr test)
  | .branch test body (s :: rest), cursor =>
    .put (.arms (walkBlock_continues body) (walkBlock_continues (s :: rest)) cursor) (.expr test)
  | .forLoop target iter body orelse _, cursor =>
    .ahead (fun _ hne =>
      .put (.put (.loop (walkBlock_continues body) (walkBlock_continues orelse) hne) (.expr target))
        (.expr iter)) cursor
  | .whileLoop test body orelse, cursor =>
    .ahead (fun _ hne =>
      .put (.loop (walkBlock_continues body) (walkBlock_continues orelse) hne) (.expr test)) cursor
  | .matchBlock subject cases, cursor =>
    .put (walkCases_parts cases cursor).meet (.stmt (matchHeader subject cases))
  | .functionDef _ _ body _ _ _, cursor | .classDef _ _ _ body _, cursor
  | .withBlock _ body _, cursor => .put (walkBlock_continues body cursor) _
  | .tryBlock body handlers orelse finalbody, cursor =>
    .put (.bind (walkBlock_continues body cursor) fun c => .bind (walkHandlers_continues handlers c)
      fun c => .bind (walkBlock_continues orelse c) fun c => walkBlock_continues finalbody c) _
  | .ret _, cursor | .delete _, cursor | .assign _ _, cursor | .augAssign _ _ _, cursor
  | .annAssign _ _ _, cursor | .raise _ _, cursor | .assert _ _, cursor | .imports _, cursor
  | .importFrom _ _ _, cursor | .global _, cursor | .nonlocal _, cursor | .expr _, cursor
  | .pass, cursor | .breakLoop, cursor | .continueLoop, cursor => .put (.pure cursor) _

theorem walkBlock_continues :
    (body : List Stmt) → (cursor : Nat) → (walkBlock body cursor).Continues cursor
  | [], cursor => .pure cursor
  | s :: rest, cursor => .bind (walk_continues s cursor) fun c => walkBlock_continues rest c

theorem walkHandlers_continues :
    (handlers : List Handler) → (cursor : Nat) → (walkHandlers handlers cursor).Continues cursor
  | [], cursor => .pure cursor
  | ⟨_, _, body⟩ :: rest, cursor =>
    .bind (walkBlock_continues body cursor) fun c => walkHandlers_continues rest c

theorem walkCases_parts :
    (cases : List MatchCase) → (cursor : Nat) → (walkCases cases cursor).Parts cursor
  | [], cursor => .nil cursor
  | ⟨_, _, body⟩ :: rest, cursor =>
    .cons (walkBlock_continues body) (walkCases_parts rest cursor)

end

namespace Graph

theorem wellFormed_ofProgram (body : List Stmt) : (ofProgram body).WellFormed :=
  (walkBlock_continues body entry initial [] initial_open).1.finish

/-- The graph of a program has one entry and one exit, and its links are sound: each block carries
its place as its number, the two directions of the links agree, no block is linked twice to another
or to a missing one, the exit is bare and leads nowhere, nothing leads to the entry, and every block
lies between the two. -/
theorem ofProgram_single_entry_single_exit (body : List Stmt) :
    let g := ofProgram body
    exit < g.size ∧ entry < g.size ∧
    (∀ b (hb : b < g.blocks.size), g.blocks[b].id = b) ∧
    (∀ a b, a ∈ g.predecessors b ↔ b ∈ g.successors a) ∧
    (∀ b, (g.successors b).Nodup ∧ (g.predecessors b).Nodup) ∧
    (∀ a b, b ∈ g.successors a → a < g.size ∧ b < g.size) ∧
    g.items exit = [] ∧ g.successors exit = [] ∧ g.predecessors entry = [] ∧
    (∀ b < g.size, g.Reaches entry b) ∧ (∀ b < g.size, g.Reaches b exit) ∧
    ∀ b < g.size, b ≠ exit → g.successors b ≠ [] := by
  intro g
  have h : g.WellFormed := wellFormed_ofProgram body
  have hid : ∀ b (hb : b < g.blocks.size), g.blocks[b].id = b := fun b hb =>
    h.id_eq b _ (Array.getElem?_eq_getElem hb)
  exact ⟨Nat.lt_of_lt_of_le (by decide) h.two_le, Nat.lt_of_lt_of_le (by decide) h.two_le, hid,
    h.mem_iff, fun b => ⟨h.successors_nodup b, h.predecessors_nodup b⟩,
    fun a b hb => ⟨lt_of_mem_successors hb, h.successor_lt a b hb⟩, h.exit_items, h.exit_successors,
    h.entry_predecessors, h.from_entry, h.to_exit, fun b hb => h.successors_ne_nil hb⟩

end Graph

end Arbiter.Flow
