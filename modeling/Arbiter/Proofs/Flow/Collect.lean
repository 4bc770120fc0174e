import Arbiter.Proofs.Flow.Links

/-! A flow graph holds its program once, and in order. Main statement: the items of all blocks are those
that the program reads from its first line to its last, each as often as there, and the items of one
block stand in it as they do in the program. -/

namespace Arbiter.Flow

open Syntax

mutual

/-- The items of a statement as they follow each other in the source: what drives a branch or loop,
the head of a `match`, any other statement itself, each before the items of the bodies inside. -/
def collect : Stmt → List Item
  | .branch test body orelse => .expr test :: (collectBlock body ++ collectBlock orelse)
  | .forLoop target iter body orelse _ =>
    .expr iter :: .expr target :: (collectBlock body ++ collectBlock orelse)
  | .whileLoop test body orelse => .expr test :: (collectBlock body ++ collectBlock orelse)
  | .matchBlock subject cases => .stmt (matchHeader subject cases) :: collectCases cases
  | .functionDef name params body decorators returns isAsync =>
    .stmt (.functionDef name params body decorators returns isAsync) :: collectBlock body
  | .classDef name bases keywords body decorators =>
    .stmt (.classDef name bases keywords body decorators) :: collectBlock body
  | .withBlock items body isAsync => .stmt (.withBlock items body isAsync) :: collectBlock body
  | .tryBlock body handlers orelse finalbody =>
    .stmt (.tryBlock body handlers orelse finalbody) ::
      (collectBlock body ++ collectHandlers handlers ++ collectBlock orelse ++ collectBlock finalbody)
  | s => [.stmt s]

def collectBlock : List Stmt → List Item
  | [] => []
  | s :: rest => collect s ++ collectBlock rest

def collectHandlers : List Handler → List Item
  | [] => []
  | ⟨_, _, body⟩ :: rest => collectBlock body ++ collectHandlers rest

def collectCases : List MatchCase → List Item
  | [] => []
  | ⟨_, _, body⟩ :: rest => collectBlock body ++ collectCases rest

end

namespace Graph

variable {g g' g'' : Graph} {items new more : List Item} {item : Item} {b : Nat}

/-- The items of all blocks, block after block. -/
def allItems (g : Graph) : List Item := g.blocks.toList.flatMap (·.items)

/-- The blocks share `items` out among them: each item is in one block, and no block changes their
order. -/
structure Shares (g : Graph) (items : List Item) : Prop where
  perm : g.allItems.Perm items
  sublist : ∀ b, (g.items b).Sublist items

/-- What `g` shares out, `g'` shares out with `new` behind it. -/
structure Gains (g g' : Graph) (new : List Item) : Prop where
  size_le : g.size ≤ g'.size
  shares : ∀ items, g.Shares items → g'.Shares (items ++ new)

theorem flatMap_modify_of_items_eq {f : Block → Block} (hf : ∀ block, (f block).items = block.items)
    (blocks : List Block) (b : Nat) :
    (blocks.modify b f).flatMap (·.items) = blocks.flatMap (·.items) := by
  induction blocks generalizing b with
  | nil => simp
  | cons block rest ih =>
    cases b with
    | zero => simp [hf]
    | succ b => simp [ih]

theorem allItems_join (s t : Nat) : (g.join s t).allItems = g.allItems := by
  simp only [allItems, join, Array.toList_modify]
  rw [flatMap_modify_of_items_eq, flatMap_modify_of_items_eq] <;> exact fun _ => rfl

theorem allItems_addBlock : g.addBlock.allItems = g.allItems := by
  simp [allItems, addBlock]

/-- An item put into one block is one more item of all of them. -/
theorem perm_flatMap_put {blocks : List Block} (hb : b < blocks.length) :
    ((blocks.modify b fun block => { block with items := block.items ++ [item] }).flatMap
      (·.items)).Perm (blocks.flatMap (·.items) ++ [item]) := by
  induction blocks generalizing b with
  | nil => simp at hb
  | cons block rest ih =>
    cases b with
    | zero =>
      simp only [List.modify_zero_cons, List.flatMap_cons, List.append_assoc]
      exact List.perm_append_comm.append_left block.items
    | succ b =>
      simp only [List.modify_succ_cons, List.flatMap_cons, List.append_assoc]
      exact (ih (by simpa using hb)).append_left block.items

theorem items_addItem_self (hb : b < g.size) : (g.addItem b item).items b = g.items b ++ [item] := by
  simp only [Graph.items, addItem, Array.getElem?_modify, if_true]
  simp [Array.getElem?_eq_getElem (show b < g.blocks.size from hb)]

namespace Gains

theorem refl (g : Graph) : g.Gains g [] := ⟨Nat.le_refl _, fun _ h => by simpa using h⟩

theorem trans (h : g.Gains g' new) (h' : g'.Gains g'' more) : g.Gains g'' (new ++ more) where
  size_le := Nat.le_trans h.size_le h'.size_le
  shares items hs := by
    have all := h'.shares _ (h.shares items hs)
    rwa [List.append_assoc] at all

theorem addItem (hb : b < g.size) (item : Item) : g.Gains (g.addItem b item) [item] where
  size_le := by simp
  shares items hs := by
    refine ⟨?_, fun a => ?_⟩
    · have put : (g.addItem b item).allItems.Perm (g.allItems ++ [item]) := by
        simp only [allItems, Graph.addItem, Array.toList_modify]
        exact perm_flatMap_put hb
      exact put.trans (hs.perm.append_right [item])
    · by_cases same : b = a
      · subst same
        rw [items_addItem_self hb]
        exact (hs.sublist b).append (.refl [item])
      · rw [items_addItem_of_ne same]
        exact (hs.sublist a).trans (List.sublist_append_left items [item])

theorem join (s t : Nat) : g.Gains (g.join s t) [] where
  size_le := by simp
  shares items hs := by
    rw [List.append_nil]
    exact ⟨by rw [allItems_join]; exact hs.perm, fun b => by rw [items_join]; exact hs.sublist b⟩

theorem addBlock : g.Gains g.addBlock [] where
  size_le := by simp
  shares items hs := by
    rw [List.append_nil]
    exact ⟨by rw [allItems_addBlock]; exact hs.perm, fun b => by rw [items_addBlock]; exact hs.sublist b⟩

/-- What adds nothing may come behind. -/
theorem idle (h : g.Gains g' new) (h' : g'.Gains g'' []) : g.Gains g'' new := by
  have both := h.trans h'
  rwa [List.append_nil] at both

theorem branchFrom (b : Nat) : g.Gains (g.addBlock.join b g.size) [] := addBlock.idle (.join b g.size)

theorem meet (a b : Nat) : g.Gains ((g.addBlock.join a g.size).join b g.size) [] :=
  (branchFrom a).idle (.join b g.size)

end Gains

theorem size_lt_size_branch (a : Nat) : g.size < (g.addBlock.join a g.size).size := by simp

theorem size_lt_size_meet (a b : Nat) : g.size < ((g.addBlock.join a g.size).join b g.size).size := by
  simp

end Graph

namespace Build

variable {cursor : Nat} {new more : List Item}

/-- From the block `cursor` on, `x` adds the items `new`; its value is a block too. -/
def Adds (x : Build Nat) (cursor : Nat) (new : List Item) : Prop :=
  ∀ g : Graph, cursor < g.size → g.Gains (x g).2 new ∧ (x g).1 < (x g).2.size

namespace Adds

protected theorem pure (cursor : Nat) : Adds (pure cursor) cursor [] := fun g h => ⟨.refl g, h⟩

protected theorem bind {x : Build Nat} {f : Nat → Build Nat} (hx : x.Adds cursor new)
    (hf : ∀ c, (f c).Adds c more) : Adds (x >>= f) cursor (new ++ more) := by
  intro g h
  obtain ⟨g1, h1⟩ := hx g h
  obtain ⟨g2, h2⟩ := hf _ _ h1
  exact ⟨g1.trans g2, h2⟩

protected theorem put {x : Build Nat} (hx : x.Adds cursor new) (item : Item) :
    Adds (do put cursor item; x) cursor (item :: new) := by
  intro g h
  obtain ⟨g1, h1⟩ := hx (g.addItem cursor item) (by simpa using h)
  exact ⟨(Graph.Gains.addItem h item).trans g1, h1⟩

/-- What is added behind a new block. -/
protected theorem ahead {x : Nat → Build Nat} (hx : ∀ c, (x c).Adds c new) (cursor : Nat) :
    Adds (do let next ← branchFrom cursor; x next) cursor new := by
  intro g _
  obtain ⟨g1, h1⟩ := hx g.size (g.addBlock.join cursor g.size) (by simp)
  exact ⟨(Graph.Gains.branchFrom cursor).trans g1, h1⟩

/-- Two arms that part behind `cursor` add their items one after the other. -/
protected theorem arms {x y : Nat → Build Nat} (hx : ∀ c, (x c).Adds c new)
    (hy : ∀ c, (y c).Adds c more) (cursor : Nat) :
    Adds (do
      let thenBlock ← branchFrom cursor
      let thenEnd ← x thenBlock
      let elseBlock ← branchFrom cursor
      let elseEnd ← y elseBlock
      let merge ← branchFrom thenEnd
      join elseEnd merge
      return merge) cursor (new ++ more) := by
  intro g h
  obtain ⟨g1, -⟩ := Adds.ahead hx cursor g h
  obtain ⟨g2, -⟩ := Adds.ahead hy cursor _ (Nat.lt_of_lt_of_le h g1.size_le)
  exact ⟨(g1.trans g2).idle (.meet _ _), Graph.size_lt_size_meet _ _⟩

protected theorem arm {x : Nat → Build Nat} (hx : ∀ c, (x c).Adds c new) (cursor : Nat) :
    Adds (do
      let thenBlock ← branchFrom cursor
      let thenEnd ← x thenBlock
      let merge ← branchFrom thenEnd
      join cursor merge
      return merge) cursor new := by
  intro g h
  obtain ⟨g1, -⟩ := Adds.ahead hx cursor g h
  exact ⟨g1.idle (.meet _ _), Graph.size_lt_size_meet _ _⟩

/-- A loop adds what its body adds, and then what follows it. -/
protected theorem loop {x y : Nat → Build Nat} (hx : ∀ c, (x c).Adds c new)
    (hy : ∀ c, (y c).Adds c more) (header : Nat) :
    Adds (do
      let bodyBlock ← branchFrom header
      let after ← branchFrom header
      let bodyEnd ← x bodyBlock
      join bodyEnd header
      y after) header (new ++ more) := by
  intro g _
  let g1 := g.addBlock.join header g.size
  let g2 := g1.addBlock.join header g1.size
  have open2 : g.Gains g2 [] := (Graph.Gains.branchFrom header).idle (.branchFrom header)
  have inside : g.size < g2.size :=
    Nat.lt_trans (Graph.size_lt_size_branch header) (Graph.size_lt_size_branch header)
  obtain ⟨g3, -⟩ := hx g.size g2 inside
  have closed := (open2.trans g3).idle (.join (x g.size g2).1 header)
  have after_lt : g1.size < (x g.size g2).2.size :=
    Nat.lt_of_lt_of_le (Graph.size_lt_size_branch header) g3.size_le
  obtain ⟨g4, h4⟩ := hy g1.size (((x g.size g2).2).join (x g.size g2).1 header) (by simpa using after_lt)
  exact ⟨closed.trans g4, h4⟩

end Adds

/-- `x` adds the items `new` and ends in several blocks. -/
def AddsInParts (x : Build (List Nat)) (cursor : Nat) (new : List Item) : Prop :=
  ∀ g : Graph, cursor < g.size → g.Gains (x g).2 new

namespace AddsInParts

protected theorem nil (cursor : Nat) : AddsInParts (pure []) cursor [] := fun g _ => .refl g

protected theorem cons {x : Nat → Build Nat} {y : Build (List Nat)} (hx : ∀ c, (x c).Adds c new)
    (hy : y.AddsInParts cursor more) :
    AddsInParts (do
      let start ← branchFrom cursor
      let last ← x start
      let rest ← y
      return last :: rest) cursor (new ++ more) := by
  intro g h
  obtain ⟨g1, -⟩ := Adds.ahead hx cursor g h
  exact g1.trans (hy _ (Nat.lt_of_lt_of_le h g1.size_le))

theorem gains_forM_join (merge : Nat) (ends : List Nat) (g : Graph) :
    g.Gains ((ends.forM (join · merge) : Build Unit) g).2 [] := by
  induction ends generalizing g with
  | nil => exact .refl g
  | cons last rest ih => exact (Graph.Gains.join last merge).idle (ih _)

/-- The parts meet, which adds nothing. -/
theorem meet {x : Build (List Nat)} (hx : x.AddsInParts cursor new) :
    Adds (do
      let ends ← x
      let merge ← branchFrom cursor
      ends.forM (join · merge)
      return merge) cursor new := by
  intro g h
  have met := gains_forM_join (x g).2.size (x g).1 ((x g).2.addBlock.join cursor (x g).2.size)
  exact ⟨((hx g h).idle (.branchFrom cursor)).idle met,
    Nat.lt_of_lt_of_le (Graph.size_lt_size_branch cursor) met.size_le⟩

end AddsInParts

end Build

open Build

mutual

/-- A statement adds its items to the graph, whatever is there. -/
theorem walk_adds : (s : Stmt) → (cursor : Nat) → (walk s cursor).Adds cursor (collect s)
  | .branch test body [], cursor => by
    rw [collect, collectBlock, List.append_nil]
    exact .put (.arm (walkBlock_adds body) cursor) (.expr test)
  | .branch test body (s :: rest), cursor =>
    .put (.arms (walkBlock_adds body) (walkBlock_adds (s :: rest)) cursor) (.expr test)
  | .forLoop target iter body orelse _, cursor =>
    .ahead (fun header =>
      .put (.put (.loop (walkBlock_adds body) (walkBlock_adds orelse) header) (.expr target))
        (.expr iter)) cursor
  | .whileLoop test body orelse, cursor =>
    .ahead (fun header =>
      .put (.loop (walkBlock_adds body) (walkBlock_adds orelse) header) (.expr test)) cursor
  | .matchBlock subject cases, cursor =>
    .put (walkCases_adds cases cursor).meet (.stmt (matchHeader subject cases))
  | .functionDef _ _ body _ _ _, cursor | .classDef _ _ _ body _, cursor
  | .withBlock _ body _, cursor => .put (walkBlock_adds body cursor) _
  | .tryBlock body handlers orelse finalbody, cursor => by
    rw [collect, List.append_assoc, List.append_assoc]
    exact .put (.bind (walkBlock_adds body cursor) fun c => .bind (walkHandlers_adds handlers c)
      fun c => .bind (walkBlock_adds orelse c) fun c => walkBlock_adds finalbody c) _
  | .ret _, cursor | .delete _, cursor | .assign _ _, cursor | .augAssign _ _ _, cursor
  | .annAssign _ _ _, cursor | .raise _ _, cursor | .assert _ _, cursor | .imports _, cursor
  | .importFrom _ _ _, cursor | .global _, cursor | .nonlocal _, cursor | .expr _, cursor
  | .pass, cursor | .breakLoop, cursor | .continueLoop, cursor => .put (.pure cursor) _

theorem walkBlock_adds :
    (body : List Stmt) → (cursor : Nat) → (walkBlock body cursor).Adds cursor (collectBlock body)
  | [], cursor => .pure cursor
  | s :: rest, cursor => .bind (walk_adds s cursor) fun c => walkBlock_adds rest c

theorem walkHandlers_adds : (handlers : List Handler) → (cursor : Nat) →
    (walkHandlers handlers cursor).Adds cursor (collectHandlers handlers)
  | [], cursor => .pure cursor
  | ⟨_, _, body⟩ :: rest, cursor =>
    .bind (walkBlock_adds body cursor) fun c => walkHandlers_adds rest c

theorem walkCases_adds : (cases : List MatchCase) → (cursor : Nat) →
    (walkCases cases cursor).AddsInParts cursor (collectCases cases)
  | [], cursor => .nil cursor
  | ⟨_, _, body⟩ :: rest, cursor => .cons (walkBlock_adds body) (walkCases_adds rest cursor)

end

namespace Graph

theorem initial_shares : initial.Shares [] where
  perm := .refl []
  sublist b :=
    match b with
    | 0 | 1 | _ + 2 => .refl []

theorem ofProgram_shares (body : List Stmt) : (ofProgram body).Shares (collectBlock body) := by
  obtain ⟨walked, -⟩ := walkBlock_adds body entry initial (by decide)
  exact (walked.idle (.join _ exit)).shares [] initial_shares

/-- The blocks of a flow graph hold the items of the program, each as often as the source has it,
and the items of each single block follow each other as in the source. -/
theorem items_conserved (body : List Stmt) :
    ((ofProgram body).blocks.toList.flatMap (·.items)).Perm (collectBlock body) ∧
    ∀ block ∈ (ofProgram body).blocks, block.items.Sublist (collectBlock body) := by
  have h := ofProgram_shares body
  refine ⟨h.perm, fun block member => ?_⟩
  obtain ⟨b, found⟩ := Array.mem_iff_getElem?.mp member
  have ordered := h.sublist b
  rwa [Graph.items, found] at ordered

end Graph

end Arbiter.Flow
