import Arbiter.Flow.Graph

/-! Paths in flow graphs, the ways that a run can take along the links, and what adding blocks, items and
joins does to the blocks of a flow graph, and what the steps of a build do to the graph. -/

namespace Arbiter.Flow.Graph

/-- A run can go from `a` to `b` through `blocks`, which hold both ends. -/
inductive Path (g : Graph) : Nat → Nat → List Nat → Prop
  | here (a : Nat) : Path g a a [a]
  | step {a next b : Nat} {blocks : List Nat} :
      next ∈ g.successors a → Path g next b blocks → Path g a b (a :: blocks)

/-- A run can go from `a` to `b`, which may be the same block. -/
def Reaches (g : Graph) (a b : Nat) : Prop := ∃ blocks, g.Path a b blocks

variable {g g' : Graph} {a b c next : Nat} {blocks : List Nat}

namespace Path

theorem head (h : g.Path a b blocks) : ∃ rest, blocks = a :: rest := by
  cases h with
  | here => exact ⟨[], rfl⟩
  | step _ _ => exact ⟨_, rfl⟩

theorem target_mem (h : g.Path a b blocks) : b ∈ blocks := by
  induction h with
  | here a => exact List.mem_cons_self
  | step _ _ ih => exact List.mem_cons_of_mem _ ih

theorem snoc (h : g.Path a b blocks) (hnext : next ∈ g.successors b) :
    g.Path a next (blocks ++ [next]) := by
  induction h with
  | here a => exact .step hnext (.here next)
  | step hs _ ih => exact .step hs (ih hnext)

theorem trans {more : List Nat} (h : g.Path a b blocks) (hmore : g.Path b c (b :: more)) :
    g.Path a c (blocks ++ more) := by
  induction h with
  | here a => exact hmore
  | step hs _ ih => exact .step hs (ih hmore)

/-- A path in a graph is one in every graph that has the same links and more. -/
theorem mono (h : g.Path a b blocks) (hsub : ∀ x y, y ∈ g.successors x → y ∈ g'.successors x) :
    g'.Path a b blocks := by
  induction h with
  | here a => exact .here a
  | step hs _ ih => exact .step (hsub _ _ hs) ih

/-- A path of several blocks ends with a link. -/
theorem last (h : g.Path a b (a :: blocks ++ [b])) : ∃ p, g.Path a p (a :: blocks) ∧
    b ∈ g.successors p := by
  induction blocks generalizing a with
  | nil =>
    cases h with
    | step hs hrest =>
      cases hrest with
      | here => exact ⟨a, .here a, hs⟩
      | step _ hrest => cases hrest
  | cons next rest ih =>
    cases h with
    | step hs hrest =>
      obtain ⟨_, heq⟩ := hrest.head
      obtain rfl : next = _ := (List.cons.inj heq).1
      obtain ⟨p, hp, hb⟩ := ih hrest
      exact ⟨p, .step hs hp, hb⟩

end Path

namespace Reaches

theorem refl (a : Nat) : g.Reaches a a := ⟨[a], .here a⟩

theorem single (h : b ∈ g.successors a) : g.Reaches a b := ⟨[a, b], .step h (.here b)⟩

theorem trans (hab : g.Reaches a b) (hbc : g.Reaches b c) : g.Reaches a c := by
  obtain ⟨blocks, hab⟩ := hab
  obtain ⟨more, hbc⟩ := hbc
  obtain ⟨rest, rfl⟩ := hbc.head
  exact ⟨blocks ++ rest, hab.trans hbc⟩

theorem mono (h : g.Reaches a b) (hsub : ∀ x y, y ∈ g.successors x → y ∈ g'.successors x) :
    g'.Reaches a b := by
  obtain ⟨blocks, h⟩ := h
  exact ⟨blocks, h.mono hsub⟩

end Reaches

end Arbiter.Flow.Graph

/-! Blocks, items and joins. -/

namespace Arbiter.Flow

namespace Graph

variable {g : Graph} {a b s t : Nat} {item : Item}

@[simp] theorem mem_insertNew {n m : Nat} {ns : List Nat} :
    m ∈ insertNew n ns ↔ m ∈ ns ∨ m = n := by
  unfold insertNew
  split
  · constructor
    · exact .inl
    · rintro (h | rfl)
      · exact h
      · simpa using ‹ns.contains m = true›
  · simp

theorem nodup_insertNew {n : Nat} {ns : List Nat} (h : ns.Nodup) : (insertNew n ns).Nodup := by
  unfold insertNew
  split
  · exact h
  · have hn : n ∉ ns := by simpa using ‹¬ns.contains n = true›
    rw [List.nodup_append]
    refine ⟨h, by simp, fun x hx y hy => ?_⟩
    obtain rfl : y = n := by simpa using hy
    exact fun hxy => hn (hxy ▸ hx)

theorem lt_of_mem_successors (h : b ∈ g.successors a) : a < g.size := by
  refine Nat.lt_of_not_le fun hn => ?_
  rw [successors, Array.getElem?_eq_none hn] at h
  simp at h

section AddItem

@[simp] theorem size_addItem : (g.addItem b item).size = g.size := by simp [size, addItem]

@[simp] theorem successors_addItem : (g.addItem b item).successors a = g.successors a := by
  simp only [successors, addItem, Array.getElem?_modify]
  split <;> simp [Function.comp_def]

@[simp] theorem predecessors_addItem : (g.addItem b item).predecessors a = g.predecessors a := by
  simp only [predecessors, addItem, Array.getElem?_modify]
  split <;> simp [Function.comp_def]

theorem items_addItem_of_ne (h : b ≠ a) : (g.addItem b item).items a = g.items a := by
  simp [items, addItem, Array.getElem?_modify, h]

end AddItem

section AddBlock

@[simp] theorem size_addBlock : g.addBlock.size = g.size + 1 := by simp [size, addBlock]

theorem getElem?_addBlock :
    g.addBlock.blocks[a]? = if a = g.size then some { id := g.size } else g.blocks[a]? := by
  rw [addBlock, Array.getElem?_push]
  rfl

@[simp] theorem successors_addBlock : g.addBlock.successors a = g.successors a := by
  rw [successors, getElem?_addBlock, successors]
  split
  · simp [*, size]
  · rfl

@[simp] theorem predecessors_addBlock : g.addBlock.predecessors a = g.predecessors a := by
  rw [predecessors, getElem?_addBlock, predecessors]
  split
  · simp [*, size]
  · rfl

@[simp] theorem items_addBlock : g.addBlock.items a = g.items a := by
  rw [items, getElem?_addBlock, items]
  split
  · simp [*, size]
  · rfl

end AddBlock

section Join

@[simp] theorem size_join : (g.join s t).size = g.size := by simp [size, join]

theorem getElem?_join : (g.join s t).blocks[a]? = g.blocks[a]?.map fun b =>
    { b with
      successors := if a = s then insertNew t b.successors else b.successors
      predecessors := if a = t then insertNew s b.predecessors else b.predecessors } := by
  simp only [join, Array.getElem?_modify]
  by_cases hs : s = a <;> by_cases ht : t = a
  · simp [hs, ht, Function.comp_def]
  · simp [hs, ht, Ne.symm ht]
  · simp [hs, ht, Ne.symm hs]
  · simp [hs, ht, Ne.symm hs, Ne.symm ht]

@[simp] theorem items_join : (g.join s t).items a = g.items a := by
  simp only [items, getElem?_join, Option.map_map, Function.comp_def]

theorem successors_join (hs : s < g.size) : (g.join s t).successors a =
    if a = s then insertNew t (g.successors a) else g.successors a := by
  simp only [successors, getElem?_join, Option.map_map, Function.comp_def]
  split
  · subst a
    simp [Array.getElem?_eq_getElem hs]
  · rfl

theorem predecessors_join (ht : t < g.size) : (g.join s t).predecessors a =
    if a = t then insertNew s (g.predecessors a) else g.predecessors a := by
  simp only [predecessors, getElem?_join, Option.map_map, Function.comp_def]
  split
  · subst a
    simp [Array.getElem?_eq_getElem ht]
  · rfl

theorem mem_successors_join (hs : s < g.size) :
    b ∈ (g.join s t).successors a ↔ b ∈ g.successors a ∨ a = s ∧ b = t := by
  rw [successors_join hs]
  split <;> simp [*]

theorem mem_predecessors_join (ht : t < g.size) :
    b ∈ (g.join s t).predecessors a ↔ b ∈ g.predecessors a ∨ a = t ∧ b = s := by
  rw [predecessors_join ht]
  split <;> simp [*]

end Join

end Graph

namespace Build

@[simp] theorem pure_apply (a : α) (g : Graph) : (pure a : Build α) g = (a, g) := rfl

@[simp] theorem bind_apply (x : Build α) (f : α → Build β) (g : Graph) :
    (x >>= f) g = f (x g).1 (x g).2 := rfl

@[simp] theorem branchFrom_apply (b : Nat) (g : Graph) :
    branchFrom b g = (g.size, g.addBlock.join b g.size) := rfl

end Build

end Arbiter.Flow
