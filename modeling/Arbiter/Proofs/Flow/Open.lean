import Arbiter.Proofs.Flow.Links

/-! Flow graphs with open ends. While a graph is built some blocks are open ends: from every block
but the exit a run can come to one of them. Each step keeps this and says which ends are open after
it. When the last end is joined to the exit every block lies between the entry and the exit. -/

namespace Arbiter.Flow.Graph

/-- What every step in building a graph keeps: both directions of the links agree, nothing is linked
twice, and the exit and the entry stand at the ends. -/
structure Linked (g : Graph) : Prop where
  two_le : 2 ≤ g.size
  id_eq : ∀ b (block : Block), g.blocks[b]? = some block → block.id = b
  mem_iff : ∀ a b, a ∈ g.predecessors b ↔ b ∈ g.successors a
  successor_lt : ∀ a b, b ∈ g.successors a → b < g.size
  predecessor_lt : ∀ a b, a ∈ g.predecessors b → a < g.size
  successors_nodup : ∀ b, (g.successors b).Nodup
  predecessors_nodup : ∀ b, (g.predecessors b).Nodup
  exit_items : g.items exit = []
  exit_successors : g.successors exit = []
  entry_predecessors : g.predecessors entry = []

/-- A graph in the making with open ends `ends`. -/
structure Open (g : Graph) (ends : List Nat) : Prop extends Linked g where
  end_lt : ∀ e ∈ ends, e < g.size
  end_ne : ∀ e ∈ ends, e ≠ exit
  from_entry : ∀ b < g.size, b ≠ exit → g.Reaches entry b
  to_end : ∀ b < g.size, b ≠ exit → ∃ e ∈ ends, g.Reaches b e

/-- A finished graph: every block lies between the entry and the exit. -/
structure WellFormed (g : Graph) : Prop extends Linked g where
  from_entry : ∀ b < g.size, g.Reaches entry b
  to_exit : ∀ b < g.size, g.Reaches b exit

/-- `g'` has the blocks and links of `g` and maybe more. -/
structure Extends (g g' : Graph) : Prop where
  size_le : g.size ≤ g'.size
  keeps : ∀ a b, b ∈ g.successors a → b ∈ g'.successors a

variable {g g' g'' : Graph} {a b : Nat} {ends : List Nat} {item : Item}

namespace Extends

theorem refl (g : Graph) : g.Extends g := ⟨Nat.le_refl _, fun _ _ h => h⟩

theorem trans (h : g.Extends g') (h' : g'.Extends g'') : g.Extends g'' :=
  ⟨Nat.le_trans h.size_le h'.size_le, fun a b hb => h'.keeps a b (h.keeps a b hb)⟩

theorem addItem (g : Graph) (b : Nat) (item : Item) : g.Extends (g.addItem b item) :=
  ⟨by simp, fun _ _ h => by simpa using h⟩

theorem addBlock (g : Graph) : g.Extends g.addBlock := ⟨by simp, fun _ _ h => by simpa using h⟩

theorem join (ha : a < g.size) : g.Extends (g.join a b) :=
  ⟨by simp, fun _ _ h => (mem_successors_join ha).mpr (.inl h)⟩

theorem branchFrom (hb : b < g.size) : g.Extends (g.addBlock.join b g.size) :=
  (addBlock g).trans (.join (by simp; omega))

end Extends

theorem Reaches.extend (h : g.Reaches a b) (hext : g.Extends g') : g'.Reaches a b :=
  h.mono hext.keeps

namespace Linked

theorem addItem (h : g.Linked) (hb : b ≠ exit) : (g.addItem b item).Linked where
  two_le := by simpa using h.two_le
  id_eq c block hc := by
    simp only [Graph.addItem, Array.getElem?_modify] at hc
    split at hc
    · obtain ⟨old, hold, rfl⟩ := Option.map_eq_some_iff.mp hc
      exact h.id_eq c old hold
    · exact h.id_eq c block hc
  mem_iff a c := by simpa using h.mem_iff a c
  successor_lt a c := by simpa using h.successor_lt a c
  predecessor_lt a c := by simpa using h.predecessor_lt a c
  successors_nodup c := by simpa using h.successors_nodup c
  predecessors_nodup c := by simpa using h.predecessors_nodup c
  exit_items := by rw [items_addItem_of_ne hb, h.exit_items]
  exit_successors := by simpa using h.exit_successors
  entry_predecessors := by simpa using h.entry_predecessors

theorem addBlock (h : g.Linked) : g.addBlock.Linked where
  two_le := by have := h.two_le; simp; omega
  id_eq c block hc := by
    rw [getElem?_addBlock] at hc
    split at hc
    · obtain rfl := Option.some.inj hc
      exact ‹c = g.size›.symm
    · exact h.id_eq c block hc
  mem_iff a c := by simpa using h.mem_iff a c
  successor_lt a c hc := by
    have := h.successor_lt a c (by simpa using hc)
    simp; omega
  predecessor_lt a c hc := by
    have := h.predecessor_lt a c (by simpa using hc)
    simp; omega
  successors_nodup c := by simpa using h.successors_nodup c
  predecessors_nodup c := by simpa using h.predecessors_nodup c
  exit_items := by simpa using h.exit_items
  exit_successors := by simpa using h.exit_successors
  entry_predecessors := by simpa using h.entry_predecessors

theorem join (h : g.Linked) (ha : a < g.size) (hexit : a ≠ exit) (hb : b < g.size)
    (hentry : b ≠ entry) : (g.join a b).Linked where
  two_le := by simpa using h.two_le
  id_eq c block hc := by
    rw [getElem?_join] at hc
    obtain ⟨old, hold, rfl⟩ := Option.map_eq_some_iff.mp hc
    exact h.id_eq c old hold
  mem_iff c d := by
    rw [mem_predecessors_join hb, mem_successors_join ha, h.mem_iff, and_comm]
  successor_lt c d hd := by
    rw [mem_successors_join ha] at hd
    rw [size_join]
    rcases hd with hd | ⟨-, rfl⟩
    · exact h.successor_lt c d hd
    · exact hb
  predecessor_lt c d hc := by
    rw [mem_predecessors_join hb] at hc
    rw [size_join]
    rcases hc with hc | ⟨-, rfl⟩
    · exact h.predecessor_lt c d hc
    · exact ha
  successors_nodup c := by
    rw [successors_join ha]
    split
    · exact nodup_insertNew (h.successors_nodup c)
    · exact h.successors_nodup c
  predecessors_nodup c := by
    rw [predecessors_join hb]
    split
    · exact nodup_insertNew (h.predecessors_nodup c)
    · exact h.predecessors_nodup c
  exit_items := by simpa using h.exit_items
  exit_successors := by rw [successors_join ha, if_neg (Ne.symm hexit), h.exit_successors]
  entry_predecessors := by
    rw [predecessors_join hb, if_neg (Ne.symm hentry), h.entry_predecessors]

end Linked

namespace Open

theorem addItem (h : g.Open ends) (hb : b ≠ exit) (item : Item) :
    (g.addItem b item).Open ends where
  toLinked := h.toLinked.addItem hb
  end_lt e he := by simpa using h.end_lt e he
  end_ne := h.end_ne
  from_entry c hc hne := (h.from_entry c (by simpa using hc) hne).extend (.addItem g b item)
  to_end c hc hne := by
    obtain ⟨e, he, hr⟩ := h.to_end c (by simpa using hc) hne
    exact ⟨e, he, hr.extend (.addItem g b item)⟩

theorem join (h : g.Open ends) (ha : a < g.size) (hexit : a ≠ exit) (hb : b < g.size)
    (hentry : b ≠ entry) : (g.join a b).Open ends where
  toLinked := h.toLinked.join ha hexit hb hentry
  end_lt e he := by simpa using h.end_lt e he
  end_ne := h.end_ne
  from_entry c hc hne := (h.from_entry c (by simpa using hc) hne).extend (.join ha)
  to_end c hc hne := by
    obtain ⟨e, he, hr⟩ := h.to_end c (by simpa using hc) hne
    exact ⟨e, he, hr.extend (.join ha)⟩

/-- A new block behind block `b` is a new end. -/
theorem branchFrom (h : g.Open ends) (hb : b < g.size) (hne : b ≠ exit) :
    (g.addBlock.join b g.size).Open (g.size :: ends) := by
  have htwo := h.two_le
  have hb' : b < g.addBlock.size := by simp; omega
  have hext : g.Extends (g.addBlock.join b g.size) := .branchFrom hb
  have hnew : g.size ∈ (g.addBlock.join b g.size).successors b :=
    (mem_successors_join hb').mpr (.inr ⟨rfl, rfl⟩)
  have hlt : ∀ {c}, c < (g.addBlock.join b g.size).size → c < g.size ∨ c = g.size := by
    intro c hc
    simp at hc
    omega
  refine ⟨h.toLinked.addBlock.join hb' hne (by simp) (by simp [entry]; omega), ?_, ?_, ?_, ?_⟩
  · intro e he
    rcases List.mem_cons.mp he with rfl | he
    · simp
    · have := h.end_lt e he
      simp; omega
  · intro e he
    rcases List.mem_cons.mp he with rfl | he
    · simp [exit]; omega
    · exact h.end_ne e he
  · intro c hc hcne
    rcases hlt hc with hc | rfl
    · exact (h.from_entry c hc hcne).extend hext
    · exact ((h.from_entry b hb hne).extend hext).trans (.single hnew)
  · intro c hc hcne
    rcases hlt hc with hc | rfl
    · obtain ⟨e, he, hr⟩ := h.to_end c hc hcne
      exact ⟨e, List.mem_cons_of_mem _ he, hr.extend hext⟩
    · exact ⟨g.size, List.mem_cons_self, .refl _⟩

/-- Ends from which a run comes to other ends need not stay open. -/
theorem close {ends' : List Nat} (h : g.Open ends) (hsub : ∀ e ∈ ends', e ∈ ends)
    (hcover : ∀ e ∈ ends, ∃ e' ∈ ends', g.Reaches e e') : g.Open ends' where
  toLinked := h.toLinked
  end_lt e he := h.end_lt e (hsub e he)
  end_ne e he := h.end_ne e (hsub e he)
  from_entry := h.from_entry
  to_end b hb hne := by
    obtain ⟨e, he, hr⟩ := h.to_end b hb hne
    obtain ⟨e', he', hr'⟩ := hcover e he
    exact ⟨e', he', hr.trans hr'⟩

/-- The order of the ends plays no part. -/
theorem congr {ends' : List Nat} (h : g.Open ends) (hmem : ∀ e, e ∈ ends' ↔ e ∈ ends) :
    g.Open ends' :=
  h.close (fun e he => (hmem e).mp he) fun e he => ⟨e, (hmem e).mpr he, .refl e⟩

theorem swap (h : g.Open (a :: b :: ends)) : g.Open (b :: a :: ends) :=
  h.congr fun e => by simp only [List.mem_cons]; exact or_left_comm

/-- A new block behind an end takes its place. -/
theorem advance (h : g.Open (b :: ends)) : (g.addBlock.join b g.size).Open (g.size :: ends) := by
  have hb := h.end_lt b List.mem_cons_self
  refine (h.branchFrom hb (h.end_ne b List.mem_cons_self)).close ?_ ?_
  · intro e he
    rcases List.mem_cons.mp he with rfl | he
    · exact List.mem_cons_self
    · exact List.mem_cons_of_mem _ (List.mem_cons_of_mem _ he)
  · intro e he
    rcases List.mem_cons.mp he with rfl | he
    · exact ⟨_, List.mem_cons_self, .refl _⟩
    · rcases List.mem_cons.mp he with rfl | he
      · refine ⟨g.size, List.mem_cons_self, .single ?_⟩
        exact (mem_successors_join (by simp; omega)).mpr (.inr ⟨rfl, rfl⟩)
      · exact ⟨e, List.mem_cons_of_mem _ he, .refl e⟩

/-- An end that is joined to a block from which a run comes to another end is closed. -/
theorem joinTo (h : g.Open (a :: ends)) (hb : b < g.size) (hentry : b ≠ entry)
    (hcover : ∃ e ∈ ends, g.Reaches b e) : (g.join a b).Open ends := by
  have ha := h.end_lt a List.mem_cons_self
  refine (h.join ha (h.end_ne a List.mem_cons_self) hb hentry).close
    (fun e he => List.mem_cons_of_mem _ he) fun e he => ?_
  rcases List.mem_cons.mp he with rfl | he
  · obtain ⟨e', he', hr⟩ := hcover
    have hlink : b ∈ (g.join e b).successors e := (mem_successors_join ha).mpr (.inr ⟨rfl, rfl⟩)
    exact ⟨e', he', (Reaches.single hlink).trans (hr.extend (.join ha))⟩
  · exact ⟨e, he, .refl e⟩

/-- Two ends meet in a new block. -/
theorem meet (h : g.Open (a :: b :: ends)) :
    ((g.addBlock.join b g.size).join a g.size).Open (g.size :: ends) ∧
      g.Extends ((g.addBlock.join b g.size).join a g.size) := by
  have htwo := h.two_le
  have ha := h.end_lt a List.mem_cons_self
  have hb := h.end_lt b (List.mem_cons_of_mem _ List.mem_cons_self)
  constructor
  · exact h.swap.advance.swap.joinTo (by simp) (by simp [entry]; omega)
      ⟨g.size, List.mem_cons_self, .refl _⟩
  · exact (Extends.branchFrom hb).trans (.join (by simp; omega))

end Open

@[simp] theorem successors_initial (b : Nat) : initial.successors b = [] :=
  match b with
  | 0 | 1 | _ + 2 => rfl

@[simp] theorem predecessors_initial (b : Nat) : initial.predecessors b = [] :=
  match b with
  | 0 | 1 | _ + 2 => rfl

/-- Before the first statement the entry is the only end. -/
theorem initial_open : initial.Open [entry] where
  two_le := Nat.le_refl 2
  id_eq b block h := by
    match b with
    | 0 | 1 => obtain rfl := Option.some.inj h; rfl
    | b + 2 => simp [initial] at h
  mem_iff a b := by simp
  successor_lt a b h := by simp at h
  predecessor_lt a b h := by simp at h
  successors_nodup b := by simp
  predecessors_nodup b := by simp
  exit_items := rfl
  exit_successors := rfl
  entry_predecessors := rfl
  end_lt := by decide
  end_ne := by decide
  from_entry b hb hne := by
    obtain rfl : b = entry := by simp [initial, size, exit, entry] at *; omega
    exact .refl entry
  to_end b hb hne := by
    obtain rfl : b = entry := by simp [initial, size, exit, entry] at *; omega
    exact ⟨entry, List.mem_cons_self, .refl entry⟩

/-- The last end of a graph is joined to the exit. -/
theorem Open.finish {g : Graph} {a : Nat} (h : g.Open [a]) : (g.join a exit).WellFormed := by
  have htwo := h.two_le
  have ha := h.end_lt a List.mem_cons_self
  have hne := h.end_ne a List.mem_cons_self
  have hlink : (g.join a exit).Reaches a exit :=
    .single ((mem_successors_join ha).mpr (.inr ⟨rfl, rfl⟩))
  have linked := h.toLinked.join ha hne (b := exit) (by simp [exit]; omega) (by decide)
  refine ⟨linked, fun b hb => ?_, fun b hb => ?_⟩
  · by_cases hexit : b = exit
    · subst hexit
      exact ((h.from_entry a ha hne).extend (.join ha)).trans hlink
    · exact (h.from_entry b (by simpa using hb) hexit).extend (.join ha)
  · by_cases hexit : b = exit
    · subst hexit
      exact .refl exit
    · obtain ⟨e, he, hr⟩ := h.to_end b (by simpa using hb) hexit
      obtain rfl : e = a := by simpa using he
      exact (hr.extend (.join ha)).trans hlink

theorem WellFormed.successors_ne_nil {g : Graph} (h : g.WellFormed) {b : Nat} (hb : b < g.size)
    (hne : b ≠ exit) : g.successors b ≠ [] := by
  obtain ⟨blocks, hpath⟩ := h.to_exit b hb
  cases hpath with
  | here => exact absurd rfl hne
  | step hs _ => exact List.ne_nil_of_mem hs

end Arbiter.Flow.Graph
