import Arbiter.Dependence.OfFlow
import Arbiter.Proofs.Flow.Sweep
import Arbiter.Proofs.Flow.WellFormed

/-! Data dependence by paths. The edges of a dependence graph are the pairs of both analyses, each once. A
definition reaches a block exactly if some way leads there from its block on which no block in between
defines the name again. -/

namespace Arbiter.Flow.Graph

open Dependence

variable {g : Graph} {n a b : Nat} {p : Nat → Nat → Bool}

theorem mem_pairsBelow : (a, b) ∈ pairsBelow n p ↔ a < n ∧ b < n ∧ p a b = true := by
  simp [pairsBelow]

theorem nodup_pairsBelow (n : Nat) (p : Nat → Nat → Bool) : (pairsBelow n p).Nodup := by
  have rows : ∀ a, (((List.range n).filter (p a)).map (a, ·)).Nodup := fun a =>
    List.Pairwise.map _ (fun b c hbc h => hbc (Prod.mk.inj h).2)
      (List.nodup_range.filter (p a))
  refine List.pairwise_flatMap.mpr ⟨fun a _ => rows a, ?_⟩
  refine List.nodup_range.imp fun hab x hx y hy hxy => hab ?_
  obtain ⟨_, -, rfl⟩ := List.mem_map.mp hx
  obtain ⟨_, -, rfl⟩ := List.mem_map.mp hy
  exact (Prod.mk.inj hxy).1

theorem mem_edges_control :
    ⟨a, b, .control⟩ ∈ g.dependences.edges ↔ (a, b) ∈ g.controlPairs := by
  simp [dependences]

theorem mem_edges_data : ⟨a, b, .data⟩ ∈ g.dependences.edges ↔ (a, b) ∈ g.dataPairs := by
  simp [dependences]

theorem nodup_edges (g : Graph) : g.dependences.edges.Nodup := by
  have edges : ∀ (kind : EdgeKind) {pairs : List (Nat × Nat)}, pairs.Nodup →
      (pairs.map fun p => (⟨p.1, p.2, kind⟩ : Edge)).Nodup := fun kind pairs h =>
    List.Pairwise.map _ (fun p q hpq heq => hpq
      (Prod.ext (Edge.mk.inj heq).1 (Edge.mk.inj heq).2.1)) h
  rw [dependences, List.nodup_append]
  refine ⟨edges .control (nodup_pairsBelow _ _), edges .data (nodup_pairsBelow _ _), ?_⟩
  intro e he f hf hef
  obtain ⟨_, -, rfl⟩ := List.mem_map.mp he
  obtain ⟨_, -, rfl⟩ := List.mem_map.mp hf
  exact nomatch (Edge.mk.inj hef).2.2

end Arbiter.Flow.Graph

/-! Ways on which a definition is clear. -/

namespace Arbiter.Flow.Graph

open Syntax BlockSets

variable {g : Graph} {out : BlockSets} {defines : Nat → Bool} {a b d x : Nat} {v : String}

theorem has_incoming : (g.incoming out b).has x = true ↔
    ∃ p ∈ g.predecessors b, (out.get p).has x = true := by
  simp [incoming]

theorem isotone_definitionStep (g : Graph) (defines : Nat → Bool) :
    Isotone g.size (g.definitionStep defines) where
  sub {s t} h b x hx := by
    unfold definitionStep at hx ⊢
    split at hx
    · rwa [if_pos ‹_›]
    · rw [if_neg ‹_›]
      obtain ⟨p, hp, hx⟩ := has_incoming.mp hx
      exact has_incoming.mpr ⟨p, hp, h.sub p x hx⟩
  lt {s} h b hb x hx := by
    unfold definitionStep at hx
    split at hx
    · obtain rfl : b = x := by simpa using hx
      exact hb
    · obtain ⟨p, -, hx⟩ := has_incoming.mp hx
      exact h.lt p x hx

/-- The sweeps for the definitions that leave each block come to rest. -/
theorem settles_leaving (g : Graph) (defines : Nat → Bool) :
    Settles (sweep g.size (g.definitionStep defines)) (.tabulate g.size fun _ => .empty)
      (g.leaving defines) :=
  settles_solve_of_grow (isotone_definitionStep g defines) (fun _ _ _ hx => by simp at hx)
    fun _ _ _ _ _ hx => by simp at hx

/-- A definition that leaves block `a` leaves every block behind it up to the next definition. -/
theorem Path.has_leaving (h : g.WellFormed) {rest : List Nat} (hpath : g.Path a b (a :: rest))
    (hclear : ∀ x ∈ rest, defines x = false) (ha : ((g.leaving defines).get a).has d = true) :
    ((g.leaving defines).get b).has d = true := by
  generalize hblocks : a :: rest = blocks at hpath
  induction hpath generalizing rest with
  | here a => exact ha
  | @step a next b blocks hs hpath ih =>
    obtain ⟨more, rfl⟩ := hpath.head
    obtain rfl : rest = next :: more := (List.cons.inj hblocks).2
    have hnext := h.successor_lt _ _ hs
    refine ih (fun x hx => hclear x (List.mem_cons_of_mem _ hx)) ?_ rfl
    rw [← (settles_leaving g defines).update_eq hnext, definitionStep,
      if_neg (by simp [hclear next List.mem_cons_self])]
    exact has_incoming.mpr ⟨a, (h.mem_iff _ _).mpr hs, ha⟩

theorem has_leaving (h : g.WellFormed) (hb : b < g.size) :
    ((g.leaving defines).get b).has d = true ↔ defines d = true ∧
      ∃ rest, g.Path d b (d :: rest) ∧ ∀ x ∈ rest, defines x = false := by
  have hrest := settles_leaving g defines
  constructor
  · refine hrest.get_induction (J := fun b S => S.has d = true → defines d = true ∧
      ∃ rest, g.Path d b (d :: rest) ∧ ∀ x ∈ rest, defines x = false)
      (fun b _ hd => by simp at hd) (fun s hs b hb hd => ?_) hb
    unfold definitionStep at hd
    split at hd
    · obtain rfl : b = d := by simpa using hd
      exact ⟨‹_›, [], .here b, by simp⟩
    · obtain ⟨p, hp, hd⟩ := has_incoming.mp hd
      obtain ⟨hdef, rest, hpath, hclear⟩ := hs p (h.predecessor_lt _ _ hp) hd
      refine ⟨hdef, rest ++ [b], hpath.snoc ((h.mem_iff _ _).mp hp), fun x hx => ?_⟩
      rcases List.mem_append.mp hx with hx | hx
      · exact hclear x hx
      · obtain rfl : x = b := by simpa using hx
        simpa using ‹¬defines x = true›
  · rintro ⟨hdef, rest, hpath, hclear⟩
    refine hpath.has_leaving h hclear ?_
    have hd : d < g.size := by
      cases hpath with
      | here => exact hb
      | step hs _ => exact lt_of_mem_successors hs
    rw [← hrest.update_eq hd, definitionStep, if_pos hdef]
    simp

/-- The definition in block `d` reaches the start of block `b` exactly if a way leads there on which
no block in between defines the name again. -/
theorem has_reaching (h : g.WellFormed) (hb : b < g.size) :
    ((g.reaching defines).get b).has d = true ↔ defines d = true ∧
      ∃ between, g.Path d b (d :: between ++ [b]) ∧ ∀ x ∈ between, defines x = false := by
  rw [reaching, get_tabulate _ hb, has_incoming]
  constructor
  · rintro ⟨p, hp, hd⟩
    obtain ⟨hdef, rest, hpath, hclear⟩ := (has_leaving h (h.predecessor_lt _ _ hp)).mp hd
    exact ⟨hdef, rest, hpath.snoc ((h.mem_iff _ _).mp hp), hclear⟩
  · rintro ⟨hdef, between, hpath, hclear⟩
    obtain ⟨p, hpath, hp⟩ := hpath.last
    exact ⟨p, (h.mem_iff _ _).mpr hp,
      (has_leaving h (lt_of_mem_successors hp)).mpr ⟨hdef, between, hpath, hclear⟩⟩

/-- The name `v` occurs in block `b` in the context `ctx`. -/
def Holds (g : Graph) (b : Nat) (v : String) (ctx : Context) : Prop :=
  ∃ item ∈ g.items b, ⟨v, ctx⟩ ∈ item.occurrences

theorem lt_of_holds {ctx : Context} (h : g.Holds b v ctx) : b < g.size := by
  obtain ⟨item, hitem, -⟩ := h
  refine Nat.lt_of_not_le fun hb => ?_
  simp [items, Array.getElem?_eq_none hb] at hitem

theorem mem_names {ctx : Context} : v ∈ g.names ctx b ↔ g.Holds b v ctx := by
  simp only [names, Holds, List.mem_map, List.mem_filter, List.mem_flatMap]
  constructor
  · rintro ⟨⟨name, c⟩, ⟨⟨item, hitem, hocc⟩, hctx⟩, rfl⟩
    obtain rfl : c = ctx := by simpa using hctx
    exact ⟨item, hitem, hocc⟩
  · rintro ⟨item, hitem, hocc⟩
    exact ⟨_, ⟨⟨item, hitem, hocc⟩, by simp⟩, rfl⟩

/-- Whether block `b` stores `v`. -/
def stores (g : Graph) (v : String) (b : Nat) : Bool := (g.names .store b).contains v

theorem stores_iff : g.stores v b = true ↔ g.Holds b v .store := by simp [stores, mem_names]

theorem stores_eq_false_iff : g.stores v b = false ↔ ¬g.Holds b v .store := by
  rw [← stores_iff, Bool.not_eq_true]

/-- Some name that block `d` stores and block `b` loads is stored in no block between them on some
way from `d` to `b`. -/
def DataDependent (g : Graph) (d b : Nat) : Prop :=
  ∃ v, g.Holds d v .store ∧ g.Holds b v .load ∧
    ∃ between, g.Path d b (d :: between ++ [b]) ∧ ∀ x ∈ between, ¬g.Holds x v .store

theorem names_of_le {ctx : Context} (h : g.size ≤ b) : g.names ctx b = [] := by
  simp [names, items, Array.getElem?_eq_none h]

/-- The table of names of each block, read at any number. -/
theorem getD_table (g : Graph) {f : Nat → List String} (hf : ∀ b, g.size ≤ b → f b = []) (b : Nat) :
    ((List.range g.size).map f).toArray.getD b [] = f b := by
  by_cases hb : b < g.size
  · simp [hb]
  · simp [hb, hf b (Nat.le_of_not_lt hb)]

theorem has_dataSources_iff (hb : b < g.size) : (g.dataSources.get b).has d = true ↔
    ∃ v, g.Holds b v .load ∧ ((g.reaching (g.stores v)).get b).has d = true := by
  have hdefs := g.getD_table (f := g.names .store) fun _ => names_of_le
  have huses := g.getD_table (f := fun b => (g.names .load b).eraseDups) fun c hc => by
    simp [names_of_le hc]
  have hmem : ∀ v, (g.names .load b).eraseDups.contains v = true ↔ g.Holds b v .load := fun v => by
    simp [mem_names]
  rw [dataSources, get_tabulate _ hb]
  simp only [hdefs, huses, BlockSet.has_unions, List.mem_map, exists_exists_and_eq_and]
  constructor
  · rintro ⟨v, -, hd⟩
    split at hd
    · exact ⟨v, (hmem v).mp ‹_›, hd⟩
    · simp at hd
  · rintro ⟨v, hload, hd⟩
    refine ⟨v, ?_, by rw [if_pos ((hmem v).mpr hload)]; exact hd⟩
    simp only [List.mem_eraseDups, List.mem_flatten, List.mem_map, exists_exists_and_eq_and]
    exact ⟨b, by simpa using hb, by simpa using (hmem v).mpr hload⟩

theorem has_dataSources (h : g.WellFormed) (hb : b < g.size) :
    (g.dataSources.get b).has d = true ↔ g.DataDependent d b := by
  simp only [has_dataSources_iff hb, has_reaching h hb, stores_iff, stores_eq_false_iff]
  exact exists_congr fun v => and_left_comm

theorem mem_dataPairs (h : g.WellFormed) : (d, b) ∈ g.dataPairs ↔ g.DataDependent d b := by
  rw [dataPairs, mem_pairsBelow]
  constructor
  · rintro ⟨-, hb, hd⟩
    exact (has_dataSources h hb).mp hd
  · intro hdep
    have ⟨_, hstore, hload, _⟩ := hdep
    exact ⟨lt_of_holds hstore, lt_of_holds hload, (has_dataSources h (lt_of_holds hload)).mpr hdep⟩

/-- The data edges of a program's dependence graph are exactly the pairs of a block that stores a
name and a block that loads it, the same one perhaps, with a way of at least one link between them
on which no inner block stores the name. For each name the sweeps come to rest, and no edge occurs
twice. -/
theorem data_edge_iff_clear_path (body : List Stmt) :
    let g := ofProgram body
    (∀ v, Settles (sweep g.size (g.definitionStep (g.stores v)))
      (.tabulate g.size fun _ => .empty) (g.leaving (g.stores v))) ∧
    (∀ d b, ⟨d, b, .data⟩ ∈ g.dependences.edges ↔
      ∃ v, g.Holds d v .store ∧ g.Holds b v .load ∧
        ∃ between, g.Path d b (d :: between ++ [b]) ∧ ∀ x ∈ between, ¬g.Holds x v .store) ∧
    (g.dependences.edges.filter (·.kind = .data)).Nodup := by
  intro g
  have h : g.WellFormed := wellFormed_ofProgram body
  refine ⟨fun v => settles_leaving g (g.stores v), fun d b => ?_, (nodup_edges g).filter _⟩
  rw [mem_edges_data, mem_dataPairs h]
  rfl

end Arbiter.Flow.Graph
