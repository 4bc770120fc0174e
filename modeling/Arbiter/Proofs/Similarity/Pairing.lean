import Arbiter.Proofs.Similarity.Extraction
import Arbiter.Proofs.Similarity.Matching
import Mathlib.Algebra.BigOperators.Ring.Finset
import Mathlib.Algebra.Order.BigOperators.Group.Finset
import Mathlib.Data.List.Perm.Subperm

/-! The matching of nodes as a pairing of numbers. Main statements: the mapping holds the pairs that
extraction takes from the matrix of nodes; no node is matched twice, and only nodes of equal hash
that are not empty are; and of each hash as many nodes are matched as the side with fewer has, so that
no pairing is larger. -/

namespace Arbiter.Similarity

open Dependence

section Nodes

variable {a b : Node} {as bs : List Node} {p : Node → Bool}

theorem alike_iff : alike a b = true ↔ a.hash ≠ Canon.emptyHash ∧ a.hash = b.hash := by
  simp [alike, comparable]

theorem alike_comm (a b : Node) : alike a b = alike b a := by
  rw [Bool.eq_iff_iff, alike_iff, alike_iff]
  exact ⟨fun h => ⟨h.2 ▸ h.1, h.2.symm⟩, fun h => ⟨h.2 ▸ h.1, h.2.symm⟩⟩

/-- The first node with a property stands between those that it is found before and after. -/
theorem exists_of_find? (h : bs.find? p = some b) : ∃ before after,
    bs = before ++ b :: after ∧ bs.eraseP p = before ++ after ∧
      (∀ c ∈ before, p c = false) ∧ p b = true := by
  obtain ⟨hb, before, after, rfl, hbefore⟩ := List.find?_eq_some_iff_append.mp h
  have passed : ∀ c ∈ before, p c = false := fun c hc => by simpa using hbefore c hc
  refine ⟨before, after, rfl, ?_, passed, hb⟩
  rw [List.eraseP_append_right _ fun c hc => by simp [passed c hc], List.eraseP_cons_of_pos hb]

theorem perm_of_find? (h : bs.find? p = some b) : bs.Perm (b :: bs.eraseP p) := by
  obtain ⟨before, after, rfl, erased, -⟩ := exists_of_find? h
  rw [erased]
  exact List.perm_middle

/-- A free node that is like none of the nodes to match is passed over. -/
theorem matchNodes_cons_of_unlike (h : ∀ b ∈ bs, alike a b = false) (as : List Node) :
    matchNodes bs (a :: as) = matchNodes bs as := by
  induction bs generalizing as with
  | nil => rfl
  | cons b bs ih =>
    have unlike : ¬alike b a = true := by
      rw [alike_comm, h b List.mem_cons_self]
      exact Bool.false_ne_true
    have later := ih fun c hc => h c (List.mem_cons_of_mem _ hc)
    simp only [matchNodes, List.find?_cons_of_neg unlike, List.eraseP_cons_of_neg unlike, later]

/-- The first free node goes to the first node that it is like. -/
theorem perm_matchNodes_cons {before after : List Node}
    (hbefore : ∀ c ∈ before, alike a c = false) (hb : alike a b = true) (as : List Node) :
    (matchNodes (before ++ b :: after) (a :: as)).Perm
      ((b, a) :: matchNodes (before ++ after) as) := by
  induction before generalizing as with
  | nil =>
    have like : alike b a = true := (alike_comm b a).trans hb
    simp only [List.nil_append, matchNodes, List.find?_cons_of_pos like,
      List.eraseP_cons_of_pos like]
    exact List.Perm.refl _
  | cons c before ih =>
    have unlike : ¬alike c a = true := by
      rw [alike_comm, hbefore c List.mem_cons_self]
      exact Bool.false_ne_true
    have later := ih fun d hd => hbefore d (List.mem_cons_of_mem _ hd)
    simp only [List.cons_append, matchNodes, List.find?_cons_of_neg unlike,
      List.eraseP_cons_of_neg unlike]
    split
    · exact ((later _).cons _).trans (List.Perm.swap _ _ _)
    · exact later as

/-- Matching from the other side finds the same pairs. -/
theorem perm_swap_matchNodes (as bs : List Node) :
    ((matchNodes as bs).map Prod.swap).Perm (matchNodes bs as) := by
  induction as generalizing bs with
  | nil =>
    have none_free : matchNodes bs [] = [] := by
      induction bs with
      | nil => rfl
      | cons b bs ih => exact ih
    rw [none_free]
    exact List.Perm.refl _
  | cons a as ih =>
    cases found : bs.find? (alike a) with
    | none =>
      have unlike : ∀ b ∈ bs, alike a b = false := fun b hb => by
        simpa using List.find?_eq_none.mp found b hb
      simp only [matchNodes, found]
      rw [matchNodes_cons_of_unlike unlike]
      exact ih bs
    | some b =>
      obtain ⟨before, after, rfl, erased, hbefore, hb⟩ := exists_of_find? found
      simp only [matchNodes, found, erased, List.map_cons, Prod.swap_prod_mk]
      exact ((ih _).cons (b, a)).trans (perm_matchNodes_cons hbefore hb as).symm

/-- Nodes are matched in their order, each at most once. -/
theorem map_fst_matchNodes (as bs : List Node) :
    ((matchNodes as bs).map (·.1)).Sublist as := by
  induction as generalizing bs with
  | nil => exact List.Sublist.refl _
  | cons a as ih =>
    rw [matchNodes]
    split
    · exact (ih _).cons_cons a
    · exact (ih bs).cons a

theorem map_snd_matchNodes (as bs : List Node) :
    ((matchNodes as bs).map (·.2)).Subperm bs := by
  have seconds := (perm_swap_matchNodes as bs).map (·.1)
  rw [List.map_map] at seconds
  exact seconds.subperm.trans (map_fst_matchNodes bs as).subperm

theorem alike_of_mem_matchNodes {q : Node × Node} (h : q ∈ matchNodes as bs) :
    alike q.1 q.2 = true := by
  induction as generalizing bs with
  | nil => exact absurd h (by simp [matchNodes])
  | cons a as ih =>
    rw [matchNodes] at h
    split at h
    · rename_i b found
      rcases List.mem_cons.mp h with rfl | h
      · exact List.find?_some found
      · exact ih h
    · exact ih h

/-- How many nodes have a hash. -/
def countHash (h : String) (ns : List Node) : Nat := ns.countP (·.hash == h)

/-- Of each hash as many nodes are matched as both sides have. -/
theorem countP_matchNodes {h : String} (filled : h ≠ Canon.emptyHash) (as bs : List Node) :
    (matchNodes as bs).countP (·.1.hash == h) = min (countHash h as) (countHash h bs) := by
  induction as generalizing bs with
  | nil => simp [matchNodes, countHash]
  | cons a as ih =>
    rw [matchNodes]
    cases found : bs.find? (alike a) with
    | none =>
      simp only
      rw [ih, countHash, countHash, countHash, List.countP_cons]
      by_cases ha : a.hash = h
      · have none_left : bs.countP (·.hash == h) = 0 :=
          List.countP_eq_zero.mpr fun b hb hbh => by
            have := List.find?_eq_none.mp found b hb
            exact this (alike_iff.mpr ⟨ha ▸ filled, ha.trans (beq_iff_eq.mp hbh).symm⟩)
        rw [none_left, Nat.min_zero, Nat.min_zero]
      · simp [ha]
    | some b =>
      have same : a.hash = b.hash := (alike_iff.mp (List.find?_some found)).2
      have more : ∀ (n : Node) (ns : List Node), countHash h (n :: ns) =
          countHash h ns + if n.hash == h then 1 else 0 := fun n ns => List.countP_cons
      have fewer : countHash h bs = countHash h (b :: bs.eraseP (alike a)) :=
        (perm_of_find? found).countP_eq _
      simp only
      rw [List.countP_cons, ih, fewer, more, more, same]
      omega

end Nodes

namespace Mapping

variable {m : Mapping} {k v : Nat}

theorem perm_insert (v : Nat) (new : k ∉ m.map (·.1)) : (m.insert k v).Perm ((k, v) :: m) := by
  induction m with
  | nil => exact List.Perm.refl _
  | cons q rest ih =>
    obtain ⟨hne, hrest⟩ : k ≠ q.1 ∧ k ∉ rest.map (·.1) := by
      simpa only [List.map_cons, List.mem_cons, not_or] using new
    rw [insert, if_neg hne]
    split
    · exact List.Perm.refl _
    · exact ((ih hrest).cons q).trans (List.Perm.swap (k, v) q rest)

theorem mem_insert {q : Nat × Nat} (h : q ∈ m.insert k v) : q = (k, v) ∨ q ∈ m := by
  induction m with
  | nil => exact .inl (List.mem_singleton.mp h)
  | cons r rest ih =>
    rw [insert] at h
    split at h
    · exact List.mem_cons.mp h
    · split at h
      · exact (List.mem_cons.mp h).imp_right (List.mem_cons_of_mem _)
      · rcases List.mem_cons.mp h with rfl | h
        · exact .inr List.mem_cons_self
        · exact (ih h).imp_right (List.mem_cons_of_mem _)

theorem pairwise_insert (k v : Nat) (h : m.Pairwise fun p q => p.1 < q.1) :
    (m.insert k v).Pairwise fun p q => p.1 < q.1 := by
  induction m with
  | nil => exact List.pairwise_singleton _ _
  | cons r rest ih =>
    obtain ⟨first, later⟩ := List.pairwise_cons.mp h
    rw [insert]
    split
    · rename_i less
      refine List.pairwise_cons.mpr ⟨fun q hq => ?_, h⟩
      rcases List.mem_cons.mp hq with rfl | hq
      · exact less
      · exact Nat.lt_trans less (first q hq)
    · split
      · rename_i same
        exact List.pairwise_cons.mpr ⟨fun q hq => same ▸ first q hq, later⟩
      · refine List.pairwise_cons.mpr ⟨fun q hq => ?_, ih later⟩
        rcases mem_insert hq with rfl | hq
        · show r.1 < k
          omega
        · exact first q hq

theorem perm_foldl_insert {ps : List (Nat × Nat)} (h : ((m ++ ps).map (·.1)).Nodup) :
    (ps.foldl (fun m p => m.insert p.1 p.2) m).Perm (m ++ ps) := by
  induction ps generalizing m with
  | nil => simp
  | cons p ps ih =>
    have reordered : (m ++ p :: ps).Perm ((p :: m) ++ ps) := List.perm_middle
    have nodup : (((p :: m) ++ ps).map (·.1)).Nodup := (reordered.map _).nodup_iff.mp h
    have new : p.1 ∉ m.map (·.1) := by
      rw [List.cons_append, List.map_cons, List.map_append] at nodup
      exact fun hp => (List.nodup_cons.mp nodup).1 (List.mem_append_left _ hp)
    have inserted : ((m.insert p.1 p.2) ++ ps).Perm ((p :: m) ++ ps) :=
      (perm_insert p.2 new).append_right ps
    exact (ih ((inserted.map _).nodup_iff.mpr nodup)).trans (inserted.trans reordered.symm)

theorem pairwise_foldl_insert (ps : List (Nat × Nat)) (h : m.Pairwise fun p q => p.1 < q.1) :
    (ps.foldl (fun m p => m.insert p.1 p.2) m).Pairwise fun p q => p.1 < q.1 := by
  induction ps generalizing m with
  | nil => exact h
  | cons p ps ih => exact ih (pairwise_insert p.1 p.2 h)

theorem get?_eq_some_iff (h : (m.map (·.1)).Nodup) : m.get? k = some v ↔ (k, v) ∈ m := by
  induction m with
  | nil => simp [get?]
  | cons q rest ih =>
    obtain ⟨new, later⟩ := List.nodup_cons.mp h
    have ih := ih later
    rw [get?] at ih ⊢
    rw [List.lookup_cons, List.mem_cons]
    by_cases hk : k = q.1
    · subst hk
      have rest_free : (q.1, v) ∉ rest := fun hv => new (List.mem_map_of_mem (f := (·.1)) hv)
      simp [Prod.ext_iff, rest_free, eq_comm]
    · have head_other : (k, v) ≠ q := fun hq => hk (congrArg Prod.fst hq)
      simpa [beq_eq_false_iff_ne.mpr hk, head_other] using ih

end Mapping

/-- The numbers of two nodes. -/
def idPair (q : Node × Node) : Nat × Nat := (q.1.id, q.2.id)

/-- A mapping of nodes to nodes of the same hash, the empty one left out, in which no node stands
twice. -/
structure Pairing (g1 g2 : Graph) (m : Mapping) : Prop where
  keys : (m.map (·.1)).Nodup
  images : m.images.Nodup
  sameHash : ∀ q ∈ m, ∃ a ∈ g1.nodes, ∃ b ∈ g2.nodes,
    (a.id, b.id) = q ∧ a.hash = b.hash ∧ a.hash ≠ Canon.emptyHash

/-- The hashes in a graph. -/
def hashes (g : Graph) : Finset String := (g.nodes.map (·.hash)).toFinset

section Numbers

variable {g1 g2 : Graph} (ids1 : (g1.nodes.map (·.id)).Nodup) (ids2 : (g2.nodes.map (·.id)).Nodup)

theorem nodeMapping_eq_foldl (g1 g2 : Graph) : nodeMapping g1 g2 =
    ((matchNodes g1.nodes g2.nodes).map idPair).foldl (fun m p => Mapping.insert m p.1 p.2) [] := by
  rw [List.foldl_map]
  rfl

theorem pairwise_nodeMapping (g1 g2 : Graph) :
    (nodeMapping g1 g2).Pairwise fun p q => p.1 < q.1 := by
  rw [nodeMapping_eq_foldl]
  exact Mapping.pairwise_foldl_insert _ List.Pairwise.nil

theorem nodup_keys_nodeMapping (g1 g2 : Graph) : ((nodeMapping g1 g2).map (·.1)).Nodup :=
  List.pairwise_map.mpr ((pairwise_nodeMapping g1 g2).imp Nat.ne_of_lt)

include ids1

/-- The mapping holds the numbers of the matched nodes. -/
theorem perm_nodeMapping (g2 : Graph) :
    (nodeMapping g1 g2).Perm ((matchNodes g1.nodes g2.nodes).map idPair) := by
  have firsts : (((matchNodes g1.nodes g2.nodes).map idPair).map (·.1)).Nodup := by
    have sub := (map_fst_matchNodes g1.nodes g2.nodes).map (·.id)
    rw [List.map_map] at sub ⊢
    exact ids1.sublist sub
  rw [nodeMapping_eq_foldl]
  exact Mapping.perm_foldl_insert firsts

include ids2

theorem pairing_nodeMapping : Pairing g1 g2 (nodeMapping g1 g2) where
  keys := nodup_keys_nodeMapping g1 g2
  images := by
    obtain ⟨seconds, reordered, sub⟩ := map_snd_matchNodes g1.nodes g2.nodes
    have same := (reordered.map (·.id)).nodup_iff
    rw [List.map_map] at same
    rw [Mapping.images, ((perm_nodeMapping ids1 g2).map _).nodup_iff, List.map_map]
    exact same.mp (ids2.sublist (sub.map _))
  sameHash := fun q hq => by
    obtain ⟨⟨a, b⟩, hab, rfl⟩ := List.mem_map.mp ((perm_nodeMapping ids1 g2).subset hq)
    obtain ⟨nonempty, same⟩ := alike_iff.mp (alike_of_mem_matchNodes hab)
    exact ⟨a, (map_fst_matchNodes _ _).subset (List.mem_map_of_mem (f := (·.1)) hab), b,
      (map_snd_matchNodes _ _).subset (List.mem_map_of_mem (f := (·.2)) hab), rfl, same, nonempty⟩

end Numbers

section Largest

variable {g1 g2 : Graph} {m : Mapping}

/-- The hashes of the nodes that take part. -/
def filledHashes (g1 g2 : Graph) : Finset String := (hashes g1 ∪ hashes g2).erase Canon.emptyHash

/-- A list falls into the parts of equal key. -/
theorem length_eq_sum_countP {α : Type} {l : List α} (key : α → String) (keys : Finset String)
    (h : ∀ x ∈ l, key x ∈ keys) : l.length = ∑ k ∈ keys, l.countP (key · == k) := by
  induction l with
  | nil => simp
  | cons x l ih =>
    have here : key x ∈ keys := h x List.mem_cons_self
    rw [List.length_cons, ih fun y hy => h y (List.mem_cons_of_mem _ hy)]
    simp [List.countP_cons, Finset.sum_add_distrib, here]

/-- Different nodes of one hash are at most as many as there are. -/
theorem countP_le_countHash {α : Type} {l : List α} {node : α → Node} {ns : List Node}
    (nodup : (l.map node).Nodup) (mem : ∀ x ∈ l, node x ∈ ns) (h : String) :
    l.countP (fun x => (node x).hash == h) ≤ countHash h ns := by
  have sub : (l.map node).Subperm ns := List.subperm_of_subset nodup fun n hn => by
    obtain ⟨x, hx, rfl⟩ := List.mem_map.mp hn
    exact mem x hx
  have fewer := sub.countP_le (·.hash == h)
  rwa [List.countP_map] at fewer

theorem Pairing.exists_nodes (h : Pairing g1 g2 m) : ∃ ps : List (Node × Node),
    ps.map idPair = m ∧ ∀ q ∈ ps, q.1 ∈ g1.nodes ∧ q.2 ∈ g2.nodes ∧ alike q.1 q.2 = true := by
  have like := h.sameHash
  clear h
  induction m with
  | nil => exact ⟨[], rfl, by simp⟩
  | cons q m ih =>
    obtain ⟨ps, rfl, hps⟩ := ih fun r hr => like r (List.mem_cons_of_mem _ hr)
    obtain ⟨a, ha, b, hb, rfl, same, nonempty⟩ := like q List.mem_cons_self
    refine ⟨(a, b) :: ps, rfl, fun r hr => ?_⟩
    rcases List.mem_cons.mp hr with rfl | hr
    · exact ⟨ha, hb, alike_iff.mpr ⟨nonempty, same⟩⟩
    · exact hps r hr

theorem hash_mem_filledHashes {a b : Node} (ha : a ∈ g1.nodes) (hab : alike a b = true) :
    a.hash ∈ filledHashes g1 g2 := by
  refine Finset.mem_erase.mpr ⟨(alike_iff.mp hab).1, Finset.mem_union_left _ ?_⟩
  exact List.mem_toFinset.mpr (List.mem_map_of_mem ha)

/-- No pairing has more of a hash than the side with fewer nodes of it. -/
theorem Pairing.length_le (h : Pairing g1 g2 m) : m.length ≤
    ∑ k ∈ filledHashes g1 g2, min (countHash k g1.nodes) (countHash k g2.nodes) := by
  obtain ⟨ps, rfl, hps⟩ := h.exists_nodes
  have firsts : (ps.map (·.1)).Nodup := by
    have keys := h.keys
    rw [List.map_map] at keys
    exact List.Nodup.of_map (·.id) (by rwa [List.map_map])
  have seconds : (ps.map (·.2)).Nodup := by
    have images := h.images
    rw [Mapping.images, List.map_map] at images
    exact List.Nodup.of_map (·.id) (by rwa [List.map_map])
  have parts := length_eq_sum_countP (fun q : Node × Node => q.1.hash) (filledHashes g1 g2) fun q hq =>
    hash_mem_filledHashes (hps q hq).1 (hps q hq).2.2
  rw [List.length_map, parts]
  refine Finset.sum_le_sum fun k _ => le_min ?_ ?_
  · exact countP_le_countHash firsts (fun q hq => (hps q hq).1) k
  · have same : ps.countP (fun q => q.1.hash == k) = ps.countP (fun q => q.2.hash == k) :=
      List.countP_congr fun q hq => by rw [(alike_iff.mp (hps q hq).2.2).2]
    rw [same]
    exact countP_le_countHash seconds (fun q hq => (hps q hq).2.1) k

theorem length_nodeMapping (ids1 : (g1.nodes.map (·.id)).Nodup) : (nodeMapping g1 g2).length =
    ∑ k ∈ filledHashes g1 g2, min (countHash k g1.nodes) (countHash k g2.nodes) := by
  have parts := length_eq_sum_countP (fun q : Node × Node => q.1.hash) (filledHashes g1 g2)
    fun q (hq : q ∈ matchNodes g1.nodes g2.nodes) =>
      hash_mem_filledHashes ((map_fst_matchNodes _ _).subset (List.mem_map_of_mem (f := (·.1)) hq))
        (alike_of_mem_matchNodes hq)
  rw [(perm_nodeMapping ids1 g2).length_eq, List.length_map, parts]
  exact Finset.sum_congr rfl fun k hk => countP_matchNodes (Finset.mem_erase.mp hk).1 _ _

/-- The mapping of two graphs holds the numbers of the nodes whose cells extraction takes from their
matrix. It is a pairing; of each hash that is not empty it has as many nodes as the side with fewer,
so no pairing is larger. -/
theorem nodeMapping_extracted_largest (ids1 : (g1.nodes.map (·.id)).Nodup)
    (ids2 : (g2.nodes.map (·.id)).Nodup) :
    ((nodeMapping g1 g2).map fun q => (some q.1, some q.2)).Perm
      ((nodeMatrix g1 g2).extract.map fun c =>
        (g1.nodes[c.1]?.map (·.id), g2.nodes[c.2]?.map (·.id))) ∧
    Pairing g1 g2 (nodeMapping g1 g2) ∧
    (nodeMapping g1 g2).length = ∑ h ∈ (hashes g1 ∪ hashes g2).erase Canon.emptyHash,
      min (countHash h g1.nodes) (countHash h g2.nodes) ∧
    ∀ m, Pairing g1 g2 m → m.length ≤ (nodeMapping g1 g2).length := by
  refine ⟨?_, pairing_nodeMapping ids1 ids2, length_nodeMapping ids1, fun m hm => ?_⟩
  · have cells := congrArg (List.map fun c : Option Node × Option Node =>
      (c.1.map (·.id), c.2.map (·.id))) (matchNodes_nodeMatrix g1 g2)
    rw [List.map_map, List.map_map] at cells
    have pairs := (perm_nodeMapping ids1 g2).map fun q => (some q.1, some q.2)
    rw [List.map_map] at pairs
    exact pairs.trans (List.Perm.of_eq cells)
  · rw [length_nodeMapping ids1]
    exact hm.length_le

/-- Two blocks of one hash and one of another, between an empty entry and an empty exit. -/
def twoArms : Graph where
  nodes := [⟨0, "EXIT", Canon.emptyHash⟩, ⟨1, "x = 1", "store"⟩, ⟨2, "y = 1", "store"⟩,
    ⟨3, "print(x)", "show"⟩]
  edges := [⟨1, 2, .control⟩, ⟨1, 3, .data⟩]

/-- Three blocks of one hash around one of another. -/
def threeArms : Graph where
  nodes := [⟨0, "EXIT", Canon.emptyHash⟩, ⟨4, "a = 1", "store"⟩, ⟨5, "print(a)", "show"⟩,
    ⟨6, "b = 1", "store"⟩, ⟨7, "c = 1", "store"⟩]
  edges := [⟨4, 6, .control⟩, ⟨4, 7, .control⟩, ⟨6, 5, .data⟩]

theorem nodeMapping_extracted_largest_arms :
    ((twoArms.nodes.map (·.id)).Nodup ∧ (threeArms.nodes.map (·.id)).Nodup) ∧
    nodeMapping twoArms threeArms = [(1, 4), (2, 6), (3, 5)] ∧
    ([(some 1, some 4), (some 2, some 6), (some 3, some 5)] : List (Option Nat × Option Nat)).Perm
      ((nodeMatrix twoArms threeArms).extract.map fun c =>
        (twoArms.nodes[c.1]?.map (·.id), threeArms.nodes[c.2]?.map (·.id))) ∧
    ∀ m, Pairing twoArms threeArms m → m.length ≤ 3 := by
  have ids1 : (twoArms.nodes.map (·.id)).Nodup := by decide
  have ids2 : (threeArms.nodes.map (·.id)).Nodup := by decide
  obtain ⟨cells, -, -, largest⟩ := nodeMapping_extracted_largest ids1 ids2
  exact ⟨⟨ids1, ids2⟩, by decide, cells, largest⟩

end Largest

end Arbiter.Similarity
