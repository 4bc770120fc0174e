import Arbiter.Similarity.Compare
import Mathlib.Data.List.Basic

/-! Comparing two graphs whose nodes have the same numbers and hashes and whose edges are the same.
Every node that takes part is matched to the one in its place, also among nodes of equal hash: the
nodes passed over on the way there are matched already or take no part. Where all is matched every score
is exactly one, whatever the counts are. -/

namespace Arbiter

namespace Decimal

theorem divEven_mul {a n : Nat} (h : 0 < n) : divEven (n * a) n = a := by
  rw [divEven, Nat.mul_div_cancel_left a h, Nat.mul_mod_right, if_neg (by omega)]

/-- A number over itself is the fraction one. -/
theorem nearestBits_self {n : Nat} (h : 0 < n) : nearestBits n n = 0x3FF0000000000000 := by
  have rough : inUnits n n (-53) = (n * Nat.pow 2 53, n) := rfl
  have fine : inUnits n n (-52) = (n * Nat.pow 2 52, n) := rfl
  have unit : max (-53 + 1 : Int) (-1074) = -52 := rfl
  rw [nearestBits, if_neg (by omega)]
  simp only [Int.sub_self, Int.zero_sub, rough, Nat.mul_div_cancel_left _ h, Nat.lt_irrefl,
    if_false, unit, fine, divEven_mul h]
  rfl

end Decimal

namespace Similarity

theorem Ratio.toFloat_self {n : Nat} (h : 0 < n) : Ratio.toFloat ⟨n, n⟩ = 1.0 := by
  rw [Ratio.toFloat, Decimal.nearestBits_self h]
  decide +kernel

/-- If both sides are matched as a whole the score is one, also if they are empty. -/
theorem dice?_self (n : Nat) : ((dice? n n n).map Ratio.toFloat).getD 1.0 = 1.0 := by
  rw [dice?]
  split
  · have ratio : (⟨2 * n, n + n⟩ : Ratio) = ⟨n + n, n + n⟩ := by rw [Nat.two_mul]
    rw [ratio, Option.map_some, Ratio.toFloat_self ‹_›]
    rfl
  · rfl

/-- The weights are the parts of a whole. -/
theorem weights : nodeWeight * 1.0 + edgeWeight * 1.0 = 1.0 := by decide +kernel

end Similarity

end Arbiter

/-! Nodes in the same places. -/

namespace Arbiter.Similarity

open Dependence

/-- What a comparison reads of a node. -/
def key (n : Node) : Nat × String := (n.id, n.hash)

theorem comparable_congr {a b : Node} (h : key a = key b) : comparable a = comparable b := by
  rw [comparable, comparable, (Prod.mk.inj h).2]

/-- Matching in place, where `skipped` holds the nodes passed over so far. -/
theorem matchNodes_of_keys {as bs : List Node} (h : as.map key = bs.map key)
    (skipped : List Node) (hskipped : ∀ n ∈ skipped, comparable n = false) :
    (matchNodes as (skipped ++ bs)).map (fun p => (p.1.id, p.2.id)) =
      (as.filter comparable).map fun a => (a.id, a.id) := by
  induction as generalizing bs skipped with
  | nil => rfl
  | cons a as ih =>
    obtain ⟨b, bs, rfl⟩ : ∃ b rest, bs = b :: rest := by
      cases bs with
      | nil => exact absurd h (by simp)
      | cons b bs => exact ⟨b, bs, rfl⟩
    obtain ⟨hkey, htail⟩ : key a = key b ∧ as.map key = bs.map key := List.cons.inj h
    cases ha : comparable a with
    | true =>
      have hab : alike a b = true := by simp [alike, ha, (Prod.mk.inj hkey).2]
      -- A node that takes no part has another hash than `a`, so that `b` is the first found.
      have hpass : ∀ n ∈ skipped, ¬alike a n = true := fun n hn halike => by
        have hhash : a.hash = n.hash := by simpa [alike, ha] using halike
        have hn := hskipped n hn
        rw [comparable, ← hhash, ← comparable, ha] at hn
        exact absurd hn (by decide)
      have hfind : (skipped ++ b :: bs).find? (alike a) = some b := by
        rw [List.find?_append, List.find?_eq_none.mpr hpass, List.find?_cons_of_pos hab]
        rfl
      have hfree : (skipped ++ b :: bs).eraseP (alike a) = skipped ++ bs := by
        rw [List.eraseP_append_right _ hpass, List.eraseP_cons_of_pos hab]
      have hid : a.id = b.id := (Prod.mk.inj hkey).1
      simp only [matchNodes, hfind, hfree, List.map_cons, ih htail skipped hskipped,
        List.filter_cons_of_pos ha, hid]
    | false =>
      have hnone : (skipped ++ b :: bs).find? (alike a) = none :=
        List.find?_eq_none.mpr fun n _ => by simp [alike, ha]
      have hb : comparable b = false := by rw [← comparable_congr hkey, ha]
      have hmore : ∀ n ∈ skipped ++ [b], comparable n = false := fun n hn => by
        rcases List.mem_append.mp hn with hn | hn
        · exact hskipped n hn
        · rw [List.mem_singleton.mp hn, hb]
      rw [matchNodes, hnone, List.append_cons, List.filter_cons_of_neg (by simp [ha])]
      exact ih htail _ hmore

namespace Mapping

/-- Every pair of a mapping in ascending order is below `k`. -/
theorem insert_of_lt {m : Mapping} {k : Nat} (v : Nat) (h : ∀ p ∈ m, p.1 < k) :
    m.insert k v = m ++ [(k, v)] := by
  induction m with
  | nil => rfl
  | cons p rest ih =>
    have hp : p.1 < k := h p List.mem_cons_self
    have hrest : ∀ q ∈ rest, q.1 < k := fun q hq => h q (List.mem_cons_of_mem _ hq)
    rw [insert, if_neg (by omega), if_neg (by omega), ih hrest]
    rfl

theorem foldl_insert {m : Mapping} {ps : List (Nat × Nat)}
    (h : (m ++ ps).Pairwise fun p q => p.1 < q.1) :
    ps.foldl (fun m p => m.insert p.1 p.2) m = m ++ ps := by
  induction ps generalizing m with
  | nil => simp
  | cons p ps ih =>
    have hm : ∀ q ∈ m, q.1 < p.1 := fun q hq =>
      (List.pairwise_append.mp h).2.2 q hq p List.mem_cons_self
    rw [List.foldl_cons, insert_of_lt _ hm, ih (by simpa using h)]
    simp

theorem get?_diagonal {ids : List Nat} {k : Nat} (h : k ∈ ids) :
    get? (ids.map fun i => (i, i)) k = some k := by
  induction ids with
  | nil => exact absurd h (by simp)
  | cons i ids ih =>
    rw [get?, List.map_cons, List.lookup_cons]
    by_cases hk : k = i
    · simp [hk]
    · simp only [beq_eq_false_iff_ne.mpr hk]
      exact ih ((List.mem_cons.mp h).resolve_left hk)

end Mapping

theorem eraseDups_of_nodup {α : Type} [BEq α] [LawfulBEq α] {as : List α} (h : as.Nodup) :
    as.eraseDups = as := by
  induction as with
  | nil => rfl
  | cons a as ih =>
    obtain ⟨ha, has⟩ := List.nodup_cons.mp h
    have rest : as.filter (fun b => !b == a) = as := List.filter_eq_self.mpr fun b hb => by
      have hne : b ≠ a := fun hab => ha (hab ▸ hb)
      simp [hne]
    rw [List.eraseDups_cons, rest, ih has]

/-- Two graphs that a comparison cannot tell apart, with their nodes in order and no edge twice. -/
structure Same (g1 g2 : Graph) : Prop where
  keys : g1.nodes.map key = g2.nodes.map key
  edges : g1.edges = g2.edges
  ascending : (g1.nodes.map (·.id)).Pairwise (· < ·)
  nodup : g1.edges.Nodup

namespace Same

variable {g g1 g2 : Graph}

theorem ids (h : Same g1 g2) : g1.nodes.map (·.id) = g2.nodes.map (·.id) := by
  simpa [key, Function.comp_def] using congrArg (List.map Prod.fst) h.keys

theorem symm (h : Same g1 g2) : Same g2 g1 where
  keys := h.keys.symm
  edges := h.edges.symm
  ascending := h.ids ▸ h.ascending
  nodup := h.edges ▸ h.nodup

theorem refl (h : Same g1 g2) : Same g1 g1 := { h with keys := rfl, edges := rfl }

theorem pairwise_ids (h : Same g1 g2) :
    ((g1.nodes.filter comparable).map (·.id)).Pairwise (· < ·) :=
  h.ascending.sublist (List.filter_sublist.map _)

theorem comparableIds_eq (h : Same g1 g2) :
    comparableIds g1 = (g1.nodes.filter comparable).map (·.id) :=
  eraseDups_of_nodup (h.pairwise_ids.imp Nat.ne_of_lt)

theorem comparableIds_congr (h : Same g1 g2) : comparableIds g1 = comparableIds g2 := by
  have of_keys : ∀ ns : List Node, (ns.filter comparable).map (·.id) =
      ((ns.map key).filter (·.2 != Canon.emptyHash)).map (·.1) := fun ns => by
    simp only [List.filter_map, List.map_map]
    rfl
  rw [comparableIds, comparableIds, of_keys, of_keys, h.keys]

theorem eraseDups_edges (h : Same g1 g2) :
    (comparableEdges g2).eraseDups = comparableEdges g1 := by
  have same : comparableEdges g2 = comparableEdges g1 := by
    rw [comparableEdges, comparableEdges, h.comparableIds_congr, h.edges]
  rw [same]
  exact eraseDups_of_nodup (h.nodup.filter _)

/-- Every node that takes part is matched to the node of its number. -/
theorem nodeMapping_eq (h : Same g1 g2) :
    nodeMapping g1 g2 = (comparableIds g1).map fun i => (i, i) := by
  have pairs := matchNodes_of_keys h.keys [] (by simp)
  have ascending : ((g1.nodes.filter comparable).map fun a => (a.id, a.id)).Pairwise
      fun p q : Nat × Nat => p.1 < q.1 :=
    List.pairwise_map.mpr (List.pairwise_map.mp h.pairwise_ids)
  have fold : nodeMapping g1 g2 =
      ((matchNodes g1.nodes g2.nodes).map fun p => (p.1.id, p.2.id)).foldl
        (fun m p => Mapping.insert m p.1 p.2) [] := by
    rw [List.foldl_map]
    rfl
  rw [fold, ← List.nil_append g2.nodes, pairs, Mapping.foldl_insert (by simpa using ascending),
    h.comparableIds_eq, List.map_map, List.nil_append]
  rfl

/-- Every edge that takes part is matched to itself. -/
theorem matchEdges_eq (h : Same g1 g2) :
    matchEdges (nodeMapping g1 g2) (comparableEdges g1) (comparableEdges g1) =
      (comparableEdges g1).map fun e => ⟨e, e⟩ := by
  rw [matchEdges, h.nodeMapping_eq]
  refine List.filterMap_eq_map_iff_forall_eq_some.mpr fun e he => ?_
  have ends : e.source ∈ comparableIds g1 ∧ e.target ∈ comparableIds g1 := by
    simpa [comparableEdges] using (List.mem_filter.mp he).2
  have image : mapEdge? ((comparableIds g1).map fun i => (i, i)) e = some e := by
    rw [mapEdge?, Mapping.get?_diagonal ends.1, Mapping.get?_diagonal ends.2]
    rfl
  rw [image]
  simp [he]

end Same

end Arbiter.Similarity
