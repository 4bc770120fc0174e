import Arbiter.Similarity.Compare
import Mathlib.Data.List.Basic
import Mathlib.Data.List.Find
import Mathlib.Data.List.ReduceOption

/-! Matching as extraction from a matrix: a largest cell is taken, its row and its column are
cleared, and so on until only zeros remain. Main statement: on the matrix that has a one where two
nodes are alike, extraction takes the cells of the nodes that `matchNodes` matches, in its order. -/

namespace Arbiter.Similarity

open Dependence

/-- A matrix of numbers, row by row. -/
abbrev Cells := List (List Nat)

namespace Cells

/-- The cells with their places, row by row. -/
def placed (m : Cells) : List ((Nat × Nat) × Nat) :=
  m.zipIdx.flatMap fun r => r.1.zipIdx.map fun c => ((r.2, c.2), c.1)

/-- The largest number in a matrix. -/
def largest (m : Cells) : Nat := m.flatten.max?.getD 0

/-- The place of the first cell that no other exceeds, unless all are zero. -/
def firstLargest? (m : Cells) : Option (Nat × Nat) :=
  if m.largest = 0 then none else (m.placed.find? (·.2 == m.largest)).map (·.1)

/-- Sets column `j` to zero. -/
def clearColumn (m : Cells) (j : Nat) : Cells := m.map (·.set j 0)

/-- Sets row `i` and column `j` to zero. -/
def clear (m : Cells) (i j : Nat) : Cells :=
  clearColumn (m.modify i (·.map fun _ => 0)) j

/-- How many cells are not zero. -/
def filled (m : Cells) : Nat := m.flatten.countP (· != 0)

section Clearing

variable {m rest : Cells} {row : List Nat} {i j x : Nat}

theorem mem_placed : ((i, j), x) ∈ m.placed ↔ ∃ row, m[i]? = some row ∧ row[j]? = some x := by
  simp only [placed, List.mem_flatMap, List.mem_map, Prod.exists, List.mem_zipIdx_iff_getElem?,
    Prod.mk.injEq]
  constructor
  · rintro ⟨row, _, hrow, _, _, hx, ⟨rfl, rfl⟩, rfl⟩
    exact ⟨row, hrow, hx⟩
  · rintro ⟨row, hrow, hx⟩
    exact ⟨row, i, hrow, x, j, hx, ⟨rfl, rfl⟩, rfl⟩

theorem placed_cons (row : List Nat) (rest : Cells) : placed (row :: rest) =
    (row.zipIdx.map fun c => ((0, c.2), c.1)) ++
      rest.placed.map fun c => ((c.1.1 + 1, c.1.2), c.2) := by
  simp [placed, List.zipIdx_succ, List.flatMap_map, List.map_flatMap, Function.comp_def]

theorem clear_zero (row : List Nat) (rest : Cells) (j : Nat) :
    clear (row :: rest) 0 j = (row.map fun _ => 0).set j 0 :: rest.clearColumn j := rfl

theorem clear_succ (row : List Nat) (rest : Cells) (i j : Nat) :
    clear (row :: rest) (i + 1) j = row.set j 0 :: rest.clear i j := rfl

theorem filled_cons (row : List Nat) (rest : Cells) :
    filled (row :: rest) = row.countP (· != 0) + rest.filled := by
  simp [filled]

theorem countP_set_zero (row : List Nat) (j : Nat) :
    (row.set j 0).countP (· != 0) ≤ row.countP (· != 0) := by
  by_cases h : j < row.length
  · rw [List.countP_set h]
    simp
  · rw [List.set_eq_of_length_le (by omega)]

theorem countP_set_zero_lt (hx : row[j]? = some x) (pos : x ≠ 0) :
    (row.set j 0).countP (· != 0) < row.countP (· != 0) := by
  obtain ⟨h, rfl⟩ := List.getElem?_eq_some_iff.mp hx
  have some_one : 0 < row.countP (· != 0) :=
    List.countP_pos_iff.mpr ⟨row[j], List.getElem_mem h, by simpa using pos⟩
  rw [List.countP_set h, if_pos (by simpa using pos), if_neg (by simp), Nat.add_zero]
  exact Nat.sub_lt some_one Nat.one_pos

theorem filled_clearColumn (m : Cells) (j : Nat) : (m.clearColumn j).filled ≤ m.filled := by
  induction m with
  | nil => exact Nat.le_refl _
  | cons row rest ih =>
    rw [clearColumn, List.map_cons, filled_cons, filled_cons]
    exact Nat.add_le_add (countP_set_zero row j) ih

/-- Clearing the row and the column of a cell that is not zero leaves fewer such cells. -/
theorem filled_clear_lt (here : ((i, j), x) ∈ m.placed) (pos : x ≠ 0) :
    (m.clear i j).filled < m.filled := by
  obtain ⟨found, hrow, hx⟩ := mem_placed.mp here
  clear here
  induction m generalizing i with
  | nil => exact absurd hrow (by simp)
  | cons row rest ih =>
    cases i with
    | zero =>
      obtain rfl : row = found := by simpa using hrow
      have none_left : ((row.map fun _ => 0).set j 0).countP (· != 0) = 0 := by
        refine List.countP_eq_zero.mpr fun y hy => ?_
        rcases List.mem_or_eq_of_mem_set hy with hy | rfl
        · obtain ⟨_, -, rfl⟩ := List.mem_map.mp hy
          simp
        · simp
      have some_one := countP_set_zero_lt hx pos
      have others := filled_clearColumn rest j
      rw [clear_zero, filled_cons, filled_cons]
      omega
    | succ i =>
      rw [clear_succ, filled_cons, filled_cons]
      exact Nat.add_lt_add_of_le_of_lt (countP_set_zero row j) (ih (by simpa using hrow))

theorem filled_clear_firstLargest (h : m.firstLargest? = some (i, j)) :
    (m.clear i j).filled < m.filled := by
  unfold firstLargest? at h
  split at h
  · exact absurd h (by simp)
  · rename_i pos
    obtain ⟨⟨place, x⟩, found, rfl⟩ := Option.map_eq_some_iff.mp h
    have largest : x = m.largest := by simpa using List.find?_some found
    exact filled_clear_lt (List.mem_of_find?_eq_some found) (largest ▸ pos)

end Clearing

/-- Takes the place of the first largest cell, clears its row and its column, and goes on until only
zeros remain. -/
def extract (m : Cells) : List (Nat × Nat) :=
  match _h : m.firstLargest? with
  | none => []
  | some (i, j) => (i, j) :: extract (m.clear i j)
termination_by m.filled
decreasing_by exact filled_clear_firstLargest _h

theorem extract_of_none {m : Cells} (h : m.firstLargest? = none) : m.extract = [] := by
  rw [extract]
  split
  · rfl
  · simp_all

theorem extract_of_some {m : Cells} {i j : Nat} (h : m.firstLargest? = some (i, j)) :
    m.extract = (i, j) :: (m.clear i j).extract := by
  rw [extract]
  split
  · simp_all
  · simp_all

/-- A matrix of zeros and ones. -/
def Binary (m : Cells) : Prop := ∀ row ∈ m, ∀ x ∈ row, x ≤ 1

/-- The place of the first cell that is not zero. -/
def firstFilled? (m : Cells) : Option (Nat × Nat) := (m.placed.find? (·.2 != 0)).map (·.1)

section Binary

variable {m rest : Cells} {row : List Nat} {i j : Nat}

theorem Binary.clearColumn (h : Binary m) (j : Nat) : Binary (m.clearColumn j) := by
  intro row hrow x hx
  obtain ⟨before, hbefore, rfl⟩ := List.mem_map.mp hrow
  rcases List.mem_or_eq_of_mem_set hx with hx | rfl
  · exact h before hbefore x hx
  · exact Nat.zero_le 1

theorem Binary.clear (h : Binary m) (i j : Nat) : Binary (m.clear i j) := by
  refine Binary.clearColumn (fun row hrow x hx => ?_) j
  obtain ⟨k, hk⟩ := List.mem_iff_getElem?.mp hrow
  rw [List.getElem?_modify] at hk
  obtain ⟨before, hbefore, rfl⟩ := Option.map_eq_some_iff.mp hk
  split at hx
  · obtain ⟨_, -, rfl⟩ := List.mem_map.mp hx
    exact Nat.zero_le 1
  · exact h before (List.mem_of_getElem? hbefore) x hx

theorem le_largest (m : Cells) {x : Nat} (hx : x ∈ m.flatten) : x ≤ m.largest := by
  unfold largest
  cases hmax : m.flatten.max? with
  | none => exact absurd (List.max?_eq_none_iff.mp hmax ▸ hx) (by simp)
  | some y => exact (List.max?_eq_some_iff.mp hmax).2 x hx

theorem snd_mem_flatten {c : (Nat × Nat) × Nat} (h : c ∈ m.placed) : c.2 ∈ m.flatten := by
  obtain ⟨row, hrow, hx⟩ := mem_placed.mp h
  exact List.mem_flatten.mpr ⟨row, List.mem_of_getElem? hrow, List.mem_of_getElem? hx⟩

/-- Among zeros and ones a largest cell is any that is not zero. -/
theorem firstLargest?_of_binary (h : Binary m) : m.firstLargest? = m.firstFilled? := by
  rw [firstLargest?, firstFilled?]
  split
  · rename_i zero
    have none_filled : m.placed.find? (·.2 != 0) = none :=
      List.find?_eq_none.mpr fun c hc => by
        have := le_largest m (snd_mem_flatten hc)
        simp
        omega
    rw [none_filled]
    rfl
  · rename_i pos
    congr 1
    refine List.find?_congr fun c hc => ?_
    have below := le_largest m (snd_mem_flatten hc)
    have largest_le : m.largest ≤ 1 := by
      unfold largest
      cases hmax : m.flatten.max? with
      | none => exact Nat.zero_le 1
      | some y =>
        obtain ⟨row, hrow, hy⟩ := List.mem_flatten.mp (List.max?_eq_some_iff.mp hmax).1
        exact h row hrow y hy
    rw [Bool.eq_iff_iff, beq_iff_eq, bne_iff_ne]
    omega

theorem find?_zipIdx (row : List Nat) (k : Nat) :
    ((row.zipIdx k).find? (·.1 != 0)).map (·.2) = (row.findIdx? (· != 0)).map (· + k) := by
  induction row generalizing k with
  | nil => rfl
  | cons x row ih =>
    rw [List.zipIdx_cons, List.find?_cons, List.findIdx?_cons]
    cases hx : x != 0 with
    | true => simp
    | false =>
      have shifted : (fun j : Nat => j + (k + 1)) = (fun j => j + k) ∘ (· + 1) := by
        funext j
        simp only [Function.comp_apply]
        omega
      simp only [ih, shifted, Option.map_map, Bool.false_eq_true, if_false]

theorem firstFilled?_cons (row : List Nat) (rest : Cells) : firstFilled? (row :: rest) =
    ((row.findIdx? (· != 0)).map fun j => (0, j)).or
      (rest.firstFilled?.map fun c => (c.1 + 1, c.2)) := by
  have first := find?_zipIdx row 0
  rw [firstFilled?, placed_cons, List.find?_append, List.find?_map, List.find?_map, Option.map_or,
    firstFilled?, Option.map_map, Option.map_map, Option.map_map]
  congr 1
  simp only [Nat.add_zero, Option.map_id'] at first
  rw [← first, Option.map_map]
  rfl

theorem findIdx?_of_zeros (zeros : ∀ x ∈ row, x = 0) : row.findIdx? (· != 0) = none :=
  List.findIdx?_eq_none_iff.mpr fun x hx => by simp [zeros x hx]

theorem zeros_set (zeros : ∀ x ∈ row, x = 0) : ∀ x ∈ row.set j 0, x = 0 := fun x hx => by
  rcases List.mem_or_eq_of_mem_set hx with hx | rfl
  · exact zeros x hx
  · rfl

theorem binary_cons (zeros : ∀ x ∈ row, x = 0) (h : Binary rest) : Binary (row :: rest) := by
  intro r hr x hx
  rcases List.mem_cons.mp hr with rfl | hr
  · exact (zeros x hx).symm ▸ Nat.zero_le 1
  · exact h r hr x hx

/-- A row of zeros is passed over. -/
theorem extract_zeros (zeros : ∀ x ∈ row, x = 0) (h : Binary rest) :
    extract (row :: rest) = rest.extract.map fun c => (c.1 + 1, c.2) := by
  have next : firstLargest? (row :: rest) = rest.firstLargest?.map fun c => (c.1 + 1, c.2) := by
    rw [firstLargest?_of_binary (binary_cons zeros h), firstLargest?_of_binary h,
      firstFilled?_cons, findIdx?_of_zeros zeros]
    rfl
  induction rest using extract.induct generalizing row with
  | case1 rest stop =>
    rw [stop] at next
    rw [extract_of_none stop, extract_of_none next]
    rfl
  | case2 rest i j found ih =>
    rw [found] at next
    have after : firstLargest? (row.set j 0 :: rest.clear i j) =
        (rest.clear i j).firstLargest?.map fun c => (c.1 + 1, c.2) := by
      rw [firstLargest?_of_binary (binary_cons (zeros_set zeros) (h.clear i j)),
        firstLargest?_of_binary (h.clear i j), firstFilled?_cons,
        findIdx?_of_zeros (zeros_set zeros)]
      rfl
    rw [extract_of_some found, extract_of_some next, clear_succ,
      ih (zeros_set zeros) (h.clear i j) after, List.map_cons]

/-- The first one of a row is taken, and its column counts no longer. -/
theorem extract_cons (h : Binary (row :: rest)) (first : row.findIdx? (· != 0) = some j) :
    extract (row :: rest) = (0, j) :: (rest.clearColumn j).extract.map fun c => (c.1 + 1, c.2) := by
  have next : firstLargest? (row :: rest) = some (0, j) := by
    rw [firstLargest?_of_binary h, firstFilled?_cons, first]
    rfl
  have binary : Binary rest := fun r hr => h r (List.mem_cons_of_mem _ hr)
  have zeros : ∀ x ∈ row.map fun _ => 0, x = 0 := fun x hx => by
    obtain ⟨_, -, rfl⟩ := List.mem_map.mp hx
    rfl
  rw [extract_of_some next, clear_zero, extract_zeros (zeros_set zeros) (binary.clearColumn j)]

end Binary

end Cells

/-- A one where two nodes may be matched, and else a zero. -/
def nodeMatrix (g1 g2 : Graph) : Cells :=
  g1.nodes.map fun a => g2.nodes.map fun b => (alike a b).toNat

/-- The row of a node where some columns are cleared. -/
def rowOf (a : Node) (columns : List (Option Node)) : List Nat :=
  columns.map fun c => (c.any (alike a)).toNat

theorem binary_rows (as : List Node) (columns : List (Option Node)) :
    Cells.Binary (as.map (rowOf · columns)) := by
  intro row hrow x hx
  obtain ⟨a, -, rfl⟩ := List.mem_map.mp hrow
  obtain ⟨c, -, rfl⟩ := List.mem_map.mp hx
  exact Bool.toNat_le _

theorem clearColumn_rows (as : List Node) (columns : List (Option Node)) (j : Nat) :
    Cells.clearColumn (as.map (rowOf · columns)) j = as.map (rowOf · (columns.set j none)) := by
  simp [Cells.clearColumn, rowOf, List.map_set, Function.comp_def]

theorem findIdx?_rowOf (a : Node) (columns : List (Option Node)) :
    (rowOf a columns).findIdx? (· != 0) = columns.findIdx? (·.any (alike a)) := by
  rw [rowOf, List.findIdx?_map]
  congr 1
  funext c
  cases h : c.any (alike a) <;> simp [h]

/-- The first free node that is alike stands in the first column that is not cleared and alike. -/
theorem find?_reduceOption (p : Node → Bool) (columns : List (Option Node)) :
    (columns.findIdx? (·.any p) = none ∧ columns.reduceOption.find? p = none) ∨
    ∃ j b, columns.findIdx? (·.any p) = some j ∧ columns[j]? = some (some b) ∧
      columns.reduceOption.find? p = some b ∧
      columns.reduceOption.eraseP p = (columns.set j none).reduceOption := by
  induction columns with
  | nil => exact .inl ⟨rfl, rfl⟩
  | cons c columns ih =>
    cases c with
    | none =>
      rcases ih with ⟨none_here, none_free⟩ | ⟨j, b, here, column, free, erased⟩
      · exact .inl ⟨by simp [List.findIdx?_cons, none_here], by simpa using none_free⟩
      · refine .inr ⟨j + 1, b, by simp [List.findIdx?_cons, here], by simpa using column,
          by simpa using free, by simpa using erased⟩
    | some d =>
      cases hd : p d with
      | true =>
        exact .inr ⟨0, d, by simp [List.findIdx?_cons, hd], rfl, by simp [hd], by simp [hd]⟩
      | false =>
        rcases ih with ⟨none_here, none_free⟩ | ⟨j, b, here, column, free, erased⟩
        · exact .inl ⟨by simp [List.findIdx?_cons, none_here, hd], by simp [none_free, hd]⟩
        · exact .inr ⟨j + 1, b, by simp [List.findIdx?_cons, here, hd], by simpa using column,
            by simp [free, hd], by simp [erased, hd]⟩

/-- Nodes are matched as extraction takes their cells, where the cleared columns are those of the
nodes that are no longer free. -/
theorem matchNodes_eq_extract (as : List Node) (columns : List (Option Node)) :
    (matchNodes as columns.reduceOption).map (fun p => (some p.1, some p.2)) =
      (Cells.extract (as.map (rowOf · columns))).map fun c => (as[c.1]?, columns[c.2]?.join) := by
  induction as generalizing columns with
  | nil =>
    rw [List.map_nil, Cells.extract_of_none rfl]
    rfl
  | cons a as ih =>
    rcases find?_reduceOption (alike a) columns with
      ⟨none_here, none_free⟩ | ⟨j, b, here, column, free, erased⟩
    · have zeros : ∀ x ∈ rowOf a columns, x = 0 := fun x hx => by
        obtain ⟨c, hc, rfl⟩ := List.mem_map.mp hx
        have := List.findIdx?_eq_none_iff.mp none_here c hc
        rw [this]
        rfl
      rw [matchNodes, none_free, List.map_cons, Cells.extract_zeros zeros (binary_rows _ _),
        List.map_map]
      exact ih columns
    · have first := (findIdx?_rowOf a columns).trans here
      have later := ih (columns.set j none)
      have taken := Cells.extract_cons (binary_rows (a :: as) columns) first
      rw [clearColumn_rows] at taken
      simp only [matchNodes, free, erased]
      rw [List.map_cons, List.map_cons, later, taken, List.map_cons, List.map_map, column]
      congr 1
      -- The column that was cleared is not taken again, the other ones are as they were.
      refine List.map_congr_left fun c hc => ?_
      have matched : (as[c.1]?, (columns.set j none)[c.2]?.join) ∈
          (matchNodes as (columns.set j none).reduceOption).map fun p => (some p.1, some p.2) :=
        later ▸ List.mem_map_of_mem hc
      obtain ⟨p, -, hp⟩ := List.mem_map.mp matched
      have other : j ≠ c.2 := by
        rintro rfl
        have := (Prod.mk.inj hp).2
        rw [List.getElem?_set_self'] at this
        cases hcol : columns[c.2]? <;> simp [hcol] at this
      simp [List.getElem?_set_ne other]

/-- Nodes are matched in the order in which extraction takes their cells from the matrix. -/
theorem matchNodes_nodeMatrix (g1 g2 : Graph) :
    (matchNodes g1.nodes g2.nodes).map (fun p => (some p.1, some p.2)) =
      (nodeMatrix g1 g2).extract.map fun c => (g1.nodes[c.1]?, g2.nodes[c.2]?) := by
  have all := matchNodes_eq_extract g1.nodes (g2.nodes.map some)
  have rows : g1.nodes.map (rowOf · (g2.nodes.map some)) = nodeMatrix g1 g2 := by
    simp [nodeMatrix, rowOf, Function.comp_def]
  have free : (g2.nodes.map some).reduceOption = g2.nodes := by
    simp [List.reduceOption]
  rw [rows, free] at all
  rw [all]
  refine List.map_congr_left fun c _ => ?_
  rw [List.getElem?_map]
  cases g2.nodes[c.2]? <;> rfl

end Arbiter.Similarity
