/-! Tables by identifier. The entries stand in the order of their identifiers, each of which occurs
once. -/

namespace Arbiter

structure Table (α : Type) where
  entries : List (Int64 × α)
  ordered : entries.Pairwise fun a b => a.1 < b.1

namespace Table

variable {α : Type}

/-- Puts a value under a key, in place of one that is there. -/
def put (key : Int64) (value : α) : List (Int64 × α) → List (Int64 × α)
  | [] => [(key, value)]
  | e :: rest =>
    if key < e.1 then (key, value) :: e :: rest
    else if key = e.1 then (key, value) :: rest
    else e :: put key value rest

theorem mem_put {key : Int64} {value : α} {l : List (Int64 × α)} {e : Int64 × α}
    (h : e ∈ put key value l) : e.1 = key ∨ e ∈ l := by
  induction l with
  | nil => simp_all [put]
  | cons a rest ih =>
    unfold put at h
    split at h
    · simp_all only [List.mem_cons]
      rcases h with rfl | h
      · exact .inl rfl
      · exact .inr h
    · split at h
      · simp only [List.mem_cons] at h ⊢
        rcases h with rfl | h
        · exact .inl rfl
        · exact .inr (.inr h)
      · simp only [List.mem_cons] at h ⊢
        rcases h with rfl | h
        · exact .inr (.inl rfl)
        · exact (ih h).imp_right .inr

theorem put_ordered {key : Int64} {value : α} {l : List (Int64 × α)}
    (h : l.Pairwise fun a b => a.1 < b.1) :
    (put key value l).Pairwise fun a b => a.1 < b.1 := by
  induction l with
  | nil => simp [put]
  | cons a rest ih =>
    rw [List.pairwise_cons] at h
    unfold put
    split
    · rename_i lt
      refine List.pairwise_cons.2 ⟨fun e he => ?_, List.pairwise_cons.2 h⟩
      rcases List.mem_cons.1 he with rfl | he
      · exact lt
      · exact Int64.lt_trans lt (h.1 e he)
    · split
      · rename_i eq
        exact List.pairwise_cons.2 ⟨fun e he => eq ▸ h.1 e he, h.2⟩
      · rename_i notLt ne
        refine List.pairwise_cons.2 ⟨fun e he => ?_, ih h.2⟩
        rcases mem_put he with eq | he
        · rw [eq]
          exact Int64.lt_of_le_of_ne (Int64.not_lt.1 notLt) (Ne.symm ne)
        · exact h.1 e he

def empty : Table α := ⟨[], .nil⟩

def get? (t : Table α) (key : Int64) : Option α := t.entries.lookup key

def insert (t : Table α) (key : Int64) (value : α) : Table α :=
  ⟨put key value t.entries, put_ordered t.ordered⟩

/-- The values in the order of their keys. -/
def values (t : Table α) : List α := t.entries.map (·.2)

@[simp] theorem get?_empty (key : Int64) : (empty : Table α).get? key = none := rfl

theorem lookup_cons_eq (key : Int64) (e : Int64 × α) (l : List (Int64 × α)) :
    (e :: l).lookup key = if key = e.1 then some e.2 else l.lookup key := by
  obtain ⟨k, value⟩ := e
  rw [List.lookup_cons]
  by_cases h : key = k
  · simp [h]
  · simp [h, beq_false_of_ne h]

theorem lookup_put (key other : Int64) (value : α) (l : List (Int64 × α)) :
    (put key value l).lookup other = if other = key then some value else l.lookup other := by
  induction l with
  | nil => simp [put, lookup_cons_eq]
  | cons a rest ih =>
    unfold put
    split
    · simp [lookup_cons_eq]
    · split
      · rename_i eq
        simp only [lookup_cons_eq, ← eq]
        split <;> rfl
      · rename_i notLt ne
        simp only [lookup_cons_eq, ih]
        grind

@[simp] theorem get?_insert (t : Table α) (key other : Int64) (value : α) :
    (t.insert key value).get? other = if other = key then some value else t.get? other :=
  lookup_put key other value t.entries

end Table

end Arbiter
