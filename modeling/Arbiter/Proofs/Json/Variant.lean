import Arbiter.Proofs.Json.Finite
import Mathlib.Data.List.Forall2
import Mathlib.Data.List.Perm.Lattice

/-! Variants of a value: the fields of its objects stand in another order, and there are further fields
among them. Main statement: a record is decoded from each variant of what it is written as if each of its
fields is. -/

namespace Arbiter.Json

/-- The second value is a variant of the first one. The further fields have other names than those that
are there, and hold values as `extra` says. -/
inductive Varies (extra : Json → Prop) : Json → Json → Prop
  | null : Varies extra .null .null
  | bool (b : Bool) : Varies extra (.bool b) (.bool b)
  | number (n : Numeral) : Varies extra (.number n) (.number n)
  | string (s : String) : Varies extra (.string s) (.string s)
  | array {items items' : List Json} (each : List.Forall₂ (Varies extra) items items') :
    Varies extra (.array items) (.array items')
  | object {fields kept more fields' : List (Name × Json)}
    (names : kept.map (·.1.text) = fields.map (·.1.text))
    (each : List.Forall₂ (Varies extra) (fields.map (·.2)) (kept.map (·.2)))
    (order : fields'.Perm (kept ++ more)) (unknown : ∀ f ∈ more, f.1.text ∉ fields.map (·.1.text))
    (fit : ∀ f ∈ more, extra f.2) : Varies extra (.object fields) (.object fields')

theorem Varies.string_eq {extra : Json → Prop} {s : String} {j : Json} (h : Varies extra (.string s) j) :
    j = .string s := by
  cases h
  rfl

theorem Varies.number_eq {extra : Json → Prop} {n : Numeral} {j : Json} (h : Varies extra (.number n) j) :
    j = .number n := by
  cases h
  rfl

section Same

variable {extra : Json → Prop}

mutual

theorem varies_same : (j : Json) → j.Written → Varies extra j j
  | .null => fun _ => .null
  | .bool b => fun _ => .bool b
  | .number n => fun _ => .number n
  | .string s => fun _ => .string s
  | .unreadable => False.elim
  | .array items => fun h => .array (items_same items h)
  | .object fields => fun h =>
    have order : fields.Perm (fields ++ []) := .of_eq (List.append_nil fields).symm
    .object rfl (fields_same fields h) order (fun _ => nofun) fun _ => nofun

theorem items_same : (items : List Json) → AllWritten items → List.Forall₂ (Varies extra) items items
  | [] => fun _ => .nil
  | j :: items => fun h => .cons (varies_same j h.1) (items_same items h.2)

theorem fields_same : (fields : List (Name × Json)) → FieldsWritten fields →
    List.Forall₂ (Varies extra) (fields.map (·.2)) (fields.map (·.2))
  | [] => fun _ => .nil
  | (_, j) :: fields => fun h => .cons (varies_same j h.2.1) (fields_same fields h.2.2)

end

/-- The same fields in another order, and further ones. -/
theorem varies_of_perm {fields more fields' : List (Name × Json)} (written : (object fields).Written)
    (order : fields'.Perm (fields ++ more)) (unknown : ∀ f ∈ more, f.1.text ∉ fields.map (·.1.text))
    (fit : ∀ f ∈ more, extra f.2) : Varies extra (.object fields) (.object fields') :=
  .object rfl (fields_same fields written) order unknown fit

end Same

/-- Each variant of the value is decoded as `a`. -/
def Decodes (extra : Json → Prop) (decode : Decoder α) (j : Json) (a : α) : Prop :=
  ∀ j', Varies extra j j' → decode j' = some a

section Values

variable {extra : Json → Prop} {decode : Decoder α} {encode : α → Json}

theorem decodes_string (s : String) : Decodes extra toString? (.string s) s := by
  rintro _ ⟨⟩
  rfl

theorem decodes_word {words : List (String × α)} {s : String} {a : α} (h : words.lookup s = some a) :
    Decodes extra (toWord? words) (.string s) a := by
  rintro _ ⟨⟩
  exact h

theorem decodes_number {n : Numeral} {a : α} (h : decode (.number n) = some a) :
    Decodes extra decode (.number n) a := by
  rintro _ ⟨⟩
  exact h

theorem decodes_ofNat {n : Nat} (h : n < UInt64.size) : Decodes extra toNat64? (.ofNat n) n :=
  decodes_number (toNat64?_ofNat h)

theorem decodes_ofUInt32 (n : UInt32) : Decodes extra toUInt32? (.ofNat n.toNat) n :=
  decodes_number (toUInt32?_ofNat n)

theorem decodes_ofInt64 (i : Int64) : Decodes extra toInt64? (.ofInt i.toInt) i :=
  decodes_number (toInt64?_ofInt i)

theorem decodes_option {o : Option α} (some_value : ∀ a ∈ o, encode a ≠ .null)
    (h : ∀ a ∈ o, Decodes extra decode (encode a) a) :
    Decodes extra (toOption? decode) (.ofOption encode o) o := by
  intro j' varies
  cases o with
  | none =>
    cases varies
    rfl
  | some a =>
    have read := h a rfl j' varies
    rw [toOption?.eq_def]
    split
    · have none := some_value a rfl
      rw [ofOption] at varies
      cases found : encode a <;> rw [found] at varies <;> cases varies
      exact absurd found none
    · rw [read]
      rfl

theorem mapM_of_forall₂ {items items' : List Json} {xs : List α}
    (each : List.Forall₂ (Varies extra) items items')
    (h : List.Forall₂ (Decodes extra decode) items xs) : items'.mapM decode = some xs := by
  induction each generalizing xs with
  | nil =>
    cases h
    rfl
  | cons here _ ih =>
    cases h with
    | cons first rest =>
      rw [List.mapM_cons, first _ here, ih rest]
      rfl

theorem decodes_list {xs : List α} (h : ∀ a ∈ xs, Decodes extra decode (encode a) a) :
    Decodes extra (toList? decode) (.ofList encode xs) xs := by
  rintro _ ⟨⟩
  rename_i items' each
  refine mapM_of_forall₂ each ?_
  rw [List.forall₂_map_left_iff, List.forall₂_same]
  exact h

end Values

section Records

variable {extra : Json → Prop} {decode : Decoder α} {name : String} {j : Json} {a : α}

theorem lookup_of_unique {entries : List (String × Json)} (here : (name, j) ∈ entries)
    (only : ∀ k, (name, k) ∈ entries → k = j) : entries.lookup name = some j := by
  induction entries with
  | nil => cases here
  | cons entry entries ih =>
    obtain ⟨first, k⟩ := entry
    rw [List.lookup_cons]
    by_cases same : name = first
    · subst same
      rw [beq_self_eq_true, only k List.mem_cons_self]
    · rw [beq_false_of_ne same]
      obtain first | later := List.mem_cons.1 here
      · exact absurd (Prod.mk.inj first).1 same
      · exact ih later fun k there => only k (.tail _ there)

/-- The fields hold a variant of the value under the name. -/
def Fields.Holds (extra : Json → Prop) (fs : Fields) (name : String) (j : Json) : Prop :=
  ∃ j', fs.find? name = some j' ∧ Varies extra j j'

theorem exists_kept {fields kept : List (Name × Json)}
    (names : kept.map (·.1.text) = fields.map (·.1.text))
    (each : List.Forall₂ (Varies extra) (fields.map (·.2)) (kept.map (·.2))) {f : Name × Json}
    (here : f ∈ fields) : ∃ g ∈ kept, g.1.text = f.1.text ∧ Varies extra f.2 g.2 := by
  induction fields generalizing kept with
  | nil => cases here
  | cons first fields ih =>
    cases kept with
    | nil => cases names
    | cons g kept =>
      rw [List.map_cons, List.map_cons, List.cons_eq_cons] at names
      cases each with
      | cons value each =>
        obtain rfl | later := List.mem_cons.1 here
        · exact ⟨g, List.mem_cons_self, names.1, value⟩
        · obtain ⟨h, there, same⟩ := ih names.2 each later
          exact ⟨h, .tail _ there, same⟩

theorem exists_varied {items items' : List Json} (each : List.Forall₂ (Varies extra) items items')
    {j' : Json} (here : j' ∈ items') : ∃ j ∈ items, Varies extra j j' := by
  induction each with
  | nil => cases here
  | @cons j k items items' value _ ih =>
    obtain rfl | later := List.mem_cons.1 here
    · exact ⟨j, .head _, value⟩
    · obtain ⟨i, there, varies⟩ := ih later
      exact ⟨i, .tail _ there, varies⟩

/-- A record reads a variant of an object that has all its fields once. -/
theorem fieldsOf?_variant (names : List String) {fields fields' : List (Name × Json)}
    (distinct : (fields.map (·.1.text)).Nodup) (known : ∀ n ∈ names, n ∈ fields.map (·.1.text))
    (varies : Varies extra (.object fields) (.object fields')) :
    ∃ fs, fieldsOf? names (.object fields') = some fs ∧ ∀ f ∈ fields, fs.Holds extra f.1.text f.2 := by
  cases varies with
  | @object _ kept more _ same each order unknown fit =>
    have once : (names.all fun name => (fields'.filter (·.1.text == name)).length ≤ 1) = true := by
      rw [List.all_eq_true]
      intro n listed
      have count : (fields'.filter (·.1.text == n)).length =
          (fields.map (·.1.text)).count n + (more.map (·.1.text)).count n := by
        rw [← same, ← List.count_append, ← List.map_append, List.count, List.countP_map,
          ← order.countP_eq, List.countP_eq_length_filter]
        rfl
      have none : (more.map (·.1.text)).count n = 0 := by
        rw [List.count_eq_zero]
        intro there
        obtain ⟨f, here, rfl⟩ := List.mem_map.1 there
        exact unknown f here (known _ listed)
      rw [count, none, decide_eq_true_iff]
      exact List.nodup_iff_count_le_one.1 distinct n
    refine ⟨_, by rw [fieldsOf?, if_pos once], fun f here => ?_⟩
    obtain ⟨g, there, name, value⟩ := exists_kept same each here
    refine ⟨g.2, lookup_of_unique ?_ ?_, value⟩
    · have listed := order.mem_iff.2 (List.mem_append_left more there)
      rw [← name]
      exact List.mem_map_of_mem listed
    · intro k listed
      obtain ⟨h, inside, entry⟩ := List.mem_map.1 listed
      have parts : (h.1.text, h.2) = (f.1.text, k) := entry
      obtain ⟨alike, rfl⟩ := Prod.mk.inj parts
      obtain old | new := List.mem_append.1 (order.mem_iff.1 inside)
      · rw [List.inj_on_of_nodup_map (same ▸ distinct) old there (alike.trans name.symm)]
      · exact absurd (List.mem_map_of_mem here) (alike ▸ unknown h new)

/-- Without its first field and the field of that name, an object and its variant are still that. -/
theorem Varies.tail {f : Name × Json} {fields fields' : List (Name × Json)}
    (varies : Varies extra (.object (f :: fields)) (.object fields'))
    (apart : ∀ g ∈ fields, g.1.text ≠ f.1.text) :
    Varies extra (.object fields) (.object (fields'.filter (·.1.text != f.1.text))) := by
  cases varies with
  | @object _ kept more _ names each order unknown fit =>
    cases kept with
    | nil => cases names
    | cons g kept =>
      rw [List.map_cons, List.map_cons, List.cons_eq_cons] at names
      rw [List.map_cons, List.map_cons, List.forall₂_cons] at each
      have others : ∀ h ∈ kept ++ more, (h.1.text != f.1.text) = true := by
        intro h here
        rw [bne_iff_ne]
        obtain old | new := List.mem_append.1 here
        · have named : h.1.text ∈ fields.map (·.1.text) := names.2 ▸ List.mem_map_of_mem old
          obtain ⟨g, listed, same⟩ := List.mem_map.1 named
          exact same ▸ apart g listed
        · exact fun same => unknown h new (same ▸ List.mem_cons_self)
      have left : (fields'.filter (·.1.text != f.1.text)).Perm (kept ++ more) := by
        have filtered := order.filter (·.1.text != f.1.text)
        rwa [List.cons_append, List.filter_cons_of_neg (by simp [names.1]),
          List.filter_eq_self.2 others] at filtered
      exact .object names.2 each.2 left (fun h new there => unknown h new (.tail _ there)) fit

/-- The variant of an object whose fields are kept is kept, if the values of further fields are. -/
theorem isKept_variant {fields fields' : List (Name × Json)} {depth : Nat}
    (varies : Varies extra (.object fields) (.object fields'))
    (known : ∀ f ∈ fields, ∀ j, Varies extra f.2 j → j.isKept depth = true)
    (others : ∀ j, extra j → j.isKept depth = true) : (object fields').isKept (depth + 1) = true := by
  cases varies with
  | @object _ kept more _ names each order unknown fit =>
    rw [isKept]
    refine List.all_eq_true.2 fun g here => ?_
    obtain old | new := List.mem_append.1 (order.mem_iff.1 here)
    · obtain ⟨j, listed, value⟩ := exists_varied each (List.mem_map_of_mem old)
      obtain ⟨f, there, rfl⟩ := List.mem_map.1 listed
      exact known f there g.2 value
    · exact others g.2 (fit g new)

theorem Fields.Holds.required {fs : Fields} (h : fs.Holds extra name j) (read : Decodes extra decode j a) :
    fs.required name decode = some a := by
  obtain ⟨j', found, varies⟩ := h
  rw [Fields.required, found]
  exact read j' varies

theorem Fields.Holds.withDefault {fs : Fields} (h : fs.Holds extra name j)
    (read : Decodes extra decode j a) (fallback : α) : fs.withDefault name decode fallback = some a := by
  obtain ⟨j', found, varies⟩ := h
  rw [Fields.withDefault, found]
  exact read j' varies

theorem Fields.Holds.nullable {fs : Fields} {o : Option α} (h : fs.Holds extra name j)
    (read : Decodes extra (toOption? decode) j o) : fs.nullable name decode = some o := by
  obtain ⟨j', found, varies⟩ := h
  rw [Fields.nullable, found]
  exact read j' varies

/-- A record is decoded from each variant of what it is written as if each of its fields is. -/
theorem decodes_record {fields : List (Name × Json)} {names : List String} {build : Fields → Option α}
    (same : names = fields.map (·.1.text)) (distinct : names.Nodup)
    (h : ∀ fs : Fields, fields.Forall (fun f => fs.Holds extra f.1.text f.2) → build fs = some a) :
    Decodes extra (fun j => fieldsOf? names j >>= build) (.object fields) a := by
  intro j' varies
  cases varies with
  | object sameNames each order unknown fit =>
    obtain ⟨fs, found, holds⟩ := fieldsOf?_variant names (same ▸ distinct) (fun _ listed => same ▸ listed)
      (.object sameNames each order unknown fit)
    simp only [found, Option.bind_eq_bind, Option.bind_some]
    exact h fs (List.forall_iff_forall_mem.2 holds)

end Records

end Arbiter.Json
