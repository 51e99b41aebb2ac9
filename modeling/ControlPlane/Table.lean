/-! Tables: finite maps as lists of rows in ascending order of their keys. A table has one form, so
tables with the same rows are equal. -/

namespace ControlPlane

structure Table (κ ν : Type) [Ord κ] where
  rows : List (κ × ν)
  ascending : rows.Pairwise fun a b => compare a.1 b.1 = .lt

namespace Table

variable {κ ν : Type} [Ord κ]

def empty : Table κ ν := ⟨[], .nil⟩

instance : Inhabited (Table κ ν) := ⟨empty⟩

theorem ext {s t : Table κ ν} (h : s.rows = t.rows) : s = t := by
  cases s; cases t; cases h; rfl

def lookup (key : κ) : List (κ × ν) → Option ν
  | [] => none
  | (k, v) :: rest => if compare k key = .eq then some v else lookup key rest

def find? (table : Table κ ν) (key : κ) : Option ν := lookup key table.rows

def contains (table : Table κ ν) (key : κ) : Bool := (table.find? key).isSome

def values (table : Table κ ν) : List ν := table.rows.map (·.2)

def filter (table : Table κ ν) (keep : κ → ν → Bool) : Table κ ν where
  rows := table.rows.filter fun row => keep row.1 row.2
  ascending := table.ascending.filter _

def erase (table : Table κ ν) (key : κ) : Table κ ν :=
  table.filter fun k _ => compare k key != .eq

/-- Puts a row in its place, and removes the one of the same key. -/
def insertRow (key : κ) (value : ν) : List (κ × ν) → List (κ × ν)
  | [] => [(key, value)]
  | (k, v) :: rest =>
    match compare key k with
    | .lt => (key, value) :: (k, v) :: rest
    | .eq => (key, value) :: rest
    | .gt => (k, v) :: insertRow key value rest

theorem mem_insertRow {key : κ} {value : ν} {rows : List (κ × ν)} {row : κ × ν}
    (h : row ∈ insertRow key value rows) : row = (key, value) ∨ row ∈ rows := by
  induction rows with
  | nil => simpa [insertRow] using h
  | cons r rest ih =>
    simp only [insertRow] at h
    split at h
    · simpa using h
    · rcases List.mem_cons.1 h with h | h
      · exact .inl h
      · exact .inr (List.mem_cons_of_mem _ h)
    · rcases List.mem_cons.1 h with h | h
      · exact .inr (h ▸ List.mem_cons_self)
      · exact (ih h).imp_right (List.mem_cons_of_mem _)

variable [Std.TransOrd κ]

theorem insertRow_ascending {key : κ} {value : ν} {rows : List (κ × ν)}
    (h : rows.Pairwise fun a b => compare a.1 b.1 = .lt) :
    (insertRow key value rows).Pairwise fun a b => compare a.1 b.1 = .lt := by
  induction rows with
  | nil => simp [insertRow]
  | cons r rest ih =>
    rw [List.pairwise_cons] at h
    simp only [insertRow]
    split
    · rename_i hlt
      refine List.pairwise_cons.2 ⟨fun row hrow => ?_, List.pairwise_cons.2 h⟩
      rcases List.mem_cons.1 hrow with rfl | hrow
      · exact hlt
      · exact Std.TransCmp.lt_trans hlt (h.1 row hrow)
    · rename_i heq
      refine List.pairwise_cons.2 ⟨fun row hrow => ?_, h.2⟩
      exact Std.TransCmp.lt_of_eq_of_lt heq (h.1 row hrow)
    · rename_i hgt
      refine List.pairwise_cons.2 ⟨fun row hrow => ?_, ih h.2⟩
      rcases mem_insertRow hrow with rfl | hrow
      · exact Std.OrientedCmp.lt_of_gt hgt
      · exact h.1 row hrow

def insert (table : Table κ ν) (key : κ) (value : ν) : Table κ ν where
  rows := insertRow key value table.rows
  ascending := insertRow_ascending table.ascending

theorem eq_of_mem_iff {xs ys : List (κ × ν)}
    (hx : xs.Pairwise fun a b => compare a.1 b.1 = .lt)
    (hy : ys.Pairwise fun a b => compare a.1 b.1 = .lt) (h : ∀ row, row ∈ xs ↔ row ∈ ys) :
    xs = ys := by
  have irrefl (row : κ × ν) : compare row.1 row.1 ≠ .lt := by simp
  induction xs generalizing ys with
  | nil =>
    cases ys with
    | nil => rfl
    | cons y ys => exact absurd ((h y).2 List.mem_cons_self) List.not_mem_nil
  | cons x xs ih =>
    cases ys with
    | nil => exact absurd ((h x).1 List.mem_cons_self) List.not_mem_nil
    | cons y ys =>
      rw [List.pairwise_cons] at hx hy
      obtain rfl : x = y := by
        rcases List.mem_cons.1 ((h x).1 List.mem_cons_self) with h' | hxs
        · exact h'
        · rcases List.mem_cons.1 ((h y).2 List.mem_cons_self) with h' | hys
          · exact h'.symm
          · exact absurd (Std.TransCmp.lt_trans (hx.1 y hys) (hy.1 x hxs)) (irrefl x)
      congr 1
      refine ih hx.2 hy.2 fun row => ⟨fun hr => ?_, fun hr => ?_⟩
      · rcases List.mem_cons.1 ((h row).1 (List.mem_cons_of_mem _ hr)) with rfl | h'
        · exact absurd (hx.1 _ hr) (irrefl _)
        · exact h'
      · rcases List.mem_cons.1 ((h row).2 (List.mem_cons_of_mem _ hr)) with rfl | h'
        · exact absurd (hy.1 _ hr) (irrefl _)
        · exact h'

section Lawful

variable [Std.LawfulEqOrd κ]

omit [Std.TransOrd κ] in
theorem lookup_eq_some_iff {rows : List (κ × ν)} {key : κ} {value : ν}
    (h : rows.Pairwise fun a b => compare a.1 b.1 = .lt) :
    lookup key rows = some value ↔ (key, value) ∈ rows := by
  induction rows with
  | nil => simp [lookup]
  | cons r rest ih =>
    rw [List.pairwise_cons] at h
    simp only [lookup]
    split
    · rename_i heq
      have hkey : r.1 = key := Std.LawfulEqOrd.eq_of_compare heq
      constructor
      · intro hv
        rw [← hkey, ← Option.some.inj hv]
        exact List.mem_cons_self
      · intro hv
        rcases List.mem_cons.1 hv with hv | hv
        · rw [← hv]
        · have := h.1 _ hv
          rw [heq] at this
          cases this
    · rename_i hne
      rw [ih h.2]
      constructor
      · exact List.mem_cons_of_mem _
      · intro hv
        rcases List.mem_cons.1 hv with hv | hv
        · rw [← hv] at hne
          exact absurd Std.ReflCmp.compare_self hne
        · exact hv

omit [Std.TransOrd κ] in
/-- A table holds the rows that can be found in it. -/
theorem find?_eq_some_iff {table : Table κ ν} {key : κ} {value : ν} :
    table.find? key = some value ↔ (key, value) ∈ table.rows :=
  lookup_eq_some_iff table.ascending

omit [Std.LawfulEqOrd κ] [Std.TransOrd κ] in
theorem ne_of_find? {table : Table κ ν} {key other : κ} {value : ν}
    (h : table.find? key = some value) (hn : table.find? other = none) : key ≠ other := by
  rintro rfl
  rw [h] at hn
  cases hn

omit [Std.TransOrd κ] in
theorem mem_values {table : Table κ ν} {value : ν} :
    value ∈ table.values ↔ ∃ key, table.find? key = some value := by
  simp [values, find?_eq_some_iff]

omit [Std.TransOrd κ] in
theorem find?_filter {table : Table κ ν} {keep : κ → ν → Bool} {key : κ} :
    (table.filter keep).find? key = (table.find? key).filter (keep key) := by
  ext value
  rw [find?_eq_some_iff, Option.filter_eq_some_iff, find?_eq_some_iff]
  simp [filter]

omit [Std.TransOrd κ] [Std.LawfulEqOrd κ] in
theorem values_filter {table : Table κ ν} {keep : ν → Bool} :
    (table.filter fun _ value => keep value).values = table.values.filter keep := by
  simp [values, filter, List.filter_map, Function.comp_def]

omit [Std.TransOrd κ] [Std.LawfulEqOrd κ] in
theorem contains_iff {table : Table κ ν} {key : κ} :
    table.contains key = true ↔ ∃ value, table.find? key = some value :=
  Option.isSome_iff_exists

omit [Std.TransOrd κ] in
/-- What relates rows of different keys relates the values of a table one after the other. -/
theorem values_pairwise {table : Table κ ν} {R : ν → ν → Prop}
    (h : ∀ a b u v, table.find? a = some u → table.find? b = some v → a ≠ b → R u v) :
    table.values.Pairwise R := by
  refine List.pairwise_map.2 (table.ascending.imp_of_mem fun {x y} hx hy hlt => ?_)
  refine h x.1 y.1 x.2 y.2 (find?_eq_some_iff.2 hx) (find?_eq_some_iff.2 hy) fun hxy => ?_
  simp [hxy] at hlt

variable [DecidableEq κ]

omit [Std.TransOrd κ] in
theorem lookup_cons {key other : κ} {value : ν} {rows : List (κ × ν)} :
    lookup other ((key, value) :: rows) = if key = other then some value else lookup other rows := by
  simp [lookup]

omit [Std.TransOrd κ] in
theorem lookup_insertRow {key other : κ} {value : ν} {rows : List (κ × ν)} :
    lookup other (insertRow key value rows) =
      if key = other then some value else lookup other rows := by
  induction rows with
  | nil => exact lookup_cons
  | cons r rest ih =>
    simp only [insertRow]
    split
    · rw [lookup_cons]
    · rename_i heq
      have hkey : key = r.1 := Std.LawfulEqOrd.eq_of_compare heq
      rw [lookup_cons, lookup_cons, hkey]
      split <;> rfl
    · rename_i hgt
      rw [lookup_cons, lookup_cons, ih]
      by_cases hr : r.1 = other
      · rw [if_pos hr, if_pos hr, if_neg]
        rintro rfl
        simp [hr] at hgt
      · rw [if_neg hr, if_neg hr]

theorem find?_insert {table : Table κ ν} {key other : κ} {value : ν} :
    (table.insert key value).find? other = if key = other then some value else table.find? other :=
  lookup_insertRow

omit [Std.TransOrd κ] in
theorem find?_erase {table : Table κ ν} {key other : κ} :
    (table.erase key).find? other = if other = key then none else table.find? other := by
  rw [erase, find?_filter]
  cases table.find? other <;> by_cases h : other = key <;>
    simp [Option.filter, h]

omit [DecidableEq κ] in
/-- Tables in which the same rows are found are equal. -/
theorem eq_of_find? {s t : Table κ ν} (h : ∀ key, s.find? key = t.find? key) : s = t := by
  have hmem (row : κ × ν) : row ∈ s.rows ↔ row ∈ t.rows := by
    rw [← find?_eq_some_iff, ← find?_eq_some_iff, h]
  exact ext (eq_of_mem_iff s.ascending t.ascending hmem)

omit [DecidableEq κ] [Std.LawfulEqOrd κ] in
theorem insertRow_perm {key : κ} {value : ν} {rows : List (κ × ν)} (h : lookup key rows = none) :
    (insertRow key value rows).Perm ((key, value) :: rows) := by
  induction rows with
  | nil => exact .refl _
  | cons r rest ih =>
    simp only [lookup] at h
    split at h
    · cases h
    rename_i hne
    simp only [insertRow]
    split
    · exact .refl _
    · exact absurd (Std.OrientedCmp.eq_symm ‹_›) hne
    · exact (List.Perm.cons r (ih h)).trans (.swap _ r rest)

omit [DecidableEq κ] [Std.LawfulEqOrd κ] in
theorem values_insert {table : Table κ ν} {key : κ} (value : ν) (h : table.find? key = none) :
    (table.insert key value).values.Perm (value :: table.values) :=
  (insertRow_perm h).map _

theorem erase_of_none {table : Table κ ν} {key : κ} (h : table.find? key = none) :
    table.erase key = table := by
  refine eq_of_find? fun other => ?_
  rw [find?_erase]
  split
  · rename_i heq
    exact (heq ▸ h).symm
  · rfl

theorem erase_insert {table : Table κ ν} {key other : κ} {value : ν} (h : key ≠ other) :
    (table.insert key value).erase other = (table.erase other).insert key value := by
  refine eq_of_find? fun k => ?_
  simp only [find?_erase, find?_insert]
  by_cases hk : k = other
  · subst hk
    simp [h]
  · simp [hk]

end Lawful

end Table

end ControlPlane
