/-!
# Tables

A table maps texts to values. Its entries stand in strictly ascending order
of their keys, by code point, so a table has one form for each mapping: two
tables that answer every look-up alike are equal (`ext_get?`), whatever
their histories.
-/

namespace StagedWorkflow

/-- A finite map with text keys. -/
structure Table (α : Type) where
  /-- The entries, in ascending order of their keys. -/
  toList : List (String × α)
  ascending : toList.Pairwise fun a b => a.1 < b.1

namespace Table

variable {α β : Type}

/-- The table without entries. -/
def empty : Table α := ⟨[], .nil⟩

instance : EmptyCollection (Table α) := ⟨empty⟩

instance : Inhabited (Table α) := ⟨∅⟩

/-- The value at a key. -/
def get? (t : Table α) (key : String) : Option α :=
  t.toList.lookup key

/-- Whether a key has a value. -/
def contains (t : Table α) (key : String) : Bool :=
  (t.get? key).isSome

/-- The keys, in ascending order. -/
def keys (t : Table α) : List String :=
  t.toList.map (·.1)

/-- The number of entries. -/
def size (t : Table α) : Nat :=
  t.toList.length

/-- Whether there are no entries. -/
def isEmpty (t : Table α) : Bool :=
  t.toList.isEmpty

/-- The entries with one more, in its place among them; an entry with the
same key gives way. -/
def place (key : String) (value : α) : List (String × α) → List (String × α)
  | [] => [(key, value)]
  | head :: rest =>
    if key < head.1 then (key, value) :: head :: rest
    else if key = head.1 then (key, value) :: rest
    else head :: place key value rest

theorem mem_place {key : String} {value : α} {entries : List (String × α)} {e : String × α}
    (h : e ∈ place key value entries) : e = (key, value) ∨ e ∈ entries := by
  induction entries with
  | nil => simpa [place] using h
  | cons head rest ih => grind [place]

theorem pairwise_place {key : String} {value : α} {entries : List (String × α)}
    (h : entries.Pairwise fun a b => a.1 < b.1) :
    (place key value entries).Pairwise fun a b => a.1 < b.1 := by
  induction entries with
  | nil => simp [place]
  | cons head rest ih =>
    obtain ⟨above, rest_ascending⟩ := List.pairwise_cons.mp h
    rw [place]
    split
    · next lt =>
      refine List.pairwise_cons.mpr ⟨fun e he => ?_, h⟩
      rcases List.mem_cons.mp he with rfl | he
      · exact lt
      · exact String.lt_trans lt (above e he)
    · split
      · next eq => exact List.pairwise_cons.mpr ⟨fun e he => eq ▸ above e he, rest_ascending⟩
      · next not_lt ne =>
        refine List.pairwise_cons.mpr ⟨fun e he => ?_, ih rest_ascending⟩
        rcases mem_place he with rfl | he
        · exact Std.lt_of_le_of_ne (String.not_lt.mp not_lt) (Ne.symm ne)
        · exact above e he

/-- The table with a value at a key, in place of the one it had. -/
def insert (t : Table α) (key : String) (value : α) : Table α :=
  ⟨place key value t.toList, pairwise_place t.ascending⟩

/-- The table without a key. -/
def erase (t : Table α) (key : String) : Table α :=
  ⟨t.toList.filter (·.1 != key), t.ascending.filter _⟩

/-- The table with a value at a key, unless the key has one already. -/
def insertIfNew (t : Table α) (key : String) (value : α) : Table α :=
  if t.contains key then t else t.insert key value

/-- The table with every value changed. -/
def map (f : α → β) (t : Table α) : Table β :=
  ⟨t.toList.map fun e => (e.1, f e.2), by
    simpa [List.pairwise_map] using t.ascending⟩

/-- The table of a list of entries, where the last entry of a key counts. -/
def ofList (entries : List (String × α)) : Table α :=
  entries.foldl (fun t e => t.insert e.1 e.2) ∅

/-! ## Look-ups -/

theorem lookup_place {key : String} {value : α} {entries : List (String × α)} {k : String}
    (h : entries.Pairwise fun a b => a.1 < b.1) :
    (place key value entries).lookup k = if k = key then some value else entries.lookup k := by
  induction entries with
  | nil => grind [place]
  | cons head rest ih =>
    obtain ⟨-, rest_ascending⟩ := List.pairwise_cons.mp h
    have := ih rest_ascending
    grind [place]

@[simp] theorem get?_empty {k : String} : (∅ : Table α).get? k = none := rfl

/-- **A write is read back, and no other key notices it.** -/
theorem get?_insert {t : Table α} {key : String} {value : α} {k : String} :
    (t.insert key value).get? k = if k = key then some value else t.get? k :=
  lookup_place t.ascending

theorem get?_erase {t : Table α} {key k : String} :
    (t.erase key).get? k = if k = key then none else t.get? k := by
  simp only [erase, get?]
  induction t.toList with
  | nil => simp
  | cons head rest ih => grind

theorem get?_map {f : α → β} {t : Table α} {k : String} :
    (t.map f).get? k = (t.get? k).map f := by
  simp only [map, get?]
  induction t.toList with
  | nil => rfl
  | cons head rest ih => grind

/-! ## One form for each mapping -/

/-- No key stands twice. -/
theorem distinct (t : Table α) : t.toList.Pairwise fun a b => a.1 ≠ b.1 :=
  t.ascending.imp fun lt eq => absurd (eq ▸ lt) (String.lt_irrefl _)

theorem lookup_eq_some_iff {entries : List (String × α)} {k : String} {v : α}
    (distinct : entries.Pairwise fun a b => a.1 ≠ b.1) :
    entries.lookup k = some v ↔ (k, v) ∈ entries := by
  induction entries with
  | nil => simp
  | cons head rest ih =>
    obtain ⟨other, rest_distinct⟩ := List.pairwise_cons.mp distinct
    by_cases eq : k = head.1
    · subst eq
      rw [List.lookup_cons_self]
      refine ⟨fun h => by simp [← Option.some.inj h], fun h => ?_⟩
      rcases List.mem_cons.mp h with h | mem
      · rw [← h]
      · exact absurd rfl (other (head.1, v) mem)
    · rw [List.lookup_cons, show (k == head.1) = false by simpa using eq]
      simp only [ih rest_distinct, List.mem_cons]
      exact ⟨.inr, fun h => h.resolve_left fun h => eq (by rw [← h])⟩

/-- An entry is listed exactly where a look-up finds it. -/
theorem get?_eq_some_iff {t : Table α} {k : String} {v : α} :
    t.get? k = some v ↔ (k, v) ∈ t.toList :=
  lookup_eq_some_iff t.distinct

/-- **Two tables that answer every look-up alike are the same table.** -/
theorem ext_get? {s t : Table α} (h : ∀ k, s.get? k = t.get? k) : s = t := by
  -- the entries are the same, each is listed once, and the order is settled
  have mem (e : String × α) : e ∈ s.toList ↔ e ∈ t.toList := by
    rw [← get?_eq_some_iff, ← get?_eq_some_iff, h]
  have nodup {u : Table α} : u.toList.Nodup :=
    u.distinct.imp fun ne eq => ne (congrArg Prod.fst eq)
  have perm : s.toList.Perm t.toList := (List.perm_ext_iff_of_nodup nodup nodup).mpr mem
  have same : s.toList = t.toList :=
    perm.eq_of_pairwise
      (fun a b _ _ hab hba => absurd (String.lt_trans hab hba) (String.lt_irrefl _))
      s.ascending t.ascending
  cases s; cases t; cases same; rfl

end Table

end StagedWorkflow
