import StagedWorkflow.Store

/-!
# What a merge leaves

A merge goes through the entries of its source in turn. Each key stands
there once, so whether an entry is written depends on what the target had
before the merge, and not on the entries written by then: `Store.get?_merge`
gives every look-up in the result from look-ups in the target and in the
source, and `Store.written_mergeEntries` how many entries are written. With
the options left as they are, the source comes first
(`Store.get?_merge_default`).
-/

namespace StagedWorkflow

namespace Store

variable {s source : Store} {options : MergeOptions} {k : String}

/-- The entries written so far do not matter to the key of another. -/
theorem admits_insert_of_ne {key : String} {entry own : Entry} (ne : k ≠ key) :
    admits (s.insert key entry) options k own = s.admits options k own := by
  simp [admits, Table.contains, Table.get?_insert, ne]

/-- Nor does their number, which is only added to. -/
theorem foldl_merge {entries : List (String × Entry)} {n : Nat} :
    entries.foldl (fun (written, s) (key, entry) =>
      if s.admits options key entry then (written + 1, s.insert key entry) else (written, s))
      (n, s) = (n + (s.mergeEntries entries options).1, (s.mergeEntries entries options).2) := by
  unfold mergeEntries
  induction entries generalizing n s with
  | nil => rfl
  | cons head rest ih =>
    simp only [List.foldl_cons]
    split
    · rw [ih, ih (n := 0 + 1)]
      simp only [Prod.mk.injEq, and_true]
      omega
    · exact ih

/-- An entry is written or not, and then the others are. -/
theorem mergeEntries_cons {key : String} {entry : Entry} {rest : List (String × Entry)} :
    s.mergeEntries ((key, entry) :: rest) options =
      if s.admits options key entry then
        (1 + (mergeEntries (s.insert key entry) rest options).1,
          (mergeEntries (s.insert key entry) rest options).2)
      else s.mergeEntries rest options := by
  rw [mergeEntries, List.foldl_cons]
  by_cases admitted : s.admits options key entry = true
  · simp only [admitted, if_true]
    exact foldl_merge
  · simp only [admitted, if_false, Bool.false_eq_true]
    rfl

/-- **Entries of different keys are each judged by the target alone.** -/
theorem get?_mergeEntries {entries : List (String × Entry)}
    (distinct : entries.Pairwise fun a b => a.1 ≠ b.1) :
    (s.mergeEntries entries options).2.get? k =
      match entries.lookup k with
      | some entry => if s.admits options k entry then some entry else s.get? k
      | none => s.get? k := by
  induction entries generalizing s with
  | nil => rfl
  | cons head rest ih =>
    obtain ⟨key, entry⟩ := head
    obtain ⟨differ, rest_distinct⟩ := List.pairwise_cons.mp distinct
    rw [mergeEntries_cons, List.lookup_cons]
    by_cases same : k = key
    · -- the key does not come again
      subst same
      have none_later : rest.lookup k = none := by
        cases later : rest.lookup k with
        | none => rfl
        | some other =>
          have mem := (Table.lookup_eq_some_iff rest_distinct).mp later
          exact absurd rfl (differ (k, other) mem)
      rw [beq_self_eq_true]
      split
      next admitted => simp [ih rest_distinct, none_later, Table.get?_insert, admitted]
      next refused => simp [ih rest_distinct, none_later, refused]
    · have other : (k == key) = false := by simpa using same
      rw [other]
      split
      · simp [ih rest_distinct, admits_insert_of_ne same, Table.get?_insert, same]
      · exact ih rest_distinct

/-- **As many are written as the target alone admits.** -/
theorem written_mergeEntries {entries : List (String × Entry)}
    (distinct : entries.Pairwise fun a b => a.1 ≠ b.1) :
    (s.mergeEntries entries options).1 = entries.countP fun e => s.admits options e.1 e.2 := by
  induction entries generalizing s with
  | nil => rfl
  | cons head rest ih =>
    obtain ⟨key, entry⟩ := head
    obtain ⟨differ, rest_distinct⟩ := List.pairwise_cons.mp distinct
    rw [mergeEntries_cons, List.countP_cons]
    split
    · have same_judged : rest.countP (fun e => admits (s.insert key entry) options e.1 e.2) =
          rest.countP fun e => s.admits options e.1 e.2 :=
        List.countP_congr fun e mem => by rw [admits_insert_of_ne (differ e mem).symm]
      rw [ih rest_distinct, same_judged, Nat.add_comm]
    · rw [ih rest_distinct, Nat.add_zero]

/-- **What is found after a merge**: the entry of the source if it is
admitted, and else what the target had. -/
theorem get?_merge :
    (s.merge source options).2.get? k =
      match source.get? k with
      | some entry => if s.admits options k entry then some entry else s.get? k
      | none => s.get? k :=
  get?_mergeEntries source.distinct

/-- With all entries admitted the source comes first. -/
theorem get?_merge_default : (s.merge source {}).2.get? k = (source.get? k).or (s.get? k) := by
  rw [get?_merge]
  cases source.get? k <;> simp [admits]

end Store

end StagedWorkflow
