import Lolipay.Ledger.Storage

namespace Lolipay.Ledger.Rows

open Lolipay.Ledger.Storage

variable {K V : Type} [DecidableEq K] {k : K} {v : V} {keys : List K} {data : List (K × V)}
  {rows rows' : Store K V}

def deleteMany (rows : Store K V) (keys : List K) : Store K V := keys.foldl (fun s k => s.erase k) rows

/-- An insert of several rows at once; a key that is taken fails all of it. -/
def createMany (rows : Store K V) (data : List (K × V)) : Option (Store K V) :=
  data.foldlM (fun s d => if d.1 ∈ s then none else some (s.insert d.1 d.2)) rows

@[simp]
theorem deleteMany_nil (rows : Store K V) : deleteMany rows [] = rows := rfl

theorem deleteMany_cons : deleteMany rows (k :: keys) = deleteMany (rows.erase k) keys := rfl

theorem lookup_deleteMany_of_notMem (h : k ∉ keys) :
    (deleteMany rows keys).lookup k = rows.lookup k := by
  induction keys generalizing rows with
  | nil => rfl
  | cons key keys ih =>
    rw [List.mem_cons, not_or] at h
    rw [deleteMany_cons, ih h.2, AList.lookup_erase_ne h.1]

theorem lookup_deleteMany_of_mem (h : k ∈ keys) : (deleteMany rows keys).lookup k = none := by
  induction keys generalizing rows with
  | nil => exact absurd h List.not_mem_nil
  | cons key keys ih =>
    rw [deleteMany_cons]
    by_cases hkeys : k ∈ keys
    · exact ih hkeys
    · obtain rfl : k = key := by simpa [hkeys] using h
      rw [lookup_deleteMany_of_notMem hkeys, AList.lookup_erase]

theorem createMany_cons {d : K × V} :
    createMany rows (d :: data) =
      if d.1 ∈ rows then none else createMany (rows.insert d.1 d.2) data := by
  rw [createMany, List.foldlM_cons]
  split_ifs
  · rfl
  · rfl

theorem createMany_isSome :
    (createMany rows data).isSome ↔
      (data.map (·.1)).Nodup ∧ ∀ k ∈ data.map (·.1), rows.lookup k = none := by
  induction data generalizing rows with
  | nil => simp [createMany]
  | cons d data ih =>
    rw [createMany_cons]
    split_ifs with htaken
    · simp only [Option.isSome_none, Bool.false_eq_true, List.map_cons, List.mem_cons,
        forall_eq_or_imp, false_iff, not_and]
      intro _ hfree
      exact absurd htaken (AList.lookup_eq_none.mp hfree)
    · rw [ih, List.map_cons, List.nodup_cons]
      constructor
      · rintro ⟨hnodup, hfree⟩
        have hd : d.1 ∉ data.map (·.1) := by
          intro hmem
          have hnone := hfree d.1 hmem
          rw [AList.lookup_insert] at hnone
          cases hnone
        refine ⟨⟨hd, hnodup⟩, ?_⟩
        intro k hk
        obtain rfl | hk := List.mem_cons.mp hk
        · exact AList.lookup_eq_none.mpr htaken
        · have hne : k ≠ d.1 := by
            rintro rfl
            exact hd hk
          rw [← hfree k hk, AList.lookup_insert_ne hne]
      · rintro ⟨⟨hd, hnodup⟩, hfree⟩
        refine ⟨hnodup, ?_⟩
        intro k hk
        have hne : k ≠ d.1 := by
          rintro rfl
          exact hd hk
        rw [AList.lookup_insert_ne hne]
        exact hfree k (List.mem_cons_of_mem _ hk)

theorem lookup_createMany_of_notMem (h : createMany rows data = some rows')
    (hk : k ∉ data.map (·.1)) : rows'.lookup k = rows.lookup k := by
  induction data generalizing rows with
  | nil =>
    obtain rfl : rows = rows' := by simpa [createMany] using h
    rfl
  | cons d data ih =>
    rw [createMany_cons] at h
    split_ifs at h
    rw [List.map_cons, List.mem_cons, not_or] at hk
    rw [ih h hk.2, AList.lookup_insert_ne hk.1]

theorem lookup_createMany_of_mem (h : createMany rows data = some rows') (hd : (k, v) ∈ data) :
    rows'.lookup k = some v := by
  induction data generalizing rows with
  | nil => exact absurd hd List.not_mem_nil
  | cons d data ih =>
    have hnodup := (createMany_isSome.mp (Option.isSome_of_eq_some h)).1
    rw [createMany_cons] at h
    split_ifs at h
    rw [List.map_cons, List.nodup_cons] at hnodup
    obtain rfl | hd := List.mem_cons.mp hd
    · rw [lookup_createMany_of_notMem h hnodup.1, AList.lookup_insert]
    · exact ih h hd

end Lolipay.Ledger.Rows
