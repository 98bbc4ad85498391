import DeferredQuery.Proofs.Json.Records
import DeferredQuery.Schema.Document

/-!
# Tables written and read back

What a table answers after something was put into it or done to its values, and that an object of
its entries is the table again. The keys of a table are different from each other, so none of the
members replaces an earlier one.
-/

set_option autoImplicit false

namespace DeferredQuery.Table

variable {α : Type}

theorem eq_of_entries {t u : Table α} (h : t.entries = u.entries) : t = u := by
  cases t
  cases u
  cases h
  rfl

/-! ## Looking up -/

theorem lookup_putEntry (key k : String) (value : α) (entries : List (String × α)) :
    (putEntry k value entries).lookup key = if key = k then some value else entries.lookup key := by
  induction entries with
  | nil =>
    by_cases h : key = k
    · simp [putEntry, h]
    · simp [putEntry, List.lookup_cons, beq_false_of_ne h, h]
  | cons entry rest ih =>
    obtain ⟨k', value'⟩ := entry
    by_cases hk : k' = k
    · by_cases h : key = k
      · simp [putEntry, hk, h]
      · simp [putEntry, List.lookup_cons, hk, beq_false_of_ne h, h]
    · by_cases h : key = k'
      · simp [putEntry, hk, h]
      · simp [putEntry, List.lookup_cons, hk, beq_false_of_ne h, ih]

theorem get?_put (key k : String) (value : α) (t : Table α) :
    (t.put k value).get? key = if key = k then some value else t.get? key :=
  lookup_putEntry key k value t.entries

theorem get?_mapEntries {β : Type} (f : String → α → β) (t : Table α) (key : String) :
    (t.mapEntries f).get? key = (t.get? key).map (f key) := by
  obtain ⟨entries, hnodup⟩ := t
  show (entries.map fun entry => (entry.1, f entry.1 entry.2)).lookup key =
    (entries.lookup key).map (f key)
  clear hnodup
  induction entries with
  | nil => rfl
  | cons entry rest ih =>
    obtain ⟨k, value⟩ := entry
    by_cases h : key = k
    · simp [h]
    · simpa [List.lookup_cons, beq_false_of_ne h] using ih

/-- What stands in a table is what it answers, for no key stands there twice. -/
theorem get?_eq_some_iff {key : String} {value : α} {t : Table α} :
    t.get? key = some value ↔ (key, value) ∈ t.entries := by
  obtain ⟨entries, hnodup⟩ := t
  show entries.lookup key = some value ↔ (key, value) ∈ entries
  induction entries with
  | nil => simp
  | cons entry rest ih =>
    obtain ⟨k, v⟩ := entry
    rw [List.map_cons, List.nodup_cons] at hnodup
    by_cases h : key = k
    · subst h
      have hrest : (key, value) ∉ rest := fun hmem => hnodup.1 (List.mem_map.mpr ⟨_, hmem, rfl⟩)
      simp [hrest, eq_comm]
    · simp [List.lookup_cons, beq_false_of_ne h, h, ih hnodup.2]

/-! ## From entries -/

theorem putEntry_of_new {key : String} {value : α} {entries : List (String × α)}
    (h : key ∉ entries.map (·.1)) : putEntry key value entries = entries ++ [(key, value)] := by
  induction entries with
  | nil => rfl
  | cons entry rest ih =>
    rw [List.map_cons, List.mem_cons, not_or] at h
    rw [putEntry, if_neg (Ne.symm h.1), ih h.2, List.cons_append]

/-- Entries under new keys come after what is there, in their order. -/
theorem entries_foldl_put (entries : List (String × α)) (t : Table α)
    (h : ((t.entries ++ entries).map (·.1)).Nodup) :
    (entries.foldl (fun t entry => t.put entry.1 entry.2) t).entries = t.entries ++ entries := by
  induction entries generalizing t with
  | nil => simp
  | cons entry rest ih =>
    have hnew : entry.1 ∉ t.entries.map (·.1) := by
      rw [List.map_append, List.nodup_append] at h
      exact fun hmem => h.2.2 _ hmem _ List.mem_cons_self rfl
    have hput : (t.put entry.1 entry.2).entries = t.entries ++ [entry] := putEntry_of_new hnew
    rw [List.foldl_cons, ih _ (by simpa [hput] using h), hput]
    simp

theorem ofList_entries (t : Table α) : ofList t.entries = t :=
  eq_of_entries (entries_foldl_put t.entries empty t.nodup_keys)

/-- The object of a table is read as the table, if its values are. -/
theorem ofJson?_toJson {write : α → Json} {read? : Json → Option α}
    (h : ∀ value, read? (write value) = some value) (t : Table α) :
    ofJson? read? (t.toJson write) = some t := by
  rw [ofJson?, toJson, Json.members?_ofMembers, Option.bind_eq_bind, Option.bind_some]
  refine Option.bind_eq_some_iff.mpr ⟨t.entries, ?_, congrArg some (ofList_entries t)⟩
  induction t.entries with
  | nil => rfl
  | cons entry rest ih => simp [h, ih]

theorem made_toJson {write : α → Json} (h : ∀ value, (write value).Made) (t : Table α) :
    (t.toJson write).Made := by
  refine .object _ fun member hmem => ?_
  obtain ⟨entry, -, rfl⟩ := List.mem_map.mp hmem
  exact h entry.2

end DeferredQuery.Table
