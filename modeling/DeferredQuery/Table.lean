/-!
# Tables

Values under texts as keys. A key occurs once; the entries are in the order in which their keys were
first put.
-/

set_option autoImplicit false

namespace DeferredQuery

/-- Entries with a new value for a key, at the place of the key or else at the end. -/
def putEntry {α : Type} (key : String) (value : α) : List (String × α) → List (String × α)
  | [] => [(key, value)]
  | entry :: rest =>
    if entry.1 = key then (key, value) :: rest else entry :: putEntry key value rest

theorem mem_keys_putEntry {α : Type} {key k : String} {value : α} {entries : List (String × α)} :
    k ∈ (putEntry key value entries).map (·.1) ↔ k = key ∨ k ∈ entries.map (·.1) := by
  induction entries with
  | nil => simp [putEntry]
  | cons entry rest ih =>
    by_cases h : entry.1 = key
    · simp [putEntry, h]
    · simp only [putEntry, h, if_false, List.map_cons, List.mem_cons, ih]
      exact or_left_comm

theorem nodup_keys_putEntry {α : Type} {key : String} {value : α} {entries : List (String × α)}
    (h : (entries.map (·.1)).Nodup) : ((putEntry key value entries).map (·.1)).Nodup := by
  induction entries with
  | nil => simp [putEntry]
  | cons entry rest ih =>
    simp only [List.map_cons, List.nodup_cons] at h
    by_cases hk : entry.1 = key
    · simp only [putEntry, hk, if_true, List.map_cons, List.nodup_cons]
      exact ⟨hk ▸ h.1, h.2⟩
    · simp only [putEntry, hk, if_false, List.map_cons, List.nodup_cons, mem_keys_putEntry]
      exact ⟨fun hm => h.1 (hm.resolve_left id), ih h.2⟩

/-- Values under keys, each key once. -/
structure Table (α : Type) where
  entries : List (String × α)
  nodup_keys : (entries.map (·.1)).Nodup
  deriving DecidableEq

namespace Table

variable {α : Type}

def empty : Table α := ⟨[], List.nodup_nil⟩

def get? (key : String) (t : Table α) : Option α := t.entries.lookup key

/-- The table with a value for a key, in place of the one it had. -/
def put (key : String) (value : α) (t : Table α) : Table α :=
  ⟨putEntry key value t.entries, nodup_keys_putEntry t.nodup_keys⟩

/-- The table of a list of entries, of which a later one replaces an earlier one of its key. -/
def ofList (entries : List (String × α)) : Table α :=
  entries.foldl (fun t entry => t.put entry.1 entry.2) empty

/-- The table with every value replaced by one made of its key and itself. -/
def mapEntries {β : Type} (f : String → α → β) (t : Table α) : Table β :=
  ⟨t.entries.map fun entry => (entry.1, f entry.1 entry.2), by
    have h := t.nodup_keys
    simpa [List.map_map, Function.comp_def] using h⟩

end Table

end DeferredQuery
