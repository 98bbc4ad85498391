import DeferredQuery.Proofs.Schema.Tables

/-!
# Schemas written and loaded again

A schema that was put together entity by entity, or loaded, is the same after it has been written
and loaded. The writer leaves nothing out, so the defaults of the reader never come in. What could
differ is a name: the reader fills in the key for an empty one. `Schema.Titled` says that there is
none to fill in; both ways to a schema keep it, adding an entity because it puts it under its name,
loading because it has filled in the names itself.

Tables keep the order in which their keys were put, which a table of hashes does not. The theorem is
about schemas in any order: those that answer the same, up to `Entity.Same`.
-/

set_option autoImplicit false

namespace DeferredQuery

/-! ## The parts of a schema -/

theorem RelationKind.ofJson?_ofText (kind : RelationKind) :
    RelationKind.ofJson? (.ofText kind.jsonName) = some kind := by
  cases kind <;> simp [ofJson?, ofJsonName?, jsonName, Json.isNothing]

theorem Relation.ofJson?_toJson (r : Relation) : Relation.ofJson? r.toJson = some r := by
  rw [ofJson?, toJson, Json.fields?_ofMembers]
  simp [Json.member?, RelationKind.ofJson?_ofText]

theorem Relation.made_toJson (r : Relation) : r.toJson.Made := by
  refine .object _ fun member hmem => ?_
  simp only [List.mem_cons, List.not_mem_nil, or_false] at hmem
  obtain rfl | rfl | rfl := hmem <;> exact .text _

namespace Entity

theorem ofJson?_toJson (e : Entity) : Entity.ofJson? e.toJson = some e := by
  have hrelations := Table.ofJson?_toJson Relation.ofJson?_toJson e.relations
  rw [ofJson?, toJson, Json.fields?_ofMembers]
  simp [Json.member?, Json.fieldOr?, hrelations]

theorem made_toJson (e : Entity) : e.toJson.Made := by
  refine .object _ fun member hmem => ?_
  simp only [List.mem_cons, List.not_mem_nil, or_false] at hmem
  obtain rfl | rfl | rfl | rfl := hmem
  · exact .text _
  · exact .text _
  · exact .text _
  · exact Table.made_toJson Relation.made_toJson e.relations

/-- Entities of the same name, table and primary key with the same relations, in any order. -/
structure Same (a b : Entity) : Prop where
  name : a.name = b.name
  table : a.table = b.table
  primaryKey : a.primaryKey = b.primaryKey
  relation? (relation : String) : a.relation? relation = b.relation? relation

theorem Same.refl (e : Entity) : e.Same e := ⟨rfl, rfl, rfl, fun _ => rfl⟩

end Entity

namespace Schema

/-- The same entities under the same keys, in any order. -/
def Same (s t : Schema) : Prop :=
  ∀ key, Option.Rel Entity.Same (s.entity? key) (t.entity? key)

theorem Same.refl (s : Schema) : s.Same s := by
  intro key
  cases s.entity? key with
  | none => exact .none
  | some e => exact .some (Entity.Same.refl e)

/-- The schemas that there are: made from nothing by adding entities, or loaded. -/
inductive Obtained : Schema → Prop
  | empty : Obtained Schema.empty
  | withEntity {s : Schema} (e : Entity) (h : Obtained s) : Obtained (s.withEntity e)
  | read {s : Schema} (text : String) (h : Schema.read text = .ok s) : Obtained s

/-- An entity without a name stands under the empty key only. -/
def Titled (s : Schema) : Prop := ∀ key e, s.entity? key = some e → e.name = "" → key = ""

theorem entity?_withEntity (key : String) (e : Entity) (s : Schema) :
    (s.withEntity e).entity? key = if key = e.name then some e else s.entity? key :=
  Table.get?_put key e.name e s.entities

/-- In which order two entities are added makes no difference. -/
theorem same_withEntity_comm {a b : Entity} (h : a.name ≠ b.name) (s : Schema) :
    ((s.withEntity a).withEntity b).Same ((s.withEntity b).withEntity a) := by
  intro key
  simp only [entity?_withEntity]
  by_cases ha : key = a.name
  · have hb : key ≠ b.name := ha ▸ h
    rw [if_neg hb, if_pos ha, if_pos ha]
    exact .some (Entity.Same.refl a)
  · rw [if_neg ha, if_neg ha, ← entity?_withEntity]
    exact Same.refl (s.withEntity b) key

theorem Titled.withEntity {s : Schema} (h : s.Titled) (e : Entity) : (s.withEntity e).Titled := by
  intro key e' he' hname
  rw [entity?_withEntity] at he'
  split at he'
  next hkey =>
    cases he'
    exact hkey.trans hname
  next => exact h key e' he' hname

/-- Naming leaves an entity without a name only where there is no key to take. -/
theorem titled_mapEntries_named (entities : Table Entity) :
    Titled ⟨entities.mapEntries Entity.named⟩ := by
  intro key e he hname
  obtain ⟨e, -, rfl⟩ := Option.map_eq_some_iff.mp
    ((Table.get?_mapEntries Entity.named entities key).symm.trans he)
  rw [Entity.named] at hname
  split at hname
  next => exact hname
  next hnamed => exact absurd hname hnamed

theorem titled_of_read {text : String} {s : Schema} (h : read text = .ok s) : s.Titled := by
  rw [read] at h
  split at h
  next heq =>
    cases h
    obtain ⟨document, -, hdocument⟩ := Option.bind_eq_some_iff.mp heq
    obtain ⟨entities, -, hentities⟩ := Option.bind_eq_some_iff.mp hdocument
    cases hentities
    exact titled_mapEntries_named entities
  next => cases h

theorem Obtained.titled {s : Schema} (h : s.Obtained) : s.Titled := by
  induction h with
  | empty => exact fun key e he => nomatch he
  | withEntity e _ ih => exact ih.withEntity e
  | read text h => exact titled_of_read h

theorem Titled.of_same {s t : Schema} (hs : s.Titled) (h : t.Same s) : t.Titled := by
  intro key e he hname
  have hkey := h key
  rw [he] at hkey
  obtain ⟨e', he', hsame⟩ : ∃ e', s.entity? key = some e' ∧ e.Same e' := by
    cases hs' : s.entity? key with
    | none => rw [hs'] at hkey; cases hkey
    | some e' => rw [hs'] at hkey; cases hkey with | some hsame => exact ⟨e', rfl, hsame⟩
  exact hs key e' he' (hsame.name.symm.trans hname)

/-- Where every name is filled in, filling them in again changes nothing. -/
theorem Titled.mapEntries_named {s : Schema} (h : s.Titled) :
    s.entities.mapEntries Entity.named = s.entities := by
  refine Table.eq_of_entries ((List.map_congr_left fun entry hmem => ?_).trans (List.map_id _))
  obtain ⟨key, e⟩ := entry
  by_cases hname : e.name = ""
  · obtain rfl := h key e (Table.get?_eq_some_iff.mpr hmem) hname
    obtain ⟨name, table, primaryKey, relations⟩ := e
    cases hname
    rfl
  · simp [Entity.named, hname]

theorem Titled.read_write {s : Schema} (h : s.Titled) : read s.write = .ok s := by
  have hmade : s.toJson.Made := Table.made_toJson Entity.made_toJson s.entities
  have hentities := Table.ofJson?_toJson Entity.ofJson?_toJson s.entities
  have hdocument : ofJson? s.toJson = some s := by
    simp [ofJson?, toJson, hentities, h.mapEntries_named]
  simp [read, write, hmade.read?_write, hdocument]

/-- **A schema loads as it was written**, in whatever order its entities and their relations come,
and nothing that is loaded has an entity without a name under a key that could name it. -/
theorem written_is_loaded :
    (∀ s t : Schema, s.Obtained → t.Same s → read t.write = .ok t) ∧
      ∀ (text : String) (s : Schema) (key : String) (e : Entity), read text = .ok s →
        s.entity? key = some e → key ≠ "" → e.name ≠ "" := by
  constructor
  · intro s t hs hsame
    exact (hs.titled.of_same hsame).read_write
  · intro text s key e hread he hkey hname
    exact hkey (titled_of_read hread key e he hname)

/-- Two entities are written in the other order, one of them without a name and one with names that
have to be escaped; a third is named when it is loaded. -/
theorem reordered_and_nameless_are_loaded :
    let thing := Entity.new "" "things"
    let note := (Entity.new "No\"te\n" "notes").withRelation .manyToOne "\\owner" "User" "user_id"
    let s := (empty.withEntity thing).withEntity note
    let t := (empty.withEntity note).withEntity thing
    let order := Entity.new "Order" "orders"
    s.Obtained ∧ t.Same s ∧ read t.write = .ok t ∧
      read "\x7b\"Order\":\x7b\"table\":\"orders\"\x7d\x7d" = .ok (empty.withEntity order) ∧
      order.name ≠ "" := by
  intro thing note s t order
  have hs : s.Obtained := (Obtained.empty.withEntity thing).withEntity note
  have ht : t.Same s := same_withEntity_comm (by decide) empty
  have hread : read "\x7b\"Order\":\x7b\"table\":\"orders\"\x7d\x7d" =
      .ok (empty.withEntity order) := by decide +kernel
  exact ⟨hs, ht, written_is_loaded.1 s t hs ht, hread,
    written_is_loaded.2 _ _ "Order" order hread (by decide) (by decide)⟩

end Schema

end DeferredQuery
