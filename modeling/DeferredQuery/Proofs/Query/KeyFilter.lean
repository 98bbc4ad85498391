import DeferredQuery.Proofs.Chain.Bracketed
import DeferredQuery.Proofs.Query.Terminals
import DeferredQuery.Repository

/-!
# The filter on a key stays

The query that a repository gives for a key has a condition that no call replaces. Whatever plain
calls are made on it, the conditions that they write stand in one pair of parentheses behind that
condition and an `AND`, and nothing in them closes those parentheses early. So the query can be
narrowed and not widened, for every purpose that it is rendered for.
-/

set_option autoImplicit false

namespace DeferredQuery

open Text

/-! ## The conditions of a reading -/

theorem mem_of_mem_sinceLast {α : Type} {starts : α → Bool} {l : List α} {a : α}
    (h : a ∈ sinceLast starts l) : a ∈ l := by
  induction l with
  | nil => exact h
  | cons b rest ih =>
    rw [sinceLast] at h
    split at h
    · exact List.mem_cons_of_mem _ (ih h)
    · exact h

namespace Reading

variable {parts : List Part} {calls : List Call}

/-- What bracketed parts say of the conditions is balanced. -/
theorem balanced_of_bracketed (hcalls : List.Forall₂ Part.Asks parts calls)
    (hparts : ∀ p ∈ parts, p.Bracketed) :
    ∀ condition ∈ (Reading.of calls).conditions, Balanced condition.2 := by
  have hall : ∀ call ∈ calls, ∀ condition, call.condition? = some condition →
      Balanced condition.2 := by
    induction hcalls with
    | nil => exact nofun
    | cons hp _ ih =>
      rw [List.forall_mem_cons] at hparts ⊢
      refine ⟨fun condition hcondition => ?_, ih hparts.2⟩
      cases hp with
      | condition kind text more =>
        cases hcondition
        exact hparts.1 _ rfl
      | _ => cases hcondition
  intro condition hcondition
  obtain ⟨call, hcall, hread⟩ := List.mem_filterMap.mp (mem_of_mem_sinceLast hcondition)
  exact hall call hcall condition hread

theorem isGroup_bracketed {first : ConditionKind × String} {rest : List (ConditionKind × String)}
    (h : ∀ condition ∈ first :: rest, Balanced condition.2) : IsGroup (bracketed first rest) := by
  rw [List.forall_mem_cons] at h
  have hrest : Balanced
      (String.join (rest.map fun c => " " ++ c.1.combinator.text ++ " " ++ c.2)) := by
    apply Balanced.join
    intro text htext
    obtain ⟨condition, hcondition, rfl⟩ := List.mem_map.mp htext
    have hword : Balanced (" " ++ condition.1.combinator.text ++ " ") := by
      cases condition.1 <;> exact .of_flat (by decide)
    exact hword.append (h.2 condition hcondition)
  have hgroup := (h.1.append hrest).isGroup
  rw [← String.append_assoc] at hgroup
  exact hgroup

/-- The conditions behind one that is joined to them, if there are any. -/
theorem whereText_some (own : String) {conditions : List (ConditionKind × String)}
    (h : ∀ condition ∈ conditions, Balanced condition.2) :
    ∃ more, (more = "" ∨ ∃ group, IsGroup group ∧ more = " AND " ++ group) ∧
      whereText (some own) conditions = " WHERE " ++ own ++ more := by
  cases conditions with
  | nil => exact ⟨"", .inl rfl, (String.append_empty ..).symm⟩
  | cons first rest =>
    refine ⟨_, .inr ⟨_, isGroup_bracketed h, rfl⟩, ?_⟩
    rw [whereText, String.append_assoc]

end Reading

/-! ## What a query sends -/

namespace Query

variable {β ρ : Type} [Builder β]

/-- A text that a query gives or sends. -/
inductive Emits (q : Query β) (text : String) : Prop
  | shown (h : q.text = .ok text)
  | fetched {ρ : Type} (pool : Pool ρ) (fetch : Fetch)
    (h : text ∈ ((q.withFetch fetch).run pool).sent)
  | counted {ρ : Type} (pool : Pool ρ) (h : text ∈ (q.count pool).sent)

theorem eq_of_mem_sent_fetchFrom {fetch : Fetch} {rendered : Except Error String} {pool : Pool ρ}
    {text : String} (h : text ∈ (fetchFrom fetch rendered pool).sent) : rendered = .ok text := by
  cases rendered with
  | error error => cases h
  | ok sent => cases fetch <;> rw [List.mem_singleton.mp h]

theorem eq_of_mem_sent_countFrom {rendered : Except Error String} {pool : Pool ρ} {text : String}
    (h : text ∈ (countFrom rendered pool).sent) : rendered = .ok text := by
  cases rendered with
  | error error => cases h
  | ok sent => rw [List.mem_singleton.mp h]

/-- It is the text for a purpose. -/
theorem Emits.exists_purpose {q : Query β} {text : String} (h : q.Emits text) :
    ∃ purpose, render purpose q.chain.parts q.builder = .ok text := by
  cases h with
  | shown h => exact ⟨.display, h⟩
  | fetched pool fetch h => exact ⟨fetch.purpose, eq_of_mem_sent_fetchFrom h⟩
  | counted pool h => exact ⟨.count, eq_of_mem_sent_countFrom h⟩

end Query

/-! ## Texts with a WHERE clause -/

namespace Statement

/-- A text about an entity under an alias, with a condition as its WHERE clause. -/
def textWhere (columns : String) (root : Entity) (base : String) (joins : List String)
    (condition : String) (orders : List String) (limit offset : Option Nat) : String :=
  "SELECT " ++ columns ++ " FROM " ++ root.table ++ " " ++ base ++ String.join joins ++ " WHERE "
    ++ condition ++ Reading.orderText orders ++ Reading.boundText " LIMIT " limit
    ++ Reading.boundText " OFFSET " offset

/-- The columns of the rows, or their number. -/
def columnsOf (root : Entity) (base : String) : List String :=
  [base ++ ".*", "COUNT(DISTINCT " ++ base ++ "." ++ root.primaryKey ++ ")"]

section

variable {root : Entity} {base condition source : String} {joins : List String}

/-- A text that gives rows, written out. -/
theorem rows_eq_textWhere
    (hsource : source =
      " FROM " ++ root.table ++ " " ++ base ++ String.join joins ++ " WHERE " ++ condition)
    (columns : String) (orders : List String) (limit offset : Option Nat) :
    RowClauses.rows columns
        ⟨source, Reading.orderText orders, Reading.boundText " LIMIT " limit,
          Reading.boundText " OFFSET " offset⟩ =
      textWhere columns root base joins condition orders limit offset := by
  unfold RowClauses.rows textWhere
  dsimp only
  rw [hsource]
  simp only [String.append_assoc]

/-- A text that gives the number of rows, written out. -/
theorem counted_eq_textWhere (c : RowClauses)
    (hsource : c.source =
      " FROM " ++ root.table ++ " " ++ base ++ String.join joins ++ " WHERE " ++ condition) :
    c.counted (base ++ "." ++ root.primaryKey) =
      textWhere ("COUNT(DISTINCT " ++ base ++ "." ++ root.primaryKey ++ ")") root base joins
        condition [] none none := by
  have hcount : "SELECT COUNT(DISTINCT " = "SELECT " ++ "COUNT(DISTINCT " := rfl
  unfold RowClauses.counted textWhere
  rw [hsource, hcount]
  simp only [Reading.orderText, Reading.boundText, String.append_assoc, String.append_empty]

end

/-- A statement with a base filter, whose calls select nothing, has a WHERE clause for every
purpose: the filter, and behind it what the conditions make of it. -/
theorem text_ofReading_where {schema : Schema} {entity base own more : String} {r : Reading}
    {root : Entity} {purpose : Purpose} {text : String} (hroot : schema.entity? entity = some root)
    (hselection : r.selection = none)
    (hwhere : Reading.whereText (some own) r.conditions = " WHERE " ++ own ++ more)
    (htext : (ofReading schema entity base (some own) r).text purpose = .ok text) :
    ∃ columns joins orders limit offset, columns ∈ columnsOf root base ∧
      Join.Clauses schema [(base, root)] r.joins joins ∧
      text = textWhere columns root base joins (own ++ more) orders limit offset := by
  obtain ⟨other, joins, hother, hclauses⟩ := writable_of_text htext
  obtain rfl : root = other := Option.some.inj (hroot.symm.trans hother)
  have hjoins : Join.Clauses schema [(base, root)] r.joins joins := hclauses
  have hsource : r.sourceText root.table base (some own) joins =
      " FROM " ++ root.table ++ " " ++ base ++ String.join joins ++ " WHERE " ++ (own ++ more) := by
    rw [Reading.sourceText, hwhere]
    simp only [String.append_assoc]
  have hrows : base ++ ".*" ∈ columnsOf root base := by simp [columnsOf]
  have hnumber : "COUNT(DISTINCT " ++ base ++ "." ++ root.primaryKey ++ ")" ∈
      columnsOf root base := by simp [columnsOf]
  rw [text_eq_of_clauses hroot hjoins, hselection] at htext
  cases purpose with
  | count =>
    have hcounted := counted_eq_textWhere (r.rowClauses root base (some own) joins) hsource
    exact ⟨_, joins, [], none, none, hnumber, hjoins, (Except.ok.inj htext).symm.trans hcounted⟩
  | one =>
    have htext := (Except.ok.inj htext).symm.trans
      (rows_eq_textWhere hsource (base ++ ".*") r.orders (some (r.limit.getD 1)) r.offset)
    exact ⟨_, joins, _, _, _, hrows, hjoins, htext⟩
  | display | many =>
    have htext := (Except.ok.inj htext).symm.trans
      (rows_eq_textWhere hsource (base ++ ".*") r.orders r.limit r.offset)
    exact ⟨_, joins, _, _, _, hrows, hjoins, htext⟩

/-- A statement without joins about an entity of its schema can be written. -/
theorem exists_text {s : Statement} {root : Entity} (hroot : s.schema.require s.entity = .ok root)
    (hjoins : s.joins = []) (purpose : Purpose) : ∃ text, s.text purpose = .ok text := by
  cases htext : s.text purpose with
  | ok text => exact ⟨text, rfl⟩
  | error error =>
    rcases text_eq_error_iff.mp htext with hrequire | ⟨other, _, hclauses⟩
    · rw [hroot] at hrequire
      cases hrequire
    · rw [hjoins] at hclauses
      cases hclauses

end Statement

/-! ## The filter -/

namespace Repository

variable {schema : Schema} {entity : String} {options : Options} {r : Repository}

/-- **The filter on a key can be neither widened nor lost.** The queries of a repository that was made
always render. Whatever plain calls lead on from the query for a key, every text that is shown or
sent has a WHERE clause that is the condition on the key, alone or joined by `AND` to one group. -/
theorem key_filter_stays (hmake : make schema entity options = .ok r) (id : Operand) :
    (∀ q ∈ [r.all, r.one, r.byId id], ∀ purpose,
      ∃ text, Query.render purpose q.chain.parts q.builder = .ok text) ∧
    ∀ (steps : List (Step Statement)) chain, Step.AllEach Step.Plain steps →
      Step.runAll steps (r.byId id).chain = .ok chain →
      ∃ root calls more, r.schema.entity? r.entity = some root ∧
        List.Forall₂ Part.Asks chain.parts calls ∧
        (more = "" ∨ ∃ group, IsGroup group ∧ more = " AND " ++ group) ∧
        ∀ text, ({ r.byId id with chain := chain } : Query Statement).Emits text →
          ∃ columns joins orders limit offset,
            columns ∈ Statement.columnsOf root r.options.baseAlias ∧
            Join.Clauses r.schema [(r.options.baseAlias, root)] (Reading.of calls).joins joins ∧
            text = Statement.textWhere columns root r.options.baseAlias joins
              (r.options.baseAlias ++ "." ++ r.options.primaryKey ++ " = " ++ id.renderMember ++
                more) orders limit offset := by
  obtain ⟨halias, _, root, hrequire⟩ := of_make hmake
  constructor
  · intro q hq purpose
    have hnone : q.chain.parts = [] ∧ q.builder.schema.require q.builder.entity = .ok root ∧
        q.builder.joins = [] := by
      simp only [List.mem_cons, List.not_mem_nil, or_false] at hq
      rcases hq with rfl | rfl | rfl <;> exact ⟨rfl, hrequire, rfl⟩
    obtain ⟨hparts, hroot, hjoins⟩ := hnone
    rw [hparts]
    exact Statement.exists_text hroot hjoins purpose
  · intro steps chain hplain hrun
    have hready := ((Chain.Reached.start _).runAll hrun).ready
    have hbracketed : chain.Bracketed :=
      (Chain.Bracketed.keptBy Statement).runAll steps hplain hrun
        (.within [] (.of_isIdentifier halias))
    obtain ⟨calls, hcalls⟩ := exists_calls hready.recorded
    have hconditions := Reading.balanced_of_bracketed hcalls hbracketed.conditions
    have hselection := Reading.selection_eq_none hcalls fun p hp =>
      (hready.recorded p hp).action_ne_select
    have hroot := Schema.entity?_of_require hrequire
    obtain ⟨more, hmore, hwhere⟩ := Reading.whereText_some (r.keyFilter id) hconditions
    refine ⟨root, calls, more, hroot, hcalls, hmore, fun text hemits => ?_⟩
    obtain ⟨purpose, hrender⟩ := hemits.exists_purpose
    have htext := (Query.render_of_asks r.schema r.entity r.options.baseAlias
      (some (r.keyFilter id)) hcalls purpose).symm.trans hrender
    exact Statement.text_ofReading_where hroot hselection hwhere htext

/-- A key and operands with quotes and parentheses in them, and a group: the parenthesis behind `AND`
is closed at the end. -/
theorem key_filter_of_quoted_brackets :
    let users : Repository := ⟨Schema.empty.withEntity (Entity.new "User" "users"), "User", {}⟩
    let key : Query Statement := users.byId (.text "7' OR ''='")
    let steps : List (Step Statement) :=
      [.startCondition ⟨[], "name"⟩, .compare (.equal (.text ") OR (true")),
        .group .or [.startCondition ⟨[], "age"⟩, .compare (.member false [.int32 1, .text "'"])]]
    let text := "SELECT entity.* FROM users entity WHERE entity.id = '7'' OR ''''=''' " ++
      "AND (LOWER(entity.name) = ') or (true' OR (entity.age IN (1, '''')))"
    ∃ chain, Step.runAll steps key.chain = .ok chain ∧
      ({ key with chain := chain } : Query Statement).text = .ok text ∧
      ∃ columns root joins more orders limit offset,
        (more = "" ∨ ∃ group, IsGroup group ∧ more = " AND " ++ group) ∧
        text = Statement.textWhere columns root "entity" joins
          ("entity.id = '7'' OR ''''='''" ++ more) orders limit offset := by
  intro users key steps text
  let chain : Chain :=
    { Chain.start "entity" with
      parts := [.condition .start "LOWER(entity.name) = ') or (true'",
        .condition .or "(entity.age IN (1, ''''))"] }
  have hmake : make users.schema "User" {} = .ok users := rfl
  have hplain : Step.AllEach Step.Plain steps := by
    simp only [steps, Step.AllEach, Step.Each, Step.Plain, Comparison.Plain, Comparison.equal]
    decide
  have hrun : Step.runAll steps key.chain = .ok chain := by decide +kernel
  have htext : ({ key with chain := chain } : Query Statement).text = .ok text := by decide +kernel
  obtain ⟨root, calls, more, _, _, hmore, hemits⟩ :=
    (key_filter_stays hmake (.text "7' OR ''='")).2 steps chain hplain hrun
  obtain ⟨columns, joins, orders, limit, offset, _, _, hwhere⟩ := hemits text (.shown htext)
  exact ⟨chain, hrun, htext, columns, root, joins, more, orders, limit, offset, hmore, hwhere⟩

end Repository

end DeferredQuery
