import DeferredQuery.Proofs.Chain.Recorded
import DeferredQuery.Proofs.Statement.Reading

/-!
# What the terminal calls of a query agree on

The text that is shown, the texts that are sent for one row, for all rows and for their number, and
the text as a subquery come from five calls, and each replays the parts for itself. On a reached
chain they are about the same rows: behind the columns they are put together from the same four
clauses, or all of them fail, for the same reason. A recorded part is never a selection, so only the
selection that a subquery puts before the parts decides its columns.
-/

set_option autoImplicit false

namespace DeferredQuery

/-! ## The clauses behind the columns -/

/-- The clauses of a query that gives rows, behind its columns. -/
structure RowClauses where
  /-- The tables with their joins, and the conditions. -/
  source : String
  orders : String
  limit : String
  offset : String

namespace RowClauses

/-- The text for rows with these columns. -/
def rows (columns : String) (c : RowClauses) : String :=
  "SELECT " ++ columns ++ c.source ++ c.orders ++ c.limit ++ c.offset

/-- The text for the number of rows, told apart by a key. -/
def counted (key : String) (c : RowClauses) : String :=
  "SELECT COUNT(DISTINCT " ++ key ++ ")" ++ c.source

/-- The clauses for one row, if the query has no bound of its own. -/
def forOne (bounded : Bool) (c : RowClauses) : RowClauses :=
  if bounded then c else { c with limit := " LIMIT 1" }

end RowClauses

namespace Reading

/-- The reading with another column selected. -/
def selecting (column : String) (r : Reading) : Reading := { r with selection := some column }

/-- The clauses that a reading says, about an entity under an alias and with the clauses of its
joins. -/
def rowClauses (root : Entity) (base : String) (baseFilter : Option String)
    (joins : List String) (r : Reading) : RowClauses where
  source := r.sourceText root.table base baseFilter joins
  orders := orderText r.orders
  limit := boundText " LIMIT " r.limit
  offset := boundText " OFFSET " r.offset

end Reading

/-! ## Terminal calls -/

/-- One text is sent, and the answer is what is said to it. -/
def Execution.sending {α : Type} (text : String) (answer : String → Except Error α) : Execution α :=
  ⟨[text], answer text⟩

/-- A terminal call that leaves the query to be used again. -/
inductive Peek where
  | text
  | count
  deriving DecidableEq, Repr

namespace Query

variable {β ρ : Type} [Builder β]

/-- The texts that a call gives or sends. -/
def shows (pool : Pool ρ) (q : Query β) : Peek → List String
  | .text => q.text.toOption.toList
  | .count => (q.count pool).sent

/-- The texts of calls made one after the other, the last of which runs the query. -/
def session (pool : Pool ρ) (q : Query β) : List Peek → List String
  | [] => (q.run pool).sent
  | peek :: rest => q.shows pool peek ++ q.session pool rest

/-- Every terminal call fails for one reason, and nothing is sent. -/
structure FailsWith (error : Error) (pool : Pool ρ) (q : Query β) : Prop where
  text : q.text = .error error
  run : ∀ fetch, (q.withFetch fetch).run pool = ⟨[], .error error⟩
  count : q.count pool = ⟨[], .error error⟩
  subquery : ∀ column, q.chain.selection = some column → q.subqueryText = .error error
  session : ∀ fetch peeks, (q.withFetch fetch).session pool peeks = []

/-- Every terminal call is made from the same clauses, and what is sent is sent once and answered by
the pool. -/
structure Gives (base key : String) (c : RowClauses) (pool : Pool ρ) (q : Query β) : Prop where
  text : q.text = .ok (c.rows (base ++ ".*"))
  many : (q.withFetch .many).run pool =
    .sending (c.rows (base ++ ".*")) fun text => (pool.fetchAll text).map .many
  one : (q.withFetch .one).run pool =
    .sending ((c.forOne (q.chain.parts.any (·.action = .take))).rows (base ++ ".*")) fun text =>
      (pool.fetchOptional text).map .one
  count : q.count pool = .sending (c.counted (base ++ "." ++ key)) pool.fetchCount
  subquery : ∀ column, q.chain.selection = some column → q.subqueryText = .ok (c.rows column)
  session : ∀ fetch peeks, (q.withFetch fetch).session pool peeks =
    (peeks.map fun
      | .text => c.rows (base ++ ".*")
      | .count => c.counted (base ++ "." ++ key)) ++ ((q.withFetch fetch).run pool).sent

end Query

/-! ## What the clauses depend on -/

namespace Part

/-- Calls of a sort are made exactly if there is a part with their action. -/
theorem filterMap_eq_nil_iff_of_asks {α : Type} {parts : List Part} {calls : List Call}
    {read : Call → Option α} {action : Action}
    (hread : ∀ {p : Part} {call : Call}, p.Asks call → (read call = none ↔ p.action ≠ action))
    (h : List.Forall₂ Asks parts calls) :
    calls.filterMap read = [] ↔ ∀ p ∈ parts, p.action ≠ action := by
  induction h with
  | nil => simp
  | cons hp _ ih => rw [List.filterMap_eq_nil_iff, List.forall_mem_cons, List.forall_mem_cons,
      hread hp, ← List.filterMap_eq_nil_iff, ih]

theorem Asks.selection?_eq_none_iff {p : Part} {call : Call} (h : p.Asks call) :
    call.selection? = none ↔ p.action ≠ .select := by
  cases h <;> simp [Call.selection?]

theorem Asks.limit?_eq_none_iff {p : Part} {call : Call} (h : p.Asks call) :
    call.limit? = none ↔ p.action ≠ .take := by
  cases h <;> simp [Call.limit?]

end Part

namespace Reading

variable {parts : List Part} {calls : List Call}

theorem selection_eq_none (h : List.Forall₂ Part.Asks parts calls)
    (hparts : ∀ p ∈ parts, p.action ≠ .select) : (Reading.of calls).selection = none := by
  have hcalls := (Part.filterMap_eq_nil_iff_of_asks Part.Asks.selection?_eq_none_iff h).mpr hparts
  simp [Reading.of, hcalls]

/-- A selection before calls that select nothing is the only one, and changes nothing else. -/
theorem of_select (column : String) (h : (Reading.of calls).selection = none) :
    Reading.of (.select column :: calls) = (Reading.of calls).selecting column := by
  have hcalls : calls.filterMap Call.selection? = [] := List.getLast?_eq_none_iff.mp h
  simp [Reading.of, selecting, List.filterMap_cons, Call.join?, Call.condition?, Call.order?,
    Call.offset?, Call.limit?, Call.selection?, hcalls]

/-- One row is asked for unless there is a part that bounds the rows. -/
theorem forOne_rowClauses (h : List.Forall₂ Part.Asks parts calls) (root : Entity) (base : String)
    (baseFilter : Option String) (joins : List String) :
    ((Reading.of calls).rowClauses root base baseFilter joins).forOne
        (parts.any fun p => p.action = .take) =
      { (Reading.of calls).rowClauses root base baseFilter joins with
        limit := boundText " LIMIT " (some ((Reading.of calls).limit.getD 1)) } := by
  have htake := Part.filterMap_eq_nil_iff_of_asks Part.Asks.limit?_eq_none_iff h
  cases hlimit : (Reading.of calls).limit with
  | none =>
    have hnone := htake.mp (List.getLast?_eq_none_iff.mp hlimit)
    have hany : (parts.any fun p => p.action = .take) = false := by simpa using hnone
    rw [hany]
    rfl
  | some count =>
    have hany : (parts.any fun p => p.action = .take) = true := by
      by_contra hno
      have hcalls := htake.mpr (by simpa using hno)
      simp [Reading.of, hcalls] at hlimit
    rw [hany]
    simp [RowClauses.forOne, rowClauses, hlimit]

end Reading

namespace Statement

variable {schema : Schema} {entity base : String} {baseFilter : Option String} {r : Reading}
  {root : Entity} {joins : List String}

/-- The texts of a reading for its rows and for their number. -/
theorem text_eq_of_clauses (hroot : schema.entity? entity = some root)
    (hjoins : Join.Clauses schema [(base, root)] r.joins joins) (purpose : Purpose) :
    (ofReading schema entity base baseFilter r).text purpose =
      .ok (let c := r.rowClauses root base baseFilter joins
        match purpose with
        | .count => c.counted (base ++ "." ++ root.primaryKey)
        | .display | .many => c.rows (r.selection.getD (base ++ ".*"))
        | .one => { c with limit := Reading.boundText " LIMIT " (some (r.limit.getD 1)) }.rows
            (r.selection.getD (base ++ ".*"))) := by
  have hrequire : (ofReading schema entity base baseFilter r).schema.require
      (ofReading schema entity base baseFilter r).entity = .ok root := by
    simp only [ofReading, fresh, Schema.require, hroot]
  have hcount : "SELECT COUNT(DISTINCT " = "SELECT " ++ "COUNT(DISTINCT " := rfl
  rw [Statement.text, hrequire]
  dsimp only
  rw [source_ofReading hjoins]
  simp only [orderClause_ofReading, offsetClause_ofReading, limitClause_eq]
  cases purpose with
  | count =>
    dsimp only [RowClauses.counted, Reading.rowClauses, countColumn, ofReading, fresh]
    rw [hcount]
    simp only [String.append_assoc]
  | _ => rfl

end Statement

/-! ## Agreement -/

namespace Query

variable {β ρ : Type} [Builder β] {q : Query β} {pool : Pool ρ}

theorem failsWith_of_render {error : Error}
    (h : ∀ purpose, render purpose q.chain.parts q.builder = .error error)
    (hsubquery : ∀ column, q.chain.selection = some column →
      render .display (.select column :: q.chain.parts) q.builder = .error error) :
    q.FailsWith error pool := by
  have hrun : ∀ fetch, (q.withFetch fetch).run pool = ⟨[], .error error⟩ := by
    intro fetch
    simp only [run, withFetch, h, fetchFrom]
  have hcount : q.count pool = ⟨[], .error error⟩ := by simp only [count, h, countFrom]
  refine ⟨h .display, hrun, hcount, fun column hcolumn => ?_, fun fetch peeks => ?_⟩
  · simp only [subqueryText, hcolumn, hsubquery column hcolumn]
  · induction peeks with
    | nil => rw [session, hrun]
    | cons peek rest ih =>
      rw [session, ih]
      cases peek with
      | text => simp [shows, text, withFetch, h, Except.toOption]
      | count => simp [shows, count, withFetch, h, countFrom]

theorem gives_of_render {base key : String} {c : RowClauses}
    (hdisplay : render .display q.chain.parts q.builder = .ok (c.rows (base ++ ".*")))
    (hmany : render .many q.chain.parts q.builder = .ok (c.rows (base ++ ".*")))
    (hone : render .one q.chain.parts q.builder =
      .ok ((c.forOne (q.chain.parts.any (·.action = .take))).rows (base ++ ".*")))
    (hcount : render .count q.chain.parts q.builder = .ok (c.counted (base ++ "." ++ key)))
    (hsubquery : ∀ column, q.chain.selection = some column →
      render .display (.select column :: q.chain.parts) q.builder = .ok (c.rows column)) :
    q.Gives base key c pool := by
  refine ⟨hdisplay, ?_, ?_, ?_, fun column hcolumn => ?_, fun fetch peeks => ?_⟩
  · simp only [run, withFetch, Fetch.purpose, hmany, fetchFrom, Execution.sending]
  · simp only [run, withFetch, Fetch.purpose, hone, fetchFrom, Execution.sending]
  · simp only [count, hcount, countFrom, Execution.sending]
  · simp only [subqueryText, hcolumn, hsubquery column hcolumn]
  · induction peeks with
    | nil => rfl
    | cons peek rest ih =>
      rw [session, ih]
      cases peek with
      | text => simp [shows, text, withFetch, hdisplay, Except.toOption]
      | count => simp [shows, count, withFetch, hcount, countFrom]

/-- **The terminal calls of a query agree.** For a query that calls have reached from a fresh
statement, either all of them fail, for one reason and with nothing sent; or there is a base entity,
the joins have clauses, and the clauses that all texts are put together from are those that the
parts say. -/
theorem terminals_agree (schema : Schema) (entity base : String) (baseFilter : Option String)
    {steps : List (Step β)} {chain : Chain}
    (hrun : Step.runAll steps (Query.new (Statement.fresh schema entity base baseFilter)).chain =
      .ok chain) (pool : Pool ρ) :
    let q : Query Statement := ⟨Statement.fresh schema entity base baseFilter, chain, .many⟩
    (∃ error, q.FailsWith error pool) ∨
      ∃ root calls joins, schema.entity? entity = some root ∧
        List.Forall₂ Part.Asks chain.parts calls ∧
        Join.Clauses schema [(base, root)] (Reading.of calls).joins joins ∧
        q.Gives base root.primaryKey ((Reading.of calls).rowClauses root base baseFilter joins)
          pool := by
  intro q
  have hready := ((Chain.Reached.start base).runAll hrun).ready
  obtain ⟨calls, hcalls⟩ := exists_calls hready.recorded
  have hselection := Reading.selection_eq_none hcalls fun p hp =>
    (hready.recorded p hp).action_ne_select
  have hrender : ∀ purpose, render purpose q.chain.parts q.builder = _ :=
    Query.render_of_asks schema entity base baseFilter hcalls
  -- A subquery selects before all parts, which do not select.
  have hsubquery : ∀ column, render .display (.select column :: q.chain.parts) q.builder = _ :=
    fun column => Query.render_of_asks schema entity base baseFilter
      (.cons (.select column []) hcalls) .display
  simp only [Reading.of_select _ hselection] at hsubquery
  cases htext : q.text with
  | error error =>
    have hunwritable := Statement.text_eq_error_iff.mp ((hrender .display).symm.trans htext)
    refine .inl ⟨error, failsWith_of_render (fun purpose => ?_) fun column _ => ?_⟩
    · exact (hrender purpose).trans (Statement.text_eq_error_iff.mpr hunwritable)
    · exact (hsubquery column).trans (Statement.text_eq_error_iff.mpr hunwritable)
  | ok text =>
    obtain ⟨root, joins, hroot, hjoins⟩ : ∃ root joins, schema.entity? entity = some root ∧
        Join.Clauses schema [(base, root)] (Reading.of calls).joins joins :=
      Statement.writable_of_text ((hrender .display).symm.trans htext)
    have hgiven := fun purpose => (hrender purpose).trans
      (Statement.text_eq_of_clauses hroot hjoins purpose)
    simp only [hselection, Option.getD_none] at hgiven
    refine .inr ⟨root, calls, joins, hroot, hcalls, hjoins,
      gives_of_render (hgiven .display) (hgiven .many) ?_ (hgiven .count) fun column _ => ?_⟩
    · rw [Reading.forOne_rowClauses hcalls]
      exact hgiven .one
    · rw [hsubquery, Statement.text_eq_of_clauses (r := (Reading.of calls).selecting column) hroot
        hjoins]
      rfl

/-- A query with a condition on a relation, a selected column and rows left out: all its texts are
put together from the same clauses. -/
theorem terminals_of_selected_column :
    let schema := (Schema.empty.withEntity ((Entity.new "User" "users").withRelation .manyToOne
      "group" "Group" "group_id")).withEntity (Entity.new "Group" "groups")
    let start := Statement.fresh schema "User" "u" (some "u.id = 7")
    let steps : List (Step Statement) := [.startCondition ⟨["group"], "name"⟩,
      .compare (.equal (.int32 1)), .select ⟨[], "id"⟩, .skip 2]
    ∃ chain c, Step.runAll steps (Query.new start).chain = .ok chain ∧
      (Query.mk start chain .many).text =
        .ok ("SELECT u.* FROM users u INNER JOIN groups u_group ON u_group.id = u.group_id " ++
          "WHERE u.id = 7 AND (u_group.name = 1) OFFSET 2") ∧
      (Query.mk start chain .many).Gives "u" "id" c (Pool.constant ["first", "second"] 2) := by
  intro schema start steps
  let chain : Chain :=
    { Chain.start "u" with
      parts := [.join .inner "u.group" "u_group", .condition .start "u_group.name = 1", .skip 2]
      history := ["u_group"]
      selection := some "u.id" }
  have hrun : Step.runAll steps (Query.new start).chain = .ok chain := by decide +kernel
  have htext : (Query.mk start chain .many).text =
      .ok ("SELECT u.* FROM users u INNER JOIN groups u_group ON u_group.id = u.group_id " ++
        "WHERE u.id = 7 AND (u_group.name = 1) OFFSET 2") := by decide
  obtain ⟨error, hfails⟩ | ⟨root, calls, joins, hroot, _, _, hgives⟩ :=
    terminals_agree schema "User" "u" (some "u.id = 7") hrun (Pool.constant ["first", "second"] 2)
  · -- The text is there, so this is not the query that fails.
    cases htext.symm.trans hfails.text
  · obtain rfl : _ = root := Option.some.inj hroot
    exact ⟨chain, _, hrun, htext, hgives⟩

end Query

end DeferredQuery
