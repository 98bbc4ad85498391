import DeferredQuery.Proofs.Part.Asked
import DeferredQuery.Query
import DeferredQuery.Statement
import Mathlib.Data.List.Induction

/-!
# What a list of calls says

A statement is built by receiving calls one after the other, and some of them undo others: a
condition that starts drops the conditions before it, and so does an ordering; of selections and
bounds the last counts. A `Reading` says the same of the whole list at once, field by field, and its
text is spelled out from the fields. `receiveAll_fresh` is the induction that makes the two equal;
so calls of one sort never touch what those of another say, and two lists that agree on each sort
make the same statement.
-/

set_option autoImplicit false

namespace DeferredQuery

/-! ## Sorts of calls -/

/-- The clause of a statement that an action writes to. -/
inductive Place where
  | joins
  | conditions
  | orders
  | selection
  | offset
  | limit
  deriving DecidableEq, Repr

def Action.place : Action → Place
  | .condition _ => .conditions
  | .join _ => .joins
  | .select => .selection
  | .order _ => .orders
  | .skip => .offset
  | .take => .limit

/-- The word before a condition that is not the first. -/
def ConditionKind.combinator : ConditionKind → Combinator
  | .or => .or
  | .start | .and => .and

namespace Call

def place : Call → Place
  | .condition _ _ => .conditions
  | .join _ _ _ _ => .joins
  | .select _ => .selection
  | .order _ _ _ _ => .orders
  | .skip _ => .offset
  | .take _ => .limit

def join? : Call → Option Join
  | .join kind relation name on => some ⟨kind, relation, name, on⟩
  | _ => none

def condition? : Call → Option (ConditionKind × String)
  | .condition kind text => some (kind, text)
  | _ => none

def order? : Call → Option (OrderKind × String)
  | .order kind column direction nulls => some (kind, orderText column direction nulls)
  | _ => none

def selection? : Call → Option String
  | .select column => some column
  | _ => none

def offset? : Call → Option Nat
  | .skip count => some count
  | _ => none

def limit? : Call → Option Nat
  | .take count => some count
  | _ => none

end Call

/-- The elements from the last one that starts afresh on, or all if none does. -/
def sinceLast {α : Type} (starts : α → Bool) : List α → List α
  | [] => []
  | a :: rest => if rest.any starts then sinceLast starts rest else a :: rest

theorem sinceLast_append_singleton {α : Type} (starts : α → Bool) (l : List α) (a : α) :
    sinceLast starts (l ++ [a]) = if starts a then [a] else sinceLast starts l ++ [a] := by
  induction l with
  | nil => simp [sinceLast]
  | cons b l ih =>
    simp only [List.cons_append, sinceLast, List.any_append, ih]
    by_cases ha : starts a = true
    · simp [ha]
    · by_cases hl : l.any starts = true <;> simp [ha, hl]

/-! ## Readings -/

/-- What a list of calls says of a statement. -/
structure Reading where
  joins : List Join
  conditions : List (ConditionKind × String)
  orders : List String
  selection : Option String
  offset : Option Nat
  limit : Option Nat

namespace Reading

def of (calls : List Call) : Reading where
  joins := calls.filterMap Call.join?
  conditions := sinceLast (·.1 = .start) (calls.filterMap Call.condition?)
  orders := (sinceLast (·.1 = .start) (calls.filterMap Call.order?)).map (·.2)
  selection := (calls.filterMap Call.selection?).getLast?
  offset := (calls.filterMap Call.offset?).getLast?
  limit := (calls.filterMap Call.limit?).getLast?

/-- Conditions in one pair of parentheses, each but the first behind its word. -/
def bracketed (first : ConditionKind × String) (rest : List (ConditionKind × String)) : String :=
  "(" ++ first.2 ++ String.join (rest.map fun c => " " ++ c.1.combinator.text ++ " " ++ c.2) ++ ")"

def whereText (baseFilter : Option String) (conditions : List (ConditionKind × String)) : String :=
  match baseFilter, conditions with
  | none, [] => ""
  | some own, [] => " WHERE " ++ own
  | none, first :: rest => " WHERE " ++ bracketed first rest
  | some own, first :: rest => " WHERE " ++ own ++ " AND " ++ bracketed first rest

def orderText : List String → String
  | [] => ""
  | first :: rest => " ORDER BY " ++ String.intercalate ", " (first :: rest)

def boundText (keyword : String) : Option Nat → String
  | none => ""
  | some count => keyword ++ toString count

/-- The rows that a reading is about: a table under an alias, the clauses of its joins, and its
conditions. -/
def sourceText (table base : String) (baseFilter : Option String) (clauses : List String)
    (r : Reading) : String :=
  " FROM " ++ table ++ " " ++ base ++ String.join clauses ++ whereText baseFilter r.conditions

/-- The text of a reading about a table under an alias, with the clauses of its joins. -/
def text (table base : String) (baseFilter : Option String) (clauses : List String) (r : Reading) :
    String :=
  "SELECT " ++ r.selection.getD (base ++ ".*") ++ r.sourceText table base baseFilter clauses
    ++ orderText r.orders ++ boundText " LIMIT " r.limit ++ boundText " OFFSET " r.offset

end Reading

/-- The clauses of joins, one for each and in their order. Each join is resolved with the aliases
that are bound before it. -/
inductive Join.Clauses (schema : Schema) : Scope → List Join → List String → Prop
  | nil (scope : Scope) : Clauses schema scope [] []
  | cons {scope : Scope} {j : Join} {rest : List Join} {target : Entity} {on : String}
    {clauses : List String} (h : j.resolve schema scope = .ok (target, on))
    (hs : Clauses schema ((j.name, target) :: scope) rest clauses) :
    Clauses schema scope (j :: rest)
      (((if j.kind = .inner then " INNER JOIN " else " LEFT JOIN ") ++ target.table ++ " " ++ j.name
        ++ " ON " ++ on) :: clauses)

theorem Join.clauses_eq_ok_iff {schema : Schema} {scope : Scope} {joins : List Join}
    {text : String} :
    clauses schema scope joins = .ok text ↔
      ∃ clauses, Clauses schema scope joins clauses ∧ text = String.join clauses := by
  induction joins generalizing scope text with
  | nil =>
    constructor
    · rintro ⟨⟩
      exact ⟨[], .nil scope, rfl⟩
    · rintro ⟨_, ⟨⟩, rfl⟩
      rfl
  | cons j rest ih =>
    have hkeyword : " " ++ j.kind.keyword ++ " " =
        if j.kind = .inner then " INNER JOIN " else " LEFT JOIN " := by
      cases j.kind <;> decide
    constructor
    · intro h
      simp only [Join.clauses] at h
      split at h
      · cases h
      · rename_i target on hresolve
        split at h
        · cases h
        · rename_i others hothers
          cases h
          obtain ⟨clauses, hclauses, rfl⟩ := ih.mp hothers
          refine ⟨_, .cons hresolve hclauses, ?_⟩
          rw [String.join_cons, ← hkeyword, clause]
    · rintro ⟨all, hall, rfl⟩
      cases hall with
      | @cons _ _ _ target on others hresolve hrest =>
        have hothers := ih.mpr ⟨others, hrest, rfl⟩
        simp only [Join.clauses, hresolve, hothers]
        rw [String.join_cons, ← hkeyword, clause]

/-! ## Statements -/

theorem Schema.entity?_of_require {schema : Schema} {key : String} {e : Entity}
    (h : schema.require key = .ok e) : schema.entity? key = some e := by
  unfold Schema.require at h
  split at h
  · rename_i found hfound
    cases h
    exact hfound
  · cases h

theorem Builder.receiveAll_append_singleton {β : Type} [Builder β] (calls : List Call) (call : Call)
    (builder : β) :
    receiveAll (calls ++ [call]) builder = receive call (receiveAll calls builder) := by
  simp [receiveAll]

namespace Statement

/-- A statement that has received no call, with or without a base filter. -/
def fresh (schema : Schema) (entity base : String) (baseFilter : Option String) : Statement :=
  { schema := schema, entity := entity, baseAlias := base, baseFilter := baseFilter }

/-- The statement that a reading says. -/
def ofReading (schema : Schema) (entity base : String) (baseFilter : Option String) (r : Reading) :
    Statement :=
  { fresh schema entity base baseFilter with
    joins := r.joins
    selection := r.selection
    conditions := ⟨r.conditions.map fun c => (c.1.combinator, c.2)⟩
    orders := r.orders
    offset := r.offset
    limit := r.limit }

/-- **Receiving calls one by one makes what the whole list says.** -/
theorem receiveAll_fresh (schema : Schema) (entity base : String) (baseFilter : Option String)
    (calls : List Call) :
    Builder.receiveAll calls (fresh schema entity base baseFilter) =
      ofReading schema entity base baseFilter (.of calls) := by
  induction calls using List.reverseRecOn with
  | nil => rfl
  | append_singleton calls call ih =>
    rw [Builder.receiveAll_append_singleton, ih]
    -- Each call changes one field, and is behind the others in the list of its sort.
    simp only [Reading.of, List.filterMap_append]
    cases call with
    | condition kind text =>
      cases kind <;>
        simp [ofReading, Builder.receive, receive, Group.add, List.filterMap, Call.join?,
          Call.condition?, Call.order?, Call.selection?, Call.offset?, Call.limit?,
          sinceLast_append_singleton, ConditionKind.combinator]
    | order kind column direction nulls =>
      cases kind <;>
        simp [ofReading, Builder.receive, receive, List.filterMap, Call.join?, Call.condition?,
          Call.order?, Call.selection?, Call.offset?, Call.limit?, sinceLast_append_singleton]
    | _ =>
      simp [ofReading, Builder.receive, receive, List.filterMap, Call.join?, Call.condition?,
        Call.order?, Call.selection?, Call.offset?, Call.limit?]

/-! ### The text -/

theorem restText_map (conditions : List (ConditionKind × String)) :
    Group.restText (conditions.map fun c => (c.1.combinator, c.2)) =
      String.join (conditions.map fun c => " " ++ c.1.combinator.text ++ " " ++ c.2) := by
  induction conditions with
  | nil => rfl
  | cons c rest ih => simp [Group.restText, ih, String.join_cons]

theorem whereClause_ofReading (schema : Schema) (entity base : String) (baseFilter : Option String)
    (r : Reading) :
    (ofReading schema entity base baseFilter r).whereClause =
      Reading.whereText baseFilter r.conditions := by
  cases baseFilter <;> cases hconditions : r.conditions <;>
    simp [whereClause, listClause, filters, ofReading, fresh, hconditions, Group.isEmpty,
      Group.text, Group.innerText, restText_map, Reading.whereText, Reading.bracketed,
      String.append_assoc]

theorem orderClause_ofReading (schema : Schema) (entity base : String) (baseFilter : Option String)
    (r : Reading) :
    (ofReading schema entity base baseFilter r).orderClause = Reading.orderText r.orders := by
  cases horders : r.orders <;> simp [orderClause, listClause, ofReading, horders, Reading.orderText]

theorem limitClause_eq (limit : Option Nat) :
    limitClause limit = Reading.boundText " LIMIT " limit := by
  cases limit <;> rfl

theorem offsetClause_ofReading (schema : Schema) (entity base : String)
    (baseFilter : Option String) (r : Reading) :
    (ofReading schema entity base baseFilter r).offsetClause =
      Reading.boundText " OFFSET " r.offset := by
  cases hoffset : r.offset <;> simp [offsetClause, ofReading, countClause, hoffset,
    Reading.boundText]

theorem source_ofReading {schema : Schema} {entity base : String} {baseFilter : Option String}
    {r : Reading} {root : Entity} {clauses : List String}
    (hclauses : Join.Clauses schema [(base, root)] r.joins clauses) :
    (ofReading schema entity base baseFilter r).source root =
      .ok (r.sourceText root.table base baseFilter clauses) := by
  have hjoins := Join.clauses_eq_ok_iff.mpr ⟨clauses, hclauses, rfl⟩
  rw [source, whereClause_ofReading]
  simp only [ofReading, fresh, hjoins, Reading.sourceText]

/-- A statement cannot be written: it is about an entity that is not there, or one of its joins
cannot be resolved. -/
def Unwritable (error : Error) (s : Statement) : Prop :=
  s.schema.require s.entity = .error error ∨
    ∃ root, s.schema.require s.entity = .ok root ∧
      Join.clauses s.schema [(s.baseAlias, root)] s.joins = .error error

/-- A statement that can be written has a base entity, and its joins have clauses. -/
theorem writable_of_text {s : Statement} {purpose : Purpose} {text : String}
    (h : s.text purpose = .ok text) :
    ∃ root clauses, s.schema.entity? s.entity = some root ∧
      Join.Clauses s.schema [(s.baseAlias, root)] s.joins clauses := by
  unfold Statement.text at h
  split at h
  · cases h
  · rename_i root hrequire
    split at h
    · cases h
    · rename_i source hsource
      unfold Statement.source at hsource
      split at hsource
      · cases hsource
      · rename_i joins hjoins
        obtain ⟨clauses, hclauses, _⟩ := Join.clauses_eq_ok_iff.mp hjoins
        exact ⟨root, clauses, Schema.entity?_of_require hrequire, hclauses⟩

/-- Whatever a statement is written for, it fails for the same reason. -/
theorem text_eq_error_iff {s : Statement} {purpose : Purpose} {error : Error} :
    s.text purpose = .error error ↔ s.Unwritable error := by
  unfold Statement.text Unwritable Statement.source
  cases hrequire : s.schema.require s.entity with
  | error other => simp
  | ok root =>
    cases hjoins : Join.clauses s.schema [(s.baseAlias, root)] s.joins with
    | error other => simp [hjoins]
    | ok joins => cases purpose <;> simp [hjoins]

/-- With the clauses of its joins, the statement of a reading has the text of the reading. -/
theorem text_ofReading {schema : Schema} {entity base : String} {baseFilter : Option String}
    {r : Reading} {root : Entity} {clauses : List String}
    (hroot : schema.entity? entity = some root)
    (hclauses : Join.Clauses schema [(base, root)] r.joins clauses) :
    (ofReading schema entity base baseFilter r).text .display =
      .ok (r.text root.table base baseFilter clauses) := by
  have hrequire : (ofReading schema entity base baseFilter r).schema.require
      (ofReading schema entity base baseFilter r).entity = .ok root := by
    simp only [ofReading, fresh, Schema.require, hroot]
  rw [Statement.text, hrequire]
  simp only [source_ofReading hclauses, orderClause_ofReading, limitClause_eq,
    offsetClause_ofReading]
  rfl

theorem text_ofReading_iff {schema : Schema} {entity base : String} {baseFilter : Option String}
    {r : Reading} {text : String} :
    (ofReading schema entity base baseFilter r).text .display = .ok text ↔
      ∃ root clauses, schema.entity? entity = some root ∧
        Join.Clauses schema [(base, root)] r.joins clauses ∧
        text = r.text root.table base baseFilter clauses := by
  constructor
  · intro h
    obtain ⟨root, clauses, hroot, hclauses⟩ := writable_of_text h
    have htext : (ofReading schema entity base baseFilter r).text .display = _ :=
      text_ofReading hroot hclauses
    rw [h] at htext
    cases htext
    exact ⟨root, clauses, hroot, hclauses, rfl⟩
  · rintro ⟨root, clauses, hroot, hclauses, rfl⟩
    exact text_ofReading hroot hclauses

end Statement

/-! ## Lists of parts -/

namespace Part

theorem Asks.place_eq {p : Part} {call : Call} (h : p.Asks call) : call.place = p.action.place := by
  cases h <;> rfl

theorem rightUnique_asks : Relator.RightUnique Asks := by
  intro p call other hcall hother
  exact Except.ok.inj (hcall.call_eq.symm.trans hother.call_eq)

/-- The parts of a list that write to one clause. -/
def writingTo (place : Place) (parts : List Part) : List Part :=
  parts.filter fun p => p.action.place = place

theorem calls_eq_of_writingTo_eq {parts others : List Part} {calls otherCalls : List Call}
    (h : List.Forall₂ Asks parts calls) (hother : List.Forall₂ Asks others otherCalls)
    {place : Place}
    (hplace : writingTo place others = writingTo place parts) :
    otherCalls.filter (fun c => c.place = place) = calls.filter fun c => c.place = place := by
  have hfilter : ∀ {l : List Part} {m : List Call}, List.Forall₂ Asks l m →
      List.Forall₂ Asks (writingTo place l) (m.filter fun c => c.place = place) := by
    intro l m hlm
    refine List.rel_filter ?_ hlm
    intro p call hcall
    simp [hcall.place_eq]
  have hcalls := hfilter h
  rw [← hplace] at hcalls
  exact rightUnique_asks.forall₂ (hfilter hother) hcalls

end Part

namespace Call

/-- A call of one sort says nothing of the other sorts. -/
theorem reads_of_place (call : Call) :
    (call.place ≠ .joins → call.join? = none) ∧
      (call.place ≠ .conditions → call.condition? = none) ∧
      (call.place ≠ .orders → call.order? = none) ∧
      (call.place ≠ .selection → call.selection? = none) ∧
      (call.place ≠ .offset → call.offset? = none) ∧
      (call.place ≠ .limit → call.limit? = none) := by
  cases call <;> simp [place, join?, condition?, order?, selection?, offset?, limit?]

theorem filterMap_eq_of_place {α : Type} {calls others : List Call} (read : Call → Option α)
    (place : Place) (hread : ∀ call : Call, call.place ≠ place → read call = none)
    (h : others.filter (fun c => c.place = place) = calls.filter fun c => c.place = place) :
    others.filterMap read = calls.filterMap read := by
  have hfilter : ∀ l : List Call, (l.filter fun c => c.place = place).filterMap read =
      l.filterMap read := by
    intro l
    rw [List.filterMap_filter]
    congr 1
    funext call
    by_cases hcall : call.place = place
    · simp [hcall]
    · simp [hcall, hread call hcall]
  rw [← hfilter others, h, hfilter calls]

end Call

/-- Lists of calls that agree on every sort say the same. -/
theorem Reading.of_eq_of_places {calls others : List Call}
    (h : ∀ place, others.filter (fun c : Call => c.place = place) =
      calls.filter fun c => c.place = place) : Reading.of others = Reading.of calls := by
  have hreads := Call.reads_of_place
  have hjoins := Call.filterMap_eq_of_place Call.join? _ (fun c => (hreads c).1) (h .joins)
  have hconditions := Call.filterMap_eq_of_place Call.condition? _ (fun c => (hreads c).2.1)
    (h .conditions)
  have horders := Call.filterMap_eq_of_place Call.order? _ (fun c => (hreads c).2.2.1) (h .orders)
  have hselection := Call.filterMap_eq_of_place Call.selection? _ (fun c => (hreads c).2.2.2.1)
    (h .selection)
  have hoffset := Call.filterMap_eq_of_place Call.offset? _ (fun c => (hreads c).2.2.2.2.1)
    (h .offset)
  have hlimit := Call.filterMap_eq_of_place Call.limit? _ (fun c => (hreads c).2.2.2.2.2) (h .limit)
  simp only [Reading.of, hjoins, hconditions, horders, hselection, hoffset, hlimit]

/-- Parts that ask for calls are rendered as the builder that has received the calls. -/
theorem Query.render_eq_text {γ : Type} [Builder γ] {parts : List Part} {calls : List Call}
    (h : List.Forall₂ Part.Asks parts calls) (purpose : Purpose) (builder : γ) :
    render purpose parts builder = Builder.text purpose (Builder.receiveAll calls builder) := by
  rw [render, replay_of_asks h]
  rfl

/-- Parts that ask for calls are rendered as the statement of what the calls say. -/
theorem Query.render_of_asks (schema : Schema) (entity base : String) (baseFilter : Option String)
    {parts : List Part} {calls : List Call} (h : List.Forall₂ Part.Asks parts calls)
    (purpose : Purpose) :
    Query.render purpose parts (Statement.fresh schema entity base baseFilter) =
      (Statement.ofReading schema entity base baseFilter (.of calls)).text purpose := by
  rw [Query.render_eq_text h, Statement.receiveAll_fresh]
  rfl

/-- **What parts are rendered to.** Parts that ask for calls are replayed onto a fresh statement to
the text that the calls say: the columns of the last selection, the table, one clause for each join,
the base filter and the conditions from the last that starts on, the orderings likewise, and the
last bounds. Lists that agree on the parts of each clause render the same, whatever is asked of
them. -/
theorem Query.render_fresh (schema : Schema) (entity base : String) (baseFilter : Option String)
    {parts : List Part} {calls : List Call} (hparts : List.Forall₂ Part.Asks parts calls) :
    (∀ text,
      Query.render .display parts (Statement.fresh schema entity base baseFilter) = .ok text ↔
      ∃ root clauses, schema.entity? entity = some root ∧
        Join.Clauses schema [(base, root)] (Reading.of calls).joins clauses ∧
        text = (Reading.of calls).text root.table base baseFilter clauses) ∧
    ∀ others otherCalls, List.Forall₂ Part.Asks others otherCalls →
      (∀ place, Part.writingTo place others = Part.writingTo place parts) → ∀ purpose,
      Query.render purpose others (Statement.fresh schema entity base baseFilter) =
        Query.render purpose parts (Statement.fresh schema entity base baseFilter) := by
  constructor
  · intro text
    rw [Query.render_of_asks _ _ _ _ hparts]
    exact Statement.text_ofReading_iff
  · intro others otherCalls hothers hplaces purpose
    have hcalls := Reading.of_eq_of_places fun place =>
      Part.calls_eq_of_writingTo_eq hparts hothers (hplaces place)
    rw [Query.render_of_asks _ _ _ _ hparts, Query.render_of_asks _ _ _ _ hothers, hcalls]

/-- A condition and an ordering that are dropped again, two limits, and a join with a condition of
its own; and the same with the parts of each clause brought together. -/
theorem Query.render_of_replaced_parts :
    let schema := (Schema.empty.withEntity (Entity.new "User" "users")).withEntity
      (Entity.new "Group" "groups")
    let statement := Statement.fresh schema "User" "u" (some "u.id = 7")
    let first : Part := .condition .or "u.a = 1"
    let second : Part := .condition .start "u.b = 2"
    let third : Part := .condition .or "g.c = 3"
    let group : Part := .joinOn .left "Group" "g" "g.d = u.d"
    Query.render .display
        [first, .take 5, second, .order .next "u.e" .ascending none, group, third, .take 2,
          .order .start "g.f" .descending (some .last)] statement =
        .ok ("SELECT u.* FROM users u LEFT JOIN groups g ON g.d = u.d " ++
          "WHERE u.id = 7 AND (u.b = 2 OR g.c = 3) ORDER BY g.f DESC NULLS LAST LIMIT 2") ∧
      Query.render .count
          [group, first, second, third, .order .next "u.e" .ascending none,
            .order .start "g.f" .descending (some .last), .take 5, .take 2] statement =
        Query.render .count
          [first, .take 5, second, .order .next "u.e" .ascending none, group, third, .take 2,
            .order .start "g.f" .descending (some .last)] statement := by
  intro schema statement first second third group
  have hfirst : first.Asks _ := .condition .or "u.a = 1" []
  have hsecond : second.Asks _ := .condition .start "u.b = 2" []
  have hthird : third.Asks _ := .condition .or "g.c = 3" []
  have hgroup : group.Asks _ := .joinOn .left "Group" "g" "g.d = u.d" []
  have horder : (Part.order .next "u.e" .ascending none).Asks _ := .order .next "u.e" .ascending
  have hlast : (Part.order .start "g.f" .descending (some .last)).Asks _ :=
    .orderNulls .start "g.f" .descending .last []
  have htake : ∀ count, (Part.take count).Asks (.take count) := fun count => .take count []
  obtain ⟨htext, hagree⟩ := Query.render_fresh schema "User" "u" (some "u.id = 7")
    (.cons hfirst (.cons (htake 5) (.cons hsecond (.cons horder (.cons hgroup (.cons hthird
      (.cons (htake 2) (.cons hlast .nil))))))))
  constructor
  · refine (htext _).mpr ⟨Entity.new "User" "users", _, rfl, .cons rfl (.nil _), ?_⟩
    decide
  · refine hagree _ _ (.cons hgroup (.cons hfirst (.cons hsecond (.cons hthird (.cons horder
      (.cons hlast (.cons (htake 5) (.cons (htake 2) .nil)))))))) ?_ .count
    intro place
    cases place <;> rfl

end DeferredQuery
