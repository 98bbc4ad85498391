import DeferredQuery.Proofs.Chain.Grounded
import DeferredQuery.Proofs.Statement.Reading

/-!
# No alias dangles

What a chain records is resolved by a statement: the joins one after the other, each in the scope of
the aliases before it. The joins of a reached chain are grounded, so the alias that a relation
starts from is always in scope, and what can still be missing is in the schema: an entity, or a
relation of an entity.
-/

set_option autoImplicit false

namespace DeferredQuery

/-! ## What a schema lacks -/

/-- The errors by which a schema lacks an entity, or one of its entities a relation. -/
inductive Schema.Lacks (schema : Schema) : Error → Prop
  | entity {key : String} (h : schema.entity? key = none) :
    Lacks schema (.invalidQuery (.unknownEntity key))
  | relation {key name : String} {e : Entity} (he : schema.entity? key = some e)
    (h : e.relation? name = none) : Lacks schema (.invalidQuery (.unknownRelation e.name name))

theorem Schema.lacks_of_require {schema : Schema} {key : String} {error : Error}
    (h : schema.require key = .error error) : schema.Lacks error := by
  unfold Schema.require at h
  split at h
  · cases h
  · rename_i hnone
    cases h
    exact .entity hnone

/-- The known aliases stand for entities of a schema. -/
structure Scope.Covers (schema : Schema) (known : List String) (scope : Scope) : Prop where
  bound : ∀ name ∈ known, ∃ e, scope.lookup name = some e
  ofSchema : ∀ name e, scope.lookup name = some e → ∃ key, schema.entity? key = some e

/-- The latest alias of a scope hides an earlier one of the same name. -/
theorem Scope.lookup_bind (scope : Scope) (name : String) (e : Entity) (other : String) :
    List.lookup other ((name, e) :: scope) =
      if other = name then some e else scope.lookup other := by
  by_cases hother : other = name
  · simp [hother]
  · rw [List.lookup_cons, beq_eq_false_iff_ne.mpr hother, if_neg hother]

theorem Scope.Covers.bind {schema : Schema} {known : List String} {scope : Scope}
    (h : scope.Covers schema known) {key : String} {e : Entity} (he : schema.entity? key = some e)
    (name : String) : Scope.Covers schema (known ++ [name]) ((name, e) :: scope) := by
  constructor
  · intro other hother
    rw [Scope.lookup_bind]
    split
    · exact ⟨e, rfl⟩
    · rename_i hne
      exact h.bound other (by simpa [hne] using hother)
  · intro other found hfound
    rw [Scope.lookup_bind] at hfound
    split at hfound
    · cases hfound
      exact ⟨key, he⟩
    · exact h.ofSchema other found hfound

namespace Join

variable {schema : Schema} {known : List String} {scope : Scope}

theorem reference?_of_relation {j : Join} {parent relation : String} (hname : '.' ∉ relation.toList)
    (h : j.relation = Chain.stepRelation parent relation) :
    j.reference? = some (parent, relation) := by
  simp [reference?, h, Chain.splitLast?_stepRelation hname]

theorem reference?_of_entity {j : Join} (h : '.' ∉ j.relation.toList) : j.reference? = none := by
  simp [reference?, Text.splitLast?_eq_none_iff.mpr h]

/-- A join that names a relation of a known alias or an entity leads to an entity of the schema, or
fails because the schema lacks something. -/
theorem resolve_of_names {j : Join} (hnames : Names known j.relation)
    (hscope : scope.Covers schema known) :
    (∃ error, j.resolve schema scope = .error error ∧ schema.Lacks error) ∨
      ∃ key target on, j.resolve schema scope = .ok (target, on) ∧
        schema.entity? key = some target := by
  generalize hrelation : j.relation = text at hnames
  cases hnames with
  | @relation parent relation hparent hname =>
    obtain ⟨e, he⟩ := hscope.bound parent hparent
    obtain ⟨key, hkey⟩ := hscope.ofSchema parent e he
    simp only [resolve, reference?_of_relation hname hrelation, he]
    cases hfound : e.relation? relation with
    | none => exact .inl ⟨_, rfl, .relation hkey hfound⟩
    | some found =>
      dsimp only
      cases htarget : schema.require found.target with
      | error error => exact .inl ⟨error, rfl, Schema.lacks_of_require htarget⟩
      | ok target =>
        have hentity := Schema.entity?_of_require htarget
        cases hcondition : j.condition with
        | none => exact .inr ⟨found.target, target, _, rfl, hentity⟩
        | some condition => exact .inr ⟨found.target, target, _, rfl, hentity⟩
  | entity hname =>
    subst hrelation
    simp only [resolve, reference?_of_entity hname]
    cases htarget : schema.require j.relation with
    | error error => exact .inl ⟨error, rfl, Schema.lacks_of_require htarget⟩
    | ok target => exact .inr ⟨j.relation, target, _, rfl, Schema.entity?_of_require htarget⟩

/-- **Grounded joins fail only where the schema lacks something.** -/
theorem lacks_of_clauses {joins : List Join} {error : Error}
    (hscope : scope.Covers schema known)
    (hjoins : Grounded known (joins.map fun j => (j.relation, j.name)))
    (h : clauses schema scope joins = .error error) : schema.Lacks error := by
  induction joins generalizing known scope with
  | nil => cases h
  | cons j rest ih =>
    rcases resolve_of_names hjoins.1 hscope with ⟨missing, hfails, hlacks⟩ |
      ⟨key, target, on, hresolve, htarget⟩
    · simp only [clauses, hfails] at h
      cases h
      exact hlacks
    · simp only [clauses, hresolve] at h
      split at h
      · rename_i hrest
        cases h
        exact ih (hscope.bind htarget j.name) hjoins.2 hrest
      · cases h

end Join

/-! ## What a statement lacks -/

/-- The joins that parts ask for have the links of the parts. -/
theorem Part.links_of_asks {parts : List Part} {calls : List Call}
    (h : List.Forall₂ Asks parts calls) :
    links parts = (calls.filterMap Call.join?).map fun j => (j.relation, j.name) := by
  induction h with
  | nil => rfl
  | cons hp _ ih =>
    rw [links] at ih ⊢
    cases hp <;> simp [List.filterMap_cons, link?, Call.join?, ih]

/-- Where the links of parts are grounded in the base alias, they cannot be rendered only if the
schema lacks something. -/
theorem Query.lacks_of_render {schema : Schema} {entity base : String} {baseFilter : Option String}
    {parts : List Part} {calls : List Call} (hparts : List.Forall₂ Part.Asks parts calls)
    (hgrounded : Grounded [base] (Part.links parts)) {purpose : Purpose} {error : Error}
    (h : Query.render purpose parts (Statement.fresh schema entity base baseFilter) =
      .error error) : schema.Lacks error := by
  rw [Query.render_of_asks _ _ _ _ hparts, Statement.text_eq_error_iff] at h
  rcases h with hrequire | ⟨root, hrequire, hclauses⟩
  · exact Schema.lacks_of_require hrequire
  · have hroot := Schema.entity?_of_require hrequire
    have hempty : Scope.Covers schema [] [] := ⟨nofun, nofun⟩
    rw [Part.links_of_asks hparts] at hgrounded
    exact Join.lacks_of_clauses (hempty.bind hroot base) hgrounded hclauses

namespace Query

variable {β ρ : Type} [Builder β]

/-- A query that is run and sends nothing could not be rendered. -/
theorem render_of_sent_nil {q : Query β} {pool : Pool ρ} (h : (q.run pool).sent = []) :
    ∃ error, render q.fetch.purpose q.chain.parts q.builder = .error error ∧
      (q.run pool).answer = .error error := by
  unfold Query.run at h ⊢
  cases hrender : render q.fetch.purpose q.chain.parts q.builder with
  | error error => exact ⟨error, rfl, rfl⟩
  | ok text =>
    rw [hrender] at h
    cases hfetch : q.fetch <;> simp [fetchFrom, hfetch] at h

theorem render_of_count_sent_nil {q : Query β} {pool : Pool ρ} (h : (q.count pool).sent = []) :
    ∃ error, render .count q.chain.parts q.builder = .error error ∧
      (q.count pool).answer = .error error := by
  unfold Query.count at h ⊢
  cases hrender : render .count q.chain.parts q.builder with
  | error error => exact ⟨error, rfl, rfl⟩
  | ok text =>
    rw [hrender] at h
    simp [countFrom] at h

/-- **No alias dangles.** For a query that calls have reached from a fresh statement, with names
that have no point in them: a join that starts from an alias stands behind the one that binds it;
every reference that a call writes, which is to the alias at the end of its walk, is to the base
alias or to one that a join binds; and a text that cannot be given or sent fails for what the schema
lacks, never for an alias. -/
theorem aliases_bound (schema : Schema) (entity base : String) (baseFilter : Option String)
    {steps : List (Step β)} {chain : Chain}
    (hnames : Step.AllEach (fun step => ∀ name ∈ step.joinNames, '.' ∉ name.toList) steps)
    (hrun : Step.runAll steps (Query.new (Statement.fresh schema entity base baseFilter)).chain =
      .ok chain) :
    let q : Query Statement := ⟨Statement.fresh schema entity base baseFilter, chain, .many⟩
    (∀ (index : Nat) (kind : JoinKind) (parent relation : String) (more : List Argument),
      chain.parts[index]? = some ⟨.join kind, .text (parent ++ "." ++ relation) :: more⟩ →
      '.' ∉ relation.toList → parent = base ∨
        ∃ before other, before < index ∧ chain.parts[before]? = some other ∧
          other.binds parent = true) ∧
    (∀ (step : Step β) (before after : Chain) (path : Path),
      Step.Makes steps (Query.new (Statement.fresh schema entity base baseFilter)).chain step before
        after → step.Refers path →
      ∃ w, step.walk? before = some w ∧
        step.WritesBehind (before.partsOver w.kind w.start w.relations) w.stop after ∧
        (w.stop = base ∨ ∃ p ∈ chain.parts, p.binds w.stop = true)) ∧
    (∀ error, q.text = .error error → schema.Lacks error) ∧
    ∀ pool : Pool ρ,
      ((q.count pool).sent = [] → ∃ error, (q.count pool).answer = .error error ∧
        schema.Lacks error) ∧
      ∀ fetch, ((q.withFetch fetch).run pool).sent = [] →
        ∃ error, ((q.withFetch fetch).run pool).answer = .error error ∧ schema.Lacks error := by
  intro q
  have hready := ((Chain.Reached.start base).runAll hrun).ready
  have hgrounds := (Chain.Grounds.keptBy β).runAll steps hnames hrun
  obtain ⟨links, hlinks, _, hgrounded⟩ := hgrounds.added List.mem_cons_self
  obtain rfl : Part.links chain.parts = links := hlinks
  obtain ⟨calls, hcalls⟩ := exists_calls hready.recorded
  have hlacks : ∀ purpose error, render purpose q.chain.parts q.builder = .error error →
      schema.Lacks error := fun _ _ => lacks_of_render hcalls hgrounded
  refine ⟨?_, ?_, hlacks .display, fun pool => ⟨fun hsent => ?_, fun fetch hsent => ?_⟩⟩
  · intro index kind parent relation more hpart hrelation
    obtain ⟨_, name, hlink, hhead⟩ :=
      (hready.recorded _ (List.mem_of_getElem? hpart)).exists_link? rfl
    cases hhead
    exact Part.exists_binds_of_grounded hgrounded hpart hlink hrelation
  · intro step before after path hmakes hrefers
    obtain ⟨w, hwalk⟩ := Step.exists_walk_of_refers hrefers before
    obtain ⟨hstop, hwrites⟩ := hmakes.walked hrun List.mem_cons_self hwalk
    exact ⟨w, hwalk, hwrites, hgrounds.grew.mem_aliases_of_start hstop⟩
  · obtain ⟨error, hrender, hanswer⟩ := render_of_count_sent_nil hsent
    exact ⟨error, hanswer, hlacks _ _ hrender⟩
  · obtain ⟨error, hrender, hanswer⟩ := render_of_sent_nil hsent
    exact ⟨error, hanswer, hlacks _ _ hrender⟩

/-- A join in a group that starts from an alias of the chain around it, and a schema without the
relation that it goes over. -/
theorem aliases_bound_across_group :
    let schema := (Schema.empty.withEntity ((Entity.new "User" "users").withRelation .manyToOne
      "group" "Group" "group_id")).withEntity (Entity.new "Group" "groups")
    let start := Statement.fresh schema "User" "u" none
    let condition : Path := ⟨["group", "owner"], "name"⟩
    let inside : List (Step Statement) := [.startCondition condition, .compare (.null false)]
    let steps : List (Step Statement) :=
      [.navigate .inner .base (.name "group"), .group .and inside]
    ∃ chain, Step.runAll steps (Query.new start).chain = .ok chain ∧
      chain.parts[1]? = some (.join .inner "u_group.owner" "u_group_owner") ∧
      (∃ before other, before < 1 ∧ chain.parts[before]? = some other ∧
        other.binds "u_group" = true) ∧
      (∃ before after : Chain, ∃ w,
        (Step.startCondition (β := Statement) condition).walk? before = some w ∧
        (Step.startCondition (β := Statement) condition).WritesBehind
          (before.partsOver w.kind w.start w.relations) w.stop after ∧
        (w.stop = "u" ∨ ∃ p ∈ chain.parts, p.binds w.stop = true)) ∧
      ∃ error, (Query.mk start chain .many).text = .error error ∧ schema.Lacks error := by
  intro schema start condition inside steps
  let chain : Chain :=
    { Chain.start "u" with
      activeAlias := "u_group"
      parts := [.join .inner "u.group" "u_group", .join .inner "u_group.owner" "u_group_owner",
        .condition .and "(u_group_owner.name IS NULL)"]
      history := ["u_group", "u_group_owner"] }
  have hrun : Step.runAll steps (Query.new start).chain = .ok chain := by decide +kernel
  have hnames : Step.AllEach (fun step => ∀ name ∈ step.joinNames, '.' ∉ name.toList) steps := by
    simp only [steps, inside, condition, Step.AllEach, Step.Each, Step.joinNames, Target.relations]
    decide
  have htext : (Query.mk start chain .many).text =
      .error (.invalidQuery (.unknownRelation "Group" "owner")) := by decide
  obtain ⟨hjoins, hreferences, hfails, _⟩ :=
    aliases_bound (ρ := Nat) schema "User" "u" none hnames hrun
  have hmakes : Step.Makes steps (Query.new start).chain (.startCondition condition) _ _ :=
    .later rfl (.inside (.here rfl))
  have hreference := hreferences _ _ _ condition hmakes (.opens .start)
  refine ⟨chain, hrun, rfl, ?_, ⟨_, _, hreference⟩, _, htext, hfails _ htext⟩
  exact (hjoins 1 .inner "u_group" "owner" [.text "u_group_owner"] rfl (by decide)).resolve_left
    (by decide)

end Query

end DeferredQuery
