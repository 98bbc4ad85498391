import DeferredQuery.Proofs.Chain.Needed
import DeferredQuery.Proofs.Query.Resolution

/-!
# Joins and the base alias

The base alias is not among the aliases that have been joined, so nothing keeps a join from binding
it too. Going over relations never does: every alias on the way goes on from the base alias, or from
an alias that was joined. An entity that is joined by its name brings a name from outside, which may
be the base alias, or a beginning of it that the next relation completes. `Clear` names are the
others, and all that is joined from them is clear again. What goes wrong otherwise shows in a
statement: the later join hides the base entity in the scope of the joins behind it.
-/

set_option autoImplicit false

namespace DeferredQuery

namespace Chain

/-! ## Clear names -/

/-- A name that is not the base alias, and that no walk goes on from to the base alias. -/
structure Clear (base name : String) : Prop where
  ne : name ≠ base
  beside : ¬ (name ++ "_").toList <+: base.toList

/-- A relation that starts from the base alias leads to a longer one. -/
theorem clear_stepAlias_base (base relation : String) : Clear base (stepAlias base relation) := by
  have hlonger : base.length < (stepAlias base relation).length := by
    have hglue : "_".length = 1 := rfl
    simp only [stepAlias, String.length_append, hglue]
    omega
  constructor
  · intro heq
    rw [heq] at hlonger
    exact Nat.lt_irrefl _ hlonger
  · intro hbeginning
    have hlength := hbeginning.length_le
    simp only [String.toList_append, List.length_append, String.length_toList] at hlength
    omega

theorem Clear.stepAlias {base name : String} (h : Clear base name) (relation : String) :
    Clear base (stepAlias name relation) := by
  have hbeginning : (name ++ "_").toList <+: (Chain.stepAlias name relation).toList := by
    rw [Chain.stepAlias, String.toList_append (s := name ++ "_")]
    exact List.prefix_append _ _
  constructor
  · intro heq
    rw [heq] at hbeginning
    exact h.beside hbeginning
  · intro hlonger
    rw [String.toList_append] at hlonger
    exact h.beside (hbeginning.trans ((List.prefix_append _ _).trans hlonger))

theorem clear_of_mem_walkLinks {base start : String} {relations : List String}
    (hstart : start = base ∨ Clear base start) :
    ∀ link ∈ walkLinks start relations, Clear base link.2 := by
  induction relations generalizing start with
  | nil => exact nofun
  | cons relation rest ih =>
    have hnext : Clear base (stepAlias start relation) := by
      rcases hstart with rfl | hclear
      · exact clear_stepAlias_base start relation
      · exact hclear.stepAlias relation
    intro link hlink
    rcases List.mem_cons.mp hlink with rfl | hlink
    · exact hnext
    · exact ih (.inr hnext) link hlink

/-- The aliases of the links that are not left out. -/
theorem mem_firstLinks_names {known : List String} {links : List (String × String)}
    {name : String} :
    name ∈ (firstLinks known links).map (·.2) ↔ name ∉ known ∧ ∃ link ∈ links, link.2 = name := by
  constructor
  · intro hname
    obtain ⟨link, hlink, rfl⟩ := List.mem_map.mp hname
    obtain ⟨hnew, hfirst⟩ := mem_firstLinks_iff.mp hlink
    exact ⟨hnew, link, List.mem_of_find?_eq_some hfirst, rfl⟩
  · rintro ⟨hnew, link, hlink, rfl⟩
    obtain ⟨relation, hfirst⟩ := exists_first_link hlink
    exact List.mem_map.mpr
      ⟨(relation, link.2), mem_firstLinks_iff.mpr ⟨hnew, hfirst⟩, rfl⟩

/-- All that a chain knows is clear of its base alias, and the active alias is one of them or the
base alias. -/
structure Apart (q : Chain) : Prop where
  active : q.activeAlias = q.baseAlias ∨ q.activeAlias ∈ q.history
  clear : ∀ name ∈ q.history, Clear q.baseAlias name

namespace Apart

theorem within {known : List String} {base : String} (h : ∀ name ∈ known, Clear base name) :
    (Chain.within known base).Apart := ⟨.inl rfl, h⟩

theorem active_clear {q : Chain} (h : q.Apart) :
    q.activeAlias = q.baseAlias ∨ Clear q.baseAlias q.activeAlias :=
  h.active.imp_right (h.clear _)

/-- What is joined for clear needs is clear. -/
theorem of_answers {needs : List (String × String)} {q r : Chain} (h : q.Apart) (hgrew : q.Grew r)
    (hanswers : q.Answers needs r) (hneeds : ∀ need ∈ needs, Clear q.baseAlias need.2) :
    r.Apart := by
  obtain ⟨names, hhistory, _⟩ := hgrew.joined
  constructor
  · rw [hgrew.base]
    rcases hgrew.active with hactive | hactive | hactive
    · rw [hactive, hhistory]
      exact h.active.imp_right (List.mem_append_left _)
    · exact .inl hactive
    · exact .inr hactive
  · intro name hname
    rw [hgrew.base]
    rw [hanswers.history] at hname
    rcases List.mem_append.mp hname with hname | hname
    · exact h.clear name hname
    · obtain ⟨_, need, hneed, rfl⟩ := mem_firstLinks_names.mp hname
      exact hneeds need hneed

end Apart

end Chain

namespace Step

variable {β : Type} [Builder β]

/-- The entities that a call joins by their names. -/
def entityNames : Step β → List String
  | .joinEntity entity => [entity]
  | _ => []

mutual

/-- **Calls that join clear entities need clear aliases only.** -/
theorem clear_of_mem_needs : ∀ (step : Step β) {base : String} {q : Chain}, q.baseAlias = base →
    q.Apart → (step.Each fun step => ∀ name ∈ step.entityNames, Chain.Clear base name) →
      ∀ need ∈ step.needs q, Chain.Clear base need.2
  | .startCondition _, _, q, hbase, hq, _ | .select _, _, q, hbase, hq, _ => by
    subst hbase
    refine Chain.clear_of_mem_walkLinks ?_
    unfold Chain.columnStart
    split
    · exact .inl rfl
    · exact hq.active_clear
  | .continueCondition _ _, _, _, hbase, hq, _ | .orderBy _ _ _ _, _, _, hbase, hq, _ => by
    subst hbase
    exact Chain.clear_of_mem_walkLinks hq.active_clear
  | .navigate _ anchor _, _, q, hbase, hq, _ => by
    subst hbase
    refine Chain.clear_of_mem_walkLinks ?_
    cases anchor with
    | base => exact .inl rfl
    | active => exact hq.active_clear
  | .joinEntity entity, _, _, _, _, hnames => by
    intro need hneed
    rw [List.mem_singleton.mp hneed]
    exact hnames entity List.mem_cons_self
  | .group _ steps, _, _, hbase, hq, hnames =>
    clear_of_mem_allNeeds steps hbase (.within hq.clear) hnames.2
  | .compare _, _, _, _, _, _ | .subquery _ _ _, _, _, _, _, _ | .skip _, _, _, _, _, _
  | .take _, _, _, _, _, _ | .reset, _, _, _, _, _ | .useBase, _, _, _, _, _ => nofun

theorem clear_of_mem_allNeeds : ∀ (steps : List (Step β)) {base : String} {q : Chain},
    q.baseAlias = base → q.Apart →
      AllEach (fun step => ∀ name ∈ step.entityNames, Chain.Clear base name) steps →
      ∀ need ∈ allNeeds steps q, Chain.Clear base need.2
  | [], _, _, _, _, _ => nofun
  | step :: rest, base, q, hbase, hq, hnames => by
    have hfirst := clear_of_mem_needs step hbase hq hnames.1
    intro need hneed
    rw [allNeeds] at hneed
    rcases List.mem_append.mp hneed with hneed | hneed
    · exact hfirst need hneed
    · split at hneed
      · rename_i next hnext
        have hgrew := (Chain.Grew.kept β).run step hnext
        have happart := hq.of_answers hgrew (answers_run step hnext) (hbase ▸ hfirst)
        exact clear_of_mem_allNeeds rest (hgrew.base.trans hbase) happart hnames.2 need hneed
      · cases hneed

end

end Step

/-! ## Statements -/

namespace Join

/-- The scopes in which joins are resolved, each with the alias of the join before it, and the scope
behind the last one that can be resolved. -/
def scopes (schema : Schema) : Scope → List Join → List Scope
  | scope, [] => [scope]
  | scope, j :: rest =>
    scope ::
      match j.resolve schema scope with
      | .ok (target, _) => scopes schema ((j.name, target) :: scope) rest
      | .error _ => []

/-- An alias that no join binds stands for the same entity in all scopes. -/
theorem lookup_of_mem_scopes {schema : Schema} {scope : Scope} {joins : List Join} {base : String}
    {root : Entity} (hroot : scope.lookup base = some root) (hjoins : ∀ j ∈ joins, j.name ≠ base) :
    ∀ inner ∈ scopes schema scope joins, inner.lookup base = some root := by
  induction joins generalizing scope with
  | nil =>
    intro inner hinner
    rw [List.mem_singleton.mp hinner]
    exact hroot
  | cons j rest ih =>
    rw [List.forall_mem_cons] at hjoins
    intro inner hinner
    rcases List.mem_cons.mp hinner with rfl | hinner
    · exact hroot
    · split at hinner
      · rename_i target on _
        refine ih ?_ hjoins.2 inner hinner
        rw [Scope.lookup_bind, if_neg hjoins.1.symm]
        exact hroot
      · cases hinner

end Join

namespace Step

variable {β : Type} [Builder β]

/-- The aliases that the joins of a run bind: those of its needs that were not known. -/
theorem joinedAliases_eq_of_run {steps : List (Step β)} {known : List String} {base : String}
    {q : Chain} (hrun : runAll steps (Chain.within known base) = .ok q) :
    q.joinedAliases =
      (Chain.firstLinks known (allNeeds steps (Chain.within known base))).map (·.2) := by
  have hgrew := ((Chain.Grew.kept β).runAll steps hrun).history_of_within
  have hanswers := (answers_runAll steps hrun).history
  exact List.append_cancel_left (hgrew.symm.trans hanswers)

/-- **When a join binds the base alias.** A run makes a join that binds it exactly if it is not
known where the run begins and one of the calls needs a join under it. Relations alone never need
one: that takes an entity with the name of the base alias, or with a beginning of it before an
underscore. If the joined entities and what was known before are clear of it, so is all that is
known afterwards, in the scope of a group too. And in a statement the aliases of the base entity and
of all joins are distinct exactly if no call needs the base alias; then it stands for the base
entity in every scope in which a join is resolved. -/
theorem base_alias_bound_iff_needed {steps : List (Step β)} {known : List String} {base : String}
    {q : Chain} (hrun : runAll steps (Chain.within known base) = .ok q) :
    let needs := allNeeds steps (Chain.within known base)
    ((∃ p ∈ q.parts, p.binds q.baseAlias = true) ↔ base ∉ known ∧ ∃ need ∈ needs, need.2 = base) ∧
    ((∀ name ∈ known, Chain.Clear base name) →
      AllEach (fun step => ∀ name ∈ step.entityNames, Chain.Clear base name) steps →
        (∀ need ∈ needs, need.2 ≠ base) ∧ ∀ name ∈ q.history, Chain.Clear q.baseAlias name) ∧
    (known = [] → ∀ (schema : Schema) (entity : String) (baseFilter : Option String),
      ∃ s : Statement, s.baseAlias = base ∧
        replay q.parts (Statement.fresh schema entity base baseFilter) = ⟨s, none⟩ ∧
        ((base :: s.joins.map (·.name)).Nodup ↔ ∀ need ∈ needs, need.2 ≠ base) ∧
        ((∀ need ∈ needs, need.2 ≠ base) → ∀ root,
          ∀ scope ∈ Join.scopes schema [(base, root)] s.joins, scope.lookup base = some root)) := by
  intro needs
  have hgrew := (Chain.Grew.kept β).runAll steps hrun
  have hbase : q.baseAlias = base := hgrew.base
  have hnames := joinedAliases_eq_of_run hrun
  refine ⟨?_, fun hknown hentities => ?_, ?_⟩
  · rw [hbase, ← Part.mem_joinedAliases_iff, ← Chain.mem_firstLinks_names]
    exact iff_of_eq (congrArg (base ∈ ·) hnames)
  · have happart := Chain.Apart.within hknown
    have hneeds := clear_of_mem_allNeeds steps rfl happart hentities
    refine ⟨fun need hneed => (hneeds need hneed).ne, ?_⟩
    exact (happart.of_answers hgrew (answers_runAll steps hrun) hneeds).clear
  · rintro rfl schema entity baseFilter
    have hreached := (Chain.Reached.start base).runAll hrun
    obtain ⟨calls, hcalls⟩ := exists_calls hreached.ready.recorded
    have hreplay := replay_of_asks hcalls (Statement.fresh schema entity base baseFilter)
    rw [Statement.receiveAll_fresh] at hreplay
    refine ⟨Statement.ofReading schema entity base baseFilter (.of calls), rfl, hreplay, ?_⟩
    -- The joins of the statement bind what the parts bind.
    have hjoins : (Statement.ofReading schema entity base baseFilter
        (.of calls)).joins.map (·.name) = q.joinedAliases := by
      have hlinks := congrArg (List.map (·.2)) (Part.links_of_asks hcalls)
      rw [(answers_runAll steps hrun).links, List.map_map] at hlinks
      rw [hnames]
      exact hlinks.symm
    have hfree : base ∉ q.joinedAliases ↔ ∀ need ∈ needs, need.2 ≠ base := by
      rw [hnames, Chain.mem_firstLinks_names]
      constructor
      · intro hunbound need hneed heq
        exact hunbound ⟨List.not_mem_nil, need, hneed, heq⟩
      · rintro hneeds ⟨_, need, hneed, heq⟩
        exact hneeds need hneed heq
    obtain ⟨hnodup, _⟩ := hreached.joinedAliases_fresh
    constructor
    · rw [hjoins, List.nodup_cons, hfree, and_iff_left hnodup]
    · intro hneeds root
      refine Join.lookup_of_mem_scopes (by simp) fun j hj hname => ?_
      refine hfree.mpr hneeds ?_
      rw [← hjoins, ← hname]
      exact List.mem_map_of_mem hj

/-- An entity by its name, a relation of it, and a group that goes over a relation of the base
entity: no join binds the base alias. -/
theorem base_alias_kept_by_clear_entity :
    let user := (Entity.new "User" "users").withRelation .manyToOne "group" "Group" "group_id"
    let group := (Entity.new "Group" "groups").withRelation .manyToOne "owner" "User" "owner_id"
    let schema := (Schema.empty.withEntity user).withEntity group
    let inside : List (Step Statement) :=
      [.startCondition ⟨["group"], "name"⟩, .compare (.null true)]
    let steps : List (Step Statement) :=
      [.joinEntity "Group", .navigate .left .active (.name "owner"), .group .and inside]
    ∃ (q : Chain) (s : Statement), runAll steps (Chain.start "u") = .ok q ∧
      q.history = ["Group", "Group_owner", "u_group"] ∧
      (¬ ∃ p ∈ q.parts, p.binds "u" = true) ∧
      (∀ name ∈ q.history, Chain.Clear "u" name) ∧
      replay q.parts (Statement.fresh schema "User" "u" none) = ⟨s, none⟩ ∧
      ("u" :: s.joins.map (·.name)).Nodup ∧
      ∀ scope ∈ Join.scopes schema [("u", user)] s.joins, scope.lookup "u" = some user := by
  intro user group schema inside steps
  obtain ⟨q, hrun⟩ : ∃ q, runAll steps (Chain.start "u") = .ok q := ⟨_, rfl⟩
  have hclear : Chain.Clear "u" "Group" := ⟨by decide, by decide⟩
  have hentities : AllEach (fun step => ∀ name ∈ step.entityNames, Chain.Clear "u" name) steps := by
    simp only [steps, inside, AllEach, Each, entityNames]
    simpa using hclear
  obtain ⟨hbound, hkept, hstatement⟩ := base_alias_bound_iff_needed hrun
  obtain ⟨hneeds, hhistory⟩ := hkept (List.forall_mem_nil _) hentities
  obtain ⟨s, _, hreplay, hnodup, hscopes⟩ := hstatement rfl schema "User" none
  have hnames : q.history = ["Group", "Group_owner", "u_group"] ∧ q.baseAlias = "u" := by
    cases hrun
    decide +kernel
  obtain ⟨hnames, hbase⟩ := hnames
  rw [hbase] at hbound hhistory
  refine ⟨q, s, hrun, hnames, ?_, hhistory, hreplay, hnodup.mpr hneeds, hscopes hneeds _⟩
  rintro ⟨p, hp, hbinds⟩
  obtain ⟨_, need, hneed, hbase⟩ := hbound.mp ⟨p, hp, hbinds⟩
  exact hneeds need hneed hbase

/-- The base entity is a user under the alias `Order`, and the entity `Order` is joined by its name:
its join binds the base alias, and the relation of users that is joined next is looked for among
those of orders, so the query cannot be rendered any more. -/
theorem base_alias_rebound_by_entity :
    let user := (Entity.new "User" "users").withRelation .manyToOne "group" "Group" "group_id"
    let schema := ((Schema.empty.withEntity user).withEntity
      (Entity.new "Group" "groups")).withEntity (Entity.new "Order" "orders")
    let start := Statement.fresh schema "User" "Order" none
    let relation : Step Statement := .navigate .inner .base (.name "group")
    (∃ q, runAll [relation] (Chain.start "Order") = .ok q ∧
      (Query.mk start q .many).text = .ok ("SELECT Order.* FROM users Order " ++
        "INNER JOIN groups Order_group ON Order_group.id = Order.group_id")) ∧
    ∃ (q : Chain) (s : Statement),
      runAll [.joinEntity "Order", relation] (Chain.start "Order") = .ok q ∧
      q.baseAlias = "Order" ∧ (∃ p ∈ q.parts, p.binds "Order" = true) ∧
      replay q.parts start = ⟨s, none⟩ ∧ ¬ ("Order" :: s.joins.map (·.name)).Nodup ∧
      (∃ scope ∈ Join.scopes schema [("Order", user)] s.joins,
        scope.lookup "Order" = some (Entity.new "Order" "orders")) ∧
      (Query.mk start q .many).text =
        .error (.invalidQuery (.unknownRelation "Order" "group")) := by
  intro user schema start relation
  refine ⟨⟨_, rfl, by decide⟩, _, _, rfl, rfl, by decide, rfl, by decide, ?_, by decide⟩
  exact ⟨[("Order", Entity.new "Order" "orders"), ("Order", user)], by decide, by decide⟩

end Step

end DeferredQuery
