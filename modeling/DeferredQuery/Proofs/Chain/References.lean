import DeferredQuery.Proofs.Chain.History

/-!
# The references that calls write

A call that takes a path goes over its relations, and writes the property of the path behind the
joins of this walk: a condition, an ordering and a selection each write one reference,
`alias.property`, and its alias is where the walk ends. A call is told apart from the others by the
kind of its joins, by the alias that it starts from, and by what it writes at the end.

The end of a walk is the base alias or one that is known afterwards. What is known in a group is
known to the chain around it when the group is merged; so for the calls of a run, those of its groups
included, the aliases of their references are known at the end of the run.
-/

set_option autoImplicit false

namespace DeferredQuery

/-! ## Calls that walk -/

/-- What a call goes over: relations, the first of them from an alias, with joins of one kind. -/
structure Walk where
  kind : JoinKind
  start : String
  relations : List String
  deriving DecidableEq, Repr

/-- The alias at the end of the walk. -/
def Walk.stop (w : Walk) : String := Chain.walkEnd w.start w.relations

namespace Step

variable {β : Type}

/-- The walk of a call: from the base alias or the active one where the caller says which, from the
base alias for a started condition and a selection if nothing is left to be done, and else from the
active alias. Only `OR` and the caller's own word make a join that is not inner. -/
def walk? : Step β → Chain → Option Walk
  | .navigate kind .base target, q => some ⟨kind, q.baseAlias, target.relations⟩
  | .navigate kind .active target, q => some ⟨kind, q.activeAlias, target.relations⟩
  | .startCondition path, q | .select path, q =>
    some ⟨.inner, if q.mode = .get then q.baseAlias else q.activeAlias, path.relations⟩
  | .continueCondition .and path, q => some ⟨.inner, q.activeAlias, path.relations⟩
  | .continueCondition .or path, q => some ⟨.left, q.activeAlias, path.relations⟩
  | .orderBy _ _ _ path, q => some ⟨.inner, q.activeAlias, path.relations⟩
  | _, _ => none

/-- What a call that walks makes of the parts with the joins of its walk, and of the alias at the
end: it leaves them alone, or writes the property of its path, which is the reference from the
alias, as a condition, to the condition of a join, as an ordering, or as the selection. -/
inductive WritesBehind (walked : List Part) (stop : String) (r : Chain) : Step β → Prop
  | navigate {kind : JoinKind} {anchor : Chain.Anchor} {target : Target}
    (hparts : r.parts = walked) : WritesBehind walked stop r (.navigate kind anchor target)
  | start {path : Path}
    (hparts : r.parts = walked ++ [.condition .start (stop ++ "." ++ path.leaf)]) :
    WritesBehind walked stop r (.startCondition path)
  | startOn {path : Path} {index : Nat} {join : Part} (hindex : walked[index]? = some join)
    (hbinds : join.binds stop = true)
    (hparts : r.parts = walked.set index (join.writeReference .and (stop ++ "." ++ path.leaf))) :
    WritesBehind walked stop r (.startCondition path)
  | next {combinator : Combinator} {path : Path}
    (hparts : r.parts =
      walked ++ [.condition (Chain.conditionKindOf combinator) (stop ++ "." ++ path.leaf)]) :
    WritesBehind walked stop r (.continueCondition combinator path)
  | nextOn {combinator : Combinator} {path : Path} {index : Nat} {join : Part}
    (hindex : walked[index]? = some join) (hcarries : join.hasJoinCondition = true)
    (hparts : r.parts =
      walked.set index (join.writeReference combinator (stop ++ "." ++ path.leaf))) :
    WritesBehind walked stop r (.continueCondition combinator path)
  | order {kind : OrderKind} {direction : SortDirection} {nulls : Option NullsOrder} {path : Path}
    (hparts : r.parts = walked ++ [.order kind (stop ++ "." ++ path.leaf) direction nulls]) :
    WritesBehind walked stop r (.orderBy kind direction nulls path)
  | select {path : Path} (hparts : r.parts = walked)
    (hselection : r.selection = some (stop ++ "." ++ path.leaf)) :
    WritesBehind walked stop r (.select path)

/-- A walk starts from the base alias or from the active one. -/
theorem start_of_walk? {step : Step β} {w : Walk} {q : Chain} (h : step.walk? q = some w) :
    w.start = q.baseAlias ∨ w.start = q.activeAlias := by
  cases step with
  | startCondition path | select path =>
    cases h
    show (if q.mode = .get then q.baseAlias else q.activeAlias) = _ ∨ _
    split
    · exact .inl rfl
    · exact .inr rfl
  | navigate kind anchor target =>
    cases anchor with
    | base => cases h; exact .inl rfl
    | active => cases h; exact .inr rfl
  | continueCondition combinator path =>
    cases combinator <;> cases h <;> exact .inr rfl
  | orderBy kind direction nulls path =>
    cases h
    exact .inr rfl
  | _ => cases h

/-- The calls that write a reference to the property of a path. -/
inductive Refers (path : Path) : Step β → Prop
  | opens {step : Step β} (h : step.Opens path) : Refers path step
  | select : Refers path (.select path)
  | orderBy (kind : OrderKind) (direction : SortDirection) (nulls : Option NullsOrder) :
    Refers path (.orderBy kind direction nulls path)

/-- A call that writes a reference walks over the relations of its path. -/
theorem exists_walk_of_refers {path : Path} {step : Step β} (h : step.Refers path) (q : Chain) :
    ∃ w, step.walk? q = some w := by
  cases h with
  | opens hopen =>
    cases hopen with
    | start => exact ⟨_, rfl⟩
    | next combinator => cases combinator <;> exact ⟨_, rfl⟩
  | select => exact ⟨_, rfl⟩
  | orderBy kind direction nulls => exact ⟨_, rfl⟩

theorem walked_of_startCondition {path : Path} {w : Walk} {q r : Chain}
    (hwalk : (startCondition (β := β) path).walk? q = some w)
    (hrun : q.startCondition path = .ok r) :
    r.history = q.historyOver w.start w.relations ∧
      (startCondition (β := β) path).WritesBehind (q.partsOver w.kind w.start w.relations) w.stop
        r := by
  cases hwalk
  by_cases hmode : q.mode = .get
  · rw [Chain.startCondition_of_get hmode] at hrun
    cases hrun
    rw [if_pos hmode]
    exact ⟨rfl, .start rfl⟩
  · rw [Chain.startCondition_of_ne hmode] at hrun
    rw [if_neg hmode]
    split at hrun
    · cases hrun
    · rename_i index join hfound
      cases hrun
      obtain ⟨hindex, hbinds, _⟩ := Chain.findLast?_some hfound
      exact ⟨rfl, .startOn hindex hbinds rfl⟩

theorem walked_of_continueCondition {combinator : Combinator} {path : Path} {w : Walk} {q : Chain}
    (hwalk : (continueCondition (β := β) combinator path).walk? q = some w) :
    (q.continueCondition combinator path).history = q.historyOver w.start w.relations ∧
      (continueCondition (β := β) combinator path).WritesBehind
        (q.partsOver w.kind w.start w.relations) w.stop (q.continueCondition combinator path) := by
  obtain rfl : w = ⟨Chain.joinKindOf combinator, q.activeAlias, path.relations⟩ := by
    cases combinator <;> exact (Option.some.inj hwalk).symm
  rw [Chain.continueCondition_eq]
  split
  · rename_i index join hfound
    obtain ⟨hindex, hcarries, _⟩ := Chain.continuedJoin?_some hfound
    exact ⟨rfl, .nextOn hindex hcarries rfl⟩
  · exact ⟨rfl, .next rfl⟩

variable [Builder β]

/-- **A call that walks** makes the aliases of its walk known, joins what is missing, and writes its
property behind that. -/
theorem walked_of_run {step : Step β} {w : Walk} {q r : Chain} (hwalk : step.walk? q = some w)
    (hrun : step.run q = .ok r) :
    r.history = q.historyOver w.start w.relations ∧
      step.WritesBehind (q.partsOver w.kind w.start w.relations) w.stop r := by
  cases step with
  | startCondition path => exact walked_of_startCondition hwalk hrun
  | continueCondition combinator path =>
    cases hrun
    exact walked_of_continueCondition hwalk
  | navigate kind anchor target =>
    cases hrun
    rw [Chain.navigate, Chain.walkFrom_eq]
    cases anchor <;> cases hwalk <;> exact ⟨rfl, .navigate rfl⟩
  | select path =>
    cases hwalk
    cases hrun
    rw [Chain.select_eq]
    exact ⟨rfl, .select rfl rfl⟩
  | orderBy kind direction nulls path =>
    cases hwalk
    cases hrun
    rw [Chain.orderBy_eq]
    exact ⟨rfl, .order rfl⟩
  | _ => cases hwalk

end Step

namespace Chain

/-- The aliases that a reference may start from: that of the base entity, and the known ones. -/
def aliases (q : Chain) : List String := q.baseAlias :: q.history

theorem Grew.aliases_subset {q r : Chain} (h : q.Grew r) : q.aliases ⊆ r.aliases := by
  obtain ⟨names, hhistory, _⟩ := h.joined
  rw [aliases, aliases, h.base, hhistory]
  exact List.cons_subset_cons _ (List.subset_append_left _ _)

theorem Grew.active_mem {q r : Chain} (h : q.Grew r) (hq : q.activeAlias ∈ q.aliases) :
    r.activeAlias ∈ r.aliases := by
  rcases h.active with hactive | hactive | hactive
  · exact hactive ▸ h.aliases_subset hq
  · exact h.aliases_subset (hactive ▸ List.mem_cons_self)
  · exact List.mem_cons_of_mem _ hactive

/-- A walk from the base alias or the active one ends at an alias of the chain after it. -/
theorem Grew.walkEnd_mem {q r : Chain} (h : q.Grew r) (hq : q.activeAlias ∈ q.aliases)
    {start : String} {relations : List String}
    (hstart : start = q.baseAlias ∨ start = q.activeAlias)
    (hhistory : r.history = q.historyOver start relations) :
    walkEnd start relations ∈ r.aliases := by
  rcases walkEnd_known q.history start relations with hend | hend
  · rw [hend]
    rcases hstart with rfl | rfl
    · exact h.aliases_subset List.mem_cons_self
    · exact h.aliases_subset hq
  · refine List.mem_cons_of_mem _ ?_
    rw [hhistory]
    exact hend

theorem Grew.mem_aliases_of_start {base : String} {q : Chain} (h : (Chain.start base).Grew q)
    {name : String} (hname : name ∈ q.aliases) :
    name = base ∨ ∃ p ∈ q.parts, p.binds name = true := by
  have hhistory := h.history_of_within
  rcases List.mem_cons.mp hname with rfl | hknown
  · exact .inl h.base
  · rw [hhistory, List.nil_append, joinedAliases, Part.mem_joinedAliases_iff] at hknown
    exact .inr hknown

end Chain

/-! ## The calls of a run -/

namespace Step

variable {β : Type} [Builder β]

/-- A call that is made when steps are run on a chain, by them or within their groups, and the
chains before and after it. -/
inductive Makes : List (Step β) → Chain → Step β → Chain → Chain → Prop
  | here {step : Step β} {rest : List (Step β)} {q r : Chain} (hrun : step.run q = .ok r) :
    Makes (step :: rest) q step q r
  | later {first step : Step β} {rest : List (Step β)} {q next before after : Chain}
    (hrun : first.run q = .ok next) (hrest : Makes rest next step before after) :
    Makes (first :: rest) q step before after
  | inside {kind : ConditionKind} {steps rest : List (Step β)} {step : Step β}
    {q before after : Chain} (hsteps : Makes steps q.scope step before after) :
    Makes (.group kind steps :: rest) q step before after

/-- A merged scope hands its aliases over. -/
theorem aliases_of_group {kind : ConditionKind} {steps : List (Step β)} {q scope r : Chain}
    (hscope : runAll steps q.scope = .ok scope) (hmerge : q.merge kind scope = .ok r) :
    r.aliases = scope.aliases := by
  have hbase := ((Chain.Grew.kept β).runAll steps hscope).base
  obtain ⟨_, _, _, rfl⟩ := Chain.merge_of_ok hmerge
  rw [Chain.aliases, Chain.aliases, hbase]
  rfl

/-- **Every call of a run** starts where the active alias is one of the chain, and what it makes
known is known at the end. -/
theorem Makes.aliases {steps : List (Step β)} {step : Step β} {q r before after : Chain}
    (h : Makes steps q step before after) (hrun : runAll steps q = .ok r)
    (hactive : q.activeAlias ∈ q.aliases) :
    step.run before = .ok after ∧ before.activeAlias ∈ before.aliases ∧
      after.aliases ⊆ r.aliases := by
  have kept := Chain.Grew.kept β
  induction h generalizing r with
  | here hstep =>
    obtain ⟨next, hnext, hrest⟩ := runAll_cons_of_ok hrun
    obtain rfl := Except.ok.inj (hnext.symm.trans hstep)
    exact ⟨hstep, hactive, (kept.runAll _ hrest).aliases_subset⟩
  | later hfirst _ ih =>
    obtain ⟨next, hnext, hrest⟩ := runAll_cons_of_ok hrun
    obtain rfl := Except.ok.inj (hnext.symm.trans hfirst)
    exact ih hrest ((kept.run _ hfirst).active_mem hactive)
  | inside _ ih =>
    obtain ⟨next, hnext, hrest⟩ := runAll_cons_of_ok hrun
    obtain ⟨scope, hscope, hmerge⟩ := group_of_run hnext
    -- The active alias of a scope is its base alias at first.
    obtain ⟨hmade, hbefore, hafter⟩ := ih hscope List.mem_cons_self
    refine ⟨hmade, hbefore, List.Subset.trans hafter ?_⟩
    rw [← aliases_of_group hscope hmerge]
    exact (kept.runAll _ hrest).aliases_subset

/-- The walks of the calls of a run end at aliases of its end, and the references that the calls write
are to these. -/
theorem Makes.walked {steps : List (Step β)} {step : Step β} {q r before after : Chain} {w : Walk}
    (h : Makes steps q step before after) (hrun : runAll steps q = .ok r)
    (hactive : q.activeAlias ∈ q.aliases) (hwalk : step.walk? before = some w) :
    w.stop ∈ r.aliases ∧
      step.WritesBehind (before.partsOver w.kind w.start w.relations) w.stop after := by
  obtain ⟨hmade, hbefore, hafter⟩ := h.aliases hrun hactive
  obtain ⟨hhistory, hwrites⟩ := walked_of_run hwalk hmade
  have hgrew := (Chain.Grew.kept β).run step hmade
  exact ⟨hafter (hgrew.walkEnd_mem hbefore (start_of_walk? hwalk) hhistory), hwrites⟩

end Step

end DeferredQuery
