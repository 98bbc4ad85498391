import DeferredQuery.Builder.Transcript
import DeferredQuery.Proofs.Chain.History
import DeferredQuery.Proofs.Chain.Recorded

/-!
# When calls fail

On a reached chain a call fails only where the caller has made a mistake that the chain can name: a
comparison that no property waits for, a subquery that gives no column or cannot be rendered, a
group whose own calls fail, and a condition on a join that is not there. Everything else that the
calls check for cannot happen, since the part that a comparison looks for has been recorded, and in
a query of its own every known alias is bound by one of its joins.
-/

set_option autoImplicit false

namespace DeferredQuery

/-! ## Comparisons -/

namespace Chain

/-- Where a comparison is waited for, a part that ends in a text waits. -/
theorem Ready.exists_pending {q : Chain} (hq : q.Ready) (hmode : q.mode = .compare) :
    ∃ index, ∃ (front : Part) (text : String), q.pending? = some (index, front.pushText text) := by
  have hfound : ∃ found, q.pending? = some found := by
    unfold pending?
    cases hclause : q.clause with
    | filter =>
      obtain ⟨p, hp, hcondition⟩ := hq.waiting hmode hclause
      exact exists_findLast? hp hcondition
    | on =>
      obtain ⟨p, hp, hcarries⟩ := hq.carrying hclause
      exact exists_findLast? hp hcarries
  obtain ⟨⟨index, part⟩, hpending⟩ := hfound
  obtain ⟨hindex, hwaits⟩ := pending?_some hpending
  obtain ⟨front, text, rfl⟩ :=
    (hq.recorded part (List.mem_of_getElem? hindex)).exists_pushText hwaits
  exact ⟨index, front, text, hpending⟩

/-- A completion fails exactly where nothing is waited for. -/
theorem Ready.complete_eq_error_iff {q : Chain} (hq : q.Ready) (operator : Operator)
    (comparand : Comparand) (error : Error) :
    q.complete operator comparand = .error error ↔
      q.mode ≠ .compare ∧ error = .invalidConditional .nothingAwaiting := by
  by_cases hmode : q.mode = .compare
  · obtain ⟨index, front, text, hpending⟩ := hq.exists_pending hmode
    rw [complete_of_pending hmode hpending]
    simp [hmode]
  · rw [complete_of_ne hmode]
    simp [hmode, eq_comm]

theorem Ready.compare_eq_error_iff {q : Chain} (hq : q.Ready) (comparison : Comparison)
    (error : Error) :
    q.compare comparison = .error error ↔
      q.mode ≠ .compare ∧ error = .invalidConditional .nothingAwaiting := by
  rw [compare_eq]
  exact hq.complete_eq_error_iff _ _ error

end Chain

/-! ## Subqueries -/

/-- A query has no text as a subquery if it has selected no column, or if it cannot be rendered. -/
theorem Query.subqueryText_fails_iff {β : Type} [Builder β] (q : Query β) :
    (∃ error, q.subqueryText = .error error) ↔
      q.chain.selection = none ∨ ∃ column error, q.chain.selection = some column ∧
        render .display (.select column :: q.chain.parts) q.builder = .error error := by
  unfold subqueryText
  cases hselection : q.chain.selection with
  | none => simp
  | some column => simp

namespace Step

variable {β : Type} [Builder β]

theorem run_subquery_fails_iff {q inner : Chain} (hq : q.Ready) (negated : Bool) (builder : β)
    {steps : List (Step β)}
    (hinner : runAll steps (Chain.start (Builder.baseAlias builder)) = .ok inner) :
    (∃ error, (subquery negated builder steps).run q = .error error) ↔
      inner.selection = none ∨
      (∃ column error, inner.selection = some column ∧
        Query.render .display (.select column :: inner.parts) builder = .error error) ∨
      q.mode ≠ .compare := by
  have htext := Query.subqueryText_fails_iff (Query.mk builder inner .many)
  rw [← or_assoc]
  dsimp only at htext
  rw [← htext]
  simp only [run, hinner]
  cases hsub : (Query.mk builder inner .many).subqueryText with
  | error error => simp
  | ok text =>
    dsimp only [Chain.compareSubquery]
    simp only [hq.complete_eq_error_iff]
    simp

/-! ## Groups -/

/-- A group fails exactly as its own calls do: what they have recorded can always be merged. -/
theorem run_group_eq_error_iff (kind : ConditionKind) (steps : List (Step β)) (q : Chain)
    (error : Error) :
    (group kind steps).run q = .error error ↔ runAll steps q.scope = .error error := by
  simp only [run]
  cases hscope : runAll steps q.scope with
  | error other => simp
  | ok scope =>
    have hready : scope.Ready :=
      (Chain.Ready.kept β).runAll steps hscope (.within q.history q.baseAlias)
    obtain ⟨group, hgroup⟩ := Chain.exists_groupPart? kind hready.recorded
    simp [Chain.merge, hgroup]

end Step

/-! ## Conditions on joins -/

namespace Chain

/-- A walk over a relation ends at an alias that a join binds, if the history is what joins bind. -/
theorem exists_binds_walkEnd (kind : JoinKind) (start relation : String) (rest : List String)
    {q : Chain} (hhistory : q.history = q.joinedAliases) :
    ∃ p ∈ q.partsOver kind start (relation :: rest),
      p.binds (walkEnd start (relation :: rest)) = true := by
  rw [← Part.mem_joinedAliases_iff, joinedAliases_partsOver]
  have hmem := walkEnd_mem q.history start relation rest
  rw [hhistory] at hmem ⊢
  exact hmem

/-- In a query of its own a condition cannot be started exactly where the active alias is the one to
write to, after a join, and no join binds it. -/
theorem startCondition_eq_error_iff {q : Chain} (hhistory : q.history = q.joinedAliases)
    (path : Path) (error : Error) :
    q.startCondition path = .error error ↔
      (q.mode ≠ .get ∧ path.relations = [] ∧ ∀ p ∈ q.parts, p.binds q.activeAlias = false) ∧
        error = .invalidConditionalJoin q.activeAlias := by
  by_cases hmode : q.mode = .get
  · rw [startCondition_of_get hmode]
    simp [hmode]
  · rw [startCondition_of_ne hmode]
    unfold startedJoin?
    cases hrelations : path.relations with
    | nil =>
      rw [partsOver_nil, walkEnd_nil, ← findLast?_eq_none_iff]
      cases findLast? (Part.binds q.activeAlias) q.parts with
      | none => simp [hmode, eq_comm]
      | some found => simp
    | cons relation rest =>
      -- A relation has been walked over, so the join that is looked for is there.
      obtain ⟨p, hp, hbinds⟩ := exists_binds_walkEnd .inner q.activeAlias relation rest hhistory
      obtain ⟨found, hfound⟩ := exists_findLast? hp hbinds
      rw [hfound]
      simp

end Chain

/-- **When a call on a reached chain fails.** A comparison fails exactly if no property waits for
one; with the column of a subquery also if that selects no column or cannot be rendered. A group
fails exactly as its own calls do. And in a query of its own, a condition cannot be started exactly
if a join has been left for an alias that no join binds, which is the base alias. -/
theorem Chain.Reached.fails_iff {β : Type} [Builder β] {known : List String} {q : Chain}
    (h : Reached β known q) :
    (∀ (comparison : Comparison) (error : Error),
      (Step.compare (β := β) comparison).run q = .error error ↔
        q.mode ≠ .compare ∧ error = .invalidConditional .nothingAwaiting) ∧
    (∀ (negated : Bool) (builder : β) (steps : List (Step β)) (inner : Chain),
      Step.runAll steps (Chain.start (Builder.baseAlias builder)) = .ok inner →
      ((∃ error, (Step.subquery negated builder steps).run q = .error error) ↔
        inner.selection = none ∨
        (∃ column error, inner.selection = some column ∧
          Query.render .display (.select column :: inner.parts) builder = .error error) ∨
        q.mode ≠ .compare)) ∧
    (∀ (kind : ConditionKind) (steps : List (Step β)) (error : Error),
      (Step.group kind steps).run q = .error error ↔ Step.runAll steps q.scope = .error error) ∧
    (known = [] → ∀ path : Path,
      (∀ error, (Step.startCondition (β := β) path).run q = .error error ↔
        (q.mode ≠ .get ∧ path.relations = [] ∧ ∀ p ∈ q.parts, p.binds q.activeAlias = false) ∧
          error = .invalidConditionalJoin q.activeAlias) ∧
      ((∀ p ∈ q.parts, p.binds q.activeAlias = false) → q.activeAlias = q.baseAlias)) := by
  have hready := h.ready
  refine ⟨fun comparison error => hready.compare_eq_error_iff comparison error,
    fun negated builder _ _ hinner => Step.run_subquery_fails_iff hready negated builder hinner,
    fun kind steps error => Step.run_group_eq_error_iff kind steps q error, ?_⟩
  rintro rfl path
  obtain ⟨base, hgrew⟩ := h.grew
  have hhistory : q.history = q.joinedAliases := hgrew.history_of_within
  refine ⟨fun error => startCondition_eq_error_iff hhistory path error, fun hunbound => ?_⟩
  rcases hgrew.active_of_within with hbase | hactive
  · exact hbase
  · exfalso
    rw [hhistory, joinedAliases, Part.mem_joinedAliases_iff] at hactive
    obtain ⟨p, hp, hbinds⟩ := hactive
    rw [hunbound p hp] at hbinds
    cases hbinds

/-- After a join has been left for the base entity: a condition has no join to go to, no property
waits for a comparison, and a group fails as its first call does. -/
theorem Chain.failures_after_left_join :
    let q := ((Chain.start "e").joinEntity "A").useBase
    (Step.startCondition (β := Transcript) ⟨[], "x"⟩).run q =
        .error (.invalidConditionalJoin "e") ∧
      (∃ error, (Step.subquery false (Transcript.start "u") [.select ⟨["owner"], "id"⟩]).run q =
        .error error) ∧
      (Step.group (β := Transcript) .and [.compare (.null true)]).run q =
        .error (.invalidConditional .nothingAwaiting) := by
  intro q
  have hreached : Reached Transcript [] q :=
    .step .useBase (.step (.joinEntity "A") (.start "e") rfl) rfl
  obtain ⟨_, hsubquery, hgroup, hstart⟩ := Chain.Reached.fails_iff hreached
  obtain ⟨hcompare, _⟩ := Chain.Reached.fails_iff hreached.scope
  have hunbound : ∀ p ∈ q.parts, p.binds q.activeAlias = false := by decide
  refine ⟨((hstart rfl ⟨[], "x"⟩).1 _).mpr ⟨⟨by decide, rfl, hunbound⟩, rfl⟩, ?_, ?_⟩
  · exact (hsubquery _ _ _ _ rfl).mpr (.inr (.inr (by decide)))
  · have hfirst := (hcompare (.null true) _).mpr ⟨by decide, rfl⟩
    refine (hgroup _ _ _).mpr ?_
    simp only [Step.runAll, hfirst]

end DeferredQuery
