import DeferredQuery.Chain.Step
import DeferredQuery.Proofs.Chain.Walk
import DeferredQuery.Proofs.Part.Asked

/-!
# Calls that pass over an open condition

Between the call that opens a condition and the comparison that completes it other calls may stand:
joins, orderings, bounds, a selection, a return to the base entity. `Passed` is what all of them
keep: they add parts at the end, none of them a condition, and change neither where conditions go
nor that one is waited for. It holds of one call and, by induction, of any list of them. What one
such call does is told once, by `passed_of_run`; nothing after this module unfolds one.
-/

set_option autoImplicit false

namespace DeferredQuery

/-- The parts of one chain are those of another with no condition added, conditions still go to the
same clause, and a property that waited still waits. -/
structure Chain.Passed (q r : Chain) : Prop where
  parts : ∃ added, r.parts = q.parts ++ added ∧ ∀ p ∈ added, p.action.isCondition = false
  clause : r.clause = q.clause
  mode : q.mode = .compare → r.mode = .compare

namespace Chain.Passed

theorem refl (q : Chain) : Passed q q := ⟨⟨[], by simp⟩, rfl, id⟩

theorem trans {q r s : Chain} (hqr : Passed q r) (hrs : Passed r s) : Passed q s := by
  obtain ⟨first, hfirst, hno⟩ := hqr.parts
  obtain ⟨second, hsecond, hno'⟩ := hrs.parts
  refine ⟨⟨first ++ second, by rw [hsecond, hfirst, List.append_assoc], ?_⟩,
    hrs.clause.trans hqr.clause, hrs.mode ∘ hqr.mode⟩
  intro p hp
  rcases List.mem_append.mp hp with h | h
  · exact hno p h
  · exact hno' p h

theorem of_partsOver {kind : JoinKind} {start : String} {relations : List String} {q r : Chain}
    {more : List Part} (hparts : r.parts = q.partsOver kind start relations ++ more)
    (hmore : ∀ p ∈ more, p.action.isCondition = false) (hclause : r.clause = q.clause)
    (hmode : q.mode = .compare → r.mode = .compare) : Passed q r := by
  refine ⟨⟨(missingSteps q.history start relations).map (stepJoin kind) ++ more, ?_, ?_⟩,
    hclause, hmode⟩
  · rw [hparts, partsOver, List.append_assoc]
  · intro p hp
    rcases List.mem_append.mp hp with h | h
    · obtain ⟨s, _, rfl⟩ := List.mem_map.mp h
      rfl
    · exact hmore p h

theorem joinEntity (entity : String) (q : Chain) : Passed q (q.joinEntity entity) := by
  rw [joinEntity_eq]
  have hmode : q.mode = .compare → q.enterJoin.mode = .compare := fun h => by
    rw [enterJoin_of_compare h, h]
  split
  · exact ⟨⟨[], by simp⟩, rfl, hmode⟩
  · refine ⟨⟨_, rfl, ?_⟩, rfl, hmode⟩
    intro p hp
    rw [List.mem_singleton.mp hp]
    rfl

/-- Parts that stood before a call are at the same position after it. -/
theorem getElem? {q r : Chain} (h : Passed q r) {k : Nat} {part : Part}
    (hk : q.parts[k]? = some part) : r.parts[k]? = some part := by
  obtain ⟨added, hadded, _⟩ := h.parts
  rw [hadded, List.getElem?_append_left (List.getElem?_eq_some_iff.mp hk).1, hk]

end Chain.Passed

/-! ## One call -/

/-- A chain after a walk from the base alias or the active one, with at most an ordering or a bound
recorded behind its joins. -/
structure Chain.Passage (kind : JoinKind) (start : String) (relations : List String)
    (more : List Part) (q r : Chain) : Prop where
  anchor : start = q.baseAlias ∨ start = q.activeAlias
  recorded : ∀ p ∈ more, p.Recorded ∧ p.action.isJoin = false ∧ p.action.isCondition = false
  base : r.baseAlias = q.baseAlias
  active : r.activeAlias = q.activeAlias ∨ r.activeAlias = q.baseAlias ∨
    r.activeAlias = walkEnd start relations
  clause : r.clause = q.clause
  mode : r.mode = .compare ↔ q.mode = .compare
  parts : r.parts = q.partsOver kind start relations ++ more
  history : r.history = q.historyOver start relations

namespace Chain

/-- A bound is a part of its own, or if it is zero, none. -/
theorem passage_of_bound {count : Nat} {part : Part} (q : Chain)
    (hpart : 0 < count → part.Recorded) (hjoin : part.action.isJoin = false)
    (hcondition : part.action.isCondition = false) :
    ∃ more, Passage .inner q.baseAlias [] more q (if 0 < count then q.push part else q) := by
  by_cases hcount : 0 < count
  · rw [if_pos hcount]
    refine ⟨[part], .inl rfl, ?_, rfl, .inl rfl, rfl, .rfl, by simp [push], by simp [push]⟩
    intro p hp
    rw [List.mem_singleton.mp hp]
    exact ⟨hpart hcount, hjoin, hcondition⟩
  · rw [if_neg hcount]
    exact ⟨[], .inl rfl, by simp, rfl, .inl rfl, rfl, .rfl, by simp, by simp⟩

end Chain

namespace Step

variable {β : Type} [Builder β]

/-- The calls that pass over an open condition. -/
def passes : Step β → Bool
  | .navigate _ _ _ | .joinEntity _ | .useBase | .orderBy _ _ _ _ | .select _ | .skip _
  | .take _ => true
  | _ => false

/-- The relations and the entities that a call joins, by the names that it is given. -/
def joinNames : Step β → List String
  | .startCondition path | .continueCondition _ path | .select path | .orderBy _ _ _ path =>
    path.relations
  | .navigate _ _ target => target.relations
  | .joinEntity entity => [entity]
  | _ => []

/-- **The two ends of a passing call**: a join of an entity by its name, or the joins of a walk,
with at most an ordering or a bound behind them. -/
theorem passed_of_run {step : Step β} {q r : Chain} (hpasses : step.passes = true)
    (hrun : step.run q = .ok r) :
    (∃ entity, step = .joinEntity entity ∧ r = q.joinEntity entity) ∨
      ∃ kind start more, Chain.Passage kind start step.joinNames more q r := by
  cases step <;> simp only [passes, Bool.false_eq_true] at hpasses <;>
    simp only [run, Except.ok.injEq] at hrun <;> subst hrun
  case joinEntity entity => exact .inl ⟨entity, rfl, rfl⟩
  all_goals right
  case select path =>
    rw [Chain.select_eq]
    refine ⟨.inner, q.columnStart, [], ?_, nofun, rfl, .inl rfl, rfl, .rfl,
      (List.append_nil _).symm, rfl⟩
    unfold Chain.columnStart
    split
    · exact .inl rfl
    · exact .inr rfl
  case orderBy kind direction nulls path =>
    rw [Chain.orderBy_eq]
    refine ⟨.inner, q.activeAlias, _, .inr rfl, ?_, rfl, .inl rfl, rfl, .rfl, rfl, rfl⟩
    intro p hp
    rw [List.mem_singleton.mp hp]
    exact ⟨.order kind _ direction nulls, rfl, rfl⟩
  case skip count => exact ⟨.inner, _, Chain.passage_of_bound q .skip rfl rfl⟩
  case take count => exact ⟨.inner, _, Chain.passage_of_bound q .take rfl rfl⟩
  case useBase =>
    refine ⟨.inner, q.baseAlias, [], .inl rfl, nofun, rfl, .inr (.inl rfl), rfl, .rfl, ?_, ?_⟩ <;>
      simp [Chain.useBase, Chain.withActive, joinNames]
  case navigate kind anchor target =>
    rw [Chain.navigate, Chain.walkFrom_eq]
    refine ⟨kind, q.anchorAlias anchor, [], ?_, nofun, rfl, ?_, rfl,
      ⟨Chain.mode_of_walkMode, Chain.walkMode_of_compare⟩, (List.append_nil _).symm, rfl⟩
    · cases anchor
      · exact .inl rfl
      · exact .inr rfl
    · dsimp only [joinNames]
      split
      · exact .inl rfl
      · exact .inr (.inr rfl)

/-- A call that passes succeeds, and keeps what has to be kept. -/
theorem run_of_passes {step : Step β} (hstep : step.passes = true) (q : Chain) :
    ∃ r, step.run q = .ok r ∧ q.Passed r := by
  have hrun : ∃ r, step.run q = .ok r := by
    cases step <;> simp only [passes, Bool.false_eq_true] at hstep <;> exact ⟨_, rfl⟩
  obtain ⟨r, hrun⟩ := hrun
  refine ⟨r, hrun, ?_⟩
  rcases passed_of_run hstep hrun with ⟨entity, rfl, rfl⟩ | ⟨kind, start, more, hpassage⟩
  · exact .joinEntity entity q
  · exact .of_partsOver hpassage.parts (fun p hp => (hpassage.recorded p hp).2.2) hpassage.clause
      hpassage.mode.mpr

/-- A call that passes does not make a property wait. -/
theorem mode_of_passes {step : Step β} {q r : Chain} (hpasses : step.passes = true)
    (hrun : step.run q = .ok r) (hmode : r.mode = .compare) : q.mode = .compare := by
  rcases passed_of_run hpasses hrun with ⟨entity, _, rfl⟩ | ⟨kind, start, more, hpassage⟩
  · rw [Chain.joinEntity_eq] at hmode
    split at hmode
    · exact Chain.mode_of_enterJoin hmode
    · exact Chain.mode_of_enterJoin hmode
  · exact hpassage.mode.mp hmode

theorem runAll_of_passes {steps : List (Step β)} (hsteps : ∀ step ∈ steps, step.passes = true)
    (q : Chain) : ∃ r, runAll steps q = .ok r ∧ q.Passed r := by
  induction steps generalizing q with
  | nil => exact ⟨q, rfl, .refl q⟩
  | cons step rest ih =>
    obtain ⟨next, hnext, hpassed⟩ := run_of_passes (hsteps step (by simp)) q
    obtain ⟨r, hr, hrest⟩ := ih (fun s hs => hsteps s (by simp [hs])) next
    refine ⟨r, ?_, hpassed.trans hrest⟩
    simp only [runAll, hnext, hr]

end Step

end DeferredQuery
