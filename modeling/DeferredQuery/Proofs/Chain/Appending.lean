import DeferredQuery.Builder.Transcript
import DeferredQuery.Proofs.Chain.History
import DeferredQuery.Proofs.Chain.Recorded

/-!
# Parts are added at the end

The order of the parts is what a query means, and many calls write to the list of them. What one
call may do to it is told by `Appends`: it adds parts behind those that are there, and of these it
writes to one at most, to a condition or to the condition of a join. So the actions of the parts
only grow at their end, over any run.
-/

set_option autoImplicit false

namespace DeferredQuery

theorem Part.Rewritten.action_eq {p other : Part} (h : p.Rewritten other) :
    other.action = p.action := by
  cases h <;> rfl

namespace Chain

/-- The parts of the second chain are those of the first, of which one may have been written to, and
others behind them. -/
inductive Appends (q r : Chain) : Prop
  | unchanged {added : List Part} (hparts : r.parts = q.parts ++ added)
  | rewritten {index : Nat} {part other : Part} {added : List Part}
    (hindex : q.parts[index]? = some part) (hother : part.Rewritten other)
    (hparts : r.parts = q.parts.set index other ++ added)

namespace Appends

variable {β : Type} [Builder β] {step : Step β} {q r : Chain}

theorem of_opens {path : Path} (hopen : step.Opens path) (hrun : step.run q = .ok r)
    (hq : q.Ready) : q.Appends r := by
  obtain ⟨joins, start, _, ⟨kind, rfl⟩ | ⟨index, join, combinator, hindex, hfound, rfl⟩⟩ :=
    Step.opened_of_run hopen hrun
  · exact .unchanged (List.append_assoc _ _ _)
  · have hwalked := recorded_of_mem_partsOver joins start path.relations hq.recorded
    obtain ⟨hwritten, _⟩ := (hwalked join (List.mem_of_getElem? hindex)).writeReference
      (Part.isJoin_of_written hfound) combinator (path.referenceFrom start)
    -- The join may have been there before, or may be one that the walk has added.
    by_cases hold : index < q.parts.length
    · rw [getElem?_partsOver_of_lt hold] at hindex
      exact .rewritten hindex hwritten (List.set_append_left _ _ hold)
    · exact .unchanged (List.set_append_right _ _ (Nat.le_of_not_lt hold))

theorem of_completes (hcompares : step.compares = true) (hrun : step.run q = .ok r)
    (hq : q.Ready) : q.Appends r := by
  obtain ⟨index, part, text, completed, hpending, rfl⟩ := Step.completed_of_run hcompares hrun
  obtain ⟨hindex, hwaits⟩ := Chain.pending?_some hpending
  have hpart := hq.recorded _ (List.mem_of_getElem? hindex)
  exact .rewritten hindex (hpart.pushText hwaits completed) (List.append_nil _).symm

theorem of_passes (hpasses : step.passes = true) (hrun : step.run q = .ok r) : q.Appends r := by
  obtain ⟨next, hnext, hpassed⟩ := Step.run_of_passes hpasses q
  obtain rfl : r = next := Except.ok.inj (hrun.symm.trans hnext)
  obtain ⟨added, hadded, _⟩ := hpassed.parts
  exact .unchanged hadded

/-- **One call** on a chain whose parts are recorded adds parts at the end, and writes to one of the
others at most. -/
theorem of_run (hq : q.Ready) (hrun : step.run q = .ok r) : q.Appends r := by
  rcases step.kinds with ⟨path, hopen⟩ | hcompares | hpasses | rfl | ⟨kind, steps, rfl⟩
  · exact of_opens hopen hrun hq
  · exact of_completes hcompares hrun hq
  · exact of_passes hpasses hrun
  · cases hrun
    exact .unchanged (List.append_nil _).symm
  · -- A group hands over the other parts of its scope, and its own condition behind them.
    obtain ⟨scope, _, hmerge⟩ := Step.group_of_run hrun
    obtain ⟨group, _, _, rfl⟩ := Chain.merge_of_ok hmerge
    exact .unchanged (List.append_assoc _ _ _)

/-- Every part that was there is at its position, the same or written to, and it is one part at
most that was written to. -/
theorem exists_index (h : q.Appends r) : ∃ k, ∀ (i : Nat) part, q.parts[i]? = some part →
    ∃ other, r.parts[i]? = some other ∧ (other = part ∨ i = k ∧ part.Rewritten other) := by
  cases h with
  | unchanged hparts =>
    refine ⟨0, fun i part hi => ⟨part, ?_, .inl rfl⟩⟩
    rw [hparts, List.getElem?_append_left (List.getElem?_eq_some_iff.mp hi).1, hi]
  | @rewritten index old other added hindex hother hparts =>
    refine ⟨index, fun i part hi => ?_⟩
    have hlt := (List.getElem?_eq_some_iff.mp hi).1
    rw [hparts, List.getElem?_append_left (by simpa using hlt)]
    by_cases hik : i = index
    · subst hik
      obtain rfl : old = part := Option.some.inj (hindex.symm.trans hi)
      exact ⟨other, List.getElem?_set_self hlt, .inr ⟨rfl, hother⟩⟩
    · exact ⟨part, (List.getElem?_set_ne (Ne.symm hik)).trans hi, .inl rfl⟩

theorem length_le (h : q.Appends r) : q.parts.length ≤ r.parts.length := by
  cases h with
  | unchanged hparts => simp [hparts]
  | rewritten hindex hother hparts => simp [hparts]

theorem actions_grow (h : q.Appends r) : q.parts.map (·.action) <+: r.parts.map (·.action) := by
  cases h with
  | unchanged hparts => simp [hparts]
  | @rewritten index part other added hindex hother hparts =>
    have hset : (q.parts.set index other).map (·.action) = q.parts.map (·.action) := by
      rw [← List.filterMap_eq_map]
      exact Part.filterMap_set hindex (congrArg some hother.action_eq)
    rw [hparts, List.map_append, hset]
    exact List.prefix_append _ _

end Appends

variable {β : Type} [Builder β] {known : List String} {q r : Chain}

/-- Over any run the actions of the parts only grow at their end. -/
theorem Reached.actions_grow (h : Reached β known q) {steps : List (Step β)}
    (hrun : Step.runAll steps q = .ok r) : q.parts.map (·.action) <+: r.parts.map (·.action) := by
  induction steps generalizing q with
  | nil =>
    cases hrun
    exact List.prefix_refl _
  | cons step rest ih =>
    obtain ⟨next, hnext, hrest⟩ := Step.runAll_cons_of_ok hrun
    exact (Appends.of_run h.ready hnext).actions_grow.trans (ih (.step step h hnext) hrest)

/-- **Parts are append-only.** A call on a reached chain leaves every part at its position with its
action. It writes to one of them at most: it changes the text of a condition, or gives a join a
condition or another one, and the relation and the alias of the join stay. Over any run the actions
of the parts only grow at their end. -/
theorem Reached.parts_append_only (h : Reached β known q) :
    (∀ (step : Step β) (r : Chain), step.run q = .ok r →
      q.parts.length ≤ r.parts.length ∧
      ∃ k, ∀ (i : Nat) part, q.parts[i]? = some part →
        ∃ other, r.parts[i]? = some other ∧ other.action = part.action ∧
          (other = part ∨ i = k ∧ part.Rewritten other)) ∧
    ∀ (steps : List (Step β)) (r : Chain), Step.runAll steps q = .ok r →
      q.parts.map (·.action) <+: r.parts.map (·.action) := by
  refine ⟨fun step r hrun => ?_, fun steps r hrun => h.actions_grow hrun⟩
  have happends := Appends.of_run h.ready hrun
  obtain ⟨k, hk⟩ := happends.exists_index
  refine ⟨happends.length_le, k, fun i part hi => ?_⟩
  obtain ⟨other, hother, hsame⟩ := hk i part hi
  refine ⟨other, hother, ?_, hsame⟩
  rcases hsame with rfl | ⟨_, hrewritten⟩
  · rfl
  · exact hrewritten.action_eq

/-- A condition that is started on a join with a bound behind it: the join is written to, and the
bound stays behind it. -/
theorem append_only_on_join :
    let q := ((start "e").joinEntity "B").take 3
    ∃ r, (Step.startCondition (β := Transcript) ⟨[], "x"⟩).run q = .ok r ∧
      r.parts[0]? = some (.joinOn .inner "B" "B" "true AND B.x") ∧
      (∃ k, ∀ (i : Nat) part, q.parts[i]? = some part →
        ∃ other, r.parts[i]? = some other ∧ other.action = part.action ∧
          (other = part ∨ i = k ∧ part.Rewritten other)) ∧
      [Action.join .inner, .take] <+: r.parts.map (·.action) := by
  intro q
  have hreached : Reached Transcript [] q :=
    .step (.take 3) (.step (.joinEntity "B") (.start "e") rfl) rfl
  obtain ⟨hcall, hruns⟩ := Reached.parts_append_only hreached
  refine ⟨_, rfl, rfl, (hcall (.startCondition ⟨[], "x"⟩) _ rfl).2, ?_⟩
  exact hruns [.startCondition ⟨[], "x"⟩] _ rfl

end Chain

end DeferredQuery
