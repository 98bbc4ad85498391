import DeferredQuery.Builder.Transcript
import DeferredQuery.Proofs.Chain.Failure
import DeferredQuery.Proofs.Statement.Reading

/-!
# What a group means

The conditions of a group are replayed by themselves: when the group is merged, a group of
conditions takes them, and its text becomes one condition of the chain around it. A query with the
same calls would have all of its parts replayed onto a statement. Both come to the same conditions,
since a statement gives its conditions to a group of conditions too, and no other call touches
them. So a group says in parentheses what its calls say alone, and its other parts are handed over
as they are.
-/

set_option autoImplicit false

namespace DeferredQuery

/-! ## Two replays -/

/-- A call that is no condition leaves the conditions of a statement alone. -/
theorem Statement.conditions_receive {call : Call} (h : call.condition? = none) (s : Statement) :
    (s.receive call).conditions = s.conditions := by
  cases call with
  | condition kind text => cases h
  | order kind column direction nulls => cases kind <;> rfl
  | _ => rfl

/-- **Replaying all parts onto a statement, or only the conditions onto the conditions that it has**,
comes to the same conditions. -/
theorem replayConditions_receiveAll {parts : List Part} {calls : List Call}
    (h : List.Forall₂ Part.Asks parts calls) (s : Statement) :
    replayConditions (parts.filter (·.action.isCondition)) s.conditions =
      ⟨(Builder.receiveAll calls s).conditions, none⟩ := by
  induction h generalizing s with
  | nil => rfl
  | @cons p call parts calls hp _ ih =>
    have hrest := ih (s.receive call)
    by_cases hcondition : p.action.isCondition = true
    · cases hp with
      | condition kind text more => exact hrest
      | _ => cases hcondition
    · have hnone : call.condition? = none := by
        cases hp with
        | condition => exact absurd rfl hcondition
        | _ => rfl
      rw [Statement.conditions_receive hnone] at hrest
      rw [List.filter_cons, if_neg hcondition]
      exact hrest

/-- Parts that are conditions ask for these conditions, and the other parts for none. -/
theorem Part.conditions_of_asks {parts : List Part} {calls : List Call}
    (h : List.Forall₂ Asks parts calls) {conditions : List (ConditionKind × String)}
    (hconditions : parts.filter (·.action.isCondition) = conditions.map ofCondition) :
    calls.filterMap Call.condition? = conditions := by
  induction h generalizing conditions with
  | nil => exact (List.map_eq_nil_iff.mp hconditions.symm).symm
  | cons hp _ ih =>
    cases hp with
    | condition kind text more =>
      cases conditions with
      | nil => cases hconditions
      | cons c rest =>
        obtain ⟨hfirst, hrest⟩ := List.cons.inj hconditions
        obtain rfl : (kind, text) = c := by
          cases hfirst
          rfl
        exact congrArg _ (ih hrest)
    | _ => exact ih hconditions

/-! ## The condition of a group -/

theorem sinceLast_eq_nil_iff {α : Type} (starts : α → Bool) (l : List α) :
    sinceLast starts l = [] ↔ l = [] := by
  induction l with
  | nil => exact Iff.rfl
  | cons a rest ih =>
    rw [sinceLast]
    split
    · rename_i hany
      have hrest : rest ≠ [] := by
        rintro rfl
        cases hany
      simp [ih, hrest]
    · simp

/-- The conditions of a reading in one pair of parentheses, if there are any. -/
def Reading.group? (r : Reading) : Option String :=
  match r.conditions with
  | [] => none
  | first :: rest => some (bracketed first rest)

theorem Reading.group?_eq_none_iff {r : Reading} : r.group? = none ↔ r.conditions = [] := by
  unfold group?
  cases r.conditions with
  | nil => simp
  | cons first rest => simp

namespace Statement

variable {schema : Schema} {entity base : String} {baseFilter : Option String} {r : Reading}

/-- The group that the statement of a reading holds is that of the reading. -/
theorem conditions_ofReading {text : String} (h : r.group? = some text) :
    (ofReading schema entity base baseFilter r).conditions.text = text := by
  unfold Reading.group? at h
  split at h
  · cases h
  · rename_i first rest hconditions
    cases h
    simp [ofReading, hconditions, Group.text, Group.innerText, restText_map, Reading.bracketed,
      String.append_assoc]

theorem isEmpty_conditions_ofReading :
    (ofReading schema entity base baseFilter r).conditions.isEmpty = r.group?.isNone := by
  unfold Reading.group?
  cases hconditions : r.conditions with
  | nil => simp [ofReading, hconditions, Group.isEmpty]
  | cons first rest => simp [ofReading, hconditions, Group.isEmpty]

theorem filters_ofReading :
    (ofReading schema entity base baseFilter r).filters =
      baseFilter.toList ++ r.group?.toList := by
  rw [filters, isEmpty_conditions_ofReading]
  cases hgroup : r.group? with
  | none => rfl
  | some text =>
    rw [conditions_ofReading hgroup]
    rfl

end Statement

/-- A scope has no group exactly if it has no conditions. -/
theorem Chain.group?_eq_none_iff {scope : Chain} {calls : List Call}
    (h : List.Forall₂ Part.Asks scope.parts calls) {conditions : List (ConditionKind × String)}
    (hconditions : scope.conditionParts = conditions.map Part.ofCondition) :
    (Reading.of calls).group? = none ↔ scope.conditionParts = [] := by
  have hcalls := Part.conditions_of_asks h hconditions
  rw [Reading.group?_eq_none_iff, Reading.of, hcalls, sinceLast_eq_nil_iff, hconditions,
    List.map_eq_nil_iff]

/-- The conditions of a scope are made the group that its calls say. -/
theorem Chain.groupPart?_of_asks {scope : Chain} {calls : List Call}
    (h : List.Forall₂ Part.Asks scope.parts calls) {conditions : List (ConditionKind × String)}
    (hconditions : scope.conditionParts = conditions.map Part.ofCondition) (kind : ConditionKind) :
    scope.groupPart? kind = .ok ((Reading.of calls).group?.map (Part.condition kind)) := by
  have hnone := Chain.group?_eq_none_iff h hconditions
  cases hgroup : (Reading.of calls).group? with
  | none =>
    rw [groupPart?, if_pos (hnone.mp hgroup)]
    rfl
  | some text =>
    have hsome : scope.conditionParts ≠ [] := by
      intro hempty
      rw [hnone.mpr hempty] at hgroup
      cases hgroup
    -- A statement shows what the conditions come to, whatever it is about.
    let statement := Statement.fresh Schema.empty "" "" none
    have hreplay : (replayConditions scope.conditionParts Group.empty).result =
        .ok (Builder.receiveAll calls statement).conditions :=
      congrArg Replayed.result (replayConditions_receiveAll h statement)
    have htext : (Builder.receiveAll calls statement).conditions.text = text := by
      rw [Statement.receiveAll_fresh]
      exact Statement.conditions_ofReading hgroup
    simp only [groupPart?, if_neg hsome, hreplay, htext, Option.map_some]

namespace Step

variable {β : Type} [Builder β]

/-- **A group says in parentheses what its calls say alone.** It fails as its calls do. If they
succeed, their parts that are no conditions are recorded as they are and in their order, and behind
them, exactly if there is a condition, one condition of the kind of the group. Its text has the
conditions from the last that starts on, each but the first behind its own word; and it is the group
that a fresh statement holds, next to its base filter, when all the parts are replayed onto it. The
parts that were there, the aliases, the clause and the selection stay, what the calls have come to
know is known, and nothing is waited for. -/
theorem group_says_what_scope_says (kind : ConditionKind) (steps : List (Step β)) (q : Chain) :
    (∀ error, runAll steps q.scope = .error error →
      (group kind steps).run q = .error error) ∧
    ∀ scope, runAll steps q.scope = .ok scope →
      ∃ (conditions : List (ConditionKind × String)) (text? : Option String),
        scope.parts.filter (·.action.isCondition) = conditions.map Part.ofCondition ∧
        (group kind steps).run q = .ok
          { q with
            mode := .get
            history := scope.history
            parts := q.parts ++ scope.parts.filter (!·.action.isCondition) ++
              (text?.map (Part.condition kind)).toList } ∧
        (text?.isSome = true ↔ ∃ p ∈ scope.parts, p.action.isCondition = true) ∧
        (∀ text, text? = some text → ∃ first rest,
          sinceLast (·.1 = .start) conditions = first :: rest ∧
          text = Reading.bracketed first rest) ∧
        ∀ schema entity base baseFilter, ∃ s,
          (replay scope.parts (Statement.fresh schema entity base baseFilter)).result = .ok s ∧
          s.filters = baseFilter.toList ++ text?.toList ∧
          ∀ text, text? = some text → s.conditions.text = text := by
  refine ⟨fun error => (run_group_eq_error_iff kind steps q error).mpr, fun scope hscope => ?_⟩
  have hrecorded : ∀ p ∈ scope.parts, p.Recorded :=
    ((Chain.Ready.kept β).runAll steps hscope (.within q.history q.baseAlias)).recorded
  obtain ⟨calls, hcalls⟩ := exists_calls hrecorded
  obtain ⟨conditions, hconditions⟩ := Chain.exists_conditionParts hrecorded
  have hgroup := Chain.groupPart?_of_asks hcalls hconditions kind
  have hnone := Chain.group?_eq_none_iff hcalls hconditions
  refine ⟨conditions, (Reading.of calls).group?, hconditions, ?_, ?_, ?_, ?_⟩
  · simp only [run, hscope, Chain.merge, hgroup]
    rfl
  · rw [Option.isSome_iff_ne_none, Ne, hnone, Chain.conditionParts, List.filter_eq_nil_iff]
    simp
  · intro text htext
    unfold Reading.group? at htext
    split at htext
    · cases htext
    · rename_i first rest hreading
      cases htext
      rw [Reading.of, Part.conditions_of_asks hcalls hconditions] at hreading
      exact ⟨first, rest, hreading, rfl⟩
  · intro schema entity base baseFilter
    refine ⟨Builder.receiveAll calls (Statement.fresh schema entity base baseFilter), ?_, ?_, ?_⟩
    · rw [replay_of_asks hcalls]
      rfl
    · rw [Statement.receiveAll_fresh]
      exact Statement.filters_ofReading
    · intro text htext
      rw [Statement.receiveAll_fresh]
      exact Statement.conditions_ofReading htext

/-- In a group a condition is started over, a relation is gone over, and a group within the group
joins another one: the joins and the bound stand before one condition, and a statement with a base
filter holds the same one. -/
theorem group_of_restarted_condition :
    let inner : List (Step Transcript) :=
      [.navigate .left .base (.name "c"), .reset, .startCondition ⟨[], "y"⟩, .compare (.null false),
        .continueCondition .and ⟨[], "z"⟩, .compare (.null true)]
    let steps : List (Step Transcript) :=
      [.startCondition ⟨[], "w"⟩, .compare (.equal (.int32 1)), .startCondition ⟨["a"], "x"⟩,
        .compare (.equal (.text "It's")), .group .or inner, .take 2]
    let text := "(LOWER(e_a.x) = 'it''s' OR (e.y IS NULL AND e.z IS NOT NULL))"
    ∃ scope r s, runAll steps (Chain.start "e").scope = .ok scope ∧
      (group .and steps).run (Chain.start "e") = .ok r ∧
      r.parts = [.join .inner "e.a" "e_a", .join .left "e.c" "e_c", .take 2, .condition .and text] ∧
      (replay scope.parts (Statement.fresh Schema.empty "E" "e" (some "e.id = 7"))).result = .ok s ∧
      s.filters = ["e.id = 7", text] := by
  intro inner steps text
  obtain ⟨scope, hscope⟩ : ∃ scope, runAll steps (Chain.start "e").scope = .ok scope := ⟨_, rfl⟩
  obtain ⟨_, hgroup⟩ := group_says_what_scope_says .and steps (Chain.start "e")
  obtain ⟨_, text?, _, hrun, _, _, hfresh⟩ := hgroup scope hscope
  obtain ⟨s, hs, hfilters, _⟩ := hfresh Schema.empty "E" "e" (some "e.id = 7")
  have hholds : s.filters = ["e.id = 7", text] := by
    cases hscope
    cases hs
    decide +kernel
  -- The filters are the base filter and the text of the group, so that is this text.
  obtain rfl : text? = some text := by
    rw [hholds] at hfilters
    cases text? with
    | none => cases hfilters
    | some other => simpa using hfilters.symm
  refine ⟨scope, _, s, hscope, hrun, ?_, hs, hholds⟩
  cases hscope
  decide +kernel

end Step

end DeferredQuery
