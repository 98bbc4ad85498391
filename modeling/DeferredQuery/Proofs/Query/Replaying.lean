import DeferredQuery.Proofs.Chain.Failure
import DeferredQuery.Proofs.Statement.Reading

/-!
# What a chain has recorded can be replayed

A replay checks the arguments of every part and stops at the first part that has not those of its
action. On a reached chain there is no such part: the replay comes to its end on every builder,
which has then received one call for each part, and a terminal call is the text of that builder and
nothing else. So the checks are never seen from outside. An error that blames a part for its
arguments can only be what a builder says of itself, and a statement says no such thing.
-/

set_option autoImplicit false

namespace DeferredQuery

/-- Whether the error blames a part: it has not the arguments of its action, or it is no condition
where conditions are asked for. -/
def Error.blamesPart : Error → Bool
  | .invalidQuery (.badArgument _ _ _ _) | .invalidQuery (.notCondition _) => true
  | _ => false

/-! ## Terminal calls -/

namespace Query

/-- Every terminal call of a query asks for a text of the builder that has received the calls, for a
subquery behind the selection of its column; what the builder answers is not changed. -/
structure AsksBuilder {γ : Type} [Builder γ] (calls : List Call) (q : Query γ) : Prop where
  text : q.text = Builder.text .display (Builder.receiveAll calls q.builder)
  run : ∀ {ρ : Type} (pool : Pool ρ), q.run pool =
    fetchFrom q.fetch (Builder.text q.fetch.purpose (Builder.receiveAll calls q.builder)) pool
  count : ∀ {ρ : Type} (pool : Pool ρ), q.count pool =
    countFrom (Builder.text .count (Builder.receiveAll calls q.builder)) pool
  subquery : q.subqueryText =
    match q.chain.selection with
    | none => .error (.invalidQuery .noSelection)
    | some column =>
      Builder.text .display (Builder.receiveAll (.select column :: calls) q.builder)

variable {γ : Type} [Builder γ] {calls : List Call}

theorem asksBuilder_of_asks {q : Query γ} (h : List.Forall₂ Part.Asks q.chain.parts calls) :
    q.AsksBuilder calls := by
  have hrender := fun purpose => render_eq_text h purpose q.builder
  constructor
  · exact hrender .display
  · intro ρ pool
    rw [run, hrender]
  · intro ρ pool
    rw [count, hrender]
  · unfold subqueryText
    cases q.chain.selection with
    | none => rfl
    | some column => exact render_eq_text (.cons (.select column []) h) .display q.builder

end Query

/-! ## Errors of calls -/

namespace Chain

/-- A condition that cannot be started has no join to be written to. -/
theorem startCondition_eq_error {path : Path} {q : Chain} {error : Error}
    (h : q.startCondition path = .error error) : ∃ name, error = .invalidConditionalJoin name := by
  by_cases hmode : q.mode = .get
  · rw [startCondition_of_get hmode] at h
    cases h
  · rw [startCondition_of_ne hmode] at h
    split at h
    · cases h
      exact ⟨_, rfl⟩
    · cases h

end Chain

namespace Step

variable {β : Type} [Builder β]

/-- A subquery blames a part only if its builder does. -/
theorem exists_text_of_subqueryText {inner : Query β} {error : Error}
    (h : inner.subqueryText = .error error) (hinner : inner.chain.Ready)
    (hblames : error.blamesPart = true) :
    ∃ purpose, ∃ builder : β, Builder.text purpose builder = .error error := by
  obtain ⟨calls, hcalls⟩ := exists_calls hinner.recorded
  rw [(Query.asksBuilder_of_asks hcalls).subquery] at h
  split at h
  · cases h
    cases hblames
  · exact ⟨.display, _, h⟩

mutual

/-- **A call blames a part only if a builder does**: the recorded parts give it no reason to. -/
theorem exists_text_of_run : ∀ (step : Step β) {q : Chain} {error : Error}, q.Ready →
    step.run q = .error error → error.blamesPart = true →
      ∃ purpose, ∃ builder : β, Builder.text purpose builder = .error error
  | .startCondition _, _, _, _, h, hblames => by
    obtain ⟨name, rfl⟩ := Chain.startCondition_eq_error h
    cases hblames
  | .compare comparison, _, _, hq, h, hblames => by
    obtain ⟨_, rfl⟩ := (hq.compare_eq_error_iff comparison _).mp h
    cases hblames
  | .group kind steps, q, _, _, h, hblames => by
    have hscope := (run_group_eq_error_iff kind steps q _).mp h
    exact exists_text_of_runAll steps (.within q.history q.baseAlias) hscope hblames
  | .subquery negated builder steps, q, error, hq, h, hblames => by
    have hstart : (Chain.start (Builder.baseAlias builder)).Ready := .within [] _
    simp only [run] at h
    split at h
    · rename_i inner hinner
      split at h
      · obtain ⟨_, rfl⟩ := (hq.complete_eq_error_iff _ _ _).mp h
        cases hblames
      · rename_i other htext
        cases h
        have hready := (Chain.Ready.kept β).runAll steps hinner hstart
        exact exists_text_of_subqueryText htext hready hblames
    · rename_i other hsteps
      cases h
      exact exists_text_of_runAll steps hstart hsteps hblames
  -- The other calls do not fail.
  | .continueCondition _ _, _, _, _, h, _ | .select _, _, _, _, h, _
  | .orderBy _ _ _ _, _, _, _, h, _ | .skip _, _, _, _, h, _ | .take _, _, _, _, h, _
  | .reset, _, _, _, h, _ | .useBase, _, _, _, h, _ | .navigate _ _ _, _, _, _, h, _
  | .joinEntity _, _, _, _, h, _ => by cases h

theorem exists_text_of_runAll : ∀ (steps : List (Step β)) {q : Chain} {error : Error}, q.Ready →
    runAll steps q = .error error → error.blamesPart = true →
      ∃ purpose, ∃ builder : β, Builder.text purpose builder = .error error
  | [], _, _, _, h, _ => by cases h
  | step :: rest, q, error, hq, h, hblames => by
    simp only [runAll] at h
    cases hstep : step.run q with
    | ok next =>
      rw [hstep] at h
      exact exists_text_of_runAll rest ((Chain.Ready.kept β).run step hstep hq) h hblames
    | error other =>
      rw [hstep] at h
      cases h
      exact exists_text_of_run step hq hstep hblames

end

end Step

/-! ## Statements -/

namespace Statement

theorem blamesPart_of_require {schema : Schema} {key : String} {error : Error}
    (h : schema.require key = .error error) : error.blamesPart = false := by
  unfold Schema.require at h
  split at h
  · cases h
  · cases h
    rfl

theorem blamesPart_of_resolve {schema : Schema} {scope : Scope} {j : Join} {error : Error}
    (h : j.resolve schema scope = .error error) : error.blamesPart = false := by
  unfold Join.resolve at h
  split at h
  · split at h
    · cases h
      rfl
    · split at h
      · cases h
        rfl
      · split at h
        · rename_i hrequire
          cases h
          exact blamesPart_of_require hrequire
        · split at h <;> cases h
  · split at h
    · rename_i hrequire
      cases h
      exact blamesPart_of_require hrequire
    · cases h

theorem blamesPart_of_clauses {schema : Schema} {scope : Scope} {joins : List Join} {error : Error}
    (h : Join.clauses schema scope joins = .error error) : error.blamesPart = false := by
  induction joins generalizing scope with
  | nil => cases h
  | cons j rest ih =>
    simp only [Join.clauses] at h
    split at h
    · rename_i hresolve
      cases h
      exact blamesPart_of_resolve hresolve
    · split at h
      · rename_i hrest
        cases h
        exact ih hrest
      · cases h

/-- **A statement blames no part.** -/
theorem blamesPart_of_text {s : Statement} {purpose : Purpose} {error : Error}
    (h : s.text purpose = .error error) : error.blamesPart = false := by
  rcases text_eq_error_iff.mp h with hrequire | ⟨_, _, hclauses⟩
  · exact blamesPart_of_require hrequire
  · exact blamesPart_of_clauses hclauses

/-- Where only a statement could blame a part, none is blamed. -/
theorem blamesPart_of_exists_text {error : Error} (h : error.blamesPart = true →
    ∃ purpose, ∃ s : Statement, Builder.text purpose s = .error error) :
    error.blamesPart = false := by
  by_contra hblames
  obtain ⟨purpose, s, htext⟩ := h (by simpa using hblames)
  exact hblames (blamesPart_of_text htext)

end Statement

/-! ## Reached chains -/

/-- **What a chain has recorded can always be replayed.** Every part of a reached chain has a shape
of its action, and none is a selection. So there is one call for each part, in the same order, and
every builder receives these calls and no other: the replay comes to its end, and the terminal calls
are texts of the builder that is reached. The condition parts are conditions, and whatever takes
conditions takes them to the end. An error of a call that blames a part for its shape is one that a
builder itself answers to a request for its text. Over statements no call has such an error, and no
terminal call, for rows, for their number or as a subquery. -/
theorem Chain.Reached.recorded_parts_replay {β : Type} [Builder β] {known : List String} {q : Chain}
    (h : Reached β known q) :
    (∀ p ∈ q.parts, p.Recorded ∧ p.action ≠ .select) ∧
    (∃ calls, List.Forall₂ Part.Asks q.parts calls ∧
      ∀ {γ : Type} [Builder γ] (builder : γ),
        replay q.parts builder = ⟨Builder.receiveAll calls builder, none⟩ ∧
        ∀ fetch, (Query.mk builder q fetch).AsksBuilder calls) ∧
    (∃ conditions : List (ConditionKind × String),
      q.conditionParts = conditions.map Part.ofCondition ∧
      ∀ {σ : Type} [ConditionSink σ] (sink : σ), replayConditions q.conditionParts sink =
        ⟨conditions.foldl (fun sink c => ConditionSink.addCondition c.1 c.2 sink) sink, none⟩) ∧
    (∀ (step : Step β) (error : Error), step.run q = .error error → error.blamesPart = true →
      ∃ purpose, ∃ builder : β, Builder.text purpose builder = .error error) ∧
    (∀ (step : Step Statement) (error : Error), step.run q = .error error →
      error.blamesPart = false) ∧
    ∀ (s : Statement) (error : Error),
      ((∃ purpose, Query.render purpose q.parts s = .error error) ∨
        ∃ fetch, (Query.mk s q fetch).subqueryText = .error error) → error.blamesPart = false := by
  have hready := h.ready
  obtain ⟨calls, hcalls⟩ := exists_calls hready.recorded
  obtain ⟨conditions, hconditions⟩ := Chain.exists_conditionParts hready.recorded
  refine ⟨?_, ⟨calls, hcalls, ?_⟩, ⟨conditions, hconditions, ?_⟩, ?_, ?_, ?_⟩
  · intro p hp
    exact ⟨hready.recorded p hp, (hready.recorded p hp).action_ne_select⟩
  · intro γ _ builder
    exact ⟨replay_of_asks hcalls builder, fun fetch => Query.asksBuilder_of_asks hcalls⟩
  · intro σ _ sink
    rw [hconditions]
    exact replayConditions_ofCondition conditions sink
  · intro step error hrun hblames
    exact step.exists_text_of_run hready hrun hblames
  · intro step error hrun
    exact Statement.blamesPart_of_exists_text (step.exists_text_of_run hready hrun)
  · rintro s error (⟨purpose, hrender⟩ | ⟨fetch, hsubquery⟩)
    · rw [Query.render_eq_text hcalls] at hrender
      exact Statement.blamesPart_of_text hrender
    · exact Statement.blamesPart_of_exists_text
        (Step.exists_text_of_subqueryText hsubquery hready)

/-- A condition of a join that is opened, continued and completed, a group that joins a relation,
and an ordering that says where the nulls go: a transcript has one line for each of the parts. -/
theorem Chain.replay_of_conditioned_join :
    let inside : List (Step Transcript) := [.startCondition ⟨["c"], "z"⟩, .compare (.null true)]
    let steps : List (Step Transcript) :=
      [.joinEntity "A", .startCondition ⟨[], "x"⟩, .compare (.equal (.int32 1)),
        .continueCondition .or ⟨[], "y"⟩, .compare (.null false), .group .and inside,
        .orderBy .start .descending (some .last) ⟨[], "n"⟩, .take 5]
    ∃ q calls, Step.runAll steps (Chain.start "e") = .ok q ∧
      (∀ p ∈ q.parts, p.Recorded ∧ p.action ≠ .select) ∧ calls.length = q.parts.length ∧
      replay q.parts (Transcript.start "e") =
        ⟨Builder.receiveAll calls (Transcript.start "e"), none⟩ ∧
      (Query.mk (Transcript.start "e") q .many).text =
        .ok ("inner_join(A, A, true AND A.x = 1 OR A.y IS NULL) | inner_join(e.c, e_c) | " ++
          "and_where((e_c.z IS NOT NULL)) | order_by(A.n DESC NULLS LAST) | take(5)") ∧
      (replayConditions q.conditionParts Group.empty).builder =
        ⟨[(.and, "(e_c.z IS NOT NULL)")]⟩ := by
  intro inside steps
  obtain ⟨q, hrun⟩ : ∃ q, Step.runAll steps (Chain.start "e") = .ok q := ⟨_, rfl⟩
  obtain ⟨hrecorded, ⟨calls, hcalls, hreplay⟩, _⟩ :=
    Chain.Reached.recorded_parts_replay ((Reached.start "e").runAll hrun)
  refine ⟨q, calls, hrun, hrecorded, hcalls.length_eq.symm, (hreplay _).1, ?_⟩
  cases hrun
  decide +kernel

end DeferredQuery
