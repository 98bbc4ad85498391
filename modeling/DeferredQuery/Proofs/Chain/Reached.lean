import DeferredQuery.Proofs.Chain.Completion
import DeferredQuery.Proofs.Chain.Passing

/-!
# The chains that calls reach

Calls are made on the chain of a new query, and inside a group on the scope of a chain that calls
have reached. What a list of calls keeps is shown once for all lists: every call opens a condition,
completes one, passes over one, resets the chain, or merges a group whose calls have kept it before.
-/

set_option autoImplicit false

namespace DeferredQuery

/-! ## Merging -/

namespace Chain

theorem groupPart?_some {kind : ConditionKind} {scope : Chain} {part : Part}
    (h : scope.groupPart? kind = .ok (some part)) : ∃ text, part = .condition kind text := by
  unfold groupPart? at h
  split at h
  · cases h
  · split at h
    · cases h
      exact ⟨_, rfl⟩
    · cases h

/-- **A merged scope** leaves its aliases, its parts that are no conditions, and at most one
condition behind them. -/
theorem merge_of_ok {kind : ConditionKind} {q scope r : Chain} (h : q.merge kind scope = .ok r) :
    ∃ group : Option Part, scope.groupPart? kind = .ok group ∧
      (∀ part ∈ group, ∃ text, part = .condition kind text) ∧ r =
      { q with
        history := scope.history
        parts := q.parts ++ scope.otherParts ++ group.toList
        mode := .get } := by
  unfold merge at h
  split at h
  · cases h
  · rename_i group hgroup
    cases h
    refine ⟨group, hgroup, ?_, rfl⟩
    rintro part hpart
    cases hpart
    exact groupPart?_some hgroup

end Chain

/-! ## What calls keep -/

namespace Step

variable {β : Type}

mutual

/-- A property holds of a call, and of the calls of its groups. -/
def Each (P : Step β → Prop) : Step β → Prop
  | .group kind steps => P (.group kind steps) ∧ AllEach P steps
  | step => P step

/-- A property holds of the calls of a list, and of those of their groups. -/
def AllEach (P : Step β → Prop) : List (Step β) → Prop
  | [] => True
  | step :: rest => step.Each P ∧ AllEach P rest

end

mutual

theorem each_true : ∀ step : Step β, step.Each fun _ => True
  | .group _ steps => ⟨trivial, allEach_true steps⟩
  | .startCondition _ | .continueCondition _ _ | .compare _ | .subquery _ _ _ | .select _
  | .orderBy _ _ _ _ | .skip _ | .take _ | .useBase | .reset | .navigate _ _ _
  | .joinEntity _ => trivial

theorem allEach_true : ∀ steps : List (Step β), AllEach (fun _ => True) steps
  | [] => trivial
  | step :: rest => ⟨each_true step, allEach_true rest⟩

end

/-- What a call does to a chain: it opens a condition, completes one or passes over one, resets the
chain, or merges a group. -/
theorem kinds (step : Step β) :
    (∃ path, step.Opens path) ∨ step.compares = true ∨ step.passes = true ∨ step = .reset ∨
      ∃ kind steps, step = .group kind steps := by
  cases step with
  | startCondition path => exact .inl ⟨path, .start⟩
  | continueCondition combinator path => exact .inl ⟨path, .next combinator⟩
  | compare | subquery => exact .inr (.inl rfl)
  | select | orderBy | skip | take | useBase | navigate | joinEntity =>
    exact .inr (.inr (.inl rfl))
  | reset => exact .inr (.inr (.inr (.inl rfl)))
  | group kind steps => exact .inr (.inr (.inr (.inr ⟨kind, steps, rfl⟩)))

variable [Builder β]

theorem runAll_cons_of_ok {step : Step β} {rest : List (Step β)} {q r : Chain}
    (h : runAll (step :: rest) q = .ok r) :
    ∃ next, step.run q = .ok next ∧ runAll rest next = .ok r := by
  simp only [runAll] at h
  split at h
  · rename_i next hnext
    exact ⟨next, hnext, h⟩
  · cases h

theorem group_of_run {kind : ConditionKind} {steps : List (Step β)} {q r : Chain}
    (h : (group kind steps).run q = .ok r) :
    ∃ scope, runAll steps q.scope = .ok scope ∧ q.merge kind scope = .ok r := by
  simp only [run] at h
  split at h
  · rename_i scope hscope
    exact ⟨scope, hscope, h⟩
  · cases h

end Step

/-- A relation that holds between a chain and what any list of calls with a property makes of it,
told by kinds of calls: those that open a condition, complete it or pass over it, the reset, and the
merging of a group over whose own calls it holds. -/
structure Chain.KeptBy (β : Type) [Builder β] (P : Step β → Prop) (R : Chain → Chain → Prop) :
    Prop where
  refl : ∀ q, R q q
  trans : ∀ {q r s}, R q r → R r s → R q s
  opens : ∀ {path : Path} {step : Step β} {q r}, step.Opens path → P step → step.run q = .ok r →
    R q r
  completes : ∀ {step : Step β} {q r}, step.compares = true → P step → step.run q = .ok r → R q r
  passes : ∀ {step : Step β} {q r}, step.passes = true → P step → step.run q = .ok r → R q r
  reset : ∀ q, R q q.reset
  merge : ∀ {kind q scope r}, R q.scope scope → q.merge kind scope = .ok r → R q r

namespace Chain.KeptBy

variable {β : Type} [Builder β] {P : Step β → Prop} {R : Chain → Chain → Prop}

mutual

/-- Every call keeps what each kind of call keeps. -/
theorem run (kept : KeptBy β P R) :
    ∀ (step : Step β) {q r : Chain}, step.Each P → step.run q = .ok r → R q r
  | .startCondition _, _, _, hP, h => kept.opens .start hP h
  | .continueCondition combinator _, _, _, hP, h => kept.opens (.next combinator) hP h
  | .compare _, _, _, hP, h => kept.completes rfl hP h
  -- The steps of a subquery run on a chain of their own, so this one sees a comparison only.
  | .subquery _ _ _, _, _, hP, h => kept.completes rfl hP h
  | .select _, _, _, hP, h => kept.passes rfl hP h
  | .orderBy _ _ _ _, _, _, hP, h => kept.passes rfl hP h
  | .skip _, _, _, hP, h => kept.passes rfl hP h
  | .take _, _, _, hP, h => kept.passes rfl hP h
  | .useBase, _, _, hP, h => kept.passes rfl hP h
  | .navigate _ _ _, _, _, hP, h => kept.passes rfl hP h
  | .joinEntity _, _, _, hP, h => kept.passes rfl hP h
  | .reset, q, _, _, h => by
    cases h
    exact kept.reset q
  | .group kind steps, q, r, hP, h => by
    obtain ⟨scope, hscope, hmerge⟩ := Step.group_of_run h
    exact kept.merge (kept.runAll steps hP.2 hscope) hmerge

theorem runAll (kept : KeptBy β P R) :
    ∀ (steps : List (Step β)) {q r : Chain}, Step.AllEach P steps → Step.runAll steps q = .ok r →
      R q r
  | [], q, _, _, h => by
    cases h
    exact kept.refl q
  | step :: rest, q, r, hP, h => by
    obtain ⟨next, hnext, hrest⟩ := Step.runAll_cons_of_ok h
    exact kept.trans (kept.run step hP.1 hnext) (kept.runAll rest hP.2 hrest)

end

end Chain.KeptBy

/-- A relation that holds between a chain and what any list of calls makes of it, told by the same
kinds of calls. -/
structure Chain.Kept (β : Type) [Builder β] (R : Chain → Chain → Prop) : Prop where
  refl : ∀ q, R q q
  trans : ∀ {q r s}, R q r → R r s → R q s
  opens : ∀ {path : Path} {step : Step β} {q r}, step.Opens path → step.run q = .ok r → R q r
  completes : ∀ {step : Step β} {q r}, step.compares = true → step.run q = .ok r → R q r
  passes : ∀ {step : Step β} {q r}, step.passes = true → step.run q = .ok r → R q r
  reset : ∀ q, R q q.reset
  merge : ∀ {kind q scope r}, R q.scope scope → q.merge kind scope = .ok r → R q r

namespace Chain.Kept

variable {β : Type} [Builder β] {R : Chain → Chain → Prop}

theorem keptBy (kept : Kept β R) : KeptBy β (fun _ => True) R where
  refl := kept.refl
  trans := kept.trans
  opens hopens _ := kept.opens hopens
  completes hcompares _ := kept.completes hcompares
  passes hpasses _ := kept.passes hpasses
  reset := kept.reset
  merge := kept.merge

theorem run (kept : Kept β R) (step : Step β) {q r : Chain} (h : step.run q = .ok r) : R q r :=
  kept.keptBy.run step (Step.each_true step) h

theorem runAll (kept : Kept β R) (steps : List (Step β)) {q r : Chain}
    (h : Step.runAll steps q = .ok r) : R q r :=
  kept.keptBy.runAll steps (Step.allEach_true steps) h

end Chain.Kept

/-! ## Reached chains -/

/-- The chains that calls reach, with the aliases that were known where their own calls began: none
in a new query, and in the scope of a group those of the chain around it. -/
inductive Chain.Reached (β : Type) [Builder β] : List String → Chain → Prop
  | start (base : String) : Reached β [] (Chain.start base)
  | scope {known : List String} {q : Chain} (h : Reached β known q) : Reached β q.history q.scope
  | step {known : List String} {q r : Chain} (step : Step β) (h : Reached β known q)
    (hrun : step.run q = .ok r) : Reached β known r

namespace Chain

variable {β : Type} [Builder β]

theorem Reached.runAll {known : List String} {steps : List (Step β)} {q r : Chain}
    (h : Reached β known q) (hrun : Step.runAll steps q = .ok r) : Reached β known r := by
  induction steps generalizing q with
  | nil =>
    cases hrun
    exact h
  | cons step rest ih =>
    obtain ⟨next, hnext, hrest⟩ := Step.runAll_cons_of_ok hrun
    exact ih (.step step h hnext) hrest

/-- What calls keep holds between the chain where the calls began and every chain that they
reach. -/
theorem Reached.kept {R : Chain → Chain → Prop} (kept : Kept β R) {known : List String} {q : Chain}
    (h : Reached β known q) : ∃ base, R (within known base) q := by
  induction h with
  | start base => exact ⟨base, kept.refl _⟩
  | scope h ih => exact ⟨_, kept.refl _⟩
  | step step h hrun ih =>
    obtain ⟨base, hR⟩ := ih
    exact ⟨base, kept.trans hR (kept.run step hrun)⟩

end Chain

end DeferredQuery
