import DeferredQuery.Proofs.Variation.Calls

/-!
# Inserted orderings and bounds

A list of calls is run beside the same list with calls inserted that order or bound the rows, at any
positions and in its groups too. What the longer list records is what the shorter one records, with
the parts of the inserted calls in between. Every search of a chain passes over such parts: it looks
for conditions or joins, and finds the same one in both, at different positions perhaps. So both
lists write to the same parts and fail alike.
-/

set_option autoImplicit false

namespace DeferredQuery

/-! ## Inserted calls -/

/-- The parts that order or bound the rows. -/
inductive Part.Arranges : Part → Prop
  | order (kind : OrderKind) (column : String) (direction : SortDirection)
    (nulls : Option NullsOrder) : Arranges (.order kind column direction nulls)
  | skip (count : Nat) : Arranges (.skip count)
  | take (count : Nat) : Arranges (.take count)

/-- The calls that order or bound the rows, by a column that is reached without a relation. -/
inductive Step.Arranges {β : Type} : Step β → Prop
  | orderBy (kind : OrderKind) (direction : SortDirection) (nulls : Option NullsOrder)
    (column : String) : Arranges (.orderBy kind direction nulls ⟨[], column⟩)
  | skip (count : Nat) : Arranges (.skip count)
  | take (count : Nat) : Arranges (.take count)

/-- How one list of calls comes from another by inserting calls that order or bound the rows, also
in groups. -/
inductive Insertion {β : Type} : List (Step β) → List (Step β) → Type
  | nil : Insertion [] []
  | kept (step : Step β) {calls longer : List (Step β)} (rest : Insertion calls longer) :
    Insertion (step :: calls) (step :: longer)
  | group (kind : ConditionKind) (inner more : List (Step β)) (steps : Insertion inner more)
    {calls longer : List (Step β)} (rest : Insertion calls longer) :
    Insertion (.group kind inner :: calls) (.group kind more :: longer)
  | inserted (step : Step β) (h : step.Arranges) {calls longer : List (Step β)}
    (rest : Insertion calls longer) : Insertion calls (step :: longer)

/-! ## Inserted parts -/

/-- The parts that order or bound the rows are neither conditions nor joins. -/
theorem Part.Arranges.passed {p : Part} (h : p.Arranges) :
    p.action.isCondition = false ∧ p.hasJoinCondition = false ∧
      ∀ name, p.binds name = false := by
  cases h <;> exact ⟨rfl, rfl, fun _ => rfl⟩

/-- The second list of parts is the first with parts inserted that order or bound the rows, where the
marks say so. -/
inductive Part.Woven : List Bool → List Part → List Part → Prop
  | nil : Woven [] [] []
  | kept (p : Part) {marks : List Bool} {parts longer : List Part} (h : Woven marks parts longer) :
    Woven (false :: marks) (p :: parts) (p :: longer)
  | inserted {p : Part} (hp : p.Arranges) {marks : List Bool} {parts longer : List Part}
    (h : Woven marks parts longer) : Woven (true :: marks) parts (p :: longer)

namespace Part.Woven

variable {marks moreMarks : List Bool} {parts longer more moreLonger : List Part}

theorem same (parts : List Part) : Woven (List.replicate parts.length false) parts parts := by
  induction parts with
  | nil => exact .nil
  | cons p rest ih => exact .kept p ih

theorem ofArranges (h : ∀ p ∈ parts, p.Arranges) :
    Woven (List.replicate parts.length true) [] parts := by
  induction parts with
  | nil => exact .nil
  | cons p rest ih =>
    rw [List.forall_mem_cons] at h
    exact .inserted h.1 (ih h.2)

theorem append (h : Woven marks parts longer) (hmore : Woven moreMarks more moreLonger) :
    Woven (marks ++ moreMarks) (parts ++ more) (longer ++ moreLonger) := by
  induction h with
  | nil => exact hmore
  | kept p h ih => exact .kept p ih
  | inserted hp h ih => exact .inserted hp ih

theorem appendSame (h : Woven marks parts longer) (added : List Part) :
    Woven (marks ++ List.replicate added.length false) (parts ++ added) (longer ++ added) :=
  h.append (same added)

theorem length_eq (h : Woven marks parts longer) : marks.length = longer.length := by
  induction h with
  | nil => rfl
  | kept p h ih => rw [List.length_cons, List.length_cons, ih]
  | inserted hp h ih => rw [List.length_cons, List.length_cons, ih]

/-- Inserted parts are no conditions. -/
theorem conditions_eq (h : Woven marks parts longer) :
    longer.filter (·.action.isCondition) = parts.filter (·.action.isCondition) := by
  induction h with
  | nil => rfl
  | kept p h ih => rw [List.filter_cons, List.filter_cons, ih]
  | inserted hp h ih => rw [List.filter_cons, hp.passed.1, ih]; rfl

/-- What is left without the conditions is woven by what is left of the marks. -/
theorem remaining (h : Woven marks parts longer) :
    Woven (((longer.zip marks).filter fun entry => !entry.1.action.isCondition).map (·.2))
      (parts.filter (!·.action.isCondition)) (longer.filter (!·.action.isCondition)) := by
  induction h with
  | nil => exact .nil
  | kept p h ih =>
    cases hp : p.action.isCondition with
    | true => simpa [hp] using ih
    | false => simpa [hp] using Woven.kept p ih
  | inserted hp h ih => simpa [hp.passed.1] using Woven.inserted hp ih

/-- **A search that inserted parts do not meet** finds the same part in both lists, or none in both;
and what is put in its place is put in the same place. -/
theorem findLast? {p : Part → Bool} (h : Woven marks parts longer)
    (hp : ∀ part : Part, part.Arranges → p part = false) :
    (Chain.findLast? p parts = none ∧ Chain.findLast? p longer = none) ∨
      ∃ i j part, Chain.findLast? p parts = some (i, part) ∧
        Chain.findLast? p longer = some (j, part) ∧
        ∀ other, Woven marks (parts.set i other) (longer.set j other) := by
  induction h with
  | nil => exact .inl ⟨rfl, rfl⟩
  | @kept first marks parts longer h ih =>
    simp only [Chain.findLast?]
    rcases ih with ⟨hnone, hnone'⟩ | ⟨i, j, part, hfound, hfound', hset⟩
    · rw [hnone, hnone']
      cases hfirst : p first with
      | false => exact .inl ⟨rfl, rfl⟩
      | true => exact .inr ⟨0, 0, first, rfl, rfl, fun other => .kept other h⟩
    · rw [hfound, hfound']
      exact .inr ⟨i + 1, j + 1, part, rfl, rfl, fun other => .kept first (hset other)⟩
  | inserted harranges h ih =>
    simp only [Chain.findLast?, hp _ harranges]
    rcases ih with ⟨hnone, hnone'⟩ | ⟨i, j, part, hfound, hfound', hset⟩
    · rw [hnone']
      exact .inl ⟨hnone, rfl⟩
    · rw [hfound']
      exact .inr ⟨i, j + 1, part, hfound, rfl, fun other => .inserted harranges (hset other)⟩

end Part.Woven

/-! ## Chains beside each other -/

/-- The second chain is the first with parts inserted. -/
structure Chain.Woven (marks : List Bool) (q r : Chain) : Prop where
  frame : r = { q with parts := r.parts }
  parts : Part.Woven marks q.parts r.parts

/-- The marks of the parts after a call: those that were there keep theirs, and those that the call
has added get one. -/
def Chain.marksAfter (mark : Bool) (marks : List Bool) (next : Chain) : List Bool :=
  marks ++ List.replicate (next.parts.length - marks.length) mark

/-- The marks of the parts of a scope that stand outside of the parentheses. -/
def Chain.otherMarks (scope : Chain) (marks : List Bool) : List Bool :=
  ((scope.parts.zip marks).filter fun entry => !entry.1.action.isCondition).map (·.2)

namespace Chain.Woven

variable {marks : List Bool} {q r : Chain}

/-- The second chain is the first with other parts, and all but the parts can be read off it. -/
theorem exists_parts (h : q.Woven marks r) :
    ∃ longer, r = { q with parts := longer } ∧ Part.Woven marks q.parts longer :=
  ⟨r.parts, h.frame, h.parts⟩

/-- Both chains after a call that is made on both. -/
abbrev Follows (marks : List Bool) (next other : Chain) : Prop :=
  next.Woven (marksAfter false marks other) other

/-- The parts that a call has added are told by the lengths. -/
theorem of_marked {mark : Bool} {next other : Chain} (count : Nat)
    (hframe : other = { next with parts := other.parts })
    (hparts : Part.Woven (marks ++ List.replicate count mark) next.parts other.parts) :
    next.Woven (marksAfter mark marks other) other := by
  have hlength := hparts.length_eq
  rw [List.length_append, List.length_replicate] at hlength
  have hcount : count = other.parts.length - marks.length := by omega
  refine ⟨hframe, ?_⟩
  rw [marksAfter, ← hcount]
  exact hparts

/-- A change of both that adds no part. -/
theorem follows_kept {next other : Chain} (hframe : other = { next with parts := other.parts })
    (hparts : Part.Woven marks next.parts other.parts) : Follows marks next other := by
  refine of_marked 0 hframe ?_
  rw [List.replicate_zero, List.append_nil]
  exact hparts

/-- Parts added to both. -/
theorem follows_added {next other : Chain} (h : q.Woven marks r) (added : List Part)
    (hq : next.parts = q.parts ++ added) (hr : other.parts = r.parts ++ added)
    (hframe : other = { next with parts := other.parts }) : Follows marks next other := by
  refine of_marked added.length hframe ?_
  rw [hq, hr]
  exact h.parts.appendSame added

theorem partsOver (h : q.Woven marks r) (kind : JoinKind) (start : String)
    (relations : List String) :
    Part.Woven (marks ++ List.replicate (missingSteps q.history start relations).length false)
      (q.partsOver kind start relations) (r.partsOver kind start relations) := by
  obtain ⟨longer, rfl, hparts⟩ := h.exists_parts
  have hadded := hparts.appendSame ((missingSteps q.history start relations).map (stepJoin kind))
  rw [List.length_map] at hadded
  exact hadded

/-- The joins of a walk and parts behind them, added to both. -/
theorem follows_walk {next other : Chain} (h : q.Woven marks r) (kind : JoinKind) (start : String)
    (relations : List String) (more : List Part)
    (hq : next.parts = q.partsOver kind start relations ++ more)
    (hr : other.parts = r.partsOver kind start relations ++ more)
    (hframe : other = { next with parts := other.parts }) : Follows marks next other := by
  have hhistory : r.history = q.history := by rw [h.frame]
  rw [Chain.partsOver, List.append_assoc] at hq
  rw [Chain.partsOver, hhistory, List.append_assoc] at hr
  exact h.follows_added _ hq hr hframe

/-! ## Calls that are made on both -/

theorem startCondition (h : q.Woven marks r) (path : Path) :
    SameOutcome (Follows marks) (q.startCondition path) (r.startCondition path) := by
  have hwalk := h.partsOver .inner q.activeAlias path.relations
  have hsame : r.mode = q.mode := by rw [h.frame]
  obtain ⟨longer, rfl, -⟩ := h.exists_parts
  by_cases hmode : q.mode = .get
  · rw [startCondition_of_get hmode, startCondition_of_get (hsame.trans hmode)]
    exact .ok (h.follows_walk .inner q.baseAlias path.relations _ rfl rfl rfl)
  · rw [startCondition_of_ne hmode, startCondition_of_ne (hsame ▸ hmode)]
    unfold startedJoin?
    rcases hwalk.findLast? (fun _ hpart => hpart.passed.2.2 _) with
      ⟨hnone, hnone'⟩ | ⟨i, j, join, hfound, hfound', hset⟩
    · rw [hnone, hnone']
      exact .error _
    · rw [hfound, hfound']
      exact .ok (of_marked _ rfl (hset _))

/-- The join whose condition is continued is the same in both. -/
theorem continuedJoin? (h : q.Woven marks r) (kind : JoinKind) (path : Path) :
    (q.continuedJoin? kind path = none ∧ r.continuedJoin? kind path = none) ∨
      ∃ i j join, q.continuedJoin? kind path = some (i, join) ∧
        r.continuedJoin? kind path = some (j, join) ∧
        ∀ other, Part.Woven
          (marks ++ List.replicate (missingSteps q.history q.activeAlias path.relations).length
            false)
          ((q.partsOver kind q.activeAlias path.relations).set i other)
          ((r.partsOver kind q.activeAlias path.relations).set j other) := by
  have hclause : r.clause = q.clause := by rw [h.frame]
  have hactive : r.activeAlias = q.activeAlias := by rw [h.frame]
  have hwalk := h.partsOver kind q.activeAlias path.relations
  unfold Chain.continuedJoin?
  rw [hclause, hactive]
  cases q.clause with
  | filter => exact .inl ⟨rfl, rfl⟩
  | on =>
    dsimp only
    rcases hwalk.findLast? (fun _ hpart => hpart.passed.2.2 (walkEnd q.activeAlias path.relations))
      with ⟨hnone, hnone'⟩ | ⟨i, j, join, hfound, hfound', hset⟩
    · rw [hnone, hnone']
      exact hwalk.findLast? fun _ hpart => hpart.passed.2.1
    · rw [hfound, hfound']
      dsimp only
      split
      · exact .inr ⟨i, j, join, rfl, rfl, hset⟩
      · exact .inl ⟨rfl, rfl⟩

theorem continueCondition (h : q.Woven marks r) (combinator : Combinator) (path : Path) :
    Follows marks (q.continueCondition combinator path) (r.continueCondition combinator path) := by
  have hcontinued := h.continuedJoin? (joinKindOf combinator) path
  obtain ⟨longer, rfl, -⟩ := h.exists_parts
  rw [continueCondition_eq, continueCondition_eq]
  rcases hcontinued with ⟨hnone, hnone'⟩ | ⟨i, j, join, hfound, hfound', hset⟩
  · rw [hnone, hnone']
    exact h.follows_walk (joinKindOf combinator) q.activeAlias path.relations _ rfl rfl rfl
  · rw [hfound, hfound']
    exact of_marked _ rfl (hset _)

/-- **A comparison completes the same part of both**, or fails for both. -/
theorem complete (h : q.Woven marks r) (operator : Operator) (comparand : Comparand) :
    SameOutcome (Follows marks) (q.complete operator comparand)
      (r.complete operator comparand) := by
  obtain ⟨longer, rfl, hparts⟩ := h.exists_parts
  have hpending : (q.pending? = none ∧ Chain.pending? { q with parts := longer } = none) ∨
      ∃ i j part, q.pending? = some (i, part) ∧
        Chain.pending? { q with parts := longer } = some (j, part) ∧
        ∀ other, Part.Woven marks (q.parts.set i other) (longer.set j other) := by
    unfold Chain.pending?
    dsimp only
    cases q.clause with
    | filter => exact hparts.findLast? fun _ hpart => hpart.passed.1
    | on => exact hparts.findLast? fun _ hpart => hpart.passed.2.1
  unfold Chain.complete
  dsimp only
  split
  · rcases hpending with ⟨hnone, hnone'⟩ | ⟨i, j, part, hfound, hfound', hset⟩
    · rw [hnone, hnone']
      cases q.clause <;> exact .error _
    · rw [hfound, hfound']
      dsimp only
      cases part.popText with
      | error error => exact .error error
      | ok popped => exact .ok (follows_kept rfl (hset _))
  · exact .error _

theorem navigate (h : q.Woven marks r) (kind : JoinKind) (anchor : Anchor) (target : Target) :
    Follows marks (q.navigate kind anchor target) (r.navigate kind anchor target) := by
  have hanchor : r.anchorAlias anchor = q.anchorAlias anchor := by
    rw [h.frame]
    cases anchor <;> rfl
  have hmode : r.mode = q.mode := by rw [h.frame]
  rw [Chain.navigate, Chain.navigate, walkFrom_eq, walkFrom_eq, hanchor, walkMode_congr hmode]
  obtain ⟨longer, rfl, -⟩ := h.exists_parts
  exact h.follows_walk kind _ _ [] (List.append_nil _).symm (List.append_nil _).symm rfl

theorem joinEntity (h : q.Woven marks r) (entity : String) :
    Follows marks (q.joinEntity entity) (r.joinEntity entity) := by
  have hmode : r.mode = q.mode := by rw [h.frame]
  rw [joinEntity_eq, joinEntity_eq, enterJoin_mode_congr hmode]
  obtain ⟨longer, rfl, hparts⟩ := h.exists_parts
  dsimp only
  split
  · exact follows_kept rfl hparts
  · exact h.follows_added _ rfl rfl rfl

theorem select (h : q.Woven marks r) (path : Path) :
    Follows marks (q.select path) (r.select path) := by
  obtain ⟨longer, rfl, -⟩ := h.exists_parts
  rw [select_eq, select_eq]
  exact h.follows_walk .inner q.columnStart path.relations []
    (List.append_nil _).symm (List.append_nil _).symm rfl

theorem orderBy (h : q.Woven marks r) (kind : OrderKind) (direction : SortDirection)
    (nulls : Option NullsOrder) (path : Path) :
    Follows marks (q.orderBy kind direction nulls path)
      (r.orderBy kind direction nulls path) := by
  obtain ⟨longer, rfl, -⟩ := h.exists_parts
  rw [orderBy_eq, orderBy_eq]
  exact h.follows_walk .inner q.activeAlias path.relations _ rfl rfl rfl

/-- A bound is recorded in both, or is zero. -/
theorem bound (h : q.Woven marks r) (count : Nat) (part : Part) :
    Follows marks (if 0 < count then q.push part else q)
      (if 0 < count then r.push part else r) := by
  obtain ⟨longer, rfl, hparts⟩ := h.exists_parts
  split
  · exact h.follows_added [part] rfl rfl rfl
  · exact follows_kept rfl hparts

/-! ## Groups -/

/-- The scopes of both know the same. -/
theorem scope_eq (h : q.Woven marks r) : r.scope = q.scope := by
  obtain ⟨longer, rfl, -⟩ := h.exists_parts
  rfl

theorem conditionParts_eq (h : q.Woven marks r) : r.conditionParts = q.conditionParts :=
  h.parts.conditions_eq

theorem groupPart?_eq (h : q.Woven marks r) (kind : ConditionKind) :
    r.groupPart? kind = q.groupPart? kind := by
  rw [groupPart?, groupPart?, h.conditionParts_eq]

theorem merge_same (h : q.Woven marks r) (kind : ConditionKind) (scope : Chain) :
    SameOutcome (Follows marks) (q.merge kind scope) (r.merge kind scope) := by
  obtain ⟨longer, rfl, -⟩ := h.exists_parts
  unfold Chain.merge
  cases scope.groupPart? kind with
  | error error => exact .error error
  | ok group =>
    exact .ok (h.follows_added (scope.otherParts ++ group.toList) (List.append_assoc _ _ _)
      (List.append_assoc _ _ _) rfl)

/-- **Groups are merged alike.** Their conditions are the same, and what else the scopes hand over is
woven as the scopes are. -/
theorem merge {others : List Bool} {scope other : Chain} (h : q.Woven marks r)
    (hscope : scope.Woven others other) (kind : ConditionKind) :
    SameOutcome (Follows (marks ++ otherMarks other others)) (q.merge kind scope)
      (r.merge kind other) := by
  have hgroup := hscope.groupPart?_eq kind
  obtain ⟨longer, rfl, hparts⟩ := h.exists_parts
  obtain ⟨longerScope, rfl, hothers⟩ := hscope.exists_parts
  unfold Chain.merge
  rw [hgroup]
  cases scope.groupPart? kind with
  | error error => exact .error error
  | ok group =>
    exact .ok (of_marked group.toList.length rfl
      ((hparts.append hothers.remaining).appendSame group.toList))

/-! ## One call -/

variable {β : Type} [Builder β]

/-- **A call that is made on both** fails for both, or leads to chains that are woven again: the
parts that it has added are no inserted ones. -/
theorem run (h : q.Woven marks r) (step : Step β) :
    SameOutcome (Follows marks) (step.run q) (step.run r) := by
  have hactive : r.activeAlias = q.activeAlias := by rw [h.frame]
  cases step with
  | startCondition path => exact h.startCondition path
  | continueCondition combinator path => exact .ok (h.continueCondition combinator path)
  | compare comparison =>
    simp only [Step.run, compare_eq, hactive]
    exact h.complete _ _
  | select path => exact .ok (h.select path)
  | orderBy kind direction nulls path => exact .ok (h.orderBy kind direction nulls path)
  | skip count => exact .ok (h.bound count (.skip count))
  | take count => exact .ok (h.bound count (.take count))
  | reset =>
    obtain ⟨longer, rfl, hparts⟩ := h.exists_parts
    exact .ok (follows_kept rfl hparts)
  | useBase =>
    obtain ⟨longer, rfl, hparts⟩ := h.exists_parts
    exact .ok (follows_kept rfl hparts)
  | navigate kind anchor target => exact .ok (h.navigate kind anchor target)
  | joinEntity entity => exact .ok (h.joinEntity entity)
  | group kind steps =>
    simp only [Step.run, h.scope_eq]
    cases Step.runAll steps q.scope with
    | error error => exact .error error
    | ok scope => exact h.merge_same kind scope
  | subquery negated builder steps =>
    simp only [Step.run]
    cases Step.runAll steps (Chain.start (Builder.baseAlias builder)) with
    | error error => exact .error error
    | ok inner =>
      dsimp only
      cases (Query.mk builder inner .many).subqueryText with
      | error error => exact .error error
      | ok text => exact h.complete _ _

/-- Parts that are added to the second chain only. -/
theorem of_inserted (h : q.Woven marks r) (added : List Part) (hadded : ∀ p ∈ added, p.Arranges) :
    q.Woven (marksAfter true marks { r with parts := r.parts ++ added })
      { r with parts := r.parts ++ added } := by
  obtain ⟨longer, rfl, hparts⟩ := h.exists_parts
  have hmore := hparts.append (.ofArranges hadded)
  rw [List.append_nil] at hmore
  exact of_marked added.length rfl hmore

/-- **An inserted call** succeeds, and the parts that it has added are inserted ones. -/
theorem run_inserted (h : q.Woven marks r) {step : Step β} (hstep : step.Arranges) :
    ∃ other, step.run r = .ok other ∧ q.Woven (marksAfter true marks other) other := by
  have hbound : ∀ (count : Nat) (part : Part), part.Arranges →
      q.Woven (marksAfter true marks (if 0 < count then r.push part else r))
        (if 0 < count then r.push part else r) := by
    intro count part hpart
    split
    · exact h.of_inserted [part] (by simpa using hpart)
    · have hnone := h.of_inserted [] nofun
      rw [List.append_nil] at hnone
      exact hnone
  cases hstep with
  | orderBy kind direction nulls column =>
    refine ⟨_, rfl, ?_⟩
    rw [orderBy_eq, partsOver_nil, historyOver_nil]
    exact h.of_inserted _ (by simpa using Part.Arranges.order kind _ direction nulls)
  | skip count => exact ⟨_, rfl, hbound count _ (.skip count)⟩
  | take count => exact ⟨_, rfl, hbound count _ (.take count)⟩

end Chain.Woven

/-! ## All calls -/

variable {β : Type} [Builder β]

/-- Which parts have been recorded by inserted calls, when the longer list of calls is run on a chain
whose parts have marks. -/
def Insertion.marks : {calls longer : List (Step β)} → Insertion calls longer → Chain → List Bool →
    List Bool
  | _, _, .nil, _, marks => marks
  | _, _, .kept step rest, r, marks =>
    match step.run r with
    | .ok next => rest.marks next (next.marksAfter false marks)
    | .error _ => marks
  | _, _, .group kind _ more steps rest, r, marks =>
    match Step.runAll more r.scope with
    | .ok scope =>
      match r.merge kind scope with
      | .ok next =>
        rest.marks next
          (next.marksAfter false (marks ++ scope.otherMarks (steps.marks r.scope [])))
      | .error _ => marks
    | .error _ => marks
  | _, _, .inserted step _ rest, r, marks =>
    match step.run r with
    | .ok next => rest.marks next (next.marksAfter true marks)
    | .error _ => marks

/-- **Both lists of calls** fail with the same error, or lead to chains of which the second is the
first with the parts of the inserted calls in between. -/
theorem Insertion.woven {calls longer : List (Step β)} (w : Insertion calls longer)
    {marks : List Bool} {q r : Chain} (h : q.Woven marks r) :
    SameOutcome (Chain.Woven (w.marks r marks)) (Step.runAll calls q) (Step.runAll longer r) := by
  induction w generalizing marks q r with
  | nil => exact .ok h
  | kept step rest ih =>
    have hstep := h.run step
    simp only [Step.runAll, Insertion.marks]
    generalize step.run q = x at hstep ⊢
    generalize step.run r = y at hstep ⊢
    cases hstep with
    | error error => exact .error error
    | ok hnext => exact ih hnext
  | @group kind inner more calls longer steps rest ihsteps ih =>
    have hstart : q.scope.Woven [] r.scope := by
      rw [h.scope_eq]
      exact ⟨rfl, .nil⟩
    have hscope := ihsteps hstart
    simp only [Step.runAll, Step.run, Insertion.marks]
    generalize Step.runAll inner q.scope = x at hscope ⊢
    generalize Step.runAll more r.scope = y at hscope ⊢
    cases hscope with
    | error error => exact .error error
    | ok hscope =>
      have hmerge := h.merge hscope kind
      dsimp only
      generalize Chain.merge kind q _ = x at hmerge ⊢
      generalize Chain.merge kind r _ = y at hmerge ⊢
      cases hmerge with
      | error error => exact .error error
      | ok hnext => exact ih hnext
  | inserted step hstep rest ih =>
    obtain ⟨other, hother, hwoven⟩ := h.run_inserted hstep
    simp only [Step.runAll, Insertion.marks, hother]
    exact ih hwoven

end DeferredQuery
