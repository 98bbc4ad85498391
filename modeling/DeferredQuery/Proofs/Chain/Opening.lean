import DeferredQuery.Chain.Step
import DeferredQuery.Proofs.Chain.Search
import DeferredQuery.Proofs.Chain.Walk

/-!
# Where a condition is opened

Starting or continuing a condition walks over the relations of its path and then writes one
reference: as a condition part of its own at the end, or into the join whose condition is being
written. Each lemma tells such a call by the chain it leads to, and `opened_of_run` tells them all;
nothing after this module unfolds one.
-/

set_option autoImplicit false

namespace DeferredQuery

namespace Part

/-- The join with a reference written at the end of its condition: as the first of it, or joined to
what it has. -/
def writeReference (combinator : Combinator) (reference : String) (join : Part) : Part :=
  if join.hasJoinCondition then join.extendText (" " ++ combinator.text ++ " " ++ reference)
  else join.pushText reference

theorem hasJoinCondition_iff {p : Part} :
    p.hasJoinCondition = true ↔
      ∃ kind relation name text, p = ⟨.join kind, [relation, name, .text text]⟩ := by
  constructor
  · intro h
    unfold hasJoinCondition at h
    split at h
    · rename_i kind relation name text ha hargs
      exact ⟨kind, relation, name, text, by cases p; simp_all⟩
    · cases h
  · rintro ⟨kind, relation, name, text, rfl⟩
    rfl

@[simp] theorem extendText_action (p : Part) (suffix : String) :
    (p.extendText suffix).action = p.action := by
  unfold extendText
  split <;> rfl

@[simp] theorem pushText_action (p : Part) (text : String) : (p.pushText text).action = p.action :=
  rfl

@[simp] theorem writeReference_action (combinator : Combinator) (reference : String) (p : Part) :
    (p.writeReference combinator reference).action = p.action := by
  unfold writeReference
  split <;> simp

theorem isJoin_of_hasJoinCondition {p : Part} (h : p.hasJoinCondition = true) :
    p.action.isJoin = true := by
  obtain ⟨kind, relation, name, text, rfl⟩ := hasJoinCondition_iff.mp h
  rfl

theorem isJoin_of_binds {name : String} {p : Part} (h : p.binds name = true) :
    p.action.isJoin = true := by
  simp only [binds, Bool.and_eq_true] at h
  exact h.1

/-- What a condition is written to is a join, however it was found. -/
theorem isJoin_of_written {p : Part}
    (h : p.hasJoinCondition = true ∨ ∃ name, p.binds name = true) : p.action.isJoin = true := by
  rcases h with h | ⟨name, h⟩
  · exact isJoin_of_hasJoinCondition h
  · exact isJoin_of_binds h

end Part

namespace Chain

/-- **Starting a condition outside a join** opens a condition of the statement, from the base
entity. -/
theorem startCondition_of_get {path : Path} {q : Chain} (h : q.mode = .get) :
    q.startCondition path = .ok
      { q with
        activeAlias := q.baseAlias
        mode := .compare
        clause := .filter
        parts := q.partsOver .inner q.baseAlias path.relations ++
          [.condition .start (path.referenceFrom q.baseAlias)]
        history := q.historyOver q.baseAlias path.relations } := by
  simp only [startCondition, h]
  simp [walk_eq, openFilter, push, reference, withActive, Path.referenceFrom, partsOver,
    historyOver, walkMode_of_compare]

theorem walk_withMode_compare (kind : JoinKind) (relations : List String) (q : Chain) :
    (q.withMode .compare).walk kind relations =
      { q with
        activeAlias := walkEnd q.activeAlias relations
        mode := .compare
        parts := q.partsOver kind q.activeAlias relations
        history := q.historyOver q.activeAlias relations } := by
  rw [walk_eq, walkMode_of_compare rfl]
  rfl

theorem openOnJoin_eq (property : String) (q : Chain) :
    q.openOnJoin property =
      match q.joinOf? q.activeAlias with
      | none => .error (.invalidConditionalJoin q.activeAlias)
      | some (index, join) =>
        .ok (q.setPart index (join.writeReference .and (q.reference property))) := by
  unfold openOnJoin
  cases q.joinOf? q.activeAlias with
  | none => rfl
  | some found =>
    dsimp only
    unfold Part.writeReference
    split <;> rfl

/-- The join that a condition started after a join is written to, among the parts after its walk. -/
def startedJoin? (path : Path) (q : Chain) : Option (Nat × Part) :=
  findLast? (Part.binds (walkEnd q.activeAlias path.relations))
    (q.partsOver .inner q.activeAlias path.relations)

/-- **Starting a condition after a join** writes to the join that binds the alias at the end of the
walk. -/
theorem startCondition_of_ne {path : Path} {q : Chain} (h : q.mode ≠ .get) :
    q.startCondition path =
      match q.startedJoin? path with
      | none => .error (.invalidConditionalJoin (walkEnd q.activeAlias path.relations))
      | some (index, join) => .ok
        { q with
          mode := .compare
          clause := .on
          parts := (q.partsOver .inner q.activeAlias path.relations).set index
            (join.writeReference .and (path.referenceFrom q.activeAlias))
          history := q.historyOver q.activeAlias path.relations } := by
  unfold startCondition
  split
  · rename_i hm
    exact absurd hm h
  · simp only [walk_withMode_compare, openOnJoin_eq, joinOf?, startedJoin?]
    cases findLast? (Part.binds (walkEnd q.activeAlias path.relations))
      (q.partsOver .inner q.activeAlias path.relations) <;> rfl

/-- The join whose condition a call continues, among the parts after its walk: when conditions go to
a join, that of the alias at the end of the walk if it carries one, or if no join binds the alias,
the last that carries one. -/
def continuedJoin? (kind : JoinKind) (path : Path) (q : Chain) : Option (Nat × Part) :=
  let parts := q.partsOver kind q.activeAlias path.relations
  match q.clause with
  | .filter => none
  | .on =>
    match findLast? (Part.binds (walkEnd q.activeAlias path.relations)) parts with
    | some (index, join) => if join.hasJoinCondition then some (index, join) else none
    | none => findLast? Part.hasJoinCondition parts

theorem continuedJoin?_some {kind : JoinKind} {path : Path} {q : Chain} {index : Nat} {join : Part}
    (h : q.continuedJoin? kind path = some (index, join)) :
    (q.partsOver kind q.activeAlias path.relations)[index]? = some join ∧
      join.hasJoinCondition = true ∧ q.clause = .on := by
  unfold continuedJoin? at h
  cases hc : q.clause with
  | filter => simp [hc] at h
  | on =>
    simp only [hc] at h
    split at h
    · rename_i i found hfound
      by_cases hj : found.hasJoinCondition = true
      · rw [if_pos hj] at h
        cases h
        exact ⟨(findLast?_some hfound).1, hj, rfl⟩
      · rw [if_neg hj] at h
        cases h
    · exact ⟨(findLast?_some h).1, (findLast?_some h).2.1, rfl⟩

/-- **Continuing a condition** writes to a join that carries one, or opens a condition of the
statement. -/
theorem continueCondition_eq (combinator : Combinator) (path : Path) (q : Chain) :
    q.continueCondition combinator path =
      match q.continuedJoin? (joinKindOf combinator) path with
      | some (index, join) =>
        { q with
          mode := .compare
          parts := (q.partsOver (joinKindOf combinator) q.activeAlias path.relations).set index
            (join.writeReference combinator (path.referenceFrom q.activeAlias))
          history := q.historyOver q.activeAlias path.relations }
      | none =>
        { q with
          mode := .compare
          clause := .filter
          parts := q.partsOver (joinKindOf combinator) q.activeAlias path.relations ++
            [.condition (conditionKindOf combinator) (path.referenceFrom q.activeAlias)]
          history := q.historyOver q.activeAlias path.relations } := by
  simp only [continueCondition, walk_withMode_compare]
  have hjoin : ({ q with
      activeAlias := walkEnd q.activeAlias path.relations
      mode := .compare
      parts := q.partsOver (joinKindOf combinator) q.activeAlias path.relations
      history := q.historyOver q.activeAlias path.relations } : Chain).openJoin? =
        q.continuedJoin? (joinKindOf combinator) path := rfl
  rw [hjoin]
  cases hfound : q.continuedJoin? (joinKindOf combinator) path with
  | none => rfl
  | some found =>
    obtain ⟨index, join⟩ := found
    simp only [Part.writeReference, if_pos (continuedJoin?_some hfound).2.1]
    rfl

end Chain

namespace Step

variable {β : Type} [Builder β]

/-- The calls that open a condition on the property of a path. -/
inductive Opens (path : Path) : Step β → Prop
  | start : Opens path (.startCondition path)
  | next (combinator : Combinator) : Opens path (.continueCondition combinator path)

/-- **The two ends of an opening call**: a condition part behind the joins of its walk, or a
reference written to one join, found by its alias or by the condition that it carries. -/
theorem opened_of_run {path : Path} {opening : Step β} {q opened : Chain}
    (hopen : opening.Opens path) (hrun : opening.run q = .ok opened) :
    ∃ joins start, (start = q.baseAlias ∨ start = q.activeAlias) ∧
      ((∃ kind, opened =
        { q with
          activeAlias := start
          mode := .compare
          clause := .filter
          parts := q.partsOver joins start path.relations ++
            [.condition kind (path.referenceFrom start)]
          history := q.historyOver start path.relations }) ∨
      ∃ index join combinator,
        (q.partsOver joins start path.relations)[index]? = some join ∧
        (join.hasJoinCondition = true ∨ ∃ name, join.binds name = true) ∧ opened =
        { q with
          activeAlias := start
          mode := .compare
          clause := .on
          parts := (q.partsOver joins start path.relations).set index
            (join.writeReference combinator (path.referenceFrom start))
          history := q.historyOver start path.relations }) := by
  cases hopen with
  | start =>
    simp only [run] at hrun
    by_cases hmode : q.mode = .get
    · rw [Chain.startCondition_of_get hmode] at hrun
      cases hrun
      exact ⟨.inner, q.baseAlias, .inl rfl, .inl ⟨.start, rfl⟩⟩
    · rw [Chain.startCondition_of_ne hmode] at hrun
      split at hrun
      · cases hrun
      · rename_i index join hfound
        cases hrun
        obtain ⟨hindex, hbinds, _⟩ := Chain.findLast?_some hfound
        exact ⟨.inner, q.activeAlias, .inr rfl,
          .inr ⟨index, join, .and, hindex, .inr ⟨_, hbinds⟩, rfl⟩⟩
  | next combinator =>
    simp only [run, Chain.continueCondition_eq] at hrun
    split at hrun
    · rename_i index join hfound
      cases hrun
      obtain ⟨hindex, hjoin, hclause⟩ := Chain.continuedJoin?_some hfound
      exact ⟨Chain.joinKindOf combinator, q.activeAlias, .inr rfl,
        .inr ⟨index, join, combinator, hindex, .inl hjoin, by rw [hclause]⟩⟩
    · cases hrun
      exact ⟨Chain.joinKindOf combinator, q.activeAlias, .inr rfl,
        .inl ⟨Chain.conditionKindOf combinator, rfl⟩⟩

end Step

end DeferredQuery
