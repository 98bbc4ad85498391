import DeferredQuery.Chain.Ordering

/-!
# What a walk adds

Going over relations joins those whose alias is not known yet, in their order, and nothing else. The
missing steps are computed from the known aliases alone; `walkFrom_eq` says that a walk is the chain
with their joins and their aliases added. Every other call that takes a path is a walk followed by a
change of the active alias, so the parts and the history after it are these too.
-/

set_option autoImplicit false

namespace DeferredQuery

namespace Chain

/-- The steps of a walk whose alias is not known, each as the alias it starts from and its
relation. -/
def missingSteps : List String → String → List String → List (String × String)
  | _, _, [] => []
  | known, parent, relation :: rest =>
    let name := stepAlias parent relation
    if name ∈ known then missingSteps known name rest
    else (parent, relation) :: missingSteps (known ++ [name]) name rest

/-- The alias that a step binds. -/
def stepName (s : String × String) : String := stepAlias s.1 s.2

/-- The join of a step. -/
def stepJoin (kind : JoinKind) (s : String × String) : Part :=
  .join kind (stepRelation s.1 s.2) (stepName s)

/-- The parts after a walk that starts from an alias. -/
def partsOver (kind : JoinKind) (start : String) (relations : List String) (q : Chain) :
    List Part :=
  q.parts ++ (missingSteps q.history start relations).map (stepJoin kind)

/-- The known aliases after a walk that starts from an alias. -/
def historyOver (start : String) (relations : List String) (q : Chain) : List String :=
  q.history ++ (missingSteps q.history start relations).map stepName

/-- The alias at the end of a walk. -/
def walkEnd (start : String) (relations : List String) : String := relations.foldl stepAlias start

/-- The mode after a walk: without a relation it does not change. -/
def walkMode (relations : List String) (q : Chain) : Mode :=
  if relations = [] then q.mode else q.enterJoin.mode

@[simp] theorem walkEnd_nil (start : String) : walkEnd start [] = start := rfl

@[simp] theorem walkEnd_cons (start relation : String) (rest : List String) :
    walkEnd start (relation :: rest) = walkEnd (stepAlias start relation) rest := rfl

@[simp] theorem partsOver_nil (kind : JoinKind) (start : String) (q : Chain) :
    q.partsOver kind start [] = q.parts := by
  simp [partsOver, missingSteps]

@[simp] theorem historyOver_nil (start : String) (q : Chain) :
    q.historyOver start [] = q.history := by
  simp [historyOver, missingSteps]

theorem getElem?_partsOver {kind : JoinKind} {start : String} {relations : List String} {q : Chain}
    {k : Nat} {part : Part} (hk : q.parts.length ≤ k)
    (h : (q.partsOver kind start relations)[k]? = some part) : ∃ s, part = stepJoin kind s := by
  rw [partsOver, List.getElem?_append_right hk] at h
  obtain ⟨s, _, rfl⟩ := List.mem_map.mp (List.mem_of_getElem? h)
  exact ⟨s, rfl⟩

theorem getElem?_partsOver_of_lt {kind : JoinKind} {start : String} {relations : List String}
    {q : Chain} {k : Nat} (hk : k < q.parts.length) :
    (q.partsOver kind start relations)[k]? = q.parts[k]? := by
  rw [partsOver, List.getElem?_append_left hk]

/-! ## The mode -/

theorem enterJoin_of_compare {q : Chain} (h : q.mode = .compare) : q.enterJoin = q := by
  simp [enterJoin, h]

theorem enterJoin_mode_of_ne {q : Chain} (h : q.mode ≠ .compare) : q.enterJoin.mode = .join := by
  simp [enterJoin, h, withMode]

theorem enterJoin_mode_idem {q r : Chain} (h : r.mode = q.enterJoin.mode) :
    r.enterJoin.mode = q.enterJoin.mode := by
  by_cases hq : q.mode = .compare
  · rw [enterJoin_of_compare hq] at h ⊢
    rw [enterJoin_of_compare (h.trans hq), h]
  · rw [enterJoin_mode_of_ne hq] at h ⊢
    exact enterJoin_mode_of_ne (by rw [h]; decide)

theorem walkMode_of_compare {relations : List String} {q : Chain} (h : q.mode = .compare) :
    walkMode relations q = .compare := by
  unfold walkMode
  split
  · exact h
  · rw [enterJoin_of_compare h, h]

theorem mode_of_enterJoin {q : Chain} (h : q.enterJoin.mode = .compare) : q.mode = .compare := by
  by_cases hq : q.mode = .compare
  · exact hq
  · rw [enterJoin_mode_of_ne hq] at h
    cases h

theorem mode_of_walkMode {relations : List String} {q : Chain}
    (h : walkMode relations q = .compare) : q.mode = .compare := by
  unfold walkMode at h
  split at h
  · exact h
  · exact mode_of_enterJoin h

theorem enterJoin_mode_congr {q r : Chain} (h : r.mode = q.mode) :
    r.enterJoin.mode = q.enterJoin.mode := by
  by_cases hq : q.mode = .compare
  · rw [enterJoin_of_compare hq, enterJoin_of_compare (h.trans hq), h]
  · rw [enterJoin_mode_of_ne hq, enterJoin_mode_of_ne (h ▸ hq)]

theorem walkMode_congr {relations : List String} {q r : Chain} (h : r.mode = q.mode) :
    walkMode relations r = walkMode relations q := by
  rw [walkMode, walkMode, h, enterJoin_mode_congr h]

/-! ## Walks -/

theorem step_eq (kind : JoinKind) (parent relation : String) (q : Chain) :
    q.step kind parent relation =
      if stepAlias parent relation ∈ q.history then
        { q with activeAlias := stepAlias parent relation, mode := q.enterJoin.mode }
      else
        { q with
          activeAlias := stepAlias parent relation
          mode := q.enterJoin.mode
          parts := q.parts ++ [stepJoin kind (parent, relation)]
          history := q.history ++ [stepAlias parent relation] } := by
  have hhist : q.enterJoin.history = q.history := by unfold enterJoin; split <;> rfl
  simp only [step, bind, hhist]
  split <;> (unfold enterJoin; split <;> rfl)

/-- **A walk adds the joins and the aliases of its missing steps**, and makes the alias at its end
the active one. -/
theorem walkFrom_eq (kind : JoinKind) (start : String) (relations : List String) (q : Chain) :
    q.walkFrom kind start relations =
      { q with
        activeAlias := if relations = [] then q.activeAlias else walkEnd start relations
        mode := walkMode relations q
        parts := q.partsOver kind start relations
        history := q.historyOver start relations } := by
  induction relations generalizing start q with
  | nil => simp [walkFrom, partsOver, historyOver, missingSteps, walkMode]
  | cons relation rest ih =>
    rw [walkFrom, ih, step_eq]
    -- The mode was settled by the first step; the aliases depend on whether its own was known.
    have hmode : ∀ r : Chain, r.mode = q.enterJoin.mode →
        walkMode rest r = walkMode (relation :: rest) q := by
      intro r hr
      simp only [walkMode, reduceCtorEq, if_false]
      split
      · exact hr
      · exact enterJoin_mode_idem hr
    by_cases hk : stepAlias start relation ∈ q.history
    · simp only [if_pos hk, partsOver, historyOver, missingSteps, hmode, reduceCtorEq, if_false,
        walkEnd_cons]
      cases rest <;> simp
    · simp only [if_neg hk, partsOver, historyOver, missingSteps, hmode, reduceCtorEq, if_false,
        walkEnd_cons]
      cases rest <;> simp [stepName]

theorem walk_eq (kind : JoinKind) (relations : List String) (q : Chain) :
    q.walk kind relations =
      { q with
        activeAlias := walkEnd q.activeAlias relations
        mode := walkMode relations q
        parts := q.partsOver kind q.activeAlias relations
        history := q.historyOver q.activeAlias relations } := by
  rw [walk, walkFrom_eq]
  cases relations <;> rfl

theorem joinEntity_eq (entity : String) (q : Chain) :
    q.joinEntity entity =
      if entity ∈ q.history then { q with activeAlias := entity, mode := q.enterJoin.mode }
      else
        { q with
          activeAlias := entity
          mode := q.enterJoin.mode
          parts := q.parts ++ [.joinOn .inner entity entity Keyword.always]
          history := q.history ++ [entity] } := by
  by_cases hk : entity ∈ q.history <;> by_cases hq : q.mode = .compare <;>
    simp [joinEntity, bind, enterJoin, withActive, withMode, hk, hq]

end Chain

/-- The reference that a path writes when it starts from an alias. -/
def Path.referenceFrom (start : String) (path : Path) : String :=
  Chain.walkEnd start path.relations ++ "." ++ path.leaf

namespace Chain

/-! ## Columns

A selected or ordering column walks over the relations of its path, and then puts the active alias
and the mode back. -/

/-- The alias that a selected column starts from. -/
def columnStart (q : Chain) : String := if q.mode = .get then q.baseAlias else q.activeAlias

theorem orderBy_eq (kind : OrderKind) (direction : SortDirection) (nulls : Option NullsOrder)
    (path : Path) (q : Chain) :
    q.orderBy kind direction nulls path =
      { q with
        parts := q.partsOver .inner q.activeAlias path.relations ++
          [.order kind (path.referenceFrom q.activeAlias) direction nulls]
        history := q.historyOver q.activeAlias path.relations } := by
  simp [orderBy, qualify, walk_eq, push, reference, withActive, withMode, Path.referenceFrom]

theorem select_eq (path : Path) (q : Chain) :
    q.select path =
      { q with
        parts := q.partsOver .inner q.columnStart path.relations
        history := q.historyOver q.columnStart path.relations
        selection := some (path.referenceFrom q.columnStart) } := by
  unfold select columnStart
  split <;> simp [qualify, walk_eq, reference, useBase, withActive, withMode, Path.referenceFrom,
    partsOver, historyOver]

end Chain

end DeferredQuery
