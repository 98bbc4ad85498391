import DeferredQuery.Proofs.Chain.Landing
import DeferredQuery.Proofs.Chain.Reentry

/-!
# Criteria on a join

A criterion names a property and compares it. On a join the first is written behind the condition
that the join has, and each other behind the one before it, so the text of the condition only grows
at its end. What stands there already is not read again, whatever is in its literals: a comparison
looks for the last space, and the call before it has written the reference, which has none, behind
a space or at the beginning.
-/

set_option autoImplicit false

namespace DeferredQuery

/-- A property of an alias and the call that compares it, with the operator and the operand that
the call writes while the alias is active, and with how the criterion is joined to the one before
it. -/
structure Criterion (β : Type) [Builder β] (name : String) where
  combinator : Combinator
  property : String
  spaceless : ' ' ∉ property.toList
  comparison : Step β
  operator : Operator
  operand : String
  folds : Bool
  writes : comparison.Writes name operator operand folds

namespace Criterion

variable {β : Type} [Builder β] {name : String}

/-- There is a criterion for every comparison, whatever the property is compared with. -/
def ofComparison (combinator : Combinator) (property : String) (h : ' ' ∉ property.toList)
    (c : Comparison) : Criterion β name where
  combinator := combinator
  property := property
  spaceless := h
  comparison := .compare c
  operator := c.operator
  operand := c.operand name
  folds := c.foldsReference
  writes := .comparison c

def reference (c : Criterion β name) : String := name ++ "." ++ c.property

/-- The text of a criterion. -/
def text (c : Criterion β name) : String :=
  (if c.folds then Keyword.lowered c.reference else c.reference) ++ " " ++ c.operator.text ++ " " ++
    c.operand

/-- The texts of criteria that stand behind another, each with its combinator before it. -/
def further : List (Criterion β name) → String
  | [] => ""
  | c :: rest => " " ++ c.combinator.text ++ " " ++ c.text ++ further rest

/-- The calls for a criterion that is the first. -/
def starts (c : Criterion β name) : List (Step β) :=
  [.startCondition ⟨[], c.property⟩, c.comparison]

/-- The calls for a criterion behind another. -/
def continues (c : Criterion β name) : List (Step β) :=
  [.continueCondition c.combinator ⟨[], c.property⟩, c.comparison]

theorem space_notMem_reference (c : Criterion β name) (hname : ' ' ∉ name.toList) :
    ' ' ∉ c.reference.toList := by
  have hproperty := c.spaceless
  simp [reference, hname, hproperty]

end Criterion

/-! ## One criterion -/

namespace Chain

/-- The chain while conditions go to the join at a position, which binds the active alias and
carries this condition. -/
def onJoin (k : Nat) (kind : JoinKind) (relation : String) (mode : Mode) (text : String)
    (q : Chain) : Chain :=
  { q with
    mode := mode
    clause := .on
    parts := q.parts.set k (.joinOn kind relation q.activeAlias text) }

/-- The join at a position is the one that conditions on the active alias go to, and the one that
comparisons complete. -/
structure TakesCriteria (k : Nat) (q : Chain) : Prop where
  found : ∃ join, findLast? (Part.binds q.activeAlias) q.parts = some (k, join)
  noLater : q.NoLaterOn k

namespace TakesCriteria

variable {q : Chain} {k : Nat}

theorem findLast?_binds (h : q.TakesCriteria k) (kind : JoinKind) (relation text : String) :
    findLast? (Part.binds q.activeAlias)
        (q.parts.set k (.joinOn kind relation q.activeAlias text)) =
      some (k, .joinOn kind relation q.activeAlias text) := by
  obtain ⟨join, hfound⟩ := h.found
  apply findLast?_set hfound
  simp [Part.binds, Part.joinOn, Part.boundAlias?, Action.isJoin]

theorem findLast?_carries (h : q.TakesCriteria k) (kind : JoinKind) (relation text : String) :
    findLast? Part.hasJoinCondition
        (q.parts.set k (.joinOn kind relation q.activeAlias text)) =
      some (k, .joinOn kind relation q.activeAlias text) := by
  obtain ⟨join, hfound⟩ := h.found
  have hlt : k < q.parts.length :=
    (List.getElem?_eq_some_iff.mp (findLast?_some hfound).1).1
  refine findLast?_eq_some_iff.mpr ⟨List.getElem?_set_self hlt, rfl, fun j p hj hp => ?_⟩
  rw [List.getElem?_set_ne (by omega)] at hp
  exact h.noLater j p hj hp

/-- Continuing the condition writes a reference behind it. -/
theorem continueCondition_onJoin (h : q.TakesCriteria k) (kind : JoinKind) (relation text : String)
    (combinator : Combinator) (property : String) :
    (q.onJoin k kind relation .get text).continueCondition combinator ⟨[], property⟩ =
      q.onJoin k kind relation .compare
        (text ++ " " ++ combinator.text ++ " " ++ (q.activeAlias ++ "." ++ property)) := by
  have hcontinued : (q.onJoin k kind relation .get text).continuedJoin? (joinKindOf combinator)
      ⟨[], property⟩ = some (k, .joinOn kind relation q.activeAlias text) := by
    unfold continuedJoin?
    rw [partsOver_nil, walkEnd_nil]
    simp only [onJoin, h.findLast?_binds]
    rfl
  have hwritten : ∀ reference, (Part.joinOn kind relation q.activeAlias text).writeReference
      combinator reference =
        .joinOn kind relation q.activeAlias (text ++ " " ++ combinator.text ++ " " ++ reference) := by
    intro reference
    show Part.joinOn kind relation q.activeAlias
      (text ++ (" " ++ combinator.text ++ " " ++ reference)) = _
    simp only [String.append_assoc]
  rw [continueCondition_eq, hcontinued]
  dsimp only
  rw [hwritten, partsOver_nil, historyOver_nil]
  simp only [onJoin, List.set_set]
  rfl

end TakesCriteria

end Chain

namespace Step

variable {β : Type} [Builder β]

theorem runAll_append_of_ok {first second : List (Step β)} {q r : Chain}
    (h : runAll first q = .ok r) : runAll (first ++ second) q = runAll second r := by
  induction first generalizing q with
  | nil =>
    cases h
    rfl
  | cons step rest ih =>
    obtain ⟨next, hnext, hrest⟩ := runAll_cons_of_ok h
    rw [List.cons_append, runAll, hnext]
    exact ih hrest

end Step

namespace Criterion

variable {β : Type} [Builder β] {q : Chain} {k : Nat}

/-- A comparison completes the reference at the end of the condition and leaves what stands before
it. -/
theorem run_comparison (h : q.TakesCriteria k) (hspace : ' ' ∉ q.activeAlias.toList)
    (kind : JoinKind) (relation : String) (c : Criterion β q.activeAlias) {before : String}
    (hbefore : before = "" ∨ ∃ old, before = old ++ " ") :
    c.comparison.run (q.onJoin k kind relation .compare (before ++ c.reference)) =
      .ok (q.onJoin k kind relation .get (before ++ c.text)) := by
  have hpending : (q.onJoin k kind relation .compare (before ++ c.reference)).pending? =
      some (k, (Part.mk (.join kind) [.text relation, .text q.activeAlias]).pushText
        (before ++ c.reference)) :=
    h.findLast?_carries kind relation (before ++ c.reference)
  have hcompleted : (q.onJoin k kind relation .compare (before ++ c.reference)).complete c.operator
      ⟨c.operand, c.folds⟩ = _ := Chain.complete_of_pending rfl hpending
  rw [Chain.completeText_of_ends hbefore (c.space_notMem_reference hspace)] at hcompleted
  rw [Step.run_of_writes (q := q.onJoin k kind relation .compare _) c.writes, hcompleted]
  simp only [Chain.onJoin, List.set_set, Criterion.text, String.append_assoc]
  rfl

/-- **A criterion behind others** is written behind them. -/
theorem runAll_continues (h : q.TakesCriteria k) (hspace : ' ' ∉ q.activeAlias.toList)
    (kind : JoinKind) (relation text : String) (c : Criterion β q.activeAlias) :
    Step.runAll c.continues (q.onJoin k kind relation .get text) =
      .ok (q.onJoin k kind relation .get (text ++ " " ++ c.combinator.text ++ " " ++ c.text)) := by
  have hbefore : text ++ " " ++ c.combinator.text ++ " " = "" ∨
      ∃ old, text ++ " " ++ c.combinator.text ++ " " = old ++ " " := .inr ⟨_, rfl⟩
  have hcompared := c.run_comparison h hspace kind relation hbefore
  simp only [continues, Step.runAll, Step.run]
  rw [h.continueCondition_onJoin]
  rw [reference] at hcompared
  rw [hcompared]

/-! ## Many criteria -/

/-- Criteria behind others are written behind them in their order. -/
theorem runAll_flatMap_continues (h : q.TakesCriteria k) (hspace : ' ' ∉ q.activeAlias.toList)
    (kind : JoinKind) (relation text : String) (criteria : List (Criterion β q.activeAlias)) :
    Step.runAll (criteria.flatMap continues) (q.onJoin k kind relation .get text) =
      .ok (q.onJoin k kind relation .get (text ++ further criteria)) := by
  induction criteria generalizing text with
  | nil =>
    rw [further, String.append_empty]
    rfl
  | cons c rest ih =>
    have hfurther : text ++ further (c :: rest) =
        text ++ " " ++ c.combinator.text ++ " " ++ c.text ++ further rest := by
      simp only [further, String.append_assoc]
    rw [List.flatMap_cons, Step.runAll_append_of_ok (c.runAll_continues h hspace kind relation text),
      ih, hfurther]

/-- **Criteria on a join** are written behind what a condition is written behind there. -/
theorem runAll_starts_append (hmode : q.mode ≠ .get) (hspace : ' ' ∉ q.activeAlias.toList)
    (hnodup : q.joinedAliases.Nodup) {join : Part} (hk : q.parts[k]? = some join)
    (hbinds : join.binds q.activeAlias = true) (hlater : q.NoLaterOn k) {kind : JoinKind}
    {relation before : String} (hbefore : before = "" ∨ ∃ old, before = old ++ " ")
    (hwritten : ∀ reference, join.writeReference .and reference =
      .joinOn kind relation q.activeAlias (before ++ reference))
    (first : Criterion β q.activeAlias) (rest : List (Criterion β q.activeAlias)) :
    Step.runAll (first.starts ++ rest.flatMap continues) q =
      .ok (q.onJoin k kind relation .get (before ++ first.text ++ further rest)) := by
  have htakes : q.TakesCriteria k :=
    ⟨⟨join, Chain.findLast?_binds_of_nodup hnodup hk hbinds⟩, hlater⟩
  have hstarted : Step.runAll first.starts q =
      .ok (q.onJoin k kind relation .get (before ++ first.text)) := by
    have hopened : q.startCondition ⟨[], first.property⟩ =
        .ok (q.onJoin k kind relation .compare (before ++ first.reference)) := by
      rw [Chain.startCondition_of_binds hmode hnodup hk hbinds, hwritten]
      rfl
    simp only [starts, Step.runAll, Step.run]
    rw [hopened]
    dsimp only
    rw [first.run_comparison htakes hspace kind relation hbefore]
  rw [Step.runAll_append_of_ok hstarted]
  exact runAll_flatMap_continues htakes hspace kind relation _ rest

end Criterion

/-- **Criteria on a join are concatenated.** On a reached chain after a join, where the join of the
active alias is the last that carries a condition or may be given one, criteria that are written one
after the other all come to stand on that join: the condition it has, kept as it is, and an `AND`,
unless it has none; the text of the first, and the text of each other with its combinator before it.
The text of a criterion is the one that it has alone, as the only condition of a join. -/
theorem Chain.Reached.criteria_concatenated {β : Type} [Builder β] {known : List String} {q : Chain}
    (h : Reached β known q) (hmode : q.mode = .join) (hspace : ' ' ∉ q.activeAlias.toList) {k : Nat}
    {join : Part} (hk : q.parts[k]? = some join) (hbinds : join.binds q.activeAlias = true)
    (hlater : q.NoLaterOn k) :
    ∃ kind relation, ∃ on? : Option String,
      join = ⟨.join kind, [.text relation, .text q.activeAlias] ++ on?.toList.map .text⟩ ∧
      (∀ (first : Criterion β q.activeAlias) (rest : List (Criterion β q.activeAlias)),
        Step.runAll (first.starts ++ rest.flatMap Criterion.continues) q = .ok
          { q with
            mode := .get
            clause := .on
            parts := q.parts.set k (.joinOn kind relation q.activeAlias
              ((on?.map (· ++ " AND ")).getD "" ++ first.text ++ Criterion.further rest)) }) ∧
      ∀ c : Criterion β q.activeAlias,
        Step.runAll c.starts { q with parts := [.join kind relation q.activeAlias] } = .ok
          { q with
            mode := .get
            clause := .on
            parts := [.joinOn kind relation q.activeAlias c.text] } := by
  have hne : q.mode ≠ .get := by
    rw [hmode]
    exact nofun
  obtain ⟨hnodup, _⟩ := h.joinedAliases_fresh
  obtain ⟨kind, relation, on?, hshape, hwritten⟩ :=
    Part.writeReference_and (h.ready.recorded join (List.mem_of_getElem? hk)) hbinds
  refine ⟨kind, relation, on?, hshape, fun first rest => ?_, fun c => ?_⟩
  · have hbefore : (on?.map (· ++ " AND ")).getD "" = "" ∨
        ∃ old, (on?.map (· ++ " AND ")).getD "" = old ++ " " := by
      cases on? with
      | none => exact .inl rfl
      | some on => exact .inr ⟨on ++ " AND", by rw [String.append_assoc]; rfl⟩
    exact Criterion.runAll_starts_append hne hspace hnodup hk hbinds hlater hbefore hwritten first
      rest
  · -- A join without a condition is alone with the alias, so the criterion is the whole condition.
    let bare : Chain := { q with parts := [.join kind relation q.activeAlias] }
    have hbound : (Part.join kind relation q.activeAlias).binds bare.activeAlias = true := by
      simp [Part.binds, Part.join, Part.boundAlias?, Action.isJoin, bare]
    have hlast : bare.NoLaterOn 0 := by
      intro i part hi hpart
      rw [List.getElem?_eq_none (by exact hi)] at hpart
      cases hpart
    have honce : bare.joinedAliases.Nodup := by
      show [q.activeAlias].Nodup
      simp
    have hfirst : ∀ reference, (Part.join kind relation q.activeAlias).writeReference .and
        reference = .joinOn kind relation bare.activeAlias ("" ++ reference) := by
      intro reference
      rw [String.empty_append]
      rfl
    have halone := Criterion.runAll_starts_append (q := bare) (k := 0) hne hspace honce rfl hbound
      hlast (.inl rfl) hfirst c []
    rw [List.flatMap_nil, List.append_nil, Criterion.further, String.append_empty,
      String.empty_append] at halone
    exact halone

/-- On a join whose condition has a literal with a quote, a bracket and an `AND` in it, three more
criteria: a folded text, a list, and another property. -/
theorem Chain.criteria_behind_literal :
    ∃ q r : Chain,
      Step.runAll (β := Transcript)
        [.navigate .left .base (.name "orders"), .startCondition ⟨[], "x"⟩,
          .compare (.equal (.text "it's (1 AND 2")), .navigate .inner .base (.name "orders")]
        (Chain.start "e") = .ok q ∧
      q.mode = .join ∧
      Step.runAll (β := Transcript)
        [.startCondition ⟨[], "y"⟩, .compare (.equal (.text "O' OR 1=1)")),
          .continueCondition .or ⟨[], "z"⟩, .compare (.member true [.int32 1, .int32 2]),
          .continueCondition .and ⟨[], "w"⟩, .compare (.property .gt ⟨["v"]⟩ .folded)] q = .ok r ∧
      r.parts = [.joinOn .left "e.orders" "e_orders" ("LOWER(e_orders.x) = 'it''s (1 and 2'" ++
        " AND LOWER(e_orders.y) = 'o'' or 1=1)' OR e_orders.z NOT IN (1, 2)" ++
        " AND LOWER(e_orders.w) > LOWER(e_orders.v)")] := by
  obtain ⟨q, hq⟩ : ∃ q, Step.runAll (β := Transcript)
      [.navigate .left .base (.name "orders"), .startCondition ⟨[], "x"⟩,
        .compare (.equal (.text "it's (1 AND 2")), .navigate .inner .base (.name "orders")]
      (Chain.start "e") = .ok q := ⟨_, rfl⟩
  have hparts : q.mode = .join ∧ q.activeAlias = "e_orders" ∧ q.parts =
      [.joinOn .left "e.orders" "e_orders" "LOWER(e_orders.x) = 'it''s (1 and 2'"] := by
    cases hq
    decide +kernel
  obtain ⟨hmode, hactive, hparts⟩ := hparts
  have hlater : q.NoLaterOn 0 := by
    intro i part hi hpart
    rw [hparts, List.getElem?_eq_none (by exact hi)] at hpart
    cases hpart
  obtain ⟨kind, relation, on?, hshape, hruns, _⟩ := Chain.Reached.criteria_concatenated
    ((Reached.start "e").runAll hq) hmode (by rw [hactive]; decide) (k := 0)
    (by rw [hparts]; rfl) (by rw [hactive]; decide) hlater
  have hrun := hruns
    (.ofComparison .and "y" (by decide) (.equal (.text "O' OR 1=1)")))
    [.ofComparison .or "z" (by decide) (.member true [.int32 1, .int32 2]),
      .ofComparison .and "w" (by decide) (.property .gt ⟨["v"]⟩ .folded)]
  refine ⟨q, _, hq, hmode, hrun, ?_⟩
  rw [hactive] at hshape
  cases on? with
  | none => cases hshape
  | some on =>
    cases hshape
    cases hq
    decide +kernel

end DeferredQuery
