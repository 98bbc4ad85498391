import DeferredQuery.Proofs.Chain.Needed

/-!
# The joins of a path

A call that takes a path goes over its relations, each from the alias of the one before, and joins
those whose alias is not known. No two aliases on the way are the same, since each is longer than
the one before; so what is joined is told by the aliases that were known when the call was made, and
not by the order in which it goes.
-/

set_option autoImplicit false

namespace DeferredQuery

/-! ## Walks -/

namespace Chain

/-- The aliases on a walk are longer than the one where it starts. -/
theorem length_lt_of_mem_walkLinks {start : String} {relations : List String}
    {link : String × String} (h : link ∈ walkLinks start relations) :
    start.length < link.2.length := by
  have hlonger : ∀ parent relation : String, parent.length < (stepAlias parent relation).length := by
    intro parent relation
    have hglue : "_".length = 1 := rfl
    rw [stepAlias, String.length_append, String.length_append]
    omega
  induction relations generalizing start with
  | nil => cases h
  | cons relation rest ih =>
    rcases List.mem_cons.mp h with rfl | h
    · exact hlonger start relation
    · exact Nat.lt_trans (hlonger start relation) (ih h)

/-- **A walk leaves out the links whose alias was known at first.** None becomes known on the way,
for the aliases on a walk differ. -/
theorem firstLinks_walkLinks (known : List String) (start : String) (relations : List String) :
    firstLinks known (walkLinks start relations) =
      (walkLinks start relations).filter fun link => link.2 ∉ known := by
  induction relations generalizing known start with
  | nil => rfl
  | cons relation rest ih =>
    rw [walkLinks, firstLinks, List.filter_cons]
    by_cases hknown : (stepLink (start, relation)).2 ∈ known
    · rw [if_pos hknown, if_neg (by simpa using hknown)]
      exact ih known _
    · rw [if_neg hknown, if_pos (by simpa using hknown), ih]
      refine congrArg (List.cons _) (List.filter_congr fun link hlink => ?_)
      have hne : link.2 ≠ (stepLink (start, relation)).2 := by
        intro heq
        have hlonger := length_lt_of_mem_walkLinks hlink
        rw [heq] at hlonger
        exact Nat.lt_irrefl _ hlonger
      simp [hne]

theorem length_walkLinks (start : String) (relations : List String) :
    (walkLinks start relations).length = relations.length := by
  induction relations generalizing start with
  | nil => rfl
  | cons relation rest ih => exact congrArg (· + 1) (ih (stepAlias start relation))

end Chain

namespace Walk

/-- A link for each relation: the relation from the alias before it, and the alias for it. -/
def links (w : Walk) : List (String × String) := Chain.walkLinks w.start w.relations

/-- The links whose alias is not among the known ones. -/
def missing (known : List String) (w : Walk) : List (String × String) :=
  w.links.filter fun link => link.2 ∉ known

/-- The joins of the missing links. -/
def joins (known : List String) (w : Walk) : List Part :=
  (w.missing known).map fun link => .join w.kind link.1 link.2

theorem partsOver_eq (w : Walk) (q : Chain) :
    q.partsOver w.kind w.start w.relations = q.parts ++ w.joins q.history := by
  rw [joins, missing, links, ← Chain.firstLinks_walkLinks, ← Chain.missingSteps_eq, List.map_map]
  rfl

theorem historyOver_eq (w : Walk) (q : Chain) :
    q.historyOver w.start w.relations = q.history ++ (w.missing q.history).map (·.2) := by
  rw [missing, links, ← Chain.firstLinks_walkLinks, ← Chain.missingSteps_eq, List.map_map]
  rfl

/-- The aliases of the links and those that are known are what is known and what is missing. -/
theorem mem_append_missing_iff {known : List String} {w : Walk} {name : String} :
    name ∈ known ++ (w.missing known).map (·.2) ↔
      name ∈ known ∨ ∃ link ∈ w.links, link.2 = name := by
  rw [List.mem_append, List.mem_map]
  constructor
  · rintro (hknown | ⟨link, hlink, hname⟩)
    · exact .inl hknown
    · exact .inr ⟨link, List.mem_of_mem_filter hlink, hname⟩
  · rintro (hknown | ⟨link, hlink, rfl⟩)
    · exact .inl hknown
    · by_cases hknown : link.2 ∈ known
      · exact .inl hknown
      · exact .inr ⟨link, List.mem_filter.mpr ⟨hlink, by simpa using hknown⟩, rfl⟩

theorem length_joins_nil (w : Walk) : (w.joins []).length = w.relations.length := by
  rw [joins, missing, List.length_map, List.filter_eq_self.mpr (by simp), links,
    Chain.length_walkLinks]

theorem joins_eq_nil {known : List String} {w : Walk} (h : ∀ link ∈ w.links, link.2 ∈ known) :
    w.joins known = [] := by
  rw [joins, missing, List.filter_eq_nil_iff.mpr (by simpa using h), List.map_nil]

end Walk

/-! ## One segment at a time -/

namespace Step

variable {β : Type}

/-- The joins of the segments of a path one at a time: the first from where the path starts, and
each other from the active alias. -/
def oneByOne (kind : JoinKind) (anchor : Chain.Anchor) : List String → List (Step β)
  | [] => []
  | relation :: rest =>
    .navigate kind anchor (.name relation) ::
      rest.map fun relation => .navigate kind .active (.name relation)

variable [Builder β]

theorem step_activeAlias (kind : JoinKind) (parent relation : String) (q : Chain) :
    (q.step kind parent relation).activeAlias = Chain.stepAlias parent relation := by
  rw [Chain.step_eq]
  split <;> rfl

/-- Joins from the active alias one at a time are a walk from it. -/
theorem runAll_joins (kind : JoinKind) (relations : List String) (q : Chain) :
    runAll (relations.map fun relation => navigate (β := β) kind .active (.name relation)) q =
      .ok (q.walkFrom kind q.activeAlias relations) := by
  induction relations generalizing q with
  | nil => rfl
  | cons relation rest ih =>
    rw [Chain.walkFrom, ← step_activeAlias kind q.activeAlias relation q]
    exact ih (q.step kind q.activeAlias relation)

/-- A path joined at once is joined as its segments are, one at a time. -/
theorem run_route_eq_runAll_oneByOne (kind : JoinKind) (anchor : Chain.Anchor)
    (segments : List String) (q : Chain) :
    (navigate (β := β) kind anchor (.route ⟨segments⟩)).run q =
      runAll (oneByOne (β := β) kind anchor segments) q := by
  cases segments with
  | nil => rfl
  | cons relation rest =>
    have hrest := runAll_joins (β := β) kind rest (q.step kind (q.anchorAlias anchor) relation)
    rw [step_activeAlias] at hrest
    exact hrest.symm

end Step

/-! ## What has been gone over before -/

/-- A call before this point of a run has gone over the link: on this chain, in a group of it that
has been merged, or on the chain around it. -/
inductive Chain.Traversed (β : Type) [Builder β] (link : String × String) : Chain → Prop
  | here {step : Step β} {w : Walk} {q r : Chain} (hwalk : step.walk? q = some w)
    (hlink : link ∈ w.links) (hrun : step.run q = .ok r) : Traversed β link r
  | later {q r : Chain} (step : Step β) (h : Traversed β link q) (hrun : step.run q = .ok r) :
    Traversed β link r
  | inside {q : Chain} (h : Traversed β link q) : Traversed β link q.scope
  | outside {kind : ConditionKind} {q scope r : Chain} (h : Traversed β link scope)
    (hmerge : q.merge kind scope = .ok r) : Traversed β link r

/-- What has been gone over stays known. -/
theorem Chain.Traversed.mem_history {β : Type} [Builder β] {link : String × String} {q : Chain}
    (h : Traversed β link q) : link.2 ∈ q.history := by
  induction h with
  | here hwalk hlink hrun =>
    rw [(Step.walked_of_run hwalk hrun).1, Walk.historyOver_eq]
    exact Walk.mem_append_missing_iff.mpr (.inr ⟨link, hlink, rfl⟩)
  | later step _ hrun ih =>
    obtain ⟨names, hhistory, _⟩ := ((Chain.Grew.kept β).run step hrun).joined
    rw [hhistory]
    exact List.mem_append_left _ ih
  | inside _ ih => exact ih
  | outside _ hmerge ih =>
    obtain ⟨_, _, _, rfl⟩ := Chain.merge_of_ok hmerge
    exact ih

/-- **A call joins exactly what is missing of its path.** A call that walks, and succeeds, joins the
relations of its walk whose alias was not known, in their order, and makes their aliases known; the
property that it writes is that of the alias at the end. Where nothing is known it makes a join for
each relation, and where all has been gone over before, at any earlier point of the run, it makes
none. A path that is joined at once leaves the chain as its segments joined one at a time do. -/
theorem Step.joins_exactly_what_is_missing {β : Type} [Builder β] (q : Chain) :
    (∀ (step : Step β) (w : Walk) (r : Chain), step.walk? q = some w → step.run q = .ok r →
      r.history = q.history ++ (w.missing q.history).map (·.2) ∧
      (∀ name, name ∈ r.history ↔ name ∈ q.history ∨ ∃ link ∈ w.links, link.2 = name) ∧
      step.WritesBehind (q.parts ++ w.joins q.history) w.stop r ∧
      (q.history = [] → (w.joins q.history).length = w.relations.length) ∧
      ((∀ link ∈ w.links, Chain.Traversed β link q) → w.joins q.history = [])) ∧
    ∀ (kind : JoinKind) (anchor : Chain.Anchor) (segments : List String),
      (navigate (β := β) kind anchor (.route ⟨segments⟩)).run q =
        runAll (oneByOne (β := β) kind anchor segments) q := by
  refine ⟨?_, fun kind anchor segments => run_route_eq_runAll_oneByOne kind anchor segments q⟩
  intro step w r hwalk hrun
  obtain ⟨hhistory, hwrites⟩ := walked_of_run hwalk hrun
  rw [Walk.historyOver_eq] at hhistory
  rw [Walk.partsOver_eq] at hwrites
  refine ⟨hhistory, fun name => ?_, hwrites, fun hfresh => ?_, fun hbefore => ?_⟩
  · rw [hhistory]
    exact Walk.mem_append_missing_iff
  · rw [hfresh]
    exact w.length_joins_nil
  · apply Walk.joins_eq_nil
    intro link hlink
    exact (hbefore link hlink).mem_history

/-- A condition joined by `OR` whose path has been joined as far as its first relation makes the
other join, a left one; an ordering in a group then goes over the whole path and joins nothing. -/
theorem Step.joins_of_half_joined_path :
    let alternative : Step Transcript := .continueCondition .or ⟨["orders", "items"], "price"⟩
    let ordering : Step Transcript := .orderBy .start .ascending none ⟨["orders", "items"], "name"⟩
    ∃ q r s : Chain,
      runAll (β := Transcript) [.navigate .inner .base (.name "orders"), .reset]
        (Chain.start "e") = .ok q ∧
      alternative.run q = .ok r ∧
      r.parts = [.join .inner "e.orders" "e_orders", .join .left "e_orders.items" "e_orders_items",
        .condition .or "e_orders_items.price"] ∧
      r.history = ["e_orders", "e_orders_items"] ∧
      ordering.run r.scope = .ok s ∧
      s.parts = [.order .start "e_orders_items.name" .ascending none] := by
  intro alternative ordering
  obtain ⟨q, hq⟩ : ∃ q, runAll (β := Transcript)
      [.navigate .inner .base (.name "orders"), .reset] (Chain.start "e") = .ok q := ⟨_, rfl⟩
  obtain ⟨r, hr⟩ : ∃ r, alternative.run q = .ok r := ⟨_, rfl⟩
  obtain ⟨s, hs⟩ : ∃ s, ordering.run r.scope = .ok s := ⟨_, rfl⟩
  let path : Walk := ⟨.left, "e", ["orders", "items"]⟩
  have hpath : alternative.walk? q = some path := by
    cases hq
    rfl
  obtain ⟨hhistory, _, _, _, _⟩ := (joins_exactly_what_is_missing q).1 alternative path r hpath hr
  have hbefore : ∀ link ∈ path.links, Chain.Traversed Transcript link r.scope := by
    intro link hlink
    exact .inside (.here hpath hlink hr)
  obtain ⟨_, _, hwrites, _, hnone⟩ := (joins_exactly_what_is_missing r.scope).1 ordering
    ⟨.inner, "e", ["orders", "items"]⟩ s (by cases hq; cases hr; rfl) hs
  rw [hnone hbefore] at hwrites
  dsimp only [ordering] at hwrites
  refine ⟨q, r, s, hq, hr, ?_, ?_, hs, ?_⟩
  · cases hq
    cases hr
    rfl
  · rw [hhistory]
    cases hq
    rfl
  · cases hwrites with
    | order hparts => exact hparts

end DeferredQuery
