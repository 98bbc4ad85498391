import DeferredQuery.Chain
import DeferredQuery.Chain.Scope
import Mathlib.Data.List.Forall2

/-!
# What parts ask for

A part asks a builder for one call. `Asks` says which, from the arguments alone: it lists the shapes
that a part may have, and arguments behind those of its action do not count. Parts of these shapes
are replayed to the end, each as its call. `Recorded` lists the shapes that a chain gives to the
parts that it records; they are among them.
-/

set_option autoImplicit false

namespace DeferredQuery

namespace Part

/-- The part has the arguments of its action, and this is the call that they make. -/
inductive Asks : Part → Call → Prop
  | condition (kind : ConditionKind) (text : String) (more : List Argument) :
    Asks ⟨.condition kind, .text text :: more⟩ (.condition kind text)
  | join (kind : JoinKind) (relation name : String) :
    Asks ⟨.join kind, [.text relation, .text name]⟩ (.join kind relation name none)
  | joinOn (kind : JoinKind) (relation name on : String) (more : List Argument) :
    Asks ⟨.join kind, .text relation :: .text name :: .text on :: more⟩
      (.join kind relation name (some on))
  | select (column : String) (more : List Argument) :
    Asks ⟨.select, .text column :: more⟩ (.select column)
  | order (kind : OrderKind) (column : String) (direction : SortDirection) :
    Asks ⟨.order kind, [.text column, .direction direction]⟩ (.order kind column direction none)
  | orderNulls (kind : OrderKind) (column : String) (direction : SortDirection) (nulls : NullsOrder)
    (more : List Argument) :
    Asks ⟨.order kind, .text column :: .direction direction :: .nulls nulls :: more⟩
      (.order kind column direction (some nulls))
  | skip (count : Nat) (more : List Argument) : Asks ⟨.skip, .count count :: more⟩ (.skip count)
  | take (count : Nat) (more : List Argument) : Asks ⟨.take, .count count :: more⟩ (.take count)

theorem Asks.call_eq {p : Part} {call : Call} (h : p.Asks call) : p.call = .ok call := by
  cases h <;> rfl

/-- The parts that a chain records: a condition is one text, a join has two or three, an ordering
may say where the nulls go, and bounds are not zero. -/
inductive Recorded : Part → Prop
  | condition (kind : ConditionKind) (text : String) : Recorded (.condition kind text)
  | join (kind : JoinKind) (relation name : String) : Recorded (.join kind relation name)
  | joinOn (kind : JoinKind) (relation name on : String) : Recorded (.joinOn kind relation name on)
  | order (kind : OrderKind) (column : String) (direction : SortDirection)
    (nulls : Option NullsOrder) : Recorded (.order kind column direction nulls)
  | skip {count : Nat} (h : 0 < count) : Recorded (.skip count)
  | take {count : Nat} (h : 0 < count) : Recorded (.take count)

namespace Recorded

theorem asks {p : Part} (h : p.Recorded) : ∃ call, p.Asks call := by
  cases h with
  | condition kind text => exact ⟨_, .condition kind text []⟩
  | join kind relation name => exact ⟨_, .join kind relation name⟩
  | joinOn kind relation name on => exact ⟨_, .joinOn kind relation name on []⟩
  | order kind column direction nulls =>
    cases nulls with
    | none => exact ⟨_, .order kind column direction⟩
    | some nulls => exact ⟨_, .orderNulls kind column direction nulls []⟩
  | skip h => exact ⟨_, .skip _ []⟩
  | take h => exact ⟨_, .take _ []⟩

theorem action_ne_select {p : Part} (h : p.Recorded) : p.action ≠ .select := by
  cases h <;> nofun

theorem of_isCondition {p : Part} (h : p.Recorded) (hp : p.action.isCondition = true) :
    ∃ kind text, p = .condition kind text := by
  cases h with
  | condition kind text => exact ⟨kind, text, rfl⟩
  | _ => cases hp

theorem of_isJoin {p : Part} (h : p.Recorded) (hp : p.action.isJoin = true) :
    ∃ kind relation name,
      p = .join kind relation name ∨ ∃ on, p = .joinOn kind relation name on := by
  cases h with
  | join kind relation name => exact ⟨kind, relation, name, .inl rfl⟩
  | joinOn kind relation name on => exact ⟨kind, relation, name, .inr ⟨on, rfl⟩⟩
  | _ => cases hp

end Recorded

end Part

/-- Parts that ask for calls are replayed to the end: the builder receives those calls. -/
theorem replay_of_asks {β : Type} [Builder β] {parts : List Part} {calls : List Call}
    (h : List.Forall₂ Part.Asks parts calls) (builder : β) :
    replay parts builder = ⟨Builder.receiveAll calls builder, none⟩ := by
  induction h generalizing builder with
  | nil => rfl
  | cons hp _ ih =>
    rw [replay, hp.call_eq]
    exact ih _

theorem exists_calls {parts : List Part} (h : ∀ p ∈ parts, p.Recorded) :
    ∃ calls, List.Forall₂ Part.Asks parts calls := by
  induction parts with
  | nil => exact ⟨[], .nil⟩
  | cons p rest ih =>
    rw [List.forall_mem_cons] at h
    obtain ⟨call, hcall⟩ := h.1.asks
    obtain ⟨calls, hcalls⟩ := ih h.2
    exact ⟨call :: calls, .cons hcall hcalls⟩

/-- The part of a condition, and how it is joined to the conditions before it. -/
def Part.ofCondition (c : ConditionKind × String) : Part := .condition c.1 c.2

/-- Conditions are taken to the end by what takes conditions, each as itself. -/
theorem replayConditions_ofCondition {β : Type} [ConditionSink β]
    (conditions : List (ConditionKind × String)) (sink : β) :
    replayConditions (conditions.map Part.ofCondition) sink =
      ⟨conditions.foldl (fun sink c => ConditionSink.addCondition c.1 c.2 sink) sink, none⟩ := by
  induction conditions generalizing sink with
  | nil => rfl
  | cons c rest ih => exact ih _

theorem exists_conditions {parts : List Part} (h : ∀ p ∈ parts, p.Recorded)
    (hparts : ∀ p ∈ parts, p.action.isCondition = true) :
    ∃ conditions : List (ConditionKind × String), parts = conditions.map Part.ofCondition := by
  induction parts with
  | nil => exact ⟨[], rfl⟩
  | cons p rest ih =>
    rw [List.forall_mem_cons] at h hparts
    obtain ⟨kind, text, rfl⟩ := h.1.of_isCondition hparts.1
    obtain ⟨conditions, rfl⟩ := ih h.2 hparts.2
    exact ⟨(kind, text) :: conditions, rfl⟩

/-- The condition parts of a chain whose parts are recorded are those of conditions. -/
theorem Chain.exists_conditionParts {q : Chain} (h : ∀ p ∈ q.parts, p.Recorded) :
    ∃ conditions : List (ConditionKind × String),
      q.conditionParts = conditions.map Part.ofCondition :=
  exists_conditions (fun p hp => h p (List.mem_of_mem_filter hp))
    fun _ hp => (List.mem_filter.mp hp).2

/-- A scope whose parts are recorded can be made one condition. -/
theorem Chain.exists_groupPart? {scope : Chain} (kind : ConditionKind)
    (h : ∀ p ∈ scope.parts, p.Recorded) : ∃ group, scope.groupPart? kind = .ok group := by
  unfold groupPart?
  split
  · exact ⟨none, rfl⟩
  · obtain ⟨conditions, hconditions⟩ := Chain.exists_conditionParts h
    rw [hconditions, replayConditions_ofCondition]
    exact ⟨_, rfl⟩

end DeferredQuery
