import DeferredQuery.Proofs.Chain.Completion
import DeferredQuery.Proofs.Operand.Rendering
import DeferredQuery.Repository

/-!
# Calls that differ in the texts of operands

Two runs are compared whose calls are the same, but for the texts that operands hold and for the
text of a key. This module says what may differ (`SameButText`, `SameButKey`), which texts are names and
stand in a statement as they are (`Unquoted`), and what it is for two calls to end alike
(`SameOutcome`).
-/

set_option autoImplicit false

namespace DeferredQuery

open Text

/-- Both fail with the same error, or both succeed with values that are related. -/
inductive SameOutcome {α β : Type} (R : α → β → Prop) : Except Error α → Except Error β → Prop
  | ok {a : α} {b : β} (h : R a b) : SameOutcome R (.ok a) (.ok b)
  | error (e : Error) : SameOutcome R (.error e) (.error e)

theorem SameOutcome.imp {α β : Type} {R S : α → β → Prop} {x : Except Error α} {y : Except Error β}
    (h : SameOutcome R x y) (hRS : ∀ a b, R a b → S a b) : SameOutcome S x y := by
  cases h with
  | ok h => exact .ok (hRS _ _ h)
  | error e => exact .error e

/-! ## What may differ -/

/-- The same comparison, but for the texts of its operands. -/
inductive Comparison.SameButText : Comparison → Comparison → Prop
  | literal (operator : Operator) (pattern : Pattern) (matching : CaseMatching) {a b : Operand}
    (h : a.SameButText b) :
    SameButText (.literal operator pattern a matching) (.literal operator pattern b matching)
  | null (negated : Bool) : SameButText (.null negated) (.null negated)
  | member (negated : Bool) {l m : List Operand} (h : List.Forall₂ Operand.SameButText l m) :
    SameButText (.member negated l) (.member negated m)
  | property (operator : Operator) (route : Route) (matching : CaseMatching) :
    SameButText (.property operator route matching) (.property operator route matching)

/-- The same builder, or those of two queries that a repository gives for keys that differ in their
text. -/
inductive Statement.SameButKey : Statement → Statement → Prop
  | same (s : Statement) : SameButKey s s
  | byId {schema : Schema} {entity : String} {options : Options} {r : Repository} {a b : Operand}
    (hmake : Repository.make schema entity options = .ok r) (h : a.SameButText b) :
    SameButKey (r.byId a).builder (r.byId b).builder

/-- The calls that hold neither an operand nor other calls. -/
def Step.isPlain {β : Type} : Step β → Bool
  | .compare _ | .group _ _ | .subquery _ _ _ => false
  | _ => true

mutual

/-- The same call, but for the texts of operands and keys. -/
inductive Step.SameButText : Step Statement → Step Statement → Prop
  | plain {step : Step Statement} (h : step.isPlain = true) : SameButText step step
  | compare {c d : Comparison} (h : c.SameButText d) : SameButText (.compare c) (.compare d)
  | group (kind : ConditionKind) {steps others : List (Step Statement)}
    (h : AllSameButText steps others) : SameButText (.group kind steps) (.group kind others)
  | subquery (negated : Bool) {builder other : Statement} {steps others : List (Step Statement)}
    (hbuilder : builder.SameButKey other) (h : AllSameButText steps others) :
    SameButText (.subquery negated builder steps) (.subquery negated other others)

inductive Step.AllSameButText : List (Step Statement) → List (Step Statement) → Prop
  | nil : AllSameButText [] []
  | cons {step other : Step Statement} {steps others : List (Step Statement)}
    (h : SameButText step other) (hs : AllSameButText steps others) :
    AllSameButText (step :: steps) (other :: others)

end

/-! ## When conditions are started -/

mutual

/-- The call starts conditions only where none is waited for and no join is open, in its groups and
subqueries too. -/
def Step.StartsFresh {β : Type} [Builder β] : Step β → Chain → Prop
  | .startCondition _, q => q.mode = .get
  | .group _ steps, q => AllStartFresh steps q.scope
  | .subquery _ builder steps, _ => AllStartFresh steps (Chain.start (Builder.baseAlias builder))
  | _, _ => True

/-- So do all calls of a list, each on the chain that the calls before it have reached. -/
def Step.AllStartFresh {β : Type} [Builder β] : List (Step β) → Chain → Prop
  | [], _ => True
  | step :: rest, q =>
    step.StartsFresh q ∧ ∀ next, step.run q = .ok next → AllStartFresh rest next

end

/-! ## Names -/

/-- The segments of a path hold no quotes. -/
def Path.Unquoted (path : Path) : Prop := ∀ segment ∈ path.segments, QuoteFree segment

/-- The operator and the property that a comparison names hold no quotes. -/
def Comparison.Unquoted : Comparison → Prop
  | .literal operator _ _ _ => QuoteFree operator.text
  | .null _ | .member _ _ => True
  | .property operator route _ =>
    QuoteFree operator.text ∧ ∀ segment ∈ route.segments, QuoteFree segment

/-- What a statement takes from an entity holds no quotes. -/
structure Entity.Unquoted (e : Entity) : Prop where
  table : QuoteFree e.table
  primaryKey : QuoteFree e.primaryKey
  foreignKeys : ∀ entry ∈ e.relations.entries, QuoteFree entry.2.foreignKey

/-- The names that a statement holds have no quotes. -/
structure Statement.PlainNames (s : Statement) : Prop where
  entities : ∀ entry ∈ s.schema.entities.entries, entry.2.Unquoted
  baseAlias : QuoteFree s.baseAlias
  joins : ∀ j ∈ s.joins, QuoteFree j.relation ∧ QuoteFree j.name ∧ ∀ on ∈ j.condition, QuoteFree on
  selection : ∀ column ∈ s.selection, QuoteFree column
  orders : ∀ order ∈ s.orders, QuoteFree order

/-- The names that a statement holds have no quotes, and the literals of its conditions are closed:
a text whose literals are closed is alike to itself. -/
structure Statement.Unquoted (s : Statement) : Prop extends s.PlainNames where
  conditions : ∀ entry ∈ s.conditions.conditions, Alike entry.2 entry.2
  baseFilter : ∀ filter ∈ s.baseFilter, Alike filter filter

mutual

/-- The names and operators of a call hold no quotes. -/
def Step.Unquoted : Step Statement → Prop
  | .startCondition path | .continueCondition _ path | .select path | .orderBy _ _ _ path =>
    path.Unquoted
  | .compare comparison => comparison.Unquoted
  | .skip _ | .take _ | .reset | .useBase => True
  | .navigate _ _ target => ∀ relation ∈ target.relations, QuoteFree relation
  | .joinEntity entity => QuoteFree entity
  | .group _ steps => AllUnquoted steps
  | .subquery _ builder steps => builder.Unquoted ∧ AllUnquoted steps

def Step.AllUnquoted : List (Step Statement) → Prop
  | [] => True
  | step :: rest => step.Unquoted ∧ AllUnquoted rest

end

/-! ## What comparisons write -/

/-- A pattern quotes both operands, or neither, and then they are the same and no texts. -/
theorem Pattern.text?_of_sameButText {a b : Operand} (pattern : Pattern) (h : a.SameButText b) :
    (∃ s t, pattern.text? a = some s ∧ pattern.text? b = some t) ∨
      a = b ∧ pattern.text? a = none ∧ a.render = a.renderMember := by
  cases pattern with
  | whole =>
    cases h with
    | text s t => exact .inl ⟨s, t, rfl, rfl⟩
    | same =>
      cases a with
      | text s => exact .inl ⟨s, s, rfl, rfl⟩
      | _ => exact .inr ⟨rfl, rfl, rfl⟩
  | beginning => exact .inl ⟨_, _, rfl, rfl⟩
  | anywhere => exact .inl ⟨_, _, rfl, rfl⟩
  | ending => exact .inl ⟨_, _, rfl, rfl⟩

theorem Comparison.Unquoted.operator {c : Comparison} (h : c.Unquoted) :
    QuoteFree c.operator.text := by
  cases c with
  | literal operator pattern operand matching => exact h
  | null negated => exact (by decide : QuoteFree Operator.is.text)
  | member negated operands =>
    simp only [Comparison.operator]
    cases negated <;> decide
  | property operator route matching => exact h.1

namespace Comparison.SameButText

variable {c d : Comparison}

theorem operator_eq (h : c.SameButText d) : c.operator = d.operator := by
  cases h <;> rfl

theorem foldsReference_eq (h : c.SameButText d) : c.foldsReference = d.foldsReference := by
  cases h with
  | literal operator pattern matching h =>
    rcases pattern.text?_of_sameButText h with ⟨s, t, hs, ht⟩ | ⟨rfl, _⟩
    · simp only [foldsReference, hs, ht, Option.isSome_some]
    · rfl
  | null negated => rfl
  | member negated h => rfl
  | property operator route matching => rfl

/-- **Operands that differ in their texts are literals in the same places.** -/
theorem operand_alike (h : c.SameButText d) (hc : c.Unquoted) {name : String}
    (hname : QuoteFree name) : Alike (c.operand name) (d.operand name) := by
  cases h with
  | literal operator pattern matching h =>
    rcases pattern.text?_of_sameButText h with ⟨s, t, hs, ht⟩ | ⟨rfl, hnone, hrender⟩
    · simp only [operand, hs, ht]
      split
      · exact .quote s t
      · rw [lowercase_quote, lowercase_quote]
        exact .quote _ _
    · simp only [operand, hnone, hrender]
      exact Operand.alike_renderMember_self _
  | null negated =>
    simp only [operand]
    cases negated <;> exact .of_quoteFree (by decide)
  | member negated h => exact Operand.renderList_alike h
  | property operator route matching =>
    have hroute : QuoteFree route.text := quoteFree_intercalate (by decide) hc.2
    apply Alike.of_quoteFree
    simp only [operand, Keyword.lowered]
    split <;> simp +decide [hname, hroute]

end Comparison.SameButText

end DeferredQuery
