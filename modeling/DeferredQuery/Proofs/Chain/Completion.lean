import DeferredQuery.Chain.Step
import DeferredQuery.Proofs.Chain.Opening

/-!
# What a comparison writes

A comparison takes the text at the end of one part, leaves what stands before its newest reference,
and writes the operator and the operand behind it. So it needs no more than that a part waits whose
last argument is a text, and it changes that argument only.
-/

set_option autoImplicit false

namespace DeferredQuery

namespace Part

@[simp] theorem popText_pushText (p : Part) (text : String) :
    (p.pushText text).popText = .ok (text, p) := by
  simp [popText, pushText]

theorem eq_of_pushText {p : Part} {text : String} {action : Action} (front : List Argument)
    {last : Argument} (h : p.pushText text = ⟨action, front ++ [last]⟩) : p = ⟨action, front⟩ := by
  obtain ⟨_, arguments⟩ := p
  simp only [pushText, mk.injEq] at h
  obtain ⟨rfl, harguments⟩ := h
  rw [(List.append_inj' harguments rfl).1]

theorem pushText_of_popText {p rest : Part} {text : String} (h : p.popText = .ok (text, rest)) :
    rest.pushText text = p := by
  unfold popText at h
  split at h
  · rename_i value hlast
    cases h
    obtain ⟨front, hfront⟩ := List.getLast?_eq_some_iff.mp hlast
    obtain ⟨action, arguments⟩ := p
    obtain rfl : arguments = front ++ [.text text] := hfront
    simp [pushText]
  · cases h

end Part

/-! ## The text -/

namespace Chain

theorem splitReference_append (condition : String) :
    (splitReference condition).1 ++ (splitReference condition).2 = condition := by
  unfold splitReference
  split
  · simp
  · rename_i before after h
    obtain ⟨h, _⟩ := Text.splitLast?_some h
    rw [← String.toList_inj]
    simp [h]

theorem splitReference_of_no_space {condition : String} (h : ' ' ∉ condition.toList) :
    splitReference condition = ("", condition) := by
  simp [splitReference, Text.splitLast?_eq_none_iff.mpr h]

/-- A reference without spaces that stands behind nothing or a space is the newest one. -/
theorem splitReference_of_ends {before reference : String}
    (hbefore : before = "" ∨ ∃ old, before = old ++ " ") (h : ' ' ∉ reference.toList) :
    splitReference (before ++ reference) = (before, reference) := by
  rcases hbefore with rfl | ⟨old, rfl⟩
  · rw [String.empty_append]
    exact splitReference_of_no_space h
  · have hspace : (old ++ " " ++ reference).toList = old.toList ++ ' ' :: reference.toList := by
      simp
    rw [splitReference, hspace, Text.splitLast?_append h]
    simp

theorem completeText_of_ends {operator : Operator} {comparand : Comparand}
    {before reference : String} (hbefore : before = "" ∨ ∃ old, before = old ++ " ")
    (h : ' ' ∉ reference.toList) :
    completeText operator comparand (before ++ reference) =
      before ++ (if comparand.foldsReference then Keyword.lowered reference else reference) ++ " " ++
        operator.text ++ " " ++ comparand.text := by
  simp [completeText, splitReference_of_ends hbefore h]

theorem completeText_of_no_space {operator : Operator} {comparand : Comparand} {reference : String}
    (h : ' ' ∉ reference.toList) :
    completeText operator comparand reference =
      (if comparand.foldsReference then Keyword.lowered reference else reference) ++ " " ++
        operator.text ++ " " ++ comparand.text := by
  simp [completeText, splitReference_of_no_space h]

theorem length_lt_length_completeText (operator : Operator) (comparand : Comparand)
    (condition : String) :
    condition.length < (completeText operator comparand condition).length := by
  have hsplit := congrArg String.length (splitReference_append condition)
  rw [String.length_append] at hsplit
  unfold completeText
  split
  · rename_i first newest h
    rw [h] at hsplit
    dsimp only at hsplit
    -- Whatever the operator and the operand are, spaces are written before and behind the operator.
    have hspace : (" " : String).length = 1 := rfl
    split <;> simp only [Keyword.lowered, String.length_append, hspace] <;> omega

theorem completeText_ne (operator : Operator) (comparand : Comparand) (condition : String) :
    completeText operator comparand condition ≠ condition := fun h => by
  have := length_lt_length_completeText operator comparand condition
  rw [h] at this
  omega

/-! ## The part -/

/-- **A comparison rewrites the last argument of the part that waits**, and leaves everything else
as it is. -/
theorem complete_of_pending {operator : Operator} {comparand : Comparand} {q : Chain} {index : Nat}
    {part : Part} {text : String} (hmode : q.mode = .compare)
    (hpending : q.pending? = some (index, part.pushText text)) :
    q.complete operator comparand = .ok
      { q with
        mode := .get
        parts := q.parts.set index (part.pushText (completeText operator comparand text)) } := by
  simp [complete, hmode, hpending, setPart, withMode]

theorem pending?_some {q : Chain} {index : Nat} {part : Part}
    (h : q.pending? = some (index, part)) :
    q.parts[index]? = some part ∧
      (part.action.isCondition = true ∨ part.hasJoinCondition = true) := by
  unfold pending? at h
  split at h
  · obtain ⟨hindex, hcondition, _⟩ := findLast?_some h
    exact ⟨hindex, .inl hcondition⟩
  · obtain ⟨hindex, hjoin, _⟩ := findLast?_some h
    exact ⟨hindex, .inr hjoin⟩

theorem complete_of_ok {operator : Operator} {comparand : Comparand} {q r : Chain}
    (h : q.complete operator comparand = .ok r) :
    q.mode = .compare ∧ ∃ index, ∃ part : Part, ∃ text,
      q.pending? = some (index, part.pushText text) ∧ r =
      { q with
        mode := .get
        parts := q.parts.set index
          (part.pushText (completeText operator comparand text)) } := by
  unfold complete at h
  by_cases hmode : q.mode = .compare
  · rw [if_pos hmode] at h
    split at h
    · split at h <;> cases h
    · rename_i index found hpending
      split at h
      · cases h
      · rename_i text part hpop
        cases h
        rw [← Part.pushText_of_popText hpop] at hpending
        exact ⟨hmode, index, part, text, hpending, rfl⟩
  · rw [if_neg hmode] at h
    cases h

theorem complete_of_ne {operator : Operator} {comparand : Comparand} {q : Chain}
    (hmode : q.mode ≠ .compare) :
    q.complete operator comparand = .error (.invalidConditional .nothingAwaiting) := by
  simp [complete, hmode]

end Chain

/-! ## The calls -/

namespace Comparison

/-- The operator that a comparison writes. -/
def operator : Comparison → Operator
  | .literal operator _ _ _ => operator
  | .null _ => .is
  | .member negated _ => Chain.memberOperator negated
  | .property operator _ _ => operator

/-- The operand that a comparison writes when an alias is active. -/
def operand (name : String) : Comparison → String
  | .literal _ pattern operand matching =>
    match pattern.text? operand with
    | none => operand.render
    | some text =>
      if matching = .exact then Text.quote text else Text.lowercase (Text.quote text)
  | .null negated => if negated then Keyword.notNull else Keyword.null
  | .member _ operands => Operand.renderList operands
  | .property _ route matching =>
    if matching = .folded then Keyword.lowered (name ++ "." ++ route.text)
    else name ++ "." ++ route.text

/-- Whether the reference is folded: before a quoted text whose case does not matter, and before
another property whose case was said not to matter. -/
def foldsReference : Comparison → Bool
  | .literal _ pattern operand matching => (pattern.text? operand).isSome && matching != .exact
  | .property _ _ matching => matching == .folded
  | _ => false

end Comparison

namespace Chain

/-- Every comparison is the completion with its operator and operand. -/
theorem compare_eq (comparison : Comparison) (q : Chain) :
    q.compare comparison = q.complete comparison.operator
      ⟨comparison.operand q.activeAlias, comparison.foldsReference⟩ := by
  cases comparison with
  | literal operator pattern operand matching =>
    simp only [compare, Comparand.literal, Comparison.operator, Comparison.operand,
      Comparison.foldsReference]
    cases pattern.text? operand with
    | none => rfl
    | some text => cases matching <;> rfl
  | null negated => rfl
  | member negated operands => rfl
  | property operator route matching => cases matching <;> rfl

end Chain

namespace Step

variable {β : Type} [Builder β]

/-- The calls that complete an open condition. -/
def compares : Step β → Bool
  | .compare _ | .subquery _ _ _ => true
  | _ => false

/-- The operator, the operand and the folding that a comparing call writes when an alias is active.
A subquery writes its text, if its own calls succeed and it renders. -/
inductive Writes (name : String) : Step β → Operator → String → Bool → Prop
  | comparison (c : Comparison) :
    Writes name (.compare c) c.operator (c.operand name) c.foldsReference
  | subquery {negated : Bool} {builder : β} {steps : List (Step β)} {inner : Chain} {text : String}
    (hrun : runAll steps (Chain.start (Builder.baseAlias builder)) = .ok inner)
    (htext : (Query.mk builder inner .many).subqueryText = .ok text) :
    Writes name (.subquery negated builder steps) (Chain.memberOperator negated)
      ("(" ++ text ++ ")") false

theorem run_of_writes {comparison : Step β} {operator : Operator} {operand : String} {folds : Bool}
    {q : Chain} (h : comparison.Writes q.activeAlias operator operand folds) :
    comparison.run q = q.complete operator ⟨operand, folds⟩ := by
  cases h with
  | comparison c => simp only [run, Chain.compare_eq]
  | subquery hrun htext =>
    simp only [run, hrun, htext]
    rfl

theorem writes_of_run {comparison : Step β} {q r : Chain} (hstep : comparison.compares = true)
    (h : comparison.run q = .ok r) :
    ∃ operator operand folds, comparison.Writes q.activeAlias operator operand folds := by
  cases comparison <;> simp only [compares, Bool.false_eq_true] at hstep
  case compare c => exact ⟨_, _, _, .comparison c⟩
  case subquery negated builder steps =>
    simp only [run] at h
    split at h
    · rename_i inner hrun
      split at h
      · rename_i text htext
        exact ⟨_, _, _, .subquery hrun htext⟩
      · cases h
    · cases h

theorem completed_of_run {comparison : Step β} {q r : Chain} (hstep : comparison.compares = true)
    (h : comparison.run q = .ok r) :
    ∃ index, ∃ part : Part, ∃ text completed, q.pending? = some (index, part.pushText text) ∧ r =
      { q with mode := .get, parts := q.parts.set index (part.pushText completed) } := by
  obtain ⟨operator, operand, folds, hwrites⟩ := writes_of_run hstep h
  rw [run_of_writes hwrites] at h
  obtain ⟨_, index, part, text, hpending, rfl⟩ := Chain.complete_of_ok h
  exact ⟨index, part, text, _, hpending, rfl⟩

end Step

end DeferredQuery
