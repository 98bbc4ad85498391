import DeferredQuery.Proofs.Chain.Reached
import DeferredQuery.Proofs.Operand.Rendering

/-!
# Conditions are balanced

Where names are plain identifiers and operators are the usual ones, every condition of a chain is a
balanced text: a reference, a reference with its comparison, or a group of such. What makes it go
through a comparison is that a condition that waits for one is a reference and nothing else, so
whatever is compared in it stands alone. Conditions of joins are not looked at; a comparison that
meets the wrong join can divide a literal of it.
-/

set_option autoImplicit false

namespace DeferredQuery

open Text

/-! ## Plain calls -/

/-- The operators that have names. -/
def Operator.builtIn : List Operator :=
  [.eq, .ne, .gt, .ge, .lt, .le, .like, .isIn, .notIn, .is]

/-- The comparison has an operator that has a name, and names properties by identifiers. -/
def Comparison.Plain : Comparison → Prop
  | .literal operator _ _ _ => operator ∈ Operator.builtIn
  | .null _ | .member _ _ => True
  | .property operator route _ =>
    operator ∈ Operator.builtIn ∧ ∀ segment ∈ route.segments, Path.isSegment segment = true

/-- The call names properties, relations and entities by identifiers, compares plainly, and has no
subquery. -/
def Step.Plain {β : Type} : Step β → Prop
  | .startCondition path | .continueCondition _ path | .select path | .orderBy _ _ _ path =>
    ∀ segment ∈ path.segments, Path.isSegment segment = true
  | .compare comparison => comparison.Plain
  | .navigate _ _ target => ∀ relation ∈ target.relations, Path.isSegment relation = true
  | .joinEntity entity => Path.isSegment entity = true
  | .subquery _ _ _ => False
  | .group _ _ | .skip _ | .take _ | .reset | .useBase => True

theorem Operator.flat_of_builtIn {operator : Operator} (h : operator ∈ builtIn) :
    Flat operator.text := by
  have hall : ∀ operator ∈ builtIn, Flat operator.text := by decide
  exact hall operator h

theorem Step.isSegment_of_mem_joinNames {β : Type} {step : Step β} (h : step.Plain) :
    ∀ name ∈ step.joinNames, Path.isSegment name = true := by
  intro name hname
  cases step with
  | startCondition path | continueCondition _ path | select path | orderBy _ _ _ path =>
    exact h name (List.mem_append_left _ hname)
  | navigate kind anchor target => exact h name hname
  | joinEntity entity =>
    rw [List.mem_singleton.mp hname]
    exact h
  | _ => cases hname

/-! ## What is written -/

/-- A text without quotes, parentheses and spaces. -/
structure Text.Bare (text : String) : Prop where
  flat : Flat text
  space_notMem : ' ' ∉ text.toList

theorem Text.flat_intercalate_segments {segments : List String}
    (h : ∀ segment ∈ segments, Path.isSegment segment = true) :
    Flat (String.intercalate "." segments) :=
  flat_intercalate (by decide) fun segment hsegment =>
    (IsWord.of_isIdentifier (h segment hsegment)).flat

theorem Text.Balanced.lowered {text : String} (h : Balanced text) :
    Balanced (Keyword.lowered text) := by
  have hword : Balanced Keyword.lower := .of_flat (by decide)
  have happend : Keyword.lowered text = Keyword.lower ++ ("(" ++ text ++ ")") := by
    simp [Keyword.lowered, String.append_assoc]
  rw [happend]
  exact hword.append h.bracket

theorem Chain.isWord_walkEnd {start : String} {relations : List String} (hstart : IsWord start)
    (h : ∀ relation ∈ relations, Path.isSegment relation = true) :
    IsWord (walkEnd start relations) := by
  induction relations generalizing start with
  | nil => exact hstart
  | cons relation rest ih =>
    rw [List.forall_mem_cons] at h
    have hglue : IsWord "_" := by decide
    exact ih ((hstart.append hglue).append (.of_isIdentifier h.1)) h.2

theorem Path.bare_referenceFrom {start : String} {path : Path} (hstart : IsWord start)
    (h : ∀ segment ∈ path.segments, isSegment segment = true) :
    Bare (path.referenceFrom start) := by
  have hend : IsWord (Chain.walkEnd start path.relations) :=
    Chain.isWord_walkEnd hstart fun name hname => h name (List.mem_append_left _ hname)
  have hleaf : IsWord path.leaf := .of_isIdentifier (h path.leaf (by simp [segments]))
  constructor
  · unfold referenceFrom
    rw [flat_append, flat_append]
    exact ⟨⟨hend.flat, by decide⟩, hleaf.flat⟩
  · unfold referenceFrom
    simp [hend.space_notMem, hleaf.space_notMem]

namespace Comparison

theorem Plain.flat_operator {c : Comparison} (h : c.Plain) : Flat c.operator.text := by
  cases c with
  | literal operator pattern operand matching => exact Operator.flat_of_builtIn h
  | null negated => exact (by decide : Flat Operator.is.text)
  | member negated operands =>
    simp only [Comparison.operator]
    cases negated <;> decide
  | property operator route matching => exact Operator.flat_of_builtIn h.1

/-- **What a plain comparison writes behind its operator is balanced**, folded or not. -/
theorem Plain.balanced_operand {c : Comparison} (h : c.Plain) {name : String}
    (hname : IsWord name) : Balanced (c.operand name) := by
  cases c with
  | literal operator pattern operand matching =>
    cases htext : pattern.text? operand with
    | none =>
      simp only [Comparison.operand, htext]
      have hwhole : operand.text? = none := by
        cases pattern with
        | whole => exact htext
        | _ => cases htext
      rw [Operand.render_eq_renderMember hwhole]
      exact operand.balanced_renderMember
    | some text =>
      simp only [Comparison.operand, htext]
      split
      · exact .quote text
      · rw [lowercase_quote]
        exact .quote _
  | null negated =>
    simp only [Comparison.operand]
    cases negated <;> exact .of_flat (by decide)
  | member negated operands => exact Operand.balanced_renderList operands
  | property operator route matching =>
    have hroute : Flat (name ++ "." ++ route.text) := by
      rw [flat_append, flat_append]
      exact ⟨⟨hname.flat, by decide⟩, flat_intercalate_segments h.2⟩
    simp only [Comparison.operand]
    split
    · exact (Balanced.of_flat hroute).lowered
    · exact .of_flat hroute

end Comparison

/-- A compared reference is balanced if what it is compared with is. -/
theorem Chain.balanced_completeText {operator : Operator} {comparand : Comparand}
    {reference : String} (hreference : Bare reference) (hoperator : Flat operator.text)
    (hcomparand : Balanced comparand.text) :
    Balanced (completeText operator comparand reference) := by
  have hspace : Balanced " " := .of_flat (by decide)
  have hfolded : Balanced
      (if comparand.foldsReference then Keyword.lowered reference else reference) := by
    split
    · exact (Balanced.of_flat hreference.flat).lowered
    · exact .of_flat hreference.flat
  rw [completeText_of_no_space hreference.space_notMem]
  exact (((hfolded.append hspace).append (.of_flat hoperator)).append hspace).append hcomparand

/-! ## Groups -/

theorem Action.not_isCondition_of_isJoin {action : Action} (h : action.isJoin = true) :
    action.isCondition = false := by
  cases action with
  | join => rfl
  | _ => cases h

/-- All conditions of the group are balanced. -/
def Group.Balanced (g : Group) : Prop := ∀ entry ∈ g.conditions, Text.Balanced entry.2

namespace Group.Balanced

variable {g : Group}

theorem add (h : g.Balanced) (kind : ConditionKind) {text : String} (htext : Text.Balanced text) :
    (g.add kind text).Balanced := by
  intro entry hentry
  cases kind with
  | start =>
    rw [List.mem_singleton.mp hentry]
    exact htext
  | _ =>
    rcases List.mem_append.mp hentry with hentry | hentry
    · exact h entry hentry
    · rw [List.mem_singleton.mp hentry]
      exact htext

theorem restText {conditions : List (Combinator × String)}
    (h : ∀ entry ∈ conditions, Text.Balanced entry.2) :
    Text.Balanced (Group.restText conditions) := by
  induction conditions with
  | nil => exact .of_flat (by decide)
  | cons entry rest ih =>
    rw [List.forall_mem_cons] at h
    have hword : Text.Balanced (" " ++ entry.1.text ++ " ") := by
      cases entry.1 <;> exact .of_flat (by decide)
    exact (hword.append h.1).append (ih h.2)

theorem text (h : g.Balanced) : Text.Balanced g.text := by
  apply Text.Balanced.bracket
  obtain ⟨conditions⟩ := g
  cases conditions with
  | nil => exact .of_flat (by decide)
  | cons entry rest =>
    have hall := List.forall_mem_cons.mp h
    exact hall.1.append (restText hall.2)

end Group.Balanced

/-- The condition that a part stands for, if it stands for one, is balanced. -/
def Part.Bracketed (p : Part) : Prop := ∀ call, p.conditionCall = .ok call → Balanced call.2

theorem Part.bracketed_of_not_isCondition {p : Part} (h : p.action.isCondition = false) :
    p.Bracketed := by
  intro call hcall
  unfold conditionCall at hcall
  split at hcall
  · rename_i haction
    rw [haction] at h
    cases h
  · cases hcall

theorem Part.bracketed_condition (kind : ConditionKind) {text : String} (h : Balanced text) :
    (Part.condition kind text).Bracketed := by
  intro call hcall
  obtain rfl : (kind, text) = call := Except.ok.inj hcall
  exact h

/-- Balanced conditions are taken to a group of balanced conditions. -/
theorem Group.Balanced.replay {parts : List Part} {g last : Group} (hg : g.Balanced)
    (h : ∀ p ∈ parts, p.Bracketed) (hlast : (replayConditions parts g).result = .ok last) :
    last.Balanced := by
  induction parts generalizing g with
  | nil =>
    cases hlast
    exact hg
  | cons p rest ih =>
    rw [List.forall_mem_cons] at h
    simp only [replayConditions] at hlast
    split at hlast
    · rename_i kind text hcall
      exact ih (hg.add kind (h.1 _ hcall)) h.2 hlast
    · cases hlast

theorem Chain.bracketed_groupPart? {kind : ConditionKind} {scope : Chain} {part : Part}
    (h : ∀ p ∈ scope.parts, p.Bracketed) (hgroup : scope.groupPart? kind = .ok (some part)) :
    part.Bracketed := by
  unfold groupPart? at hgroup
  split at hgroup
  · cases hgroup
  · split at hgroup
    · rename_i last hlast
      cases hgroup
      have hempty : Group.empty.Balanced := nofun
      have hconditions : ∀ p ∈ scope.conditionParts, p.Bracketed := by
        intro p hp
        exact h p (List.mem_of_mem_filter hp)
      exact Part.bracketed_condition kind (hempty.replay hconditions hlast).text
    · cases hgroup

/-! ## Chains -/

/-- The conditions of the chain are balanced, and one that waits for its comparison is a reference
and nothing else; the aliases are words. -/
structure Chain.Bracketed (q : Chain) : Prop where
  base : IsWord q.baseAlias
  active : IsWord q.activeAlias
  conditions : ∀ p ∈ q.parts, p.Bracketed
  waiting : q.mode = .compare → q.clause = .filter → ∃ index kind reference,
    findLast? (·.action.isCondition) q.parts = some (index, .condition kind reference) ∧
      Bare reference

namespace Chain.Bracketed

theorem within (history : List String) {base : String} (h : IsWord base) :
    (Chain.within history base).Bracketed :=
  ⟨h, h, nofun, nofun⟩

theorem scope {q : Chain} (h : q.Bracketed) : q.scope.Bracketed := within q.history h.base

theorem partsOver {q : Chain} (h : q.Bracketed) (kind : JoinKind) (start : String)
    (relations : List String) : ∀ p ∈ q.partsOver kind start relations, p.Bracketed := by
  intro p hp
  rcases List.mem_append.mp hp with hp | hp
  · exact h.conditions p hp
  · obtain ⟨s, _, rfl⟩ := List.mem_map.mp hp
    exact Part.bracketed_of_not_isCondition rfl

section Calls

variable {β : Type} [Builder β] {step : Step β} {q r scope : Chain}

theorem of_opens {path : Path} (hopen : step.Opens path) (hplain : step.Plain)
    (hrun : step.run q = .ok r) (h : q.Bracketed) : r.Bracketed := by
  have hsegments : ∀ segment ∈ path.segments, Path.isSegment segment = true := by
    cases hopen <;> exact hplain
  obtain ⟨joins, start, hstart, hopened⟩ := Step.opened_of_run hopen hrun
  have hword : IsWord start := by
    rcases hstart with rfl | rfl
    · exact h.base
    · exact h.active
  have hreference := Path.bare_referenceFrom hword hsegments
  have hwalked := h.partsOver joins start path.relations
  obtain ⟨kind, rfl⟩ | ⟨index, join, combinator, hindex, hfound, rfl⟩ := hopened
  · constructor
    · exact h.base
    · exact hword
    · intro p hp
      rcases List.mem_append.mp hp with hp | hp
      · exact hwalked p hp
      · rw [List.mem_singleton.mp hp]
        exact Part.bracketed_condition kind (.of_flat hreference.flat)
    · intro _ _
      exact ⟨_, kind, _, findLast?_append_singleton rfl, hreference⟩
  · refine ⟨h.base, hword, ?_, fun _ hclause => nomatch hclause⟩
    intro p hp
    rcases List.mem_or_eq_of_mem_set hp with hp | rfl
    · exact hwalked p hp
    · apply Part.bracketed_of_not_isCondition
      rw [Part.writeReference_action]
      exact Action.not_isCondition_of_isJoin (Part.isJoin_of_written hfound)

/-- What a plain comparison writes behind a reference is balanced. -/
theorem balanced_of_writes {name : String} {operator : Operator} {operand : String} {folds : Bool}
    (hwrites : step.Writes name operator operand folds) (hplain : step.Plain) (hname : IsWord name)
    {reference : String} (hreference : Bare reference) :
    Balanced (completeText operator ⟨operand, folds⟩ reference) := by
  cases hwrites with
  | comparison c =>
    exact balanced_completeText hreference hplain.flat_operator (hplain.balanced_operand hname)
  | subquery => exact hplain.elim

theorem of_completes (hcompares : step.compares = true) (hplain : step.Plain)
    (hrun : step.run q = .ok r) (h : q.Bracketed) : r.Bracketed := by
  obtain ⟨operator, operand, folds, hwrites⟩ := Step.writes_of_run hcompares hrun
  rw [Step.run_of_writes hwrites] at hrun
  obtain ⟨hmode, index, part, text, hpending, rfl⟩ := complete_of_ok hrun
  refine ⟨h.base, h.active, fun p hp => ?_, nofun⟩
  rcases List.mem_or_eq_of_mem_set hp with hp | rfl
  · exact h.conditions p hp
  · unfold pending? at hpending
    cases hclause : q.clause with
    | filter =>
      -- The last condition is the one that waits, and it is a reference.
      obtain ⟨_, kind, reference, hfound, hreference⟩ := h.waiting hmode hclause
      simp only [hclause, hfound, Option.some.injEq, Prod.mk.injEq] at hpending
      obtain ⟨_, hpart⟩ := hpending
      obtain rfl := Part.eq_of_pushText [] hpart.symm
      obtain rfl : reference = text := by simpa [Part.condition, Part.pushText] using hpart
      exact Part.bracketed_condition kind (balanced_of_writes hwrites hplain h.active hreference)
    | on =>
      simp only [hclause] at hpending
      obtain ⟨_, hcarries, _⟩ := findLast?_some hpending
      have hjoin := Part.isJoin_of_hasJoinCondition hcarries
      rw [Part.pushText_action] at hjoin
      exact Part.bracketed_of_not_isCondition (Action.not_isCondition_of_isJoin hjoin)

theorem of_passes (hpasses : step.passes = true) (hplain : step.Plain) (hrun : step.run q = .ok r)
    (h : q.Bracketed) : r.Bracketed := by
  obtain ⟨next, hnext, hpassed⟩ := Step.run_of_passes hpasses q
  obtain rfl : r = next := Except.ok.inj (hrun.symm.trans hnext)
  obtain ⟨added, hadded, hno⟩ := hpassed.parts
  have hnames := Step.isSegment_of_mem_joinNames hplain
  have haliases : IsWord r.baseAlias ∧ IsWord r.activeAlias ∧
      (r.mode = .compare → q.mode = .compare) := by
    rcases Step.passed_of_run hpasses hrun with ⟨entity, rfl, rfl⟩ | ⟨kind, start, more, hpassage⟩
    · have hentity : IsWord entity := .of_isIdentifier (hnames entity List.mem_cons_self)
      rw [joinEntity_eq]
      split
      · exact ⟨h.base, hentity, mode_of_enterJoin⟩
      · exact ⟨h.base, hentity, mode_of_enterJoin⟩
    · rw [hpassage.base]
      refine ⟨h.base, ?_, hpassage.mode.mp⟩
      have hstart : IsWord start := by
        rcases hpassage.anchor with rfl | rfl
        · exact h.base
        · exact h.active
      rcases hpassage.active with hactive | hactive | hactive
      · exact hactive ▸ h.active
      · exact hactive ▸ h.base
      · exact hactive ▸ isWord_walkEnd hstart hnames
  refine ⟨haliases.1, haliases.2.1, ?_, ?_⟩
  · intro p hp
    rw [hadded] at hp
    rcases List.mem_append.mp hp with hp | hp
    · exact h.conditions p hp
    · exact Part.bracketed_of_not_isCondition (hno p hp)
  · intro hmode hclause
    obtain ⟨index, kind, reference, hfound, hreference⟩ :=
      h.waiting (haliases.2.2 hmode) (hpassed.clause ▸ hclause)
    refine ⟨index, kind, reference, ?_, hreference⟩
    rw [hadded, findLast?_append_of_forall hno]
    exact hfound

theorem of_merge {kind : ConditionKind} (hscope : q.scope.Bracketed → scope.Bracketed)
    (hmerge : q.merge kind scope = .ok r) (h : q.Bracketed) : r.Bracketed := by
  obtain ⟨group, hgroup, _, rfl⟩ := merge_of_ok hmerge
  have hparts := (hscope h.scope).conditions
  refine ⟨h.base, h.active, fun p hp => ?_, nofun⟩
  simp only [List.mem_append, Option.mem_toList] at hp
  rcases hp with (hp | hp) | hp
  · exact h.conditions p hp
  · exact hparts p (List.mem_of_mem_filter hp)
  · cases hp
    exact bracketed_groupPart? hparts hgroup

end Calls

theorem keptBy (β : Type) [Builder β] :
    KeptBy β Step.Plain fun q r => q.Bracketed → r.Bracketed where
  refl _ := id
  trans hqr hrs := hrs ∘ hqr
  opens := of_opens
  completes := of_completes
  passes := of_passes
  reset _ h := ⟨h.base, h.base, h.conditions, nofun⟩
  merge := of_merge

end Chain.Bracketed

end DeferredQuery
