import DeferredQuery.Proofs.Chain.Reached
import DeferredQuery.Proofs.Variation.Rendering

/-!
# Running calls that differ in the texts of operands

Two chains stay the same but for the texts of their conditions. What keeps them together is that a
condition that waits for its comparison is the reference that was just written, and that is the same
in both: so a comparison cuts both at the same place and puts its operand behind the same text. A
condition that has its operand is never cut again, as long as conditions are started fresh, so that
all of them are conditions of the statement.
-/

set_option autoImplicit false

namespace DeferredQuery

open Text

/-- The names that a chain goes on with hold no quotes. -/
structure Chain.PlainNames (q : Chain) : Prop where
  baseAlias : QuoteFree q.baseAlias
  activeAlias : QuoteFree q.activeAlias
  selection : ∀ column ∈ q.selection, QuoteFree column

/-- Two chains that are the same but for the texts of their conditions, which are alike; and if a
condition waits for its comparison, its text is the same. -/
structure Chain.AlikeIf (plain : Prop) (q r : Chain) : Prop where
  frame : r = { q with parts := r.parts }
  clause : q.clause = .filter
  parts : List.Forall₂ (Part.AlikeIf plain) q.parts r.parts
  pending : q.mode = .compare → ∃ k kind text,
    Chain.findLast? (·.action.isCondition) q.parts = some (k, .condition kind text) ∧
    Chain.findLast? (·.action.isCondition) r.parts = some (k, .condition kind text) ∧
    (plain → QuoteFree text)
  names : plain → q.PlainNames

theorem forall₂_set {α β : Type} {R : α → β → Prop} {l : List α} {m : List β}
    (h : List.Forall₂ R l m) {k : Nat} {a : α} {b : β} (hab : R a b) :
    List.Forall₂ R (l.set k a) (m.set k b) := by
  induction h generalizing k with
  | nil => exact .nil
  | cons hcd h ih =>
    cases k with
    | zero => exact .cons hab h
    | succ k => exact .cons hcd ih

namespace Chain

/-! ## The names of a walk -/

theorem quoteFree_stepAlias {parent relation : String} (hp : QuoteFree parent)
    (hr : QuoteFree relation) : QuoteFree (stepAlias parent relation) := by
  simp +decide [stepAlias, hp, hr]

theorem quoteFree_walkEnd {start : String} {relations : List String} (hs : QuoteFree start)
    (hr : ∀ relation ∈ relations, QuoteFree relation) : QuoteFree (walkEnd start relations) := by
  induction relations generalizing start with
  | nil => exact hs
  | cons relation rest ih =>
    rw [List.forall_mem_cons] at hr
    exact ih (quoteFree_stepAlias hs hr.1) hr.2

/-- The joins of a walk hold no quotes if its names hold none. -/
theorem unquoted_of_mem_missingSteps {known : List String} {start : String}
    {relations : List String} {kind : JoinKind} (hs : QuoteFree start)
    (hr : ∀ relation ∈ relations, QuoteFree relation) :
    ∀ p ∈ (missingSteps known start relations).map (stepJoin kind), p.Unquoted := by
  induction relations generalizing known start with
  | nil => simp [missingSteps]
  | cons relation rest ih =>
    rw [List.forall_mem_cons] at hr
    have hname := quoteFree_stepAlias hs hr.1
    rw [missingSteps]
    split
    · exact ih hname hr.2
    · rw [List.map_cons, List.forall_mem_cons]
      refine ⟨fun text htext => ?_, ih hname hr.2⟩
      simp only [stepJoin, Part.join, List.mem_cons, Argument.text.injEq, List.not_mem_nil,
        or_false] at htext
      rcases htext with rfl | rfl
      · simp +decide [stepRelation, hs, hr.1]
      · exact hname

end Chain

theorem Path.Unquoted.relations {path : Path} (h : path.Unquoted) :
    ∀ relation ∈ path.relations, QuoteFree relation :=
  fun relation hrelation => h relation (List.mem_append_left _ hrelation)

theorem Path.Unquoted.referenceFrom {path : Path} (h : path.Unquoted) {start : String}
    (hs : QuoteFree start) : QuoteFree (path.referenceFrom start) := by
  have hleaf : QuoteFree path.leaf := h path.leaf (List.mem_append_right _ (by simp))
  simp +decide [Path.referenceFrom, hleaf, Chain.quoteFree_walkEnd hs h.relations]

/-! ## Calls without operands -/

namespace Chain.AlikeIf

variable {plain : Prop} {q r : Chain}

/-- Parts added to both that are no conditions. -/
theorem of_added (h : q.AlikeIf plain r) {next other : Chain} (added : List Part)
    (hother : ∀ p ∈ added, p.action.isCondition = false)
    (hadded : plain → ∀ p ∈ added, p.Unquoted) (hq : next.parts = q.parts ++ added)
    (hr : other.parts = r.parts ++ added) (hframe : other = { next with parts := other.parts })
    (hclause : next.clause = .filter) (hmode : next.mode = .compare → q.mode = .compare)
    (hnames : plain → next.PlainNames) : next.AlikeIf plain other where
  frame := hframe
  clause := hclause
  parts := by
    rw [hq, hr]
    exact List.rel_append h.parts
      (List.forall₂_same.mpr fun p hp => .same (hother p hp) fun hplain => hadded hplain p hp)
  pending hcompare := by
    obtain ⟨k, kind, text, hk, hk', htext⟩ := h.pending (hmode hcompare)
    refine ⟨k, kind, text, ?_, ?_, htext⟩
    · rw [hq, findLast?_append_of_forall hother, hk]
    · rw [hr, findLast?_append_of_forall hother, hk']
  names := hnames

theorem push (h : q.AlikeIf plain r) {part : Part} (hother : part.action.isCondition = false)
    (hpart : plain → part.Unquoted) : (q.push part).AlikeIf plain (r.push part) := by
  refine h.of_added [part] (by simpa using hother) (fun hp => ?_) rfl rfl ?_ h.clause id
    fun hp => ?_
  · simpa using hpart hp
  · rw [h.frame]
    rfl
  · exact ⟨(h.names hp).baseAlias, (h.names hp).activeAlias, (h.names hp).selection⟩

/-- A change of both that leaves the parts, and does not begin to wait for a comparison. -/
theorem of_sameParts (h : q.AlikeIf plain r) {next other : Chain} (hq : next.parts = q.parts)
    (hr : other.parts = r.parts) (hframe : other = { next with parts := other.parts })
    (hclause : next.clause = .filter) (hmode : next.mode = .compare → q.mode = .compare)
    (hnames : plain → next.PlainNames) : next.AlikeIf plain other :=
  h.of_added [] nofun (fun _ => nofun) (by simpa using hq) (by simpa using hr) hframe
    hclause hmode hnames

/-- The joins of a walk and parts behind them, added to both. -/
theorem of_walk (h : q.AlikeIf plain r) {next other : Chain} {kind : JoinKind} {start : String}
    {relations : List String} {more : List Part}
    (hstart : plain → QuoteFree start ∧ ∀ relation ∈ relations, QuoteFree relation)
    (hother : ∀ p ∈ more, p.action.isCondition = false) (hmore : plain → ∀ p ∈ more, p.Unquoted)
    (hq : next.parts = q.partsOver kind start relations ++ more)
    (hr : other.parts = r.partsOver kind start relations ++ more)
    (hframe : other = { next with parts := other.parts }) (hclause : next.clause = .filter)
    (hmode : next.mode = .compare → q.mode = .compare) (hnames : plain → next.PlainNames) :
    next.AlikeIf plain other := by
  have hhistory : r.history = q.history := by rw [h.frame]
  rw [partsOver, List.append_assoc] at hq
  rw [partsOver, hhistory, List.append_assoc] at hr
  refine h.of_added _ ?_ ?_ hq hr hframe hclause hmode hnames
  · intro p hp
    rcases List.mem_append.mp hp with hp | hp
    · obtain ⟨s, _, rfl⟩ := List.mem_map.mp hp
      rfl
    · exact hother p hp
  · intro hplain p hp
    rcases List.mem_append.mp hp with hp | hp
    · exact unquoted_of_mem_missingSteps (hstart hplain).1 (hstart hplain).2 p hp
    · exact hmore hplain p hp

/-- A condition opened on both, with the same reference. -/
theorem of_opened (h : q.AlikeIf plain r) {next other : Chain} {joins : JoinKind} {start : String}
    {kind : ConditionKind} {path : Path} (hpath : plain → path.Unquoted)
    (hstart : plain → QuoteFree start)
    (hq : next.parts = q.partsOver joins start path.relations ++
      [.condition kind (path.referenceFrom start)])
    (hr : other.parts = r.partsOver joins start path.relations ++
      [.condition kind (path.referenceFrom start)])
    (hframe : other = { next with parts := other.parts }) (hclause : next.clause = .filter)
    (hnames : plain → next.PlainNames) : next.AlikeIf plain other := by
  have hhistory : r.history = q.history := by rw [h.frame]
  have hreference : plain → QuoteFree (path.referenceFrom start) := fun hplain =>
    (hpath hplain).referenceFrom (hstart hplain)
  have hwalk : List.Forall₂ (Part.AlikeIf plain) (q.partsOver joins start path.relations)
      (r.partsOver joins start path.relations) := by
    rw [partsOver, partsOver, hhistory]
    refine List.rel_append h.parts (List.forall₂_same.mpr fun p hp => .same ?_ fun hplain => ?_)
    · obtain ⟨s, _, rfl⟩ := List.mem_map.mp hp
      rfl
    · exact unquoted_of_mem_missingSteps (hstart hplain) (hpath hplain).relations p hp
  refine ⟨hframe, hclause, ?_, fun _ => ?_, hnames⟩
  · rw [hq, hr]
    refine List.rel_append hwalk (.cons (.condition kind fun hplain => ?_) .nil)
    exact .of_quoteFree (hreference hplain)
  · -- The new condition is the last of both, at the same position because both are as long.
    refine ⟨(r.partsOver joins start path.relations).length, kind, _, ?_, ?_, hreference⟩
    · rw [hq, findLast?_append_singleton (by rfl), hwalk.length_eq]
    · rw [hr, findLast?_append_singleton (by rfl)]

theorem startCondition (h : q.AlikeIf plain r) {path : Path} (hpath : plain → path.Unquoted)
    (hget : q.mode = .get) :
    SameOutcome (AlikeIf plain) (q.startCondition path) (r.startCondition path) := by
  have hnames := h.names
  have hget' : r.mode = .get := by rw [h.frame, hget]
  have hbase : r.baseAlias = q.baseAlias := by rw [h.frame]
  rw [startCondition_of_get hget, startCondition_of_get hget', hbase]
  refine .ok (h.of_opened hpath (fun hp => (hnames hp).baseAlias) rfl rfl ?_ rfl fun hp => ?_)
  · rw [h.frame]
    rfl
  · exact ⟨(hnames hp).baseAlias, (hnames hp).baseAlias, (hnames hp).selection⟩

theorem continueCondition (h : q.AlikeIf plain r) {path : Path} (hpath : plain → path.Unquoted)
    (combinator : Combinator) :
    (q.continueCondition combinator path).AlikeIf plain (r.continueCondition combinator path) := by
  have hnames := h.names
  -- Conditions go to the statement, so no join is looked for.
  have hnone : ∀ {s : Chain} {kind : JoinKind}, s.clause = .filter →
      s.continuedJoin? kind path = none := by
    intro s kind hs
    rw [continuedJoin?, hs]
  have hclause : r.clause = .filter := by rw [h.frame, h.clause]
  have hactive : r.activeAlias = q.activeAlias := by rw [h.frame]
  rw [continueCondition_eq, continueCondition_eq, hnone h.clause, hnone hclause, hactive]
  refine h.of_opened hpath (fun hp => (hnames hp).activeAlias) rfl rfl ?_ rfl fun hp => ?_
  · rw [h.frame]
    rfl
  · exact ⟨(hnames hp).baseAlias, (hnames hp).activeAlias, (hnames hp).selection⟩

theorem select (h : q.AlikeIf plain r) {path : Path} (hpath : plain → path.Unquoted) :
    (q.select path).AlikeIf plain (r.select path) := by
  have hnames := h.names
  have hstart : r.columnStart = q.columnStart := by
    rw [h.frame]
    rfl
  have hcolumn : plain → QuoteFree q.columnStart := by
    intro hp
    unfold columnStart
    split
    · exact (hnames hp).baseAlias
    · exact (hnames hp).activeAlias
  rw [select_eq, select_eq, hstart]
  refine h.of_walk (fun hp => ⟨hcolumn hp, (hpath hp).relations⟩) (by simp) (fun _ => by simp)
    (List.append_nil _).symm (List.append_nil _).symm ?_ h.clause id fun hp => ?_
  · rw [h.frame]
    rfl
  · refine ⟨(hnames hp).baseAlias, (hnames hp).activeAlias, fun column hc => ?_⟩
    cases hc
    exact (hpath hp).referenceFrom (hcolumn hp)

theorem orderBy (h : q.AlikeIf plain r) {path : Path} (hpath : plain → path.Unquoted)
    (kind : OrderKind) (direction : SortDirection) (nulls : Option NullsOrder) :
    (q.orderBy kind direction nulls path).AlikeIf plain (r.orderBy kind direction nulls path) := by
  have hnames := h.names
  have hactive : r.activeAlias = q.activeAlias := by rw [h.frame]
  rw [orderBy_eq, orderBy_eq, hactive]
  refine h.of_walk (fun hp => ⟨(hnames hp).activeAlias, (hpath hp).relations⟩) ?_ (fun hp => ?_)
    rfl rfl ?_ h.clause id fun hp => ?_
  · simp [Part.order, Action.isCondition]
  · rw [List.forall_mem_singleton]
    intro text htext
    have hcolumn : text = path.referenceFrom q.activeAlias := by
      cases nulls <;> simpa [Part.order] using htext
    rw [hcolumn]
    exact (hpath hp).referenceFrom (hnames hp).activeAlias
  · rw [h.frame]
    rfl
  · exact ⟨(hnames hp).baseAlias, (hnames hp).activeAlias, (hnames hp).selection⟩

theorem skip (h : q.AlikeIf plain r) (count : Nat) :
    (q.skip count).AlikeIf plain (r.skip count) := by
  unfold Chain.skip
  split
  · exact h.push rfl fun _ => by simp [Part.Unquoted, Part.skip]
  · exact h

theorem take (h : q.AlikeIf plain r) (count : Nat) :
    (q.take count).AlikeIf plain (r.take count) := by
  unfold Chain.take
  split
  · exact h.push rfl fun _ => by simp [Part.Unquoted, Part.take]
  · exact h

theorem reset (h : q.AlikeIf plain r) : q.reset.AlikeIf plain r.reset := by
  refine h.of_sameParts rfl rfl ?_ rfl nofun fun hp => ?_
  · rw [h.frame]
    rfl
  · exact ⟨(h.names hp).baseAlias, (h.names hp).baseAlias, (h.names hp).selection⟩

theorem useBase (h : q.AlikeIf plain r) : q.useBase.AlikeIf plain r.useBase := by
  refine h.of_sameParts rfl rfl ?_ h.clause id fun hp => ?_
  · rw [h.frame]
    rfl
  · exact ⟨(h.names hp).baseAlias, (h.names hp).baseAlias, (h.names hp).selection⟩

theorem navigate (h : q.AlikeIf plain r) {target : Target}
    (htarget : plain → ∀ relation ∈ target.relations, QuoteFree relation) (kind : JoinKind)
    (anchor : Anchor) :
    (q.navigate kind anchor target).AlikeIf plain (r.navigate kind anchor target) := by
  have hnames := h.names
  have hmode : r.mode = q.mode := by rw [h.frame]
  have hanchor : r.anchorAlias anchor = q.anchorAlias anchor := by
    rw [h.frame]
    cases anchor <;> rfl
  have hstart : plain → QuoteFree (q.anchorAlias anchor) := by
    intro hp
    cases anchor
    · exact (hnames hp).baseAlias
    · exact (hnames hp).activeAlias
  rw [Chain.navigate, Chain.navigate, walkFrom_eq, walkFrom_eq, hanchor, walkMode_congr hmode]
  refine h.of_walk (fun hp => ⟨hstart hp, htarget hp⟩) (by simp) (fun _ => by simp)
    (List.append_nil _).symm (List.append_nil _).symm ?_ h.clause mode_of_walkMode fun hp => ?_
  · rw [h.frame]
    rfl
  · refine ⟨(hnames hp).baseAlias, ?_, (hnames hp).selection⟩
    dsimp only
    split
    · exact (hnames hp).activeAlias
    · exact quoteFree_walkEnd (hstart hp) (htarget hp)

theorem joinEntity (h : q.AlikeIf plain r) {entity : String} (hentity : plain → QuoteFree entity) :
    (q.joinEntity entity).AlikeIf plain (r.joinEntity entity) := by
  have hnames := h.names
  have hhistory : r.history = q.history := by rw [h.frame]
  have hmode : r.mode = q.mode := by rw [h.frame]
  rw [joinEntity_eq, joinEntity_eq, hhistory, enterJoin_mode_congr hmode]
  split
  · refine h.of_sameParts rfl rfl ?_ h.clause mode_of_enterJoin fun hp => ?_
    · rw [h.frame]
    · exact ⟨(hnames hp).baseAlias, hentity hp, (hnames hp).selection⟩
  · refine h.of_added _ ?_ (fun hp => ?_) rfl rfl ?_ h.clause mode_of_enterJoin fun hp => ?_
    · simp [Part.joinOn, Action.isCondition]
    · rw [List.forall_mem_singleton]
      intro text htext
      simp only [Part.joinOn, List.mem_cons, Argument.text.injEq, List.not_mem_nil,
        or_false] at htext
      rcases htext with rfl | rfl | rfl
      · exact hentity hp
      · exact hentity hp
      · exact (by decide : QuoteFree Keyword.always)
    · rw [h.frame]
    · exact ⟨(hnames hp).baseAlias, hentity hp, (hnames hp).selection⟩

/-- **Calls without operands** do the same to both. -/
theorem run_of_isPlain {step : Step Statement} (hstep : step.isPlain = true)
    (hunquoted : plain → step.Unquoted) (h : q.AlikeIf plain r) (hfresh : step.StartsFresh q) :
    SameOutcome (AlikeIf plain) (step.run q) (step.run r) := by
  cases step with
  | startCondition path => exact h.startCondition hunquoted hfresh
  | continueCondition combinator path => exact .ok (h.continueCondition hunquoted combinator)
  | select path => exact .ok (h.select hunquoted)
  | orderBy kind direction nulls path => exact .ok (h.orderBy hunquoted kind direction nulls)
  | skip count => exact .ok (h.skip count)
  | take count => exact .ok (h.take count)
  | reset => exact .ok h.reset
  | useBase => exact .ok h.useBase
  | navigate kind anchor target => exact .ok (h.navigate hunquoted kind anchor)
  | joinEntity entity => exact .ok (h.joinEntity hunquoted)
  | compare comparison => cases hstep
  | group kind steps => cases hstep
  | subquery negated builder steps => cases hstep

/-! ## Comparisons -/

theorem completeText_alike {operator : Operator} {operand other text : String} (folds : Bool)
    (hoperator : QuoteFree operator.text) (htext : QuoteFree text) (h : Alike operand other) :
    Alike (completeText operator ⟨operand, folds⟩ text)
      (completeText operator ⟨other, folds⟩ text) := by
  obtain ⟨first, newest, hpieces⟩ : ∃ first newest, splitReference text = (first, newest) :=
    ⟨_, _, rfl⟩
  rw [← splitReference_append text, hpieces, quoteFree_append] at htext
  obtain ⟨hfirst, hnewest⟩ := htext
  simp only [completeText, hpieces]
  refine h.prepend ?_
  cases folds <;> simp +decide [Keyword.lowered, hfirst, hnewest, hoperator]

/-- **A comparison completes the same condition of both**, or fails for both. -/
theorem complete (h : q.AlikeIf plain r) {operator : Operator} {operand other : String}
    (folds : Bool) (hoperator : plain → QuoteFree operator.text)
    (halike : plain → Alike operand other) :
    SameOutcome (AlikeIf plain) (q.complete operator ⟨operand, folds⟩)
      (r.complete operator ⟨other, folds⟩) := by
  have hmode' : r.mode = q.mode := by rw [h.frame]
  have hclause' : r.clause = .filter := by rw [h.frame, h.clause]
  by_cases hmode : q.mode = .compare
  · obtain ⟨k, kind, text, hk, hk', htext⟩ := h.pending hmode
    have hpending : q.pending? = some (k, (Part.mk (.condition kind) []).pushText text) := by
      rw [pending?, h.clause]
      exact hk
    have hpending' : r.pending? = some (k, (Part.mk (.condition kind) []).pushText text) := by
      rw [pending?, hclause']
      exact hk'
    -- The text that is cut is the same in both, so only the operands can differ.
    rw [complete_of_pending hmode hpending, complete_of_pending (hmode'.trans hmode) hpending']
    refine .ok ⟨?_, h.clause, ?_, nofun, fun hplain => ?_⟩
    · rw [h.frame]
    · refine forall₂_set h.parts (.condition kind fun hplain => ?_)
      exact completeText_alike folds (hoperator hplain) (htext hplain) (halike hplain)
    · obtain ⟨hbase, hactive, hselection⟩ := h.names hplain
      exact ⟨hbase, hactive, hselection⟩
  · rw [complete_of_ne hmode, complete_of_ne (hmode' ▸ hmode)]
    exact .error _

/-! ## Groups -/

theorem within (known : List String) {base : String} (h : plain → QuoteFree base) :
    (Chain.within known base).AlikeIf plain (Chain.within known base) :=
  ⟨rfl, rfl, .nil, nofun, fun hplain => ⟨h hplain, h hplain, nofun⟩⟩

theorem scope (h : q.AlikeIf plain r) : q.scope.AlikeIf plain r.scope := by
  have hscope : r.scope = q.scope := by
    rw [h.frame]
    rfl
  rw [hscope]
  exact within q.history fun hplain => (h.names hplain).baseAlias

theorem conditionParts (h : q.AlikeIf plain r) :
    List.Forall₂ (Part.AlikeIf plain) q.conditionParts r.conditionParts :=
  List.rel_filter (fun _ _ hpart => by cases hpart <;> rfl) h.parts

theorem otherParts (h : q.AlikeIf plain r) :
    List.Forall₂ (Part.AlikeIf plain) q.otherParts r.otherParts :=
  List.rel_filter (fun _ _ hpart => by cases hpart <;> rfl) h.parts

theorem replayConditions {parts others : List Part} {g h : Group}
    (hparts : List.Forall₂ (Part.AlikeIf plain) parts others)
    (hconditions : ∀ p ∈ parts, p.action.isCondition = true) (hgh : g.AlikeIf plain h) :
    SameOutcome (Group.AlikeIf plain) (replayConditions parts g).result
      (replayConditions others h).result := by
  induction hparts generalizing g h with
  | nil => exact .ok hgh
  | cons hpart hparts ih =>
    rw [List.forall_mem_cons] at hconditions
    cases hpart with
    -- Only conditions are replayed to a group.
    | same hother hp => exact nomatch hother.symm.trans hconditions.1
    | condition kind hab => exact ih hconditions.2 (hgh.add kind hab)

theorem groupPart? (h : q.AlikeIf plain r) (kind : ConditionKind) :
    SameOutcome (Option.Rel (Part.AlikeIf plain)) (q.groupPart? kind) (r.groupPart? kind) := by
  have hparts := h.conditionParts
  have hconditions : ∀ p ∈ q.conditionParts, p.action.isCondition = true := fun p hp =>
    (List.mem_filter.mp hp).2
  have hreplay := replayConditions hparts hconditions (g := Group.empty) (h := Group.empty) .nil
  have hempty : r.conditionParts = [] ↔ q.conditionParts = [] := by
    rw [← List.length_eq_zero_iff, ← List.length_eq_zero_iff, hparts.length_eq]
  unfold Chain.groupPart?
  simp only [hempty]
  split
  · exact .ok .none
  · generalize (DeferredQuery.replayConditions q.conditionParts Group.empty).result = x at hreplay ⊢
    generalize (DeferredQuery.replayConditions r.conditionParts Group.empty).result = y at hreplay ⊢
    cases hreplay with
    | error e => exact .error e
    | ok hgroup => exact .ok (.some (.condition kind hgroup.text))

/-- **Groups merge alike**, or fail with the same error. -/
theorem merge (h : q.AlikeIf plain r) {scope other : Chain} (hscope : scope.AlikeIf plain other)
    (kind : ConditionKind) :
    SameOutcome (AlikeIf plain) (q.merge kind scope) (r.merge kind other) := by
  have hgroup := hscope.groupPart? kind
  have hhistory : other.history = scope.history := by rw [hscope.frame]
  unfold Chain.merge
  rw [hhistory]
  generalize scope.groupPart? kind = x at hgroup ⊢
  generalize other.groupPart? kind = y at hgroup ⊢
  cases hgroup with
  | error e => exact .error e
  | ok hpart =>
    refine .ok ⟨?_, h.clause, ?_, nofun, fun hplain => ?_⟩
    · rw [h.frame]
    · exact List.rel_append (List.rel_append h.parts hscope.otherParts) (forall₂_toList hpart)
    · obtain ⟨hbase, hactive, hselection⟩ := h.names hplain
      exact ⟨hbase, hactive, hselection⟩

end Chain.AlikeIf

/-! ## All calls -/

namespace Step

variable {plain : Prop}

mutual

/-- **Calls that differ in the texts of operands** keep chains alike, or fail with the same
error. -/
theorem run_alike : ∀ (step : Step Statement) {other : Step Statement} {q r : Chain},
    step.SameButText other → (plain → step.Unquoted) → step.StartsFresh q → q.AlikeIf plain r →
    SameOutcome (Chain.AlikeIf plain) (step.run q) (other.run r)
  | step, other, q, r, h, hunquoted, hfresh, hq => by
    cases h with
    | plain hplain => exact hq.run_of_isPlain hplain hunquoted hfresh
    | @compare c d h =>
      have hactive : r.activeAlias = q.activeAlias := by rw [hq.frame]
      simp only [run, Chain.compare_eq, ← h.operator_eq, ← h.foldsReference_eq, hactive]
      exact hq.complete _ (fun hp => (hunquoted hp).operator) fun hp =>
        h.operand_alike (hunquoted hp) (hq.names hp).activeAlias
    | @group kind steps others h =>
      have hscope := runAll_alike steps h hunquoted hfresh hq.scope
      simp only [run]
      generalize runAll steps q.scope = x at hscope ⊢
      generalize runAll others r.scope = y at hscope ⊢
      cases hscope with
      | error e => exact .error e
      | ok hscope => exact hq.merge hscope kind
    | @subquery negated builder otherBuilder steps others hbuilder h =>
      have hbase : plain → QuoteFree builder.baseAlias := fun hp => (hunquoted hp).1.baseAlias
      have hstart : (Chain.start (Builder.baseAlias builder)).AlikeIf plain
          (Chain.start (Builder.baseAlias builder)) := .within [] hbase
      have hinner := runAll_alike steps h (fun hp => (hunquoted hp).2) hfresh hstart
      have halias : Builder.baseAlias otherBuilder = Builder.baseAlias builder :=
        hbuilder.baseAlias_eq
      simp only [run, halias]
      generalize runAll steps (Chain.start (Builder.baseAlias builder)) = x at hinner ⊢
      generalize runAll others (Chain.start (Builder.baseAlias builder)) = y at hinner ⊢
      cases hinner with
      | error e => exact .error e
      | @ok inner otherInner hinner =>
        have htext := Query.subqueryText_alike .many hinner.parts (by rw [hinner.frame])
          (fun hp => (hinner.names hp).selection) (hbuilder.alike fun hp => (hunquoted hp).1)
        dsimp only
        generalize (Query.mk builder inner .many).subqueryText = x at htext ⊢
        generalize (Query.mk otherBuilder otherInner .many).subqueryText = y at htext ⊢
        cases htext with
        | error e => exact .error e
        | ok halike =>
          refine hq.complete false (fun _ => ?_) fun hp => ?_
          · cases negated <;> decide
          · exact ((halike hp).prepend (by decide)).append (by decide)

theorem runAll_alike : ∀ (steps : List (Step Statement)) {others : List (Step Statement)}
    {q r : Chain}, AllSameButText steps others → (plain → AllUnquoted steps) →
    AllStartFresh steps q → q.AlikeIf plain r →
    SameOutcome (Chain.AlikeIf plain) (runAll steps q) (runAll others r)
  | steps, others, q, r, h, hunquoted, hfresh, hq => by
    cases h with
    | nil => exact .ok hq
    | @cons step other steps others h hs =>
      have hstep := run_alike step h (fun hp => (hunquoted hp).1) hfresh.1 hq
      have hrest := hfresh.2
      simp only [runAll]
      generalize run step q = x at hstep hrest ⊢
      generalize run other r = y at hstep ⊢
      cases hstep with
      | error e => exact .error e
      | ok hnext =>
        exact runAll_alike steps hs (fun hp => (hunquoted hp).2) (hrest _ rfl) hnext

end

end Step

end DeferredQuery
