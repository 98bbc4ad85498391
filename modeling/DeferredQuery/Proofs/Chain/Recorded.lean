import DeferredQuery.Proofs.Chain.Reached
import DeferredQuery.Proofs.Part.Asked

/-!
# What a chain has recorded

Every part of a reached chain has one of the shapes of `Part.Recorded`, and the chain is ready for
the comparison that it may wait for: where conditions go to joins there is a join that carries one,
and where a condition of the statement waits there is one. Both hold because a call either adds
parts of those shapes at the end or writes to the text at the end of one part.
-/

set_option autoImplicit false

namespace DeferredQuery

/-! ## Parts that are written to -/

namespace Part

/-- How a part that is there may be written to: the text of a condition is changed, or a join is
given a condition or another one. -/
inductive Rewritten : Part → Part → Prop
  | condition (kind : ConditionKind) (old new : String) :
    Rewritten (.condition kind old) (.condition kind new)
  | opened (kind : JoinKind) (relation name on : String) :
    Rewritten (.join kind relation name) (.joinOn kind relation name on)
  | continued (kind : JoinKind) (relation name old new : String) :
    Rewritten (.joinOn kind relation name old) (.joinOn kind relation name new)

theorem Rewritten.recorded {p other : Part} (h : p.Rewritten other) : other.Recorded := by
  cases h with
  | condition kind old new => exact .condition kind new
  | opened kind relation name on => exact .joinOn kind relation name on
  | continued kind relation name old new => exact .joinOn kind relation name new

/-- What a reference is written behind in a recorded join: nothing if it is the first, and else what
the join has and the combinator. -/
theorem Recorded.writeReference_eq {p : Part} (h : p.Recorded) (hjoin : p.action.isJoin = true)
    (combinator : Combinator) :
    ∃ kind relation name, ∃ on? : Option String,
      p = ⟨.join kind, [.text relation, .text name] ++ on?.toList.map .text⟩ ∧
        ∀ reference, p.writeReference combinator reference = .joinOn kind relation name
          ((on?.map (· ++ " " ++ combinator.text ++ " ")).getD "" ++ reference) := by
  obtain ⟨kind, relation, name, rfl | ⟨on, rfl⟩⟩ := h.of_isJoin hjoin
  · refine ⟨kind, relation, name, none, rfl, fun reference => ?_⟩
    simp [Part.writeReference, hasJoinCondition, Part.pushText, Part.join, Part.joinOn]
  · refine ⟨kind, relation, name, some on, rfl, fun reference => ?_⟩
    simp [Part.writeReference, hasJoinCondition, extendText, Part.joinOn, String.append_assoc]

/-- A recorded join that a reference is written to carries a condition then. -/
theorem Recorded.writeReference {p : Part} (h : p.Recorded) (hjoin : p.action.isJoin = true)
    (combinator : Combinator) (reference : String) :
    p.Rewritten (p.writeReference combinator reference) ∧
      (p.writeReference combinator reference).hasJoinCondition = true := by
  obtain ⟨kind, relation, name, rfl | ⟨on, rfl⟩⟩ := h.of_isJoin hjoin
  · exact ⟨.opened kind relation name reference, rfl⟩
  · exact ⟨.continued kind relation name on _, rfl⟩

/-- A recorded part that waits for a comparison ends in a text, and stays recorded with another
one. -/
theorem Recorded.exists_pushText {p : Part} (h : p.Recorded)
    (hwaits : p.action.isCondition = true ∨ p.hasJoinCondition = true) :
    ∃ (front : Part) (text : String), p = front.pushText text := by
  rcases hwaits with hcondition | hcarries
  · obtain ⟨kind, text, rfl⟩ := h.of_isCondition hcondition
    exact ⟨⟨.condition kind, []⟩, text, rfl⟩
  · obtain ⟨kind, relation, name, text, rfl⟩ := hasJoinCondition_iff.mp hcarries
    exact ⟨⟨.join kind, [relation, name]⟩, text, rfl⟩

theorem Recorded.pushText {p : Part} {text : String} (h : (p.pushText text).Recorded)
    (hwaits : p.action.isCondition = true ∨ (p.pushText text).hasJoinCondition = true)
    (completed : String) : (p.pushText text).Rewritten (p.pushText completed) := by
  rcases hwaits with hcondition | hcarries
  · obtain ⟨kind, old, hp⟩ := h.of_isCondition hcondition
    obtain rfl := eq_of_pushText [] hp
    exact .condition kind text completed
  · obtain ⟨kind, relation, name, hp | ⟨on, hp⟩⟩ :=
      h.of_isJoin (isJoin_of_hasJoinCondition hcarries)
    · rw [hp] at hcarries
      cases hcarries
    · obtain rfl := eq_of_pushText [.text relation, .text name] hp
      exact .continued kind relation name text completed

/-- What a join carries a condition by is not its last text. -/
theorem hasJoinCondition_pushText {p : Part} {text : String}
    (h : (p.pushText text).hasJoinCondition = true) (completed : String) :
    (p.pushText completed).hasJoinCondition = true := by
  obtain ⟨kind, relation, name, last, hp⟩ := hasJoinCondition_iff.mp h
  obtain rfl := eq_of_pushText [relation, name] hp
  rfl

end Part

theorem Chain.recorded_of_mem_partsOver (kind : JoinKind) (start : String) (relations : List String)
    {q : Chain} (h : ∀ p ∈ q.parts, p.Recorded) :
    ∀ p ∈ q.partsOver kind start relations, p.Recorded := by
  intro p hp
  rcases List.mem_append.mp hp with hp | hp
  · exact h p hp
  · obtain ⟨s, _, rfl⟩ := List.mem_map.mp hp
    exact .join kind _ _

/-! ## Readiness -/

/-- The parts of a chain are recorded ones; where conditions go to joins there is a join that
carries one, and where a condition of the statement waits there is one. -/
structure Chain.Ready (q : Chain) : Prop where
  recorded : ∀ p ∈ q.parts, p.Recorded
  carrying : q.clause = .on → ∃ p ∈ q.parts, p.hasJoinCondition = true
  waiting : q.mode = .compare → q.clause = .filter → ∃ p ∈ q.parts, p.action.isCondition = true

namespace Chain.Ready

theorem within (history : List String) (base : String) : (Chain.within history base).Ready :=
  ⟨nofun, nofun, nofun⟩

section Calls

variable {β : Type} [Builder β] {step : Step β} {q r scope : Chain}

theorem of_opens {path : Path} (hopen : step.Opens path) (hrun : step.run q = .ok r)
    (hq : q.Ready) : r.Ready := by
  obtain ⟨joins, start, _, ⟨kind, rfl⟩ | ⟨index, join, combinator, hindex, hfound, rfl⟩⟩ :=
    Step.opened_of_run hopen hrun
  · constructor
    · intro p hp
      rcases List.mem_append.mp hp with hp | hp
      · exact recorded_of_mem_partsOver _ _ _ hq.recorded p hp
      · rw [List.mem_singleton.mp hp]
        exact .condition kind _
    · exact nofun
    · intro _ _
      exact ⟨_, List.mem_append_right _ (List.mem_singleton_self _), rfl⟩
  · have hwalked := recorded_of_mem_partsOver joins start path.relations hq.recorded
    obtain ⟨hwritten, hcarries⟩ := (hwalked join (List.mem_of_getElem? hindex)).writeReference
      (Part.isJoin_of_written hfound) combinator (path.referenceFrom start)
    constructor
    · intro p hp
      rcases List.mem_or_eq_of_mem_set hp with hp | rfl
      · exact hwalked p hp
      · exact hwritten.recorded
    · intro _
      exact ⟨_, List.mem_set (List.getElem?_eq_some_iff.mp hindex).1 _, hcarries⟩
    · exact nofun

theorem of_completes (hcompares : step.compares = true) (hrun : step.run q = .ok r)
    (hq : q.Ready) : r.Ready := by
  obtain ⟨index, part, text, completed, hpending, rfl⟩ := Step.completed_of_run hcompares hrun
  obtain ⟨hindex, hwaits⟩ := Chain.pending?_some hpending
  have hpart := hq.recorded _ (List.mem_of_getElem? hindex)
  constructor
  · intro p hp
    rcases List.mem_or_eq_of_mem_set hp with hp | rfl
    · exact hq.recorded p hp
    · exact (hpart.pushText hwaits completed).recorded
  · intro (hclause : q.clause = .on)
    -- Conditions go to joins, so the part that is completed is a join that carries one.
    simp only [pending?, hclause] at hpending
    have hcarries := (findLast?_some hpending).2.1
    exact ⟨_, List.mem_set (List.getElem?_eq_some_iff.mp hindex).1 _,
      Part.hasJoinCondition_pushText hcarries completed⟩
  · exact nofun

theorem of_passes (hpasses : step.passes = true) (hrun : step.run q = .ok r) (hq : q.Ready) :
    r.Ready := by
  obtain ⟨next, hnext, hpassed⟩ := Step.run_of_passes hpasses q
  obtain rfl : r = next := Except.ok.inj (hrun.symm.trans hnext)
  obtain ⟨added, hadded, _⟩ := hpassed.parts
  have hkept : ∀ p ∈ q.parts, p ∈ r.parts := by
    intro p hp
    rw [hadded]
    exact List.mem_append_left _ hp
  have hnew : ∀ p ∈ r.parts, p.Recorded := by
    rcases Step.passed_of_run hpasses hrun with ⟨entity, _, rfl⟩ | ⟨kind, start, more, hpassage⟩
    · rw [joinEntity_eq]
      split
      · exact hq.recorded
      · intro p hp
        rcases List.mem_append.mp hp with hp | hp
        · exact hq.recorded p hp
        · rw [List.mem_singleton.mp hp]
          exact .joinOn .inner entity entity Keyword.always
    · intro p hp
      rw [hpassage.parts] at hp
      rcases List.mem_append.mp hp with hp | hp
      · exact recorded_of_mem_partsOver _ _ _ hq.recorded p hp
      · exact (hpassage.recorded p hp).1
  refine ⟨hnew, fun hclause => ?_, fun hmode hclause => ?_⟩
  · obtain ⟨p, hp, hcarries⟩ := hq.carrying (hpassed.clause ▸ hclause)
    exact ⟨p, hkept p hp, hcarries⟩
  · have hwaits := Step.mode_of_passes hpasses hrun hmode
    obtain ⟨p, hp, hcondition⟩ := hq.waiting hwaits (hpassed.clause ▸ hclause)
    exact ⟨p, hkept p hp, hcondition⟩

/-- The scope starts without parts, so what it has recorded is what its calls have. -/
theorem of_merge {kind : ConditionKind} (hscope : q.scope.Ready → scope.Ready)
    (hmerge : q.merge kind scope = .ok r) (hq : q.Ready) : r.Ready := by
  obtain ⟨group, _, hgroup, rfl⟩ := Chain.merge_of_ok hmerge
  have hothers := (hscope (within q.history q.baseAlias)).recorded
  refine ⟨fun p hp => ?_, fun hclause => ?_, nofun⟩
  · simp only [List.mem_append, Option.mem_toList] at hp
    rcases hp with (hp | hp) | hp
    · exact hq.recorded p hp
    · exact hothers p (List.mem_of_mem_filter hp)
    · obtain ⟨text, rfl⟩ := hgroup p hp
      exact .condition kind text
  · obtain ⟨p, hp, hcarries⟩ := hq.carrying hclause
    exact ⟨p, List.mem_append_left _ (List.mem_append_left _ hp), hcarries⟩

end Calls

theorem kept (β : Type) [Builder β] : Kept β fun q r => q.Ready → r.Ready where
  refl _ := id
  trans hqr hrs := hrs ∘ hqr
  opens := of_opens
  completes := of_completes
  passes := of_passes
  reset _ hq := ⟨hq.recorded, nofun, nofun⟩
  merge := of_merge

end Chain.Ready

/-- **Reached chains are ready**, in the scope of a group too. -/
theorem Chain.Reached.ready {β : Type} [Builder β] {known : List String} {q : Chain}
    (h : Reached β known q) : q.Ready := by
  obtain ⟨base, hready⟩ := h.kept (Ready.kept β)
  exact hready (.within known base)

end DeferredQuery
