import DeferredQuery.Builder.Transcript
import DeferredQuery.Proofs.Chain.Reached

/-!
# The known aliases

A chain keeps the aliases that it knows apart from its parts. `Grew` is what every call keeps of the
two: the aliases that become known are those that new joins bind, in the same order, each of them
once, and the active alias is never one that is not known. A group keeps it too, although its scope
knows the aliases of the chain around it and has not their joins, because what the scope has learnt
is exactly what its own joins bind, and both are handed over.
-/

set_option autoImplicit false

namespace DeferredQuery

/-! ## The aliases that joins bind -/

theorem Action.not_isJoin_of_isCondition {action : Action} (h : action.isCondition = true) :
    action.isJoin = false := by
  cases action with
  | condition => rfl
  | _ => cases h

/-- The alias that a part binds, if it is a join. -/
def Part.joinedAlias? (p : Part) : Option String := if p.action.isJoin then p.boundAlias? else none

/-- The aliases that the joins among some parts bind, in order. -/
def Part.joinedAliases (parts : List Part) : List String := parts.filterMap joinedAlias?

namespace Part

theorem joinedAlias?_of_not_isJoin {p : Part} (h : p.action.isJoin = false) :
    p.joinedAlias? = none := by
  simp [joinedAlias?, h]

theorem joinedAliases_of_not_isJoin {parts : List Part}
    (h : ∀ p ∈ parts, p.action.isJoin = false) : joinedAliases parts = [] :=
  List.filterMap_eq_nil_iff.mpr fun p hp => joinedAlias?_of_not_isJoin (h p hp)

@[simp] theorem joinedAliases_append (first second : List Part) :
    joinedAliases (first ++ second) = joinedAliases first ++ joinedAliases second :=
  List.filterMap_append

theorem joinedAlias?_eq_some_iff {p : Part} {name : String} :
    p.joinedAlias? = some name ↔ p.binds name = true := by
  unfold joinedAlias? binds
  cases p.action.isJoin <;> simp

theorem mem_joinedAliases_iff {parts : List Part} {name : String} :
    name ∈ joinedAliases parts ↔ ∃ p ∈ parts, p.binds name = true := by
  simp only [joinedAliases, List.mem_filterMap, joinedAlias?_eq_some_iff]

/-- A part is replaced by one of which the same is read. -/
theorem filterMap_set {α : Type} {read : Part → Option α} {parts : List Part} {index : Nat}
    {part other : Part} (hindex : parts[index]? = some part) (hread : read other = read part) :
    (parts.set index other).filterMap read = parts.filterMap read := by
  induction parts generalizing index with
  | nil => cases hindex
  | cons first rest ih =>
    cases index with
    | zero =>
      cases hindex
      simp only [List.set_cons_zero, List.filterMap_cons, hread]
    | succ index => simp only [List.set_cons_succ, List.filterMap_cons, ih hindex]

/-- Where something is read of joins only, what is left without the conditions reads the same. -/
theorem filterMap_filter_conditions {α : Type} {read : Part → Option α}
    (hread : ∀ p : Part, p.action.isJoin = false → read p = none) (parts : List Part) :
    (parts.filter (!·.action.isCondition)).filterMap read = parts.filterMap read := by
  rw [List.filterMap_filter]
  congr 1
  funext p
  by_cases hp : p.action.isCondition = true
  · simp [hp, hread p (Action.not_isJoin_of_isCondition hp)]
  · simp [hp]

/-- The part as far as its second argument. -/
def front (p : Part) : Part := ⟨p.action, p.arguments.take 2⟩

/-- Two parts are the same but for the text of a condition: of a join, all that stands before its
condition is the same. -/
structure SameJoin (p other : Part) : Prop where
  action : other.action = p.action
  front : p.action.isJoin = true → other.front = p.front

@[simp] theorem front_boundAlias? (p : Part) : p.front.boundAlias? = p.boundAlias? := by
  rcases p with ⟨_, _ | ⟨_, _ | ⟨_ | _, _⟩⟩⟩ <;> rfl

theorem SameJoin.joinedAlias?_eq {p other : Part} (h : p.SameJoin other) :
    other.joinedAlias? = p.joinedAlias? := by
  unfold joinedAlias?
  rw [h.action]
  split
  · rename_i hjoin
    rw [← front_boundAlias? other, h.front hjoin, front_boundAlias?]
  · rfl

theorem sameJoin_writeReference (combinator : Combinator) (reference : String) {p : Part}
    (h : p.hasJoinCondition = true ∨ ∃ name, p.binds name = true) :
    p.SameJoin (p.writeReference combinator reference) := by
  refine ⟨writeReference_action combinator reference p, fun _ => ?_⟩
  by_cases hcarries : p.hasJoinCondition = true
  · obtain ⟨kind, relation, name, text, rfl⟩ := hasJoinCondition_iff.mp hcarries
    rfl
  · obtain ⟨name, hbinds⟩ := h.resolve_left hcarries
    obtain ⟨action, arguments⟩ := p
    -- A join that binds an alias has it as its second argument, and more can only follow.
    rw [writeReference, if_neg hcarries]
    simp only [binds, boundAlias?, Bool.and_eq_true, beq_iff_eq] at hbinds
    split at hbinds
    · simp [front, pushText]
    · cases hbinds.2

theorem sameJoin_pushText {text : String} (completed : String) {p : Part}
    (h : (p.pushText text).action.isCondition = true ∨ (p.pushText text).hasJoinCondition = true) :
    (p.pushText text).SameJoin (p.pushText completed) := by
  refine ⟨rfl, fun hjoin => ?_⟩
  rcases h with h | h
  · rw [Action.not_isJoin_of_isCondition h] at hjoin
    cases hjoin
  · obtain ⟨kind, relation, name, last, hp⟩ := hasJoinCondition_iff.mp h
    obtain rfl := eq_of_pushText [relation, name] hp
    rfl

end Part

/-! ## What walks make known -/

namespace Chain

/-- The aliases that the joins of a chain bind, in order. -/
def joinedAliases (q : Chain) : List String := Part.joinedAliases q.parts

/-- The steps that are missing bind aliases that are not known, each of them once. -/
theorem missingSteps_fresh (known : List String) (parent : String) (relations : List String) :
    ((missingSteps known parent relations).map stepName).Nodup ∧
      ∀ name ∈ (missingSteps known parent relations).map stepName, name ∉ known := by
  induction relations generalizing known parent with
  | nil => simp [missingSteps]
  | cons relation rest ih =>
    rw [missingSteps]
    split
    · exact ih known _
    · rename_i hnew
      obtain ⟨hnodup, hfresh⟩ :=
        ih (known ++ [stepAlias parent relation]) (stepAlias parent relation)
      -- The rest of the walk knows the alias of this step, so it does not meet it again.
      rw [List.map_cons]
      refine ⟨List.nodup_cons.mpr ⟨fun hmem => ?_, hnodup⟩, fun name hname => ?_⟩
      · exact hfresh _ hmem (by simp [stepName])
      · rcases List.mem_cons.mp hname with rfl | hname
        · exact hnew
        · exact fun hknown => hfresh name hname (by simp [hknown])

theorem joinedAliases_partsOver (kind : JoinKind) (start : String) (relations : List String)
    (q : Chain) : Part.joinedAliases (q.partsOver kind start relations) =
      Part.joinedAliases q.parts ++ (missingSteps q.history start relations).map stepName := by
  rw [partsOver, Part.joinedAliases_append, Part.joinedAliases, Part.joinedAliases,
    List.filterMap_map]
  congr 1
  exact congrFun List.filterMap_eq_map _

/-- A relation leads to an alias that is known or becomes known. -/
theorem walkEnd_mem (known : List String) (parent relation : String) (rest : List String) :
    walkEnd parent (relation :: rest) ∈
      known ++ (missingSteps known parent (relation :: rest)).map stepName := by
  induction rest generalizing known parent relation with
  | nil =>
    rw [walkEnd_cons, walkEnd_nil, missingSteps]
    split
    · rename_i hknown
      exact List.mem_append_left _ hknown
    · simp [stepName]
  | cons next rest ih =>
    rw [walkEnd_cons, missingSteps]
    split
    · exact ih known _ next
    · have hmem := ih (known ++ [stepAlias parent relation]) (stepAlias parent relation) next
      rw [List.append_assoc] at hmem
      exact hmem

theorem walkEnd_known (known : List String) (parent : String) (relations : List String) :
    walkEnd parent relations = parent ∨
      walkEnd parent relations ∈ known ++ (missingSteps known parent relations).map stepName := by
  cases relations with
  | nil => exact .inl rfl
  | cons relation rest => exact .inr (walkEnd_mem known parent relation rest)

end Chain

/-! ## What calls make known -/

/-- The aliases that have become known are those that the new joins bind, in their order, each of
them once; and the active alias is known, unless it is as it was or the base alias. -/
structure Chain.Grew (q r : Chain) : Prop where
  base : r.baseAlias = q.baseAlias
  active : r.activeAlias = q.activeAlias ∨ r.activeAlias = q.baseAlias ∨ r.activeAlias ∈ r.history
  joined : ∃ names : List String, r.history = q.history ++ names ∧
    r.joinedAliases = q.joinedAliases ++ names ∧
    names.Nodup ∧ ∀ name ∈ names, name ∉ q.history

namespace Chain.Grew

theorem refl (q : Chain) : q.Grew q := ⟨rfl, .inl rfl, [], by simp⟩

theorem trans {q r s : Chain} (hqr : q.Grew r) (hrs : r.Grew s) : q.Grew s := by
  obtain ⟨first, hhist, hparts, hnodup, hfresh⟩ := hqr.joined
  obtain ⟨second, hhist', hparts', hnodup', hfresh'⟩ := hrs.joined
  refine ⟨hrs.base.trans hqr.base, ?_, first ++ second, ?_, ?_, ?_, ?_⟩
  · rcases hrs.active with h | h | h
    · rw [h, hhist']
      exact hqr.active.imp_right (Or.imp_right (List.mem_append_left _))
    · exact .inr (.inl (h.trans hqr.base))
    · exact .inr (.inr h)
  · rw [hhist', hhist, List.append_assoc]
  · rw [hparts', hparts, List.append_assoc]
  · -- What is learnt second is new to what was known in between, the first names included.
    refine List.nodup_append.mpr ⟨hnodup, hnodup', fun a ha b hb hab => ?_⟩
    exact hfresh' b hb (by rw [hhist]; exact List.mem_append_right _ (hab ▸ ha))
  · intro name hname
    rcases List.mem_append.mp hname with h | h
    · exact hfresh name h
    · exact fun hq => hfresh' name h (by rw [hhist]; exact List.mem_append_left _ hq)

theorem of_walk (kind : JoinKind) {start : String} {relations : List String} {q r : Chain}
    (hstart : start = q.baseAlias ∨ start = q.activeAlias) (hbase : r.baseAlias = q.baseAlias)
    (hactive : r.activeAlias = q.activeAlias ∨ r.activeAlias = q.baseAlias ∨
      r.activeAlias = walkEnd start relations)
    (hhist : r.history = q.historyOver start relations)
    (hparts : Part.joinedAliases r.parts = Part.joinedAliases (q.partsOver kind start relations)) :
    q.Grew r := by
  obtain ⟨hnodup, hfresh⟩ := missingSteps_fresh q.history start relations
  refine ⟨hbase, ?_, _, hhist, hparts.trans (joinedAliases_partsOver kind start relations q),
    hnodup, hfresh⟩
  rcases hactive with h | h | h
  · exact .inl h
  · exact .inr (.inl h)
  · rw [h, hhist]
    rcases walkEnd_known q.history start relations with hend | hend
    · rw [hend]
      exact hstart.symm.imp_right .inl
    · exact .inr (.inr hend)

theorem of_same {q r : Chain} (hhist : r.history = q.history)
    (hparts : Part.joinedAliases r.parts = Part.joinedAliases q.parts)
    (hbase : r.baseAlias = q.baseAlias)
    (hactive : r.activeAlias = q.activeAlias ∨ r.activeAlias = q.baseAlias) : q.Grew r :=
  ⟨hbase, hactive.imp_right .inl, [], by simpa using ⟨hhist, hparts⟩⟩

theorem joinEntity (entity : String) (q : Chain) : q.Grew (q.joinEntity entity) := by
  rw [joinEntity_eq]
  split
  · rename_i hknown
    exact ⟨rfl, .inr (.inr hknown), [], by simp [joinedAliases]⟩
  · rename_i hnew
    refine ⟨rfl, .inr (.inr (by simp)), [entity], rfl, ?_, by simp, by simpa using hnew⟩
    exact Part.joinedAliases_append q.parts _

section Calls

variable {β : Type} [Builder β] {step : Step β} {q r scope : Chain}

theorem of_opens {path : Path} (hopen : step.Opens path) (hrun : step.run q = .ok r) :
    q.Grew r := by
  obtain ⟨joins, start, hstart, ⟨kind, rfl⟩ | ⟨index, join, combinator, hindex, hfound, rfl⟩⟩ :=
    Step.opened_of_run hopen hrun
  · refine of_walk joins hstart rfl (hstart.symm.imp_right .inl) rfl ?_
    rw [Part.joinedAliases_append]
    exact List.append_nil _
  · refine of_walk joins hstart rfl (hstart.symm.imp_right .inl) rfl ?_
    exact Part.filterMap_set hindex (Part.sameJoin_writeReference _ _ hfound).joinedAlias?_eq

theorem of_completes (hcompares : step.compares = true) (hrun : step.run q = .ok r) : q.Grew r := by
  obtain ⟨index, part, text, completed, hpending, rfl⟩ := Step.completed_of_run hcompares hrun
  obtain ⟨hindex, hwaits⟩ := Chain.pending?_some hpending
  refine of_same rfl ?_ rfl (.inl rfl)
  exact Part.filterMap_set hindex (Part.sameJoin_pushText _ hwaits).joinedAlias?_eq

theorem of_passes (hpasses : step.passes = true) (hrun : step.run q = .ok r) : q.Grew r := by
  rcases Step.passed_of_run hpasses hrun with ⟨entity, rfl, rfl⟩ | ⟨kind, start, more, hpassage⟩
  · exact joinEntity entity q
  · refine of_walk kind hpassage.anchor hpassage.base hpassage.active hpassage.history ?_
    rw [hpassage.parts, Part.joinedAliases_append,
      Part.joinedAliases_of_not_isJoin fun p hp => (hpassage.recorded p hp).2.1, List.append_nil]

/-- The scope knows what the chain knows and has none of its joins, so what it has learnt and what
it has joined are new to the chain. -/
theorem of_merge {kind : ConditionKind} (hscope : q.scope.Grew scope)
    (hmerge : q.merge kind scope = .ok r) : q.Grew r := by
  obtain ⟨group, _, hgroup, rfl⟩ := Chain.merge_of_ok hmerge
  obtain ⟨names, hhist, hparts, hnodup, hfresh⟩ := hscope.joined
  refine ⟨rfl, .inl rfl, names, hhist, ?_, hnodup, hfresh⟩
  have hnone : Part.joinedAliases group.toList = [] :=
    Part.joinedAliases_of_not_isJoin fun p hp => by
      obtain ⟨text, rfl⟩ := hgroup p (Option.mem_toList.mp hp)
      rfl
  have hothers : Part.joinedAliases scope.otherParts = names :=
    (Part.filterMap_filter_conditions (fun _ => Part.joinedAlias?_of_not_isJoin) _).trans hparts
  simp only [joinedAliases, Part.joinedAliases_append, hothers, hnone, List.append_nil]

end Calls

theorem kept (β : Type) [Builder β] : Kept β Grew where
  refl := refl
  trans := trans
  opens := of_opens
  completes := of_completes
  passes := of_passes
  reset _ := of_same rfl rfl rfl (.inr rfl)
  merge := of_merge

end Chain.Grew

/-- What a reached chain has learnt is what its own joins bind. -/
theorem Chain.Reached.grew {β : Type} [Builder β] {known : List String} {q : Chain}
    (h : Reached β known q) : ∃ base, (within known base).Grew q :=
  h.kept (Grew.kept β)

theorem Chain.Grew.history_of_within {known : List String} {base : String} {q : Chain}
    (h : (within known base).Grew q) : q.history = known ++ q.joinedAliases := by
  obtain ⟨names, hhist, hparts, _, _⟩ := h.joined
  obtain rfl : q.joinedAliases = names := hparts
  exact hhist

theorem Chain.Grew.active_of_within {known : List String} {base : String} {q : Chain}
    (h : (within known base).Grew q) : q.activeAlias = q.baseAlias ∨ q.activeAlias ∈ q.history := by
  rcases h.active with hactive | hactive | hactive
  · exact .inl (hactive.trans h.base.symm)
  · exact .inl (hactive.trans h.base.symm)
  · exact .inr hactive

/-- The joins of a reached chain bind each of their aliases once, and none that was known where its
calls began. -/
theorem Chain.Reached.joinedAliases_fresh {β : Type} [Builder β] {known : List String} {q : Chain}
    (h : Reached β known q) :
    q.joinedAliases.Nodup ∧ ∀ name ∈ q.joinedAliases, name ∉ known := by
  obtain ⟨base, hgrew⟩ := h.grew
  obtain ⟨names, _, hparts, hnodup, hfresh⟩ := hgrew.joined
  obtain rfl : q.joinedAliases = names := hparts
  exact ⟨hnodup, hfresh⟩

/-- **The history of a reached chain** is what was known where its calls began, and behind it the
aliases that its own joins bind: each of them once, and none that was known already. The active
alias is the base alias or one of the history. -/
theorem Chain.Reached.history_eq {β : Type} [Builder β] {known : List String} {q : Chain}
    (h : Reached β known q) :
    q.history = known ++ q.joinedAliases ∧ (q.joinedAliases).Nodup ∧
      (∀ name ∈ q.joinedAliases, name ∉ known) ∧
      (q.activeAlias = q.baseAlias ∨ q.activeAlias ∈ q.history) := by
  obtain ⟨base, hgrew⟩ := h.kept (Grew.kept β)
  obtain ⟨names, hhist, hparts, hnodup, hfresh⟩ := hgrew.joined
  obtain rfl : q.joinedAliases = names := hparts
  refine ⟨hhist, hnodup, hfresh, ?_⟩
  rcases hgrew.active with h | h | h
  · exact .inl (h.trans hgrew.base.symm)
  · exact .inl (h.trans hgrew.base.symm)
  · exact .inr h

/-- In a group after a join by name, another such join and a group within the group, whose condition
goes over a relation. -/
theorem Chain.history_of_nested_group :
    ∃ q, Step.runAll (β := Transcript)
        [.joinEntity "B", .group .or [.startCondition ⟨["c"], "x"⟩, .compare (.equal (.int32 1))]]
        ((Chain.start "e").joinEntity "A").scope = .ok q ∧
      q.history = ["A"] ++ q.joinedAliases ∧ q.joinedAliases = ["B", "e_c"] ∧
      q.activeAlias ∈ q.history := by
  have hscope : Reached Transcript ["A"] ((Chain.start "e").joinEntity "A").scope :=
    .scope (.step (.joinEntity "A") (.start "e") rfl)
  have hreached := Reached.step
    (.group .or [.startCondition ⟨["c"], "x"⟩, .compare (.equal (.int32 1))])
    (.step (.joinEntity "B") hscope rfl) rfl
  exact ⟨_, rfl, (Chain.Reached.history_eq hreached).1, rfl, by decide⟩

end DeferredQuery
