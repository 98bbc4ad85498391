import DeferredQuery.Proofs.Chain.Grounded
import Mathlib.Data.List.Induction

/-!
# The joins that calls need

A call needs a join for every relation that it goes over, and joining an entity needs one for the
entity. A join is left out when its alias is known, and nothing but the alias is looked at. So of
the joins that are needed for one alias the first is made, and all the others are left to it;
`mem_links_iff_first_needed` says that of every run. It is theirs too if no alias is needed for two
relations. Aliases are glued from names with an underscore in between, so this can go wrong only
where names have underscores in them.
-/

set_option autoImplicit false

namespace DeferredQuery

namespace Chain

/-! ## Links that are left out -/

/-- The links that are not left out: of those that bind one alias the first, unless the alias is
known. -/
def firstLinks : List String → List (String × String) → List (String × String)
  | _, [] => []
  | known, link :: rest =>
    if link.2 ∈ known then firstLinks known rest
    else link :: firstLinks (known ++ [link.2]) rest

theorem firstLinks_append (known : List String) (first second : List (String × String)) :
    firstLinks known (first ++ second) =
      firstLinks known first ++
        firstLinks (known ++ (firstLinks known first).map (·.2)) second := by
  induction first generalizing known with
  | nil => simp [firstLinks]
  | cons link first ih =>
    rw [List.cons_append, firstLinks, firstLinks]
    split
    · exact ih known
    · rw [ih, List.map_cons, List.append_assoc]
      rfl

theorem mem_firstLinks_iff {known : List String} {links : List (String × String)}
    {link : String × String} :
    link ∈ firstLinks known links ↔
      link.2 ∉ known ∧ links.find? (·.2 = link.2) = some link := by
  induction links generalizing known with
  | nil => simp [firstLinks]
  | cons first rest ih =>
    by_cases hfirst : first.2 = link.2
    · -- The first link for an alias is kept, and no other.
      have hfind : (first :: rest).find? (·.2 = link.2) = some first := by simp [hfirst]
      rw [firstLinks, hfind]
      split
      · rename_i hknown
        rw [ih, ← hfirst]
        simp [hknown]
      · rename_i hnew
        rw [List.mem_cons, ih, ← hfirst]
        simp [hnew, eq_comm]
    · have hfind : (first :: rest).find? (·.2 = link.2) = rest.find? (·.2 = link.2) := by
        simp [hfirst]
      have hne : link ≠ first := by
        rintro rfl
        exact hfirst rfl
      rw [firstLinks, hfind]
      split
      · exact ih
      · rw [List.mem_cons, ih]
        simp [hne, Ne.symm hfirst]

/-- Of the links for an alias that is needed there is a first. -/
theorem exists_first_link {links : List (String × String)} {link : String × String}
    (h : link ∈ links) :
    ∃ relation, links.find? (·.2 = link.2) = some (relation, link.2) := by
  have hsome : (links.find? (·.2 = link.2)).isSome := by
    rw [List.find?_isSome]
    exact ⟨link, h, by simp⟩
  obtain ⟨⟨relation, name⟩, hfirst⟩ := Option.isSome_iff_exists.mp hsome
  obtain rfl : name = link.2 := by simpa using List.find?_some hfirst
  exact ⟨relation, hfirst⟩

/-- No link is left out for another if and only if those that bind one alias are the same. -/
theorem subset_firstLinks_iff {links : List (String × String)} :
    (∀ link ∈ links, link ∈ firstLinks [] links) ↔
      ∀ a ∈ links, ∀ b ∈ links, a.2 = b.2 → a.1 = b.1 := by
  constructor
  · intro h a ha b hb hab
    have hfirst := (mem_firstLinks_iff.mp (h a ha)).2
    rw [hab, (mem_firstLinks_iff.mp (h b hb)).2] at hfirst
    rw [Option.some.inj hfirst]
  · intro h link hlink
    refine mem_firstLinks_iff.mpr ⟨List.not_mem_nil, ?_⟩
    obtain ⟨relation, hfirst⟩ := exists_first_link hlink
    obtain rfl : relation = link.1 := h _ (List.mem_of_find?_eq_some hfirst) link hlink rfl
    exact hfirst

/-! ## Needed links -/

/-- The links that a walk needs, one for each relation. -/
def walkLinks : String → List String → List (String × String)
  | _, [] => []
  | parent, relation :: rest =>
    stepLink (parent, relation) :: walkLinks (stepAlias parent relation) rest

theorem missingSteps_eq (known : List String) (start : String) (relations : List String) :
    (missingSteps known start relations).map stepLink =
      firstLinks known (walkLinks start relations) := by
  induction relations generalizing known start with
  | nil => rfl
  | cons relation rest ih =>
    rw [missingSteps, walkLinks, firstLinks]
    have hname : (stepLink (start, relation)).2 = stepAlias start relation := rfl
    rw [hname]
    by_cases hknown : stepAlias start relation ∈ known
    · rw [if_pos hknown, if_pos hknown]
      exact ih known _
    · rw [if_neg hknown, if_neg hknown, List.map_cons, ih]

end Chain

namespace Step

variable {β : Type} [Builder β]

mutual

/-- The links that a call needs, those of its group included. -/
def needs : Step β → Chain → List (String × String)
  | .startCondition path, q => Chain.walkLinks q.columnStart path.relations
  | .select path, q => Chain.walkLinks q.columnStart path.relations
  | .continueCondition _ path, q => Chain.walkLinks q.activeAlias path.relations
  | .orderBy _ _ _ path, q => Chain.walkLinks q.activeAlias path.relations
  | .navigate _ anchor target, q => Chain.walkLinks (q.anchorAlias anchor) target.relations
  | .joinEntity entity, _ => [(entity, entity)]
  | .group _ steps, q => allNeeds steps q.scope
  | .compare _, _ | .subquery _ _ _, _ | .skip _, _ | .take _, _ | .reset, _ | .useBase, _ => []

/-- The links that the calls of a run need, in their order. -/
def allNeeds : List (Step β) → Chain → List (String × String)
  | [], _ => []
  | step :: rest, q =>
    step.needs q ++
      match step.run q with
      | .ok next => allNeeds rest next
      | .error _ => []

end

end Step

/-- Calls that need these links have made those that are not left out. -/
structure Chain.Answers (needs : List (String × String)) (q r : Chain) : Prop where
  links : Part.links r.parts = Part.links q.parts ++ firstLinks q.history needs
  history : r.history = q.history ++ (firstLinks q.history needs).map (·.2)

namespace Chain.Answers

variable {needs more : List (String × String)} {q r s : Chain}

theorem of_same (hlinks : Part.links r.parts = Part.links q.parts)
    (hhistory : r.history = q.history) : q.Answers [] r :=
  ⟨by simp [hlinks, firstLinks], by simp [hhistory, firstLinks]⟩

theorem trans (hqr : q.Answers needs r) (hrs : r.Answers more s) : q.Answers (needs ++ more) s := by
  obtain ⟨hlinks, hhistory⟩ := hrs
  rw [hqr.history] at hlinks hhistory
  constructor
  · rw [hlinks, hqr.links, firstLinks_append, List.append_assoc]
  · rw [hhistory, firstLinks_append, List.map_append, List.append_assoc]

theorem of_walk (kind : JoinKind) {start : String} {relations : List String}
    (hlinks : Part.links r.parts = Part.links (q.partsOver kind start relations))
    (hhistory : r.history = q.historyOver start relations) :
    q.Answers (walkLinks start relations) r := by
  constructor
  · rw [hlinks, links_partsOver, missingSteps_eq]
  · rw [hhistory, historyOver, ← missingSteps_eq, List.map_map]
    rfl

/-- A reference is written behind the joins of a walk, or into one of the joins. -/
theorem of_written (kind : JoinKind) {start : String} {relations : List String} {index : Nat}
    {join : Part} {combinator : Combinator} {reference : String}
    (hindex : (q.partsOver kind start relations)[index]? = some join)
    (hjoin : join.hasJoinCondition = true ∨ ∃ name, join.binds name = true)
    (hparts : r.parts = (q.partsOver kind start relations).set index
      (join.writeReference combinator reference))
    (hhistory : r.history = q.historyOver start relations) :
    q.Answers (walkLinks start relations) r := by
  refine of_walk kind ?_ hhistory
  rw [hparts]
  exact Part.filterMap_set hindex (Part.sameJoin_writeReference _ _ hjoin).link?_eq

theorem of_behind (kind : JoinKind) {start : String} {relations : List String} {part : Part}
    (hpart : part.link? = none) (hparts : r.parts = q.partsOver kind start relations ++ [part])
    (hhistory : r.history = q.historyOver start relations) :
    q.Answers (walkLinks start relations) r := by
  refine of_walk kind ?_ hhistory
  rw [hparts, Part.links_append]
  simp [Part.links, hpart]

theorem startCondition {path : Path} (hrun : q.startCondition path = .ok r) :
    q.Answers (walkLinks q.columnStart path.relations) r := by
  unfold columnStart
  by_cases hmode : q.mode = .get
  · rw [startCondition_of_get hmode] at hrun
    cases hrun
    rw [if_pos hmode]
    exact of_behind .inner rfl rfl rfl
  · rw [startCondition_of_ne hmode] at hrun
    rw [if_neg hmode]
    split at hrun
    · cases hrun
    · rename_i index join hfound
      cases hrun
      obtain ⟨hindex, hbinds, _⟩ := findLast?_some hfound
      exact of_written .inner hindex (.inr ⟨_, hbinds⟩) rfl rfl

theorem continueCondition (combinator : Combinator) (path : Path) (q : Chain) :
    q.Answers (walkLinks q.activeAlias path.relations) (q.continueCondition combinator path) := by
  rw [continueCondition_eq]
  split
  · rename_i index join hfound
    obtain ⟨hindex, hjoin, _⟩ := continuedJoin?_some hfound
    exact of_written (joinKindOf combinator) hindex (.inl hjoin) rfl rfl
  · exact of_behind (joinKindOf combinator) rfl rfl rfl

theorem joinEntity (entity : String) (q : Chain) :
    q.Answers [(entity, entity)] (q.joinEntity entity) := by
  rw [joinEntity_eq]
  split
  · rename_i hknown
    constructor <;> simp [firstLinks, hknown]
  · rename_i hnew
    constructor
    · rw [Part.links_append]
      simp only [firstLinks, hnew]
      rfl
    · simp [firstLinks, hnew]

theorem bound (count : Nat) {part : Part} (hpart : part.link? = none) (q : Chain) :
    q.Answers [] (if 0 < count then q.push part else q) := by
  split
  · refine of_same ?_ rfl
    simp [push, Part.links, hpart]
  · exact of_same rfl rfl

/-- The scope has started with what the chain knows, so it has left out what the chain would have
left out. -/
theorem of_merge {kind : ConditionKind} {scope : Chain} (hscope : q.scope.Answers needs scope)
    (hmerge : q.merge kind scope = .ok r) : q.Answers needs r := by
  obtain ⟨group, _, hgroup, rfl⟩ := merge_of_ok hmerge
  obtain ⟨hlinks, hhistory⟩ := hscope
  refine ⟨?_, hhistory⟩
  have hothers : Part.links scope.otherParts = firstLinks q.history needs :=
    (Part.filterMap_filter_conditions (fun _ => Part.link?_of_not_isJoin) _).trans hlinks
  have hnone : Part.links group.toList = [] := Part.links_of_not_isJoin fun p hp => by
    obtain ⟨text, rfl⟩ := hgroup p (Option.mem_toList.mp hp)
    rfl
  rw [Part.links_append, Part.links_append, hothers, hnone, List.append_nil]

end Chain.Answers

namespace Step

variable {β : Type} [Builder β]

theorem answers_of_completes {step : Step β} {q r : Chain} (hcompares : step.compares = true)
    (hrun : step.run q = .ok r) : q.Answers [] r := by
  obtain ⟨index, part, text, completed, hpending, rfl⟩ := completed_of_run hcompares hrun
  obtain ⟨hindex, hwaits⟩ := Chain.pending?_some hpending
  refine .of_same ?_ rfl
  exact Part.filterMap_set hindex (Part.sameJoin_pushText _ hwaits).link?_eq

mutual

/-- **Of the links that a call needs** it makes those that are not left out, in their order. -/
theorem answers_run : ∀ (step : Step β) {q r : Chain}, step.run q = .ok r →
    q.Answers (step.needs q) r
  | .startCondition _, _, _, hrun => .startCondition hrun
  | .continueCondition combinator path, q, _, hrun => by
    cases hrun
    exact .continueCondition combinator path q
  | .compare _, _, _, hrun => answers_of_completes rfl hrun
  | .subquery _ _ _, _, _, hrun => answers_of_completes rfl hrun
  | .select path, q, _, hrun => by
    cases hrun
    rw [Chain.select_eq]
    exact .of_walk .inner rfl rfl
  | .orderBy _ _ _ path, q, _, hrun => by
    cases hrun
    rw [Chain.orderBy_eq]
    exact .of_behind .inner rfl rfl rfl
  | .skip count, q, _, hrun => by
    cases hrun
    exact .bound count rfl q
  | .take count, q, _, hrun => by
    cases hrun
    exact .bound count rfl q
  | .reset, _, _, hrun => by
    cases hrun
    exact .of_same rfl rfl
  | .useBase, _, _, hrun => by
    cases hrun
    exact .of_same rfl rfl
  | .navigate kind anchor target, q, _, hrun => by
    cases hrun
    rw [Chain.navigate, Chain.walkFrom_eq]
    exact .of_walk kind rfl rfl
  | .joinEntity entity, q, _, hrun => by
    cases hrun
    exact .joinEntity entity q
  | .group _ steps, _, _, hrun => by
    obtain ⟨scope, hscope, hmerge⟩ := group_of_run hrun
    exact .of_merge (answers_runAll steps hscope) hmerge

theorem answers_runAll : ∀ (steps : List (Step β)) {q r : Chain}, runAll steps q = .ok r →
    q.Answers (allNeeds steps q) r
  | [], _, _, hrun => by
    cases hrun
    exact .of_same rfl rfl
  | step :: rest, q, r, hrun => by
    obtain ⟨next, hnext, hrest⟩ := runAll_cons_of_ok hrun
    rw [allNeeds, hnext]
    exact (answers_run step hnext).trans (answers_runAll rest hrest)

end

end Step

/-! ## Names without underscores -/

namespace Chain

/-- A link to a relation or an entity whose own name has no underscore. -/
inductive PlainLink : String × String → Prop
  | relation (parent : String) {relation : String} (h : '_' ∉ relation.toList) :
    PlainLink (stepLink (parent, relation))
  | entity {entity : String} (h : '_' ∉ entity.toList) : PlainLink (entity, entity)

/-- The last underscore of an alias divides the alias it starts from and the relation. -/
theorem stepAlias_inj {parent other relation name : String} (h : '_' ∉ relation.toList)
    (hname : '_' ∉ name.toList) (heq : stepAlias parent relation = stepAlias other name) :
    parent = other ∧ relation = name := by
  have hsplit : ∀ {start last : String}, '_' ∉ last.toList →
      Text.splitLast? '_' (stepAlias start last).toList = some (start.toList, last.toList) := by
    intro start last hlast
    rw [stepAlias, String.toList_append, String.toList_append, List.append_assoc]
    exact Text.splitLast?_append hlast
  have hboth := (hsplit h).symm.trans (heq ▸ hsplit hname)
  simp only [Option.some.injEq, Prod.mk.injEq, String.toList_inj] at hboth
  exact hboth

theorem underscore_mem_stepAlias (parent relation : String) :
    '_' ∈ (stepAlias parent relation).toList := by
  simp [stepAlias]

/-- Such links bind one alias to one relation only. -/
theorem PlainLink.relation_eq {a b : String × String} (ha : PlainLink a) (hb : PlainLink b)
    (halias : a.2 = b.2) : a.1 = b.1 := by
  cases ha with
  | relation parent h =>
    cases hb with
    | relation other hname =>
      obtain ⟨rfl, rfl⟩ := stepAlias_inj h hname halias
      rfl
    | entity hentity =>
      -- An alias that is glued has an underscore, and the name of the entity has none.
      subst halias
      exact absurd (underscore_mem_stepAlias _ _) hentity
  | entity h =>
    cases hb with
    | relation other hname =>
      subst halias
      exact absurd (underscore_mem_stepAlias _ _) h
    | entity hentity => exact halias

theorem plainLink_of_mem_walkLinks {start : String} {relations : List String}
    (h : ∀ name ∈ relations, '_' ∉ name.toList) :
    ∀ link ∈ walkLinks start relations, PlainLink link := by
  induction relations generalizing start with
  | nil => exact nofun
  | cons relation rest ih =>
    rw [List.forall_mem_cons] at h
    intro link hlink
    rcases List.mem_cons.mp hlink with rfl | hlink
    · exact .relation start h.1
    · exact ih h.2 link hlink

theorem length_le_length_walkEnd (base : String) (relations : List String) :
    base.length ≤ (walkEnd base relations).length := by
  induction relations generalizing base with
  | nil => exact Nat.le_refl _
  | cons relation rest ih =>
    have hrest := ih (stepAlias base relation)
    have hstep : base.length ≤ (stepAlias base relation).length := by
      simp [stepAlias, String.length_append]
      omega
    exact Nat.le_trans hstep hrest

/-- **Different paths lead to different aliases** if no relation on them has an underscore. -/
theorem walkEnd_inj {base : String} {relations others : List String}
    (h : ∀ name ∈ relations, '_' ∉ name.toList) (hothers : ∀ name ∈ others, '_' ∉ name.toList)
    (heq : walkEnd base relations = walkEnd base others) : relations = others := by
  have hlast : ∀ (front : List String) (last : String),
      walkEnd base (front ++ [last]) = stepAlias (walkEnd base front) last := by
    intro front last
    simp [walkEnd, List.foldl_append]
  -- A path that goes on leads to a longer alias than the one where it starts.
  have hlonger : ∀ (front : List String) (last : String),
      walkEnd base (front ++ [last]) ≠ base := by
    intro front last hbase
    have hlength := congrArg String.length hbase
    have hfront := length_le_length_walkEnd base front
    simp only [hlast, stepAlias, String.length_append] at hlength
    have hglue : "_".length = 1 := rfl
    omega
  induction relations using List.reverseRecOn generalizing others with
  | nil =>
    cases others using List.reverseRecOn with
    | nil => rfl
    | append_singleton front last => exact absurd heq.symm (hlonger front last)
  | append_singleton relations relation ih =>
    cases others using List.reverseRecOn with
    | nil => exact absurd heq (hlonger relations relation)
    | append_singleton front last =>
      rw [hlast, hlast] at heq
      obtain ⟨hfront, rfl⟩ := stepAlias_inj (h relation (by simp)) (hothers last (by simp)) heq
      have hinit := ih (fun name hname => h name (by simp [hname]))
        (fun name hname => hothers name (by simp [hname])) hfront
      rw [hinit]

end Chain

namespace Step

variable {β : Type} [Builder β]

mutual

/-- Calls that join by names without underscores need such links only. -/
theorem plainLink_of_mem_needs : ∀ (step : Step β) (q : Chain),
    (step.Each fun step => ∀ name ∈ step.joinNames, '_' ∉ name.toList) →
      ∀ link ∈ step.needs q, Chain.PlainLink link
  | .startCondition _, _, h => Chain.plainLink_of_mem_walkLinks h
  | .continueCondition _ _, _, h => Chain.plainLink_of_mem_walkLinks h
  | .select _, _, h => Chain.plainLink_of_mem_walkLinks h
  | .orderBy _ _ _ _, _, h => Chain.plainLink_of_mem_walkLinks h
  | .navigate _ _ _, _, h => Chain.plainLink_of_mem_walkLinks h
  | .joinEntity entity, _, h => by
    intro link hlink
    rw [List.mem_singleton.mp hlink]
    exact .entity (h entity List.mem_cons_self)
  | .group _ steps, q, h => plainLink_of_mem_allNeeds steps q.scope h.2
  | .compare _, _, _ | .subquery _ _ _, _, _ | .skip _, _, _ | .take _, _, _ | .reset, _, _
  | .useBase, _, _ => nofun

theorem plainLink_of_mem_allNeeds : ∀ (steps : List (Step β)) (q : Chain),
    (AllEach (fun step => ∀ name ∈ step.joinNames, '_' ∉ name.toList) steps) →
      ∀ link ∈ allNeeds steps q, Chain.PlainLink link
  | [], _, _ => nofun
  | step :: rest, q, h => by
    intro link hlink
    rw [allNeeds] at hlink
    rcases List.mem_append.mp hlink with hlink | hlink
    · exact plainLink_of_mem_needs step q h.1 link hlink
    · split at hlink
      · exact plainLink_of_mem_allNeeds rest _ h.2 link hlink
      · cases hlink

end

/-! ## Runs -/

/-- **The join of an alias is the first that was needed for it.** After a run, of the links that
its calls have needed the joins have the first one for each alias. So every alias that is needed is
bound; a call has got the join that it needs exactly if no alias is needed for two relations, and
that is so if no name that is joined by has an underscore. Then different paths from the base entity
lead to different joins. -/
theorem mem_links_iff_first_needed {steps : List (Step β)} {base : String} {q : Chain}
    (hrun : runAll steps (Chain.start base) = .ok q) :
    let needs := allNeeds steps (Chain.start base)
    (∀ link, link ∈ Part.links q.parts ↔ needs.find? (·.2 = link.2) = some link) ∧
      (∀ need ∈ needs, ∃ p ∈ q.parts, p.binds need.2 = true) ∧
      ((∀ need ∈ needs, need ∈ Part.links q.parts) ↔
        ∀ a ∈ needs, ∀ b ∈ needs, a.2 = b.2 → a.1 = b.1) ∧
      (AllEach (fun step => ∀ name ∈ step.joinNames, '_' ∉ name.toList) steps →
        ∀ need ∈ needs, need ∈ Part.links q.parts) ∧
      ∀ relations others : List String, (∀ name ∈ relations, '_' ∉ name.toList) →
        (∀ name ∈ others, '_' ∉ name.toList) →
        Chain.walkEnd base relations = Chain.walkEnd base others → relations = others := by
  intro needs
  have hlinks : Part.links q.parts = Chain.firstLinks [] needs := (answers_runAll steps hrun).links
  have hmem : ∀ link, link ∈ Part.links q.parts ↔ needs.find? (·.2 = link.2) = some link := by
    intro link
    rw [hlinks, Chain.mem_firstLinks_iff]
    simp
  have hall : (∀ need ∈ needs, need ∈ Part.links q.parts) ↔
      ∀ a ∈ needs, ∀ b ∈ needs, a.2 = b.2 → a.1 = b.1 := by
    rw [hlinks]
    exact Chain.subset_firstLinks_iff
  refine ⟨hmem, fun need hneed => ?_, hall, fun hnames => ?_, fun _ _ => Chain.walkEnd_inj⟩
  · obtain ⟨relation, hfirst⟩ := Chain.exists_first_link hneed
    have hlink := (hmem (relation, need.2)).mpr hfirst
    exact Part.mem_links (List.mem_map.mpr ⟨_, hlink, rfl⟩)
  · have hplain := plainLink_of_mem_allNeeds steps (Chain.start base) hnames
    exact hall.mpr fun a ha b hb => (hplain a ha).relation_eq (hplain b hb)

/-- A relation that is joined, gone over again in a group, and joined on from there, and an entity;
none of the names has an underscore. -/
theorem joins_of_plain_names :
    let steps : List (Step Transcript) :=
      [.navigate .left .base (.name "orders"),
        .group .and [.startCondition ⟨["orders", "items"], "price"⟩, .compare (.equal (.int32 1))],
        .joinEntity "Group"]
    ∃ q, runAll steps (Chain.start "e") = .ok q ∧
      allNeeds steps (Chain.start "e") = [("e.orders", "e_orders"), ("e.orders", "e_orders"),
        ("e_orders.items", "e_orders_items"), ("Group", "Group")] ∧
      ∀ need ∈ allNeeds steps (Chain.start "e"), need ∈ Part.links q.parts := by
  intro steps
  obtain ⟨q, hrun⟩ : ∃ q, runAll steps (Chain.start "e") = .ok q := ⟨_, rfl⟩
  have hnames : AllEach (fun step => ∀ name ∈ step.joinNames, '_' ∉ name.toList) steps := by
    simp only [steps, AllEach, Each, joinNames, Target.relations]
    decide
  exact ⟨q, hrun, by decide +kernel, (mem_links_iff_first_needed hrun).2.2.2.1 hnames⟩

/-- After a join of the relation `a_b`, the relation `b` of the relation `a` gets no join of its own:
both have the alias `e_a_b`, and it stands for the first. -/
theorem need_left_to_other_relation :
    let steps : List (Step Transcript) :=
      [.navigate .inner .base (.name "a_b"), .navigate .inner .base (.name "a"),
        .navigate .inner .active (.name "b")]
    ∃ q, runAll steps (Chain.start "e") = .ok q ∧
      q.parts = [.join .inner "e.a_b" "e_a_b", .join .inner "e.a" "e_a"] ∧
      q.activeAlias = "e_a_b" ∧
      ("e_a.b", "e_a_b") ∈ allNeeds steps (Chain.start "e") ∧
      ("e_a.b", "e_a_b") ∉ Part.links q.parts ∧
      Chain.walkEnd "e" ["a_b"] = Chain.walkEnd "e" ["a", "b"] := by
  intro steps
  exact ⟨_, rfl, by decide +kernel⟩

end Step

end DeferredQuery
