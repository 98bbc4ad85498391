import DeferredQuery.Proofs.Chain.Recorded
import DeferredQuery.Proofs.Chain.References

/-!
# Joins start from known aliases

A join names its relation as `alias.relation`. `Grounded` reads the joins of a chain in their order:
each starts from an alias that was known at first or that a join before it binds. Calls keep it if
the names that they join by have no point in them, for then the last point of such a text divides
the alias from the relation. A group is grounded in what the chain around it knows, so its joins
still stand behind those that they start from when they are handed over.
-/

set_option autoImplicit false

namespace DeferredQuery

/-! ## Links -/

namespace Part

/-- The relation or the entity of a join, and the alias that it binds. -/
def link? (p : Part) : Option (String × String) :=
  match p.action, p.arguments with
  | .join _, .text relation :: .text name :: _ => some (relation, name)
  | _, _ => none

/-- The links of the joins among some parts, in order. -/
def links (parts : List Part) : List (String × String) := parts.filterMap link?

theorem link?_of_not_isJoin {p : Part} (h : p.action.isJoin = false) : p.link? = none := by
  unfold link?
  split
  · rename_i haction _
    rw [haction] at h
    cases h
  · rfl

theorem links_of_not_isJoin {parts : List Part} (h : ∀ p ∈ parts, p.action.isJoin = false) :
    links parts = [] :=
  List.filterMap_eq_nil_iff.mpr fun p hp => link?_of_not_isJoin (h p hp)

@[simp] theorem links_append (first second : List Part) :
    links (first ++ second) = links first ++ links second :=
  List.filterMap_append

/-- A join that has a link binds the alias of the link. -/
theorem binds_of_link? {p : Part} {relation name : String} (h : p.link? = some (relation, name)) :
    p.binds name = true := by
  unfold link? at h
  split at h
  · rename_i haction harguments
    cases h
    simp [binds, boundAlias?, haction, harguments, Action.isJoin]
  · cases h

/-- A recorded join has a link, whose text is its first argument. -/
theorem Recorded.exists_link? {p : Part} (h : p.Recorded) (hp : p.action.isJoin = true) :
    ∃ relation name, p.link? = some (relation, name) ∧
      p.arguments.head? = some (.text relation) := by
  obtain ⟨kind, relation, name, rfl | ⟨on, rfl⟩⟩ := h.of_isJoin hp
  · exact ⟨relation, name, rfl, rfl⟩
  · exact ⟨relation, name, rfl, rfl⟩

theorem mem_links {parts : List Part} {name : String} (h : name ∈ (links parts).map (·.2)) :
    ∃ p ∈ parts, p.binds name = true := by
  obtain ⟨⟨relation, _⟩, hlink, rfl⟩ := List.mem_map.mp h
  obtain ⟨p, hp, hlink⟩ := List.mem_filterMap.mp hlink
  exact ⟨p, hp, binds_of_link? hlink⟩

@[simp] theorem front_link? (p : Part) : p.front.link? = p.link? := by
  rcases p with ⟨_ | _, _ | ⟨_ | _, _ | ⟨_ | _, _⟩⟩⟩ <;> rfl

theorem SameJoin.link?_eq {p other : Part} (h : p.SameJoin other) : other.link? = p.link? := by
  by_cases hjoin : p.action.isJoin = true
  · rw [← front_link? other, h.front hjoin, front_link?]
  · have hnone : p.action.isJoin = false := by simpa using hjoin
    rw [link?_of_not_isJoin hnone, link?_of_not_isJoin (by rw [h.action, hnone])]

end Part

/-! ## Grounded links -/

/-- What a join names: a relation of a known alias, or an entity. Neither has a point in its own
name. -/
inductive Names (known : List String) : String → Prop
  | relation {parent relation : String} (hparent : parent ∈ known)
    (hname : '.' ∉ relation.toList) : Names known (Chain.stepRelation parent relation)
  | entity {entity : String} (hname : '.' ∉ entity.toList) : Names known entity

/-- Each link in turn names a relation of a known alias or an entity, and its own alias is known to
the links behind it. -/
def Grounded : List String → List (String × String) → Prop
  | _, [] => True
  | known, link :: rest => Names known link.1 ∧ Grounded (known ++ [link.2]) rest

/-- The last point of a reference divides the alias from the relation. -/
theorem Chain.splitLast?_stepRelation {parent relation : String} (h : '.' ∉ relation.toList) :
    Text.splitLast? '.' (stepRelation parent relation).toList =
      some (parent.toList, relation.toList) := by
  rw [stepRelation, String.toList_append, String.toList_append, List.append_assoc]
  exact Text.splitLast?_append h

theorem Chain.stepRelation_inj {parent other relation name : String} (h : '.' ∉ relation.toList)
    (hname : '.' ∉ name.toList) (heq : stepRelation parent relation = stepRelation other name) :
    parent = other ∧ relation = name := by
  have hboth := (splitLast?_stepRelation h).symm.trans (heq ▸ splitLast?_stepRelation hname)
  simp only [Option.some.injEq, Prod.mk.injEq, String.toList_inj] at hboth
  exact hboth

/-- A relation is named of a known alias only. -/
theorem Names.parent_mem {known : List String} {parent relation : String}
    (hname : '.' ∉ relation.toList) (h : Names known (Chain.stepRelation parent relation)) :
    parent ∈ known := by
  generalize htext : Chain.stepRelation parent relation = text at h
  cases h with
  | relation hparent hown =>
    obtain ⟨rfl, rfl⟩ := Chain.stepRelation_inj hname hown htext
    exact hparent
  | entity hentity =>
    -- An entity has no point in its name.
    subst htext
    simp [Chain.stepRelation] at hentity

namespace Grounded

theorem append {known : List String} {first second : List (String × String)}
    (hfirst : Grounded known first) (hsecond : Grounded (known ++ first.map (·.2)) second) :
    Grounded known (first ++ second) := by
  induction first generalizing known with
  | nil => simpa using hsecond
  | cons link first ih => exact ⟨hfirst.1, ih hfirst.2 (by simpa using hsecond)⟩

/-- What stands behind some links names relations of what was known or of what these bind. -/
theorem names_of_append {known : List String} {before rest : List (String × String)}
    {link : String × String} (h : Grounded known (before ++ link :: rest)) :
    Names (known ++ before.map (·.2)) link.1 := by
  induction before generalizing known with
  | nil => simpa using h.1
  | cons first before ih => simpa using ih h.2

end Grounded

/-- The joins of grounded parts that start from an alias stand behind the one that binds it. -/
theorem Part.exists_binds_of_grounded {base : String} {parts : List Part}
    (h : Grounded [base] (links parts)) {index : Nat} {part : Part}
    (hindex : parts[index]? = some part) {parent relation name : String}
    (hlink : part.link? = some (Chain.stepRelation parent relation, name))
    (hname : '.' ∉ relation.toList) :
    parent = base ∨ ∃ before other, before < index ∧ parts[before]? = some other ∧
      other.binds parent = true := by
  obtain ⟨hlt, rfl⟩ := List.getElem?_eq_some_iff.mp hindex
  have hparts : parts = parts.take index ++ parts[index] :: parts.drop (index + 1) := by
    rw [List.getElem_cons_drop, List.take_append_drop]
  have hlinks : links parts = links (parts.take index) ++
      (Chain.stepRelation parent relation, name) :: links (parts.drop (index + 1)) := by
    conv_lhs => rw [hparts]
    rw [links_append]
    simp only [links, List.filterMap_cons, hlink]
  rw [hlinks] at h
  rcases List.mem_append.mp (h.names_of_append.parent_mem hname) with hbase | hbefore
  · exact .inl (List.mem_singleton.mp hbase)
  · obtain ⟨other, hother, hbinds⟩ := mem_links hbefore
    obtain ⟨before, hbefore, rfl⟩ := List.mem_take_iff_getElem.mp hother
    rw [Nat.lt_min] at hbefore
    exact .inr ⟨before, _, hbefore.1, List.getElem?_eq_getElem hbefore.2, hbinds⟩

/-! ## What calls ground -/

namespace Chain

/-- The link of a step. -/
def stepLink (s : String × String) : String × String := (stepRelation s.1 s.2, stepName s)

theorem links_partsOver (kind : JoinKind) (start : String) (relations : List String) (q : Chain) :
    Part.links (q.partsOver kind start relations) =
      Part.links q.parts ++ (missingSteps q.history start relations).map stepLink := by
  rw [partsOver, Part.links_append, Part.links, Part.links, List.filterMap_map]
  congr 1
  exact congrFun List.filterMap_eq_map _

/-- A walk from a known alias joins relations of known aliases. -/
theorem grounded_missingSteps {known history : List String} {start : String}
    {relations : List String} (hstart : start ∈ known) (hhistory : history ⊆ known)
    (hnames : ∀ name ∈ relations, '.' ∉ name.toList) :
    Grounded known ((missingSteps history start relations).map stepLink) := by
  induction relations generalizing known history start with
  | nil => trivial
  | cons relation rest ih =>
    rw [List.forall_mem_cons] at hnames
    rw [missingSteps]
    split
    · rename_i hknown
      exact ih (hhistory hknown) hhistory hnames.2
    · refine ⟨.relation hstart hnames.1, ih (by simp [stepName, stepLink]) ?_ hnames.2⟩
      exact List.append_subset.mpr ⟨List.subset_append_of_subset_left _ hhistory,
        List.subset_append_right _ _⟩

/-- Calls have added links that are grounded in the aliases that the chain had. -/
structure Grounds (q r : Chain) : Prop where
  grew : q.Grew r
  added : q.activeAlias ∈ q.aliases → ∃ links, Part.links r.parts = Part.links q.parts ++ links ∧
    r.history = q.history ++ links.map (·.2) ∧ Grounded q.aliases links

namespace Grounds

theorem refl (q : Chain) : q.Grounds q := ⟨.refl q, fun _ => ⟨[], by simp, by simp, trivial⟩⟩

theorem trans {q r s : Chain} (hqr : q.Grounds r) (hrs : r.Grounds s) : q.Grounds s := by
  refine ⟨hqr.grew.trans hrs.grew, fun hactive => ?_⟩
  obtain ⟨first, hlinks, hhistory, hfirst⟩ := hqr.added hactive
  obtain ⟨second, hlinks', hhistory', hsecond⟩ := hrs.added (hqr.grew.active_mem hactive)
  have haliases : r.aliases = q.aliases ++ first.map (·.2) := by
    rw [aliases, aliases, hqr.grew.base, hhistory, List.cons_append]
  refine ⟨first ++ second, ?_, ?_, hfirst.append (haliases ▸ hsecond)⟩
  · rw [hlinks', hlinks, List.append_assoc]
  · rw [hhistory', hhistory, List.map_append, List.append_assoc]

theorem of_same {q r : Chain} (hgrew : q.Grew r) (hhistory : r.history = q.history)
    (hlinks : Part.links r.parts = Part.links q.parts) : q.Grounds r :=
  ⟨hgrew, fun _ => ⟨[], by simp [hlinks], by simp [hhistory], trivial⟩⟩

theorem of_walk (kind : JoinKind) {start : String} {relations : List String} {q r : Chain}
    (hgrew : q.Grew r) (hstart : start = q.baseAlias ∨ start = q.activeAlias)
    (hnames : ∀ name ∈ relations, '.' ∉ name.toList)
    (hhistory : r.history = q.historyOver start relations)
    (hlinks : Part.links r.parts = Part.links (q.partsOver kind start relations)) :
    q.Grounds r := by
  refine ⟨hgrew, fun hactive => ⟨_, hlinks.trans (links_partsOver kind start relations q), ?_, ?_⟩⟩
  · rw [hhistory, historyOver, List.map_map]
    rfl
  · refine grounded_missingSteps ?_ (List.subset_cons_self _ _) hnames
    rcases hstart with rfl | rfl
    · exact List.mem_cons_self
    · exact hactive

theorem joinNames_of_opens {β : Type} {path : Path} {step : Step β} (h : step.Opens path) :
    step.joinNames = path.relations := by
  cases h <;> rfl

section Calls

variable {β : Type} [Builder β] {step : Step β} {q r scope : Chain}

theorem of_opens {path : Path} (hopen : step.Opens path)
    (hnames : ∀ name ∈ step.joinNames, '.' ∉ name.toList) (hrun : step.run q = .ok r) :
    q.Grounds r := by
  have hgrew := Grew.of_opens hopen hrun
  rw [joinNames_of_opens hopen] at hnames
  obtain ⟨joins, start, hstart, ⟨kind, rfl⟩ | ⟨index, join, combinator, hindex, hfound, rfl⟩⟩ :=
    Step.opened_of_run hopen hrun
  · refine of_walk joins hgrew hstart hnames rfl ?_
    rw [Part.links_append]
    exact List.append_nil _
  · refine of_walk joins hgrew hstart hnames rfl ?_
    exact Part.filterMap_set hindex (Part.sameJoin_writeReference _ _ hfound).link?_eq

theorem of_completes (hcompares : step.compares = true) (hrun : step.run q = .ok r) :
    q.Grounds r := by
  have hgrew := Grew.of_completes hcompares hrun
  obtain ⟨index, part, text, completed, hpending, rfl⟩ := Step.completed_of_run hcompares hrun
  obtain ⟨hindex, hwaits⟩ := Chain.pending?_some hpending
  exact of_same hgrew rfl (Part.filterMap_set hindex (Part.sameJoin_pushText _ hwaits).link?_eq)

theorem of_passes (hpasses : step.passes = true)
    (hnames : ∀ name ∈ step.joinNames, '.' ∉ name.toList) (hrun : step.run q = .ok r) :
    q.Grounds r := by
  have hgrew := Grew.of_passes hpasses hrun
  rcases Step.passed_of_run hpasses hrun with ⟨entity, rfl, rfl⟩ | ⟨kind, start, more, hpassage⟩
  · by_cases hknown : entity ∈ q.history
    · rw [joinEntity_eq, if_pos hknown] at hgrew ⊢
      exact of_same hgrew rfl rfl
    · rw [joinEntity_eq, if_neg hknown] at hgrew ⊢
      have hentity : Grounded q.aliases [(entity, entity)] :=
        ⟨.entity (hnames entity List.mem_cons_self), trivial⟩
      exact ⟨hgrew, fun _ => ⟨_, Part.links_append q.parts _, rfl, hentity⟩⟩
  · refine of_walk kind hgrew hpassage.anchor hnames hpassage.history ?_
    rw [hpassage.parts, Part.links_append,
      Part.links_of_not_isJoin fun p hp => (hpassage.recorded p hp).2.1, List.append_nil]

/-- The joins of a scope are grounded in what the chain around it knows, and nothing has been joined
there in between. -/
theorem of_merge {kind : ConditionKind} (hscope : q.scope.Grounds scope)
    (hmerge : q.merge kind scope = .ok r) : q.Grounds r := by
  have hgrew := Grew.of_merge hscope.grew hmerge
  obtain ⟨group, _, hgroup, rfl⟩ := Chain.merge_of_ok hmerge
  obtain ⟨links, hlinks, hhistory, hgrounded⟩ := hscope.added List.mem_cons_self
  refine ⟨hgrew, fun _ => ⟨links, ?_, hhistory, hgrounded⟩⟩
  have hothers : Part.links scope.otherParts = links :=
    (Part.filterMap_filter_conditions (fun _ => Part.link?_of_not_isJoin) _).trans hlinks
  have hnone : Part.links group.toList = [] := Part.links_of_not_isJoin fun p hp => by
    obtain ⟨text, rfl⟩ := hgroup p (Option.mem_toList.mp hp)
    rfl
  rw [Part.links_append, Part.links_append, hothers, hnone, List.append_nil]

end Calls

/-- Calls that join by names without points ground what they join. -/
theorem keptBy (β : Type) [Builder β] :
    KeptBy β (fun step => ∀ name ∈ step.joinNames, '.' ∉ name.toList) Grounds where
  refl := refl
  trans := trans
  opens := of_opens
  completes hcompares _ := of_completes hcompares
  passes := of_passes
  reset q := of_same ((Grew.kept β).reset q) rfl rfl
  merge := of_merge

end Grounds

end Chain

end DeferredQuery
