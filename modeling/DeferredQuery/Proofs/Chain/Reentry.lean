import DeferredQuery.Proofs.Chain.Needed
import DeferredQuery.Proofs.Chain.Failure

/-!
# Joins that are entered again

A call that goes over relations that have been joined, or to an entity that has, adds no part: it
makes the alias of the last of them active, and the next condition is to go to its join. Which
aliases are joined is a question to the history, which a group shares with the chain around it;
where the join stands is a question to the parts, and those a group has for itself. So the condition
finds the join exactly if the join is among the parts of the chain, as it always is in a query of
its own; in a group, the joins of the chain around it are known and are not found.
-/

set_option autoImplicit false

namespace DeferredQuery

namespace Chain

/-- A walk over relations that are all known misses none. -/
theorem missingSteps_of_known {known : List String} {start : String} {relations : List String}
    (h : ∀ link ∈ walkLinks start relations, link.2 ∈ known) :
    missingSteps known start relations = [] := by
  induction relations generalizing start with
  | nil => rfl
  | cons relation rest ih =>
    rw [walkLinks, List.forall_mem_cons] at h
    rw [missingSteps]
    exact (if_pos h.1).trans (ih h.2)

/-- The last link of a walk binds the alias at its end. -/
theorem walkEnd_of_getLast? {start : String} {relations : List String} {link : String × String}
    (h : (walkLinks start relations).getLast? = some link) :
    walkEnd start relations = link.2 := by
  induction relations generalizing start with
  | nil => cases h
  | cons relation rest ih =>
    rw [walkLinks] at h
    cases rest with
    | nil =>
      cases h
      rfl
    | cons next rest =>
      rw [walkLinks, List.getLast?_cons_cons] at h
      exact ih (by rw [walkLinks]; exact h)

theorem walkLinks_ne_nil {start : String} {relations : List String} {link : String × String}
    (h : (walkLinks start relations).getLast? = some link) : relations ≠ [] := by
  rintro rfl
  cases h

end Chain

namespace Step

variable {β : Type} [Builder β]

/-- The calls that navigate: over the relations of a target, or to an entity by its name. -/
def navigates : Step β → Bool
  | .navigate _ _ _ | .joinEntity _ => true
  | _ => false

/-- **Going again to what is joined** makes its alias the active one and leaves the parts alone. -/
theorem reentered_of_needs {step : Step β} {q : Chain} {need : String × String}
    (hnavigates : step.navigates = true) (hmode : q.mode ≠ .compare)
    (hlast : (step.needs q).getLast? = some need)
    (hknown : ∀ link ∈ step.needs q, link.2 ∈ q.history) :
    step.run q = .ok { q with activeAlias := need.2, mode := .join } := by
  cases step <;> simp only [navigates, Bool.false_eq_true] at hnavigates
  case navigate kind anchor target =>
    simp only [needs] at hlast hknown
    have hwalked := Chain.walkLinks_ne_nil hlast
    have hmissing := Chain.missingSteps_of_known hknown
    simp only [run, Chain.navigate, Chain.walkFrom_eq, if_neg hwalked, Chain.walkMode,
      Chain.enterJoin_mode_of_ne hmode, Chain.walkEnd_of_getLast? hlast, Chain.partsOver,
      Chain.historyOver, hmissing, List.map_nil, List.append_nil]
  case joinEntity entity =>
    simp only [needs] at hlast hknown
    obtain rfl : (entity, entity) = need := by simpa using hlast
    rw [List.forall_mem_singleton] at hknown
    simp only [run, Chain.joinEntity_eq, if_pos hknown, Chain.enterJoin_mode_of_ne hmode]

end Step

namespace Chain

theorem findLast?_binds_eq_none {parts : List Part} {name : String}
    (h : name ∉ Part.joinedAliases parts) : findLast? (Part.binds name) parts = none := by
  refine findLast?_eq_none_iff.mpr fun p hp => ?_
  by_contra hbinds
  exact h (Part.mem_joinedAliases_iff.mpr ⟨p, hp, by simpa using hbinds⟩)

/-- Where no alias is bound twice, the search for the join of an alias finds it. -/
theorem findLast?_binds_of_nodup {parts : List Part} {k : Nat} {join : Part} {name : String}
    (hnodup : (Part.joinedAliases parts).Nodup) (hk : parts[k]? = some join)
    (hbinds : join.binds name = true) : findLast? (Part.binds name) parts = some (k, join) := by
  induction parts generalizing k with
  | nil => cases hk
  | cons first rest ih =>
    rw [findLast?]
    cases k with
    | zero =>
      cases hk
      have hfirst : Part.joinedAliases (join :: rest) = name :: Part.joinedAliases rest := by
        rw [Part.joinedAliases, List.filterMap_cons, Part.joinedAlias?_eq_some_iff.mpr hbinds]
        rfl
      rw [hfirst, List.nodup_cons] at hnodup
      -- No part of the rest binds the name again.
      rw [findLast?_binds_eq_none hnodup.1]
      exact if_pos hbinds
    | succ k =>
      have hrest : (Part.joinedAliases rest).Nodup := by
        refine hnodup.sublist ?_
        exact (List.sublist_cons_self first rest).filterMap _
      rw [ih hrest hk]

/-- After a join, a condition goes to the join that binds the active alias. -/
theorem startCondition_of_binds {q : Chain} {k : Nat} {join : Part} (hmode : q.mode ≠ .get)
    (hnodup : q.joinedAliases.Nodup) (hk : q.parts[k]? = some join)
    (hbinds : join.binds q.activeAlias = true) (property : String) :
    q.startCondition ⟨[], property⟩ = .ok
      { q with
        mode := .compare
        clause := .on
        parts := q.parts.set k (join.writeReference .and (q.reference property)) } := by
  rw [startCondition_of_ne hmode]
  unfold startedJoin?
  rw [partsOver_nil, historyOver_nil, walkEnd_nil, findLast?_binds_of_nodup hnodup hk hbinds]
  rfl

theorem startCondition_of_unbound {q : Chain} (hmode : q.mode ≠ .get)
    (hunbound : q.activeAlias ∉ q.joinedAliases) (property : String) :
    q.startCondition ⟨[], property⟩ = .error (.invalidConditionalJoin q.activeAlias) := by
  rw [startCondition_of_ne hmode]
  unfold startedJoin?
  rw [partsOver_nil, walkEnd_nil, findLast?_binds_eq_none hunbound]

end Chain

namespace Part

/-- What a condition on a join is written behind: nothing if it is the first, and else what the join
has and an `AND`. -/
theorem writeReference_and {p : Part} (h : p.Recorded) {name : String}
    (hbinds : p.binds name = true) :
    ∃ kind relation, ∃ on? : Option String,
      p = ⟨.join kind, [.text relation, .text name] ++ on?.toList.map .text⟩ ∧
        ∀ reference, p.writeReference .and reference =
          .joinOn kind relation name ((on?.map (· ++ " AND ")).getD "" ++ reference) := by
  obtain ⟨kind, relation, own, on?, rfl, hwritten⟩ :=
    h.writeReference_eq (isJoin_of_binds hbinds) .and
  obtain rfl : own = name := by simpa [binds, boundAlias?, Action.isJoin] using hbinds
  have hand : (fun on : String => on ++ " " ++ Combinator.and.text ++ " ") = (· ++ " AND ") := by
    funext on
    rw [String.append_assoc, String.append_assoc]
    rfl
  rw [hand] at hwritten
  exact ⟨kind, relation, on?, rfl, hwritten⟩

end Part

/-- **Going again to what is joined reaches its join exactly if the join is here.** A call on a
reached chain that goes to a relation or an entity which is joined, and over relations that are,
adds no part and makes its alias active. If the alias was known where the calls of the chain began,
as those of the chain around a group are, the next condition finds no join. If not, as always in a
query of its own, one join of the chain binds the alias, and the condition is written to that one:
as the first on it, or behind what it has and an `AND`. -/
theorem Chain.Reached.reentered_join_takes_condition {β : Type} [Builder β] {known : List String}
    {q : Chain} (h : Reached β known q) {step : Step β} {need : String × String}
    (hnavigates : step.navigates = true) (hmode : q.mode ≠ .compare)
    (hlast : (step.needs q).getLast? = some need)
    (hjoined : ∀ link ∈ step.needs q, link.2 ∈ q.history) :
    let entered : Chain := { q with activeAlias := need.2, mode := .join }
    step.run q = .ok entered ∧
      (need.2 ∈ known → ∀ property,
        (Step.startCondition (β := β) ⟨[], property⟩).run entered =
          .error (.invalidConditionalJoin need.2)) ∧
      (need.2 ∉ known → ∃ k kind relation, ∃ on? : Option String,
        q.parts[k]? =
          some ⟨.join kind, [.text relation, .text need.2] ++ on?.toList.map .text⟩ ∧
        (∀ i p, q.parts[i]? = some p → p.binds need.2 = true → i = k) ∧
        ∀ property, (Step.startCondition (β := β) ⟨[], property⟩).run entered = .ok
          { entered with
            mode := .compare
            clause := .on
            parts := q.parts.set k (.joinOn kind relation need.2
              ((on?.map (· ++ " AND ")).getD "" ++ (need.2 ++ "." ++ property))) }) := by
  intro entered
  obtain ⟨_, hgrew⟩ := h.grew
  have hhistory := hgrew.history_of_within
  obtain ⟨hnodup, hfresh⟩ := h.joinedAliases_fresh
  refine ⟨Step.reentered_of_needs hnavigates hmode hlast hjoined, fun hknown property => ?_,
    fun hnew => ?_⟩
  · have hunbound : need.2 ∉ q.joinedAliases := fun hown => hfresh _ hown hknown
    exact Chain.startCondition_of_unbound (q := entered) nofun hunbound property
  · -- The alias is known, and was not where the calls began, so a join of the chain binds it.
    have hown : need.2 ∈ q.joinedAliases := by
      have hmem := hjoined need (List.mem_of_getLast? hlast)
      rw [hhistory] at hmem
      exact (List.mem_append.mp hmem).resolve_left hnew
    obtain ⟨join, hjoin, hbinds⟩ := Part.mem_joinedAliases_iff.mp hown
    obtain ⟨k, hk⟩ := List.mem_iff_getElem?.mp hjoin
    obtain ⟨kind, relation, on?, hshape, hwritten⟩ :=
      Part.writeReference_and (h.ready.recorded join hjoin) hbinds
    refine ⟨k, kind, relation, on?, hshape ▸ hk, fun i p hi hp => ?_, fun property => ?_⟩
    · have hfound := Chain.findLast?_binds_of_nodup hnodup hi hp
      rw [Chain.findLast?_binds_of_nodup hnodup hk hbinds] at hfound
      cases hfound
      rfl
    · have hopened := Chain.startCondition_of_binds (q := entered) nofun hnodup hk hbinds property
      rw [hwritten] at hopened
      exact hopened

/-- A join of two relations with a condition on the second, and the path to it gone over again: the
next condition stands behind the first. -/
theorem Chain.reentry_of_conditioned_join :
    let path : Target := .route ⟨["orders", "items"]⟩
    let steps : List (Step Transcript) :=
      [.navigate .left .base path, .startCondition ⟨[], "x"⟩, .compare (.equal (.int32 1))]
    let again : Step Transcript := .navigate .inner .base path
    ∃ q entered s, Step.runAll steps (Chain.start "e") = .ok q ∧ q.mode = .get ∧
      (again.needs q).getLast? = some ("e_orders.items", "e_orders_items") ∧
      (∀ link ∈ again.needs q, link.2 ∈ q.history) ∧ again.run q = .ok entered ∧
      entered.parts = q.parts ∧ entered.activeAlias = "e_orders_items" ∧
      (Step.startCondition (β := Transcript) ⟨[], "y"⟩).run entered = .ok s ∧
      s.parts = q.parts.set 1 (.joinOn .left "e_orders.items" "e_orders_items"
        "e_orders_items.x = 1 AND e_orders_items.y") := by
  intro path steps again
  obtain ⟨q, hrun⟩ : ∃ q, Step.runAll steps (Chain.start "e") = .ok q := ⟨_, rfl⟩
  have hq : q.mode = .get ∧
      (again.needs q).getLast? = some ("e_orders.items", "e_orders_items") ∧
      (∀ link ∈ again.needs q, link.2 ∈ q.history) ∧
      q.parts[1]? = some (.joinOn .left "e_orders.items" "e_orders_items"
        "e_orders_items.x = 1") := by
    cases hrun
    decide +kernel
  obtain ⟨hmode, hlast, hjoined, hjoin⟩ := hq
  obtain ⟨hentered, _, hfound⟩ := Chain.Reached.reentered_join_takes_condition
    ((Reached.start "e").runAll hrun) rfl (by rw [hmode]; decide) hlast hjoined
  obtain ⟨k, kind, relation, on?, hk, hunique, hopened⟩ := hfound List.not_mem_nil
  obtain rfl := hunique 1 _ hjoin (by decide)
  rw [hjoin] at hk
  refine ⟨q, _, _, hrun, hmode, hlast, hjoined, hentered, rfl, rfl, hopened "y", ?_⟩
  cases on? with
  | none => cases hk
  | some on =>
    cases hk
    rfl

/-- In a group the relation that the chain around it has joined is known, and going over it again
adds no join; but the condition that follows finds none, and the group fails. -/
theorem Chain.reentry_misses_outer_join :
    let around := (Chain.start "e").navigate .inner .base (.name "a")
    let again : Step Transcript := .navigate .inner .base (.name "a")
    let condition : Step Transcript := .startCondition ⟨[], "x"⟩
    around.parts = [.join .inner "e.a" "e_a"] ∧ Reached Transcript ["e_a"] around.scope ∧
      around.scope.mode = .get ∧ again.needs around.scope = [("e.a", "e_a")] ∧
      ∃ entered, again.run around.scope = .ok entered ∧ entered.parts = [] ∧
        entered.activeAlias = "e_a" ∧
        condition.run entered = .error (.invalidConditionalJoin "e_a") ∧
        (Step.group .and [again, condition]).run around =
          .error (.invalidConditionalJoin "e_a") := by
  intro around again condition
  have hreached : Reached Transcript ["e_a"] around.scope := .scope (.step again (.start "e") rfl)
  exact ⟨rfl, hreached, rfl, rfl, _, rfl, rfl, rfl, rfl, rfl⟩

end DeferredQuery
