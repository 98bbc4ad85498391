import DeferredQuery.Builder.Transcript
import DeferredQuery.Proofs.Chain.Completion
import DeferredQuery.Proofs.Chain.Passing

/-!
# Where a comparison lands

A condition is opened by one call and completed by another, and between them other calls may stand.
The part to complete is searched for again. For a condition of the statement the search finds the
part that was opened: it is the last condition, and no call in between adds one. For the condition
of a join it finds the last join that carries a condition, and that is the join that was opened
exactly if no later one carries a condition.
-/

set_option autoImplicit false

namespace DeferredQuery

/-! ## What was opened -/

namespace Chain

/-- A call has written a reference to the property at the end of the condition of join `k`, which it
may have joined on the way. -/
def WritesOn (k : Nat) (property : String) (q opened : Chain) : Prop :=
  opened.parts[k]? ≠ q.parts[k]? ∧ ∃ kind relation name text owner,
    opened.parts[k]? =
      some (Part.joinOn kind relation name (text ++ (owner ++ "." ++ property)))

end Chain

namespace Step

variable {β : Type} [Builder β]

/-- A new condition part is the last condition, and waits for its comparison. -/
theorem pending_of_opens_filter {path : Path} {opening : Step β} {q opened : Chain} {k : Nat}
    {kind : ConditionKind} {text : String} (hopen : opening.Opens path)
    (hrun : opening.run q = .ok opened) (hnew : q.parts.length ≤ k)
    (hk : opened.parts[k]? = some (.condition kind text)) :
    opened.mode = .compare ∧ opened.clause = .filter ∧
      Chain.findLast? (·.action.isCondition) opened.parts = some (k, .condition kind text) := by
  obtain ⟨joins, start, _, ⟨kind', rfl⟩ | ⟨index, join, combinator, hindex, hjoin, rfl⟩⟩ :=
    opened_of_run hopen hrun <;> dsimp only at hk
  · refine ⟨rfl, rfl, ?_⟩
    -- Position `k` is not among the joins of the walk, so it is the last one.
    by_cases hlt : k < (q.partsOver joins start path.relations).length
    · rw [List.getElem?_append_left hlt] at hk
      obtain ⟨s, hs⟩ := Chain.getElem?_partsOver hnew hk
      cases hs
    · have hlen := (List.getElem?_eq_some_iff.mp hk).1
      rw [List.length_append, List.length_singleton] at hlen
      obtain rfl : k = (q.partsOver joins start path.relations).length := by omega
      rw [Chain.findLast?_append_singleton (by rfl)]
      simpa using hk
  · by_cases hik : index = k
    · subst hik
      rw [List.getElem?_set_self (List.getElem?_eq_some_iff.mp hindex).1, Option.some.injEq] at hk
      have haction := congrArg Part.action hk
      rw [Part.writeReference_action] at haction
      exact nomatch (congrArg Action.isJoin haction).symm.trans (Part.isJoin_of_written hjoin)
    · rw [List.getElem?_set_ne hik] at hk
      obtain ⟨s, hs⟩ := Chain.getElem?_partsOver hnew hk
      cases hs

/-- A reference written to a join leaves conditions going to joins. -/
theorem clause_of_opens_on {path : Path} {opening : Step β} {q opened : Chain} {k : Nat}
    {property : String} (hopen : opening.Opens path) (hrun : opening.run q = .ok opened)
    (hwrites : q.WritesOn k property opened) : opened.mode = .compare ∧ opened.clause = .on := by
  obtain ⟨joins, start, _, ⟨kind', rfl⟩ | ⟨_, _, _, _, _, rfl⟩⟩ := opened_of_run hopen hrun
  · obtain ⟨hne, kind, relation, name, text, owner, hk⟩ := hwrites
    exfalso
    -- Otherwise a condition was added behind joins that carry none, so no join has changed.
    dsimp only at hk hne
    by_cases hold : k < q.parts.length
    · apply hne
      rw [List.getElem?_append_left (by simp [Chain.partsOver]; omega),
        Chain.getElem?_partsOver_of_lt hold]
    · by_cases hlt : k < (q.partsOver joins start path.relations).length
      · rw [List.getElem?_append_left hlt] at hk
        obtain ⟨s, hs⟩ := Chain.getElem?_partsOver (by omega) hk
        cases hs
      · rw [List.getElem?_append_right (by omega)] at hk
        cases List.mem_singleton.mp (List.mem_of_getElem? hk)
  · exact ⟨rfl, rfl⟩

end Step

/-! ## Conditions of the statement -/

/-- **A comparison lands on the condition that was opened.** The calls that pass over it succeed and
leave what stood before them in place; every comparison then succeeds and rewrites that part only. A
reference without spaces is followed by the operator and the operand, and folded if the operand asks
for it. -/
theorem Step.comparison_lands_on_condition {β : Type} [Builder β] {path : Path} {opening : Step β}
    {passing : List (Step β)} {q opened : Chain} {k : Nat} {kind : ConditionKind} {owner : String}
    (hopen : opening.Opens path) (hrun : opening.run q = .ok opened) (hnew : q.parts.length ≤ k)
    (hk : opened.parts[k]? = some (.condition kind (owner ++ "." ++ path.leaf)))
    (hpasses : ∀ step ∈ passing, step.passes = true) :
    ∃ before, Step.runAll passing opened = .ok before ∧
      (∀ (i : Nat) part, opened.parts[i]? = some part → before.parts[i]? = some part) ∧
      ∀ (comparison : Step β) operator operand folds,
        comparison.Writes before.activeAlias operator operand folds →
        ∃ after, comparison.run before = .ok after ∧
          after.parts.length = before.parts.length ∧
          (∀ i : Nat, i ≠ k → after.parts[i]? = before.parts[i]?) ∧
          (' ' ∉ owner.toList → ' ' ∉ path.leaf.toList →
            let reference := owner ++ "." ++ path.leaf
            after.parts[k]? = some (.condition kind
              ((if folds then Keyword.lowered reference else reference) ++ " " ++ operator.text ++
                " " ++ operand))) := by
  obtain ⟨hmode, hclause, hlast⟩ := pending_of_opens_filter hopen hrun hnew hk
  obtain ⟨before, hbefore, hpassed⟩ := runAll_of_passes hpasses opened
  refine ⟨before, hbefore, fun i part hi => hpassed.getElem? hi, ?_⟩
  intro comparison operator operand folds hwrites
  -- No part that was added since is a condition, so the search comes back to part `k`.
  have hpending : before.pending? =
      some (k, (Part.mk (.condition kind) []).pushText (owner ++ "." ++ path.leaf)) := by
    obtain ⟨added, hadded, hno⟩ := hpassed.parts
    unfold Chain.pending?
    rw [hpassed.clause, hclause, hadded]
    exact (Chain.findLast?_append_of_forall hno).trans hlast
  have hlt : k < before.parts.length := (List.getElem?_eq_some_iff.mp (hpassed.getElem? hk)).1
  have hrewritten := (run_of_writes hwrites).trans
    (Chain.complete_of_pending (hpassed.mode hmode) hpending)
  refine ⟨_, hrewritten, List.length_set, fun i hi => List.getElem?_set_ne (Ne.symm hi), ?_⟩
  intro howner hleaf
  have hspace : ' ' ∉ (owner ++ "." ++ path.leaf).toList := by simp [howner, hleaf]
  rw [List.getElem?_set_self hlt, Chain.completeText_of_no_space hspace]
  rfl

/-- The comparison of a property over a relation, opened on an ordered query and completed after a
join by its name, which carries a condition of its own. -/
theorem Step.comparison_lands_past_joined_entity :
    ∃ opened before after : Chain,
      (startCondition (β := Transcript) ⟨["a"], "x"⟩).run (Chain.start "e") = .ok opened ∧
      runAll (β := Transcript) [.joinEntity "B"] opened = .ok before ∧
      (compare (β := Transcript) (.equal (.text "It's"))).run before = .ok after ∧
      after.parts[1]? = some (.condition .start "LOWER(e_a.x) = 'it''s'") := by
  obtain ⟨before, hbefore, _, hlands⟩ :=
    @Step.comparison_lands_on_condition Transcript _ ⟨["a"], "x"⟩ _ [.joinEntity "B"]
      (Chain.start "e") _ 1 .start "e_a" .start rfl (by decide) rfl (by simp [passes])
  obtain ⟨after, hafter, _, _, htext⟩ := hlands (.compare (.equal (.text "It's"))) _ _ _
    (.comparison _)
  refine ⟨_, before, after, rfl, hbefore, hafter, ?_⟩
  rw [htext (by decide) (by decide)]
  rfl

/-! ## Conditions of joins -/

namespace Chain

/-- The parts differ in the text at the end of part `k`, and in nothing else. -/
def DifferAtEndOf (k : Nat) (before after : Chain) : Prop :=
  ∃ (part : Part) (text completed : String), before.parts[k]? = some (part.pushText text) ∧
    completed ≠ text ∧ after.parts = before.parts.set k (part.pushText completed)

/-- No part after position `k` is a join that carries a condition. -/
def NoLaterOn (k : Nat) (q : Chain) : Prop :=
  ∀ i part, k < i → q.parts[i]? = some part → part.hasJoinCondition = false

theorem DifferAtEndOf.unique {j k : Nat} {before after : Chain} (hj : DifferAtEndOf j before after)
    (hk : DifferAtEndOf k before after) : j = k := by
  obtain ⟨part, text, completed, hpart, hne, hafter⟩ := hj
  obtain ⟨part', text', completed', hpart', hne', hafter'⟩ := hk
  by_cases hjk : j = k
  · exact hjk
  · exfalso
    have hset : before.parts[j]? = some (part.pushText completed) := by
      rw [← List.getElem?_set_ne (Ne.symm hjk), ← hafter', hafter,
        List.getElem?_set_self (List.getElem?_eq_some_iff.mp hpart).1]
    rw [hpart, Option.some.injEq] at hset
    exact hne (by simpa [Part.pushText] using hset.symm)

end Chain

/-- **A comparison lands on the last join that carries a condition.** That is the join whose
condition was opened exactly if no later join carries one by then, and in that case the comparison
changes the text at its end and nothing else. -/
theorem Step.comparison_lands_on_join_iff {β : Type} [Builder β] {path : Path}
    {opening comparison : Step β} {passing : List (Step β)} {q opened before after : Chain}
    {k : Nat} (hopen : opening.Opens path) (hrun : opening.run q = .ok opened)
    (hon : q.WritesOn k path.leaf opened) (hpasses : ∀ step ∈ passing, step.passes = true)
    (hpassing : Step.runAll passing opened = .ok before) (hcompares : comparison.compares = true)
    (hafter : comparison.run before = .ok after) :
    (∃ j, k ≤ j ∧ before.NoLaterOn j ∧ before.DifferAtEndOf j after) ∧
      (before.DifferAtEndOf k after ↔ before.NoLaterOn k) := by
  obtain ⟨hmode, hclause⟩ := clause_of_opens_on hopen hrun hon
  obtain ⟨_, hbefore, hpassed⟩ := runAll_of_passes hpasses opened
  rw [hpassing] at hbefore
  cases hbefore
  obtain ⟨_, kind, relation, name, text, owner, hk⟩ := hon
  have hkept := hpassed.getElem? hk
  have hpending : before.pending? = Chain.findLast? Part.hasJoinCondition before.parts := by
    rw [Chain.pending?, hpassed.clause, hclause]
  cases hfound : Chain.findLast? Part.hasJoinCondition before.parts with
  | none => exact nomatch Chain.findLast?_eq_none_iff.mp hfound _ (List.mem_of_getElem? hkept)
  | some found =>
    obtain ⟨j, join⟩ := found
    obtain ⟨hj, hcarries, hlater⟩ := Chain.findLast?_some hfound
    have hkj : k ≤ j := Nat.le_of_not_lt fun hlt => nomatch hlater k _ hlt hkept
    obtain ⟨kind', relation', name', text', rfl⟩ := Part.hasJoinCondition_iff.mp hcarries
    obtain ⟨operator, operand, folds, hwrites⟩ := writes_of_run hcompares hafter
    have hwaits : before.pending? =
        some (j, (Part.mk (.join kind') [relation', name']).pushText text') :=
      hpending.trans hfound
    rw [run_of_writes hwrites, Chain.complete_of_pending (hpassed.mode hmode) hwaits] at hafter
    have hset := congrArg Chain.parts (Except.ok.inj hafter).symm
    have hdiffer : before.DifferAtEndOf j after :=
      ⟨⟨.join kind', [relation', name']⟩, text', _, hj, Chain.completeText_ne _ _ _, hset⟩
    -- The one change is at `j`, and `j` is the last join with a condition; `k` is one of them.
    refine ⟨⟨j, hkj, hlater, hdiffer⟩, fun h => ?_, fun h => ?_⟩
    · rw [h.unique hdiffer]
      exact hlater
    · have hjk : j ≤ k := Nat.le_of_not_lt fun hlt => nomatch (h j _ hlt hj).symm.trans hcarries
      exact Nat.le_antisymm hkj hjk ▸ hdiffer

/-- The condition of the last of two joins is opened, and before the comparison only a bound and a
join without a condition follow. -/
theorem Step.comparison_lands_on_last_join :
    ∃ q opened before after : Chain,
      runAll (β := Transcript) [.joinEntity "A", .joinEntity "B"] (Chain.start "e") = .ok q ∧
      (startCondition (β := Transcript) ⟨[], "x"⟩).run q = .ok opened ∧
      runAll (β := Transcript) [.take 3, .navigate .left .active (.name "c")] opened = .ok before ∧
      (compare (β := Transcript) (.equal (.int32 1))).run before = .ok after ∧
      before.DifferAtEndOf 1 after := by
  refine ⟨_, _, _, _, rfl, rfl, rfl, rfl, ?_⟩
  have hopen : (startCondition (β := Transcript) ⟨[], "x"⟩).Opens ⟨[], "x"⟩ := .start
  have hpasses : ∀ step ∈ [take (β := Transcript) 3, .navigate .left .active (.name "c")],
      step.passes = true := by
    simp [passes]
  have hcompares : (compare (β := Transcript) (.equal (.int32 1))).compares = true := rfl
  refine (Step.comparison_lands_on_join_iff (q := ((Chain.start "e").joinEntity "A").joinEntity "B")
    hopen rfl ⟨?_, .inner, "B", "B", "true AND ", "B", rfl⟩ hpasses rfl hcompares rfl).2.mpr ?_
  · decide
  · intro i part hi hpart
    rcases i with _ | _ | _ | _ | i <;> cases hpart <;> first | omega | rfl

/-- Returning to the first of two joins opens a condition there, and the comparison lands on the
second. -/
theorem Step.comparison_misses_reentered_join :
    ∃ q opened after : Chain,
      runAll (β := Transcript) [.joinEntity "A", .joinEntity "B", .joinEntity "A"]
        (Chain.start "e") = .ok q ∧
      (startCondition (β := Transcript) ⟨[], "x"⟩).run q = .ok opened ∧ q.WritesOn 0 "x" opened ∧
      (compare (β := Transcript) (.equal (.int32 1))).run opened = .ok after ∧
      after.parts[0]? = opened.parts[0]? ∧
      after.parts = [.joinOn .inner "A" "A" "true AND A.x", .joinOn .inner "B" "B" "true = 1"] := by
  refine ⟨_, _, _, rfl, rfl, ⟨?_, .inner, "A", "A", "true AND ", "A", rfl⟩, rfl, rfl, rfl⟩
  decide

end DeferredQuery
