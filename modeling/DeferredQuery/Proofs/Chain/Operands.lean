import DeferredQuery.Proofs.Chain.Failure
import DeferredQuery.Proofs.Chain.Needed
import DeferredQuery.Proofs.Chain.References

/-!
# Properties as operands

A comparison with another property takes the path of the property, and writes it as it stands behind
the active alias. The other calls that take a path go over its relations and name the property from
the alias at their end. So they name the same column where the path has no relations. Where it has
some, the comparison joins none of them, and what it writes is not a property of any alias.
-/

set_option autoImplicit false

namespace DeferredQuery

/-! ## The two names of a property -/

/-- Over a relation a walk ends at an alias that continues the one it starts from with an
underscore. -/
theorem Chain.exists_walkEnd_eq (start relation : String) (rest : List String) :
    ∃ tail, walkEnd start (relation :: rest) = start ++ ("_" ++ tail) := by
  induction rest generalizing start relation with
  | nil => exact ⟨relation, String.append_assoc⟩
  | cons next rest ih =>
    obtain ⟨tail, htail⟩ := ih (stepAlias start relation) next
    refine ⟨relation ++ ("_" ++ tail), ?_⟩
    rw [walkEnd_cons, htail, stepAlias]
    simp only [String.append_assoc]

/-- The path behind an alias is the reference from the alias only if there is nothing to go over: at
the first relation one has a point and the other an underscore. -/
theorem Path.text_eq_referenceFrom_iff (start : String) (path : Path) :
    start ++ "." ++ path.text = path.referenceFrom start ↔ path.relations = [] := by
  obtain ⟨relations, leaf⟩ := path
  cases relations with
  | nil => exact ⟨fun _ => rfl, fun _ => rfl⟩
  | cons relation rest =>
    refine ⟨fun heq => ?_, nofun⟩
    obtain ⟨tail, htail⟩ := Chain.exists_walkEnd_eq start relation rest
    rw [referenceFrom, htail] at heq
    have hlists := congrArg String.toList heq
    simp at hlists

/-! ## Bound aliases -/

/-- The aliases of a reached chain are the base alias, those known where its calls began, and those
that its joins bind. -/
theorem Chain.Reached.bound_of_mem_aliases {β : Type} [Builder β] {known : List String} {q : Chain}
    (h : Reached β known q) {name : String} (hname : name ∈ q.aliases) :
    name = q.baseAlias ∨ name ∈ known ∨ ∃ p ∈ q.parts, p.binds name = true := by
  obtain ⟨base, hgrew⟩ := h.grew
  rcases List.mem_cons.mp hname with rfl | hmem
  · exact .inl rfl
  · rw [hgrew.history_of_within, joinedAliases, List.mem_append, Part.mem_joinedAliases_iff] at hmem
    exact .inr hmem

theorem Chain.Reached.activeAlias_mem {β : Type} [Builder β] {known : List String} {q : Chain}
    (h : Reached β known q) : q.activeAlias ∈ q.aliases := by
  obtain ⟨base, hgrew⟩ := h.grew
  exact hgrew.active_mem List.mem_cons_self

/-- **A property as an operand is a column exactly if its path has no relations.** On a reached
chain that waits for a comparison the comparison with a property succeeds, makes no join and no
alias known, and writes the path as it stands behind the active alias, which is a bound one. That is
the reference which an ordering by the same path writes, from an alias that it has bound if there
was need, if and only if the path is a single property. -/
theorem Chain.Reached.operand_names_column_iff {β : Type} [Builder β] {known : List String}
    {q : Chain} (h : Reached β known q) (hmode : q.mode = .compare) (path : Path)
    (operator : Operator) (matching : CaseMatching) :
    let operand := q.activeAlias ++ "." ++ path.text
    ∃ r : Chain, (Step.compare (β := β) (.property operator path.route matching)).run q = .ok r ∧
      (∃ k, ∃ part : Part, ∃ text, q.pending? = some (k, part.pushText text) ∧
        r.parts = q.parts.set k
          (part.pushText (completeText operator (.property operand matching) text))) ∧
      r.history = q.history ∧ Part.links r.parts = Part.links q.parts ∧
      (operand = path.referenceFrom q.activeAlias ↔ path.relations = []) ∧
      (q.activeAlias = q.baseAlias ∨ q.activeAlias ∈ known ∨
        ∃ p ∈ r.parts, p.binds q.activeAlias = true) ∧
      ∀ kind direction nulls, ∃ s : Chain,
        (Step.orderBy (β := β) kind direction nulls path).run q = .ok s ∧
        s.parts.getLast? =
          some (.order kind (path.referenceFrom q.activeAlias) direction nulls) ∧
        let owner := walkEnd q.activeAlias path.relations
        owner = q.baseAlias ∨ owner ∈ known ∨ ∃ p ∈ s.parts, p.binds owner = true := by
  intro operand
  obtain ⟨k, part, text, hpending⟩ := h.ready.exists_pending hmode
  have hrun : (Step.compare (β := β) (.property operator path.route matching)).run q = _ :=
    complete_of_pending hmode hpending
  have hanswers := Step.answers_of_completes (β := β) rfl hrun
  refine ⟨_, hrun, ⟨k, part, text, hpending, rfl⟩, rfl, ?_,
    path.text_eq_referenceFrom_iff q.activeAlias, ?_, fun kind direction nulls => ?_⟩
  · rw [hanswers.links, firstLinks, List.append_nil]
  · exact (h.step _ hrun).bound_of_mem_aliases h.activeAlias_mem
  · have hordered : (Step.orderBy (β := β) kind direction nulls path).run q = _ :=
      congrArg Except.ok (orderBy_eq kind direction nulls path q)
    have hgrew := (Grew.kept β).run _ hordered
    refine ⟨_, hordered, List.getLast?_concat, ?_⟩
    refine (h.step _ hordered).bound_of_mem_aliases ?_
    exact hgrew.walkEnd_mem h.activeAlias_mem (.inr rfl) rfl

/-- A property of a joined relation compared with another property of it, its case not to matter. -/
theorem Chain.operand_of_joined_relation :
    ∃ q r s : Chain,
      Step.runAll (β := Transcript)
        [.navigate .left .base (.name "orders"), .startCondition ⟨[], "paid"⟩]
        (Chain.start "e") = .ok q ∧
      (Step.compare (β := Transcript) (.property .lt ⟨["price"]⟩ .folded)).run q = .ok r ∧
      r.parts = [.joinOn .left "e.orders" "e_orders"
        "LOWER(e_orders.paid) < LOWER(e_orders.price)"] ∧
      (Step.orderBy (β := Transcript) .start .ascending none ⟨[], "price"⟩).run q = .ok s ∧
      s.parts.getLast? = some (.order .start "e_orders.price" .ascending none) := by
  obtain ⟨q, hq⟩ : ∃ q, Step.runAll (β := Transcript)
      [.navigate .left .base (.name "orders"), .startCondition ⟨[], "paid"⟩]
      (Chain.start "e") = .ok q := ⟨_, rfl⟩
  have hmode : q.mode = .compare := by
    cases hq
    rfl
  obtain ⟨r, hr, _, _, _, hcolumn, _, hordered⟩ := Chain.Reached.operand_names_column_iff
    ((Reached.start "e").runAll hq) hmode ⟨[], "price"⟩ .lt .folded
  obtain ⟨s, hs, hlast, _⟩ := hordered .start .ascending none
  refine ⟨q, r, s, hq, hr, ?_, hs, ?_⟩
  · cases hq
    cases hr
    decide +kernel
  · -- The ordering names the column that the operand is.
    rw [hlast, ← hcolumn.mpr rfl]
    cases hq
    rfl

/-- Over the relation `a` the comparison writes `e.a.y` and joins nothing, where an ordering by the
same path joins the relation and names the column `e_a.y`. -/
theorem Chain.operand_over_relation_unresolved :
    let path : Path := ⟨["a"], "y"⟩
    ∃ q r s : Chain,
      (Step.startCondition (β := Transcript) ⟨[], "x"⟩).run (Chain.start "e") = .ok q ∧
      q.mode = .compare ∧
      (Step.compare (β := Transcript) (.property .eq path.route .unspecified)).run q = .ok r ∧
      r.parts = [.condition .start "e.x = e.a.y"] ∧ path.referenceFrom q.activeAlias = "e_a.y" ∧
      (∀ p ∈ r.parts, p.binds "e_a" = false) ∧
      (Step.orderBy (β := Transcript) .start .ascending none path).run q = .ok s ∧
      s.parts = [.condition .start "e.x", .join .inner "e.a" "e_a",
        .order .start "e_a.y" .ascending none] := by
  intro path
  exact ⟨_, _, _, rfl, rfl, rfl, by decide +kernel, by decide +kernel, by decide +kernel, rfl,
    by decide +kernel⟩

end DeferredQuery
