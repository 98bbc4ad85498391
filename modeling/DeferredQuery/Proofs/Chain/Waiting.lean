import DeferredQuery.Proofs.Chain.Appending

/-!
# References that wait for a comparison

A call that opens a condition writes a reference, and the reference waits for the comparison that
completes it. A chain does not keep which of its references wait: it knows that one does, in the
mode `compare`, and a comparison searches the parts for it. So the references of a run are noted
beside the chain here. An opening call adds a note that waits, and a comparison settles the newest
note of the part that it has written to.

Nothing forbids a call to open a condition while another one waits, or to leave it with `reset` or
with a group, and a comparison may be written to a later join. A reference is passed over then, and
goes on waiting. `tidy` says of a call that it does none of this. After tidy calls one reference
waits in the mode `compare`, none in the others, and a comparison completes the one that does.
-/

set_option autoImplicit false

namespace DeferredQuery

/-- A reference that a call has written where it opened a condition, with the position of its part;
and whether it waits for its comparison. -/
structure Note where
  part : Nat
  reference : String
  waits : Bool
  deriving DecidableEq, Repr

namespace Note

/-- How many references wait. -/
def waiting (notes : List Note) : Nat := notes.countP (·.waits)

/-- The newest reference of a part has been compared. The newest note stands first. -/
def settle (part : Nat) : List Note → List Note
  | [] => []
  | n :: rest =>
    if n.part = part then { n with waits := false } :: rest else n :: settle part rest

theorem part_of_mem_settle {part : Nat} {notes : List Note} {n : Note}
    (h : n ∈ settle part notes) : ∃ old ∈ notes, old.part = n.part := by
  induction notes with
  | nil => cases h
  | cons first rest ih =>
    rw [settle] at h
    split at h
    · rcases List.mem_cons.mp h with rfl | h
      · exact ⟨first, List.mem_cons_self, rfl⟩
      · exact ⟨n, List.mem_cons_of_mem _ h, rfl⟩
    · rcases List.mem_cons.mp h with rfl | h
      · exact ⟨n, List.mem_cons_self, rfl⟩
      · obtain ⟨old, hold, hpart⟩ := ih h
        exact ⟨old, List.mem_cons_of_mem _ hold, hpart⟩

theorem settle_newest (n : Note) (rest : List Note) :
    settle n.part (n :: rest) = { n with waits := false } :: rest := if_pos rfl

theorem waiting_eq_zero {notes : List Note} (h : ∀ n ∈ notes, n.waits = false) :
    waiting notes = 0 := by
  refine List.countP_eq_zero.mpr fun n hn => ?_
  rw [h n hn]
  exact Bool.false_ne_true

theorem waiting_cons {n : Note} (h : n.waits = true) (rest : List Note) :
    waiting (n :: rest) = waiting rest + 1 := by
  rw [waiting, List.countP_cons_of_pos h]
  rfl

end Note

/-! ## Notes of a run -/

namespace Chain

/-- The position of the part that a started condition writes to: a new one behind the joins of its
walk, or after a join the one that it has found. -/
def startedAt? (path : Path) (q : Chain) : Option Nat :=
  if q.mode = .get then some (q.partsOver .inner q.baseAlias path.relations).length
  else (q.startedJoin? path).map (·.1)

/-- The position of the part that a continued condition writes to. -/
def continuedAt (combinator : Combinator) (path : Path) (q : Chain) : Nat :=
  match q.continuedJoin? (joinKindOf combinator) path with
  | some (index, _) => index
  | none => (q.partsOver (joinKindOf combinator) q.activeAlias path.relations).length

def isConditionAt (k : Nat) (q : Chain) : Bool := (q.parts[k]?).any (·.action.isCondition)

/-- Where a part of a scope stands when the scope has been merged behind so many parts: its
conditions have become one part, behind the others. -/
def mergedAt (length k : Nat) (scope : Chain) : Nat :=
  if scope.isConditionAt k then length + scope.otherParts.length
  else length + ((scope.parts.take k).filter (!·.action.isCondition)).length

/-- Whether a part of a scope is a condition that a later one starts over. -/
def isDropped (k : Nat) (scope : Chain) : Bool :=
  scope.isConditionAt k && (scope.parts.drop (k + 1)).any (·.action = .condition .start)

/-- The notes of a scope when it has been merged behind so many parts. -/
def mergedNotes (length : Nat) (notes : List Note) (scope : Chain) : List Note :=
  (notes.filter fun n => !scope.isDropped n.part).map fun n =>
    { n with part := scope.mergedAt length n.part }

/-- Whether a comparison finds the part of the newest note: where conditions go to joins, no join
behind it carries one. -/
def reachesNewest (notes : List Note) (q : Chain) : Bool :=
  match q.clause, notes with
  | .on, n :: _ => (q.parts.drop (n.part + 1)).all (!·.hasJoinCondition)
  | _, _ => true

end Chain

namespace Step

variable {β : Type} [Builder β]

mutual

/-- The notes after a call on a chain with these notes. -/
def note : Step β → Chain → List Note → List Note
  | .startCondition path, q, notes =>
    match q.startedAt? path with
    | some k => ⟨k, path.referenceFrom q.columnStart, true⟩ :: notes
    | none => notes
  | .continueCondition combinator path, q, notes =>
    ⟨q.continuedAt combinator path, path.referenceFrom q.activeAlias, true⟩ :: notes
  | .compare _, q, notes | .subquery _ _ _, q, notes =>
    match q.pending? with
    | some (k, _) => Note.settle k notes
    | none => notes
  | .group _ steps, q, notes =>
    match runAll steps q.scope with
    | .ok scope => scope.mergedNotes q.parts.length (noteAll steps q.scope []) ++ notes
    | .error _ => notes
  | .select _, _, notes | .orderBy _ _ _ _, _, notes | .skip _, _, notes | .take _, _, notes
  | .reset, _, notes | .useBase, _, notes | .navigate _ _ _, _, notes
  | .joinEntity _, _, notes => notes

/-- The notes after calls that succeed. -/
def noteAll : List (Step β) → Chain → List Note → List Note
  | [], _, notes => notes
  | step :: rest, q, notes =>
    match step.run q with
    | .ok next => noteAll rest next (step.note q notes)
    | .error _ => notes

end

mutual

/-- Whether a call passes over no reference that waits: it opens a condition, resets or is a group
only where none waits, and a comparison reaches the newest. A group is tidy itself, and leaves
nothing open. -/
def tidy : Step β → Chain → List Note → Bool
  | .startCondition _, q, _ | .continueCondition _ _, q, _ | .reset, q, _ => q.mode != .compare
  | .compare _, q, notes | .subquery _ _ _, q, notes => q.reachesNewest notes
  | .group _ steps, q, _ =>
    q.mode != .compare && allTidy steps q.scope [] &&
      match runAll steps q.scope with
      | .ok scope => scope.mode != .compare
      | .error _ => true
  | .select _, _, _ | .orderBy _ _ _ _, _, _ | .skip _, _, _ | .take _, _, _ | .useBase, _, _
  | .navigate _ _ _, _, _ | .joinEntity _, _, _ => true

def allTidy : List (Step β) → Chain → List Note → Bool
  | [], _, _ => true
  | step :: rest, q, notes =>
    step.tidy q notes &&
      match step.run q with
      | .ok next => allTidy rest next (step.note q notes)
      | .error _ => true

end

end Step

/-! ## What waits -/

/-- Whether references are written to the part: it is a condition, or a join that carries one. -/
def Part.carries (p : Part) : Bool := p.action.isCondition || p.hasJoinCondition

theorem Part.Rewritten.carries {p other : Part} (h : p.Rewritten other) : other.carries = true := by
  cases h <;> rfl

/-- A reference is the end of the join that it is written to, behind nothing or a space. -/
theorem Part.Recorded.writeReference_ends {p : Part} (h : p.Recorded)
    (hjoin : p.action.isJoin = true) (combinator : Combinator) (reference : String) :
    ∃ (front : Part) (before : String),
      p.writeReference combinator reference = front.pushText (before ++ reference) ∧
        (before = "" ∨ ∃ old, before = old ++ " ") := by
  obtain ⟨kind, relation, name, on?, rfl, hwritten⟩ := h.writeReference_eq hjoin combinator
  refine ⟨⟨.join kind, [.text relation, .text name]⟩, _, hwritten reference, ?_⟩
  cases on? with
  | none => exact .inl rfl
  | some on => exact .inr ⟨_, rfl⟩

namespace Chain

/-- The chain waits for the comparison of a note: its reference stands at the end of its part,
behind nothing or a space, and the part is the last condition, or where conditions go to joins, a
join that carries one. -/
structure Awaits (q : Chain) (n : Note) : Prop where
  mode : q.mode = .compare
  ends : ∃ (front : Part) (before : String),
    q.parts[n.part]? = some (front.pushText (before ++ n.reference)) ∧
      (before = "" ∨ ∃ old, before = old ++ " ")
  condition : q.clause = .filter →
    ∃ part, findLast? (·.action.isCondition) q.parts = some (n.part, part)
  join : q.clause = .on → ∃ part, q.parts[n.part]? = some part ∧ part.hasJoinCondition = true

theorem awaits_of_condition {q : Chain} {walked : List Part} {kind : ConditionKind}
    {reference : String} (hmode : q.mode = .compare) (hclause : q.clause = .filter)
    (hparts : q.parts = walked ++ [.condition kind reference]) :
    q.Awaits ⟨walked.length, reference, true⟩ := by
  refine ⟨hmode, ⟨⟨.condition kind, []⟩, "", ?_, .inl rfl⟩, fun _ => ?_, fun hon => ?_⟩
  · rw [hparts, List.getElem?_concat_length, String.empty_append]
    rfl
  · rw [hparts]
    exact ⟨_, findLast?_append_singleton rfl⟩
  · rw [hclause] at hon
    cases hon

theorem awaits_of_join {q : Chain} {walked : List Part} {index : Nat} {join : Part}
    {combinator : Combinator} {reference : String} (hmode : q.mode = .compare)
    (hclause : q.clause = .on) (hindex : walked[index]? = some join) (hrecorded : join.Recorded)
    (hjoin : join.action.isJoin = true)
    (hparts : q.parts = walked.set index (join.writeReference combinator reference)) :
    q.Awaits ⟨index, reference, true⟩ := by
  have hwritten : q.parts[index]? = some (join.writeReference combinator reference) := by
    rw [hparts]
    exact List.getElem?_set_self (List.getElem?_eq_some_iff.mp hindex).1
  refine ⟨hmode, ?_, fun hfilter => ?_, fun _ => ?_⟩
  · obtain ⟨front, before, hends, hbefore⟩ :=
      hrecorded.writeReference_ends hjoin combinator reference
    exact ⟨front, before, hends ▸ hwritten, hbefore⟩
  · rw [hclause] at hfilter
    cases hfilter
  · exact ⟨_, hwritten, (hrecorded.writeReference hjoin combinator reference).2⟩

/-- The part of a note that is waited for carries text of a condition. -/
theorem Awaits.carries {q : Chain} {n : Note} (h : q.Awaits n) :
    ∃ part, q.parts[n.part]? = some part ∧ part.carries = true := by
  unfold Part.carries
  cases hclause : q.clause with
  | filter =>
    obtain ⟨part, hlast⟩ := h.condition hclause
    obtain ⟨hpart, hcondition, _⟩ := findLast?_some hlast
    exact ⟨part, hpart, by rw [hcondition, Bool.true_or]⟩
  | on =>
    obtain ⟨part, hpart, hcarries⟩ := h.join hclause
    exact ⟨part, hpart, by rw [hcarries, Bool.or_true]⟩

/-- Calls that pass over an open condition leave it to be waited for. -/
theorem Awaits.passed {q r : Chain} {n : Note} (h : q.Awaits n) (hpassed : q.Passed r) :
    r.Awaits n := by
  obtain ⟨front, before, hends, hbefore⟩ := h.ends
  obtain ⟨added, hadded, hno⟩ := hpassed.parts
  refine ⟨hpassed.mode h.mode, ⟨front, before, hpassed.getElem? hends, hbefore⟩, ?_, ?_⟩
  · intro hclause
    obtain ⟨part, hlast⟩ := h.condition (hpassed.clause ▸ hclause)
    rw [hadded, findLast?_append_of_forall hno]
    exact ⟨part, hlast⟩
  · intro hclause
    obtain ⟨part, hpart, hcarries⟩ := h.join (hpassed.clause ▸ hclause)
    exact ⟨part, hpassed.getElem? hpart, hcarries⟩

/-- A comparison finds the part of the note that is waited for, if that is the newest one and can be
reached. -/
theorem Awaits.pending? {q : Chain} {n : Note} {rest : List Note} (h : q.Awaits n)
    (hreaches : q.reachesNewest (n :: rest) = true) :
    ∃ part, q.pending? = some (n.part, part) ∧ q.parts[n.part]? = some part := by
  unfold Chain.pending?
  unfold reachesNewest at hreaches
  cases hclause : q.clause with
  | filter =>
    obtain ⟨part, hlast⟩ := h.condition hclause
    exact ⟨part, hlast, (findLast?_some hlast).1⟩
  | on =>
    obtain ⟨part, hpart, hcarries⟩ := h.join hclause
    rw [hclause] at hreaches
    refine ⟨part, findLast?_eq_some_iff.mpr ⟨hpart, hcarries, fun j other hj hother => ?_⟩, hpart⟩
    have hmem : other ∈ q.parts.drop (n.part + 1) := by
      rw [List.mem_iff_getElem?]
      exact ⟨j - (n.part + 1), by rw [List.getElem?_drop, Nat.add_sub_cancel' hj, hother]⟩
    simpa using List.all_eq_true.mp hreaches other hmem

end Chain

/-! ## One call -/

namespace Step

variable {β : Type} [Builder β] {step : Step β} {q r : Chain}

/-- **An opening call** adds one note, and the chain waits for it then. -/
theorem awaits_of_opens {path : Path} (hopen : step.Opens path) (hrun : step.run q = .ok r)
    (hq : q.Ready) (notes : List Note) :
    ∃ n, step.note q notes = n :: notes ∧ n.waits = true ∧ r.Awaits n := by
  have hwalked : ∀ kind start, ∀ p ∈ q.partsOver kind start path.relations, p.Recorded :=
    fun kind start => Chain.recorded_of_mem_partsOver kind start path.relations hq.recorded
  cases hopen with
  | start =>
    simp only [run] at hrun
    rw [note, Chain.startedAt?, Chain.columnStart]
    by_cases hmode : q.mode = .get
    · rw [Chain.startCondition_of_get hmode] at hrun
      cases hrun
      simp only [if_pos hmode]
      exact ⟨_, rfl, rfl, Chain.awaits_of_condition rfl rfl rfl⟩
    · rw [Chain.startCondition_of_ne hmode] at hrun
      simp only [if_neg hmode]
      cases hfound : q.startedJoin? path with
      | none =>
        simp only [hfound] at hrun
        cases hrun
      | some found =>
        obtain ⟨index, join⟩ := found
        simp only [hfound] at hrun
        cases hrun
        obtain ⟨hindex, hbinds, _⟩ := Chain.findLast?_some hfound
        refine ⟨_, rfl, rfl, Chain.awaits_of_join rfl rfl hindex ?_ ?_ rfl⟩
        · exact hwalked _ _ _ (List.mem_of_getElem? hindex)
        · exact Part.isJoin_of_binds hbinds
  | next combinator =>
    simp only [run, Chain.continueCondition_eq] at hrun
    rw [note, Chain.continuedAt]
    cases hfound : q.continuedJoin? (Chain.joinKindOf combinator) path with
    | none =>
      simp only [hfound] at hrun
      cases hrun
      exact ⟨_, rfl, rfl, Chain.awaits_of_condition rfl rfl rfl⟩
    | some found =>
      obtain ⟨index, join⟩ := found
      simp only [hfound] at hrun
      cases hrun
      obtain ⟨hindex, hcarries, hclause⟩ := Chain.continuedJoin?_some hfound
      refine ⟨_, rfl, rfl, Chain.awaits_of_join rfl hclause hindex ?_ ?_ rfl⟩
      · exact hwalked _ _ _ (List.mem_of_getElem? hindex)
      · exact Part.isJoin_of_hasJoinCondition hcarries

theorem note_of_passes (hpasses : step.passes = true) (notes : List Note) :
    step.note q notes = notes := by
  cases step <;> simp only [passes, Bool.false_eq_true] at hpasses <;> rfl

theorem note_of_compares (hcompares : step.compares = true) (notes : List Note) :
    step.note q notes =
      match q.pending? with
      | some (k, _) => Note.settle k notes
      | none => notes := by
  cases step <;> simp only [compares, Bool.false_eq_true] at hcompares <;> rfl

theorem mode_of_compares (hcompares : step.compares = true) (hrun : step.run q = .ok r) :
    q.mode = .compare ∧ r.mode = .get := by
  obtain ⟨operator, operand, folds, hwrites⟩ := writes_of_run hcompares hrun
  rw [run_of_writes hwrites] at hrun
  obtain ⟨hmode, _, _, _, _, rfl⟩ := Chain.complete_of_ok hrun
  exact ⟨hmode, rfl⟩

theorem tidy_of_opens {path : Path} (hopen : step.Opens path) (notes : List Note) :
    step.tidy q notes = (q.mode != .compare) := by
  cases hopen <;> rfl

theorem tidy_of_compares (hcompares : step.compares = true) (notes : List Note) :
    step.tidy q notes = q.reachesNewest notes := by
  cases step <;> simp only [compares, Bool.false_eq_true] at hcompares <;> rfl

end Step

/-! ## Merging -/

/-- An element that is kept has as many before it as are kept of those that were. -/
theorem getElem?_filter_take {α : Type} {p : α → Bool} {xs : List α} {k : Nat} {a : α}
    (hk : xs[k]? = some a) (ha : p a = true) :
    (xs.filter p)[((xs.take k).filter p).length]? = some a := by
  induction xs generalizing k with
  | nil => cases hk
  | cons first rest ih =>
    cases k with
    | zero =>
      cases hk
      simp [ha]
    | succ k =>
      have hrest := ih hk
      by_cases hfirst : p first = true
      · simp [hfirst, hrest]
      · simp [hfirst, hrest]

namespace Chain

/-- A part of a scope that carries text of a condition becomes one that does, or part of one, when
the scope is merged. -/
theorem carries_of_merge {kind : ConditionKind} {q scope r : Chain} {k : Nat} {part : Part}
    (hmerge : q.merge kind scope = .ok r) (hk : scope.parts[k]? = some part)
    (hcarries : part.carries = true) :
    ∃ other, r.parts[scope.mergedAt q.parts.length k]? = some other ∧ other.carries = true := by
  obtain ⟨group, hgroup, hshape, rfl⟩ := merge_of_ok hmerge
  have hat : scope.isConditionAt k = part.action.isCondition := by
    rw [isConditionAt, hk]
    rfl
  dsimp only
  rw [mergedAt, hat]
  by_cases hcondition : part.action.isCondition = true
  · rw [if_pos hcondition]
    cases group with
    | none =>
      -- There is a condition, so there is a group.
      have hpart : part ∈ scope.conditionParts :=
        List.mem_filter.mpr ⟨List.mem_of_getElem? hk, hcondition⟩
      unfold groupPart? at hgroup
      split at hgroup
      · rename_i hempty
        rw [hempty] at hpart
        cases hpart
      · split at hgroup <;> cases hgroup
    | some own =>
      obtain ⟨text, rfl⟩ := hshape own rfl
      refine ⟨.condition kind text, ?_, rfl⟩
      rw [← List.length_append]
      exact List.getElem?_concat_length
  · rw [if_neg hcondition]
    have hother : scope.otherParts[((scope.parts.take k).filter
        (!·.action.isCondition)).length]? = some part :=
      getElem?_filter_take hk (by simpa using hcondition)
    refine ⟨part, ?_, hcarries⟩
    rw [List.append_assoc, List.getElem?_append_right (Nat.le_add_right _ _),
      Nat.add_sub_cancel_left, List.getElem?_append_left]
    · exact hother
    · exact (List.getElem?_eq_some_iff.mp hother).1

/-! ## Runs -/

/-- What notes say of a chain. Each names a part that carries text of a condition, and in the mode
`compare` the chain waits for the newest. If all calls have been tidy, that is the only one that
waits, and in the other modes none does. -/
structure Noted (tidy : Bool) (notes : List Note) (q : Chain) : Prop where
  carried : ∀ n ∈ notes, ∃ part, q.parts[n.part]? = some part ∧ part.carries = true
  newest : q.mode = .compare → ∃ n rest, notes = n :: rest ∧ n.waits = true ∧ q.Awaits n
  older : tidy = true → ∀ n ∈ notes.tail, n.waits = false
  idle : tidy = true → q.mode ≠ .compare → ∀ n ∈ notes, n.waits = false

namespace Noted

variable {β : Type} [Builder β] {step : Step β} {q r scope : Chain} {tidy : Bool}
  {notes inner : List Note}

theorem within (known : List String) (base : String) : (Chain.within known base).Noted true [] :=
  ⟨nofun, nofun, nofun, nofun⟩

/-- Notes stay with their parts. -/
theorem carried_after (h : q.Noted tidy notes) (happends : q.Appends r) :
    ∀ n ∈ notes, ∃ part, r.parts[n.part]? = some part ∧ part.carries = true := by
  obtain ⟨_, hkept⟩ := happends.exists_index
  intro n hn
  obtain ⟨part, hpart, hcarries⟩ := h.carried n hn
  obtain ⟨other, hother, rfl | ⟨_, hrewritten⟩⟩ := hkept n.part part hpart
  · exact ⟨other, hother, hcarries⟩
  · exact ⟨other, hother, hrewritten.carries⟩

theorem of_opens {path : Path} (h : q.Noted tidy notes) (hopen : step.Opens path)
    (hrun : step.run q = .ok r) (hq : q.Ready) :
    r.Noted (tidy && step.tidy q notes) (step.note q notes) := by
  obtain ⟨n, hnote, hwaits, hawaits⟩ := Step.awaits_of_opens hopen hrun hq notes
  rw [hnote, Step.tidy_of_opens hopen]
  refine ⟨?_, fun _ => ⟨n, notes, rfl, hwaits, hawaits⟩, fun htidy => ?_, fun _ hmode => ?_⟩
  · intro m hm
    rcases List.mem_cons.mp hm with rfl | hm
    · exact hawaits.carries
    · exact h.carried_after (.of_opens hopen hrun hq) m hm
  · simp only [Bool.and_eq_true, bne_iff_ne] at htidy
    exact h.idle htidy.1 htidy.2
  · exact absurd hawaits.mode hmode

theorem of_completes (h : q.Noted tidy notes) (hcompares : step.compares = true)
    (hrun : step.run q = .ok r) (hq : q.Ready) :
    r.Noted (tidy && step.tidy q notes) (step.note q notes) := by
  obtain ⟨hmode, hdone⟩ := Step.mode_of_compares hcompares hrun
  obtain ⟨n, rest, rfl, _, hawaits⟩ := h.newest hmode
  have hcarried := h.carried_after (.of_completes hcompares hrun hq)
  rw [Step.tidy_of_compares hcompares, Step.note_of_compares hcompares]
  obtain ⟨index, part, text, _, hpending, _⟩ := Step.completed_of_run hcompares hrun
  simp only [hpending]
  have hsettled : (tidy && q.reachesNewest (n :: rest)) = true →
      tidy = true ∧ Note.settle index (n :: rest) = { n with waits := false } :: rest := by
    intro htidy
    rw [Bool.and_eq_true] at htidy
    obtain ⟨_, hreached, _⟩ := hawaits.pending? htidy.2
    rw [hpending] at hreached
    cases hreached
    exact ⟨htidy.1, Note.settle_newest n rest⟩
  refine ⟨fun m hm => ?_, fun hagain => ?_, fun htidy => ?_, fun htidy _ => ?_⟩
  · obtain ⟨old, hold, hpart⟩ := Note.part_of_mem_settle hm
    rw [← hpart]
    exact hcarried old hold
  · rw [hdone] at hagain
    cases hagain
  · obtain ⟨hbefore, hnotes⟩ := hsettled htidy
    rw [hnotes]
    exact h.older hbefore
  · obtain ⟨hbefore, hnotes⟩ := hsettled htidy
    rw [hnotes]
    intro m hm
    rcases List.mem_cons.mp hm with rfl | hm
    · rfl
    · exact h.older hbefore m hm

theorem of_passes (h : q.Noted tidy notes) (hpasses : step.passes = true)
    (hrun : step.run q = .ok r) :
    r.Noted (tidy && step.tidy q notes) (step.note q notes) := by
  obtain ⟨next, hnext, hpassed⟩ := Step.run_of_passes hpasses q
  obtain rfl : r = next := Except.ok.inj (hrun.symm.trans hnext)
  rw [Step.note_of_passes hpasses]
  refine ⟨h.carried_after (.of_passes hpasses hrun), fun hmode => ?_, fun htidy => ?_,
    fun htidy hmode => ?_⟩
  · obtain ⟨n, rest, hnotes, hwaits, hawaits⟩ :=
      h.newest (Step.mode_of_passes hpasses hrun hmode)
    exact ⟨n, rest, hnotes, hwaits, hawaits.passed hpassed⟩
  · rw [Bool.and_eq_true] at htidy
    exact h.older htidy.1
  · rw [Bool.and_eq_true] at htidy
    exact h.idle htidy.1 fun hwaited => hmode (hpassed.mode hwaited)

theorem of_reset (h : q.Noted tidy notes) : q.reset.Noted (tidy && q.mode != .compare) notes := by
  refine ⟨h.carried, nofun, fun htidy => ?_, fun htidy _ => ?_⟩
  · rw [Bool.and_eq_true] at htidy
    exact h.older htidy.1
  · simp only [Bool.and_eq_true, bne_iff_ne] at htidy
    exact h.idle htidy.1 htidy.2

/-- The notes of the scope are behind those of the chain in time, so before them in the list. -/
theorem of_merge {kind : ConditionKind} {scopeTidy : Bool} (h : q.Noted tidy notes)
    (hscope : scope.Noted scopeTidy inner) (hmerge : q.merge kind scope = .ok r)
    (happends : q.Appends r) :
    r.Noted (tidy && (q.mode != .compare && scopeTidy && scope.mode != .compare))
      (scope.mergedNotes q.parts.length inner ++ notes) := by
  have hidle : (tidy && (q.mode != .compare && scopeTidy && scope.mode != .compare)) = true →
      ∀ n ∈ scope.mergedNotes q.parts.length inner ++ notes, n.waits = false := by
    intro htidy n hn
    simp only [Bool.and_eq_true, bne_iff_ne] at htidy
    obtain ⟨hbefore, ⟨hmode, hinside⟩, hclosed⟩ := htidy
    rcases List.mem_append.mp hn with hn | hn
    · obtain ⟨old, hold, rfl⟩ := List.mem_map.mp hn
      exact hscope.idle hinside hclosed old (List.mem_of_mem_filter hold)
    · exact h.idle hbefore hmode n hn
  refine ⟨fun n hn => ?_, fun hmode => ?_, fun htidy n hn => ?_, fun htidy _ => hidle htidy⟩
  · rcases List.mem_append.mp hn with hn | hn
    · obtain ⟨old, hold, rfl⟩ := List.mem_map.mp hn
      obtain ⟨part, hpart, hcarries⟩ := hscope.carried old (List.mem_of_mem_filter hold)
      exact carries_of_merge hmerge hpart hcarries
    · exact h.carried_after happends n hn
  · obtain ⟨_, _, _, rfl⟩ := merge_of_ok hmerge
    cases hmode
  · exact hidle htidy n (List.mem_of_mem_tail hn)

/-- **After tidy calls** one reference waits in the mode `compare`, and none in the others. -/
theorem waiting_eq (h : q.Noted true notes) :
    Note.waiting notes = if q.mode = .compare then 1 else 0 := by
  split
  · rename_i hmode
    obtain ⟨n, rest, rfl, hwaits, _⟩ := h.newest hmode
    have holder : ∀ m ∈ rest, m.waits = false := h.older rfl
    rw [Note.waiting_cons hwaits, Note.waiting_eq_zero holder]
  · rename_i hmode
    exact Note.waiting_eq_zero (h.idle rfl hmode)

end Noted

end Chain

namespace Step

variable {β : Type} [Builder β]

mutual

/-- **Every call** keeps what the notes say, and if it is tidy, that none but the newest waits. -/
theorem noted_of_run : ∀ (step : Step β) {q r : Chain} {tidy : Bool} {notes : List Note}, q.Ready →
    q.Noted tidy notes → step.run q = .ok r →
      r.Noted (tidy && step.tidy q notes) (step.note q notes)
  | .startCondition _, _, _, _, _, hq, h, hrun => h.of_opens .start hrun hq
  | .continueCondition combinator _, _, _, _, _, hq, h, hrun =>
    h.of_opens (.next combinator) hrun hq
  | .compare _, _, _, _, _, hq, h, hrun => h.of_completes rfl hrun hq
  | .subquery _ _ _, _, _, _, _, hq, h, hrun => h.of_completes rfl hrun hq
  | .select _, _, _, _, _, _, h, hrun => h.of_passes rfl hrun
  | .orderBy _ _ _ _, _, _, _, _, _, h, hrun => h.of_passes rfl hrun
  | .skip _, _, _, _, _, _, h, hrun => h.of_passes rfl hrun
  | .take _, _, _, _, _, _, h, hrun => h.of_passes rfl hrun
  | .useBase, _, _, _, _, _, h, hrun => h.of_passes rfl hrun
  | .navigate _ _ _, _, _, _, _, _, h, hrun => h.of_passes rfl hrun
  | .joinEntity _, _, _, _, _, _, h, hrun => h.of_passes rfl hrun
  | .reset, q, _, _, _, _, h, hrun => by
    cases hrun
    exact h.of_reset
  | .group kind steps, q, r, _, notes, hq, h, hrun => by
    have happends := Chain.Appends.of_run hq hrun
    obtain ⟨scope, hscope, hmerge⟩ := group_of_run hrun
    have hinside := noted_of_runAll steps (.within q.history q.baseAlias) (.within _ _) hscope
    simp only [tidy, note, hscope]
    exact h.of_merge hinside hmerge happends

theorem noted_of_runAll : ∀ (steps : List (Step β)) {q r : Chain} {tidy : Bool} {notes : List Note},
    q.Ready → q.Noted tidy notes → runAll steps q = .ok r →
      r.Noted (tidy && allTidy steps q notes) (noteAll steps q notes)
  | [], _, _, _, _, _, h, hrun => by
    cases hrun
    rw [allTidy, noteAll, Bool.and_true]
    exact h
  | step :: rest, q, r, tidy, notes, hq, h, hrun => by
    obtain ⟨next, hnext, hrest⟩ := runAll_cons_of_ok hrun
    have hready := (Chain.Ready.kept β).run step hnext hq
    simp only [allTidy, noteAll, hnext]
    rw [← Bool.and_assoc]
    exact noted_of_runAll rest hready (noted_of_run step hq h hnext) hrest

end

/-- A comparison that reaches the newest note writes the operator and the operand behind its
reference. -/
theorem completed_of_awaits {comparison : Step β} {q r : Chain} {n : Note} {rest : List Note}
    (hcompares : comparison.compares = true) (hrun : comparison.run q = .ok r)
    (hawaits : q.Awaits n) (hreaches : q.reachesNewest (n :: rest) = true) :
    ∃ (front : Part) (before : String) (operator : Operator) (operand : String) (folds : Bool),
      comparison.Writes q.activeAlias operator operand folds ∧
      q.parts[n.part]? = some (front.pushText (before ++ n.reference)) ∧
      r = { q with
        mode := .get
        parts := q.parts.set n.part (front.pushText
          (Chain.completeText operator ⟨operand, folds⟩ (before ++ n.reference))) } ∧
      (' ' ∉ n.reference.toList →
        Chain.completeText operator ⟨operand, folds⟩ (before ++ n.reference) =
          before ++ (if folds then Keyword.lowered n.reference else n.reference) ++ " " ++
            operator.text ++ " " ++ operand) := by
  obtain ⟨front, before, hends, hbefore⟩ := hawaits.ends
  obtain ⟨part, hpending, hpart⟩ := hawaits.pending? hreaches
  rw [hends] at hpart
  cases hpart
  obtain ⟨operator, operand, folds, hwrites⟩ := writes_of_run hcompares hrun
  rw [run_of_writes hwrites, Chain.complete_of_pending hawaits.mode hpending] at hrun
  cases hrun
  exact ⟨front, before, operator, operand, folds, hwrites, hends, rfl,
    Chain.completeText_of_ends hbefore⟩

/-- **When one reference waits at most.** After a run every note names a part that carries text of a
condition, and in the mode `compare` a reference waits. A call that opens a condition always adds
one; so if it is made in that mode, two wait. But if all calls of the run have been tidy, one waits
in the mode `compare` and none in the others, and a comparison that can reach it writes the operator
and the operand behind the one that waits, and leaves none. -/
theorem one_reference_waits {steps : List (Step β)} {known : List String} {base : String}
    {q : Chain} (hrun : runAll steps (Chain.within known base) = .ok q) :
    let notes := noteAll steps (Chain.within known base) []
    (∀ n ∈ notes, ∃ part, q.parts[n.part]? = some part ∧ part.carries = true) ∧
    (q.mode = .compare → 0 < Note.waiting notes) ∧
    (∀ (opening : Step β) (path : Path) (r : Chain), opening.Opens path → opening.run q = .ok r →
      Note.waiting (opening.note q notes) = Note.waiting notes + 1) ∧
    (allTidy steps (Chain.within known base) [] = true →
      Note.waiting notes ≤ 1 ∧ (Note.waiting notes = 1 ↔ q.mode = .compare) ∧
      ∀ (comparison : Step β) (r : Chain), comparison.compares = true →
        comparison.run q = .ok r → q.reachesNewest notes = true →
        Note.waiting (comparison.note q notes) = 0 ∧
        ∃ n ∈ notes, n.waits = true ∧
        ∃ (front : Part) (before : String) (operator : Operator) (operand : String) (folds : Bool),
          comparison.Writes q.activeAlias operator operand folds ∧
          q.parts[n.part]? = some (front.pushText (before ++ n.reference)) ∧
          r = { q with
            mode := .get
            parts := q.parts.set n.part (front.pushText
              (Chain.completeText operator ⟨operand, folds⟩ (before ++ n.reference))) } ∧
          (' ' ∉ n.reference.toList →
            Chain.completeText operator ⟨operand, folds⟩ (before ++ n.reference) =
              before ++ (if folds then Keyword.lowered n.reference else n.reference) ++ " " ++
                operator.text ++ " " ++ operand)) := by
  intro notes
  have hready := (Chain.Ready.kept β).runAll steps hrun (.within known base)
  have hnoted : q.Noted (allTidy steps (Chain.within known base) []) notes := by
    have hrunning := noted_of_runAll steps (.within known base) (.within known base) hrun
    rw [Bool.true_and] at hrunning
    exact hrunning
  refine ⟨hnoted.carried, fun hmode => ?_, fun opening path r hopen hopened => ?_, fun htidy => ?_⟩
  · obtain ⟨n, rest, hnotes, hwaits, _⟩ := hnoted.newest hmode
    rw [hnotes, Note.waiting_cons hwaits]
    exact Nat.succ_pos _
  · obtain ⟨n, hnote, hwaits, _⟩ := awaits_of_opens hopen hopened hready notes
    rw [hnote, Note.waiting_cons hwaits]
  · rw [htidy] at hnoted
    have hwaiting := hnoted.waiting_eq
    refine ⟨?_, ?_, fun comparison r hcompares hdone hreaches => ?_⟩
    · split at hwaiting <;> omega
    · split at hwaiting <;> simp [*]
    · have hafter := hnoted.of_completes hcompares hdone hready
      rw [tidy_of_compares hcompares, hreaches] at hafter
      obtain ⟨hmode, hget⟩ := mode_of_compares hcompares hdone
      obtain ⟨n, rest, hnotes, hwaits, hawaits⟩ := hnoted.newest hmode
      refine ⟨?_, n, ?_, hwaits, completed_of_awaits hcompares hdone hawaits (hnotes ▸ hreaches)⟩
      · rw [hafter.waiting_eq, hget]
        rfl
      · rw [hnotes]
        exact List.mem_cons_self

/-- A condition on the last of two joins, a group that joins a relation and completes its own
condition, and a condition that is open at the end: one reference waits, and a comparison is written
behind it. -/
theorem one_waits_after_group :
    let inside : List (Step Transcript) := [.startCondition ⟨["c"], "z"⟩, .compare (.null true)]
    let steps : List (Step Transcript) :=
      [.joinEntity "A", .joinEntity "B", .startCondition ⟨[], "x"⟩, .take 3,
        .compare (.equal (.int32 1)), .group .or inside, .continueCondition .and ⟨[], "y"⟩]
    ∃ q r, runAll steps (Chain.start "e") = .ok q ∧ q.mode = .compare ∧
      Note.waiting (noteAll steps (Chain.start "e") []) = 1 ∧
      (compare (β := Transcript) (.null false)).run q = .ok r ∧
      Note.waiting ((compare (β := Transcript) (.null false)).note q
        (noteAll steps (Chain.start "e") [])) = 0 ∧
      r.parts[1]? = some (.joinOn .inner "B" "B" "true AND B.x = 1 AND B.y IS NULL") := by
  intro inside steps
  obtain ⟨q, hrun⟩ : ∃ q, runAll steps (Chain.start "e") = .ok q := ⟨_, rfl⟩
  obtain ⟨r, hdone⟩ : ∃ r, (compare (β := Transcript) (.null false)).run q = .ok r := by
    cases hrun
    exact ⟨_, rfl⟩
  obtain ⟨_, _, _, htidy⟩ := one_reference_waits hrun
  obtain ⟨_, hone, hcompletes⟩ := htidy (by decide +kernel)
  have hq : q.mode = .compare ∧
      q.reachesNewest (noteAll steps (Chain.start "e") []) = true := by
    cases hrun
    decide +kernel
  obtain ⟨hnone, _⟩ := hcompletes (.compare (.null false)) r rfl hdone hq.2
  refine ⟨q, r, hrun, hq.1, hone.mpr hq.1, hdone, hnone, ?_⟩
  cases hrun
  cases hdone
  decide +kernel

/-- The condition of the first join is opened, and the comparison lands on the second, so the next
condition leaves two references to wait. And two wait as soon as a condition is opened before the
last one has been compared; the comparison that follows completes the second of them. -/
theorem two_references_wait :
    let missed : List (Step Transcript) :=
      [.joinEntity "A", .joinEntity "B", .joinEntity "A", .startCondition ⟨[], "x"⟩,
        .compare (.equal (.int32 1)), .continueCondition .and ⟨[], "y"⟩]
    let opened : List (Step Transcript) :=
      [.startCondition ⟨[], "a"⟩, .continueCondition .and ⟨[], "b"⟩]
    (∃ q, runAll missed (Chain.start "e") = .ok q ∧
      q.parts = [.joinOn .inner "A" "A" "true AND A.x AND A.y", .joinOn .inner "B" "B" "true = 1"] ∧
      noteAll missed (Chain.start "e") [] = [⟨0, "A.y", true⟩, ⟨0, "A.x", true⟩]) ∧
    ∃ q r, runAll opened (Chain.start "e") = .ok q ∧
      q.parts = [.condition .start "e.a", .condition .and "e.b"] ∧
      noteAll opened (Chain.start "e") [] = [⟨1, "e.b", true⟩, ⟨0, "e.a", true⟩] ∧
      (compare (β := Transcript) (.equal (.int32 1))).run q = .ok r ∧ r.mode = .get ∧
      r.parts = [.condition .start "e.a", .condition .and "e.b = 1"] := by
  intro missed opened
  refine ⟨⟨_, rfl, ?_, ?_⟩, _, _, rfl, rfl, ?_, rfl, rfl, rfl⟩
  all_goals decide +kernel

end Step

end DeferredQuery
