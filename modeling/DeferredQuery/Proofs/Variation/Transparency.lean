import DeferredQuery.Proofs.Variation.Insertion

/-!
# Orderings and bounds do not change which rows are meant

Calls that order or bound the rows can be inserted anywhere. What is left of the parts without those
that the inserted calls have recorded is what the calls record without them; so a statement receives
the same joins and conditions, in the same order. It counts the same rows, and gives them by a text
that is the same up to the end of its conditions.
-/

set_option autoImplicit false

namespace DeferredQuery

/-! ## Taking the inserted parts out -/

/-- The parts that have no mark. -/
def Part.unmarked (marks : List Bool) (parts : List Part) : List Part :=
  ((parts.zip marks).filter fun entry => !entry.2).map (·.1)

theorem Part.Woven.unmarked_eq {marks : List Bool} {parts longer : List Part}
    (h : Woven marks parts longer) : unmarked marks longer = parts := by
  induction h with
  | nil => rfl
  | kept p h ih => exact congrArg (p :: ·) ih
  | inserted hp h ih => exact ih

/-! ## Statements for the same rows -/

namespace Statement

/-- The second statement may order and bound the rows in another way. -/
def SameRows (s t : Statement) : Prop :=
  t = { s with orders := t.orders, offset := t.offset, limit := t.limit }

/-- A text that gives rows, up to its last condition. -/
def head (s : Statement) : Except Error String :=
  match s.schema.require s.entity with
  | .error error => .error error
  | .ok base =>
    match s.source base with
    | .error error => .error error
    | .ok source => .ok ("SELECT " ++ s.rowColumns ++ source)

/-- The order and the bounds, behind the last condition. -/
def tail (purpose : Purpose) (s : Statement) : String :=
  let limit :=
    match purpose with
    | .one => some (s.limit.getD 1)
    | .display | .many | .count => s.limit
  s.orderClause ++ limitClause limit ++ s.offsetClause

variable {s t : Statement}

/-- A text that gives rows is its head and its tail. -/
theorem text_eq_head_tail {purpose : Purpose} (hpurpose : purpose ≠ .count) (s : Statement) :
    s.text purpose = s.head.map (· ++ s.tail purpose) := by
  unfold Statement.text head
  cases s.schema.require s.entity with
  | error error => rfl
  | ok base =>
    dsimp only
    cases s.source base with
    | error error => rfl
    | ok source =>
      cases purpose with
      | count => exact absurd rfl hpurpose
      | _ => simp only [Except.map, tail, String.append_assoc]

namespace SameRows

theorem receive (h : s.SameRows t) (call : Call) : (s.receive call).SameRows (t.receive call) := by
  unfold SameRows at h ⊢
  rw [h]
  cases call with
  | order kind column direction nulls => cases kind <;> rfl
  | _ => rfl

/-- The call of a part that orders or bounds the rows changes nothing else. -/
theorem receive_arranging (h : s.SameRows t) {p : Part} (hp : p.Arranges) :
    ∃ call, p.call = .ok call ∧ s.SameRows (t.receive call) := by
  unfold SameRows at h ⊢
  cases hp with
  | order kind column direction nulls =>
    refine ⟨.order kind column direction nulls, by cases nulls <;> rfl, ?_⟩
    rw [h]
    cases kind <;> rfl
  | skip count => exact ⟨.skip count, rfl, by rw [h]; rfl⟩
  | take count => exact ⟨.take count, rfl, by rw [h]; rfl⟩

/-- **Inserted parts are replayed** to a statement for the same rows. -/
theorem replay (h : s.SameRows t) {marks : List Bool} {parts longer : List Part}
    (hparts : Part.Woven marks parts longer) :
    SameOutcome SameRows (replay parts s).result (replay longer t).result := by
  induction hparts generalizing s t with
  | nil => exact .ok h
  | kept p hparts ih =>
    simp only [DeferredQuery.replay]
    cases p.call with
    | error error => exact .error error
    | ok call => exact ih (h.receive call)
  | inserted hp hparts ih =>
    obtain ⟨call, hcall, hreceived⟩ := h.receive_arranging hp
    simp only [DeferredQuery.replay, hcall]
    exact ih hreceived

theorem head_eq (h : s.SameRows t) : t.head = s.head := by
  rw [h]
  rfl

/-- The number of rows is asked for with the same text. -/
theorem count_eq (h : s.SameRows t) : t.text .count = s.text .count := by
  rw [h]
  rfl

/-- Texts that give the rows have the same head, or fail alike. -/
theorem text (h : s.SameRows t) {purpose : Purpose} (hpurpose : purpose ≠ .count) :
    SameOutcome
      (fun a b => ∃ head, s.head = .ok head ∧ t.head = .ok head ∧
        a = head ++ s.tail purpose ∧ b = head ++ t.tail purpose)
      (s.text purpose) (t.text purpose) := by
  rw [text_eq_head_tail hpurpose, text_eq_head_tail hpurpose, h.head_eq]
  cases s.head with
  | error error => exact .error error
  | ok head => exact .ok ⟨head, rfl, rfl, rfl, rfl⟩

end SameRows

end Statement

/-! ## Queries for the same rows -/

/-- The text of a query up to its last condition, if it is to give rows. -/
def Query.head (q : Query Statement) : Except Error String :=
  match (replay q.chain.parts q.builder).result with
  | .error error => .error error
  | .ok statement => statement.head

/-- The first query counts the rows as the second does, and its texts that give the rows are those
of the second up to the last condition. -/
structure Query.SelectsAs (q r : Query Statement) : Prop where
  count : ∀ {ρ : Type} (pool : Pool ρ), q.count pool = r.count pool
  text : ∀ purpose, purpose ≠ .count → SameOutcome
    (fun a b => ∃ head, q.head = .ok head ∧ r.head = .ok head ∧
      (∃ tail, a = head ++ tail) ∧ ∃ tail, b = head ++ tail)
    (render purpose q.chain.parts q.builder) (render purpose r.chain.parts r.builder)

/-- Queries whose parts differ in inserted ones, on one builder, select alike. -/
theorem Query.selectsAs_of_woven {marks : List Bool} {q r : Chain}
    (h : Part.Woven marks q.parts r.parts) (builder : Statement) (fetch : Fetch) :
    (Query.mk builder q fetch).SelectsAs ⟨builder, r, fetch⟩ := by
  have hsame : builder.SameRows builder := rfl
  have hreplay := hsame.replay h
  constructor
  · intro ρ pool
    simp only [Query.count, render]
    cases hq : (replay q.parts builder).result <;> cases hr : (replay r.parts builder).result <;>
      rw [hq, hr] at hreplay <;> cases hreplay
    case error => rfl
    case ok s t hst => exact congrArg (countFrom · pool) hst.count_eq.symm
  · intro purpose hpurpose
    simp only [Query.head, render]
    cases hq : (replay q.parts builder).result <;> cases hr : (replay r.parts builder).result <;>
      rw [hq, hr] at hreplay <;> cases hreplay
    case error => exact .error _
    case ok s t hst =>
      apply (hst.text hpurpose).imp
      rintro a b ⟨head, hs, ht, ha, hb⟩
      exact ⟨head, hs, ht, ⟨_, ha⟩, ⟨_, hb⟩⟩

variable {β : Type} [Builder β]

/-- **Orderings and bounds are transparent.** Calls that order or bound the rows may be inserted
anywhere, in groups too: the chains that are reached with and without them fail with the same error,
or differ in the parts of the inserted calls alone. Without those parts they are the same, and on
any statement they count the same rows, and give them with the same tables, joins and conditions. -/
theorem Insertion.transparent {calls longer : List (Step β)} (w : Insertion calls longer)
    (q : Chain) :
    let marks := w.marks q (List.replicate q.parts.length false)
    SameOutcome
      (fun next other =>
        other = { next with parts := other.parts } ∧
          Part.Woven marks next.parts other.parts ∧
          Part.unmarked marks other.parts = next.parts ∧
          ∀ builder fetch, (Query.mk builder next fetch).SelectsAs ⟨builder, other, fetch⟩)
      (Step.runAll calls q) (Step.runAll longer q) := by
  intro marks
  have hstart : q.Woven (List.replicate q.parts.length false) q := ⟨rfl, .same q.parts⟩
  apply (w.woven hstart).imp
  intro next other hwoven
  refine ⟨hwoven.frame, hwoven.parts, hwoven.parts.unmarked_eq, ?_⟩
  exact Query.selectsAs_of_woven hwoven.parts

/-- An ordering between a join and its condition, and bounds between properties and their
comparisons, one of them in a group. -/
theorem Insertion.transparent_before_comparisons :
    let calls : List (Step Statement) :=
      [.navigate .left .base (.name "group"), .startCondition ⟨[], "kind"⟩,
        .compare (.equal (.int32 1)), .reset,
        .group .and [.startCondition ⟨[], "age"⟩, .compare (.equal (.int32 18))]]
    let longer : List (Step Statement) :=
      [.navigate .left .base (.name "group"), .orderBy .start .descending none ⟨[], "rank"⟩,
        .startCondition ⟨[], "kind"⟩, .skip 3, .compare (.equal (.int32 1)), .reset,
        .group .and [.startCondition ⟨[], "age"⟩, .take 5, .compare (.equal (.int32 18))]]
    ∃ next other, Step.runAll calls (Chain.start "u") = .ok next ∧
      Step.runAll longer (Chain.start "u") = .ok other ∧
      next.parts = [.joinOn .left "u.group" "u_group" "u_group.kind = 1",
        .condition .and "(u.age = 18)"] ∧
      Part.unmarked [false, true, true, true, false] other.parts = next.parts ∧
      ∀ builder fetch, (Query.mk builder next fetch).SelectsAs ⟨builder, other, fetch⟩ := by
  intro calls longer
  let w : Insertion calls longer :=
    .kept _ (.inserted _ (.orderBy _ _ _ _) (.kept _ (.inserted _ (.skip _) (.kept _ (.kept _
      (.group _ _ _ (.kept _ (.inserted _ (.take _) (.kept _ .nil))) .nil))))))
  let next : Chain :=
    { Chain.start "u" with
      parts := [.joinOn .left "u.group" "u_group" "u_group.kind = 1",
        .condition .and "(u.age = 18)"]
      history := ["u_group"] }
  let other : Chain :=
    { next with
      parts := [.joinOn .left "u.group" "u_group" "u_group.kind = 1",
        .order .start "u_group.rank" .descending none, .skip 3, .take 5,
        .condition .and "(u.age = 18)"] }
  have hnext : Step.runAll calls (Chain.start "u") = .ok next := by decide +kernel
  have hother : Step.runAll longer (Chain.start "u") = .ok other := by decide +kernel
  have hmarks : w.marks (Chain.start "u")
      (List.replicate (Chain.start "u").parts.length false) = [false, true, true, true, false] := by
    decide +kernel
  have htransparent := w.transparent (Chain.start "u")
  dsimp only at htransparent
  rw [hnext, hother, hmarks] at htransparent
  cases htransparent with
  | ok h => exact ⟨next, other, hnext, hother, rfl, h.2.2.1, h.2.2.2⟩

end DeferredQuery
