import DeferredQuery.Builder.Transcript
import DeferredQuery.Proofs.Part.Asked

/-!
# Where a replay stops

The arguments of a part are not typed by its action, so a list of parts may hold anything. What an
action reads is a list of slots, each of one sort, the last of which may be empty; a part fits if
every slot finds what it takes. A replay gives the calls of the parts to the builder up to the first
part that does not fit, blames the first slot of it that finds something else, and gives nothing of
that part. The replay of conditions reads in the same way and stops at what is no condition too, so
both are one recursion, and what holds of it is shown once.
-/

set_option autoImplicit false

namespace DeferredQuery

/-! ## Slots -/

/-- An argument that an action reads: the sort that it has to be of, and whether the part may end
before it. -/
structure Slot where
  expected : Expected
  optional : Bool
  deriving DecidableEq, Repr

/-- The arguments that an action reads, in the order in which it reads them. -/
def Action.slots : Action → List Slot
  | .condition _ | .select => [⟨.text, false⟩]
  | .join _ => [⟨.text, false⟩, ⟨.text, false⟩, ⟨.text, true⟩]
  | .order _ => [⟨.text, false⟩, ⟨.direction, false⟩, ⟨.nulls, true⟩]
  | .skip | .take => [⟨.count, false⟩]

def Argument.sort : Argument → Expected
  | .text _ => .text
  | .count _ => .count
  | .direction _ => .direction
  | .nulls _ => .nulls

/-- Whether a slot takes what stands at its position, if anything does. -/
def Slot.admits (slot : Slot) : Option Argument → Bool
  | none => slot.optional
  | some argument => argument.sort == slot.expected

namespace Part

/-- Every slot of the action finds what it takes. Arguments behind the slots do not count. -/
def Fits (p : Part) : Prop :=
  ∀ (index : Nat) (slot : Slot), p.action.slots[index]? = some slot →
    slot.admits p.arguments[index]? = true

/-- The slot is the first of the action that does not find what it takes, and the error says so. -/
structure Misfit (p : Part) (index : Nat) (slot : Slot) (error : Error) : Prop where
  slot_eq : p.action.slots[index]? = some slot
  refused : slot.admits p.arguments[index]? = false
  earlier : ∀ (i : Nat) (other : Slot), i < index → p.action.slots[i]? = some other →
    other.admits p.arguments[i]? = true
  error_eq : error = .invalidQuery
    (.badArgument p.action slot.expected index p.arguments[index]?)

/-- A replay that comes to the part stops with this error. -/
def Blamed (p : Part) (error : Error) : Prop :=
  ∃ index slot, p.Misfit index slot error

theorem Blamed.not_fits {p : Part} {error : Error} (h : p.Blamed error) : ¬ p.Fits := by
  obtain ⟨index, slot, hmisfit⟩ := h
  intro hfits
  have hadmits := hfits index slot hmisfit.slot_eq
  rw [hmisfit.refused] at hadmits
  cases hadmits

/-! ## Reading slot by slot -/

/-- Reading the slots from a position on has this result: a value if they all find what they take,
and otherwise the error of the first that does not. -/
inductive Reads {α : Type} (p : Part) : Nat → List Slot → Except Error α → Prop
  | done (index : Nat) (a : α) : Reads p index [] (.ok a)
  | next {index : Nat} {slot : Slot} {rest : List Slot} {result : Except Error α}
    (h : slot.admits p.arguments[index]? = true) (hrest : Reads p (index + 1) rest result) :
    Reads p index (slot :: rest) result
  | refuse {index : Nat} {slot : Slot} {rest : List Slot}
    (h : slot.admits p.arguments[index]? = false) :
    Reads p index (slot :: rest) (.error (p.fault slot.expected index))

/-- Reading goes on where the first slot finds what it takes. -/
theorem Reads.bind {α γ : Type} {p : Part} {index : Nat} {slot : Slot} {rest : List Slot}
    {x : Except Error α} {f : α → Except Error γ} (hx : p.Reads index [slot] x)
    (hf : ∀ a, p.Reads (index + 1) rest (f a)) : p.Reads index (slot :: rest) (x >>= f) := by
  cases hx with
  | next h hdone =>
    cases hdone with
    | done _ a => exact .next h (hf a)
  | refuse h => exact .refuse h

theorem reads_text (p : Part) (index : Nat) : p.Reads index [⟨.text, false⟩] (p.text index) := by
  unfold text
  cases hfound : p.arguments[index]? with
  | none => exact .refuse (by rw [hfound]; rfl)
  | some argument =>
    cases argument with
    | text value => exact .next (by rw [hfound]; rfl) (.done _ value)
    | _ => exact .refuse (by rw [hfound]; rfl)

theorem reads_optionalText (p : Part) (index : Nat) :
    p.Reads index [⟨.text, true⟩] (p.optionalText index) := by
  unfold optionalText
  cases hfound : p.arguments[index]? with
  | none => exact .next (by rw [hfound]; rfl) (.done _ none)
  | some argument =>
    cases argument with
    | text value => exact .next (by rw [hfound]; rfl) (.done _ (some value))
    | _ => exact .refuse (by rw [hfound]; rfl)

theorem reads_count (p : Part) (index : Nat) : p.Reads index [⟨.count, false⟩] (p.count index) := by
  unfold count
  cases hfound : p.arguments[index]? with
  | none => exact .refuse (by rw [hfound]; rfl)
  | some argument =>
    cases argument with
    | count value => exact .next (by rw [hfound]; rfl) (.done _ value)
    | _ => exact .refuse (by rw [hfound]; rfl)

theorem reads_direction (p : Part) (index : Nat) :
    p.Reads index [⟨.direction, false⟩] (p.direction index) := by
  unfold direction
  cases hfound : p.arguments[index]? with
  | none => exact .refuse (by rw [hfound]; rfl)
  | some argument =>
    cases argument with
    | direction value => exact .next (by rw [hfound]; rfl) (.done _ value)
    | _ => exact .refuse (by rw [hfound]; rfl)

theorem reads_nulls (p : Part) (index : Nat) :
    p.Reads index [⟨.nulls, true⟩] (p.nulls index) := by
  unfold nulls
  cases hfound : p.arguments[index]? with
  | none => exact .next (by rw [hfound]; rfl) (.done _ none)
  | some argument =>
    cases argument with
    | nulls value => exact .next (by rw [hfound]; rfl) (.done _ (some value))
    | _ => exact .refuse (by rw [hfound]; rfl)

/-- **The call of a part is read slot by slot.** -/
theorem reads_call (p : Part) : p.Reads 0 p.action.slots p.call := by
  unfold call
  cases p.action with
  | condition kind => exact (p.reads_text 0).bind fun _ => .done _ _
  | join kind =>
    refine (p.reads_text 0).bind fun _ => ?_
    refine (p.reads_text 1).bind fun _ => ?_
    exact (p.reads_optionalText 2).bind fun _ => .done _ _
  | select => exact (p.reads_text 0).bind fun _ => .done _ _
  | order kind =>
    refine (p.reads_text 0).bind fun _ => ?_
    refine (p.reads_direction 1).bind fun _ => ?_
    exact (p.reads_nulls 2).bind fun _ => .done _ _
  | skip => exact (p.reads_count 0).bind fun _ => .done _ _
  | take => exact (p.reads_count 0).bind fun _ => .done _ _

/-- Slots are all read, or up to the first that is refused. -/
theorem Reads.all_or_first {α : Type} {p : Part} {start : Nat} {slots : List Slot}
    {result : Except Error α} (h : p.Reads start slots result) :
    ((∃ a, result = .ok a) ∧ ∀ (i : Nat) (slot : Slot), slots[i]? = some slot →
        slot.admits p.arguments[start + i]? = true) ∨
      ∃ (i : Nat) (slot : Slot), slots[i]? = some slot ∧
        slot.admits p.arguments[start + i]? = false ∧
        (∀ (j : Nat) (other : Slot), j < i → slots[j]? = some other →
          other.admits p.arguments[start + j]? = true) ∧
        result = .error (p.fault slot.expected (start + i)) := by
  induction h with
  | done index a => exact .inl ⟨⟨a, rfl⟩, nofun⟩
  | @next index slot rest result hslot _ ih =>
    -- Behind the first slot positions are one less.
    have hshift : ∀ i : Nat, index + 1 + i = index + (i + 1) := by omega
    simp only [hshift] at ih
    rcases ih with ⟨hok, hall⟩ | ⟨i, other, hi, hrefused, hearlier, herror⟩
    · refine .inl ⟨hok, fun i other hi => ?_⟩
      cases i with
      | zero =>
        cases hi
        exact hslot
      | succ i => exact hall i other hi
    · refine .inr ⟨i + 1, other, hi, hrefused, fun j before hj hbefore => ?_, herror⟩
      cases j with
      | zero =>
        cases hbefore
        exact hslot
      | succ j => exact hearlier j before (by omega) hbefore
  | @refuse index slot rest hslot => exact .inr ⟨0, slot, rfl, hslot, nofun, rfl⟩

/-- A part that fits asks for a call: its arguments have one of the shapes of its action. -/
theorem Fits.asks {p : Part} (h : p.Fits) : ∃ call, p.Asks call := by
  obtain ⟨action, arguments⟩ := p
  -- A shape that is left out, or an argument of another sort, is refused by some slot.
  cases action with
  | condition kind =>
    rcases arguments with _ | ⟨_ | _, more⟩
    case cons.text text => exact ⟨_, .condition kind text more⟩
    all_goals cases h 0 _ rfl
  | join kind =>
    have h₀ := h 0 _ rfl
    have h₁ := h 1 _ rfl
    have h₂ := h 2 _ rfl
    rcases arguments with _ | ⟨_ | _, _ | ⟨_ | _, _ | ⟨_ | _, more⟩⟩⟩
    case cons.text.cons.text.nil relation name => exact ⟨_, .join kind relation name⟩
    case cons.text.cons.text.cons.text relation name on =>
      exact ⟨_, .joinOn kind relation name on more⟩
    all_goals simp [Slot.admits, Argument.sort] at h₀ h₁ h₂
  | select =>
    rcases arguments with _ | ⟨_ | _, more⟩
    case cons.text column => exact ⟨_, .select column more⟩
    all_goals cases h 0 _ rfl
  | order kind =>
    have h₀ := h 0 _ rfl
    have h₁ := h 1 _ rfl
    have h₂ := h 2 _ rfl
    rcases arguments with _ | ⟨_ | _, _ | ⟨_ | _, _ | ⟨_ | _, more⟩⟩⟩
    case cons.text.cons.direction.nil column direction =>
      exact ⟨_, .order kind column direction⟩
    case cons.text.cons.direction.cons.nulls column direction nulls =>
      exact ⟨_, .orderNulls kind column direction nulls more⟩
    all_goals simp [Slot.admits, Argument.sort] at h₀ h₁ h₂
  | skip =>
    rcases arguments with _ | ⟨_ | _, more⟩
    case cons.count count => exact ⟨_, .skip count more⟩
    all_goals cases h 0 _ rfl
  | take =>
    rcases arguments with _ | ⟨_ | _, more⟩
    case cons.count count => exact ⟨_, .take count more⟩
    all_goals cases h 0 _ rfl

/-- **A part fits and its call is read, or it is blamed.** -/
theorem call_cases (p : Part) :
    (p.Fits ∧ ∃ call, p.Asks call ∧ p.call = .ok call) ∨
      ∃ error, p.Blamed error ∧ p.call = .error error := by
  have hreads := p.reads_call.all_or_first
  simp only [Nat.zero_add] at hreads
  rcases hreads with ⟨_, hfits⟩ | ⟨index, slot, hslot, hrefused, hearlier, hcall⟩
  · obtain ⟨call, hasks⟩ := Fits.asks hfits
    exact .inl ⟨hfits, call, hasks, hasks.call_eq⟩
  · exact .inr ⟨_, ⟨index, slot, hslot, hrefused, hearlier, rfl⟩, hcall⟩

theorem asks_of_call {p : Part} {call : Call} (h : p.call = .ok call) : p.Asks call := by
  rcases p.call_cases with ⟨_, other, hasks, hcall⟩ | ⟨error, _, hcall⟩
  · rw [h] at hcall
    cases hcall
    exact hasks
  · rw [h] at hcall
    cases hcall

theorem blamed_of_call {p : Part} {error : Error} (h : p.call = .error error) :
    p.Blamed error := by
  rcases p.call_cases with ⟨_, call, _, hcall⟩ | ⟨other, hblamed, hcall⟩
  · rw [h] at hcall
    cases hcall
  · rw [h] at hcall
    cases hcall
    exact hblamed

theorem Asks.fits {p : Part} {call : Call} (h : p.Asks call) : p.Fits := by
  rcases p.call_cases with ⟨hfits, _⟩ | ⟨error, _, hcall⟩
  · exact hfits
  · rw [h.call_eq] at hcall
    cases hcall

/-! ### Conditions -/

/-- The part is a condition, and this is what it asks of what takes conditions. -/
def AsksCondition (p : Part) (condition : ConditionKind × String) : Prop :=
  p.Asks (.condition condition.1 condition.2)

/-- The part is a condition that fits. -/
def FitsCondition (p : Part) : Prop :=
  p.action.isCondition = true ∧ p.Fits

/-- A replay of conditions that comes to the part stops with this error: the part is no condition,
whatever its arguments are, or it is one that does not fit. -/
def BlamedCondition (p : Part) (error : Error) : Prop :=
  (p.action.isCondition = false ∧ error = .invalidQuery (.notCondition p.action)) ∨
    (p.action.isCondition = true ∧ p.Blamed error)

theorem BlamedCondition.not_fitsCondition {p : Part} {error : Error} (h : p.BlamedCondition error) :
    ¬ p.FitsCondition := by
  rintro ⟨hcondition, hfits⟩
  rcases h with ⟨hother, _⟩ | ⟨_, hblamed⟩
  · rw [hcondition] at hother
    cases hother
  · exact hblamed.not_fits hfits

/-- A condition is read as its call is. -/
theorem call_eq_conditionCall {p : Part} (h : p.action.isCondition = true) :
    p.call = p.conditionCall.map fun condition => .condition condition.1 condition.2 := by
  obtain ⟨action, arguments⟩ := p
  cases action with
  | condition kind =>
    unfold call conditionCall
    cases text ⟨.condition kind, arguments⟩ 0 <;> rfl
  | _ => cases h

theorem AsksCondition.fitsCondition {p : Part} {condition : ConditionKind × String}
    (h : p.AsksCondition condition) : p.FitsCondition := by
  refine ⟨?_, Asks.fits h⟩
  obtain ⟨kind, text⟩ := condition
  cases h
  rfl

theorem conditionCall_cases (p : Part) :
    (∃ condition, p.AsksCondition condition ∧ p.conditionCall = .ok condition) ∨
      ∃ error, p.BlamedCondition error ∧ p.conditionCall = .error error := by
  cases haction : p.action.isCondition with
  | false =>
    refine .inr ⟨_, .inl ⟨haction, rfl⟩, ?_⟩
    obtain ⟨action, arguments⟩ := p
    cases action with
    | condition kind => cases haction
    | _ => rfl
  | true =>
    have hread := call_eq_conditionCall haction
    cases hcondition : p.conditionCall with
    | ok condition =>
      rw [hcondition] at hread
      exact .inl ⟨condition, asks_of_call hread, rfl⟩
    | error error =>
      rw [hcondition] at hread
      exact .inr ⟨error, .inr ⟨haction, blamed_of_call hread⟩, rfl⟩

end Part

/-! ## Replays -/

section

variable {α β : Type} {read : Part → Except Error α} {receive : α → β → β}

/-- Gives what is read of the parts to a builder, in their order and up to the first part of which
nothing can be read. -/
def replayBy (read : Part → Except Error α) (receive : α → β → β) : List Part → β → Replayed β
  | [], builder => ⟨builder, none⟩
  | p :: rest, builder =>
    match read p with
    | .ok asked => replayBy read receive rest (receive asked builder)
    | .error error => ⟨builder, some error⟩

theorem replay_eq_replayBy [Builder β] (parts : List Part) (builder : β) :
    replay parts builder = replayBy Part.call Builder.receive parts builder := by
  induction parts generalizing builder with
  | nil => rfl
  | cons p rest ih =>
    rw [replay, replayBy]
    cases p.call with
    | ok call => exact ih _
    | error error => rfl

theorem replayConditions_eq_replayBy [ConditionSink β] (parts : List Part) (sink : β) :
    replayConditions parts sink =
      replayBy Part.conditionCall (fun c => ConditionSink.addCondition c.1 c.2) parts sink := by
  induction parts generalizing sink with
  | nil => rfl
  | cons p rest ih =>
    rw [replayConditions, replayBy]
    cases p.conditionCall with
    | ok condition => exact ih _
    | error error => rfl

/-- A replay and then another one on the builder reached, unless the first was stopped. -/
def Replayed.andThen (r : Replayed β) (next : β → Replayed β) : Replayed β :=
  match r.fault with
  | none => next r.builder
  | some _ => r

theorem replayBy_append (first second : List Part) (builder : β) :
    replayBy read receive (first ++ second) builder =
      (replayBy read receive first builder).andThen (replayBy read receive second) := by
  induction first generalizing builder with
  | nil => rfl
  | cons p rest ih =>
    rw [List.cons_append, replayBy, replayBy]
    cases read p with
    | ok asked => exact ih _
    | error error => rfl

/-- How a replay of the parts onto a builder ends: all of them were received as what they ask for,
or those before a part that is blamed, and nothing of that part or behind it. -/
inductive Ends (Asks : Part → α → Prop) (Blamed : Part → Error → Prop) (receive : α → β → β)
    (parts : List Part) (builder : β) : Replayed β → Prop
  | whole (asked : List α) (h : List.Forall₂ Asks parts asked) :
    Ends Asks Blamed receive parts builder
      ⟨asked.foldl (fun builder a => receive a builder) builder, none⟩
  | stopped (before : List Part) (p : Part) (after : List Part) (asked : List α) (error : Error)
    (hparts : parts = before ++ p :: after) (h : List.Forall₂ Asks before asked)
    (hp : Blamed p error) :
    Ends Asks Blamed receive parts builder
      ⟨asked.foldl (fun builder a => receive a builder) builder, some error⟩

variable {Asks : Part → α → Prop} {Blamed : Part → Error → Prop}

theorem replayBy_ends
    (hread : ∀ p,
      (∃ a, Asks p a ∧ read p = .ok a) ∨ ∃ error, Blamed p error ∧ read p = .error error)
    (parts : List Part) (builder : β) :
    Ends Asks Blamed receive parts builder (replayBy read receive parts builder) := by
  induction parts generalizing builder with
  | nil => exact .whole [] .nil
  | cons p rest ih =>
    rw [replayBy]
    rcases hread p with ⟨a, hasks, hp⟩ | ⟨error, hblamed, hp⟩
    · rw [hp]
      have hrest := ih (receive a builder)
      dsimp only
      generalize replayBy read receive rest (receive a builder) = r at hrest ⊢
      cases hrest with
      | whole asked h => exact .whole (a :: asked) (.cons hasks h)
      | stopped before q after asked error hparts h hq =>
        rw [hparts]
        exact .stopped (p :: before) q after (a :: asked) error rfl (.cons hasks h) hq
    · rw [hp]
      exact .stopped [] p rest [] error rfl .nil hblamed

/-- A replay comes to its end exactly where every part fits. -/
theorem Ends.fault_eq_none_iff {Fits : Part → Prop} (hasks : ∀ p a, Asks p a → Fits p)
    (hblamed : ∀ p error, Blamed p error → ¬ Fits p) {parts : List Part} {builder : β}
    {r : Replayed β} (h : Ends Asks Blamed receive parts builder r) :
    r.fault = none ↔ ∀ p ∈ parts, Fits p := by
  cases h with
  | whole asked h =>
    have hfits := (List.forall₂_and_left _ _).mp (h.imp fun p a ha => ⟨hasks p a ha, ha⟩)
    exact ⟨fun _ => hfits.1, fun _ => rfl⟩
  | stopped before p after asked error hparts h hp =>
    refine ⟨nofun, fun hall => absurd (hall p ?_) (hblamed p error hp)⟩
    rw [hparts]
    exact List.mem_append_right _ List.mem_cons_self

end

theorem replay_ends {β : Type} [Builder β] (parts : List Part) (builder : β) :
    Ends Part.Asks Part.Blamed Builder.receive parts builder (replay parts builder) := by
  rw [replay_eq_replayBy]
  refine replayBy_ends (fun p => ?_) parts builder
  exact p.call_cases.imp_left fun ⟨_, hcall⟩ => hcall

theorem replayConditions_ends {σ : Type} [ConditionSink σ] (parts : List Part) (sink : σ) :
    Ends Part.AsksCondition Part.BlamedCondition (fun c => ConditionSink.addCondition c.1 c.2)
      parts sink (replayConditions parts sink) := by
  rw [replayConditions_eq_replayBy]
  exact replayBy_ends Part.conditionCall_cases parts sink

/-- **A replay stops at the first part that does not fit.** It comes to its end exactly if every
part has the arguments that its action reads, and then the builder has received one call for each
part, in their order. Otherwise it ends with the error of the first slot that is not filled of the
first part that does not fit, and the builder has received the calls of the parts before it. A
replay of conditions ends in the same way, and also at the first part that is no condition. So
replaying parts and more behind them is replaying the one and then the other. -/
theorem replay_stops_at_first_misfit {β σ : Type} [Builder β] [ConditionSink σ]
    (parts : List Part) (builder : β) (sink : σ) :
    ((replay parts builder).fault = none ↔ ∀ p ∈ parts, p.Fits) ∧
    Ends Part.Asks Part.Blamed Builder.receive parts builder (replay parts builder) ∧
    ((replayConditions parts sink).fault = none ↔ ∀ p ∈ parts, p.FitsCondition) ∧
    Ends Part.AsksCondition Part.BlamedCondition (fun c => ConditionSink.addCondition c.1 c.2)
      parts sink (replayConditions parts sink) ∧
    ∀ more : List Part,
      replay (parts ++ more) builder = (replay parts builder).andThen (replay more) ∧
      replayConditions (parts ++ more) sink =
        (replayConditions parts sink).andThen (replayConditions more) := by
  have hends := replay_ends parts builder
  have hconditions := replayConditions_ends parts sink
  refine ⟨hends.fault_eq_none_iff (fun _ _ h => h.fits) fun _ _ h => h.not_fits, hends,
    hconditions.fault_eq_none_iff (fun _ _ h => h.fitsCondition)
      fun _ _ h => h.not_fitsCondition, hconditions, fun more => ⟨?_, ?_⟩⟩
  · have hmore : replay (β := β) more = replayBy Part.call Builder.receive more :=
      funext (replay_eq_replayBy more)
    rw [replay_eq_replayBy, replay_eq_replayBy, hmore]
    exact replayBy_append parts more builder
  · have hmore : replayConditions (β := σ) more =
        replayBy Part.conditionCall (fun c => ConditionSink.addCondition c.1 c.2) more :=
      funext (replayConditions_eq_replayBy more)
    rw [replayConditions_eq_replayBy, replayConditions_eq_replayBy, hmore]
    exact replayBy_append parts more sink

/-- An ordering with a text for its direction: the builder has the call before it, and no more. -/
example :
    replay [.select "a.x", ⟨.order .start, [.text "a.x", .text "ASC"]⟩, .take 3]
      (Transcript.start "a") =
    ⟨⟨"a", [.select "a.x"]⟩,
      some (.invalidQuery (.badArgument (.order .start) .direction 1 (some (.text "ASC"))))⟩ :=
  rfl

end DeferredQuery
