import DeferredQuery.Proofs.Chain.Failure
import DeferredQuery.Proofs.Operand.Rendering
import DeferredQuery.Proofs.Text.Scanning

/-!
# Reading operands back

What a comparison writes behind its operator is read back by a reader that knows quotes and commas
only. A text is one literal, whatever is in it: it is quoted when its wildcards have been added, and
lowering the literal is quoting the lowered text, so no step opens or closes a literal. A list is
cut at the commas outside of literals, and no member has such a comma: it is a literal or a token.
So the text of a list determines what each of its members is written as.
-/

set_option autoImplicit false

namespace DeferredQuery

open Text

/-! ## The two sides of a comparison -/

/-- A comparison writes its operator and its operand behind what stands before; that is the
condition itself, unless its newest reference is folded. -/
theorem Chain.exists_completeText (operator : Operator) (comparand : Comparand)
    (condition : String) :
    ∃ left, completeText operator comparand condition =
        left ++ " " ++ operator.text ++ " " ++ comparand.text ∧
      (comparand.foldsReference = false → left = condition) := by
  refine ⟨_, rfl, fun hfolds => ?_⟩
  rw [hfolds, if_neg Bool.false_ne_true]
  exact splitReference_append condition

/-! ## Texts -/

namespace Pattern

/-- What a pattern has before the text that is to be found. -/
def front : Pattern → String
  | .whole | .beginning => ""
  | .anywhere | .ending => "%"

/-- What a pattern has behind the text that is to be found. -/
def back : Pattern → String
  | .whole | .ending => ""
  | .beginning | .anywhere => "%"

/-- The text that a comparison looks for: with its wildcards, and all of it lowered unless its case
matters. -/
def content (pattern : Pattern) (matching : CaseMatching) (text : String) : String :=
  let wild := pattern.front ++ text ++ pattern.back
  if matching = .exact then wild else lowercase wild

theorem text?_text (pattern : Pattern) (text : String) :
    pattern.text? (.text text) = some (pattern.front ++ text ++ pattern.back) := by
  cases pattern <;> simp [text?, Operand.text?, Operand.render, front, back]

/-- Where its case matters, what is looked for determines the text. -/
theorem content_exact_injective (pattern : Pattern) :
    Function.Injective (pattern.content .exact) := by
  intro s t h
  have hlists := congrArg String.toList h
  simp only [content, if_true, String.toList_append, List.append_assoc, List.append_cancel_left_eq,
    List.append_cancel_right_eq] at hlists
  exact String.toList_inj.mp hlists

end Pattern

/-- A text is written as the literal of what is looked for. -/
theorem Comparand.literal_text (pattern : Pattern) (text : String) (matching : CaseMatching) :
    literal pattern (.text text) matching =
      ⟨quote (pattern.content matching text), matching != .exact⟩ := by
  rw [literal, pattern.text?_text, Pattern.content]
  cases matching with
  | exact => rfl
  | unspecified | folded => simp [lowercase_quote]

/-- **A text operand is one literal.** On a reached chain that waits for a comparison, a comparison
with a text succeeds, and what it writes behind the operator is read as one literal to its end,
before anything that does not start with a quote. The literal holds the text with the wildcards of
the pattern, all of it lowered unless its case matters; where it does, the literal determines the
text. Lowering a literal is lowering its text, and a quoted text is quoted in one way only. -/
theorem Chain.Reached.text_operand_is_literal {β : Type} [Builder β] {known : List String}
    {q : Chain} (h : Reached β known q) (hmode : q.mode = .compare) (operator : Operator)
    (pattern : Pattern) (text : String) (matching : CaseMatching) :
    (∃ (r : Chain) (k : Nat) (part : Part) (condition left literal : String),
      (Step.compare (β := β) (.literal operator pattern (.text text) matching)).run q = .ok r ∧
      q.pending? = some (k, part.pushText condition) ∧
      r.parts = q.parts.set k (part.pushText (left ++ " " ++ operator.text ++ " " ++ literal)) ∧
      (matching = .exact → left = condition) ∧
      (∀ rest, NoQuoteFirst rest → readLiteral? (literal.toList ++ rest) =
        some ((pattern.content matching text).toList, rest)) ∧
      (matching = .exact → ∀ other, quote (pattern.content matching other) = literal →
        other = text)) ∧
    (∀ s, lowercase (quote s) = quote (lowercase s)) ∧ Function.Injective quote := by
  refine ⟨?_, lowercase_quote, quote_injective⟩
  obtain ⟨k, part, condition, hpending⟩ := h.ready.exists_pending hmode
  let comparand := Comparand.literal pattern (.text text) matching
  have hcomparand : comparand = _ := Comparand.literal_text pattern text matching
  obtain ⟨left, hwritten, hleft⟩ := Chain.exists_completeText operator comparand condition
  have hrun :
      (Step.compare (β := β) (.literal operator pattern (.text text) matching)).run q = _ :=
    complete_of_pending hmode hpending
  refine ⟨_, k, part, condition, left, comparand.text, hrun, hpending, ?_, ?_, ?_, ?_⟩
  · rw [← hwritten]
  · rintro rfl
    exact hleft (by rw [hcomparand]; rfl)
  · intro rest hrest
    rw [hcomparand]
    exact readLiteral?_quote _ hrest
  · rintro rfl other hother
    rw [hcomparand] at hother
    exact pattern.content_exact_injective (quote_injective hother)

/-- A text with a quote between capital sigmas: the last of them is lowered to its final form, for
the percent sign behind it is no letter. -/
theorem Chain.literal_of_quoted_sigma :
    ∃ (q r : Chain) (literal : String),
      Step.runAll (β := Transcript) [.startCondition ⟨[], "name"⟩] (Chain.start "e") = .ok q ∧
      q.mode = .compare ∧
      (Step.compare (β := Transcript) (.contains (.text "ΟΔΟΣ'Σ"))).run q = .ok r ∧
      r.parts = [.condition .start ("LOWER(e.name) LIKE " ++ literal)] ∧
      literal = "'%οδοσ''ς%'" ∧
      readLiteral? (literal.toList ++ " OR".toList) = some ("%οδοσ'ς%".toList, " OR".toList) := by
  obtain ⟨q, hq⟩ : ∃ q, Step.runAll (β := Transcript)
      [.startCondition ⟨[], "name"⟩] (Chain.start "e") = .ok q := ⟨_, rfl⟩
  have hmode : q.mode = .compare := by
    cases hq
    rfl
  obtain ⟨⟨r, k, part, condition, left, literal, hr, _, _, _, hread, _⟩, _⟩ :=
    Chain.Reached.text_operand_is_literal ((Reached.start "e").runAll hq) hmode .like .anywhere
      "ΟΔΟΣ'Σ" .unspecified
  have hcontent : Pattern.content .anywhere .unspecified "ΟΔΟΣ'Σ" = "%οδοσ'ς%" := by
    decide +kernel
  rw [hcontent] at hread
  obtain ⟨hliteral, _⟩ := readLiteral?_eq_some_iff.mp (hread [] nofun)
  simp only [List.append_nil, String.toList_inj] at hliteral
  have hrest : NoQuoteFirst " OR".toList := noQuoteFirst_of_notMem (by decide)
  refine ⟨q, r, literal, hq, hmode, hr, ?_, hliteral.trans (by decide), hread _ hrest⟩
  rw [hliteral]
  cases hq
  cases hr
  decide +kernel

/-! ## Lists -/

namespace Operand

/-- The members of a list as it stands between its parentheses: the pieces between the commas
outside of literals, without the spaces before them. An empty list has nothing between its
parentheses. -/
def members (inside : String) : List String :=
  if inside = "" then []
  else (cutOutside ',' false inside.toList).map fun piece =>
    String.ofList (piece.dropWhile (· = ' '))

/-- No cut is made in a member of a list. -/
theorem uncut_renderMember (a : Operand) : Uncut ',' a.renderMember := by
  obtain ⟨body, hbody⟩ | htoken := a.renderMember_cases
  · rw [hbody]
    exact .quote body (by decide)
  · refine .of_notMem htoken.flat.quoteFree fun hcomma => ?_
    exact absurd (htoken.chars _ hcomma) (by decide)

/-- A member of a list is some text that does not start with a space. -/
theorem renderMember_head (a : Operand) :
    ∃ c rest, a.renderMember.toList = c :: rest ∧ c ≠ ' ' := by
  obtain ⟨body, hbody⟩ | htoken := a.renderMember_cases
  · rw [hbody, toList_quote]
    exact ⟨_, _, rfl, by decide⟩
  · obtain ⟨c, rest, hlist⟩ :=
      List.exists_cons_of_ne_nil fun hnil => htoken.ne_empty (String.toList_eq_nil_iff.mp hnil)
    refine ⟨c, rest, hlist, ?_⟩
    rintro rfl
    exact absurd (htoken.chars _ (hlist ▸ List.mem_cons_self)) (by decide)

/-- **A list gives its members back**, as many as there are and in their order. -/
theorem members_intercalate (operands : List Operand) :
    members (String.intercalate ", " (operands.map renderMember)) = operands.map renderMember := by
  cases operands with
  | nil => rfl
  | cons first rest =>
    have huncut : ∀ text ∈ first.renderMember :: rest.map renderMember, Uncut ',' text := by
      rw [← List.map_cons]
      intro text htext
      obtain ⟨a, _, rfl⟩ := List.mem_map.mp htext
      exact a.uncut_renderMember
    have hspace : Uncut ',' (String.ofList [' ']) := .of_notMem (by decide) (by decide)
    have hcut := @cutOutside_intercalate ',' _ _ huncut ", " [' '] rfl hspace
    have hdrop : ∀ a : Operand,
        a.renderMember.toList.dropWhile (· = ' ') = a.renderMember.toList := by
      intro a
      obtain ⟨c, rest, hlist, hc⟩ := a.renderMember_head
      simp [hlist, hc]
    have hne : String.intercalate ", " (first.renderMember :: rest.map renderMember) ≠ "" := by
      intro hempty
      obtain ⟨c, more, hlist, _⟩ := first.renderMember_head
      rw [hempty, hlist] at hcut
      cases hcut
    rw [List.map_cons, members, if_neg hne, hcut]
    simp [hdrop, Function.comp_def]

/-- Lists are written the same only if their members are, one by one. -/
theorem renderList_inj {l m : List Operand} (h : renderList l = renderList m) :
    l.map renderMember = m.map renderMember := by
  rw [renderList, renderList, String.append_left_inj, String.append_right_inj] at h
  rw [← members_intercalate l, h, members_intercalate]

end Operand

/-- **A list keeps its members.** On a reached chain that waits for a comparison, a comparison with
a list succeeds and writes, behind the condition and its operator, something in parentheses whose
members are the members of the list as they are written, as many of them and in their order. Each
text among them is one literal of that text, its case kept. So what is written for another list is
the same only if its members are written the same, one by one. -/
theorem Chain.Reached.list_keeps_members {β : Type} [Builder β] {known : List String} {q : Chain}
    (h : Reached β known q) (hmode : q.mode = .compare) (negated : Bool) (operands : List Operand) :
    ∃ (r : Chain) (k : Nat) (part : Part) (condition inside : String),
      (Step.compare (β := β) (.member negated operands)).run q = .ok r ∧
      q.pending? = some (k, part.pushText condition) ∧
      r.parts = q.parts.set k (part.pushText
        (condition ++ (if negated then " NOT IN " else " IN ") ++ ("(" ++ inside ++ ")"))) ∧
      Operand.members inside = operands.map Operand.renderMember ∧
      (∀ (i : Nat) (text : String), operands[i]? = some (.text text) →
        ∃ member, (Operand.members inside)[i]? = some member ∧
          readLiteral? member.toList = some (text.toList, [])) ∧
      ∀ (others : List Operand) (s : Chain),
        (Step.compare (β := β) (.member negated others)).run q = .ok s → s.parts = r.parts →
        others.map Operand.renderMember = operands.map Operand.renderMember := by
  obtain ⟨k, part, condition, hpending⟩ := h.ready.exists_pending hmode
  have hlt : k < q.parts.length :=
    (List.getElem?_eq_some_iff.mp (pending?_some hpending).1).1
  have hwritten : ∀ list : List Operand,
      completeText (memberOperator negated) (.verbatim (Operand.renderList list)) condition =
        condition ++ (if negated then " NOT IN " else " IN ") ++ Operand.renderList list := by
    intro list
    obtain ⟨left, hleft, hcondition⟩ := Chain.exists_completeText (memberOperator negated)
      (.verbatim (Operand.renderList list)) condition
    rw [hleft, hcondition rfl]
    cases negated <;>
      simp [memberOperator, Operator.isIn, Operator.notIn, Comparand.verbatim, String.append_assoc]
  have hrun : ∀ list : List Operand, (Step.compare (β := β) (.member negated list)).run q = _ :=
    fun list => complete_of_pending hmode hpending
  refine ⟨_, k, part, condition, String.intercalate ", " (operands.map Operand.renderMember),
    hrun operands, hpending, ?_, Operand.members_intercalate operands, ?_, ?_⟩
  · dsimp only
    rw [hwritten]
    rfl
  · intro i text hi
    refine ⟨quote text, ?_, readLiteral?_eq_some_iff.mpr ⟨(List.append_nil _).symm, nofun⟩⟩
    rw [Operand.members_intercalate, List.getElem?_map, hi]
    rfl
  · intro others s hs hparts
    rw [hrun others] at hs
    cases hs
    have hpart := congrArg (fun parts : List Part => parts[k]?) hparts
    simp only [List.getElem?_set_self hlt, Option.some.injEq] at hpart
    have htext := congrArg Part.popText hpart
    simp only [Part.popText_pushText, Except.ok.injEq, Prod.mk.injEq, and_true] at htext
    rw [hwritten, hwritten, String.append_right_inj] at htext
    exact Operand.renderList_inj htext

/-- Texts with a comma, a quote and a parenthesis between a number and a missing value. -/
theorem Chain.list_of_misleading_texts :
    let texts : List Operand := [.int32 (-3), .text "a, 'B", .null, .text ")", .text ""]
    ∃ (q r : Chain) (inside : String),
      Step.runAll (β := Transcript) [.startCondition ⟨[], "code"⟩] (Chain.start "e") = .ok q ∧
      q.mode = .compare ∧
      (Step.compare (β := Transcript) (.member true texts)).run q = .ok r ∧
      r.parts = [.condition .start "e.code NOT IN (-3, 'a, ''B', NULL, ')', '')"] ∧
      Operand.members inside = ["-3", "'a, ''B'", "NULL", "')'", "''"] ∧
      ∃ member, (Operand.members inside)[1]? = some member ∧
        readLiteral? member.toList = some ("a, 'B".toList, []) := by
  intro texts
  obtain ⟨q, hq⟩ : ∃ q, Step.runAll (β := Transcript)
      [.startCondition ⟨[], "code"⟩] (Chain.start "e") = .ok q := ⟨_, rfl⟩
  have hmode : q.mode = .compare := by
    cases hq
    rfl
  obtain ⟨r, k, part, condition, inside, hr, _, _, hmembers, htexts, _⟩ :=
    Chain.Reached.list_keeps_members ((Reached.start "e").runAll hq) hmode true texts
  refine ⟨q, r, inside, hq, hmode, hr, ?_, ?_, htexts 1 "a, 'B" rfl⟩
  · cases hq
    cases hr
    decide +kernel
  · rw [hmembers]
    decide +kernel

end DeferredQuery
