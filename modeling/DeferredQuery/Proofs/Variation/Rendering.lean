import DeferredQuery.Proofs.Variation.Calls

/-!
# Rendering parts that differ in their conditions

Two lists of parts that are the same but for the texts of conditions are replayed to statements that
are the same but for those texts. Whether a statement renders does not depend on its conditions, and
where names hold no quotes the texts of two such statements are alike.

Names may hold quotes; then nothing is said of texts. So the relations take what is assumed of names
as a proposition, `plain`, and relate texts under it.
-/

set_option autoImplicit false

namespace DeferredQuery

open Text

/-! ## Parts and calls -/

/-- The texts of a part hold no quotes. -/
def Part.Unquoted (p : Part) : Prop := ∀ text, .text text ∈ p.arguments → QuoteFree text

/-- The texts of a call hold no quotes. -/
def Call.Unquoted : Call → Prop
  | .condition _ text => QuoteFree text
  | .join _ relation name own => QuoteFree relation ∧ QuoteFree name ∧ ∀ on ∈ own, QuoteFree on
  | .select column => QuoteFree column
  | .order _ column _ _ => QuoteFree column
  | .skip _ | .take _ => True

/-- The same part, or two conditions of one kind whose texts are alike. -/
inductive Part.AlikeIf (plain : Prop) : Part → Part → Prop
  | same {p : Part} (hother : p.action.isCondition = false) (hp : plain → p.Unquoted) :
    AlikeIf plain p p
  | condition (kind : ConditionKind) {a b : String} (h : plain → Alike a b) :
    AlikeIf plain (.condition kind a) (.condition kind b)

/-- Two groups of the same conditions, but for texts that are alike. -/
def Group.AlikeIf (plain : Prop) (g h : Group) : Prop :=
  List.Forall₂ (fun c d => c.1 = d.1 ∧ (plain → Alike c.2 d.2)) g.conditions h.conditions

/-- Two statements that are the same but for the texts of their conditions, which are alike. -/
structure Statement.AlikeIf (plain : Prop) (s t : Statement) : Prop where
  frame : t = { s with conditions := t.conditions, baseFilter := t.baseFilter }
  conditions : s.conditions.AlikeIf plain t.conditions
  baseFilter : Option.Rel (fun a b => plain → Alike a b) s.baseFilter t.baseFilter
  names : plain → s.PlainNames

namespace Part

theorem mem_of_text {p : Part} {index : Nat} {text : String} (h : p.text index = .ok text) :
    .text text ∈ p.arguments := by
  unfold Part.text at h
  split at h
  · rename_i value hvalue
    cases h
    exact List.mem_of_getElem? hvalue
  · cases h

theorem mem_of_optionalText {p : Part} {index : Nat} {found : Option String} {text : String}
    (h : p.optionalText index = .ok found) (htext : text ∈ found) : .text text ∈ p.arguments := by
  unfold optionalText at h
  split at h
  · cases h
    cases htext
  · rename_i value hvalue
    cases h
    cases htext
    exact List.mem_of_getElem? hvalue
  · cases h

theorem unquoted_call {p : Part} {call : Call} (hp : p.Unquoted) (h : p.call = .ok call) :
    call.Unquoted := by
  unfold Part.call at h
  split at h
  · obtain ⟨text, htext, h⟩ := exists_of_bind h
    cases h
    exact hp _ (mem_of_text htext)
  · obtain ⟨relation, hrelation, h⟩ := exists_of_bind h
    obtain ⟨name, hname, h⟩ := exists_of_bind h
    obtain ⟨condition, hcondition, h⟩ := exists_of_bind h
    cases h
    exact ⟨hp _ (mem_of_text hrelation), hp _ (mem_of_text hname),
      fun on hon => hp _ (mem_of_optionalText hcondition hon)⟩
  · obtain ⟨column, hcolumn, h⟩ := exists_of_bind h
    cases h
    exact hp _ (mem_of_text hcolumn)
  · obtain ⟨column, hcolumn, h⟩ := exists_of_bind h
    obtain ⟨direction, _, h⟩ := exists_of_bind h
    obtain ⟨nulls, _, h⟩ := exists_of_bind h
    cases h
    exact hp _ (mem_of_text hcolumn)
  · obtain ⟨count, _, h⟩ := exists_of_bind h
    cases h
    trivial
  · obtain ⟨count, _, h⟩ := exists_of_bind h
    cases h
    trivial

end Part

/-! ## Groups -/

namespace Group.AlikeIf

variable {plain : Prop} {g h : Group}

theorem add (hgh : g.AlikeIf plain h) (kind : ConditionKind) {a b : String}
    (hab : plain → Alike a b) : (g.add kind a).AlikeIf plain (h.add kind b) := by
  cases kind with
  | start => exact .cons ⟨rfl, hab⟩ .nil
  | and => exact List.rel_append hgh (.cons ⟨rfl, hab⟩ .nil)
  | or => exact List.rel_append hgh (.cons ⟨rfl, hab⟩ .nil)

theorem isEmpty_eq (hgh : g.AlikeIf plain h) : g.isEmpty = h.isEmpty := by
  obtain ⟨first⟩ := g
  obtain ⟨second⟩ := h
  cases hgh <;> rfl

/-- The conditions after the first keep their words between them. -/
theorem restText {l m : List (Combinator × String)} (hplain : plain)
    (h : List.Forall₂ (fun c d => c.1 = d.1 ∧ (plain → Alike c.2 d.2)) l m) {a b : String}
    (hab : Alike a b) : Alike (a ++ Group.restText l) (b ++ Group.restText m) := by
  induction h generalizing a b with
  | nil => exact hab.append (by decide)
  | @cons c d l m hcd h ih =>
    obtain ⟨combinator, first⟩ := c
    obtain ⟨_, second⟩ := d
    obtain ⟨rfl, htext⟩ := hcd
    have hword : QuoteFree (" " ++ combinator.text ++ " ") := by cases combinator <;> decide
    have hne : " " ++ combinator.text ++ " " ≠ "" := by cases combinator <;> decide
    simpa only [Group.restText, String.append_assoc] using
      ih (hab.join hword hne (htext hplain))

theorem text (hgh : g.AlikeIf plain h) (hplain : plain) : Alike g.text h.text := by
  obtain ⟨first⟩ := g
  obtain ⟨second⟩ := h
  have hinner : Alike (innerText first) (innerText second) := by
    cases hgh with
    | nil => exact .of_quoteFree (by decide)
    | cons hcd h => exact restText hplain h (hcd.2 hplain)
  exact (hinner.prepend (by decide)).append (by decide)

end Group.AlikeIf

/-! ## Joins -/

theorem mem_of_lookup {α : Type} {entries : List (String × α)} {key : String} {a : α}
    (h : entries.lookup key = some a) : (key, a) ∈ entries := by
  obtain ⟨before, after, rfl, _⟩ := List.lookup_eq_some_iff.mp h
  simp

theorem Schema.unquoted_of_require {schema : Schema} {key : String} {e : Entity}
    (hschema : ∀ entry ∈ schema.entities.entries, entry.2.Unquoted)
    (h : schema.require key = .ok e) : e.Unquoted := by
  unfold Schema.require at h
  split at h
  · rename_i found hfound
    cases h
    exact hschema _ (mem_of_lookup hfound)
  · cases h

namespace Join

theorem quoteFree_equation {r : Relation} {parentAlias targetAlias : String}
    {parent target : Entity} (hr : QuoteFree r.foreignKey) (hp : QuoteFree parentAlias) (hparent : parent.Unquoted)
    (ht : QuoteFree targetAlias) (htarget : target.Unquoted) :
    QuoteFree (r.equation parentAlias parent targetAlias target) := by
  unfold Relation.equation
  split <;> simp +decide [hr, hp, ht, hparent.primaryKey, htarget.primaryKey]

/-- What a join resolves to holds no quotes if the names that it uses hold none. -/
theorem unquoted_of_resolve {schema : Schema} {scope : Scope} {j : Join} {target : Entity}
    {on : String} (hschema : ∀ entry ∈ schema.entities.entries, entry.2.Unquoted)
    (hscope : ∀ entry ∈ scope, entry.2.Unquoted)
    (hj : QuoteFree j.relation ∧ QuoteFree j.name ∧ ∀ on ∈ j.condition, QuoteFree on)
    (h : j.resolve schema scope = .ok (target, on)) : target.Unquoted ∧ QuoteFree on := by
  obtain ⟨hrelation, hname, hcondition⟩ := hj
  unfold resolve at h
  split at h
  · rename_i parentAlias name hreference
    obtain ⟨⟨before, after⟩, hsplit, hparts⟩ := Option.map_eq_some_iff.mp hreference
    cases hparts
    have hbefore : QuoteFree (String.ofList before) := by
      rw [QuoteFree, (splitLast?_some hsplit).1] at hrelation
      simp only [List.mem_append, not_or] at hrelation
      simpa [QuoteFree] using hrelation.1
    split at h
    · cases h
    rename_i parent hparent
    split at h
    · cases h
    rename_i relation hfound
    split at h
    · cases h
    rename_i found hrequire
    have hparent' := hscope _ (mem_of_lookup hparent)
    have hkey := hparent'.foreignKeys _ (mem_of_lookup hfound)
    have htarget := Schema.unquoted_of_require hschema hrequire
    have hequation := quoteFree_equation hkey hbefore hparent' hname htarget
    dsimp only at h
    split at h
    · cases h
      exact ⟨htarget, hequation⟩
    · rename_i own hown
      cases h
      exact ⟨htarget, by simp +decide [hequation, hcondition own hown]⟩
  · split at h
    · cases h
    rename_i found hrequire
    cases h
    refine ⟨Schema.unquoted_of_require hschema hrequire, ?_⟩
    cases hown : j.condition with
    | none => exact (by decide : QuoteFree Keyword.always)
    | some own => exact hcondition own hown

theorem quoteFree_clauses {schema : Schema} {scope : Scope} {joins : List Join} {text : String}
    (hschema : ∀ entry ∈ schema.entities.entries, entry.2.Unquoted)
    (hscope : ∀ entry ∈ scope, entry.2.Unquoted)
    (hjoins : ∀ j ∈ joins,
      QuoteFree j.relation ∧ QuoteFree j.name ∧ ∀ on ∈ j.condition, QuoteFree on)
    (h : clauses schema scope joins = .ok text) : QuoteFree text := by
  induction joins generalizing scope text with
  | nil =>
    cases h
    decide
  | cons j rest ih =>
    rw [List.forall_mem_cons] at hjoins
    simp only [clauses] at h
    split at h
    · cases h
    rename_i target on hresolve
    obtain ⟨htarget, hon⟩ := unquoted_of_resolve hschema hscope hjoins.1 hresolve
    split at h
    · cases h
    rename_i others hothers
    cases h
    have hrest := ih (List.forall_mem_cons.mpr ⟨htarget, hscope⟩) hjoins.2 hothers
    have hkind : QuoteFree j.kind.keyword := by cases j.kind <;> decide
    simp +decide [clause, hrest, hkind, htarget.table, hjoins.1.2.1, hon]

end Join

/-! ## Statements -/

theorem forall₂_toList {α β : Type} {R : α → β → Prop} {a : Option α} {b : Option β}
    (h : Option.Rel R a b) : List.Forall₂ R a.toList b.toList := by
  cases h with
  | none => exact .nil
  | some hab => exact .cons hab .nil

theorem quoteFree_orderText {column : String} (h : QuoteFree column) (direction : SortDirection)
    (nulls : Option NullsOrder) : QuoteFree (orderText column direction nulls) := by
  have hdirection : QuoteFree direction.text := by cases direction <;> decide
  unfold orderText
  cases nulls with
  | none => simp +decide [h, hdirection]
  | some place =>
    have hplace : QuoteFree place.text := by cases place <;> decide
    simp +decide [h, hdirection, hplace]

namespace Statement

/-- A call whose texts hold no quotes leaves names without quotes. -/
theorem PlainNames.receive {s : Statement} (h : s.PlainNames) {call : Call}
    (hcall : call.Unquoted) : (s.receive call).PlainNames := by
  have hjoins := h.joins
  have horders := h.orders
  have hselection := h.selection
  cases call with
  | condition kind text => exact ⟨h.entities, h.baseAlias, hjoins, hselection, horders⟩
  | join kind relation name own =>
    refine ⟨h.entities, h.baseAlias, fun j hj => ?_, hselection, horders⟩
    rcases List.mem_append.mp hj with hj | hj
    · exact hjoins j hj
    · rw [List.mem_singleton.mp hj]
      exact hcall
  | select column =>
    refine ⟨h.entities, h.baseAlias, hjoins, fun c hc => ?_, horders⟩
    cases hc
    exact hcall
  | order kind column direction nulls =>
    have hnew := quoteFree_orderText hcall direction nulls
    cases kind with
    | start =>
      refine ⟨h.entities, h.baseAlias, hjoins, hselection, fun o ho => ?_⟩
      rw [List.mem_singleton.mp ho]
      exact hnew
    | next =>
      refine ⟨h.entities, h.baseAlias, hjoins, hselection, fun o ho => ?_⟩
      rcases List.mem_append.mp ho with ho | ho
      · exact horders o ho
      · rw [List.mem_singleton.mp ho]
        exact hnew
  | skip count => exact ⟨h.entities, h.baseAlias, hjoins, hselection, horders⟩
  | take count => exact ⟨h.entities, h.baseAlias, hjoins, hselection, horders⟩

namespace AlikeIf

variable {plain : Prop} {s t : Statement}

theorem refl (hs : plain → s.Unquoted) : s.AlikeIf plain s where
  frame := rfl
  conditions := List.forall₂_same.mpr fun c hc => ⟨rfl, fun h => (hs h).conditions c hc⟩
  baseFilter := by
    cases hfilter : s.baseFilter with
    | none => exact .none
    | some filter => exact .some fun h => (hs h).baseFilter filter hfilter
  names h := (hs h).toPlainNames

/-- A call that is no condition, and the same for both. -/
theorem receive (h : s.AlikeIf plain t) {call : Call} (hcall : plain → call.Unquoted) :
    (s.receive call).AlikeIf plain (t.receive call) := by
  obtain ⟨hframe, hconditions, hfilter, hnames⟩ := h
  have hreceived : plain → (s.receive call).PlainNames := fun hp => (hnames hp).receive (hcall hp)
  -- With the frame in place of the second statement, both receive the call by the same fields.
  rw [hframe]
  cases call with
  | condition kind text =>
    exact ⟨rfl, hconditions.add kind fun hp => .of_quoteFree (hcall hp), hfilter, hreceived⟩
  | join kind relation name own => exact ⟨rfl, hconditions, hfilter, hreceived⟩
  | select column => exact ⟨rfl, hconditions, hfilter, hreceived⟩
  | order kind column direction nulls =>
    cases kind <;> exact ⟨rfl, hconditions, hfilter, hreceived⟩
  | skip count => exact ⟨rfl, hconditions, hfilter, hreceived⟩
  | take count => exact ⟨rfl, hconditions, hfilter, hreceived⟩

theorem receive_condition (h : s.AlikeIf plain t) (kind : ConditionKind) {a b : String}
    (hab : plain → Alike a b) :
    (s.receive (.condition kind a)).AlikeIf plain (t.receive (.condition kind b)) := by
  obtain ⟨hframe, hconditions, hfilter, hnames⟩ := h
  rw [hframe]
  refine ⟨rfl, hconditions.add kind hab, hfilter, fun hp => ?_⟩
  obtain ⟨hentities, hbase, hjoins, hselection, horders⟩ := hnames hp
  exact ⟨hentities, hbase, hjoins, hselection, horders⟩

/-- Parts that are alike are replayed to statements that are alike, or stop with the same error. -/
theorem replay {parts others : List Part} (hparts : List.Forall₂ (Part.AlikeIf plain) parts others)
    (h : s.AlikeIf plain t) :
    SameOutcome (AlikeIf plain) (replay parts s).result (replay others t).result := by
  induction hparts generalizing s t with
  | nil => exact .ok h
  | @cons p _ _ _ hpart hparts ih =>
    -- A part that reads as no call stops the replay, and it is the same part in both.
    cases hpart with
    | same hother hp =>
      simp only [DeferredQuery.replay]
      cases hcall : p.call with
      | error e => exact .error e
      | ok call => exact ih (h.receive fun hplain => Part.unquoted_call (hp hplain) hcall)
    | condition kind hab => exact ih (h.receive_condition kind hab)

theorem filters (h : s.AlikeIf plain t) (hplain : plain) :
    List.Forall₂ Alike s.filters t.filters := by
  obtain ⟨hframe, hconditions, hfilter, _⟩ := h
  refine List.rel_append ((forall₂_toList hfilter).imp fun _ _ hab => hab hplain) ?_
  rw [hconditions.isEmpty_eq]
  split
  · exact .nil
  · exact .cons (hconditions.text hplain) .nil

theorem whereClause (h : s.AlikeIf plain t) (hplain : plain) :
    Alike s.whereClause t.whereClause := by
  have hfilters := h.filters hplain
  have hitems := Alike.intercalate (x := " AND ") (by decide) (by decide) hfilters
  unfold Statement.whereClause Statement.listClause
  cases hs : s.filters <;> cases ht : t.filters <;> rw [hs, ht] at hfilters hitems
  · exact .of_quoteFree (by decide)
  · cases hfilters
  · cases hfilters
  · exact hitems.prepend (by decide)

/-- The tables and joins do not depend on the conditions, and the conditions follow them. -/
theorem source (h : s.AlikeIf plain t) {base : Entity} (hbase : plain → base.Unquoted) :
    SameOutcome (fun a b => plain → Alike a b) (s.source base) (t.source base) := by
  have hschema : t.schema = s.schema := by rw [h.frame]
  have halias : t.baseAlias = s.baseAlias := by rw [h.frame]
  have hjoins : t.joins = s.joins := by rw [h.frame]
  unfold Statement.source
  rw [hschema, halias, hjoins]
  cases hclauses : Join.clauses s.schema [(s.baseAlias, base)] s.joins with
  | error e => exact .error e
  | ok joins =>
    refine .ok fun hplain => (h.whereClause hplain).prepend ?_
    have hnames := h.names hplain
    have hscope : ∀ entry ∈ [(s.baseAlias, base)], entry.2.Unquoted := by
      simpa using hbase hplain
    have hquoteFree := Join.quoteFree_clauses hnames.entities hscope hnames.joins hclauses
    simp +decide [(hbase hplain).table, hnames.baseAlias, hquoteFree]

theorem quoteFree_rowColumns (h : s.PlainNames) : QuoteFree s.rowColumns := by
  unfold rowColumns
  cases hselection : s.selection with
  | none => simp +decide [h.baseAlias]
  | some column => exact h.selection column hselection

theorem quoteFree_countColumn (h : s.PlainNames) {base : Entity} (hbase : base.Unquoted) :
    QuoteFree (s.countColumn base) := by
  unfold countColumn
  simp +decide [h.baseAlias, hbase.primaryKey]

theorem quoteFree_orderClause (h : s.PlainNames) : QuoteFree s.orderClause := by
  have hitems : QuoteFree (String.intercalate ", " s.orders) :=
    quoteFree_intercalate (by decide) h.orders
  unfold orderClause listClause
  split
  · decide
  · simp +decide [hitems]

theorem quoteFree_countClause {keyword : String} (h : QuoteFree keyword) (count : Option Nat) :
    QuoteFree (countClause keyword count) := by
  cases count with
  | none => exact (by decide : QuoteFree "")
  | some count => simp [countClause, h, quoteFree_repr]

/-- **Statements that differ in their conditions render alike**, or fail with the same error. -/
theorem text (h : s.AlikeIf plain t) (purpose : Purpose) :
    SameOutcome (fun a b => plain → Alike a b) (s.text purpose) (t.text purpose) := by
  have hschema : t.schema = s.schema := by rw [h.frame]
  have hentity : t.entity = s.entity := by rw [h.frame]
  have hlimit : t.limit = s.limit := by rw [h.frame]
  have hcolumns : t.rowColumns = s.rowColumns := by rw [h.frame]; rfl
  have hcount : t.countColumn = s.countColumn := by rw [h.frame]; rfl
  have horders : t.orderClause = s.orderClause := by rw [h.frame]; rfl
  have hoffset : t.offsetClause = s.offsetClause := by rw [h.frame]; rfl
  unfold Statement.text
  rw [hschema, hentity, hlimit, hcolumns, hcount, horders, hoffset]
  cases hrequire : s.schema.require s.entity with
  | error e => exact .error e
  | ok base =>
    have hbase : plain → base.Unquoted := fun hplain =>
      Schema.unquoted_of_require (h.names hplain).entities hrequire
    -- For rows, the source stands between the columns and what follows the conditions.
    have hrows : ∀ {limit : Option Nat} {a b : String}, (plain → Alike a b) → plain →
        Alike
          ("SELECT " ++ s.rowColumns ++ a ++ s.orderClause ++ limitClause limit ++ s.offsetClause)
          ("SELECT " ++ s.rowColumns ++ b ++ s.orderClause ++ limitClause limit ++
            s.offsetClause) := by
      intro limit a b hab hplain
      have hfront : QuoteFree ("SELECT " ++ s.rowColumns) := by
        simp +decide [quoteFree_rowColumns (h.names hplain)]
      have hlimit : QuoteFree (limitClause limit) := quoteFree_countClause (by decide) limit
      have hoffset : QuoteFree s.offsetClause := quoteFree_countClause (by decide) s.offset
      exact (((hab hplain).prepend hfront).append (quoteFree_orderClause (h.names hplain))).append
        hlimit |>.append hoffset
    dsimp only
    have hsource := h.source hbase
    cases hs : s.source base <;> cases ht : t.source base <;> rw [hs, ht] at hsource <;>
      cases hsource
    case error => exact .error _
    case ok a b hab =>
      cases purpose <;> dsimp only
      case count =>
        refine .ok fun hplain => (hab hplain).prepend ?_
        simp +decide [quoteFree_countColumn (h.names hplain) (hbase hplain)]
      all_goals exact .ok (hrows hab)

end AlikeIf

end Statement

/-- Queries whose parts and builders are alike render alike, or fail with the same error. -/
theorem Query.render_alike {plain : Prop} {parts others : List Part} {s t : Statement}
    (hparts : List.Forall₂ (Part.AlikeIf plain) parts others) (h : s.AlikeIf plain t)
    (purpose : Purpose) :
    SameOutcome (fun a b => plain → Alike a b) (Query.render purpose parts s)
      (Query.render purpose others t) := by
  unfold Query.render
  have hreplay := h.replay hparts
  cases hs : (replay parts s).result <;> cases ht : (replay others t).result <;>
    rw [hs, ht] at hreplay <;> cases hreplay
  case error => exact .error _
  case ok built other hbuilt => exact hbuilt.text purpose

theorem Query.subqueryText_alike {plain : Prop} {q r : Chain} {s t : Statement} (fetch : Fetch)
    (hparts : List.Forall₂ (Part.AlikeIf plain) q.parts r.parts)
    (hselection : r.selection = q.selection)
    (hcolumn : plain → ∀ column ∈ q.selection, QuoteFree column) (h : s.AlikeIf plain t) :
    SameOutcome (fun a b => plain → Alike a b) (Query.mk s q fetch).subqueryText
      (Query.mk t r fetch).subqueryText := by
  unfold Query.subqueryText
  dsimp only
  rw [hselection]
  cases hq : q.selection with
  | none => exact .error _
  | some column =>
    refine Query.render_alike (.cons (.same rfl fun hplain text htext => ?_) hparts) h .display
    cases List.mem_singleton.mp htext
    exact hcolumn hplain column hq

/-! ## Builders -/

theorem quoteFree_of_isIdentifier {text : String} (h : isIdentifier text.toList = true) :
    QuoteFree text := by
  intro hquote
  have hword := List.all_eq_true.mp (all_isWordChar_of_isIdentifier h) _ hquote
  exact absurd hword (by decide)

theorem Repository.quoteFree_of_make {schema : Schema} {entity : String} {options : Options}
    {r : Repository} (h : make schema entity options = .ok r) :
    QuoteFree r.options.baseAlias ∧ QuoteFree r.options.primaryKey := by
  obtain ⟨halias, hkey, _⟩ := of_make h
  exact ⟨quoteFree_of_isIdentifier halias, quoteFree_of_isIdentifier hkey⟩

theorem Statement.SameButKey.alike {plain : Prop} {s t : Statement} (h : s.SameButKey t)
    (hs : plain → s.Unquoted) : s.AlikeIf plain t := by
  cases h with
  | same => exact .refl hs
  | @byId _ _ _ r a b hmake hab =>
    obtain ⟨halias, hkey⟩ := Repository.quoteFree_of_make hmake
    refine ⟨rfl, .nil, .some fun _ => ?_, fun hplain => (hs hplain).toPlainNames⟩
    exact hab.renderMember.prepend (by simp +decide [halias, hkey])

theorem Statement.SameButKey.baseAlias_eq {s t : Statement} (h : s.SameButKey t) :
    t.baseAlias = s.baseAlias := by
  cases h <;> rfl

end DeferredQuery
