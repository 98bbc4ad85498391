import DeferredQuery.Proofs.Variation.Run

/-!
# Text operands stay inside their literals

Two queries whose calls and keys differ in texts only end alike, and so do their renderings: nothing
that a text operand holds decides whether a query can be built, or reaches a place outside of its
literal. The texts that are sent differ in the bodies of literals and nowhere else, as long as no
name and no operator brings a quote of its own.
-/

set_option autoImplicit false

namespace DeferredQuery

open Text

/-- A query for a key has names without quotes if its schema has, and closes the literal of its
key. -/
theorem Repository.unquoted_byId {schema : Schema} {entity : String} {options : Options}
    {r : Repository} (hmake : make schema entity options = .ok r)
    (hschema : ∀ entry ∈ r.schema.entities.entries, entry.2.Unquoted) (id : Operand) :
    (r.byId id).builder.Unquoted := by
  obtain ⟨halias, hkey⟩ := quoteFree_of_make hmake
  refine ⟨⟨hschema, halias, nofun, nofun, nofun⟩, nofun, fun filter hfilter => ?_⟩
  cases hfilter
  exact id.alike_renderMember_self.prepend (by simp +decide [halias, hkey])

/-- **Text operands cannot escape their literals.** Calls that differ in the texts of operands, on
builders that differ in the text of a key, fail with the same error or both succeed, and then every
rendering fails with the same error or succeeds for both. Where names and operators hold no quotes,
the rendered texts are the same once the bodies of their literals are left out. -/
theorem Query.render_noninterference {builder other : Statement}
    {steps others : List (Step Statement)} (hbuilder : builder.SameButKey other)
    (hsteps : Step.AllSameButText steps others)
    (hfresh : Step.AllStartFresh steps (Query.new builder).chain) :
    SameOutcome
      (fun q r => ∀ purpose, SameOutcome
        (fun a b => builder.Unquoted → Step.AllUnquoted steps → blank a = blank b)
        (Query.render purpose q.parts builder) (Query.render purpose r.parts other))
      (Step.runAll steps (Query.new builder).chain)
      (Step.runAll others (Query.new other).chain) := by
  have hstart : (Query.new builder).chain.AlikeIf (builder.Unquoted ∧ Step.AllUnquoted steps)
      (Query.new other).chain := by
    have hchain : (Query.new other).chain = (Query.new builder).chain :=
      congrArg Chain.start hbuilder.baseAlias_eq
    rw [hchain]
    exact .within [] fun hp => hp.1.baseAlias
  have hrun := Step.runAll_alike steps hsteps (fun hp => hp.2) hfresh hstart
  refine hrun.imp fun q r hq purpose => ?_
  refine (Query.render_alike hq.parts (hbuilder.alike fun hp => hp.1) purpose).imp ?_
  intro a b halike hnames hsteps
  exact (halike ⟨hnames, hsteps⟩).blank_eq

/-- A key and a name with quotes in them, in place of others; the name is compared in a group. -/
theorem Query.noninterference_of_quoted_name :
    let users : Repository := ⟨Schema.empty.withEntity (Entity.new "User" "users"), "User", {}⟩
    let keyed (key : String) : Statement := (users.byId (.text key)).builder
    let named (name : String) : List (Step Statement) :=
      [.group .start [.startCondition ⟨[], "name"⟩, .compare (.beginsWith (.text name))]]
    SameOutcome
      (fun q r => ∀ purpose, SameOutcome (fun a b => blank a = blank b)
        (Query.render purpose q.parts (keyed "1' OR '1' = '1"))
        (Query.render purpose r.parts (keyed "7")))
      (Step.runAll (named "O'Brien") (Query.new (keyed "1' OR '1' = '1")).chain)
      (Step.runAll (named "Smith") (Query.new (keyed "7")).chain) := by
  intro users keyed named
  have hmake : Repository.make users.schema "User" {} = .ok users := rfl
  have hsteps : Step.AllSameButText (named "O'Brien") (named "Smith") :=
    .cons (.group _ (.cons (.plain rfl) (.cons (.compare (.literal _ _ _ (.text _ _))) .nil))) .nil
  have hfresh : Step.AllStartFresh (named "O'Brien") (Query.new (keyed "1' OR '1' = '1")).chain :=
    ⟨⟨rfl, fun _ _ => ⟨trivial, fun _ _ => trivial⟩⟩, fun _ _ => trivial⟩
  have hschema : ∀ entry ∈ users.schema.entities.entries, entry.2.Unquoted := by
    intro entry hentry
    rw [List.mem_singleton.mp hentry]
    exact ⟨by decide, by decide, nofun⟩
  have hcalls : Step.AllUnquoted (named "O'Brien") := by
    refine ⟨⟨fun segment hsegment => ?_, (by decide : QuoteFree Operator.like.text), trivial⟩,
      trivial⟩
    rw [List.mem_singleton.mp hsegment]
    decide
  have hkeys : (keyed "1' OR '1' = '1").SameButKey (keyed "7") := .byId hmake (.text _ _)
  refine (Query.render_noninterference hkeys hsteps hfresh).imp fun q r h purpose => ?_
  exact (h purpose).imp fun a b hblank => hblank (Repository.unquoted_byId hmake hschema _) hcalls

end DeferredQuery
