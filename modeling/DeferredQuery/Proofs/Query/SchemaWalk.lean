import DeferredQuery.Proofs.Chain.Traversal
import DeferredQuery.Proofs.Query.Resolution

/-!
# Joined paths walk the schema

A path that is joined from a fresh statement passes three stages: the chain records one join for
each segment, under an alias glued from those before; the joins are replayed in their order; and the
statement resolves each of them with the entities that the aliases before it stand for. Together
they walk the schema: a path can be rendered if and only if its relations lead from entity to
entity, and then every hop is one clause. An entity may be met again and again, for it is met under
an alias of its own each time.
-/

set_option autoImplicit false

namespace DeferredQuery

/-! ## Hops -/

/-- A relation that leads from one entity to another. -/
structure Hop where
  source : Entity
  relation : Relation
  target : Entity

namespace Hop

/-- The column of the target that the hop compares: the foreign key if the relation is one to many,
for then the target holds it, and else the primary key of the target. -/
def targetColumn (hop : Hop) : String :=
  if hop.relation.kind = .oneToMany then hop.relation.foreignKey else hop.target.primaryKey

/-- The column of the source that the hop compares, which is the other of the two keys. -/
def sourceColumn (hop : Hop) : String :=
  if hop.relation.kind = .oneToMany then hop.source.primaryKey else hop.relation.foreignKey

theorem equation_eq (hop : Hop) (old new : String) :
    hop.relation.equation old hop.source new hop.target =
      new ++ "." ++ hop.targetColumn ++ " = " ++ old ++ "." ++ hop.sourceColumn := by
  unfold Relation.equation targetColumn sourceColumn
  cases hkind : hop.relation.kind <;> simp

end Hop

namespace Schema

/-- The hops from an entity over the named relations, one after the other, and the entity at their
end. -/
inductive Hops (schema : Schema) : Entity → List String → List Hop → Entity → Prop
  | nil (e : Entity) : Hops schema e [] [] e
  | cons {source target stop : Entity} {name : String} {relation : Relation} {rest : List String}
    {hops : List Hop} (hrelation : source.relation? name = some relation)
    (htarget : schema.entity? relation.target = some target)
    (hrest : Hops schema target rest hops stop) :
    Hops schema source (name :: rest) (⟨source, relation, target⟩ :: hops) stop

/-- There is no hop from the entity over a relation of this name, and the error says why. -/
inductive Refuses (schema : Schema) (source : Entity) (name : String) : Error → Prop
  | relation (h : source.relation? name = none) :
    Refuses schema source name (.invalidQuery (.unknownRelation source.name name))
  | target {relation : Relation} (hrelation : source.relation? name = some relation)
    (h : schema.entity? relation.target = none) :
    Refuses schema source name (.invalidQuery (.unknownEntity relation.target))

/-- Hops lead up to the first name that is refused. -/
def StopsAt (schema : Schema) (source : Entity) (names : List String) (error : Error) : Prop :=
  ∃ before name rest hops last, names = before ++ name :: rest ∧
    schema.Hops source before hops last ∧ schema.Refuses last name error

variable {schema : Schema}

/-- There are hops over all the names, or up to the first that is refused. -/
theorem hops_or_stopsAt (source : Entity) (names : List String) :
    (∃ hops stop, schema.Hops source names hops stop) ∨
      ∃ error, schema.StopsAt source names error := by
  induction names generalizing source with
  | nil => exact .inl ⟨[], source, .nil source⟩
  | cons name rest ih =>
    cases hrelation : source.relation? name with
    | none => exact .inr ⟨_, [], name, rest, [], source, rfl, .nil source, .relation hrelation⟩
    | some relation =>
      cases htarget : schema.entity? relation.target with
      | none =>
        exact .inr ⟨_, [], name, rest, [], source, rfl, .nil source, .target hrelation htarget⟩
      | some target =>
        rcases ih target with ⟨hops, stop, hrest⟩ |
          ⟨error, before, other, after, hops, last, rfl, hbefore, hrefuses⟩
        · exact .inl ⟨_, stop, .cons hrelation htarget hrest⟩
        · exact .inr ⟨error, name :: before, other, after, _, last, rfl,
            .cons hrelation htarget hbefore, hrefuses⟩

end Schema

/-! ## Joins of a path -/

/-- The alias of the entity that is reached over the first segments of a path: all the names on the
way with underscores in between. -/
def pathAlias (base : String) (segments : List String) (count : Nat) : String :=
  String.intercalate "_" (base :: segments.take count)

theorem pathAlias_zero (base : String) (segments : List String) :
    pathAlias base segments 0 = base :=
  String.intercalate_singleton

/-- The alias over one more segment is that of the rest of the path from the alias of the first. -/
theorem pathAlias_cons (base name : String) (rest : List String) (count : Nat) :
    pathAlias base (name :: rest) (count + 1) =
      pathAlias (Chain.stepAlias base name) rest count := by
  rw [pathAlias, pathAlias, List.take_succ_cons, String.intercalate_cons_cons, Chain.stepAlias,
    String.intercalate_cons_append]

/-- The clause of a hop: it joins the table of the target under an alias of its own, and compares a
column of the target with one of the source. -/
def Hop.clause (kind : JoinKind) (base : String) (segments : List String) (index : Nat)
    (hop : Hop) : String :=
  let old := pathAlias base segments index
  let new := pathAlias base segments (index + 1)
  (if kind = .inner then " INNER JOIN " else " LEFT JOIN ") ++ hop.target.table ++ " " ++ new ++
    " ON " ++ (new ++ "." ++ hop.targetColumn ++ " = " ++ old ++ "." ++ hop.sourceColumn)

/-- The join of a relation from an alias. -/
def Join.ofStep (kind : JoinKind) (base name : String) : Join :=
  ⟨kind, Chain.stepRelation base name, Chain.stepAlias base name, none⟩

/-- The joins of a path, each of them from the alias of the one before. -/
def Walk.asked (w : Walk) : List Join := w.links.map fun link => ⟨w.kind, link.1, link.2, none⟩

theorem Walk.asked_cons (kind : JoinKind) (base name : String) (rest : List String) :
    Walk.asked ⟨kind, base, name :: rest⟩ =
      Join.ofStep kind base name :: Walk.asked ⟨kind, Chain.stepAlias base name, rest⟩ :=
  rfl

namespace Join

variable {schema : Schema} {scope : Scope} {source : Entity} {base name : String}

theorem reference?_ofStep (kind : JoinKind) (base : String) (hname : '.' ∉ name.toList) :
    (ofStep kind base name).reference? = some (base, name) :=
  reference?_of_relation hname rfl

/-- A join of a relation is resolved if there is a hop over it. -/
theorem resolve_of_hop {target : Entity} {relation : Relation} (hname : '.' ∉ name.toList)
    (hbase : scope.lookup base = some source) (hrelation : source.relation? name = some relation)
    (htarget : schema.entity? relation.target = some target) (kind : JoinKind) :
    (ofStep kind base name).resolve schema scope =
      .ok (target, relation.equation base source (Chain.stepAlias base name) target) := by
  simp only [resolve, reference?_ofStep kind base hname, hbase, hrelation, Schema.require, htarget]
  rfl

/-- A join of a relation fails as the hop over it does. -/
theorem resolve_of_refuses {error : Error} (hname : '.' ∉ name.toList)
    (hbase : scope.lookup base = some source) (h : schema.Refuses source name error)
    (kind : JoinKind) : (ofStep kind base name).resolve schema scope = .error error := by
  cases h with
  | relation h => simp only [resolve, reference?_ofStep kind base hname, hbase, h]
  | target hrelation h =>
    simp only [resolve, reference?_ofStep kind base hname, hbase, hrelation, Schema.require, h]

/-- The alias that is bound last stands for its entity. -/
theorem lookup_ofStep (scope : Scope) (kind : JoinKind) (base name : String) (target : Entity) :
    List.lookup (Chain.stepAlias base name) (((ofStep kind base name).name, target) :: scope) =
      some target := by
  rw [Scope.lookup_bind]
  exact if_pos rfl

/-- **Hops are the clauses of the joins of their path**, in any scope in which the alias that the
path starts from stands for the entity that they start from. -/
theorem clauses_of_hops {stop : Entity} {segments : List String} {hops : List Hop}
    (h : schema.Hops source segments hops stop) (hsegments : ∀ s ∈ segments, '.' ∉ s.toList)
    (kind : JoinKind) (hbase : scope.lookup base = some source) :
    Clauses schema scope (Walk.asked ⟨kind, base, segments⟩)
      (hops.mapIdx (Hop.clause kind base segments)) := by
  induction h generalizing base scope with
  | nil e => exact .nil scope
  | @cons source target stop name relation rest hops hrelation htarget _ ih =>
    rw [List.forall_mem_cons] at hsegments
    let hop : Hop := ⟨source, relation, target⟩
    let new := Chain.stepAlias base name
    -- Behind the first hop the path starts from the alias that the first join binds.
    have hlater : (fun index => Hop.clause kind base (name :: rest) (index + 1)) =
        Hop.clause kind new rest := by
      funext index hop
      rw [Hop.clause, Hop.clause, pathAlias_cons, pathAlias_cons]
    have hfirst : Hop.clause kind base (name :: rest) 0 hop =
        (if kind = .inner then " INNER JOIN " else " LEFT JOIN ") ++ target.table ++ " " ++ new ++
          " ON " ++ relation.equation base source new target := by
      rw [Hop.clause, pathAlias_zero, pathAlias_cons, pathAlias_zero, ← hop.equation_eq]
    rw [List.mapIdx_cons, hlater, hfirst, Walk.asked_cons]
    exact .cons (resolve_of_hop hsegments.1 hbase hrelation htarget kind)
      (ih hsegments.2 (lookup_ofStep scope kind base name target))

/-- The joins of a path fail where the hops over it stop. -/
theorem clauses_of_stopsAt {segments : List String} {error : Error}
    (h : schema.StopsAt source segments error) (hsegments : ∀ s ∈ segments, '.' ∉ s.toList)
    (kind : JoinKind) (hbase : scope.lookup base = some source) :
    clauses schema scope (Walk.asked ⟨kind, base, segments⟩) = .error error := by
  obtain ⟨before, name, rest, hops, last, rfl, hbefore, hrefuses⟩ := h
  induction hbefore generalizing base scope with
  | nil e =>
    rw [List.nil_append, List.forall_mem_cons] at hsegments
    have hresolve := resolve_of_refuses hsegments.1 hbase hrefuses kind
    simp only [List.nil_append, Walk.asked_cons, clauses, hresolve]
  | @cons source target last first relation before hops hrelation htarget _ ih =>
    rw [List.cons_append, List.forall_mem_cons] at hsegments
    have hresolve := resolve_of_hop hsegments.1 hbase hrelation htarget kind
    have hlater := ih (lookup_ofStep scope kind base first target) hsegments.2 hrefuses
    simp only [List.cons_append, Walk.asked_cons, clauses, hresolve, hlater]

end Join

/-! ## Rendering -/

namespace Statement

variable {schema : Schema} {entity base : String} {baseFilter : Option String} {root : Entity}

/-- The text, for a purpose, of a statement with joins and without other calls. -/
def joinedText (purpose : Purpose) (root : Entity) (base : String) (baseFilter : Option String)
    (clauses : List String) : String :=
  let rows := " FROM " ++ root.table ++ " " ++ base ++ String.join clauses ++
    Reading.whereText baseFilter []
  match purpose with
  | .display | .many => "SELECT " ++ (base ++ ".*") ++ rows
  | .one => "SELECT " ++ (base ++ ".*") ++ rows ++ " LIMIT 1"
  | .count => "SELECT " ++ ("COUNT(DISTINCT " ++ base ++ "." ++ root.primaryKey ++ ")") ++ rows

/-- The reading of joins and of nothing else. -/
def joinsOnly (joins : List Join) : Reading := ⟨joins, [], [], none, none, none⟩

theorem text_of_joinsOnly {joins : List Join} {clauses : List String}
    (hroot : schema.entity? entity = some root)
    (hclauses : Join.Clauses schema [(base, root)] joins clauses) (purpose : Purpose) :
    (ofReading schema entity base baseFilter (joinsOnly joins)).text purpose =
      .ok (joinedText purpose root base baseFilter clauses) := by
  let s := ofReading schema entity base baseFilter (joinsOnly joins)
  have hrequire : s.schema.require s.entity = .ok root := by
    simp only [s, ofReading, fresh, Schema.require, hroot]
  have hsource : s.source root = _ := source_ofReading hclauses
  -- There is nothing behind the joins and their filter, but for one row its limit.
  have horder : s.orderClause = "" := orderClause_ofReading ..
  have hoffset : s.offsetClause = "" := offsetClause_ofReading ..
  have hnone : limitClause s.limit = "" := rfl
  have hone : limitClause (some (s.limit.getD 1)) = " LIMIT 1" := by
    show limitClause (some 1) = _
    decide
  show s.text purpose = _
  cases purpose with
  | display | many =>
    rw [Statement.text, hrequire]
    simp only [hsource, horder, hoffset, hnone, String.append_empty]
    rfl
  | one =>
    rw [Statement.text, hrequire]
    simp only [hsource, horder, hoffset, hone, String.append_empty]
    rfl
  | count =>
    rw [Statement.text, hrequire]
    simp only [hsource]
    rfl

theorem text_of_joinsOnly_error {joins : List Join} {error : Error}
    (hroot : schema.entity? entity = some root)
    (hclauses : Join.clauses schema [(base, root)] joins = .error error) (purpose : Purpose) :
    (ofReading schema entity base baseFilter (joinsOnly joins)).text purpose = .error error := by
  refine text_eq_error_iff.mpr (.inr ⟨root, ?_, hclauses⟩)
  simp only [ofReading, fresh, Schema.require, hroot]

end Statement

/-- What a path joins in a chain that knows no alias asks for its joins. -/
theorem Walk.asks_joins (w : Walk) :
    List.Forall₂ Part.Asks (w.joins [])
      (w.asked.map fun j => .join j.kind j.relation j.name j.condition) := by
  have hmissing : w.missing [] = w.links := List.filter_eq_self.mpr (by simp)
  rw [Walk.joins, hmissing, Walk.asked, List.map_map, List.forall₂_map_left_iff,
    List.forall₂_map_right_iff, List.forall₂_same]
  intro link _
  exact .join w.kind link.1 link.2

theorem Reading.of_joins (joins : List Join) :
    Reading.of (joins.map fun j => .join j.kind j.relation j.name j.condition) =
      Statement.joinsOnly joins := by
  simp [Reading.of, Statement.joinsOnly, List.filterMap_map, Function.comp_def, Call.join?,
    Call.condition?, Call.order?, Call.selection?, Call.offset?, Call.limit?, sinceLast]

namespace Query

variable {schema : Schema} {entity base : String} {baseFilter : Option String} {root : Entity}

theorem render_walk (w : Walk) (purpose : Purpose) :
    render purpose (w.joins []) (Statement.fresh schema entity base baseFilter) =
      (Statement.ofReading schema entity base baseFilter (Statement.joinsOnly w.asked)).text
        purpose := by
  rw [render_of_asks _ _ _ _ w.asks_joins, Reading.of_joins]

/-- **A joined path walks the schema.** A target is joined from the base alias of a fresh statement
about an entity of the schema. What is recorded can be rendered, for any purpose, if and only if
there are hops from the entity over the relations of the target. The text has then one clause for
each hop, in their order: it joins the table of the entity reached, inner or left as the kind says,
under the alias of the way that leads to it, on the equation of the relation. Otherwise the error
is about the first hop that is missing: its relation is not declared, or leads to no entity. -/
theorem joined_path_walks_schema (hroot : schema.entity? entity = some root) (base : String)
    (baseFilter : Option String) (kind : JoinKind) {target : Target}
    (hnames : ∀ name ∈ target.relations, '.' ∉ name.toList) :
    let q := Query.new (Statement.fresh schema entity base baseFilter)
    ∃ chain, (Step.navigate (β := Statement) kind .base target).run q.chain = .ok chain ∧
      ∀ purpose,
        ((∃ text, render purpose chain.parts q.builder = .ok text) ↔
          ∃ hops stop, schema.Hops root target.relations hops stop) ∧
        (∀ hops stop, schema.Hops root target.relations hops stop →
          render purpose chain.parts q.builder =
            .ok (Statement.joinedText purpose root base baseFilter
              (hops.mapIdx (Hop.clause kind base target.relations)))) ∧
        ∀ error, render purpose chain.parts q.builder = .error error ↔
          schema.StopsAt root target.relations error := by
  intro q
  let walk : Walk := ⟨kind, base, target.relations⟩
  refine ⟨q.chain.navigate kind .base target, rfl, fun purpose => ?_⟩
  have hparts : (q.chain.navigate kind .base target).parts = walk.joins [] := by
    rw [Chain.navigate, Chain.walkFrom_eq]
    exact (walk.partsOver_eq q.chain).trans (List.nil_append _)
  have hbase : List.lookup base [(base, root)] = some root := by
    rw [Scope.lookup_bind, if_pos rfl]
  rw [hparts]
  have hwalked : ∀ hops stop, schema.Hops root target.relations hops stop →
      render purpose (walk.joins []) q.builder = .ok (Statement.joinedText purpose root base
        baseFilter (hops.mapIdx (Hop.clause kind base target.relations))) := by
    intro hops stop hhops
    rw [← Statement.text_of_joinsOnly hroot (Join.clauses_of_hops hhops hnames kind hbase)]
    exact render_walk walk purpose
  have hstopped : ∀ error, schema.StopsAt root target.relations error →
      render purpose (walk.joins []) q.builder = .error error := by
    intro error hstops
    have hclauses := Join.clauses_of_stopsAt hstops hnames kind hbase
    rw [← Statement.text_of_joinsOnly_error hroot hclauses purpose]
    exact render_walk walk purpose
  -- There are hops or they stop, and each has its own outcome.
  rcases Schema.hops_or_stopsAt root target.relations with ⟨hops, stop, hhops⟩ | ⟨error, hstops⟩
  · have htext := hwalked hops stop hhops
    refine ⟨⟨fun _ => ⟨hops, stop, hhops⟩, fun _ => ⟨_, htext⟩⟩, hwalked, fun other => ?_⟩
    refine ⟨fun herror => ?_, hstopped other⟩
    rw [htext] at herror
    cases herror
  · have hfails := hstopped error hstops
    refine ⟨⟨?_, fun ⟨hops, stop, hhops⟩ => ⟨_, hwalked hops stop hhops⟩⟩, hwalked, fun other => ?_⟩
    · rintro ⟨text, htext⟩
      rw [hfails] at htext
      cases htext
    · refine ⟨fun herror => ?_, hstopped other⟩
      rw [hfails] at herror
      cases herror
      exact hstops

/-- Users and their posts lead to each other, so a path comes back to the users and to the posts; an
editor of a post leads nowhere. -/
theorem cyclic_path_walks_schema :
    let user := (Entity.new "User" "users").withPrimaryKey "uid"
      |>.withRelation .oneToMany "posts" "Post" "author_id"
    let post := (Entity.new "Post" "posts").withRelation .manyToOne "author" "User" "author_id"
      |>.withRelation .oneToOne "editor" "Editor" "editor_id"
    let schema := (Schema.empty.withEntity user).withEntity post
    let q := Query.new (Statement.fresh schema "User" "u" (some "u.id > 1"))
    let round : Target := .route ⟨["posts", "author", "posts"]⟩
    let broken : Target := .route ⟨["posts", "editor", "name"]⟩
    schema.entity? "User" = some user ∧ (∀ name ∈ round.relations, '.' ∉ name.toList) ∧
    (∀ name ∈ broken.relations, '.' ∉ name.toList) ∧
    (∃ chain, (Step.navigate (β := Statement) .leftSelect .base round).run q.chain = .ok chain ∧
      render .one chain.parts q.builder =
        .ok ("SELECT u.* FROM users u" ++
          " LEFT JOIN posts u_posts ON u_posts.author_id = u.uid" ++
          " LEFT JOIN users u_posts_author ON u_posts_author.uid = u_posts.author_id" ++
          " LEFT JOIN posts u_posts_author_posts" ++
          " ON u_posts_author_posts.author_id = u_posts_author.uid WHERE u.id > 1 LIMIT 1")) ∧
    ∃ chain, (Step.navigate (β := Statement) .inner .base broken).run q.chain = .ok chain ∧
      render .count chain.parts q.builder = .error (.invalidQuery (.unknownEntity "Editor")) := by
  intro user post schema q round broken
  have hroot : schema.entity? "User" = some user := rfl
  have hround : ∀ name ∈ round.relations, '.' ∉ name.toList := by decide
  have hbroken : ∀ name ∈ broken.relations, '.' ∉ name.toList := by decide
  refine ⟨hroot, hround, hbroken, ?_, ?_⟩
  · obtain ⟨chain, hrun, hrendered⟩ :=
      joined_path_walks_schema hroot "u" (some "u.id > 1") .leftSelect hround
    have hhops : schema.Hops user round.relations _ _ :=
      .cons rfl rfl (.cons rfl rfl (.cons rfl rfl (.nil post)))
    exact ⟨chain, hrun, ((hrendered .one).2.1 _ _ hhops).trans (by decide +kernel)⟩
  · obtain ⟨chain, hrun, hrendered⟩ :=
      joined_path_walks_schema hroot "u" (some "u.id > 1") .inner hbroken
    have hstops : schema.StopsAt user broken.relations _ :=
      ⟨["posts"], "editor", ["name"], _, post, rfl, .cons rfl rfl (.nil post), .target rfl rfl⟩
    exact ⟨chain, hrun, ((hrendered .count).2.2 _).mpr hstops⟩

end Query

end DeferredQuery
