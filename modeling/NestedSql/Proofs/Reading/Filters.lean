import NestedSql.Proofs.Compile.Steps
import NestedSql.Proofs.Reading.ReadBack

/-!
# The tree of a filter

The tree that a filter stands for is given from the filter alone: its connectives, negations,
comparisons and existence tests in their order, with the column qualified by the scope, the sign
for the operator's name and the value that this comparison names. Whenever a filter compiles, the
reader takes the text and the values of its condition to this tree. What an engine makes of the
tree is not said here.
-/

namespace NestedSql.Compile

open Sql (BoolTree Condition)

/-! ## Trees -/

/-- The signs of comparisons by the names of their operators. -/
def comparisonSigns : List (String × String) :=
  [("_eq", "="), ("_neq", "!="), ("_gt", ">"), ("_lt", "<"), ("_gte", ">="), ("_lte", "<="),
    ("_like", "LIKE"), ("_glob", "GLOB")]

/-- The operators whose value is a pattern. -/
def patternNames : List String := ["_like", "_glob"]

/-- The scalars whose values are cast in comparisons, with the types they are cast to. -/
def castTypes : List (String × String) :=
  [("Timestamp", "TIMESTAMP"), ("TimestampTz", "TIMESTAMP"), ("BigInt", "BIGINT"),
    ("UBigInt", "UBIGINT"), ("HugeInt", "HUGEINT"), ("UHugeInt", "UHUGEINT")]

/-- The type that a value is cast to where it is compared with a column of the type. -/
def castType? (type : FieldType) : Option String :=
  if type.isArray then none else castTypes.lookup type.underlyingName

/-- The value of a comparison. -/
def valueTree (type : FieldType) (operator : String) (value : Param) : BoolTree :=
  match castType? type with
  | some name =>
    if operator ∈ patternNames then .value value else .cast (.value value) name
  | none => .value value

/-- The value that a comparison names. -/
def namedValue? (context : Context) : ComparisonValue → Option Param
  | .scalar value => some (.ofJson value)
  | .variable name => (Entries.get? name context.bindings).map .ofJson
  | .column _ => none

/-- A junction of no parts is the number one, and one of a single part is the part. -/
def junctionTree (connect : List BoolTree → BoolTree) : List BoolTree → BoolTree
  | [] => .number "1"
  | [tree] => tree
  | trees => connect trees

/-- Every source column of a relationship equals its target column. -/
def mappingTrees (relationship : Relationship) (parent child : String) : List BoolTree :=
  relationship.columnMapping.map fun pair =>
    .compare "=" (.column ⟨parent, pair.1⟩) (.column ⟨child, pair.2⟩)

mutual

/-- The tree that a filter stands for in a scope. -/
def filterTree (context : Context) (scope : Scope) : Expression → Option BoolTree
  | .and parts => do return junctionTree .and (← filterTrees context scope parts)
  | .or parts => do return junctionTree .or (← filterTrees context scope parts)
  | .not part => do return .not (← filterTree context scope part)
  | .unary target .isNull => do
    let column ← namedColumn? target
    return .isNull (.column ⟨scope.tableAlias, column⟩)
  | .binary target operator value => do
    let column ← namedColumn? target
    let sign ← comparisonSigns.lookup operator
    let type ← context.columnType? scope.collection column
    let value ← namedValue? context value
    return .compare sign (.column ⟨scope.tableAlias, column⟩) (valueTree type operator value)
  | .existsIn (.unrelated _) _ => none
  | .existsIn (.related name) filter => do
    let relationship ← Entries.get? name context.relationships
    let storage ← context.schema.storage? relationship.target
    let inner : Scope := ⟨relationship.target, scope.tableAlias ++ "_exists"⟩
    let tree ← existsTree context inner filter
    return .existsIn (Sql.parts storage) inner.tableAlias
      (junctionTree .and (tree :: mappingTrees relationship scope.tableAlias inner.tableAlias))

/-- The tree of the filter inside an existence test; without one it is `1 = 1`. -/
def existsTree (context : Context) (scope : Scope) : Option Expression → Option BoolTree
  | none => some (.compare "=" (.number "1") (.number "1"))
  | some filter => filterTree context scope filter

def filterTrees (context : Context) (scope : Scope) : List Expression → Option (List BoolTree)
  | [] => some []
  | part :: parts => do
    let tree ← filterTree context scope part
    return tree :: (← filterTrees context scope parts)

end

/-! ## Comparisons -/

theorem sign_of_operator {name : String} {operator : BinaryOperator}
    (h : BinaryOperator.ofName? name = some operator) :
    comparisonSigns.lookup name = some operator.sql ∧
      (operator.isPattern = true ↔ name ∈ patternNames) := by
  obtain ⟨before, after, heq, -⟩ := List.lookup_eq_some_iff.mp h
  have hmem : (name, operator) ∈ BinaryOperator.table := by
    rw [heq]
    exact List.mem_append_right before List.mem_cons_self
  simp only [BinaryOperator.table, List.mem_cons, Prod.mk.injEq, List.not_mem_nil, or_false] at hmem
  rcases hmem with ⟨rfl, rfl⟩ | ⟨rfl, rfl⟩ | ⟨rfl, rfl⟩ | ⟨rfl, rfl⟩ | ⟨rfl, rfl⟩ | ⟨rfl, rfl⟩ |
    ⟨rfl, rfl⟩ | ⟨rfl, rfl⟩ <;> decide

theorem shapeTree_of_scalar {type : FieldType} {scalar : ScalarType}
    (h : ScalarType.ofName? type.underlyingName = some scalar) (value : Param) :
    Sql.shapeTree value (strategy scalar type.isArray .comparison).paramShape =
      match castType? type with
      | some name => .cast (.value value) name
      | none => .value value := by
  have hname : scalar.name = type.underlyingName := ScalarType.name_of_ofName? h
  rw [castType?, ← hname]
  cases type.isArray with
  | true => rfl
  | false =>
    cases scalar with
    | wide integer => cases integer <;> rfl
    | _ => rfl

theorem shapeTree_of_compared {type : FieldType} {name : String} {operator : BinaryOperator}
    {shape : ParamShape} (hname : BinaryOperator.ofName? name = some operator)
    (h : comparedShape type operator = .ok shape) (value : Param) :
    Sql.shapeTree value shape = valueTree type name value := by
  have hpattern := (sign_of_operator hname).2
  rw [comparedShape] at h
  rw [valueTree]
  by_cases hp : operator.isPattern = true
  · rw [if_pos hp, pure_eq_ok] at h
    subst h
    simp only [hpattern.mp hp, if_true]
    cases castType? type <;> rfl
  · rw [if_neg hp] at h
    obtain ⟨_, hclass, hshape⟩ := bind_eq_ok.mp h
    obtain ⟨scalar, hscalar, rfl⟩ := classify_eq_ok.mp hclass
    obtain rfl := pure_eq_ok.mp hshape
    have hn : name ∉ patternNames := fun hmem => hp (hpattern.mpr hmem)
    rw [shapeTree_of_scalar hscalar]
    simp only [hn, if_false]

theorem namedValue_of_compared {context : Context} {param : Param} :
    {value : ComparisonValue} → comparedValue context value = .ok param →
      namedValue? context value = some param
  | .scalar _, h => congrArg some (pure_eq_ok.mp h)
  | .column _, h => absurd h throw_ne_ok
  | .variable name, h => by
    obtain ⟨bound, hbound, hparam⟩ := bind_eq_ok.mp h
    rw [namedValue?, Context.boundValue_eq_ok.mp hbound, ← pure_eq_ok.mp hparam]
    rfl

theorem comparison_tree {context : Context} {scope : Scope} {target : ComparisonTarget}
    {operator : String} {value : ComparisonValue} {condition : Condition}
    (h : comparison context scope target operator value = .ok condition) :
    condition.Readable ∧
      filterTree context scope (.binary target operator value) = some condition.tree := by
  obtain ⟨op, hop, column, hcolumn, type, htype, shape, hshape, param, hparam, rfl⟩ :=
    comparison_eq_ok.mp h
  constructor
  · exact trivial
  · rw [Condition.tree, shapeTree_of_compared hop hshape, filterTree]
    simp only [hcolumn, (sign_of_operator hop).1, htype, namedValue_of_compared hparam,
      Option.bind_eq_bind, Option.bind_some]
    rfl

/-! ## Junctions and existence tests -/

theorem junction_readable {connective : Sql.Connective} {conditions : List Condition}
    (h : Condition.AllReadable conditions) : (junction connective conditions).Readable := by
  cases conditions with
  | nil => exact trivial
  | cons condition conditions =>
    rw [junction, List.isEmpty_cons, if_neg Bool.false_ne_true, Condition.Readable]
    exact ⟨List.cons_ne_nil condition conditions, h⟩

theorem joined_cons (connect : List BoolTree → BoolTree) (tree : BoolTree)
    (trees : List BoolTree) :
    BoolTree.joined connect (tree :: trees) = junctionTree connect (tree :: trees) := by
  cases trees <;> rfl

theorem and_tree (conditions : List Condition) :
    (junction .and conditions).tree = junctionTree .and (Condition.trees conditions) := by
  cases conditions with
  | nil => rfl
  | cons condition conditions => exact joined_cons .and _ _

theorem or_tree (conditions : List Condition) :
    (junction .or conditions).tree = junctionTree .or (Condition.trees conditions) := by
  cases conditions with
  | nil => rfl
  | cons condition conditions => exact joined_cons .or _ _

theorem joinConditions_readable (relationship : Relationship) (parent child : String) :
    Condition.AllReadable (joinConditions relationship parent child) := by
  rw [joinConditions]
  induction relationship.columnMapping with
  | nil => trivial
  | cons pair pairs ih =>
    rw [List.map_cons, Condition.AllReadable]
    exact ⟨trivial, ih⟩

theorem joinConditions_trees (relationship : Relationship) (parent child : String) :
    Condition.trees (joinConditions relationship parent child) =
      mappingTrees relationship parent child := by
  rw [joinConditions, mappingTrees]
  induction relationship.columnMapping with
  | nil => rfl
  | cons pair pairs ih =>
    rw [List.map_cons, List.map_cons, Condition.trees, ih]
    rfl

/-! ## Filters -/

mutual

/-- A compiled filter can be read back, and its tree is the tree of the filter. -/
theorem predicate_tree (context : Context) : (scope : Scope) → (filter : Expression) →
    {condition : Condition} → predicate context scope filter = .ok condition →
      condition.Readable ∧ filterTree context scope filter = some condition.tree
  | scope, .and parts, _, h => by
    obtain ⟨conditions, hparts, rfl⟩ := predicate_and_eq_ok.mp h
    obtain ⟨hreadable, htrees⟩ := predicates_trees context scope parts hparts
    refine ⟨junction_readable hreadable, ?_⟩
    rw [filterTree, htrees, and_tree]
    rfl
  | scope, .or parts, _, h => by
    obtain ⟨conditions, hparts, rfl⟩ := predicate_or_eq_ok.mp h
    obtain ⟨hreadable, htrees⟩ := predicates_trees context scope parts hparts
    refine ⟨junction_readable hreadable, ?_⟩
    rw [filterTree, htrees, or_tree]
    rfl
  | scope, .not part, _, h => by
    obtain ⟨condition, hpart, rfl⟩ := predicate_not_eq_ok.mp h
    obtain ⟨hreadable, htree⟩ := predicate_tree context scope part hpart
    rw [Condition.Readable, filterTree, htree, Condition.tree]
    exact ⟨hreadable, rfl⟩
  | scope, .unary target .isNull, _, h => by
    obtain ⟨column, hcolumn, type, -, rfl⟩ := predicate_isNull_eq_ok.mp h
    rw [filterTree, hcolumn, Condition.tree]
    exact ⟨trivial, rfl⟩
  | scope, .binary target operator value, _, h => by
    rw [predicate_binary_eq] at h
    exact comparison_tree h
  | scope, .existsIn (.unrelated collection) filter, _, h => absurd h predicate_unrelated_ne_ok
  | scope, .existsIn (.related name) filter, _, h => by
    obtain ⟨relationship, hrelationship, storage, hstorage, condition, hfilter, rfl⟩ :=
      predicate_related_eq_ok.mp h
    obtain ⟨hreadable, htree⟩ := existsCondition_tree context _ filter hfilter
    rw [Condition.Readable, Condition.AllReadable]
    refine ⟨⟨List.cons_ne_nil _ _, hreadable, joinConditions_readable _ _ _⟩, ?_⟩
    rw [Scope.existing] at htree
    rw [Condition.tree, Condition.trees, joinConditions_trees, joined_cons, filterTree]
    simp only [hrelationship, hstorage, htree, Option.bind_eq_bind, Option.bind_some]
    rfl

theorem existsCondition_tree (context : Context) : (scope : Scope) →
    (filter : Option Expression) → {condition : Condition} →
    existsCondition context scope filter = .ok condition →
      condition.Readable ∧ existsTree context scope filter = some condition.tree
  | scope, none, _, h => by
    obtain rfl := existsCondition_none_eq_ok.mp h
    exact ⟨trivial, rfl⟩
  | scope, some filter, _, h => by
    obtain ⟨condition, hfilter, rfl⟩ := existsCondition_some_eq_ok.mp h
    rw [Condition.Readable, existsTree, Condition.tree]
    exact predicate_tree context scope filter hfilter

theorem predicates_trees (context : Context) : (scope : Scope) → (parts : List Expression) →
    {conditions : List Condition} → predicates context scope parts = .ok conditions →
      Condition.AllReadable conditions ∧
        filterTrees context scope parts = some (Condition.trees conditions)
  | scope, [], _, h => by
    obtain rfl := predicates_nil_eq_ok.mp h
    exact ⟨trivial, rfl⟩
  | scope, part :: parts, _, h => by
    obtain ⟨condition, hpart, conditions, hparts, rfl⟩ := predicates_cons_eq_ok.mp h
    obtain ⟨hreadable, htree⟩ := predicate_tree context scope part hpart
    obtain ⟨hall, htrees⟩ := predicates_trees context scope parts hparts
    rw [Condition.AllReadable, filterTrees, htree, htrees, Condition.trees]
    exact ⟨⟨hreadable, hall⟩, rfl⟩

end

/-- Reading the text of a compiled filter with its values uses both up and gives the tree that the
filter stands for. -/
theorem predicate_read_back {context : Context} {scope : Scope} {filter : Expression}
    {condition : Condition} (h : predicate context scope filter = .ok condition) :
    ∃ tree, filterTree context scope filter = some tree ∧
      BoolTree.read? condition.render = some tree := by
  obtain ⟨hreadable, htree⟩ := predicate_tree context scope filter h
  exact ⟨condition.tree, htree, Condition.read_render hreadable⟩

/-- A collection with casts in comparisons and a relationship to itself. -/
def trackContext : Context where
  schema := Schema.empty.registerColumns "track" "main.tr\"ack"
    [("id", .named "BigInt"), ("at", .nullable (.named "Timestamp")), ("na\"me", .named "String")]
  relationships := [("next", ⟨[("id", "at")], .array, "track"⟩)]
  bindings := [("since", .string "2020")]

/-- Junctions inside negations, existence tests and each other, over three values. -/
def trackFilter : Expression :=
  .or [.and [.binary (.column "id" []) "_gte" (.scalar (.string "7")),
      .not (.or [.unary (.column "at" []) .isNull, .and []])],
    .existsIn (.related "next") (some (.or [
      .and [.binary (.column "at" []) "_lt" (.variable "since")],
      .binary (.column "na\"me" []) "_like" (.scalar (.string "a?%"))]))]

theorem trackFilter_read_back :
    ∃ condition, predicate trackContext ⟨"track", "t"⟩ trackFilter = .ok condition ∧
      BoolTree.read? condition.render = some
        (.or [.and [.compare ">=" (.column ⟨"t", "id"⟩) (.cast (.value (.string "7")) "BIGINT"),
            .not (.or [.isNull (.column ⟨"t", "at"⟩), .number "1"])],
          .existsIn ["main", "tr\"ack"] "t_exists"
            (.and [.or [.compare "<" (.column ⟨"t_exists", "at"⟩)
                  (.cast (.value (.string "2020")) "TIMESTAMP"),
                .compare "LIKE" (.column ⟨"t_exists", "na\"me"⟩) (.value (.string "a?%"))],
              .compare "=" (.column ⟨"t", "id"⟩) (.column ⟨"t_exists", "at"⟩)])]) := by
  have hcompiled : predicate trackContext ⟨"track", "t"⟩ trackFilter = .ok _ := rfl
  obtain ⟨tree, htree, hread⟩ := predicate_read_back hcompiled
  refine ⟨_, hcompiled, hread.trans ?_⟩
  rw [← htree]
  rfl

end NestedSql.Compile
