import NestedSql.Json.Text
import NestedSql.Request.Basic
import NestedSql.RowSet
import NestedSql.Schema.Basic

/-!
# Canonical documents

The one form in which a value is written: members in order of declaration, the tag of a variant
first, absent optional members left out, defaulted members always there.
-/

namespace NestedSql

namespace Json

/-- An integer of 32 bits. -/
def count (value : UInt32) : Json := .number (.ofUInt32 value)

/-- An object without its absent members. -/
def present (members : List (String × Option Json)) : Json :=
  .object (members.filterMap fun member => member.2.map (member.1, ·))

/-- An object with the entries of a map. -/
def ofEntries {α : Type} (write : α → Json) (entries : Entries α) : Json :=
  .object (entries.map fun entry => (entry.1, write entry.2))

/-- An array of written items. -/
def ofList {α : Type} (write : α → Json) (items : List α) : Json := .array (items.map write)

/-- A variant: its tag and its members. -/
def variant (tag : String) (members : List (String × Json)) : Json :=
  .object (("type", .string tag) :: members)

end Json

/-! ## Schemas -/

def FieldType.json : FieldType → Json
  | .named name => .variant "named" [("name", .string name)]
  | .nullable underlying => .variant "nullable" [("underlying_type", underlying.json)]
  | .array element => .variant "array" [("element_type", element.json)]

def RowField.json (field : RowField) : Json :=
  .present [("type", some field.type.json), ("description", field.description.map .string)]

def RowType.json (type : RowType) : Json :=
  .present [("fields", some (.ofEntries RowField.json type.fields)),
    ("description", type.description.map .string)]

def Schema.json (schema : Schema) : Json :=
  .object [("collection_names", .ofList .string schema.collections),
    ("collection_aliases", .ofEntries .string schema.storage),
    ("object_types", .ofEntries RowType.json schema.rowTypes)]

/-! ## Filters -/

def UnaryOperator.json : UnaryOperator → Json
  | .isNull => .string "is_null"

def ExistsSource.json : ExistsSource → Json
  | .related relationship => .variant "related" [("relationship", .string relationship)]
  | .unrelated collection => .variant "unrelated" [("collection", .string collection)]

mutual

def Expression.json : Expression → Json
  | .and parts => .variant "and" [("expressions", .array (partsJson parts))]
  | .or parts => .variant "or" [("expressions", .array (partsJson parts))]
  | .not part => .variant "not" [("expression", part.json)]
  | .unary column operator =>
    .variant "unary_comparison_operator" [("column", column.json), ("operator", operator.json)]
  | .binary column operator value =>
    .variant "binary_comparison_operator"
      [("column", column.json), ("operator", .string operator), ("value", value.json)]
  | .existsIn source none => .variant "exists" [("in_collection", source.json)]
  | .existsIn source (some predicate) =>
    .variant "exists" [("in_collection", source.json), ("predicate", predicate.json)]

def ComparisonTarget.json : ComparisonTarget → Json
  | .column name path =>
    .variant "column" [("name", .string name), ("path", .array (pathJson path))]
  | .rootColumn name => .variant "root_collection_column" [("name", .string name)]

def ComparisonValue.json : ComparisonValue → Json
  | .scalar value => .variant "scalar" [("value", value)]
  | .variable name => .variant "variable" [("name", .string name)]
  | .column target => .variant "column" [("column", target.json)]

def PathElement.json : PathElement → Json
  | ⟨relationship, none⟩ => .object [("relationship", .string relationship)]
  | ⟨relationship, some predicate⟩ =>
    .object [("relationship", .string relationship), ("predicate", predicate.json)]

def partsJson : List Expression → List Json
  | [] => []
  | part :: parts => part.json :: partsJson parts

def pathJson : List PathElement → List Json
  | [] => []
  | element :: path => element.json :: pathJson path

end

/-! ## Queries -/

def RelationshipType.json : RelationshipType → Json
  | .object => .string "object"
  | .array => .string "array"

def Relationship.json (relationship : Relationship) : Json :=
  .object [("column_mapping", .ofEntries .string relationship.columnMapping),
    ("relationship_type", relationship.type.json),
    ("target_collection", .string relationship.target)]

def OrderDirection.json : OrderDirection → Json
  | .asc => .string "asc"
  | .desc => .string "desc"

def OrderByTarget.json : OrderByTarget → Json
  | .column name path =>
    .variant "column" [("name", .string name), ("path", .array (pathJson path))]
  | .singleColumnAggregate name function path =>
    .variant "single_column_aggregate"
      [("column", .string name), ("function", .string function), ("path", .array (pathJson path))]
  | .starCountAggregate path => .variant "star_count_aggregate" [("path", .array (pathJson path))]

def OrderByElement.json (element : OrderByElement) : Json :=
  .object [("order_direction", element.direction.json), ("target", element.target.json)]

def OrderBy.json (orderBy : OrderBy) : Json :=
  .object [("elements", .ofList OrderByElement.json orderBy.elements)]

def Aggregate.json : Aggregate → Json
  | .starCount => .variant "star_count" []
  | .columnCount column distinct =>
    .variant "column_count" [("column", .string column), ("distinct", .bool distinct)]
  | .singleColumn column function =>
    .variant "single_column" [("column", .string column), ("function", .string function)]

def Dimension.json : Dimension → Json
  | .column name path =>
    .variant "column" [("column_name", .string name), ("path", .array (pathJson path))]

def Grouping.json (grouping : Grouping) : Json :=
  .present [("dimensions", some (.ofList Dimension.json grouping.dimensions)),
    ("aggregates", some (.ofEntries Aggregate.json grouping.aggregates)),
    ("predicate", grouping.predicate), ("order_by", grouping.orderBy),
    ("limit", grouping.limit.map .count), ("offset", grouping.offset.map .count)]

mutual

def Field.json : Field → Json
  | .column name => .variant "column" [("column", .string name)]
  | .relationship name query =>
    .variant "relationship" [("relationship", .string name), ("query", query.json)]

def Query.json : Query → Json
  | ⟨fields, aggregates, limit, offset, orderBy, predicate, groups⟩ =>
    .present [("fields", fieldsJson fields),
      ("aggregates", aggregates.map (.ofEntries Aggregate.json)),
      ("limit", limit.map .count), ("offset", offset.map .count),
      ("order_by", orderBy.map OrderBy.json), ("predicate", predicate.map Expression.json),
      ("groups", groups.map Grouping.json)]

def fieldsJson : Option (List (String × Field)) → Option Json
  | none => none
  | some fields => some (.object (fieldEntriesJson fields))

def fieldEntriesJson : List (String × Field) → List (String × Json)
  | [] => []
  | (name, field) :: fields => (name, field.json) :: fieldEntriesJson fields

end

def Request.json (request : Request) : Json :=
  .present [("collection", some (.string request.collection)), ("query", some request.query.json),
    ("collection_relationships", some (.ofEntries Relationship.json request.relationships)),
    ("variables", request.bindings.map (.ofList .object))]

/-! ## Answers -/

def Group.json (group : Group) : Json :=
  .object [("dimensions", .array group.dimensions), ("aggregates", .object group.aggregates)]

def RowSet.json (rowSet : RowSet) : Json :=
  .present [("rows", rowSet.rows.map (.ofList .object)),
    ("aggregates", rowSet.aggregates.map .object),
    ("groups", rowSet.groups.map (.ofList Group.json))]

end NestedSql
