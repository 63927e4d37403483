import NestedSql.Json.Basic
import NestedSql.Request.Basic
import NestedSql.RowSet
import NestedSql.Schema.Basic

/-!
# The grammar of documents

Every type of the schema, of requests and of answers has a declaration: a structure with named
members, a union of tagged variants, or a list of symbols. A declaration also says how the members
make up the value, so that a reader for all types needs no case for any of them.
-/

namespace NestedSql.Wire

/-- The types that documents hold. -/
inductive TypeName where
  | fieldType
  | rowField
  | rowType
  | schema
  | request
  | query
  | field
  | relationship
  | relationshipType
  | orderBy
  | orderByElement
  | orderByTarget
  | orderDirection
  | pathElement
  | expression
  | unaryOperator
  | comparisonTarget
  | comparisonValue
  | existsSource
  | aggregate
  | grouping
  | dimension
  | rowSet
  | group
  | rowsDocument
deriving DecidableEq, Repr

/-- The values of a type. -/
abbrev TypeName.Carrier : TypeName → Type
  | fieldType => FieldType
  | rowField => RowField
  | rowType => RowType
  | schema => Schema
  | request => Request
  | query => Query
  | field => Field
  | relationship => Relationship
  | relationshipType => RelationshipType
  | orderBy => OrderBy
  | orderByElement => OrderByElement
  | orderByTarget => OrderByTarget
  | orderDirection => OrderDirection
  | pathElement => PathElement
  | expression => Expression
  | unaryOperator => UnaryOperator
  | comparisonTarget => ComparisonTarget
  | comparisonValue => ComparisonValue
  | existsSource => ExistsSource
  | aggregate => Aggregate
  | grouping => Grouping
  | dimension => Dimension
  | rowSet => RowSet
  | group => Group
  | rowsDocument => RowsDocument

/-- What may stand in one place of a document. -/
inductive Kind where
  | string
  | boolean
  | count
  | free
  | named (type : TypeName)
  | list (item : Kind)
  | map (value : Kind)
deriving DecidableEq, Repr

/-- The values of a kind. -/
abbrev Kind.Value : Kind → Type
  | string => String
  | boolean => Bool
  | count => UInt32
  | free => Json
  | named type => type.Carrier
  | list item => List item.Value
  | map value => Entries value.Value

/-- Whether a member has to be there: an optional one may also be null, a defaulted one may not. -/
inductive Presence (α : Type) where
  | required
  | optional
  | defaulted (value : α)

/-- A member of a structure or variant. -/
structure Member where
  name : String
  kind : Kind
  presence : Presence kind.Value

/-- The values of a member. -/
abbrev Member.Value : Member → Type
  | ⟨_, kind, .optional⟩ => Option kind.Value
  | ⟨_, kind, _⟩ => kind.Value

/-- Values for all members in order. -/
abbrev Values : List Member → Type
  | [] => Unit
  | member :: members => member.Value × Values members

/-- Members and what they make up. -/
structure Shape (α : Type) where
  members : List Member
  build : Values members → α

/-- A variant of a union: its tag, its name in messages, and its members. -/
structure Variant (α : Type) where
  tag : String
  label : String
  shape : Shape α

/-- How the values of a type are written. -/
inductive Declaration (α : Type) where
  | struct (name : String) (shape : Shape α)
  | union (name : String) (variants : List (Variant α))
  | symbols (names : List (String × α))

/-- A member that has to be there. -/
abbrev need (name : String) (kind : Kind) : Member := ⟨name, kind, .required⟩

/-- A member that may be absent or null. -/
abbrev may (name : String) (kind : Kind) : Member := ⟨name, kind, .optional⟩

/-- A list that is empty when absent. -/
abbrev listOrEmpty (name : String) (item : Kind) : Member := ⟨name, .list item, .defaulted []⟩

/-- A map that is empty when absent. -/
abbrev mapOrEmpty (name : String) (value : Kind) : Member := ⟨name, .map value, .defaulted []⟩

/-- The declaration of every type. -/
def declaration : (type : TypeName) → Declaration type.Carrier
  | .fieldType => .union "FieldType"
    [⟨"named", "Named", [need "name" .string], fun (name, _) => .named name⟩,
      ⟨"nullable", "Nullable", [need "underlying_type" (.named .fieldType)],
        fun (underlying, _) => .nullable underlying⟩,
      ⟨"array", "Array", [need "element_type" (.named .fieldType)],
        fun (element, _) => .array element⟩]
  | .rowField => .struct "ObjectField"
    ⟨[need "type" (.named .fieldType), may "description" .string],
      fun (type, description, _) => ⟨type, description⟩⟩
  | .rowType => .struct "ObjectType"
    ⟨[need "fields" (.map (.named .rowField)), may "description" .string],
      fun (fields, description, _) => ⟨fields, description⟩⟩
  | .schema => .struct "DuckDbConfig"
    ⟨[listOrEmpty "collection_names" .string, mapOrEmpty "collection_aliases" .string,
        mapOrEmpty "object_types" (.named .rowType)],
      fun (collections, storage, rowTypes, _) => ⟨collections, storage, rowTypes⟩⟩
  | .request => .struct "QueryRequest"
    ⟨[need "collection" .string, need "query" (.named .query),
        mapOrEmpty "collection_relationships" (.named .relationship),
        may "variables" (.list (.map .free))],
      fun (collection, query, relationships, bindings, _) =>
        ⟨collection, query, relationships, bindings⟩⟩
  | .query => .struct "Query"
    ⟨[may "fields" (.map (.named .field)), may "aggregates" (.map (.named .aggregate)),
        may "limit" .count, may "offset" .count, may "order_by" (.named .orderBy),
        may "predicate" (.named .expression), may "groups" (.named .grouping)],
      fun (fields, aggregates, limit, offset, orderBy, predicate, groups, _) =>
        ⟨fields, aggregates, limit, offset, orderBy, predicate, groups⟩⟩
  | .field => .union "Field"
    [⟨"column", "Column", [need "column" .string], fun (name, _) => .column name⟩,
      ⟨"relationship", "Relationship",
        [need "relationship" .string, need "query" (.named .query)],
        fun (name, query, _) => .relationship name query⟩]
  | .relationship => .struct "Relationship"
    ⟨[need "column_mapping" (.map .string), need "relationship_type" (.named .relationshipType),
        need "target_collection" .string],
      fun (columnMapping, type, target, _) => ⟨columnMapping, type, target⟩⟩
  | .relationshipType => .symbols [("object", .object), ("array", .array)]
  | .orderBy => .struct "OrderBy"
    ⟨[need "elements" (.list (.named .orderByElement))], fun (elements, _) => ⟨elements⟩⟩
  | .orderByElement => .struct "OrderByElement"
    ⟨[need "order_direction" (.named .orderDirection), need "target" (.named .orderByTarget)],
      fun (direction, target, _) => ⟨direction, target⟩⟩
  | .orderByTarget => .union "OrderByTarget"
    [⟨"column", "Column", [need "name" .string, listOrEmpty "path" (.named .pathElement)],
        fun (name, path, _) => .column name path⟩,
      ⟨"single_column_aggregate", "SingleColumnAggregate",
        [need "column" .string, need "function" .string,
          listOrEmpty "path" (.named .pathElement)],
        fun (column, function, path, _) => .singleColumnAggregate column function path⟩,
      ⟨"star_count_aggregate", "StarCountAggregate",
        [listOrEmpty "path" (.named .pathElement)],
        fun (path, _) => .starCountAggregate path⟩]
  | .orderDirection => .symbols [("asc", .asc), ("desc", .desc)]
  | .pathElement => .struct "PathElement"
    ⟨[need "relationship" .string, may "predicate" (.named .expression)],
      fun (relationship, predicate, _) => ⟨relationship, predicate⟩⟩
  | .expression => .union "Expression"
    [⟨"and", "And", [need "expressions" (.list (.named .expression))],
        fun (parts, _) => .and parts⟩,
      ⟨"or", "Or", [need "expressions" (.list (.named .expression))],
        fun (parts, _) => .or parts⟩,
      ⟨"not", "Not", [need "expression" (.named .expression)], fun (part, _) => .not part⟩,
      ⟨"unary_comparison_operator", "UnaryComparisonOperator",
        [need "column" (.named .comparisonTarget), need "operator" (.named .unaryOperator)],
        fun (column, operator, _) => .unary column operator⟩,
      ⟨"binary_comparison_operator", "BinaryComparisonOperator",
        [need "column" (.named .comparisonTarget), need "operator" .string,
          need "value" (.named .comparisonValue)],
        fun (column, operator, value, _) => .binary column operator value⟩,
      ⟨"exists", "Exists",
        [need "in_collection" (.named .existsSource), may "predicate" (.named .expression)],
        fun (source, predicate, _) => .existsIn source predicate⟩]
  | .unaryOperator => .symbols [("is_null", .isNull)]
  | .comparisonTarget => .union "ComparisonTarget"
    [⟨"column", "Column", [need "name" .string, listOrEmpty "path" (.named .pathElement)],
        fun (name, path, _) => .column name path⟩,
      ⟨"root_collection_column", "RootCollectionColumn", [need "name" .string],
        fun (name, _) => .rootColumn name⟩]
  | .comparisonValue => .union "ComparisonValue"
    [⟨"scalar", "Scalar", [need "value" .free], fun (value, _) => .scalar value⟩,
      ⟨"variable", "Variable", [need "name" .string], fun (name, _) => .variable name⟩,
      ⟨"column", "Column", [need "column" (.named .comparisonTarget)],
        fun (column, _) => .column column⟩]
  | .existsSource => .union "ExistsInCollection"
    [⟨"related", "Related", [need "relationship" .string],
        fun (relationship, _) => .related relationship⟩,
      ⟨"unrelated", "Unrelated", [need "collection" .string],
        fun (collection, _) => .unrelated collection⟩]
  | .aggregate => .union "Aggregate"
    [⟨"star_count", "StarCount", [], fun _ => .starCount⟩,
      ⟨"column_count", "ColumnCount",
        [need "column" .string, ⟨"distinct", .boolean, .defaulted false⟩],
        fun (column, distinct, _) => .columnCount column distinct⟩,
      ⟨"single_column", "SingleColumn", [need "column" .string, need "function" .string],
        fun (column, function, _) => .singleColumn column function⟩]
  | .grouping => .struct "Grouping"
    ⟨[need "dimensions" (.list (.named .dimension)),
        mapOrEmpty "aggregates" (.named .aggregate), may "predicate" .free, may "order_by" .free,
        may "limit" .count, may "offset" .count],
      fun (dimensions, aggregates, predicate, orderBy, limit, offset, _) =>
        ⟨dimensions, aggregates, predicate, orderBy, limit, offset⟩⟩
  | .dimension => .union "Dimension"
    [⟨"column", "Column", [need "column_name" .string, listOrEmpty "path" (.named .pathElement)],
      fun (name, path, _) => .column name path⟩]
  | .rowSet => .struct "RowSet"
    ⟨[may "rows" (.list (.map .free)), may "aggregates" (.map .free),
        may "groups" (.list (.named .group))],
      fun (rows, aggregates, groups, _) => ⟨rows, aggregates, groups⟩⟩
  | .group => .struct "Group"
    ⟨[need "dimensions" (.list .free), need "aggregates" (.map .free)],
      fun (dimensions, aggregates, _) => ⟨dimensions, aggregates⟩⟩
  | .rowsDocument => .struct "RowsDocument"
    ⟨[need "rows" (.list (.map .free))], fun (rows, _) => ⟨rows⟩⟩

end NestedSql.Wire
