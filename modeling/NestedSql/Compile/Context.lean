import NestedSql.Compile.Error
import NestedSql.Request.Basic
import NestedSql.Schema.Basic
import NestedSql.Sql.Tree

/-!
# Contexts and scopes

The inputs that one compilation reads, with look-ups that fail with the matching error, and the
collection in scope under its table alias. An alias is the path of collection names from the root.
-/

namespace NestedSql.Compile

open Sql (ColumnRef Condition)

/-- What a compilation reads. -/
structure Context where
  schema : Schema
  relationships : Entries Relationship
  bindings : VariableSet

namespace Context

def relationship (context : Context) (name : String) : Except CompileError Relationship :=
  match Entries.get? name context.relationships with
  | some relationship => return relationship
  | none => throw (.relationshipNotFound name)

/-- The storage text of a collection. -/
def storage (context : Context) (collection : String) : Except CompileError String :=
  match context.schema.storage? collection with
  | some storage => return storage
  | none => throw (.storageNotFound collection)

/-- The declared type of a column. -/
def fieldType (context : Context) (collection column : String) : Except CompileError FieldType :=
  match context.schema.rowType? collection with
  | none => throw (.collectionNotFound collection)
  | some type =>
    match type.field? column with
    | some field => return field.type
    | none => throw (.columnNotFound column collection)

/-- The value bound to a variable. -/
def boundValue (context : Context) (name : String) : Except CompileError Json :=
  match Entries.get? name context.bindings with
  | some value => return value
  | none => throw (.variableNotBound name)

end Context

/-- Collection names from the root to a node. -/
structure AliasPath where
  segments : List String
deriving DecidableEq, Repr

namespace AliasPath

def root : AliasPath := ⟨[]⟩

def child (path : AliasPath) (collection : String) : AliasPath := ⟨path.segments ++ [collection]⟩

/-- The table alias of the node. -/
def tableAlias (path : AliasPath) : String := "_".intercalate path.segments

end AliasPath

/-- A collection under a table alias. -/
structure Scope where
  collection : String
  tableAlias : String
deriving DecidableEq, Repr

namespace Scope

def column (scope : Scope) (name : String) : ColumnRef := ⟨scope.tableAlias, name⟩

/-- The scope inside an existence test. -/
def existing (scope : Scope) (collection : String) : Scope :=
  ⟨collection, scope.tableAlias ++ "_exists"⟩

/-- The scope one hop further on a path of joins. -/
def hop (scope : Scope) (collection : String) : Scope :=
  ⟨collection, scope.tableAlias ++ "_" ++ collection⟩

end Scope

/-- Every source column equals its target column. -/
def joinConditions (relationship : Relationship) (parent child : String) : List Condition :=
  relationship.columnMapping.map fun pair => .equal ⟨parent, pair.1⟩ ⟨child, pair.2⟩

end NestedSql.Compile
