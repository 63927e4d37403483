import Mathlib.Data.List.Forall2
import NestedSql.Proofs.Reading.BoolTree
import NestedSql.Sql.Render

/-!
# Reading conditions back

A condition is written, cut into tokens, supplied with its values and read again. Its tokens and
its tree are given by recursion on the condition; one part shows that the text is cut into these
tokens, the other that the reader takes these tokens to this tree. A junction or an existence test
without any conditions inside has no text that can be read, so trees are read back from readable
conditions only.
-/

namespace NestedSql.Sql

open Statement (raw joined raw_append)

/-! ## Tokens and trees of conditions -/

def ColumnRef.tokens (ref : ColumnRef) : List Token :=
  [.name ref.tableAlias, .mark '.', .name ref.column]

def signToken : BinaryOperator → Token
  | .like => .word "LIKE"
  | .glob => .word "GLOB"
  | operator => .sign operator.sql

/-- The parts of a table name with dots between them. -/
def dottedTokens : List String → List Token
  | [] => []
  | [part] => [.name part]
  | part :: rest => .name part :: .mark '.' :: dottedTokens rest

def Table.tokens (table : Table) : List Token :=
  dottedTokens (parts table.storage) ++ [.word "AS", .name table.tableAlias]

def shapeTokens (value : Param) : ParamShape → List Token
  | .plain => [.value value]
  | .cast type => [.word "CAST", .mark '(', .value value, .word "AS", .word type.sql, .mark ')']

def shapeTree (value : Param) : ParamShape → BoolTree
  | .plain => .value value
  | .cast type => .cast (.value value) type.sql

def Connective.token : Connective → Token
  | and => .word "AND"
  | or => .word "OR"

def Connective.tree : Connective → List BoolTree → BoolTree
  | and => BoolTree.joined .and
  | or => BoolTree.joined .or

/-- Tokens of several texts with a separator between each two. -/
def joinedTokens (separator : Token) : List (List Token) → List Token
  | [] => []
  | [tokens] => tokens
  | tokens :: rest => tokens ++ separator :: joinedTokens separator rest

namespace Condition

mutual

def tokens : Condition → List Token
  | .one => [.word "1"]
  | .tautology => [.word "1", .sign "=", .word "1"]
  | .equal left right => left.tokens ++ .sign "=" :: right.tokens
  | .isNull column => column.tokens ++ [.word "IS", .word "NULL"]
  | .compare column operator shape value =>
    column.tokens ++ signToken operator :: shapeTokens value shape
  | .junction connective parts =>
    .mark '(' :: (joinedTokens connective.token (tokensAll parts) ++ [.mark ')'])
  | .not part => .word "NOT" :: .mark '(' :: (part.tokens ++ [.mark ')'])
  | .group part => .mark '(' :: (part.tokens ++ [.mark ')'])
  | .existsIn table conditions =>
    [.word "EXISTS", .mark '(', .word "SELECT", .word "1", .word "FROM"] ++ (table.tokens ++
      .word "WHERE" :: (joinedTokens (.word "AND") (tokensAll conditions) ++ [.mark ')']))

def tokensAll : List Condition → List (List Token)
  | [] => []
  | part :: parts => part.tokens :: tokensAll parts

end

mutual

/-- The tree that a reader makes of the condition. -/
def tree : Condition → BoolTree
  | .one => .number "1"
  | .tautology => .compare "=" (.number "1") (.number "1")
  | .equal left right => .compare "=" (.column left) (.column right)
  | .isNull column => .isNull (.column column)
  | .compare column operator shape value =>
    .compare operator.sql (.column column) (shapeTree value shape)
  | .junction connective parts => connective.tree (trees parts)
  | .not part => .not part.tree
  | .group part => part.tree
  | .existsIn table conditions =>
    .existsIn (parts table.storage) table.tableAlias (BoolTree.joined .and (trees conditions))

def trees : List Condition → List BoolTree
  | [] => []
  | part :: parts => part.tree :: trees parts

end

mutual

/-- Junctions and existence tests have conditions inside. -/
def Readable : Condition → Prop
  | .junction _ parts => parts ≠ [] ∧ AllReadable parts
  | .not part | .group part => part.Readable
  | .existsIn _ conditions => conditions ≠ [] ∧ AllReadable conditions
  | _ => True

def AllReadable : List Condition → Prop
  | [] => True
  | part :: parts => part.Readable ∧ AllReadable parts

end

end Condition

/-! ## Cutting the text -/

namespace BoolTree

theorem supplied_cons_of_ne {token : Token} (h : token ≠ .mark '?') (rest : List Token)
    (params : List Param) :
    supplied (token :: rest) params = (supplied rest params).map (token :: ·) := by
  cases params <;> simp only [supplied, if_neg h]

theorem supplied_append {first second before after : List Token} {params more : List Param}
    (hf : supplied first params = some before) (hs : supplied second more = some after) :
    supplied (first ++ second) (params ++ more) = some (before ++ after) := by
  induction first generalizing params before with
  | nil =>
    rw [supplied] at hf
    split at hf
    · next hp =>
      obtain rfl := Option.some.inj hf
      subst hp
      exact hs
    · exact absurd hf (by simp)
  | cons token first ih =>
    by_cases ht : token = .mark '?'
    · cases params with
      | nil => simp only [supplied, if_pos ht, reduceCtorEq] at hf
      | cons param params =>
        simp only [supplied, if_pos ht] at hf
        obtain ⟨tokens, htokens, rfl⟩ := Option.map_eq_some_iff.mp hf
        simp only [List.cons_append, supplied, if_pos ht, ih htokens, Option.map_some]
    · rw [supplied_cons_of_ne ht] at hf
      obtain ⟨tokens, htokens, rfl⟩ := Option.map_eq_some_iff.mp hf
      rw [List.cons_append, supplied_cons_of_ne ht, ih htokens]
      rfl

end BoolTree

/-- The text is cut into the tokens, with the values in the places of the question marks. -/
def Cuts (statement : Statement) (tokens : List Token) : Prop :=
  ∃ bare, Lexes statement.sql.toList bare ∧
    BoolTree.supplied bare statement.params = some tokens

/-- The text is cut so whatever follows. -/
def CutsWhole (statement : Statement) (tokens : List Token) : Prop :=
  ∃ bare, LexesWhole statement.sql.toList bare ∧
    BoolTree.supplied bare statement.params = some tokens

theorem CutsWhole.cuts {statement : Statement} {tokens : List Token}
    (h : CutsWhole statement tokens) : Cuts statement tokens := by
  obtain ⟨bare, hl, hs⟩ := h
  exact ⟨bare, hl.lexes, hs⟩

theorem CutsWhole.append {first second : Statement} {before after : List Token}
    (hf : CutsWhole first before) (hs : Cuts second after) :
    Cuts (first ++ second) (before ++ after) := by
  obtain ⟨bare, hl, hv⟩ := hf
  obtain ⟨bare', hl', hv'⟩ := hs
  refine ⟨bare ++ bare', ?_, BoolTree.supplied_append hv hv'⟩
  rw [Statement.sql_append, String.toList_append]
  exact hl.append hl'

theorem CutsWhole.append_whole {first second : Statement} {before after : List Token}
    (hf : CutsWhole first before) (hs : CutsWhole second after) :
    CutsWhole (first ++ second) (before ++ after) := by
  obtain ⟨bare, hl, hv⟩ := hf
  obtain ⟨bare', hl', hv'⟩ := hs
  refine ⟨bare ++ bare', ?_, BoolTree.supplied_append hv hv'⟩
  rw [Statement.sql_append, String.toList_append]
  exact hl.append_whole hl'

theorem Cuts.append {first second : Statement} {before after : List Token}
    (hf : Cuts first before) (hb : AtBoundary second.sql.toList) (hs : Cuts second after) :
    Cuts (first ++ second) (before ++ after) := by
  obtain ⟨bare, hl, hv⟩ := hf
  obtain ⟨bare', hl', hv'⟩ := hs
  refine ⟨bare ++ bare', ?_, BoolTree.supplied_append hv hv'⟩
  rw [Statement.sql_append, String.toList_append]
  exact hl.append hb hl'

theorem Cuts.append_whole {first second : Statement} {before after : List Token}
    (hf : Cuts first before) (hb : AtBoundary second.sql.toList) (hne : second.sql.toList ≠ [])
    (hs : CutsWhole second after) : CutsWhole (first ++ second) (before ++ after) := by
  obtain ⟨bare, hl, hv⟩ := hf
  obtain ⟨bare', hl', hv'⟩ := hs
  refine ⟨bare ++ bare', ?_, BoolTree.supplied_append hv hv'⟩
  rw [Statement.sql_append, String.toList_append]
  exact hl.append_whole hb hne hl'

theorem atBoundary_of_head {text : List Char} {c : Char} (h : text.head? = some c)
    (hc : isBoundary c = true) : AtBoundary text := by
  intro d hd
  rw [h] at hd
  obtain rfl := Option.some.inj hd
  exact hc

theorem cuts_joined {separator : String} {token : Token}
    (hs : CutsWhole (raw separator) [token]) (hb : AtBoundary separator.toList)
    (hne : separator.toList ≠ []) {statements : List Statement} {tokens : List (List Token)}
    (h : List.Forall₂ Cuts statements tokens) :
    Cuts (joined separator statements) (joinedTokens token tokens) := by
  induction h with
  | nil => exact ⟨[], ⟨.nothing, [], rfl, trivial, rfl⟩, rfl⟩
  | @cons part ts parts rest hpart hrest ih =>
    cases hrest with
    | nil => exact hpart
    | cons hnext hmore =>
      have hhead : CutsWhole (part ++ raw separator) (ts ++ [token]) :=
        hpart.append_whole hb hne hs
      have hall := hhead.append ih
      rw [List.append_assoc] at hall
      exact hall

/-! ## Pieces -/

theorem cuts_ident (name : String) : Cuts (raw (ident name)) [.name name] :=
  ⟨[.name name], lexes_ident name, rfl⟩

theorem ColumnRef.lexes_sql (ref : ColumnRef) : Lexes ref.sql.toList ref.tokens := by
  have hdot : LexesWhole ".".toList [.mark '.'] := rfl
  have halias := (lexes_ident ref.tableAlias).append_whole (atBoundary_of_head rfl rfl) (by decide)
    hdot
  rw [ColumnRef.sql, qualified, String.toList_append, String.toList_append]
  exact halias.append (lexes_ident ref.column)

theorem ColumnRef.cuts_sql (ref : ColumnRef) : Cuts (raw ref.sql) ref.tokens :=
  ⟨ref.tokens, ref.lexes_sql, rfl⟩

theorem cuts_table_parts (names : List String) :
    Cuts (raw (".".intercalate (names.map ident))) (dottedTokens names) := by
  induction names with
  | nil => exact ⟨[], ⟨.nothing, [], rfl, trivial, rfl⟩, rfl⟩
  | cons name names ih =>
    cases names with
    | nil =>
      rw [List.map_singleton, String.intercalate_singleton]
      exact cuts_ident name
    | cons next names =>
      have hdot : CutsWhole (raw ".") [.mark '.'] := ⟨_, rfl, rfl⟩
      have hname := (cuts_ident name).append_whole (atBoundary_of_head rfl rfl) (by decide) hdot
      rw [List.map_cons, List.map_cons, String.intercalate_cons_cons, ← List.map_cons, raw_append,
        raw_append]
      exact hname.append ih

theorem Table.cuts_sql (table : Table) : Cuts (raw table.sql) table.tokens := by
  have has : CutsWhole (raw " AS ") [.word "AS"] := ⟨_, rfl, rfl⟩
  have hname := (cuts_table_parts (parts table.storage)).append_whole
    (atBoundary_of_head rfl rfl) (by decide) has
  have h := hname.append (cuts_ident table.tableAlias)
  rw [List.append_assoc] at h
  rw [Table.sql, raw_append, raw_append]
  exact h

theorem cuts_sign (operator : BinaryOperator) :
    CutsWhole (raw (" " ++ operator.sql ++ " ")) [signToken operator] := by
  cases operator <;> exact ⟨_, rfl, rfl⟩

theorem cuts_shape (shape : ParamShape) (value : Param) :
    Cuts (shape.bind value) (shapeTokens value shape) := by
  cases shape with
  | plain =>
    have hl : LexesWhole "?".toList [.mark '?'] := rfl
    exact ⟨_, hl.lexes, rfl⟩
  | cast type =>
    have hl : LexesWhole ("CAST(" ++ "?" ++ " AS " ++ type.sql ++ ")").toList
        [.word "CAST", .mark '(', .mark '?', .word "AS", .word type.sql, .mark ')'] := by
      cases type with
      | timestamp => rfl
      | wide integer => cases integer <;> rfl
    exact ⟨_, hl.lexes, rfl⟩

theorem cuts_parenthesized {inner : Statement} {tokens : List Token} (h : Cuts inner tokens) :
    CutsWhole inner.parenthesized (.mark '(' :: (tokens ++ [.mark ')'])) := by
  have hopen : CutsWhole (raw "(") [.mark '('] := ⟨_, rfl, rfl⟩
  have hclose : CutsWhole (raw ")") [.mark ')'] := ⟨_, rfl, rfl⟩
  exact (hopen.append h).append_whole (atBoundary_of_head rfl rfl) (by decide) hclose

theorem cuts_connective (connective : Connective) :
    CutsWhole (raw connective.sql) [connective.token] := by
  cases connective <;> exact ⟨_, rfl, rfl⟩

theorem atBoundary_connective (connective : Connective) :
    AtBoundary connective.sql.toList := by
  cases connective <;> exact atBoundary_of_head rfl rfl

theorem cuts_equal (left right : ColumnRef) :
    Cuts (raw (left.sql ++ " = " ++ right.sql)) (left.tokens ++ .sign "=" :: right.tokens) := by
  have hsign : CutsWhole (raw " = ") [.sign "="] := ⟨_, rfl, rfl⟩
  have hleft := left.cuts_sql.append_whole (atBoundary_of_head rfl rfl) (by decide) hsign
  have h := hleft.append right.cuts_sql
  rw [List.append_assoc] at h
  rw [raw_append, raw_append]
  exact h

theorem cuts_isNull (column : ColumnRef) :
    Cuts (raw (column.sql ++ " IS NULL")) (column.tokens ++ [.word "IS", .word "NULL"]) := by
  have hnull : Lexes " IS NULL".toList [.word "IS", .word "NULL"] :=
    ⟨.word "NULL".toList, [.word "IS"], rfl, trivial, rfl⟩
  rw [raw_append]
  exact column.cuts_sql.append (atBoundary_of_head rfl rfl) ⟨_, hnull, rfl⟩

theorem cuts_compare (column : ColumnRef) (operator : BinaryOperator) (shape : ParamShape)
    (value : Param) :
    Cuts (raw (column.sql ++ " " ++ operator.sql ++ " ") ++ shape.bind value)
      (column.tokens ++ signToken operator :: shapeTokens value shape) := by
  have hb : AtBoundary (raw (" " ++ operator.sql ++ " ")).sql.toList := by
    cases operator <;> exact atBoundary_of_head rfl rfl
  have hne : (raw (" " ++ operator.sql ++ " ")).sql.toList ≠ [] := by
    cases operator <;> decide
  have hleft := column.cuts_sql.append_whole hb hne (cuts_sign operator)
  have h := hleft.append (cuts_shape shape value)
  rw [List.append_assoc] at h
  have htext : column.sql ++ " " ++ operator.sql ++ " " =
      column.sql ++ (" " ++ operator.sql ++ " ") := by
    simp only [String.append_assoc]
  rw [htext, raw_append]
  exact h

theorem cuts_exists {table : Table} {statements : List Statement} {tokens : List (List Token)}
    (h : List.Forall₂ Cuts statements tokens) :
    Cuts (raw ("EXISTS (SELECT 1 FROM " ++ table.sql ++ " WHERE ") ++
        joined " AND " statements ++ raw ")")
      ([.word "EXISTS", .mark '(', .word "SELECT", .word "1", .word "FROM"] ++ (table.tokens ++
        .word "WHERE" :: (joinedTokens (.word "AND") tokens ++ [.mark ')']))) := by
  have hopen : CutsWhole (raw "EXISTS (SELECT 1 FROM ")
      [.word "EXISTS", .mark '(', .word "SELECT", .word "1", .word "FROM"] := ⟨_, rfl, rfl⟩
  have hwhere : CutsWhole (raw " WHERE ") [.word "WHERE"] := ⟨_, rfl, rfl⟩
  have hclose : CutsWhole (raw ")") [.mark ')'] := ⟨_, rfl, rfl⟩
  have hfilter : Cuts (joined " AND " statements) (joinedTokens (.word "AND") tokens) :=
    cuts_joined (cuts_connective .and) (atBoundary_connective .and) (by decide) h
  have htable := (hopen.append table.cuts_sql).append_whole (atBoundary_of_head rfl rfl)
    (by decide) hwhere
  have hall := (htable.append hfilter).append_whole (atBoundary_of_head rfl rfl) (by decide) hclose
  rw [raw_append, raw_append]
  simp only [List.append_assoc, List.singleton_append] at hall
  exact hall.cuts

namespace Condition

mutual

/-- The text of a condition is cut into the tokens of the condition. -/
theorem cuts_render : (condition : Condition) → Cuts condition.render condition.tokens
  | .one => by
    rw [render, tokens]
    exact ⟨_, ⟨.word ['1'], [], rfl, trivial, rfl⟩, rfl⟩
  | .tautology => by
    rw [render, tokens]
    exact ⟨_, ⟨.word ['1'], [.word "1", .sign "="], rfl, trivial, rfl⟩, rfl⟩
  | .equal left right => by
    rw [render, tokens]
    exact cuts_equal left right
  | .isNull column => by
    rw [render, tokens]
    exact cuts_isNull column
  | .compare column operator shape value => by
    rw [render, tokens]
    exact cuts_compare column operator shape value
  | .junction connective parts => by
    have h := cuts_joined (cuts_connective connective) (atBoundary_connective connective)
      (by cases connective <;> decide) (cuts_renderAll parts)
    rw [render, tokens]
    exact (cuts_parenthesized h).cuts
  | .not part => by
    have hnot : CutsWhole (raw "NOT ") [.word "NOT"] := ⟨_, rfl, rfl⟩
    rw [render, tokens]
    exact hnot.append (cuts_parenthesized (cuts_render part)).cuts
  | .group part => by
    rw [render, tokens]
    exact (cuts_parenthesized (cuts_render part)).cuts
  | .existsIn table conditions => by
    rw [render, tokens]
    exact cuts_exists (cuts_renderAll conditions)

theorem cuts_renderAll : (parts : List Condition) →
    List.Forall₂ Cuts (renderAll parts) (tokensAll parts)
  | [] => .nil
  | part :: parts => by
    rw [renderAll, tokensAll]
    exact .cons (cuts_render part) (cuts_renderAll parts)

end

end Condition

end NestedSql.Sql
