import NestedSql.Proofs.Reading.Conditions

/-!
# Trees read from tokens

Each level of the reader takes a condition or a chain of conditions from the front of some tokens
and stops where the next token belongs to a weaker level. With the cut of the text this gives the
round trip: reading the text of a readable condition with its values gives the tree of the
condition, and nothing is left over.
-/

namespace NestedSql.Sql

open BoolTree (Reader chain conjunction disjunction negation comparison operand)

/-- What stands behind a part begins with a closing parenthesis or one of the words. -/
def Stops (words : List String) (rest : List Token) : Prop :=
  ∀ token ∈ rest.head?, token = .mark ')' ∨ ∃ word ∈ words, token = .word word

theorem stops_nil (words : List String) : Stops words [] := by
  intro token ht
  cases ht

theorem stops_mark (words : List String) (rest : List Token) : Stops words (.mark ')' :: rest) := by
  intro token ht
  exact .inl (Option.some.inj ht).symm

theorem stops_word {words : List String} {word : String} (h : word ∈ words) (rest : List Token) :
    Stops words (.word word :: rest) := by
  intro token ht
  exact .inr ⟨word, h, (Option.some.inj ht).symm⟩

theorem Stops.mono {words more : List String} {rest : List Token} (h : Stops words rest)
    (hsub : ∀ word ∈ words, word ∈ more) : Stops more rest := by
  intro token ht
  obtain hm | ⟨word, hw, rfl⟩ := h token ht
  · exact .inl hm
  · exact .inr ⟨word, hsub word hw, rfl⟩

/-- The reader takes the tokens to the result and leaves what stops it. -/
def Reads {α : Type} (reader : Reader α) (words : List String) (tokens : List Token)
    (result : α) : Prop :=
  ∀ rest, Stops words rest → reader (tokens ++ rest) = some (result, rest)

/-! ## Chains -/

theorem joinedTokens_cons_cons (separator : Token) (first next : List Token)
    (others : List (List Token)) :
    joinedTokens separator (first :: next :: others) =
      first ++ separator :: joinedTokens separator (next :: others) := rfl

section Chains

variable {separator : String} {words : List String} {member : Reader BoolTree}

theorem chain_last (hsep : separator ∉ words) {tokens : List Token} {tree : BoolTree}
    (h : Reads member (separator :: words) tokens tree) (bound : Nat) :
    Reads (chain separator member (bound + 1)) words tokens [tree] := by
  intro rest hrest
  have hread := h rest (hrest.mono fun _ hw => List.mem_cons_of_mem separator hw)
  rw [chain, hread]
  simp only [Option.bind_eq_bind, Option.bind_some]
  split
  · next first text more heq =>
    obtain ⟨rfl, rfl⟩ := Prod.mk.inj heq
    have hne : text ≠ separator := by
      rintro rfl
      obtain hm | ⟨word, hw, ht⟩ := hrest (.word text) rfl
      · cases hm
      · cases ht
        exact hsep hw
    rw [if_neg hne]
  · next heq =>
    obtain ⟨rfl, rfl⟩ := Prod.mk.inj heq
    rfl

/-- The members of a chain are read one by one. -/
theorem chain_joined (hsep : separator ∉ words) {bound : Nat} {tokens : List (List Token)}
    {trees : List BoolTree} (h : List.Forall₂ (Reads member (separator :: words)) tokens trees)
    (hne : tokens ≠ []) (hbound : tokens.length ≤ bound) :
    Reads (chain separator member bound) words (joinedTokens (.word separator) tokens) trees := by
  induction h generalizing bound with
  | nil => exact absurd rfl hne
  | @cons part tree parts trees hpart hparts ih =>
    obtain ⟨bound, rfl⟩ : ∃ smaller, bound = smaller + 1 :=
      ⟨bound - 1, by simp only [List.length_cons] at hbound; omega⟩
    cases hparts with
    | nil => exact chain_last hsep hpart bound
    | @cons next nextTree others otherTrees hnext hmore =>
      intro rest hrest
      have hlength : (next :: others).length ≤ bound := Nat.le_of_succ_le_succ hbound
      have htail := ih (List.cons_ne_nil next others) hlength rest hrest
      have hhead := hpart _ (stops_word List.mem_cons_self
        (joinedTokens (.word separator) (next :: others) ++ rest))
      rw [joinedTokens_cons_cons, List.append_assoc, List.cons_append, chain, hhead]
      simp only [Option.bind_eq_bind, Option.bind_some, if_true, htail]

end Chains

/-- A chain of negations, read at the level of AND. -/
theorem conjunction_joined {inner : Reader BoolTree} {bound : Nat} {tokens : List (List Token)}
    {trees : List BoolTree}
    (h : List.Forall₂ (Reads (negation inner) ["AND", "OR"]) tokens trees) (hne : tokens ≠ [])
    (hbound : tokens.length ≤ bound) :
    Reads (conjunction inner bound) ["OR"] (joinedTokens (.word "AND") tokens)
      (BoolTree.joined .and trees) := by
  intro rest hrest
  have hchain := chain_joined (by decide) h hne hbound rest hrest
  rw [conjunction, hchain]
  rfl

/-- A chain of either connective is read inside parentheses. -/
theorem disjunction_joined (connective : Connective) {bound : Nat} {tokens : List (List Token)}
    {trees : List BoolTree}
    (h : List.Forall₂ (Reads (negation (disjunction bound)) ["AND", "OR"]) tokens trees)
    (hne : tokens ≠ []) (hbound : tokens.length ≤ bound + 1) :
    Reads (disjunction (bound + 1)) [] (joinedTokens connective.token tokens)
      (connective.tree trees) := by
  intro rest hrest
  cases connective with
  | and =>
    have hall := conjunction_joined h hne hbound
    have hchain := chain_last (by decide) hall bound rest hrest
    simp only [disjunction]
    rw [Connective.token, hchain]
    rfl
  | or =>
    have hmembers : List.Forall₂ (Reads (conjunction (disjunction bound) (bound + 1)) ["OR"])
        tokens trees := by
      refine h.imp fun part tree hpart => ?_
      exact conjunction_joined (.cons hpart .nil) (List.cons_ne_nil _ _)
        (Nat.le_add_left 1 bound)
    have hchain := chain_joined (by decide) hmembers hne hbound rest hrest
    simp only [disjunction]
    rw [Connective.token, hchain]
    rfl

/-! ## Lengths -/

theorem length_le_joinedTokens (separator : Token) {tokens : List (List Token)}
    {part : List Token} (h : part ∈ tokens) :
    part.length ≤ (joinedTokens separator tokens).length := by
  induction tokens with
  | nil => cases h
  | cons first others ih =>
    cases others with
    | nil =>
      obtain rfl := List.mem_singleton.mp h
      exact Nat.le_refl part.length
    | cons next others =>
      rw [joinedTokens_cons_cons, List.length_append, List.length_cons]
      obtain rfl | hmem := List.mem_cons.mp h
      · exact Nat.le_add_right part.length _
      · have := ih hmem
        omega

theorem length_tokens_le (separator : Token) (tokens : List (List Token)) :
    tokens.length ≤ (joinedTokens separator tokens).length + 1 := by
  induction tokens with
  | nil => exact Nat.zero_le 1
  | cons first others ih =>
    cases others with
    | nil => exact Nat.le_add_left 1 _
    | cons next others =>
      rw [joinedTokens_cons_cons, List.length_append]
      simp only [List.length_cons] at ih ⊢
      omega

/-- A chain is read inside parentheses if its members are read at every bound that fits them. -/
theorem disjunction_of_members (connective : Connective) {tokens : List (List Token)}
    {trees : List BoolTree} (hne : tokens ≠ [])
    (h : ∀ n, (∀ part ∈ tokens, part.length ≤ n) →
      List.Forall₂ (Reads (negation (disjunction n)) ["AND", "OR"]) tokens trees)
    {n : Nat} (hn : (joinedTokens connective.token tokens).length < n) :
    Reads (disjunction n) [] (joinedTokens connective.token tokens) (connective.tree trees) := by
  obtain ⟨bound, rfl⟩ : ∃ smaller, n = smaller + 1 := ⟨n - 1, by omega⟩
  have hfit : ∀ part ∈ tokens, part.length ≤ bound := by
    intro part hpart
    have := length_le_joinedTokens connective.token hpart
    omega
  have hcount := length_tokens_le connective.token tokens
  exact disjunction_joined connective (h bound hfit) hne (by omega)

/-! ## Operands and comparisons -/

section Operands

variable {inner : Reader BoolTree}

theorem operand_parenthesized {tokens : List Token} {tree : BoolTree}
    (h : Reads inner [] tokens tree) (rest : List Token) :
    operand inner (.mark '(' :: (tokens ++ [.mark ')']) ++ rest) = some (tree, rest) := by
  have hread := h (.mark ')' :: rest) (stops_mark [] rest)
  rw [List.cons_append, List.append_assoc, List.singleton_append, operand, hread]
  rfl

theorem operand_column (ref : ColumnRef) (rest : List Token) :
    operand inner (ref.tokens ++ rest) = some (.column ref, rest) := rfl

theorem tableName_dotted {names : List String} (hne : names ≠ []) {rest : List Token}
    (hrest : ∀ more, rest ≠ .mark '.' :: more) :
    BoolTree.tableName (dottedTokens names ++ rest) = some (names, rest) := by
  induction names with
  | nil => exact absurd rfl hne
  | cons name names ih =>
    cases names with
    | nil =>
      rw [dottedTokens, List.singleton_append, BoolTree.tableName]
      exact hrest
    | cons next names =>
      have hnext := ih (List.cons_ne_nil next names)
      rw [dottedTokens, List.cons_append, List.cons_append, BoolTree.tableName, hnext]
      · rfl
      · exact fun hnil => absurd hnil (List.cons_ne_nil next names)

theorem operand_exists {table : Table} (hparts : parts table.storage ≠ []) {tokens : List Token}
    {tree : BoolTree} (h : Reads inner [] tokens tree) (rest : List Token) :
    operand inner ([.word "EXISTS", .mark '(', .word "SELECT", .word "1", .word "FROM"] ++
        (table.tokens ++ .word "WHERE" :: (tokens ++ [.mark ')'])) ++ rest) =
      some (.existsIn (parts table.storage) table.tableAlias tree, rest) := by
  have hname : BoolTree.tableName (dottedTokens (parts table.storage) ++ .word "AS" ::
      .name table.tableAlias :: .word "WHERE" :: (tokens ++ .mark ')' :: rest)) =
      some (parts table.storage, .word "AS" :: .name table.tableAlias ::
        .word "WHERE" :: (tokens ++ .mark ')' :: rest)) :=
    tableName_dotted hparts (by simp)
  have hread := h (.mark ')' :: rest) (stops_mark [] rest)
  simp only [Table.tokens, List.append_assoc, List.cons_append, List.nil_append, operand, hname,
    hread, Option.bind_eq_bind, Option.bind_some]

theorem operand_value (n : Nat) (value : Param) (shape : ParamShape) (rest : List Token) :
    operand (disjunction (n + 1)) (shapeTokens value shape ++ rest) =
      some (shapeTree value shape, rest) := by
  cases shape with
  | plain => rfl
  | cast type =>
    simp [shapeTokens, shapeTree, operand, disjunction, conjunction, chain, negation, comparison,
      BoolTree.comparisonSign?, BoolTree.joined]

theorem comparison_of_operand {tokens : List Token} {tree : BoolTree} {rest : List Token}
    (h : operand inner (tokens ++ rest) = some (tree, rest)) (hrest : Stops ["AND", "OR"] rest) :
    comparison inner (tokens ++ rest) = some (tree, rest) := by
  rw [comparison, h]
  cases rest with
  | nil => rfl
  | cons token more =>
    obtain rfl | ⟨word, hw, rfl⟩ := hrest token rfl
    · rfl
    · obtain rfl | rfl : word = "AND" ∨ word = "OR" := by simpa using hw
      · rfl
      · rfl

theorem comparison_compare (n : Nat) (column : ColumnRef) (operator : BinaryOperator)
    (shape : ParamShape) (value : Param) (rest : List Token) :
    comparison (disjunction (n + 1))
        (column.tokens ++ signToken operator :: shapeTokens value shape ++ rest) =
      some (.compare operator.sql (.column column) (shapeTree value shape), rest) := by
  have hvalue := operand_value n value shape rest
  rw [List.append_assoc, List.cons_append, comparison, operand_column]
  cases operator <;> simp [signToken, BinaryOperator.sql, BoolTree.comparisonSign?, hvalue]

end Operands

/-! ## Conditions -/

theorem dotted_ne_nil (characters : List Char) : dotted characters ≠ [] := by
  fun_induction dotted characters <;> simp_all

theorem parts_ne_nil (storage : String) : parts storage ≠ [] := by
  intro h
  exact dotted_ne_nil storage.toList (List.map_eq_nil_iff.mp h)

theorem negation_of_operand {inner : Reader BoolTree} {tokens : List Token} {tree : BoolTree}
    (hnot : ∀ more, tokens ≠ .word "NOT" :: more) (hne : tokens ≠ [])
    (h : ∀ rest, operand inner (tokens ++ rest) = some (tree, rest)) :
    Reads (negation inner) ["AND", "OR"] tokens tree := by
  intro rest hrest
  have hread := comparison_of_operand (h rest) hrest
  rw [negation, hread]
  intro more heq
  cases tokens with
  | nil => exact hne rfl
  | cons token tokens =>
    obtain ⟨rfl, -⟩ := List.cons.inj heq
    exact hnot tokens rfl

namespace Condition

theorem tokensAll_ne_nil {parts : List Condition} (h : parts ≠ []) : tokensAll parts ≠ [] := by
  cases parts with
  | nil => exact absurd rfl h
  | cons part parts =>
    rw [tokensAll]
    exact List.cons_ne_nil _ _

theorem disjunction_tokens {part : Condition}
    (h : ∀ n, part.tokens.length ≤ n →
      Reads (negation (disjunction n)) ["AND", "OR"] part.tokens part.tree)
    {n : Nat} (hn : part.tokens.length < n) :
    Reads (disjunction n) [] part.tokens part.tree := by
  have hmembers : ∀ n, (∀ tokens ∈ [part.tokens], tokens.length ≤ n) →
      List.Forall₂ (Reads (negation (disjunction n)) ["AND", "OR"]) [part.tokens] [part.tree] := by
    intro n hfit
    exact .cons (h n (hfit part.tokens List.mem_cons_self)) .nil
  exact disjunction_of_members .or (List.cons_ne_nil _ _) hmembers hn

mutual

/-- The tokens of a readable condition are read where a negation is. -/
theorem negation_tokens : (condition : Condition) → condition.Readable → ∀ n,
    condition.tokens.length ≤ n →
      Reads (negation (disjunction n)) ["AND", "OR"] condition.tokens condition.tree
  | .one, _, n, _ => by
    rw [tokens, tree]
    exact negation_of_operand (by simp) (by simp) fun rest => rfl
  | .tautology, _, n, _ => by
    intro rest hrest
    rfl
  | .equal left right, _, n, _ => by
    intro rest hrest
    rfl
  | .isNull column, _, n, _ => by
    intro rest hrest
    rfl
  | .compare column operator shape value, _, n, hn => by
    intro rest hrest
    obtain ⟨n, rfl⟩ : ∃ smaller, n = smaller + 1 :=
      ⟨n - 1, by simp [tokens, ColumnRef.tokens] at hn; omega⟩
    have hread := comparison_compare n column operator shape value rest
    rw [tokens, tree, ← hread]
    rfl
  | .junction connective parts, hr, n, hn => by
    rw [Readable] at hr
    obtain ⟨hne, hparts⟩ := hr
    rw [tokens] at hn ⊢
    rw [tree]
    have hinner := disjunction_of_members connective (tokensAll_ne_nil hne)
      (negation_tokensAll parts hparts) (n := n) (by simp at hn; omega)
    exact negation_of_operand (by simp) (by simp) (operand_parenthesized hinner)
  | .not part, hr, n, hn => by
    rw [Readable] at hr
    rw [tokens] at hn ⊢
    rw [tree]
    have hinner := disjunction_tokens (negation_tokens part hr) (n := n) (by simp at hn; omega)
    intro rest hrest
    have hread := comparison_of_operand (operand_parenthesized hinner rest) hrest
    rw [List.cons_append, negation, negation, hread]
    · rfl
    · simp
  | .group part, hr, n, hn => by
    rw [Readable] at hr
    rw [tokens] at hn ⊢
    rw [tree]
    have hinner := disjunction_tokens (negation_tokens part hr) (n := n) (by simp at hn; omega)
    exact negation_of_operand (by simp) (by simp) (operand_parenthesized hinner)
  | .existsIn table conditions, hr, n, hn => by
    rw [Readable] at hr
    obtain ⟨hne, hparts⟩ := hr
    rw [tokens] at hn ⊢
    rw [tree]
    have hinner := disjunction_of_members .and (tokensAll_ne_nil hne)
      (negation_tokensAll conditions hparts) (n := n)
      (by simp [Connective.token] at hn ⊢; omega)
    exact negation_of_operand (by simp) (by simp)
      (operand_exists (parts_ne_nil table.storage) hinner)

theorem negation_tokensAll : (parts : List Condition) → AllReadable parts → ∀ n,
    (∀ tokens ∈ tokensAll parts, tokens.length ≤ n) →
      List.Forall₂ (Reads (negation (disjunction n)) ["AND", "OR"]) (tokensAll parts) (trees parts)
  | [], _, _, _ => .nil
  | part :: parts, hr, n, hn => by
    rw [AllReadable] at hr
    rw [tokensAll] at hn ⊢
    rw [trees]
    have hpart := negation_tokens part hr.1 n (hn part.tokens List.mem_cons_self)
    have hparts := negation_tokensAll parts hr.2 n fun tokens ht =>
      hn tokens (List.mem_cons_of_mem _ ht)
    exact .cons hpart hparts

end

/-- Reading the text of a condition with its values gives back its tree. -/
theorem read_render {condition : Condition} (h : condition.Readable) :
    BoolTree.read? condition.render = some condition.tree := by
  obtain ⟨bare, hlexes, hsupplied⟩ := condition.cuts_render
  have hread := disjunction_tokens (negation_tokens condition h)
    (Nat.lt_succ_self condition.tokens.length) [] (stops_nil [])
  rw [List.append_nil] at hread
  rw [BoolTree.read?, hlexes.tokens?_eq, Option.bind_eq_bind, Option.bind_some, hsupplied,
    Option.bind_eq_bind, Option.bind_some, hread]
  rfl

end Condition

end NestedSql.Sql
