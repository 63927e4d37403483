import NestedSql.Proofs.Documents.Texts
import NestedSql.Proofs.Reading.Conditions
import NestedSql.Proofs.Statistics.Arithmetic

/-!
# Reading formulas back

A formula is written over a column, cut into tokens and read again. Its tokens and its tree are
given by recursion on the formula, and a group leaves no trace in the tree. The text writes
operators as they stand, so the tree comes back only where a group is named around every operand
that binds too loosely for its place; every aggregate function is such a formula.
-/

namespace NestedSql

open Sql Sql.Arithmetic

/-! ## Tokens and trees of formulas -/

def callTokens (function : String) (argument : List Token) : List Token :=
  .word function :: .mark '(' :: (argument ++ [.mark ')'])

def applyTokens (function : String) (first second : List Token) : List Token :=
  .word function :: .mark '(' :: (first ++ .mark ',' :: (second ++ [.mark ')']))

def castTokens (operand : List Token) (type : String) : List Token :=
  .word "CAST" :: .mark '(' :: (operand ++ [.word "AS", .word type, .mark ')'])

/-- A choice between zero and the operand, by the sign of the operand. -/
def guardTokens (operand : List Token) : List Token :=
  .word "CASE" :: .word "WHEN" :: (operand ++ .sign "<" :: .word "0" :: .word "THEN" ::
    .word "0" :: .word "ELSE" :: (operand ++ [.word "END"]))

def guardTree (operand : Arithmetic) : Arithmetic :=
  .whenLess operand (.number "0") (.number "0") operand

section Lengths

variable (word : String) (first second : List Token)

@[simp] theorem length_callTokens : (callTokens word first).length = first.length + 3 := by
  simp [callTokens]

@[simp] theorem length_applyTokens :
    (applyTokens word first second).length = first.length + second.length + 4 := by
  simp [applyTokens]
  omega

@[simp] theorem length_castTokens : (castTokens first word).length = first.length + 5 := by
  simp [castTokens]

@[simp] theorem length_guardTokens : (guardTokens first).length = 2 * first.length + 8 := by
  simp [guardTokens]
  omega

end Lengths

namespace RowTerm

def tokens (ref : ColumnRef) : RowTerm → List Token
  | column => ref.tokens
  | asDouble term => castTokens (term.tokens ref) "DOUBLE"
  | asText term => castTokens (term.tokens ref) "TEXT"
  | nullAsText term => applyTokens "COALESCE" (term.tokens ref) [.literal "NULL"]
  | square term => applyTokens "POWER" (term.tokens ref) [.word "2"]

@[simp] def tree (ref : ColumnRef) : RowTerm → Arithmetic
  | column => .column ref
  | asDouble term => .cast (term.tree ref) "DOUBLE"
  | asText term => .cast (term.tree ref) "TEXT"
  | nullAsText term => .apply "COALESCE" (term.tree ref) (.literal "NULL")
  | square term => .apply "POWER" (term.tree ref) (.number "2")

end RowTerm

/-- How tightly a text holds together. -/
inductive Binding where
  | sum
  | product
  | operand
deriving DecidableEq

/-- The marks that an expression of each kind goes on with. -/
def Binding.marks : Binding → List Char
  | .operand => ['(']
  | .product => ['*', '/', '(']
  | .sum => ['+', '-', '*', '/', '(']

namespace Formula

def tokens (ref : ColumnRef) : Formula → List Token
  | count term => callTokens "COUNT" (term.tokens ref)
  | sum term => callTokens "SUM" (term.tokens ref)
  | avg term => callTokens "AVG" (term.tokens ref)
  | max term => callTokens "MAX" (term.tokens ref)
  | min term => callTokens "MIN" (term.tokens ref)
  | concat term => callTokens "GROUP_CONCAT" (term.tokens ref)
  | concatDistinct term => callTokens "GROUP_CONCAT" (.word "DISTINCT" :: term.tokens ref)
  | number value => [.word (toString value)]
  | mul left right => left.tokens ref ++ .mark '*' :: right.tokens ref
  | sub left right => left.tokens ref ++ .mark '-' :: right.tokens ref
  | div left right => left.tokens ref ++ .mark '/' :: right.tokens ref
  | square formula => applyTokens "POWER" (formula.tokens ref) [.word "2"]
  | nullIfZero formula => applyTokens "NULLIF" (formula.tokens ref) [.word "0"]
  | zeroIfNegative formula => guardTokens (formula.tokens ref)
  | sqrt formula => callTokens "SQRT" (formula.tokens ref)
  | group formula => .mark '(' :: (formula.tokens ref ++ [.mark ')'])

/-- The tree that a reader makes of the formula. -/
@[simp] def tree (ref : ColumnRef) : Formula → Arithmetic
  | count term => .call "COUNT" (term.tree ref)
  | sum term => .call "SUM" (term.tree ref)
  | avg term => .call "AVG" (term.tree ref)
  | max term => .call "MAX" (term.tree ref)
  | min term => .call "MIN" (term.tree ref)
  | concat term => .call "GROUP_CONCAT" (term.tree ref)
  | concatDistinct term => .call "GROUP_CONCAT" (.distinct (term.tree ref))
  | number value => .number (toString value)
  | mul left right => .binary '*' (left.tree ref) (right.tree ref)
  | sub left right => .binary '-' (left.tree ref) (right.tree ref)
  | div left right => .binary '/' (left.tree ref) (right.tree ref)
  | square formula => .apply "POWER" (formula.tree ref) (.number "2")
  | nullIfZero formula => .apply "NULLIF" (formula.tree ref) (.number "0")
  | zeroIfNegative formula => guardTree (formula.tree ref)
  | sqrt formula => .call "SQRT" (formula.tree ref)
  | group formula => formula.tree ref

def binding : Formula → Binding
  | sub _ _ => .sum
  | mul _ _ | div _ _ => .product
  | _ => .operand

/-- No operand binds too loosely for its place. -/
def isGrouped : Formula → Bool
  | mul left right | div left right =>
    left.binding ≠ .sum && right.binding = .operand && left.isGrouped && right.isGrouped
  | sub left right => right.binding ≠ .sum && left.isGrouped && right.isGrouped
  | square formula | nullIfZero formula | zeroIfNegative formula | sqrt formula
  | group formula => formula.isGrouped
  | _ => true

end Formula

/-! ## Cutting the text -/

namespace Sql

theorem run_word {text : List Char} (h : ∀ c ∈ text, isWordChar c = true) (read : List Char) :
    (Pending.word read).run text = (.word (read ++ text), []) := by
  induction text generalizing read with
  | nil => simp [Pending.run]
  | cons c text ih =>
    have hc := h c List.mem_cons_self
    have hrest := ih fun d hd => h d (List.mem_cons_of_mem c hd)
    simp [Pending.run, Pending.step, Pending.extend, hc, hrest]

theorem lexes_number (n : Nat) : Lexes (toString n).toList [.word (toString n)] := by
  have hdigit : ∀ c ∈ (toString n).toList, c.isDigit = true := fun c => Number.isDigit_of_mem_nat
  have hword : ∀ c ∈ (toString n).toList, isWordChar c = true := by
    intro c hc
    simp [isWordChar, Char.isAlphanum, hdigit c hc]
  obtain ⟨c, text, htext⟩ := List.exists_cons_of_ne_nil (Number.nat_ne_nil n)
  rw [htext] at hdigit hword
  have hquote : isQuote c = false := by
    have hc := hdigit c List.mem_cons_self
    rw [isQuote, Bool.or_eq_false_iff, decide_eq_false_iff_not, decide_eq_false_iff_not]
    constructor <;> rintro rfl <;> exact absurd hc (by decide)
  have hstart : Pending.step .nothing c = (.word [c], []) := by
    simp [Pending.step, Pending.extend, Pending.start, Pending.tokens, hquote,
      hword c List.mem_cons_self]
  have hrun := run_word (fun d hd => hword d (List.mem_cons_of_mem c hd)) [c]
  refine ⟨.word (c :: text), [], ?_, trivial, ?_⟩
  · rw [htext, Pending.run, hstart]
    simp [hrun]
  · rw [List.nil_append, Pending.tokens, ← htext, String.ofList_toList]

theorem lexes_wrapped {opening text closing : String} {before inner after : List Token}
    (ho : LexesWhole opening.toList before) (h : Lexes text.toList inner)
    (hb : AtBoundary closing.toList) (hne : closing.toList ≠ [])
    (hc : LexesWhole closing.toList after) :
    LexesWhole (opening ++ text ++ closing).toList (before ++ inner ++ after) := by
  rw [String.toList_append, String.toList_append]
  exact (ho.append h).append_whole hb hne hc

theorem lexes_call {opening function text : String} {inner : List Token}
    (ho : LexesWhole opening.toList [.word function, .mark '(']) (h : Lexes text.toList inner) :
    Lexes (opening ++ text ++ ")").toList (callTokens function inner) := by
  have hclose : LexesWhole ")".toList [.mark ')'] := rfl
  exact (lexes_wrapped ho h (atBoundary_of_head rfl rfl) (by decide) hclose).lexes

theorem lexes_apply {opening function text closing : String} {inner : List Token} {second : Token}
    (ho : LexesWhole opening.toList [.word function, .mark '(']) (h : Lexes text.toList inner)
    (hb : AtBoundary closing.toList) (hne : closing.toList ≠ [])
    (hc : LexesWhole closing.toList [.mark ',', second, .mark ')']) :
    Lexes (opening ++ text ++ closing).toList (applyTokens function inner [second]) :=
  (lexes_wrapped ho h hb hne hc).lexes

theorem lexes_cast {text closing type : String} {inner : List Token} (h : Lexes text.toList inner)
    (hb : AtBoundary closing.toList) (hne : closing.toList ≠ [])
    (hc : LexesWhole closing.toList [.word "AS", .word type, .mark ')']) :
    Lexes ("CAST(" ++ text ++ closing).toList (castTokens inner type) := by
  have hopen : LexesWhole "CAST(".toList [.word "CAST", .mark '('] := rfl
  exact (lexes_wrapped hopen h hb hne hc).lexes

theorem lexes_between {left separator right : String} {before after : List Token} {token : Token}
    (hl : Lexes left.toList before) (hb : AtBoundary separator.toList)
    (hne : separator.toList ≠ []) (hs : LexesWhole separator.toList [token])
    (hr : Lexes right.toList after) :
    Lexes (left ++ separator ++ right).toList (before ++ token :: after) := by
  have h := (hl.append_whole hb hne hs).append hr
  rw [List.append_assoc before, List.singleton_append] at h
  rwa [String.toList_append, String.toList_append]

theorem lexes_guard {text : String} {inner : List Token} (h : Lexes text.toList inner) :
    Lexes ("CASE WHEN " ++ text ++ " < 0 THEN 0 ELSE " ++ text ++ " END").toList
      (guardTokens inner) := by
  have hopen : LexesWhole "CASE WHEN ".toList [.word "CASE", .word "WHEN"] := rfl
  have hmiddle : LexesWhole " < 0 THEN 0 ELSE ".toList
      [.sign "<", .word "0", .word "THEN", .word "0", .word "ELSE"] := rfl
  have hend : Lexes " END".toList [.word "END"] := ⟨.word "END".toList, [], rfl, trivial, rfl⟩
  have hfirst := lexes_wrapped hopen h (atBoundary_of_head rfl rfl) (by decide) hmiddle
  have hall := (hfirst.append h).append (atBoundary_of_head rfl rfl) hend
  rw [String.toList_append, String.toList_append]
  simpa only [guardTokens, List.append_assoc, List.cons_append, List.nil_append] using hall

end Sql

theorem RowTerm.lexes_sql (ref : ColumnRef) (term : RowTerm) :
    Lexes (term.sql ref.sql).toList (term.tokens ref) := by
  induction term with
  | column => exact ref.lexes_sql
  | asDouble term ih | asText term ih =>
    exact lexes_cast ih (atBoundary_of_head rfl rfl) (by decide) rfl
  | nullAsText term ih | square term ih =>
    exact lexes_apply rfl ih (atBoundary_of_head rfl rfl) (by decide) rfl

/-- The text of a formula is cut into the tokens of the formula. -/
theorem Formula.lexes_sql (ref : ColumnRef) (formula : Formula) :
    Lexes (formula.sql ref.sql).toList (formula.tokens ref) := by
  induction formula with
  | count term | sum term | avg term | max term | min term | concat term =>
    exact lexes_call rfl (term.lexes_sql ref)
  | concatDistinct term =>
    have hopen : LexesWhole "GROUP_CONCAT(DISTINCT ".toList
        [.word "GROUP_CONCAT", .mark '(', .word "DISTINCT"] := rfl
    have hclose : LexesWhole ")".toList [.mark ')'] := rfl
    exact (lexes_wrapped hopen (term.lexes_sql ref) (atBoundary_of_head rfl rfl) (by decide)
      hclose).lexes
  | number value => exact lexes_number value
  | mul left right hl hr | sub left right hl hr | div left right hl hr =>
    exact lexes_between hl (atBoundary_of_head rfl rfl) (by decide) rfl hr
  | square formula ih | nullIfZero formula ih =>
    exact lexes_apply rfl ih (atBoundary_of_head rfl rfl) (by decide) rfl
  | zeroIfNegative formula ih => exact lexes_guard ih
  | sqrt formula ih => exact lexes_call rfl ih
  | group formula ih =>
    have hopen : LexesWhole "(".toList [.mark '('] := rfl
    have hclose : LexesWhole ")".toList [.mark ')'] := rfl
    exact (lexes_wrapped hopen ih (atBoundary_of_head rfl rfl) (by decide) hclose).lexes

/-! ## Reading the tokens -/

namespace Sql.Arithmetic

/-- The next token is none of these marks. -/
def Follows (marks : List Char) (rest : List Token) : Prop :=
  ∀ c ∈ marks, rest.head? ≠ some (.mark c)

/-- The reader takes the tokens to the tree unless one of the marks follows. -/
def ReadsAs (reader : Reader Arithmetic) (marks : List Char) (tokens : List Token)
    (tree : Arithmetic) : Prop :=
  ∀ rest, Follows marks rest → reader (tokens ++ rest) = some (tree, rest)

theorem follows_nil (marks : List Char) : Follows marks [] := by
  intro c hc h
  cases h

theorem follows_cons {marks : List Char} {token : Token} (h : ∀ c ∈ marks, token ≠ .mark c)
    (rest : List Token) : Follows marks (token :: rest) := by
  intro c hc htoken
  exact h c hc (Option.some.inj htoken)

theorem follows_mark {marks : List Char} {c : Char} (h : c ∉ marks) (rest : List Token) :
    Follows marks (.mark c :: rest) := by
  refine follows_cons (fun d hd heq => h ?_) rest
  obtain rfl := Token.mark.inj heq
  exact hd

theorem follows_word (marks : List Char) (word : String) (rest : List Token) :
    Follows marks (.word word :: rest) :=
  follows_cons (fun _ _ => Token.noConfusion) rest

theorem Follows.mono {marks more : List Char} {rest : List Token} (h : Follows more rest)
    (hsub : marks ⊆ more) : Follows marks rest :=
  fun c hc => h c (hsub hc)

section Levels

variable {signs marks : List Char} {operand : Reader Arithmetic} {count : Nat}
  {tokens : List Token} {tree : Arithmetic}

/-- Reading the tokens at a level leaves the level behind the tree, with so many operators used. -/
def Chain (signs : List Char) (operand : Reader Arithmetic) (marks : List Char) (count : Nat)
    (tokens : List Token) (tree : Arithmetic) : Prop :=
  ∀ k rest, Follows marks rest →
    level signs operand (count + k) (tokens ++ rest) = operators signs operand k tree rest

theorem chain_operand (h : ReadsAs operand marks tokens tree) :
    Chain signs operand marks 0 tokens tree := by
  intro k rest hrest
  rw [level, h rest hrest, Nat.zero_add]
  rfl

theorem Chain.binary (h : Chain signs operand marks count tokens tree) {sign : Char}
    (hsign : sign ∈ signs) (hmarks : sign ∉ marks) {right : List Token} {rightTree : Arithmetic}
    (hright : ReadsAs operand marks right rightTree) :
    Chain signs operand marks (count + 1) (tokens ++ .mark sign :: right)
      (.binary sign tree rightTree) := by
  intro k rest hrest
  have hfollows : Follows marks (.mark sign :: (right ++ rest)) := follows_mark hmarks _
  rw [List.append_assoc, List.cons_append, Nat.add_assoc, Nat.add_comm 1 k,
    h (k + 1) _ hfollows, operators, if_pos hsign, hright rest hrest]
  rfl

theorem operators_of_follows (h : Follows signs tokens) (bound : Nat) :
    operators signs operand (bound + 1) tree tokens = some (tree, tokens) := by
  cases tokens with
  | nil => rfl
  | cons token rest =>
    cases token with
    | mark c =>
      have hc : c ∉ signs := fun hc => h c hc rfl
      rw [operators, if_neg hc]
    | _ => rfl

/-- A chain is read as a whole if nothing goes on with it. -/
theorem Chain.readsAs (h : Chain signs operand marks count tokens tree) {bound : Nat}
    (hbound : count < bound) :
    ReadsAs (level signs operand bound) (signs ++ marks) tokens tree := by
  intro rest hrest
  obtain ⟨k, rfl⟩ : ∃ k, bound = count + (k + 1) := ⟨bound - count - 1, by omega⟩
  rw [h (k + 1) rest (hrest.mono (List.subset_append_right signs marks))]
  exact operators_of_follows (hrest.mono (List.subset_append_left signs marks)) k

end Levels

/-- How tokens are read that hold together at least so tightly. A chain has fewer operators than
tokens, so a bound that fits the tokens fits the chain. -/
def ReadsAt (n : Nat) : Binding → List Token → Arithmetic → Prop
  | .operand, tokens, tree => ReadsAs (primary (sum n)) Binding.operand.marks tokens tree
  | .product, tokens, tree =>
    ∃ count < tokens.length,
      Chain ['*', '/'] (primary (sum n)) Binding.operand.marks count tokens tree
  | .sum, tokens, tree =>
    ∃ count < tokens.length,
      Chain ['+', '-'] (product (sum n) (n + 1)) Binding.product.marks count tokens tree

section Binding

variable {n : Nat} {binding : Binding} {tokens right : List Token} {tree rightTree : Arithmetic}

theorem ReadsAt.product (h : ReadsAt n binding tokens tree) (hbinding : binding ≠ .sum) :
    ReadsAt n .product tokens tree := by
  cases binding with
  | sum => exact absurd rfl hbinding
  | product => exact h
  | operand =>
    refine ⟨0, List.length_pos_iff.mpr ?_, chain_operand h⟩
    rintro rfl
    cases h [] (follows_nil _)

theorem ReadsAt.readsAs_product (h : ReadsAt n .product tokens tree) (hn : tokens.length ≤ n) :
    ReadsAs (Arithmetic.product (Arithmetic.sum n) (n + 1)) Binding.product.marks tokens tree := by
  obtain ⟨count, hcount, hchain⟩ := h
  exact hchain.readsAs (by omega)

theorem ReadsAt.sum (h : ReadsAt n binding tokens tree) (hn : tokens.length ≤ n) :
    ReadsAt n .sum tokens tree := by
  by_cases hbinding : binding = .sum
  · subst hbinding
    exact h
  · have hproduct := h.product hbinding
    have hread := hproduct.readsAs_product hn
    obtain ⟨count, hcount, -⟩ := hproduct
    exact ⟨0, Nat.zero_lt_of_lt hcount, chain_operand hread⟩

theorem ReadsAt.mul (h : ReadsAt n binding tokens tree) (hbinding : binding ≠ .sum) {sign : Char}
    (hsign : sign ∈ ['*', '/']) (hright : ReadsAt n .operand right rightTree) :
    ReadsAt n .product (tokens ++ .mark sign :: right) (.binary sign tree rightTree) := by
  obtain ⟨count, hcount, hchain⟩ := h.product hbinding
  have hmarks : sign ∉ Binding.operand.marks := by
    rcases List.mem_pair.mp hsign with rfl | rfl <;> decide
  refine ⟨count + 1, ?_, hchain.binary hsign hmarks hright⟩
  rw [List.length_append, List.length_cons]
  omega

theorem ReadsAt.sub (h : ReadsAt n binding tokens tree) (hn : tokens.length ≤ n)
    {rightBinding : Binding} (hright : ReadsAt n rightBinding right rightTree)
    (hbinding : rightBinding ≠ .sum) (hrn : right.length ≤ n) :
    ReadsAt n .sum (tokens ++ .mark '-' :: right) (.binary '-' tree rightTree) := by
  obtain ⟨count, hcount, hchain⟩ := h.sum hn
  have hread := (hright.product hbinding).readsAs_product hrn
  refine ⟨count + 1, ?_, hchain.binary (by decide) (by decide) hread⟩
  rw [List.length_append, List.length_cons]
  omega

/-- An expression inside parentheses or between words is read by the reader of one bound less. -/
theorem readsAs_inside (h : ∀ m, tokens.length ≤ m → ReadsAt m binding tokens tree)
    (hn : tokens.length < n) :
    ReadsAs (Arithmetic.sum n) Binding.sum.marks tokens tree := by
  obtain ⟨m, rfl⟩ : ∃ m, n = m + 1 := ⟨n - 1, by omega⟩
  have hm : tokens.length ≤ m := Nat.le_of_lt_succ hn
  obtain ⟨count, hcount, hchain⟩ := (h m hm).sum hm
  exact hchain.readsAs (by omega)

end Binding

section Operands

variable {inner : Reader Arithmetic} {first second : List Token} {firstTree secondTree : Arithmetic}

theorem primary_parenthesized (h : ReadsAs inner Binding.sum.marks first firstTree)
    (marks : List Char) :
    ReadsAs (primary inner) marks (.mark '(' :: (first ++ [.mark ')'])) firstTree := by
  intro rest _
  have hread := h (.mark ')' :: rest) (follows_mark (by decide) rest)
  rw [List.cons_append, List.append_assoc, List.singleton_append, primary, hread]
  rfl

theorem primary_cast (h : ReadsAs inner Binding.sum.marks first firstTree) (type : String)
    (marks : List Char) :
    ReadsAs (primary inner) marks (castTokens first type) (.cast firstTree type) := by
  intro rest _
  have hread := h (.word "AS" :: .word type :: .mark ')' :: rest) (follows_word _ _ _)
  simp [castTokens, hread]

theorem primary_call {function : String} (hf : function ≠ "CAST") (hd : function ≠ "DISTINCT")
    (h : ReadsAs inner Binding.sum.marks first firstTree) (marks : List Char) :
    ReadsAs (primary inner) marks (callTokens function first) (.call function firstTree) := by
  intro rest _
  have hread := h (.mark ')' :: rest) (follows_mark (by decide) rest)
  simp [callTokens, hread]

theorem primary_apply {function : String} (hf : function ≠ "CAST") (hd : function ≠ "DISTINCT")
    (h : ReadsAs inner Binding.sum.marks first firstTree)
    (hs : ReadsAs inner Binding.sum.marks second secondTree) (marks : List Char) :
    ReadsAs (primary inner) marks (applyTokens function first second)
      (.apply function firstTree secondTree) := by
  intro rest _
  have hread := h (.mark ',' :: (second ++ .mark ')' :: rest)) (follows_mark (by decide) _)
  have hsecond := hs (.mark ')' :: rest) (follows_mark (by decide) rest)
  simp [applyTokens, hread, hsecond]

theorem primary_number {digits : String} (hdigits : digits.toList.all Char.isDigit = true) :
    ReadsAs (primary inner) Binding.operand.marks [.word digits] (.number digits) := by
  intro rest hrest
  -- digits before a parenthesis would be read as the name of a function
  have hcall : ∀ more, rest ≠ .mark '(' :: more := by
    rintro more rfl
    exact hrest '(' (by decide) rfl
  have hword : ∀ word : String, word.toList.all Char.isDigit = false → digits ≠ word := by
    rintro word hword rfl
    exact absurd (hdigits.symm.trans hword) (by decide)
  rw [List.singleton_append, primary, if_pos hdigits]
  · exact hword "DISTINCT" rfl
  · exact fun more hmore _ => hcall more hmore
  · exact fun _ _ => hword "CASE" rfl
  · exact hcall

theorem primary_guard (h : ReadsAs inner Binding.sum.marks first firstTree)
    (hzero : ReadsAs inner Binding.sum.marks [.word "0"] (.number "0")) (marks : List Char) :
    ReadsAs (primary inner) marks (guardTokens first) (guardTree firstTree) := by
  intro rest _
  have hotherwise := h (.word "END" :: rest) (follows_word _ _ _)
  have hresult := hzero (.word "ELSE" :: (first ++ .word "END" :: rest)) (follows_word _ _ _)
  have hright := hzero (.word "THEN" :: .word "0" :: .word "ELSE" ::
    (first ++ .word "END" :: rest)) (follows_word _ _ _)
  have hleft := h (.sign "<" :: .word "0" :: .word "THEN" :: .word "0" :: .word "ELSE" ::
    (first ++ .word "END" :: rest)) (follows_cons (fun _ _ => Token.noConfusion) _)
  rw [List.singleton_append] at hright hresult
  simp [guardTokens, guardTree, hleft, hright, hresult, hotherwise]

end Operands

theorem readsAs_digits {digits : String} (hdigits : digits.toList.all Char.isDigit = true)
    {n : Nat} (hn : 1 < n) :
    ReadsAs (sum n) Binding.sum.marks [.word digits] (.number digits) := by
  have hnumber : ∀ m, [Token.word digits].length ≤ m →
      ReadsAt m .operand [.word digits] (.number digits) := fun _ _ => primary_number hdigits
  exact readsAs_inside hnumber hn

/-- What stands behind DISTINCT is a whole expression, and nothing goes on behind it. -/
theorem readsAs_distinct {binding : Binding} {tokens : List Token} {tree : Arithmetic} {n : Nat}
    (h : ∀ m, tokens.length ≤ m → ReadsAt m binding tokens tree) (hn : tokens.length + 1 < n) :
    ReadsAs (sum n) Binding.sum.marks (.word "DISTINCT" :: tokens) (.distinct tree) := by
  obtain ⟨m, rfl⟩ : ∃ m, n = m + 1 := ⟨n - 1, by omega⟩
  have hinside := readsAs_inside h (Nat.lt_of_succ_lt_succ hn)
  have hprimary : ReadsAs (primary (sum m)) Binding.sum.marks (.word "DISTINCT" :: tokens)
      (.distinct tree) := by
    intro rest hrest
    rw [List.cons_append, primary, hinside rest hrest]
    rfl
  have hproduct : ReadsAs (product (sum m) (m + 1)) (['*', '/'] ++ Binding.sum.marks) _ _ :=
    (chain_operand hprimary).readsAs (Nat.succ_pos m)
  have hsum : ReadsAs (sum (m + 1)) (['+', '-'] ++ (['*', '/'] ++ Binding.sum.marks)) _ _ :=
    (chain_operand hproduct).readsAs (Nat.succ_pos m)
  exact fun rest hrest => hsum rest (hrest.mono (by decide))

end Sql.Arithmetic

/-! ## The round trip -/

section RoundTrip

variable (ref : ColumnRef)

theorem RowTerm.readsAt (term : RowTerm) (n : Nat) (hn : (term.tokens ref).length ≤ n) :
    ReadsAt n .operand (term.tokens ref) (term.tree ref) := by
  induction term generalizing n with
  | column => exact fun rest _ => rfl
  | asDouble term ih | asText term ih =>
    rw [tokens, length_castTokens] at hn
    exact primary_cast (readsAs_inside ih (by omega)) _ _
  | nullAsText term ih =>
    rw [tokens, length_applyTokens, List.length_singleton] at hn
    have hnull : ∀ m, [Token.literal "NULL"].length ≤ m →
        ReadsAt m .operand [.literal "NULL"] (.literal "NULL") := fun _ _ _ _ => rfl
    exact primary_apply (by decide) (by decide) (readsAs_inside ih (by omega))
      (readsAs_inside hnull (by rw [List.length_singleton]; omega)) _
  | square term ih =>
    rw [tokens, length_applyTokens, List.length_singleton] at hn
    exact primary_apply (by decide) (by decide) (readsAs_inside ih (by omega))
      (readsAs_digits rfl (by omega)) _

/-- The tokens of a formula are read as tightly as the formula holds together. -/
theorem Formula.readsAt {formula : Formula} (h : formula.isGrouped = true) (n : Nat)
    (hn : (formula.tokens ref).length ≤ n) :
    ReadsAt n formula.binding (formula.tokens ref) (formula.tree ref) := by
  -- for every bound at once: what stands inside parentheses is read with smaller ones
  induction formula generalizing n with
  | count term | sum term | avg term | max term | min term | concat term =>
    rw [tokens, length_callTokens] at hn
    exact primary_call (by decide) (by decide) (readsAs_inside (term.readsAt ref) (by omega)) _
  | concatDistinct term =>
    rw [tokens, length_callTokens, List.length_cons] at hn
    exact primary_call (by decide) (by decide) (readsAs_distinct (term.readsAt ref) (by omega)) _
  | number value =>
    have hdigits := List.all_eq_true.mpr fun c => Number.isDigit_of_mem_nat (n := value) (c := c)
    exact primary_number hdigits
  | mul left right ihl ihr | div left right ihl ihr =>
    rw [tokens, List.length_append, List.length_cons] at hn
    simp only [isGrouped, Bool.and_eq_true, decide_eq_true_eq] at h
    obtain ⟨⟨⟨hlb, hrb⟩, hl⟩, hr⟩ := h
    have hright := ihr hr n (by omega)
    rw [hrb] at hright
    exact (ihl hl n (by omega)).mul hlb (by decide) hright
  | sub left right ihl ihr =>
    rw [tokens, List.length_append, List.length_cons] at hn
    simp only [isGrouped, Bool.and_eq_true, decide_eq_true_eq] at h
    obtain ⟨⟨hrb, hl⟩, hr⟩ := h
    exact (ihl hl n (by omega)).sub (by omega) (ihr hr n (by omega)) hrb (by omega)
  | square formula ih | nullIfZero formula ih =>
    rw [tokens, length_applyTokens, List.length_singleton] at hn
    exact primary_apply (by decide) (by decide) (readsAs_inside (ih h) (by omega))
      (readsAs_digits rfl (by omega)) _
  | zeroIfNegative formula ih =>
    rw [tokens, length_guardTokens] at hn
    exact primary_guard (readsAs_inside (ih h) (by omega)) (readsAs_digits rfl (by omega)) _
  | sqrt formula ih =>
    rw [tokens, length_callTokens] at hn
    exact primary_call (by decide) (by decide) (readsAs_inside (ih h) (by omega)) _
  | group formula ih =>
    rw [tokens, List.length_cons, List.length_append, List.length_singleton] at hn
    exact primary_parenthesized (readsAs_inside (ih h) (by omega)) _

/-- Reading the text of a grouped formula over a column gives the tree of the formula. -/
theorem Formula.read_sql {formula : Formula} (h : formula.isGrouped = true) :
    read? (formula.sql ref.sql) = some (formula.tree ref) := by
  have htokens := (formula.lexes_sql ref).tokens?_eq
  have hread := readsAs_inside (Formula.readsAt ref h) (Nat.lt_succ_self _) [] (follows_nil _)
  rw [List.append_nil] at hread
  simp only [read?, htokens, Option.bind_eq_bind, Option.bind_some, hread]

theorem AggregateFunction.isGrouped_formula (function : AggregateFunction) :
    function.formula.isGrouped = true := by
  cases function with
  | deviation sample | variance sample => cases sample <;> rfl
  | _ => rfl

/-- The text of every aggregate function over a column is read as its formula. -/
theorem AggregateFunction.read_sql (function : AggregateFunction) :
    read? (function.sql ref.sql) = some (function.formula.tree ref) :=
  Formula.read_sql ref function.isGrouped_formula

end RoundTrip

end NestedSql
