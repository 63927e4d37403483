import NestedSql.Sql.Statement

/-!
# Scans of SQL text

A scan reads text from left to right and keeps the quotation it stands in, the parentheses that
are open, and the placeholders it has passed. A fragment `Nests` between two depths when a scan
crosses it from the one to the other; fragments compose by their depths, so the text of a whole
statement is scanned piece by piece. A fragment from depth zero to depth zero is lexically closed.
Nothing is said here about what the text means.
-/

namespace NestedSql.Statement

/-- The quotation after some text. -/
def Quotation.after (quotation : Quotation) (text : List Char) : Quotation :=
  text.foldl Quotation.step quotation

/-- The characters of a text that stand outside quotes; the quotes themselves are left out. -/
def bare (quotation : Quotation) : List Char → List Char
  | [] => []
  | c :: rest =>
    let next := Quotation.step quotation c
    if quotation = none ∧ next = none then c :: bare next rest else bare next rest

/-- The text ends outside quotes, its parentheses outside quotes are balanced and none closes
before it opened, and it has one placeholder for every value. -/
structure LexicallyClosed (statement : Statement) : Prop where
  outside : Quotation.after none statement.sql.toList = none
  balanced : (bare none statement.sql.toList).count '(' = (bare none statement.sql.toList).count ')'
  nested : ∀ front, front <+: statement.sql.toList →
    (bare none front).count ')' ≤ (bare none front).count '('
  one_placeholder_each : statement.placeholderCount = statement.params.length

/-- Where a scan stands. -/
structure Scan where
  quotation : Quotation
  depth : Nat
  placeholders : Nat
deriving DecidableEq

namespace Scan

/-- One character further; a parenthesis that closes none stops the scan. -/
def step (scan : Scan) (c : Char) : Option Scan :=
  match scan with
  | ⟨some quote, depth, n⟩ => some ⟨if c = quote then none else some quote, depth, n⟩
  | ⟨none, depth, n⟩ =>
    if c = '\'' ∨ c = '"' then some ⟨some c, depth, n⟩
    else if c = '(' then some ⟨none, depth + 1, n⟩
    else if c = ')' then
      match depth with
      | 0 => none
      | depth + 1 => some ⟨none, depth, n⟩
    else if c = '?' then some ⟨none, depth, n + 1⟩
    else some ⟨none, depth, n⟩

def run (scan : Scan) (text : List Char) : Option Scan := text.foldlM step scan

theorem run_cons (scan : Scan) (c : Char) (rest : List Char) :
    scan.run (c :: rest) = (scan.step c).bind fun next => next.run rest := rfl

theorem run_append (scan : Scan) (first second : List Char) :
    scan.run (first ++ second) = (scan.run first).bind fun next => next.run second :=
  List.foldlM_append

/-- One step keeps the quotation, and moves depth and count by what the character is outside
quotes. -/
theorem step_spec {scan next : Scan} {c : Char} (h : scan.step c = some next) :
    next.quotation = Quotation.step scan.quotation c ∧
      scan.depth + (bare scan.quotation [c]).count '(' =
        next.depth + (bare scan.quotation [c]).count ')' ∧
      next.placeholders = scan.placeholders + Statement.placeholders scan.quotation [c] := by
  obtain ⟨quotation, depth, n⟩ := scan
  cases quotation with
  | some quote =>
    simp only [step, Option.some.injEq] at h
    subst h
    simp [Quotation.step, bare, Statement.placeholders]
  | none =>
    simp only [step] at h
    split at h
    · next hc =>
      obtain rfl := Option.some.inj h
      rcases hc with rfl | rfl <;> exact ⟨rfl, rfl, rfl⟩
    · next hc =>
      have hn : Quotation.step none c = none := by simp [Quotation.step, hc]
      split at h
      · next ho =>
        obtain rfl := Option.some.inj h
        subst ho
        exact ⟨hn.symm, rfl, rfl⟩
      split at h
      · next hp =>
        subst hp
        cases depth with
        | zero => exact absurd h (by simp)
        | succ depth =>
          obtain rfl := Option.some.inj h
          exact ⟨hn.symm, rfl, rfl⟩
      · next ho hp =>
        split at h
        · next hq =>
          obtain rfl := Option.some.inj h
          subst hq
          exact ⟨hn.symm, rfl, rfl⟩
        · next hq =>
          obtain rfl := Option.some.inj h
          refine ⟨hn.symm, ?_, ?_⟩
          · simp [bare, hn, ho, hp]
          · simp [Statement.placeholders, hq]

end Scan

theorem bare_cons (quotation : Quotation) (c : Char) (rest : List Char) :
    bare quotation (c :: rest) =
      bare quotation [c] ++ bare (Quotation.step quotation c) rest := by
  simp only [bare]
  split
  · rfl
  · rfl

theorem placeholders_cons (quotation : Quotation) (c : Char) (rest : List Char) :
    placeholders quotation (c :: rest) =
      placeholders quotation [c] + placeholders (Quotation.step quotation c) rest := by
  simp [placeholders]

namespace Scan

/-- What a scan that is not stopped has found. The induction is on the text; the bound on fronts
is carried from the depth at which the rest begins. -/
theorem run_spec {scan last : Scan} {text : List Char} (h : scan.run text = some last) :
    last.quotation = Quotation.after scan.quotation text ∧
      scan.depth + (bare scan.quotation text).count '(' =
        last.depth + (bare scan.quotation text).count ')' ∧
      last.placeholders = scan.placeholders + Statement.placeholders scan.quotation text ∧
      ∀ front, front <+: text →
        (bare scan.quotation front).count ')' ≤
          scan.depth + (bare scan.quotation front).count '(' := by
  induction text generalizing scan with
  | nil =>
    obtain rfl := Option.some.inj h
    refine ⟨rfl, rfl, rfl, ?_⟩
    intro front hf
    rw [List.prefix_nil.mp hf]
    simp [bare]
  | cons c rest ih =>
    rw [run_cons] at h
    obtain ⟨next, hs, hr⟩ := Option.bind_eq_some_iff.mp h
    obtain ⟨hq, hd, hp⟩ := step_spec hs
    obtain ⟨hq', hd', hp', hf'⟩ := ih hr
    rw [hq] at hq' hd' hp' hf'
    refine ⟨hq', ?_, ?_, ?_⟩
    · rw [bare_cons, List.count_append, List.count_append]
      omega
    · rw [placeholders_cons]
      omega
    · intro front hf
      rcases List.prefix_cons_iff.mp hf with rfl | ⟨tail, rfl, ht⟩
      · simp [bare]
      · have hb := hf' tail ht
        rw [bare_cons, List.count_append, List.count_append]
        omega

end Scan

/-- A scan crosses the statement from one depth to another, outside quotes at both ends, and
passes a placeholder for every value. -/
def Nests (statement : Statement) (first last : Nat) : Prop :=
  ∀ base n, Scan.run ⟨none, base + first, n⟩ statement.sql.toList =
    some ⟨none, base + last, n + statement.params.length⟩

/-- A statement without parentheses of others. -/
abbrev Closed (statement : Statement) : Prop := statement.Nests 0 0

theorem Closed.lexicallyClosed {statement : Statement} (h : statement.Closed) :
    statement.LexicallyClosed := by
  obtain ⟨hq, hd, hp, hf⟩ := Scan.run_spec (h 0 0)
  dsimp only at hq hd hp hf
  constructor
  · exact hq.symm
  · omega
  · intro front hfront
    have hb := hf front hfront
    omega
  · rw [placeholderCount]
    omega

theorem Nests.append {first second : Statement} {d e f : Nat} (ha : first.Nests d e)
    (hb : second.Nests e f) : (first ++ second).Nests d f := by
  intro base n
  rw [sql_append, String.toList_append, Scan.run_append, ha, Option.bind_some, hb, params_append,
    List.length_append, Nat.add_assoc]

/-- A closed statement may stand at any depth. -/
theorem Closed.nests {statement : Statement} (h : statement.Closed) (depth : Nat) :
    statement.Nests depth depth := by
  intro base n
  exact h (base + depth) n

theorem Closed.append {first second : Statement} (ha : first.Closed) (hb : second.Closed) :
    (first ++ second).Closed :=
  Nests.append ha hb

theorem closed_empty : empty.Closed := fun _ _ => rfl

theorem closed_bind (param : Param) : (bind param).Closed := by
  intro base n
  show Scan.run _ "?".toList = _
  rfl

theorem Closed.parenthesized {statement : Statement} (h : statement.Closed) :
    statement.parenthesized.Closed := by
  have ho : (raw "(").Nests 0 1 := fun _ _ => rfl
  have hc : (raw ")").Nests 1 0 := fun _ _ => rfl
  exact (ho.append (h.nests 1)).append hc

theorem closed_joined {separator : String} (hs : (raw separator).Closed)
    {parts : List Statement} (hp : ∀ part ∈ parts, part.Closed) :
    (joined separator parts).Closed := by
  fun_induction joined separator parts with
  | case1 => exact closed_empty
  | case2 part => exact hp part (List.mem_singleton_self part)
  | case3 part parts _ ih =>
    have hpart := hp part List.mem_cons_self
    have hrest := ih fun other ho => hp other (List.mem_cons_of_mem part ho)
    exact (hpart.append hs).append hrest

/-! ## Text without values -/

theorem Closed.raw_append {first second : String} (ha : (raw first).Closed)
    (hb : (raw second).Closed) : (raw (first ++ second)).Closed := by
  rw [Statement.raw_append]
  exact ha.append hb

/-- Characters that a scan passes without any change. -/
def Plain (c : Char) : Prop := c ∉ ['\'', '"', '(', ')', '?']

theorem run_plain {text : List Char} (h : ∀ c ∈ text, Plain c) (depth n : Nat) :
    Scan.run ⟨none, depth, n⟩ text = some ⟨none, depth, n⟩ := by
  induction text with
  | nil => rfl
  | cons c rest ih =>
    have hc := h c List.mem_cons_self
    simp only [Plain, List.mem_cons, List.not_mem_nil, or_false, not_or] at hc
    obtain ⟨hq, hd, ho, hp, hm⟩ := hc
    have hs : Scan.step ⟨none, depth, n⟩ c = some ⟨none, depth, n⟩ := by
      simp [Scan.step, hq, hd, ho, hp, hm]
    rw [Scan.run_cons, hs]
    exact ih fun other ho => h other (List.mem_cons_of_mem c ho)

theorem closed_plain {text : String} (h : ∀ c ∈ text.toList, Plain c) : (raw text).Closed :=
  fun base n => run_plain h base n

theorem plain_of_isDigit {c : Char} (h : c.isDigit = true) : Plain c := by
  intro hm
  simp only [List.mem_cons, List.not_mem_nil, or_false] at hm
  rcases hm with rfl | rfl | rfl | rfl | rfl <;> exact absurd h (by decide)

theorem closed_nat (n : Nat) : (raw (toString n)).Closed := by
  apply closed_plain
  intro c hc
  rw [Nat.toString_eq_ofList_toDigits, String.toList_ofList] at hc
  exact plain_of_isDigit (Nat.isDigit_of_mem_toDigits (by decide) (by decide) hc)

end NestedSql.Statement
