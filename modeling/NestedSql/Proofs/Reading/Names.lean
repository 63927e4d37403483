import Mathlib.Logic.Function.Basic
import NestedSql.Proofs.Catalog.Identifiers

/-!
# Quoted names are read back

A quoted token ends at the first quote that is not written twice. So a quoted name is read as one
token, and what stands behind it is left untouched, unless it begins with the same quote: no name
reaches out of its quotes, whatever quotes it has inside. Texts made of quoted names with dots
between them are read as these names, and different names are never quoted alike.
-/

namespace NestedSql.Sql

/-! ## The first token of a text -/

/-- What stands before the closing quote, where two quotes stand for one, and what stands behind. -/
@[local simp] def closing? (quote : Char) : List Char → Option (List Char × List Char)
  | [] => none
  | [c] => if c = quote then some ([], []) else none
  | c :: next :: rest =>
    if c = quote then
      if next = quote then (closing? quote rest).map (Prod.map (quote :: ·) id)
      else some ([], next :: rest)
    else (closing? quote (next :: rest)).map (Prod.map (c :: ·) id)

/-- The quoted token that a text begins with, and what stands behind it. -/
def quotedToken? : List Char → Option (Token × List Char)
  | [] => none
  | c :: rest =>
    if isQuote c then (closing? c rest).map (Prod.map (Token.quoted c) id) else none

theorem map_fst_eq_some {α β γ : Type} {f : α → γ} {found : Option (α × β)} {c : γ} {b : β} :
    found.map (Prod.map f id) = some (c, b) ↔ ∃ a, found = some (a, b) ∧ f a = c := by
  rcases found with _ | ⟨a, other⟩
  · simp
  · simp [and_comm]

section Closing

variable {quote : Char}

theorem closing?_of_ne {c : Char} (h : c ≠ quote) (text : List Char) :
    closing? quote (c :: text) = (closing? quote text).map (Prod.map (c :: ·) id) := by
  cases text <;> simp [h]

theorem closing?_twice (text : List Char) :
    closing? quote (quote :: quote :: text) =
      (closing? quote text).map (Prod.map (quote :: ·) id) := by
  simp

theorem closing?_once {rest : List Char} (h : rest.head? ≠ some quote) :
    closing? quote (quote :: rest) = some ([], rest) := by
  cases rest with
  | nil => simp
  | cons c rest =>
    have hc : c ≠ quote := by simpa using h
    simp [hc]

/-- A doubled name is closed by the first quote behind it. -/
theorem closing?_doubled (name : List Char) {rest : List Char} (h : rest.head? ≠ some quote) :
    closing? quote (doubled quote name ++ quote :: rest) = some (name, rest) := by
  induction name with
  | nil => exact closing?_once h
  | cons c name ih =>
    by_cases hc : c = quote
    · subst hc
      simp only [doubled, if_true, List.cons_append, closing?_twice, ih]
      rfl
    · simp only [doubled, if_neg hc, List.cons_append, closing?_of_ne hc, ih]
      rfl

theorem quotedToken?_enclosed (hquote : isQuote quote = true) (name : List Char)
    {rest : List Char} (h : rest.head? ≠ some quote) :
    quotedToken? (enclosed quote name ++ rest) = some (.quoted quote name, rest) := by
  have hclosing := closing?_doubled name h
  rw [enclosed, List.cons_append, List.append_assoc, List.singleton_append, quotedToken?,
    if_pos hquote, hclosing]
  rfl

/-! ## The first token and all tokens -/

/-- The machine that reads all tokens leaves a quoted one where it is closed. -/
theorem run_of_closing? {text name rest : List Char} (h : closing? quote text = some (name, rest)) :
    rest.head? ≠ some quote ∧ ∀ read,
      (Pending.inside quote read).run text = (Pending.behind quote (read ++ name)).run rest := by
  fun_induction closing? quote text generalizing name with
  | case1 => cases h
  | case2 =>
    cases h
    refine ⟨by simp, fun read => ?_⟩
    simp [Pending.run, Pending.step, Pending.extend]
  | case3 => cases h
  | case4 text ih =>
    obtain ⟨inner, hinner, rfl⟩ := map_fst_eq_some.mp h
    obtain ⟨hhead, hrun⟩ := ih hinner
    refine ⟨hhead, fun read => ?_⟩
    have hlater := hrun (read ++ [quote])
    rw [List.append_assoc] at hlater
    simp only [Pending.run, Pending.step, Pending.extend, if_true, hlater]
    rfl
  | case5 next text hnext =>
    cases h
    refine ⟨by simpa using hnext, fun read => ?_⟩
    rw [List.append_nil, Pending.run]
    simp [Pending.step, Pending.extend]
  | case6 c next text hc ih =>
    obtain ⟨inner, hinner, rfl⟩ := map_fst_eq_some.mp h
    obtain ⟨hhead, hrun⟩ := ih hinner
    refine ⟨hhead, fun read => ?_⟩
    have hlater := hrun (read ++ [c])
    rw [List.append_assoc] at hlater
    rw [Pending.run]
    simp only [Pending.step, Pending.extend, if_neg hc, hlater]
    rfl

end Closing

/-- Tokens that are read before anything pends on the rest stand before the tokens of the rest. -/
theorem tokens?_of_run {text rest : List Char} (before : List Token)
    (h : Pending.run .nothing text =
      ((Pending.run .nothing rest).1, before ++ (Pending.run .nothing rest).2)) :
    tokens? text = (tokens? rest).map (before ++ ·) := by
  cases hrest : Pending.run .nothing rest with
  | mk last ended =>
    rw [hrest] at h
    rw [tokens?, tokens?, h, hrest]
    cases last <;> simp

/-- A quoted token at the head of a text is the first of its tokens. -/
theorem tokens?_of_quotedToken? {text rest : List Char} {token : Token}
    (h : quotedToken? text = some (token, rest)) :
    tokens? text = (tokens? rest).map (token :: ·) := by
  cases text with
  | nil => cases h
  | cons quote text =>
    by_cases hquote : isQuote quote = true
    · rw [quotedToken?, if_pos hquote] at h
      obtain ⟨name, hclosing, rfl⟩ := map_fst_eq_some.mp h
      obtain ⟨hhead, hrun⟩ := run_of_closing? hclosing
      have hopened : Pending.run .nothing (quote :: text) =
          (Pending.behind quote name).run rest := by
        have hstep : Pending.step .nothing quote = (.inside quote [], []) := by
          simp [Pending.step, Pending.extend, Pending.start, Pending.tokens, hquote]
        have hinside := hrun []
        rw [List.nil_append] at hinside
        rw [Pending.run, hstep]
        simp only [hinside, List.nil_append]
      cases rest with
      | nil =>
        rw [tokens?, hopened]
        rfl
      | cons c rest =>
        have hc : c ≠ quote := by simpa using hhead
        have hstep : (Pending.behind quote name).step c =
            ((Pending.start c).1, .quoted quote name :: (Pending.start c).2) := by
          simp [Pending.step, Pending.extend, Pending.tokens, hc]
        have hfresh : Pending.step .nothing c = Pending.start c := rfl
        refine tokens?_of_run [.quoted quote name] ?_
        rw [hopened]
        simp only [Pending.run, hstep, hfresh, List.cons_append, List.nil_append]
    · rw [quotedToken?, if_neg hquote] at h
      cases h

/-! ## Texts of names -/

/-- Whatever follows the text, unless it begins with the quote, is read behind these tokens as if it
stood alone. -/
def ReadsAs (quote : Char) (text : String) (tokens : List Token) : Prop :=
  ∀ following : String, following.toList.head? ≠ some quote →
    tokens? (text ++ following).toList = (tokens? following.toList).map (tokens ++ ·)

theorem ReadsAs.tokens?_eq {quote : Char} {text : String} {tokens : List Token}
    (h : ReadsAs quote text tokens) : tokens? text.toList = some tokens := by
  have hempty := h "" (by simp)
  rw [String.append_empty] at hempty
  rw [hempty]
  exact congrArg some (List.append_nil tokens)

theorem quotedToken?_ident (name : String) {following : String}
    (h : following.toList.head? ≠ some '"') :
    quotedToken? (ident name ++ following).toList = some (.name name, following.toList) := by
  have htoken : Token.quoted '"' name.toList = .name name := by simp [Token.quoted]
  rw [String.toList_append, ident, String.toList_ofList, quotedToken?_enclosed rfl _ h, htoken]

theorem quotedToken?_key (name : String) {following : String}
    (h : following.toList.head? ≠ some '\'') :
    quotedToken? (key name ++ following).toList = some (.literal name, following.toList) := by
  have htoken : Token.quoted '\'' name.toList = .literal name := by simp [Token.quoted]
  rw [String.toList_append, key, String.toList_ofList, quotedToken?_enclosed rfl _ h, htoken]

theorem readsAs_ident (name : String) : ReadsAs '"' (ident name) [.name name] :=
  fun _ h => tokens?_of_quotedToken? (quotedToken?_ident name h)

theorem readsAs_key (name : String) : ReadsAs '\'' (key name) [.literal name] :=
  fun _ h => tokens?_of_quotedToken? (quotedToken?_key name h)

/-- A dot is a token by itself, whatever stands on its sides. -/
theorem ReadsAs.dotted {first second : String} {before after : List Token}
    (hfirst : ReadsAs '"' first before) (hsecond : ReadsAs '"' second after) :
    ReadsAs '"' (first ++ "." ++ second) (before ++ .mark '.' :: after) := by
  intro following h
  have hdot : (("." ++ (second ++ following)) : String).toList =
      '.' :: (second ++ following).toList := by
    rw [String.toList_append]
    rfl
  have hmark : tokens? ('.' :: (second ++ following).toList) =
      (tokens? (second ++ following).toList).map ([.mark '.'] ++ ·) := tokens?_of_run _ rfl
  have hnames := hfirst ("." ++ (second ++ following)) (by simp [hdot])
  rw [hdot, hmark, hsecond following h] at hnames
  rw [String.append_assoc, String.append_assoc, hnames]
  simp [Function.comp_def]

theorem readsAs_names (names : List String) :
    ReadsAs '"' (".".intercalate (names.map ident)) (dottedTokens names) := by
  induction names with
  | nil =>
    intro following _
    simp [dottedTokens]
  | cons name names ih =>
    cases names with
    | nil => simpa [dottedTokens] using readsAs_ident name
    | cons next names =>
      have htokens : dottedTokens (name :: next :: names) =
          [.name name] ++ .mark '.' :: dottedTokens (next :: names) := rfl
      rw [List.map_cons, List.map_cons, String.intercalate_cons_cons, ← List.map_cons, htokens]
      exact (readsAs_ident name).dotted ih

/-! ## Parts of storage texts -/

/-- Texts without dots are the parts of what they are joined to. -/
theorem dotted_intercalate : {texts : List (List Char)} → texts ≠ [] →
    (∀ text ∈ texts, '.' ∉ text) → dotted (['.'].intercalate texts) = texts
  | [text], _, h => by
    rw [List.intercalate_singleton, dotted_of_notMem (h text (List.mem_singleton_self text))]
  | text :: next :: texts, _, h => by
    obtain ⟨htext, htexts⟩ := List.forall_mem_cons.mp h
    have hlater := dotted_intercalate (List.cons_ne_nil next texts) htexts
    have hjoined : ['.'].intercalate (text :: next :: texts) =
        text ++ '.' :: ['.'].intercalate (next :: texts) := by
      simp [List.intercalate_cons_cons]
    rw [hjoined, dotted_append htext, hlater]

/-- The parts of a storage text are the names without dots that it is put together from. -/
theorem parts_eq_iff_intercalate {storage : String} {names : List String} :
    parts storage = names ↔
      names ≠ [] ∧ (∀ name ∈ names, Undotted name) ∧ ".".intercalate names = storage := by
  have hdot : ".".toList = ['.'] := rfl
  constructor
  · rintro rfl
    refine ⟨parts_ne_nil storage, fun name hname => ?_, String.toList_inj.mp ?_⟩
    · obtain ⟨part, hpart, rfl⟩ := List.mem_map.mp hname
      rw [Undotted, String.toList_ofList]
      exact undotted_of_mem_dotted storage.toList part hpart
    · have hparts : (parts storage).map String.toList = dotted storage.toList := by
        simp [parts, Function.comp_def]
      rw [String.toList_intercalate, hdot, hparts, intercalate_dotted]
  · rintro ⟨hne, hundotted, rfl⟩
    have hdotted : dotted (".".intercalate names).toList = names.map String.toList := by
      rw [String.toList_intercalate, hdot]
      refine dotted_intercalate (by simpa using hne) ?_
      simpa [Undotted] using hundotted
    rw [parts, hdotted, List.map_map]
    simp [Function.comp_def]

/-- A storage text is the only one with its parts. -/
theorem parts_injective : Function.Injective parts := by
  intro first second h
  obtain ⟨-, -, hfirst⟩ := parts_eq_iff_intercalate.mp h
  obtain ⟨-, -, hsecond⟩ := parts_eq_iff_intercalate.mp (Eq.refl (parts second))
  rw [← hfirst, hsecond]

/-! ## Names and their quoted texts -/

/-- Quoted names and keys are single tokens, and what follows them is left as it is; texts of
several names are read as these names. So quoting forgets nothing. -/
theorem quoted_names_read_back :
    (∀ name following : String, following.toList.head? ≠ some '"' →
      quotedToken? (ident name ++ following).toList = some (.name name, following.toList)) ∧
    (∀ name following : String, following.toList.head? ≠ some '\'' →
      quotedToken? (key name ++ following).toList = some (.literal name, following.toList)) ∧
    (∀ text token rest, quotedToken? text = some (token, rest) →
      tokens? text = (tokens? rest).map (token :: ·)) ∧
    (∀ tableAlias column, ReadsAs '"' (qualified tableAlias column)
      [.name tableAlias, .mark '.', .name column]) ∧
    (∀ storage, ReadsAs '"' (table storage) (dottedTokens (parts storage)) ∧
      ∀ names, parts storage = names ↔
        names ≠ [] ∧ (∀ name ∈ names, Undotted name) ∧ ".".intercalate names = storage) ∧
    Function.Injective ident ∧ Function.Injective key ∧ Function.Injective2 qualified ∧
      Function.Injective table := by
  have hqualified : ∀ tableAlias column, ReadsAs '"' (qualified tableAlias column)
      [.name tableAlias, .mark '.', .name column] := fun tableAlias column =>
    (readsAs_ident tableAlias).dotted (readsAs_ident column)
  refine ⟨fun name _ => quotedToken?_ident name, fun name _ => quotedToken?_key name,
    fun _ _ _ => tokens?_of_quotedToken?, hqualified,
    fun storage => ⟨readsAs_names (parts storage), fun _ => parts_eq_iff_intercalate⟩,
    ?ident, ?key, ?qualified, ?table⟩
  case ident =>
    intro name other h
    have htokens := (readsAs_ident name).tokens?_eq
    rw [h, (readsAs_ident other).tokens?_eq] at htokens
    simpa using htokens.symm
  case key =>
    intro name other h
    have htokens := (readsAs_key name).tokens?_eq
    rw [h, (readsAs_key other).tokens?_eq] at htokens
    simpa using htokens.symm
  case qualified =>
    intro tableAlias otherAlias column other h
    have htokens := (hqualified tableAlias column).tokens?_eq
    rw [h, (hqualified otherAlias other).tokens?_eq] at htokens
    simpa [eq_comm] using htokens
  case table =>
    intro storage other h
    exact parts_injective (quoted_inj h)

/-- Quotes of both kinds stay inside a name, and an alias behind it is read on its own. -/
theorem quotes_in_names_read_back :
    quotedToken? (ident "\"a\"\"b'" ++ " AS d0").toList =
      some (.name "\"a\"\"b'", " AS d0".toList) ∧
    quotedToken? (key "'a'b\"" ++ ", d0").toList = some (.literal "'a'b\"", ", d0".toList) ∧
    tokens? (ident "a\"" ++ ".").toList = some [.name "a\"", .mark '.'] ∧
    parts "main.a\"b" = ["main", "a\"b"] := by
  obtain ⟨hident, hkey, hfirst, -, htable, -⟩ := quoted_names_read_back
  refine ⟨hident _ _ (by decide), hkey _ _ (by decide), ?_, ?_⟩
  · exact hfirst _ _ _ (hident "a\"" "." (by decide))
  · exact ((htable "main.a\"b").2 _).mpr ⟨by decide, by decide, by decide⟩

/-- A quote behind a name would be read as part of it. -/
example : quotedToken? (ident "a" ++ "\"b\"").toList = some (.name "a\"b", []) := by decide

end NestedSql.Sql
