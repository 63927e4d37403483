import NestedSql.Proofs.Influence.Requests
import NestedSql.Proofs.Reading.Token
import NestedSql.Proofs.Text.ClosedStatements

/-!
# Texts that differ in the literals of names

Two texts are cut into tokens side by side. They are alike under a renaming when the tokens are the
same one by one, but for the literals of the renamed keys, and when all characters outside these
literals are the same too. The relation is stated for a reader that comes from any text in front,
so that the statements put together from alike parts are alike. A literal has to be read as a token
of its own; keys stand behind a mark, where nothing is pending, and have a comma behind them.
-/

namespace NestedSql

namespace Sql

/-! ## Tokens and characters -/

/-- The tokens are the same one by one, but each renamed key is the literal of its new name. -/
inductive Token.SameBut : Renaming → List Token → List Token → Prop
  | nil : Token.SameBut [] [] []
  | same {names : Renaming} {before after : List Token} (token : Token) :
      Token.SameBut names before after → Token.SameBut names (token :: before) (token :: after)
  | renamed {names : Renaming} {before after : List Token} (old new : String) :
      Token.SameBut names before after →
        Token.SameBut ((old, new) :: names) (.literal old :: before) (.literal new :: after)

/-- The characters are the same one by one, but each renamed key has its new name between the
quotes. -/
inductive Rewritten : Renaming → List Char → List Char → Prop
  | nil : Rewritten [] [] []
  | same {names : Renaming} {before after : List Char} (c : Char) :
      Rewritten names before after → Rewritten names (c :: before) (c :: after)
  | renamed {names : Renaming} {before after : List Char} (old new : String) :
      Rewritten names before after →
        Rewritten ((old, new) :: names) ((key old).toList ++ before) ((key new).toList ++ after)

theorem Token.SameBut.refl (tokens : List Token) : Token.SameBut [] tokens tokens := by
  induction tokens with
  | nil => exact .nil
  | cons token tokens ih => exact .same token ih

theorem Token.SameBut.append {names others : Renaming} {before after later last : List Token}
    (h : Token.SameBut names before after) (hrest : Token.SameBut others later last) :
    Token.SameBut (names ++ others) (before ++ later) (after ++ last) := by
  induction h with
  | nil => exact hrest
  | same token _ ih => exact .same token ih
  | renamed old new _ ih => exact .renamed old new ih

theorem Rewritten.refl (text : List Char) : Rewritten [] text text := by
  induction text with
  | nil => exact .nil
  | cons c text ih => exact .same c ih

theorem Rewritten.append {names others : Renaming} {before after later last : List Char}
    (h : Rewritten names before after) (hrest : Rewritten others later last) :
    Rewritten (names ++ others) (before ++ later) (after ++ last) := by
  induction h with
  | nil => exact hrest
  | same c _ ih => exact .same c ih
  | renamed old new _ ih =>
    rw [List.append_assoc, List.append_assoc]
    exact .renamed old new ih

/-- Where every name is kept the text is the same. -/
theorem Rewritten.eq_of_isKept {names : Renaming} {before after : List Char}
    (h : Rewritten names before after) (hkept : names.IsKept) : before = after := by
  induction h with
  | nil => rfl
  | same c _ ih => rw [ih hkept]
  | renamed old new _ ih =>
    obtain ⟨hname, hrest⟩ := List.forall_mem_cons.mp hkept
    dsimp only at hname
    rw [hname, ih hrest]

/-! ## Readers outside quotes -/

namespace Pending

open Statement (Quotation)

/-- The quotation that a reader stands in. -/
def StandsIn : Pending → Quotation → Prop
  | inside quote _, quotation => quotation = some quote ∧ isQuote quote = true
  | behind quote _, quotation => quotation = none ∧ isQuote quote = true
  | nothing, quotation | word _, quotation | sign _, quotation => quotation = none

theorem isWhole_iff {pending : Pending} : pending.IsWhole ↔ pending.StandsIn none := by
  cases pending <;> simp [IsWhole, StandsIn]

theorem start_standsIn (c : Char) : (start c).1.StandsIn (Quotation.step none c) := by
  have hquote : (c = '\'' ∨ c = '"') ↔ isQuote c = true := by simp [isQuote, or_comm]
  rw [start, Quotation.step]
  by_cases h : isQuote c = true
  · simp [h, hquote, StandsIn]
  · simp only [h, hquote, if_false, Bool.false_eq_true]
    split
    · rfl
    · split
      · rfl
      · split <;> rfl

theorem step_standsIn {pending : Pending} {quotation : Quotation}
    (h : pending.StandsIn quotation) (c : Char) :
    (pending.step c).1.StandsIn (Quotation.step quotation c) := by
  have hstart := start_standsIn c
  cases pending with
  | nothing =>
    obtain rfl := h
    exact hstart
  | word text =>
    obtain rfl := h
    by_cases hc : isWordChar c = true
    · have hnone : Quotation.step none c = none := by
        rw [Quotation.step, if_neg]
        rintro (rfl | rfl) <;> exact absurd hc (by decide)
      simp [step, extend, hc, StandsIn, hnone]
    · simpa [step, extend, hc] using hstart
  | sign text =>
    obtain rfl := h
    by_cases hc : isSignChar c = true
    · have hnone : Quotation.step none c = none := by
        rw [Quotation.step, if_neg]
        rintro (rfl | rfl) <;> exact absurd hc (by decide)
      simp [step, extend, hc, StandsIn, hnone]
    · simpa [step, extend, hc] using hstart
  | inside quote text =>
    obtain ⟨rfl, hquote⟩ := h
    by_cases hc : c = quote
    · simp [step, extend, hc, StandsIn, Quotation.step, hquote]
    · simp [step, extend, hc, StandsIn, Quotation.step, hquote]
  | behind quote text =>
    obtain ⟨rfl, hquote⟩ := h
    by_cases hc : c = quote
    · have hopen : c = '\'' ∨ c = '"' := by simpa [isQuote, hc, or_comm] using hquote
      simp [step, extend, hc, StandsIn, Quotation.step, hquote, hc ▸ hopen]
    · simpa [step, extend, hc] using hstart

theorem run_standsIn {pending : Pending} {quotation : Quotation}
    (h : pending.StandsIn quotation) (text : List Char) :
    (pending.run text).1.StandsIn (Quotation.after quotation text) := by
  induction text generalizing pending quotation with
  | nil => exact h
  | cons c text ih => exact ih (step_standsIn h c)

/-- A text that closes its quotes leaves a reader whole. -/
theorem run_isWhole {pending : Pending} (h : pending.IsWhole) {text : List Char}
    (htext : Quotation.after none text = none) : (pending.run text).1.IsWhole := by
  have hrun := run_standsIn (isWhole_iff.mp h) text
  rw [htext] at hrun
  exact isWhole_iff.mpr hrun

end Pending

/-- Nothing is pending behind the text. -/
def Detaches (text : String) : Prop :=
  ∀ pending : Pending, pending.IsWhole → (pending.run text.toList).1 = .nothing

/-- A boundary at the end of a text that closes its quotes leaves nothing pending. -/
theorem detaches (text : String) (c : Char) (hb : isBoundary c = true)
    (h : Statement.Quotation.after none text.toList = none) : Detaches (text ++ c.toString) := by
  intro pending hpending
  have hstart : (Pending.start c).1 = .nothing := by
    simp only [isBoundary, Bool.and_eq_true, Bool.not_eq_eq_eq_not, Bool.not_true] at hb
    obtain ⟨⟨hq, hword⟩, hsign⟩ := hb
    simp only [Pending.start, hq, hword, hsign, if_false, Bool.false_eq_true]
    split <;> rfl
  have hlast : (Pending.run .nothing [c]).1 = .nothing := hstart
  rw [String.toList_append, Pending.run_append]
  have htail : c.toString.toList = [c] := by simp
  rw [htail, Pending.run_boundary (Pending.run_isWhole hpending h) hb [], hlast]

end Sql

/-! ## Statements -/

namespace Statement

open Sql (Pending Token Rewritten Detaches)

/-- Texts that differ in no character, and as many values. -/
structure Same (first second : Statement) : Prop where
  sql : first.sql = second.sql
  params : first.params.length = second.params.length

/-- What a reader of one kind finds in both statements: the same tokens but for the renamed keys,
and the same place to go on from. -/
structure AlikeFrom (entry : Pending → Prop) (names : Renaming) (first second : Statement) :
    Prop where
  tokens : ∀ pending, entry pending → ∃ last before after, last.IsWhole ∧
    pending.run first.sql.toList = (last, before) ∧
    pending.run second.sql.toList = (last, after) ∧ Token.SameBut names before after
  text : Rewritten names first.sql.toList second.sql.toList
  params : first.params.length = second.params.length

/-- The statements are alike for every reader that is not inside quotes. -/
abbrev Alike (names : Renaming) (first second : Statement) : Prop :=
  AlikeFrom Pending.IsWhole names first second

/-- The statements are alike for a reader with nothing pending. -/
abbrev AlikeBehindMark (names : Renaming) (first second : Statement) : Prop :=
  AlikeFrom (· = .nothing) names first second

section Composition

variable {entry : Pending → Prop} {names others : Renaming}
  {first second later last : Statement}

theorem Alike.behindMark (h : Alike names first second) : AlikeBehindMark names first second where
  tokens pending hpending := h.tokens pending (hpending ▸ trivial)
  text := h.text
  params := h.params

/-- What two statements with the same text and closed quotes are to a reader. -/
theorem Same.alike (h : Same first second)
    (hclosed : Quotation.after none first.sql.toList = none) : Alike [] first second where
  tokens pending hpending := by
    refine ⟨_, _, _, Pending.run_isWhole hpending hclosed, rfl, ?_, .refl _⟩
    rw [h.sql]
  text := by
    rw [h.sql]
    exact .refl _
  params := h.params

theorem Same.refl (statement : Statement) : statement.Same statement := ⟨rfl, rfl⟩

theorem Closed.after_sql {statement : Statement} (h : statement.Closed) :
    Quotation.after none statement.sql.toList = none := h.lexicallyClosed.outside

theorem Closed.alike {statement : Statement} (h : statement.Closed) :
    Alike [] statement statement :=
  (Same.refl statement).alike h.after_sql

theorem alike_raw {text : String} (h : Quotation.after none text.toList = none) :
    Alike [] (raw text) (raw text) :=
  (Same.refl (raw text)).alike h

theorem AlikeFrom.append (h : AlikeFrom entry names first second)
    (hrest : Alike others later last) :
    AlikeFrom entry (names ++ others) (first ++ later) (second ++ last) where
  tokens pending hpending := by
    obtain ⟨middle, before, after, hmiddle, hf, hs, htokens⟩ := h.tokens pending hpending
    obtain ⟨final, more, rest, hfinal, hl, hr, hmore⟩ := hrest.tokens middle hmiddle
    refine ⟨final, before ++ more, after ++ rest, hfinal, ?_, ?_, htokens.append hmore⟩
    · rw [sql_append, String.toList_append, Pending.run_append, hf, hl]
    · rw [sql_append, String.toList_append, Pending.run_append, hs, hr]
  text := by
    rw [sql_append, sql_append, String.toList_append, String.toList_append]
    exact h.text.append hrest.text
  params := by
    rw [params_append, params_append, List.length_append, List.length_append, h.params,
      hrest.params]

theorem AlikeFrom.append_same (h : AlikeFrom entry names first second)
    (hrest : Alike [] later last) : AlikeFrom entry names (first ++ later) (second ++ last) := by
  have happend := h.append hrest
  rwa [List.append_nil] at happend

/-- Behind a text that leaves nothing pending, statements need to be alike only there. -/
theorem AlikeFrom.append_mark (h : AlikeFrom entry names first second) {text : String}
    (hdetaches : Detaches text) (hrest : AlikeBehindMark others later last) :
    AlikeFrom entry (names ++ others) (first ++ raw text ++ later) (second ++ raw text ++ last)
    where
  tokens pending hpending := by
    obtain ⟨middle, before, after, hmiddle, hf, hs, htokens⟩ := h.tokens pending hpending
    obtain ⟨final, more, rest, hfinal, hl, hr, hmore⟩ := hrest.tokens .nothing rfl
    have hmark : middle.run text.toList = (.nothing, (middle.run text.toList).2) :=
      Prod.ext (hdetaches middle hmiddle) rfl
    refine ⟨final, before ++ ((middle.run text.toList).2 ++ more),
      after ++ ((middle.run text.toList).2 ++ rest), hfinal, ?_, ?_,
      htokens.append ((Token.SameBut.refl _).append hmore)⟩
    · rw [sql_append, sql_append, raw, String.toList_append, String.toList_append,
        Pending.run_append, Pending.run_append, hf, hmark, hl, List.append_assoc]
    · rw [sql_append, sql_append, raw, String.toList_append, String.toList_append,
        Pending.run_append, Pending.run_append, hs, hmark, hr, List.append_assoc]
  text := by
    simp only [sql_append, raw, String.toList_append, List.append_assoc]
    exact h.text.append ((Rewritten.refl _).append hrest.text)
  params := by
    simp only [params_append, params_raw, List.append_nil, List.length_append, h.params,
      hrest.params]

theorem Alike.parenthesized (h : Alike names first second) :
    Alike names first.parenthesized second.parenthesized :=
  ((alike_raw rfl).append h).append_same (alike_raw rfl)

end Composition

/-- A key behind a mark, with a comma behind it, is a token of its own. -/
theorem alike_key (old new : String) :
    AlikeBehindMark [(old, new)] (raw (Sql.key old ++ ", ")) (raw (Sql.key new ++ ", ")) where
  tokens pending hpending := by
    have hread : ∀ name : String,
        Pending.run .nothing (Sql.key name ++ ", ").toList =
          (.nothing, [.literal name, .mark ',']) := by
      intro name
      have hname : Token.quoted '\'' name.toList = .literal name := by simp [Token.quoted]
      have hkey : Sql.Lexes (Sql.key name).toList [.literal name] := by
        rw [← hname, Sql.key, String.toList_ofList]
        exact Sql.lexes_enclosed rfl _
      have hcomma : Sql.LexesWhole ", ".toList [.mark ','] := rfl
      have hboundary : Sql.AtBoundary ", ".toList := by
        rintro c ⟨⟩
        rfl
      rw [String.toList_append]
      exact hkey.append_whole hboundary (by decide) hcomma
    obtain rfl := hpending
    exact ⟨.nothing, _, _, trivial, hread old, hread new, .renamed old new (.refl _)⟩
  text := by
    rw [raw, raw, String.toList_append, String.toList_append]
    exact .renamed old new (.refl _)
  params := rfl

/-- The tokens and characters of two whole texts are the same but for the renamed keys, and there
are as many values. -/
structure SameBut (names : Renaming) (first second : Statement) : Prop where
  tokens : ∃ before after, Sql.tokens? first.sql.toList = some before ∧
    Sql.tokens? second.sql.toList = some after ∧ Token.SameBut names before after
  text : Rewritten names first.sql.toList second.sql.toList
  params : first.params.length = second.params.length

theorem Alike.sameBut {names : Renaming} {first second : Statement}
    (h : Alike names first second) : first.SameBut names second where
  tokens := by
    obtain ⟨last, before, after, hlast, hf, hs, htokens⟩ := h.tokens .nothing trivial
    refine ⟨before ++ last.tokens, after ++ last.tokens, ?_, ?_, ?_⟩
    · exact Sql.Lexes.tokens?_eq ⟨last, before, hf, hlast, rfl⟩
    · exact Sql.Lexes.tokens?_eq ⟨last, after, hs, hlast, rfl⟩
    · have hwhole := htokens.append (Token.SameBut.refl last.tokens)
      rwa [List.append_nil] at hwhole
  text := h.text
  params := h.params

/-- Where every name is kept the texts are the same. -/
theorem SameBut.sql_eq {names : Renaming} {first second : Statement}
    (h : first.SameBut names second) (hkept : names.IsKept) : first.sql = second.sql :=
  String.ext (h.text.eq_of_isKept hkept)

end Statement

end NestedSql
