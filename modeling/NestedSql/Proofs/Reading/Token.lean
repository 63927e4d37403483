import NestedSql.Sql.Name
import NestedSql.Sql.Param

/-!
# Tokens of SQL text

A reader of SQL text cuts it into quoted names, string literals, words, comparison signs and single
marks. The reader is a machine that steps through the characters: a quote inside quoted text is
written twice, and words and signs are as long as they can be. Values are handed to the question
marks from left to right. The lemmas say what a piece of text leaves behind, so that the tokens of
a text are the tokens of its pieces. Which texts are meaningful is not decided here.
-/

namespace NestedSql.Sql

/-- A token. A value stands where the text has a question mark. -/
inductive Token where
  | name (text : String)
  | literal (text : String)
  | word (text : String)
  | sign (text : String)
  | mark (c : Char)
  | value (param : Param)
deriving DecidableEq

def Token.quoted (quote : Char) (text : List Char) : Token :=
  if quote = '"' then .name (String.ofList text) else .literal (String.ofList text)

def isQuote (c : Char) : Bool := c = '"' || c = '\''

def isWordChar (c : Char) : Bool := c.isAlphanum || c = '_'

def isSignChar (c : Char) : Bool := c ∈ ['=', '!', '<', '>']

/-- The token a reader stands in, with the characters read of it. -/
inductive Pending where
  | nothing
  | word (text : List Char)
  | sign (text : List Char)
  | inside (quote : Char) (text : List Char)
  | behind (quote : Char) (text : List Char)

namespace Pending

/-- The token if it ends here. -/
def tokens : Pending → List Token
  | nothing | inside _ _ => []
  | word text => [.word (String.ofList text)]
  | sign text => [.sign (String.ofList text)]
  | behind quote text => [.quoted quote text]

/-- No quote is open. -/
def IsWhole : Pending → Prop
  | inside _ _ => False
  | behind quote _ => isQuote quote = true
  | _ => True

/-- The token with one more character, if the character belongs to it. -/
def extend : Pending → Char → Option Pending
  | nothing, _ => none
  | word text, c => if isWordChar c then some (word (text ++ [c])) else none
  | sign text, c => if isSignChar c then some (sign (text ++ [c])) else none
  | inside quote text, c =>
    some (if c = quote then behind quote text else inside quote (text ++ [c]))
  | behind quote text, c => if c = quote then some (inside quote (text ++ [c])) else none

/-- What a character begins, and the token it is by itself. -/
def start (c : Char) : Pending × List Token :=
  if isQuote c then (inside c [], [])
  else if isWordChar c then (word [c], [])
  else if isSignChar c then (sign [c], [])
  else if c = ' ' then (nothing, [])
  else (nothing, [.mark c])

def step (pending : Pending) (c : Char) : Pending × List Token :=
  match pending.extend c with
  | some next => (next, [])
  | none => ((start c).1, pending.tokens ++ (start c).2)

/-- The token a reader stands in after a text, and the tokens that have ended. -/
def run (pending : Pending) : List Char → Pending × List Token
  | [] => (pending, [])
  | c :: rest =>
    let (next, ended) := pending.step c
    let (last, later) := next.run rest
    (last, ended ++ later)

theorem run_append (pending : Pending) (first second : List Char) :
    pending.run (first ++ second) =
      (((pending.run first).1.run second).1,
        (pending.run first).2 ++ ((pending.run first).1.run second).2) := by
  induction first generalizing pending with
  | nil => rfl
  | cons c first ih =>
    simp only [List.cons_append, run, ih, List.append_assoc]

end Pending

/-- The tokens of a text in which every quote is closed. -/
def tokens? (text : List Char) : Option (List Token) :=
  match Pending.run .nothing text with
  | (.inside _ _, _) => none
  | (last, ended) => some (ended ++ last.tokens)

/-- The text is cut into the tokens, the last of which may still grow. -/
def Lexes (text : List Char) (tokens : List Token) : Prop :=
  ∃ last ended, Pending.run .nothing text = (last, ended) ∧ last.IsWhole ∧
    ended ++ last.tokens = tokens

/-- The text is cut into the tokens whatever follows. -/
def LexesWhole (text : List Char) (tokens : List Token) : Prop :=
  Pending.run .nothing text = (.nothing, tokens)

/-- A character that ends every token outside quotes. -/
def isBoundary (c : Char) : Bool := !isQuote c && !isWordChar c && !isSignChar c

/-- The text is empty or begins with a boundary. -/
def AtBoundary (text : List Char) : Prop := ∀ c ∈ text.head?, isBoundary c = true

theorem Lexes.tokens?_eq {text : List Char} {tokens : List Token} (h : Lexes text tokens) :
    tokens? text = some tokens := by
  obtain ⟨last, ended, hr, hw, rfl⟩ := h
  rw [tokens?, hr]
  cases last with
  | inside quote text => exact hw.elim
  | _ => rfl

theorem LexesWhole.lexes {text : List Char} {tokens : List Token} (h : LexesWhole text tokens) :
    Lexes text tokens :=
  ⟨.nothing, tokens, h, trivial, List.append_nil tokens⟩

theorem LexesWhole.append {first second : List Char} {before after : List Token}
    (hf : LexesWhole first before) (hs : Lexes second after) :
    Lexes (first ++ second) (before ++ after) := by
  obtain ⟨last, ended, hr, hw, rfl⟩ := hs
  refine ⟨last, before ++ ended, ?_, hw, List.append_assoc before ended last.tokens⟩
  rw [Pending.run_append, hf, hr]

theorem LexesWhole.append_whole {first second : List Char} {before after : List Token}
    (hf : LexesWhole first before) (hs : LexesWhole second after) :
    LexesWhole (first ++ second) (before ++ after) := by
  rw [LexesWhole, Pending.run_append, hf, hs]

/-- A boundary ends the pending token and is then read as if nothing had been pending. -/
theorem Pending.run_boundary {pending : Pending} (hw : pending.IsWhole) {c : Char}
    (hb : isBoundary c = true) (rest : List Char) :
    pending.run (c :: rest) = ((Pending.run .nothing (c :: rest)).1,
      pending.tokens ++ (Pending.run .nothing (c :: rest)).2) := by
  simp only [isBoundary, Bool.and_eq_true, Bool.not_eq_eq_eq_not, Bool.not_true] at hb
  obtain ⟨⟨hq, hword⟩, hsign⟩ := hb
  have hs : pending.step c = ((start c).1, pending.tokens ++ (start c).2) := by
    cases pending with
    | nothing => rfl
    | word text => simp [step, extend, hword]
    | sign text => simp [step, extend, hsign]
    | inside quote text => exact hw.elim
    | behind quote text =>
      have hne : c ≠ quote := by
        rintro rfl
        exact Bool.false_ne_true (hq.symm.trans hw)
      simp [step, extend, hne]
  have hn : Pending.step .nothing c = start c := rfl
  simp only [run, hs, hn, List.append_assoc]

theorem Lexes.append {first second : List Char} {before after : List Token}
    (hf : Lexes first before) (hb : AtBoundary second) (hs : Lexes second after) :
    Lexes (first ++ second) (before ++ after) := by
  obtain ⟨middle, ended, hr, hw, rfl⟩ := hf
  obtain ⟨last, later, hr', hw', rfl⟩ := hs
  cases second with
  | nil =>
    obtain ⟨rfl, rfl⟩ := Prod.mk.inj hr'
    exact ⟨middle, ended, by rwa [List.append_nil], hw, by simp [Pending.tokens]⟩
  | cons c rest =>
    refine ⟨last, ended ++ (middle.tokens ++ later), ?_, hw', by simp only [List.append_assoc]⟩
    rw [Pending.run_append, hr, Pending.run_boundary hw (hb c rfl), hr']

theorem Lexes.append_whole {first second : List Char} {before after : List Token}
    (hf : Lexes first before) (hb : AtBoundary second) (hne : second ≠ [])
    (hs : LexesWhole second after) : LexesWhole (first ++ second) (before ++ after) := by
  obtain ⟨middle, ended, hr, hw, rfl⟩ := hf
  cases second with
  | nil => exact absurd rfl hne
  | cons c rest =>
    rw [LexesWhole, Pending.run_append, hr, Pending.run_boundary hw (hb c rfl), hs,
      List.append_assoc]

/-! ## Names -/

/-- Inside quotes a doubled name is read character by character. -/
theorem run_inside_doubled (quote : Char) (name read rest : List Char) :
    (Pending.inside quote read).run (doubled quote name ++ quote :: rest) =
      (Pending.behind quote (read ++ name)).run rest := by
  induction name generalizing read with
  | nil => simp [doubled, Pending.run, Pending.step, Pending.extend]
  | cons c name ih =>
    by_cases hc : c = quote
    · subst hc
      have hi := ih (read ++ [c])
      rw [List.append_assoc, List.singleton_append] at hi
      rw [← hi]
      simp [doubled, Pending.run, Pending.step, Pending.extend]
    · have hi := ih (read ++ [c])
      rw [List.append_assoc, List.singleton_append] at hi
      rw [← hi]
      simp [doubled, Pending.run, Pending.step, Pending.extend, hc]

theorem lexes_enclosed {quote : Char} (hq : isQuote quote = true) (name : List Char) :
    Lexes (enclosed quote name) [.quoted quote name] := by
  refine ⟨.behind quote name, [], ?_, hq, rfl⟩
  have hs : Pending.step .nothing quote = (.inside quote [], []) := by
    simp [Pending.step, Pending.extend, Pending.start, Pending.tokens, hq]
  have hr := run_inside_doubled quote name [] []
  rw [enclosed, Pending.run, hs]
  simp only [hr, List.nil_append, Pending.run]

theorem lexes_ident (name : String) : Lexes (ident name).toList [.name name] := by
  have hname : Token.quoted '"' name.toList = .name name := by simp [Token.quoted]
  have h : Lexes (enclosed '"' name.toList) [.quoted '"' name.toList] := lexes_enclosed rfl _
  rwa [hname, ← @String.toList_ofList (enclosed '"' name.toList)] at h

end NestedSql.Sql
