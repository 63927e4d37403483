import NestedSql.Json.Parser
import NestedSql.Json.Text

/-!
# A text determines its document

Compact texts are read from the left without a choice: the first character tells the constructor,
a string ends where its literal is read to its end, and a number ends before the first character
that stands in no number. So two documents with one text are the same, as long as no two different
doubles of theirs are printed alike.
-/

namespace NestedSql

/-! ## Strings -/

/-- A control character is read from the four digits of its code. -/
theorem Written.codeUnit?_control {n : Nat} (h : n < 32) :
    codeUnit? '0' '0' (Text.hexDigit (n / 16)) (Text.hexDigit (n % 16)) = some n := by
  have hhigh := Text.hexValue?_hexDigit (n / 16) (by omega)
  have hlow := Text.hexValue?_hexDigit (n % 16) (by omega)
  have hzero : Text.hexValue? '0' = some 0 := rfl
  rw [codeUnit?, hhigh, hlow, hzero]
  show some (0 * 256 + (n / 16 * 16 + n % 16)) = some n
  rw [Nat.zero_mul, Nat.zero_add, Nat.mul_comm, Nat.div_add_mod]

theorem Written.scanString_plain {c : Char} (hquote : c ≠ '"') (hslash : c ≠ '\\')
    (hcontrol : ¬c.toNat < 32) (rest : List Char) (soFar : Option (List Char)) :
    scanString (c :: rest) soFar = scanString rest (soFar.map (c :: ·)) := by
  rw [scanString]
  · rw [if_neg hcontrol]
  · exact fun h => absurd h hquote
  · exact fun _ _ _ _ _ h _ => absurd h hslash
  · exact fun _ _ h _ => absurd h hslash

/-- An escaped character is read as itself. -/
theorem Written.scanString_escape (c : Char) (rest : List Char) (soFar : Option (List Char)) :
    scanString (Json.escape c ++ rest) soFar = scanString rest (soFar.map (c :: ·)) := by
  unfold Json.escape
  by_cases hquote : c = '"'
  · subst hquote
    rfl
  rw [if_neg hquote]
  by_cases hslash : c = '\\'
  · subst hslash
    rfl
  rw [if_neg hslash]
  split
  · next h =>
    subst h
    rfl
  split
  · next h =>
    subst h
    rfl
  split
  · next h =>
    subst h
    rfl
  split
  · next h =>
    obtain rfl : c = Char.ofNat 8 := by rw [← h, Char.ofNat_toNat]
    rfl
  split
  · next h =>
    obtain rfl : c = Char.ofNat 12 := by rw [← h, Char.ofNat_toNat]
    rfl
  split
  · next h =>
    show scanString ('\\' :: 'u' :: '0' :: '0' :: _ :: _ :: rest) soFar = _
    have hhigh : isHighSurrogate c.toNat = false := by
      rw [isHighSurrogate, Bool.and_eq_false_iff]
      exact .inl (decide_eq_false (by omega))
    have hlow : isLowSurrogate c.toNat = false := by
      rw [isLowSurrogate, Bool.and_eq_false_iff]
      exact .inl (decide_eq_false (by omega))
    rw [scanString, codeUnit?_control h]
    simp only [hhigh, hlow, Bool.false_eq_true, if_false, Char.ofNat_toNat]
  · next h => exact scanString_plain hquote hslash h rest soFar

/-- A literal is read to its end as what it quotes. -/
theorem Written.scanString_quoted (text rest : List Char) : ∀ soFar : List Char,
    scanString (text.flatMap Json.escape ++ '"' :: rest) (some soFar) =
      ⟨some (String.ofList (soFar.reverse ++ text)), rest, true⟩ := by
  induction text with
  | nil =>
    intro soFar
    rw [List.append_nil]
    rfl
  | cons c text ih =>
    intro soFar
    rw [List.flatMap_cons, List.append_assoc, scanString_escape, Option.map_some, ih,
      List.reverse_cons, List.append_assoc, List.singleton_append]

theorem Json.quote_inj {first second : String} {rest others : List Char}
    (h : quote first ++ rest = quote second ++ others) : first = second ∧ rest = others := by
  have hscan : ∀ (text : String) (rest : List Char),
      Written.scanString (text.toList.flatMap escape ++ '"' :: rest) (some []) =
        ⟨some text, rest, true⟩ := fun text rest => by
    rw [Written.scanString_quoted, List.reverse_nil, List.nil_append, String.ofList_toList]
  simp only [quote, List.cons_append, List.append_assoc, List.nil_append, List.cons.injEq,
    true_and] at h
  have hboth := (hscan first rest).symm.trans (h ▸ hscan second others)
  injection hboth with hfound hrest
  exact ⟨Option.some.inj hfound, hrest⟩

/-! ## Numbers -/

namespace Number

/-- The character stands in numbers. -/
def IsCharacter (c : Char) : Prop :=
  c.isDigit = true ∨ c = '-' ∨ c = '+' ∨ c = '.' ∨ c = 'e'

instance (c : Char) : Decidable (IsCharacter c) := inferInstanceAs (Decidable (_ ∨ _))

theorem toList_nat (n : Nat) : (toString n).toList = Nat.toDigits 10 n := by
  have hrepr : toString n = n.repr := rfl
  rw [hrepr, Nat.repr_eq_ofList_toDigits, String.toList_ofList]

theorem toList_negative (n : Nat) :
    (toString (Int.negSucc n)).toList = '-' :: (toString (n + 1)).toList :=
  String.toList_append

theorem ofDigitChars_toDigits (n : Nat) : Nat.ofDigitChars 10 (Nat.toDigits 10 n) 0 = n :=
  Nat.ofDigitChars_toDigits (by decide) (by decide)

theorem nat_ne_nil (n : Nat) : (toString n).toList ≠ [] := by
  rw [toList_nat]
  intro h
  have hn := ofDigitChars_toDigits n
  rw [h] at hn
  obtain rfl : 0 = n := hn
  exact absurd h (by decide)

theorem isDigit_of_mem_nat {n : Nat} {c : Char} (h : c ∈ (toString n).toList) :
    c.isDigit = true := by
  rw [toList_nat] at h
  exact Nat.isDigit_of_mem_toDigits (by decide) (by decide) h

theorem of_mem_integer {value : Int} {c : Char} (h : c ∈ (toString value).toList) :
    c.isDigit = true ∨ c = '-' := by
  cases value with
  | ofNat n => exact .inl (isDigit_of_mem_nat h)
  | negSucc n =>
    rw [toList_negative] at h
    rcases List.mem_cons.mp h with h | h
    · exact .inr h
    · exact .inl (isDigit_of_mem_nat h)

theorem nat_inj {m n : Nat} (h : (toString m).toList = (toString n).toList) : m = n := by
  rw [toList_nat, toList_nat] at h
  rw [← ofDigitChars_toDigits m, h, ofDigitChars_toDigits]

/-- Integers are printed apart. -/
theorem integer_inj {value other : Int}
    (h : (toString value).toList = (toString other).toList) : value = other := by
  have hsign : ∀ m n, (toString (Int.ofNat m)).toList ≠ (toString (Int.negSucc n)).toList := by
    intro m n h
    have hminus : '-' ∈ (toString m).toList := by
      have hm : (toString m).toList = (toString (Int.negSucc n)).toList := h
      rw [hm, toList_negative]
      exact List.mem_cons_self
    exact absurd (isDigit_of_mem_nat hminus) (by decide)
  cases value with
  | ofNat m =>
    cases other with
    | ofNat n => exact congrArg Int.ofNat (nat_inj h)
    | negSucc n => exact absurd h (hsign m n)
  | negSucc m =>
    cases other with
    | ofNat n => exact absurd h.symm (hsign n m)
    | negSucc n =>
      rw [toList_negative, toList_negative] at h
      exact congrArg Int.negSucc (Nat.succ.inj (nat_inj (List.cons.inj h).2))

theorem isDigit_of_mem_zeros {n : Nat} {c : Char} (h : c ∈ List.replicate n '0') :
    c.isDigit = true := by
  rw [List.eq_of_mem_replicate h]
  rfl

theorem of_mem_positional {digits : List Char} {exponent : Int}
    (hdigits : ∀ c ∈ digits, c.isDigit = true) {c : Char}
    (h : c ∈ Double.positional digits exponent) : c.isDigit = true ∨ c = '.' := by
  have hzero : ('0' : Char).isDigit = true := rfl
  unfold Double.positional at h
  split at h
  · simp only [List.mem_cons, List.mem_append] at h
    rcases h with rfl | rfl | h | h
    · exact .inl hzero
    · exact .inr rfl
    · exact .inl (isDigit_of_mem_zeros h)
    · exact .inl (hdigits c h)
  · have hpadded : ∀ n, ∀ c ∈ digits ++ List.replicate n '0', c.isDigit = true := by
      intro n c hc
      rcases List.mem_append.mp hc with hc | hc
      · exact hdigits c hc
      · exact isDigit_of_mem_zeros hc
    rcases List.mem_append.mp h with h | h
    · exact .inl (hpadded _ c (List.mem_of_mem_take h))
    · rcases List.mem_cons.mp h with rfl | h
      · exact .inr rfl
      · split at h
        · rw [List.mem_singleton.mp h]
          exact .inl hzero
        · exact .inl (hpadded _ c (List.mem_of_mem_drop h))

theorem point_mem_positional (digits : List Char) (exponent : Int) :
    '.' ∈ Double.positional digits exponent := by
  unfold Double.positional
  split <;> simp

theorem of_mem_exponential {digits : List Char} {exponent : Int}
    (hdigits : ∀ c ∈ digits, c.isDigit = true) {c : Char}
    (h : c ∈ Double.exponential digits exponent) : IsCharacter c := by
  unfold Double.exponential at h
  simp only [List.mem_append, List.mem_cons] at h
  rcases h with (h | h) | rfl | rfl | h
  · exact .inl (hdigits c (List.mem_of_mem_take h))
  · split at h
    · exact absurd h List.not_mem_nil
    · rcases List.mem_cons.mp h with rfl | h
      · decide
      · exact .inl (hdigits c (List.mem_of_mem_drop h))
  · decide
  · split <;> decide
  · exact .inl (isDigit_of_mem_nat h)

theorem mark_mem_exponential (digits : List Char) (exponent : Int) :
    'e' ∈ Double.exponential digits exponent := by
  unfold Double.exponential
  simp

/-- The two layouts of a double, behind its sign. -/
theorem double_layouts (x : Double) : ∃ sign layout : List Char,
    x.text.toList = sign ++ layout ∧ (∀ c ∈ sign, c = '-') ∧
      ((∃ digits exponent, (∀ c ∈ digits, c.isDigit = true) ∧
          layout = Double.positional digits exponent) ∨
        ∃ digits exponent, (∀ c ∈ digits, c.isDigit = true) ∧
          layout = Double.exponential digits exponent) := by
  have hsign : ∀ c ∈ (if x.negative then ['-'] else []), c = '-' := by
    split <;> simp
  unfold Double.text
  dsimp only
  split
  · have hzero : ∀ c ∈ ['0'], c.isDigit = true := List.forall_mem_singleton.mpr rfl
    exact ⟨_, ['0', '.', '0'], String.toList_ofList, hsign, .inl ⟨['0'], 0, hzero, rfl⟩⟩
  · have hdigits : ∀ c ∈ ((toString x.shortest.digits).toList.reverse.dropWhile
        (· == '0')).reverse, c.isDigit = true := by
      intro c hc
      have hreverse := (List.dropWhile_suffix _).subset (List.mem_reverse.mp hc)
      exact isDigit_of_mem_nat (List.mem_reverse.mp hreverse)
    refine ⟨_, _, String.toList_ofList, hsign, ?_⟩
    split
    · exact .inl ⟨_, _, hdigits, rfl⟩
    · exact .inr ⟨_, _, hdigits, rfl⟩

/-- A double is written with a point or an exponent. -/
theorem mark_mem_double (x : Double) : '.' ∈ x.text.toList ∨ 'e' ∈ x.text.toList := by
  obtain ⟨sign, layout, htext, -, ⟨digits, exponent, -, rfl⟩ | ⟨digits, exponent, -, rfl⟩⟩ :=
    double_layouts x
  · rw [htext]
    exact .inl (List.mem_append_right _ (point_mem_positional digits exponent))
  · rw [htext]
    exact .inr (List.mem_append_right _ (mark_mem_exponential digits exponent))

theorem of_mem_double {x : Double} {c : Char} (h : c ∈ x.text.toList) : IsCharacter c := by
  obtain ⟨sign, layout, htext, hsign, hlayout⟩ := double_layouts x
  rw [htext, List.mem_append] at h
  rcases h with h | h
  · rw [hsign c h]
    decide
  · rcases hlayout with ⟨digits, exponent, hdigits, rfl⟩ | ⟨digits, exponent, hdigits, rfl⟩
    · rcases of_mem_positional hdigits h with hc | rfl
      · exact .inl hc
      · decide
    · exact of_mem_exponential hdigits h

theorem chars_ne_nil (number : Number) : number.chars ≠ [] := by
  cases number with
  | integer value range =>
    cases value with
    | ofNat n => exact nat_ne_nil n
    | negSucc n =>
      show (toString (Int.negSucc n)).toList ≠ []
      rw [toList_negative]
      exact List.cons_ne_nil _ _
  | double x =>
    rcases mark_mem_double x with h | h
    · exact List.ne_nil_of_mem h
    · exact List.ne_nil_of_mem h

/-- Numbers are written with their characters. -/
theorem of_mem_chars {number : Number} {c : Char} (h : c ∈ number.chars) : IsCharacter c := by
  cases number with
  | integer value range => exact (of_mem_integer h).imp_right .inl
  | double x => exact of_mem_double h

/-- No double is written like an integer. -/
theorem integer_ne_double {value : Int} {x : Double} :
    (toString value).toList ≠ x.text.toList := by
  intro h
  rcases mark_mem_double x with hmark | hmark
  · rw [← h] at hmark
    exact absurd (of_mem_integer hmark) (by decide)
  · rw [← h] at hmark
    exact absurd (of_mem_integer hmark) (by decide)

/-- The doubles of a number. -/
def doubles : Number → List Double
  | .integer _ _ => []
  | .double x => [x]

end Number

/-! ## Doubles in documents -/

namespace Json

mutual

/-- The doubles of a value, at all depths. -/
def doubles : Json → List Double
  | .number value => value.doubles
  | .array items => itemDoubles items
  | .object members => memberDoubles members
  | .null | .bool _ | .string _ => []

def itemDoubles : List Json → List Double
  | [] => []
  | item :: items => doubles item ++ itemDoubles items

def memberDoubles : List (String × Json) → List Double
  | [] => []
  | (_, value) :: members => doubles value ++ memberDoubles members

end

/-- No two different doubles of the two lists are printed alike. -/
def PrintedApart (first second : List Double) : Prop :=
  ∀ x ∈ first, ∀ y ∈ second, x.text = y.text → x = y

theorem PrintedApart.left {first more second others : List Double}
    (h : PrintedApart (first ++ more) (second ++ others)) : PrintedApart first second :=
  fun x hx y hy => h x (List.mem_append_left _ hx) y (List.mem_append_left _ hy)

theorem PrintedApart.right {first more second others : List Double}
    (h : PrintedApart (first ++ more) (second ++ others)) : PrintedApart more others :=
  fun x hx y hy => h x (List.mem_append_right _ hx) y (List.mem_append_right _ hy)

end Json

theorem Number.chars_inj {first second : Number}
    (hapart : Json.PrintedApart first.doubles second.doubles) (h : first.chars = second.chars) :
    first = second := by
  cases first with
  | integer value range =>
    cases second with
    | integer other _ =>
      obtain rfl : value = other := integer_inj h
      rfl
    | double y => exact absurd h integer_ne_double
  | double x =>
    cases second with
    | integer other _ => exact absurd h.symm integer_ne_double
    | double y =>
      rw [hapart x (List.mem_singleton_self x) y (List.mem_singleton_self y)
        (String.toList_inj.mp h)]

/-- A number ends before what follows it. -/
def Number.EndsBefore (rest : List Char) : Prop := ∀ c ∈ rest.head?, ¬Number.IsCharacter c

theorem Number.endsBefore_nil : EndsBefore [] := fun _ h => absurd h (Option.not_mem_none _)

theorem Number.append_inj {first second : Number} {rest others : List Char}
    (hapart : Json.PrintedApart first.doubles second.doubles)
    (hrest : EndsBefore rest) (hothers : EndsBefore others)
    (h : first.chars ++ rest = second.chars ++ others) : first = second ∧ rest = others := by
  have htake : ∀ (number : Number) {rest : List Char}, EndsBefore rest →
      (number.chars ++ rest).takeWhile (fun c => decide (IsCharacter c)) = number.chars := by
    intro number rest hrest
    rw [List.takeWhile_append_of_pos fun c hc => decide_eq_true (of_mem_chars hc)]
    cases rest with
    | nil => exact List.append_nil _
    | cons c rest =>
      rw [List.takeWhile_cons_of_neg (by simpa using hrest c rfl), List.append_nil]
  have hchars : first.chars = second.chars := by
    rw [← htake first hrest, h, htake second hothers]
  refine ⟨chars_inj hapart hchars, ?_⟩
  rwa [hchars, List.append_cancel_left_eq] at h

/-! ## Documents -/

namespace Json

/-- What the first character of a text tells: a digit for all numbers, one letter for both
truth values. -/
def told (c : Char) : Char :=
  if Number.IsCharacter c then '0' else if c = 'f' then 't' else c

/-- What the texts of a constructor begin with. -/
def opening : Json → Char
  | .null => 'n'
  | .bool _ => 't'
  | .number _ => '0'
  | .string _ => '"'
  | .array _ => '['
  | .object _ => '{'

theorem chars_opening (value : Json) :
    ∃ c rest, value.chars = c :: rest ∧ told c = value.opening := by
  have htold : told 'n' = 'n' ∧ told 't' = 't' ∧ told 'f' = 't' ∧ told '"' = '"' ∧
      told '[' = '[' ∧ told '{' = '{' := by decide
  obtain ⟨hn, ht, hf, hquote, harray, hobject⟩ := htold
  cases value with
  | null => exact ⟨_, _, rfl, hn⟩
  | bool value =>
    cases value with
    | true => exact ⟨_, _, rfl, ht⟩
    | false => exact ⟨_, _, rfl, hf⟩
  | number value =>
    obtain ⟨c, rest, hchars⟩ := List.exists_cons_of_ne_nil (Number.chars_ne_nil value)
    have hmem : c ∈ value.chars := hchars ▸ List.mem_cons_self
    exact ⟨c, rest, hchars, if_pos (Number.of_mem_chars hmem)⟩
  | string value => exact ⟨_, _, rfl, hquote⟩
  | array items => cases items <;> exact ⟨_, _, rfl, harray⟩
  | object members =>
    obtain - | ⟨⟨name, value⟩, members⟩ := members <;> exact ⟨_, _, rfl, hobject⟩

theorem opening_eq {first second : Json} {rest others : List Char}
    (h : first.chars ++ rest = second.chars ++ others) : first.opening = second.opening := by
  obtain ⟨c, tail, hfirst, hopening⟩ := chars_opening first
  obtain ⟨d, later, hsecond, hother⟩ := chars_opening second
  rw [hfirst, hsecond, List.cons_append, List.cons_append, List.cons.injEq] at h
  rw [← hopening, ← hother, h.1]

/-- No document begins with a closing bracket. -/
theorem chars_ne_bracket (value : Json) (rest others : List Char) :
    value.chars ++ rest ≠ ']' :: others := by
  intro h
  obtain ⟨c, tail, hchars, hopening⟩ := chars_opening value
  rw [hchars, List.cons_append, List.cons.injEq] at h
  rw [h.1] at hopening
  have htold : told ']' = ']' := by decide
  rw [htold] at hopening
  cases value <;> simp [opening] at hopening

theorem endsBefore_tailItems (items : List Json) (rest : List Char) :
    Number.EndsBefore (tailItems items ++ rest) := by
  cases items <;> rintro c ⟨⟩ <;> decide

theorem endsBefore_tailMembers (members : List (String × Json)) (rest : List Char) :
    Number.EndsBefore (tailMembers members ++ rest) := by
  obtain - | ⟨⟨name, value⟩, members⟩ := members <;> rintro c ⟨⟩ <;> decide

/-- The brackets of arrays tell no more than the commas behind their items. -/
theorem tailItems_of_array {first second : List Json} {rest others : List Char}
    (h : chars (.array first) ++ rest = chars (.array second) ++ others) :
    tailItems first ++ rest = tailItems second ++ others := by
  cases first with
  | nil =>
    cases second with
    | nil => exact (List.cons.inj h).2
    | cons item items =>
      have htail : ']' :: rest = chars item ++ tailItems items ++ others := (List.cons.inj h).2
      rw [List.append_assoc] at htail
      exact absurd htail.symm (chars_ne_bracket item _ _)
  | cons item items =>
    cases second with
    | nil =>
      have htail : chars item ++ tailItems items ++ rest = ']' :: others := (List.cons.inj h).2
      rw [List.append_assoc] at htail
      exact absurd htail (chars_ne_bracket item _ _)
    | cons other others => exact congrArg (',' :: ·) (List.cons.inj h).2

theorem tailMembers_of_object {first second : List (String × Json)} {rest others : List Char}
    (h : chars (.object first) ++ rest = chars (.object second) ++ others) :
    tailMembers first ++ rest = tailMembers second ++ others := by
  cases first with
  | nil =>
    cases second with
    | nil => exact (List.cons.inj h).2
    | cons member members => exact absurd (List.cons.inj (List.cons.inj h).2).1 (by decide)
  | cons member members =>
    cases second with
    | nil => exact absurd (List.cons.inj (List.cons.inj h).2).1 (by decide)
    | cons other others => exact congrArg (',' :: ·) (List.cons.inj h).2

mutual

/-- A text begins with one document only, and leaves one rest. -/
theorem chars_inj : (first second : Json) → PrintedApart first.doubles second.doubles →
    {rest others : List Char} → Number.EndsBefore rest → Number.EndsBefore others →
      first.chars ++ rest = second.chars ++ others → first = second ∧ rest = others
  | .null, second, _, _, _, _, _, h => by
    have hopening := opening_eq h
    cases second with
    | null => exact ⟨rfl, List.append_cancel_left h⟩
    | _ => simp [opening] at hopening
  | .bool value, second, _, _, _, _, _, h => by
    have hopening := opening_eq h
    cases second with
    | bool other =>
      cases value with
      | true =>
        cases other with
        | true => exact ⟨rfl, List.append_cancel_left h⟩
        | false => exact absurd (List.cons.inj h).1 (by decide)
      | false =>
        cases other with
        | true => exact absurd (List.cons.inj h).1 (by decide)
        | false => exact ⟨rfl, List.append_cancel_left h⟩
    | _ => simp [opening] at hopening
  | .number value, second, hapart, _, _, hrest, hothers, h => by
    have hopening := opening_eq h
    cases second with
    | number other =>
      obtain ⟨rfl, hrest⟩ := Number.append_inj hapart hrest hothers h
      exact ⟨rfl, hrest⟩
    | _ => simp [opening] at hopening
  | .string value, second, _, _, _, _, _, h => by
    have hopening := opening_eq h
    cases second with
    | string other =>
      obtain ⟨rfl, hrest⟩ := quote_inj h
      exact ⟨rfl, hrest⟩
    | _ => simp [opening] at hopening
  | .array items, second, hapart, _, _, _, _, h => by
    have hopening := opening_eq h
    cases second with
    | array found =>
      obtain ⟨rfl, hrest⟩ := tailItems_inj items found hapart (tailItems_of_array h)
      exact ⟨rfl, hrest⟩
    | _ => simp [opening] at hopening
  | .object members, second, hapart, _, _, _, _, h => by
    have hopening := opening_eq h
    cases second with
    | object found =>
      obtain ⟨rfl, hrest⟩ := tailMembers_inj members found hapart (tailMembers_of_object h)
      exact ⟨rfl, hrest⟩
    | _ => simp [opening] at hopening

theorem tailItems_inj : (first second : List Json) →
    PrintedApart (itemDoubles first) (itemDoubles second) → {rest others : List Char} →
      tailItems first ++ rest = tailItems second ++ others → first = second ∧ rest = others
  | [], [], _, _, _, h => ⟨rfl, List.append_cancel_left h⟩
  | [], _ :: _, _, _, _, h => absurd (List.cons.inj h).1 (by decide)
  | _ :: _, [], _, _, _, h => absurd (List.cons.inj h).1 (by decide)
  | item :: items, other :: found, hapart, rest, others, h => by
    have htail : chars item ++ tailItems items ++ rest = chars other ++ tailItems found ++ others :=
      (List.cons.inj h).2
    rw [List.append_assoc, List.append_assoc] at htail
    obtain ⟨rfl, hitems⟩ := chars_inj item other hapart.left (endsBefore_tailItems _ _)
      (endsBefore_tailItems _ _) htail
    obtain ⟨rfl, hrest⟩ := tailItems_inj items found hapart.right hitems
    exact ⟨rfl, hrest⟩

theorem tailMembers_inj : (first second : List (String × Json)) →
    PrintedApart (memberDoubles first) (memberDoubles second) → {rest others : List Char} →
      tailMembers first ++ rest = tailMembers second ++ others → first = second ∧ rest = others
  | [], [], _, _, _, h => ⟨rfl, List.append_cancel_left h⟩
  | [], (_, _) :: _, _, _, _, h => absurd (List.cons.inj h).1 (by decide)
  | (_, _) :: _, [], _, _, _, h => absurd (List.cons.inj h).1 (by decide)
  | (name, value) :: members, (key, other) :: found, hapart, rest, others, h => by
    have hname : quote name ++ ':' :: (chars value ++ tailMembers members) ++ rest =
        quote key ++ ':' :: (chars other ++ tailMembers found) ++ others := (List.cons.inj h).2
    rw [List.append_assoc, List.append_assoc] at hname
    obtain ⟨rfl, hcolon⟩ := quote_inj hname
    have htail : chars value ++ tailMembers members ++ rest =
        chars other ++ tailMembers found ++ others := (List.cons.inj hcolon).2
    rw [List.append_assoc, List.append_assoc] at htail
    obtain ⟨rfl, hmembers⟩ := chars_inj value other hapart.left (endsBefore_tailMembers _ _)
      (endsBefore_tailMembers _ _) htail
    obtain ⟨rfl, hrest⟩ := tailMembers_inj members found hapart.right hmembers
    exact ⟨rfl, hrest⟩

end

/-- Documents with one text are the same. -/
theorem text_inj {first second : Json} (hapart : PrintedApart first.doubles second.doubles)
    (h : first.text = second.text) : first = second := by
  have hchars : first.chars ++ [] = second.chars ++ [] := by
    rw [List.append_nil, List.append_nil]
    exact String.ofList_injective h
  exact (chars_inj first second hapart Number.endsBefore_nil Number.endsBefore_nil hchars).1

end Json

end NestedSql
