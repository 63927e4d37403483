import Mathlib.Data.List.TakeWhile
import NestedSql.Proofs.Documents.Texts

/-!
# Numbers are read back

A number is read up to the first character that cannot stand in it, so what may follow a value in a
document does not change what is read. Integers are read as themselves. Doubles are read by one
product or quotient that need not be exact, so which of them are read as themselves is left open:
`Double.Legible` says it of one double.
-/

namespace NestedSql

/-- The text is empty or begins with what may stand behind a value. -/
def Written.AtEnd (rest : List Char) : Prop := ∀ c ∈ rest.head?, c = ',' ∨ c = ']' ∨ c = '}'

/-- The text of the double is read as it. -/
def Double.Legible (x : Double) : Prop :=
  Written.scanNumber x.text.toList = ⟨.number (.double x), [], true⟩

namespace Written

/-! ## What follows a number -/

section Following

variable {rest : List Char}

theorem AtEnd.cases (h : AtEnd rest) :
    rest = [] ∨ ∃ c more, rest = c :: more ∧ (c = ',' ∨ c = ']' ∨ c = '}') := by
  cases rest with
  | nil => exact .inl rfl
  | cons c more => exact .inr ⟨c, more, rfl, h c rfl⟩

theorem AtEnd.not_isDigit (h : AtEnd rest) : ∀ c ∈ rest.head?, c.isDigit = false := by
  intro c hc
  rcases h c hc with rfl | rfl | rfl <;> rfl

theorem takeWhile_isDigit_append (h : AtEnd rest) (text : List Char) :
    (text ++ rest).takeWhile Char.isDigit = text.takeWhile Char.isDigit := by
  induction text with
  | nil =>
    cases rest with
    | nil => rfl
    | cons c more =>
      rw [List.nil_append, List.takeWhile_cons_of_neg (by simp [h.not_isDigit c rfl])]
      rfl
  | cons c text ih => rw [List.cons_append, List.takeWhile_cons, List.takeWhile_cons, ih]

theorem dropWhile_isDigit_append (h : AtEnd rest) (text : List Char) :
    (text ++ rest).dropWhile Char.isDigit = text.dropWhile Char.isDigit ++ rest := by
  induction text with
  | nil =>
    cases rest with
    | nil => rfl
    | cons c more =>
      rw [List.nil_append, List.dropWhile_cons_of_neg (by simp [h.not_isDigit c rfl])]
      rfl
  | cons c text ih =>
    rw [List.cons_append, List.dropWhile_cons, List.dropWhile_cons, ih]
    split <;> rfl

/-- The sign of an exponent and what stands behind it. -/
def exponentSign : List Char → Bool × List Char
  | '+' :: rest => (false, rest)
  | '-' :: rest => (true, rest)
  | rest => (false, rest)

theorem exponentSign_append {c : Char} {text : List Char} :
    exponentSign (c :: text ++ rest) =
      ((exponentSign (c :: text)).1, (exponentSign (c :: text)).2 ++ rest) := by
  by_cases hplus : c = '+'
  · subst hplus
    rfl
  by_cases hminus : c = '-'
  · subst hminus
    rfl
  have hsign : ∀ text, exponentSign (c :: text) = (false, c :: text) := by
    intro text
    rw [exponentSign]
    · exact fun _ heq => hplus (List.cons.inj heq).1
    · exact fun _ heq => hminus (List.cons.inj heq).1
  rw [List.cons_append, hsign, hsign]
  rfl

theorem scanExponent?_eq (text : List Char) : scanExponent? text =
    if ((exponentSign text).2.takeWhile Char.isDigit).isEmpty then none
    else
      let magnitude : Int := ((exponentSign text).2.takeWhile Char.isDigit).foldl
        (fun value c => value * 10 + digitValue c) 0
      some (if (exponentSign text).1 then -magnitude else magnitude,
        (exponentSign text).2.dropWhile Char.isDigit) := rfl

theorem scanExponent?_append (h : AtEnd rest) {text later : List Char} {exponent : Int}
    (hscan : scanExponent? text = some (exponent, later)) :
    scanExponent? (text ++ rest) = some (exponent, later ++ rest) := by
  cases text with
  | nil => cases hscan
  | cons c text =>
    rw [scanExponent?_eq] at hscan
    rw [scanExponent?_eq, exponentSign_append, takeWhile_isDigit_append h,
      dropWhile_isDigit_append h]
    split at hscan
    · cases hscan
    · next hne =>
      obtain ⟨rfl, rfl⟩ := Prod.mk.inj (Option.some.inj hscan)
      exact if_neg hne

/-- What follows the digits: an exponent that scales them, or the end of the number. -/
def scanScale (plain : Written) (scaled : Int → Written) : List Char → Scan Written
  | c :: rest =>
    if c = 'e' ∨ c = 'E' then
      match scanExponent? rest with
      | some (exponent, rest) => ⟨scaled exponent, rest, true⟩
      | none => ⟨.fault, [], false⟩
    else ⟨plain, c :: rest, true⟩
  | [] => ⟨plain, [], true⟩

theorem scanScale_append (h : AtEnd rest) {plain : Written} {scaled : Int → Written}
    {text later : List Char} {found : Written}
    (hscan : scanScale plain scaled text = ⟨found, later, true⟩) :
    scanScale plain scaled (text ++ rest) = ⟨found, later ++ rest, true⟩ := by
  cases text with
  | nil =>
    obtain ⟨rfl, rfl, -⟩ := Scan.mk.inj hscan
    obtain rfl | ⟨c, more, rfl, hc⟩ := h.cases
    · rfl
    · have hexponent : ¬(c = 'e' ∨ c = 'E') := by
        rcases hc with rfl | rfl | rfl <;> decide
      exact if_neg hexponent
  | cons c text =>
    rw [scanScale] at hscan
    rw [List.cons_append, scanScale]
    split at hscan
    · next hexponent =>
      rw [if_pos hexponent]
      cases hread : scanExponent? text with
      | none =>
        rw [hread] at hscan
        cases (Scan.mk.inj hscan).2.2
      | some part =>
        obtain ⟨exponent, behind⟩ := part
        rw [hread] at hscan
        obtain ⟨rfl, rfl, -⟩ := Scan.mk.inj hscan
        rw [scanExponent?_append h hread]
    · next hexponent =>
      rw [if_neg hexponent]
      obtain ⟨rfl, rfl, -⟩ := Scan.mk.inj hscan
      rfl

theorem scanFraction_point (negative : Bool) (digits text : List Char) :
    scanFraction negative digits ('.' :: text) =
      if (text.takeWhile Char.isDigit).isEmpty then ⟨.fault, [], false⟩
      else
        let s := (Significand.ofWhole digits).withFraction (text.takeWhile Char.isDigit)
        scanScale (ofDecimal negative s 0) (ofDecimal negative s)
          (text.dropWhile Char.isDigit) := by
  rw [scanFraction]
  cases text.dropWhile Char.isDigit <;> rfl

theorem scanFraction_other {text : List Char} (hpoint : ∀ more, text ≠ '.' :: more)
    (negative : Bool) (digits : List Char) :
    scanFraction negative digits text = scanScale (ofWholeNumber negative digits)
      (ofDecimal negative (Significand.ofWhole digits)) text := by
  cases text with
  | nil => rfl
  | cons c text =>
    have hc : c ≠ '.' := fun heq => hpoint text (heq ▸ rfl)
    rw [scanFraction.eq_def]
    split
    · next heq => exact absurd (List.cons.inj heq).1 hc
    · next heq =>
      obtain ⟨rfl, rfl⟩ := List.cons.inj heq
      rfl
    · next heq => cases heq

theorem scanFraction_append (h : AtEnd rest) {negative : Bool} {digits text later : List Char}
    {found : Written} (hscan : scanFraction negative digits text = ⟨found, later, true⟩) :
    scanFraction negative digits (text ++ rest) = ⟨found, later ++ rest, true⟩ := by
  by_cases hpoint : ∃ more, text = '.' :: more
  · obtain ⟨text, rfl⟩ := hpoint
    rw [scanFraction_point] at hscan
    rw [List.cons_append, scanFraction_point, takeWhile_isDigit_append h,
      dropWhile_isDigit_append h]
    split at hscan
    · cases (Scan.mk.inj hscan).2.2
    · next hdigits =>
      rw [if_neg hdigits]
      exact scanScale_append h hscan
  · have hother : ∀ more, text ++ rest ≠ '.' :: more := by
      intro more heq
      cases text with
      | nil =>
        have hhead : '.' ∈ rest.head? := by rw [show rest = '.' :: more from heq]; rfl
        exact absurd (h '.' hhead) (by decide)
      | cons c text =>
        obtain ⟨rfl, -⟩ := List.cons.inj heq
        exact hpoint ⟨text, rfl⟩
    rw [scanFraction_other fun more heq => hpoint ⟨more, heq⟩] at hscan
    rw [scanFraction_other hother]
    exact scanScale_append h hscan

theorem scanDigits_append (h : AtEnd rest) {negative : Bool} {text later : List Char}
    {found : Written} (hscan : scanDigits negative text = ⟨found, later, true⟩) :
    scanDigits negative (text ++ rest) = ⟨found, later ++ rest, true⟩ := by
  unfold scanDigits at hscan ⊢
  rw [takeWhile_isDigit_append h, dropWhile_isDigit_append h]
  dsimp only at hscan ⊢
  cases hdigits : text.takeWhile Char.isDigit with
  | nil =>
    rw [hdigits] at hscan
    cases (Scan.mk.inj hscan).2.2
  | cons first others =>
    rw [hdigits] at hscan
    dsimp only at hscan ⊢
    split at hscan
    · cases (Scan.mk.inj hscan).2.2
    · next hzero =>
      rw [if_neg hzero]
      exact scanFraction_append h hscan

/-- What stands behind a number is left as it is. -/
theorem scanNumber_append (h : AtEnd rest) {text later : List Char} {found : Written}
    (hscan : scanNumber text = ⟨found, later, true⟩) :
    scanNumber (text ++ rest) = ⟨found, later ++ rest, true⟩ := by
  cases text with
  | nil => cases (Scan.mk.inj hscan).2.2
  | cons c text =>
    by_cases hminus : c = '-'
    · subst hminus
      exact scanDigits_append h hscan
    · have hplain : ∀ text, scanNumber (c :: text) = scanDigits false (c :: text) := by
        intro text
        rw [scanNumber]
        exact fun _ heq => hminus (List.cons.inj heq).1
      rw [hplain] at hscan
      rw [List.cons_append, hplain]
      exact scanDigits_append h hscan

end Following

/-! ## Integers -/

theorem digits_no_leading_zero {n : Nat} : ∀ {others : List Char},
    Nat.toDigits 10 n = '0' :: others → others = [] := by
  induction n using Nat.strongRecOn with
  | ind n ih =>
    intro others h
    by_cases hsmall : n < 10
    · rw [Nat.toDigits_of_lt_base hsmall] at h
      exact (List.cons.inj h).2.symm
    · rw [Nat.toDigits_of_base_le (by decide) (by omega)] at h
      cases hdigits : Nat.toDigits 10 (n / 10) with
      | nil => exact absurd hdigits Nat.toDigits_ne_nil
      | cons first more =>
        rw [hdigits] at h
        obtain ⟨rfl, -⟩ := List.cons.inj h
        have hmore := ih (n / 10) (by omega) hdigits
        have hvalue := Nat.ofDigitChars_toDigits (b := 10) (n := n / 10) (by decide) (by decide)
        rw [hdigits, hmore] at hvalue
        have hzero : Nat.ofDigitChars 10 ['0'] 0 = 0 := rfl
        omega

theorem le_ofDigitChars (digits : List Char) :
    ∀ value, value ≤ Nat.ofDigitChars 10 digits value := by
  induction digits with
  | nil => exact fun value => Nat.le_refl value
  | cons c digits ih =>
    intro value
    have hrest := ih (10 * value + (c.toNat - '0'.toNat))
    rw [Nat.ofDigitChars_cons]
    omega

/-- Digits whose value fits are all taken. -/
theorem foldl_wholeDigit (digits : List Char) : ∀ value,
    Nat.ofDigitChars 10 digits value < UInt64.size →
      digits.foldl Significand.wholeDigit ⟨value, 0, false⟩ =
        ⟨Nat.ofDigitChars 10 digits value, 0, false⟩ := by
  induction digits with
  | nil => exact fun value _ => rfl
  | cons c digits ih =>
    intro value hfits
    have hvalue : 10 * value + (c.toNat - '0'.toNat) = value * 10 + digitValue c := by
      rw [Nat.mul_comm]
      rfl
    rw [Nat.ofDigitChars_cons, hvalue] at hfits ⊢
    have hle := le_ofDigitChars digits (value * 10 + digitValue c)
    have hstep : Significand.wholeDigit ⟨value, 0, false⟩ c =
        ⟨value * 10 + digitValue c, 0, false⟩ := by
      refine if_neg ?_
      rintro (hfull | hlarge)
      · cases hfull
      · exact absurd (Nat.lt_of_le_of_lt hle hfits) (Nat.not_lt.mpr hlarge)
    rw [List.foldl_cons, hstep]
    exact ih _ hfits

/-- The digits of a number are read as they are written, with either sign. -/
theorem scanDigits_nat (negative : Bool) (n : Nat) :
    scanDigits negative (toString n).toList =
      ⟨ofWholeNumber negative (toString n).toList, [], true⟩ := by
  have hall : ∀ c ∈ (toString n).toList, c.isDigit = true := fun c => Number.isDigit_of_mem_nat
  have htake : (toString n).toList.takeWhile Char.isDigit = (toString n).toList :=
    List.takeWhile_eq_self_iff.mpr hall
  have hdrop : (toString n).toList.dropWhile Char.isDigit = [] :=
    List.dropWhile_eq_nil_iff.mpr hall
  unfold scanDigits
  rw [htake, hdrop]
  dsimp only
  cases hdigits : (toString n).toList with
  | nil => exact absurd hdigits (Number.nat_ne_nil n)
  | cons first others =>
    refine if_neg ?_
    rintro ⟨rfl, hothers⟩
    rw [Number.toList_nat] at hdigits
    exact hothers (digits_no_leading_zero hdigits)

theorem ofWhole_nat {n : Nat} (h : n < UInt64.size) :
    Significand.ofWhole (toString n).toList = ⟨n, 0, false⟩ := by
  have hvalue := Number.ofDigitChars_toDigits n
  rw [Significand.ofWhole, Number.toList_nat]
  exact (foldl_wholeDigit _ 0 (by rw [hvalue]; exact h)).trans (by rw [hvalue])

theorem ofInt?_eq_some {value : Int} (range : Number.InRange value) :
    Number.ofInt? value = some (.integer value range) := dif_pos range

theorem ofWholeNumber_nat {n : Nat} (range : Number.InRange n) :
    ofWholeNumber false (toString n).toList = .number (.integer n range) := by
  have hsize : n < UInt64.size := by
    have h := range.2
    show n < 18446744073709551616
    omega
  unfold ofWholeNumber
  rw [ofWhole_nat hsize]
  simp only [Bool.false_eq_true, if_false, ofInt?_eq_some range]

theorem ofWholeNumber_negative {n : Nat} (range : Number.InRange (Int.negSucc n)) :
    ofWholeNumber true (toString (n + 1)).toList = .number (.integer (Int.negSucc n) range) := by
  have hbound : n + 1 ≤ 9223372036854775808 := by
    have h := range.1
    omega
  have hsize : n + 1 < UInt64.size := Nat.lt_of_le_of_lt hbound (by decide)
  have hsmall : ¬(n + 1 = 0 ∨ 9223372036854775808 < n + 1) := by omega
  unfold ofWholeNumber
  rw [ofWhole_nat hsize]
  simp only [Bool.false_eq_true, if_false, if_true, if_neg hsmall]
  rw [show -((n + 1 : Nat) : Int) = Int.negSucc n from rfl, ofInt?_eq_some range]

/-- Integers are read as themselves. -/
theorem scanNumber_integer (value : Int) (range : Number.InRange value) :
    scanNumber (toString value).toList = ⟨.number (.integer value range), [], true⟩ := by
  cases value with
  | ofNat n =>
    have hplain : scanNumber (toString n).toList = scanDigits false (toString n).toList := by
      rw [scanNumber]
      intro rest hminus
      have hmem : '-' ∈ (toString n).toList := hminus ▸ List.mem_cons_self
      exact absurd (Number.isDigit_of_mem_nat hmem) (by decide)
    have hnumber : ofWholeNumber false (toString n).toList = .number (.integer n range) :=
      ofWholeNumber_nat range
    exact hplain.trans (by rw [scanDigits_nat, hnumber]; rfl)
  | negSucc n =>
    rw [Number.toList_negative, scanNumber, scanDigits_nat, ofWholeNumber_negative range]

end Written

end NestedSql
