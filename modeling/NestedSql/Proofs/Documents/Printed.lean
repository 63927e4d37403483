import NestedSql.Proofs.Documents.Merged
import NestedSql.Proofs.Documents.Numerals

/-!
# Compact texts are read back

The scanner takes the compact text of a value to the document that writes it and leaves what
follows. The proof goes along the printer: each value, item and member is read from its own piece of
text, and the pieces end where a comma or a closing bracket stands. The calls are bounded by fuel,
and twice the length of a text is enough of it. So a value is parsed from its text as it is, if its
objects name each member once, its doubles are legible and its nesting is within the limit.
-/

namespace NestedSql

namespace Written

open Json (chars tailItems tailMembers quote written writtenItems writtenMembers)

/-! ## Beginnings -/

theorem skipBlank_cons {c : Char} (h : isBlank c = false) (rest : List Char) :
    skipBlank (c :: rest) = c :: rest :=
  List.dropWhile_cons_of_neg (by simp [h])

/-- No value begins with a blank. -/
theorem skipBlank_chars (value : Json) (rest : List Char) :
    skipBlank (value.chars ++ rest) = value.chars ++ rest := by
  obtain ⟨c, text, hchars, hopening⟩ := Json.chars_opening value
  have hmarks : value.opening ∈ ['n', 't', '0', '"', '[', '{'] := by
    cases value <;> simp [Json.opening]
  have hblank : isBlank c = false := by
    rw [isBlank]
    by_contra h
    simp only [Bool.not_eq_false, Bool.or_eq_true, beq_iff_eq] at h
    rw [← hopening] at hmarks
    rcases h with ((rfl | rfl) | rfl) | rfl <;> exact absurd hmarks (by decide)
  rw [hchars, List.cons_append, skipBlank_cons hblank]

theorem atEnd_nil : AtEnd [] := fun _ h => absurd h (Option.not_mem_none _)

theorem atEnd_tailItems (items : List Json) (rest : List Char) :
    AtEnd (tailItems items ++ rest) := by
  cases items <;> rintro c ⟨⟩ <;> decide

theorem atEnd_tailMembers (members : List (String × Json)) (rest : List Char) :
    AtEnd (tailMembers members ++ rest) := by
  obtain - | ⟨⟨name, value⟩, members⟩ := members <;> rintro c ⟨⟩ <;> decide

/-! ## Scalars -/

/-- Numbers are read as themselves if their doubles are. -/
theorem scanNumber_chars {number : Number} (hlegible : ∀ x ∈ number.doubles, x.Legible)
    {rest : List Char} (hrest : AtEnd rest) :
    scanNumber (number.chars ++ rest) = ⟨.number number, rest, true⟩ := by
  cases number with
  | integer value range => exact scanNumber_append hrest (scanNumber_integer value range)
  | double x => exact scanNumber_append hrest (hlegible x (List.mem_singleton_self x))

theorem quote_append (text : String) (rest : List Char) :
    quote text ++ rest = '"' :: (text.toList.flatMap Json.escape ++ '"' :: rest) := by
  rw [quote, List.cons_append, List.append_assoc, List.singleton_append]

theorem scanString_literal (text : String) (rest : List Char) :
    scanString (text.toList.flatMap Json.escape ++ '"' :: rest) (some []) =
      ⟨some text, rest, true⟩ := by
  rw [scanString_quoted, List.reverse_nil, List.nil_append, String.ofList_toList]

theorem scanValue_string (value : String) (rest : List Char) (fuel : Nat) :
    scanValue (fuel + 1) (quote value ++ rest) = ⟨.string value, rest, true⟩ := by
  have hliteral := scanString_literal value rest
  rw [quote_append]
  show (⟨((scanString _ (some [])).found.map Written.string).getD .fault,
    (scanString _ (some [])).rest, (scanString _ (some [])).whole⟩ : Scan Written) = _
  rw [hliteral]
  rfl

theorem scanValue_number {number : Number} (hlegible : ∀ x ∈ number.doubles, x.Legible)
    {rest : List Char} (hrest : AtEnd rest) (fuel : Nat) :
    scanValue (fuel + 1) (number.chars ++ rest) = ⟨.number number, rest, true⟩ := by
  have hskip : skipBlank (number.chars ++ rest) = number.chars ++ rest :=
    skipBlank_chars (.number number) rest
  obtain ⟨c, text, hchars⟩ := List.exists_cons_of_ne_nil (Number.chars_ne_nil number)
  have hc : Number.IsCharacter c := Number.of_mem_chars (hchars ▸ List.mem_cons_self)
  rw [← scanNumber_chars hlegible hrest, scanValue, hskip, hchars, List.cons_append]
  split
  all_goals first
    | next heq => exact absurd ((List.cons.inj heq).1 ▸ hc) (by decide)
    | rfl

/-! ## Arrays and objects -/

section Brackets

variable {text : List Char} (fuel : Nat)

theorem scanValue_items (h : ∀ more, skipBlank text ≠ ']' :: more) :
    scanValue (fuel + 1) ('[' :: text) =
      ⟨.array (scanItems fuel (skipBlank text)).found (scanItems fuel (skipBlank text)).whole,
        (scanItems fuel (skipBlank text)).rest, (scanItems fuel (skipBlank text)).whole⟩ := by
  have hblank : isBlank '[' = false := rfl
  simp only [scanValue, skipBlank_cons hblank]

theorem scanValue_members (h : ∀ more, skipBlank text ≠ '}' :: more) :
    scanValue (fuel + 1) ('{' :: text) =
      ⟨.object (scanMembers fuel (skipBlank text)).found (scanMembers fuel (skipBlank text)).whole,
        (scanMembers fuel (skipBlank text)).rest, (scanMembers fuel (skipBlank text)).whole⟩ := by
  have hblank : isBlank '{' = false := rfl
  simp only [scanValue, skipBlank_cons hblank]

/-- The members from one on whose name and colon have been read. -/
def scanMember (name : String) (text : List Char) : Scan (List (String × Written)) :=
  if (scanValue fuel text).whole then
    match skipBlank (scanValue fuel text).rest with
    | ',' :: rest => ⟨(name, (scanValue fuel text).found) :: (scanMembers fuel rest).found,
        (scanMembers fuel rest).rest, (scanMembers fuel rest).whole⟩
    | '}' :: rest => ⟨[(name, (scanValue fuel text).found)], rest, true⟩
    | _ => ⟨[(name, (scanValue fuel text).found)], [], false⟩
  else ⟨[(name, (scanValue fuel text).found)], [], false⟩

theorem scanMembers_member (name : String) :
    scanMembers (fuel + 1) (quote name ++ ':' :: text) = scanMember fuel name text := by
  have hquote : isBlank '"' = false := rfl
  have hcolon : isBlank ':' = false := rfl
  simp only [quote_append, scanMembers, skipBlank_cons hquote, scanString_literal,
    skipBlank_cons hcolon]
  rfl

end Brackets

theorem length_chars_pos (value : Json) : 0 < value.chars.length := by
  obtain ⟨c, rest, hchars, -⟩ := Json.chars_opening value
  rw [hchars]
  exact Nat.succ_pos _

mutual

/-- A value is scanned from its text, and what follows is left. -/
theorem scanValue_chars : (value : Json) → (∀ x ∈ value.doubles, x.Legible) →
    ∀ {fuel : Nat} {rest : List Char}, 2 * value.chars.length ≤ fuel → AtEnd rest →
      scanValue fuel (value.chars ++ rest) = ⟨value.written, rest, true⟩
  | value, hlegible, 0, rest, hfuel, hrest => by
    have hpos := length_chars_pos value
    omega
  | .null, _, fuel + 1, rest, _, _ | .bool true, _, fuel + 1, rest, _, _
  | .bool false, _, fuel + 1, rest, _, _ | .array [], _, fuel + 1, rest, _, _
  | .object [], _, fuel + 1, rest, _, _ => rfl
  | .number value, hlegible, fuel + 1, rest, _, hrest => scanValue_number hlegible hrest fuel
  | .string value, _, fuel + 1, rest, _, _ => scanValue_string value rest fuel
  | .array (item :: items), hlegible, fuel + 1, rest, hfuel, hrest => by
    have hskip := skipBlank_chars item (tailItems items ++ rest)
    have hlength : 2 * (item.chars ++ tailItems items).length ≤ fuel + 1 := by
      rw [chars, List.length_cons] at hfuel
      omega
    have hitems := scanItems_chars item items hlegible hlength hrest
    rw [← List.append_assoc] at hskip
    rw [chars, List.cons_append, scanValue_items, hskip, hitems]
    · rfl
    · intro more
      rw [hskip, List.append_assoc]
      exact Json.chars_ne_bracket item _ more
  | .object ((name, value) :: members), hlegible, fuel + 1, rest, hfuel, hrest => by
    have hskip : skipBlank (quote name ++ ':' :: (value.chars ++ tailMembers members) ++ rest) =
        quote name ++ ':' :: (value.chars ++ tailMembers members) ++ rest := rfl
    have hlength : 2 * (quote name ++ ':' :: (value.chars ++ tailMembers members)).length ≤
        fuel + 1 := by
      rw [chars, List.length_cons] at hfuel
      omega
    have hmembers := scanMembers_chars name value members hlegible hlength hrest
    rw [chars, List.cons_append, scanValue_members, hskip, hmembers]
    · rfl
    · intro more heq
      exact absurd (List.cons.inj heq).1 (by decide)

theorem scanItems_chars : (item : Json) → (items : List Json) →
    (∀ x ∈ Json.itemDoubles (item :: items), x.Legible) → ∀ {fuel : Nat} {rest : List Char},
      2 * (item.chars ++ tailItems items).length ≤ fuel + 1 → AtEnd rest →
        scanItems fuel (item.chars ++ tailItems items ++ rest) =
          ⟨writtenItems (item :: items), rest, true⟩
  | item, items, hlegible, 0, rest, hfuel, hrest => by
    have hpos := length_chars_pos item
    rw [List.length_append] at hfuel
    omega
  | item, items, hlegible, fuel + 1, rest, hfuel, hrest => by
    rw [Json.itemDoubles, List.forall_mem_append] at hlegible
    rw [List.length_append] at hfuel
    have htail : 0 < (tailItems items).length := by cases items <;> exact Nat.succ_pos _
    have hitem : scanValue fuel (item.chars ++ (tailItems items ++ rest)) =
        ⟨item.written, tailItems items ++ rest, true⟩ :=
      scanValue_chars item hlegible.1 (by omega) (atEnd_tailItems items rest)
    rw [List.append_assoc, scanItems, hitem]
    cases items with
    | nil => rfl
    | cons next items =>
      have hpos := length_chars_pos item
      rw [tailItems, List.length_cons] at hfuel
      have hitems : scanItems fuel (next.chars ++ tailItems items ++ rest) =
          ⟨writtenItems (next :: items), rest, true⟩ :=
        scanItems_chars next items hlegible.2 (by omega) hrest
      have hcomma : isBlank ',' = false := rfl
      simp only [if_true, tailItems, List.cons_append, skipBlank_cons hcomma, hitems, writtenItems]

theorem scanMembers_chars : (name : String) → (value : Json) → (members : List (String × Json)) →
    (∀ x ∈ Json.memberDoubles ((name, value) :: members), x.Legible) →
      ∀ {fuel : Nat} {rest : List Char},
        2 * (quote name ++ ':' :: (value.chars ++ tailMembers members)).length ≤ fuel + 1 →
          AtEnd rest →
            scanMembers fuel (quote name ++ ':' :: (value.chars ++ tailMembers members) ++ rest) =
              ⟨writtenMembers ((name, value) :: members), rest, true⟩
  | name, value, members, hlegible, 0, rest, hfuel, hrest => by
    rw [List.length_append, List.length_cons] at hfuel
    omega
  | name, value, members, hlegible, fuel + 1, rest, hfuel, hrest => by
    rw [Json.memberDoubles, List.forall_mem_append] at hlegible
    rw [List.length_append, List.length_cons, List.length_append] at hfuel
    have htail : 0 < (tailMembers members).length := by
      obtain - | ⟨⟨name, value⟩, members⟩ := members <;> exact Nat.succ_pos _
    have hvalue : scanValue fuel (value.chars ++ (tailMembers members ++ rest)) =
        ⟨value.written, tailMembers members ++ rest, true⟩ :=
      scanValue_chars value hlegible.1 (by omega) (atEnd_tailMembers members rest)
    rw [List.append_assoc, List.cons_append, List.append_assoc, scanMembers_member, scanMember,
      hvalue]
    obtain - | ⟨⟨other, found⟩, members⟩ := members
    · rfl
    · rw [tailMembers, List.length_cons] at hfuel
      have hmembers : scanMembers fuel
          (quote other ++ ':' :: (found.chars ++ tailMembers members) ++ rest) =
            ⟨writtenMembers ((other, found) :: members), rest, true⟩ :=
        scanMembers_chars other found members hlegible.2 (by omega) hrest
      have hcomma : isBlank ',' = false := rfl
      simp only [if_true, tailMembers, List.cons_append, skipBlank_cons hcomma, hmembers,
        writtenMembers]

end

end Written

/-! ## Texts -/

namespace Json

/-- The document of a text is the one that it was printed from. -/
theorem parse_text {value : Json} (hlegible : ∀ x ∈ value.doubles, x.Legible) :
    Written.parse value.text = (value.written, []) := by
  have hscan : Written.scanValue (2 * value.chars.length + 2) (value.chars ++ []) =
      ⟨value.written, [], true⟩ :=
    Written.scanValue_chars value hlegible (Nat.le_add_right _ 2) Written.atEnd_nil
  rw [List.append_nil] at hscan
  rw [Written.parse, text, String.toList_ofList, hscan]

theorem writtenIn_text {value : Json} (hlegible : ∀ x ∈ value.doubles, x.Legible) :
    value.WrittenIn value.text :=
  ⟨[], parse_text hlegible, rfl⟩

/-- A value is parsed from its text with its repeated members merged. -/
theorem parse?_text {value : Json} (hlegible : ∀ x ∈ value.doubles, x.Legible)
    (hdepth : value.written.depth ≤ nestingLimit) : parse? value.text = some value.merged :=
  parse?_of_writtenIn (writtenIn_text hlegible) hdepth

end Json

end NestedSql
