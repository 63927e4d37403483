import NestedSql.Proofs.Documents.Printed
import NestedSql.Sql.Param

/-!
# Parameters keep their values

A scalar is bound as the value that it is: integers as signed words as long as they fit, as unsigned
words from there on, and doubles as doubles. An array or object is bound as its compact text, which
is read back as the value, with its members in order. So within a kind, no two values are bound as
one parameter. Between the kinds they may be: a string may be the text of an array.
-/

namespace NestedSql

namespace Json

/-- Arrays and objects. -/
def isStructured : Json → Bool
  | .array _ | .object _ => true
  | .null | .bool _ | .number _ | .string _ => false

/-- A reader of documents answers with the value. -/
def Yielded (value : Json) : Prop :=
  ∃ (document : Written) (depth : Nat), document.value? depth = some value

/-- Readers yield the values whose objects name each member once, and no others. -/
theorem yielded_iff {value : Json} : value.Yielded ↔ value.merged = value := by
  constructor
  · intro h
    obtain ⟨document, depth, hvalue⟩ := h
    exact merged_of_value? document hvalue
  · intro h
    have hvalue := value?_written value (Nat.le_refl value.written.depth)
    rw [h] at hvalue
    exact ⟨value.written, value.written.depth, hvalue⟩

/-- A yielded value is parsed from its compact text. -/
theorem Yielded.parse?_text {value : Json} (h : value.Yielded)
    (hdepth : value.written.depth ≤ nestingLimit) (hlegible : ∀ x ∈ value.doubles, x.Legible) :
    parse? value.text = some value := by
  rw [Json.parse?_text hlegible hdepth, yielded_iff.mp h]

/-- Legible doubles are printed apart from all others. -/
theorem printedApart_of_legible {first second : List Double} (hfirst : ∀ x ∈ first, x.Legible)
    (hsecond : ∀ x ∈ second, x.Legible) : PrintedApart first second := by
  intro x hx y hy htext
  have hread : Written.scanNumber x.text.toList = ⟨.number (.double x), [], true⟩ := hfirst x hx
  have hother : Written.scanNumber y.text.toList = ⟨.number (.double y), [], true⟩ := hsecond y hy
  rw [htext, hother] at hread
  simpa using hread.symm

end Json

namespace Param

/-! ## Numbers -/

theorem ofNumber_small {value : Int} (range : Number.InRange value)
    (h : value < 9223372036854775808) :
    ofNumber (.integer value range) = int (Int64.ofInt value) := by
  rw [ofNumber, if_pos h]

theorem ofNumber_large {value : Int} (range : Number.InRange value)
    (h : 9223372036854775808 ≤ value) :
    ofNumber (.integer value range) = uint (UInt64.ofNat value.toNat) := by
  rw [ofNumber, if_neg (by omega)]

/-- No integer is wrapped around: the word that carries it is written as it. -/
theorem json_ofNumber (number : Number) : (ofNumber number).json = .number number := by
  cases number with
  | double x => rfl
  | integer value range =>
    by_cases h : value < 9223372036854775808
    · have hword : (Int64.ofInt value).toInt = value :=
        Int64.toInt_ofInt_of_le range.1 h
      rw [ofNumber_small range h]
      simp [json, Number.ofInt64, hword]
    · have hsize : value.toNat < 2 ^ 64 := by
        have hrange := range.2
        omega
      have hword : ((UInt64.ofNat value.toNat).toNat : Int) = value := by
        rw [UInt64.toNat_ofNat_of_lt' hsize]
        omega
      rw [ofNumber_large range (by omega)]
      simp only [json, Number.ofUInt64, hword]

/-! ## All values -/

theorem json_ofJson {value : Json} (h : value.isStructured = false) :
    (ofJson value).json = value := by
  cases value with
  | null | bool value | string value => rfl
  | number value => exact json_ofNumber value
  | array items | object members => cases h

theorem ofJson_structured {value : Json} (h : value.isStructured = true) :
    ofJson value = string value.text := by
  cases value with
  | array items | object members => rfl
  | _ => cases h

/-- A parameter of another kind than text is written as the value that it carries. -/
theorem eq_json_of_ofJson {value : Json} {param : Param} (h : ofJson value = param)
    (hkind : ∀ text, param ≠ string text) : value = param.json := by
  by_cases hstructured : value.isStructured = true
  · exact absurd (h.symm.trans (ofJson_structured hstructured)) (hkind value.text)
  · have hscalar : value.isStructured = false := by simpa using hstructured
    rw [← h, json_ofJson hscalar]

section Kinds

variable {value : Json}

theorem ofJson_eq_int : (∃ word, ofJson value = int word) ↔
    ∃ n range, value = .number (.integer n range) ∧ n < 9223372036854775808 := by
  constructor
  · intro h
    obtain ⟨word, hword⟩ := h
    have hvalue : value = .number (.ofInt64 word) := eq_json_of_ofJson hword (by simp)
    exact ⟨word.toInt, _, hvalue, word.toInt_lt⟩
  · rintro ⟨n, range, rfl, hsmall⟩
    exact ⟨_, ofNumber_small range hsmall⟩

theorem ofJson_eq_uint : (∃ word, ofJson value = uint word) ↔
    ∃ n range, value = .number (.integer n range) ∧ 9223372036854775808 ≤ n := by
  constructor
  · intro h
    obtain ⟨word, hword⟩ := h
    have hvalue : value = .number (.ofUInt64 word) := eq_json_of_ofJson hword (by simp)
    refine ⟨word.toNat, _, hvalue, ?_⟩
    by_contra hsmall
    have hint : ofJson value = int (Int64.ofInt word.toNat) := by
      rw [hvalue, ofJson, Number.ofUInt64, ofNumber_small _ (by omega)]
    rw [hint] at hword
    cases hword
  · rintro ⟨n, range, rfl, hlarge⟩
    exact ⟨_, ofNumber_large range hlarge⟩

theorem ofJson_eq_float : (∃ x, ofJson value = float x) ↔ ∃ x, value = .number (.double x) := by
  constructor
  · intro h
    obtain ⟨x, hx⟩ := h
    exact ⟨x, eq_json_of_ofJson hx (by simp)⟩
  · rintro ⟨x, rfl⟩
    exact ⟨x, rfl⟩

end Kinds

/-- The parameter has the kind of the value and tells which one it is. -/
structure Carries (param : Param) (value : Json) : Prop where
  scalar : value.isStructured = false → param.json = value
  int : (∃ word, param = int word) ↔
    ∃ n range, value = .number (.integer n range) ∧ n < 9223372036854775808
  uint : (∃ word, param = uint word) ↔
    ∃ n range, value = .number (.integer n range) ∧ 9223372036854775808 ≤ n
  float : (∃ x, param = float x) ↔ ∃ x, value = .number (.double x)
  structured : value.isStructured = true → param = string value.text ∧
    (value.written.depth ≤ Json.nestingLimit → (∀ x ∈ value.doubles, x.Legible) →
      Json.parse? value.text = some value)

/-- Values that readers yield are carried by their parameters, and two scalars or two structured
values are not carried by the same one: of structured values, unless two of their doubles are
printed alike. -/
theorem parameters_keep_values :
    (∀ value : Json, value.Yielded → Carries (ofJson value) value) ∧
    (∀ first second : Json, first.isStructured = false → second.isStructured = false →
      ofJson first = ofJson second → first = second) ∧
    ∀ first second : Json, first.isStructured = true → second.isStructured = true →
      Json.PrintedApart first.doubles second.doubles → ofJson first = ofJson second →
        first = second := by
  refine ⟨fun value hyielded => ?carried, fun first second hfirst hsecond h => ?scalars,
    fun first second hfirst hsecond hapart h => ?structured⟩
  case carried =>
    exact ⟨json_ofJson, ofJson_eq_int, ofJson_eq_uint, ofJson_eq_float,
      fun hstructured => ⟨ofJson_structured hstructured, hyielded.parse?_text⟩⟩
  case scalars =>
    rw [← json_ofJson hfirst, h, json_ofJson hsecond]
  case structured =>
    rw [ofJson_structured hfirst, ofJson_structured hsecond] at h
    exact Json.text_inj hapart (Param.string.inj h)

/-- An object whose text has quotes, a backslash, a control character and a double in it is read
back from its parameter; the least integer that no signed word holds is bound unsigned. -/
theorem object_read_back_from_parameter :
    let half : Double := ⟨false, 4503599627370496, -53, .inl (by decide)⟩
    let value : Json := .object [("it's \"b\\\"", .array [.number (.double half), .null]),
      ("a", .object [("\n", .string "\u0001é")])]
    Json.parse? value.text = some value ∧
      (∀ other : Json, other.isStructured = true → (∀ x ∈ other.doubles, x.Legible) →
        ofJson other = ofJson value → other = value) ∧
      ∃ range, ∃ word, ofJson (.number (.integer 9223372036854775808 range)) = uint word := by
  intro half value
  have htext : half.text = "0.5" := by decide +kernel
  have hhalf : half.Legible := by
    rw [Double.Legible, htext]
    rfl
  have hlegible : ∀ x ∈ value.doubles, x.Legible := List.forall_mem_singleton.mpr hhalf
  obtain ⟨hcarries, -, hapart⟩ := parameters_keep_values
  have hvalue := hcarries value (Json.yielded_iff.mpr rfl)
  have hword : Json.Yielded (.number (.integer 9223372036854775808 (by decide))) :=
    Json.yielded_iff.mpr rfl
  refine ⟨(hvalue.structured rfl).2 (by decide) hlegible, fun other hother hdoubles h => ?_,
    by decide, ((hcarries _ hword).uint).mpr ⟨_, by decide, rfl, by decide⟩⟩
  exact hapart other value hother rfl (Json.printedApart_of_legible hdoubles hlegible) h

/-- A string and an array may be bound as one parameter. -/
example : ofJson (.string "[null]") = ofJson (.array [.null]) := by decide

end Param

end NestedSql
