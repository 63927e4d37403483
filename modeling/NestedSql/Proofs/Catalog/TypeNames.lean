import NestedSql.Catalog.TypeName

/-!
# Names of types that are read

A name of the grammar is that of a base, with a pair of brackets behind it for every list around
it; the base is a listed name, or a decimal with or without its width and scale. All these names are
read, as the scalar of the base in as many lists. Beyond them any text is read that begins with the
name of decimals, so a list of a fixed size and any other compound type have no field type unless
their text begins so. Which names the catalog prints is not said here.
-/

namespace NestedSql.Catalog

/-! ## Names of the grammar -/

/-- One digit or more. -/
def Numeral (text : String) : Prop := text ≠ "" ∧ ∀ c ∈ text.toList, c.isDigit = true

/-- A decimal with its width and scale. -/
def sizedDecimal (width scale : String) : String :=
  decimalName ++ "(" ++ width ++ "," ++ scale ++ ")"

/-- A base name and its scalar. -/
inductive BaseName : String → ScalarType → Prop where
  | listed {name : String} {scalar : ScalarType} : (name, scalar) ∈ baseNames → BaseName name scalar
  | decimal : BaseName decimalName .float
  | sized {width scale : String} : Numeral width → Numeral scale →
      BaseName (sizedDecimal width scale) .float

/-- A name with pairs of brackets behind it. -/
def bracketed (base : String) : Nat → String
  | 0 => base
  | depth + 1 => bracketed base depth ++ "[]"

/-- A type in lists. -/
def inLists (type : FieldType) : Nat → FieldType
  | 0 => type
  | depth + 1 => .array (inLists type depth)

/-- The type that a name of the grammar stands for. -/
def Denotes (name : String) (type : FieldType) : Prop :=
  ∃ base scalar depth, BaseName base scalar ∧ name = bracketed base depth ∧
    type = inLists (.named scalar.name) depth

/-- No pair of brackets ends the name. -/
def Unbracketed (name : String) : Prop := ¬"[]".toList <:+ name.toList

instance (name : String) : Decidable (Unbracketed name) := inferInstanceAs (Decidable (¬_))

/-- So many pairs of brackets end the name, and no more. -/
def EndsInPairs (name : String) (depth : Nat) : Prop :=
  ∀ pairs, (∃ base, name = bracketed base pairs) ↔ pairs ≤ depth

/-- Before its pairs of brackets the name begins like a decimal and goes on with something else than
a width and a scale. -/
def Overread (name : String) (type : FieldType) : Prop :=
  ∃ base depth, Unbracketed base ∧ decimalName.toList <+: base.toList ∧ ¬BaseName base .float ∧
    name = bracketed base depth ∧ type = inLists (.named ScalarType.float.name) depth

/-- The names of lists of a fixed size, of types that are made of others or of labels, and of lists
of all these. -/
inductive Compound : String → Prop where
  | fixedSize {element size : String} : Numeral size → Compound (element ++ "[" ++ size ++ "]")
  | parts {kind : String} (parts : String) : kind ∈ ["STRUCT(", "MAP(", "UNION(", "ENUM("] →
      Compound (kind ++ parts)
  | list {element : String} : Compound element → Compound (element ++ "[]")

/-! ## Pairs of brackets -/

theorem not_unbracketed (element : String) : ¬Unbracketed (element ++ "[]") := by
  rw [Unbracketed, String.toList_append]
  exact fun h => h (List.suffix_append _ _)

theorem exists_list_of_not_unbracketed {name : String} (h : ¬Unbracketed name) :
    ∃ element, name = element ++ "[]" := by
  obtain ⟨element, helement⟩ := Decidable.not_not.mp h
  refine ⟨String.ofList element, String.toList_inj.mp ?_⟩
  rw [String.toList_append, String.toList_ofList, helement]

theorem bracketed_add (base : String) (first second : Nat) :
    bracketed base (first + second) = bracketed (bracketed base first) second := by
  induction second with
  | zero => rfl
  | succ second ih => exact congrArg (· ++ "[]") ih

/-- A name is its base with its pairs of brackets, in one way only. -/
theorem bracketed_inj {base other : String} {depth pairs : Nat} (hbase : Unbracketed base)
    (hother : Unbracketed other) (h : bracketed base depth = bracketed other pairs) :
    base = other ∧ depth = pairs := by
  induction depth generalizing pairs with
  | zero =>
    cases pairs with
    | zero => exact ⟨h, rfl⟩
    | succ pairs =>
      have hpair : base = bracketed other pairs ++ "[]" := h
      exact absurd (hpair ▸ hbase) (not_unbracketed _)
  | succ depth ih =>
    cases pairs with
    | zero =>
      have hpair : other = bracketed base depth ++ "[]" := h.symm
      exact absurd (hpair ▸ hother) (not_unbracketed _)
    | succ pairs =>
      obtain ⟨hsame, hdepth⟩ := ih ((String.append_left_inj "[]").mp h)
      exact ⟨hsame, congrArg (· + 1) hdepth⟩

/-- Every name is a base with pairs of brackets behind it. -/
theorem exists_bracketed (name : String) :
    ∃ base depth, Unbracketed base ∧ name = bracketed base depth := by
  induction hlength : name.length using Nat.strongRecOn generalizing name with
  | ind length ih =>
    by_cases hname : Unbracketed name
    · exact ⟨name, 0, hname, rfl⟩
    · obtain ⟨element, rfl⟩ := exists_list_of_not_unbracketed hname
      have hshorter : element.length < length := by
        rw [← hlength, String.length_append]
        exact Nat.lt_add_of_pos_right (by decide)
      obtain ⟨base, depth, hbase, rfl⟩ := ih _ hshorter element rfl
      exact ⟨base, depth + 1, hbase, rfl⟩

theorem endsInPairs_bracketed {base : String} (hbase : Unbracketed base) (depth : Nat) :
    EndsInPairs (bracketed base depth) depth := by
  intro pairs
  constructor
  · rintro ⟨other, h⟩
    obtain ⟨root, deeper, hroot, rfl⟩ := exists_bracketed other
    rw [← bracketed_add] at h
    have hdepth := (bracketed_inj hbase hroot h).2
    omega
  · intro hle
    refine ⟨bracketed base (depth - pairs), ?_⟩
    rw [← bracketed_add, Nat.sub_add_cancel hle]

/-! ## How names are read -/

theorem fieldType?_list (element : String) :
    fieldType? (element ++ "[]") = (fieldType? element).map .array := by
  rw [fieldType?, String.toList_append, List.reverse_append]
  rfl

theorem fieldType?_bracketed (base : String) (depth : Nat) :
    fieldType? (bracketed base depth) = (fieldType? base).map (inLists · depth) := by
  induction depth with
  | zero => exact Option.map_id'.symm
  | succ depth ih =>
    rw [bracketed, fieldType?_list, ih, Option.map_map]
    rfl

theorem fieldType?_of_unbracketed {name : String} (h : Unbracketed name) :
    fieldType? name = (baseScalar? name.toList).map fun scalar => .named scalar.name := by
  rw [fieldType?]
  have hreversed : ∀ element, name.toList.reverse ≠ ']' :: '[' :: element := by
    intro element heq
    refine h ⟨element.reverse, ?_⟩
    rw [← List.reverse_reverse name.toList, heq, List.reverse_cons, List.reverse_cons,
      List.append_assoc]
    rfl
  rw [ofReversed?, List.reverse_reverse]
  exact hreversed

/-! ## Base names -/

theorem BaseName.getLast?_ne {name : String} {scalar : ScalarType} (h : BaseName name scalar) :
    name.toList.getLast? ≠ some ']' := by
  cases h with
  | listed hmem =>
    have hall : ∀ entry ∈ baseNames, entry.1.toList.getLast? ≠ some ']' := by decide
    exact hall _ hmem
  | decimal => decide
  | @sized width scale =>
    have hlast : ")".toList.getLast? = some ')' := by decide
    rw [sizedDecimal, String.toList_append, List.getLast?_append, hlast, Option.some_or]
    decide

theorem BaseName.unbracketed {name : String} {scalar : ScalarType} (h : BaseName name scalar) :
    Unbracketed name := by
  rintro ⟨element, helement⟩
  have hlast : "[]".toList.getLast? = some ']' := by decide
  refine h.getLast?_ne ?_
  rw [← helement, List.getLast?_append, hlast, Option.some_or]

/-- Looking a listed name up gives its scalar. -/
theorem lookup_of_listed : ∀ entry ∈ baseNames, baseNames.lookup entry.1 = some entry.2 := by
  decide

theorem lookup_baseNames {name : String} {scalar : ScalarType} :
    baseNames.lookup name = some scalar ↔ (name, scalar) ∈ baseNames := by
  constructor
  · intro h
    obtain ⟨before, after, hnames, -⟩ := List.lookup_eq_some_iff.mp h
    rw [hnames]
    exact List.mem_append_right before List.mem_cons_self
  · exact lookup_of_listed (name, scalar)

/-- No listed name begins like a decimal. -/
theorem not_decimal_of_listed {name : String} {scalar : ScalarType}
    (h : (name, scalar) ∈ baseNames) : ¬decimalName.toList <+: name.toList := by
  have hall : ∀ entry ∈ baseNames, ¬decimalName.toList <+: entry.1.toList := by decide
  exact hall _ h

/-- A base that begins like a decimal has the scalar of decimals. -/
theorem BaseName.eq_float {name : String} {scalar : ScalarType} (h : BaseName name scalar)
    (hdecimal : decimalName.toList <+: name.toList) : scalar = .float := by
  cases h with
  | listed hmem => exact absurd hdecimal (not_decimal_of_listed hmem)
  | decimal => rfl
  | sized => rfl

/-- A base is read by its listed scalar, or as a decimal if it begins like one. -/
theorem baseScalar?_eq_some {name : String} {scalar : ScalarType} :
    baseScalar? name.toList = some scalar ↔
      (name, scalar) ∈ baseNames ∨ decimalName.toList <+: name.toList ∧ scalar = .float := by
  rw [baseScalar?, String.ofList_toList, ← lookup_baseNames]
  cases hlookup : baseNames.lookup name with
  | some found =>
    have hnot := not_decimal_of_listed (lookup_baseNames.mp hlookup)
    simp only [hnot, false_and, or_false]
  | none =>
    simp only [List.isPrefixOf_iff_prefix, Option.ite_none_right_eq_some, Option.some_inj,
      reduceCtorEq, false_or, @eq_comm _ scalar]

theorem BaseName.baseScalar? {name : String} {scalar : ScalarType} (h : BaseName name scalar) :
    baseScalar? name.toList = some scalar := by
  rw [baseScalar?_eq_some]
  cases h with
  | listed hmem => exact .inl hmem
  | decimal => exact .inr ⟨List.prefix_refl _, rfl⟩
  | sized =>
    refine .inr ⟨?_, rfl⟩
    simp only [sizedDecimal, String.toList_append, List.append_assoc]
    exact List.prefix_append _ _

/-- Where a base is read, it is one of the grammar or begins like a decimal without being one. -/
theorem baseScalar?_iff {name : String} {scalar : ScalarType} :
    baseScalar? name.toList = some scalar ↔ BaseName name scalar ∨
      (decimalName.toList <+: name.toList ∧ ¬BaseName name .float) ∧ scalar = .float := by
  constructor
  · intro h
    rcases baseScalar?_eq_some.mp h with hmem | ⟨hdecimal, rfl⟩
    · exact .inl (.listed hmem)
    · by_cases hbase : BaseName name .float
      · exact .inl hbase
      · exact .inr ⟨⟨hdecimal, hbase⟩, rfl⟩
  · rintro (hbase | ⟨⟨hdecimal, -⟩, rfl⟩)
    · exact hbase.baseScalar?
    · exact baseScalar?_eq_some.mpr (.inr ⟨hdecimal, rfl⟩)

/-! ## What is read -/

section Read

variable {name : String} {type : FieldType}

/-- A name is read as the scalar of its base, in a list for each pair of brackets that ends it. -/
theorem fieldType?_eq_some : fieldType? name = some type ↔ ∃ base scalar depth,
    Unbracketed base ∧ baseScalar? base.toList = some scalar ∧ name = bracketed base depth ∧
      type = inLists (.named scalar.name) depth := by
  constructor
  · intro h
    obtain ⟨base, depth, hbase, rfl⟩ := exists_bracketed name
    rw [fieldType?_bracketed, fieldType?_of_unbracketed hbase, Option.map_map,
      Option.map_eq_some_iff] at h
    obtain ⟨scalar, hscalar, rfl⟩ := h
    exact ⟨base, scalar, depth, hbase, hscalar, rfl, rfl⟩
  · rintro ⟨base, scalar, depth, hbase, hscalar, rfl, rfl⟩
    rw [fieldType?_bracketed, fieldType?_of_unbracketed hbase, hscalar]
    rfl

/-- The names that are read are those of the grammar and those that begin like a decimal. -/
theorem fieldType?_iff : fieldType? name = some type ↔ Denotes name type ∨ Overread name type := by
  rw [fieldType?_eq_some]
  constructor
  · rintro ⟨base, scalar, depth, hbase, hscalar, hname, htype⟩
    rcases baseScalar?_iff.mp hscalar with h | ⟨⟨hdecimal, hother⟩, rfl⟩
    · exact .inl ⟨base, scalar, depth, h, hname, htype⟩
    · exact .inr ⟨base, depth, hbase, hdecimal, hother, hname, htype⟩
  · rintro (⟨base, scalar, depth, h, hname, htype⟩ |
      ⟨base, depth, hbase, hdecimal, hother, hname, htype⟩)
    · exact ⟨base, scalar, depth, h.unbracketed, h.baseScalar?, hname, htype⟩
    · exact ⟨base, .float, depth, hbase, baseScalar?_iff.mpr (.inr ⟨⟨hdecimal, hother⟩, rfl⟩),
        hname, htype⟩

/-- A name of the grammar is not overread. -/
theorem Overread.not_denotes (h : Overread name type) (other : FieldType) :
    ¬Denotes name other := by
  obtain ⟨base, depth, hbase, hdecimal, hother, rfl, -⟩ := h
  rintro ⟨root, scalar, pairs, hroot, heq, -⟩
  obtain ⟨rfl, -⟩ := bracketed_inj hbase hroot.unbracketed heq
  obtain rfl := hroot.eq_float hdecimal
  exact hother hroot

/-- What is read has a list for each pair of brackets and is never nullable. -/
theorem lists_of_fieldType? (h : fieldType? name = some type) :
    ∃ scalar : ScalarType, ∃ depth, EndsInPairs name depth ∧
      type = inLists (.named scalar.name) depth := by
  obtain ⟨base, scalar, depth, hbase, -, rfl, rfl⟩ := fieldType?_eq_some.mp h
  exact ⟨scalar, depth, endsInPairs_bracketed hbase depth, rfl⟩

end Read

/-! ## Compound types -/

theorem prefix_bracketed (base : String) (depth : Nat) :
    base.toList <+: (bracketed base depth).toList := by
  induction depth with
  | zero => exact List.prefix_refl _
  | succ depth ih =>
    rw [bracketed, String.toList_append]
    exact ih.trans (List.prefix_append _ _)

/-- Brackets are all that a name has beyond its base. -/
theorem mem_bracketed {base : String} {depth : Nat} {c : Char}
    (h : c ∈ (bracketed base depth).toList) : c ∈ base.toList ∨ c = '[' ∨ c = ']' := by
  induction depth with
  | zero => exact .inl h
  | succ depth ih =>
    rw [bracketed, String.toList_append, List.mem_append] at h
    rcases h with h | h
    · exact ih h
    · have hpair : c ∈ ['[', ']'] := h
      simpa using Or.inr hpair

/-- Behind the name of decimals no bracket has been left out. -/
theorem decimal_prefix_bracketed {base : String} {depth : Nat} :
    decimalName.toList <+: (bracketed base depth).toList ↔ decimalName.toList <+: base.toList := by
  refine ⟨fun h => ?_, fun h => h.trans (prefix_bracketed base depth)⟩
  induction depth with
  | zero => exact h
  | succ depth ih =>
    refine ih ?_
    have hpair : (bracketed base (depth + 1)).toList =
        (bracketed base depth).toList ++ ['['] ++ [']'] := by
      rw [bracketed, String.toList_append, List.append_assoc]
      rfl
    have hends : ∀ (text : List Char) (c : Char), c ∈ ['[', ']'] →
        decimalName.toList ≠ text ++ [c] := by
      intro text c hc heq
      have hlast : decimalName.toList.getLast? = some c := by rw [heq, List.getLast?_concat]
      have hc' : c = 'L' := Option.some.inj (hlast.symm.trans (by decide))
      rw [hc'] at hc
      exact absurd hc (by decide)
    rw [hpair, List.prefix_concat_iff, List.prefix_concat_iff] at h
    exact (h.resolve_left (hends _ _ (by decide))).resolve_left (hends _ _ (by decide))

/-- A name is read if its base is listed or it begins like a decimal. -/
theorem exists_fieldType?_iff {name : String} : (∃ type, fieldType? name = some type) ↔
    (∃ entry ∈ baseNames, ∃ depth, name = bracketed entry.1 depth) ∨
      decimalName.toList <+: name.toList := by
  simp only [fieldType?_eq_some, baseScalar?_eq_some]
  constructor
  · rintro ⟨type, base, scalar, depth, -, hmem | ⟨hdecimal, -⟩, rfl, -⟩
    · exact .inl ⟨_, hmem, depth, rfl⟩
    · exact .inr (decimal_prefix_bracketed.mpr hdecimal)
  · rintro (⟨entry, hmem, depth, rfl⟩ | hdecimal)
    · exact ⟨_, entry.1, entry.2, depth, (BaseName.listed hmem).unbracketed, .inl hmem, rfl, rfl⟩
    · obtain ⟨base, depth, hbase, rfl⟩ := exists_bracketed name
      exact ⟨_, base, .float, depth, hbase,
        .inr ⟨decimal_prefix_bracketed.mp hdecimal, rfl⟩, rfl, rfl⟩

/-- A compound name has a parenthesis or a digit. -/
theorem Compound.exists_mark {name : String} (h : Compound name) :
    ∃ c ∈ name.toList, c = '(' ∨ c.isDigit = true := by
  induction h with
  | @fixedSize element size hsize =>
    obtain ⟨hne, hdigits⟩ := hsize
    obtain ⟨c, hc⟩ := List.exists_mem_of_ne_nil size.toList (by simpa using hne)
    refine ⟨c, ?_, .inr (hdigits c hc)⟩
    simp only [String.toList_append, List.mem_append, hc, or_true, true_or]
  | @parts kind parts hkind =>
    have hall : ∀ kind ∈ ["STRUCT(", "MAP(", "UNION(", "ENUM("], '(' ∈ kind.toList := by decide
    refine ⟨'(', ?_, .inl rfl⟩
    rw [String.toList_append]
    exact List.mem_append_left _ (hall kind hkind)
  | list _ ih =>
    obtain ⟨c, hc, hmark⟩ := ih
    refine ⟨c, ?_, hmark⟩
    rw [String.toList_append]
    exact List.mem_append_left _ hc

/-- A compound name is read only if it begins like a decimal. -/
theorem Compound.read_iff {name : String} (h : Compound name) :
    (∃ type, fieldType? name = some type) ↔ decimalName.toList <+: name.toList := by
  rw [exists_fieldType?_iff]
  refine or_iff_right ?_
  rintro ⟨entry, hentry, depth, rfl⟩
  obtain ⟨c, hc, hmark⟩ := h.exists_mark
  have hall : ∀ entry ∈ baseNames, (entry.1.toList.any fun c => c = '(' || c.isDigit) = false := by
    decide
  rcases mem_bracketed hc with hbase | rfl | rfl
  · have hplain := List.any_eq_false.mp (hall entry hentry) c hbase
    rcases hmark with rfl | hmark
    · exact hplain rfl
    · exact hplain (by rw [hmark, Bool.or_true])
  · exact absurd hmark (by decide)
  · exact absurd hmark (by decide)

/-- A name is read if it is one of the grammar, as the type that it stands for, or if it begins like
a decimal without being one; so exactly the second are read beyond the grammar. What is read has a
list for each pair of brackets at the end of the name and is not nullable. A compound type is read
exactly if its name begins like a decimal. -/
theorem type_names_read_iff (name : String) :
    (∀ type, fieldType? name = some type ↔ Denotes name type ∨ Overread name type) ∧
    ((∀ type, fieldType? name = some type ↔ Denotes name type) ↔ ∀ type, ¬Overread name type) ∧
    (∀ type, fieldType? name = some type → ∃ scalar : ScalarType, ∃ depth,
      EndsInPairs name depth ∧ type = inLists (.named scalar.name) depth) ∧
    (Compound name →
      ((∃ type, fieldType? name = some type) ↔ decimalName.toList <+: name.toList)) := by
  refine ⟨fun type => fieldType?_iff, ⟨fun hagree type hover => ?_, fun hnone type => ?_⟩,
    fun type => lists_of_fieldType?, Compound.read_iff⟩
  · exact hover.not_denotes type ((hagree type).mp (fieldType?_iff.mpr (.inr hover)))
  · rw [fieldType?_iff]
    exact or_iff_left (hnone type)

/-- A list of three decimals is read as one number. The same list of whole numbers is not read. -/
theorem three_decimals_read_as_number :
    Compound ("DECIMAL(18,3)" ++ "[" ++ "3" ++ "]") ∧
      fieldType? "DECIMAL(18,3)[3]" = some (.named "Float") ∧
      (∀ type, ¬Denotes "DECIMAL(18,3)[3]" type) ∧ fieldType? "INTEGER[3]" = none := by
  refine ⟨.fixedSize ⟨by decide, List.all_eq_true.mp (by decide)⟩, by decide, ?_, by decide⟩
  rintro type ⟨base, scalar, depth, hbase, hname, -⟩
  have hplain : Unbracketed "DECIMAL(18,3)[3]" := by decide
  have hpairs : bracketed "DECIMAL(18,3)[3]" 0 = bracketed base depth := hname
  obtain ⟨rfl, -⟩ := bracketed_inj hplain hbase.unbracketed hpairs
  exact hbase.getLast?_ne (by decide)

end NestedSql.Catalog
