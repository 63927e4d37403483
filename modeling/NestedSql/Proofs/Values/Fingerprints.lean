import NestedSql.Proofs.Values.Placed
import NestedSql.Proofs.Wire.Canonical

/-!
# Plans and their fingerprints

A parameter is written without its kind, so signed and unsigned words of one value have one text.
But parameters come from JSON values, which are bound as unsigned words only where no signed word
holds them. Over such parameters the document of a plan tells its parts, their SQL and the kinds and
values of their parameters, and its text tells the document. So two compiled plans with one
fingerprint are the same or their texts collide.
-/

namespace NestedSql

/-! ## Parameters -/

namespace Param

/-- A word is unsigned only where no signed word holds it. -/
def Canonical : Param → Prop
  | uint value => 9223372036854775808 ≤ value.toNat
  | null | bool _ | int _ | float _ | string _ => True

theorem canonical_ofNumber (number : Number) : (ofNumber number).Canonical := by
  cases number with
  | double value => trivial
  | integer value range =>
    rw [ofNumber]
    split
    · trivial
    · next hlarge =>
      obtain ⟨n, rfl⟩ : ∃ n : Nat, value = n := ⟨value.toNat, by omega⟩
      have hsize : n < 2 ^ 64 := by have h := range.2; omega
      show 9223372036854775808 ≤ (UInt64.ofNat n).toNat
      rw [UInt64.toNat_ofNat_of_lt' hsize]
      omega

/-- The parameters that carry JSON values are canonical. -/
theorem canonical_ofJson (value : Json) : (ofJson value).Canonical := by
  cases value with
  | number value => exact canonical_ofNumber value
  | _ => trivial

/-- Canonical parameters are written apart. -/
theorem json_inj {first second : Param} (hfirst : first.Canonical) (hsecond : second.Canonical)
    (h : first.json = second.json) : first = second := by
  have hmixed : ∀ (signed : Int64) (unsigned : UInt64), (uint unsigned).Canonical →
      (int signed).json ≠ (uint unsigned).json := by
    intro signed unsigned hlarge heq
    injection heq with heq
    injection heq with heq
    have hbound := signed.toInt_lt
    have hlarge : 9223372036854775808 ≤ unsigned.toNat := hlarge
    omega
  cases first with
  | null =>
    cases second with
    | null => rfl
    | _ => cases h
  | bool value =>
    cases second with
    | bool other => rw [Json.bool.inj h]
    | _ => cases h
  | float value =>
    cases second with
    | float other => rw [Number.double.inj (Json.number.inj h)]
    | _ => cases h
  | string value =>
    cases second with
    | string other => rw [Json.string.inj h]
    | _ => cases h
  | int value =>
    cases second with
    | int other =>
      injection h with h
      injection h with h
      rw [Int64.toInt_inj.mp h]
    | uint other => exact absurd h (hmixed value other hsecond)
    | _ => cases h
  | uint value =>
    cases second with
    | uint other =>
      injection h with h
      injection h with h
      rw [UInt64.toNat_inj.mp (Int.ofNat.inj h)]
    | int other => exact absurd h.symm (hmixed other value hfirst)
    | _ => cases h

/-- The kind of a small word is not written. -/
example : Number.ofInt64 1 = Number.ofUInt64 1 := by decide

theorem jsons_inj {first second : List Param} (hfirst : ∀ param ∈ first, param.Canonical)
    (hsecond : ∀ param ∈ second, param.Canonical) (h : first.map json = second.map json) :
    first = second := by
  induction first generalizing second with
  | nil => exact (List.map_eq_nil_iff.mp h.symm).symm
  | cons param first ih =>
    obtain ⟨other, second, rfl, hhead, htail⟩ := List.map_eq_cons_iff.mp h.symm
    obtain ⟨hparam, hfirst⟩ := List.forall_mem_cons.mp hfirst
    obtain ⟨hother, hsecond⟩ := List.forall_mem_cons.mp hsecond
    rw [json_inj hparam hother hhead.symm, ih hfirst hsecond htail.symm]

end Param

/-! ## Statements and plans -/

/-- All parameters are canonical. -/
def Statement.Canonical (statement : Statement) : Prop :=
  ∀ param ∈ statement.params, param.Canonical

theorem Statement.json_inj {first second : Statement} (hfirst : first.Canonical)
    (hsecond : second.Canonical) (h : first.json = second.json) : first = second := by
  obtain ⟨sql, params⟩ := first
  obtain ⟨other, others⟩ := second
  have hmembers := Json.object.inj h
  simp only [List.cons.injEq, Prod.mk.injEq, Json.string.injEq, Json.array.injEq, true_and,
    and_true] at hmembers
  obtain ⟨rfl, hparams⟩ := hmembers
  obtain rfl : params = others := Param.jsons_inj hfirst hsecond hparams
  rfl

theorem Json.present_ne_cons {members : List (String × Option Json)} {name : String}
    (h : name ∉ members.map Prod.fst) (value : Json) (rest : List (String × Json)) :
    members.filterMap (fun member => member.2.map (member.1, ·)) ≠ (name, value) :: rest := by
  intro heq
  have hmember : (name, value) ∈ members.filterMap fun member => member.2.map (member.1, ·) :=
    heq ▸ List.mem_cons_self
  obtain ⟨member, hsource, hwritten⟩ := List.mem_filterMap.mp hmember
  obtain ⟨document, -, hdocument⟩ := Option.map_eq_some_iff.mp hwritten
  obtain rfl : member.1 = name := congrArg Prod.fst hdocument
  exact h (List.mem_map_of_mem hsource)

/-- An object of named members tells them all, the absent ones too. -/
theorem Json.present_inj : {first second : List (String × Option Json)} →
    (first.map Prod.fst).Nodup → first.map Prod.fst = second.map Prod.fst →
      present first = present second → first = second
  | [], [], _, _, _ => rfl
  | (name, value) :: first, (other, found) :: second, hnodup, hnames, h => by
    rw [List.map_cons, List.nodup_cons] at hnodup
    rw [List.map_cons, List.map_cons, List.cons.injEq] at hnames
    obtain ⟨(rfl : name = other), htails⟩ := hnames
    have hmembers := Json.object.inj h
    have hrest : first.filterMap (fun member => member.2.map (member.1, ·)) =
        second.filterMap (fun member => member.2.map (member.1, ·)) → first = second :=
      fun heq => present_inj hnodup.2 htails (congrArg Json.object heq)
    cases value with
    | none =>
      cases found with
      | none => rw [hrest hmembers]
      | some found => exact absurd hmembers (present_ne_cons hnodup.1 found _)
    | some value =>
      cases found with
      | none =>
        rw [htails] at hnodup
        exact absurd hmembers.symm (present_ne_cons hnodup.1 value _)
      | some found =>
        obtain ⟨hvalue, hmembers⟩ := List.cons.inj hmembers
        rw [hrest hmembers, (Prod.mk.inj hvalue).2]

/-- All parameters of all statements are canonical. -/
structure Plan.Canonical (plan : Plan) : Prop where
  rows : ∀ statement ∈ plan.rows, statement.Canonical
  aggregates : ∀ statement ∈ plan.aggregates, statement.Canonical
  groups : ∀ statement ∈ plan.groups, statement.Canonical

theorem part_inj {first second : Option Statement}
    (hfirst : ∀ statement ∈ first, statement.Canonical)
    (hsecond : ∀ statement ∈ second, statement.Canonical)
    (h : first.map Statement.json = second.map Statement.json) : first = second := by
  cases first with
  | none =>
    cases second with
    | none => rfl
    | some other => cases h
  | some statement =>
    cases second with
    | none => cases h
    | some other =>
      rw [Statement.json_inj (hfirst statement rfl) (hsecond other rfl) (Option.some.inj h)]

/-- Plans with canonical parameters are written apart. -/
theorem Plan.json_inj {first second : Plan} (hfirst : first.Canonical)
    (hsecond : second.Canonical) (h : first.json = second.json) : first = second := by
  obtain ⟨rows, aggregates, groups⟩ := first
  obtain ⟨otherRows, otherAggregates, otherGroups⟩ := second
  have hnames : ["rows", "aggregates", "groups"].Nodup := by decide
  have hmembers : [("rows", rows.map Statement.json), ("aggregates", aggregates.map Statement.json),
      ("groups", groups.map Statement.json)] = [("rows", otherRows.map Statement.json),
      ("aggregates", otherAggregates.map Statement.json),
      ("groups", otherGroups.map Statement.json)] :=
    Json.present_inj hnames rfl h
  simp only [List.cons.injEq, Prod.mk.injEq, true_and, and_true] at hmembers
  obtain ⟨hrows, haggregates, hgroups⟩ := hmembers
  obtain rfl : rows = otherRows := part_inj hfirst.rows hsecond.rows hrows
  obtain rfl : aggregates = otherAggregates :=
    part_inj hfirst.aggregates hsecond.aggregates haggregates
  obtain rfl : groups = otherGroups := part_inj hfirst.groups hsecond.groups hgroups
  rfl

/-! ## Compiled plans -/

namespace Compile

/-- A value that a comparison names is bound as a canonical parameter. -/
theorem canonical_of_namedValue? {context : Context} {value : ComparisonValue} {param : Param}
    (h : namedValue? context value = some param) : param.Canonical := by
  obtain ⟨document, rfl⟩ : ∃ document, param = .ofJson document := by
    unfold namedValue? at h
    split at h
    · exact ⟨_, (Option.some.inj h).symm⟩
    · obtain ⟨document, -, rfl⟩ := Option.map_eq_some_iff.mp h
      exact ⟨document, rfl⟩
    · cases h
  exact Param.canonical_ofJson document

theorem Bound.canonical {context : Context} {values : List ComparisonValue} {params : List Param}
    (h : Bound context values params) : ∀ param ∈ params, param.Canonical := by
  intro param hparam
  have hmem : some param ∈ values.map (namedValue? context) := by
    rw [h]
    exact List.mem_map_of_mem hparam
  obtain ⟨value, -, hvalue⟩ := List.mem_map.mp hmem
  exact canonical_of_namedValue? hvalue

theorem canonical_compiled {schema : Schema} {request : Request} {bindings : VariableSet}
    {plan : Plan} (h : request.compile schema bindings = .ok plan) : plan.Canonical := by
  obtain ⟨node, hnode, rfl⟩ := compile_eq_ok.mp h
  have hcarries := ofNode_carries (node_values _ _ _ _ _ hnode)
  have hpart : ∀ {values : Option (List ComparisonValue)} {part : Option Statement},
      Option.Rel (Bound ⟨schema, request.relationships, bindings⟩) values
        (part.map Statement.params) → ∀ statement ∈ part, statement.Canonical := by
    rintro values part h statement ⟨⟩
    cases h with
    | some hbound => exact hbound.canonical
  exact ⟨hpart hcarries.rows, hpart hcarries.aggregates, hpart hcarries.groups⟩

end Compile

/-- Compiled plans are told apart by their documents, by their texts if no two of their doubles are
printed alike, and by their fingerprints unless their texts collide: which parts they have, the SQL
of each, and the kinds and values of all parameters. -/
theorem compiled_plans_told_apart {schema other : Schema} {request second : Request}
    {bindings others : VariableSet} {plan found : Plan}
    (hplan : request.compile schema bindings = .ok plan)
    (hfound : second.compile other others = .ok found) :
    (plan.json = found.json → plan = found) ∧
      (Json.PrintedApart plan.json.doubles found.json.doubles →
        (plan.json.text = found.json.text → plan = found) ∧
        (plan.fingerprint = found.fingerprint →
          plan = found ∨ Sha256.Collide plan.json.text found.json.text)) := by
  have hinj : plan.json = found.json → plan = found :=
    Plan.json_inj (Compile.canonical_compiled hplan) (Compile.canonical_compiled hfound)
  refine ⟨hinj, fun hapart => ⟨fun htext => hinj (Json.text_inj hapart htext), ?_⟩⟩
  intro hfingerprint
  by_cases htext : plan.json.text = found.json.text
  · exact .inl (hinj (Json.text_inj hapart htext))
  · exact .inr ⟨htext, hfingerprint⟩

/-- The plans of one request for a seller by number and by text. -/
theorem bought_plans_told_apart : ∃ plan found : Plan,
    Compile.boughtRequest.compile Compile.tradeContext.schema
        [("seller", .number (.ofUInt32 3))] = .ok plan ∧
      Compile.boughtRequest.compile Compile.tradeContext.schema [("seller", .string "3")] =
        .ok found ∧
      plan.json.text ≠ found.json.text := by
  have hplan : Compile.boughtRequest.compile Compile.tradeContext.schema
    [("seller", .number (.ofUInt32 3))] = .ok _ := rfl
  have hfound : Compile.boughtRequest.compile Compile.tradeContext.schema
    [("seller", .string "3")] = .ok _ := rfl
  refine ⟨_, _, hplan, hfound, fun htext => ?_⟩
  have heq := ((compiled_plans_told_apart hplan hfound).2 (List.forall_mem_nil _)).1 htext
  have hparams := congrArg (fun plan => plan.groups.map Statement.params) heq
  exact absurd (Option.some.inj hparams) (by decide)

end NestedSql
