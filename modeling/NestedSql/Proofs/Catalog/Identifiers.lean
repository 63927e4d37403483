import NestedSql.Catalog.Introspection
import NestedSql.Proofs.Reading.ReadBack

/-!
# Identifiers and storage texts

A storage text is read as the parts between its dots, and each part is quoted. Quoting loses
nothing, so the quoted text is the identifier of a table exactly if the storage text is that of the
table and no dot of the table's names has been read as a mark between parts.
-/

namespace NestedSql

namespace Sql

/-! ## Parts between dots -/

/-- No dot stands in the name. -/
def Undotted (name : String) : Prop := '.' ∉ name.toList

instance (name : String) : Decidable (Undotted name) := inferInstanceAs (Decidable (¬_))

theorem dotted_of_notMem {text : List Char} (h : '.' ∉ text) : dotted text = [text] := by
  induction text with
  | nil => rfl
  | cons c text ih =>
    rw [List.mem_cons, not_or] at h
    rw [dotted, if_neg (Ne.symm h.1), ih h.2]

theorem dotted_append {text : List Char} (h : '.' ∉ text) (rest : List Char) :
    dotted (text ++ '.' :: rest) = text :: dotted rest := by
  induction text with
  | nil => rfl
  | cons c text ih =>
    rw [List.mem_cons, not_or] at h
    rw [List.cons_append, dotted, if_neg (Ne.symm h.1), ih h.2]

theorem undotted_of_mem_dotted (text : List Char) : ∀ part ∈ dotted text, '.' ∉ part := by
  induction text with
  | nil => exact List.forall_mem_singleton.mpr List.not_mem_nil
  | cons c text ih =>
    rw [dotted]
    split
    · exact List.forall_mem_cons.mpr ⟨List.not_mem_nil, ih⟩
    · next hc =>
      split
      · exact List.forall_mem_singleton.mpr fun h => hc (List.mem_singleton.mp h).symm
      · next part parts hparts =>
        rw [hparts] at ih
        obtain ⟨hpart, hrest⟩ := List.forall_mem_cons.mp ih
        refine List.forall_mem_cons.mpr ⟨fun h => ?_, hrest⟩
        rcases List.mem_cons.mp h with h | h
        · exact hc h.symm
        · exact hpart h

/-- The parts with dots between them are the text. -/
theorem intercalate_dotted (text : List Char) : ['.'].intercalate (dotted text) = text := by
  induction text with
  | nil => rfl
  | cons c text ih =>
    rw [dotted]
    obtain ⟨part, parts, hparts⟩ := List.exists_cons_of_ne_nil (dotted_ne_nil text)
    rw [hparts] at ih ⊢
    split
    · next hc =>
      rw [List.intercalate_cons_cons, ih, hc]
      rfl
    · cases parts with
      | nil =>
        rw [List.intercalate_singleton] at ih ⊢
        rw [ih]
      | cons next parts =>
        rw [List.intercalate_cons_cons] at ih ⊢
        rw [List.cons_append, List.cons_append, ih]

/-- Three names are the parts of a storage text exactly if they have no dots and are put together
to it. -/
theorem parts_eq_iff {storage first second third : String} :
    parts storage = [first, second, third] ↔
      (Undotted first ∧ Undotted second ∧ Undotted third) ∧
        storage = first ++ "." ++ second ++ "." ++ third := by
  have hjoined : (first ++ "." ++ second ++ "." ++ third).toList =
      first.toList ++ '.' :: (second.toList ++ '.' :: third.toList) := by
    simp only [String.toList_append, List.append_assoc]
    rfl
  constructor
  · intro h
    have hdotted : dotted storage.toList = [first.toList, second.toList, third.toList] := by
      have hmap := congrArg (List.map String.toList) h
      have hid : String.toList ∘ String.ofList = id := funext fun _ => String.toList_ofList
      rwa [parts, List.map_map, hid, List.map_id] at hmap
    have hundotted := undotted_of_mem_dotted storage.toList
    have htext := intercalate_dotted storage.toList
    rw [hdotted] at hundotted htext
    obtain ⟨hfirst, hrest⟩ := List.forall_mem_cons.mp hundotted
    obtain ⟨hsecond, hlast⟩ := List.forall_mem_cons.mp hrest
    have hthird : Undotted third := hlast third.toList (List.mem_singleton_self _)
    refine ⟨⟨hfirst, hsecond, hthird⟩, String.toList_inj.mp ?_⟩
    rw [hjoined, ← htext, List.intercalate_cons_cons, List.intercalate_cons_cons,
      List.intercalate_singleton]
    simp only [List.append_assoc, List.singleton_append]
  · rintro ⟨⟨hfirst, hsecond, hthird⟩, rfl⟩
    rw [parts, hjoined, dotted_append hfirst, dotted_append hsecond, dotted_of_notMem hthird]
    simp only [List.map_cons, List.map_nil, String.ofList_toList]

/-! ## Quoted parts -/

theorem dottedTokens_inj : {names others : List String} →
    dottedTokens names = dottedTokens others → names = others
  | [], [], _ => rfl
  | [], [_], h | [], _ :: _ :: _, h | [_], [], h | _ :: _ :: _, [], h => nomatch h
  | [name], [other], h => by
    obtain ⟨hname, -⟩ := List.cons.inj h
    rw [Token.name.inj hname]
  | [_], _ :: _ :: _, h | _ :: _ :: _, [_], h => nomatch (List.cons.inj h).2
  | name :: next :: names, other :: later :: others, h => by
    obtain ⟨hname, hrest⟩ := List.cons.inj h
    rw [Token.name.inj hname, dottedTokens_inj (List.cons.inj hrest).2]

/-- Quoted names with dots between them tell all names. -/
theorem quoted_inj {names others : List String}
    (h : ".".intercalate (names.map ident) = ".".intercalate (others.map ident)) :
    names = others := by
  obtain ⟨bare, hbare, hnames⟩ := cuts_table_parts names
  obtain ⟨found, hfound, hothers⟩ := cuts_table_parts others
  rw [h] at hbare
  obtain rfl := Option.some.inj (hbare.tokens?_eq.symm.trans hfound.tokens?_eq)
  exact dottedTokens_inj (Option.some.inj (hnames.symm.trans hothers))

end Sql

namespace Catalog

/-- The storage text of the table. -/
def Table.storage (table : Table) : String :=
  table.catalog ++ "." ++ table.schema ++ "." ++ table.name

/-- The identifier of the table: the quoted names of its catalog, its schema and its own. -/
def Table.identifier (table : Table) : String :=
  Sql.ident table.catalog ++ "." ++ Sql.ident table.schema ++ "." ++ Sql.ident table.name

/-- No dot stands in the three names of the table. -/
def Table.Undotted (table : Table) : Prop :=
  Sql.Undotted table.catalog ∧ Sql.Undotted table.schema ∧ Sql.Undotted table.name

instance (table : Table) : Decidable table.Undotted := inferInstanceAs (Decidable (_ ∧ _))

/-- A quoted storage text is the identifier of a table exactly if it is that of the table and its
parts are the names. -/
theorem quoted_eq_identifier_iff {storage : String} {table : Table} :
    Sql.table storage = table.identifier ↔ table.Undotted ∧ storage = table.storage := by
  have hidentifier : table.identifier =
      ".".intercalate ([table.catalog, table.schema, table.name].map Sql.ident) := by
    simp only [List.map_cons, List.map_nil, String.intercalate_cons_cons,
      String.intercalate_singleton, Table.identifier, String.append_assoc]
  rw [Sql.table, hidentifier, Table.Undotted, Table.storage, ← Sql.parts_eq_iff]
  exact ⟨Sql.quoted_inj, fun h => by rw [h]⟩

end Catalog

end NestedSql
