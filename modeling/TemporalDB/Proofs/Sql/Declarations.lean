import Mathlib.Data.List.Pairwise
import TemporalDB.Proofs.Sql.Grammar

/-!
# What declarations ensure

In a schema that was read, no two relations have the same name, and neither have two columns of one
relation. Every relation has a key, which has columns, and they are columns of the relation.
-/

namespace TemporalDB

open Text

/-- No two names are the same but for the case of letters. -/
def NamesDiffer (names : List String) : Prop := names.Pairwise fun a b => sameName a b = false

instance {names : List String} : Decidable (NamesDiffer names) :=
  inferInstanceAs (Decidable (names.Pairwise _))

theorem namesDiffer_append_singleton {names : List String} {name : String} :
    NamesDiffer (names ++ [name]) ↔
      NamesDiffer names ∧ ∀ other ∈ names, sameName other name = false := by
  unfold NamesDiffer
  rw [List.pairwise_append]
  simp

/-- A relation as a declaration can give it. -/
structure Relation.Declared (r : Relation) : Prop where
  columns : NamesDiffer (r.columns.map (·.name))
  key_ne_nil : r.primaryKey ≠ []
  key_lt : ∀ i ∈ r.primaryKey, i < r.arity

/-- A schema as declarations can give it. -/
structure Schema.Declared (s : Schema) : Prop where
  names : NamesDiffer (s.relations.map (·.name))
  relations : ∀ r ∈ s.relations, r.Declared

namespace Sql

open TemporalDB.Sql.Parser TemporalDB.Sql.Parser.Ensures

/-- A relation while it is read: its columns have different names, and a key has columns. -/
structure Draft.Declared (d : Draft) : Prop where
  columns : NamesDiffer (d.columns.map (·.name))
  key : ∀ names ∈ d.key, names ≠ []

variable {relation : String} {d d' : Draft}

theorem declared_withKey {names : List String} (hd : d.Declared) (some : names ≠ [])
    (h : d.withKey relation names = .ok d') : d'.Declared := by
  unfold Draft.withKey at h
  split at h
  · cases h
  · cases h
    exact ⟨hd.columns, by rintro _ ⟨⟩; exact some⟩

theorem declared_withColumn {c : Column} {key : Bool} (hd : d.Declared)
    (h : d.withColumn relation c key = .ok d') : d'.Declared := by
  have columns := withColumn_columns h
  unfold Draft.withColumn at h
  split_ifs at h with taken isKey
  all_goals
    have different : NamesDiffer ((d.columns ++ [c]).map (·.name)) := by
      rw [List.map_append, List.map_singleton, namesDiffer_append_singleton]
      refine ⟨hd.columns, ?_⟩
      simpa using taken
  · obtain ⟨keyed, hk, h⟩ := bind_eq_ok_iff.mp h
    have key := (declared_withKey hd (List.cons_ne_nil _ _) hk).key
    cases h
    exact ⟨columns ▸ different, key⟩
  · cases h
    exact ⟨different, hd.key⟩

theorem declared_element (hd : d.Declared) : (element relation d).Ensures Draft.Declared := by
  have names : (parenthesized identifier).Ensures fun names => names ≠ [] :=
    seq fun _ => separated_ne_nil.bind fun names some => seq fun _ => pure some
  unfold element
  refine seq fun primary => ite (fun _ => ?_) fun _ => ?_
  · extract_lets named
    have keyed : ∀ u, (named u).Ensures Draft.Declared := fun _ =>
      names.bind fun names some => pure ⟨hd.columns, by rintro _ ⟨⟩; exact some⟩
    exact ite (fun _ => seq keyed) fun _ => keyed ()
  · exact seq fun ⟨c, key⟩ => ofExcept fun d' h => declared_withColumn hd h

theorem declared_elements : (elements relation).Ensures Draft.Declared := by
  -- Each element goes on from the draft that the elements before it have made.
  have upTo : ∀ bound d, d.Declared → (elementsUpTo relation bound d).Ensures Draft.Declared := by
    intro bound
    induction bound with
    | zero => exact fun d hd => (declared_element hd).bind fun d' hd' => seq fun _ => pure hd'
    | succ bound ih =>
        intro d hd
        refine (declared_element hd).bind fun d' hd' => seq fun more => ite (fun _ => ih d' hd') ?_
        exact fun _ => seq fun _ => pure hd'
  intro c d rest h
  exact upTo _ ⟨[], none⟩ ⟨.nil, by rintro _ ⟨⟩⟩ c d rest h

theorem keyIndexes_eq_ok {columns : List Column} {found key : List Nat} {names : List String}
    (h : keyIndexes relation columns found names = .ok key)
    (before : ∀ i ∈ found, i < columns.length) :
    key.length = found.length + names.length ∧ ∀ i ∈ key, i < columns.length := by
  induction names generalizing found with
  | nil =>
      cases h
      exact ⟨rfl, before⟩
  | cons name names ih =>
      unfold keyIndexes at h
      split at h
      · cases h
      · next i hi =>
          split_ifs at h
          have inside : i < columns.length := (List.findIdx?_eq_some_iff_findIdx_eq.mp hi).1
          obtain ⟨length, after⟩ := ih h (by
            rw [List.forall_mem_append]
            exact ⟨before, List.forall_mem_singleton.mpr inside⟩)
          refine ⟨?_, after⟩
          rw [length, List.length_append, List.length_singleton, List.length_cons]
          omega

theorem declared_relation {name : String} {temporal : Bool} {r : Relation} (hd : d.Declared)
    (h : d.relation name temporal = .ok r) : r.Declared := by
  unfold Draft.relation at h
  split at h
  · cases h
  · next names hnames =>
      obtain ⟨key, hkey, h⟩ := bind_eq_ok_iff.mp h
      cases h
      obtain ⟨length, inside⟩ := keyIndexes_eq_ok hkey (List.forall_mem_nil _)
      refine ⟨?_, ?_, ?_⟩
      · have same : (d.columns.mapIdx fun i c =>
            { c with notNull := c.notNull || key.contains i }).map (·.name) =
              d.columns.map (·.name) := by
          apply List.ext_getElem <;> simp
        show NamesDiffer (List.map _ (List.mapIdx _ d.columns))
        rw [same]
        exact hd.columns
      · rw [← List.length_pos_iff]
        have some : 0 < names.length := List.length_pos_iff.mpr (hd.key names hnames)
        show 0 < key.length
        omega
      · intro i hi
        show i < (List.mapIdx _ d.columns).length
        rw [List.length_mapIdx]
        exact inside i hi

theorem declared_createTable : createTable.Ensures Relation.Declared := by
  unfold createTable
  refine seq fun _ => seq fun _ => seq fun name => seq fun _ => declared_elements.bind ?_
  exact fun d hd => seq fun temporal => ofExcept fun r h => declared_relation hd h

theorem declared_schemaStep {s : Schema} (hs : s.Declared) :
    (schemaStep s).Ensures fun o => ∀ s' ∈ o, s'.Declared := by
  intro c o rest h
  rcases schemaStep_cases h with rfl | rfl | ⟨r, c', hr, new, rfl⟩
  · rintro _ ⟨⟩
  · rintro _ ⟨⟩
    exact hs
  · rintro _ ⟨⟩
    refine ⟨?_, ?_⟩
    · rw [List.map_append, List.map_singleton, namesDiffer_append_singleton]
      refine ⟨hs.names, ?_⟩
      rw [List.forall_mem_map]
      intro other hother
      simpa using List.find?_eq_none.mp new other hother
    · rw [List.forall_mem_append]
      exact ⟨hs.relations, List.forall_mem_singleton.mpr (declared_createTable _ _ _ hr)⟩

/-- **In a schema that was read names differ and keys are there.** -/
theorem declared_of_parseSchema {text : String} {s : Schema} (h : parseSchema text = .ok s) :
    s.Declared := by
  have ensures : (repeated schemaStep ⟨[]⟩).Ensures Schema.Declared :=
    Ensures.repeated (fun _ hs => declared_schemaStep hs) ⟨.nil, List.forall_mem_nil _⟩
  obtain ⟨tokens, -, h⟩ := bind_eq_ok_iff.mp h
  exact ensures.run h

end Sql

end TemporalDB
