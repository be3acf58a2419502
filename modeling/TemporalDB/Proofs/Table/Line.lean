import TemporalDB.Database
import TemporalDB.Proofs.Table.Present
import TemporalDB.Proofs.Text.Line
import TemporalDB.Proofs.Value

/-!
# Lines of a table's file

A line has the fields of a row with bars between them, and perhaps one more bar at the end. Whether
that bar is there makes a difference for one kind of row only: the bar at the end of a line never
counts as the one in front of a field with nothing in it. Main statement:
`closing_bar_optional_iff`.
-/

namespace TemporalDB

open Text

def ScalarType.holdsText : ScalarType → Bool
  | char _ | varchar _ => true
  | _ => false

/-- What a column takes a field for: nothing is null where null may stand and no text, and anything
else is what the column's type reads. -/
inductive Column.Takes (c : Column) : String → Value → Prop
  | nothing (nullable : c.notNull = false) (plain : c.type.holdsText = false) : c.Takes "" .null
  | value {field : String} {v : Value}
      (given : field = "" → c.notNull = true ∨ c.type.holdsText = true)
      (read : c.type.readValue field = .ok v) : c.Takes field v

def joined (fields : List String) : List Char := ['|'].intercalate (fields.map String.toList)

/-- The line has the fields, with or without a bar after the last. A line that ends in a bar is not
one without. -/
structure HasFields (line : List Char) (fields : List String) : Prop where
  nonempty : fields ≠ []
  plain : ∀ field ∈ fields, '|' ∉ field.toList
  text : line = joined fields ++ ['|'] ∨ line = joined fields ∧ line.getLast? ≠ some '|'

/-- The line has a field for every column of a relation, and what the columns take them for is the
row. -/
def Relation.Spells (r : Relation) (line : List Char) (row : Row) : Prop :=
  ∃ fields, HasFields line fields ∧ fields.length = r.arity ∧
    List.Forall₂ (fun (c, field) v => Column.Takes c field v) (r.columns.zip fields) row

namespace Table

variable {r : Relation} {c : Column} {field : String} {v : Value} {row : Row} {now : Instant}
  {line : List Char} {fields : List String} {t : Table}

/-! ## Fields -/

theorem readField_eq (c : Column) (field : String) : readField c field =
    if field = "" ∧ c.notNull = false ∧ c.type.holdsText = false then .ok .null
    else c.type.readValue field := by
  unfold readField ScalarType.holdsText
  cases c.type <;> cases c.notNull <;> simp

theorem readField_eq_ok_iff : readField c field = .ok v ↔ c.Takes field v := by
  rw [readField_eq]
  split
  · next absent =>
      obtain ⟨rfl, nullable, plain⟩ := absent
      constructor
      · rintro ⟨⟩
        exact .nothing nullable plain
      · rintro (_ | ⟨given, -⟩)
        · rfl
        · rcases given rfl with h | h
          · rw [nullable] at h
            cases h
          · rw [plain] at h
            cases h
  · next present =>
      constructor
      · intro read
        refine .value (fun empty => ?_) read
        by_contra h
        rw [not_or, Bool.not_eq_true, Bool.not_eq_true] at h
        exact present ⟨empty, h⟩
      · rintro (⟨nullable, plain⟩ | ⟨-, read⟩)
        · exact absurd ⟨rfl, nullable, plain⟩ present
        · exact read

/-- A column that takes a field for a value may hold the value. -/
theorem admits_of_takes (h : c.Takes field v) : c.Admits v := by
  cases h with
  | nothing nullable plain =>
      exact ⟨rfl, fun forbidden => absurd (nullable.symm.trans forbidden) Bool.false_ne_true⟩
  | value given read =>
      obtain ⟨conforms, present⟩ := ScalarType.conforms_of_readValue read
      exact ⟨conforms, fun _ => present⟩

/-! ## Bars -/

theorem dropBar_append : dropBar (line ++ ['|']) = line := by
  unfold dropBar
  rw [List.reverse_append]
  exact List.reverse_reverse line

theorem dropBar_eq_self (h : line.getLast? ≠ some '|') : dropBar line = line := by
  unfold dropBar
  split
  · next rest hr =>
      exact absurd (by rw [← List.head?_reverse, hr, List.head?_cons]) h
  · rfl

/-- A line is what it is without the bar at its end, or has one there. -/
theorem dropBar_cases (line : List Char) :
    line = dropBar line ++ ['|'] ∨ line = dropBar line ∧ line.getLast? ≠ some '|' := by
  by_cases h : line.getLast? = some '|'
  · obtain ⟨front, rfl⟩ := List.getLast?_eq_some_iff.mp h
    rw [dropBar_append]
    exact .inl rfl
  · exact .inr ⟨(dropBar_eq_self h).symm, h⟩

/-- **A line is taken apart into the fields that it has.** -/
theorem fieldsOf_eq_iff : fieldsOf line = fields ↔ HasFields line fields := by
  unfold fieldsOf
  constructor
  · rintro rfl
    refine ⟨List.map_eq_nil_iff.not.mpr splitAt_ne_nil, ?_, ?_⟩
    · rw [List.forall_mem_map]
      intro piece hpiece
      rw [String.toList_ofList]
      exact not_mem_of_mem_splitAt piece hpiece
    · have pieces : ((splitAt '|' (dropBar line)).map String.ofList).map String.toList =
          splitAt '|' (dropBar line) := by simp
      rw [joined, pieces, intercalate_splitAt]
      exact dropBar_cases line
  · rintro ⟨nonempty, plain, text⟩
    have pieces : splitAt '|' (joined fields) = fields.map String.toList :=
      splitAt_intercalate (List.map_eq_nil_iff.not.mpr nonempty) (List.forall_mem_map.mpr plain)
    have bare : dropBar line = joined fields := by
      rcases text with rfl | ⟨same, ending⟩
      · exact dropBar_append
      · rw [dropBar_eq_self ending, same]
    rw [bare, pieces]
    simp

/-! ## Rows -/

/-- **A line is read as the row that it spells.** -/
theorem readRow_eq_ok_iff : readRow r line = .ok row ↔ r.Spells line row := by
  unfold readRow Relation.Spells
  simp only [← fieldsOf_eq_iff, ← readField_eq_ok_iff, exists_eq_left']
  split
  · next length =>
      rw [mapError_eq_ok_iff, mapM_eq_ok_iff]
      exact (and_iff_right length).symm
  · next other => simp [other]

/-- A line with other fields than the relation has columns is refused for their number. -/
theorem readRow_of_length_ne (h : HasFields line fields) (other : fields.length ≠ r.arity) :
    readRow r line = .error (.fieldCount r.arity fields.length) := by
  unfold readRow
  rw [fieldsOf_eq_iff.mpr h]
  exact if_neg other

theorem admits_of_spells (h : r.Spells line row) : r.Admits row := by
  obtain ⟨fields, -, length, takes⟩ := h
  obtain ⟨same, takes⟩ := List.forall₂_iff_zip.mp takes
  have arity : (r.columns.zip fields).length = r.arity := by
    rw [List.length_zip, length, Relation.arity, Nat.min_self]
  refine ⟨same.symm.trans arity, fun i c v hc hv => ?_⟩
  obtain ⟨hi, -⟩ := List.getElem?_eq_some_iff.mp hc
  obtain ⟨field, hfield⟩ : ∃ field, fields[i]? = some field :=
    ⟨_, List.getElem?_eq_getElem (length.symm ▸ hi)⟩
  have here : ((c, field), v) ∈ (r.columns.zip fields).zip row :=
    List.mem_of_getElem? (List.getElem?_zip_eq_some.mpr
      ⟨List.getElem?_zip_eq_some.mpr ⟨hc, hfield⟩, hv⟩)
  exact admits_of_takes (takes here)

/-! ## The bar at the end -/

theorem loadLine_congr {line' : List Char} (h : HasFields line fields)
    (h' : HasFields line' fields) : loadLine now t line = loadLine now t line' := by
  unfold loadLine readRow
  rw [fieldsOf_eq_iff.mpr h, fieldsOf_eq_iff.mpr h']

theorem not_blank_append_bar : (trim (line ++ ['|'])).isEmpty = false := by
  rw [List.isEmpty_eq_false_iff, Ne, trim_eq_nil_iff]
  intro blank
  exact absurd (blank '|' (List.mem_append_right _ List.mem_cons_self)) (by decide)

theorem loadLines_cons (filled : (trim line).isEmpty = false) (number : Nat)
    (rest : List (List Char)) : t.loadLines now number (line :: rest) =
      match loadLine now t line with
      | .error fault => .error (number, fault)
      | .ok t => t.loadLines now (number + 1) rest := by
  rw [loadLines]
  exact if_neg (by rw [filled]; exact Bool.false_ne_true)

theorem joined_append_singleton {front : List String} (some : front ≠ []) (last : String) :
    joined (front ++ [last]) = joined front ++ '|' :: last.toList := by
  unfold joined
  rw [List.map_append]
  exact intercalate_append_singleton (List.map_eq_nil_iff.not.mpr some)

/-- A line has its fields when it ends in a bar after them. -/
theorem hasFields_closed (nonempty : fields ≠ []) (plain : ∀ field ∈ fields, '|' ∉ field.toList) :
    HasFields (joined fields ++ ['|']) fields :=
  ⟨nonempty, plain, .inl rfl⟩

/-- A line has its fields without a bar after them, if the last of them is not empty. -/
theorem hasFields_joined (plain : ∀ field ∈ fields, '|' ∉ field.toList) {last : String}
    (ending : fields.getLast? = some last) (given : last ≠ "") :
    HasFields (joined fields) fields := by
  obtain ⟨front, rfl⟩ := List.getLast?_eq_some_iff.mp ending
  refine ⟨by simp, plain, .inr ⟨rfl, ?_⟩⟩
  obtain ⟨start, split⟩ : ∃ start, joined (front ++ [last]) = start ++ last.toList := by
    by_cases some : front = []
    · exact ⟨[], by rw [some, joined]; exact List.intercalate_singleton ..⟩
    · exact ⟨joined front ++ ['|'], by rw [joined_append_singleton some, List.append_assoc]; rfl⟩
  intro bar
  rw [split, List.getLast?_append_of_ne_nil _ (String.toList_eq_nil_iff.not.mpr given)] at bar
  exact plain last (List.mem_append_right _ List.mem_cons_self) (List.mem_of_mem_getLast? bar)

/-- Without a bar after them, fields of which the last is empty are a line without that field. -/
theorem hasFields_joined_of_empty {front : List String} (some : front ≠ [])
    (plain : ∀ field ∈ front, '|' ∉ field.toList) : HasFields (joined (front ++ [""])) front := by
  rw [joined_append_singleton some]
  exact hasFields_closed some plain

/-- With something in the last field a line is loaded alike with and without a bar at its end. -/
theorem loadLines_closed (t : Table) (now : Instant) (number : Nat)
    (plain : ∀ field ∈ fields, '|' ∉ field.toList)
    (filled : (trim (joined fields)).isEmpty = false) (given : fields.getLast? ≠ some "")
    (rest : List (List Char)) : t.loadLines now number (joined fields :: rest) =
      t.loadLines now number ((joined fields ++ ['|']) :: rest) := by
  cases ending : fields.getLast? with
  | none =>
      rw [List.getLast?_eq_none_iff.mp ending] at filled
      cases filled
  | some last =>
      have nonempty : fields ≠ [] := List.ne_nil_of_mem (List.mem_of_mem_getLast? ending)
      rw [loadLines_cons filled, loadLines_cons not_blank_append_bar,
        loadLine_congr (hasFields_joined plain ending fun h => given (h ▸ ending))
          (hasFields_closed nonempty plain)]

/-- With nothing in the last field a line without a bar at its end has a field too few. -/
theorem loadLines_of_empty (now : Instant) (number : Nat)
    (length : fields.length = t.relation.arity) (plain : ∀ field ∈ fields, '|' ∉ field.toList)
    (filled : (trim (joined fields)).isEmpty = false) (ending : fields.getLast? = some "")
    (rest : List (List Char)) : t.loadLines now number (joined fields :: rest) =
      .error (number, .fieldCount t.relation.arity (t.relation.arity - 1)) := by
  obtain ⟨front, rfl⟩ := List.getLast?_eq_some_iff.mp ending
  have some : front ≠ [] := by
    rintro rfl
    cases filled
  have fields := hasFields_joined_of_empty some fun field hfield =>
    plain field (List.mem_append_left _ hfield)
  rw [List.length_append, List.length_singleton] at length
  have read := readRow_of_length_ne (r := t.relation) fields (by omega)
  rw [loadLines_cons filled, loadLine, read, ← length, Nat.add_sub_cancel]
  rfl

/-- **The bar at the end of a line is optional where something is in the last field.** Take a field
for every column, none with a bar in it, which do not make a blank line, and anything that follows
in the file. With something in the last field the line is loaded alike with and without a bar at
its end. With nothing there, the line without that bar is refused for the number of its fields. So
the two lines have the same effect just if something is in the last field, or if the line with the
bar is refused, too. -/
theorem closing_bar_optional_iff (t : Table) (now : Instant) (number : Nat)
    (length : fields.length = t.relation.arity) (plain : ∀ field ∈ fields, '|' ∉ field.toList)
    (filled : (trim (joined fields)).isEmpty = false) :
    (fields.getLast? ≠ some "" → ∀ rest, t.loadLines now number (joined fields :: rest) =
      t.loadLines now number ((joined fields ++ ['|']) :: rest)) ∧
    (fields.getLast? = some "" → ∀ rest, t.loadLines now number (joined fields :: rest) =
      .error (number, .fieldCount t.relation.arity (t.relation.arity - 1))) ∧
    ((t.loadLines now number [joined fields]).toOption =
        (t.loadLines now number [joined fields ++ ['|']]).toOption ↔
      fields.getLast? ≠ some "" ∨
        ∀ t', t.loadLines now number [joined fields ++ ['|']] ≠ .ok t') := by
  have alike := loadLines_closed t now number plain filled
  have refused := loadLines_of_empty now number length plain filled
  refine ⟨alike, refused, ?_⟩
  by_cases ending : fields.getLast? = some ""
  · -- the line without the bar is refused, so the other must be, too
    rw [refused ending, or_iff_right (not_not_intro ending)]
    cases t.loadLines now number [joined fields ++ ['|']] with
    | ok t' => exact ⟨fun same => (nomatch same), fun fails => absurd rfl (fails t')⟩
    | error fault => exact ⟨fun _ _ => nofun, fun _ => rfl⟩
  · exact ⟨fun _ => .inl ending, fun _ => by rw [alike ending]⟩

def crate : Relation :=
  ⟨"crate", [⟨"id", .integer, true⟩, ⟨"weight", .integer, false⟩], [0], false⟩

theorem closing_bar_optional_iff_crate :
    (["1", "7"].length = crate.arity ∧ (∀ field ∈ ["1", "7"], '|' ∉ field.toList) ∧
      (trim (joined ["1", "7"])).isEmpty = false) ∧
    ((new crate).loadLines .first 1 [joined ["1", "7"]]).toOption =
      ((new crate).loadLines .first 1 [joined ["1", "7"] ++ ['|']]).toOption := by
  have length : ["1", "7"].length = crate.arity := rfl
  have plain : ∀ field ∈ ["1", "7"], '|' ∉ field.toList := by decide
  have filled : (trim (joined ["1", "7"])).isEmpty = false := by decide
  obtain ⟨-, -, same⟩ := closing_bar_optional_iff (new crate) .first 1 length plain filled
  exact ⟨⟨length, plain, filled⟩, same.mpr (.inl (by decide))⟩

/-- A crate without a weight is loaded from a line with a bar at its end, and refused without. -/
theorem closing_bar_not_optional : ¬ ∀ (t : Table) (now : Instant) (fields : List String),
    fields.length = t.relation.arity → (∀ field ∈ fields, '|' ∉ field.toList) →
    (trim (joined fields)).isEmpty = false →
    (t.loadLines now 1 [joined fields]).toOption =
      (t.loadLines now 1 [joined fields ++ ['|']]).toOption := by
  intro same
  have lines := congrArg Option.isSome
    (same (new crate) .first ["1", ""] rfl (by decide) (by decide))
  have refused : ((new crate).loadLines .first 1 [joined ["1", ""]]).toOption.isSome = false := by
    decide +kernel
  have loaded : ((new crate).loadLines .first 1
      [joined ["1", ""] ++ ['|']]).toOption.isSome = true := by
    decide +kernel
  rw [refused, loaded] at lines
  cases lines

end Table

end TemporalDB
