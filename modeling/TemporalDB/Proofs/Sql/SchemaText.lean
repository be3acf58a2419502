import TemporalDB.Proofs.Sql.WellFormed
import TemporalDB.Proofs.Sql.Writing

/-!
# Schemas written as declarations

    CREATE TABLE name (name type [NOT NULL], ..., PRIMARY KEY (name, ...)) [WITH SYSTEM VERSIONING];

A schema is written as one such declaration for each of its relations. A well-formed schema is read
back from what it is written as. Main statement: `parseSchema_yields_wellFormed`.
-/

namespace TemporalDB

inductive Element where
  | column (c : Column)
  /-- The names of the key's columns. -/
  | key (names : List String)

def Element.text : Element → String
  | column c => c.name ++ " " ++ c.type.text ++ (if c.notNull then " NOT NULL" else "")
  | key names => "PRIMARY KEY (" ++ Query.commaSeparated names ++ ")"

namespace Relation

def keyNames (r : Relation) : List String :=
  r.primaryKey.map fun i => (r.columns[i]?.map (·.name)).getD ""

def elements (r : Relation) : List Element := r.columns.map .column ++ [.key r.keyNames]

def declaration (r : Relation) : String :=
  "CREATE TABLE " ++ r.name ++ " (" ++ Query.commaSeparated (r.elements.map Element.text) ++ ")" ++
    (if r.temporal then " WITH SYSTEM VERSIONING" else "") ++ ";"

end Relation

def Schema.declaration (s : Schema) : String :=
  String.intercalate "\n" (s.relations.map Relation.declaration)

namespace Sql

open Text TemporalDB.Sql.Parser

variable {c c' c₁ : Cursor}

/-! ## The tokens of a declaration -/

def countTokens (n : Nat) : List Token := [.number (showNat n)]

def typeTokens (type : ScalarType) : List Token :=
  [.word type.name] ++ if type.arguments = [] then [] else enclosedTokens countTokens type.arguments

def elementTokens : Element → List Token
  | .column c =>
    [.word c.name] ++ typeTokens c.type ++ if c.notNull then [.word "NOT", .word "NULL"] else []
  | .key names => [.word "PRIMARY", .word "KEY"] ++ enclosedTokens nameTokens names

def declarationTokens (r : Relation) : List Token :=
  [Token.word "CREATE"] ++ [Token.word "TABLE"] ++ [Token.word r.name] ++ [Token.leftParen] ++
    commaTokens elementTokens r.elements ++ [Token.rightParen] ++
    if r.temporal then [.word "WITH", .word "SYSTEM", .word "VERSIONING"] else []

def relationTokens (r : Relation) : List Token := declarationTokens r ++ [.semicolon]

def schemaTokens (s : Schema) : List Token := separatedTokens [] relationTokens s.relations

/-! ## They are read -/

inductive IsCount : Phrase Nat
  | numeral {n k : Nat} {text : String} (h : readCount bound32 text.toList = some k) :
      IsCount n [.number text] k

theorem reads_count : count.Reads IsCount := by
  intro c k c'
  rw [count_eq_ok]
  constructor
  · rintro ⟨text, taken, h⟩
    exact ⟨_, taken.passes, .numeral h⟩
  · rintro ⟨_, passes, ⟨h⟩⟩
    exact ⟨_, Cursor.passes_singleton_iff.mp passes, h⟩

theorem inhabited_isCount : IsCount.Inhabited := by
  rintro _ _ _ ⟨⟩
  exact List.cons_ne_nil _ _

theorem isCount_countTokens {n k : Nat} (h : k < bound32) : IsCount n (countTokens k) k :=
  .numeral (readCount_showNat h)

theorem listed_commaTokens {α : Type} {item : Phrase α} {write : α → List Token} {as : List α}
    {n : Nat} (some : as ≠ []) (h : ∀ a ∈ as, ∀ n, item n (write a) a) :
    Listed item n (commaTokens write as) as := by
  induction as generalizing n with
  | nil => exact absurd rfl some
  | cons a as ih =>
      obtain ⟨first, others⟩ := List.forall_mem_cons.mp h
      cases as with
      | nil => exact .last (first n)
      | cons b as => exact .more (first n) rfl (ih (List.cons_ne_nil _ _) others)

theorem enclosed_enclosedTokens {α : Type} {item : Phrase α} {write : α → List Token} {as : List α}
    {n : Nat} (some : as ≠ []) (h : ∀ a ∈ as, ∀ n, item n (write a) a) :
    Enclosed item n (enclosedTokens write as) as := .enclose (listed_commaTokens some h)

theorem scalarType_eq_ok {type : ScalarType} (storable : type.Storable)
    (passes : c.Passes (typeTokens type) c') (other : c'.next ≠ some .leftParen) :
    scalarType c = .ok (type, c') := by
  obtain ⟨c₁, name, passes⟩ := Cursor.passes_append_iff.mp passes
  have arguments : (do if ← opens then parenthesized count else pure [] :
      Parser (List Nat)) c₁ = .ok (type.arguments, c') := by
    split_ifs at passes with none
    · obtain rfl := Cursor.passes_nil_iff.mp passes
      rw [none]
      exact bind_eq_ok.mpr ⟨false, c₁, opens_eq_ok.mpr ⟨decide_eq_false other, rfl⟩, rfl⟩
    · have next : c₁.next = some .leftParen := passes.next
      refine bind_eq_ok.mpr ⟨true, c₁, opens_eq_ok.mpr ⟨decide_eq_true next, rfl⟩, ?_⟩
      refine (reads_parenthesized reads_count inhabited_isCount).mpr ⟨_, passes, ?_⟩
      exact enclosed_enclosedTokens none fun k hk n =>
        isCount_countTokens (ScalarType.lt_of_mem_arguments hk)
  unfold scalarType
  refine bind_eq_ok_iff.mpr ⟨(type.name, c₁), identifier_eq_ok.mpr ?_, ?_⟩
  · exact Cursor.passes_singleton_iff.mp name
  · refine bind_eq_ok_iff.mpr ⟨(type.arguments, c'), arguments, ?_⟩
    dsimp only
    rw [ScalarType.ofParts_name_arguments storable]

def Parts (next : Option Token) : Prop := next = some .comma ∨ next = some .rightParen

theorem Parts.not_isKeyword {next : Option Token} {k : String} (h : Parts next) :
    ∀ t ∈ next, ¬IsKeyword k t := by
  rintro t ht ⟨w, rfl, -⟩
  rcases h with rfl | rfl <;> cases ht

theorem columnOption_declines {o : ColumnOptions} (parts : Parts c.next) :
    columnOption o c = .ok (none, c) := by
  have left {ks : List String} {k : String} : keywords? (k :: ks) c = .ok (false, c) :=
    keywords?_of_next parts.not_isKeyword
  exact bind_eq_ok.mpr ⟨false, c, left, bind_eq_ok.mpr ⟨false, c, left,
    bind_eq_ok.mpr ⟨false, c, left, rfl⟩⟩⟩

theorem columnOptions_eq_ok {notNull : Bool}
    (passes : c.Passes (if notNull then [.word "NOT", .word "NULL"] else []) c')
    (parts : Parts c'.next) :
    repeated columnOption ⟨false, false⟩ c = .ok (⟨notNull, false⟩, c') := by
  refine repeated_eq_ok ?_
  cases notNull with
  | false =>
      obtain rfl := Cursor.passes_nil_iff.mp passes
      exact .done (columnOption_declines parts)
  | true =>
      have shorter := passes.length
      have taken := keywords?_eq_true.mpr ⟨_, keywords_self ["NOT", "NULL"], passes⟩
      refine .more (bind_eq_ok.mpr ⟨true, c', taken, rfl⟩) ?_ (.done (columnOption_declines parts))
      exact shorter ▸ Nat.lt_add_of_pos_left Nat.zero_lt_two

theorem column_eq_ok {col : Column} (storable : col.type.Storable)
    (passes : c.Passes (elementTokens (.column col)) c') (parts : Parts c'.next) :
    column c = .ok ((col, false), c') := by
  obtain ⟨c₂, passes, options⟩ := Cursor.passes_append_iff.mp passes
  obtain ⟨c₁, name, type⟩ := Cursor.passes_append_iff.mp passes
  have other : c₂.next ≠ some .leftParen := by
    split_ifs at options
    · rw [options.next]
      simp
    · obtain rfl := Cursor.passes_nil_iff.mp options
      rcases parts with parts | parts <;> simp [parts]
  refine bind_eq_ok.mpr ⟨col.name, c₁, ?_, ?_⟩
  · exact identifier_eq_ok.mpr (Cursor.passes_singleton_iff.mp name)
  · refine bind_eq_ok.mpr ⟨col.type, c₂, scalarType_eq_ok storable type other, ?_⟩
    exact bind_eq_ok.mpr ⟨_, c', columnOptions_eq_ok options parts, rfl⟩

/-! ## Elements -/

def Draft.add (d : Draft) : Element → Draft
  | .column c => { d with columns := d.columns ++ [c] }
  | .key names => { d with key := some names }

/-- An element that a draft can have. -/
def Draft.Admits (d : Draft) : Element → Prop
  | .column c => c.type.Storable ∧ ∀ other ∈ d.columns, sameName other.name c.name = false
  | .key names => d.key = none ∧ names ≠ []

/-- A column does not begin as a key does: its second word is the name of a type. -/
theorem not_key_of_column {col : Column} (passes : c.Passes (elementTokens (.column col)) c') :
    keywords? ["PRIMARY", "KEY"] c = .ok (false, c) := by
  refine keywords?_eq_false.mpr ⟨?_, rfl⟩
  rintro ⟨_, _, _ | ⟨-, _ | ⟨isKey, -⟩⟩, taken⟩
  obtain ⟨c₁, first, second⟩ := Cursor.passes_cons_iff.mp taken
  obtain ⟨_, passes, -⟩ := Cursor.passes_append_iff.mp passes
  obtain ⟨c₂, name, type⟩ := Cursor.passes_append_iff.mp passes
  have name := Cursor.passes_singleton_iff.mp name
  cases first.next.symm.trans name.next
  obtain rfl := first.unique name
  cases second.next.symm.trans type.next
  obtain ⟨_, ⟨⟩, same⟩ := isKey
  have other : ∀ type : ScalarType, sameName type.name "KEY" = false := by
    rintro (_ | _ | _ | _ | _) <;> (rw [ScalarType.name]; decide)
  rw [other] at same
  cases same

theorem element_eq_ok {relation : String} {d : Draft} {e : Element} (admits : d.Admits e)
    (passes : c.Passes (elementTokens e) c') (parts : Parts c'.next) :
    element relation d c = .ok (d.add e, c') := by
  cases e with
  | column col =>
      obtain ⟨storable, new⟩ := admits
      have added : d.withColumn relation col false = .ok (d.add (.column col)) := by
        have free : ¬(d.columns.any fun other => sameName other.name col.name) = true := by
          simpa using new
        unfold Draft.withColumn
        rw [if_neg free]
        rfl
      refine bind_eq_ok.mpr ⟨false, c, not_key_of_column passes, ?_⟩
      refine bind_eq_ok.mpr ⟨(col, false), c', column_eq_ok storable passes parts, ?_⟩
      dsimp only
      rw [added]
      rfl
  | key names =>
      obtain ⟨unkeyed, some⟩ := admits
      obtain ⟨c₁, primary, names⟩ := Cursor.passes_append_iff.mp passes
      have taken := keywords?_eq_true.mpr ⟨_, keywords_self ["PRIMARY", "KEY"], primary⟩
      have listed := (reads_parenthesized reads_identifier inhabited_isName).mpr
        ⟨_, names, enclosed_enclosedTokens some fun name _ n => .word n name⟩
      refine bind_eq_ok.mpr ⟨true, c₁, taken, ?_⟩
      simp only [unkeyed, Option.isSome_none, Bool.false_eq_true, if_false, if_true]
      exact bind_eq_ok.mpr ⟨_, c', listed, rfl⟩

def Draft.AdmitsAll : Draft → List Element → Prop
  | _, [] => True
  | d, e :: es => d.Admits e ∧ (d.add e).AdmitsAll es

theorem elementsUpTo_eq_ok {relation : String} {d : Draft} {e : Element} {es : List Element}
    {bound : Nat} (admits : d.AdmitsAll (e :: es))
    (passes : c.Passes (commaTokens elementTokens (e :: es)) c₁) (closes : c₁.Takes .rightParen c')
    (le : c.rest.length ≤ bound) :
    elementsUpTo relation bound d c = .ok ((e :: es).foldl Draft.add d, c') := by
  have some : ∀ e, elementTokens e ≠ [] := by
    rintro (_ | _) <;> exact List.cons_ne_nil _ _
  induction es generalizing d e c bound with
  | nil =>
      obtain ⟨bound, rfl, -⟩ := exists_bound (some e) passes le
      refine bind_eq_ok.mpr ⟨_, c₁, element_eq_ok admits.1 passes (.inr closes.next), ?_⟩
      -- the closing parenthesis is no comma, so this was the last
      have left : sign? .comma c₁ = .ok (false, c₁) :=
        sign?_eq_false.mpr ⟨by simp [closes.next], rfl⟩
      refine bind_eq_ok.mpr ⟨false, c₁, left, ?_⟩
      exact bind_eq_ok.mpr ⟨(), c', (sign_eq_ok (by simp)).mpr closes, rfl⟩
  | cons b es ih =>
      obtain ⟨c₃, front, others⟩ := Cursor.passes_append_iff.mp passes
      obtain ⟨c₂, first, comma⟩ := Cursor.passes_append_iff.mp front
      obtain ⟨bound, rfl, shorter⟩ := exists_bound (some e) first le
      have taken := (sign?_eq_true (by simp)).mpr (Cursor.passes_singleton_iff.mp comma)
      refine bind_eq_ok.mpr ⟨_, c₂, element_eq_ok admits.1 first (.inl comma.next), ?_⟩
      refine bind_eq_ok.mpr ⟨true, c₃, taken, ?_⟩
      refine ih admits.2 others ?_
      have length := comma.length
      omega

/-! ## Relations -/

theorem foldl_add_columns (d : Draft) (columns : List Column) :
    (columns.map Element.column).foldl Draft.add d =
      { d with columns := d.columns ++ columns } := by
  induction columns generalizing d with
  | nil => rw [List.append_nil]; rfl
  | cons col columns ih =>
      rw [List.map_cons, List.foldl_cons, ih]
      simp only [Draft.add, List.append_assoc, List.singleton_append]

/-- Columns whose names differ can be had one after the other, and a key after them. -/
theorem admitsAll_elements {d : Draft} {columns : List Column} {names : List String}
    (unkeyed : d.key = none) (some : names ≠ []) (storable : ∀ c ∈ columns, c.type.Storable)
    (differ : NamesDiffer ((d.columns ++ columns).map (·.name))) :
    d.AdmitsAll (columns.map .column ++ [.key names]) := by
  induction columns generalizing d with
  | nil => exact ⟨⟨unkeyed, some⟩, trivial⟩
  | cons col columns ih =>
      obtain ⟨first, others⟩ := List.forall_mem_cons.mp storable
      have split : (d.columns ++ col :: columns).map (·.name) =
          (d.columns.map (·.name) ++ [col.name]) ++ columns.map (·.name) := by simp
      have new := (List.pairwise_append.mp (split ▸ differ)).1
      refine ⟨⟨first, ?_⟩, ih unkeyed others ?_⟩
      · exact List.forall_mem_map.mp (namesDiffer_append_singleton.mp new).2
      · simpa [Draft.add] using differ

/-- Where names differ, every name leads back to its place. -/
theorem findIdx?_of_namesDiffer {columns : List Column} {i : Nat}
    (differ : NamesDiffer (columns.map (·.name))) (inside : i < columns.length) :
    (columns.findIdx? fun c => sameName c.name columns[i].name) = some i := by
  rw [List.findIdx?_eq_some_iff_getElem]
  refine ⟨inside, decide_eq_true rfl, fun j before => ?_⟩
  have different := List.pairwise_iff_getElem.mp (List.pairwise_map.mp differ)
  rw [different j i (Nat.lt_trans before inside) inside before]
  exact Bool.false_ne_true

/-- The names of the key's columns lead back to their places. -/
theorem keyIndexes_keyNames {relation : String} {columns : List Column} {found is : List Nat}
    (differ : NamesDiffer (columns.map (·.name))) (inside : ∀ i ∈ is, i < columns.length)
    (distinct : (found ++ is).Nodup) :
    keyIndexes relation columns found
      (is.map fun i => (columns[i]?.map (·.name)).getD "") = .ok (found ++ is) := by
  induction is generalizing found with
  | nil => rw [List.append_nil]; rfl
  | cons i is ih =>
      obtain ⟨here, others⟩ := List.forall_mem_cons.mp inside
      have new : ¬found.contains i = true := by
        intro taken
        exact (List.nodup_append.mp distinct).2.2 i (by simpa using taken) i List.mem_cons_self rfl
      rw [List.map_cons, List.getElem?_eq_getElem here, Option.map_some, Option.getD_some,
        keyIndexes, findIdx?_of_namesDiffer differ here]
      dsimp only
      rw [if_neg new, ih others (by simpa using distinct), List.append_assoc, List.singleton_append]

theorem relation_eq_ok {r : Relation} (h : r.WellFormed) :
    Draft.relation r.name ⟨r.columns, some r.keyNames⟩ r.temporal = .ok r := by
  have key : keyIndexes r.name r.columns [] r.keyNames = .ok r.primaryKey :=
    keyIndexes_keyNames h.differ h.key_lt h.key_nodup
  have columns : (r.columns.mapIdx fun i c =>
      { c with notNull := c.notNull || r.primaryKey.contains i }) = r.columns := by
    refine List.ext_getElem (by simp) fun i hi hi' => ?_
    have same : (r.columns[i].notNull || r.primaryKey.contains i) = r.columns[i].notNull := by
      by_cases mem : i ∈ r.primaryKey
      · rw [h.key_notNull i mem r.columns[i] (List.getElem?_eq_getElem hi'), Bool.true_or]
      · simp [mem]
    rw [List.getElem_mapIdx, same]
  unfold Draft.relation
  refine bind_eq_ok_iff.mpr ⟨r.primaryKey, key, ?_⟩
  dsimp only
  rw [columns]

theorem elements_eq_ok {relation : String} {r : Relation} (h : r.WellFormed)
    (passes : c.Passes (commaTokens elementTokens r.elements) c₁)
    (closes : c₁.Takes .rightParen c') :
    elements relation c = .ok (⟨r.columns, some r.keyNames⟩, c') := by
  have named : r.keyNames ≠ [] := by
    rw [Relation.keyNames, Ne, List.map_eq_nil_iff]
    exact h.key_ne_nil
  have admits : Draft.AdmitsAll ⟨[], none⟩ r.elements :=
    admitsAll_elements rfl named h.types h.differ
  have drafted : r.elements.foldl Draft.add ⟨[], none⟩ = ⟨r.columns, some r.keyNames⟩ := by
    rw [Relation.elements, List.foldl_append, foldl_add_columns]
    rfl
  obtain ⟨e, es, some⟩ := List.exists_cons_of_ne_nil (l := r.elements) (by simp [Relation.elements])
  rw [some] at passes admits drafted
  rw [← drafted]
  exact elementsUpTo_eq_ok admits passes closes (Nat.le_refl _)

theorem createTable_eq_ok {r : Relation} (h : r.WellFormed)
    (passes : c.Passes (declarationTokens r) c') (next : c'.next = some .semicolon) :
    createTable c = .ok (r, c') := by
  obtain ⟨c₆, passes, versioning⟩ := Cursor.passes_append_iff.mp passes
  simp only [Cursor.passes_append_iff, Cursor.passes_singleton_iff] at passes
  obtain ⟨c₅, ⟨c₄, ⟨c₃, ⟨c₂, ⟨c₁, create, table⟩, name⟩, opens⟩, elements⟩, closes⟩ := passes
  have temporal : keywords? ["WITH", "SYSTEM", "VERSIONING"] c₆ = .ok (r.temporal, c') := by
    split_ifs at versioning with temporal
    · rw [temporal]
      exact keywords?_eq_true.mpr ⟨_, keywords_self _, versioning⟩
    · obtain rfl := Cursor.passes_nil_iff.mp versioning
      rw [Bool.eq_false_iff.mpr temporal]
      refine keywords?_of_next ?_
      rw [next]
      rintro _ ⟨⟩ ⟨_, ⟨⟩, -⟩
  refine bind_eq_ok.mpr ⟨(), c₁, keyword_eq_ok.mpr ⟨_, keywords_self ["CREATE"], create.passes⟩, ?_⟩
  refine bind_eq_ok.mpr ⟨(), c₂, keyword_eq_ok.mpr ⟨_, keywords_self ["TABLE"], table.passes⟩, ?_⟩
  refine bind_eq_ok.mpr ⟨r.name, c₃, identifier_eq_ok.mpr name, ?_⟩
  refine bind_eq_ok.mpr ⟨(), c₄, (sign_eq_ok (by simp)).mpr opens, ?_⟩
  refine bind_eq_ok.mpr ⟨_, c₆, elements_eq_ok h elements closes, ?_⟩
  refine bind_eq_ok.mpr ⟨r.temporal, c', temporal, ?_⟩
  rw [relation_eq_ok h]
  rfl

/-! ## Schemas -/

theorem schemaStep_eq_ok {s : Schema} {r : Relation} (h : r.WellFormed)
    (new : s.relation? r.name = none) (passes : c.Passes (relationTokens r) c') :
    schemaStep s c = .ok (some ⟨s.relations ++ [r]⟩, c') := by
  obtain ⟨c₁, declared, semicolon⟩ := Cursor.passes_append_iff.mp passes
  have read := createTable_eq_ok h declared semicolon.next
  have first : c.next = some (.word "CREATE") := passes.next
  have left : sign? .semicolon c = .ok (false, c) := sign?_eq_false.mpr ⟨by simp [first], rfl⟩
  have taken : sign .semicolon c₁ = .ok ((), c') :=
    (sign_eq_ok (by simp)).mpr (Cursor.passes_singleton_iff.mp semicolon)
  have some : c.rest ≠ [] := passes.rest_ne_nil
  have more : c₁.rest ≠ [] := semicolon.rest_ne_nil
  unfold schemaStep
  simp [some, left, read, new, more, taken, ok_bind]

theorem schemaTokens_cons (r : Relation) (rs : List Relation) :
    schemaTokens ⟨r :: rs⟩ = relationTokens r ++ schemaTokens ⟨rs⟩ := by
  cases rs with
  | nil => exact (List.append_nil _).symm
  | cons r' rs =>
      show relationTokens r ++ [] ++ _ = _
      rw [List.append_nil]
      rfl

/-- Relations are read one after the other as long as their names are new. -/
theorem steps_of_passes {s : Schema} {rs : List Relation} (h : ∀ r ∈ rs, r.WellFormed)
    (differ : NamesDiffer ((s.relations ++ rs).map (·.name)))
    (passes : c.Passes (schemaTokens ⟨rs⟩) c') (ended : c'.rest = []) :
    Steps schemaStep s c ⟨s.relations ++ rs⟩ c' := by
  induction rs generalizing s c with
  | nil =>
      obtain rfl := Cursor.passes_nil_iff.mp passes
      rw [List.append_nil]
      refine .done ?_
      unfold schemaStep
      rw [if_pos (List.isEmpty_iff.mpr ended)]
  | cons r rs ih =>
      obtain ⟨wellFormed, others⟩ := List.forall_mem_cons.mp h
      rw [schemaTokens_cons] at passes
      obtain ⟨c₁, first, passes⟩ := Cursor.passes_append_iff.mp passes
      have split : (s.relations ++ r :: rs).map (·.name) =
          (s.relations.map (·.name) ++ [r.name]) ++ rs.map (·.name) := by simp
      -- the names so far and those to come differ, so the next one is new
      have new : s.relation? r.name = none := by
        have apart := (List.pairwise_append.mp (split ▸ differ)).1
        refine List.find?_eq_none.mpr fun other hother => ?_
        simpa using List.forall_mem_map.mp (namesDiffer_append_singleton.mp apart).2 other hother
      have shorter : c₁.rest.length < c.rest.length := by
        have length := first.length
        have pos : 0 < (relationTokens r).length := by simp [relationTokens]
        omega
      refine .more (schemaStep_eq_ok wellFormed new first) shorter ?_
      have step := ih (s := ⟨s.relations ++ [r]⟩) others (by simpa using differ) passes
      simpa using step

/-! ## They are written -/

theorem isWord_typeName (type : ScalarType) : IsWord type.name := by
  have all : ∀ w ∈ ["integer", "numeric", "char", "varchar", "timestamp"], IsWord w := by
    have read : ∀ w ∈ ["integer", "numeric", "char", "varchar", "timestamp"],
        tokens w = .ok [⟨.word w, 1⟩] := by decide +kernel
    exact fun w hw => isWord_iff.mpr (read w hw)
  refine all _ ?_
  cases type <;> (rw [ScalarType.name]; decide)

theorem writes_type (type : ScalarType) : Writes type.text (typeTokens type) := by
  have name := writes_word (isWord_typeName type)
  rw [ScalarType.text_eq_partsText, ScalarType.partsText, typeTokens]
  by_cases none : type.arguments = []
  · rw [if_pos (List.isEmpty_iff.mpr none), if_pos none, List.append_nil]
    exact name
  · have comma : Closes "," [.comma] := closes_token (t := .comma) trivial rfl
    have arguments := writes_intercalate comma (by decide) fun n (_ : n ∈ type.arguments) =>
      writes_showNat n
    have opened := name.append_closes closes_leftParen (by decide)
    have written := (opened.append_writes arguments).rightParen.writes
    rw [if_neg (mt List.isEmpty_iff.mp none), if_neg none, enclosedTokens, ← List.append_assoc,
      ← List.append_assoc]
    exact written

theorem writes_column {col : Column} (word : IsWord col.name) :
    Writes (Element.column col).text (elementTokens (.column col)) := by
  have last := writes_word (isWord_of_mem_keywords "NULL" (by decide))
  have both := closes_blank.append_writes ((closes_keyword "NOT" (by decide)).append_writes last)
  have notNull : Writes " NOT NULL" [.word "NOT", .word "NULL"] := both.of_eq (by decide)
  exact ((writes_word word).blank.append_writes (writes_type col.type)).append
    (writes_optional notNull col.notNull) (apart_optional (by decide) col.notNull)

theorem writes_key {names : List String} (words : ∀ name ∈ names, IsWord name) :
    Writes (Element.key names).text (elementTokens (.key names)) := by
  have primaryKey : Closes "PRIMARY KEY (" [.word "PRIMARY", .word "KEY", .leftParen] :=
    (((closes_keyword "PRIMARY" (by decide)).append (closes_keyword "KEY" (by decide))).append
      closes_leftParen).of_eq (by decide)
  have items : Writes (Query.commaSeparated names) (commaTokens nameTokens names) := by
    have each : ∀ name ∈ names, Writes name (nameTokens name) := fun name mem =>
      writes_word (words name mem)
    simpa using writes_commaSeparated each
  exact (primaryKey.append_writes items).rightParen.writes

theorem closes_declaration {r : Relation} (h : r.WellFormed) :
    Closes r.declaration (relationTokens r) := by
  have columns : ∀ c ∈ r.columns, IsWord c.name := fun c hc => isWord_iff.mpr (h.columns c hc)
  have keyNames : ∀ name ∈ r.keyNames, IsWord name := by
    refine List.forall_mem_map.mpr fun i hi => ?_
    rw [List.getElem?_eq_getElem (h.key_lt i hi)]
    exact columns _ (List.getElem_mem _)
  have elements : ∀ e ∈ r.elements, Writes e.text (elementTokens e) := by
    rw [Relation.elements, List.forall_mem_append, List.forall_mem_map, List.forall_mem_singleton]
    exact ⟨fun c hc => writes_column (columns c hc), writes_key keyNames⟩
  have begins : Closes "CREATE TABLE " [.word "CREATE", .word "TABLE"] :=
    ((closes_keyword "CREATE" (by decide)).append (closes_keyword "TABLE" (by decide))).of_eq
      (by decide)
  have parenthesis : Closes " (" [.leftParen] :=
    (closes_blank.append closes_leftParen).of_eq (by decide)
  have last := writes_word (isWord_of_mem_keywords "VERSIONING" (by decide))
  have all := closes_blank.append_writes ((closes_keyword "WITH" (by decide)).append_writes
    ((closes_keyword "SYSTEM" (by decide)).append_writes last))
  have versioning : Writes " WITH SYSTEM VERSIONING"
      [.word "WITH", .word "SYSTEM", .word "VERSIONING"] := all.of_eq (by decide)
  have named := begins.append_writes (writes_word (isWord_iff.mpr h.name))
  have listed := (named.append_closes parenthesis (by decide)).append_writes
    (writes_commaSeparated elements)
  have temporal := listed.rightParen.append_writes (writes_optional versioning r.temporal)
  exact temporal.append_closes closes_semicolon (by decide)

theorem writes_schema {s : Schema} (h : ∀ r ∈ s.relations, r.WellFormed) :
    Writes s.declaration (schemaTokens s) := by
  have line : Closes "\n" [] := fun _ _ later => .blank (by decide) later
  exact writes_intercalate line (by decide) fun r hr => (closes_declaration (h r hr)).writes

theorem parseSchema_declaration {s : Schema} (h : s.WellFormed) :
    parseSchema s.declaration = .ok s := by
  obtain ⟨ls, hls, same⟩ := (writes_schema h.relations).exists_tokens
  obtain ⟨c', passes, ended⟩ := Cursor.passes_all (Cursor.start ls)
  have passes : (Cursor.start ls).Passes (schemaTokens s) c' := same ▸ passes
  have steps := steps_of_passes (s := ⟨[]⟩) h.relations h.differ passes ended
  exact bind_eq_ok_iff.mpr ⟨ls, hls, run_eq_ok.mpr ⟨c', repeated_eq_ok steps⟩⟩

/-- **The schemas that texts declare are the well-formed ones.** Every schema that was read is
well-formed, and every well-formed schema is read back from its declarations. -/
theorem parseSchema_yields_wellFormed :
    (∀ text s, parseSchema text = .ok s → s.WellFormed) ∧
    ∀ s : Schema, s.WellFormed → parseSchema s.declaration = .ok s :=
  ⟨fun _ _ => wellFormed_of_parseSchema, fun _ => parseSchema_declaration⟩

/-- The statement at declarations with the names of keywords, a key before its columns, options that
take each other back and a semicolon too many. -/
theorem parseSchema_yields_wellFormed_modifiers :
    let text := "create table Primary (primary KEY (größe, key), KEY integer null, " ++
      "Größe Decimal(18,5) not null null, x_1 char(7) null not NULL) with System versioning;;\n" ++
      "CREATE TABLE b (a timestamp primary key null)"
    let s : Schema := ⟨[⟨"Primary", [⟨"KEY", .integer, true⟩, ⟨"Größe", .numeric 18 5, true⟩,
      ⟨"x_1", .char 7, true⟩], [1, 0], true⟩, ⟨"b", [⟨"a", .timestamp, true⟩], [0], false⟩]⟩
    parseSchema text = .ok s ∧ s.WellFormed ∧
    s.declaration = "CREATE TABLE Primary (KEY integer NOT NULL, Größe numeric(18,5) NOT NULL, " ++
      "x_1 char(7) NOT NULL, PRIMARY KEY (Größe, KEY)) WITH SYSTEM VERSIONING;\n" ++
      "CREATE TABLE b (a timestamp NOT NULL, PRIMARY KEY (a));" ∧
    parseSchema s.declaration = .ok s := by
  intro text s
  have read : parseSchema text = .ok s := by decide +kernel
  have wellFormed := parseSchema_yields_wellFormed.1 text s read
  exact ⟨read, wellFormed, by decide +kernel, parseSchema_yields_wellFormed.2 s wellFormed⟩

end Sql

end TemporalDB
