import TemporalDB.Encoding.CompiledUnit
import TemporalDB.Proofs.Encoding.Schema

/-!
# Units, encoded and decoded

Every unit comes back from its artifact if it is of the version that is read, and a unit of another
version is refused as such. Counts and places fit 64 bits.
-/

namespace TemporalDB

open Text Json

theorem Comparator.ofJson?_name {op : Comparator} :
    Comparator.ofJson? (.string op.name) = some op := by
  cases op <;> rfl

/-! ## Operands and filters -/

def Operand.Fits : Operand → Prop
  | .param i _ => i < bound64
  | .const .. => True

namespace Operand

variable {o : Operand}

theorem plain_toJson (h : o.Fits) : Plain 3 o.toJson := by
  have type : ∀ type : ScalarType, Plain 2 type.toJson := fun _ =>
    ScalarType.plain_toJson.mono (by decide)
  cases o with
  | param i t =>
      have place : Plain 2 (count i) := plain_count h
      exact .object (by simp [Plain.string, place, type])
  | const t v => exact .object (by simp [Plain.string, type, Value.plain_toJson])

theorem ofJson?_param {j parts place type : Json} {i : Nat} {t : ScalarType}
    (told : tagged "kind" ["param", "const"] j = some ("param", parts))
    (apart : fields ["index", "ty"] parts = some [some place, some type])
    (hplace : asCount bound64 place = some i) (htype : ScalarType.ofJson? true type = some t) :
    Operand.ofJson? j = some (param i t) := by
  rw [Operand.ofJson?, told]
  simp [apart, required_some, hplace, htype]

/-- **An operand comes back from its form in JSON.** -/
theorem ofJson?_toJson (h : o.Fits) : Operand.ofJson? o.toJson = some o := by
  have denotes : o.toJson.denotes = true := (plain_toJson h).denotes
  cases o with
  | param i type =>
      exact ofJson?_param (tagged_object denotes rfl rfl) rfl (asCount_count h)
        ScalarType.ofJson?_toJson
  | const type v =>
      have told : tagged "kind" ["param", "const"] (const type v).toJson =
          some ("const", .object [("ty", type.toJson), ("value", v.toJson)]) :=
        tagged_object denotes rfl rfl
      have parts : fields ["ty", "value"] (.object [("ty", type.toJson), ("value", v.toJson)]) =
          some [some type.toJson, some v.toJson] := rfl
      rw [Operand.ofJson?, told]
      simp [parts, required_some, ScalarType.ofJson?_toJson, Value.ofJson?_toJson]

end Operand

structure Filter.Fits (f : Filter) : Prop where
  column : f.column < bound64
  operand : f.operand.Fits

namespace Filter

variable {f : Filter}

theorem plain_toJson (h : f.Fits) : Plain 4 f.toJson := by
  have column : Plain 3 (count f.column) := plain_count h.column
  exact .object (by simp [Plain.string, column, Operand.plain_toJson h.operand])

theorem ofJson?_parts {j column op operand : Json}
    (apart : fields ["column", "op", "operand"] j = some [some column, some op, some operand])
    (hcolumn : asCount bound64 column = some f.column) (hop : Comparator.ofJson? op = some f.op)
    (hoperand : Operand.ofJson? operand = some f.operand) : Filter.ofJson? j = some f := by
  rw [Filter.ofJson?, apart]
  simp [required_some, hcolumn, hop, hoperand]

theorem ofJson?_toJson (h : f.Fits) : Filter.ofJson? f.toJson = some f :=
  ofJson?_parts rfl (asCount_count h.column) Comparator.ofJson?_name
    (Operand.ofJson?_toJson h.operand)

end Filter

/-! ## Operations -/

structure Access.Fits (a : Access) : Prop where
  seek : ∀ key ∈ a.seek, ∀ o ∈ key, o.Fits
  filters : ∀ f ∈ a.filters, f.Fits

namespace Access

variable {a : Access}

theorem plain_toJson (h : a.Fits) : Plain 6 a.toJson := by
  have seek : Plain 5 (orNull (Json.list Operand.toJson) a.seek) :=
    plain_orNull fun key hkey => (plain_list fun o ho =>
      Operand.plain_toJson (h.seek key hkey o ho)).mono (by decide)
  have filters : Plain 5 (Json.list Filter.toJson a.filters) :=
    plain_list fun f hf => Filter.plain_toJson (h.filters f hf)
  exact .object (by simp [seek, filters])

theorem ofJson?_toJson (h : a.Fits) : Access.ofJson? a.toJson = some a := by
  have parts : fields ["seek", "filters"] a.toJson =
      some [some (orNull (Json.list Operand.toJson) a.seek),
        some (Json.list Filter.toJson a.filters)] := rfl
  have seek : optional (asList Operand.ofJson?)
      (some (orNull (Json.list Operand.toJson) a.seek)) = some a.seek :=
    optional_orNull (fun key hkey => asList_list fun o ho =>
      Operand.ofJson?_toJson (h.seek key hkey o ho)) (fun _ => by rintro ⟨⟩)
  have filters : asList Filter.ofJson? (Json.list Filter.toJson a.filters) = some a.filters :=
    asList_list fun f hf => Filter.ofJson?_toJson (h.filters f hf)
  rw [Access.ofJson?, parts]
  simp [required_some, seek, filters]

end Access

def SetsFit (sets : List (Nat × Operand)) : Prop := ∀ s ∈ sets, s.1 < bound64 ∧ s.2.Fits

theorem plain_sets {sets : List (Nat × Operand)} (h : SetsFit sets) :
    Plain 5 (Json.list setToJson sets) := by
  refine plain_list fun s hs => .array ?_
  have column : Plain 3 (count s.1) := plain_count (h s hs).1
  simp [column, Operand.plain_toJson (h s hs).2]

theorem asList_sets {sets : List (Nat × Operand)} (h : SetsFit sets) :
    asList setOfJson? (Json.list setToJson sets) = some sets := by
  refine asList_list fun s hs => ?_
  have column : asCount bound64 (count s.1) = some s.1 := asCount_count (h s hs).1
  rw [setToJson, setOfJson?, asPair, column, Operand.ofJson?_toJson (h s hs).2]
  rfl

def Operation.Fits : Operation → Prop
  | .insert values => SetsFit values
  | .update assignments access => SetsFit assignments ∧ access.Fits
  | .delete access => access.Fits
  | .select projection asOf access =>
    (∀ i ∈ projection, i < bound64) ∧ (∀ o ∈ asOf, o.Fits) ∧ access.Fits

namespace Operation

variable {op : Operation}

theorem plain_toJson (h : op.Fits) : Plain 7 op.toJson := by
  cases op with
  | insert values =>
      have values : Plain 6 (Json.list setToJson values) := (plain_sets h).mono (by decide)
      exact .object (by simp [Plain.string, values])
  | update assignments access =>
      have assignments : Plain 6 (Json.list setToJson assignments) :=
        (plain_sets h.1).mono (by decide)
      exact .object (by simp [Plain.string, assignments, Access.plain_toJson h.2])
  | delete access =>
      have access : Plain 6 access.toJson := Access.plain_toJson h
      exact .object (by simp [Plain.string, access])
  | select projection asOf access =>
      obtain ⟨columns, moment, fits⟩ := h
      have projection : Plain 6 (Json.list count projection) :=
        plain_list fun i hi => plain_count (columns i hi)
      have asOf : Plain 6 (orNull Operand.toJson asOf) :=
        plain_orNull fun o ho => (Operand.plain_toJson (moment o ho)).mono (by decide)
      exact .object (by simp [Plain.string, projection, asOf, Access.plain_toJson fits])

/-- **An operation comes back from its form in JSON.** -/
theorem ofJson?_toJson (h : op.Fits) : Operation.ofJson? op.toJson = some op := by
  have denotes : op.toJson.denotes = true := (plain_toJson h).denotes
  cases op with
  | insert values =>
      have told : tagged "op" ["insert", "update", "delete", "select"] (insert values).toJson =
          some ("insert", .object [("values", Json.list setToJson values)]) :=
        tagged_object denotes rfl rfl
      have parts : fields ["values"] (.object [("values", Json.list setToJson values)]) =
          some [some (Json.list setToJson values)] := rfl
      rw [Operation.ofJson?, told]
      simp [parts, required_some, asList_sets h]
  | update assignments access =>
      have told : tagged "op" ["insert", "update", "delete", "select"]
          (update assignments access).toJson =
            some ("update", .object [("assignments", Json.list setToJson assignments),
              ("access", access.toJson)]) := tagged_object denotes rfl rfl
      have parts : fields ["assignments", "access"]
          (.object [("assignments", Json.list setToJson assignments), ("access", access.toJson)]) =
            some [some (Json.list setToJson assignments), some access.toJson] := rfl
      rw [Operation.ofJson?, told]
      simp [parts, required_some, asList_sets h.1, Access.ofJson?_toJson h.2]
  | delete access =>
      have told : tagged "op" ["insert", "update", "delete", "select"] (delete access).toJson =
          some ("delete", .object [("access", access.toJson)]) := tagged_object denotes rfl rfl
      have parts : fields ["access"] (.object [("access", access.toJson)]) =
          some [some access.toJson] := rfl
      have back : Access.ofJson? access.toJson = some access := Access.ofJson?_toJson h
      rw [Operation.ofJson?, told]
      simp [parts, required_some, back]
  | select projection asOf access =>
      obtain ⟨columns, moment, fits⟩ := h
      have told : tagged "op" ["insert", "update", "delete", "select"]
          (select projection asOf access).toJson =
            some ("select", .object [("projection", Json.list count projection),
              ("as_of", orNull Operand.toJson asOf), ("access", access.toJson)]) :=
        tagged_object denotes rfl rfl
      have parts : fields ["projection", "as_of", "access"]
          (.object [("projection", Json.list count projection),
            ("as_of", orNull Operand.toJson asOf), ("access", access.toJson)]) =
              some [some (Json.list count projection), some (orNull Operand.toJson asOf),
                some access.toJson] := rfl
      have projected : asList (asCount bound64) (Json.list count projection) = some projection :=
        asList_list fun i hi => asCount_count (columns i hi)
      have at' : optional Operand.ofJson? (some (orNull Operand.toJson asOf)) = some asOf :=
        optional_orNull (fun o ho => Operand.ofJson?_toJson (moment o ho))
          fun o => by cases o <;> rintro ⟨⟩
      rw [Operation.ofJson?, told]
      simp [parts, required_some, projected, at', Access.ofJson?_toJson fits]

end Operation

/-! ## Programs -/

def Body.Fits : Body → Prop
  | .execute op => op.Fits
  | .explain _ => True

namespace Body

variable {b : Body}

theorem plain_toJson (h : b.Fits) : Plain 8 b.toJson := by
  cases b with
  | execute op =>
      have op : Plain 7 op.toJson := Operation.plain_toJson h
      exact .object (by simp [Plain.string, op])
  | explain text => exact .object (by simp [Plain.string])

theorem ofJson?_toJson (h : b.Fits) : Body.ofJson? b.toJson = some b := by
  cases b with
  | execute op =>
      have told : adjacent true "kind" "body" (execute op).toJson =
          some ("execute", some op.toJson) := rfl
      have back : Operation.ofJson? op.toJson = some op := Operation.ofJson?_toJson h
      rw [Body.ofJson?, told]
      simp [required_some, back]
  | explain text => rfl

end Body

/-- The counts of a program and the places that it names fit 64 bits. -/
def Program.Fits : Program → Prop
  | .definition s => s.Fits
  | .query q => q.params < bound64 ∧ q.body.Fits

namespace Program

variable {p : Program}

theorem plain_toJson (h : p.Fits) : Plain 9 p.toJson := by
  cases p with
  | definition s =>
      have schema : Plain 8 s.toJson := (Schema.plain_toJson h).mono (by decide)
      exact .object (by simp [Plain.string, schema])
  | query q =>
      have params : Plain 8 (count q.params) := plain_count h.1
      exact .object (by simp [Plain.string, params, Body.plain_toJson h.2])

theorem ofJson?_query {j parts params table body : Json} {q : QueryProgram}
    (told : tagged "unit" [] j = some ("query", parts))
    (apart : fields ["params", "table", "body"] parts = some [some params, some table, some body])
    (hparams : asCount bound64 params = some q.params) (htable : asString table = some q.table)
    (hbody : Body.ofJson? body = some q.body) : Program.ofJson? j = some (query q) := by
  rw [Program.ofJson?, told]
  simp [apart, required_some, hparams, htable, hbody]

/-- **A program comes back from its form in JSON.** -/
theorem ofJson?_toJson (h : p.Fits) : Program.ofJson? p.toJson = some p := by
  have denotes : p.toJson.denotes = true := (plain_toJson h).denotes
  cases p with
  | definition s =>
      have told : tagged "unit" [] (definition s).toJson =
          some ("definition", .object [("schema", s.toJson)]) := tagged_object denotes rfl rfl
      have parts : fields ["schema"] (.object [("schema", s.toJson)]) = some [some s.toJson] := rfl
      have back : Schema.ofJson? s.toJson = some s := Schema.ofJson?_toJson h
      rw [Program.ofJson?, told]
      simp [parts, required_some, back]
  | query q =>
      exact ofJson?_query (tagged_object denotes rfl rfl) rfl (asCount_count h.1) rfl
        (Body.ofJson?_toJson h.2)

end Program

/-! ## Units -/

namespace CompiledUnit

variable {u : CompiledUnit}

theorem plain_toJson (h : u.program.Fits) : Plain 10 u.toJson := by
  have abi : Plain 9 (count u.abi.toNat) :=
    plain_count (Nat.lt_trans u.abi.toNat_lt (by decide))
  have exports : Plain 9 (Json.list Json.string u.exports) :=
    (plain_list fun name _ => Plain.string (d := 0) name).mono (by decide)
  exact .object (by simp [abi, exports, Program.plain_toJson h])

theorem ofJson?_parts {j abi exports program : Json}
    (apart : fields ["abi", "exports", "program"] j = some [some abi, some exports, some program])
    (shallow : program.depth < maxDepth) (habi : asCount bound32 abi = some u.abi.toNat)
    (hexports : asList asString exports = some u.exports)
    (hprogram : Program.ofJson? program = some u.program) : CompiledUnit.ofJson? j = some u := by
  -- a program that is nested too deep is taken for missing, and this one is not
  have kept : ((some program).filter fun p => decide (p.depth < maxDepth)) = some program := by
    rw [Option.filter_some, if_pos (decide_eq_true shallow)]
  rw [CompiledUnit.ofJson?, apart]
  simp [required_some, kept, habi, hexports, hprogram]

theorem ofJson?_toJson (h : u.program.Fits) : CompiledUnit.ofJson? u.toJson = some u := by
  have plain : Plain 9 u.program.toJson := Program.plain_toJson h
  exact ofJson?_parts rfl (Nat.lt_of_le_of_lt plain.depth_le (by decide))
    (asCount_count u.abi.toNat_lt) (asList_list fun _ _ => rfl) (Program.ofJson?_toJson h)

/-- **A unit comes back from its artifact** if it is of the version that is read; a unit of any
other version is refused as one of that version. -/
theorem ofArtifact_artifact (h : u.program.Fits) : ofArtifact u.artifact =
    if u.abi = abiVersion then .ok u else .error (.version u.abi) := by
  rw [ofArtifact, artifact, Json.parse_text (plain_toJson h), Option.bind_some, ofJson?_toJson h]

theorem ofBytes_toUTF8 (text : String) : ofBytes text.toUTF8 = ofArtifact text := by
  have valid : String.fromUTF8? text.toUTF8 = some text := dif_pos text.isValidUTF8
  rw [ofBytes, valid]

/-- A unit that was decoded is of the version that is read. -/
theorem abi_of_ofArtifact {text : String} (h : ofArtifact text = .ok u) : u.abi = abiVersion := by
  unfold ofArtifact at h
  split at h
  · cases h
  · split_ifs at h with same
    cases h
    exact same

/-- **Artifacts are read as they were written.** A unit of the version that is read comes back from
the bytes of its artifact, and a unit of any other version is refused as one of that version. Nor is
a unit of another version decoded from any bytes at all. Counts and places fit 64 bits. -/
theorem artifact_round_trip :
    (∀ u : CompiledUnit, u.program.Fits → ofBytes u.artifact.toUTF8 =
      if u.abi = abiVersion then .ok u else .error (.version u.abi)) ∧
      ∀ (bytes : ByteArray) (u : CompiledUnit), ofBytes bytes = .ok u → u.abi = abiVersion := by
  constructor
  · intro u h
    rw [ofBytes_toUTF8, ofArtifact_artifact h]
  · intro bytes u h
    unfold ofBytes at h
    split at h <;> exact abi_of_ofArtifact h

/-- A unit of numbers at their bounds and of strings that must be escaped, of a version. -/
def extreme (abi : UInt32) : CompiledUnit :=
  ⟨abi, ["\"q\" \\ \x7f", "\n\r\t\x00\x1f", "ß ∀ 🙂"],
    .query ⟨bound64 - 1, "", .execute (.update
      [(0, .const (.numeric 18 2) (.numeric Int64.minValue 255)),
        (bound64 - 1, .param (bound64 - 1) (.varchar 65535))]
      ⟨some [.const .timestamp (.timestamp .last), .const .integer (.integer Int64.maxValue)],
        [⟨3, .notEq, .const (.char 0) .null⟩, ⟨4, .ltEq, .const .timestamp (.timestamp .first)⟩]⟩)⟩⟩

theorem artifact_round_trip_extreme :
    ofBytes (extreme abiVersion).artifact.toUTF8 = .ok (extreme abiVersion) ∧
      ofBytes (extreme 2).artifact.toUTF8 = .error (.version 2) ∧
      (extreme abiVersion).abi = abiVersion := by
  obtain ⟨back, version⟩ := artifact_round_trip
  have fits : ∀ abi, (extreme abi).program.Fits := by
    intro abi
    refine ⟨by decide, ?_, ?_, ?_⟩
    · simp [SetsFit, Operand.Fits, bound64, UInt64.size]
    · simp [Operand.Fits]
    · simp only [List.forall_mem_cons]
      exact ⟨⟨by decide, trivial⟩, ⟨by decide, trivial⟩, List.forall_mem_nil _⟩
  have first : ofBytes (extreme abiVersion).artifact.toUTF8 = .ok (extreme abiVersion) :=
    (back _ (fits _)).trans (if_pos rfl)
  exact ⟨first, (back _ (fits 2)).trans (if_neg (by decide)), version _ _ first⟩

end CompiledUnit

end TemporalDB
