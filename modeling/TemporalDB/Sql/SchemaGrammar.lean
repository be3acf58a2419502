import TemporalDB.Sql.Cursor
import TemporalDB.Schema

/-!
# The grammar of schemas

    schema  := { create ';' }
    create  := CREATE TABLE name '(' element { ',' element } ')' [ WITH SYSTEM VERSIONING ]
    element := column | PRIMARY KEY '(' name { ',' name } ')'
    column  := name type [ '(' n [ ',' m ] ')' ] { NOT NULL | NULL | PRIMARY KEY }

The semicolon after the last relation may be missing. Relations have names of their own without
regard to case, and so have the columns of a relation; every relation has one primary key, whose
columns do not admit null.
-/

namespace TemporalDB.Sql

open TemporalDB.Sql.Parser TemporalDB.Text

/-- Whether a column admits null, as far as it says, and whether it is declared the key. -/
structure ColumnOptions where
  notNull : Bool
  key : Bool

/-- One option of a column. The last word on null counts. -/
def columnOption (o : ColumnOptions) : Parser (Option ColumnOptions) := do
  if ← keywords? ["NOT", "NULL"] then pure (some { o with notNull := true })
  else if ← keyword? "NULL" then pure (some { o with notNull := false })
  else if ← keywords? ["PRIMARY", "KEY"] then pure (some { o with key := true })
  else pure none

/-- A type. One that does not exist is reported on the line of its name. -/
def scalarType : Parser ScalarType := fun start => do
  let (name, c) ← identifier start
  let (args, c) ← (do if ← opens then parenthesized count else pure [] : Parser (List Nat)) c
  match ScalarType.ofParts name args with
  | .ok type => .ok (type, c)
  | .error e => .error ⟨start.line, .type e⟩

def column : Parser (Column × Bool) := do
  let name ← identifier
  let type ← scalarType
  let options ← repeated columnOption ⟨false, false⟩
  pure (⟨name, type, options.notNull⟩, options.key)

structure Draft where
  columns : List Column
  /-- The names of the key's columns, once they are known. -/
  key : Option (List String)

/-- The draft with a key, which it must not have yet. -/
def Draft.withKey (relation : String) (d : Draft) (names : List String) : Except Fault Draft :=
  match d.key with
  | some _ => .error (.secondKey relation)
  | none => .ok { d with key := some names }

/-- The draft with one more column, whose name must be new. -/
def Draft.withColumn (relation : String) (d : Draft) (c : Column) (key : Bool) :
    Except Fault Draft := do
  if d.columns.any fun other => sameName other.name c.name then
    .error (.duplicateColumn c.name relation)
  else
    let d ← if key then d.withKey relation [c.name] else .ok d
    .ok { d with columns := d.columns ++ [c] }

def element (relation : String) (d : Draft) : Parser Draft := do
  if ← keywords? ["PRIMARY", "KEY"] then
    if d.key.isSome then fail (.secondKey relation)
    let names ← parenthesized identifier
    pure { d with key := some names }
  else
    let (column, key) ← column
    ofExcept (d.withColumn relation column key)

/-- The elements of a relation up to the closing parenthesis, at most `bound` of them after the
first. -/
def elementsUpTo (relation : String) : Nat → Draft → Parser Draft
  | 0, d => do
    let d ← element relation d
    sign .rightParen
    pure d
  | bound + 1, d => do
    let d ← element relation d
    if ← sign? .comma then elementsUpTo relation bound d
    else
      sign .rightParen
      pure d

def elements (relation : String) : Parser Draft :=
  fun c => elementsUpTo relation c.rest.length ⟨[], none⟩ c

/-- The places of a key's columns. Each must be there, and none may be named twice. -/
def keyIndexes (relation : String) (columns : List Column) :
    List Nat → List String → Except Fault (List Nat)
  | found, [] => .ok found
  | found, name :: names =>
    match columns.findIdx? fun c => sameName c.name name with
    | none => .error (.keyNotColumn name relation)
    | some i =>
      if found.contains i then .error (.keyTwice name)
      else keyIndexes relation columns (found ++ [i]) names

/-- The relation of a draft. The columns of its key do not admit null. -/
def Draft.relation (name : String) (d : Draft) (temporal : Bool) : Except Fault Relation :=
  match d.key with
  | none => .error (.noKey name)
  | some names => do
    let key ← keyIndexes name d.columns [] names
    let columns := d.columns.mapIdx fun i c => { c with notNull := c.notNull || key.contains i }
    .ok ⟨name, columns, key, temporal⟩

def createTable : Parser Relation := do
  keyword "CREATE"
  keyword "TABLE"
  let name ← identifier
  sign .leftParen
  let draft ← elements name
  let temporal ← keywords? ["WITH", "SYSTEM", "VERSIONING"]
  ofExcept (draft.relation name temporal)

/-- One more relation, or a semicolon by itself. A relation whose name is taken is reported on the
line on which its declaration begins. -/
def schemaStep (s : Schema) : Parser (Option Schema) := fun start => do
  if start.rest.isEmpty then .ok (none, start)
  else
    let (semicolon, c) ← sign? .semicolon start
    if semicolon then .ok (some s, c)
    else
      let (relation, c) ← createTable start
      if (s.relation? relation.name).isSome then
        .error ⟨start.line, .duplicateRelation relation.name⟩
      else
        let s : Schema := ⟨s.relations ++ [relation]⟩
        if c.rest.isEmpty then .ok (some s, c)
        else
          let (_, c) ← sign .semicolon c
          .ok (some s, c)

def parseSchema (text : String) : Except SyntaxError Schema := do
  (repeated schemaStep ⟨[]⟩).run (← tokens text)

end TemporalDB.Sql
