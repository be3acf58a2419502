import TemporalDB.Sql.Cursor

/-!
# The grammar of queries

    query     := [ EXPLAIN ] ( insert | update | delete | select ) [ ';' ]
    insert    := INSERT INTO name [ '(' name { ',' name } ')' ] VALUES '(' value { ',' value } ')'
    update    := UPDATE name SET name '=' value { ',' name '=' value } [ condition ]
    delete    := DELETE FROM name [ condition ]
    select    := SELECT ( '*' | name { ',' name } ) FROM name
                 [ FOR SYSTEM_TIME AS OF value ] [ condition ]
    condition := WHERE name op value { AND name op value }

Keywords go without regard to case, and any word may be a name.
-/

namespace TemporalDB.Sql

open TemporalDB.Sql.Parser

def comparison : Parser Comparison := do
  let column ← identifier
  let op ← comparator
  let value ← expr
  pure ⟨column, op, value⟩

def assignment : Parser Assignment := do
  let column ← identifier
  sign (.comparator .eq)
  let value ← expr
  pure ⟨column, value⟩

/-- The condition of a statement; without one, every row meets it. -/
def condition : Parser (List Comparison) := do
  if ← keyword? "WHERE" then separated (keyword? "AND") comparison else pure []

/-- An insertion after its keyword. With a list of columns there must be a value for each. -/
def insertStatement : Parser Statement := do
  keyword "INTO"
  let table ← identifier
  let columns ← if ← opens then some <$> parenthesized identifier else pure none
  keyword "VALUES"
  let values ← parenthesized expr
  match columns with
  | some names =>
    if names.length = values.length then pure (.insert table columns values)
    else fail (.insertCount names.length values.length)
  | none => pure (.insert table columns values)

def updateStatement : Parser Statement := do
  let table ← identifier
  keyword "SET"
  let assignments ← commaSeparated assignment
  let condition ← condition
  pure (.update table assignments condition)

def deleteStatement : Parser Statement := do
  keyword "FROM"
  let table ← identifier
  let condition ← condition
  pure (.delete table condition)

def selectStatement : Parser Statement := do
  let projection ← if ← sign? .star then pure .all else .columns <$> commaSeparated identifier
  keyword "FROM"
  let table ← identifier
  let asOf ←
    if ← keywords? ["FOR", "SYSTEM_TIME", "AS", "OF"] then some <$> expr else pure none
  let condition ← condition
  pure (.select table projection asOf condition)

def statement : Parser Statement := do
  if ← keyword? "INSERT" then insertStatement
  else if ← keyword? "UPDATE" then updateStatement
  else if ← keyword? "DELETE" then deleteStatement
  else if ← keyword? "SELECT" then selectStatement
  else unexpected "INSERT, UPDATE, DELETE or SELECT"

def query : Parser Query := do
  let explain ← keyword? "EXPLAIN"
  let statement ← statement
  let _ ← sign? .semicolon
  if ← atEnd then pure ⟨statement, explain⟩ else unexpected "end of statement"

def parseQuery (text : String) : Except SyntaxError Query := do
  query.run (← tokens text)

end TemporalDB.Sql
