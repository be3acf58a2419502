import TemporalDB.Text.Blank
import TemporalDB.Text.Caseless
import TemporalDB.Text.Number
import TemporalDB.Text.Quoted

/-!
# Scalar types

The types a column may be declared with, their names in SQL, and their compact text such as
`varchar(20)`. A decimal keeps its digits in a 64-bit integer, so a declared precision is at most
eighteen.
-/

namespace TemporalDB

open Text

inductive ScalarType where
  | integer
  /-- A decimal of `precision` digits, `scale` of them after the point. -/
  | numeric (precision scale : UInt8)
  /-- Text of at most `length` characters. -/
  | char (length : UInt16)
  /-- Text of at most `length` characters. -/
  | varchar (length : UInt16)
  | timestamp
deriving DecidableEq, Inhabited, Repr

def maxPrecision : UInt8 := 18

namespace ScalarType

def text : ScalarType → String
  | integer => "integer"
  | numeric precision scale =>
    "numeric(" ++ showNat precision.toNat ++ "," ++ showNat scale.toNat ++ ")"
  | char length => "char(" ++ showNat length.toNat ++ ")"
  | varchar length => "varchar(" ++ showNat length.toNat ++ ")"
  | timestamp => "timestamp"

end ScalarType

/-- Why a type or a value cannot be read. -/
inductive ScalarError where
  | unknownType (text : String)
  | precisionTooLarge (precision : UInt8)
  | invalidLiteral (type : ScalarType) (text : String)
  | valueTooLong (type : ScalarType) (text : String)
deriving DecidableEq, Repr

def ScalarError.message : ScalarError → String
  | unknownType text => "unknown type: " ++ quoted text
  | precisionTooLarge precision =>
    "numeric precision " ++ showNat precision.toNat ++ " exceeds the maximum of " ++
      showNat maxPrecision.toNat
  | invalidLiteral type text => "invalid " ++ type.text ++ " literal: " ++ quoted text
  | valueTooLong type text => "value " ++ quoted text ++ " is too long for " ++ type.text

namespace ScalarType

def partsText (name : String) (args : List Nat) : String :=
  if args.isEmpty then name
  else name ++ "(" ++ String.intercalate "," (args.map showNat) ++ ")"

/-- A decimal type within the precision that can be stored. -/
def decimal (precision scale : Nat) : Except ScalarError ScalarType :=
  if maxPrecision < precision.toUInt8 then .error (.precisionTooLarge precision.toUInt8)
  else .ok (.numeric precision.toUInt8 scale.toUInt8)

/-- The type of a name and its arguments. The name goes without regard to case, and a scale is at
most its precision. -/
def ofParts (name : String) (args : List Nat) : Except ScalarError ScalarType :=
  let unknown := .error (.unknownType (partsText name args))
  let name := foldCase name
  match args with
  | [] =>
    if name = "integer" || name = "int" then .ok .integer
    else if name = "timestamp" then .ok .timestamp
    else unknown
  | [n] =>
    if name = "numeric" || name = "decimal" then
      if n < 256 then decimal n 0 else unknown
    else if name = "char" || name = "character" then
      if n < 65536 then .ok (.char n.toUInt16) else unknown
    else if name = "varchar" then
      if n < 65536 then .ok (.varchar n.toUInt16) else unknown
    else unknown
  | [precision, scale] =>
    if (name = "numeric" || name = "decimal") && scale ≤ precision && precision < 256 then
      decimal precision scale
    else unknown
  | _ => unknown

/-- The arguments of a type: counts below 2^32 between commas, with blanks around them. -/
def readArguments (s : List Char) : Option (List Nat) :=
  (splitAt ',' s).mapM fun piece => readCount bound32 (trim piece)

/-- Reads the compact text of a type, with blanks around its name and its arguments. -/
def read (s : String) : Except ScalarError ScalarType :=
  match splitOnce '(' s.toList with
  | none => ofParts (trimmed s) []
  | some (name, rest) =>
    match rest.reverse with
    | ')' :: inner =>
      match readArguments inner.reverse with
      | some args => ofParts (String.ofList (trim name)) args
      | none => .error (.unknownType s)
    | _ => .error (.unknownType s)

end ScalarType

end TemporalDB
