import TemporalDB.Text.Utf8

/-!
# Bytes as characters

Where text may hold any bytes, each byte is held as the character of its number. Such a text is
taken from bytes and given back as bytes without loss.
-/

namespace TemporalDB.Text

def charOfByte (b : UInt8) : Char := Char.ofNat b.toNat

def byteOfChar (c : Char) : UInt8 := UInt8.ofNat c.toNat

def octetsOfBytes (bytes : ByteArray) : List Char := bytes.toList.map charOfByte

def bytesOfOctets (s : List Char) : ByteArray := (s.map byteOfChar).toByteArray

def octets (s : String) : String := String.ofList (octetsOfBytes s.toUTF8)

def ofOctets (s : String) : String := ofBytes (bytesOfOctets s.toList)

end TemporalDB.Text
