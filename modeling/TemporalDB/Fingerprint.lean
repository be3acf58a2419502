import TemporalDB.Sha256

/-!
# Fingerprints

A query is told from others by the digest of its exact text.
-/

namespace TemporalDB

structure Fingerprint where
  hex : String
deriving DecidableEq

namespace Fingerprint

def of (text : String) : Fingerprint := ⟨String.ofList (Sha256.digest text.toUTF8.toList)⟩

def artifactName (f : Fingerprint) : String := "query_" ++ f.hex

end Fingerprint

end TemporalDB
