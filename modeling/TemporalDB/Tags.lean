import TemporalDB.FileTree

/-!
# Tags of temporary names

A file is written under a temporary name before it gets its own. What tells temporary names apart is
a tag that is drawn for each of them; nothing counts of it but that it is new.
-/

namespace TemporalDB

/-- The names in the places of a tree. -/
def FileTree.names (t : FileTree) : List String := t.nodes.keys.flatten

/-- What a temporary name with a tag ends in. -/
def markOf (tag : String) : String := "." ++ tag ++ ".tmp"

/-- Where tags are drawn from, when there are the files of a tree. -/
class Tags where
  tag : FileTree → String
  plain : ∀ t, ∀ c ∈ (tag t).toList, c.isAlphanum = true ∨ c = '-'
  /-- No name of the tree ends in the mark of the tag. -/
  fresh : ∀ t, ∀ name ∈ t.names, ¬ (markOf (tag t)).toList <:+ name.toList
  /-- Tags have one size, as far as the names of temporary files do not use them up. -/
  steady : ∀ t t', (∀ name, ".tmp".toList <:+ name.toList → (name ∈ t.names ↔ name ∈ t'.names)) →
    (tag t).utf8ByteSize = (tag t').utf8ByteSize

/-- A path in a directory at which there is nothing. -/
def FileTree.temporary [Tags] (t : FileTree) (directory : Path) (name : String) : Path :=
  directory.join ("." ++ name ++ markOf (Tags.tag t))

end TemporalDB
