import BuildPanel.Json.Reader
import BuildPanel.Options

/-!
Option sets as JSON: an object from names to records of a description and a value. The description
may be absent and is empty then. A name that is repeated keeps its first place and takes its last
record.
-/

namespace BuildPanel

open Json

def Json.writeBool (b : Bool) : List Char :=
  if b then "true".toList else "false".toList

def Json.writeMember (name : List Char) (value : List Char) : List Char :=
  quote name ++ ':' :: value

def Json.writeObject (members : List (List Char)) : List Char :=
  '\x7b' :: List.intercalate [','] members ++ ['\x7d']

namespace OptionEntry

def toJson (e : OptionEntry) : List Char :=
  writeObject
    [writeMember "description".toList (quote e.description.toList),
      writeMember "value".toList (writeBool e.value)]

def readJson : Reader OptionEntry := fun s =>
  (readRecord "OptionEntry" ⟨"description", readText, some ""⟩ ⟨"value", readBool, none⟩ s).map
    fun ((description, value), rest) => (⟨description, value⟩, rest)

end OptionEntry

namespace OptionSet

def toJson (s : OptionSet) : List Char :=
  writeObject (s.toList.map fun m => writeMember m.1.toList m.2.toJson)

def readJson : Reader OptionSet :=
  readMap OptionEntry.readJson insert empty

end OptionSet

end BuildPanel
