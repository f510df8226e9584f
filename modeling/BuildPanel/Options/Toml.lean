import BuildPanel.Options
import BuildPanel.Toml.Document

/-!
Option sets as TOML: a table for every option, named like it, with a description and a value. Tables
are written in the order of the set, with an empty line between them; read back, they keep the order
of the document. Instead of a table an array of description and value is read as well, and a
description that is missing is empty.
-/

namespace BuildPanel

open Toml

def Toml.descriptionKey : Key := "description".toList

def Toml.valueKey : Key := "value".toList

namespace OptionEntry

def writeToml (name : String) (e : OptionEntry) : List Char :=
  '[' :: writeKey name.toList ++ [']', '\n'] ++
    descriptionKey ++ " = ".toList ++ writeString e.description.toList ++ ['\n'] ++
    valueKey ++ " = ".toList ++ (if e.value then "true".toList else "false".toList) ++ ['\n']

def descriptionOf (node : Node) : Except Mismatch String :=
  match node with
  | .scalar (.string s) => .ok (String.ofList s)
  | other => .error (.invalidType other.found "a string")

def valueOf (node : Node) : Except Mismatch Bool :=
  match node with
  | .scalar (.boolean b) => .ok b
  | other => .error (.invalidType other.found "a boolean")

/-- Reads the known members of a table in their order; the first that is wrong is reported. -/
def membersOf (description : Option String) (value : Option Bool) :
    Members → Except Mismatch OptionEntry
  | [] =>
    match value with
    | some value => .ok ⟨description.getD "", value⟩
    | none => .error (.missingMember "value")
  | (key, node) :: rest =>
    if key = descriptionKey then
      match descriptionOf node with
      | .ok text => membersOf (some text) value rest
      | .error m => .error m
    else if key = valueKey then
      match valueOf node with
      | .ok b => membersOf description (some b) rest
      | .error m => .error m
    else membersOf description value rest

/-- Reads an array of a description and a value; further elements are not looked at. -/
def elementsOf (elements : List Node) : Except Mismatch OptionEntry :=
  match elements with
  | [] => .error (.invalidLength 1 "OptionEntry")
  | first :: rest =>
    match descriptionOf first with
    | .error m => .error m
    | .ok description =>
      match rest with
      | [] => .error (.invalidLength 1 "OptionEntry")
      | second :: _ => (valueOf second).map (⟨description, ·⟩)

def ofToml (node : Node) : Except Mismatch OptionEntry :=
  match node with
  | .table _ members => membersOf none none members
  | .scalar .dateTime => .error (.missingMember "value")
  | .array elements => elementsOf elements
  | .tables elements => elementsOf (elements.map (.table .header))
  | .scalar s => .error (.invalidType (Node.scalar s).found "struct OptionEntry")

end OptionEntry

namespace OptionSet

def toToml (s : OptionSet) : List Char :=
  List.intercalate ['\n'] (s.toList.map fun m => m.2.writeToml m.1)

/-- Inserts the options of a document's table one after another. -/
def ofMembers (s : OptionSet) : Members → Except Mismatch OptionSet
  | [] => .ok s
  | (key, node) :: rest =>
    match OptionEntry.ofToml node with
    | .ok entry => ofMembers (s.insert (String.ofList key) entry) rest
    | .error m => .error m

/-- The set of a document. A refusal carries the mismatch, or nothing if the text is no document. -/
def ofToml (text : List Char) : Except (Option Mismatch) OptionSet :=
  match document? text with
  | none => .error none
  | some members =>
    match ofMembers empty members with
    | .ok s => .ok s
    | .error m => .error (some m)

end OptionSet

end BuildPanel
