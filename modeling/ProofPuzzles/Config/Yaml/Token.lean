import ProofPuzzles.Config.Yaml.Fault

/-!
# Tokens of documents

The pieces that a document is made of. The nesting by indentation is made explicit: blocks begin
and end with tokens of their own, and so does each key of a mapping.
-/

namespace ProofPuzzles.Config.Yaml

/-- An instruction in front of a document. -/
inductive Directive where
  /-- The version of the language, of which the first number counts. -/
  | version (major : Nat)
  /-- What a handle at the start of a tag stands for. -/
  | handle (name start : String)
  | other
  deriving Repr, DecidableEq

/-- A piece of a document. -/
inductive Token where
  | directive (d : Directive)
  | documentStart
  | documentEnd
  | blockListStart
  | blockMappingStart
  | blockEnd
  | listStart
  | listEnd
  | mappingStart
  | mappingEnd
  | comma
  /-- The hyphen in front of an item. -/
  | item
  | key
  | value
  | alias (name : String)
  | anchor (name : String)
  /-- A tag in two parts, of which the first one, the handle, can be absent. -/
  | tag (handle? : Option String) (suffix : String)
  /-- A word or a longer text. A plain one is neither quoted nor a block of lines. -/
  | scalar (plain : Bool) (codes : List Nat)
  | documentsEnd
  /-- What follows cannot be read. -/
  | fault (e : Fault)
  deriving Repr, DecidableEq

end ProofPuzzles.Config.Yaml
