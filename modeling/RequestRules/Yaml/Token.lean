import RequestRules.Text

/-!
# Tokens

The pieces that a YAML text is made of.  Collections that are laid out by indentation have tokens for their beginning
and end, too.
-/

namespace RequestRules.Yaml

inductive Token
  | streamEnd
  /-- the version of the language that a document is written in -/
  | version (major : Nat)
  /-- what a short form of tags stands for -/
  | tagForm (handle expansion : Text)
  /-- a directive that has no meaning here -/
  | reserved
  | documentStart
  | documentEnd
  | blockSequence
  | blockMapping
  | blockEnd
  | flowSequence
  | flowSequenceEnd
  | flowMapping
  | flowMappingEnd
  | entry
  | flowEntry
  | key
  | value
  | alias (name : Text)
  | anchor (name : Text)
  /-- a tag, perhaps in a short form -/
  | tag (handle : Option Text) (suffix : Text)
  /-- a text; a plain one may denote something else than itself -/
  | scalar (t : Text) (plain : Bool)
  deriving DecidableEq, Repr

end RequestRules.Yaml
