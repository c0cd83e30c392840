import DateReviver.Yaml.Tag

/-!
# YAML tokens

The tokens of a text. The marks that show structure stand between them whether they are written,
as between brackets, or follow from the indentation. Names have been looked up.
-/

namespace DateReviver.Yaml

inductive Token where
  /-- A declaration before the document. -/
  | directive
  | documentStart
  | documentEnd
  | textEnd
  | blockSequenceStart
  | blockMappingStart
  /-- The end of a sequence or mapping that is shown by indentation. -/
  | blockEnd
  | blockEntry
  | flowSequenceStart
  | flowSequenceEnd
  | flowMappingStart
  | flowMappingEnd
  | flowEntry
  /-- A key follows, whether or not a mark is written. -/
  | key
  | value
  | anchor (number : Nat)
  | aliasTo (number : Nat)
  | tag (tag : Tag)
  /-- A scalar, and whether it is written without quotes or marks. -/
  | scalar (text : String) (plain : Bool)

end DateReviver.Yaml
