import DateReviver.Text.Blank

/-!
# Media types of JSON

A media type is read up to its first parameter, without blanks around it and in any case of
letters.
-/

namespace DateReviver.OpenApi

open DateReviver.Text

/-- The media type without its parameters, in lower case. -/
def mediaEssence (mediaType : String) : List Char :=
  (trimBlank (mediaType.toList.takeWhile (· != ';'))).map Char.toLower

def isJsonMediaType (mediaType : String) : Bool :=
  let essence := mediaEssence mediaType
  essence == "application/json".toList || "+json".toList.isSuffixOf essence
    || essence == "*/*".toList

end DateReviver.OpenApi
