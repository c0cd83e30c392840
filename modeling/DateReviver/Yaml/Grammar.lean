import DateReviver.Yaml.Node
import DateReviver.Yaml.TokenStream

/-!
# From tokens to a tree

A machine takes one token at a time and keeps the collections that are open, so that nesting has
no limit. Much may be left out in the notation: a node, a value with its mark, the end of a
sequence that is no deeper than the key before it. A token shows what was left out before it; that
is filled in first, and then the token is taken.
-/

namespace DateReviver.Yaml

/-- Where a node is to stand once it is complete, with what is complete around it, the latest
first. -/
inductive Place where
  /-- The document; whether its start is marked. -/
  | root (marked : Bool)
  | blockItem (properties : Properties) (items : List Node)
  /-- An item of a sequence that is no deeper than the key before it. -/
  | levelItem (properties : Properties) (items : List Node)
  | blockKey (properties : Properties) (entries : List (Node × Node))
  | blockValue (properties : Properties) (entries : List (Node × Node)) (key : Node)
  | flowItem (properties : Properties) (items : List Node)
  /-- The key of a mapping of one entry that is an item between brackets. -/
  | pairKey (properties : Properties) (items : List Node)
  | pairValue (properties : Properties) (items : List Node) (key : Node)
  | flowKey (properties : Properties) (entries : List (Node × Node))
  /-- A key between brackets that has neither a mark nor a value. -/
  | loneKey (properties : Properties) (entries : List (Node × Node))
  | flowValue (properties : Properties) (entries : List (Node × Node)) (key : Node)

/-- What is expected next. The places of the collections that are open come with it, the innermost
first. -/
inductive Expecting where
  /-- The start of the document, or a declaration before it. -/
  | start (declared : Bool)
  | node (place : Place) (outer : List Place)
  | content (properties : Properties) (place : Place) (outer : List Place)
  | blockItems (properties : Properties) (items : List Node) (outer : List Place)
  | levelItems (properties : Properties) (items : List Node) (outer : List Place)
  | blockKeys (properties : Properties) (entries : List (Node × Node)) (outer : List Place)
  /-- The mark of a value. -/
  | blockColon (properties : Properties) (entries : List (Node × Node)) (key : Node)
    (outer : List Place)
  /-- An item between brackets, or a comma first. -/
  | flowItems (comma : Bool) (properties : Properties) (items : List Node) (outer : List Place)
  | pairColon (properties : Properties) (items : List Node) (key : Node) (outer : List Place)
  /-- An entry between brackets, or a comma first. -/
  | flowKeys (comma : Bool) (properties : Properties) (entries : List (Node × Node))
    (outer : List Place)
  | flowColon (properties : Properties) (entries : List (Node × Node)) (key : Node)
    (outer : List Place)
  /-- The end of the document or of the text. -/
  | finish (root : Node) (ended : Bool)

def Node.pair (key value : Node) : Node :=
  .mapping .none [(key, value)]

namespace Place

def complete (node : Node) (outer : List Place) : Place → Expecting
  | root _ => .finish node false
  | blockItem properties items => .blockItems properties (node :: items) outer
  | levelItem properties items => .levelItems properties (node :: items) outer
  | blockKey properties entries => .blockColon properties entries node outer
  | blockValue properties entries key => .blockKeys properties ((key, node) :: entries) outer
  | flowItem properties items => .flowItems true properties (node :: items) outer
  | pairKey properties items => .pairColon properties items node outer
  | pairValue properties items key => .flowItems true properties (.pair key node :: items) outer
  | flowKey properties entries => .flowColon properties entries node outer
  | loneKey properties entries =>
      .flowKeys true properties ((node, .empty .none) :: entries) outer
  | flowValue properties entries key => .flowKeys true properties ((key, node) :: entries) outer

/-- Whether a token shows that a node was left out. -/
def isLeftOut : Place → Token → Bool
  | root true, .directive | root true, .documentStart | root true, .documentEnd
  | root true, .textEnd => true
  | blockItem _ _, .blockEntry | blockItem _ _, .blockEnd => true
  | levelItem _ _, .blockEntry | levelItem _ _, .key | levelItem _ _, .value
  | levelItem _ _, .blockEnd => true
  | blockKey _ _, .key | blockKey _ _, .value | blockKey _ _, .blockEnd => true
  | blockValue _ _ _, .key | blockValue _ _ _, .value | blockValue _ _ _, .blockEnd => true
  | pairValue _ _ _, .flowEntry | pairValue _ _ _, .flowSequenceEnd => true
  | flowKey _ _, .value | flowKey _ _, .flowEntry | flowKey _ _, .flowMappingEnd => true
  | flowValue _ _ _, .flowEntry | flowValue _ _ _, .flowMappingEnd => true
  | _, _ => false

def isBlock : Place → Bool
  | root _ | blockItem _ _ | levelItem _ _ | blockKey _ _ | blockValue _ _ _ => true
  | _ => false

/-- Whether the items of a sequence may be no deeper than what is around it. -/
def allowsLevel : Place → Bool
  | blockKey _ _ | blockValue _ _ _ => true
  | _ => false

end Place

def beginContent? (properties : Properties) (place : Place) (outer : List Place) :
    Token → Option Expecting
  | .scalar text plain => some (place.complete (.scalar properties text plain) outer)
  | .flowSequenceStart => some (.flowItems false properties [] (place :: outer))
  | .flowMappingStart => some (.flowKeys false properties [] (place :: outer))
  | .blockSequenceStart =>
      if place.isBlock then some (.blockItems properties [] (place :: outer)) else none
  | .blockMappingStart =>
      if place.isBlock then some (.blockKeys properties [] (place :: outer)) else none
  | .blockEntry =>
      if place.allowsLevel then some (.node (.levelItem properties []) (place :: outer)) else none
  | _ => none

def beginNode? (place : Place) (outer : List Place) : Token → Option Expecting
  | .aliasTo number => some (place.complete (.aliasTo number) outer)
  | .anchor number => some (.content ⟨some number, none⟩ place outer)
  | .tag tag => some (.content ⟨none, some tag⟩ place outer)
  | token => beginContent? .none place outer token

def continueNode? (properties : Properties) (place : Place) (outer : List Place) :
    Token → Option Expecting
  | .anchor number =>
      if properties.anchor.isNone then
        some (.content { properties with anchor := number } place outer)
      else none
  | .tag tag =>
      if properties.tag.isNone then some (.content { properties with tag } place outer)
      else none
  | token => beginContent? properties place outer token

def close? (node : Node) : List Place → Option Expecting
  | place :: outer => some (place.complete node outer)
  | [] => none

namespace Expecting

/-- Fill in a node that was left out before a token. -/
def fillNode (token : Token) (s : Expecting) : Expecting :=
  match s with
  | node place outer => if place.isLeftOut token then place.complete (.empty .none) outer else s
  | content properties place outer =>
      if (continueNode? properties place outer token).isNone then
        place.complete (.empty properties) outer
      else s
  | _ => s

/-- Fill in the end of a sequence that is no deeper than the key before it. -/
def fillEnd (token : Token) (s : Expecting) : Expecting :=
  match s, token with
  | levelItems _ _ _, .blockEntry => s
  | levelItems properties items (place :: outer), _ =>
      place.complete (.sequence properties items.reverse) outer
  | _, _ => s

/-- Fill in a value that was left out with its mark before a token. -/
def fillValue (token : Token) (s : Expecting) : Expecting :=
  match s, token with
  | blockColon _ _ _ _, .value => s
  | blockColon properties entries key outer, _ =>
      .blockKeys properties ((key, .empty .none) :: entries) outer
  | pairColon _ _ _ _, .value => s
  | pairColon properties items key outer, _ =>
      .flowItems true properties (.pair key (.empty .none) :: items) outer
  | flowColon _ _ _ _, .value => s
  | flowColon properties entries key outer, _ =>
      .flowKeys true properties ((key, .empty .none) :: entries) outer
  | _, _ => s

/-- Take a token before which nothing was left out. A key between square brackets that is left out
takes the token that shows it. -/
def takeShown : Expecting → Token → Option Expecting
  | start _, .directive => some (.start true)
  | start _, .documentStart => some (.node (.root true) [])
  | start false, .textEnd => some (.finish (.empty .none) true)
  | start false, token => beginNode? (.root false) [] token
  | node (.pairKey properties items) outer, .value
  | node (.pairKey properties items) outer, .flowEntry
  | node (.pairKey properties items) outer, .flowSequenceEnd =>
      some (.pairColon properties items (.empty .none) outer)
  | node place outer, token => beginNode? place outer token
  | content properties place outer, token => continueNode? properties place outer token
  | blockItems properties items outer, .blockEntry =>
      some (.node (.blockItem properties items) outer)
  | blockItems properties items outer, .blockEnd =>
      close? (.sequence properties items.reverse) outer
  | levelItems properties items outer, .blockEntry =>
      some (.node (.levelItem properties items) outer)
  | blockKeys properties entries outer, .key => some (.node (.blockKey properties entries) outer)
  | blockKeys properties entries outer, .blockEnd =>
      close? (.mapping properties entries.reverse) outer
  | blockColon properties entries key outer, .value =>
      some (.node (.blockValue properties entries key) outer)
  | flowItems _ properties items outer, .flowSequenceEnd =>
      close? (.sequence properties items.reverse) outer
  | flowItems true properties items outer, .flowEntry =>
      some (.flowItems false properties items outer)
  | flowItems false properties items outer, .key => some (.node (.pairKey properties items) outer)
  | flowItems false properties items outer, token =>
      beginNode? (.flowItem properties items) outer token
  | pairColon properties items key outer, .value =>
      some (.node (.pairValue properties items key) outer)
  | flowKeys _ properties entries outer, .flowMappingEnd =>
      close? (.mapping properties entries.reverse) outer
  | flowKeys true properties entries outer, .flowEntry =>
      some (.flowKeys false properties entries outer)
  | flowKeys false properties entries outer, .key =>
      some (.node (.flowKey properties entries) outer)
  | flowKeys false properties entries outer, token =>
      beginNode? (.loneKey properties entries) outer token
  | flowColon properties entries key outer, .value =>
      some (.node (.flowValue properties entries key) outer)
  | finish root false, .documentEnd => some (.finish root false)
  | finish root false, .textEnd => some (.finish root true)
  | _, _ => none

def take (s : Expecting) (token : Token) : Option Expecting :=
  (((s.fillNode token).fillEnd token).fillValue token).takeShown token

end Expecting

/-- The tree of tokens, if they are one document. A text without a document is an empty node. -/
def Node.ofTokens? (tokens : List Token) : Option Node :=
  match tokens.foldlM Expecting.take (.start false) with
  | some (.finish root true) => some root
  | _ => none

def Node.parse? (text : String) : Option Node :=
  (tokens? text).bind Node.ofTokens?

end DateReviver.Yaml
