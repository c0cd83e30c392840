import DateReviver.Proofs.Json.Spacing
import DateReviver.Proofs.Reading.Flaws
import DateReviver.Proofs.Reading.Meaning
import DateReviver.Proofs.Reading.Respelling
import DateReviver.Reading.Document

/-!
# Documents in JSON are read by their meaning

What is read of a text depends on the tree that it writes, and of the tree only on what it means
as a document.
-/

namespace DateReviver.OpenApi

open DateReviver.Json (Lexemes Node Respaced Spaced)
open DateReviver.Reading.Json

theorem Document.parse_json_eq (text : String) :
    Document.parse .json text =
      match (Node.parse? text).bind fun node =>
        (Shape.record .document).read ⟨maxNesting, node⟩ with
      | some doc => .ok doc
      | none => .error .unreadableDocument := rfl

theorem Document.parse_json_of_node {text : String} {node : Node}
    (h : Node.parse? text = some node) :
    Document.parse .json text =
      match (Shape.record .document).read ⟨maxNesting, node⟩ with
      | some doc => .ok doc
      | none => .error .unreadableDocument := by
  rw [Document.parse_json_eq, h]
  rfl

theorem Document.exists_node_of_parse_json {text : String} {doc : Document}
    (h : Document.parse .json text = .ok doc) :
    ∃ node, Node.parse? text = some node ∧
      (Shape.record .document).read ⟨maxNesting, node⟩ = some doc := by
  rw [Document.parse_json_eq] at h
  split at h
  · rename_i found hfound
    cases h
    exact Option.bind_eq_some_iff.1 hfound
  · cases h

/-- A document is read by its meaning alone. The same is read of every spelling and with any
spaces; what is read has the entries of each table in their order, the last of each name; and of a
tree with a flaw nothing is read. -/
theorem Document.parse_json_meaning :
    (∀ {text text' : String} {node node' : Node}, Node.parse? text = some node →
      Node.parse? text' = some node' → Respelled (.record .document) maxNesting node node' →
        Document.parse .json text' = Document.parse .json text) ∧
    (∀ {text text' : String} {doc : Document}, Document.parse .json text = .ok doc →
      Respaced text text' → Document.parse .json text' = .ok doc) ∧
    (∀ {text : String} {doc : Document}, Document.parse .json text = .ok doc →
      ∃ node, Node.parse? text = some node ∧
        Means (.record .document) ⟨maxNesting, node⟩ doc) ∧
    (∀ {text : String} {node : Node}, Node.parse? text = some node →
      Flawed (.record .document) node →
        Document.parse .json text = .error .unreadableDocument) := by
  refine ⟨?_, ?_, ?_, ?_⟩
  · intro text text' node node' hnode hnode' hrespelled
    rw [Document.parse_json_of_node hnode, Document.parse_json_of_node hnode',
      hrespelled.alike.read]
  · intro text text' doc h hrespaced
    obtain ⟨node, hnode, _⟩ := Document.exists_node_of_parse_json h
    have hsame := Node.parse?_of_respaced hnode hrespaced
    rw [← h, Document.parse_json_of_node hnode, Document.parse_json_of_node hsame]
  · intro text doc h
    obtain ⟨node, hnode, hread⟩ := Document.exists_node_of_parse_json h
    exact ⟨node, hnode, sound _ _ _ hread⟩
  · intro text node hnode hflawed
    rw [Document.parse_json_of_node hnode, hflawed.unread]

/-- A document without paths. -/
def pathless : String := "\x7b\"paths\":\x7b\x7d\x7d"

theorem parse?_pathless : Node.parse? pathless = some (.record [(some "paths", .record [])]) := by
  unfold pathless
  cbv

theorem respaced_pathless : Respaced pathless "\x7b \"paths\": \x7b\x7d\x7d" := by
  refine ⟨[['\x7b'], ['"', 'p', 'a', 't', 'h', 's', '"'], [':'], ['\x7b'], ['\x7d'], ['\x7d']], ?_, ?_⟩
  · have hend : Lexemes ['\x7d'] [['\x7d']] := @Lexemes.lexeme '\x7d' [] _ _ _ rfl rfl .nil
    have hpaths : Lexemes ['\x7b', '\x7d', '\x7d'] [['\x7b'], ['\x7d'], ['\x7d']] :=
      @Lexemes.lexeme '\x7b' [] _ _ _ rfl rfl (@Lexemes.lexeme '\x7d' [] _ _ _ rfl rfl hend)
    exact @Lexemes.lexeme '\x7b' [] _ _ _ rfl rfl
      (@Lexemes.lexeme '"' ['p', 'a', 't', 'h', 's', '"'] _ _ _ rfl rfl
        (@Lexemes.lexeme ':' [] _ _ _ rfl rfl hpaths))
  · have hpaths : Spaced [['\x7b'], ['\x7d'], ['\x7d']] ['\x7b', '\x7d', '\x7d'] :=
      @Spaced.lexeme ['\x7b'] _ _ (@Spaced.lexeme ['\x7d'] _ _ (@Spaced.lexeme ['\x7d'] _ _ .nil))
    exact @Spaced.lexeme ['\x7b'] _ _ (.space rfl (@Spaced.lexeme ['"', 'p', 'a', 't', 'h', 's', '"'] _ _
      (@Spaced.lexeme [':'] _ _ (.space rfl hpaths))))

/-- A field that is not known, one that is null and spaces make no difference to it; with its paths
given twice nothing is read. -/
theorem Document.parse_json_meaning_pathless :
    Document.parse .json "\x7b\"components\":null,\"x\":true,\"paths\":\x7b\x7d\x7d" =
        Document.parse .json pathless ∧
      (∃ doc, Document.parse .json pathless = .ok doc ∧
        Document.parse .json "\x7b \"paths\": \x7b\x7d\x7d" = .ok doc) ∧
      Document.parse .json "\x7b\"paths\":\x7b\x7d,\"paths\":\x7b\x7d\x7d" =
        .error .unreadableDocument := by
  refine ⟨?_, ⟨⟨.empty, none⟩, ?_⟩, ?_⟩
  · have hnode : Node.parse? "\x7b\"components\":null,\"x\":true,\"paths\":\x7b\x7d\x7d" =
        some (.record
          [(some "components", .null), (some "x", .bool true), (some "paths", .record [])]) := by
      cbv
    have hunknown : Respelled (.record .document) maxNesting
        (.record [(some "paths", .record [])])
        (.record [(some "x", .bool true), (some "paths", .record [])]) :=
      @Respelled.unknown .document 126 [] [(some "paths", .record [])] "x" (.bool true)
        (by decide) (fun h => by cases h)
    have hnull : Respelled (.record .document) maxNesting
        (.record [(some "x", .bool true), (some "paths", .record [])])
        (.record [(some "components", .null), (some "x", .bool true),
          (some "paths", .record [])]) :=
      @Respelled.null .document 126 [] [(some "x", .bool true), (some "paths", .record [])]
        ⟨"components", .record .components, true⟩ (by simp [Form.fields]) rfl (by decide)
    exact Document.parse_json_meaning.1 parse?_pathless hnode (hunknown.trans hnull)
  · have hread : Document.parse .json pathless = .ok ⟨.empty, none⟩ := by
      rw [Document.parse_json_of_node parse?_pathless]
      rfl
    exact ⟨hread, Document.parse_json_meaning.2.1 hread respaced_pathless⟩
  · have hnode : Node.parse? "\x7b\"paths\":\x7b\x7d,\"paths\":\x7b\x7d\x7d" =
        some (.record [(some "paths", .record []), (some "paths", .record [])]) := by
      cbv
    have htwice : Flawed (.record .document)
        (.record [(some "paths", .record []), (some "paths", .record [])]) :=
      @Flawed.repeated .document [] [] [] ⟨"paths", .table (.record .pathItem), false⟩ _ _
        (by simp [Form.fields])
    exact Document.parse_json_meaning.2.2.2 hnode htwice

end DateReviver.OpenApi
