import Arbiter.Dependence.Graph
import Arbiter.Json.Reader
import Arbiter.Similarity.Report

/-! Similarity reports as JSON. How scores are written is left to the caller. -/

namespace Arbiter.Similarity

open Dependence

def Status.name : Status → String
  | common => "common"
  | uniqueFirst => "unique_p1"
  | uniqueSecond => "unique_p2"

def Status.decode? (j : Json) : Option Status :=
  j.toWord? ([common, uniqueFirst, uniqueSecond].map fun s => (s.name, s))

def MatchedEdge.encode (m : MatchedEdge) : Json :=
  .object [("p1_edge", m.first.encode), ("p2_edge", m.second.encode)]

def MatchedEdge.decode? (j : Json) : Option MatchedEdge := do
  let fs ← j.fieldsOf? ["p1_edge", "p2_edge"]
  return ⟨← fs.required "p1_edge" Edge.decode?, ← fs.required "p2_edge" Edge.decode?⟩

def Mapping.encode (m : Mapping) : Json :=
  .object (m.map fun (k, v) => (toString k, .ofNat v))

/-- A field name that is a written number. Its digits have to stand there themselves: a character
given by its code is no part of a number. -/
def keyOf? (name : Json.Name) : Option Nat := do
  guard name.plain
  let (n, rest) ← Json.numeral? name.text.toList
  if rest.isEmpty then Json.toNat64? (.number n) else none

/-- A map as an object whose field names are numbers; of equal ones the last wins. -/
def Mapping.decode? : Json → Option Mapping
  | .object fields =>
    fields.foldlM (fun m (name, j) => do return Mapping.insert m (← keyOf? name) (← j.toNat64?)) []
  | _ => none

def ShownNode.encode (n : ShownNode) : Json :=
  .object [
    ("id", .string n.id), ("original_id", .ofNat n.originalId),
    ("source_program", .string n.program), ("status", .string n.status.name),
    ("label", .string n.label)]

def ShownNode.decode? (j : Json) : Option ShownNode := do
  let fs ← j.fieldsOf? ["id", "original_id", "source_program", "status", "label"]
  return {
    id := ← fs.required "id" Json.toString?
    originalId := ← fs.required "original_id" Json.toNat64?
    program := ← fs.required "source_program" Json.toString?
    status := ← fs.required "status" Status.decode?
    label := ← fs.required "label" Json.toString? }

def ShownEdge.encode (e : ShownEdge) : Json :=
  .object [
    ("source", .string e.source), ("target", .string e.target), ("kind", .string e.kind.name),
    ("status", .string e.status.name)]

def ShownEdge.decode? (j : Json) : Option ShownEdge := do
  let fs ← j.fieldsOf? ["source", "target", "kind", "status"]
  return {
    source := ← fs.required "source" Json.toString?
    target := ← fs.required "target" Json.toString?
    kind := ← fs.required "kind" EdgeKind.decode?
    status := ← fs.required "status" Status.decode? }

namespace Report

/-- The report as JSON, with scores written by `number`. -/
def encode (number : Float → Json) (r : Report) : Json :=
  .object [
    ("sim_scores", .object [
      ("sim_score", number r.score), ("node_score", number r.nodeScore),
      ("edge_score", number r.edgeScore)]),
    ("mappings", .object [
      ("node_mapping_p1_to_p2", r.mapping.encode),
      ("matched_edges", .ofList MatchedEdge.encode r.matchedEdges)]),
    ("visualization_summary", .object [
      ("nodes", .ofList ShownNode.encode r.nodes), ("edges", .ofList ShownEdge.encode r.edges)])]

def decode? (j : Json) : Option Report := do
  let fs ← j.fieldsOf? ["sim_scores", "mappings", "visualization_summary"]
  let scores ← fs.required "sim_scores"
    (Json.fieldsOf? ["sim_score", "node_score", "edge_score"])
  let mappings ← fs.required "mappings"
    (Json.fieldsOf? ["node_mapping_p1_to_p2", "matched_edges"])
  let picture ← fs.required "visualization_summary" (Json.fieldsOf? ["nodes", "edges"])
  return {
    score := ← scores.required "sim_score" Json.toFloat?
    nodeScore := ← scores.required "node_score" Json.toFloat?
    edgeScore := ← scores.required "edge_score" Json.toFloat?
    mapping := ← mappings.required "node_mapping_p1_to_p2" Mapping.decode?
    matchedEdges := ← mappings.required "matched_edges" (Json.toList? MatchedEdge.decode?)
    nodes := ← picture.required "nodes" (Json.toList? ShownNode.decode?)
    edges := ← picture.required "edges" (Json.toList? ShownEdge.decode?) }

end Report

end Arbiter.Similarity
