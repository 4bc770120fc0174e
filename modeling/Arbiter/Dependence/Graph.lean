import Arbiter.Json.Decode

/-! Dependence graphs: nodes that stand for blocks of code, and edges for the dependences between
them. -/

namespace Arbiter.Dependence

structure Node where
  id : Nat
  label : String
  hash : String
deriving DecidableEq

/-- An edge says that the target is run depending on the source, or uses what the source binds. -/
inductive EdgeKind
  | control
  | data
deriving DecidableEq

structure Edge where
  source : Nat
  target : Nat
  kind : EdgeKind
deriving DecidableEq

structure Graph where
  nodes : List Node
  edges : List Edge
deriving DecidableEq

/-! Dependence graphs as JSON. -/

def EdgeKind.name : EdgeKind → String
  | control => "control"
  | data => "data"

def EdgeKind.decode? (j : Json) : Option EdgeKind :=
  j.toWord? [("control", .control), ("data", .data)]

def Node.encode (n : Node) : Json :=
  .object [("id", .ofNat n.id), ("label", .string n.label), ("content_hash", .string n.hash)]

def Node.decode? (j : Json) : Option Node := do
  let fs ← j.fieldsOf? ["id", "label", "content_hash"]
  return {
    id := ← fs.required "id" Json.toNat64?
    label := ← fs.required "label" Json.toString?
    hash := ← fs.required "content_hash" Json.toString? }

def Edge.encode (e : Edge) : Json :=
  .object [
    ("source", .ofNat e.source), ("target", .ofNat e.target), ("kind", .string e.kind.name)]

def Edge.decode? (j : Json) : Option Edge := do
  let fs ← j.fieldsOf? ["source", "target", "kind"]
  return {
    source := ← fs.required "source" Json.toNat64?
    target := ← fs.required "target" Json.toNat64?
    kind := ← fs.required "kind" EdgeKind.decode? }

def Graph.encode (g : Graph) : Json :=
  .object [("nodes", .ofList Node.encode g.nodes), ("edges", .ofList Edge.encode g.edges)]

def Graph.decode? (j : Json) : Option Graph := do
  let fs ← j.fieldsOf? ["nodes", "edges"]
  return {
    nodes := ← fs.required "nodes" (Json.toList? Node.decode?)
    edges := ← fs.required "edges" (Json.toList? Edge.decode?) }

end Arbiter.Dependence
