import Arbiter.Similarity.Compare

/-! Reports on two programs: the scores, what was matched, and a picture of all nodes and edges of
the first program with those of the second that were not matched. -/

namespace Arbiter.Similarity

open Dependence

/-- Whether a node or edge was matched, and if not, which program it is from. -/
inductive Status
  | common
  | uniqueFirst
  | uniqueSecond
deriving DecidableEq

structure ShownNode where
  id : String
  originalId : Nat
  program : String
  status : Status
  label : String

structure ShownEdge where
  source : String
  target : String
  kind : EdgeKind
  status : Status

structure Report where
  score : Float
  nodeScore : Float
  edgeScore : Float
  mapping : Mapping
  matchedEdges : List MatchedEdge
  nodes : List ShownNode
  edges : List ShownEdge

/-- The name of a node in the picture of both programs. -/
def shownId (program : String) (id : Nat) : String := program ++ "_" ++ toString id

def showNode (program : String) (status : Status) (n : Node) : ShownNode :=
  ⟨shownId program n.id, n.id, program, status, n.label⟩

def showEdge (program : String) (status : Status) (e : Edge) : ShownEdge :=
  ⟨shownId program e.source, shownId program e.target, e.kind, status⟩

def firstStatus (matched : Bool) : Status := if matched then .common else .uniqueFirst

def shownNodes (g1 g2 : Graph) (c : Comparison) : List ShownNode :=
  g1.nodes.map (fun n => showNode "p1" (firstStatus (c.mapping.get? n.id).isSome) n) ++
    (g2.nodes.filter fun n => !c.mapping.images.contains n.id).map (showNode "p2" .uniqueSecond)

def shownEdges (g1 g2 : Graph) (c : Comparison) : List ShownEdge :=
  let firsts := c.edges.map (·.first)
  let seconds := c.edges.map (·.second)
  g1.edges.map (fun e => showEdge "p1" (firstStatus (firsts.contains e)) e) ++
    (g2.edges.filter fun e => !seconds.contains e).map (showEdge "p2" .uniqueSecond)

/-- The report on two programs. -/
def Report.of (g1 g2 : Graph) : Report :=
  let c := compare g1 g2
  { score := c.score, nodeScore := c.nodeScore, edgeScore := c.edgeScore
    mapping := c.mapping, matchedEdges := c.edges
    nodes := shownNodes g1 g2 c, edges := shownEdges g1 g2 c }

end Arbiter.Similarity
