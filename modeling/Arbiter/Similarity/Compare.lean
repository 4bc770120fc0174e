import Arbiter.Canon.Numbering
import Arbiter.Decimal.Basic
import Arbiter.Dependence.Graph

/-! How similar two dependence graphs are. Nodes of equal hash are matched one to one, edges between
matched nodes are matched if both graphs have them, and the scores are Dice coefficients. Empty
blocks and the edges at them are left out. -/

namespace Arbiter.Similarity

open Dependence

/-- A node takes part in matching unless its block is empty. -/
def comparable (n : Node) : Bool := n.hash != Canon.emptyHash

/-- Two nodes may be matched. -/
def alike (a b : Node) : Bool := comparable a && a.hash == b.hash

/-- Matches each node in turn with the first of `free` that is alike; a matched one is no longer
free. -/
def matchNodes : List Node → List Node → List (Node × Node)
  | [], _ => []
  | a :: rest, free =>
    match free.find? (alike a) with
    | some b => (a, b) :: matchNodes rest (free.eraseP (alike a))
    | none => matchNodes rest free

/-- A finite map between node numbers, in ascending order of the first. -/
abbrev Mapping := List (Nat × Nat)

namespace Mapping

/-- Sets the image of `k`, replacing an earlier one. -/
def insert (m : Mapping) (k v : Nat) : Mapping :=
  match m with
  | [] => [(k, v)]
  | (k', v') :: rest =>
    if k < k' then (k, v) :: (k', v') :: rest
    else if k = k' then (k, v) :: rest
    else (k', v') :: insert rest k v

def get? (m : Mapping) (k : Nat) : Option Nat := m.lookup k

def images (m : Mapping) : List Nat := m.map (·.2)

end Mapping

/-- The numbers of the matched nodes. -/
def nodeMapping (g1 g2 : Graph) : Mapping :=
  (matchNodes g1.nodes g2.nodes).foldl (fun m (a, b) => Mapping.insert m a.id b.id) []

structure MatchedEdge where
  first : Edge
  second : Edge
deriving DecidableEq

/-- The different numbers of the comparable nodes. -/
def comparableIds (g : Graph) : List Nat := ((g.nodes.filter comparable).map (·.id)).eraseDups

/-- The edges between comparable nodes. -/
def comparableEdges (g : Graph) : List Edge :=
  let ids := comparableIds g
  g.edges.filter fun e => ids.contains e.source && ids.contains e.target

/-- The image of an edge under a mapping of its ends. -/
def mapEdge? (m : Mapping) (e : Edge) : Option Edge := do
  let source ← m.get? e.source
  let target ← m.get? e.target
  return { e with source, target }

/-- The edges of the first graph whose image is an edge of the second. -/
def matchEdges (m : Mapping) (edges1 edges2 : List Edge) : List MatchedEdge :=
  edges1.filterMap fun e => do
    let image ← mapEdge? m e
    if edges2.contains image then return ⟨e, image⟩ else none

/-- A fraction of counts. -/
structure Ratio where
  num : Nat
  den : Nat

/-- Twice the matches over the sizes of both sides; none if both sides are empty. -/
def dice? (matched left right : Nat) : Option Ratio :=
  if left + right > 0 then some ⟨2 * matched, left + right⟩ else none

/-- The binary fraction nearest to the ratio. Counts below `2 ^ 53` are such fractions themselves,
so for them this is the quotient of both as fractions. -/
def Ratio.toFloat (r : Ratio) : Float := .ofBits (.ofNat (Decimal.nearestBits r.num r.den))

structure Comparison where
  score : Float
  nodeScore : Float
  edgeScore : Float
  /-- The numbers of matched nodes. -/
  mapping : Mapping
  edges : List MatchedEdge

/-- The shares of the node and the edge score in the whole. -/
def nodeWeight : Float := 0.4

def edgeWeight : Float := 0.6

/-- Compares two graphs. Without nodes to compare the node score is one, and without edges the edge
score is the node score. -/
def compare (g1 g2 : Graph) : Comparison :=
  let mapping := nodeMapping g1 g2
  let edges1 := comparableEdges g1
  let edges2 := (comparableEdges g2).eraseDups
  let edges := matchEdges mapping edges1 edges2
  let nodeScore :=
    ((dice? mapping.length (comparableIds g1).length (comparableIds g2).length).map
      Ratio.toFloat).getD 1.0
  let edgeScore :=
    ((dice? edges.length edges1.length edges2.length).map Ratio.toFloat).getD nodeScore
  { score := nodeWeight * nodeScore + edgeWeight * edgeScore
    nodeScore, edgeScore, mapping, edges }

end Arbiter.Similarity
