import Arbiter.Canon.Numbering
import Arbiter.Dependence.Graph
import Arbiter.Flow.Fixpoint
import Arbiter.Syntax.Parser

/-! The dependences of a program. A block depends on a branch by control if the branch leads to it
but is not on every path from it to the exit. It depends on a block by data if a name stored there
is loaded here after a path on which no block stores it again. -/

namespace Arbiter.Flow.Graph

open Syntax

/-- At first every block counts as one on every path, except from the exit. -/
def dominatorStart (g : Graph) (b : Nat) : BlockSet :=
  if b = exit then .single exit else .below g.size

/-- The blocks on every path from `b`, where `sets` holds those from its successors. -/
def dominatorStep (g : Graph) (sets : BlockSets) (b : Nat) : BlockSet :=
  match g.successors b with
  | [] => sets.get b
  | first :: rest =>
    if b = exit then sets.get b
    else (rest.foldl (fun s next => s.inter (sets.get next)) (sets.get first)).union (.single b)

/-- The blocks on every path from each block to the exit. -/
def postDominators (g : Graph) : BlockSets := solve g.size g.dominatorStart g.dominatorStep

/-- `b` and the blocks behind it, where `sets` holds those of its successors. -/
def reachStep (g : Graph) (sets : BlockSets) (b : Nat) : BlockSet :=
  (BlockSet.unions ((g.successors b).map sets.get)).union (.single b)

/-- The blocks that a run can come to from each block, itself included. -/
def reachable (g : Graph) : BlockSets := solve g.size .single g.reachStep

/-- The pairs of numbers below `n` with the property `p`, in order. -/
def pairsBelow (n : Nat) (p : Nat → Nat → Bool) : List (Nat × Nat) :=
  (List.range n).flatMap fun a => ((List.range n).filter (p a)).map (a, ·)

/-- The blocks behind each block that branches. -/
def behindBranches (g : Graph) : BlockSets :=
  let reached := g.reachable
  .tabulate g.size fun b =>
    if (g.successors b).length > 1 then BlockSet.unions ((g.successors b).map reached.get)
    else .empty

/-- The pairs of a branch and a block that depends on it by control, in order. -/
def controlPairs (g : Graph) : List (Nat × Nat) :=
  let dominators := g.postDominators
  let behind := g.behindBranches
  pairsBelow g.size fun b x => (behind.get b).has x && !(dominators.get x).has b

/-- The names that block `b` holds in the context `ctx`. -/
def names (g : Graph) (ctx : Context) (b : Nat) : List String :=
  (((g.items b).flatMap Item.occurrences).filter (·.ctx == ctx)).map (·.name)

/-- What comes into block `b` from the ends of its predecessors. -/
def incoming (g : Graph) (out : BlockSets) (b : Nat) : BlockSet :=
  BlockSet.unions ((g.predecessors b).map out.get)

/-- A definition of a name in block `b` displaces those that come in. -/
def definitionStep (g : Graph) (defines : Nat → Bool) (out : BlockSets) (b : Nat) : BlockSet :=
  if defines b then .single b else g.incoming out b

/-- The blocks whose definition of a name reaches the end of each block, where `defines` tells which
blocks define it. -/
def leaving (g : Graph) (defines : Nat → Bool) : BlockSets :=
  solve g.size (fun _ => .empty) (g.definitionStep defines)

/-- The blocks whose definition of a name reaches the start of each block. -/
def reaching (g : Graph) (defines : Nat → Bool) : BlockSets :=
  let out := g.leaving defines
  .tabulate g.size (g.incoming out)

/-- The blocks of which each block uses a definition. -/
def dataSources (g : Graph) : BlockSets :=
  let blocks := List.range g.size
  let defs := (blocks.map (g.names .store)).toArray
  let uses := (blocks.map fun b => (g.names .load b).eraseDups).toArray
  let names := uses.toList.flatten.eraseDups
  let perName := names.map fun v => (v, g.reaching fun b => (defs.getD b []).contains v)
  .tabulate g.size fun b =>
    BlockSet.unions <| perName.map fun (v, sets) =>
      if (uses.getD b []).contains v then sets.get b else .empty

/-- The pairs of a defining and a using block, in order. -/
def dataPairs (g : Graph) : List (Nat × Nat) :=
  let sources := g.dataSources
  pairsBelow g.size fun d b => (sources.get b).has d

/-- The dependence graph, with a node for each block and the control edges first. -/
def dependences (g : Graph) : Dependence.Graph where
  nodes := g.blocks.toList.map fun b => ⟨b.id, b.label, Canon.contentHash b.items⟩
  edges := g.controlPairs.map (fun (a, b) => ⟨a, b, .control⟩) ++
    g.dataPairs.map fun (a, b) => ⟨a, b, .data⟩

end Arbiter.Flow.Graph

namespace Arbiter.Dependence

/-- The dependence graph of a source text. -/
def Graph.ofSource (source : String) : Except Syntax.Fault Graph :=
  (Syntax.parseProgram source).map fun body => (Flow.Graph.ofProgram body).dependences

end Arbiter.Dependence
