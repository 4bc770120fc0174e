import Arbiter.Flow.Item

/-! Flow graphs. A block holds items that run one after the other, and its number is its place.
`if`, `for`, `while` and `match` divide blocks. Every other statement is an item of the current
block as a whole; the bodies inside of it are then walked in place, so that branches in them shape
the graph too. -/

namespace Arbiter.Flow

open Syntax

structure Block where
  id : Nat
  items : List Item := []
  /-- The blocks that may run next, in the order in which they were joined. -/
  successors : List Nat := []
  predecessors : List Nat := []

structure Graph where
  blocks : Array Block

namespace Graph

/-- The block where every run ends. -/
def exit : Nat := 0

/-- The block where every run starts. -/
def entry : Nat := 1

/-- The graph of the exit and the entry, not yet joined. -/
def initial : Graph := ⟨#[{ id := exit }, { id := entry }]⟩

def size (g : Graph) : Nat := g.blocks.size

def successors (g : Graph) (b : Nat) : List Nat := (g.blocks[b]?.map (·.successors)).getD []

def predecessors (g : Graph) (b : Nat) : List Nat := (g.blocks[b]?.map (·.predecessors)).getD []

def items (g : Graph) (b : Nat) : List Item := (g.blocks[b]?.map (·.items)).getD []

/-- The number as a last entry, unless it is there already. -/
def insertNew (n : Nat) (ns : List Nat) : List Nat := if ns.contains n then ns else ns ++ [n]

/-- Joins two blocks; joining them again changes nothing. -/
def join (g : Graph) (source target : Nat) : Graph :=
  let left := g.blocks.modify source fun b => { b with successors := insertNew target b.successors }
  ⟨left.modify target fun b => { b with predecessors := insertNew source b.predecessors }⟩

/-- Adds an item at the end of block `b`. -/
def addItem (g : Graph) (b : Nat) (item : Item) : Graph :=
  ⟨g.blocks.modify b fun block => { block with items := block.items ++ [item] }⟩

/-- Adds an empty block, whose number is the size so far. -/
def addBlock (g : Graph) : Graph := ⟨g.blocks.push { id := g.size }⟩

end Graph

/-- A step in building a graph. -/
abbrev Build := StateM Graph

namespace Build

def newBlock : Build Nat := fun g => (g.size, g.addBlock)

def join (source target : Nat) : Build Unit := modify (·.join source target)

def put (b : Nat) (item : Item) : Build Unit := modify (·.addItem b item)

/-- A new block joined behind `b`. -/
def branchFrom (b : Nat) : Build Nat := do
  let new ← newBlock
  join b new
  return new

end Build

open Build

/-- The `match` that its block holds: its cases without their bodies. -/
def matchHeader (subject : Expr) (cases : List MatchCase) : Stmt :=
  .matchBlock subject (cases.map fun c => { c with body := [] })

mutual

/-- Adds a statement that starts in block `cursor`; gives the block in which control leaves it. -/
def walk : Stmt → Nat → Build Nat
  | .branch test body orelse, cursor => do
    put cursor (.expr test)
    let thenBlock ← branchFrom cursor
    let thenEnd ← walkBlock body thenBlock
    let elseEnd ←
      if orelse.isEmpty then pure cursor
      else do
        let elseBlock ← branchFrom cursor
        walkBlock orelse elseBlock
    let merge ← branchFrom thenEnd
    join elseEnd merge
    return merge
  | .forLoop target iter body orelse _, cursor => do
    let header ← branchFrom cursor
    put header (.expr iter)
    put header (.expr target)
    let bodyBlock ← branchFrom header
    let after ← branchFrom header
    let bodyEnd ← walkBlock body bodyBlock
    join bodyEnd header
    walkBlock orelse after
  | .whileLoop test body orelse, cursor => do
    let header ← branchFrom cursor
    put header (.expr test)
    let bodyBlock ← branchFrom header
    let after ← branchFrom header
    let bodyEnd ← walkBlock body bodyBlock
    join bodyEnd header
    walkBlock orelse after
  | .matchBlock subject cases, cursor => do
    put cursor (.stmt (matchHeader subject cases))
    let ends ← walkCases cases cursor
    let merge ← branchFrom cursor
    ends.forM (join · merge)
    return merge
  | .functionDef name params body decorators returns isAsync, cursor => do
    put cursor (.stmt (.functionDef name params body decorators returns isAsync))
    walkBlock body cursor
  | .classDef name bases keywords body decorators, cursor => do
    put cursor (.stmt (.classDef name bases keywords body decorators))
    walkBlock body cursor
  | .withBlock items body isAsync, cursor => do
    put cursor (.stmt (.withBlock items body isAsync))
    walkBlock body cursor
  | .tryBlock body handlers orelse finalbody, cursor => do
    put cursor (.stmt (.tryBlock body handlers orelse finalbody))
    let cursor ← walkBlock body cursor
    let cursor ← walkHandlers handlers cursor
    let cursor ← walkBlock orelse cursor
    walkBlock finalbody cursor
  | s, cursor => do
    put cursor (.stmt s)
    return cursor

def walkBlock : List Stmt → Nat → Build Nat
  | [], cursor => pure cursor
  | s :: rest, cursor => do
    let next ← walk s cursor
    walkBlock rest next

/-- Handlers follow each other. -/
def walkHandlers : List Handler → Nat → Build Nat
  | [], cursor => pure cursor
  | ⟨_, _, body⟩ :: rest, cursor => do
    let next ← walkBlock body cursor
    walkHandlers rest next

/-- Each case branches off the block `cursor`; gives the blocks in which they end. -/
def walkCases : List MatchCase → Nat → Build (List Nat)
  | [], _ => pure []
  | ⟨_, _, body⟩ :: rest, cursor => do
    let start ← branchFrom cursor
    let last ← walkBlock body start
    let more ← walkCases rest cursor
    return last :: more

end

/-- The flow graph of a program. -/
def Graph.ofProgram (body : List Stmt) : Graph :=
  let (last, g) := walkBlock body Graph.entry Graph.initial
  g.join last Graph.exit

/-- The items that a label shows before it breaks off. -/
def shownItems : Nat := 3

/-- The label of a block: its number and its first items. -/
def Block.label (b : Block) : String :=
  if b.items.isEmpty then "Block-" ++ toString b.id ++ " (empty)"
  else
    let more := if b.items.length > shownItems then ["..."] else []
    "\n".intercalate
      (("Block-" ++ toString b.id) :: (b.items.take shownItems).map Item.text ++ more)

def Graph.label (g : Graph) (b : Nat) : String := (g.blocks[b]?.map Block.label).getD ""

end Arbiter.Flow
