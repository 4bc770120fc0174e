import Arbiter.Syntax.Label
import Arbiter.Syntax.Occurrence
import Arbiter.Syntax.Relabel
import Arbiter.Syntax.Stmt.Printer

/-! Items: what a block of a flow graph holds. -/

namespace Arbiter.Flow

open Syntax

/-- A statement, or the expression that drives a branch or loop. -/
inductive Item
  | stmt (s : Stmt)
  | expr (e : Expr)

namespace Item

def text : Item → String
  | stmt s => s.text
  | expr e => e.text

def occurrences : Item → List Occurrence
  | stmt s => s.occurrences
  | expr e => e.occurrences

def labels : Item → List Label
  | stmt s => stmtLabels s
  | expr e => exprLabels e

def relabel (r : Relabeling) : Item → Item
  | stmt s => .stmt (relabelStmt r s)
  | expr e => .expr (relabelExpr r e)

end Item

end Arbiter.Flow
