/-! Verdicts on single test cases, the categories that a whole submission falls into, and the stages
of its life. Main fact: the category of a submission is the worst one of its cases. -/

namespace Arbiter

/-- The verdict on one test case. -/
inductive Verdict
  | accepted
  | wrongAnswer
  | runtimeError
  | timeLimitExceeded
  | memoryLimitExceeded
  | compileError
  /-- A fault of the judge itself, which says nothing about the code. -/
  | unknown
deriving DecidableEq

def Verdict.code : Verdict → String
  | accepted => "AC"
  | wrongAnswer => "WA"
  | runtimeError => "RE"
  | timeLimitExceeded => "TLE"
  | memoryLimitExceeded => "MLE"
  | compileError => "CE"
  | unknown => "UNK"

def Verdict.all : List Verdict :=
  [accepted, wrongAnswer, runtimeError, timeLimitExceeded, memoryLimitExceeded, compileError,
    unknown]

/-- What a submission as a whole comes to, from the best to the worst. -/
inductive Category
  | accepted
  | wrongAnswer
  | runtimeError
  | timeLimitExceeded
  | memoryLimitExceeded
  | compileError
  | judging
  | compiling
  | pending
  | unknown
deriving DecidableEq

namespace Category

def code : Category → String
  | accepted => "AC"
  | wrongAnswer => "WA"
  | runtimeError => "RE"
  | timeLimitExceeded => "TLE"
  | memoryLimitExceeded => "MLE"
  | compileError => "CE"
  | judging => "JUDGING"
  | compiling => "COMPILING"
  | pending => "PENDING"
  | unknown => "UNK"

def all : List Category :=
  [accepted, wrongAnswer, runtimeError, timeLimitExceeded, memoryLimitExceeded, compileError,
    judging, compiling, pending, unknown]

/-- The place in the order from best to worst. -/
def rank : Category → Nat
  | accepted => 0
  | wrongAnswer => 1
  | runtimeError => 2
  | timeLimitExceeded => 3
  | memoryLimitExceeded => 4
  | compileError => 5
  | judging => 6
  | compiling => 7
  | pending => 8
  | unknown => 9

theorem rank_injective {a b : Category} (h : a.rank = b.rank) : a = b := by
  cases a <;> cases b <;> simp_all [rank]

/-- The worse of two categories. -/
def worse (a b : Category) : Category := if a.rank ≤ b.rank then b else a

@[simp] theorem rank_worse (a b : Category) : (a.worse b).rank = max a.rank b.rank := by
  unfold worse
  split <;> omega

def ofVerdict : Verdict → Category
  | .accepted => accepted
  | .wrongAnswer => wrongAnswer
  | .runtimeError => runtimeError
  | .timeLimitExceeded => timeLimitExceeded
  | .memoryLimitExceeded => memoryLimitExceeded
  | .compileError => compileError
  | .unknown => unknown

/-- The worst category of some verdicts; none at all count as accepted. -/
def worstOf (verdicts : List Verdict) : Category :=
  (verdicts.map ofVerdict).foldl worse accepted

/-- Judging came to a judgment of the code's answers. -/
def isJudgment : Category → Bool
  | accepted | wrongAnswer => true
  | _ => false

end Category

/-- The stages of a submission's life. -/
inductive Status
  | pending
  | compiling
  | judging
  | success
  | error
deriving DecidableEq

namespace Status

def name : Status → String
  | pending => "Pending"
  | compiling => "Compiling"
  | judging => "Judging"
  | success => "Success"
  | error => "Error"

/-- The status in running text. -/
def word : Status → String
  | pending => "pending"
  | compiling => "compiling"
  | judging => "judging"
  | success => "success"
  | error => "error"

def all : List Status := [pending, compiling, judging, success, error]

def isTerminal : Status → Bool
  | success | error => true
  | _ => false

/-- A judgment of either kind is a success of the judging. -/
def ofCategory (c : Category) : Status := if c.isJudgment then success else error

end Status

end Arbiter
