import Arbiter.Flow.Graph

/-! Sets of blocks as bit masks, and equations between them solved by sweeping over the blocks until
nothing changes. -/

namespace Arbiter.Flow

/-- A set of blocks: bit `b` tells whether block `b` is in it. -/
abbrev BlockSet := Nat

namespace BlockSet

def empty : BlockSet := 0

def single (b : Nat) : BlockSet := 1 <<< b

/-- The blocks below `n`. -/
def below (n : Nat) : BlockSet := 1 <<< n - 1

def has (s : BlockSet) (b : Nat) : Bool := s.testBit b

def union (s t : BlockSet) : BlockSet := s ||| t

def inter (s t : BlockSet) : BlockSet := s &&& t

def unions (sets : List BlockSet) : BlockSet := sets.foldl union empty

@[simp] theorem has_empty (b : Nat) : empty.has b = false := by simp [empty, has]

@[simp] theorem has_single (a b : Nat) : (single a).has b = decide (a = b) := by
  simp [single, has, Nat.shiftLeft_eq, Nat.testBit_two_pow]

@[simp] theorem has_below (n b : Nat) : (below n).has b = decide (b < n) := by
  simp [below, has, Nat.one_shiftLeft]

@[simp] theorem has_union (s t : BlockSet) (b : Nat) : (s.union t).has b = (s.has b || t.has b) := by
  simp [union, has]

@[simp] theorem has_inter (s t : BlockSet) (b : Nat) : (s.inter t).has b = (s.has b && t.has b) := by
  simp [inter, has]

end BlockSet

/-- Applies `f` until it changes nothing, at most `rounds` times. -/
def untilStable [DecidableEq α] (f : α → α) : Nat → α → α
  | 0, a => a
  | rounds + 1, a => if f a = a then a else untilStable f rounds (f a)

/-- One set for each block. -/
abbrev BlockSets := Array BlockSet

namespace BlockSets

def get (sets : BlockSets) (b : Nat) : BlockSet := sets.getD b .empty

/-- The sets `f 0` to `f (n - 1)`. -/
def tabulate (n : Nat) (f : Nat → BlockSet) : BlockSets := ((List.range n).map f).toArray

@[simp] theorem size_tabulate (n : Nat) (f : Nat → BlockSet) : (tabulate n f).size = n := by
  simp [tabulate]

theorem get_tabulate {n b : Nat} (f : Nat → BlockSet) (hb : b < n) :
    (tabulate n f).get b = f b := by
  simp [tabulate, get, hb]

end BlockSets

/-- Recomputes the sets of the blocks below `n` in order, each from the sets so far. -/
def sweep (n : Nat) (update : BlockSets → Nat → BlockSet) (sets : BlockSets) : BlockSets :=
  (List.range n).foldl (fun sets b => sets.setIfInBounds b (update sets b)) sets

/-- Sweeps from `start` until nothing changes. Where sets only grow or only shrink, each of the `n`
sets can change `n` times, so that the rounds suffice. -/
def solve (n : Nat) (start : Nat → BlockSet) (update : BlockSets → Nat → BlockSet) : BlockSets :=
  untilStable (sweep n update) (n * n + 1) (.tabulate n start)

end Arbiter.Flow
