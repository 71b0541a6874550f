/-! The stack of open branches. Whether lines are skipped is not stored anywhere: it is read off
the innermost branch. -/

namespace MenuScript

structure Branch where
  taken : Bool
  /-- Whether the branch was opened among skipped lines, where `else` does not turn it. -/
  inert : Bool
  deriving DecidableEq, Repr

/-- The open branches, innermost first. -/
abbrev BranchStack := List Branch

namespace BranchStack

def push (s : BranchStack) (taken : Bool) : BranchStack := ⟨taken, false⟩ :: s

def pushSkipped (s : BranchStack) : BranchStack := ⟨false, true⟩ :: s

def pop? : BranchStack → Option (Bool × BranchStack)
  | [] => none
  | branch :: rest => some (branch.taken, rest)

/-- Turns the innermost branch, unless it is inert. -/
def flip : BranchStack → BranchStack
  | [] => []
  | branch :: rest =>
    (if branch.inert then branch else { branch with taken := !branch.taken }) :: rest

def peek? (s : BranchStack) : Option Bool := s.head?.map Branch.taken

def isSkipping (s : BranchStack) : Bool := s.peek? == some false

def depth (s : BranchStack) : Nat := s.length

end BranchStack

end MenuScript
