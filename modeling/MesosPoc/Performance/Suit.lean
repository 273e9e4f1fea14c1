import MesosPoc.Performance.Checkers
import Mathlib.Algebra.Group.Int.Defs
import Mathlib.Algebra.Group.Nat.Defs

namespace MesosPoc.Performance.Suit

-- $((x)): the shell computes with 64 bits.
def arith (x : Int) : Int :=
  (x + 2 ^ 63) % 2 ^ 64 - 2 ^ 63

-- What batchtask.sh exports for suit.sh, and the count of suit.sh itself.
structure Counts where
  concurrent : Int
  podCount : Int
  podUpCount : Int
  podDownCount : Int
  podScaleCount : Int
  killPodCount : Int

-- The totals are below 2^63, where the shell can compare them.
def podCounts (podTotal concurrent : Nat) (killPodCount : Int) : Counts :=
  let podCount := arith ((podTotal : Int).tdiv concurrent)
  { concurrent := concurrent
    podCount := podCount
    podUpCount := arith (podCount * 2)
    podDownCount := arith (podCount.tdiv 2)
    podScaleCount := arith ((200 : Int).tdiv concurrent)
    killPodCount := killPodCount }

-- The runs of suit.sh by batchtask.sh, which exits at the first number of threads
-- that is too great.
def batchtask (podTotal : Nat) (killPodCount : Int) : List Nat → List Counts
  | [] => []
  | concurrent :: rest =>
      if concurrent > podTotal then []
      else podCounts podTotal concurrent killPodCount :: batchtask podTotal killPodCount rest

-- The placeholders of numbers.
inductive Placeholder
  | podCount
  | podUpCount
  | podDownCount
deriving DecidableEq

-- The start commands, by what they do to the replication controller.
inductive Command (ν : Type)
  | create (replicas : ν)
  | scale (replicas : ν)
  | delete
  | start
deriving DecidableEq

structure Template where
  command : Command Placeholder
  exitCondition : Placeholder
  checker : Checker

-- It creates what template.json defines, and both are given the same POD_COUNT.
def createTemplate : Template := ⟨.create .podCount, .podCount, .creation⟩

def scaleDownTemplate : Template := ⟨.scale .podCount, .podDownCount, .deletion⟩

def scaleUpTemplate : Template := ⟨.scale .podCount, .podUpCount, .creation⟩

def clearTemplate : Template := ⟨.delete, .podCount, .deletion⟩

def upTemplate : Template := ⟨.start, .podUpCount, .creation⟩

def upnodeTemplate : Template := ⟨.start, .podUpCount, .creation⟩

-- A case file. A placeholder that gets no number stays in it.
structure CaseFile where
  caseName : Str
  command : Command (Option Int)
  exitCondition : Option Int
  checker : Checker
deriving DecidableEq

def template (t : Template) (caseName : Str) (pairs : List (Placeholder × Int)) : CaseFile where
  caseName := caseName
  command :=
    match t.command with
    | .create replicas => .create (pairs.lookup replicas)
    | .scale replicas => .scale (pairs.lookup replicas)
    | .delete => .delete
    | .start => .start
  exitCondition := pairs.lookup t.exitCondition
  checker := t.checker

-- The cases of suit.sh, in order.
def suit (counts : Counts) : List CaseFile :=
  [template createTemplate "CREATE".toList [(.podCount, counts.podCount)]] ++
    (if counts.concurrent = 1 then [template upnodeTemplate "KILL_NODE".toList [(.podUpCount, 1)]] else []) ++
    [template upTemplate "KILL_POD".toList [(.podUpCount, counts.killPodCount)],
      template scaleDownTemplate "SCALE_DOWN".toList
        [(.podCount, arith (counts.podCount - counts.podDownCount)), (.podDownCount, counts.podDownCount)],
      template scaleUpTemplate "RESTORE".toList
        [(.podCount, counts.podCount), (.podUpCount, counts.podDownCount)],
      template scaleUpTemplate "SCALE_UP".toList
        [(.podCount, counts.podUpCount), (.podUpCount, arith (counts.podUpCount - counts.podCount))],
      template scaleDownTemplate "RESTORE".toList
        [(.podCount, counts.podCount), (.podDownCount, arith (counts.podUpCount - counts.podCount))]] ++
    (if counts.podCount ≥ counts.podScaleCount then
      [template scaleDownTemplate "SCALE_FIXED_DOWN".toList
        [(.podCount, arith (counts.podCount - counts.podScaleCount)), (.podDownCount, counts.podScaleCount)],
        template scaleUpTemplate "SCALE_FIXED_UP".toList
          [(.podCount, counts.podCount), (.podUpCount, counts.podScaleCount)]]
      else []) ++
    [template clearTemplate "CLEAR".toList [(.podCount, counts.podCount)]]

end MesosPoc.Performance.Suit
