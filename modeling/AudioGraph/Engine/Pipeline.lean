import AudioGraph.Engine.Partition

namespace AudioGraph

variable [AudioCore]

inductive Side where
  | a
  | b
deriving DecidableEq

def Turn.on : Side → Turn → Bool
  | .a, .a _ => true
  | .b, .b _ => true
  | _, _ => false

namespace Cut

variable (cut : Cut) {Q R : Type} [AudioNode Q] [SinkNode R]

def share (r : Round) : Side → List Turn
  | .a => (r.feeds.filterMap cut.feed).filter (Turn.on .a) ++
      [.a (.processCycle r.ctx), .a .flushSinks]
  | .b => (r.feeds.filterMap cut.feed).filter (Turn.on .b) ++ [.b (.processCycle r.ctx)]

-- Each part goes through the rounds at its own pace: `a` is at round `i`, `b` at round `j`.
def pipeline (rounds : Nat → Round) : Nat → Nat → List Side → List Turn
  | _, _, [] => []
  | i, j, .a :: sides => cut.share (rounds i) .a ++ pipeline rounds (i + 1) j sides
  | i, j, .b :: sides => cut.share (rounds j) .b ++ pipeline rounds i (j + 1) sides

omit [AudioCore] in
def Within (c : Nat) : Nat → Nat → List Side → Prop
  | _, _, [] => True
  | i, j, .a :: sides => i < j + c ∧ Within c (i + 1) j sides
  | i, j, .b :: sides => j < i ∧ Within c i (j + 1) sides

def wholeAt (g ready : Graph (DynNode Q) (DynSink R)) (rounds : Nat → Round) :
    Nat → Graph (DynNode Q) (DynSink R)
  | 0 => ready
  | t + 1 =>
    ((wholeAt g ready rounds t).drive
      ((rounds t).drives ++ (cut.ownSinks g).map .flushSink)).1

end Cut

end AudioGraph
