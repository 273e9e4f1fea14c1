namespace MesosPoc.LoadBalancer

-- A threading.Timer after its start().
inductive Timer
  | pending
  | cancelled
  | fired
deriving DecidableEq

-- cancel() has no effect on a timer that has fired.
def Timer.cancel : Timer → Timer
  | .pending => .cancelled
  | timer => timer

-- All timers started so far. The variable reloadtimer holds the last one.
def cancelLast : List Timer → List Timer
  | [] => []
  | [timer] => [timer.cancel]
  | timer :: next :: rest => timer :: cancelLast (next :: rest)

-- What main does with each watch event.
def restartTimer (timers : List Timer) : List Timer :=
  cancelLast timers ++ [.pending]

@[simp] theorem length_cancelLast (timers : List Timer) :
    (cancelLast timers).length = timers.length := by
  induction timers using cancelLast.induct with
  | case1 => rfl
  | case2 timer => rfl
  | case3 timer next rest ih => simpa only [cancelLast, List.length_cons, Nat.add_left_inj] using ih

@[simp] theorem length_restartTimer (timers : List Timer) :
    (restartTimer timers).length = timers.length + 1 := by
  simp [restartTimer]

end MesosPoc.LoadBalancer
