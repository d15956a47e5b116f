/-!
# Signals

A signal is completed at most once, and anyone may wait for that. Completing it wakes the wait that
has been pending longest; the other pending waits find out when their time is over. A wait that
starts later is over at once. A pending wait that was woken and is then given up passes the wakeup
on to the next one.
-/

namespace StoreClient

/-- A pending wait for a signal. -/
structure Signal.Wait where
  /-- The number of the wait. -/
  number : Nat
  /-- When the wait is over. -/
  deadline : Nat
  /-- Whether the wait was woken. -/
  woken : Bool := false
deriving DecidableEq, Repr

/-- A signal and the waits for it. -/
structure Signal where
  /-- Whether the signal was completed. -/
  completed : Bool := false
  /-- The pending waits, the longest pending first. -/
  waits : List Signal.Wait := []
deriving DecidableEq, Repr

namespace Signal

/-- Wakes the first wait that was not woken yet. -/
def wakeFirst : List Wait → List Wait
  | [] => []
  | w :: rest => if w.woken then w :: wakeFirst rest else { w with woken := true } :: rest

/-- Completes the signal; false if it was completed before. -/
def complete (s : Signal) : Bool × Signal :=
  if s.completed then (false, s) else (true, { completed := true, waits := wakeFirst s.waits })

/-- Starts a wait at a time: its outcome if it is over at once. -/
def start (s : Signal) (number now timeout : Nat) : Option Bool × Signal :=
  if s.completed then (some true, s)
  else if timeout = 0 then (some false, s)
  else (none, { s with waits := s.waits ++ [{ number, deadline := now + timeout }] })

/-- The outcome of a wait during which nothing happens until it is over. -/
def waitAlone (s : Signal) : Bool := s.completed

/-- The outcomes of `count` waits during which the signal is completed. -/
def waitUntilComplete (s : Signal) (count : Nat) : List Bool :=
  List.replicate count s.complete.2.completed

/-- The pending wait of a number. -/
def find? (s : Signal) (number : Nat) : Option Wait := s.waits.find? (·.number == number)

/-- The signal without the wait of a number. -/
def remove (s : Signal) (number : Nat) : Signal :=
  { s with waits := s.waits.filter (·.number != number) }

/-- Looks after a pending wait at a time: its outcome if it is over. -/
def poll (s : Signal) (w : Wait) (now : Nat) : Option Bool × Signal :=
  if w.woken then (some true, s.remove w.number)
  else if w.deadline ≤ now then (some s.completed, s.remove w.number)
  else (none, s)

/-- Gives a pending wait up. -/
def cancel (s : Signal) (w : Wait) : Signal :=
  let rest := s.remove w.number
  if w.woken then { rest with waits := wakeFirst rest.waits } else rest

end Signal

end StoreClient
