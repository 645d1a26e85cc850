import ByteTape.Machine.Run

/-! Runs that are watched from outside: what the observer was shown is kept, calls are
counted, and stops are requested at steps, reads or writes chosen beforehand. -/

namespace ByteTape

/-- When to ask for a stop: while a step is shown, or as a read or write begins.
Reads and writes are counted from zero. -/
structure StopPlan where
  atStep : Nat → Bool
  onRead : Nat → Bool
  onWrite : Nat → Bool

/-- A world with what has been seen of a run in it. -/
structure Watched (σ : Type) where
  outside : σ
  observed : Nat
  views : Array MachineView
  reads : Nat
  writes : Nat

def Watched.start {σ : Type} (outside : σ) : Watched σ := ⟨outside, 0, #[], 0, 0⟩

namespace StopPlan

variable {σ : Type}

/-- Keeps the first `limit` views and counts all of them. -/
def observer (plan : StopPlan) (limit : Nat) : Observer (Watched σ) := fun view watched =>
  let views := if watched.views.size < limit then watched.views.push view else watched.views
  ⟨(), { watched with observed := watched.observed + 1, views }, plan.atStep view.step⟩

/-- The device, with the planned stops requested before the call goes on. -/
def device (plan : StopPlan) (inner : Device σ) : Device (Watched σ) where
  read stopped watched :=
    let raised := plan.onRead watched.reads
    let reply := inner.read (stopped || raised) watched.outside
    ⟨reply.value, { watched with outside := reply.outside, reads := watched.reads + 1 },
      raised || reply.raised⟩
  write byte stopped watched :=
    let raised := plan.onWrite watched.writes
    let reply := inner.write byte (stopped || raised) watched.outside
    ⟨reply.value, { watched with outside := reply.outside, writes := watched.writes + 1 },
      raised || reply.raised⟩

end StopPlan
end ByteTape
