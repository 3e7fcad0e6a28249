import TapeCutter.Log
import TapeCutter.Run.Status
import TapeCutter.Text.Decimal

/-! Messages to the sequencer: the changes the operator made, oldest first. The
control loop never waits, so a change that finds the outbox full is lost. -/
namespace TapeCutter.Sequencer

structure Outbox where
  waiting : List Run.Status := []
  /-- Changes lost so far. The count wraps. -/
  dropped : UInt32 := 0
deriving DecidableEq

namespace Outbox

/-- The number of changes that can wait. -/
def depth : Nat := 4

def send (outbox : Outbox) (status : Run.Status) : Outbox × List Log.Line :=
  if outbox.waiting.length < depth then
    ({ outbox with waiting := outbox.waiting ++ [status] }, [])
  else
    let dropped := outbox.dropped + 1
    ({ outbox with dropped := dropped },
      [Log.warn ("Run-state channel full, dropped " ++ status.name ++ " (" ++
        Text.decimal dropped.toNat ++ " total)")])

/-- The oldest change, if any waits. A sequencer that waits for one and gives up
takes nothing. -/
def receive (outbox : Outbox) : Option Run.Status × Outbox :=
  match outbox.waiting with
  | [] => (none, outbox)
  | status :: rest => (some status, { outbox with waiting := rest })

/-- What is received no longer waits, so taking changes until there is none comes to an end. -/
theorem length_receive_lt {outbox rest : Outbox} {status : Run.Status}
    (hReceive : outbox.receive = (some status, rest)) :
    rest.waiting.length < outbox.waiting.length := by
  obtain ⟨_ | ⟨first, others⟩, dropped⟩ := outbox
  · cases hReceive
  · cases hReceive
    exact Nat.lt_succ_self others.length

/-- Everything that waits, received one by one. -/
def drain (outbox : Outbox) : List Run.Status × Outbox :=
  match _hReceive : outbox.receive with
  | (none, outbox) => ([], outbox)
  | (some status, rest) =>
      let (later, last) := rest.drain
      (status :: later, last)
termination_by outbox.waiting.length
decreasing_by exact length_receive_lt _hReceive

end Outbox

end TapeCutter.Sequencer
