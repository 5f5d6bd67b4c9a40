import Harvard16.BoundedLog
import Harvard16.Fault

/-! What happens to a fault. Every fault is counted and logged; then the policy decides whether it
ends the operation (`strict`) or a safe value takes the place of the missing one (`graceful`).
The count goes on when the log forgets, and a logged fault keeps its number. -/
namespace Harvard16

inductive Policy where
  | graceful | strict
  deriving DecidableEq, Repr

structure Diagnostic where
  seq : Nat
  fault : Fault
  deriving DecidableEq, Repr

def Diagnostic.line (diagnostic : Diagnostic) : String :=
  s!"#{diagnostic.seq} [{diagnostic.fault.kind.tag}] {diagnostic.fault.message}"

structure FaultHandler where
  policy : Policy
  total : Nat
  log : BoundedLog Diagnostic
  deriving DecidableEq, Repr

namespace FaultHandler

def empty (policy : Policy) (capacity : Nat) : FaultHandler := ⟨policy, 0, .empty capacity⟩

def default : FaultHandler := empty .graceful 10

def record (handler : FaultHandler) (fault : Fault) : FaultHandler :=
  { handler with
    total := handler.total + 1
    log := handler.log.push ⟨handler.total + 1, fault⟩ }

def handle {α : Type} (handler : FaultHandler) (fault : Fault) (fallback : α) :
    Except Fault α × FaultHandler :=
  let answer := match handler.policy with
    | .strict => .error fault
    | .graceful => .ok fallback
  (answer, handler.record fault)

def clear (handler : FaultHandler) : FaultHandler :=
  { handler with total := 0, log := handler.log.clear }

/-- The count, and the last five diagnostics that the log still has. -/
def summary (handler : FaultHandler) : String :=
  if handler.total = 0 then "No errors"
  else
    let shown := BoundedLog.suffix 5 handler.log.entries
    s!"{handler.total} error(s)" ++ String.join (shown.map ("\n  " ++ ·.line))

end FaultHandler

end Harvard16
