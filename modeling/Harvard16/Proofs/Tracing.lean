import Harvard16.CommandLine.Commands

/-! Runs that are watched. A traced run writes its lines beside a run: it gives the answer that the run gives
and leaves the machine that the run leaves, whichever way the run ends. Main statement: tracing changes
nothing about a run. A report on a traced run is thus the report on the run with the trace in front. -/
namespace Harvard16

namespace Machine

theorem runTraced_go (done : List String) (machine : Machine) (budget : Nat) :
    runTraced.go done machine budget =
      (done.reverse ++ (machine.runTraced budget).1, machine.run budget) := by
  have written (line : Option String) (done : List String) :
      (line.elim done (· :: done)).reverse = done.reverse ++ line.toList := by
    cases line <;> simp
  induction budget generalizing done machine with
  | zero => simp [runTraced, runTraced.go, run]
  | succ budget ih =>
    rw [runTraced, runTraced.go, runTraced.go, run]
    obtain ⟨answer, next⟩ := machine.step
    cases answer with
    | error fault => simp
    | ok running =>
      cases running with
      | false => simp [written]
      | true => simp [written, ih]

/-- A traced run is a run but for its lines: the answer is the same, and so is all of the machine after it. -/
theorem snd_runTraced (machine : Machine) (budget : Nat) :
    (machine.runTraced budget).2 = machine.run budget :=
  congrArg Prod.snd (runTraced_go [] machine budget)

end Machine

namespace CommandLine

def Report.behind (printed : String) (report : Report) : Report :=
  { report with output := printed ++ report.output }

def traceText (lines : List String) : String :=
  "━━━ Execution ━━━\n" ++ String.join (lines.map (· ++ "\n"))

theorem runReport_traced (machine : Machine) (budget : Nat) (json : Bool) :
    runReport machine budget true json =
      (runReport machine budget false json).behind (traceText (machine.runTraced budget).1) := by
  have same : machine.runTraced budget = ((machine.runTraced budget).1, machine.run budget) :=
    Machine.runTraced_go [] machine budget
  rw [runReport, runReport, same]
  obtain ⟨answer, next⟩ := machine.run budget
  simp only [if_true, Bool.false_eq_true, if_false, String.empty_append]
  cases answer with
  | error fault => rfl
  | ok halted => cases halted <;> rfl

end CommandLine

end Harvard16
