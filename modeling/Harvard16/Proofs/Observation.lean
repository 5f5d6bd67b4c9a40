import Harvard16.Proofs.Lockstep

/-! What an observer of a session sees: each operation with its answer and the snapshot behind it. Machines
in lockstep show the same but for addresses of data, which are as far from one base as from the other,
as long as an operation does not itself depend on what tells the machines apart: a load on the size of the
program memory, a direct access on the base, and a run with the configured budget on that. -/
namespace Harvard16

structure Snapshot.Shifted (base other : UInt16) (here there : Snapshot) : Prop where
  data : there.data.map (fun cell => (cell.1 + base.toNat, cell.2)) =
    here.data.map (fun cell => (cell.1 + other.toNat, cell.2))
  rest : there = { here with data := there.data }

namespace Machine

inductive Answer.Shifted (base other : UInt16) : Answer → Answer → Prop
  | done : Shifted base other .done .done
  | stored (written : Bool) : Shifted base other (.stored written) (.stored written)
  | finished {here there : Except Fault Unit} (same : SameBut base other here there) :
      Shifted base other (.finished here) (.finished there)
  | went {here there : Except Fault Bool} (same : SameBut base other here there) :
      Shifted base other (.went here) (.went there)
  | word {here there : Except Fault UInt16} (same : SameBut base other here there) :
      Shifted base other (.word here) (.word there)

/-- An operation as an observer sees it. -/
structure Observed where
  operation : Operation
  answer : Answer
  snapshot : Snapshot

structure Observed.Shifted (base other : UInt16) (here there : Observed) : Prop where
  operations : there.operation = here.operation
  answers : here.answer.Shifted base other there.answer
  snapshots : here.snapshot.Shifted base other there.snapshot

def observe (machine : Machine) : List Operation → List Observed
  | [] => []
  | operation :: operations =>
    let (answer, machine) := machine.apply operation
    ⟨operation, answer, machine.snapshot⟩ :: machine.observe operations

theorem observe_cons (machine : Machine) (operation : Operation) (operations : List Operation) :
    machine.observe (operation :: operations) =
      ⟨operation, (machine.apply operation).1, (machine.apply operation).2.snapshot⟩ ::
        (machine.apply operation).2.observe operations := rfl

/-- Every snapshot of a session is that of a machine with what all operations keep. -/
theorem snapshot_of_mem_observe {P : Machine → Prop}
    (apply : ∀ machine operation, P machine → P (machine.apply operation).2) {machine : Machine}
    (start : P machine) {operations : List Operation} {event : Observed}
    (member : event ∈ machine.observe operations) : ∃ after, P after ∧ event.snapshot = after.snapshot := by
  induction operations generalizing machine with
  | nil => cases member
  | cons operation operations ih =>
    have next := apply machine operation start
    rw [observe_cons] at member
    rcases List.mem_cons.1 member with rfl | later
    · exact ⟨_, next, rfl⟩
    · exact ih next later

def Observed.isRefused : Observed → Bool
  | ⟨.load .., .finished (.error _), _⟩ => true
  | _ => false

def Operation.isDirect : Operation → Bool
  | .readData _ | .writeData .. => true
  | .load .. | .step | .run _ | .runDefault | .reset | .setPolicy _ | .writeRegister .. |
    .clearProgram => false

variable {a b : Machine} {base other : UInt16}

theorem kind_of_load_error {memory : ProgramMemory} {program : List UInt16} {start : Nat} {fault : Fault}
    (h : memory.load program start = .error fault) : fault.kind ≠ .memory := by
  unfold ProgramMemory.load at h
  split at h
  · cases h
    simp [Fault.kind]
  · split at h
    · cases h
      simp [Fault.kind]
    · cases h

theorem Lockstep.load (h : Lockstep base other a b) {program : List UInt16} {start : Nat}
    (agree : (b.load program start).1 = (a.load program start).1) :
    SameBut base other (a.load program start).1 (b.load program start).1 ∧
      (b.load program start).2.course = (a.load program start).2.course ∧
      (b.load program start).2.readout = (a.load program start).2.readout := by
  have courses := h.courses
  have readouts := h.readouts
  simp only [course, Course.mk.injEq] at courses
  simp only [readout, Readout.mk.injEq] at readouts
  obtain ⟨memory, ok, loaded⟩ | ⟨fault, failed, refused⟩ := a.load_cases program start
  · obtain ⟨otherMemory, otherOk, otherLoaded⟩ | ⟨_, -, otherRefused⟩ := b.load_cases program start
    · have programs : otherMemory.loaded = memory.loaded :=
        (ProgramMemory.loaded_load otherOk).trans (ProgramMemory.loaded_load ok).symm
      rw [loaded, otherLoaded]
      exact ⟨.ok _, by simp [course, courses, programs], by simp [readout, readouts]⟩
    · rw [loaded, otherRefused] at agree
      cases agree
  · obtain ⟨_, -, otherLoaded⟩ | ⟨otherFault, -, otherRefused⟩ := b.load_cases program start
    · rw [refused, otherLoaded] at agree
      cases agree
    · rw [refused, otherRefused] at agree ⊢
      cases agree
      exact ⟨.error (.same (kind_of_load_error failed)), by simp [course, FaultHandler.record, courses],
        by simp [readout, FaultHandler.record, readouts]⟩

theorem index?_congr {memory another : DataMemory} (bases : another.base = memory.base)
    (words : another.words = memory.words) (address : Nat) :
    another.index? address = memory.index? address := by
  rw [DataMemory.index?, DataMemory.index?, DataMemory.size, DataMemory.size, bases, words]

theorem Lockstep.apply (h : Lockstep base other a b) (operation : Operation)
    (loads : ∀ program start, operation = .load program start →
      (b.load program start).1 = (a.load program start).1)
    (direct : operation.isDirect = true → base = other)
    (budgets : operation = .runDefault → b.cycleBudget = a.cycleBudget) :
    (a.apply operation).1.Shifted base other (b.apply operation).1 ∧
      Lockstep base other (a.apply operation).2 (b.apply operation).2 := by
  have courses := h.courses
  have readouts := h.readouts
  simp only [course, Course.mk.injEq] at courses
  simp only [readout, Readout.mk.injEq] at readouts
  suffices same : (a.apply operation).1.Shifted base other (b.apply operation).1 ∧
      (b.apply operation).2.course = (a.apply operation).2.course ∧
      (b.apply operation).2.readout = (a.apply operation).2.readout by
    obtain ⟨answers, nextCourses, nextReadouts⟩ := same
    exact ⟨answers, nextCourses, nextReadouts,
      (congrArg Config.dataBase (a.frame_apply operation)).trans h.base_eq,
      (congrArg Config.dataBase (b.frame_apply operation)).trans h.other_eq,
      a.laidOut_apply operation h.laid, b.laidOut_apply operation h.otherLaid⟩
  cases operation with
  | load program start =>
    obtain ⟨answers, nextCourses, nextReadouts⟩ := h.load (loads program start rfl)
    exact ⟨.finished answers, nextCourses, nextReadouts⟩
  | step =>
    obtain ⟨answers, next⟩ := h.step
    exact ⟨.went answers, next.courses, next.readouts⟩
  | run budget =>
    obtain ⟨answers, next⟩ := h.run budget
    exact ⟨.went answers, next.courses, next.readouts⟩
  | runDefault =>
    obtain ⟨answers, next⟩ := h.run a.cycleBudget
    rw [Machine.apply, Machine.apply, runDefault, runDefault, budgets rfl]
    exact ⟨.went answers, next.courses, next.readouts⟩
  | reset =>
    refine ⟨.done, ?_, rfl⟩
    simp [Machine.apply, course, reset, DataMemory.clear, DataMemory.blank, DataMemory.size,
      FaultHandler.clear, courses]
  | setPolicy policy =>
    exact ⟨.done, by simp [Machine.apply, course, setPolicy, courses],
      by simp [Machine.apply, readout, setPolicy, readouts]⟩
  | writeRegister i value =>
    rw [apply_writeRegister, apply_writeRegister]
    exact ⟨.stored _, by simp [course, courses], by simp [readout, readouts]⟩
  | writeData address value =>
    have bases : b.data.base = a.data.base := h.other_eq.trans ((direct rfl).symm.trans h.base_eq.symm)
    have words : b.data.words = a.data.words := congrArg Course.data h.courses
    simp only [Machine.apply, DataMemory.write, index?_congr bases words]
    cases a.data.index? address with
    | some i => exact ⟨.finished (.ok _), by simp [course, courses], by simp [readout, readouts]⟩
    | none =>
      exact ⟨.finished (.error (.data _ (by decide) (by rw [direct rfl]))), h.courses, h.readouts⟩
  | readData address =>
    have bases : b.data.base = a.data.base := h.other_eq.trans ((direct rfl).symm.trans h.base_eq.symm)
    have words : b.data.words = a.data.words := congrArg Course.data h.courses
    simp only [Machine.apply, DataMemory.read, DataMemory.peek?, index?_congr bases words, words]
    cases (a.data.index? address).bind (a.data.words[·]?) with
    | some word => exact ⟨.word (.ok _), by simp [course, courses], by simp [readout, readouts]⟩
    | none =>
      exact ⟨.word (.error (.data _ (by decide) (by rw [direct rfl]))), h.courses, h.readouts⟩
  | clearProgram =>
    exact ⟨.done, by simp [Machine.apply, course, ProgramMemory.loaded_clear, courses], h.readouts⟩

theorem map_nonZero {memory another : DataMemory} (words : another.words = memory.words) :
    another.nonZero.map (fun cell => (cell.1 + memory.base.toNat, cell.2)) =
      memory.nonZero.map (fun cell => (cell.1 + another.base.toNat, cell.2)) := by
  rw [DataMemory.nonZero_eq, DataMemory.nonZero_eq, List.map_filterMap, List.map_filterMap,
    DataMemory.size, DataMemory.size, words]
  congr 1
  funext i
  rw [DataMemory.held?, DataMemory.held?, words]
  cases memory.words[i]? with
  | none => rfl
  | some word =>
    by_cases zero : word = 0
    · simp [zero]
    · simp [zero]
      omega

theorem Lockstep.snapshot (h : Lockstep base other a b) : a.snapshot.Shifted base other b.snapshot := by
  have courses := h.courses
  have readouts := h.readouts
  simp only [course, Course.mk.injEq] at courses
  simp only [readout, Readout.mk.injEq] at readouts
  constructor
  · have cells := map_nonZero (congrArg Course.data h.courses)
    rwa [h.base_eq, h.other_eq] at cells
  · simp [Machine.snapshot, courses, readouts]

end Machine

end Harvard16
