import Harvard16.Proofs.Faults
import Harvard16.Proofs.Reachable
import Harvard16.Proofs.Reassembly
import Mathlib.Data.List.Induction

/-! Logs of events. What a machine enters into its books is told here without them, as the list of the events
of a step, a run, an operation and a session: an instruction that the control unit sees, a calculation,
a fault, a word that retires. The books are those events entered one by one, and a log of bounded length
holds the last of its kind. Main statement: at any time in any session each of the four logs is the suffix
that its capacity allows of all that has happened since the machine was made or reset, its numbers
run up to its counter, and the summary of faults shows the last five that the log still has. -/
namespace Harvard16

namespace BoundedLog

variable {α : Type} {log : BoundedLog α} {capacity count : Nat} {all : List α}

/-- A log and its counter when these entries have been made: the counter has counted them all, and the log
is the ring that they were pushed to, which holds the last of them. -/
structure Keeps (log : BoundedLog α) (capacity count : Nat) (all : List α) : Prop where
  capacity_eq : log.capacity = capacity
  count_eq : count = all.length
  entries_eq : log.entries = suffix (min capacity count) all
  ring_eq : log = all.foldl pushRing (empty capacity)

theorem suffix_min (n : Nat) (xs : List α) : suffix (min n xs.length) xs = suffix n xs := by
  rw [suffix, suffix]
  congr 1
  omega

theorem length_suffix (n : Nat) (xs : List α) : (suffix n xs).length = min n xs.length := by
  rw [suffix, List.length_drop]
  omega

theorem keeps_empty (capacity : Nat) : (empty capacity : BoundedLog α).Keeps capacity 0 [] :=
  ⟨rfl, rfl, List.drop_nil.symm, rfl⟩

theorem Keeps.length_entries (keeps : log.Keeps capacity count all) :
    log.entries.length = min capacity count := by
  rw [keeps.entries_eq, length_suffix, ← keeps.count_eq]
  omega

theorem Keeps.push (keeps : log.Keeps capacity count all) (entry : α) :
    (log.push entry).Keeps capacity (count + 1) (all ++ [entry]) := by
  have within : log.entries.length ≤ log.capacity := by
    rw [keeps.length_entries, keeps.capacity_eq]
    exact Nat.min_le_left _ _
  obtain ⟨room, counted, entries, ring⟩ := keeps
  have longer : count + 1 = (all ++ [entry]).length := by
    rw [counted, List.length_append, List.length_singleton]
  rw [counted, suffix_min] at entries
  refine ⟨room, longer, ?_, ?_⟩
  · rw [longer, suffix_min, ← suffix_append_singleton, ← entries, ← room]
    rfl
  · rw [push_eq_pushRing within, List.foldl_append, ← ring]
    rfl

theorem Keeps.numbers (keeps : log.Keeps capacity count all) {number : α → Nat}
    (numbered : all.map number = List.range' 1 all.length) :
    log.entries.map number = List.range' (count + 1 - log.entries.length) log.entries.length := by
  rw [keeps.length_entries, keeps.entries_eq, keeps.count_eq, suffix, List.map_drop, numbered,
    List.drop_range']
  congr 1 <;> omega

theorem Keeps.map_entries {β : Type} (keeps : log.Keeps capacity count all) (form : α → β) :
    log.entries.map form = suffix (min capacity count) (all.map form) := by
  rw [keeps.entries_eq, suffix, suffix, List.map_drop, List.length_map]

theorem mem_of_mem_suffix {n : Nat} {xs : List α} {x : α} (member : x ∈ suffix n xs) : x ∈ xs :=
  List.mem_of_mem_drop member

end BoundedLog

/-- The faults that a machine raises itself, whose messages hold no text from outside. -/
def Fault.Internal : Fault → Prop
  | .memory .. | .invalidInstruction .. | .programTooLong .. | .startOutside .. => True
  | .invalidOperand .. | .unknownAluCode _ | .invalidConfig _ => False

theorem newline_hexWord (n : Nat) : '\n' ∉ (Text.hexWord n).toList := by
  simp [Text.hexWord, Text.hex, List.leftpad, Assembly.newline_toDigits]

theorem Fault.newline_message {fault : Fault} (internal : fault.Internal) :
    '\n' ∉ fault.message.toList := by
  cases fault with
  | memory address access pc =>
    delta message
    cases access <;> cases pc <;> simp [toString, Access.description, newline_hexWord]
  | invalidInstruction word pc =>
    delta message
    simp [toString, newline_hexWord]
  | programTooLong size capacity =>
    delta message
    simp [toString, Assembly.newline_toDigits]
  | startOutside start capacity =>
    delta message
    simp [toString, newline_hexWord, Assembly.newline_toDigits]
  | invalidOperand | unknownAluCode | invalidConfig => exact internal.elim

theorem Diagnostic.newline_line {diagnostic : Diagnostic} (internal : diagnostic.fault.Internal) :
    '\n' ∉ diagnostic.line.toList := by
  have message := Fault.newline_message internal
  have tag (kind : Fault.Kind) : '\n' ∉ kind.tag.toList := by cases kind <;> simp [Fault.Kind.tag]
  simp [line, toString, tag, message, Assembly.newline_toDigits]

theorem FaultHandler.lines_summary {handler : FaultHandler}
    (internal : ∀ diagnostic ∈ handler.log.entries, diagnostic.fault.Internal) :
    Text.lines handler.summary.toList =
      if handler.total = 0 then ["No errors".toList]
      else s!"{handler.total} error(s)".toList ::
        (BoundedLog.suffix (min 5 handler.log.size) handler.log.entries).map
          (' ' :: ' ' :: ·.line.toList) := by
  have shown : ∀ l ∈ (BoundedLog.suffix 5 handler.log.entries).map (' ' :: ' ' :: ·.line.toList),
      '\n' ∉ l := by
    intro l member
    obtain ⟨diagnostic, late, rfl⟩ := List.mem_map.1 member
    have single := Diagnostic.newline_line (internal diagnostic (BoundedLog.mem_of_mem_suffix late))
    simpa using single
  have head : '\n' ∉ s!"{handler.total} error(s)".toList := by simp [toString, Assembly.newline_toDigits]
  rw [summary, BoundedLog.size, BoundedLog.suffix_min]
  split
  · decide
  · rw [← Text.lines_flatMap_cons head shown]
    simp [String.toList_join, List.flatMap_map]

theorem map_mapIdx_numbers {α β : Type} {give : Nat → α → β} {number : β → Nat}
    (numbered : ∀ i x, number (give i x) = i + 1) (xs : List α) :
    (xs.mapIdx give).map number = List.range' 1 (xs.mapIdx give).length := by
  apply List.ext_getElem
  · simp
  · intro i _ _
    simp [numbered, Nat.add_comm]

/-- What a machine enters into its books. -/
inductive Event where
  | generated (instruction : Instruction)
  | calculated (calculation : Calculation)
  | failed (fault : Fault)
  | retired (pc word : UInt16)

namespace Event

@[simp] def instruction? : Event → Option Instruction
  | generated instruction => some instruction
  | calculated _ | failed _ | retired .. => none

@[simp] def calculation? : Event → Option Calculation
  | calculated calculation => some calculation
  | generated _ | failed _ | retired .. => none

@[simp] def fault? : Event → Option Fault
  | failed fault => some fault
  | generated _ | calculated _ | retired .. => none

@[simp] def place? : Event → Option (UInt16 × UInt16)
  | retired pc word => some (pc, word)
  | generated _ | calculated _ | failed _ => none

def instructions (events : List Event) : List Instruction := events.filterMap instruction?

def calculations (events : List Event) : List Calculation := events.filterMap calculation?

def diagnostics (events : List Event) : List Diagnostic :=
  (events.filterMap fault?).mapIdx fun i fault => ⟨i + 1, fault⟩

def retirements (events : List Event) : List Retired :=
  (events.filterMap place?).mapIdx fun i place => ⟨i + 1, place.1, place.2⟩

variable (events : List Event) (event : Event)

theorem seq_diagnostics :
    (diagnostics events).map (·.seq) = List.range' 1 (diagnostics events).length :=
  map_mapIdx_numbers (fun _ _ => by rfl) _

theorem cycle_retirements :
    (retirements events).map (·.cycle) = List.range' 1 (retirements events).length :=
  map_mapIdx_numbers (fun _ _ => by rfl) _

theorem filterMap_append_singleton {α : Type} (pick : Event → Option α) :
    (events ++ [event]).filterMap pick = events.filterMap pick ++ (pick event).toList := by
  rw [List.filterMap_append]
  cases picked : pick event with
  | none => rw [List.filterMap_cons_none picked, List.filterMap_nil, Option.toList_none]
  | some entry => rw [List.filterMap_cons_some picked, List.filterMap_nil, Option.toList_some]

@[simp] theorem instructions_append :
    instructions (events ++ [event]) = instructions events ++ event.instruction?.toList :=
  filterMap_append_singleton events event _

@[simp] theorem calculations_append :
    calculations (events ++ [event]) = calculations events ++ event.calculation?.toList :=
  filterMap_append_singleton events event _

@[simp] theorem diagnostics_append :
    diagnostics (events ++ [event]) =
      diagnostics events ++ event.fault?.toList.map (⟨(diagnostics events).length + 1, ·⟩) := by
  rw [diagnostics, filterMap_append_singleton]
  cases event.fault? with
  | none => simp [diagnostics]
  | some fault => simp [diagnostics]

@[simp] theorem retirements_append :
    retirements (events ++ [event]) =
      retirements events ++
        event.place?.toList.map fun place => ⟨(retirements events).length + 1, place.1, place.2⟩ := by
  rw [retirements, filterMap_append_singleton]
  cases event.place? with
  | none => simp [retirements]
  | some place => simp [retirements]

end Event

structure Books where
  generated : Nat
  instructions : BoundedLog Instruction
  operations : Nat
  calculations : BoundedLog Calculation
  total : Nat
  diagnostics : BoundedLog Diagnostic
  cycles : Nat
  history : BoundedLog Retired

namespace Books

def blank (faultCapacity historyCapacity : Nat) : Books :=
  ⟨0, .empty 10, 0, .empty 10, 0, .empty faultCapacity, 0, .empty historyCapacity⟩

def enter (books : Books) : Event → Books
  | .generated instruction =>
    { books with
      generated := books.generated + 1
      instructions := books.instructions.push instruction }
  | .calculated calculation =>
    { books with
      operations := books.operations + 1
      calculations := books.calculations.push calculation }
  | .failed fault =>
    { books with
      total := books.total + 1
      diagnostics := books.diagnostics.push ⟨books.total + 1, fault⟩ }
  | .retired pc word =>
    { books with
      cycles := books.cycles + 1
      history := books.history.push ⟨books.cycles + 1, pc, word⟩ }

def enterAll (books : Books) (events : List Event) : Books := events.foldl enter books

theorem enterAll_append (books : Books) (before behind : List Event) :
    books.enterAll (before ++ behind) = (books.enterAll before).enterAll behind := List.foldl_append

/-- The books hold the last events of each kind and have counted all of them. -/
structure Hold (books : Books) (faultCapacity historyCapacity : Nat) (events : List Event) : Prop where
  instructions : books.instructions.Keeps 10 books.generated (Event.instructions events)
  calculations : books.calculations.Keeps 10 books.operations (Event.calculations events)
  diagnostics : books.diagnostics.Keeps faultCapacity books.total (Event.diagnostics events)
  history : books.history.Keeps historyCapacity books.cycles (Event.retirements events)

variable {faultCapacity historyCapacity : Nat}

theorem hold_blank : (blank faultCapacity historyCapacity).Hold faultCapacity historyCapacity [] :=
  ⟨BoundedLog.keeps_empty _, BoundedLog.keeps_empty _, BoundedLog.keeps_empty _, BoundedLog.keeps_empty _⟩

theorem Hold.enter {books : Books} {events : List Event}
    (hold : books.Hold faultCapacity historyCapacity events) (event : Event) :
    (books.enter event).Hold faultCapacity historyCapacity (events ++ [event]) := by
  obtain ⟨instructions, calculations, diagnostics, history⟩ := hold
  cases event with
  | generated instruction =>
    have entered := instructions.push instruction
    exact ⟨by simpa [Books.enter] using entered, by simpa [Books.enter], by simpa [Books.enter],
      by simpa [Books.enter]⟩
  | calculated calculation =>
    have entered := calculations.push calculation
    exact ⟨by simpa [Books.enter], by simpa [Books.enter] using entered, by simpa [Books.enter],
      by simpa [Books.enter]⟩
  | failed fault =>
    have entered := diagnostics.push ⟨books.total + 1, fault⟩
    exact ⟨by simpa [Books.enter], by simpa [Books.enter],
      by simpa [Books.enter, diagnostics.count_eq] using entered,
      by simpa [Books.enter]⟩
  | retired pc word =>
    have entered := history.push ⟨books.cycles + 1, pc, word⟩
    exact ⟨by simpa [Books.enter], by simpa [Books.enter], by simpa [Books.enter],
      by simpa [Books.enter, history.count_eq] using entered⟩

theorem hold_enterAll (faultCapacity historyCapacity : Nat) (events : List Event) :
    ((blank faultCapacity historyCapacity).enterAll events).Hold faultCapacity historyCapacity events := by
  induction events using List.reverseRecOn with
  | nil => exact hold_blank
  | append_singleton events event ih =>
    rw [enterAll_append]
    exact ih.enter event

end Books

namespace Machine

variable (machine : Machine)

def books : Books where
  generated := machine.control.generated
  instructions := machine.control.history
  operations := machine.alu.operations
  calculations := machine.alu.history
  total := machine.faults.total
  diagnostics := machine.faults.log
  cycles := machine.cycles
  history := machine.history

def fetchEvents : List Event :=
  match machine.program.words[machine.pc.toNat]? with
  | some _ => []
  | none =>
    if machine.program.stop ≤ machine.pc.toNat then []
    else [.failed (.memory machine.pc.toNat .fetch (some machine.pc))]

/-- The mark that an effect leaves: a calculation, a fault, or none. -/
def effectEvents : Effect → List Event
  | .calculate calculation _ | .compare calculation _ => [.calculated calculation]
  | .strayRead place _ =>
    [.failed (.memory (machine.data.base.toNat + place) .read (some machine.pc))]
  | .strayWrite place =>
    [.failed (.memory (machine.data.base.toNat + place) .write (some machine.pc))]
  | .invalid word => [.failed (.invalidInstruction word machine.pc)]
  | .read .. | .write .. | .jump .. | .nothing | .halt => []

def performEvents (word : UInt16) : List Event :=
  .generated (.decode word) :: machine.effectEvents (machine.effect (.decode word)) ++
    match (machine.perform word).1 with
    | .ok _ => [.retired machine.pc word]
    | .error _ => []

def stepEvents : List Event :=
  if machine.isHalted then []
  else machine.fetchEvents ++
    match machine.fetch with
    | (.ok (some word), machine) => machine.performEvents word
    | (.ok none, _) | (.error _, _) => []

def runEvents (machine : Machine) : Nat → List Event
  | 0 => []
  | budget + 1 => machine.stepEvents ++
    match machine.step with
    | (.ok true, machine) => machine.runEvents budget
    | (.ok false, _) | (.error _, _) => []

def events : Operation → List Event
  | .load program start =>
    match (machine.load program start).1 with
    | .ok () => []
    | .error fault => [.failed fault]
  | .step => machine.stepEvents
  | .run budget => machine.runEvents budget
  | .runDefault => machine.runEvents machine.cycleBudget
  | .reset | .setPolicy _ | .writeRegister .. | .writeData .. | .readData _ | .clearProgram => []

/-- The events of a session since the last reset; there were `past` before the session. -/
def eventsSince (machine : Machine) (past : List Event) : List Operation → List Event
  | [] => past
  | operation :: operations =>
    let present := if operation = .reset then [] else past ++ machine.events operation
    (machine.apply operation).2.eventsSince present operations

theorem books_report {α : Type} (fault : Fault) (fallback : α) :
    (machine.report fault fallback).2.books = machine.books.enterAll [.failed fault] := rfl

theorem books_fetch : machine.fetch.2.books = machine.books.enterAll machine.fetchEvents := by
  rw [fetch_eq, fetchEvents]
  cases machine.program.words[machine.pc.toNat]? with
  | some word => rfl
  | none =>
    by_cases past : machine.program.stop ≤ machine.pc.toNat
    · simp only [if_pos past]
      rfl
    · simp only [if_neg past]
      exact machine.books_report _ _

theorem books_excuse (fault : Fault) (waiting : Option Nat) :
    (machine.excuse fault waiting).2.books = machine.books.enterAll [.failed fault] := by
  cases policy : machine.faults.policy with
  | graceful =>
    rw [excuse_graceful policy]
    rfl
  | strict =>
    rw [excuse_strict policy]
    rfl

theorem books_enact (effect : Effect) :
    (machine.enact effect).2.books = machine.books.enterAll (machine.effectEvents effect) := by
  cases effect with
  | strayRead | strayWrite | invalid => exact machine.books_excuse _ _
  | calculate | read | write | compare | jump | nothing | halt => rfl

theorem books_perform (word : UInt16) :
    (machine.perform word).2.books = machine.books.enterAll (machine.performEvents word) := by
  have shape := Instruction.shape_decode word
  have standing := (machine.seen word).standing_execute shape
  have executed : ((machine.seen word).execute (.decode word)).2.books =
      (machine.books.enter (.generated (.decode word))).enterAll
        (machine.effectEvents (machine.effect (.decode word))) := by
    rw [execute_eq_enact _ shape]
    exact (machine.seen word).books_enact _
  rw [performEvents, perform_eq]
  generalize (machine.seen word).execute (.decode word) = outcome at standing executed ⊢
  obtain ⟨ending, behind⟩ := outcome
  cases ending with
  | ok flow =>
    have place : behind.pc = machine.pc := congrArg Standing.pc standing
    have retired : (behind.retire word (.decode word) flow).books =
        behind.books.enter (.retired machine.pc word) := by
      rw [← place]
      rfl
    rw [Books.enterAll_append]
    exact retired.trans (congrArg (·.enter (.retired machine.pc word)) executed)
  | error fault =>
    rw [Books.enterAll_append]
    exact executed

theorem books_step : machine.step.2.books = machine.books.enterAll machine.stepEvents := by
  have fetched := machine.books_fetch
  rw [step, stepEvents]
  split
  · rfl
  · rw [Books.enterAll_append, ← fetched]
    generalize machine.fetch = outcome
    obtain ⟨answer, next⟩ := outcome
    cases answer with
    | error fault => rfl
    | ok word? =>
      cases word? with
      | none => rfl
      | some word => exact next.books_perform word

theorem books_run (budget : Nat) :
    (machine.run budget).2.books = machine.books.enterAll (machine.runEvents budget) := by
  induction budget generalizing machine with
  | zero => rfl
  | succ budget ih =>
    rw [run, runEvents, Books.enterAll_append, ← books_step]
    generalize machine.step = outcome
    obtain ⟨answer, next⟩ := outcome
    cases answer with
    | error fault => rfl
    | ok going =>
      cases going with
      | false => rfl
      | true => exact ih next

theorem books_apply (operation : Operation) (kept : operation ≠ .reset) :
    (machine.apply operation).2.books = machine.books.enterAll (machine.events operation) := by
  cases operation with
  | load program start =>
    rw [apply, events]
    obtain ⟨memory, -, loaded⟩ | ⟨fault, -, failed⟩ := machine.load_cases program start
    · rw [loaded]
      rfl
    · rw [failed]
      rfl
  | step => exact machine.books_step
  | run budget => exact machine.books_run budget
  | runDefault => exact machine.books_run machine.cycleBudget
  | reset => exact absurd rfl kept
  | writeData address value =>
    simp only [apply, DataMemory.write]
    split <;> rfl
  | readData address =>
    simp only [apply, DataMemory.read]
    split <;> rfl
  | setPolicy | writeRegister | clearProgram => rfl

theorem books_session {faultCapacity historyCapacity : Nat} {machine : Machine} {past : List Event}
    (start : machine.books = (Books.blank faultCapacity historyCapacity).enterAll past)
    (operations : List Operation) :
    (machine.session operations).2.books =
      (Books.blank faultCapacity historyCapacity).enterAll (machine.eventsSince past operations) := by
  induction operations generalizing machine past with
  | nil => exact start
  | cons operation operations ih =>
    apply ih
    by_cases reset : operation = .reset
    · have hold := Books.hold_enterAll faultCapacity historyCapacity past
      rw [← start] at hold
      rw [if_pos reset, reset, ← hold.diagnostics.capacity_eq, ← hold.history.capacity_eq]
      rfl
    · rw [if_neg reset, Books.enterAll_append, ← start]
      exact machine.books_apply operation reset

def InternalFaults (events : List Event) : Prop := ∀ fault, .failed fault ∈ events → fault.Internal

theorem internalFaults_nil : InternalFaults [] := nofun

theorem InternalFaults.append {before behind : List Event} (first : InternalFaults before)
    (second : InternalFaults behind) : InternalFaults (before ++ behind) :=
  fun fault member => (List.mem_append.1 member).elim (first fault) (second fault)

theorem internalFaults_singleton {fault : Fault} (internal : fault.Internal) :
    InternalFaults [.failed fault] := by
  intro other member
  cases List.mem_singleton.1 member
  exact internal

theorem internalFaults_fetch : InternalFaults machine.fetchEvents := by
  unfold fetchEvents
  split
  · exact internalFaults_nil
  · split
    · exact internalFaults_nil
    · exact internalFaults_singleton trivial

theorem internalFaults_effect (effect : Effect) : InternalFaults (machine.effectEvents effect) := by
  cases effect with
  | strayRead | strayWrite | invalid => exact internalFaults_singleton trivial
  | calculate | compare | read | write | jump | nothing | halt => simp [InternalFaults, effectEvents]

theorem internalFaults_perform (word : UInt16) : InternalFaults (machine.performEvents word) := by
  have seen : InternalFaults [.generated (.decode word)] := by simp [InternalFaults]
  refine (seen.append (machine.internalFaults_effect _)).append ?_
  split <;> simp [InternalFaults]

theorem internalFaults_step : InternalFaults machine.stepEvents := by
  unfold stepEvents
  split
  · exact internalFaults_nil
  · refine machine.internalFaults_fetch.append ?_
    split
    · exact internalFaults_perform _ _
    · exact internalFaults_nil
    · exact internalFaults_nil

theorem internalFaults_run (budget : Nat) : InternalFaults (machine.runEvents budget) := by
  induction budget generalizing machine with
  | zero => exact internalFaults_nil
  | succ budget ih =>
    refine machine.internalFaults_step.append ?_
    split
    · exact ih _
    · exact internalFaults_nil
    · exact internalFaults_nil

theorem internal_of_load {program : List UInt16} {start : Nat} {fault : Fault}
    (failed : (machine.load program start).1 = .error fault) : fault.Internal := by
  obtain ⟨memory, -, loaded⟩ | ⟨other, refused, load⟩ := machine.load_cases program start
  · rw [loaded] at failed
    cases failed
  · rw [load] at failed
    cases failed
    unfold ProgramMemory.load at refused
    split at refused
    · cases refused
      trivial
    · split at refused <;> cases refused
      trivial

theorem internalFaults_events (operation : Operation) : InternalFaults (machine.events operation) := by
  cases operation with
  | load program start =>
    unfold events
    dsimp only
    split
    · exact internalFaults_nil
    · rename_i fault failed
      exact internalFaults_singleton (machine.internal_of_load failed)
  | step => exact machine.internalFaults_step
  | run budget => exact machine.internalFaults_run budget
  | runDefault => exact machine.internalFaults_run machine.cycleBudget
  | reset | setPolicy | writeRegister | writeData | readData | clearProgram => exact internalFaults_nil

theorem internalFaults_session {past : List Event} (before : InternalFaults past)
    (operations : List Operation) : InternalFaults (machine.eventsSince past operations) := by
  induction operations generalizing machine past with
  | nil => exact before
  | cons operation operations ih =>
    apply ih
    split
    · exact internalFaults_nil
    · exact before.append (machine.internalFaults_events operation)

theorem internal_of_mem_diagnostics {events : List Event} (internal : InternalFaults events)
    {diagnostic : Diagnostic} (member : diagnostic ∈ Event.diagnostics events) :
    diagnostic.fault.Internal := by
  obtain ⟨i, inside, rfl⟩ := List.mem_mapIdx.1 member
  obtain ⟨event, happened, named⟩ := List.mem_filterMap.1 (List.getElem_mem inside)
  cases event with
  | failed fault =>
    cases named
    exact internal _ happened
  | generated | calculated | retired => cases named

/-- The logs of a machine at a time when these events have happened since it was made or reset. -/
structure LogsShow (machine : Machine) (config : Config) (events : List Event) : Prop where
  history : machine.history.Keeps config.historyCapacity machine.cycles (Event.retirements events)
  diagnostics : machine.faults.log.Keeps config.faultCapacity machine.faults.total (Event.diagnostics events)
  calculations : machine.alu.history.Keeps 10 machine.alu.operations (Event.calculations events)
  instructions : machine.control.history.Keeps 10 machine.control.generated (Event.instructions events)
  records : machine.control.records =
    BoundedLog.suffix (min 10 machine.control.generated)
      ((Event.instructions events).map ControlRecord.ofInstruction)
  cycles : machine.history.entries.map (·.cycle) =
    List.range' (machine.cycles + 1 - machine.history.size) machine.history.size
  sequence : machine.faults.log.entries.map (·.seq) =
    List.range' (machine.faults.total + 1 - machine.faults.log.size) machine.faults.log.size
  decoded : ∀ entry ∈ machine.history.entries,
    entry.assembly = (Instruction.decode entry.word).text ∧
      entry.format? = (Instruction.decode entry.word).format?
  summary : Text.lines machine.faults.summary.toList =
    if machine.faults.total = 0 then ["No errors".toList]
    else s!"{machine.faults.total} error(s)".toList ::
      (BoundedLog.suffix (min 5 machine.faults.log.size) machine.faults.log.entries).map
        (' ' :: ' ' :: ·.line.toList)

/-- In any session of a machine with any configuration the logs are the last of all events. -/
theorem logs_show (config : Config) (operations : List Operation) :
    LogsShow ((build config).session operations).2 config ((build config).eventsSince [] operations) := by
  have fresh : (build config).books =
      (Books.blank config.faultCapacity config.historyCapacity).enterAll [] := rfl
  have books := books_session fresh operations
  have hold := Books.hold_enterAll config.faultCapacity config.historyCapacity
    ((build config).eventsSince [] operations)
  have internal := (build config).internalFaults_session internalFaults_nil operations
  rw [← books] at hold
  refine ⟨hold.history, hold.diagnostics, hold.calculations, hold.instructions,
    hold.instructions.map_entries ControlRecord.ofInstruction, hold.history.numbers (Event.cycle_retirements _),
    hold.diagnostics.numbers (Event.seq_diagnostics _), fun _ _ => ⟨rfl, rfl⟩, ?_⟩
  apply FaultHandler.lines_summary
  intro diagnostic logged
  have entries := hold.diagnostics.entries_eq
  rw [show ((build config).session operations).2.faults.log.entries = _ from entries] at logged
  exact internal_of_mem_diagnostics internal (BoundedLog.mem_of_mem_suffix logged)

end Machine

end Harvard16
