import Harvard16.Proofs.Budgets
import Harvard16.Proofs.EventLogs
import Harvard16.Proofs.PositionIndependence

/-! Programs without a way back. Where every branch and every jump leads to a later address, each step that
goes on takes the machine further, to the next address or past some of them, until it has come to the end
of the program. So a run ends after at most as many cycles as there are words, whatever the words do
otherwise, and it meets no address twice. It needs room behind the program for the widest jump from its
last word: a target behind the last of all addresses would be one at the beginning. -/
namespace Harvard16

def Instruction.isForward : Instruction → Bool
  | .b _ _ _ offset | .j _ _ offset => 0 < offset
  | .r .. | .i .. | .s .. | .special _ | .invalid _ => true

theorem Instruction.transfer?_pos {instruction : Instruction} (forward : instruction.isForward)
    {registers : Registers} {offset : Int} (transfers : offset ∈ instruction.transfer? registers) :
    0 < offset := by
  unfold transfer? at transfers
  split at transfers
  · split at transfers <;> cases transfers
    simpa [isForward] using forward
  · split at transfers <;> cases transfers
    simpa [isForward] using forward
  · cases transfers
    simpa [isForward] using forward
  · cases transfers

namespace Machine

/-- A machine whose program has no way back, with room behind it. -/
structure Forward (machine : Machine) : Prop where
  graceful : machine.faults.policy = .graceful
  laid : machine.program.LaidOut
  words : ∀ (address : Nat) (word : UInt16), machine.program.words[address]? = some word →
    (Instruction.decode word).isForward
  room : machine.program.stop + 127 ≤ addressSpace

/-- The addresses of the words that a run executes, in order. -/
def route (machine : Machine) (budget : Nat) : List UInt16 :=
  ((machine.runEvents budget).filterMap Event.place?).map Prod.fst

theorem map_pc_retirements (events : List Event) :
    (Event.retirements events).map (·.pc) = (events.filterMap Event.place?).map Prod.fst := by
  apply List.ext_getElem <;> simp [Event.retirements]

section

variable {machine : Machine}

theorem Forward.of_setup {other : Machine} (forward : machine.Forward)
    (same : other.setup = machine.setup) : other.Forward := by
  have program : other.program = machine.program := congrArg Prod.fst same
  have policy : other.faults.policy = machine.faults.policy := congrArg (·.2.policy) same
  obtain ⟨graceful, laid, words, room⟩ := forward
  exact ⟨policy.trans graceful, by rwa [program], by rwa [program], by rwa [program]⟩

theorem pc_lt_perform {word : UInt16} (forward : (Instruction.decode word).isForward)
    (room : machine.pc.toNat + 127 < addressSpace) (going : (machine.perform word).1 = .ok true) :
    machine.pc < (machine.perform word).2.pc := by
  have shape := Instruction.shape_decode word
  have standing := (machine.seen word).standing_execute shape
  have transfers := @exists_transfer (machine.seen word) _ shape
  rw [perform_eq] at going ⊢
  generalize (machine.seen word).execute (.decode word) = outcome at standing transfers going ⊢
  obtain ⟨ending, behind⟩ := outcome
  have pc : behind.pc = machine.pc := congrArg Standing.pc standing
  cases ending with
  | error fault => cases going
  | ok flow =>
    cases flow with
    | next =>
      have onward : (machine.pc + 1).toNat = machine.pc.toNat + 1 :=
        toNat_onward (Nat.lt_of_le_of_lt (Nat.add_le_add_left (by decide) _) room)
      show machine.pc < behind.pc + 1
      rw [pc, UInt16.lt_iff_toNat_lt, onward]
      exact Nat.lt_succ_self _
    | halt => cases going
    | jump target =>
      obtain ⟨offset, transfer, rfl⟩ := transfers rfl
      have far := Instruction.transfer?_le transfer
      have further := Instruction.transfer?_pos forward transfer
      have place := Assembly.toNat_add_ofInt machine.pc offset
      have bound : machine.pc.toNat + 127 < 65536 := room
      show machine.pc < machine.pc + UInt16.ofInt offset
      rw [UInt16.lt_iff_toNat_lt]
      omega

theorem effectEvents_place? (effect : Effect) :
    (machine.effectEvents effect).filterMap Event.place? = [] := by
  cases effect <;> rfl

theorem performEvents_place? (graceful : machine.faults.policy = .graceful) (word : UInt16) :
    (machine.performEvents word).filterMap Event.place? = [(machine.pc, word)] := by
  obtain ⟨going, answered, -⟩ := metered_perform graceful word
  rw [performEvents, answered, Event.filterMap_append_singleton,
    List.filterMap_cons_none (by rfl), effectEvents_place?]
  rfl

theorem Forward.step (forward : machine.Forward) (active : machine.isHalted = false)
    (inside : machine.pc.toNat < machine.program.stop) :
    ∃ word going, machine.step.1 = .ok going ∧ machine.step.2.cycles = machine.cycles + 1 ∧
      machine.stepEvents.filterMap Event.place? = [(machine.pc, word)] ∧
      (going = true → machine.pc < machine.step.2.pc) := by
  obtain ⟨graceful, laid, words, room⟩ := forward
  obtain ⟨word, found, performed⟩ := step_before_stop laid active inside
  obtain ⟨going, answered, counted⟩ := metered_perform graceful word
  have fetched := fetch_of_getElem? found (.inr inside)
  refine ⟨word, going, ?_, ?_, ?_, ?_⟩
  · rw [performed, answered]
  · rw [performed, counted.exact trivial]
  · rw [stepEvents, active, fetched, fetchEvents, found]
    exact performEvents_place? graceful word
  · rintro rfl
    rw [performed]
    exact pc_lt_perform (words _ word found) (by omega) answered

theorem route_of_going (going : machine.step.1 = .ok true) (budget : Nat) :
    machine.route (budget + 1) =
      (machine.stepEvents.filterMap Event.place?).map Prod.fst ++ machine.step.2.route budget := by
  rw [route, runEvents, List.filterMap_append, List.map_append, route]
  generalize machine.step = outcome at going ⊢
  obtain ⟨answer, next⟩ := outcome
  cases going
  rfl

theorem route_of_last (last : machine.step.1 = .ok false) (budget : Nat) :
    machine.route (budget + 1) = (machine.stepEvents.filterMap Event.place?).map Prod.fst := by
  rw [route, runEvents]
  generalize machine.step = outcome at last ⊢
  obtain ⟨answer, next⟩ := outcome
  cases last
  rw [List.append_nil]

theorem step_of_finished (laid : machine.program.LaidOut)
    (finished : machine.isHalted = true ∨ machine.program.stop ≤ machine.pc.toNat) :
    machine.step.1 = .ok false ∧ machine.step.2.cycles = machine.cycles ∧ machine.stepEvents = [] := by
  cases active : machine.isHalted with
  | true =>
    rw [step_of_isHalted active, stepEvents, active]
    exact ⟨rfl, rfl, rfl⟩
  | false =>
    have past : machine.program.stop ≤ machine.pc.toNat := by simpa [active] using finished
    rw [step_past_stop laid active past, stepEvents, active, fetch_of_laidOut laid, if_pos past, fetchEvents]
    refine ⟨rfl, rfl, ?_⟩
    cases machine.program.words[machine.pc.toNat]? <;> simp [past]

/-- A run that comes to the end of the program after at most `count` cycles. The addresses that it executes
ascend. -/
structure Arrives (machine : Machine) (count budget : Nat) : Prop where
  ended : (machine.run budget).1 = .ok true
  within : (machine.run budget).2.cycles ≤ machine.cycles + count
  ascends : (machine.route budget).Pairwise (· < ·)
  onward : ∀ pc ∈ machine.route budget, machine.pc ≤ pc

theorem arrives_of_last {count : Nat} (last : machine.step.1 = .ok false)
    (cycles : machine.step.2.cycles ≤ machine.cycles + count)
    (places : ((machine.stepEvents.filterMap Event.place?).map Prod.fst).Sublist [machine.pc]) (budget : Nat) :
    machine.Arrives count (budget + 1) := by
  have run := run_succ_of_last last budget
  rw [← route_of_last last budget] at places
  refine ⟨by rw [run], by rwa [run], (List.pairwise_singleton _ _).sublist places, ?_⟩
  intro pc member
  exact UInt16.le_of_eq (List.mem_singleton.1 (places.subset member)).symm

theorem Arrives.of_step {word : UInt16} {count budget : Nat} (going : machine.step.1 = .ok true)
    (cycles : machine.step.2.cycles = machine.cycles + 1)
    (places : machine.stepEvents.filterMap Event.place? = [(machine.pc, word)])
    (further : machine.pc < machine.step.2.pc) (arrives : machine.step.2.Arrives count budget) :
    machine.Arrives (count + 1) (budget + 1) := by
  have run := run_succ_of_going going budget
  have route : machine.route (budget + 1) = machine.pc :: machine.step.2.route budget := by
    rw [route_of_going going, places]
    rfl
  have behind : ∀ pc ∈ machine.step.2.route budget, machine.pc < pc :=
    fun pc member => UInt16.lt_of_lt_of_le further (arrives.onward pc member)
  refine ⟨?_, ?_, ?_, ?_⟩
  · rw [run]
    exact arrives.ended
  · have within := arrives.within
    rw [run]
    omega
  · rw [route]
    exact .cons behind arrives.ascends
  · rw [route]
    intro pc member
    rcases List.mem_cons.1 member with rfl | later
    · exact UInt16.le_refl _
    · exact UInt16.le_of_lt (behind pc later)

theorem arrives_of_finished (laid : machine.program.LaidOut)
    (finished : machine.isHalted = true ∨ machine.program.stop ≤ machine.pc.toNat) (count budget : Nat) :
    machine.Arrives count (budget + 1) := by
  obtain ⟨ended, cycles, events⟩ := step_of_finished laid finished
  refine arrives_of_last ended (by omega) ?_ budget
  rw [events]
  exact List.nil_sublist _

theorem Forward.arrives (forward : machine.Forward) {distance : Nat}
    (enough : machine.program.stop ≤ machine.pc.toNat + distance) :
    machine.Arrives distance (distance + 1) := by
  induction distance generalizing machine with
  | zero => exact arrives_of_finished forward.laid (.inr enough) 0 0
  | succ distance ih =>
    by_cases finished : machine.isHalted = true ∨ machine.program.stop ≤ machine.pc.toNat
    · exact arrives_of_finished forward.laid finished _ _
    · obtain ⟨running, inside⟩ := not_or.1 finished
      obtain ⟨word, going, answered, cycles, places, further⟩ :=
        forward.step (by simpa using running) (Nat.lt_of_not_le inside)
      cases going with
      | false =>
        refine arrives_of_last answered (by omega) ?_ (distance + 1)
        rw [places]
        exact .refl _
      | true =>
        have further := further rfl
        have closer : machine.step.2.program.stop ≤ machine.step.2.pc.toNat + distance := by
          have later := UInt16.lt_iff_toNat_lt.1 further
          rw [program_step]
          omega
        exact .of_step answered cycles places further (ih (forward.of_setup machine.setup_step) closer)

end

section

variable {config : Config} {words : List UInt16} {start : Nat} {loaded : Machine}

theorem forward_load (graceful : config.policy = .graceful)
    (small : config.programSize + 128 ≤ addressSpace)
    (loads : (build config).load words start = (.ok (), loaded))
    (forward : ∀ word ∈ words, (Instruction.decode word).isForward) : loaded.Forward := by
  obtain ⟨memory, ok, rfl⟩ := of_load_build loads
  have laid := ProgramMemory.laidOut_load ok
  have size : memory.size = config.programSize :=
    (ProgramMemory.size_load ok).trans (size_program_build config)
  refine ⟨graceful, laid, ?_, ?_⟩
  · intro address word found
    rcases ProgramMemory.mem_load ok (Array.mem_of_getElem? found) with rfl | mem
    · rfl
    · exact forward word mem
  · have ends : memory.stop ≤ memory.size := laid.stop_le
    show memory.stop + 127 ≤ addressSpace
    omega

end

/-- A program without a way back ends, wherever it has been loaded in a memory that leaves room for its last
jump: with a budget of one more than its words, after at most as many cycles as it has words, and no
address is executed twice. -/
theorem run_forward {config : Config} (valid : config.Valid) (graceful : config.policy = .graceful)
    (small : config.programSize ≤ 65408) {words : List UInt16} {start : Nat} {loaded : Machine}
    (loads : (build config).load words start = (.ok (), loaded))
    (forward : ∀ word ∈ words, (Instruction.decode word).isForward) :
    (loaded.run (words.length + 1)).1 = .ok true ∧
      (loaded.run (words.length + 1)).2.cycles ≤ words.length ∧
      ((Event.retirements (loaded.runEvents (words.length + 1))).map (·.pc)).Nodup := by
  obtain ⟨begins, stop, -⟩ := extent_load valid loads
  obtain ⟨-, fresh, -⟩ := fresh_load loads
  have onward := forward_load graceful (Nat.add_le_add_right small 128) loads forward
  obtain ⟨ended, within, ascends, -⟩ := onward.arrives (Nat.le_of_eq (by rw [begins, stop]))
  refine ⟨ended, ?_, ?_⟩
  · rw [fresh, Nat.zero_add] at within
    exact within
  · rw [map_pc_retirements]
    exact ascends.imp UInt16.ne_of_lt

theorem run_forward_leaping :
    let config := { Config.default with programSize := 5, dataSize := 2 }
    let loaded := ((build config).load [0xC002, 0xF123, 0xA005] 1).2
    config.Valid ∧ (build config).load [0xC002, 0xF123, 0xA005] 1 = (.ok (), loaded) ∧
      (loaded.run 4).1 = .ok true ∧ (loaded.run 4).2.cycles ≤ 3 ∧ (loaded.run 4).2.pc = 8 ∧
      (Event.retirements (loaded.runEvents 4)).map (·.pc) = [1, 3] ∧ [(1 : UInt16), 3].Nodup := by
  intro config loaded
  have valid : config.Valid := Config.check_eq_ok_iff.1 rfl
  have loads : (build config).load [0xC002, 0xF123, 0xA005] 1 = (.ok (), loaded) := rfl
  have forward : ∀ word ∈ [0xC002, 0xF123, 0xA005], (Instruction.decode word).isForward := by
    simp only [List.forall_mem_cons]
    exact ⟨rfl, rfl, rfl, nofun⟩
  obtain ⟨ended, within, once⟩ := run_forward valid rfl (by decide) loads forward
  have route : (Event.retirements (loaded.runEvents 4)).map (·.pc) = [1, 3] := by decide
  have once : ((Event.retirements (loaded.runEvents 4)).map (·.pc)).Nodup := once
  rw [route] at once
  exact ⟨valid, loads, ended, within, by decide, route, once⟩

end Machine

end Harvard16
