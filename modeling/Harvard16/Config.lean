import Harvard16.FaultHandler

/-! Parameters of a session. A configuration is valid when both memories lie in the sixteen-bit
address space, neither is empty, and the logs stay within their limits. The checks are made in
that order and the first that fails is reported. Base and size of the data are added as natural
numbers: a counter of 64 bits gives the same sum below 2^64 and would wrap above. -/
namespace Harvard16

structure Config where
  programSize : Nat
  dataSize : Nat
  dataBase : UInt16
  policy : Policy
  historyCapacity : Nat
  faultCapacity : Nat
  cycleBudget : Nat
  deriving DecidableEq, Repr

inductive ConfigError where
  | programSize (size : Nat)
  | emptyData
  | dataOutside (base : UInt16) (size : Nat)
  | historyCapacity (capacity : Nat)
  | faultCapacity (capacity : Nat)
  | unreadable (path reason : String)
  | malformed
  deriving DecidableEq, Repr

def addressSpace : Nat := 0x10000

namespace ConfigError

def message : ConfigError → String
  | .programSize size =>
    s!"instruction memory size {size} must be between 1 and {addressSpace}"
  | .emptyData => "data memory size must be non-zero"
  | .dataOutside base size =>
    s!"data memory {Text.hexWord base.toNat}+{size} does not fit the 16-bit address space"
  | .historyCapacity capacity => s!"history capacity {capacity} exceeds 20"
  | .faultCapacity capacity => s!"error log capacity {capacity} exceeds 100"
  | .unreadable path reason => s!"{path}: {reason}"
  | .malformed => "<json error>"

def toFault (error : ConfigError) : Fault := .invalidConfig error.message

end ConfigError

namespace Config

def default : Config :=
  { programSize := 1024
    dataSize := 1024
    dataBase := 0x1000
    policy := .graceful
    historyCapacity := 20
    faultCapacity := 10
    cycleBudget := 1000 }

def check (config : Config) : Except ConfigError Unit :=
  if config.programSize = 0 ∨ addressSpace < config.programSize then
    .error (.programSize config.programSize)
  else if config.dataSize = 0 then .error .emptyData
  else if addressSpace < config.dataBase.toNat + config.dataSize then
    .error (.dataOutside config.dataBase config.dataSize)
  else if 20 < config.historyCapacity then .error (.historyCapacity config.historyCapacity)
  else if 100 < config.faultCapacity then .error (.faultCapacity config.faultCapacity)
  else .ok ()

structure Valid (config : Config) : Prop where
  programSize_pos : 0 < config.programSize
  programSize_le : config.programSize ≤ addressSpace
  dataSize_pos : 0 < config.dataSize
  data_le : config.dataBase.toNat + config.dataSize ≤ addressSpace
  historyCapacity_le : config.historyCapacity ≤ 20
  faultCapacity_le : config.faultCapacity ≤ 100

theorem check_eq_ok_iff {config : Config} : config.check = .ok () ↔ config.Valid := by
  constructor
  · intro h
    unfold check at h
    split at h
    · cases h
    · split at h
      · cases h
      · split at h
        · cases h
        · split at h
          · cases h
          · split at h
            · cases h
            · constructor <;> omega
  · rintro ⟨_, _, _, _, _, _⟩
    unfold check
    rw [if_neg (by omega), if_neg (by omega), if_neg (by omega), if_neg (by omega),
      if_neg (by omega)]

/-- Where sizes are counters of 64 bits, base and size add up to what `check` compares exactly as long as
the counter does not wrap. -/
theorem toNat_add_dataSize_iff {config : Config} (counted : config.dataSize < Text.counterBound) :
    (config.dataBase.toUInt64 + UInt64.ofNat config.dataSize).toNat =
        config.dataBase.toNat + config.dataSize ↔
      config.dataBase.toNat + config.dataSize < Text.counterBound := by
  have sum : (config.dataBase.toUInt64 + UInt64.ofNat config.dataSize).toNat =
      (config.dataBase.toNat + config.dataSize) % Text.counterBound := by
    rw [UInt64.toNat_add, UInt64.toNat_ofNat_of_lt' counted, UInt16.toNat_toUInt64]
    rfl
  rw [sum]
  exact ⟨fun same => same ▸ Nat.mod_lt _ (by decide), Nat.mod_eq_of_lt⟩

theorem default_valid : default.Valid := check_eq_ok_iff.1 rfl

end Config

end Harvard16
