import Harvard16.Config
import Harvard16.Json

/-! Configurations from JSON. An object sets the fields that it names over the default; other keys are
ignored, and a field that is named twice is refused. An array gives the fields in order and may
stop early. Sizes and capacities are natural numbers of at most 64 bits, the data base is a
word, and the policy is given by its name or by an object of that name with null. -/
namespace Harvard16.Config

inductive Key where
  | programSize | dataSize | dataBase | policy | historyCapacity | faultCapacity | cycleBudget
  deriving DecidableEq, Repr

namespace Key

def all : List Key :=
  [.programSize, .dataSize, .dataBase, .policy, .historyCapacity, .faultCapacity, .cycleBudget]

def name : Key → String
  | .programSize => "imem_size"
  | .dataSize => "dmem_size"
  | .dataBase => "dmem_base"
  | .policy => "policy"
  | .historyCapacity => "history_capacity"
  | .faultCapacity => "error_log_capacity"
  | .cycleBudget => "max_cycles"

def ofName? (name : String) : Option Key := all.find? (·.name == name)

end Key

def policyNamed? : String → Option Policy
  | "graceful" => some .graceful
  | "strict" => some .strict
  | _ => none

def policy? : Json.Value → Option Policy
  | .string (some name) => policyNamed? name
  | .object [(some name, .null)] => policyNamed? name
  | _ => none

def set? (config : Config) (key : Key) (value : Json.Value) : Option Config :=
  match key with
  | .programSize => (value.natural? Text.counterBound).map ({ config with programSize := · })
  | .dataSize => (value.natural? Text.counterBound).map ({ config with dataSize := · })
  | .dataBase => (value.natural? addressSpace).map ({ config with dataBase := UInt16.ofNat · })
  | .policy => (policy? value).map ({ config with policy := · })
  | .historyCapacity => (value.natural? Text.counterBound).map ({ config with historyCapacity := · })
  | .faultCapacity => (value.natural? Text.counterBound).map ({ config with faultCapacity := · })
  | .cycleBudget => (value.natural? Text.counterBound).map ({ config with cycleBudget := · })

def ofItems? : Config → List Key → List Json.Value → Option Config
  | config, _, [] => some config
  | _, [], _ :: _ => none
  | config, key :: keys, value :: values => do ofItems? (← config.set? key value) keys values

/-- Sets the fields that are named, each of which must be in `unset` still. -/
def ofMembers? (config : Config) (unset : List Key) :
    List (Option String × Json.Value) → Option Config
  | [] => some config
  | (none, _) :: _ => none
  | (some name, value) :: members =>
    match Key.ofName? name with
    | none => ofMembers? config unset members
    | some key =>
      if key ∈ unset then do
        ofMembers? (← config.set? key value) (unset.erase key) members
      else none

def ofJson? : Json.Value → Option Config
  | .array values => ofItems? default Key.all values
  | .object members => ofMembers? default Key.all members
  | _ => none

def parse (text : List Char) : Except ConfigError Config :=
  match (Json.parse? text).bind ofJson? with
  | none => .error .malformed
  | some config => config.check.map fun _ => config

end Harvard16.Config
