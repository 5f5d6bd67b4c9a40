/-! A directory as a value. It is flat: it holds files alone. Around it is as much of a system as a path
can name without files of its own: the devices, and the process of the session with its open files. A
path is walked step by step, and the first step that leads nowhere is the reason why it means nothing.
A place is written with its innermost name first, so that the step upward is the tail of the list. -/
namespace Harvard16.CommandLine

inductive Refusal where
  | noSuchFile | outOfMemory | notDirectory | isDirectory | noSpace | nameTooLong
  deriving DecidableEq, Repr

def Refusal.message : Refusal → String
  | .noSuchFile => "No such file or directory (os error 2)"
  | .outOfMemory => "Cannot allocate memory (os error 12)"
  | .notDirectory => "Not a directory (os error 20)"
  | .isDirectory => "Is a directory (os error 21)"
  | .noSpace => "No space left on device (os error 28)"
  | .nameTooLong => "File name too long (os error 36)"

structure Printed where
  output : List UInt8 := []
  errors : List UInt8 := []
  deriving DecidableEq, Repr

def Printed.append (before after : Printed) : Printed :=
  ⟨before.output ++ after.output, before.errors ++ after.errors⟩

inductive Intake where
  | all | nothing | output | errors
  deriving DecidableEq, Repr

structure Device where
  content : Except Refusal (List UInt8)
  intake : Intake

namespace Device

def write (device : Device) (bytes : List UInt8) : Except Refusal Printed :=
  match device.intake with
  | .all => .ok {}
  | .nothing => if bytes.isEmpty then .ok {} else .error .noSpace
  | .output => .ok { output := bytes }
  | .errors => .ok { errors := bytes }

/-- The standard input is empty, and so it is the same device. -/
def null : Device := ⟨.ok [], .all⟩

/-- A device that never runs dry, so that its bytes fit in no memory. -/
def endless : Device := ⟨.error .outOfMemory, .all⟩

def full : Device := ⟨.error .outOfMemory, .nothing⟩

def output : Device := ⟨.ok [], .output⟩

def errors : Device := ⟨.ok [], .errors⟩

end Device

/-- Where a walk stands: in the directory of the session, or at a place of the system. -/
inductive Place where
  | here
  | outside (path : List String)
  deriving DecidableEq, Repr

inductive Entry where
  | directory (place : Place)
  | device (device : Device)

namespace Place

def contents : List String → List (String × Entry)
  | [] => ["dev", "proc", "tmp"].map fun name => (name, .directory (.outside [name]))
  | ["dev"] =>
    [("fd", .directory (.outside ["fd", "self", "proc"])), ("null", .device .null),
      ("stdin", .device .null), ("stdout", .device .output), ("stderr", .device .errors),
      ("zero", .device .endless), ("random", .device .endless), ("urandom", .device .endless),
      ("full", .device .full)]
  | ["proc"] =>
    ["self", "thread-self"].map fun name => (name, .directory (.outside ["self", "proc"]))
  | ["self", "proc"] =>
    [("cwd", .directory .here), ("fd", .directory (.outside ["fd", "self", "proc"]))]
  | ["fd", "self", "proc"] =>
    [("0", .device .null), ("1", .device .output), ("2", .device .errors)]
  | _ => []

/-- What a step means at a place, if that is known. The session lies among the temporary places, and the
root lies above itself. -/
def step? : Place → String → Option Entry
  | place, "." => some (.directory place)
  | .here, ".." => some (.directory (.outside ["tmp"]))
  | .outside path, ".." => some (.directory (.outside path.tail))
  | .here, _ => none
  | .outside path, name => (contents path).lookup name

/-- Whether the system makes up what is at a place: then names have no greatest length there, and no
file can be made. -/
def isMadeUp : Place → Bool
  | .here => false
  | .outside path => path.getLast? == some "proc"

end Place

structure Directory where
  files : List (String × List UInt8)
  deriving DecidableEq, Repr

namespace Directory

def nameLimit : Nat := 255

def pathLimit : Nat := 4095

def isTooLong (place : Place) (name : String) : Bool :=
  nameLimit < name.utf8ByteSize && !place.isMadeUp

/-- What a path means. A device or a name is marked when a slash stands behind it. -/
inductive Target where
  | directory
  | device (device : Device) (slash : Bool)
  | name (place : Place) (name : String) (slash : Bool)

def obstacle (directory : Directory) (place : Place) (name : String) : Refusal :=
  if isTooLong place name then .nameTooLong
  else if place = .here ∧ (directory.files.lookup name).isSome then .notDirectory
  else .noSuchFile

def walk (directory : Directory) (place : Place) : List String → Except Refusal Place
  | [] => .ok place
  | step :: steps =>
    match place.step? step with
    | some (.directory place) => directory.walk place steps
    | some (.device _) => .error .notDirectory
    | none => .error (directory.obstacle place step)

def pieces (path : String) : List String := (path.toList.splitOn '/').map String.ofList

def Target.ofStep (place : Place) (step : String) (slash : Bool) : Target :=
  match place.step? step with
  | some (.directory _) => .directory
  | some (.device found) => .device found slash
  | none => .name place step slash

def target (directory : Directory) (path : String) : Except Refusal Target :=
  if pathLimit < path.utf8ByteSize then .error .nameTooLong
  else
    let start : Place := if (pieces path).head? = some "" then .outside [] else .here
    let steps := (pieces path).filter (· ≠ "")
    match steps.getLast? with
    | none => .ok .directory
    | some last =>
      (directory.walk start steps.dropLast).map fun place =>
        .ofStep place last ((pieces path).getLast? = some "")

def fetch (directory : Directory) : Target → Except Refusal (List UInt8)
  | .directory => .error .isDirectory
  | .device device slash => if slash then .error .notDirectory else device.content
  | .name place name slash =>
    if isTooLong place name then .error .nameTooLong
    else
      match place, directory.files.lookup name with
      | .here, some bytes => if slash then .error .notDirectory else .ok bytes
      | _, _ => .error .noSuchFile

def put (directory : Directory) (name : String) (bytes : List UInt8) : Directory :=
  ⟨(name, bytes) :: directory.files.filter (·.1 != name)⟩

structure Written where
  directory : Directory
  printed : Printed := {}
  deriving DecidableEq, Repr

/-- Puts bytes where a path leads. A name with a slash behind it would be a directory. What is made
outside is not kept. -/
def store (directory : Directory) (bytes : List UInt8) : Target → Except Refusal Written
  | .directory => .error .isDirectory
  | .device device slash =>
    if slash then .error .isDirectory else (device.write bytes).map (⟨directory, ·⟩)
  | .name place name slash =>
    if slash then .error .isDirectory
    else if isTooLong place name then .error .nameTooLong
    else if place = .here then .ok { directory := directory.put name bytes }
    else if place.isMadeUp then .error .noSuchFile
    else .ok { directory }

def read (directory : Directory) (path : String) : Except Refusal (List UInt8) :=
  (directory.target path).bind directory.fetch

def write (directory : Directory) (path : String) (bytes : List UInt8) :
    Except Refusal Written :=
  (directory.target path).bind (directory.store bytes)

/-- Files never help a walk, so it succeeds in every directory or in none. -/
theorem walk_eq_ok_congr (a b : Directory) (place arrived : Place) (steps : List String) :
    a.walk place steps = .ok arrived ↔ b.walk place steps = .ok arrived := by
  induction steps generalizing place with
  | nil => rfl
  | cons step steps ih =>
    unfold walk
    split
    · exact ih _
    · rfl
    · simp

theorem target_of_target {a : Directory} {path : String} {found : Target} (b : Directory)
    (h : a.target path = .ok found) : b.target path = .ok found := by
  unfold target at h ⊢
  by_cases long : pathLimit < path.utf8ByteSize
  · rw [if_pos long] at h
    cases h
  · rw [if_neg long] at h ⊢
    revert h
    dsimp only
    generalize List.filter _ (pieces path) = steps
    cases steps.getLast? with
    | none => exact id
    | some last =>
      intro h
      cases arrived : a.walk _ steps.dropLast with
      | error refusal =>
        rw [arrived] at h
        cases h
      | ok place =>
        rw [arrived] at h
        rw [(walk_eq_ok_congr a b _ _ _).1 arrived]
        exact h

end Directory

end Harvard16.CommandLine
