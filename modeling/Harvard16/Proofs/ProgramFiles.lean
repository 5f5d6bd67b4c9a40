import Harvard16.CommandLine.Commands
import Harvard16.Proofs.Faithfulness
import Harvard16.Proofs.Images

/-! Files of programs. A program can be kept as source, as a binary image and as a bit dump, and the
extension of a path tells which of them its file is. Main statement: where an image of a correct source has
been written and is read as it was written, to run or to disassemble the image is to run or to
disassemble the source, whatever the options are and whatever comes of it. -/
namespace Harvard16.CommandLine

def nameExtension (name : List Char) : List Char :=
  match name.reverse.dropWhile (· != '.') with
  | _ :: _ :: _ => (name.reverse.takeWhile (· != '.')).reverse
  | _ => []

theorem extension_of_last {path step : String}
    (last : ((Directory.pieces path).filter (· ≠ "")).getLast? = some step) (named : step ≠ ".") :
    extension path = nameExtension step.toList := by
  have shape : (Directory.pieces path).filter (· ≠ "") =
      ((path.toList.splitOn '/').filter (!·.isEmpty)).map String.ofList := by
    rw [Directory.pieces, List.filter_map]
    congr 1
    apply List.filter_congr
    intro l _
    cases l <;> simp
  rw [shape, List.getLast?_map, Option.map_eq_some_iff] at last
  obtain ⟨l, final, rfl⟩ := last
  obtain ⟨before, whole⟩ := List.getLast?_eq_some_iff.1 final
  have other : l ≠ ['.'] := by
    rintro rfl
    exact named rfl
  have steps : (path.toList.splitOn '/').filter (fun step => !step.isEmpty && step != ['.']) =
      before.filter (· != ['.']) ++ [l] := by
    rw [← List.filter_filter, List.filter_comm, whole, List.filter_append]
    simp [other]
  rw [extension, steps]
  simp only [List.getLast?_concat, Option.getD_some, String.toList_ofList]
  rfl

namespace Directory

theorem extension_of_target {directory : Directory} {path name : String} {place : Place} {slash : Bool}
    (found : directory.target path = .ok (.name place name slash)) :
    extension path = nameExtension name.toList := by
  unfold target at found
  split at found
  · cases found
  · dsimp only at found
    cases last : ((pieces path).filter (· ≠ "")).getLast? with
    | none =>
      rw [last] at found
      cases found
    | some step =>
      rw [last] at found
      cases walked : directory.walk _ ((pieces path).filter (· ≠ "")).dropLast with
      | error refusal =>
        rw [walked] at found
        cases found
      | ok arrived =>
        rw [walked] at found
        replace found : Target.ofStep arrived step _ = .name place name slash := Except.ok.inj found
        unfold Target.ofStep at found
        split at found
        · cases found
        · cases found
        · rename_i unknown
          cases found
          apply extension_of_last last
          rintro rfl
          cases place <;> cases unknown

theorem write_cases {directory : Directory} {path : String} {bytes : List UInt8} {written : Written}
    (wrote : directory.write path bytes = .ok written) :
    written.directory = directory ∨
      ∃ name, directory.target path = .ok (.name .here name false) ∧
        written.directory = directory.put name bytes := by
  unfold write at wrote
  cases found : directory.target path with
  | error refusal =>
    rw [found] at wrote
    cases wrote
  | ok goal =>
    rw [found] at wrote
    replace wrote : directory.store bytes goal = .ok written := wrote
    cases goal with
    | directory => cases wrote
    | device device slash =>
      unfold store at wrote
      dsimp only at wrote
      split at wrote
      · cases wrote
      · cases printed : device.write bytes with
        | error refusal =>
          rw [printed] at wrote
          cases wrote
        | ok printed =>
          rw [printed] at wrote
          cases wrote
          exact .inl rfl
    | name place name slash =>
      unfold store at wrote
      dsimp only at wrote
      cases slash with
      | true => cases wrote
      | false =>
        rw [if_neg Bool.false_ne_true] at wrote
        split at wrote
        · cases wrote
        · split at wrote
          · rename_i here
            cases wrote
            exact .inr ⟨name, by rw [here], rfl⟩
          · split at wrote <;> cases wrote
            exact .inl rfl

theorem lookup_put {directory : Directory} {name other : String} (apart : other ≠ name)
    (bytes : List UInt8) : (directory.put name bytes).files.lookup other = directory.files.lookup other := by
  have first : (other == name) = false := by simpa using apart
  rw [put, List.lookup_cons, first]
  induction directory.files with
  | nil => rfl
  | cons file files ih =>
    obtain ⟨held, contents⟩ := file
    by_cases same : held = name
    · rw [List.filter_cons_of_neg (by simpa using same), List.lookup_cons, same, first]
      exact ih
    · rw [List.filter_cons_of_pos (by simpa using same), List.lookup_cons, List.lookup_cons]
      cases other == held with
      | true => rfl
      | false => exact ih

theorem read_of_apart {directory : Directory} {path other : String} {bytes contents : List UInt8}
    {written : Written} (wrote : directory.write path bytes = .ok written)
    (apart : extension other ≠ extension path) (held : directory.read other = .ok contents) :
    written.directory.read other = .ok contents := by
  rcases write_cases wrote with same | ⟨name, found, changed⟩
  · rw [same]
    exact held
  · unfold read at held ⊢
    cases reached : directory.target other with
    | error refusal =>
      rw [reached] at held
      cases held
    | ok goal =>
      rw [reached] at held
      rw [target_of_target written.directory reached, changed]
      cases goal with
      | directory => exact held
      | device device slash => exact held
      | name place another slash =>
        have different : another ≠ name := by
          rintro rfl
          exact apart ((extension_of_target reached).trans (extension_of_target found).symm)
        have same : (directory.put name bytes).fetch (.name place another slash) =
            directory.fetch (.name place another slash) := by
          unfold fetch
          dsimp only
          rw [lookup_put different]
        exact same.trans held

end Directory

def imageBytes (dump : Bool) (words : List UInt16) : List UInt8 :=
  if dump then (Image.BitDump.text words).toUTF8.data.toList else Image.toBytes words

def NamesSource (path : String) : Prop :=
  String.ofList (extension path) = "asm" ∨ String.ofList (extension path) = "s"

def NamesDump (path : String) : Prop :=
  String.ofList (extension path) = "hex" ∨ String.ofList (extension path) = "txt"

/-- Whether the file of a path is taken for the image that it is. -/
def NamesImage (dump : Bool) (path : String) : Prop :=
  if dump then NamesDump path else ¬NamesSource path ∧ ¬NamesDump path

theorem fromUTF8?_toUTF8 (text : String) :
    String.fromUTF8? ⟨text.toUTF8.data.toList.toArray⟩ = some text := by
  have bytes : (⟨text.toUTF8.data.toList.toArray⟩ : ByteArray) = text.toUTF8 := by simp
  rw [bytes]
  unfold String.fromUTF8?
  rw [String.toUTF8_eq_toByteArray, dif_pos text.isValidUTF8]
  rfl

section

variable {directory : Directory} {path : String}

theorem play_readText {text : String} (held : directory.read path = .ok text.toUTF8.data.toList)
    (next : Except String String → Session) :
    (readText path next).play directory = (next (.ok text)).play directory := by
  rw [readText, Session.play, held]
  simp only [Except.mapError, fromUTF8?_toUTF8]

/-- A path whose file is read as these words. -/
def Reads (directory : Directory) (path : String) (words : List UInt16) : Prop :=
  ∀ next, (readProgram path next).play directory = (next words).play directory

theorem play_readSource {source : String} (held : directory.read path = .ok source.toUTF8.data.toList)
    (correct : (Assembly.ofSource source).errors = []) (next : Assembly → Session) :
    (readSource path next).play directory = (next (Assembly.ofSource source)).play directory := by
  have sound : (Assembly.ofSource source).isOk = true := by simp [Assembly.isOk, correct]
  rw [readSource, play_readText held]
  simp only [sound, if_true]

theorem reads_source {source : String} (named : NamesSource path)
    (held : directory.read path = .ok source.toUTF8.data.toList)
    (correct : (Assembly.ofSource source).errors = []) :
    Reads directory path (Assembly.ofSource source).words := by
  intro next
  have read := play_readSource held correct fun assembly => next assembly.words
  unfold readProgram
  rcases named with named | named <;> simp only [named] <;> exact read

theorem reads_image {dump : Bool} {words : List UInt16} (few : words.length ≤ Text.counterBound)
    (named : NamesImage dump path) (held : directory.read path = .ok (imageBytes dump words)) :
    Reads directory path words := by
  intro next
  cases dump with
  | true =>
    have content : directory.read path = .ok (Image.BitDump.text words).toUTF8.data.toList := held
    have dumpRead := play_readText content
    unfold readProgram
    rcases named with named | named <;>
      simp only [named, dumpRead, Image.BitDump.read_text few]
  | false =>
    obtain ⟨noSource, noDump⟩ := named
    unfold readProgram
    dsimp only
    split
    · rename_i same
      exact absurd (.inl same) noSource
    · rename_i same
      exact absurd (.inr same) noSource
    · rename_i same
      exact absurd (.inl same) noDump
    · rename_i same
      exact absurd (.inr same) noDump
    · rw [Session.play, held]
      simp only [Except.mapError, imageBytes, Bool.false_eq_true, if_false, Image.ofBytes_toBytes]

end

section

variable {a b : Directory}

/-- A session ends in one directory as another one ends in another: with the same report, without having
printed anything else and without a change of any file. -/
def EndAlike (a b : Directory) (session other : Session) : Prop :=
  ∃ report, session.play a = { report, directory := a } ∧ other.play b = { report, directory := b }

theorem endAlike_finish (report : Report) : EndAlike a b (.finish report) (.finish report) :=
  ⟨report, rfl, rfl⟩

theorem endAlike_readConfig {file : Option String}
    (same : ∀ path, file = some path → b.read path = a.read path) {next other : Config → Session}
    (alike : ∀ config, EndAlike a b (next config) (other config)) :
    EndAlike a b (readConfig file next) (readConfig file other) := by
  cases file with
  | none => exact alike .default
  | some path =>
    unfold EndAlike readConfig readText
    dsimp only
    rw [Session.play, Session.play, same path rfl]
    cases a.read path with
    | error refusal => exact endAlike_finish _
    | ok bytes =>
      dsimp only [Except.mapError]
      cases String.fromUTF8? ⟨bytes.toArray⟩ with
      | none => exact endAlike_finish _
      | some text =>
        dsimp only
        cases Config.parse text.toList with
        | error error => exact endAlike_finish _
        | ok config => exact alike config

theorem endAlike_readProgram {path other : String} {words : List UInt16} (reads : Reads a path words)
    (readsOther : Reads b other words) {next : List UInt16 → Session}
    (alike : EndAlike a b (next words) (next words)) :
    EndAlike a b (readProgram path next) (readProgram other next) := by
  unfold EndAlike
  rw [reads, readsOther]
  exact alike

theorem endAlike_run {path other : String} {words : List UInt16} (reads : Reads a path words)
    (readsOther : Reads b other words) (options : RunOptions)
    (same : ∀ file, options.config = some file → b.read file = a.read file) :
    EndAlike a b (runProgram path options) (runProgram other options) := by
  apply endAlike_readConfig same
  intro config
  apply endAlike_readProgram reads readsOther
  split
  · exact endAlike_finish _
  · split
    · exact endAlike_finish _
    · split <;> exact endAlike_finish _

end

theorem play_disassemble {directory : Directory} {path : String} {words : List UInt16}
    (reads : Reads directory path words) :
    (disassembleFile path).play directory =
      { report := ⟨0, Disassembly.text words, []⟩, directory } :=
  reads _

theorem play_assemble {directory : Directory} {program source image : String} {dump : Bool}
    {written : Directory.Written} (held : directory.read program = .ok source.toUTF8.data.toList)
    (correct : (Assembly.ofSource source).errors = [])
    (wrote : directory.write image (imageBytes dump (Assembly.ofSource source).words) = .ok written) :
    (assembleFile program (some image) dump).play directory =
      { report := ⟨0, s!"✅ Wrote {(Assembly.ofSource source).words.length} words to {image}\n", []⟩
        directory := written.directory
        printed := written.printed } := by
  rw [assembleFile, play_readSource held correct]
  dsimp only
  rw [Session.play]
  change directory.write image _ = _ at wrote
  unfold imageBytes at wrote
  rw [wrote]
  simp only [Session.play, Printed.append, List.append_nil]

theorem extension_ne {dump : Bool} {program image : String} (programNamed : NamesSource program)
    (imageNamed : NamesImage dump image) : extension program ≠ extension image := by
  intro same
  have sourceNamed : NamesSource image := by
    rw [NamesSource, ← same]
    exact programNamed
  cases dump with
  | false => exact imageNamed.1 sourceNamed
  | true =>
    have dumpNamed : NamesDump image := imageNamed
    rcases sourceNamed with first | first <;> rcases dumpNamed with second | second <;>
      exact absurd (first.symm.trans second) (by decide)

/-- An image of a correct source, written and read as it was written, runs and is disassembled as the source
is: after the write with any options, and as before it if the configuration is still the same. -/
theorem image_alike {directory : Directory} {written : Directory.Written} {program source image : String}
    {dump : Bool} (programNamed : NamesSource program) (imageNamed : NamesImage dump image)
    (held : directory.read program = .ok source.toUTF8.data.toList)
    (correct : (Assembly.ofSource source).errors = [])
    (wrote : directory.write image (imageBytes dump (Assembly.ofSource source).words) = .ok written)
    (returned : written.directory.read image = .ok (imageBytes dump (Assembly.ofSource source).words)) :
    (Command.assemble program (some image) dump).session.play directory =
      { report := ⟨0, s!"✅ Wrote {(Assembly.ofSource source).words.length} words to {image}\n", []⟩
        directory := written.directory
        printed := written.printed } ∧
    (∀ options, EndAlike written.directory written.directory (Command.run program options).session
      (Command.run image options).session) ∧
    (∀ options : RunOptions,
      (∀ file, options.config = some file → written.directory.read file = directory.read file) →
      EndAlike directory written.directory (Command.run program options).session
        (Command.run image options).session) ∧
    (Command.disassemble program).session.play directory =
      { report := ⟨0, Disassembly.text (Assembly.ofSource source).words, []⟩, directory } ∧
    (Command.disassemble image).session.play written.directory =
      { report := ⟨0, Disassembly.text (Assembly.ofSource source).words, []⟩
        directory := written.directory } := by
  have few : (Assembly.ofSource source).words.length ≤ Text.counterBound :=
    (Assembly.length_words_le source).trans (by decide)
  have apart := extension_ne programNamed imageNamed
  have kept := Directory.read_of_apart wrote apart held
  have reads := reads_source programNamed held correct
  have readsAfter := reads_source programNamed kept correct
  have readsImage := reads_image few imageNamed returned
  refine ⟨play_assemble held correct wrote, fun options => ?_, fun options same => ?_,
    play_disassemble reads, play_disassemble readsImage⟩
  · exact endAlike_run readsAfter readsImage options fun _ _ => rfl
  · exact endAlike_run reads readsImage options same

def shelf : Directory := ⟨[("p.asm", "go: jal zero, go".toUTF8.data.toList)]⟩

def shelfWithDump : Directory := shelf.put "q.hex" (imageBytes true [0xC000])

theorem image_alike_looping :
    NamesSource "p.asm" ∧ NamesImage true "q.hex" ∧
      shelf.read "p.asm" = .ok "go: jal zero, go".toUTF8.data.toList ∧
      (Assembly.ofSource "go: jal zero, go").errors = [] ∧
      shelf.write "q.hex" (imageBytes true [0xC000]) = .ok { directory := shelfWithDump } ∧
      shelfWithDump.read "q.hex" = .ok (imageBytes true [0xC000]) ∧
      EndAlike shelf shelfWithDump (Command.run "p.asm" ⟨some 7, true, true, false, none⟩).session
        (Command.run "q.hex" ⟨some 7, true, true, false, none⟩).session := by
  have programNamed : NamesSource "p.asm" := .inl (by decide +kernel)
  have imageNamed : NamesImage true "q.hex" := .inl (by decide +kernel)
  have held : shelf.read "p.asm" = .ok "go: jal zero, go".toUTF8.data.toList := by decide +kernel
  have correct : (Assembly.ofSource "go: jal zero, go").errors = [] := by decide +kernel
  have words : (Assembly.ofSource "go: jal zero, go").words = [0xC000] := by decide +kernel
  have wrote : shelf.write "q.hex" (imageBytes true [0xC000]) = .ok { directory := shelfWithDump } := by
    decide +kernel
  have returned : shelfWithDump.read "q.hex" = .ok (imageBytes true [0xC000]) := by decide +kernel
  refine ⟨programNamed, imageNamed, held, correct, wrote, returned, ?_⟩
  rw [← words] at wrote returned
  obtain ⟨-, -, alike, -⟩ := image_alike programNamed imageNamed held correct wrote returned
  exact alike ⟨some 7, true, true, false, none⟩ nofun

end Harvard16.CommandLine
