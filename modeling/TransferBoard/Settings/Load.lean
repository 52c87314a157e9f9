import TransferBoard.Disk.Tree
import TransferBoard.Settings.Config
import TransferBoard.Toml.Document

/-!
# Loading the settings

The settings are kept in a file. What the file does not say keeps its usual value, and
what it says besides is passed over; a file with a fault, or with a setting of the wrong
type, is refused. Without a file one is written.

## Main definitions

* `BaseDirs` — where the files of the user are.
* `Config.ofEntries?`, `Config.ofText?` — the settings that a file stands for.
* `Config.load` — loads the settings, or writes the usual ones.
-/

namespace TransferBoard

/-! ### Places -/

/-- Where the files of the user are. -/
structure BaseDirs where
  /-- The home directory. -/
  home : Path
  /-- The directory for settings, if it is not the usual one. -/
  configHome : Option Path := none
  /-- The directory for what is kept between runs, if it is not the usual one. -/
  stateHome : Option Path := none
  deriving DecidableEq, Repr

namespace BaseDirs

/-- The directory of the program among those of others. -/
def programDir : String := "tdash"

/-- The file with the settings. -/
def configFile (dirs : BaseDirs) : Path :=
  ((dirs.configHome.getD (dirs.home.child ".config")).child programDir).child "config.toml"

/-- The file that the program logs to. -/
def logFile (dirs : BaseDirs) : Path :=
  let stateDir := dirs.stateHome.getD ((dirs.home.child ".local").child "state")
  (stateDir.child programDir).child "tdash.log"

end BaseDirs

/-! ### Settings from a file -/

namespace Toml

/-- A number of things; none is negative. -/
def count? : Toml → Option Nat
  | .whole n => if 0 ≤ n then some n.toNat else none
  | _ => none

/-- A list or a table with nothing in it. -/
def isEmpty : Toml → Bool
  | .list items => items.isEmpty
  | .braces entries => entries.isEmpty
  | .table _ entries => entries.isEmpty
  | _ => false

/-- A choice: its name, or a table that has something empty under its name and nothing
else. -/
def choice? : Toml → Option String
  | .text name => some name
  | .braces [(name, value)] => if value.isEmpty then some name else none
  | .table _ [(name, value)] => if value.isEmpty then some name else none
  | _ => none

/-- A kind of digest, by its name in small letters. -/
def kind? (value : Toml) : Option DigestKind :=
  value.choice?.bind fun name => [DigestKind.md5, .sha256].find? fun k => k.word == name

end Toml

/-- Reads the setting under a key. Without one the usual value stays. -/
def TomlEntries.setting {α : Type} (entries : TomlEntries) (key : String) (usual : α)
    (read : Toml → Option α) : Option α :=
  match entries.find? key with
  | some value => read value
  | none => some usual

namespace Config

/-- The settings that entries stand for; nothing if one has the wrong type. -/
def ofEntries? (entries : TomlEntries) : Option Config := do
  let usual : Config := {}
  let controlPollMs ← entries.setting "control_poll_ms" usual.controlPollMs Toml.count?
  let redrawIntervalMs ← entries.setting "redraw_interval_ms" usual.redrawIntervalMs Toml.count?
  let completionWaitSecs ←
    entries.setting "completion_wait_secs" usual.completionWaitSecs Toml.count?
  let maxConcurrentTransfers ←
    entries.setting "max_concurrent_transfers" usual.maxConcurrentTransfers Toml.count?
  let copyBufferBytes ← entries.setting "copy_buffer_bytes" usual.copyBufferBytes Toml.count?
  let defaultDigest ←
    entries.setting "default_checksum" usual.defaultDigest fun v => v.kind?.map some
  return { controlPollMs, redrawIntervalMs, completionWaitSecs, maxConcurrentTransfers,
           copyBufferBytes, defaultDigest }

/-- The settings that a text stands for; nothing if it has a fault. -/
def ofText? (text : String) : Option Config := (Toml.ofText? text).bind ofEntries?

end Config

/-- Why there are no settings. -/
inductive ConfigError where
  /-- The file cannot be read or written. -/
  | file (cause : OsError)
  /-- The file has a fault. -/
  | malformed
  deriving DecidableEq, Repr

/-- The wording of settings that cannot be loaded. -/
def ConfigError.message : ConfigError → String
  | file cause => cause.message
  | malformed => "TOML parse error"

/-- Every byte of a text file. -/
def readText (d : Disk) (path : Path) : Except OsError String := do
  match ← d.openRead path with
  | (_, .file contents) =>
    match String.fromUTF8? ⟨contents⟩ with
    | some text => .ok text
    | none => .error .notText
  | (place, _) => (d.readAt place 0 0).map fun _ => ""

namespace Config

/-- Makes the directory that a file is in. -/
def makeParent (d : Disk) (path : Path) : Except OsError Unit × Disk :=
  match path.parent? with
  | some dir => d.makeDirs dir
  | none => (.ok (), d)

/-- Loads the settings from a file. Without a file, the usual settings are written
there. -/
def load (d : Disk) (path : Path) : Except ConfigError Config × Disk :=
  match makeParent d path with
  | (.error e, d) => (.error (.file e), d)
  | (.ok (), d) =>
    if d.pathExists path then
      match readText d path with
      | .error e => (.error (.file e), d)
      | .ok text =>
        match ofText? text with
        | some config => (.ok config, d)
        | none => (.error .malformed, d)
    else
      match d.writeFile path defaultText.toUTF8.data with
      | .error e => (.error (.file e), d)
      | .ok d' => (.ok {}, d')

end Config

end TransferBoard
