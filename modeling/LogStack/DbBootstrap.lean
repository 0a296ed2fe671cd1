/-
Preparing the database volume (`db-bootstrap.sh prepare` with `db-admin.py`).

A run chooses the device of the configured volume, formats it when it is blank, mounts it,
marks its file system as the database's and creates the cluster, each only when that is safe.

* `Volume`, `World` — what is on the volumes, and how the system sees them;
* `Command`, `commands` — the commands of the two scripts, with what each may do;
* `verifyMount`, `prepareMount`, `checkIdentity`, `verifyCluster`, `prepareCluster`, `prepare` —
  the functions of the scripts.

A Python exception and a failing command of the shell end the run there, as a kill does.
-/
import LogStack.BlockDevices
import LogStack.CommandScript
import LogStack.JsValue
import Mathlib.Logic.Function.Basic

namespace DbBootstrap

/-! ### File systems -/

/-- What a name in a directory stands for. -/
inductive Node where
  | file (content : Bytes) (uid mode : ℕ)
  | directory (entries : List (String × Node))
  | symlink (target : String)

/-- A directory; the first entry of a name counts. -/
abbrev Dir := List (String × Node)

namespace Dir

def find? (d : Dir) (name : String) : Option Node := d.lookup name

def names (d : Dir) : List String := d.map Prod.fst

def put (d : Dir) (name : String) (node : Node) : Dir :=
  (name, node) :: d.filter fun e => e.1 ≠ name

end Dir

/-- The content of a block device. An ext4 file system has a signature of its own. -/
inductive Volume where
  | unsigned
  | foreign (signature : String) (others : List String)
  | ext4 (root : Dir) (others : List String)

namespace Volume

/-- What `wipefs --no-act` lists. -/
def signatures : Volume → List String
  | unsigned => []
  | foreign signature others => signature :: others
  | ext4 _ others => "ext4" :: others

end Volume

/-- A line of `findmnt`. -/
structure Mount where
  target : String
  source : String
  fstype : String
  options : List String

/-- The places that the scripts look at. -/
inductive Place where
  /-- `MOUNT` -/
  | mount
  /-- `MOUNT / '.logstack-volume.json'` -/
  | marker
  /-- `MOUNT / 'lost+found'` -/
  | lostFound
  /-- `DATA`, which is `MOUNT / 'pgdata'` -/
  | data
  /-- `DATA / 'PG_VERSION'` -/
  | pgVersion

def MARKER : String := ".logstack-volume.json"

def LOST_FOUND : String := "lost+found"

def PGDATA : String := "pgdata"

structure World where
  /-- The volumes by their ids. -/
  volumes : String → Volume
  /-- The volume behind a device. -/
  attached : String → String
  /-- `readlink -f` -/
  canonical : String → String
  /-- Whether the target of a symbolic link leads to something. -/
  reachable : String → Bool
  /-- The mounts, the latest first. -/
  mounts : List Mount
  /-- What is at `MOUNT` when nothing is mounted there. -/
  mountDir : Option Node

namespace World

variable (w : World)

def mountsAt (target : String) : List Mount := w.mounts.filter fun m => m.target = target

/-- The volume whose file system is seen at `MOUNT`. -/
def shown : Option String :=
  (w.mountsAt MOUNT).head?.map fun m => w.attached (w.canonical m.source)

/-- The directory that is seen at `MOUNT`. -/
def root? : Option Dir :=
  match w.shown with
  | some v =>
    match w.volumes v with
    | .ext4 root _ => some root
    | _ => none
  | none =>
    match w.mountDir with
    | some (.directory entries) => some entries
    | _ => none

def node? : Place → Option Node
  | .mount =>
    match w.shown with
    | some _ => w.root?.map .directory
    | none => w.mountDir
  | .marker => w.root?.bind fun root => root.find? MARKER
  | .lostFound => w.root?.bind fun root => root.find? LOST_FOUND
  | .data => w.root?.bind fun root => root.find? PGDATA
  | .pgVersion =>
    match w.root?.bind fun root => root.find? PGDATA with
    | some (.directory entries) => Dir.find? entries "PG_VERSION"
    | _ => none

def isSymlink (p : Place) : Bool :=
  match w.node? p with
  | some (.symlink _) => true
  | _ => false

def isDirectory (p : Place) : Bool :=
  match w.node? p with
  | some (.directory _) => true
  | _ => false

def isFile (p : Place) : Bool :=
  match w.node? p with
  | some (.file _ _ _) => true
  | _ => false

/-- `Path.exists` and `-e` follow symbolic links. -/
def pathExists (p : Place) : Bool :=
  match w.node? p with
  | some (.symlink target) => w.reachable target
  | some _ => true
  | none => false

def setVolume (v : String) (volume : Volume) : World :=
  { w with volumes := Function.update w.volumes v volume }

/-- Give a name in the directory at `MOUNT` a new meaning. -/
def put (name : String) (node : Node) : World :=
  match w.shown with
  | some v =>
    match w.volumes v with
    | .ext4 root others => w.setVolume v (.ext4 (root.put name node) others)
    | _ => w
  | none =>
    match w.mountDir with
    | some (.directory entries) =>
      { w with mountDir := some (.directory (Dir.put entries name node)) }
    | _ => w

/-- `mkdir -p "$MOUNT"` -/
def makeMountDir : World :=
  match w.shown, w.mountDir with
  | none, none => { w with mountDir := some (.directory []) }
  | _, _ => w

def mounted (device : String) (options : List String) : World :=
  { w with mounts := ⟨MOUNT, device, "ext4", options⟩ :: w.mounts }

end World

/-- A file system that `mkfs.ext4` has made. -/
def formatted : Dir := [(LOST_FOUND, .directory [])]

/-- What a failed or broken `mkfs.ext4` may leave: the old content, a device without or with a
signature, or a file system, perhaps still without `lost+found`. -/
def Unfinished (volume volume' : Volume) : Prop :=
  volume' = volume ∨ volume' = .unsigned ∨
    (∃ signature others, volume' = .foreign signature others) ∨
    ∃ root others, volume' = .ext4 root others ∧ (root = [] ∨ root = formatted)

/-! ### Commands -/

/-- Checks that only read, or write outside of the volume. -/
inductive Precondition where
  | rootOnLinux
  | usage
  | commandsPresent
  | lock
  | checkImage
  | checkNoServer
  | ssmService
  | chronyService
  | waitsync
  | timeSource
  | controldata
  | privateSocketDir

/-- Programs that write in `pgdata` only. -/
inductive ClusterTask where
  | config
  | start
  | roles
  | stop

inductive Command where
  | check (p : Precondition)
  | lsblk
  | isBlockDevice (device : String)
  | isSymlink (p : Place)
  | isDirectory (p : Place)
  | isFile (p : Place)
  | pathExists (p : Place)
  | iterdir (p : Place)
  | readText (p : Place)
  | stat (p : Place)
  | findmnt (target : String)
  | readlink (path : String)
  /-- `find "$MOUNT" -mindepth 1 -maxdepth 1 -print -quit` -/
  | find
  | blkid (device : String)
  | wipefs (device : String)
  | mkdir
  | mkfs (device : String)
  | mount (device : String)
  /-- `marker.open('x')` -/
  | openMarker
  | chmodMarker (mode : ℕ)
  | writeMarker (content : Bytes)
  | fsyncMarker
  /-- `install -d "$DATA"` -/
  | installData
  | initdb
  | cluster (task : ClusterTask)

def Answer : Command → Type
  | .check _ | .isBlockDevice _ | .isSymlink _ | .isDirectory _ | .isFile _ | .pathExists _ => Bool
  | .lsblk => Option (List BlockNode)
  | .iterdir _ => List String
  | .readText _ => Bytes
  | .stat _ => ℕ × ℕ
  | .findmnt _ => List Mount
  | .readlink _ => String
  | .find => Bool
  | .blkid _ => ℕ × String
  | .wipefs _ => Option (List String)
  | .mkdir | .mkfs _ | .mount _ | .installData | .initdb | .cluster _ => Bool
  | .openMarker | .chmodMarker _ | .writeMarker _ | .fsyncMarker => Unit

/-- What a program on `pgdata` may leave there. -/
def ClusterWritten (w w' : World) : Prop :=
  w' = w ∨ ∃ entries entries', w.node? .data = some (.directory entries) ∧
    w' = w.put PGDATA (.directory entries')

/-- A completed command. `lsblk`, `blkid` and the checks answer anything; `wipefs` lists the
signatures that there are, or fails. -/
def Does : (c : Command) → World → Answer c → World → Prop
  | .check _, w, _, w' => w' = w
  | .lsblk, w, _, w' => w' = w
  | .isBlockDevice _, w, _, w' => w' = w
  | .isSymlink p, w, r, w' => w' = w ∧ r = w.isSymlink p
  | .isDirectory p, w, r, w' => w' = w ∧ r = w.isDirectory p
  | .isFile p, w, r, w' => w' = w ∧ r = w.isFile p
  | .pathExists p, w, r, w' => w' = w ∧ r = w.pathExists p
  | .iterdir p, w, r, w' => w' = w ∧ ∃ entries, w.node? p = some (.directory entries) ∧
      r = Dir.names entries
  | .readText p, w, r, w' => w' = w ∧ ∃ uid mode, w.node? p = some (.file r uid mode)
  | .stat p, w, r, w' => w' = w ∧ ∃ content, w.node? p = some (.file content r.1 r.2)
  | .findmnt target, w, r, w' => w' = w ∧ r = w.mountsAt target
  | .readlink path, w, r, w' => w' = w ∧ r = w.canonical path
  | .find, w, r, w' => w' = w ∧ ∀ root, w.root? = some root → (r = true ↔ root ≠ [])
  | .blkid _, w, _, w' => w' = w
  | .wipefs device, w, r, w' => w' = w ∧
      ∀ signatures, r = some signatures → signatures = (w.volumes (w.attached device)).signatures
  | .mkdir, w, true, w' => w' = w.makeMountDir
  | .mkfs device, w, true, w' => w' = w.setVolume (w.attached device) (.ext4 formatted [])
  | .mkfs device, w, false, w' => ∃ volume', Unfinished (w.volumes (w.attached device)) volume' ∧
      w' = w.setVolume (w.attached device) volume'
  | .mount device, w, true, w' => ∃ root others options,
      w.volumes (w.attached device) = .ext4 root others ∧ w' = w.mounted device options
  | .mkdir, w, false, w' | .mount _, w, false, w' | .installData, w, false, w' => w' = w
  | .openMarker, w, _, w' => w.node? .marker = none ∧ w' = w.put MARKER (.file [] 0 0o600)
  | .chmodMarker mode, w, _, w' => ∃ content uid mode',
      w.node? .marker = some (.file content uid mode') ∧
      w' = w.put MARKER (.file content uid mode)
  | .writeMarker content, w, _, w' => ∃ content' uid mode,
      w.node? .marker = some (.file content' uid mode) ∧ w' = w.put MARKER (.file content uid mode)
  | .fsyncMarker, w, _, w' => w' = w
  | .installData, w, true, w' =>
    w' = if (w.node? .data).isNone then w.put PGDATA (.directory []) else w
  | .initdb, w, _, w' => ClusterWritten w w'
  | .cluster _, w, _, w' => ClusterWritten w w'

/-- A broken command has done nothing, or it is as good as completed, or it has written the
beginning of a text. -/
def Breaks (c : Command) (w w' : World) : Prop :=
  w' = w ∨ (∃ r, Does c w r w') ∨
    match c with
    | .mkfs device => ∃ volume', Unfinished (w.volumes (w.attached device)) volume' ∧
        w' = w.setVolume (w.attached device) volume'
    | .writeMarker content => ∃ k content' uid mode,
        w.node? .marker = some (.file content' uid mode) ∧
          w' = w.put MARKER (.file (content.take k) uid mode)
    | _ => False

def commands : CommandSet World where
  Command := Command
  Answer := Answer
  Does := Does
  Breaks := Breaks

abbrev DbScript := Script commands

def check (p : Precondition) : DbScript Bool := Script.command (S := commands) (.check p)

def lsblk : DbScript (Option (List BlockNode)) := Script.command (S := commands) .lsblk

def isBlockDevice (device : String) : DbScript Bool :=
  Script.command (S := commands) (.isBlockDevice device)

def isSymlink (p : Place) : DbScript Bool := Script.command (S := commands) (.isSymlink p)

def isDirectory (p : Place) : DbScript Bool := Script.command (S := commands) (.isDirectory p)

def isFile (p : Place) : DbScript Bool := Script.command (S := commands) (.isFile p)

def pathExists (p : Place) : DbScript Bool := Script.command (S := commands) (.pathExists p)

def iterdir (p : Place) : DbScript (List String) := Script.command (S := commands) (.iterdir p)

def readText (p : Place) : DbScript Bytes := Script.command (S := commands) (.readText p)

def stat (p : Place) : DbScript (ℕ × ℕ) := Script.command (S := commands) (.stat p)

def findmnt (target : String) : DbScript (List Mount) :=
  Script.command (S := commands) (.findmnt target)

def readlink (path : String) : DbScript String := Script.command (S := commands) (.readlink path)

def find : DbScript Bool := Script.command (S := commands) .find

def blkid (device : String) : DbScript (ℕ × String) :=
  Script.command (S := commands) (.blkid device)

def wipefs (device : String) : DbScript (Option (List String)) :=
  Script.command (S := commands) (.wipefs device)

def mkdir : DbScript Bool := Script.command (S := commands) .mkdir

def mkfs (device : String) : DbScript Bool := Script.command (S := commands) (.mkfs device)

def mount (device : String) : DbScript Bool := Script.command (S := commands) (.mount device)

def openMarker : DbScript Unit := Script.command (S := commands) .openMarker

def chmodMarker (mode : ℕ) : DbScript Unit := Script.command (S := commands) (.chmodMarker mode)

def writeMarker (content : Bytes) : DbScript Unit :=
  Script.command (S := commands) (.writeMarker content)

def fsyncMarker : DbScript Unit := Script.command (S := commands) .fsyncMarker

def installData : DbScript Bool := Script.command (S := commands) .installData

def initdb : DbScript Bool := Script.command (S := commands) .initdb

def cluster (task : ClusterTask) : DbScript Bool := Script.command (S := commands) (.cluster task)

/-! ### The configuration -/

/-- `identity(c)`; the other three keys of the configuration are text as well. -/
structure Identity where
  volumeId : String
  database : String
  migrationRole : String
  applicationRole : String
  deriving DecidableEq

structure Config extends Identity where
  allowBlankVolumeInit : Bool

/-- The JSON text of an identity. `read` answers `none` where `json.loads` fails or gives a value
that is no such dictionary. -/
structure MarkerText where
  write : Identity → Bytes
  read : Bytes → Option Identity

/-- Whether the marker was there. -/
inductive Prepared where
  | new
  | existing
  deriving DecidableEq

open Script (require)

variable (T : MarkerText) (c : Config)

/-! ### `db-admin.py` -/

/-- Arbitrary ext4 or backup data is never adopted automatically. -/
def checkBlank : DbScript Unit := do
  require (∀ name ∈ ← iterdir .mount, name = LOST_FOUND)
  if (← pathExists .lostFound) = true then do
    require ((← isSymlink .lostFound) = false)
    require ((← iterdir .lostFound) = [])

def createMarker : DbScript Unit := do
  openMarker
  chmodMarker 0o600
  writeMarker (T.write c.toIdentity)
  fsyncMarker

def checkMarker : DbScript Unit := do
  require (T.read (← readText .marker) = some c.toIdentity)
  require ((← stat .marker) = (0, 0o600))

/-- `check_identity`. A link named `lost+found` is refused only where it leads somewhere. -/
def checkIdentity (prepare : Bool) : DbScript Prepared := do
  require ((← isSymlink .marker) = false)
  if (← pathExists .marker) = false then do
    require (prepare = true ∧ c.allowBlankVolumeInit = true)
    checkBlank
    createMarker T c
    checkMarker T c
    pure .new
  else do
    checkMarker T c
    pure .existing

/-! ### `db-bootstrap.sh` -/

/-- One column of `findmnt -rn --mountpoint`. Without a line it fails, and several lines are not
the name of a device. -/
def column (target : String) (f : Mount → α) : DbScript α := do
  match ← findmnt target with
  | [m] => pure (f m)
  | _ => .die

/-- The canonical sources of what is mounted at a place. -/
def canonicalSources : List Mount → DbScript (List String)
  | [] => pure []
  | m :: ms => do
    let source ← readlink m.source
    let sources ← canonicalSources ms
    pure (source :: sources)

def verifyMount (device : String) : DbScript Unit := do
  require ((← isSymlink .mount) = false)
  require ((← isDirectory .mount) = true)
  let source ← column MOUNT Mount.source
  let fstype ← column MOUNT Mount.fstype
  let options ← column MOUNT Mount.options
  require ((← readlink source) = device)
  require (fstype = "ext4")
  require ("rw" ∈ options ∧ "nodev" ∈ options ∧ "nosuid" ∈ options ∧ "noexec" ∈ options)
  let atRoot ← findmnt "/"
  require ((← canonicalSources atRoot) ≠ [device])

/-- The type of the file system that `blkid` sees; code 2 says that it sees none. -/
def fileSystemType (device : String) : DbScript String := do
  let (code, fs) ← blkid device
  if code = 0 then pure fs
  else do
    require (code = 2)
    pure ""

/-- A device without any file system is formatted, if it carries no signature of any type. -/
def formatBlank (device : String) : DbScript Unit := do
  let fs ← fileSystemType device
  if fs = "" then do
    require (c.allowBlankVolumeInit = true)
    require ((← wipefs device) = some [])
    require ((← mkfs device) = true)
  else require (fs = "ext4")

def prepareMount (device : String) : DbScript Unit := do
  require ((← isSymlink .mount) = false)
  require ((← mkdir) = true)
  if (← findmnt MOUNT) ≠ [] then verifyMount device
  else do
    require ((← find) = false)
    formatBlank c device
    require ((← mount device) = true)
    verifyMount device

/-- The text of `$(<file)` is `16`, whatever line breaks follow. -/
def isVersion16 (text : Bytes) : Bool :=
  text.take 2 = [0x31, 0x36] && (text.drop 2).all fun b => b = 0x0a

def verifyCluster (device : String) : DbScript Unit := do
  verifyMount device
  require ((← isSymlink .data) = false)
  require ((← isFile .pgVersion) = true)
  require (isVersion16 (← readText .pgVersion) = true)
  let _ ← checkIdentity T c false
  require ((← check .controldata) = true)

/-- A failed or partial initialisation is preserved and not retried. -/
def createCluster (identity : Prepared) : DbScript Unit := do
  if (← pathExists .data) = false then do
    require (identity = .new)
    require ((← installData) = true)
    require ((← initdb) = true)

/-- `die` behind the start of the server, with the trap that stops it. -/
def dieStopping : DbScript Unit := do
  let _ ← cluster .stop
  .die

def configureCluster : DbScript Unit := do
  require ((← cluster .config) = true)
  require ((← check .privateSocketDir) = true)
  require ((← cluster .start) = true)
  if (← cluster .roles) = true then do
    if (← cluster .stop) = true then pure ()
    else dieStopping
  else dieStopping

def prepareCluster (device : String) : DbScript Unit := do
  verifyMount device
  let identity ← checkIdentity T c true
  createCluster identity
  verifyCluster T c device
  configureCluster

/-- The attempts to choose the device. `device` fails when the volume is not attached yet. -/
def selectDevice : ℕ → DbScript String
  | 0 => pure ""
  | attempts + 1 => do
    match (← lsblk).bind fun tree => chooseDevice tree c.volumeId with
    | some device => pure device
    | none => selectDevice attempts

def requireAll : List Precondition → DbScript Unit
  | [] => pure ()
  | p :: ps => do
    require ((← check p) = true)
    requireAll ps

/-- `main prepare` -/
def prepare : DbScript Unit := do
  requireAll [.rootOnLinux, .usage, .commandsPresent, .lock, .checkImage]
  let device ← selectDevice c 120
  require (device ≠ "")
  require ((← isBlockDevice device) = true)
  requireAll [.checkNoServer, .ssmService, .chronyService, .waitsync, .timeSource]
  prepareMount c device
  prepareCluster T c device

end DbBootstrap
