import ContentSchema.Files.Path
import ContentSchema.Text.Utf8
import ContentSchema.Value.Display

/-!
# File systems

A file system as a value: what stands at each location.  Reading finds a file's text or says why
there is none.  Writing makes the directories on the way, fills a fresh file beside the target and
moves it into place, so that a failure leaves every earlier file as it was.
-/

namespace ContentSchema

/-- Names from the root down to a file or directory. -/
abbrev Location := List String

/-- What stands at a location. -/
inductive Node where
  /-- A file with its bytes. -/
  | file (bytes : List UInt8)
  /-- A directory. -/
  | directory
deriving DecidableEq

/-- Files and directories, and the directory at which relative paths begin. -/
structure FileSystem where
  /-- Where relative paths begin. -/
  here : Location
  /-- What stands where; the root is a directory and not listed. -/
  nodes : List (Location × Node)

/-- Why an operation on files fails. -/
inductive FileCause where
  /-- There is nothing at the path. -/
  | missing
  /-- There is something at the path already. -/
  | exists
  /-- A file stands where the path goes through. -/
  | notDirectory
  /-- A directory stands where a file should be. -/
  | isDirectory
  /-- The name of a file that moves into a directory is taken there. -/
  | taken
  /-- A null character stands in the path. -/
  | nullByte
deriving DecidableEq, Repr

/-- A failed operation on a path. -/
structure FileFault where
  /-- What went wrong. -/
  cause : FileCause
  /-- The path. -/
  path : Path
deriving DecidableEq, Repr

/-- The message about a path for which an operation fails with the given number and words. -/
def Path.numberedMessage (p : Path) (number : Nat) (words : String) : String :=
  "[Errno " ++ toString number ++ "] " ++ words ++ ": " ++ displayText p.text

/-- The message about a failed operation.  Most causes are known by a number; a move that is not
tried and a path that no file can have are refused with none. -/
def FileFault.message (f : FileFault) : String :=
  match f.cause with
  | .missing => f.path.numberedMessage 2 "No such file or directory"
  | .exists => f.path.numberedMessage 17 "File exists"
  | .notDirectory => f.path.numberedMessage 20 "Not a directory"
  | .isDirectory => f.path.numberedMessage 21 "Is a directory"
  | .taken =>
    let directory := f.path.parent.text
    "Destination path '" ++ directory ++ (if directory.endsWith "/" then "" else "/") ++
      f.path.name ++ "' already exists"
  | .nullByte => "embedded null byte"

/-- Why a file has no text. -/
inductive TextFault where
  /-- The file cannot be read. -/
  | file (fault : FileFault)
  /-- Its bytes are no text. -/
  | bytes (fault : Text.ByteFault)
deriving DecidableEq, Repr

/-- The message about a file without text. -/
def TextFault.message : TextFault → String
  | file fault => fault.message
  | bytes fault => fault.message

namespace FileSystem

/-! ### Looking up -/

/-- What stands at a location. -/
def node? (fs : FileSystem) (place : Location) : Option Node :=
  if place = [] then some .directory else fs.nodes.lookup place

/-- The location that a name leads to from a directory. -/
def step (place : Location) (name : String) : Location :=
  if name = ".." then place.dropLast else place ++ [name]

/-- Follows names from a location to the location that they lead to, where something stands. -/
def follow (fs : FileSystem) (place : Location) : List String → Except FileCause Location
  | [] => .ok place
  | name :: rest =>
    match fs.node? place with
    | some .directory =>
      match fs.node? (step place name) with
      | some _ => follow fs (step place name) rest
      | none => .error .missing
    | some (.file _) => .error .notDirectory
    | none => .error .missing

/-- Where a path begins. -/
def start (fs : FileSystem) (p : Path) : Location := if p.root = "" then fs.here else []

/-- The location of a path, if something stands there. -/
def locate (fs : FileSystem) (p : Path) : Except FileCause Location := fs.follow (fs.start p) p.names

/-- What stands at a path. -/
def find (fs : FileSystem) (p : Path) : Except FileCause Node := do
  match fs.node? (← fs.locate p) with
  | some node => .ok node
  | none => .error .missing

/-- Whether something stands at a path. -/
def has (fs : FileSystem) (p : Path) : Bool := (fs.find p).isOk

/-- Whether a directory stands at a path. -/
def hasDirectory (fs : FileSystem) (p : Path) : Bool :=
  match fs.find p with
  | .ok .directory => true
  | _ => false

/-- Whether a file stands at a path. -/
def hasFile (fs : FileSystem) (p : Path) : Bool :=
  match fs.find p with
  | .ok (.file _) => true
  | _ => false

/-! ### Reading -/

/-- The bytes of the file at a path. -/
def readBytes (fs : FileSystem) (p : Path) : Except FileFault (List UInt8) :=
  if p.holdsNull then .error ⟨.nullByte, p⟩
  else
    match fs.find p with
    | .ok (.file bytes) => .ok bytes
    | .ok .directory => .error ⟨.isDirectory, p⟩
    | .error cause => .error ⟨cause, p⟩

/-- The text of the file at a path, with line feeds at the ends of its lines. -/
def readText (fs : FileSystem) (p : Path) : Except TextFault (List Char) := do
  let bytes ← (fs.readBytes p).mapError .file
  let text ← (Text.decode bytes).mapError .bytes
  return Text.withLineFeeds text

/-! ### Writing -/

/-- Puts a node at a location, in place of the one that stood there. -/
def put (fs : FileSystem) (place : Location) (node : Node) : FileSystem :=
  { fs with nodes := (place, node) :: fs.nodes.filter fun e => e.1 ≠ place }

/-- Removes what stands at a location. -/
def remove (fs : FileSystem) (place : Location) : FileSystem :=
  { fs with nodes := fs.nodes.filter fun e => e.1 ≠ place }

/-- Makes the directory `p`, whose parent stands at a path that exists. -/
def makeDirectory (fs : FileSystem) (p : Path) : Except FileFault FileSystem :=
  match fs.locate p.parent with
  | .error cause => .error ⟨cause, p⟩
  | .ok place =>
    match fs.node? place with
    | some .directory =>
      match fs.node? (step place p.name) with
      | some _ => .error ⟨.exists, p⟩
      | none => .ok (fs.put (step place p.name) .directory)
    | _ => .error ⟨.notDirectory, p⟩

/-- Makes a directory with the given names below a root, last name first, and first those on the
way that are missing.  What was made stays, also if a later step fails. -/
def makeWay (root : String) : List String → FileSystem → Except FileFault Unit × FileSystem
  | [], fs => (.ok (), fs)
  | name :: up, fs =>
    let p : Path := ⟨root, (name :: up).reverse⟩
    match fs.makeDirectory p with
    | .ok fs => (.ok (), fs)
    | .error fault =>
      -- only a missing parent is made; any other failure stands
      if fs.hasDirectory p then (.ok (), fs)
      else if fault.cause = .missing then
        match makeWay root up fs with
        | (.ok (), fs) =>
          match fs.makeDirectory p with
          | .ok fs => (.ok (), fs)
          | .error fault => if fs.hasDirectory p then (.ok (), fs) else (.error fault, fs)
        | failed => failed
      else (.error fault, fs)

/-- Makes a directory and those on the way to it, as far as they are missing. -/
def makeDirectories (fs : FileSystem) (p : Path) : Except FileFault Unit × FileSystem :=
  if p.holdsNull then (.error ⟨.nullByte, p⟩, fs) else makeWay p.root p.names.reverse fs

/-- The name of a temporary file for a target. -/
def temporaryName (target : String) (n : Nat) : String := "." ++ target ++ "." ++ toString n ++ ".tmp"

/-- A name for a temporary file that is free in a directory: one of as many as there are nodes and
one more. -/
def freshName (fs : FileSystem) (place : Location) (target : String) : String :=
  let names := (List.range (fs.nodes.length + 1)).map (temporaryName target)
  (names.find? fun name => (fs.node? (place ++ [name])).isNone).getD (temporaryName target 0)

/-- Moves a file to a path: into the directory that stands there, else in place of what is there.
The file keeps its name in a directory, where the name must be free. -/
def move (fs : FileSystem) (source : Location) (bytes : List UInt8) (name : String) (target : Path) :
    Except FileFault FileSystem :=
  match fs.locate target.parent with
  | .error cause => .error ⟨cause, target⟩
  | .ok place =>
    match fs.locate target with
    | .ok there =>
      if fs.node? there = some .directory then
        if (fs.node? (there ++ [name])).isSome then .error ⟨.taken, target.join name⟩
        else .ok ((fs.remove source).put (there ++ [name]) (.file bytes))
      else .ok ((fs.remove source).put there (.file bytes))
    | .error _ => .ok ((fs.remove source).put (step place target.name) (.file bytes))

/-- Writes a text to a path and counts its bytes. -/
def write (fs : FileSystem) (p : Path) (content : String) : Except FileFault Nat × FileSystem :=
  match fs.makeDirectories p.parent with
  | (.error fault, fs) => (.error fault, fs)
  | (.ok (), fs) =>
    if p.holdsNull then (.error ⟨.nullByte, p⟩, fs)
    else
      match fs.locate p.parent with
      | .error cause => (.error ⟨cause, p⟩, fs)
      | .ok place =>
        let bytes := content.toUTF8.data.toList
        let name := fs.freshName place p.name
        let filled := fs.put (place ++ [name]) (.file bytes)
        match filled.move (place ++ [name]) bytes name p with
        | .ok fs => (.ok bytes.length, fs)
        -- the temporary file does not outlive a failure
        | .error fault => (.error fault, filled.remove (place ++ [name]))

/-! ### Building -/

/-- Puts a file or directory at a place below the start of relative paths, and directories on the
way where there is nothing. -/
def place (fs : FileSystem) (p : Path) (node : Node) : FileSystem :=
  let fs := (fs.makeDirectories p.parent).2
  fs.put (fs.here ++ p.names) node

/-- Nothing but the directory at which relative paths begin. -/
def empty (here : Location) : FileSystem :=
  ⟨here, (List.range here.length).map fun n => (here.take (n + 1), .directory)⟩

/-- The files below the start of relative paths, with their paths. -/
def files (fs : FileSystem) : List (String × List UInt8) :=
  fs.nodes.filterMap fun
    | (place, .file bytes) =>
      if fs.here.isPrefixOf place then
        some (String.intercalate "/" (place.drop fs.here.length), bytes)
      else none
    | _ => none

end FileSystem

end ContentSchema
