/-!
A folder of files, as far as keeping scenes in it needs: what is read back is what was written, and
a path leads to a file, to a folder or nowhere. Every name on the way has to lead to a folder, and
the first one that does not is what a report says. Above the folder nothing is known but the way up.
-/

namespace Billiard

namespace Folder

/-- Why a file cannot be read or written. -/
inductive Fault where
  | absent
  | notFolder
  | isFolder
  | longName
  | holdsNul
  | notText
deriving DecidableEq, Repr

/-- The text of a fault. -/
def Fault.message : Fault → String
  | .absent => "No such file or directory (os error 2)"
  | .notFolder => "Not a directory (os error 20)"
  | .isFolder => "Is a directory (os error 21)"
  | .longName => "File name too long (os error 36)"
  | .holdsNul => "file name contained an unexpected NUL byte"
  | .notText => "stream did not contain valid UTF-8"

/-- Where a path starts: some levels above the folder, or at the outermost folder of all. -/
inductive Origin where
  | above (levels : Nat)
  | root
deriving DecidableEq, Repr

/-- What names lead to from an origin. -/
structure Place where
  origin : Origin
  names : List String
deriving DecidableEq, Repr

/-- The place called `name` in the folder at a place. -/
def Place.down (place : Place) (name : String) : Place :=
  { place with names := place.names ++ [name] }

/-- The folder that a place lies in. The outermost folder lies in itself. -/
def Place.up (place : Place) : Place :=
  match place.names, place.origin with
  | [], .above levels => ⟨.above (levels + 1), []⟩
  | [], .root => ⟨.root, []⟩
  | names, origin => ⟨origin, names.dropLast⟩

/-- The most bytes that a name has. -/
def longestName : Nat := 255

/-- The most bytes that a path has. -/
def longestPath : Nat := 4095

/-- A path in its parts: the names on the way, the last name, and whether a slash follows it. -/
structure Path where
  origin : Origin
  way : List String
  last : String
  closed : Bool
deriving DecidableEq, Repr

/-- The parts of a path. Slashes count as one where many follow each other, and a path of slashes
alone leads to the folder where it starts. -/
def Path.ofText? (text : String) : Except Fault Path :=
  if text.toList.contains '\x00' then .error .holdsNul
  else if text.isEmpty then .error .absent
  else if longestPath < text.utf8ByteSize then .error .longName
  else
    let names := (text.splitOn "/").filter (· != "")
    .ok {
      origin := if text.toList.head? = some '/' then .root else .above 0
      way := names.dropLast
      last := names.getLastD "."
      closed := text.toList.getLast? = some '/' }

end Folder

/-- Folders and files: the folders by the names on the way to them from the folder itself. -/
structure Folder where
  folders : List (List String)
  files : List (Folder.Place × ByteArray)

namespace Folder

/-- What is at a place. -/
inductive Entry where
  | folder (place : Place)
  | file (place : Place) (bytes : ByteArray)
  | nothing (place : Place)

/-- Whether there is a folder at a place. Origins are folders. -/
def hasFolder (folder : Folder) (place : Place) : Bool :=
  place.names.isEmpty || (place.origin == .above 0 && folder.folders.contains place.names)

/-- What a name leads to from the folder at `here`. -/
def look (folder : Folder) (here : Place) (name : String) : Except Fault Entry :=
  if name = "." then .ok (.folder here)
  else if name = ".." then .ok (.folder here.up)
  else if longestName < name.utf8ByteSize then .error .longName
  else
    let there := here.down name
    if folder.hasFolder there then .ok (.folder there)
    else
      match folder.files.lookup there with
      | some bytes => .ok (.file there bytes)
      | none => .ok (.nothing there)

/-- The folder that a name leads to from the folder at `here`. -/
def enter (folder : Folder) (here : Place) (name : String) : Except Fault Place := do
  match ← folder.look here name with
  | .folder there => return there
  | .file .. => .error .notFolder
  | .nothing _ => .error .absent

/-- The folder in which the last name of a path is looked up. -/
def walk (folder : Folder) (path : Path) : Except Fault Place :=
  path.way.foldlM folder.enter ⟨path.origin, []⟩

/-- The bytes of a file. -/
def read? (folder : Folder) (text : String) : Except Fault ByteArray := do
  let path ← Path.ofText? text
  match ← folder.look (← folder.walk path) path.last with
  | .folder _ => .error .isFolder
  | .file _ bytes => if path.closed then .error .notFolder else .ok bytes
  | .nothing _ => .error .absent

/-- Bytes as text. -/
def decode? (bytes : ByteArray) : Except Fault String :=
  match String.fromUTF8? bytes with
  | none => .error .notText
  | some text => .ok text

/-- The text of a file. -/
def readText? (folder : Folder) (path : String) : Except Fault String :=
  (folder.read? path).bind decode?

/-- The folder with these bytes as the file at `place`. -/
def put (folder : Folder) (place : Place) (bytes : ByteArray) : Folder :=
  { folder with files := (place, bytes) :: folder.files.filter (·.1 != place) }

/-- The folder with a file in place of what was at a path. A slash at the end asks for a folder, so
no file can be there. -/
def write? (folder : Folder) (text : String) (bytes : ByteArray) : Except Fault Folder := do
  let path ← Path.ofText? text
  let here ← folder.walk path
  if path.closed then .error .isFolder
  else
    match ← folder.look here path.last with
    | .folder _ => .error .isFolder
    | .file there _ | .nothing there => return folder.put there bytes

end Folder

end Billiard
