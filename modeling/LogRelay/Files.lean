import LogRelay.Fault

/-!
# Files

A tree of directories and files as the system resolves paths in it. Files are only ever created, replaced whole or
appended to, so a node keeps its number, and the node a path was opened for can be written to by number. The paths
opened so far are kept in order: a node's growth is told under each of them. The tree knows no owners, limits or broken
disks: where the system refuses a path for such reasons, it does so with a number of its own choice (`refusals`).
-/

namespace LogRelay

abbrev NodeId := Nat

inductive Node where
  /-- The parent, itself for the root, and the entries by name. -/
  | directory (parent : NodeId) (entries : List (Bytes × NodeId))
  /-- The content in pieces, the newest first. -/
  | regular (pieces : List Bytes)
  /-- A device: it can be opened, and what is written to it is gone. -/
  | device
  deriving DecidableEq

structure Files where
  /-- The nodes by number. Number zero is the root. -/
  nodes : List Node
  working : NodeId
  /-- The regular files opened, by the path as given, in the order of the paths. -/
  watched : List (String × NodeId)
  /-- The paths that the system will not open, whatever the tree, and the error number it gives for each. -/
  refusals : List (Bytes × Int)

namespace Path

/-- The longest path, and the longest name in one. -/
def maxLength : Nat := 4095

def maxNameLength : Nat := 255

/-- The parts of a path between its slashes. -/
def parts : Bytes → List Bytes
  | [] => [[]]
  | b :: rest =>
    if b = '/'.toUInt8 then [] :: parts rest
    else match parts rest with
      | [] => [[b]]
      | p :: ps => (b :: p) :: ps

def names (path : Bytes) : List Bytes := (parts path).filter (· ≠ [])

def isAbsolute (path : Bytes) : Bool := path.head? = some '/'.toUInt8

def endsInSlash (path : Bytes) : Bool := path.getLast? = some '/'.toUInt8

def self : Bytes := ['.'.toUInt8]

def parent : Bytes := ['.'.toUInt8, '.'.toUInt8]

end Path

namespace Files

def entries (names : List (String × NodeId)) : List (Bytes × NodeId) := names.map fun n => (Utf8.ofText n.1, n.2)

/-- A fresh tree: an empty current directory, the directories of a system, and the devices that programs rely on. -/
def initial : Files where
  nodes :=
    [.directory 0 (entries
       [("dev", 1), ("tmp", 2), ("etc", 5), ("home", 6), ("opt", 7), ("proc", 8), ("root", 9), ("run", 10), ("sys", 11),
        ("usr", 12), ("var", 13)]),
     .directory 0 (entries
       [("full", 3), ("null", 3), ("random", 3), ("urandom", 3), ("zero", 3), ("pts", 14), ("shm", 15)]),
     .directory 0 [],
     .device,
     .directory 2 []] ++
    List.replicate 9 (.directory 0 []) ++ List.replicate 2 (.directory 1 [])
  working := 4
  watched := []
  refusals := []

/-- The parent and the entries of a node that is a directory. -/
def directory? (f : Files) (id : NodeId) : Option (NodeId × List (Bytes × NodeId)) :=
  match f.nodes[id]? with
  | some (.directory parent entries) => some (parent, entries)
  | _ => none

/-- The pieces of a node that is a regular file, the newest first. -/
def pieces? (f : Files) (id : NodeId) : Option (List Bytes) :=
  match f.nodes[id]? with
  | some (.regular pieces) => some pieces
  | _ => none

def content? (f : Files) (id : NodeId) : Option Bytes := (f.pieces? id).map fun pieces => pieces.reverse.flatten

/-- The node of a name in the directory `dir`. -/
def lookup (f : Files) (dir : NodeId) (name : Bytes) : Except Errno NodeId :=
  match f.directory? dir with
  | none => .error .ENOTDIR
  | some (parent, entries) =>
    if name = Path.self then .ok dir
    else if name = Path.parent then .ok parent
    else if Path.maxNameLength < name.length then .error .ENAMETOOLONG
    else match entries.lookup name with
      | some id => .ok id
      | none => .error .ENOENT

/-- The node that names lead to, one after the other. -/
def walk (f : Files) (dir : NodeId) (names : List Bytes) : Except Errno NodeId := names.foldlM f.lookup dir

/-- The directory that a path's last name stands in, and that name; none for a path without a name. -/
def resolve (f : Files) (path : Bytes) : Except Errno (NodeId × Option Bytes) :=
  if path = [] then .error .ENOENT
  else if Path.maxLength < path.length then .error .ENAMETOOLONG
  else
    let names := Path.names path
    do
      let dir ← f.walk (if Path.isAbsolute path then 0 else f.working) names.dropLast
      if (f.directory? dir).isNone then throw .ENOTDIR
      return (dir, names.getLast?)

/-- A new node in the directory `dir`, and its number. -/
def create (f : Files) (dir : NodeId) (name : Bytes) (n : Node) : NodeId × Files :=
  match f.directory? dir with
  | none => (f.nodes.length, f)
  | some (parent, entries) =>
    (f.nodes.length,
      { f with nodes := f.nodes.set dir (.directory parent ((name, f.nodes.length) :: entries)) ++ [n] })

/-- The file of a path, created empty if there is none. A path that names a directory, or that ends as if it did, is
refused. -/
def openNode (f : Files) (path : Bytes) : Except Errno (NodeId × Files) := do
  match ← f.resolve path with
  | (_, none) => throw .EISDIR
  | (dir, some name) =>
    if name = Path.self ∨ name = Path.parent ∨ Path.endsInSlash path then throw .EISDIR
    match f.lookup dir name with
    | .ok id => if (f.directory? id).isSome then throw .EISDIR else return (id, f)
    | .error .ENOENT => return f.create dir name (.regular [])
    | .error e => throw e

/-- Adds a path to those watched, keeping their order. -/
def insertWatched (path : String) (id : NodeId) : List (String × NodeId) → List (String × NodeId)
  | [] => [(path, id)]
  | w :: ws =>
    if path = w.1 then w :: ws
    else if path < w.1 then (path, id) :: w :: ws
    else w :: insertWatched path id ws

/-- Watches a path if its node is a regular file. -/
def watch (f : Files) (path : Bytes) (id : NodeId) : Files :=
  if (f.pieces? id).isSome then { f with watched := insertWatched (Utf8.decode path) id f.watched } else f

/-- What the system makes of opening a path: the file, or an error number. -/
def openPath (f : Files) (path : Bytes) : Except Int (NodeId × Files) :=
  match f.refusals.lookup path with
  | some number => .error number
  | none => (f.openNode path).mapError Errno.number

def openAppend (f : Files) (path : Bytes) : Except IoCause (NodeId × Files) :=
  if path.contains 0 then .error .nulInPath
  else match f.openPath path with
    | .ok (id, f) => .ok (id, f.watch path id)
    | .error number => .error (.os number)

/-- The system refuses a path with this number from now on, or no longer. -/
def refuse (f : Files) (path : Bytes) (number : Option Int) : Files :=
  { f with refusals := (number.map fun n => (path, n)).toList ++ f.refusals.filter fun r => r.1 ≠ path }

/-- Appends to a node. Only regular files change. -/
def append (f : Files) (id : NodeId) (bs : Bytes) : Files :=
  match f.pieces? id with
  | some pieces => { f with nodes := f.nodes.set id (.regular (bs :: pieces)) }
  | none => f

theorem lt_length_of_pieces? {f : Files} {id : NodeId} {pieces : List Bytes} (h : f.pieces? id = some pieces) :
    id < f.nodes.length := by
  unfold pieces? at h
  split at h
  · next heq => exact (List.getElem?_eq_some_iff.1 heq).1
  · cases h

theorem pieces?_append (f : Files) (id : NodeId) (bs : Bytes) :
    (f.append id bs).pieces? id = (f.pieces? id).map (bs :: ·) := by
  unfold append
  cases h : f.pieces? id with
  | none => exact h
  | some pieces => simp [pieces?, List.getElem?_set_self (lt_length_of_pieces? h)]

theorem content?_append (f : Files) (id : NodeId) (bs : Bytes) :
    (f.append id bs).content? id = (f.content? id).map (· ++ bs) := by
  cases h : f.pieces? id <;> simp [content?, pieces?_append, h]

/-- The paths that a node was opened under. -/
def pathsOf (f : Files) (id : NodeId) : List String := (f.watched.filter fun w => w.2 = id).map Prod.fst

/-- A file of this content at the path, if the path can be opened. -/
def replace (f : Files) (path bs : Bytes) : Files :=
  match f.openAppend path with
  | .ok (id, f) => if (f.pieces? id).isSome then { f with nodes := f.nodes.set id (.regular [bs]) } else f
  | .error _ => f

def makeDirectory (f : Files) (path : Bytes) : Files :=
  match f.resolve path with
  | .ok (dir, some name) =>
    match f.lookup dir name with
    | .error .ENOENT => (f.create dir name (.directory dir [])).2
    | _ => f
  | _ => f

end Files
end LogRelay
