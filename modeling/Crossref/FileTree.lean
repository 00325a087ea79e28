/-
The files that the program sees, by absolute place. A file holds bytes or is a store, and a symbolic link stands for
another path. A path is followed segment by segment: each one before the last has to lead to a directory that exists.
To resolve a path is something else: its links are followed by their names, and what is left need not exist.
-/
import Crossref.Failure
import Crossref.Path
import Crossref.Store.Contents
import Crossref.Text.Utf8

namespace Crossref

open Text (Bytes)

/-- The segments from the root. -/
abbrev Place := List String

/-- What stands at a place; the time of the last change is in milliseconds. -/
inductive Node where
  | directory
  | bytes (content : Bytes) (mtime : Int)
  | store (contents : Contents) (mtime : Int)
  deriving DecidableEq

def Node.mtime : Node → Int
  | .directory => 0
  | .bytes _ mtime | .store _ mtime => mtime

structure FileTree where
  /-- The directory that relative paths start from; it may be gone. -/
  cwd : Place
  nodes : List (Place × Node)
  /-- The symbolic links and what they hold; nothing else stands where a link does. -/
  links : List (Place × Path) := []

namespace FileTree

/-- A tree that holds the working directory and nothing else. -/
def ofWorkingDirectory (cwd : Place) : FileTree :=
  { cwd, nodes := (List.range (cwd.length + 1)).map fun n => (cwd.take n, .directory) }

def node? (t : FileTree) (place : Place) : Option Node :=
  if place.isEmpty then some .directory else t.nodes.lookup place

def put (t : FileTree) (place : Place) (node : Node) : FileTree :=
  { t with
    nodes :=
      if t.nodes.any (·.1 = place) then t.nodes.map fun n => if n.1 = place then (place, node) else n
      else t.nodes ++ [(place, node)] }

def erase (t : FileTree) (place : Place) : FileTree :=
  { t with nodes := t.nodes.filter (·.1 ≠ place) }

def follow (t : FileTree) (place : Place) (segment : String) : Except PathFault Place :=
  match t.node? place with
  | some .directory => .ok (if segment = ".." then place.dropLast else place ++ [segment])
  | some _ => .error .notDirectory
  | none => .error .notFound

/-- What is met first on a path. -/
inductive Stretch where
  | arrived (place : Place)
  /-- A link, with the segments after it. -/
  | link (place : Place) (target : Path) (rest : List String)

/-- Follows the segments as far as the first link. A link at the end counts only if `last` says so. -/
def stretch (t : FileTree) (last : Bool) : Place → List String → Except PathFault Stretch
  | place, [] => .ok (.arrived place)
  | place, segment :: rest =>
    match t.follow place segment with
    | .error fault => .error fault
    | .ok next =>
      match t.links.lookup next with
      | none => t.stretch last next rest
      | some target => if rest.isEmpty && !last then .ok (.arrived next) else .ok (.link next target rest)

/-- Follows the segments through so many links and no more. -/
def reach (t : FileTree) (last : Bool) : Nat → Place → List String → Except PathFault Place
  | budget, place, segments =>
    match t.stretch last place segments with
    | .error fault => .error fault
    | .ok (.arrived place) => .ok place
    | .ok (.link place target rest) =>
      match budget with
      | 0 => .error .tooManyLinks
      | budget + 1 => t.reach last budget (target.start place.dropLast) (target.segments ++ rest)

/-- How many links a path may lead through. -/
def maxLinks : Nat := 40

/-- The place that a path leads to; whether something stands there is not asked. -/
def locate (t : FileTree) (p : Path) : Except PathFault Place :=
  t.reach true maxLinks (p.start t.cwd) p.segments

/-- The place of the entry that a path names, which may be a link. -/
def entry (t : FileTree) (p : Path) : Except PathFault Place :=
  t.reach false maxLinks (p.start t.cwd) p.segments

def find (t : FileTree) (p : Path) : Except PathFault (Place × Node) := do
  let place ← t.locate p
  match t.node? place with
  | some node => pure (place, node)
  | none => throw .notFound

def isDirectory (t : FileTree) (p : Path) : Bool :=
  match t.find p with
  | .ok (_, .directory) => true
  | _ => false

def isFile (t : FileTree) (p : Path) : Bool :=
  match t.find p with
  | .ok (_, .bytes _ _) | .ok (_, .store _ _) => true
  | _ => false

def exists? (t : FileTree) (p : Path) : Bool :=
  t.isDirectory p || t.isFile p

/-- The time of the last change. -/
def stat (t : FileTree) (path : String) : Except PathError Int :=
  match t.find (.ofString path) with
  | .ok (_, node) => .ok node.mtime
  | .error fault => .error ⟨fault, path⟩

/-- What a store looks like to someone who reads it as a file of bytes; it is no text. -/
def storeMark : Bytes :=
  [0xFF]

def read (t : FileTree) (path : String) : Except PathError Bytes :=
  match t.find (.ofString path) with
  | .ok (_, .bytes content _) => .ok content
  | .ok (_, .store _ _) => .ok storeMark
  | .ok (_, .directory) => .error ⟨.isDirectory, path⟩
  | .error fault => .error ⟨fault, path⟩

/-- Makes one directory, unless it is there or a link leads to one. -/
def makeDirectory (t : FileTree) (p : Path) (place : Place) : Except PathError FileTree :=
  if (t.node? place).isNone && (t.links.lookup place).isNone then .ok (t.put place .directory)
  else if t.isDirectory p then .ok t
  else .error ⟨.exists, p.toString⟩

/-- Makes a directory and the directories above it that are missing; the segments are given from the last to the
first. -/
def makeDirectoriesFrom (root : String) : List String → FileTree → Except PathError FileTree
  | [], t => .ok t
  | s :: above, t =>
    let p : Path := ⟨root, (s :: above).reverse⟩
    match t.entry p with
    | .ok place => t.makeDirectory p place
    | .error .notFound => do
      let t ← makeDirectoriesFrom root above t
      match t.entry p with
      | .ok place => t.makeDirectory p place
      | .error fault => .error ⟨fault, p.toString⟩
    | .error fault => .error ⟨fault, p.toString⟩

def makeDirectories (t : FileTree) (p : Path) : Except PathError FileTree :=
  makeDirectoriesFrom p.root p.segments.reverse t

/-- Writes a file, after making the directories above it. -/
def write (t : FileTree) (path : String) (content : Bytes) (mtime : Int) : Except PathError FileTree := do
  let p := Path.ofString path
  let t ← t.makeDirectories p.parent
  match t.locate p with
  | .error fault => .error ⟨fault, path⟩
  | .ok place =>
    match t.node? place with
    | some .directory => .error ⟨.isDirectory, path⟩
    | _ => .ok (t.put place (.bytes content mtime))

/-- Sets the time of the last change. -/
def touch (t : FileTree) (path : String) (mtime : Int) : Except PathError FileTree :=
  match t.find (.ofString path) with
  | .ok (place, .bytes content _) => .ok (t.put place (.bytes content mtime))
  | .ok (place, .store contents _) => .ok (t.put place (.store contents mtime))
  | .ok (_, .directory) => .ok t
  | .error fault => .error ⟨fault, path⟩

/-- Takes a file or a link away. -/
def remove (t : FileTree) (path : String) : Except PathError FileTree :=
  match t.entry (.ofString path) with
  | .error fault => .error ⟨fault, path⟩
  | .ok place =>
    match t.links.lookup place, t.node? place with
    | some _, _ => .ok { t with links := t.links.filter (·.1 ≠ place) }
    | none, some .directory => .error ⟨.isDirectory, path⟩
    | none, some _ => .ok (t.erase place)
    | none, none => .error ⟨.notFound, path⟩

/-- The segments of a place from a directory above it. -/
def below? (directory place : Place) : Option (List String) :=
  if directory.isPrefixOf place && directory ≠ place then some (place.drop directory.length) else none

/-- The files below a directory, by their segments from it; links to directories are not entered. -/
def filesBelow (t : FileTree) (directory : Place) : List (List String) :=
  let files := t.nodes.filterMap fun (place, node) =>
    match node with
    | .directory => none
    | _ => below? directory place
  let links := t.links.filterMap fun (place, _) => if t.isFile (.ofPlace place) then below? directory place else none
  files ++ links

/-! Resolving a path -/

/-- Where a path has led so far. -/
structure Spot where
  place : Place
  /-- How far a relative path has gone up from the working directory; an absolute path has none. -/
  up : Option Nat
  deriving DecidableEq, Repr

def Spot.parent (cwd : Place) (s : Spot) : Spot :=
  let place := s.place.dropLast
  ⟨place, s.up.map fun up => max up (cwd.length - place.length)⟩

def Spot.child (s : Spot) (segment : String) : Spot :=
  { s with place := s.place ++ [segment] }

/-- Where a path starts that is seen from a spot. -/
def Spot.start (directory : Spot) (p : Path) : Spot :=
  if p.isAbsolute then ⟨[], none⟩ else directory

/-- Follows the segments by their names. `enter` says where a link in a directory leads; if that cannot be said, the
place is answered where it got stuck, with the rest of the segments after it. -/
def pursue (t : FileTree) (enter : Spot → String → Path → Except Place Spot) :
    Spot → List String → Except Place Spot
  | spot, [] => .ok spot
  | spot, segment :: rest =>
    if segment = ".." then t.pursue enter (spot.parent t.cwd) rest
    else
      match t.links.lookup (spot.child segment).place with
      | none => t.pursue enter (spot.child segment) rest
      | some target =>
        match enter spot segment target with
        | .ok spot => t.pursue enter spot rest
        | .error stuck => .error (Path.walk stuck rest)

/-- Where a link leads, while those in `opened` are being followed already. It gets stuck at one of these, if the path
has led there in the same way. -/
def enterLink (t : FileTree) : Nat → List Spot → Spot → String → Path → Except Place Spot
  | 0, _, directory, segment, _ => .error (directory.child segment).place
  | fuel + 1, opened, directory, segment, target =>
    if opened.contains (directory.child segment) then .error (directory.child segment).place
    else
      t.pursue (t.enterLink fuel (directory.child segment :: opened)) (directory.start target) target.segments

/-- In how many ways a path may lead to a link. -/
def linkSpots (t : FileTree) : Nat :=
  t.links.length * (t.cwd.length + 2)

/-- The place that a path names when all of its links are followed, or where it gets stuck in a loop of links. -/
def realPlace (t : FileTree) (p : Path) : Except Place Place :=
  (t.pursue (t.enterLink (t.linkSpots + 1) []) (Spot.start ⟨t.cwd, some 0⟩ p) p.segments).map (·.place)

/-- The place that a path names, stuck or not. -/
def namedPlace (t : FileTree) (p : Path) : Place :=
  match t.realPlace p with
  | .ok place | .error place => place

/-- There is a directory that the path can start from. -/
def canStart (t : FileTree) (p : Path) : Bool :=
  p.isAbsolute || t.isDirectory ⟨"", []⟩

/-- The absolute place of a path, which need not exist. A path that gets stuck is resolved all the same, unless the
operating system cannot follow what it names. -/
def resolve (t : FileTree) (path : String) : Except Failure Place :=
  let p := Path.ofString path
  if path.toList.contains (Char.ofNat 0) then .error .nulInPath
  else if !t.canStart p then .error .noWorkingDirectory
  else
    match t.find (.ofPlace (t.namedPlace p)) with
    | .error .tooManyLinks => .error (.linkLoop (Path.absolute (t.namedPlace p)))
    | _ => .ok (t.namedPlace p)

/-- Where a store at a path is. -/
def storePlace? (t : FileTree) (p : Path) : Option Place :=
  if t.canStart p then (t.realPlace p).toOption else none

end FileTree

end Crossref
