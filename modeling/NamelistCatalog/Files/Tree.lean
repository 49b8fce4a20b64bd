import NamelistCatalog.Files.Disk

/-!
A tree of files in memory, with the steps of a disk on it. Paths that do not start at the root are
taken from the working directory, which is always there, as is the root. A file may have several names,
and a name may be a symbolic link.
-/

namespace NamelistCatalog

/-- A place in the tree: the names that lead there from the working directory, or from the root when
the first name is a slash. -/
abbrev Location := List Segment

/-- What lies at a place. -/
inductive FileNode where
  | directory
  /-- A file, by its number. Places with one number are names of one file. -/
  | file (id : Nat)
  | link (target : Path)
deriving DecidableEq, Repr

def FileNode.nextId : FileNode → Nat
  | .file id => id + 1
  | _ => 0

/-- Whether a node is the same file as what lies at another place. -/
def FileNode.isSameFile : FileNode → Option FileNode → Bool
  | .file id, some (.file other) => id == other
  | _, _ => false

/-- A tree of files. -/
structure FileTree where
  nodes : List (Location × FileNode) := []
  /-- The bytes of the files, by their numbers. -/
  contents : List (Nat × List UInt8) := []
deriving DecidableEq, Repr

/-- What a path leads to: something that is there, or a free name in a directory. -/
inductive Found where
  | directory (at_ : Location)
  | file (at_ : Location) (id : Nat)
  /-- A free name. When it is `closed`, a slash follows it, and only a directory can take it. -/
  | vacant (at_ : Location) (closed : Bool)
deriving DecidableEq, Repr

namespace FileTree

def root : Location := [[Path.slash]]

def node? (t : FileTree) (place : Location) : Option FileNode :=
  if place = [] ∨ place = root then some .directory else t.nodes.lookup place

def content (t : FileTree) (id : Nat) : List UInt8 := (t.contents.lookup id).getD []

def freshId (t : FileTree) : Nat := (t.nodes.map fun n => n.2.nextId).foldr max 0

/-- The tree with something at a place, whether or not something was there. -/
def set (t : FileTree) (place : Location) (node : FileNode) : FileTree :=
  { t with nodes := (place, node) :: t.nodes.filter fun n => n.1 != place }

def erase (t : FileTree) (place : Location) : FileTree :=
  { t with nodes := t.nodes.filter fun n => n.1 != place }

/-- The tree in which a file has these bytes, under all its names. -/
def setContent (t : FileTree) (id : Nat) (bytes : List UInt8) : FileTree :=
  { t with contents := (id, bytes) :: t.contents.filter fun c => c.1 != id }

def above (place : Location) : Location := if place = root then place else place.dropLast

/-- The directory from which a path is followed that is met in a directory, and its segments. -/
def startOf (here : Location) (p : Path) : Location × List Segment :=
  match p.split with
  | (.root, body) => (root, body)
  | (_, body) => (here, body)

/-- What is found when segments are left to follow behind something that was found, where `next` tells
what they lead to from a directory. -/
def onward (next : Location → Except IoFault Found) (rest : List Segment) :
    Except IoFault Found → Except IoFault Found
  | .ok (.directory there) => next there
  | .ok (.file place id) =>
      if rest.isEmpty then .ok (.file place id) else .error .notADirectory
  | .ok (.vacant place closed) =>
      if rest.all List.isEmpty then .ok (.vacant place (closed || !rest.isEmpty))
      else .error .notFound
  | .error fault => .error fault

/-- What the segments lead to from a directory, where `look` tells what lies behind a place. -/
def walk (look : Location → Except IoFault Found) (here : Location) :
    List Segment → Except IoFault Found
  | [] => .ok (.directory here)
  | segment :: rest =>
      if Path.isIdle segment then walk look here rest
      else if Path.isUp segment then walk look (above here) rest
      else onward (fun there => walk look there rest) rest (look (here ++ [segment]))

/-- What a path leads to that is met in a directory. The empty path leads nowhere. -/
def follow (look : Location → Except IoFault Found) (here : Location) (p : Path) :
    Except IoFault Found :=
  if p.bytes.isEmpty then .error .notFound
  else walk look (startOf here p).1 (startOf here p).2

/-- What lies behind a place, when links may lead to links this often. -/
def look (t : FileTree) (links : Nat) (place : Location) : Except IoFault Found :=
  match t.node? place with
  | some .directory => .ok (.directory place)
  | some (.file id) => .ok (.file place id)
  | some (.link target) =>
      match links with
      | 0 => .error .tooManyLinks
      | links + 1 => follow (t.look links) (above place) target
  | none => .ok (.vacant place false)

/-- How often links may lead to links. -/
def maxLinks : Nat := 40

def find (t : FileTree) (p : Path) : Except IoFault Found := follow (t.look maxLinks) [] p

/-- Whether a path ends in a slash, so that only a directory fits. -/
def isClosed (p : Path) : Bool := (startOf [] p).2.getLast? == some []

/-- The place that a path names. Links count in front of the last segment, but not at it, and a path
that ends in a dot segment names no place. -/
def entry (t : FileTree) (p : Path) : Except IoFault Location :=
  if p.bytes.isEmpty then .error .notFound
  else
    let steps := Text.dropEndWhile List.isEmpty (startOf [] p).2
    match walk (t.look maxLinks) (startOf [] p).1 steps.dropLast with
    | .ok (.directory there) =>
        match steps.getLast? with
        | some last =>
            if Path.isIdle last || Path.isUp last then .error .busy else .ok (there ++ [last])
        | none => .error .busy
    | .ok (.file _ _) => .error .notADirectory
    | .ok (.vacant _ _) => .error .notFound
    | .error fault => .error fault

/-- What lies at a path. -/
def kind (t : FileTree) (p : Path) : Except IoFault FileKind :=
  match t.find p with
  | .ok (.directory _) => .ok .directory
  | .ok (.file _ _) => .ok .file
  | .ok (.vacant _ _) => .error .notFound
  | .error fault => .error fault

def fileId (t : FileTree) (p : Path) : Except IoFault Nat :=
  match t.find p with
  | .ok (.file _ id) => .ok id
  | .ok (.directory _) => .error .isADirectory
  | .ok (.vacant _ _) => .error .notFound
  | .error fault => .error fault

def read (t : FileTree) (p : Path) : Except IoFault (List UInt8) := (t.fileId p).map t.content

/-- The tree in which the file at a path has these bytes; where there is none, it is made. -/
def write (t : FileTree) (p : Path) (bytes : List UInt8) : Except IoFault FileTree :=
  match t.find p with
  | .ok (.file _ id) => .ok (t.setContent id bytes)
  | .ok (.vacant place false) =>
      .ok ((t.set place (.file t.freshId)).setContent t.freshId bytes)
  | .ok (.vacant _ true) => .error .isADirectory
  | .ok (.directory _) => .error .isADirectory
  | .error fault =>
      .error (if isClosed p && (t.entry p).toOption.isSome then .isADirectory else fault)

/-- Makes the directories along these segments: how that ends, and the tree with those that were
made. -/
def makeAlong (t : FileTree) (here : Location) : List Segment → Except IoFault Unit × FileTree
  | [] => (.ok (), t)
  | segment :: rest =>
      if Path.isIdle segment then makeAlong t here rest
      else if Path.isUp segment then makeAlong t (above here) rest
      else
        let place := here ++ [segment]
        if t.node? place = none then
          -- A dot at the end can only be made when the directory in front of it is there.
          if rest.all Path.isIdle && rest.contains [Path.dot] then (.error .notFound, t)
          else makeAlong (t.set place .directory) place rest
        else
          match t.look maxLinks place with
          | .ok (.directory there) => makeAlong t there rest
          | .ok (.file _ _) =>
              (.error (if rest.all List.isEmpty then .alreadyExists else .notADirectory), t)
          | .ok (.vacant _ _) => (.error .alreadyExists, t)
          | .error fault =>
              -- A link that leads nowhere is there all the same.
              let there := rest.all List.isEmpty || fault = .notFound
              (.error (if there then .alreadyExists else fault), t)

def makeDirectories (t : FileTree) (p : Path) : Except IoFault Unit × FileTree :=
  t.makeAlong (startOf [] p).1 (startOf [] p).2

/-- Whether a path leads to this place, and the place is free. -/
def isVacantAt (t : FileTree) (p : Path) (place : Location) : Bool :=
  match t.find p with
  | .ok (.vacant other _) => other == place
  | _ => false

/-- Whether a path names a free place, and neither this path nor that of its backup leads there. -/
def isFresh (t : FileTree) (p temporary : Path) : Bool :=
  match t.entry temporary, t.find temporary with
  | .ok place, .ok (.vacant other false) =>
      place == other && !t.isVacantAt p place && !t.isVacantAt p.backup place
  | _, _ => false

/-- A new empty file in the directory of a path, and the tree with it. One of this many names is
free. -/
def createTemporary (t : FileTree) (p : Path) : Except IoFault (Path × FileTree) :=
  match (p.temporaries (t.nodes.length + 5)).find? (t.isFresh p) with
  | some temporary => (t.write temporary []).map fun t' => (temporary, t')
  | none => .error .alreadyExists

/-- The tree in which one file has the bytes that another has once the first is emptied. -/
def copy (t : FileTree) (source target : Path) : Except IoFault FileTree := do
  let id ← t.fileId source
  let emptied ← t.write target []
  emptied.write target (emptied.content id)

/-- The tree in which a file has moved to a path, where it takes the place of a file or a link. -/
def rename (t : FileTree) (source target : Path) : Except IoFault FileTree := do
  let before ← t.entry source
  match t.node? before with
  | none => .error .notFound
  | some .directory => .error .isADirectory
  | some node =>
      let after ← t.entry target
      match t.node? after with
      | some .directory =>
          .error (if isClosed source || isClosed target then .notADirectory else .isADirectory)
      | other =>
          if isClosed source || isClosed target then .error .notADirectory
          -- Two names of one file both stay.
          else if node.isSameFile other then .ok t
          else .ok ((t.erase before).set after node)

def remove (t : FileTree) (p : Path) : FileTree :=
  match t.entry p with
  | .ok place => if t.node? place = some .directory || isClosed p then t else t.erase place
  | .error _ => t

/-- The path of a place below the working directory; that of a directory ends in a slash. -/
def listed? (n : Location × FileNode) : Option (List UInt8) :=
  if n.1.head? == some [Path.slash] then none
  else
    let path := Text.joinWith [Path.slash] n.1
    some (if n.2 = .directory then path ++ [Path.slash] else path)

/-- All files and directories below the working directory, in the order of the bytes of their
paths. -/
def list (t : FileTree) : List (List UInt8) :=
  (t.nodes.filterMap listed?).mergeSort fun a b => decide (a ≤ b)

/-- Makes a step that may change the tree, and leaves the tree as it is when the step fails. -/
def attempt (step : FileTree → Except IoFault FileTree) : StateM FileTree (Except IoFault Unit) :=
  fun t =>
    match step t with
    | .ok t' => (.ok (), t')
    | .error fault => (.error fault, t)

instance : Disk (StateM FileTree) where
  kind p := fun t => (t.kind p, t)
  read p := fun t => (t.read p, t)
  write p bytes := attempt fun t => t.write p bytes
  makeDirectories p := fun t => t.makeDirectories p
  createTemporary p := fun t =>
    match t.createTemporary p with
    | .ok (temporary, t') => (.ok temporary, t')
    | .error fault => (.error fault, t)
  sync p := fun t => ((t.kind p).map fun _ => (), t)
  copy source target := attempt fun t => t.copy source target
  rename source target := attempt fun t => t.rename source target
  remove p := fun t => ((), t.remove p)

end FileTree

end NamelistCatalog
