import SmbServer.Lib.Tree
import SmbServer.Lib.Bytes

/-!
# SmbServer.Lib.Posix

A file system with the calls of POSIX on it: a tree of directories and files, and what the files
hold. A file keeps its contents while it is open, also behind its removal.

There are no links, no permissions and no limits of size: a call fails for what sits at its paths
and at the directories above them.

A program is a sequence of calls, each chosen from the replies before it. It can be run to its end,
or call by call among others.
-/

namespace Lib

/-- `std::io::ErrorKind`, as far as the calls return it. -/
inductive IoError where
  | notFound
  | alreadyExists
  | directoryNotEmpty
  | isADirectory
  | notADirectory
  | invalidInput
  | other
  deriving DecidableEq, Repr

structure Fs (ν : Type) where
  tree : Tree ν Nat
  contents : Nat → Bytes
  nextFile : Nat
  nextDir : Nat

/-- The options of an `open`. -/
structure OpenFlags where
  read : Bool
  write : Bool
  create : Bool
  createNew : Bool
  truncate : Bool
  deriving DecidableEq

/-- An open file description. -/
structure FileDesc where
  node : Node Nat
  readable : Bool
  writable : Bool
  deriving DecidableEq

namespace Fs

variable {ν : Type} [DecidableEq ν]

/-- What sits at a path. -/
def node (fs : Fs ν) (path : List ν) : Option (Node Nat) := fs.tree.node path

/-- Resolve a path: a file on the way is no directory. -/
def find (fs : Fs ν) (path : List ν) : Except IoError (Node Nat) :=
  match fs.node path with
  | some node => .ok node
  | none =>
    if path.inits.any fun above => (fs.node above).any fun node => !node.isDir then
      .error .notADirectory
    else .error .notFound

/-- The directory that the entry for a path is in. -/
def parent (fs : Fs ν) (path : List ν) : Except IoError Unit :=
  match fs.find path.dropLast with
  | .ok (.dir _) => .ok ()
  | .ok (.file _) => .error .notADirectory
  | .error e => .error e

def isDir (fs : Fs ν) (path : List ν) : Bool := (fs.node path).any Node.isDir

def isEmptyDir (fs : Fs ν) (path : List ν) : Bool :=
  match fs.tree.get path with
  | some (.dir _ entries) => entries.isEmpty
  | _ => false

/-! ### Edits -/

def addDir (fs : Fs ν) (path : List ν) : Fs ν :=
  { fs with tree := fs.tree.put path (some (.dir fs.nextDir [])), nextDir := fs.nextDir + 1 }

def addFile (fs : Fs ν) (path : List ν) : Fs ν :=
  { fs with
    tree := fs.tree.put path (some (.file fs.nextFile))
    contents := Function.update fs.contents fs.nextFile []
    nextFile := fs.nextFile + 1 }

def removeEntry (fs : Fs ν) (path : List ν) : Fs ν := { fs with tree := fs.tree.put path none }

/-- Take what sits at `src` to `dst`, in place of what sits there. -/
def move (fs : Fs ν) (src dst : List ν) : Fs ν :=
  { fs with tree := (fs.tree.put src none).put dst (fs.tree.get src) }

def setContents (fs : Fs ν) (id : Nat) (bytes : Bytes) : Fs ν :=
  { fs with contents := Function.update fs.contents id bytes }

/-! ### Calls -/

def createDir (fs : Fs ν) (path : List ν) : Except IoError Unit × Fs ν :=
  match fs.parent path, fs.node path with
  | .error e, _ => (.error e, fs)
  | .ok (), some _ => (.error .alreadyExists, fs)
  | .ok (), none => (.ok (), fs.addDir path)

/-- `create_dir_all`, on the path from its end. -/
def createDirAllRev (fs : Fs ν) : List ν → Except IoError Unit × Fs ν
  | [] => (.ok (), fs)
  | n :: above =>
    let path := (n :: above).reverse
    match fs.createDir path with
    | (.ok (), fs) => (.ok (), fs)
    | (.error .notFound, _) =>
      match fs.createDirAllRev above with
      | (.error e, fs) => (.error e, fs)
      | (.ok (), fs) =>
        match fs.createDir path with
        | (.ok (), fs) => (.ok (), fs)
        | (.error e, fs) => if fs.isDir path then (.ok (), fs) else (.error e, fs)
    | (.error e, _) => if fs.isDir path then (.ok (), fs) else (.error e, fs)

def createDirAll (fs : Fs ν) (path : List ν) : Except IoError Unit × Fs ν :=
  fs.createDirAllRev path.reverse

def openDir (fs : Fs ν) (path : List ν) : Except IoError Nat :=
  match fs.find path with
  | .ok (.dir id) => .ok id
  | .ok (.file _) => .error .notADirectory
  | .error e => .error e

/-- A directory can be opened for reading only. -/
def openFound (id : Nat) (flags : OpenFlags) : Except IoError FileDesc :=
  if flags.createNew then .error .alreadyExists
  else if flags.write || flags.create || flags.truncate then .error .isADirectory
  else .ok ⟨.dir id, flags.read, false⟩

def openWith (fs : Fs ν) (path : List ν) (flags : OpenFlags) : Except IoError FileDesc × Fs ν :=
  match fs.parent path, fs.node path with
  | .error e, _ => (.error e, fs)
  | .ok (), none =>
    if flags.create || flags.createNew then
      (.ok ⟨.file fs.nextFile, flags.read, flags.write⟩, fs.addFile path)
    else (.error .notFound, fs)
  | .ok (), some (.dir id) => (openFound id flags, fs)
  | .ok (), some (.file id) =>
    if flags.createNew then (.error .alreadyExists, fs)
    else if flags.truncate then
      (.ok ⟨.file id, flags.read, flags.write⟩, fs.setContents id [])
    else (.ok ⟨.file id, flags.read, flags.write⟩, fs)

/-- `open` of a path that ends in `.`, or in `..`: only a directory can sit there. -/
def openDots (fs : Fs ν) (path : List ν) (up : Bool) (flags : OpenFlags) :
    Except IoError FileDesc :=
  match fs.openDir path with
  | .error e => .error e
  | .ok id =>
    if up then
      match fs.openDir path.dropLast with
      | .error e => .error e
      | .ok above => openFound above flags
    else openFound id flags

def removeFile (fs : Fs ν) (path : List ν) : Except IoError Unit × Fs ν :=
  match fs.find path with
  | .error e => (.error e, fs)
  | .ok (.dir _) => (.error .isADirectory, fs)
  | .ok (.file _) => if path = [] then (.error .other, fs) else (.ok (), fs.removeEntry path)

def removeDir (fs : Fs ν) (path : List ν) : Except IoError Unit × Fs ν :=
  match fs.find path with
  | .error e => (.error e, fs)
  | .ok (.file _) => (.error .notADirectory, fs)
  | .ok (.dir _) =>
    if path = [] then (.error .other, fs)
    else if fs.isEmptyDir path then (.ok (), fs.removeEntry path)
    else (.error .directoryNotEmpty, fs)

/-- Whether what sits at `dst` may be replaced by a node. -/
def replaceable (fs : Fs ν) (node : Node Nat) (dst : List ν) : Except IoError Unit :=
  match node, fs.node dst with
  | _, none => .ok ()
  | .file _, some (.file _) => .ok ()
  | .file _, some (.dir _) => .error .isADirectory
  | .dir _, some (.file _) => .error .notADirectory
  | .dir _, some (.dir _) => if fs.isEmptyDir dst then .ok () else .error .directoryNotEmpty

/-- `rename(2)`: an existing target is replaced. -/
def rename (fs : Fs ν) (src dst : List ν) : Except IoError Unit × Fs ν :=
  if src = [] ∨ dst = [] then (.error .other, fs)
  else
    match fs.parent src, fs.parent dst, fs.node src with
    | .error e, _, _ => (.error e, fs)
    | .ok (), .error e, _ => (.error e, fs)
    | .ok (), .ok (), none => (.error .notFound, fs)
    | .ok (), .ok (), some node =>
      if src = dst then (.ok (), fs)
      else if src <+: dst then (.error .invalidInput, fs)
      else if dst <+: src then (.error .directoryNotEmpty, fs)
      else
        match fs.replaceable node dst with
        | .error e => (.error e, fs)
        | .ok () => (.ok (), fs.move src dst)

/-! ### Descriptors -/

/-- Offsets are signed. -/
def maxOffset : Nat := 2 ^ 63

def readAt (fs : Fs ν) (fd : FileDesc) (offset len : Nat) : Except IoError Bytes :=
  match fd.node with
  | .dir _ => .error .isADirectory
  | .file id =>
    if !fd.readable then .error .other
    else if maxOffset ≤ offset then .error .invalidInput
    else .ok (slice (fs.contents id) offset len)

/-- The bytes of a file with `data` at `offset`; a gap in front is filled with zeros. -/
def overwrite (bytes : Bytes) (offset : Nat) (data : Bytes) : Bytes :=
  if data = [] then bytes
  else bytes.take offset ++ List.replicate (offset - bytes.length) 0 ++ data ++
    bytes.drop (offset + data.length)

def writeAt (fs : Fs ν) (fd : FileDesc) (offset : Nat) (data : Bytes) :
    Except IoError Nat × Fs ν :=
  match fd.node with
  | .dir _ => (.error .other, fs)
  | .file id =>
    if !fd.writable then (.error .other, fs)
    else if maxOffset ≤ offset then (.error .invalidInput, fs)
    else (.ok data.length, fs.setContents id (overwrite (fs.contents id) offset data))

def setLen (fs : Fs ν) (fd : FileDesc) (len : Nat) : Except IoError Unit × Fs ν :=
  match fd.node with
  | .dir _ => (.error .invalidInput, fs)
  | .file id =>
    if !fd.writable || maxOffset ≤ len then (.error .invalidInput, fs)
    else
      let bytes := fs.contents id
      (.ok (), fs.setContents id (bytes.take len ++ List.replicate (len - bytes.length) 0))

end Fs

/-! ### Programs -/

/-- The calls that programs make. -/
inductive FsCall (ν : Type) where
  | metadata (path : List ν)
  | symlinkMetadata (path : List ν)
  | exists (path : List ν)
  | createDir (path : List ν)
  | createDirAll (path : List ν)
  | openDir (path : List ν)
  | openWith (path : List ν) (flags : OpenFlags)
  | openDots (path : List ν) (up : Bool) (flags : OpenFlags)
  | removeFile (path : List ν)
  | removeDir (path : List ν)
  | rename (src dst : List ν)

namespace FsCall

variable {ν : Type}

/-- What a call replies when it succeeds; metadata tell whether there is a directory. -/
def Reply : FsCall ν → Type
  | .metadata _ | .symlinkMetadata _ | .exists _ => Bool
  | .openDir _ => Nat
  | .openWith .. | .openDots .. => FileDesc
  | .createDir _ | .createDirAll _ | .removeFile _ | .removeDir _ | .rename .. => Unit

/-- A call that may create, remove, rename or truncate. -/
def mutates : FsCall ν → Bool
  | .createDir _ | .createDirAll _ | .removeFile _ | .removeDir _ | .rename .. => true
  | .openWith _ flags => flags.create || flags.createNew || flags.truncate
  | .metadata _ | .symlinkMetadata _ | .exists _ | .openDir _ | .openDots .. => false

/-- The paths that a call is about. -/
def paths : FsCall ν → List (List ν)
  | .metadata path | .symlinkMetadata path | .exists path | .createDir path | .createDirAll path
  | .openDir path | .openWith path _ | .openDots path _ _ | .removeFile path | .removeDir path =>
    [path]
  | .rename src dst => [src, dst]

variable [DecidableEq ν]

def exec (fs : Fs ν) : (call : FsCall ν) → Except IoError call.Reply × Fs ν
  | .metadata path | .symlinkMetadata path => ((fs.find path).map Node.isDir, fs)
  | .exists path => (.ok (fs.node path).isSome, fs)
  | .createDir path => fs.createDir path
  | .createDirAll path => fs.createDirAll path
  | .openDir path => (fs.openDir path, fs)
  | .openWith path flags => fs.openWith path flags
  | .openDots path up flags => (fs.openDots path up flags, fs)
  | .removeFile path => fs.removeFile path
  | .removeDir path => fs.removeDir path
  | .rename src dst => fs.rename src dst

end FsCall

/-- Calls on a file system, and a result at the end. -/
inductive FsProg (ν α : Type) where
  | done (result : α)
  | call (c : FsCall ν) (next : Except IoError c.Reply → FsProg ν α)

namespace FsProg

variable {ν α β : Type}

def bind : FsProg ν α → (α → FsProg ν β) → FsProg ν β
  | .done a, f => f a
  | .call c next, f => .call c fun reply => (next reply).bind f

instance : Monad (FsProg ν) where
  pure := .done
  bind := bind

def perform (c : FsCall ν) : FsProg ν (Except IoError c.Reply) := .call c .done

/-- The result, once there is no call left. -/
def result : FsProg ν α → Option α
  | .done a => some a
  | .call .. => none

/-- The call is made in some run, whatever the replies are. -/
inductive Issues : FsProg ν α → FsCall ν → Prop where
  | now (c : FsCall ν) (next : Except IoError c.Reply → FsProg ν α) : Issues (.call c next) c
  | later {c c' : FsCall ν} {next : Except IoError c.Reply → FsProg ν α}
      (reply : Except IoError c.Reply) (h : Issues (next reply) c') : Issues (.call c next) c'

theorem Issues.of_bind {prog : FsProg ν α} {f : α → FsProg ν β} {c : FsCall ν}
    (h : (prog.bind f).Issues c) : prog.Issues c ∨ ∃ a, (f a).Issues c := by
  induction prog with
  | done a => exact .inr ⟨a, h⟩
  | call c' next ih =>
    cases h with
    | now => exact .inl (.now c next)
    | later reply h => exact (ih reply h).imp_left (.later reply)

variable [DecidableEq ν]

/-- Run a program to its end, with nothing in between. -/
def run (fs : Fs ν) : FsProg ν α → α × Fs ν
  | .done a => (a, fs)
  | .call c next => (next (c.exec fs).1).run (c.exec fs).2

theorem run_bind (fs : Fs ν) (prog : FsProg ν α) (f : α → FsProg ν β) :
    (prog.bind f).run fs = (f (prog.run fs).1).run (prog.run fs).2 := by
  induction prog generalizing fs with
  | done a => rfl
  | call c next ih => exact ih (c.exec fs).1 (c.exec fs).2

/-- What every call preserves, a run preserves. -/
theorem run_invariant (Inv : Fs ν → Prop) (preserved : ∀ fs c, Inv fs → Inv (FsCall.exec fs c).2)
    (prog : FsProg ν α) (fs : Fs ν) (init : Inv fs) : Inv (prog.run fs).2 := by
  induction prog generalizing fs with
  | done a => exact init
  | call c next ih => exact ih (c.exec fs).1 (c.exec fs).2 (preserved fs c init)

/-- The next call of a program. -/
def step (fs : Fs ν) : FsProg ν α → FsProg ν α × Fs ν
  | .done a => (.done a, fs)
  | .call c next => (next (c.exec fs).1, (c.exec fs).2)

end FsProg

end Lib
