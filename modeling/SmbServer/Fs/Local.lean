import SmbServer.Backend
import SmbServer.Lib.PathBuf
import SmbServer.Lib.Posix

/-!
# SmbServer.Fs.Local

`LocalFsBackend` (`fs/local.rs`): a share backed by a directory. Every method is a program of file
system calls below the share root.

The times of a file are left out; they are the operating system's.
-/

namespace SmbServer

open Lib

structure LocalFsBackend where
  readOnly : Bool
  deriving DecidableEq

/-- A directory is held by its identity. -/
inductive LocalHandle where
  | file (name : Text) (file : FileDesc) (readOnly : Bool)
  | dir (name : Text) (dirHandle : Nat)
  deriving DecidableEq

def ioToSmb : IoError → SmbError
  | .notFound => .notFound
  | .alreadyExists => .exists
  | .directoryNotEmpty => .notEmpty
  | .isADirectory => .isDirectory
  | .notADirectory => .notADirectory
  | .invalidInput => .nameInvalid
  | .other => .io

/-! ### Paths -/

/-- `to_rel_path` as the path that is built: `.` for the share root. -/
def toRelPathBuf (path : SmbPath) : PathBuf :=
  if path.isRoot then ['.'] else path.components.foldl PathBuf.push []

/-- Relative to the share root, as its components. -/
def toRelPath (path : SmbPath) : List Text := path.components

/-- `".smb-streams"`, below the share root. -/
def streamsDir : Text := ['.', 's', 'm', 'b', '-', 's', 't', 'r', 'e', 'a', 'm', 's']

def isStreamsControlPath (path : SmbPath) : Bool :=
  path.components.any (·.eqIgnoreAsciiCase streamsDir)

/-- `stream_rel_path` as the path that is built. -/
def streamRelPathBuf (baseRel : PathBuf) (stream : Text) : PathBuf :=
  PathBuf.push (PathBuf.push streamsDir baseRel) stream

/-- A stream is kept under the path of its file. -/
def streamRelPath (baseRel : List Text) (stream : Text) : List Text :=
  streamsDir :: baseRel ++ [stream]

/-- `stream_rel_path(..).parent()`: a `.` at the end of a path is no component. -/
def streamParent (baseRel : List Text) (stream : Text) : List Text :=
  if stream = ['.'] then (streamsDir :: baseRel).dropLast else streamsDir :: baseRel

def fileNameFor (path : SmbPath) : Text := path.fileName.getD []

/-! ### Calls -/

/-- A program that may end with an error. -/
abbrev LocalProg (α : Type) := ExceptT SmbError (FsProg Text) α

/-- One file system call. -/
def ask (c : FsCall Text) : LocalProg c.Reply := ExceptT.mk do
  return (← FsProg.perform c).mapError ioToSmb

/-- `ask`, with `NotFound` as an answer. -/
def askIfFound (c : FsCall Text) : LocalProg (Option c.Reply) := ExceptT.mk do
  match ← FsProg.perform c with
  | .ok reply => return .ok (some reply)
  | .error .notFound => return .ok none
  | .error e => return .error (ioToSmb e)

/-- The intent as options of `open_with`. -/
def capOptions (opts : OpenOptions) : OpenFlags :=
  match opts.intent with
  | .open => ⟨true, opts.write, false, false, false⟩
  | .create => ⟨opts.read, true, false, true, false⟩
  | .truncate => ⟨opts.read, true, false, false, true⟩
  | .openOrCreate => ⟨opts.read, true, true, false, false⟩
  | .overwriteOrCreate => ⟨opts.read, true, true, false, true⟩

/-- An open that may change the share. -/
def OpenOptions.writes (opts : OpenOptions) : Bool :=
  opts.write ||
    match opts.intent with
    | .create | .openOrCreate | .overwriteOrCreate | .truncate => true
    | .open => false

def OpenIntent.creates : OpenIntent → Bool
  | .create | .openOrCreate | .overwriteOrCreate => true
  | .open | .truncate => false

/-- `open_with` on the path of a stream. -/
def openStreamPath (baseRel : List Text) (stream : Text) (flags : OpenFlags) :
    LocalProg FileDesc :=
  if stream = ['.'] then ask (.openDots (streamsDir :: baseRel) false flags)
  else if stream = ['.', '.'] then ask (.openDots (streamsDir :: baseRel) true flags)
  else ask (.openWith (streamRelPath baseRel stream) flags)

namespace LocalFsBackend

def openStream (b : LocalFsBackend) (baseRel : List Text) (stream : Text) (opts : OpenOptions) :
    LocalProg LocalHandle := do
  match ← askIfFound (.metadata baseRel) with
  | some true => throw (ioToSmb .isADirectory)
  | none => throw .notFound
  | some false =>
    if opts.intent.creates then
      ask (.createDirAll (streamParent baseRel stream))
    let file ← openStreamPath baseRel stream (capOptions opts)
    return .file stream file b.readOnly

/-- A CREATE that asks for a directory. -/
def openDirectory (path : SmbPath) (intent : OpenIntent) : LocalProg LocalHandle := do
  let rel := toRelPath path
  match intent with
  | .open => pure ()
  | .create => ask (.createDir rel)
  | .openOrCreate =>
    if !(← ask (.exists rel)) then
      ask (.createDir rel)
  | .truncate | .overwriteOrCreate => throw (ioToSmb .invalidInput)
  let dirHandle ← ask (.openDir rel)
  return .dir (fileNameFor path) dirHandle

/-- A directory that is there, where none was asked for. -/
def openExistingDir (path : SmbPath) (opts : OpenOptions) : LocalProg LocalHandle := do
  if opts.nonDirectory then throw .isDirectory
  match opts.intent with
  | .open | .openOrCreate =>
    let dirHandle ← ask (.openDir (toRelPath path))
    return .dir (fileNameFor path) dirHandle
  | .create => throw .exists
  | .truncate | .overwriteOrCreate => throw .isDirectory

def openFile (b : LocalFsBackend) (path : SmbPath) (opts : OpenOptions) :
    LocalProg LocalHandle := do
  let rel := toRelPath path
  match ← askIfFound (.metadata rel) with
  | some true => openExistingDir path opts
  | _ =>
    let file ← ask (.openWith rel (capOptions opts))
    return .file (fileNameFor path) file b.readOnly

def «open» (b : LocalFsBackend) (path : SmbPath) (opts : OpenOptions) : LocalProg LocalHandle :=
  if b.readOnly && opts.writes then throw .accessDenied
  else if isStreamsControlPath path then throw .accessDenied
  else
    match path.streamName with
    | some stream =>
      if opts.directory then throw .nameInvalid
      else b.openStream (toRelPath path) stream opts
    | none => if opts.directory then openDirectory path opts.intent else b.openFile path opts

/-- A stream selector plays no part. -/
def unlink (b : LocalFsBackend) (path : SmbPath) : LocalProg Unit :=
  if b.readOnly then throw .accessDenied
  else if isStreamsControlPath path then throw .accessDenied
  else if path.isRoot then throw .accessDenied
  else do
    let rel := toRelPath path
    let isDir : Bool ← ask (.symlinkMetadata rel)
    if isDir then ask (.removeDir rel) else ask (.removeFile rel)

/-- The check that nothing sits at the target of a rename that does not replace. -/
def checkTarget (dst : List Text) : LocalProg Unit := ExceptT.mk do
  match ← FsProg.perform (.symlinkMetadata dst) with
  | .ok _ => return .error (ioToSmb .alreadyExists)
  | .error _ => return .ok ()

/-- Stream selectors play no part. -/
def rename (b : LocalFsBackend) (src dst : SmbPath) (replace : Bool) : LocalProg Unit :=
  if b.readOnly then throw .accessDenied
  else if isStreamsControlPath src || isStreamsControlPath dst then throw .accessDenied
  else if src.isRoot || dst.isRoot then throw .nameInvalid
  else do
    if !replace then
      checkTarget (toRelPath dst)
    ask (.rename (toRelPath src) (toRelPath dst))

def capabilities (b : LocalFsBackend) : BackendCapabilities := ⟨b.readOnly, true, true⟩

end LocalFsBackend

/-! ### Handles -/

namespace LocalHandle

def read (fs : Fs Text) : LocalHandle → UInt64 → UInt32 → SmbResult Bytes
  | .file _ fd _, offset, len => (fs.readAt fd offset.toNat len.toNat).mapError ioToSmb
  | .dir .., _, _ => .error .isDirectory

def writeOwned (fs : Fs Text) : LocalHandle → UInt64 → Bytes → SmbResult UInt32 × Fs Text
  | .file _ fd readOnly, offset, data =>
    if readOnly then (.error .accessDenied, fs)
    else
      match fs.writeAt fd offset.toNat data with
      | (.ok written, fs) => (.ok (UInt32.ofNat (min written (2 ^ 32 - 1))), fs)
      | (.error e, fs) => (.error (ioToSmb e), fs)
  | .dir .., _, _ => (.error .isDirectory, fs)

def truncate (fs : Fs Text) : LocalHandle → UInt64 → SmbResult Unit × Fs Text
  | .file _ fd readOnly, len =>
    if readOnly then (.error .accessDenied, fs)
    else
      match fs.setLen fd len.toNat with
      | (.ok (), fs) => (.ok (), fs)
      | (.error e, fs) => (.error (ioToSmb e), fs)
  | .dir .., _ => (.error .notSupported, fs)

end LocalHandle

end SmbServer
