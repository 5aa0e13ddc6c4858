import SmbServer.Fs.Local
import SmbServer.Lib.Program

/-!
# SmbServer.Fs.Handle

The methods of `LocalHandle` (`fs/local.rs`) as programs of calls on open files and directories, and
what a user of a `LocalFsBackend` can ask of it and of its handles.
-/

namespace SmbServer

open Lib

/-! ### The host -/

/-- A name in a directory of the host; not every one is Unicode. -/
inductive OsName where
  | unicode (name : Text)
  | other (bytes : Bytes)
  deriving DecidableEq

def OsName.toStr : OsName → Option Text
  | .unicode name => some name
  | .other _ => none

/-- Nanoseconds since 1970, negative before. -/
abbrev SystemTime := Int

structure Metadata where
  len : UInt64
  isDir : Bool
  modified : Option SystemTime
  accessed : Option SystemTime
  created : Option SystemTime

/-- 100-nanosecond intervals between 1601 and 1970. -/
def filetimeOffset : Nat := 116444736000000000

def systemTimeToFiletime (t : SystemTime) : UInt64 :=
  if 0 ≤ t then UInt64.ofNat (filetimeOffset + t.toNat / 100) else 0

def filetimeToSystemTime (ft : UInt64) : Option SystemTime :=
  if ft.toNat < filetimeOffset then none
  else some (((ft.toNat - filetimeOffset) * 100 : Nat) : Int)

/-- A time that the platform does not have is taken from the others. -/
def fileInfoFromMetadata (name : Text) (md : Metadata) : FileInfo :=
  let modified := ((md.modified.or md.created).or md.accessed).getD 0
  let accessed := md.accessed.getD modified
  let created := md.created.getD modified
  { name := name
    endOfFile := md.len
    allocationSize := md.len
    creationTime := systemTimeToFiletime created
    lastAccessTime := systemTimeToFiletime accessed
    lastWriteTime := systemTimeToFiletime modified
    changeTime := systemTimeToFiletime modified
    isDirectory := md.isDir
    fileIndex := 0 }

/-! ### Calls -/

/-- The calls on what is open: a file, or a directory by its identity. -/
inductive HandleCall where
  | readAt (file : FileDesc) (offset len : Nat)
  | writeAt (file : FileDesc) (offset : Nat) (data : Bytes)
  | syncData (file : FileDesc)
  | metadata (file : FileDesc)
  | setTimes (file : FileDesc) (modified accessed : Option SystemTime)
  | setLen (file : FileDesc) (len : Nat)
  | dirMetadata (dir : Nat)
  | entries (dir : Nat)
  | entryMetadata (dir : Nat) (name : OsName)

/-- What a call replies when it succeeds. Reading a directory can fail at each entry. -/
def HandleCall.Reply : HandleCall → Type
  | .readAt .. => Bytes
  | .writeAt .. => Nat
  | .syncData _ | .setTimes .. | .setLen .. => Unit
  | .metadata _ | .dirMetadata _ | .entryMetadata .. => Metadata
  | .entries _ => List (Except IoError OsName)

/-- A call that writes, truncates or changes times. -/
def HandleCall.mutates : HandleCall → Bool
  | .writeAt .. | .setTimes .. | .setLen .. => true
  | .readAt .. | .syncData _ | .metadata _ | .dirMetadata _ | .entries _ | .entryMetadata .. =>
    false

/-- A call of the backend below the share root, or one of a handle. -/
inductive LocalCall where
  | path (c : FsCall Text)
  | handle (c : HandleCall)

def LocalCall.Reply : LocalCall → Type
  | .path c => Except IoError c.Reply
  | .handle c => Except IoError c.Reply

/-- An open of `.` or `..` is counted for what it asks, though nothing is created there. -/
def LocalCall.mutates : LocalCall → Bool
  | .path (.openDots _ _ flags) => flags.create || flags.createNew || flags.truncate
  | .path c => c.mutates
  | .handle c => c.mutates

/-- A program that may end with an error. -/
abbrev LocalProgram (α : Type) := ExceptT SmbError (Program LocalCall LocalCall.Reply) α

/-- One call on what is open. -/
def askHandle (c : HandleCall) : LocalProgram c.Reply := ExceptT.mk do
  let reply : Except IoError c.Reply ← Program.perform (LocalCall.handle c)
  return reply.mapError ioToSmb

/-- A program of calls below the share root among others. -/
def liftCalls {α : Type} : FsProg Text α → Program LocalCall LocalCall.Reply α
  | .done a => .done a
  | .call c next => .call (.path c) fun reply => liftCalls (next reply)

/-- A method of the backend among others. -/
def LocalProg.lift {α : Type} (prog : LocalProg α) : LocalProgram α :=
  ExceptT.mk (liftCalls prog.run)

/-! ### Methods -/

namespace LocalHandle

def readCalls (offset : UInt64) (len : UInt32) : LocalHandle → LocalProgram Bytes
  | .file _ fd _ => askHandle (.readAt fd offset.toNat len.toNat)
  | .dir .. => throw .isDirectory

/-- The number of bytes is cut off at 32 bits. -/
def writeOwnedCalls (offset : UInt64) (data : Bytes) : LocalHandle → LocalProgram UInt32
  | .file _ fd readOnly =>
    if readOnly then throw .accessDenied
    else do
      let written : Nat ← askHandle (.writeAt fd offset.toNat data)
      return UInt32.ofNat (min written (2 ^ 32 - 1))
  | .dir .. => throw .isDirectory

def writeCalls (offset : UInt64) (data : Bytes) (h : LocalHandle) : LocalProgram UInt32 :=
  h.writeOwnedCalls offset data

/-- Flushing a directory does nothing. -/
def flushCalls : LocalHandle → LocalProgram Unit
  | .file _ fd _ => askHandle (.syncData fd)
  | .dir .. => return ()

def statCalls : LocalHandle → LocalProgram FileInfo
  | .file name fd _ => do
    let md : Metadata ← askHandle (.metadata fd)
    return fileInfoFromMetadata name md
  | .dir name dirHandle => do
    let md : Metadata ← askHandle (.dirMetadata dirHandle)
    return fileInfoFromMetadata name md

/-- The creation and change times cannot be set and are ignored. -/
def setTimesCalls (times : FileTimes) : LocalHandle → LocalProgram Unit
  | .file _ fd readOnly =>
    if readOnly then throw .accessDenied
    else
      askHandle (.setTimes fd (times.lastWriteTime.bind filetimeToSystemTime)
        (times.lastAccessTime.bind filetimeToSystemTime))
  | .dir .. => throw .notSupported

def truncateCalls (len : UInt64) : LocalHandle → LocalProgram Unit
  | .file _ fd readOnly =>
    if readOnly then throw .accessDenied else askHandle (.setLen fd len.toNat)
  | .dir .. => throw .notSupported

/-- The name of an entry that is listed: Unicode, not the streams' directory, and matching. -/
def listedName (pattern : Option Text) (entry : OsName) : Option Text :=
  match entry.toStr with
  | none => none
  | some name =>
    if name.eqIgnoreAsciiCase streamsDir then none
    else if pattern.any fun p => !dosPatternMatches p name then none
    else some name

/-- The loop over the entries; metadata are asked for as it goes. -/
def listEntries (dirHandle : Nat) (pattern : Option Text) :
    List (Except IoError OsName) → LocalProgram (List DirEntry)
  | [] => return []
  | .error e :: _ => throw (ioToSmb e)
  | .ok entry :: rest =>
    match listedName pattern entry with
    | none => listEntries dirHandle pattern rest
    | some name => do
      let md : Metadata ← askHandle (.entryMetadata dirHandle entry)
      let out ← listEntries dirHandle pattern rest
      return ⟨fileInfoFromMetadata name md⟩ :: out

def listDirCalls (pattern : Option Text) : LocalHandle → LocalProgram (List DirEntry)
  | .file .. => throw .notADirectory
  | .dir _ dirHandle => do
    let entries : List (Except IoError OsName) ← askHandle (.entries dirHandle)
    listEntries dirHandle pattern entries

/-- Dropping the handle is enough. -/
def closeCalls (_ : LocalHandle) : LocalProgram Unit := return ()

end LocalHandle

/-! ### Running the methods -/

/-- What a tree does not say: metadata, and the names in a directory that are not Unicode. -/
structure HostView where
  metadata : Node Nat → Metadata
  entryMetadata : Nat → OsName → Metadata
  names : Nat → List OsName

/-- The times of a file are not in the tree. -/
def HandleCall.exec (view : HostView) (fs : Fs Text) :
    (c : HandleCall) → Except IoError c.Reply × Fs Text
  | .readAt file offset len => (fs.readAt file offset len, fs)
  | .writeAt file offset data => fs.writeAt file offset data
  | .syncData _ => (.ok (), fs)
  | .metadata file => (.ok (view.metadata file.node), fs)
  | .setTimes .. => (.ok (), fs)
  | .setLen file len => fs.setLen file len
  | .dirMetadata dir => (.ok (view.metadata (.dir dir)), fs)
  | .entries dir => (.ok ((view.names dir).map .ok), fs)
  | .entryMetadata dir name => (.ok (view.entryMetadata dir name), fs)

def LocalCall.exec (view : HostView) (fs : Fs Text) : (c : LocalCall) → c.Reply × Fs Text
  | .path c => c.exec fs
  | .handle c => c.exec view fs

/-- The result of a method that nothing interferes with, and the tree behind it. -/
def LocalProgram.runOn {α : Type} (view : HostView) (fs : Fs Text) (prog : LocalProgram α) :
    SmbResult α × Fs Text :=
  Program.run (LocalCall.exec view) fs prog.run

namespace LocalProgram

variable {α β : Type} (view : HostView) (fs : Fs Text)

theorem runOn_bind (prog : LocalProgram α) (f : α → LocalProgram β) :
    (prog >>= f).runOn view fs =
      match prog.runOn view fs with
      | (.ok a, fs) => (f a).runOn view fs
      | (.error e, fs) => (.error e, fs) := by
  have split := Program.run_bind (LocalCall.exec view) fs prog.run (ExceptT.bindCont f)
  show Program.run (LocalCall.exec view) fs (prog.run >>= ExceptT.bindCont f) = _
  rw [split, runOn]
  generalize Program.run (LocalCall.exec view) fs prog.run = reached
  obtain ⟨result, fs⟩ := reached
  cases result <;> rfl

/-- A call on what is open, and what follows it. -/
theorem runOn_askHandle (c : HandleCall) (f : c.Reply → LocalProgram α) :
    (askHandle c >>= f).runOn view fs =
      match (c.exec view fs).1 with
      | .ok reply => (f reply).runOn view (c.exec view fs).2
      | .error e => (.error (ioToSmb e), (c.exec view fs).2) := by
  have asked : (askHandle c).runOn view fs =
      ((c.exec view fs).1.mapError ioToSmb, (c.exec view fs).2) := rfl
  rw [runOn_bind, asked]
  cases (c.exec view fs).1 <;> rfl

end LocalProgram

theorem runOn_lift {α : Type} (view : HostView) (fs : Fs Text) (prog : LocalProg α) :
    prog.lift.runOn view fs = FsProg.run fs prog.run := by
  show Program.run (LocalCall.exec view) fs (liftCalls prog.run) = _
  generalize prog.run = body
  induction body generalizing fs with
  | done a => rfl
  | call c next ih => exact ih (c.exec fs).1 (c.exec fs).2

namespace LocalHandle

theorem runOn_readCalls (view : HostView) (fs : Fs Text) (h : LocalHandle) (offset : UInt64)
    (len : UInt32) : (h.readCalls offset len).runOn view fs = (h.read fs offset len, fs) := by
  cases h <;> rfl

theorem runOn_writeOwnedCalls (view : HostView) (fs : Fs Text) (h : LocalHandle)
    (offset : UInt64) (data : Bytes) :
    (h.writeOwnedCalls offset data).runOn view fs = h.writeOwned fs offset data := by
  cases h with
  | dir => rfl
  | file name fd readOnly =>
    cases readOnly with
    | true => rfl
    | false =>
      refine (LocalProgram.runOn_askHandle view fs (.writeAt fd offset.toNat data) _).trans ?_
      simp only [HandleCall.exec, writeOwned, Bool.false_eq_true, if_false]
      generalize fs.writeAt fd offset.toNat data = reply
      obtain ⟨result, fs'⟩ := reply
      cases result <;> rfl

theorem runOn_truncateCalls (view : HostView) (fs : Fs Text) (h : LocalHandle) (len : UInt64) :
    (h.truncateCalls len).runOn view fs = h.truncate fs len := by
  cases h with
  | dir => rfl
  | file name fd readOnly =>
    cases readOnly with
    | true => rfl
    | false =>
      show ((fs.setLen fd len.toNat).1.mapError ioToSmb, (fs.setLen fd len.toNat).2) = _
      simp only [truncate, Bool.false_eq_true, if_false]
      generalize fs.setLen fd len.toNat = reply
      obtain ⟨result, fs'⟩ := reply
      cases result <;> rfl

end LocalHandle

/-! ### Users of a backend -/

/-- A call of a handle's method. -/
inductive HandleOp where
  | read (offset : UInt64) (len : UInt32)
  | write (offset : UInt64) (data : Bytes)
  | writeOwned (offset : UInt64) (data : Bytes)
  | flush
  | stat
  | setTimes (times : FileTimes)
  | truncate (len : UInt64)
  | listDir (pattern : Option Text)
  | close

/-- The method, whatever it returns. -/
def LocalHandle.serve (h : LocalHandle) : HandleOp → LocalProgram Unit
  | .read offset len => discard (h.readCalls offset len)
  | .write offset data => discard (h.writeCalls offset data)
  | .writeOwned offset data => discard (h.writeOwnedCalls offset data)
  | .flush => h.flushCalls
  | .stat => discard h.statCalls
  | .setTimes times => h.setTimesCalls times
  | .truncate len => h.truncateCalls len
  | .listDir pattern => discard (h.listDirCalls pattern)
  | .close => h.closeCalls

/-- A user of a backend: calls of its methods and of the handles it has returned, in any order and
with any replies of the host. The handles returned so far, and the calls made so far. -/
inductive LocalSession (b : LocalFsBackend) : List LocalHandle → List LocalCall → Prop where
  | start : LocalSession b [] []
  | opened {hs : List LocalHandle} {calls new : List LocalCall} {result : SmbResult LocalHandle}
      (before : LocalSession b hs calls) (path : SmbPath) (opts : OpenOptions)
      (performs : (b.open path opts).lift.run.Performs new result) :
      LocalSession b (result.toOption.toList ++ hs) (calls ++ new)
  | unlinked {hs : List LocalHandle} {calls new : List LocalCall} {result : SmbResult Unit}
      (before : LocalSession b hs calls) (path : SmbPath)
      (performs : (b.unlink path).lift.run.Performs new result) :
      LocalSession b hs (calls ++ new)
  | renamed {hs : List LocalHandle} {calls new : List LocalCall} {result : SmbResult Unit}
      (before : LocalSession b hs calls) (src dst : SmbPath) (replace : Bool)
      (performs : (b.rename src dst replace).lift.run.Performs new result) :
      LocalSession b hs (calls ++ new)
  | served {hs : List LocalHandle} {calls new : List LocalCall} {result : SmbResult Unit}
      (before : LocalSession b hs calls) (h : LocalHandle) (returned : h ∈ hs) (op : HandleOp)
      (performs : (h.serve op).run.Performs new result) :
      LocalSession b hs (calls ++ new)

end SmbServer
