import SmbServer.Properties.Disposition

/-!
# SmbServer.Properties.StreamStore

What the clients of a share with named streams see of it: the replies to opens, reads, writes,
unlinks and renames, one after another.

`StreamStore` is the share as it is meant: each file carries its own streams, wherever it goes. It
is compared with what `LocalFsBackend` makes of a tree, where streams are kept by the path of their
file (`streamRelPath`).
-/

namespace SmbServer

open Lib

/-! ### Clients -/

/-- A request to a share. A handle is named by the number of the open that has returned it. -/
inductive ShareOp where
  | «open» (path : SmbPath) (opts : OpenOptions)
  | read (handle : Nat) (offset : UInt64) (len : UInt32)
  | write (handle : Nat) (offset : UInt64) (data : Bytes)
  | truncate (handle : Nat) (len : UInt64)
  | unlink (path : SmbPath)
  | rename (src dst : SmbPath) (replace : Bool)

inductive ShareReply where
  | done (result : SmbResult Unit)
  | bytes (result : SmbResult Bytes)
  | written (result : SmbResult UInt32)
  | noHandle

/-- The methods of a backend that has files and streams in `σ`. -/
class StreamShare (σ : Type) where
  «open» : LocalFsBackend → SmbPath → OpenOptions → σ → SmbResult LocalHandle × σ
  unlink : LocalFsBackend → SmbPath → σ → SmbResult Unit × σ
  rename : LocalFsBackend → SmbPath → SmbPath → Bool → σ → SmbResult Unit × σ
  /-- Where the handles read and write. -/
  files : σ → Fs Text
  setFiles : Fs Text → σ → σ

/-- A share, and the handles of all opens so far. -/
structure SharedState (σ : Type) where
  share : σ
  handles : List LocalHandle

namespace SharedState

variable {σ : Type} [StreamShare σ]

/-- A request on a handle. -/
def onHandle (s : SharedState σ) (handle : Nat)
    (request : LocalHandle → Fs Text → ShareReply × Fs Text) : ShareReply × SharedState σ :=
  match s.handles[handle]? with
  | none => (.noHandle, s)
  | some h =>
    let (reply, files) := request h (StreamShare.files s.share)
    (reply, { s with share := StreamShare.setFiles files s.share })

def exec (b : LocalFsBackend) (s : SharedState σ) : ShareOp → ShareReply × SharedState σ
  | .open path opts =>
    match StreamShare.open b path opts s.share with
    | (.ok h, share) => (.done (.ok ()), ⟨share, s.handles ++ [h]⟩)
    | (.error e, share) => (.done (.error e), ⟨share, s.handles⟩)
  | .read handle offset len => s.onHandle handle fun h fs => (.bytes (h.read fs offset len), fs)
  | .write handle offset data =>
    s.onHandle handle fun h fs =>
      let (written, fs) := h.writeOwned fs offset data
      (.written written, fs)
  | .truncate handle len =>
    s.onHandle handle fun h fs =>
      let (result, fs) := h.truncate fs len
      (.done result, fs)
  | .unlink path =>
    let (result, share) := StreamShare.unlink b path s.share
    (.done result, ⟨share, s.handles⟩)
  | .rename src dst replace =>
    let (result, share) := StreamShare.rename b src dst replace s.share
    (.done result, ⟨share, s.handles⟩)

/-- The state behind a request. -/
def next (b : LocalFsBackend) (s : SharedState σ) (op : ShareOp) : SharedState σ := (s.exec b op).2

/-- What the clients are told. -/
def replies (b : LocalFsBackend) (s : SharedState σ) : List ShareOp → List ShareReply
  | [] => []
  | op :: ops => (s.exec b op).1 :: (s.next b op).replies b ops

end SharedState

/-! ### The two shares -/

/-- What `LocalFsBackend` makes of a tree. -/
instance : StreamShare (Fs Text) where
  «open» b path opts fs := (b.open path opts).runOn fs
  unlink b path fs := (b.unlink path).runOn fs
  rename b src dst replace fs := (b.rename src dst replace).runOn fs
  files fs := fs
  setFiles files _ := files

/-- Files and directories, and for each file its streams. A stream is held by the file that has its
bytes, which sits at no path. -/
structure StreamStore where
  files : Fs Text
  streams : Nat → Text → Option Nat

namespace StreamStore

/-- A new, empty stream of a file. -/
def addStream (m : StreamStore) (host : Nat) (stream : Text) : StreamStore where
  files := { m.files with
    contents := Function.update m.files.contents m.files.nextFile []
    nextFile := m.files.nextFile + 1 }
  streams := Function.update m.streams host
    (Function.update (m.streams host) stream (some m.files.nextFile))

/-- Files that have been created since have no streams. -/
def fresh (streams : Nat → Text → Option Nat) (nextFile : Nat) (id : Nat) (stream : Text) :
    Option Nat :=
  if id < nextFile then streams id stream else none

/-- The dispositions on a stream of the file at the path. -/
def openStream (b : LocalFsBackend) (path : List Text) (stream : Text) (opts : OpenOptions)
    (m : StreamStore) : SmbResult LocalHandle × StreamStore :=
  let handle (obj : Nat) : LocalHandle :=
    .file stream ⟨.file obj, (capOptions opts).read, (capOptions opts).write⟩ b.readOnly
  match m.files.find path with
  | .error e => (.error (ioToSmb e), m)
  | .ok (.dir _) => (.error .isDirectory, m)
  | .ok (.file host) =>
    match m.streams host stream with
    | none =>
      if opts.intent.creates then (.ok (handle m.files.nextFile), m.addStream host stream)
      else (.error .notFound, m)
    | some obj =>
      if opts.intent = .create then (.error .exists, m)
      else if opts.intent.truncates then
        (.ok (handle obj), { m with files := m.files.setContents obj [] })
      else (.ok (handle obj), m)

/-- Without a stream, an open is one of the tree. -/
def «open» (b : LocalFsBackend) (path : SmbPath) (opts : OpenOptions) (m : StreamStore) :
    SmbResult LocalHandle × StreamStore :=
  match path.streamName with
  | none =>
    let (result, files) := (b.open path opts).runOn m.files
    (result, ⟨files, fresh m.streams m.files.nextFile⟩)
  | some stream =>
    if b.readOnly && opts.writes then (.error .accessDenied, m)
    else if isStreamsControlPath path then (.error .accessDenied, m)
    else if opts.directory then (.error .nameInvalid, m)
    else m.openStream b path.components stream opts

/-- A file takes its streams with it. -/
def unlink (b : LocalFsBackend) (path : SmbPath) (m : StreamStore) :
    SmbResult Unit × StreamStore :=
  let (result, files) := (b.unlink path).runOn m.files
  match result, m.files.node path.components with
  | .ok (), some (.file host) =>
    (result, ⟨files, Function.update m.streams host fun _ => none⟩)
  | _, _ => (result, ⟨files, m.streams⟩)

/-- A file that moves keeps its streams. -/
def rename (b : LocalFsBackend) (src dst : SmbPath) (replace : Bool) (m : StreamStore) :
    SmbResult Unit × StreamStore :=
  let (result, files) := (b.rename src dst replace).runOn m.files
  (result, ⟨files, m.streams⟩)

instance : StreamShare StreamStore where
  «open» := StreamStore.open
  unlink := unlink
  rename := rename
  files m := m.files
  setFiles files m := { m with files }

end StreamStore

end SmbServer
