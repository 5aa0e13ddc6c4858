import SmbServer.Path

/-!
# SmbServer.Backend

The storage abstraction of `backend.rs`. A `ShareBackend` and its handles are code of the embedding
application, so a server runs over an arbitrary `Host`: a state and, for every trait method, a
function that answers a call and changes that state. Randomness and the clock are answered by the
host as well.
-/

namespace SmbServer

open Lib

/-- Translated CREATE intent. -/
inductive OpenIntent where
  | open
  | create
  | openOrCreate
  | overwriteOrCreate
  | truncate
  deriving DecidableEq, Repr

structure OpenOptions where
  read : Bool
  write : Bool
  intent : OpenIntent
  directory : Bool
  nonDirectory : Bool
  deleteOnClose : Bool
  deriving DecidableEq, Repr

structure FileInfo where
  name : Text
  endOfFile : UInt64
  allocationSize : UInt64
  creationTime : UInt64
  lastAccessTime : UInt64
  lastWriteTime : UInt64
  changeTime : UInt64
  isDirectory : Bool
  fileIndex : UInt64
  deriving DecidableEq

def FileInfo.attributes (info : FileInfo) : UInt32 :=
  if info.isDirectory then 0x00000010 else 0x00000080

structure DirEntry where
  info : FileInfo
  deriving DecidableEq

/-- FILETIME values for `set_times`; `none` leaves the field unchanged. -/
structure FileTimes where
  creationTime : Option UInt64
  lastAccessTime : Option UInt64
  lastWriteTime : Option UInt64
  changeTime : Option UInt64
  deriving DecidableEq

structure BackendCapabilities where
  isReadOnly : Bool
  caseSensitive : Bool
  supportsNamedStreams : Bool
  deriving DecidableEq

/-- An `Arc<dyn ShareBackend>`: one of the application's, or the no-op backend of `IPC$`. -/
inductive BackendRef where
  | custom (n : Nat)
  | notSupported
  deriving DecidableEq, Repr

/-- What the server runs over: application backends with state `σ` and handles `η`, the operating
system's random bytes and its clock. -/
class Host (σ : Type) (η : outParam Type) where
  capabilities : Nat → BackendCapabilities
  «open» : Nat → SmbPath → OpenOptions → σ → SmbResult η × σ
  unlink : Nat → SmbPath → σ → SmbResult Unit × σ
  rename : Nat → SmbPath → SmbPath → Bool → σ → SmbResult Unit × σ
  read : η → UInt64 → UInt32 → σ → SmbResult Bytes × σ
  writeOwned : η → UInt64 → Bytes → σ → SmbResult UInt32 × σ
  flush : η → σ → SmbResult Unit × σ
  stat : η → σ → SmbResult FileInfo × σ
  setTimes : η → FileTimes → σ → SmbResult Unit × σ
  truncate : η → UInt64 → σ → SmbResult Unit × σ
  listDir : η → Option Text → σ → SmbResult (List DirEntry) × σ
  close : η → σ → SmbResult Unit × σ
  fillRandom : (n : Nat) → σ → ByteVec n × σ
  nowFiletime : σ → UInt64 × σ

namespace BackendRef

variable {σ η : Type} [Host σ η]

def capabilities (σ : Type) {η : Type} [Host σ η] : BackendRef → BackendCapabilities
  | .custom n => Host.capabilities σ n
  | .notSupported => ⟨true, false, false⟩

def «open» : BackendRef → SmbPath → OpenOptions → σ → SmbResult η × σ
  | .custom n, path, opts, s => Host.open n path opts s
  | .notSupported, _, _, s => (.error .notSupported, s)

def unlink : BackendRef → SmbPath → σ → SmbResult Unit × σ
  | .custom n, path, s => Host.unlink n path s
  | .notSupported, _, s => (.error .notSupported, s)

def rename : BackendRef → SmbPath → SmbPath → Bool → σ → SmbResult Unit × σ
  | .custom n, src, dst, replace, s => Host.rename n src dst replace s
  | .notSupported, _, _, _, s => (.error .notSupported, s)

end BackendRef

end SmbServer
