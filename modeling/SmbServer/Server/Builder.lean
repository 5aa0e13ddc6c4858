import SmbServer.Server.State

/-!
# SmbServer.Server.Builder

`SmbServerBuilder`: the checks of `build` and the server state it produces (`builder.rs`).
-/

namespace SmbServer

open Lib

/-- One share definition. -/
structure Share where
  name : Text
  backend : BackendRef
  mode : ShareMode
  users : Table Text Access

inductive BuildError where
  | missingListenAddr
  | duplicateShare (name : Text)
  | publicMixedWithUsers (name : Text)
  | unknownUser (share user : Text)
  | reservedUserName (name : Text)
  | emptyUserName
  deriving DecidableEq

/-- `"anonymous"` -/
def anonymousName : Text := ['a', 'n', 'o', 'n', 'y', 'm', 'o', 'u', 's']

/-- A builder with its calls made. The host name, the random GUID and the start time are what the
operating system answers at `build`. -/
structure SmbServerBuilder where
  listenAddr : Option Text
  users : Table Text Text
  userOrder : List Text
  shares : List Share
  netbiosName : Option Text
  maxReadSize : UInt32
  maxWriteSize : UInt32
  serverGuid : Option (ByteVec 16)
  traceSink : Bool
  hostname : Text
  randomGuid : ByteVec 16
  startFiletime : UInt64

namespace SmbServerBuilder

def validateUsers : List Text → Except BuildError Unit
  | [] => .ok ()
  | name :: rest =>
    if name.isEmpty then .error .emptyUserName
    else if name.eqIgnoreAsciiCase anonymousName then .error (.reservedUserName name)
    else validateUsers rest

/-- The first user of a share that the table does not have. -/
def unknownUser (users : Table Text Text) (share : Share) : Option Text :=
  share.users.keys.find? fun u => (users.lookup u).isNone

def validateShares (users : Table Text Text) (seen : List Text) :
    List Share → Except BuildError Unit
  | [] => .ok ()
  | share :: rest =>
    if seen.contains share.name.toAsciiLowercase then .error (.duplicateShare share.name)
    else if share.mode.isPublic && !share.users.keys.isEmpty then
      .error (.publicMixedWithUsers share.name)
    else
      match unknownUser users share with
      | some user => .error (.unknownUser share.name user)
      | none => validateShares users (share.name.toAsciiLowercase :: seen) rest

/-- `"SMBSERVER"` -/
def defaultNetbiosName : Text := ['S', 'M', 'B', 'S', 'E', 'R', 'V', 'E', 'R']

def netbios (b : SmbServerBuilder) : Text :=
  b.netbiosName.getD (if b.hostname.isEmpty then defaultNetbiosName else b.hostname)

/-- The registry of a list of shares; a later share of the same name would replace an earlier. -/
def registerAll (shares : List Share) : ServerShares :=
  shares.foldl (fun s share => s.register share.name share.backend ⟨share.mode, share.users⟩)
    { byName := Table.empty, acls := fun _ => ShareAcl.ipc, nextArc := 0 }

variable [Crypto]

def userTable (b : SmbServerBuilder) : Table Text UserCreds :=
  b.userOrder.foldl (fun t name =>
    t.insert name (UserCreds.fromPassword ((b.users.lookup name).getD []))) Table.empty

def build (b : SmbServerBuilder) : Except BuildError ServerState := do
  validateUsers b.userOrder
  validateShares b.users [] b.shares
  match b.listenAddr with
  | none => .error .missingListenAddr
  | some _ =>
    return { config :=
               { netbiosName := b.netbios
                 maxReadSize := b.maxReadSize
                 maxWriteSize := b.maxWriteSize
                 serverGuid := b.serverGuid.getD b.randomGuid }
             users := b.userTable
             shares := registerAll b.shares
             serverStartFiletime := b.startFiletime
             traceSink := b.traceSink }

end SmbServerBuilder

/-! ### The calls of a builder -/

/-- A method of the builder, called before `build`. -/
inductive BuilderCall where
  | listen (addr : Text)
  | user (name password : Text)
  | share (share : Share)
  | netbiosName (name : Text)
  | maxReadSize (bytes : UInt32)
  | maxWriteSize (bytes : UInt32)
  | serverGuid (guid : ByteVec 16)
  | traceSink

namespace SmbServerBuilder

def new (hostname : Text) (randomGuid : ByteVec 16) (startFiletime : UInt64) :
    SmbServerBuilder where
  listenAddr := none
  users := Table.empty
  userOrder := []
  shares := []
  netbiosName := none
  maxReadSize := 1024 * 1024
  maxWriteSize := 1024 * 1024
  serverGuid := none
  traceSink := false
  hostname := hostname
  randomGuid := randomGuid
  startFiletime := startFiletime

/-- A second password for a user replaces the first; the user is listed once. -/
def user (b : SmbServerBuilder) (name password : Text) : SmbServerBuilder :=
  { b with
    users := b.users.insert name password
    userOrder := if (b.users.lookup name).isSome then b.userOrder else b.userOrder ++ [name] }

def call (b : SmbServerBuilder) : BuilderCall → SmbServerBuilder
  | .listen addr => { b with listenAddr := some addr }
  | .user name password => b.user name password
  | .share share => { b with shares := b.shares ++ [share] }
  | .netbiosName name => { b with netbiosName := some name }
  | .maxReadSize bytes => { b with maxReadSize := bytes }
  | .maxWriteSize bytes => { b with maxWriteSize := bytes }
  | .serverGuid guid => { b with serverGuid := some guid }
  | .traceSink => { b with traceSink := true }

/-- The users are listed, and nothing else is. -/
theorem userOrder_foldl (b : SmbServerBuilder) (calls : List BuilderCall)
    (listed : ∀ name, name ∈ b.userOrder ↔ (b.users.lookup name).isSome) (name : Text) :
    name ∈ (calls.foldl call b).userOrder ↔ ((calls.foldl call b).users.lookup name).isSome := by
  induction calls generalizing b with
  | nil => exact listed name
  | cons first rest ih =>
    apply ih
    cases first with
    -- only this call lists a name, and it lists it once
    | user name' password =>
      intro name
      simp only [call, user, Table.lookup_insert]
      by_cases same : name = name'
      · subst same
        rw [if_pos rfl]
        split
        next before => simpa using (listed name).mpr before
        next => simp
      · rw [if_neg same]
        split
        · exact listed name
        · rw [List.mem_append, List.mem_singleton, listed name]
          simp [same]
    | listen | share | netbiosName | maxReadSize | maxWriteSize | serverGuid | traceSink =>
      exact listed

end SmbServerBuilder

end SmbServer
