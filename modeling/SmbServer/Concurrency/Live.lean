import SmbServer.Concurrency.Config
import SmbServer.Handlers.Tree
import SmbServer.Handlers.Session

/-!
# SmbServer.Concurrency.Live

Requests and configuration operations on live connections, cut into their lock-guarded sections and
backend calls.

Sessions and trees are reached through an `Arc`, so that a request may hold one that is no longer in
its table; they live in lists here, and an arc is a position. A request is the phase it is in, with
what its handler holds in its locals. Between two sections a handler only computes: where that can
end a request with an error, `refuse` ends it.

What a configuration operation closes behind its edit is a list of tasks, worked off from the
front; a task puts what it finds in front of the rest.
-/

namespace SmbServer

open Lib

/-! ### Objects behind an `Arc` -/

structure LiveSession where
  identity : Identity
  trees : Table UInt32 Nat
  nextTreeId : UInt32

/-- `readAt` is history: how many sections of configuration operations had run when TREE_CONNECT read
the access control list. -/
structure LiveTree where
  share : ShareBindings
  grantedAccess : Access
  readAt : Nat
  opens : Table FileId Nat
  nextVolatile : UInt64

/-- A handle that `backend.open` has returned for a CREATE on `tree`. -/
structure LiveHandle where
  tree : Nat
  closed : Bool

/-! ### Phases -/

/-- Where a request is. The last round of SESSION_SETUP starts with the acceptor it has taken. -/
inductive Request where
  | idle
  | setup (cid sid : UInt64) (acceptor : NtlmServer) (token : Bytes)
  | authenticates (cid sid : UInt64) (acceptor : NtlmServer) (token : Bytes)
      (users : Table Text UserCreds)
  | insertsSession (cid sid : UInt64) (identity : Identity)
  | treeConnect (cid sid : UInt64) (shareName : Text)
  | findsShare (sref : Nat) (shareName : Text)
  | authorizes (sref : Nat) (share : ShareBindings)
  | allocsTreeId (sref : Nat) (share : ShareBindings) (granted : Access) (readAt : Nat)
  | insertsTree (sref : Nat) (tid : UInt32) (share : ShareBindings) (granted : Access)
      (readAt : Nat)
  | create (cid sid : UInt64) (tid : UInt32)
  | findsTree (sref : Nat) (tid : UInt32)
  | opens (tref : Nat)
  | stats (tref handle : Nat)
  | registers (tref handle : Nat)
  | closes (tref handle : Nat)
  | done

namespace Request

/-- The requests as they arrive. -/
def Arrives : Request → Prop
  | .setup .. | .treeConnect .. | .create .. => True
  | _ => False

/-- How a request goes on after an error; a handle that has been opened is closed. -/
def refused : Request → Option Request
  | .idle | .done | .registers .. | .closes .. => none
  | .stats tref handle => some (.closes tref handle)
  | _ => some .done

/-- The handle that a CREATE has in its locals, and its tree. -/
def handle : Request → Option (Nat × Nat)
  | .stats tref handle | .registers tref handle | .closes tref handle => some (tref, handle)
  | _ => none

/-- A CREATE on `tref` that is not done. -/
def Holds (tref : Nat) : Request → Prop
  | .opens tref' | .stats tref' _ | .registers tref' _ | .closes tref' _ => tref' = tref
  | _ => False

end Request

/-- What is left to do behind an edit: `ActiveConnections::live`, `close_sessions_for_user` and
`close_matching_trees` on a connection and on a session, `close_session`, `close_session_state`,
`remove_tree_from_session`, `close_tree_state`, `Handle::close`. -/
inductive Task where
  | live
  | conn (cid : UInt64)
  | session (sref : Nat)
  | removeSession (cid sid : UInt64)
  | drainSession (sref : Nat)
  | removeTree (sref : Nat) (tid : UInt32)
  | drainTree (tref : Nat)
  | close (handle : Nat)
  deriving DecidableEq

/-- What an operation has revoked, and by which section. -/
inductive Revocation where
  | removed (share : ShareBindings)
  | user (share : ShareBindings) (user : Text) (edit : Nat)
  | mode (share : ShareBindings) (edit : Nat)

/-- The revocation of a section that takes a call to `next`. -/
def ConfigCall.revokes (server : ServerState) (edit : Nat) (call next : ConfigCall) :
    Option Revocation :=
  match call, next with
  | .called (.removeShare name), .sweeps _ => (server.findShare name).map .removed
  | .revokesOn share _ user, .sweeps _ => some (.user share user edit)
  | .setsModeOn share _ _, .sweeps _ => some (.mode share edit)
  | _, _ => none

/-! ### The state -/

/-- `edits`, `revoked`, `removedBy` and `closedBy` are history: the sections that have run, what a
call has revoked, the call that removed a user who has not been added since, and the call that took
a tree out of its session. -/
structure LiveState (ι κ : Type) where
  server : ServerState
  conns : Table UInt64 (Table UInt64 Nat)
  sessions : List LiveSession
  trees : List LiveTree
  handles : List LiveHandle
  requests : ι → Request
  calls : κ → ConfigCall
  work : κ → List Task
  edits : Nat
  revoked : κ → Option Revocation
  removedBy : Text → Option κ
  closedBy : Nat → Option κ

namespace LiveState

variable {ι κ : Type}

/-- A server that has just started. -/
def start (server : ServerState) : LiveState ι κ where
  server := server
  conns := Table.empty
  sessions := []
  trees := []
  handles := []
  requests := fun _ => .idle
  calls := fun _ => .idle
  work := fun _ => []
  edits := 0
  revoked := fun _ => none
  removedBy := fun _ => none
  closedBy := fun _ => none

/-- The arc of the session in a connection's table. -/
def findSession (s : LiveState ι κ) (cid sid : UInt64) : Option Nat :=
  (s.conns.lookup cid).bind fun sessions => sessions.lookup sid

/-- `lookup_session`: the session id of a request is not zero. -/
def lookupSession (s : LiveState ι κ) (cid sid : UInt64) : Option Nat :=
  if sid = 0 then none else s.findSession cid sid

/-- The arc of the tree in a session's table. -/
def findTree (s : LiveState ι κ) (sref : Nat) (tid : UInt32) : Option Nat :=
  s.sessions[sref]?.bind fun sess => sess.trees.lookup tid

def modifySession (s : LiveState ι κ) (sref : Nat) (f : LiveSession → LiveSession) :
    LiveState ι κ :=
  { s with sessions := s.sessions.modify sref f }

def modifyTree (s : LiveState ι κ) (tref : Nat) (f : LiveTree → LiveTree) : LiveState ι κ :=
  { s with trees := s.trees.modify tref f }

def closeHandle (s : LiveState ι κ) (handle : Nat) : LiveState ι κ :=
  { s with handles := s.handles.modify handle fun h => { h with closed := true } }

/-! ### Requests -/

def insertSession (s : LiveState ι κ) (cid sid : UInt64) (identity : Identity) : LiveState ι κ :=
  { s with
    sessions := s.sessions ++ [⟨identity, Table.empty, 1⟩]
    conns := s.conns.modify cid fun sessions => sessions.insert sid s.sessions.length }

def insertTree (s : LiveState ι κ) (sref : Nat) (tid : UInt32) (share : ShareBindings)
    (granted : Access) (readAt : Nat) : LiveState ι κ :=
  { s with
    trees := s.trees ++ [⟨share, granted, readAt, Table.empty, 1⟩]
    sessions := s.sessions.modify sref fun sess =>
      { sess with trees := sess.trees.insert tid s.trees.length } }

/-- Allocate a file id and register the open. -/
def registerOpen (s : LiveState ι κ) (tref handle : Nat) : LiveState ι κ :=
  s.modifyTree tref fun tree =>
    { tree with
      opens := tree.opens.insert ⟨tree.nextVolatile, tree.nextVolatile⟩ handle
      nextVolatile := tree.nextVolatile + 1 }

variable (σ : Type) {η : Type} [Host σ η] [Crypto]

/-- The next section of a request. -/
def advance (s : LiveState ι κ) : Request → LiveState ι κ × Request
  -- the table of users is copied, and the lock let go of
  | .setup cid sid acceptor token =>
    (s, .authenticates cid sid acceptor token s.server.users)
  | .authenticates cid sid acceptor token users =>
    match acceptor.authenticate token users.lookup with
    | none => (s, .done)
    | some outcome => (s, .insertsSession cid sid outcome.identity)
  | .insertsSession cid sid identity => (s.insertSession cid sid identity, .done)
  | .treeConnect cid sid shareName =>
    match s.lookupSession cid sid with
    | none => (s, .done)
    | some sref => (s, .findsShare sref shareName)
  | .findsShare sref shareName =>
    match TreeConnect.bindShare s.server shareName with
    | none => (s, .done)
    | some share => (s, .authorizes sref share)
  -- the list of the share is read here, before there is a tree that a sweep could find
  | .authorizes sref share =>
    match s.sessions[sref]?.bind fun sess =>
      TreeConnect.grantedOn σ s.server share sess.identity with
    | none => (s, .done)
    | some granted => (s, .allocsTreeId sref share granted s.edits)
  | .allocsTreeId sref share granted readAt =>
    match s.sessions[sref]? with
    | none => (s, .done)
    | some sess =>
      (s.modifySession sref fun sess => { sess with nextTreeId := sess.nextTreeId + 1 },
        .insertsTree sref sess.nextTreeId share granted readAt)
  | .insertsTree sref tid share granted readAt =>
    (s.insertTree sref tid share granted readAt, .done)
  | .create cid sid tid =>
    match s.lookupSession cid sid with
    | none => (s, .done)
    | some sref => (s, .findsTree sref tid)
  -- from here on CREATE has the tree itself, whatever becomes of its entry
  | .findsTree sref tid =>
    match s.findTree sref tid with
    | none => (s, .done)
    | some tref => (s, .opens tref)
  | .opens tref => ({ s with handles := s.handles ++ [⟨tref, false⟩] }, .stats tref s.handles.length)
  | .stats tref handle => (s, .registers tref handle)
  | .registers tref handle => (s.registerOpen tref handle, .done)
  | .closes _ handle => (s.closeHandle handle, .done)
  | .idle => (s, .idle)
  | .done => (s, .done)

end LiveState

/-! ### Sweeps -/

/-- Whether a sweep closes the trees of a share in a session with this identity. -/
def Sweep.matchesTree (identity : Identity) (share : ShareBindings) : Sweep → Bool
  | .treesForShare shareName => share.name.eqIgnoreAsciiCase shareName
  | .treesForUserShare user shareName =>
    identity.isUser user && share.name.eqIgnoreAsciiCase shareName
  | _ => false

namespace LiveState

variable {ι κ : Type}

def sessionsOfUser (s : LiveState ι κ) (sessions : Table UInt64 Nat) (user : Text) :
    List UInt64 :=
  sessions.keys.filter fun sid =>
    ((sessions.lookup sid).bind (s.sessions[·]?)).any (·.identity.isUser user)

def matchingTrees (s : LiveState ι κ) (sweep : Sweep) (sess : LiveSession) : List UInt32 :=
  sess.trees.keys.filter fun tid =>
    ((sess.trees.lookup tid).bind (s.trees[·]?)).any fun tree =>
      sweep.matchesTree sess.identity tree.share

/-- The trees that call `k` takes out of a session. -/
def closers (s : LiveState ι κ) (k : κ) (taken : List Nat) (tref : Nat) : Option κ :=
  if tref ∈ taken then some k else s.closedBy tref

/-- One task of call `k`, and the tasks that follow from it. -/
def perform (s : LiveState ι κ) (k : κ) (sweep : Sweep) : Task → LiveState ι κ × List Task
  -- the connections of this moment
  | .live => (s, s.conns.keys.map .conn)
  -- what is gone by the time of its task is passed over
  | .conn cid =>
    match s.conns.lookup cid with
    | none => (s, [])
    | some sessions =>
      match sweep with
      | .sessionsForUser user => (s, (s.sessionsOfUser sessions user).map (.removeSession cid))
      | _ => (s, sessions.vals.map .session)
  | .session sref =>
    match s.sessions[sref]? with
    | none => (s, [])
    | some sess => (s, (s.matchingTrees sweep sess).map (.removeTree sref))
  | .removeSession cid sid =>
    match s.findSession cid sid with
    | none => (s, [])
    | some sref =>
      ({ s with conns := s.conns.modify cid fun sessions => sessions.erase sid },
        [.drainSession sref])
  | .drainSession sref =>
    match s.sessions[sref]? with
    | none => (s, [])
    | some sess =>
      ({ s.modifySession sref fun sess => { sess with trees := Table.empty } with
          closedBy := s.closers k sess.trees.vals },
        sess.trees.vals.map .drainTree)
  | .removeTree sref tid =>
    match s.findTree sref tid with
    | none => (s, [])
    | some tref =>
      ({ s.modifySession sref fun sess => { sess with trees := sess.trees.erase tid } with
          closedBy := s.closers k [tref] },
        [.drainTree tref])
  | .drainTree tref =>
    match s.trees[tref]? with
    | none => (s, [])
    | some tree =>
      (s.modifyTree tref fun tree => { tree with opens := Table.empty },
        tree.opens.vals.map .close)
  | .close handle => (s.closeHandle handle, [])

/-! ### Configuration calls -/

variable [DecidableEq κ]

/-- Who removed a user, behind a section of call `k`. -/
def removers (s : LiveState ι κ) (k : κ) (next : ConfigCall) : Text → Option κ :=
  match s.calls k, next with
  | .called (.addUser name _), .returned (.ok ()) => Function.update s.removedBy name none
  | .called (.removeUser _), .removedUser name => Function.update s.removedBy name (some k)
  | _, _ => s.removedBy

/-- The tasks behind a section. -/
def tasksOf : ConfigCall → List Task
  | .sweeps _ => [.live]
  | _ => []

/-- A section of call `k` that takes the server to `server` and the call to `next`. -/
def configure (s : LiveState ι κ) (k : κ) (server : ServerState) (next : ConfigCall) :
    LiveState ι κ :=
  { s with
    server := server
    calls := Function.update s.calls k next
    work := Function.update s.work k (tasksOf next)
    edits := s.edits + 1
    revoked := Function.update s.revoked k
      (((s.calls k).revokes s.server (s.edits + 1) next).or (s.revoked k))
    removedBy := s.removers k next }

end LiveState

/-! ### Steps -/

inductive LiveAction (ι κ : Type) where
  | accept (cid : UInt64)
  | request (i : ι) (request : Request)
  | advance (i : ι)
  | refuse (i : ι)
  | call (k : κ) (op : ConfigOp)
  | config (k : κ)
  | sweep (k : κ)

section
variable {ι κ : Type} [DecidableEq ι] [DecidableEq κ] (σ : Type) {η : Type} [Host σ η] [Crypto]

/-- Any request and any call may go next. A sweep visits what it has found in any order. -/
inductive LiveStep : LiveState ι κ → LiveAction ι κ → LiveState ι κ → Prop where
  | accept (s : LiveState ι κ) (cid : UInt64) (fresh : s.conns.lookup cid = none) :
      LiveStep s (.accept cid) { s with conns := s.conns.insert cid Table.empty }
  | request (s : LiveState ι κ) (i : ι) (request : Request) (arrives : request.Arrives)
      (here : s.requests i = .idle) :
      LiveStep s (.request i request)
        { s with requests := Function.update s.requests i request }
  | advance (s : LiveState ι κ) (i : ι) :
      LiveStep s (.advance i)
        { (s.advance σ (s.requests i)).1 with
          requests := Function.update s.requests i (s.advance σ (s.requests i)).2 }
  | refuse (s : LiveState ι κ) (i : ι) (next : Request)
      (refused : (s.requests i).refused = some next) :
      LiveStep s (.refuse i) { s with requests := Function.update s.requests i next }
  | call (s : LiveState ι κ) (k : κ) (op : ConfigOp) (here : s.calls k = .idle) :
      LiveStep s (.call k op) { s with calls := Function.update s.calls k (.called op) }
  | config (s : LiveState ι κ) (k : κ) (worked : s.work k = [])
      (free : (s.calls k).writesUsers = true → ∀ j, (s.calls j).readsUsers = false) :
      LiveStep s (.config k)
        (s.configure k ((s.calls k).step s.server).1 ((s.calls k).step s.server).2)
  | sweep (s : LiveState ι κ) (k : κ) (sweep : Sweep) (task : Task) (rest found : List Task)
      (sweeps : s.calls k = .sweeps sweep) (next : s.work k = task :: rest)
      (order : found.Perm (s.perform k sweep task).2) :
      LiveStep s (.sweep k)
        { (s.perform k sweep task).1 with
          work := Function.update s.work k (found ++ rest) }

end

end SmbServer
