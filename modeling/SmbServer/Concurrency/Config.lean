import SmbServer.System
import SmbServer.Lib.Interleave

/-!
# SmbServer.Concurrency.Config

The methods of `ConfigHandle` cut into their lock-guarded sections. A call is the phase it is in; a
phase keeps what the method holds in its locals, and whether it holds the read guard of the user
table: `add_share` and `grant_share_user` keep the guard from their check of the users to their end.
What a call closes on the live connections behind its edit is the one phase `sweeps`.
-/

namespace SmbServer

open Lib

/-! ### The sections -/

/-- Where a call is. -/
inductive ConfigCall where
  | idle
  /-- In front of the first section. -/
  | called (op : ConfigOp)
  /-- `add_share` behind its check of the users, with the read guard. -/
  | addsShare (share : Share)
  /-- `grant_share_user` behind its check of the user, with the read guard. -/
  | grants (shareName user : Text) (access : Access)
  | grantsOn (share : ShareBindings) (user : Text) (access : Access)
  | revokesOn (share : ShareBindings) (shareName user : Text)
  | setsModeOn (share : ShareBindings) (shareName : Text) (mode : ShareMode)
  /-- `remove_user` behind its edit of the table, and on its way through the shares. -/
  | removedUser (name : Text)
  | dropsUser (name : Text) (rest : List ShareBindings)
  | sweeps (sweep : Sweep)
  | returned (result : Except ConfigError Unit)

/-- The checks in front of the first section. -/
def ConfigOp.validate : ConfigOp → Except ConfigError Unit
  | .addUser name _ => validateUserName name
  | .removeUser name => validateUserName name
  | .addShare share => do
    validateShareName share.name
    if share.mode.isPublic && !share.users.keys.isEmpty then
      .error (.publicMixedWithUsers share.name)
  | .removeShare name => validateShareName name
  | .grantShareUser shareName user _ => do
    validateUserName user
    validateShareName shareName
  | .revokeShareUser shareName user => do
    validateUserName user
    validateShareName shareName
  | .setShareMode shareName _ => validateShareName shareName

/-- The first section of an operation. -/
def ConfigOp.first [Crypto] (server : ServerState) : ConfigOp → ServerState × ConfigCall
  -- one write of the table, with nothing before or behind it
  | .addUser name password =>
    ({ server with users := server.users.insert name (UserCreds.fromPassword password) },
      .returned (.ok ()))
  -- the lists of the shares are visited behind this section, one at a time
  | .removeUser name =>
    if (server.users.lookup name).isNone then (server, .returned (.error (.unknownUser name)))
    else ({ server with users := server.users.erase name }, .removedUser name)
  -- the users are looked up here, the name of the share in the next section
  | .addShare share =>
    match share.users.keys.find? fun u => (server.users.lookup u).isNone with
    | some user => (server, .returned (.error (.unknownUser user)))
    | none => (server, .addsShare share)
  | .removeShare name =>
    if (server.findShare name).isNone then (server, .returned (.error (.unknownShare name)))
    else (server.withShares (server.shares.remove name), .sweeps (.treesForShare name))
  | .grantShareUser shareName user access =>
    if (server.users.lookup user).isNone then (server, .returned (.error (.unknownUser user)))
    else (server, .grants shareName user access)
  -- the share is found by name; its list is written in the next section, through the arc
  | .revokeShareUser shareName user =>
    match server.findShare shareName with
    | none => (server, .returned (.error (.unknownShare shareName)))
    | some share => (server, .revokesOn share shareName user)
  | .setShareMode shareName mode =>
    match server.findShare shareName with
    | none => (server, .returned (.error (.unknownShare shareName)))
    | some share => (server, .setsModeOn share shareName mode)

namespace ConfigCall

/-- The next section of a call. -/
def step [Crypto] (server : ServerState) : ConfigCall → ServerState × ConfigCall
  | .idle => (server, .idle)
  | .called op =>
    match op.validate with
    | .error e => (server, .returned (.error e))
    | .ok () => op.first server
  -- the users may have changed since they were looked up
  | .addsShare share =>
    if (server.findShare share.name).isSome then
      (server, .returned (.error (.duplicateShare share.name)))
    else
      (server.withShares
        (server.shares.register share.name share.backend ⟨share.mode, share.users⟩),
        .returned (.ok ()))
  | .grants shareName user access =>
    match server.findShare shareName with
    | none => (server, .returned (.error (.unknownShare shareName)))
    | some share => (server, .grantsOn share user access)
  -- the user is not looked up again
  | .grantsOn share user access =>
    let acl := server.shares.acls share.arc
    if acl.mode.isPublic then (server, .returned (.error (.publicMixedWithUsers share.name)))
    else
      (server.withShares
        (server.shares.setAcl share.arc { acl with users := acl.users.insert user access }),
        .returned (.ok ()))
  | .revokesOn share shareName user =>
    (server.withShares
      (server.shares.setAcl share.arc ((server.shares.acls share.arc).dropUser user)),
      .sweeps (.treesForUserShare user shareName))
  | .setsModeOn share shareName mode =>
    let acl := server.shares.acls share.arc
    if mode.isPublic && !acl.users.keys.isEmpty then
      (server, .returned (.error (.publicMixedWithUsers share.name)))
    else if acl.mode = mode then (server, .returned (.ok ()))
    else
      (server.withShares (server.shares.setAcl share.arc { acl with mode := mode }),
        .sweeps (.treesForShare shareName))
  -- the shares of this moment; one that is added later is not visited
  | .removedUser name => (server, .dropsUser name server.shares.all)
  | .dropsUser name [] => (server, .sweeps (.sessionsForUser name))
  | .dropsUser name (share :: rest) =>
    (server.withShares
      (server.shares.setAcl share.arc ((server.shares.acls share.arc).dropUser name)),
      .dropsUser name rest)
  | .sweeps _ => (server, .returned (.ok ()))
  | .returned result => (server, .returned result)

/-- The call holds the read guard of the user table. -/
def readsUsers : ConfigCall → Bool
  | .addsShare _ | .grants .. | .grantsOn .. => true
  | _ => false

/-- The next section takes the write guard of the user table. -/
def writesUsers : ConfigCall → Bool
  | .called (.addUser ..) | .called (.removeUser _) => true
  | _ => false

/-- Behind the edit of the user table and in front of the sweep of `remove_user`. -/
def Removes (user : Text) : ConfigCall → Prop
  | .removedUser name | .dropsUser name _ => name = user
  | _ => False

/-- A removal of `user` that has not yet visited `share`. -/
def Awaits (share : ShareBindings) (user : Text) : ConfigCall → Prop
  | .removedUser name => name = user
  | .dropsUser name rest => name = user ∧ share ∈ rest
  | _ => False

theorem Awaits.removes {share : ShareBindings} {user : Text} {call : ConfigCall}
    (waits : call.Awaits share user) : call.Removes user := by
  cases call with
  | removedUser name => exact waits
  | dropsUser name rest => exact waits.1
  | _ => cases waits

end ConfigCall

/-! ### What a section does -/

/-- A section, with what it has checked and what it edits. -/
inductive ConfigSection [Crypto] (server : ServerState) :
    ConfigCall → ServerState → ConfigCall → Prop where
  | idle : ConfigSection server .idle server .idle
  | done (result : Except ConfigError Unit) :
      ConfigSection server (.returned result) server (.returned result)
  | failed (call : ConfigCall) (e : ConfigError) (unedited : ∀ user, ¬call.Removes user) :
      ConfigSection server call server (.returned (.error e))
  | addUser (name password : Text) (valid : validateUserName name = .ok ()) :
      ConfigSection server (.called (.addUser name password))
        { server with users := server.users.insert name (UserCreds.fromPassword password) }
        (.returned (.ok ()))
  | removeUser (name : Text) (valid : validateUserName name = .ok ()) :
      ConfigSection server (.called (.removeUser name))
        { server with users := server.users.erase name } (.removedUser name)
  | checkedShare (share : Share)
      (known : ∀ u ∈ share.users.keys, (server.users.lookup u).isSome)
      (exclusive : share.mode.isPublic = true → share.users.keys = []) :
      ConfigSection server (.called (.addShare share)) server (.addsShare share)
  | addShare (share : Share) (fresh : server.findShare share.name = none) :
      ConfigSection server (.addsShare share) (server.withShares
        (server.shares.register share.name share.backend ⟨share.mode, share.users⟩))
        (.returned (.ok ()))
  | removeShare (name : Text) (known : (server.findShare name).isSome) :
      ConfigSection server (.called (.removeShare name))
        (server.withShares (server.shares.remove name)) (.sweeps (.treesForShare name))
  | checkedUser (shareName user : Text) (access : Access)
      (known : (server.users.lookup user).isSome) :
      ConfigSection server (.called (.grantShareUser shareName user access)) server
        (.grants shareName user access)
  | foundGrant (shareName user : Text) (access : Access) (share : ShareBindings)
      (found : server.findShare shareName = some share) :
      ConfigSection server (.grants shareName user access) server (.grantsOn share user access)
  | grant (share : ShareBindings) (user : Text) (access : Access)
      (notPublic : (server.shares.acls share.arc).mode.isPublic = false) :
      ConfigSection server (.grantsOn share user access)
        (server.withShares (server.shares.setAcl share.arc
          { server.shares.acls share.arc with
            users := (server.shares.acls share.arc).users.insert user access }))
        (.returned (.ok ()))
  | foundRevoke (shareName user : Text) (share : ShareBindings)
      (found : server.findShare shareName = some share) :
      ConfigSection server (.called (.revokeShareUser shareName user)) server
        (.revokesOn share shareName user)
  | revoke (share : ShareBindings) (shareName user : Text) :
      ConfigSection server (.revokesOn share shareName user)
        (server.withShares (server.shares.setAcl share.arc
          ((server.shares.acls share.arc).dropUser user)))
        (.sweeps (.treesForUserShare user shareName))
  | foundMode (shareName : Text) (mode : ShareMode) (share : ShareBindings)
      (found : server.findShare shareName = some share) :
      ConfigSection server (.called (.setShareMode shareName mode)) server
        (.setsModeOn share shareName mode)
  | sameMode (share : ShareBindings) (shareName : Text) (mode : ShareMode)
      (same : (server.shares.acls share.arc).mode = mode) :
      ConfigSection server (.setsModeOn share shareName mode) server (.returned (.ok ()))
  | setMode (share : ShareBindings) (shareName : Text) (mode : ShareMode)
      (other : (server.shares.acls share.arc).mode ≠ mode)
      (exclusive : mode.isPublic = true → (server.shares.acls share.arc).users.keys = []) :
      ConfigSection server (.setsModeOn share shareName mode)
        (server.withShares (server.shares.setAcl share.arc
          { server.shares.acls share.arc with mode := mode })) (.sweeps (.treesForShare shareName))
  | snapshot (name : Text) :
      ConfigSection server (.removedUser name) server (.dropsUser name server.shares.all)
  | dropUser (name : Text) (share : ShareBindings) (rest : List ShareBindings) :
      ConfigSection server (.dropsUser name (share :: rest))
        (server.withShares (server.shares.setAcl share.arc
          ((server.shares.acls share.arc).dropUser name))) (.dropsUser name rest)
  | dropped (name : Text) :
      ConfigSection server (.dropsUser name []) server (.sweeps (.sessionsForUser name))
  | swept (sweep : Sweep) :
      ConfigSection server (.sweeps sweep) server (.returned (.ok ()))

section
variable [Crypto] (server : ServerState)

omit [Crypto] in
/-- A public share that passes the check has no users. -/
private theorem exclusive_of_check {mode : ShareMode} {users : Table Text Access}
    (check : ¬(mode.isPublic && !users.keys.isEmpty) = true) (isPublic : mode.isPublic = true) :
    users.keys = [] := by
  simpa [isPublic] using check

private theorem first_section (op : ConfigOp) (valid : op.validate = .ok ()) :
    ConfigSection server (.called op) (op.first server).1 (op.first server).2 := by
  cases op with
  | addUser name password => exact .addUser name password valid
  | removeUser name =>
    simp only [ConfigOp.first]
    split
    · exact .failed _ _ fun _ => id
    · exact .removeUser name valid
  | addShare share =>
    simp only [ConfigOp.first]
    cases missing : share.users.keys.find? fun u => (server.users.lookup u).isNone with
    | some user => exact .failed _ _ fun _ => id
    | none =>
      -- what `find?` and the validation have let through
      refine .checkedShare share ?_ ?_
      · intro u listed
        simpa [Option.isSome_iff_ne_none] using List.find?_eq_none.mp missing u listed
      · apply exclusive_of_check
        intro mixed
        simp only [ConfigOp.validate, mixed, if_true] at valid
        cases named : validateShareName share.name with
        | error e => rw [named] at valid; cases valid
        | ok => rw [named] at valid; cases valid
  | removeShare name =>
    simp only [ConfigOp.first]
    split
    · exact .failed _ _ fun _ => id
    next known => exact .removeShare name (by simpa [Option.isSome_iff_ne_none] using known)
  | grantShareUser shareName user access =>
    simp only [ConfigOp.first]
    split
    · exact .failed _ _ fun _ => id
    next known =>
      exact .checkedUser shareName user access (by simpa [Option.isSome_iff_ne_none] using known)
  | revokeShareUser shareName user =>
    simp only [ConfigOp.first]
    cases found : server.findShare shareName with
    | none => exact .failed _ _ fun _ => id
    | some share => exact .foundRevoke shareName user share found
  | setShareMode shareName mode =>
    simp only [ConfigOp.first]
    cases found : server.findShare shareName with
    | none => exact .failed _ _ fun _ => id
    | some share => exact .foundMode shareName mode share found

theorem ConfigCall.step_section (call : ConfigCall) :
    ConfigSection server call (call.step server).1 (call.step server).2 := by
  cases call with
  | idle => exact .idle
  | called op =>
    simp only [ConfigCall.step]
    cases valid : op.validate with
    | error e => exact .failed _ _ fun _ => id
    | ok => exact first_section server op valid
  | addsShare share =>
    simp only [ConfigCall.step]
    split
    · exact .failed _ _ fun _ => id
    next fresh => exact .addShare share (by simpa using fresh)
  | grants shareName user access =>
    simp only [ConfigCall.step]
    cases found : server.findShare shareName with
    | none => exact .failed _ _ fun _ => id
    | some share => exact .foundGrant shareName user access share found
  | grantsOn share user access =>
    simp only [ConfigCall.step]
    split
    · exact .failed _ _ fun _ => id
    next notPublic => exact .grant share user access (by simpa using notPublic)
  | revokesOn share shareName user => exact .revoke share shareName user
  | setsModeOn share shareName mode =>
    simp only [ConfigCall.step]
    split
    · exact .failed _ _ fun _ => id
    next check =>
    split
    next same => exact .sameMode share shareName mode same
    next other => exact .setMode share shareName mode other (exclusive_of_check check)
  | removedUser name => exact .snapshot name
  | dropsUser name rest =>
    cases rest with
    | nil => exact .dropped name
    | cons share rest => exact .dropUser name share rest
  | sweeps sweep => exact .swept sweep
  | returned result => exact .done result

end

/-! ### Calls in flight -/

/-- The shared state and the calls made on it; every caller makes one. -/
structure ConfigState (ι : Type) where
  server : ServerState
  calls : ι → ConfigCall

inductive ConfigAction (ι : Type) where
  | call (i : ι) (op : ConfigOp)
  | advance (i : ι)

variable {ι : Type} [DecidableEq ι]

/-- Any caller may go next; an edit of the user table waits until nobody reads it. -/
inductive ConfigStep [Crypto] : ConfigState ι → ConfigAction ι → ConfigState ι → Prop where
  | call (s : ConfigState ι) (i : ι) (op : ConfigOp) (here : s.calls i = .idle) :
      ConfigStep s (.call i op) { s with calls := Function.update s.calls i (.called op) }
  | advance (s : ConfigState ι) (i : ι)
      (free : (s.calls i).writesUsers = true → ∀ j, (s.calls j).readsUsers = false) :
      ConfigStep s (.advance i)
        { server := ((s.calls i).step s.server).1
          calls := Function.update s.calls i ((s.calls i).step s.server).2 }

namespace ConfigState

omit [DecidableEq ι] in
/-- Nobody has called yet. -/
def start (server : ServerState) : ConfigState ι := ⟨server, fun _ => .idle⟩

omit [DecidableEq ι] in
/-- A removal of `user` is in progress that has not yet visited `share`. -/
def Unvisited (s : ConfigState ι) (share : ShareBindings) (user : Text) : Prop :=
  ∃ i, (s.calls i).Awaits share user

end ConfigState

end SmbServer
