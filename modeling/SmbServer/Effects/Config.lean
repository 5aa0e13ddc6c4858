import SmbServer.System

/-!
# SmbServer.Effects.Config

What a configuration operation that succeeds has checked, and what it has edited.
-/

namespace SmbServer

open Lib

namespace ServerState

variable [Crypto]

/-- The edit of an operation that passes its checks, and what it closes behind the edit. -/
inductive Edited (server : ServerState) : ConfigOp → ServerState → Sweep → Prop where
  | addUser (name password : Text) :
      Edited server (.addUser name password)
        { server with users := server.users.insert name (UserCreds.fromPassword password) } .none
  | removeUser (name : Text) (known : (server.users.lookup name).isSome) :
      Edited server (.removeUser name)
        { server with users := server.users.erase name, shares := server.shares.dropUser name }
        (.sessionsForUser name)
  | addShare (share : Share) (fresh : server.findShare share.name = none) :
      Edited server (.addShare share) (server.withShares
        (server.shares.register share.name share.backend ⟨share.mode, share.users⟩)) .none
  | removeShare (name : Text) (known : (server.findShare name).isSome) :
      Edited server (.removeShare name) (server.withShares (server.shares.remove name))
        (.treesForShare name)
  | grantShareUser (shareName user : Text) (access : Access) (share : ShareBindings)
      (known : server.findShare shareName = some share)
      (notPublic : (server.shares.acls share.arc).mode.isPublic = false) :
      Edited server (.grantShareUser shareName user access)
        (server.withShares (server.shares.setAcl share.arc
          { server.shares.acls share.arc with
            users := (server.shares.acls share.arc).users.insert user access })) .none
  | revokeShareUser (shareName user : Text) (share : ShareBindings)
      (known : server.findShare shareName = some share) :
      Edited server (.revokeShareUser shareName user)
        (server.withShares (server.shares.setAcl share.arc
          ((server.shares.acls share.arc).dropUser user))) (.treesForUserShare user shareName)
  | sameMode (shareName : Text) (mode : ShareMode) (share : ShareBindings)
      (known : server.findShare shareName = some share)
      (same : (server.shares.acls share.arc).mode = mode) :
      Edited server (.setShareMode shareName mode) server .none
  | setShareMode (shareName : Text) (mode : ShareMode) (share : ShareBindings)
      (known : server.findShare shareName = some share)
      (other : (server.shares.acls share.arc).mode ≠ mode) :
      Edited server (.setShareMode shareName mode)
        (server.withShares (server.shares.setAcl share.arc
          { server.shares.acls share.arc with mode := mode })) (.treesForShare shareName)

omit [Crypto] in
/-- Checks in front of an edit. -/
private theorem edited_of_bind {ε α β : Type} {x : Except ε α} {f : α → Except ε β} {b : β}
    (h : (x >>= f) = .ok b) : ∃ a, f a = .ok b := by
  cases x with
  | error e => cases h
  | ok a => exact ⟨a, h⟩

theorem edited_of_edit (server server' : ServerState) (op : ConfigOp) (sweep : Sweep)
    (h : server.edit op = .ok (server', sweep)) : server.Edited op server' sweep := by
  -- each check in front of the edit is one `split`, and failing it is no edit
  cases op with
  | addUser name password =>
    obtain ⟨_, h⟩ := edited_of_bind h
    cases h
    exact .addUser name password
  | removeUser name =>
    obtain ⟨_, h⟩ := edited_of_bind h
    split at h
    · cases h
    next known =>
      cases h
      exact .removeUser name (by simpa [Option.isSome_iff_ne_none] using known)
  | addShare share =>
    obtain ⟨_, h⟩ := edited_of_bind h
    cases missing : share.users.keys.find? fun u => (server.users.lookup u).isNone with
    | some user =>
      simp only [missing] at h
      split at h <;> cases h
    | none =>
      simp only [missing] at h
      split at h
      · cases h
      · split at h
        · cases h
        next fresh =>
          cases h
          exact .addShare share (by simpa using fresh)
  | removeShare name =>
    obtain ⟨_, h⟩ := edited_of_bind h
    split at h
    · cases h
    next known =>
      cases h
      exact .removeShare name (by simpa [Option.isSome_iff_ne_none] using known)
  | grantShareUser shareName user access =>
    obtain ⟨_, h⟩ := edited_of_bind h
    obtain ⟨_, h⟩ := edited_of_bind h
    cases known : server.findShare shareName with
    | none =>
      simp only [known] at h
      split at h <;> cases h
    | some share =>
      simp only [known] at h
      split at h
      · cases h
      · split at h
        · cases h
        next notPublic =>
          cases h
          exact .grantShareUser shareName user access share known (by simpa using notPublic)
  | revokeShareUser shareName user =>
    obtain ⟨_, h⟩ := edited_of_bind h
    obtain ⟨_, h⟩ := edited_of_bind h
    cases known : server.findShare shareName with
    | none => simp only [known] at h; cases h
    | some share =>
      simp only [known] at h
      cases h
      exact .revokeShareUser shareName user share known
  | setShareMode shareName mode =>
    obtain ⟨_, h⟩ := edited_of_bind h
    cases known : server.findShare shareName with
    | none => simp only [known] at h; cases h
    | some share =>
      simp only [known] at h
      split at h
      · cases h
      · split at h
        next same =>
          cases h
          exact .sameMode shareName mode share known same
        next other =>
          cases h
          exact .setShareMode shareName mode share known other

omit [Crypto] in
/-- What is found under a name in lower case has that name, up to case. -/
theorem name_of_findShare {server : ServerState}
    (keyed : ∀ key share, server.shares.byName.lookup key = some share →
      key = share.name.toAsciiLowercase) {name : Text} {share : ShareBindings}
    (found : server.findShare name = some share) : share.name.eqIgnoreAsciiCase name = true := by
  rw [Text.eqIgnoreAsciiCase, keyed name.toAsciiLowercase share found]
  exact beq_self_eq_true _

/-- No operation touches the configuration that connections are opened with. -/
theorem Edited.config {server server' : ServerState} {op : ConfigOp} {sweep : Sweep}
    (h : server.Edited op server' sweep) : server'.config = server.config := by
  cases h <;> rfl

end ServerState

end SmbServer
