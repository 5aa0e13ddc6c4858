import SmbServer.Backend
import SmbServer.Lib.Table
import SmbServer.Proto.Ntlm

/-!
# SmbServer.Share

Shares and who may use them: access levels (`builder.rs`), share modes, access control lists and
the binding of a name to a backend (`server.rs`), and the authorization rule of TREE_CONNECT.
-/

namespace SmbServer

open Lib

inductive Access where
  | read
  | readWrite
  deriving DecidableEq, Repr

namespace Access

def allowsWrite : Access → Bool
  | .read => false
  | .readWrite => true

def clampTo (a cap : Access) : Access :=
  match a, cap with
  | .readWrite, .readWrite => .readWrite
  | _, _ => .read

/-- `read` is below `readWrite`. -/
def le (a b : Access) : Prop := a = .read ∨ b = .readWrite

instance (a b : Access) : Decidable (le a b) := inferInstanceAs (Decidable (_ ∨ _))

theorem le_refl (a : Access) : a.le a := by
  cases a
  · exact Or.inl rfl
  · exact Or.inr rfl

theorem eq_readWrite_of_le {a : Access} (h : Access.readWrite.le a) : a = .readWrite := by
  rcases h with absurd | eq
  · cases absurd
  · exact eq

end Access

inductive ShareMode where
  | «public»
  | publicReadOnly
  | authenticatedOnly
  deriving DecidableEq, Repr

def ShareMode.isPublic : ShareMode → Bool
  | .«public» => true
  | .publicReadOnly => true
  | .authenticatedOnly => false

structure ShareAcl where
  mode : ShareMode
  users : Table Text Access

/-- A share bound to its backend. The source holds it behind an `Arc`; `arc` tells two bindings of
one name apart, and the access control list sits under that number in `ServerShares`. -/
structure ShareBindings where
  name : Text
  backend : BackendRef
  isIpc : Bool
  arc : Nat
  deriving DecidableEq, Repr

/-- `"IPC$"` -/
def ipcName : Text := ['I', 'P', 'C', '$']

/-- The synthetic `IPC$` share, and the list it is authorized against. -/
def ShareBindings.ipc : ShareBindings where
  name := ipcName
  backend := .notSupported
  isIpc := true
  arc := 0

def ShareAcl.ipc : ShareAcl where
  mode := .publicReadOnly
  users := Table.empty

def authorize (mode : ShareMode) (users : Table Text Access) (identity : Identity) :
    Option Access :=
  match mode with
  | .«public» => some .readWrite
  | .publicReadOnly => some .read
  | .authenticatedOnly =>
    match identity with
    | .anonymous => none
    | .user user _ => users.lookup user

/-- The access a tree is given: what the list grants, clamped for a read-only backend. -/
def clampForBackend (caps : BackendCapabilities) (granted : Access) : Access :=
  if caps.isReadOnly then granted.clampTo .read else granted

theorem clampForBackend_le (caps : BackendCapabilities) (granted : Access) :
    (clampForBackend caps granted).le granted := by
  rw [clampForBackend]
  split
  · cases granted <;> exact Or.inl rfl
  · exact granted.le_refl

end SmbServer
