import SmbServer.Client
import SmbServer.Concurrency.Config

/-!
# SmbServer.Properties.ConfigInvariant

The configuration stays consistent while operations on it interleave.

## Main result

`configInvariant`: from a state that the builder accepts, whatever operations are called and in
whatever order their lock-guarded sections run, every reachable configuration is consistent.

## Proof strategy

`ServerState.Consistent` is what the users and shares satisfy, relative to the removals that still
owe a share a visit. Each edit of a section keeps it. Beside it every call keeps what it has checked
(`ConfigCall.Holds`): the check of a user stays true because the call holds the read guard of the
table, so that no other call can edit the table before it is done.
-/

namespace SmbServer

open Lib

/-- `unvisited share user`: a removal of `user` is on its way to `share`. -/
structure ServerState.Consistent (server : ServerState)
    (unvisited : ShareBindings → Text → Prop) : Prop where
  /-- The list of a registered share names known users. -/
  known : ∀ share ∈ server.shares.all, ∀ user ∈ (server.shares.acls share.arc).users.keys,
    (server.users.lookup user).isSome ∨ unvisited share user
  /-- A public share has no users. -/
  exclusive : ∀ share ∈ server.shares.all,
    (server.shares.acls share.arc).mode.isPublic = true →
      (server.shares.acls share.arc).users.keys = []
  /-- A share is registered under its name in lower case. -/
  keyed : ∀ key share, server.shares.byName.lookup key = some share →
    key = share.name.toAsciiLowercase
  /-- No user in the table is empty or anonymous. -/
  named : ∀ user ∈ server.users.keys, validateUserName user = .ok ()
  /-- Nor is any in a list. -/
  listed : ∀ share ∈ server.shares.all, ∀ user ∈ (server.shares.acls share.arc).users.keys,
    validateUserName user = .ok ()
  arcs : ∀ share ∈ server.shares.all, share.arc < server.shares.nextArc

namespace ServerState.Consistent

variable {server : ServerState} {unvisited unvisited' : ShareBindings → Text → Prop}

theorem mono (c : server.Consistent unvisited)
    (weaker : ∀ share ∈ server.shares.all, ∀ user, unvisited share user → unvisited' share user) :
    server.Consistent unvisited' where
  known := by
    intro share registered user listed
    rcases c.known share registered user listed with known | waits
    · exact Or.inl known
    · exact Or.inr (weaker share registered user waits)
  exclusive := c.exclusive
  keyed := c.keyed
  named := c.named
  listed := c.listed
  arcs := c.arcs

/-- At most one share is registered under a name, up to case. -/
theorem unique (c : server.Consistent unvisited) :
    (server.shares.all.map fun share => share.name.toAsciiLowercase).Nodup := by
  have keys : server.shares.all.map (fun share => share.name.toAsciiLowercase) =
      server.shares.byName.keys :=
    server.shares.byName.map_vals _ fun key share found => (c.keyed key share found).symm
  rw [keys]
  exact server.shares.byName.nodup_keys

/-! ### Edits of the user table -/

theorem insertUser (c : server.Consistent unvisited) (name : Text) (creds : UserCreds)
    (valid : validateUserName name = .ok ()) :
    ServerState.Consistent { server with users := server.users.insert name creds } unvisited where
  known := by
    intro share registered user listed
    -- a user who was known still is
    rcases c.known share registered user listed with known | waits
    · left
      simp only [Table.lookup_insert]
      split
      · rfl
      · exact known
    · exact Or.inr waits
  exclusive := c.exclusive
  keyed := c.keyed
  named := by
    intro user member
    rw [Table.mem_keys] at member
    obtain ⟨creds', found⟩ := member
    rw [Table.lookup_insert] at found
    split at found
    next same => exact same ▸ valid
    · exact c.named user ((Table.mem_keys _ _).mpr ⟨creds', found⟩)
  listed := c.listed
  arcs := c.arcs

/-- A removed user may stay in lists that the removal has not visited. -/
theorem eraseUser (c : server.Consistent unvisited) (name : Text)
    (weaker : ∀ share user, unvisited share user → unvisited' share user)
    (waits : ∀ share, unvisited' share name) :
    ServerState.Consistent { server with users := server.users.erase name } unvisited' where
  known := by
    intro share registered user listed
    -- only the removed user is unknown now, and every list may still have them
    by_cases removed : user = name
    · exact Or.inr (removed ▸ waits share)
    · rcases c.known share registered user listed with known | before
      · left
        simp only [Table.lookup_erase, if_neg removed]
        exact known
      · exact Or.inr (weaker share user before)
  exclusive := c.exclusive
  keyed := c.keyed
  named := by
    intro user member
    rw [Table.mem_keys] at member
    obtain ⟨creds, found⟩ := member
    rw [Table.lookup_erase] at found
    split at found
    · cases found
    · exact c.named user ((Table.mem_keys _ _).mpr ⟨creds, found⟩)
  listed := c.listed
  arcs := c.arcs

/-! ### Edits of the shares -/

/-- Writing one list, if the new list is as good as the old one. -/
theorem setAcl (c : server.Consistent unvisited) (arc : Nat) (acl : ShareAcl)
    (known : ∀ share ∈ server.shares.all, share.arc = arc → ∀ user ∈ acl.users.keys,
      (server.users.lookup user).isSome ∨ unvisited' share user)
    (weaker : ∀ share ∈ server.shares.all, share.arc ≠ arc → ∀ user,
      unvisited share user → unvisited' share user)
    (exclusive : ∀ share ∈ server.shares.all, share.arc = arc → acl.mode.isPublic = true →
      acl.users.keys = [])
    (listed : ∀ share ∈ server.shares.all, share.arc = arc → ∀ user ∈ acl.users.keys,
      validateUserName user = .ok ()) :
    (server.withShares (server.shares.setAcl arc acl)).Consistent unvisited' where
  known := by
    intro share registered user member
    simp only [withShares, ServerShares.setAcl_acls] at member
    -- the list that has been written, or another one
    split at member
    next same => exact known share registered same user member
    next other =>
      rcases c.known share registered user member with found | waits
      · exact Or.inl found
      · exact Or.inr (weaker share registered other user waits)
  exclusive := by
    intro share registered isPublic
    simp only [withShares, ServerShares.setAcl_acls] at isPublic ⊢
    split at isPublic
    next same => simpa only [if_pos same] using exclusive share registered same isPublic
    next other => simpa only [if_neg other] using c.exclusive share registered isPublic
  keyed := c.keyed
  named := c.named
  listed := by
    intro share registered user member
    simp only [withShares, ServerShares.setAcl_acls] at member
    split at member
    next same => exact listed share registered same user member
    next other => exact c.listed share registered user member
  arcs := c.arcs

private theorem mem_dropUser {acl : ShareAcl} {name user : Text}
    (member : user ∈ (acl.dropUser name).users.keys) : user ≠ name ∧ user ∈ acl.users.keys := by
  obtain ⟨access, found⟩ := (Table.mem_keys _ _).mp member
  simp only [ShareAcl.dropUser, Table.lookup_erase] at found
  split at found
  · cases found
  next other => exact ⟨other, (Table.mem_keys _ _).mpr ⟨access, found⟩⟩

/-- The visited share no longer waits for the removal. -/
theorem dropUser (c : server.Consistent unvisited) (arc : Nat) (name : Text)
    (weaker : ∀ share ∈ server.shares.all, ∀ user, ¬(share.arc = arc ∧ user = name) →
      unvisited share user → unvisited' share user) :
    (server.withShares (server.shares.setAcl arc
      ((server.shares.acls arc).dropUser name))).Consistent unvisited' := by
  apply c.setAcl
  · rintro share registered rfl user member
    obtain ⟨other, before⟩ := mem_dropUser member
    rcases c.known share registered user before with known | waits
    · exact Or.inl known
    · exact Or.inr (weaker share registered user (fun both => other both.2) waits)
  · intro share registered other user waits
    exact weaker share registered user (fun both => other both.1) waits
  -- a public list had no users, so it has none to lose
  · rintro share registered rfl isPublic
    have before := c.exclusive share registered isPublic
    apply List.eq_nil_iff_forall_not_mem.mpr
    intro user member
    have listed := (mem_dropUser member).2
    rw [before] at listed
    cases listed
  · rintro share registered rfl user member
    exact c.listed share registered user (mem_dropUser member).2

/-- A user of the table enters a list that is not public. -/
theorem grant (c : server.Consistent unvisited) (arc : Nat) (user : Text) (access : Access)
    (found : (server.users.lookup user).isSome)
    (notPublic : (server.shares.acls arc).mode.isPublic = false) :
    (server.withShares (server.shares.setAcl arc
      { server.shares.acls arc with
        users := (server.shares.acls arc).users.insert user access })).Consistent unvisited := by
  -- the granted user is the only new one
  have granted : ∀ other ∈ ((server.shares.acls arc).users.insert user access).keys,
      other = user ∨ other ∈ (server.shares.acls arc).users.keys := by
    intro other member
    obtain ⟨access', entry⟩ := (Table.mem_keys _ _).mp member
    rw [Table.lookup_insert] at entry
    split at entry
    next same => exact Or.inl same
    · exact Or.inr ((Table.mem_keys _ _).mpr ⟨access', entry⟩)
  apply c.setAcl
  · rintro share registered rfl other member
    rcases granted other member with rfl | before
    · exact Or.inl found
    · exact c.known share registered other before
  · intro share _ _ other waits
    exact waits
  · intro share _ _ isPublic
    rw [notPublic] at isPublic
    cases isPublic
  · rintro share registered rfl other member
    rcases granted other member with rfl | before
    · obtain ⟨creds, entry⟩ := Option.isSome_iff_exists.mp found
      exact c.named other ((Table.mem_keys _ _).mpr ⟨creds, entry⟩)
    · exact c.listed share registered other before

theorem setMode (c : server.Consistent unvisited) (arc : Nat) (mode : ShareMode)
    (exclusive : mode.isPublic = true → (server.shares.acls arc).users.keys = []) :
    (server.withShares (server.shares.setAcl arc
      { server.shares.acls arc with mode := mode })).Consistent unvisited := by
  apply c.setAcl
  · rintro share registered rfl user member
    exact c.known share registered user member
  · intro share _ _ user waits
    exact waits
  · rintro share registered rfl isPublic
    exact exclusive isPublic
  · rintro share registered rfl user member
    exact c.listed share registered user member

private theorem mem_register {s : ServerShares} {name : Text} {backend : BackendRef}
    {acl : ShareAcl} {share : ShareBindings} (member : share ∈ (s.register name backend acl).all) :
    (share.arc = s.nextArc ∧ share.name = name) ∨ share ∈ s.all := by
  obtain ⟨key, found⟩ := (Table.mem_vals _ _).mp member
  simp only [ServerShares.register, Table.lookup_insert] at found
  split at found
  · cases found
    exact Or.inl ⟨rfl, rfl⟩
  · exact Or.inr ((Table.mem_vals _ _).mpr ⟨key, found⟩)

/-- A checked share is registered. -/
theorem register (c : server.Consistent unvisited) (share : Share)
    (known : ∀ u ∈ share.users.keys, (server.users.lookup u).isSome)
    (exclusive : share.mode.isPublic = true → share.users.keys = []) :
    (server.withShares (server.shares.register share.name share.backend
      ⟨share.mode, share.users⟩)).Consistent unvisited := by
  -- the list of the new share sits behind a number that no other share has
  have fresh : ∀ other ∈ server.shares.all, other.arc ≠ server.shares.nextArc :=
    fun other registered => Nat.ne_of_lt (c.arcs other registered)
  constructor
  case known =>
    intro other registered user member
    rcases mem_register registered with ⟨here, _⟩ | before
    · simp only [withShares, ServerShares.register, if_pos here] at member
      exact Or.inl (known user member)
    · simp only [withShares, ServerShares.register, if_neg (fresh other before)] at member
      exact c.known other before user member
  case exclusive =>
    intro other registered isPublic
    rcases mem_register registered with ⟨here, _⟩ | before
    · simp only [withShares, ServerShares.register, if_pos here] at isPublic ⊢
      exact exclusive isPublic
    · simp only [withShares, ServerShares.register, if_neg (fresh other before)] at isPublic ⊢
      exact c.exclusive other before isPublic
  case keyed =>
    intro key other found
    simp only [withShares, ServerShares.register, Table.lookup_insert] at found
    split at found
    next here =>
      cases found
      exact here
    · exact c.keyed key other found
  case named => exact c.named
  case listed =>
    intro other registered user member
    rcases mem_register registered with ⟨here, _⟩ | before
    · simp only [withShares, ServerShares.register, if_pos here] at member
      obtain ⟨creds, entry⟩ := Option.isSome_iff_exists.mp (known user member)
      exact c.named user ((Table.mem_keys _ _).mpr ⟨creds, entry⟩)
    · simp only [withShares, ServerShares.register, if_neg (fresh other before)] at member
      exact c.listed other before user member
  case arcs =>
    intro other registered
    rcases mem_register registered with ⟨here, _⟩ | before
    · rw [here]
      exact Nat.lt_succ_self _
    · exact Nat.lt_succ_of_lt (c.arcs other before)

theorem remove (c : server.Consistent unvisited) (name : Text) :
    (server.withShares (server.shares.remove name)).Consistent unvisited := by
  -- what is left was registered before
  have before : ∀ key share, (server.shares.remove name).byName.lookup key = some share →
      server.shares.byName.lookup key = some share := by
    intro key share found
    simp only [ServerShares.remove, Table.lookup_erase] at found
    split at found
    · cases found
    · exact found
  have mem : ∀ share ∈ (server.shares.remove name).all, share ∈ server.shares.all := by
    intro share registered
    obtain ⟨key, found⟩ := (Table.mem_vals _ _).mp registered
    exact (Table.mem_vals _ _).mpr ⟨key, before key share found⟩
  constructor
  case known => exact fun share registered => c.known share (mem share registered)
  case exclusive => exact fun share registered => c.exclusive share (mem share registered)
  case keyed => exact fun key share found => c.keyed key share (before key share found)
  case named => exact c.named
  case listed => exact fun share registered => c.listed share (mem share registered)
  case arcs => exact fun share registered => c.arcs share (mem share registered)

end ServerState.Consistent

/-! ### What a call has checked -/

/-- What a call relies on behind its checks. -/
def ConfigCall.Holds (server : ServerState) : ConfigCall → Prop
  | .addsShare share =>
    (∀ u ∈ share.users.keys, (server.users.lookup u).isSome) ∧
      (share.mode.isPublic = true → share.users.keys = [])
  | .grants _ user _ | .grantsOn _ user _ => (server.users.lookup user).isSome
  | _ => True

namespace ConfigCall.Holds

variable {server server' : ServerState} {call : ConfigCall}

theorem of_free (free : call.readsUsers = false) : call.Holds server := by
  cases call with
  | addsShare | grants | grantsOn => cases free
  | _ => trivial

theorem of_users (holds : call.Holds server) (same : server'.users = server.users) :
    call.Holds server' := by
  cases call with
  | addsShare share =>
    rw [ConfigCall.Holds, same]
    exact holds
  | grants shareName user access =>
    rw [ConfigCall.Holds, same]
    exact holds
  | grantsOn share user access =>
    rw [ConfigCall.Holds, same]
    exact holds
  | _ => trivial

end ConfigCall.Holds

/-! ### The steps -/

section
variable {ι : Type}

/-- The invariant of the runs. -/
structure ConfigState.Sound (s : ConfigState ι) : Prop where
  consistent : s.server.Consistent s.Unvisited
  holds : ∀ i, (s.calls i).Holds s.server

variable [DecidableEq ι]

/-- A caller that goes on; what it no longer waits for is for the section to say. -/
private theorem unvisited_update {s : ConfigState ι} {server : ServerState} {i : ι}
    {call : ConfigCall} {share : ShareBindings} {user : Text} (waits : s.Unvisited share user)
    (passes : (s.calls i).Awaits share user → call.Awaits share user) :
    ConfigState.Unvisited ⟨server, Function.update s.calls i call⟩ share user := by
  obtain ⟨j, here⟩ := waits
  by_cases same : j = i
  · subst same
    exact ⟨j, by simpa only [Function.update_self] using passes here⟩
  · exact ⟨j, by simpa only [Function.update_of_ne same] using here⟩

private theorem holds_update {s : ConfigState ι} {server : ServerState} {i : ι} {call : ConfigCall}
    (others : ∀ j, (s.calls j).Holds server) (here : call.Holds server) (j : ι) :
    (Function.update s.calls i call j).Holds server := by
  by_cases same : j = i
  · subst same
    simpa only [Function.update_self] using here
  · simpa only [Function.update_of_ne same] using others j

variable [Crypto]

omit [DecidableEq ι] [Crypto] in
private theorem holds_edit {s : ConfigState ι} {server : ServerState} (sound : s.Sound)
    (same : server.users = s.server.users) (j : ι) : (s.calls j).Holds server :=
  (sound.holds j).of_users same

/-- A section keeps the invariant. -/
theorem ConfigSection.sound {s : ConfigState ι} {i : ι} {server : ServerState} {call : ConfigCall}
    (taken : ConfigSection s.server (s.calls i) server call) (sound : s.Sound)
    (free : (s.calls i).writesUsers = true → ∀ j, (s.calls j).readsUsers = false) :
    ConfigState.Sound ⟨server, Function.update s.calls i call⟩ := by
  have consistent := sound.consistent
  have checked := sound.holds i
  -- what the others wait for, they still wait for
  have passes : ∀ share user, ((s.calls i).Awaits share user → call.Awaits share user) →
      s.Unvisited share user →
      ConfigState.Unvisited ⟨server, Function.update s.calls i call⟩ share user :=
    fun share user keeps waits => unvisited_update waits keeps
  have unmoved : server.Consistent s.Unvisited →
      (∀ share user, ¬(s.calls i).Awaits share user) →
      server.Consistent (ConfigState.Unvisited ⟨server, Function.update s.calls i call⟩) := by
    intro edited unawaited
    apply edited.mono
    intro share _ user
    exact passes share user fun waits => absurd waits (unawaited share user)
  generalize here : s.calls i = before at taken checked free passes unmoved
  cases taken with
  | idle =>
    exact ⟨unmoved consistent fun _ _ => id, holds_update sound.holds trivial⟩
  | done result =>
    exact ⟨unmoved consistent fun _ _ => id, holds_update sound.holds trivial⟩
  | failed _ e unedited =>
    exact ⟨unmoved consistent fun _ user waits => unedited user waits.removes,
      holds_update sound.holds trivial⟩
  | addUser name password valid =>
    have edited := consistent.insertUser name (UserCreds.fromPassword password) valid
    exact ⟨unmoved edited fun _ _ => id, holds_update (fun j => .of_free (free rfl j)) trivial⟩
  | removeUser name valid =>
    have edited := consistent.eraseUser name
      (fun share user => passes share user fun waits => waits.elim)
      (fun share => ⟨i, by simp only [Function.update_self]; rfl⟩)
    exact ⟨edited, holds_update (fun j => .of_free (free rfl j)) trivial⟩
  | checkedShare share known exclusive =>
    exact ⟨unmoved consistent fun _ _ => id, holds_update sound.holds ⟨known, exclusive⟩⟩
  | addShare share fresh =>
    have edited := consistent.register share checked.1 checked.2
    exact ⟨unmoved edited fun _ _ => id, holds_update (holds_edit sound rfl) trivial⟩
  | removeShare name known =>
    have edited := consistent.remove name
    exact ⟨unmoved edited fun _ _ => id, holds_update (holds_edit sound rfl) trivial⟩
  | checkedUser shareName user access known =>
    exact ⟨unmoved consistent fun _ _ => id, holds_update sound.holds known⟩
  | foundGrant shareName user access share found =>
    exact ⟨unmoved consistent fun _ _ => id, holds_update sound.holds checked⟩
  | grant share user access notPublic =>
    have edited := consistent.grant share.arc user access checked notPublic
    exact ⟨unmoved edited fun _ _ => id, holds_update (holds_edit sound rfl) trivial⟩
  | foundRevoke shareName user share found =>
    exact ⟨unmoved consistent fun _ _ => id, holds_update sound.holds trivial⟩
  | revoke share shareName user =>
    have edited : ServerState.Consistent _ s.Unvisited :=
      consistent.dropUser share.arc user fun _ _ _ _ waits => waits
    exact ⟨unmoved edited fun _ _ => id, holds_update (holds_edit sound rfl) trivial⟩
  | foundMode shareName mode share found =>
    exact ⟨unmoved consistent fun _ _ => id, holds_update sound.holds trivial⟩
  | sameMode share shareName mode same =>
    exact ⟨unmoved consistent fun _ _ => id, holds_update sound.holds trivial⟩
  | setMode share shareName mode other exclusive =>
    have edited := consistent.setMode share.arc mode exclusive
    exact ⟨unmoved edited fun _ _ => id, holds_update (holds_edit sound rfl) trivial⟩
  | snapshot name =>
    -- every registered share is on the list the removal works through
    exact ⟨consistent.mono fun share registered user =>
      passes share user fun waits => ⟨waits, registered⟩,
      holds_update sound.holds trivial⟩
  | dropUser name visited rest =>
    have edited := consistent.dropUser visited.arc name fun share _ user unvisited =>
      passes share user fun waits => by
        obtain ⟨named, listed⟩ := waits
        rcases List.mem_cons.mp listed with rfl | later
        · exact absurd ⟨rfl, named.symm⟩ unvisited
        · exact ⟨named, later⟩
    exact ⟨edited, holds_update (holds_edit sound rfl) trivial⟩
  | dropped name =>
    exact ⟨unmoved consistent fun _ _ waits => List.not_mem_nil waits.2,
      holds_update sound.holds trivial⟩
  | swept sweep =>
    exact ⟨unmoved consistent fun _ _ => id, holds_update sound.holds trivial⟩

theorem ConfigStep.sound {s t : ConfigState ι} {a : ConfigAction ι} (step : ConfigStep s a t)
    (sound : s.Sound) : t.Sound := by
  cases step with
  | call i op here =>
    constructor
    · apply sound.consistent.mono
      intro share _ user waits
      apply unvisited_update waits
      rw [here]
      exact False.elim
    · exact holds_update sound.holds trivial
  | advance i free => exact (ConfigCall.step_section s.server (s.calls i)).sound sound free

end

/-! ### What the builder accepts -/

namespace SmbServerBuilder

variable [Crypto]

omit [Crypto] in
private theorem validUser_of_validateUsers {names : List Text} (valid : validateUsers names = .ok ())
    (name : Text) (listed : name ∈ names) : validateUserName name = .ok () := by
  induction names with
  | nil => cases listed
  | cons first rest ih =>
    rw [validateUsers] at valid
    split at valid
    · cases valid
    next notEmpty =>
    split at valid
    · cases valid
    next notReserved =>
    rcases List.mem_cons.mp listed with rfl | later
    · rw [validateUserName, if_neg notEmpty, if_neg notReserved]
    · exact ih valid later

omit [Crypto] in
private theorem share_of_validateShares {users : Table Text Text} {seen : List Text}
    {shares : List Share} (valid : validateShares users seen shares = .ok ()) (share : Share)
    (listed : share ∈ shares) :
    (∀ u ∈ share.users.keys, (users.lookup u).isSome) ∧
      (share.mode.isPublic = true → share.users.keys = []) := by
  induction shares generalizing seen with
  | nil => cases listed
  | cons first rest ih =>
    rw [validateShares] at valid
    split at valid
    · cases valid
    split at valid
    · cases valid
    next check =>
    cases unknown : unknownUser users first with
    | some user =>
      rw [unknown] at valid
      cases valid
    | none =>
      rw [unknown] at valid
      -- the share itself has been checked, or one behind it
      rcases List.mem_cons.mp listed with rfl | later
      · constructor
        · intro u member
          simpa [Option.isSome_iff_ne_none] using List.find?_eq_none.mp unknown u member
        · intro isPublic
          simpa [isPublic] using check
      · exact ih valid later

private theorem lookup_userTable (b : SmbServerBuilder) (name : Text) :
    (b.userTable.lookup name).isSome ↔ name ∈ b.userOrder := by
  have folded : ∀ (names : List Text) (t : Table Text UserCreds),
      ((names.foldl (fun t name =>
        t.insert name (UserCreds.fromPassword ((b.users.lookup name).getD []))) t).lookup
          name).isSome ↔ name ∈ names ∨ (t.lookup name).isSome := by
    intro names
    induction names with
    | nil => simp
    | cons first rest ih =>
      intro t
      rw [List.foldl_cons, ih, Table.lookup_insert, List.mem_cons]
      by_cases same : name = first <;> simp [same]
  simpa [userTable] using folded b.userOrder Table.empty

omit [Crypto] in
/-- Registering checked shares one after another. -/
private theorem registered_consistent (server : ServerState)
    {unvisited : ShareBindings → Text → Prop} (shares : List Share)
    (checked : ∀ share ∈ shares, (∀ u ∈ share.users.keys, (server.users.lookup u).isSome) ∧
      (share.mode.isPublic = true → share.users.keys = []))
    (c : server.Consistent unvisited) :
    (server.withShares (shares.foldl (fun s share =>
      s.register share.name share.backend ⟨share.mode, share.users⟩)
        server.shares)).Consistent unvisited := by
  induction shares generalizing server with
  | nil => exact c
  | cons first rest ih =>
    obtain ⟨known, exclusive⟩ := checked first (List.mem_cons_self ..)
    have edited := c.register first known exclusive
    have later : ∀ share ∈ rest, _ := fun share member =>
      checked share (List.mem_cons_of_mem _ member)
    exact ih (server.withShares (server.shares.register first.name first.backend
      ⟨first.mode, first.users⟩)) later edited

/-- What `build` accepts is consistent, if every user of the builder is on its list. -/
theorem build_consistent (b : SmbServerBuilder) (server : ServerState)
    (listed : ∀ name, (b.users.lookup name).isSome → name ∈ b.userOrder)
    (built : b.build = .ok server) : server.Consistent fun _ _ => False := by
  simp only [build] at built
  cases users : validateUsers b.userOrder with
  | error e => rw [users] at built; cases built
  | ok =>
  cases shares : validateShares b.users [] b.shares with
  | error e => rw [users, shares] at built; cases built
  | ok =>
  rw [users, shares] at built
  cases address : b.listenAddr with
  | none => rw [address] at built; cases built
  | some addr =>
  rw [address] at built
  cases built
  -- the shares are registered one by one, in a server that has none
  let empty : ServerState :=
    { config :=
        { netbiosName := b.netbios
          maxReadSize := b.maxReadSize
          maxWriteSize := b.maxWriteSize
          serverGuid := b.serverGuid.getD b.randomGuid }
      users := b.userTable
      shares := registerAll []
      serverStartFiletime := b.startFiletime
      traceSink := b.traceSink }
  have none : ∀ share, share ∉ empty.shares.all := fun _ => List.not_mem_nil
  have start : empty.Consistent fun _ _ => False :=
    { known := fun share registered => absurd registered (none share)
      exclusive := fun share registered => absurd registered (none share)
      keyed := fun key share found => by cases found
      named := fun user member => by
        have inTable := Option.isSome_iff_exists.mpr ((Table.mem_keys _ _).mp member)
        exact validUser_of_validateUsers users user ((lookup_userTable b user).mp inTable)
      listed := fun share registered => absurd registered (none share)
      arcs := fun share registered => absurd registered (none share) }
  apply registered_consistent empty b.shares _ start
  intro share member
  obtain ⟨known, exclusive⟩ := share_of_validateShares shares share member
  exact ⟨fun u used => (lookup_userTable b u).mpr (listed u (known u used)), exclusive⟩

end SmbServerBuilder

/-! ### Every run -/

section
variable [Crypto] {ι : Type}

/-- The invariant holds of a server that has just been built. -/
theorem SmbServerBuilder.configSound (hostname : Text) (randomGuid : ByteVec 16)
    (startFiletime : UInt64) (calls : List BuilderCall) (server : ServerState)
    (built : (calls.foldl SmbServerBuilder.call
      (SmbServerBuilder.new hostname randomGuid startFiletime)).build = .ok server) :
    (ConfigState.start server : ConfigState ι).Sound := by
  have listed := SmbServerBuilder.userOrder_foldl
    (SmbServerBuilder.new hostname randomGuid startFiletime) calls
    (by simp [SmbServerBuilder.new])
  have accepted := SmbServerBuilder.build_consistent _ server
    (fun name known => (listed name).mpr known) built
  exact ⟨accepted.mono fun _ _ _ => False.elim, fun _ => trivial⟩

/-- Whatever operations are in flight, the configuration is consistent up to the visits that
removals still owe, and no name is registered twice. -/
theorem configInvariant [DecidableEq ι] (hostname : Text) (randomGuid : ByteVec 16)
    (startFiletime : UInt64) (calls : List BuilderCall) (server : ServerState) (t : ConfigState ι)
    (built : (calls.foldl SmbServerBuilder.call
      (SmbServerBuilder.new hostname randomGuid startFiletime)).build = .ok server)
    (run : Reachable ConfigStep (ConfigState.start server) t) :
    t.server.Consistent t.Unvisited ∧
      (t.server.shares.all.map fun share => share.name.toAsciiLowercase).Nodup := by
  have start : (ConfigState.start server : ConfigState ι).Sound :=
    SmbServerBuilder.configSound hostname randomGuid startFiletime calls server built
  have sound := run.invariant ConfigState.Sound (fun s a u sound _ step => step.sound sound) start
  exact ⟨sound.consistent, sound.consistent.unique⟩

end

/-! ### A removal on its way -/

open scoped Sample

namespace Sample

/-- The builder calls behind the sample server. -/
def builderCalls : List BuilderCall :=
  [.listen [], .user user password, .share guarded, .share writable, .share readOnly]

def builtServer : ServerState :=
  { server with config := ⟨SmbServerBuilder.defaultNetbiosName, 1048576, 1048576, ByteVec.zero 16⟩ }

/-- The only call removes the user. -/
def removes : ConfigState Unit where
  server := builtServer
  calls := Function.update (fun _ => .idle) () (.called (.removeUser user))

/-- Its section on the user table has run. -/
def removing : ConfigState Unit where
  server := { builtServer with users := builtServer.users.erase user }
  calls := Function.update removes.calls () (.removedUser user)

end Sample

theorem configInvariant_removing :
    Sample.removing.server.Consistent Sample.removing.Unvisited ∧
      (Sample.removing.server.shares.all.map fun share => share.name.toAsciiLowercase).Nodup := by
  have called : ConfigStep (ConfigState.start Sample.builtServer) _ Sample.removes :=
    .call (ConfigState.start Sample.builtServer) () (.removeUser Sample.user) rfl
  have removed : ConfigStep Sample.removes _ Sample.removing :=
    .advance Sample.removes () fun _ _ => rfl
  exact configInvariant [] (ByteVec.zero 16) 0 Sample.builderCalls Sample.builtServer
    Sample.removing rfl (((Reaches.refl _).tail trivial called).tail trivial removed)

end SmbServer
