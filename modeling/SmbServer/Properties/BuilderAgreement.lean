import SmbServer.Client
import SmbServer.System

/-!
# SmbServer.Properties.BuilderAgreement

The builder against the configuration operations of a running server.

## Main result

`builder_agrees_iff`: a builder with a listen address builds exactly when its users and shares can
be added one by one to a server without any, and both then have the same users and shares, if and
only if no share is called `IPC$` or the declarations have another fault that both find.

`ConfigHandle::add_share` refuses the reserved name, `SmbServerBuilder::build` does not look for it.

## Proof strategy

Both sides are characterised by one predicate on the declarations (`WellDeclared`): `build` by
`build_ok_iff`, the operations by `replay_ok_iff`, which also asks for unreserved names. Each side
is a recursion over the shares in which the names seen so far are those registered so far.
-/

namespace SmbServer

open Lib

/-! ### The declarations in a list of builder calls -/

namespace BuilderCall

def declaredUser : BuilderCall → Option (Text × Text)
  | .user name password => some (name, password)
  | _ => none

def declaredShare : BuilderCall → Option Share
  | .share declared => some declared
  | _ => none

end BuilderCall

def declaredUsers (calls : List BuilderCall) : List (Text × Text) :=
  calls.filterMap BuilderCall.declaredUser

def declaredShares (calls : List BuilderCall) : List Share :=
  calls.filterMap BuilderCall.declaredShare

/-- The operations that declare the same users and then the same shares. -/
def replayOps (calls : List BuilderCall) : List ConfigOp :=
  (declaredUsers calls).map (fun user => .addUser user.1 user.2) ++
    (declaredShares calls).map .addShare

/-- Operations one after another, up to the first that fails. -/
def ServerState.replay [Crypto] (server : ServerState) (ops : List ConfigOp) :
    Except ConfigError ServerState :=
  ops.foldlM (fun s op => (s.edit op).map Prod.fst) server

/-- What is registered under a key: the name, the backend and the access control list. -/
def ServerShares.shown (s : ServerShares) (key : Text) : Option (Text × BackendRef × ShareAcl) :=
  (s.byName.lookup key).map fun share => (share.name, share.backend, s.acls share.arc)

/-- A server without users and shares. -/
structure ServerState.Vacant (server : ServerState) : Prop where
  users : ∀ name, server.users.lookup name = none
  shares : ∀ key, server.shares.byName.lookup key = none

/-- Building and replaying succeed together, and with the same users and shares. -/
structure BuilderAgrees [Crypto] (b : SmbServerBuilder) (calls : List BuilderCall)
    (server : ServerState) : Prop where
  succeeds : (∃ built, b.build = .ok built) ↔
    ∃ replayed, server.replay (replayOps calls) = .ok replayed
  users : ∀ built replayed, b.build = .ok built → server.replay (replayOps calls) = .ok replayed →
    ∀ name, built.users.lookup name = replayed.users.lookup name
  shares : ∀ built replayed, b.build = .ok built → server.replay (replayOps calls) = .ok replayed →
    ∀ key, built.shares.shown key = replayed.shares.shown key

/-- The checks of a share that do not concern its name. -/
structure Share.Grounded (known : Text → Prop) (share : Share) : Prop where
  exclusive : share.mode.isPublic = true → share.users.keys = []
  known : ∀ user ∈ share.users.keys, known user

/-- Declarations without a fault, reserved share names apart. -/
structure WellDeclared (users : List (Text × Text)) (shares : List Share) : Prop where
  names : ∀ user ∈ users, user.1 ≠ [] ∧ user.1.eqIgnoreAsciiCase anonymousName = false
  distinct : shares.Pairwise fun first second =>
    first.name.toAsciiLowercase ≠ second.name.toAsciiLowercase
  grounded : ∀ share ∈ shares, share.Grounded fun user => ∃ password, (user, password) ∈ users

/-- No share has the reserved name. -/
def Unreserved (shares : List Share) : Prop :=
  ∀ share ∈ shares, share.name.eqIgnoreAsciiCase ipcName = false

theorem Share.Grounded.congr {p q : Text → Prop} (same : ∀ user, p user ↔ q user) (share : Share) :
    share.Grounded p ↔ share.Grounded q :=
  ⟨fun grounded => ⟨grounded.exclusive, fun user u => (same user).mp (grounded.known user u)⟩,
    fun grounded => ⟨grounded.exclusive, fun user u => (same user).mpr (grounded.known user u)⟩⟩

/-! ### The builder -/

/-- The users of a list of declarations are those declared. -/
theorem lookup_foldl_insert {ν : Type} (f : Text → ν) (users : List (Text × Text))
    (t : Table Text ν) (name : Text) :
    ((users.foldl (fun t user => t.insert user.1 (f user.2)) t).lookup name).isSome ↔
      (∃ password, (name, password) ∈ users) ∨ (t.lookup name).isSome := by
  induction users generalizing t with
  | nil => simp
  | cons first rest ih =>
    obtain ⟨name', password'⟩ := first
    rw [List.foldl_cons, ih, Table.lookup_insert]
    by_cases same : name = name'
    · subst same
      rw [if_pos rfl]
      simp
    · rw [if_neg same]
      simp [same]

namespace SmbServerBuilder

theorem shares_foldl (b : SmbServerBuilder) (calls : List BuilderCall) :
    (calls.foldl call b).shares = b.shares ++ declaredShares calls := by
  induction calls generalizing b with
  | nil => simp [declaredShares]
  | cons first rest ih =>
    rw [List.foldl_cons, ih]
    cases first with
    | share share => simp [call, declaredShares, BuilderCall.declaredShare]
    | listen | user | netbiosName | maxReadSize | maxWriteSize | serverGuid | traceSink => rfl

theorem users_foldl (b : SmbServerBuilder) (calls : List BuilderCall) :
    (calls.foldl call b).users =
      (declaredUsers calls).foldl (fun t user => t.insert user.1 user.2) b.users := by
  induction calls generalizing b with
  | nil => rfl
  | cons first rest ih =>
    rw [List.foldl_cons, ih]
    cases first <;> rfl

theorem listenAddr_foldl (b : SmbServerBuilder) (calls : List BuilderCall)
    (listens : b.listenAddr.isSome ∨ ∃ addr, .listen addr ∈ calls) :
    (calls.foldl call b).listenAddr.isSome := by
  induction calls generalizing b with
  | nil =>
    rcases listens with already | ⟨addr, none⟩
    · exact already
    · cases none
  | cons first rest ih =>
    apply ih
    rcases listens with already | ⟨addr, member⟩
    · left
      cases first <;> first | exact already | rfl
    · rcases List.mem_cons.mp member with rfl | later
      · exact .inl rfl
      · exact .inr ⟨addr, later⟩

theorem validateUsers_iff (names : List Text) :
    validateUsers names = .ok () ↔
      ∀ name ∈ names, name ≠ [] ∧ name.eqIgnoreAsciiCase anonymousName = false := by
  induction names with
  | nil => simp [validateUsers]
  | cons first rest ih =>
    rw [validateUsers, List.forall_mem_cons, ← ih]
    by_cases empty : first = []
    · simp [empty]
    · rw [if_neg (by simpa using empty)]
      by_cases reserved : first.eqIgnoreAsciiCase anonymousName = true
      · simp [reserved]
      · rw [if_neg reserved]
        simp [empty, reserved]

theorem unknownUser_eq_none (users : Table Text Text) (share : Share) :
    unknownUser users share = none ↔ ∀ u ∈ share.users.keys, (users.lookup u).isSome := by
  simp only [unknownUser, List.find?_eq_none, Bool.not_eq_true, Option.isNone_eq_false_iff]

theorem validateShares_iff (users : Table Text Text) (seen : List Text) (shares : List Share) :
    validateShares users seen shares = .ok () ↔
      shares.Pairwise (fun first second =>
        first.name.toAsciiLowercase ≠ second.name.toAsciiLowercase) ∧
      (∀ share ∈ shares, share.Grounded fun user => (users.lookup user).isSome) ∧
      ∀ share ∈ shares, share.name.toAsciiLowercase ∉ seen := by
  induction shares generalizing seen with
  | nil => simp [validateShares]
  | cons first rest ih =>
    have step : validateShares users seen (first :: rest) = .ok () ↔
        (first.name.toAsciiLowercase ∉ seen ∧
          first.Grounded fun user => (users.lookup user).isSome) ∧
        validateShares users (first.name.toAsciiLowercase :: seen) rest = .ok () := by
      rw [validateShares]
      by_cases duplicate : first.name.toAsciiLowercase ∈ seen
      · simp [duplicate]
      by_cases mixed : first.mode.isPublic = true ∧ first.users.keys ≠ []
      · have ungrounded : ¬first.Grounded fun user => (users.lookup user).isSome :=
          fun grounded => mixed.2 (grounded.exclusive mixed.1)
        simp [duplicate, mixed.1, mixed.2, ungrounded]
      have exclusive : first.mode.isPublic = true → first.users.keys = [] :=
        fun isPublic => not_ne_iff.mp fun some_ => mixed ⟨isPublic, some_⟩
      rw [if_neg (by simpa using duplicate), if_neg (by simpa using exclusive)]
      cases unknown : unknownUser users first with
      | some user =>
        have ungrounded : ¬first.Grounded fun user => (users.lookup user).isSome := by
          intro grounded
          rw [(unknownUser_eq_none users first).mpr grounded.known] at unknown
          cases unknown
        simp [ungrounded]
      | none =>
        have grounded : first.Grounded fun user => (users.lookup user).isSome :=
          ⟨exclusive, (unknownUser_eq_none users first).mp unknown⟩
        simp [duplicate, grounded]
    rw [step, ih, List.pairwise_cons, List.forall_mem_cons, List.forall_mem_cons]
    -- a later share is free of the names seen before and of the first one
    constructor
    · rintro ⟨⟨fresh, grounded⟩, distinct, restGrounded, restFresh⟩
      refine ⟨⟨fun share member same => ?_, distinct⟩, ⟨grounded, restGrounded⟩, fresh, ?_⟩
      · exact restFresh share member (by rw [same]; exact List.mem_cons_self)
      · exact fun share member seen => restFresh share member (List.mem_cons_of_mem _ seen)
    · rintro ⟨⟨others, distinct⟩, ⟨grounded, restGrounded⟩, fresh, restFresh⟩
      refine ⟨⟨fresh, grounded⟩, distinct, restGrounded, fun share member seen => ?_⟩
      rcases List.mem_cons.mp seen with same | before
      · exact others share member same.symm
      · exact restFresh share member before

variable [Crypto] (hostname : Text) (guid : ByteVec 16) (startFiletime : UInt64)

omit [Crypto] in
/-- The names that a builder knows are those declared. -/
theorem lookup_users_isSome (calls : List BuilderCall) (name : Text) :
    ((calls.foldl call (new hostname guid startFiletime)).users.lookup name).isSome ↔
      ∃ password, (name, password) ∈ declaredUsers calls := by
  have declared := lookup_foldl_insert id (declaredUsers calls) Table.empty name
  rw [users_foldl]
  simpa [new] using declared

omit [Crypto] in
theorem checks_iff (calls : List BuilderCall) :
    (validateUsers (calls.foldl call (new hostname guid startFiletime)).userOrder = .ok () ∧
      validateShares (calls.foldl call (new hostname guid startFiletime)).users []
        (calls.foldl call (new hostname guid startFiletime)).shares = .ok ()) ↔
      WellDeclared (declaredUsers calls) (declaredShares calls) := by
  have known := lookup_users_isSome hostname guid startFiletime calls
  have order (name : Text) : name ∈ (calls.foldl call (new hostname guid startFiletime)).userOrder ↔
      ∃ password, (name, password) ∈ declaredUsers calls := by
    rw [userOrder_foldl _ _ (by simp [new]), known]
  have shares : (calls.foldl call (new hostname guid startFiletime)).shares =
      declaredShares calls := by
    rw [shares_foldl]
    rfl
  -- the builder checks the names in its order and the shares as declared
  rw [validateUsers_iff, validateShares_iff, shares]
  constructor
  · rintro ⟨names, distinct, grounded, -⟩
    refine ⟨fun user member => names _ ((order _).mpr ⟨user.2, member⟩), distinct, ?_⟩
    exact fun share member => (Share.Grounded.congr known share).mp (grounded share member)
  · intro well
    refine ⟨fun name listed => ?_, well.distinct, fun share member => ?_, by simp⟩
    · obtain ⟨password, member⟩ := (order name).mp listed
      exact well.names _ member
    · exact (Share.Grounded.congr known share).mpr (well.grounded share member)

/-- What a builder with an address builds. -/
theorem build_eq_ok (b : SmbServerBuilder) (listens : b.listenAddr.isSome) (built : ServerState) :
    b.build = .ok built ↔
      (validateUsers b.userOrder = .ok () ∧ validateShares b.users [] b.shares = .ok ()) ∧
        built = { config := ⟨b.netbios, b.maxReadSize, b.maxWriteSize,
                    b.serverGuid.getD b.randomGuid⟩
                  users := b.userTable
                  shares := registerAll b.shares
                  serverStartFiletime := b.startFiletime
                  traceSink := b.traceSink } := by
  obtain ⟨addr, listens⟩ := Option.isSome_iff_exists.mp listens
  rw [build, listens]
  cases validateUsers b.userOrder with
  | error e => simp [bind, Except.bind]
  | ok =>
    cases validateShares b.users [] b.shares with
    | error e => simp [bind, Except.bind]
    | ok => simp [bind, Except.bind, pure, Except.pure, eq_comm]

/-- A user's credentials are those of the last password declared. -/
theorem lookup_userTable_eq (b : SmbServerBuilder) (name : Text)
    (listed : name ∈ b.userOrder ↔ (b.users.lookup name).isSome) :
    b.userTable.lookup name = (b.users.lookup name).map UserCreds.fromPassword := by
  -- the table that is built up name by name
  have folded (names : List Text) (t : Table Text UserCreds) :
      (names.foldl (fun t name =>
        t.insert name (UserCreds.fromPassword ((b.users.lookup name).getD []))) t).lookup name =
      if name ∈ names then some (UserCreds.fromPassword ((b.users.lookup name).getD []))
      else t.lookup name := by
    induction names generalizing t with
    | nil => simp
    | cons first rest ih =>
      rw [List.foldl_cons, ih, Table.lookup_insert]
      by_cases later : name ∈ rest
      · simp [later]
      · by_cases same : name = first
        · subst same
          simp [later]
        · simp [later, same]
  rw [userTable, folded]
  cases found : b.users.lookup name with
  | none => rw [if_neg (by rw [listed, found]; simp), Table.lookup_empty, Option.map_none]
  | some password => rw [if_pos (by rw [listed, found]; rfl), Option.getD_some, Option.map_some]

end SmbServerBuilder

/-! ### The operations -/

namespace ServerState

variable [Crypto]

theorem replay_append (server : ServerState) (front back : List ConfigOp) :
    server.replay (front ++ back) = (server.replay front).bind (·.replay back) := by
  rw [replay, List.foldlM_append]
  rfl

/-- Adding users one after another. -/
theorem replay_users (server : ServerState) (users : List (Text × Text)) (t : ServerState) :
    server.replay (users.map fun user => .addUser user.1 user.2) = .ok t ↔
      (∀ user ∈ users, user.1 ≠ [] ∧ user.1.eqIgnoreAsciiCase anonymousName = false) ∧
        t = { server with
              users := users.foldl (fun t user => t.insert user.1 (UserCreds.fromPassword user.2))
                server.users } := by
  induction users generalizing server with
  | nil =>
    constructor
    · intro done
      cases done
      exact ⟨by simp, rfl⟩
    · rintro ⟨-, rfl⟩
      rfl
  | cons first rest ih =>
    rw [List.forall_mem_cons, List.map_cons, replay, List.foldlM_cons]
    by_cases valid : first.1 ≠ [] ∧ first.1.eqIgnoreAsciiCase anonymousName = false
    · have added : (server.edit (.addUser first.1 first.2)).map Prod.fst = .ok { server with
          users := server.users.insert first.1 (UserCreds.fromPassword first.2) } := by
        rw [edit, addUser, validateUserName, if_neg (by simpa using valid.1),
          if_neg (by simp [valid.2])]
        rfl
      rw [added]
      have later := ih { server with
        users := server.users.insert first.1 (UserCreds.fromPassword first.2) }
      rw [replay] at later
      simp only [bind, Except.bind]
      rw [later]
      constructor
      · rintro ⟨names, rfl⟩
        exact ⟨⟨valid, names⟩, rfl⟩
      · rintro ⟨⟨-, names⟩, rfl⟩
        exact ⟨names, rfl⟩
    -- a name that is refused ends the replay with an error
    · have refused : ∃ e, (server.edit (.addUser first.1 first.2)).map Prod.fst = .error e := by
        rw [edit, addUser, validateUserName]
        by_cases empty : first.1 = []
        · exact ⟨.emptyUserName, by rw [if_pos (by simp [empty])]; rfl⟩
        · have reserved : first.1.eqIgnoreAsciiCase anonymousName = true := by
            simpa [empty] using valid
          exact ⟨.reservedUserName first.1,
            by rw [if_neg (by simpa using empty), if_pos reserved]; rfl⟩
      obtain ⟨e, refused⟩ := refused
      rw [refused]
      constructor
      · exact fun fails => by cases fails
      · rintro ⟨⟨names, -⟩, -⟩
        exact absurd names valid

omit [Crypto] in
/-- One share is added when its name is neither reserved nor taken and its checks pass. -/
theorem addShare_eq_ok (server : ServerState) (share : Share) (t : ServerState × Sweep) :
    server.addShare share = .ok t ↔
      (share.name.eqIgnoreAsciiCase ipcName = false ∧
        (share.Grounded fun user => (server.users.lookup user).isSome) ∧
        server.findShare share.name = none) ∧
      t = (server.withShares
        (server.shares.register share.name share.backend ⟨share.mode, share.users⟩), .none) := by
  rw [addShare, validateShareName]
  by_cases reserved : share.name.eqIgnoreAsciiCase ipcName = true
  · simp [reserved, bind, Except.bind]
  rw [if_neg reserved]
  -- a public share with a list of users
  by_cases mixed : share.mode.isPublic = true ∧ share.users.keys ≠ []
  · have ungrounded : ¬share.Grounded fun user => (server.users.lookup user).isSome :=
      fun grounded => mixed.2 (grounded.exclusive mixed.1)
    simp [mixed.1, mixed.2, ungrounded, bind, Except.bind]
  have exclusive : share.mode.isPublic = true → share.users.keys = [] :=
    fun isPublic => not_ne_iff.mp fun some_ => mixed ⟨isPublic, some_⟩
  simp only [bind, Except.bind, if_neg (show ¬(share.mode.isPublic && !share.users.keys.isEmpty) =
    true by simpa using exclusive), pure, Except.pure]
  -- the first user of the list that is not registered
  cases unknown : share.users.keys.find? fun u => (server.users.lookup u).isNone with
  | some user =>
    have ungrounded : ¬share.Grounded fun user => (server.users.lookup user).isSome := by
      intro grounded
      have known := grounded.known user (List.mem_of_find?_eq_some unknown)
      have missing := List.find?_some unknown
      rw [Option.isNone_iff_eq_none.mp missing] at known
      cases known
    simp [ungrounded]
  | none =>
    have grounded : share.Grounded fun user => (server.users.lookup user).isSome :=
      ⟨exclusive, fun user member => by
        simpa [Option.isSome_iff_ne_none] using List.find?_eq_none.mp unknown user member⟩
    cases taken : server.findShare share.name with
    | some other => simp
    | none =>
      simp only [Option.isSome_none, Bool.false_eq_true, if_false, Except.ok.injEq]
      constructor
      · rintro rfl
        exact ⟨⟨by simpa using reserved, grounded, trivial⟩, rfl⟩
      · rintro ⟨-, rfl⟩
        rfl

omit [Crypto] in
theorem findShare_register (server : ServerState) (share : Share) (name : Text) :
    (server.withShares (server.shares.register share.name share.backend
        ⟨share.mode, share.users⟩)).findShare name = none ↔
      share.name.toAsciiLowercase ≠ name.toAsciiLowercase ∧ server.findShare name = none := by
  rw [findShare, ServerShares.find, withShares, ServerShares.register, Table.lookup_insert]
  by_cases same : name.toAsciiLowercase = share.name.toAsciiLowercase
  · simp [same]
  · rw [if_neg same]
    exact (and_iff_right (Ne.symm same)).symm

/-- Adding shares one after another: a name is taken when it was registered before. -/
theorem replay_shares (server : ServerState) (shares : List Share) (t : ServerState) :
    server.replay (shares.map .addShare) = .ok t ↔
      (Unreserved shares ∧
        shares.Pairwise (fun first second =>
          first.name.toAsciiLowercase ≠ second.name.toAsciiLowercase) ∧
        (∀ share ∈ shares, share.Grounded fun user => (server.users.lookup user).isSome) ∧
        ∀ share ∈ shares, server.findShare share.name = none) ∧
      t = server.withShares (shares.foldl (fun s share =>
        s.register share.name share.backend ⟨share.mode, share.users⟩) server.shares) := by
  induction shares generalizing server with
  | nil =>
    constructor
    · intro done
      cases done
      exact ⟨⟨by simp [Unreserved], List.Pairwise.nil, by simp, by simp⟩, rfl⟩
    · rintro ⟨-, rfl⟩
      rfl
  | cons first rest ih =>
    have step : server.replay ((first :: rest).map .addShare) = .ok t ↔
        ∃ next, server.addShare first = .ok next ∧
          next.1.replay (rest.map .addShare) = .ok t := by
      rw [List.map_cons, replay, List.foldlM_cons]
      show (server.addShare first).map Prod.fst >>= _ = _ ↔ _
      cases server.addShare first with
      | error e => simp [bind, Except.bind, Except.map]
      | ok next => simp [bind, Except.bind, Except.map, replay]
    rw [step]
    constructor
    · rintro ⟨next, added, later⟩
      obtain ⟨⟨unreserved, grounded, free⟩, rfl⟩ := (addShare_eq_ok server first next).mp added
      obtain ⟨⟨restUnreserved, distinct, restGrounded, restFree⟩, rfl⟩ := (ih _).mp later
      refine ⟨⟨?_, List.pairwise_cons.mpr ⟨?_, distinct⟩, ?_, ?_⟩, rfl⟩
      · exact List.forall_mem_cons.mpr ⟨unreserved, restUnreserved⟩
      · exact fun share member => ((findShare_register server first share.name).mp
          (restFree share member)).1
      · exact List.forall_mem_cons.mpr ⟨grounded, restGrounded⟩
      · exact List.forall_mem_cons.mpr ⟨free, fun share member =>
          ((findShare_register server first share.name).mp (restFree share member)).2⟩
    · rintro ⟨⟨unreserved, distinct, grounded, free⟩, rfl⟩
      obtain ⟨unreserved, restUnreserved⟩ := List.forall_mem_cons.mp unreserved
      obtain ⟨others, distinct⟩ := List.pairwise_cons.mp distinct
      obtain ⟨grounded, restGrounded⟩ := List.forall_mem_cons.mp grounded
      obtain ⟨free, restFree⟩ := List.forall_mem_cons.mp free
      refine ⟨_, (addShare_eq_ok server first _).mpr ⟨⟨unreserved, grounded, free⟩, rfl⟩, ?_⟩
      refine (ih _).mpr ⟨⟨restUnreserved, distinct, restGrounded, fun share member => ?_⟩, rfl⟩
      exact (findShare_register server first share.name).mpr
        ⟨others share member, restFree share member⟩

/-- The operations accept the declarations without a fault whose share names are unreserved. -/
theorem replay_ok_iff (server : ServerState) (vacant : server.Vacant) (calls : List BuilderCall)
    (t : ServerState) :
    server.replay (replayOps calls) = .ok t ↔
      (WellDeclared (declaredUsers calls) (declaredShares calls) ∧
        Unreserved (declaredShares calls)) ∧
      t = { server with
            users := (declaredUsers calls).foldl
              (fun t user => t.insert user.1 (UserCreds.fromPassword user.2)) server.users
            shares := (declaredShares calls).foldl (fun s share =>
              s.register share.name share.backend ⟨share.mode, share.users⟩) server.shares } := by
  have step : server.replay (replayOps calls) = .ok t ↔
      ∃ mid, server.replay ((declaredUsers calls).map fun user => .addUser user.1 user.2) = .ok mid ∧
        mid.replay ((declaredShares calls).map .addShare) = .ok t := by
    rw [replayOps, replay_append]
    cases server.replay ((declaredUsers calls).map fun user => .addUser user.1 user.2) with
    | error e => simp [Except.bind]
    | ok mid => simp [Except.bind]
  have known (name : Text) : (((declaredUsers calls).foldl
      (fun t user => t.insert user.1 (UserCreds.fromPassword user.2)) server.users).lookup
        name).isSome ↔ ∃ password, (name, password) ∈ declaredUsers calls := by
    rw [lookup_foldl_insert, vacant.users]
    simp
  have free (name : Text) : server.findShare name = none := vacant.shares _
  rw [step]
  constructor
  · rintro ⟨mid, users, shares⟩
    obtain ⟨names, rfl⟩ := (replay_users server _ mid).mp users
    obtain ⟨⟨unreserved, distinct, grounded, -⟩, rfl⟩ := (replay_shares _ _ t).mp shares
    refine ⟨⟨⟨names, distinct, fun share member => ?_⟩, unreserved⟩, rfl⟩
    exact (Share.Grounded.congr known share).mp (grounded share member)
  · rintro ⟨⟨well, unreserved⟩, rfl⟩
    refine ⟨_, (replay_users server _ _).mpr ⟨well.names, rfl⟩, (replay_shares _ _ _).mpr ⟨?_, rfl⟩⟩
    refine ⟨unreserved, well.distinct, fun share member => ?_, fun share _ => free share.name⟩
    exact (Share.Grounded.congr known share).mpr (well.grounded share member)

end ServerState

/-! ### The two together -/

/-- The bindings of a registry have numbers that were handed out. -/
def ServerShares.Numbered (s : ServerShares) : Prop :=
  ∀ key share, s.byName.lookup key = some share → share.arc < s.nextArc

theorem ServerShares.Numbered.register {s : ServerShares} (numbered : s.Numbered) (name : Text)
    (backend : BackendRef) (acl : ShareAcl) : (s.register name backend acl).Numbered := by
  intro key share found
  rw [ServerShares.register, Table.lookup_insert] at found
  split at found
  · obtain rfl := Option.some.inj found
    exact Nat.lt_succ_self _
  · exact Nat.lt_succ_of_lt (numbered key share found)

theorem ServerShares.shown_register {s : ServerShares} (numbered : s.Numbered) (name : Text)
    (backend : BackendRef) (acl : ShareAcl) (key : Text) :
    (s.register name backend acl).shown key =
      if key = name.toAsciiLowercase then some (name, backend, acl) else s.shown key := by
  rw [shown, ServerShares.register, Table.lookup_insert]
  split
  · simp
  · rw [shown]
    cases found : s.byName.lookup key with
    | none => rfl
    | some share =>
      have below := numbered key share found
      have older : share.arc ≠ s.nextArc := Nat.ne_of_lt below
      simp [older]

/-- Registries that show the same still do when the same shares are registered in both. -/
theorem ServerShares.shown_foldl (shares : List Share) {s t : ServerShares}
    (first : s.Numbered) (second : t.Numbered) (same : ∀ key, s.shown key = t.shown key)
    (key : Text) :
    (shares.foldl (fun s share => s.register share.name share.backend ⟨share.mode, share.users⟩)
        s).shown key =
      (shares.foldl (fun s share => s.register share.name share.backend ⟨share.mode, share.users⟩)
        t).shown key := by
  induction shares generalizing s t with
  | nil => exact same key
  | cons share rest ih =>
    refine ih (first.register _ _ _) (second.register _ _ _) fun key => ?_
    rw [shown_register first, shown_register second, same]

/-- Credentials of declared users, made while they are added or behind that. -/
theorem lookup_foldl_fromPassword [Crypto] (users : List (Text × Text)) (t : Table Text Text)
    (u : Table Text UserCreds) (name : Text)
    (same : u.lookup name = (t.lookup name).map UserCreds.fromPassword) :
    (users.foldl (fun u user => u.insert user.1 (UserCreds.fromPassword user.2)) u).lookup name =
      ((users.foldl (fun t user => t.insert user.1 user.2) t).lookup name).map
        UserCreds.fromPassword := by
  induction users generalizing t u with
  | nil => exact same
  | cons first rest ih =>
    apply ih
    rw [Table.lookup_insert, Table.lookup_insert, same]
    split <;> rfl

/-- Building agrees with adding the users and shares to a server without any if and only if no
share has the reserved name, or another check rejects the declarations. -/
theorem builder_agrees_iff [Crypto] (hostname : Text) (guid : ByteVec 16) (startFiletime : UInt64)
    (calls : List BuilderCall) (listens : ∃ addr, .listen addr ∈ calls) (server : ServerState)
    (vacant : server.Vacant) :
    BuilderAgrees (calls.foldl SmbServerBuilder.call
        (SmbServerBuilder.new hostname guid startFiletime)) calls server ↔
      (WellDeclared (declaredUsers calls) (declaredShares calls) →
        Unreserved (declaredShares calls)) := by
  let b := calls.foldl SmbServerBuilder.call (SmbServerBuilder.new hostname guid startFiletime)
  have builds (built : ServerState) := SmbServerBuilder.build_eq_ok b
    (SmbServerBuilder.listenAddr_foldl _ calls (.inr listens)) built
  have checks := SmbServerBuilder.checks_iff hostname guid startFiletime calls
  have replays := server.replay_ok_iff vacant calls
  have accepted : (∃ built, b.build = .ok built) ↔
      WellDeclared (declaredUsers calls) (declaredShares calls) := by
    rw [← checks]
    exact ⟨fun ⟨built, ok⟩ => ((builds built).mp ok).1, fun ok => ⟨_, (builds _).mpr ⟨ok, rfl⟩⟩⟩
  constructor
  · intro agrees well
    obtain ⟨replayed, ok⟩ := agrees.succeeds.mp (accepted.mpr well)
    exact ((replays replayed).mp ok).1.2
  · intro unreserved
    constructor
    · rw [accepted]
      exact ⟨fun well => ⟨_, (replays _).mpr ⟨⟨well, unreserved well⟩, rfl⟩⟩,
        fun ⟨replayed, ok⟩ => ((replays replayed).mp ok).1.1⟩
    · intro built replayed ok ok' name
      obtain ⟨-, rfl⟩ := (builds built).mp ok
      obtain ⟨-, rfl⟩ := (replays replayed).mp ok'
      have listed := SmbServerBuilder.userOrder_foldl
        (SmbServerBuilder.new hostname guid startFiletime) calls
        (by simp [SmbServerBuilder.new]) name
      show b.userTable.lookup name = _
      rw [SmbServerBuilder.lookup_userTable_eq b name listed, SmbServerBuilder.users_foldl]
      exact (lookup_foldl_fromPassword _ _ _ name (vacant.users name)).symm
    · intro built replayed ok ok' key
      obtain ⟨-, rfl⟩ := (builds built).mp ok
      obtain ⟨-, rfl⟩ := (replays replayed).mp ok'
      have shares : b.shares = declaredShares calls := SmbServerBuilder.shares_foldl _ calls
      show (SmbServerBuilder.registerAll b.shares).shown key = _
      rw [shares]
      refine ServerShares.shown_foldl _ ?_ ?_ ?_ key
      · intro key share found
        cases found
      · intro key share found
        rw [vacant.shares] at found
        cases found
      · intro key
        rw [ServerShares.shown, ServerShares.shown, vacant.shares]
        rfl

open scoped Sample

/-- Two users, one of them declared twice, and a share for one of them. -/
def Sample.declarations : List BuilderCall :=
  [.listen [], .user Sample.user [], .user ['b'] Sample.password,
    .user Sample.user Sample.password, .share Sample.guarded, .share Sample.writable]

/-- A server that was started without users and shares. -/
def Sample.bare : ServerState :=
  { Sample.server with users := Table.empty, shares := SmbServerBuilder.registerAll [] }

theorem Sample.vacant_bare : Sample.bare.Vacant := ⟨fun _ => rfl, fun _ => rfl⟩

theorem builder_agrees_sample :
    BuilderAgrees (Sample.declarations.foldl SmbServerBuilder.call
        (SmbServerBuilder.new [] (ByteVec.zero 16) 0)) Sample.declarations Sample.bare := by
  refine (builder_agrees_iff [] (ByteVec.zero 16) 0 Sample.declarations ⟨[], by simp
    [Sample.declarations]⟩ Sample.bare Sample.vacant_bare).mpr fun _ => ?_
  show Unreserved [Sample.guarded, Sample.writable]
  intro share member
  simp only [List.mem_cons, List.not_mem_nil, or_false] at member
  rcases member with rfl | rfl <;> decide

/-- The builder accepts a share called `IPC$`, which no running server adds. -/
theorem builder_reserves_nothing :
    ¬∀ (calls : List BuilderCall) (server : ServerState), (∃ addr, .listen addr ∈ calls) →
      server.Vacant → BuilderAgrees (calls.foldl SmbServerBuilder.call
        (SmbServerBuilder.new [] (ByteVec.zero 16) 0)) calls server := by
  intro all
  let share : Share := { Sample.writable with name := ipcName }
  have agrees := all [.listen [], .share share] Sample.bare ⟨[], by simp⟩ Sample.vacant_bare
  obtain ⟨replayed, ok⟩ := agrees.succeeds.mp ⟨_, rfl⟩
  cases ok

end SmbServer
