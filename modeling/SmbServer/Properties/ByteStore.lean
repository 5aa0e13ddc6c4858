import SmbServer.Lib.ByteEdit
import SmbServer.Properties.LocalRequests
import SmbServer.Properties.ReadableReplies
import SmbServer.Properties.WriteEffect

/-!
# SmbServer.Properties.ByteStore

What READ and WRITE have to do with each other, for any backend whose handles read and write byte
strings.

A request changes at most one of them: a WRITE that the backend has counted, a SET_INFO of the end
of file that it has accepted, and an open that empties the file.

## Main result

`ByteStore.truthful_run`: a READ that succeeds returns what the changes before it have left, and a
WRITE is counted exactly as it has changed what is behind its handle.

## Proof strategy

`ByteStore` says what a backend has to do with its byte strings, call by call; `ByteStore.follows`
carries this over to the requests and `ByteStore.follows_execute` to the steps. The handles of the
live opens are kept valid by `Opens.execute`.
-/

namespace SmbServer

open Lib

variable {σ η ο : Type}

/-- What is made of a part that is left alone. -/
theorem Observed.map [Host σ η] {τ ρ : Type} {view : σ → τ} (observed : Observed view)
    (f : τ → ρ) : Observed fun s => f (view s) where
  read h offset len s := congrArg f (observed.read h offset len s)
  flush h s := congrArg f (observed.flush h s)
  stat h s := congrArg f (observed.stat h s)
  listDir h pattern s := congrArg f (observed.listDir h pattern s)
  close h s := congrArg f (observed.close h s)
  fillRandom n s := congrArg f (observed.fillRandom n s)
  nowFiletime s := congrArg f (observed.nowFiletime s)

/-! ### Stores -/

/-- Where the bytes are: which of them a handle reads and writes, and the handles there have
been. -/
structure ByteView (σ η ο : Type) where
  object : η → Option ο
  bytes : σ → ο → Bytes
  valid : σ → η → Prop

/-- From one state to another there is this change, and no handle becomes invalid. -/
structure ByteView.Follows [DecidableEq ο] (view : ByteView σ η ο) (change : Option (ο × ByteEdit))
    (s s' : σ) : Prop where
  bytes : view.bytes s' = changed (view.bytes s) change
  kept : ∀ h, view.valid s h → view.valid s' h

/-- What an open does to the bytes of what it has opened. -/
def ByteView.emptied (view : ByteView σ η ο) (opts : OpenOptions) (h : η) :
    Option (ο × ByteEdit) :=
  if opts.intent.truncates then (view.object h).map fun o => (o, .resize 0) else none

/-- A host whose handles read and write byte strings. A write may be cut short. -/
structure ByteStore (σ η ο : Type) [Host σ η] [DecidableEq ο] extends ByteView σ η ο where
  observed : Observed fun s => (bytes s, valid s)
  openRefused (n : Nat) (path : SmbPath) (opts : OpenOptions) (s : σ) (e : SmbError) :
    (Host.open n path opts s).1 = .error e →
      toByteView.Follows none s (Host.open n path opts s).2
  opened (n : Nat) (path : SmbPath) (opts : OpenOptions) (s : σ) (h : η) :
    (Host.open n path opts s).1 = .ok h →
      valid (Host.open n path opts s).2 h ∧
        toByteView.Follows (toByteView.emptied opts h) s (Host.open n path opts s).2
  read (h : η) (offset : UInt64) (len : UInt32) (s : σ) (data : Bytes) :
    valid s h → (Host.read h offset len s).1 = .ok data →
      ∃ o, object h = some o ∧ data = slice (bytes s o) offset.toNat len.toNat
  writeRefused (h : η) (offset : UInt64) (data : Bytes) (s : σ) (e : SmbError) :
    (Host.writeOwned h offset data s).1 = .error e →
      toByteView.Follows none s (Host.writeOwned h offset data s).2
  written (h : η) (offset : UInt64) (data : Bytes) (s : σ) (count : UInt32) :
    valid s h → data.length < 2 ^ 32 → (Host.writeOwned h offset data s).1 = .ok count →
      ∃ o, object h = some o ∧
        toByteView.Follows (some (o, .write offset.toNat (data.take count.toNat))) s
          (Host.writeOwned h offset data s).2
  truncateRefused (h : η) (len : UInt64) (s : σ) (e : SmbError) :
    (Host.truncate h len s).1 = .error e →
      toByteView.Follows none s (Host.truncate h len s).2
  truncated (h : η) (len : UInt64) (s : σ) :
    valid s h → (Host.truncate h len s).1 = .ok () →
      ∃ o, object h = some o ∧
        toByteView.Follows (some (o, .resize len.toNat)) s (Host.truncate h len s).2
  setTimes (h : η) (times : FileTimes) (s : σ) :
    toByteView.Follows none s (Host.setTimes h times s).2
  unlink (n : Nat) (path : SmbPath) (s : σ) : toByteView.Follows none s (Host.unlink n path s).2
  rename (n : Nat) (src dst : SmbPath) (replace : Bool) (s : σ) :
    toByteView.Follows none s (Host.rename n src dst replace s).2

/-! ### Requests -/

section
variable [Host σ η] [Crypto]

/-- The change that a CREATE makes, as far as the backend goes along. -/
def Create.change (view : ByteView σ η ο) (conn : Connection η) (hdr : Smb2Header)
    (body : Bytes) (host : σ) : Option (ο × ByteEdit) :=
  match Create.validate conn hdr body with
  | .error _ => none
  | .ok plan =>
    match (plan.tree.share.backend.open plan.path plan.opts host).1 with
    | .error _ => none
    | .ok h => view.emptied plan.opts h

def Write.change (view : ByteView σ η ο) (conn : Connection η) (hdr : Smb2Header)
    (body : Bytes) (host : σ) : Option (ο × ByteEdit) :=
  match WriteRequest.parse body with
  | none => none
  | some req =>
    match Write.validate conn hdr req with
    | .error _ => none
    | .ok (_, h) =>
      match (Host.writeOwned h.inner req.offset req.data host).1 with
      | .error _ => none
      | .ok count =>
        (view.object h.inner).map fun o => (o, .write req.offset.toNat (req.data.take count.toNat))

def SetInfo.change (view : ByteView σ η ο) (conn : Connection η) (hdr : Smb2Header)
    (body : Bytes) (host : σ) : Option (ο × ByteEdit) :=
  match SetInfo.validate conn hdr body with
  | .error _ => none
  | .ok (req, target) =>
    match SetInfo.decode req.fileInformationClass req.buffer target.file with
    | .ok (.truncate h len) =>
      match (Host.truncate h.inner len host).1 with
      | .error _ => none
      | .ok () => (view.object h.inner).map fun o => (o, .resize len.toNat)
    | _ => none

/-- The change that an accepted request makes. -/
def ByteView.changeOf (view : ByteView σ η ο) (conn : Connection η) (hdr : Smb2Header)
    (body : Bytes) (host : σ) : Option (ο × ByteEdit) :=
  match hdr.command with
  | .create => Create.change view conn hdr body host
  | .write => Write.change view conn hdr body host
  | .setInfo => SetInfo.change view conn hdr body host
  | _ => none

namespace System

/-- The reply to an element. -/
def reply (s : System σ η) : Step → Option Bytes
  | .element cid e => (s.onConn cid (dispatchOne s.server e.bytes e.ordinal)).1.join
  | _ => none

/-- The change that a step makes. -/
def change (view : ByteView σ η ο) (s : System σ η) : Step → Option (ο × ByteEdit)
  | .element cid e =>
    match s.conns.lookup cid, Smb2Header.parse e.bytes with
    | some conn, some (hdr, body) =>
      match verifyRequestSignature conn hdr e.bytes with
      | .error _ => none
      | .ok () => view.changeOf conn hdr body s.env.host
    | _, _ => none
  | _ => none

/-- The changes that the steps of a run make. -/
def changes (view : ByteView σ η ο) : System σ η → List Step → List (ο × ByteEdit)
  | _, [] => []
  | s, step :: steps => (s.change view step).toList ++ changes view (s.execute step) steps

end System

/-- Every handle of an open is valid. -/
def System.Valid (view : ByteView σ η ο) (s : System σ η) : Prop :=
  s.Opens fun _ file => ∀ h, file.handle = some h → view.valid s.env.host h.inner

end

/-! ### One request -/

/-- The data of a WRITE fit in a message. -/
theorem WriteRequest.length_data_lt {body : Bytes} {req : WriteRequest}
    (parsed : WriteRequest.parse body = some req) : req.data.length < 2 ^ 32 := by
  obtain ⟨-, -, data, fits⟩ := WriteRequest.parse_reads parsed
  rw [data, length_slice _ _ _ fits, writeCount]
  have small := (readU32 body 4).toNat_lt
  split <;> omega

section
variable [Host σ η]

/-- A SET_INFO that is admitted performs its operation. -/
theorem SetInfo.handle_performs (server : ServerState) (hdr : Smb2Header) (body : Bytes)
    (w : World σ η) {req : SetInfoRequest} {target : Target η} {op : SetInfo.Operation η}
    (admitted : SetInfo.validate w.conn hdr body = .ok (req, target))
    (decoded : SetInfo.decode req.fileInformationClass req.buffer target.file = .ok op) :
    ∃ w₁, Alike w w₁ ∧ SetInfo.handle server hdr body w =
      SetInfo.perform server hdr.sessionId req.fileId target op w₁ := by
  simp only [SetInfo.handle, Action.bind_apply, getConn_apply, admitted]
  split
  · refine ⟨_, alike_record server.traceSink (.setInfoOther req.fileInformationClass) w, ?_⟩
    simp only [Action.bind_apply, decoded]
  · refine ⟨w, .refl w, ?_⟩
    simp only [decoded]

/-- What is asked of the host for an operation. -/
theorem SetInfo.perform_host (server : ServerState) (sid : UInt64) (fid : FileId)
    (target : Target η) (op : SetInfo.Operation η) (w : World σ η) :
    (SetInfo.perform server sid fid target op w).2.env.host =
      match op with
      | .setTimes h times => (Host.setTimes h.inner times w.env.host).2
      | .truncate h len => (Host.truncate h.inner len w.env.host).2
      | .rename dst replace =>
        (target.tree.share.backend.rename target.file.lastPath dst replace w.env.host).2
      | .disposition _ | .allocation => w.env.host := by
  cases op with
  | setTimes | truncate | disposition | allocation => rfl
  | rename dst replace =>
    have recorded := alike_record server.traceSink (.setInfoRename replace dst.displayBackslash
      target.file.lastPath.displayBackslash) w
    simp only [SetInfo.perform, Action.bind_apply, backendRename, issue_apply, recorded.host]
    cases (target.tree.share.backend.rename (σ := σ) target.file.lastPath dst replace
      w.env.host).1 <;> rfl

end

namespace ByteView.Follows

variable [DecidableEq ο] {view : ByteView σ η ο} {change : Option (ο × ByteEdit)} {s s' s'' : σ}

theorem refl (s : σ) : view.Follows none s s := ⟨rfl, fun _ valid => valid⟩

/-- What is done behind a change, and changes nothing. -/
theorem trans (first : view.Follows change s s') (second : view.Follows none s' s'') :
    view.Follows change s s'' :=
  ⟨second.bytes.trans first.bytes, fun h valid => second.kept h (first.kept h valid)⟩

/-- What is done in front of a change, and changes nothing. -/
theorem behind (first : view.Follows none s s') (second : view.Follows change s' s'') :
    view.Follows change s s'' :=
  ⟨second.bytes.trans (by rw [first.bytes]; rfl), fun h valid => second.kept h (first.kept h valid)⟩

/-- What leaves the view alone. -/
theorem of_same (same : (view.bytes s', view.valid s') = (view.bytes s, view.valid s)) :
    view.Follows none s s' := by
  obtain ⟨bytes, valid⟩ := Prod.mk.inj same
  exact ⟨bytes, fun h here => valid ▸ here⟩

end ByteView.Follows

namespace ByteStore

variable [Host σ η] [DecidableEq ο] (store : ByteStore σ η ο)

theorem open_refused (backend : BackendRef) (path : SmbPath) (opts : OpenOptions) (s : σ)
    (refused : ∀ h, (backend.open path opts s).1 ≠ .ok h) :
    store.Follows none s (backend.open path opts s).2 := by
  cases backend with
  | notSupported => exact .refl s
  | custom n =>
    cases answer : (Host.open n path opts s).1 with
    | error e => exact store.openRefused n path opts s e answer
    | ok h => exact absurd answer (refused h)

theorem open_ok (backend : BackendRef) (path : SmbPath) (opts : OpenOptions) (s : σ) (h : η)
    (answer : (backend.open path opts s).1 = .ok h) :
    store.valid (backend.open path opts s).2 h ∧
      store.Follows (store.emptied opts h) s (backend.open path opts s).2 := by
  cases backend with
  | notSupported => cases answer
  | custom n => exact store.opened n path opts s h answer

theorem unlink_follows (backend : BackendRef) (path : SmbPath) (s : σ) :
    store.Follows none s (backend.unlink path s).2 := by
  cases backend with
  | notSupported => exact .refl s
  | custom n => exact store.unlink n path s

theorem rename_follows (backend : BackendRef) (src dst : SmbPath) (replace : Bool) (s : σ) :
    store.Follows none s (backend.rename src dst replace s).2 := by
  cases backend with
  | notSupported => exact .refl s
  | custom n => exact store.rename n src dst replace s

/-- A CREATE, whatever becomes of the new handle. -/
theorem follows_created {conn : Connection η} {hdr : Smb2Header} {body : Bytes} {sid : UInt64}
    {plan : Create.Plan η} {w w' : World σ η}
    (admitted : Create.validate conn hdr body = .ok plan)
    (outcome : Create.Outcome sid plan w w') :
    store.Follows (Create.change store.toByteView conn hdr body w.env.host) w.env.host
      w'.env.host := by
  cases outcome with
  | refused host _ _ _ answer =>
    have nothing : Create.change store.toByteView conn hdr body w.env.host = none := by
      simp only [Create.change, admitted]
      split
      · rfl
      next h opened => exact absurd opened (answer h)
    rw [host, nothing]
    exact store.open_refused _ plan.path plan.opts w.env.host answer
  | abandoned inner opened host =>
    simp only [Create.change, admitted, opened]
    rw [host]
    refine (store.open_ok _ _ _ _ _ opened).2.trans (.of_same ?_)
    exact (store.observed.close inner _).trans (store.observed.stat inner _)
  | registered inner _ opened host =>
    simp only [Create.change, admitted, opened]
    rw [host]
    exact (store.open_ok _ _ _ _ _ opened).2.trans (.of_same (store.observed.stat inner _))

variable (server : ServerState) (w : World σ η) {hdr : Smb2Header} (body : Bytes)

/-- The handles that the request can name are valid. -/
def Names (w : World σ η) (hdr : Smb2Header) : Prop :=
  ∀ fid target h, lookupTarget w.conn hdr fid = .ok target → target.file.handle = some h →
    store.valid w.env.host h.inner

theorem follows_write (valid : store.Names w hdr) :
    store.Follows (Write.change store.toByteView w.conn hdr body w.env.host) w.env.host
      (Write.handle server hdr body w).2.env.host := by
  cases parsed : WriteRequest.parse body with
  | none =>
    simp only [Write.handle, Write.change, parsed]
    exact .refl _
  | some req =>
    have recorded := alike_record server.traceSink
      (.write req.fileId.write req.offset req.length) w
    cases admitted : Write.validate w.conn hdr req with
    | error status =>
      simp only [Write.handle, Write.change, parsed, Action.bind_apply, getConn_apply,
        recorded.conn, admitted, Action.pure_apply, recorded.host]
      exact .refl _
    | ok pair =>
      obtain ⟨target, h⟩ := pair
      obtain ⟨found, -, live⟩ := Write.validate_eq_ok w.conn hdr req target h admitted
      rw [(Write.handle_answer server hdr body w req target h parsed admitted).1]
      cases answer : (Host.writeOwned h.inner req.offset req.data w.env.host).1 with
      | error e =>
        simp only [Write.change, parsed, admitted, answer]
        exact store.writeRefused _ _ _ _ e answer
      | ok count =>
        obtain ⟨o, object, follows⟩ := store.written _ _ _ _ count
          (valid req.fileId target h found live) (WriteRequest.length_data_lt parsed) answer
        simp only [Write.change, parsed, admitted, answer, object, Option.map_some]
        exact follows

theorem follows_setInfo (valid : store.Names w hdr) :
    store.Follows (SetInfo.change store.toByteView w.conn hdr body w.env.host) w.env.host
      (SetInfo.handle server hdr body w).2.env.host := by
  cases admitted : SetInfo.validate w.conn hdr body with
  | error status =>
    simp only [SetInfo.handle, SetInfo.change, Action.bind_apply, getConn_apply, admitted,
      Action.pure_apply]
    exact .refl _
  | ok pair =>
    obtain ⟨req, target⟩ := pair
    cases decoded : SetInfo.decode req.fileInformationClass req.buffer target.file with
    | error status =>
      have same : (SetInfo.handle server hdr body w).2.env.host = w.env.host := by
        have recorded := alike_record server.traceSink (.setInfoOther req.fileInformationClass) w
        simp only [SetInfo.handle, Action.bind_apply, getConn_apply, admitted]
        split
        · simp only [Action.bind_apply, decoded, Action.pure_apply, recorded.host]
        · simp only [decoded, Action.pure_apply]
      simp only [SetInfo.change, admitted, decoded]
      rw [same]
      exact .refl _
    | ok op =>
      obtain ⟨w₁, alike, performs⟩ := SetInfo.handle_performs server hdr body w admitted decoded
      rw [performs, SetInfo.perform_host, alike.host]
      cases op with
      | setTimes h times =>
        simp only [SetInfo.change, admitted, decoded]
        exact store.setTimes h.inner times _
      | rename dst replace =>
        simp only [SetInfo.change, admitted, decoded]
        exact store.rename_follows _ _ dst replace _
      | disposition | allocation =>
        simp only [SetInfo.change, admitted, decoded]
        exact .refl _
      | truncate h len =>
        cases answer : (Host.truncate h.inner len w.env.host).1 with
        | error e =>
          simp only [SetInfo.change, admitted, decoded, answer]
          exact store.truncateRefused _ _ _ e answer
        | ok =>
          obtain ⟨-, -, found⟩ := (SetInfo.validate_eq_ok w.conn hdr body req target).mp admitted
          cases (SetInfo.decode_eq_ok _ _ _ _).mp decoded with
          | truncate _ _ _ live =>
            obtain ⟨o, object, follows⟩ :=
              store.truncated _ _ _ (valid req.fileId target h found live) answer
            simp only [SetInfo.change, admitted, decoded, answer, object, Option.map_some]
            exact follows

variable [Crypto] (frame : Bytes) (ordinal : UInt32)

/-- An accepted request makes its change. -/
theorem follows (accepted : Accepted w.conn frame hdr body) (valid : store.Names w hdr) :
    store.Follows (store.changeOf w.conn hdr body w.env.host) w.env.host
      (dispatchOne server frame ordinal w).2.env.host := by
  -- where the handler starts, nothing has changed yet
  have starts (noNegotiate : hdr.command ≠ .negotiate) (noSetup : hdr.command ≠ .sessionSetup) :=
    dispatchOne_of_accepted server frame ordinal w hdr body accepted noNegotiate noSetup
  have named (w₁ : World σ η) (before : Alike w w₁) : store.Names w₁ hdr := by
    unfold Names
    rw [before.conn, before.host]
    exact valid
  by_cases write : hdr.command = .write
  · obtain ⟨w₁, before, after⟩ := starts (by simp [write]) (by simp [write])
    have made := store.follows_write server w₁ body (named w₁ before)
    simp only [ByteView.changeOf, write]
    rw [before.conn, before.host] at made
    simp only [dispatchCommand, write] at after
    rw [after.host]
    exact made
  by_cases setInfo : hdr.command = .setInfo
  · obtain ⟨w₁, before, after⟩ := starts (by simp [setInfo]) (by simp [setInfo])
    have made := store.follows_setInfo server w₁ body (named w₁ before)
    simp only [ByteView.changeOf, setInfo]
    rw [before.conn, before.host] at made
    simp only [dispatchCommand, setInfo] at after
    rw [after.host]
    exact made
  by_cases create : hdr.command = .create
  · simp only [ByteView.changeOf, create]
    cases admitted : Create.validate w.conn hdr body with
    | error status =>
      have nothing : Create.change store.toByteView w.conn hdr body w.env.host = none := by
        simp only [Create.change, admitted]
      rcases dispatchOne_create server frame ordinal w hdr body accepted create with
        same | ⟨plan, admitted', -⟩
      · rw [nothing, same.host]
        exact .refl _
      · rw [admitted] at admitted'
        cases admitted'
    | ok plan =>
      exact store.follows_created admitted
        (dispatchOne_created server frame ordinal w hdr body accepted create plan admitted)
  -- the others change nothing
  have nothing : store.changeOf w.conn hdr body w.env.host = none := by
    unfold ByteView.changeOf
    split
    · exact absurd ‹_› create
    · exact absurd ‹_› write
    · exact absurd ‹_› setInfo
    · rfl
  rw [nothing]
  by_cases close : hdr.command = .close
  · cases dispatchOne_closed store.observed server frame ordinal w accepted close with
    | refused _ host =>
      rw [host]
      exact .refl _
    | closed req target s _ _ same host =>
      rw [host]
      have first : store.Follows none w.env.host s := .of_same same
      split
      · exact first.trans (store.unlink_follows _ _ s)
      · exact first
  · exact .of_same
      (dispatchOne_still store.observed server frame ordinal w accepted create close write setInfo)

end ByteStore

/-! ### Runs -/

namespace ByteStore

variable [Host σ η] [DecidableEq ο] [Crypto] (store : ByteStore σ η ο)

/-- The change of a step that executes a request. -/
theorem change_of_executes {s : System σ η} {step : Step} {conn : Connection η}
    {hdr : Smb2Header} {body : Bytes} (executes : s.Executes step conn hdr body) :
    s.change store.toByteView step = store.changeOf conn hdr body s.env.host := by
  obtain ⟨cid, e, rfl, live, parsed, verified, -⟩ := executes
  simp only [System.change, live, parsed, verified]

omit [DecidableEq ο] in
theorem change_of_not_accepted {view : ByteView σ η ο} {s : System σ η} {cid : UInt64}
    {e : Element} {conn : Connection η} (live : s.conns.lookup cid = some conn)
    (refused : ¬∃ hdr body, Accepted conn e.bytes hdr body) :
    s.change view (.element cid e) = none := by
  cases parsed : Smb2Header.parse e.bytes with
  | none => simp only [System.change, live, parsed]
  | some request =>
    obtain ⟨hdr, body⟩ := request
    cases verified : verifyRequestSignature conn hdr e.bytes with
    | error status => simp only [System.change, live, parsed, verified]
    | ok =>
      -- only a CANCEL is checked and not executed
      have cancel : hdr.command = .cancel := by
        by_contra other
        exact refused ⟨hdr, body, parsed, verified, other⟩
      simp only [System.change, live, parsed, verified, ByteView.changeOf, cancel]

/-- Every step makes its change. -/
theorem follows_execute {s : System σ η} (valid : s.Valid store.toByteView) (step : Step) :
    store.Follows (s.change store.toByteView step) s.env.host (s.execute step).env.host := by
  by_cases element : ∃ cid e, step = .element cid e
  · obtain ⟨cid, e, rfl⟩ := element
    cases live : s.conns.lookup cid with
    | none =>
      rw [System.execute, System.onConn_of_none s cid _ live]
      simp only [System.change, live]
      exact .refl _
    | some conn =>
      by_cases accepts : ∃ hdr body, Accepted conn e.bytes hdr body
      · obtain ⟨hdr, body, accepted⟩ := accepts
        have executes : s.Executes (.element cid e) conn hdr body := ⟨cid, e, rfl, live, accepted⟩
        rw [store.change_of_executes executes, System.execute,
          System.onConn_of_some s cid _ conn live]
        refine store.follows s.server ⟨conn, s.env⟩ body e.bytes e.ordinal accepted ?_
        intro fid target h found here
        exact valid _ _ (System.hasOpen_of_target live found) h here
      · -- what is not executed changes nothing
        rw [change_of_not_accepted live accepts, System.execute,
          System.onConn_of_some s cid _ conn live]
        rcases dispatchOne_effect s.server e.bytes e.ordinal ⟨conn, s.env⟩ with
          same | ⟨hdr, body, accepted, -⟩
        · rw [same.host]
          exact .refl _
        · exact absurd ⟨hdr, body, accepted⟩ accepts
  · have same := System.still_execute store.observed s step fun cid e eq => element ⟨cid, e, eq⟩
    have nothing : s.change store.toByteView step = none := by
      cases step with
      | element cid e => exact absurd ⟨cid, e, rfl⟩ element
      | accept | smb1 | config | hangup => rfl
    rw [nothing]
    exact .of_same same

/-- The handles of the opens stay valid. -/
theorem valid_execute {s : System σ η} (valid : s.Valid store.toByteView) (step : Step) :
    (s.execute step).Valid store.toByteView := by
  have kept := (store.follows_execute valid step).kept
  refine System.Opens.execute
    (Q := fun host _ file => ∀ h, file.handle = some h → store.valid host h.inner) step valid
    (fun _ _ _ _ here => here) (fun _ _ _ _ here => here) ?_ ?_ ?_
  · intro share file _ here h live
    exact kept h.inner (here h live)
  · intro conn hdr body plan inner info _ _ _ opened host h live
    obtain rfl := Option.some.inj live
    have same := congrArg Prod.snd (store.observed.stat inner
      (plan.tree.share.backend.open plan.path plan.opts s.env.host).2)
    rw [host]
    show store.valid _ inner
    rw [show store.valid _ = store.valid _ from same]
    exact (store.open_ok _ _ _ _ _ opened).1
  · intro conn hdr body target dst replace executes reaches _ _ h live
    exact kept h.inner (valid _ _ (reaches.uses.hasOpen executes) h live)

/-- What is there after a run. -/
theorem bytes_run {s : System σ η} (valid : s.Valid store.toByteView) (steps : List Step) :
    (runAll System.execute s steps).Valid store.toByteView ∧
      ∀ o, store.bytes (runAll System.execute s steps).env.host o =
        ByteEdit.applyAll (store.bytes s.env.host o)
          (editsOf o (s.changes store.toByteView steps)) := by
  induction steps generalizing s with
  | nil => exact ⟨valid, fun o => rfl⟩
  | cons step rest ih =>
    obtain ⟨still, later⟩ := ih (store.valid_execute valid step)
    refine ⟨still, fun o => ?_⟩
    rw [runAll_cons, later o, System.changes, applyAll_editsOf_append,
      (store.follows_execute valid step).bytes, changed_apply]

end ByteStore

/-! ### Replies -/

section
variable [Host σ η]

/-- How a READ ends. -/
inductive Read.Answered (conn : Connection η) (hdr : Smb2Header) (body : Bytes) (host : σ) :
    HandlerResponse → Prop where
  | refused (resp : HandlerResponse) (status : resp.status ≠ statusSuccess) :
      Answered conn hdr body host resp
  | data (req : ReadRequest) (target : Target η) (h : Boxed η) (bytes : Bytes)
      (parsed : ReadRequest.parse body = some req)
      (found : lookupTarget conn hdr req.fileId = .ok target)
      (live : target.file.handle = some h)
      (answer : (Host.read h.inner req.offset req.length host).1 = .ok bytes) :
      Answered conn hdr body host (.ok (response bytes))

omit [Host σ η] in
/-- What an action that looks at the connection returns from one world. -/
theorem gives_withConn {α : Type} {P : α → Prop} (w : World σ η)
    {f : Connection η → Action (World σ η) α} (rest : ∀ m, m = f w.conn → P (m w).1) :
    P ((getConn >>= f : Action (World σ η) α) w).1 :=
  rest (f w.conn) rfl

theorem Read.handle_answered (hdr : Smb2Header) (body : Bytes) (w : World σ η) :
    Read.Answered w.conn hdr body w.env.host (Read.handle hdr body w).1 := by
  cases parsed : ReadRequest.parse body with
  | none =>
    simp only [Read.handle, parsed]
    exact .refused _ (show statusInvalidParameter ≠ statusSuccess by decide)
  | some req =>
    simp only [Read.handle, parsed]
    refine gives_withConn (P := Read.Answered w.conn hdr body w.env.host) w fun m rest => ?_
    split at rest
    · rw [rest]
      exact .refused _ (show statusInvalidParameter ≠ statusSuccess by decide)
    split at rest
    next status missing =>
      rw [rest]
      exact .refused _ ((lookupTarget_fails _ _ _).status missing)
    next target found =>
    split at rest
    · rw [rest]
      exact .refused _ (show statusFileClosed ≠ statusSuccess by decide)
    next h live =>
    rw [rest]
    simp only [Action.bind_apply, Boxed.read, issue_apply]
    cases answer : (Host.read h.inner req.offset req.length w.env.host).1 with
    | error e => exact .refused _ e.toNtStatus_ne_success
    | ok bytes =>
      by_cases ended : (bytes.isEmpty && decide (req.length > 0)) = true
      · simp only [ended, if_true]
        exact .refused _ (show statusEndOfFile ≠ statusSuccess by decide)
      · simp only [ended]
        exact .data req target h bytes parsed found live answer

/-- How a WRITE ends: it is refused and changes nothing, or the reply counts what it has changed. -/
inductive Write.Answered (view : ByteView σ η ο) (conn : Connection η) (hdr : Smb2Header)
    (body : Bytes) (host : σ) : HandlerResponse → Prop where
  | refused (resp : HandlerResponse) (status : resp.status ≠ statusSuccess)
      (same : Write.change view conn hdr body host = none) :
      Answered view conn hdr body host resp
  | counted (req : WriteRequest) (target : Target η) (h : Boxed η) (o : ο) (count : UInt32)
      (parsed : WriteRequest.parse body = some req)
      (found : lookupTarget conn hdr req.fileId = .ok target)
      (live : target.file.handle = some h) (object : view.object h.inner = some o)
      (made : Write.change view conn hdr body host =
        some (o, .write req.offset.toNat (req.data.take count.toNat))) :
      Answered view conn hdr body host (.ok (WriteResponse.new count).write)

variable [DecidableEq ο] (store : ByteStore σ η ο)

theorem ByteStore.write_answered (server : ServerState) {hdr : Smb2Header} (body : Bytes)
    (w : World σ η) (valid : store.Names w hdr) :
    Write.Answered store.toByteView w.conn hdr body w.env.host
      (Write.handle server hdr body w).1 := by
  cases parsed : WriteRequest.parse body with
  | none =>
    simp only [Write.handle, parsed]
    exact .refused _ (show statusInvalidParameter ≠ statusSuccess by decide)
      (by simp only [Write.change, parsed])
  | some req =>
    cases admitted : Write.validate w.conn hdr req with
    | error status =>
      have recorded := alike_record server.traceSink
        (.write req.fileId.write req.offset req.length) w
      simp only [Write.handle, parsed, Action.bind_apply, getConn_apply, recorded.conn, admitted]
      exact .refused _ ((Write.validate_fails _ _ _).status admitted)
        (by simp only [Write.change, parsed, admitted])
    | ok pair =>
      obtain ⟨target, h⟩ := pair
      obtain ⟨found, -, live⟩ := Write.validate_eq_ok w.conn hdr req target h admitted
      rw [(Write.handle_answer server hdr body w req target h parsed admitted).2]
      cases answer : (Host.writeOwned h.inner req.offset req.data w.env.host).1 with
      | error e =>
        exact .refused _ e.toNtStatus_ne_success
          (by simp only [Write.change, parsed, admitted, answer])
      | ok count =>
        obtain ⟨o, object, -⟩ := store.written _ _ _ _ count
          (valid req.fileId target h found live) (WriteRequest.length_data_lt parsed) answer
        refine .counted req target h o count parsed found live object ?_
        simp only [Write.change, parsed, admitted, answer, object, Option.map_some]

omit [DecidableEq ο] in
/-- A SET_INFO that is refused changes nothing. -/
theorem SetInfo.change_of_refused {view : ByteView σ η ο} (server : ServerState)
    {hdr : Smb2Header} {body : Bytes} (w : World σ η)
    (refused : (SetInfo.handle server hdr body w).1.status ≠ statusSuccess) :
    SetInfo.change view w.conn hdr body w.env.host = none := by
  unfold SetInfo.change
  split
  · rfl
  next req target admitted =>
  split
  next h len decoded =>
    obtain ⟨w₁, alike, performs⟩ := SetInfo.handle_performs server hdr body w admitted decoded
    rw [performs] at refused
    simp only [SetInfo.perform, Action.bind_apply, Boxed.truncate, issue_apply, alike.host]
      at refused
    split
    · rfl
    next done =>
      rw [done] at refused
      exact absurd rfl refused
  · rfl

end

section
variable [Host σ η] [DecidableEq ο] [Crypto]

def ReportsSuccess (reply : Bytes) : Prop := readU32 reply 0x08 = statusSuccess

/-- The reply to a READ has the bytes of what is behind its handle. -/
inductive ReadReturns (view : ByteView σ η ο) (contents : ο → Bytes) (conn : Connection η)
    (hdr : Smb2Header) (body reply : Bytes) : Prop where
  | intro (req : ReadRequest) (target : Target η) (h : Boxed η) (o : ο)
      (parsed : ReadRequest.parse body = some req)
      (found : lookupTarget conn hdr req.fileId = .ok target)
      (live : target.file.handle = some h) (object : view.object h.inner = some o)
      (data : reply.drop smb2HeaderLen =
        Read.response (slice (contents o) req.offset.toNat req.length.toNat))

/-- The reply to a WRITE counts the bytes that it has put behind its handle. -/
inductive WriteCounts (view : ByteView σ η ο) (change : Option (ο × ByteEdit))
    (conn : Connection η) (hdr : Smb2Header) (body reply : Bytes) : Prop where
  | intro (req : WriteRequest) (target : Target η) (h : Boxed η) (o : ο) (count : UInt32)
      (parsed : WriteRequest.parse body = some req)
      (found : lookupTarget conn hdr req.fileId = .ok target)
      (live : target.file.handle = some h) (object : view.object h.inner = some o)
      (counted : reply.drop smb2HeaderLen = (WriteResponse.new count).write)
      (made : change = some (o, .write req.offset.toNat (req.data.take count.toNat)))

/-- What the replies say about the bytes is so. A CREATE that fails can have emptied a file. -/
structure System.Truthful (view : ByteView σ η ο) (contents : ο → Bytes) (s : System σ η)
    (step : Step) : Prop where
  intro ::
  read (conn : Connection η) (hdr : Smb2Header) (body reply : Bytes) :
    s.Executes step conn hdr body → s.reply step = some reply → hdr.command = .read →
      ReportsSuccess reply → ReadReturns view contents conn hdr body reply
  written (conn : Connection η) (hdr : Smb2Header) (body reply : Bytes) :
    s.Executes step conn hdr body → s.reply step = some reply → hdr.command = .write →
      ReportsSuccess reply → WriteCounts view (s.change view step) conn hdr body reply
  refused (conn : Connection η) (hdr : Smb2Header) (body reply : Bytes) :
    s.Executes step conn hdr body → s.reply step = some reply → hdr.command ≠ .create →
      ¬ReportsSuccess reply → s.change view step = none

/-- The reply to a request that is not hashed is what its handler returns. -/
theorem System.Executes.reply {s : System σ η} {step : Step} {conn : Connection η}
    {hdr : Smb2Header} {body reply : Bytes} (executes : s.Executes step conn hdr body)
    (answer : s.reply step = some reply) (noNegotiate : hdr.command ≠ .negotiate)
    (noSetup : hdr.command ≠ .sessionSetup) :
    ∃ w : World σ η, w.conn = conn ∧ w.env.host = s.env.host ∧
      (ReportsSuccess reply ↔
        (dispatchCommand s.server hdr body w).1.status = statusSuccess) ∧
      reply.drop smb2HeaderLen = (dispatchCommand s.server hdr body w).1.body := by
  obtain ⟨cid, e, rfl, live, accepted⟩ := executes
  obtain ⟨w, before, handled, -⟩ := dispatchOne_answer s.server e.bytes e.ordinal ⟨conn, s.env⟩
    hdr body accepted noNegotiate noSetup
  simp only [System.reply, System.onConn, live, handled,
    Option.join_some, Option.some.injEq] at answer
  subst answer
  exact ⟨w, before.conn, before.host, by rw [ReportsSuccess, readU32_status_buildResponseBytes],
    drop_buildResponseBytes _ _ _⟩

variable (store : ByteStore σ η ο)

theorem ByteStore.truthful {s : System σ η} (valid : s.Valid store.toByteView) (step : Step) :
    s.Truthful store.toByteView (store.bytes s.env.host) step := by
  have named {conn : Connection η} {hdr : Smb2Header} {body : Bytes} {w : World σ η}
      (executes : s.Executes step conn hdr body) (same : w.conn = conn)
      (host : w.env.host = s.env.host) : store.Names w hdr := by
    obtain ⟨cid, e, rfl, live, -⟩ := executes
    intro fid target h found here
    rw [same] at found
    rw [host]
    exact valid _ _ (System.hasOpen_of_target live found) h here
  constructor
  · intro conn hdr body reply executes answer cmd success
    obtain ⟨w, rfl, host, status, data⟩ := executes.reply answer (by simp [cmd]) (by simp [cmd])
    simp only [dispatchCommand, cmd] at status data
    have ended := Read.handle_answered hdr body w
    generalize (Read.handle hdr body w).1 = resp at ended status data
    cases ended with
    | refused _ failed => exact absurd (status.mp success) failed
    | data req target h bytes parsed found live read =>
      obtain ⟨o, object, rfl⟩ := store.read _ _ _ _ _
        (named executes rfl host req.fileId target h found live) read
      exact .intro req target h o parsed found live object (by rw [data, ← host]; rfl)
  · intro conn hdr body reply executes answer cmd success
    obtain ⟨w, rfl, host, status, data⟩ := executes.reply answer (by simp [cmd]) (by simp [cmd])
    simp only [dispatchCommand, cmd] at status data
    have ended := store.write_answered s.server body w (named executes rfl host)
    rw [store.change_of_executes executes, ByteView.changeOf, cmd]
    rw [host] at ended
    generalize (Write.handle s.server hdr body w).1 = resp at ended status data
    cases ended with
    | refused _ failed => exact absurd (status.mp success) failed
    | counted req target h o count parsed found live object made =>
      exact .intro req target h o count parsed found live object data made
  · intro conn hdr body reply executes answer noCreate failed
    rw [store.change_of_executes executes]
    by_cases write : hdr.command = .write
    · obtain ⟨w, rfl, host, status, -⟩ :=
        executes.reply answer (by simp [write]) (by simp [write])
      simp only [dispatchCommand, write] at status
      have ended := store.write_answered s.server body w (named executes rfl host)
      rw [host] at ended
      simp only [ByteView.changeOf, write]
      generalize (Write.handle s.server hdr body w).1 = resp at ended status
      cases ended with
      | refused _ _ same => exact same
      | counted => exact absurd (status.mpr rfl) failed
    by_cases setInfo : hdr.command = .setInfo
    · obtain ⟨w, rfl, host, status, -⟩ :=
        executes.reply answer (by simp [setInfo]) (by simp [setInfo])
      simp only [dispatchCommand, setInfo] at status
      rw [status] at failed
      simp only [ByteView.changeOf, setInfo]
      rw [← host]
      exact SetInfo.change_of_refused s.server w failed
    · unfold ByteView.changeOf
      split
      · exact absurd ‹_› noCreate
      · exact absurd ‹_› write
      · exact absurd ‹_› setInfo
      · rfl

/-- The replies of a run tell what the changes before them have left. -/
theorem ByteStore.truthful_run (server : ServerState) (host : σ) (before : List Step)
    (step : Step) :
    (runAll System.execute (System.start server host) before).Truthful store.toByteView
      (fun o => ByteEdit.latest (store.bytes host o)
        (editsOf o ((System.start server host).changes store.toByteView before))) step := by
  have none : (System.start server host : System σ η).Valid store.toByteView := by
    rintro share file ⟨cid, conn, sid, tid, tree, fid, live, -⟩
    cases live
  obtain ⟨valid, bytes⟩ := store.bytes_run none before
  have same : store.bytes (runAll System.execute (System.start server host) before).env.host =
      fun o => ByteEdit.latest (store.bytes host o)
        (editsOf o ((System.start server host).changes store.toByteView before)) := by
    funext o
    rw [bytes o, ByteEdit.applyAll_eq_latest]
    rfl
  rw [← same]
  exact store.truthful valid step

end

end SmbServer
