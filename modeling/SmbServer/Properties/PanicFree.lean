import SmbServer.Lib.Ledger
import SmbServer.Panics.Files
import SmbServer.Panics.Frames
import SmbServer.Properties.SigningKey

/-!
# SmbServer.Properties.PanicFree

The dispatcher with its panics (`dispatch.rs`), and that no frame makes it panic.

## Main result

`dispatchFrame_never_panics`: whatever the frame, the server and the state of the connection, every
index, range, copy and `expect` on the way of a frame is good, and the answer is that of the model.

## Proof strategy

Every function on the way is the model's function behind its panics. Bounds are those that the source
has just checked, but for three: a response is as long as a header, the snapshot of a 3.1.1 logon has
been hashed because the dialect does not change in between, and QUERY_DIRECTORY leaves a cursor where it
looks for one.
-/

namespace SmbServer.Panicking

open Lib Risky RiskyAction

variable {σ η : Type} [Host σ η] [Crypto]

/-! ### One element -/

def updatePreauth (bytes : Bytes) : RiskyAction (World σ η) Unit := do
  let conn ← total getConn
  let preauth ← raise (PreauthIntegrity.update conn.preauth bytes)
  total (modifyConn fun conn => { conn with preauth := preauth })

def preauthBefore (hdr : Smb2Header) (frame : Bytes) :
    RiskyAction (World σ η) (Option PreauthIntegrity) := do
  let conn ← total getConn
  if hdr.command = .negotiate then
    updatePreauth frame
    return none
  else if hdr.command = .sessionSetup ∧ conn.dialect = some .smb311 then
    let p ← total (takeSessionPreauth hdr.sessionId)
    return some (← raise (PreauthIntegrity.update p frame))
  else return none

/-- The signing key of a session that has its snapshot. -/
def stashSnapshot (snap : PreauthIntegrity) (conn : Connection η) (sess : Session η) :
    Risky (Session η) :=
  let sess := { sess with preauthSnapshot := some snap }
  if conn.dialect = some .smb311 then do
    return { sess with signingKey := ← signingKey311 sess.sessionBaseKey snap }
  else return sess

/-- The snapshot that a completed logon asked for. -/
def takeSnapshot (resp : HandlerResponse) (sessionPreauth : Option PreauthIntegrity) :
    RiskyAction (World σ η) Unit :=
  match resp.takePreauthSnapshotForSession with
  | none => return
  | some sid => do
    let snap ← raise (unwrap sessionPreauth)
    let conn ← total getConn
    match conn.sessions.lookup sid with
    | none => return
    | some sess =>
      let sess ← raise (stashSnapshot snap conn sess)
      total (modifyConn fun conn => conn.modifySession sid fun _ => sess)

def preauthAfter (hdr : Smb2Header) (dialect : Option Dialect)
    (sessionPreauth : Option PreauthIntegrity) (bytes : Bytes) : RiskyAction (World σ η) Unit :=
  if hdr.command = .negotiate then updatePreauth bytes
  else if hdr.command = .sessionSetup ∧ dialect = some .smb311 then do
    if (← raise (readU32 bytes 0x08)) = statusMoreProcessingRequired then
      match sessionPreauth with
      | none => return
      | some p =>
        let p ← raise (PreauthIntegrity.update p bytes)
        let sid ← raise (readU64 bytes 0x28)
        total (modifyConn fun conn =>
          { conn with sessionPreauth := conn.sessionPreauth.insert sid p })
    else total (modifyConn fun conn =>
      { conn with sessionPreauth := conn.sessionPreauth.erase hdr.sessionId })
  else return

def runHandler (server : ServerState) (hdr : Smb2Header) (frame body : Bytes) :
    RiskyAction (World σ η) Bytes := do
  let conn ← total getConn
  let dialect := conn.dialect
  let sessionPreauth ← preauthBefore hdr frame
  let resp ← dispatchCommand server hdr body
  takeSnapshot resp sessionPreauth
  let conn ← total getConn
  let bytes ← raise (buildResponseBytes conn hdr resp)
  let status ← raise (readU32 bytes 0x08)
  total (record server.traceSink (.response status))
  preauthAfter hdr dialect sessionPreauth bytes
  return bytes

/-- `dispatch_one` -/
def dispatchOne (server : ServerState) (frame : Bytes) (ordinal : UInt32) :
    RiskyAction (World σ η) (Option Bytes) := do
  match ← raise (Smb2Header.parse frame).run with
  | none => return none
  | some (hdr, body) =>
    total (bindTraceKey server hdr ordinal)
    total (record server.traceSink (.request hdr.command hdr.sessionId (hdr.treeId.getD 0)))
    let conn ← total getConn
    match ← raise (verifyRequestSignature conn hdr frame) with
    | .error status =>
      let bytes ← raise (buildResponseBytes conn hdr (.err status))
      total (record server.traceSink (.response status))
      return some bytes
    | .ok () =>
      if hdr.command = .cancel then return none
      else return some (← runHandler server hdr frame body)

omit [Host σ η] in
theorem updatePreauth_eq (bytes : Bytes) :
    updatePreauth bytes = total (SmbServer.updatePreauth bytes : Action (World σ η) _) := by
  funext w
  rw [updatePreauth, total_bind_apply, getConn_apply, PreauthIntegrity.update_eq, raise_ok_bind]
  rfl

omit [Host σ η] in
theorem preauthBefore_eq (hdr : Smb2Header) (frame : Bytes) :
    preauthBefore hdr frame =
      total (SmbServer.preauthBefore hdr frame : Action (World σ η) _) := by
  refine total_bind fun conn => ?_
  rw [updatePreauth_eq]
  split
  · exact total_bind fun _ => rfl
  split
  · refine total_bind fun p => ?_
    rw [PreauthIntegrity.update_eq]
    rfl
  · rfl

omit [Host σ η] in
/-- The snapshot is taken when there is one. -/
theorem takeSnapshot_eq (resp : HandlerResponse) (sessionPreauth : Option PreauthIntegrity)
    (hashed : resp.takePreauthSnapshotForSession.isSome → sessionPreauth.isSome) :
    takeSnapshot resp sessionPreauth =
      total (SmbServer.takeSnapshot resp sessionPreauth : Action (World σ η) _) := by
  rw [takeSnapshot, SmbServer.takeSnapshot]
  cases asked : resp.takePreauthSnapshotForSession with
  | none => rfl
  | some sid =>
    rw [asked] at hashed
    obtain ⟨snap, stored⟩ := Option.isSome_iff_exists.mp (hashed rfl)
    have stashed (conn : Connection η) (sess : Session η) : stashSnapshot snap conn sess =
        .ok (SmbServer.stashSnapshot snap conn sess) := by
      rw [stashSnapshot, SmbServer.stashSnapshot, signingKey311_eq]
      dsimp only
      split <;> rfl
    funext w
    rw [stored]
    dsimp only [unwrap]
    rw [raise_ok_bind, total_bind_apply, getConn_apply]
    dsimp only
    cases found : w.conn.sessions.lookup sid with
    | none =>
      have same : w.conn.modifySession sid (SmbServer.stashSnapshot snap w.conn) = w.conn := by
        rw [Connection.modifySession, Table.modify_of_none _ _ _ found]
      rw [total_apply, modifyConn_apply, same]
      rfl
    | some sess =>
      -- putting the session back first makes no difference
      have same : w.conn.sessions.modify sid (fun _ => SmbServer.stashSnapshot snap w.conn sess) =
          w.conn.sessions.modify sid (SmbServer.stashSnapshot snap w.conn) := by
        have twice := Table.modify_modify w.conn.sessions sid (fun _ => sess)
          (SmbServer.stashSnapshot snap w.conn)
        rw [Table.modify_const_self _ _ _ found] at twice
        exact twice.symm
      dsimp only
      rw [stashed, raise_ok_bind, total_apply, modifyConn_apply, total_apply, modifyConn_apply,
        Connection.modifySession, Connection.modifySession, same]

omit [Host σ η] in
theorem preauthAfter_eq (hdr : Smb2Header) (dialect : Option Dialect)
    (sessionPreauth : Option PreauthIntegrity) {bytes : Bytes}
    (long : smb2HeaderLen ≤ bytes.length) :
    preauthAfter hdr dialect sessionPreauth bytes =
      total (SmbServer.preauthAfter hdr dialect sessionPreauth bytes :
        Action (World σ η) _) := by
  rw [smb2HeaderLen] at long
  rw [preauthAfter.eq_def, SmbServer.preauthAfter.eq_def, updatePreauth_eq, readU32_eq (by omega),
    readU64_eq (by omega), raise_ok_bind]
  split
  · rfl
  split
  · split
    · cases sessionPreauth with
      | none => rfl
      | some p =>
        dsimp only
        rw [PreauthIntegrity.update_eq]
        rfl
    · rfl
  · rfl

/-- A snapshot is asked for by a logon over 3.1.1 only, and then the request has been hashed. -/
theorem hashed_of_asked (server : ServerState) (hdr : Smb2Header) (frame body : Bytes)
    (w : World σ η)
    (asked : (SmbServer.dispatchCommand server hdr body
      (SmbServer.preauthBefore hdr frame w).2).1.takePreauthSnapshotForSession.isSome) :
    (SmbServer.preauthBefore hdr frame w).1.isSome := by
  by_cases setup : hdr.command = .sessionSetup
  · obtain ⟨-, dialect, hashed⟩ := preauthBefore_setup hdr frame w setup
    have outcome := SessionSetup.handle_outcome server hdr body
      (SmbServer.preauthBefore hdr frame w).2
    rw [SmbServer.dispatchCommand, setup] at asked
    dsimp only at asked
    cases outcome with
    | unchanged snapshot =>
      rw [snapshot] at asked
      cases asked
    | logon sid outcome d before after snapshot =>
      rw [snapshot] at asked
      apply hashed
      rw [← dialect, before]
      split at asked
      next latest => rw [latest]
      next => cases asked
  · have none_ : (SmbServer.dispatchCommand server hdr body
        (SmbServer.preauthBefore hdr frame w).2).1.takePreauthSnapshotForSession = none := by
      by_cases negotiate : hdr.command = .negotiate
      · rw [SmbServer.dispatchCommand, negotiate]
        exact Negotiate.handle_noSnapshot server body _
      · exact (dispatchCommand_plain server hdr body negotiate setup _).2.2
    rw [none_] at asked
    cases asked

theorem runHandler_eq (server : ServerState) (hdr : Smb2Header) (frame body : Bytes) :
    runHandler server hdr frame body =
      total (SmbServer.runHandler server hdr frame body : Action (World σ η) _) := by
  funext w
  have hashed := hashed_of_asked server hdr frame body w
  have long (conn : Connection η) (resp : HandlerResponse) :
      smb2HeaderLen ≤ (SmbServer.buildResponseBytes conn hdr resp).length := by
    rw [length_buildResponseBytes]
    exact Nat.le_add_right _ _
  have status (conn : Connection η) (resp : HandlerResponse) :
      readU32 (SmbServer.buildResponseBytes conn hdr resp) 0x08 =
        .ok (Lib.readU32 (SmbServer.buildResponseBytes conn hdr resp) 0x08) := by
    refine readU32_eq (Nat.le_trans ?_ (long conn resp))
    rw [smb2HeaderLen]
    omega
  rw [runHandler, preauthBefore_eq, total_bind_apply, total_bind_apply, dispatchCommand_eq,
    total_bind_apply, getConn_apply]
  dsimp only
  rw [takeSnapshot_eq _ _ hashed, total_bind_apply, total_bind_apply, buildResponseBytes_eq,
    raise_ok_bind, status, raise_ok_bind, preauthAfter_eq _ _ _ (long _ _)]
  rfl

theorem dispatchOne_eq (server : ServerState) (frame : Bytes) (ordinal : UInt32) :
    dispatchOne server frame ordinal =
      total (SmbServer.dispatchOne server frame ordinal : Action (World σ η) _) := by
  rw [dispatchOne, SmbServer.dispatchOne, Smb2Header.parse_eq, RiskyParser.run_ofOption,
    raise_ok_bind]
  cases SmbServer.Smb2Header.parse frame with
  | none => rfl
  | some parts =>
    obtain ⟨hdr, body⟩ := parts
    refine total_bind fun _ => total_bind fun _ => total_bind fun conn => ?_
    rw [verifyRequestSignature_eq, raise_ok_bind]
    cases SmbServer.verifyRequestSignature conn hdr frame with
    | error status =>
      dsimp only
      rw [buildResponseBytes_eq]
      rfl
    | ok done =>
      dsimp only
      split
      · rfl
      · rw [runHandler_eq]
        rfl

/-! ### One frame -/

/-- The loop of `dispatch_frame` from `sub_offset` on. -/
def dispatchElements (fuel : Nat) (server : ServerState) (frame : Bytes) (subOffset : Nat)
    (ctx : RelatedContext) (ordinal : UInt32) :
    RiskyAction (World σ η) (Option (List Bytes)) :=
  match fuel with
  | 0 => return none
  | fuel + 1 => do
    let available ← raise (rangeFrom frame subOffset)
    match ← raise (splitElement available).run with
    | none => return none
    | some (hdr, sub, next) =>
      let (sub, hdr) ← raise (effectiveElement ctx hdr sub)
      let response ← dispatchOne server sub ordinal
      let ctx ← raise (nextContext ctx hdr response)
      if next = 0 ∨ frame.length ≤ subOffset + next then return some response.toList
      else
        let rest ← dispatchElements fuel server frame (subOffset + next) ctx
          (if ordinal = maxU32 then maxU32 else ordinal + 1)
        return rest.map (response.toList ++ ·)

def handleSmb1MultiProtocol (server : ServerState) (chosen : UInt16) :
    RiskyAction (World σ η) Bytes := do
  let resp ← total (Negotiate.multiProtocolResponse server chosen)
  let conn ← total getConn
  raise (buildResponseBytes conn smb1RequestHeader resp)

/-- `dispatch_frame` -/
def dispatchFrame (server : ServerState) (frame : Bytes) :
    RiskyAction (World σ η) (Option Bytes) := do
  match ← raise (smb1Choice frame) with
  | some chosen => return some (← handleSmb1MultiProtocol server chosen)
  | none =>
    match ← dispatchElements (frame.length + 1) server frame 0 initialContext 0 with
    | none => return none
    | some [] => return none
    | some responses =>
      let conn ← total getConn
      return some (← raise (stitchResponses conn responses))

theorem dispatchElements_eq (fuel : Nat) (server : ServerState) (frame : Bytes) (subOffset : Nat)
    (inside : subOffset ≤ frame.length) (ctx : RelatedContext) (ordinal : UInt32) :
    dispatchElements fuel server frame subOffset ctx ordinal =
      total (SmbServer.dispatchElements fuel server (frame.drop subOffset) ctx ordinal :
        Action (World σ η) _) := by
  induction fuel generalizing subOffset ctx ordinal with
  | zero => rfl
  | succ fuel ih =>
    rw [dispatchElements, SmbServer.dispatchElements, rangeFrom_of_le inside, raise_ok_bind,
      splitElement_eq, RiskyParser.run_ofOption, raise_ok_bind]
    cases found : SmbServer.splitElement (frame.drop subOffset) with
    | none => rfl
    | some element =>
      obtain ⟨hdr, sub, next⟩ := element
      have long : smb2HeaderLen ≤ sub.length := by
        obtain ⟨body, parsed⟩ := parse_of_splitElement found
        apply Nat.not_lt.mp
        intro short
        rw [SmbServer.Smb2Header.parse, if_pos short] at parsed
        cases parsed
      dsimp only
      rw [effectiveElement_eq ctx long, raise_ok_bind]
      generalize SmbServer.effectiveElement ctx hdr sub = effective
      obtain ⟨sub', hdr'⟩ := effective
      dsimp only
      rw [dispatchOne_eq]
      refine total_bind fun response => ?_
      rw [nextContext_eq, raise_ok_bind]
      have here : frame.length ≤ subOffset + next ↔ (frame.drop subOffset).length ≤ next := by
        rw [List.length_drop]
        omega
      by_cases last : next = 0 ∨ frame.length ≤ subOffset + next
      · rw [if_pos last, if_pos (last.imp_right here.mp)]
        rfl
      · have more : ¬ (next = 0 ∨ (frame.drop subOffset).length ≤ next) :=
          fun ended => last (ended.imp_right here.mpr)
        rw [if_neg last, if_neg more, ih _ (Nat.le_of_not_le (not_or.mp last).2), List.drop_drop]
        rfl

/-- Every answer begins with a header. -/
theorem dispatchElements_long (fuel : Nat) (server : ServerState) (available : Bytes)
    (ctx : RelatedContext) (ordinal : UInt32) (w : World σ η) (responses : List Bytes)
    (answered : (SmbServer.dispatchElements fuel server available ctx ordinal w).1 =
      some responses) :
    ∀ r ∈ responses, smb2HeaderLen ≤ r.length := by
  have reply (sub : Bytes) (ordinal : UInt32) (w : World σ η) :
      ∀ r ∈ (SmbServer.dispatchOne server sub ordinal w).1.toList, smb2HeaderLen ≤ r.length := by
    intro r member
    obtain ⟨conn, hdr, resp, -, rfl, -⟩ :=
      dispatchOne_built server sub ordinal w r (Option.mem_toList.mp member)
    rw [length_buildResponseBytes]
    exact Nat.le_add_right _ _
  induction fuel generalizing available ctx ordinal w responses with
  | zero => cases answered
  | succ fuel ih =>
    rw [SmbServer.dispatchElements] at answered
    cases found : SmbServer.splitElement available with
    | none =>
      rw [found] at answered
      cases answered
    | some element =>
      obtain ⟨hdr, sub, next⟩ := element
      simp only [found, Action.bind_apply] at answered
      split at answered
      · obtain rfl := Option.some.inj answered
        exact reply _ _ _
      · simp only [Action.bind_apply, Action.pure_apply, Option.map_eq_some_iff] at answered
        obtain ⟨rest, later, rfl⟩ := answered
        intro r member
        rcases List.mem_append.mp member with here | behind
        · exact reply _ _ _ r here
        · exact ih _ _ _ _ rest later r behind

theorem handleSmb1MultiProtocol_eq (server : ServerState) (chosen : UInt16) :
    handleSmb1MultiProtocol server chosen =
      total (SmbServer.handleSmb1MultiProtocol server chosen : Action (World σ η) _) := by
  refine total_bind fun resp => total_bind fun conn => ?_
  rw [buildResponseBytes_eq]
  rfl

theorem dispatchFrame_eq (server : ServerState) (frame : Bytes) :
    dispatchFrame server frame =
      total (SmbServer.dispatchFrame server frame : Action (World σ η) _) := by
  rw [dispatchFrame, SmbServer.dispatchFrame, smb1Choice_eq, raise_ok_bind]
  cases SmbServer.smb1Choice frame with
  | some chosen =>
    dsimp only
    rw [handleSmb1MultiProtocol_eq]
    rfl
  | none =>
    have elements := dispatchElements_eq (σ := σ) (η := η) (frame.length + 1) server frame 0
      (Nat.zero_le _) initialContext 0
    rw [List.drop_zero] at elements
    dsimp only
    rw [elements]
    funext w
    have long := dispatchElements_long (frame.length + 1) server frame initialContext 0 w
    rw [total_bind_apply, total_apply, Action.bind_apply]
    cases answered : (SmbServer.dispatchElements (frame.length + 1) server frame initialContext 0
        w).1 with
    | none => rfl
    | some responses =>
      cases responses with
      | nil => rfl
      | cons first rest =>
        dsimp only
        rw [total_bind_apply, getConn_apply]
        dsimp only
        rw [stitchResponses_eq _ _ (long _ answered)]
        rfl

/-- No frame panics: whatever the server, the connection and the environment, the code ends with the
answer of the model and in its state. The lengths it encodes on the way do not panic either. -/
theorem dispatchFrame_never_panics (server : ServerState) (frame : Bytes) (w : World σ η) :
    dispatchFrame server frame w =
        (.ok (SmbServer.dispatchFrame server frame w).1, (SmbServer.dispatchFrame server frame w).2) ∧
      ∀ n : UInt64, derLen n = .ok (SmbServer.derLen n.toNat) :=
  ⟨congrFun (dispatchFrame_eq server frame) w, derLen_eq⟩

end SmbServer.Panicking
