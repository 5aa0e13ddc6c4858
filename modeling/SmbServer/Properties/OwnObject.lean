import SmbServer.Properties.LocalRequests
import SmbServer.Client

/-!
# SmbServer.Properties.OwnObject

What a CLOSE deletes on a share that is a directory of the host, when the open is marked for it.

An open remembers a path. Its own renames update it, and nothing else does: not the rename through
another open, not that of a directory above, not a new file at the path.

Main result:

  Over every run, a CLOSE takes away at most what its open is of, as long as no request puts
  something else where an open remembers its own, and none closes an open of a stream while
  something that can be removed sits at the path of its file.

Proof strategy: what sits at the path of an open, if anything, is what the open is of. The requests
that change the trees are followed one by one (`Touches`): a CREATE adds the entry it is about, a
rename brings what sat below its source below its target, the others add nothing.
-/

namespace SmbServer

open Lib

/-- Both kinds at once are refused before the backend is asked. -/
theorem Create.openOptions_kind {granted : Access} {path : SmbPath} {req : CreateRequest}
    {opts : OpenOptions} (admitted : openOptions granted path req = .ok opts) :
    ¬(opts.directory = true ∧ opts.nonDirectory = true) := by
  rw [openOptions] at admitted
  split at admitted
  · cases admitted
  dsimp only at admitted
  split at admitted
  · cases admitted
  split at admitted
  · cases admitted
  split at admitted
  · cases admitted
  next kinds =>
  split at admitted
  · cases admitted
  split at admitted
  · cases admitted
  cases admitted
  rw [← Bool.and_eq_true]
  exact kinds

section

variable {backends : Nat → LocalFsBackend} [Crypto]

/-- A CLOSE that deletes takes away at most what its open is of. -/
def System.RemovesOwn (s : System (LocalHost backends) (Nat × LocalHandle)) (step : Step) : Prop :=
  ∀ conn hdr body req target, s.Executes step conn hdr body → hdr.command = .close →
    Close.validate conn hdr body = .ok (req, target) → target.file.deleteOnClose = true →
    ∀ n q x, s.env.host.node n q = some x → (s.execute step).env.host.node n q = none →
      target.file.object = some (n, x)

/-- The step leads to where an open remembers what is not its own. -/
inductive System.Disturbs (s : System (LocalHost backends) (Nat × LocalHandle)) (step : Step) :
    Prop where
  /-- A CREATE makes an entry at the path that an open remembers. -/
  | created (conn : Connection (Nat × LocalHandle)) (hdr : Smb2Header) (body : Bytes)
      (plan : Create.Plan (Nat × LocalHandle)) (n : Nat) (inner : Nat × LocalHandle)
      (share : ShareBindings) (file : Open (Nat × LocalHandle))
      (executes : s.Executes step conn hdr body) (cmd : hdr.command = .create)
      (admitted : Create.validate conn hdr body = .ok plan)
      (backend : plan.tree.share.backend = .custom n) (plain : plan.path.stream = none)
      (missing : s.env.host.node n plan.path.components = none)
      (opened : (Host.open n plan.path plan.opts s.env.host).1 = .ok inner)
      (live : s.HasOpen share file) (same : share.backend = .custom n)
      (remembers : file.lastPath = plan.path)
  /-- A rename brings something to the path of an open that is not of it. -/
  | renamed (conn : Connection (Nat × LocalHandle)) (hdr : Smb2Header) (body : Bytes)
      (target : Target (Nat × LocalHandle)) (dst : SmbPath) (replace : Bool) (n : Nat)
      (share : ShareBindings) (file : Open (Nat × LocalHandle)) (rest : List Text) (x : Node Nat)
      (executes : s.Executes step conn hdr body)
      (reaches : SetInfo.Reaches conn hdr body target (.rename dst replace))
      (backend : target.tree.share.backend = .custom n)
      (done : (Host.rename n target.file.lastPath dst replace s.env.host).1 = .ok ())
      (live : s.HasOpen share file) (same : share.backend = .custom n)
      (remembers : file.lastPath = ⟨dst.components ++ rest, none⟩)
      (brings : s.env.host.node n (target.file.lastPath.components ++ rest) = some x)
      (other : file.object ≠ some (n, x))
  /-- A rename through an open of a stream takes the file of the stream to a path without one. -/
  | dropped (conn : Connection (Nat × LocalHandle)) (hdr : Smb2Header) (body : Bytes)
      (target : Target (Nat × LocalHandle)) (dst : SmbPath) (replace : Bool) (n : Nat)
      (x : Node Nat) (executes : s.Executes step conn hdr body)
      (reaches : SetInfo.Reaches conn hdr body target (.rename dst replace))
      (backend : target.tree.share.backend = .custom n)
      (done : (Host.rename n target.file.lastPath dst replace s.env.host).1 = .ok ())
      (selected : target.file.lastPath.stream ≠ none) (plain : dst.stream = none)
      (there : s.env.host.node n target.file.lastPath.components = some x)
      (other : target.file.object ≠ some (n, x))
  /-- A CLOSE deletes through an open of a stream, where something else can be removed. -/
  | closed (conn : Connection (Nat × LocalHandle)) (hdr : Smb2Header) (body : Bytes)
      (req : CloseRequest) (target : Target (Nat × LocalHandle)) (n : Nat) (x : Node Nat)
      (executes : s.Executes step conn hdr body) (cmd : hdr.command = .close)
      (admitted : Close.validate conn hdr body = .ok (req, target))
      (marked : target.file.deleteOnClose = true)
      (backend : target.tree.share.backend = .custom n) (writable : (backends n).readOnly = false)
      (selected : target.file.lastPath.stream ≠ none)
      (there : s.env.host.node n target.file.lastPath.components = some x)
      (leaf : ∀ q, target.file.lastPath.components <+: q → q ≠ target.file.lastPath.components →
        s.env.host.node n q = none)
      (other : target.file.object ≠ some (n, x))

theorem System.Disturbs.executes {s : System (LocalHost backends) (Nat × LocalHandle)}
    {step : Step} (h : s.Disturbs step) : ∃ conn hdr body, s.Executes step conn hdr body := by
  cases h with
  | created _ _ _ _ _ _ _ _ executes => exact ⟨_, _, _, executes⟩
  | renamed _ _ _ _ _ _ _ _ _ _ _ executes => exact ⟨_, _, _, executes⟩
  | dropped _ _ _ _ _ _ _ _ executes => exact ⟨_, _, _, executes⟩
  | closed _ _ _ _ _ _ _ executes => exact ⟨_, _, _, executes⟩

/-! ### The invariant -/

omit [Crypto] in
/-- What sits at the path of an open, if anything, is what the open is of. -/
def Settled (host : LocalHost backends) (share : ShareBindings)
    (file : Open (Nat × LocalHandle)) : Prop :=
  ∀ n, share.backend = .custom n → file.lastPath.stream = none →
    Outside file.lastPath.components ∧
      ∀ x, host.node n file.lastPath.components = some x → file.object = some (n, x)

section
variable {s : System (LocalHost backends) (Nat × LocalHandle)} {step : Step}

/-- The opens there are stay settled. -/
theorem Settled.kept {share : ShareBindings} {file : Open (Nat × LocalHandle)}
    (settled : Settled s.env.host share file) (undisturbed : ¬s.Disturbs step)
    (live : s.HasOpen share file) : Settled (s.execute step).env.host share file := by
  intro n backend plain
  obtain ⟨outside, own⟩ := settled n backend plain
  refine ⟨outside, fun x there => ?_⟩
  rcases s.execute_files step with same | ⟨conn, hdr, body, executes⟩
  · rw [LocalHost.node, same] at there
    exact own x there
  have touches := executes.touches n
  rw [LocalHost.node] at there
  generalize (s.execute step).env.host.files n = fs at touches there
  cases touches with
  | nothing | written => exact own x there
  | opened plan cmd admitted backend' =>
    obtain ⟨-, decided⟩ := Create.validate_eq_ok conn hdr body plan admitted
    have one := Create.openOptions_kind decided
    have root := s.env.host.root_files n
    have grows := LocalFsBackend.open_grows (backends n) plan.path plan.opts (s.env.host.files n)
    rcases grows.added _ x there with old | ⟨place, new⟩
    · exact own x old
    by_contra other
    rw [LocalFsBackend.Places] at place
    split at place
    -- a new entry at the path, so that the open has succeeded and nothing was there before
    next primary =>
      cases answer : (((backends n).open plan.path plan.opts).runOn (s.env.host.files n)).1 with
      | error e =>
        rw [LocalFsBackend.open_failed (backends n) root primary one answer] at there
        exact other (own x there)
      | ok h =>
        refine undisturbed (.created conn hdr body plan n (n, h) share file executes cmd admitted
          backend' primary ?_ ?_ live backend ?_)
        · cases before : s.env.host.node n plan.path.components with
          | none => rfl
          | some y =>
            rw [place] at there
            obtain rfl := Option.some.inj ((grows.kept _ y before).symm.trans there)
            exact absurd ((s.env.host.sound_files n).known _ y before) new
        · rw [LocalHost.open_answer, answer]
          rfl
        · show (⟨file.lastPath.components, file.lastPath.stream⟩ : SmbPath) = ⟨_, _⟩
          rw [place, plain, primary]
    next => exact place outside
  | renamed target dst replace reaches backend' =>
    have leaves := LocalFsBackend.rename_leaves (backends n) target.file.lastPath dst replace
      (s.env.host.files n)
    have answer := s.env.host.rename_answer n target.file.lastPath dst replace
    generalize LocalProg.runOn _ _ = out at leaves answer there
    cases leaves with
    | failed | same => exact own x there
    | moved outside' outside'' movable =>
      rw [Fs.node_move movable] at there
      split at there
      -- what was brought to the path
      next below =>
        obtain ⟨rest, path⟩ := below
        rw [← path, List.drop_left] at there
        by_contra other
        refine undisturbed (.renamed conn hdr body target dst replace n share file rest x executes
          reaches backend' answer live backend ?_ there other)
        show (⟨file.lastPath.components, file.lastPath.stream⟩ : SmbPath) = ⟨_, _⟩
        rw [path, plain]
      next =>
        split at there
        · cases there
        · exact own x there
  | unlinked req target cmd admitted marked backend' =>
    have leaves := LocalFsBackend.unlink_leaves (backends n) target.file.lastPath
      (s.env.host.files n)
    generalize LocalProg.runOn _ _ = out at leaves there
    cases leaves with
    | failed => exact own x there
    | removed outside' proper here =>
      rw [Fs.node_removeEntry proper here] at there
      split at there
      · cases there
      · exact own x there

/-- A new open is settled. -/
theorem settled_created {conn : Connection (Nat × LocalHandle)} {hdr : Smb2Header} {body : Bytes}
    {plan : Create.Plan (Nat × LocalHandle)} {inner : Nat × LocalHandle} {info : FileInfo}
    (admitted : Create.validate conn hdr body = .ok plan)
    (opened : (plan.tree.share.backend.open plan.path plan.opts s.env.host).1 = .ok inner)
    (host : (s.execute step).env.host = (Host.stat inner
      (plan.tree.share.backend.open plan.path plan.opts s.env.host).2).2) :
    Settled (s.execute step).env.host plan.tree.share (plan.file ⟨s.env.nextHandle, inner⟩ info) := by
  intro n backend plain
  obtain ⟨-, decided⟩ := Create.validate_eq_ok conn hdr body plan admitted
  rw [backend, BackendRef.open] at opened host
  have files : (s.execute step).env.host.files n =
      (((backends n).open plan.path plan.opts).runOn (s.env.host.files n)).2 := by
    rw [host, LocalHost.observed.stat, LocalHost.files_open, Function.update_self]
  rw [LocalHost.open_answer] at opened
  cases answer : (((backends n).open plan.path plan.opts).runOn (s.env.host.files n)).1 with
  | error e =>
    rw [answer] at opened
    cases opened
  | ok h =>
    rw [answer] at opened
    obtain rfl := Except.ok.inj opened
    obtain ⟨outside, there⟩ := LocalFsBackend.node_opened (backends n) (s.env.host.root_files n)
      plain (Create.openOptions_kind decided) answer
    refine ⟨outside, fun x here => ?_⟩
    rw [LocalHost.node, files] at here
    obtain rfl := Option.some.inj (there.symm.trans here)
    rfl

/-- So is an open that is renamed. -/
theorem settled_renamed {conn : Connection (Nat × LocalHandle)} {hdr : Smb2Header} {body : Bytes}
    {target : Target (Nat × LocalHandle)} {dst : SmbPath} {replace : Bool}
    (settled : s.Opens (Settled s.env.host)) (undisturbed : ¬s.Disturbs step)
    (executes : s.Executes step conn hdr body)
    (reaches : SetInfo.Reaches conn hdr body target (.rename dst replace))
    (done : (target.tree.share.backend.rename target.file.lastPath dst replace
      s.env.host).1 = .ok ())
    (host : (s.execute step).env.host =
      (target.tree.share.backend.rename target.file.lastPath dst replace s.env.host).2) :
    Settled (s.execute step).env.host target.tree.share { target.file with lastPath := dst } := by
  intro n backend plain
  rw [backend, BackendRef.rename] at done host
  -- what sat at the source is what the open is of
  have own : ∀ x, s.env.host.node n target.file.lastPath.components = some x →
      target.file.object = some (n, x) := by
    intro x there
    by_contra other
    by_cases selected : target.file.lastPath.stream = none
    · have live := (SetInfo.Reaches.uses reaches).hasOpen executes
      exact other ((settled _ _ live n backend selected).2 x there)
    · exact undisturbed (.dropped conn hdr body target dst replace n x executes reaches backend done
        selected plain there other)
  have files : (s.execute step).env.host.files n =
      (((backends n).rename target.file.lastPath dst replace).runOn (s.env.host.files n)).2 := by
    rw [host, LocalHost.files_rename, Function.update_self]
  rw [LocalHost.rename_answer] at done
  have leaves := LocalFsBackend.rename_leaves (backends n) target.file.lastPath dst replace
    (s.env.host.files n)
  generalize LocalProg.runOn _ _ = out at leaves done files
  cases leaves with
  | failed => cases done
  | same outside same =>
    refine ⟨same ▸ outside, fun x there => own x ?_⟩
    rw [LocalHost.node, files] at there
    rw [same]
    exact there
  | moved outside outside' movable =>
    refine ⟨outside', fun x there => own x ?_⟩
    rw [LocalHost.node, files, Fs.node_move movable, if_pos (List.prefix_refl _),
      List.drop_length, List.append_nil] at there
    exact there

/-- While no request disturbs them, the opens stay settled. -/
theorem settled_execute (settled : s.Opens (Settled s.env.host)) (undisturbed : ¬s.Disturbs step) :
    (s.execute step).Opens (Settled (s.execute step).env.host) := by
  refine System.Opens.execute step settled ?_ ?_ ?_ ?_ ?_
  · exact fun _ _ _ _ good => good
  · exact fun _ _ _ _ good => good
  · exact fun share file live good => good.kept undisturbed live
  · exact fun conn hdr body plan inner info _ _ admitted opened host =>
      settled_created admitted opened host
  · exact fun conn hdr body target dst replace executes reaches done host =>
      settled_renamed settled undisturbed executes reaches done host

/-- A CLOSE among settled opens. -/
theorem removesOwn_of_settled (settled : s.Opens (Settled s.env.host))
    (undisturbed : ¬s.Disturbs step) : s.RemovesOwn step := by
  intro conn hdr body req target executes cmd admitted marked n q x there gone
  have touches := executes.touches n
  rw [LocalHost.node] at gone
  generalize (s.execute step).env.host.files n = fs at touches gone
  have kept : s.env.host.node n q = none → target.file.object = some (n, x) := by
    intro missing
    rw [missing] at there
    cases there
  cases touches with
  | nothing | written => exact kept gone
  | opened plan cmd' =>
    exact absurd (cmd.symm.trans cmd') (by decide)
  | renamed target dst replace reaches =>
    exact absurd (cmd.symm.trans reaches.1) (by decide)
  | unlinked req' target' cmd' admitted' marked' backend =>
    obtain ⟨rfl, rfl⟩ := Prod.mk.inj (Except.ok.inj (admitted'.symm.trans admitted))
    obtain ⟨parsed, found⟩ := (Close.validate_eq_ok conn hdr body req' target').mp admitted
    have leaves := LocalFsBackend.unlink_leaves (backends n) target'.file.lastPath
      (s.env.host.files n)
    have refused (readOnly : (backends n).readOnly = true) :=
      LocalFsBackend.unlink_of_readOnly readOnly target'.file.lastPath (s.env.host.files n)
    generalize LocalProg.runOn _ _ = out at leaves refused gone
    cases leaves with
    | failed => exact kept gone
    | removed outside proper here leaf =>
      rw [Fs.node_removeEntry proper here] at gone
      split at gone
      next below =>
        -- nothing sat below, so this is the entry at the path of the open
        by_cases entry : q = target'.file.lastPath.components
        · subst entry
          by_contra other
          by_cases selected : target'.file.lastPath.stream = none
          · have live := Uses.hasOpen ⟨req'.fileId, by simp [namedFile, cmd, parsed], found⟩ executes
            exact other ((settled _ _ live n backend selected).2 x there)
          · refine undisturbed (.closed conn hdr body req' target' n x executes cmd admitted marked
              backend ?_ selected there leaf other)
            by_contra readOnly
            cases refused (Bool.not_eq_false _ ▸ readOnly)
        · exact kept (leaf q below entry)
      next => exact kept gone

/-! ### A run -/

end
/-- Over every run that leads nothing to the path of another open, and closes no open of a stream
where something can be removed, a CLOSE removes at most what its open is of. -/
theorem removesOwn_of_undisturbed (server : ServerState) (host : LocalHost backends)
    (events : List Event)
    (undisturbed : System.Throughout server host events fun s step => ¬s.Disturbs step) :
    System.Throughout server host events System.RemovesOwn := by
  refine Always.imp (fun s => s.Opens (Settled s.env.host)) ?_ ?_ _ _ ?_ undisturbed
  · exact fun s step settled quiet => settled_execute settled quiet
  · exact fun s step settled quiet => removesOwn_of_settled settled quiet
  · rintro share file ⟨cid, conn, sid, tid, tree, fid, live, -⟩
    cases live

end

/-! ### A run that disturbs nothing -/

section
variable {backends : Nat → LocalFsBackend} [Crypto]
  (s : System (LocalHost backends) (Nat × LocalHandle)) (cid : UInt64)

/-- No open is live. -/
def System.idle : Bool :=
  s.conns.vals.all fun conn => conn.sessions.vals.all fun sess =>
    sess.trees.vals.all fun tree => tree.opens.vals.isEmpty

omit [Crypto] in
theorem System.not_hasOpen_of_idle (alone : s.idle = true) (share : ShareBindings)
    (file : Open (Nat × LocalHandle)) : ¬s.HasOpen share file := by
  rintro ⟨cid, conn, sid, tid, tree, fid, live, found, there, -⟩
  obtain ⟨sess, session, here⟩ := Option.bind_eq_some_iff.mp found
  simp only [idle, List.all_eq_true, List.isEmpty_iff] at alone
  have none := alone conn ((Table.mem_vals _ _).mpr ⟨cid, live⟩) sess
    ((Table.mem_vals _ _).mpr ⟨sid, session⟩) tree ((Table.mem_vals _ _).mpr ⟨tid, here⟩)
  have member : file ∈ tree.opens.vals := (Table.mem_vals _ _).mpr ⟨fid, there⟩
  rw [none] at member
  cases member

/-- The frame is no SET_INFO, no CREATE beside another open, and no CLOSE of an open of a stream. -/
def System.calm (frame : Bytes) : Bool :=
  (Smb2Header.parse (Element.single frame).bytes).all fun found =>
    match found.1.command with
    | .setInfo => false
    | .create => s.idle
    | .close => (s.closing cid frame).all fun target => target.file.lastPath.stream.isNone
    | _ => true

theorem System.undisturbed_of_calm (frame : Bytes) (calm : s.calm cid frame = true) :
    ¬s.Disturbs (.element cid (.single frame)) := by
  have request {conn : Connection (Nat × LocalHandle)} {hdr : Smb2Header} {body : Bytes}
      (executes : s.Executes (.element cid (.single frame)) conn hdr body) :
      Smb2Header.parse (Element.single frame).bytes = some (hdr, body) := by
    obtain ⟨cid', e, same, -, accepted⟩ := executes
    obtain ⟨-, rfl⟩ := Step.element.inj same
    exact accepted.1
  intro disturbs
  rw [System.calm] at calm
  cases disturbs with
  | created conn hdr body plan n inner share file executes cmd _ _ _ _ _ live =>
    rw [request executes] at calm
    simp only [Option.all_some, cmd] at calm
    exact s.not_hasOpen_of_idle calm share file live
  | renamed conn hdr body target dst replace n share file rest x executes reaches
  | dropped conn hdr body target dst replace n x executes reaches =>
    rw [request executes] at calm
    simp only [Option.all_some, reaches.1, Bool.false_eq_true] at calm
  | closed conn hdr body req target n x executes cmd admitted _ _ _ selected =>
    have closes := System.closing_eq_some.mpr ⟨conn, hdr, body, req, executes, cmd, admitted⟩
    rw [request executes] at calm
    simp only [Option.all_some, cmd, closes] at calm
    exact selected (Option.isNone_iff_eq_none.mp calm)

end

open scoped Sample

/-- A file is created to be deleted on close, and closed. -/
def Sample.temporary : List Bytes :=
  Sample.anonymousOn ['w'] ++
    [Client.plain .create 1 1
      (Client.createBody Create.fileWriteData 2 Create.fileDeleteOnClose ['a']),
    Client.plain .close 1 1 (Client.closeBody ⟨1, 1⟩)]

theorem temporary_removed :
    System.Throughout Sample.server Sample.localHost (Sample.session Sample.temporary)
      System.RemovesOwn := by
  refine removesOwn_of_undisturbed Sample.server Sample.localHost _ ?_
  refine Sample.throughout_session (fun s => ?_) (fun s => s.undisturbed_of_calm 1) _ _ _ ?_
  · intro disturbs
    obtain ⟨conn, hdr, body, cid, e, other, -⟩ := disturbs.executes
    cases other
  · decide +kernel

/-! ### A path that another file has taken -/

namespace Sample

/-- A file is created to be deleted on close, renamed through another open, and created again. -/
def recreated : List Event :=
  session (anonymousOn ['w'] ++
    [Client.plain .create 1 1
      (Client.createBody Create.fileWriteData 2 Create.fileDeleteOnClose ['a']),
    Client.plain .create 1 1 (Client.createBody Create.fileWriteData 1 0 ['a']),
    Client.plain .setInfo 1 1
      (Client.setInfoBody InfoClass.fileRenameInformation ⟨2, 2⟩ (Client.renameBuffer false ['b'])),
    Client.plain .create 1 1 (Client.createBody Create.fileWriteData 2 0 ['a'])])

def closeFirst : Bytes := Client.plain .close 1 1 (Client.closeBody ⟨1, 1⟩)

end Sample

/-- The new file is deleted. -/
theorem recreated_deleted :
    ¬∀ events : List Event,
      System.Throughout Sample.server Sample.localHost events System.RemovesOwn := by
  intro all
  have last := (all (Sample.recreated ++ [.frame 1 Sample.closeFirst])).last (by decide +kernel)
    (by decide +kernel)
  have reached : let s := (System.start Sample.server Sample.localHost).run Sample.recreated
      ((s.closing 1 Sample.closeFirst).any fun target =>
        target.file.deleteOnClose && target.file.object == some (0, .file 0)) = true ∧
      s.env.host.node 0 [['a']] = some (.file 1) ∧
      (s.execute (.element 1 (.single Sample.closeFirst))).env.host.node 0 [['a']] = none := by
    decide +kernel
  obtain ⟨closes, there, gone⟩ := reached
  simp only [Option.any_eq_true, Bool.and_eq_true, beq_iff_eq] at closes
  obtain ⟨target, closes, marked, object⟩ := closes
  obtain ⟨conn, hdr, body, req, executes, close, admitted⟩ := System.closing_eq_some.mp closes
  have own := last conn hdr body req target executes close admitted marked 0 [['a']] _ there gone
  rw [object] at own
  cases own

end SmbServer
