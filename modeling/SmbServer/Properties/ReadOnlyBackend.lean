import SmbServer.Fs.Handle

/-!
# SmbServer.Properties.ReadOnlyBackend

A `LocalFsBackend` marked read-only.

## Main result

`readOnlyBackend_never_mutates`: whatever a user asks of the backend and of the handles it returns,
in whatever order and whatever the host replies, no call is made that creates, removes, renames,
truncates, writes or changes times.

## Proof strategy

Every method is followed along its do-block (`Program.Keeps`). An open hands out files marked
read-only (`Guarded`), and the methods of those make no such call; then an induction on the session.
-/

namespace SmbServer

open Lib

/-! ### Rules for the programs -/

/-- No call changes anything, and a result satisfies `Q`. -/
def LocalProgram.Keeps {α : Type} (prog : LocalProgram α) (Q : α → Prop) : Prop :=
  prog.run.Keeps (fun c => c.mutates = false) fun result => ∀ a, result = .ok a → Q a

namespace LocalProgram

variable {α β : Type} {Q : α → Prop} {R : β → Prop}

theorem keeps_pure {a : α} (holds : Q a) : (pure a : LocalProgram α).Keeps Q := by
  apply Program.Keeps.done
  intro b same
  cases same
  exact holds

theorem keeps_throw {e : SmbError} : (throw e : LocalProgram α).Keeps Q := by
  apply Program.Keeps.done
  intro b same
  cases same

theorem keeps_bind {prog : LocalProgram α} {f : α → LocalProgram β} (first : prog.Keeps Q)
    (later : ∀ a, Q a → (f a).Keeps R) : (prog >>= f).Keeps R := by
  apply Program.Keeps.bind first
  intro result holds
  cases result with
  | ok a => exact later a (holds a rfl)
  | error e => exact keeps_throw

theorem keeps_askHandle {c : HandleCall} (quiet : c.mutates = false) :
    (askHandle c).Keeps fun _ => True :=
  Program.Keeps.call quiet fun _ => Program.Keeps.done fun _ _ => trivial

theorem keeps_discard {prog : LocalProgram α} (keeps : prog.Keeps Q) :
    (discard prog).Keeps fun _ => True :=
  keeps_bind keeps fun _ _ => keeps_pure trivial

theorem liftCalls_bind (prog : FsProg Text α) (f : α → FsProg Text β) :
    liftCalls (prog.bind f) = (liftCalls prog).bind fun a => liftCalls (f a) := by
  induction prog with
  | done a => rfl
  | call c next ih => exact congrArg (Program.call (.path c)) (funext fun reply => ih reply)

theorem lift_bind (prog : LocalProg α) (f : α → LocalProg β) :
    (prog >>= f).lift = prog.lift >>= fun a => (f a).lift := by
  refine (liftCalls_bind prog.run (ExceptT.bindCont f)).trans ?_
  refine congrArg (Program.bind (liftCalls prog.run)) (funext fun result => ?_)
  cases result <;> rfl

/-- `keeps_bind` for the methods of the backend. -/
theorem keeps_lift_bind {prog : LocalProg α} {f : α → LocalProg β} (first : prog.lift.Keeps Q)
    (later : ∀ a, Q a → (f a).lift.Keeps R) : (prog >>= f).lift.Keeps R := by
  rw [lift_bind]
  exact keeps_bind first later

theorem keeps_lift_pure {a : α} (holds : Q a) : (pure a : LocalProg α).lift.Keeps Q :=
  keeps_pure holds

theorem keeps_lift_throw {e : SmbError} : (throw e : LocalProg α).lift.Keeps Q := keeps_throw

theorem keeps_lift_ite {p : Prop} [Decidable p] {yes no : LocalProg α} (here : yes.lift.Keeps Q)
    (there : no.lift.Keeps Q) : (if p then yes else no).lift.Keeps Q := by
  by_cases holds : p
  · rw [if_pos holds]
    exact here
  · rw [if_neg holds]
    exact there

theorem keeps_ask {c : FsCall Text} (quiet : (LocalCall.path c).mutates = false) :
    (ask c).lift.Keeps fun _ => True :=
  Program.Keeps.call quiet fun _ => Program.Keeps.done fun _ _ => trivial

theorem keeps_askIfFound {c : FsCall Text} (quiet : (LocalCall.path c).mutates = false) :
    (askIfFound c).lift.Keeps fun _ => True := by
  refine Program.Keeps.call quiet fun reply => ?_
  cases reply with
  | ok reply => exact Program.Keeps.done fun _ _ => trivial
  | error e => cases e <;> exact Program.Keeps.done fun _ _ => trivial

end LocalProgram

/-! ### Opens -/

/-- A handle of a file refuses to change it; one of a directory has nothing to refuse. -/
def LocalHandle.Guarded : LocalHandle → Prop
  | .file _ _ readOnly => readOnly = true
  | .dir .. => True

namespace LocalFsBackend

open LocalProgram

/-- An open that writes nothing asks for an existing file as it is. -/
theorem quiet_of_not_writes {opts : OpenOptions} (harmless : opts.writes = false) :
    opts.intent = .open ∧ capOptions opts = ⟨true, false, false, false, false⟩ := by
  rw [OpenOptions.writes, Bool.or_eq_false_iff] at harmless
  obtain ⟨noWrite, intent⟩ := harmless
  cases same : opts.intent with
  | «open» => exact ⟨rfl, by rw [capOptions, same, noWrite]⟩
  | create | truncate | openOrCreate | overwriteOrCreate => rw [same] at intent; cases intent

variable {b : LocalFsBackend} {opts : OpenOptions}

theorem openStream_keeps (readOnly : b.readOnly = true) (harmless : opts.writes = false)
    (baseRel : List Text) (stream : Text) :
    (b.openStream baseRel stream opts).lift.Keeps LocalHandle.Guarded := by
  obtain ⟨intent, flags⟩ := quiet_of_not_writes harmless
  have file : (openStreamPath baseRel stream (capOptions opts)).lift.Keeps fun _ => True := by
    rw [flags]
    exact keeps_lift_ite (keeps_ask rfl) (keeps_lift_ite (keeps_ask rfl) (keeps_ask rfl))
  unfold openStream
  refine keeps_lift_bind (keeps_askIfFound rfl) fun found _ => ?_
  cases found with
  | none => exact keeps_lift_throw
  | some isDir =>
    cases isDir with
    | true => exact keeps_lift_throw
    | false =>
      -- no directory is made for a stream that has to be there
      simp only [intent, OpenIntent.creates, Bool.false_eq_true, if_false]
      exact keeps_lift_bind file fun fd _ => keeps_lift_pure readOnly

theorem openDirectory_keeps (path : SmbPath) :
    (openDirectory path .open).lift.Keeps LocalHandle.Guarded := by
  unfold openDirectory
  exact keeps_lift_bind (keeps_ask rfl) fun dirHandle _ => keeps_lift_pure trivial

theorem openExistingDir_keeps (intent : opts.intent = .open) (path : SmbPath) :
    (openExistingDir path opts).lift.Keeps LocalHandle.Guarded := by
  unfold openExistingDir
  rw [intent]
  cases opts.nonDirectory with
  | true => exact keeps_lift_throw
  | false => exact keeps_lift_bind (keeps_ask rfl) fun dirHandle _ => keeps_lift_pure trivial

theorem openFile_keeps (readOnly : b.readOnly = true) (harmless : opts.writes = false)
    (path : SmbPath) : (b.openFile path opts).lift.Keeps LocalHandle.Guarded := by
  obtain ⟨intent, flags⟩ := quiet_of_not_writes harmless
  have asFile : (do
      let file ← ask (.openWith (toRelPath path) (capOptions opts))
      return LocalHandle.file (fileNameFor path) file b.readOnly : LocalProg LocalHandle).lift.Keeps
        LocalHandle.Guarded := by
    rw [flags]
    exact keeps_lift_bind (keeps_ask rfl) fun fd _ => keeps_lift_pure readOnly
  unfold openFile
  refine keeps_lift_bind (keeps_askIfFound rfl) fun found _ => ?_
  cases found with
  | none => exact asFile
  | some isDir =>
    cases isDir with
    | true => exact openExistingDir_keeps intent path
    | false => exact asFile

/-- An open on a read-only backend changes nothing, and the handle is guarded. -/
theorem open_keeps (readOnly : b.readOnly = true) (path : SmbPath) (opts : OpenOptions) :
    (b.open path opts).lift.Keeps LocalHandle.Guarded := by
  unfold LocalFsBackend.open
  cases harmless : opts.writes with
  | true =>
    rw [readOnly]
    exact keeps_lift_throw
  | false =>
    rw [readOnly, Bool.and_false, if_neg Bool.false_ne_true]
    obtain ⟨intent, -⟩ := quiet_of_not_writes harmless
    split
    · exact keeps_lift_throw
    · split
      next stream _ =>
        split
        · exact keeps_lift_throw
        · exact openStream_keeps readOnly harmless (toRelPath path) stream
      next =>
        split
        · rw [intent]
          exact openDirectory_keeps path
        · exact openFile_keeps readOnly harmless path

theorem unlink_keeps (readOnly : b.readOnly = true) (path : SmbPath) :
    (b.unlink path).lift.Keeps fun _ => True := by
  rw [unlink, if_pos readOnly]
  exact keeps_lift_throw

theorem rename_keeps (readOnly : b.readOnly = true) (src dst : SmbPath) (replace : Bool) :
    (b.rename src dst replace).lift.Keeps fun _ => True := by
  rw [rename, if_pos readOnly]
  exact keeps_lift_throw

end LocalFsBackend

/-! ### Methods of a guarded handle -/

namespace LocalHandle

open LocalProgram

/-- The loop asks for metadata only. -/
theorem listEntries_keeps (dirHandle : Nat) (pattern : Option Text)
    (entries : List (Except IoError OsName)) :
    (listEntries dirHandle pattern entries).Keeps fun _ => True := by
  induction entries with
  | nil => exact keeps_pure trivial
  | cons entry rest ih =>
    cases entry with
    | error e => exact keeps_throw
    | ok entry =>
      rw [listEntries]
      cases listedName pattern entry with
      | none => exact ih
      | some name =>
        refine keeps_bind (keeps_askHandle rfl) fun md _ => ?_
        exact keeps_bind ih fun out _ => keeps_pure trivial

theorem listDirCalls_keeps (pattern : Option Text) (h : LocalHandle) :
    (h.listDirCalls pattern).Keeps fun _ => True := by
  cases h with
  | file => exact keeps_throw
  | dir name dirHandle =>
    refine keeps_bind (keeps_askHandle rfl) fun entries _ => ?_
    exact listEntries_keeps dirHandle pattern entries

theorem writeOwnedCalls_keeps {h : LocalHandle} (guarded : h.Guarded) (offset : UInt64)
    (data : Bytes) : (h.writeOwnedCalls offset data).Keeps fun _ => True := by
  cases h with
  | dir => exact keeps_throw
  | file name fd readOnly =>
    cases (show readOnly = true from guarded)
    exact keeps_throw

theorem serve_keeps {h : LocalHandle} (guarded : h.Guarded) (op : HandleOp) :
    (h.serve op).Keeps fun _ => True := by
  cases op with
  | read offset len =>
    refine keeps_discard (Q := fun _ => True) ?_
    cases h with
    | dir => exact keeps_throw
    | file => exact keeps_askHandle rfl
  -- the operations that would change something are guarded by the handle's own flag
  | write offset data => exact keeps_discard (writeOwnedCalls_keeps guarded offset data)
  | writeOwned offset data => exact keeps_discard (writeOwnedCalls_keeps guarded offset data)
  | flush =>
    cases h with
    | dir => exact keeps_pure trivial
    | file => exact keeps_askHandle rfl
  | stat =>
    refine keeps_discard (Q := fun _ => True) ?_
    cases h with
    | dir => exact keeps_bind (keeps_askHandle rfl) fun md _ => keeps_pure trivial
    | file => exact keeps_bind (keeps_askHandle rfl) fun md _ => keeps_pure trivial
  | setTimes times =>
    cases h with
    | dir => exact keeps_throw
    | file name fd readOnly =>
      cases (show readOnly = true from guarded)
      exact keeps_throw
  | truncate len =>
    cases h with
    | dir => exact keeps_throw
    | file name fd readOnly =>
      cases (show readOnly = true from guarded)
      exact keeps_throw
  | listDir pattern => exact keeps_discard (listDirCalls_keeps pattern h)
  | close => exact keeps_pure trivial

end LocalHandle

/-! ### Sessions -/

/-- Along a session on a read-only backend, every handle is guarded and no call changes anything. -/
theorem LocalSession.guarded {b : LocalFsBackend} (readOnly : b.readOnly = true)
    {hs : List LocalHandle} {calls : List LocalCall} (session : LocalSession b hs calls) :
    (∀ h ∈ hs, h.Guarded) ∧ ∀ c ∈ calls, c.mutates = false := by
  induction session with
  | start => exact ⟨by simp, by simp⟩
  -- a new handle has the backend's flag
  | opened before path opts performs ih =>
    obtain ⟨handles, quiet⟩ := ih
    obtain ⟨new, returned⟩ := LocalFsBackend.open_keeps readOnly path opts _ _ performs
    refine ⟨fun h member => ?_, List.forall_mem_append.mpr ⟨quiet, new⟩⟩
    rcases List.mem_append.mp member with fresh | old
    · next result =>
      cases result with
      | ok opened =>
        rw [List.mem_singleton.mp fresh]
        exact returned opened rfl
      | error e => cases fresh
    · exact handles h old
  | unlinked before path performs ih =>
    have new := (LocalFsBackend.unlink_keeps readOnly path _ _ performs).1
    exact ⟨ih.1, List.forall_mem_append.mpr ⟨ih.2, new⟩⟩
  | renamed before src dst replace performs ih =>
    have new := (LocalFsBackend.rename_keeps readOnly src dst replace _ _ performs).1
    exact ⟨ih.1, List.forall_mem_append.mpr ⟨ih.2, new⟩⟩
  | served before h returned op performs ih =>
    have new := (LocalHandle.serve_keeps (ih.1 h returned) op _ _ performs).1
    exact ⟨ih.1, List.forall_mem_append.mpr ⟨ih.2, new⟩⟩

/-- No user of a read-only backend makes it change anything. -/
theorem readOnlyBackend_never_mutates (b : LocalFsBackend) (readOnly : b.readOnly = true)
    {hs : List LocalHandle} {calls : List LocalCall} (session : LocalSession b hs calls) :
    ∀ c ∈ calls, c.mutates = false :=
  (session.guarded readOnly).2

/-- An open that reads the file `d`. -/
def Sample.readingOptions : OpenOptions := ⟨true, false, .open, false, false, false⟩

def Sample.readingPath : SmbPath := ⟨[['d']], none⟩

def Sample.readingFile : LocalHandle := .file ['d'] ⟨.file 0, true, false⟩ true

def Sample.readingCalls : List LocalCall :=
  [.path (.metadata [['d']]), .path (.openWith [['d']] ⟨true, false, false, false, false⟩)]

theorem Sample.reading_performs :
    (LocalFsBackend.open ⟨true⟩ Sample.readingPath Sample.readingOptions).lift.run.Performs
      Sample.readingCalls (.ok Sample.readingFile) := by
  have body : LocalFsBackend.open ⟨true⟩ Sample.readingPath Sample.readingOptions =
      LocalFsBackend.openFile ⟨true⟩ Sample.readingPath Sample.readingOptions := by
    have outside : isStreamsControlPath Sample.readingPath = false := by decide +kernel
    rw [LocalFsBackend.open, outside]
    rfl
  rw [body]
  let fd : FileDesc := ⟨.file 0, true, false⟩
  exact @Program.Performs.call LocalCall LocalCall.Reply _ (.path (.metadata [['d']])) _
    (Except.ok false : Except IoError Bool) _ _
    (@Program.Performs.call LocalCall LocalCall.Reply _
      (.path (.openWith [['d']] ⟨true, false, false, false, false⟩)) _
      (Except.ok fd : Except IoError FileDesc) _ _ (.done _))

/-- The file is opened, and a write to it is refused. -/
theorem readOnlyBackend_never_mutates_reading :
    (LocalCall.path (.openWith [['d']] ⟨true, false, false, false, false⟩)).mutates = false :=
  readOnlyBackend_never_mutates ⟨true⟩ rfl
    (.served (.opened .start Sample.readingPath Sample.readingOptions Sample.reading_performs)
      Sample.readingFile (List.mem_singleton.mpr rfl) (.write 0 [0x61]) (.done _)) _
    (List.mem_cons_of_mem _ List.mem_cons_self)

end SmbServer
