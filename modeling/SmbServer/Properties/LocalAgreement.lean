import SmbServer.Lib.PosixTwin
import SmbServer.Properties.LocalEntries

/-!
# SmbServer.Properties.LocalAgreement

The methods of a `LocalFsBackend` on two trees that are alike but for the directory of the streams:
without a stream they return the same and leave the trees alike. So nothing that is kept for a
stream shows in what a client does with files and directories.
-/

namespace SmbServer

open Lib

/-! ### Methods on two trees -/

namespace LocalProg

variable {α β γ : Type}

/-- On trees that are alike but for the directory of the streams, the same result but for the
identities of directories. -/
def Agrees (forget : α → β) (prog prog' : LocalProg α) : Prop :=
  ∀ fs fs' : Fs Text, fs.AlikeBut streamsDir fs' →
    Fs.AlikeBut.Answers streamsDir forget (prog.runOn fs) (prog'.runOn fs')

section
variable {forget : α → β}

theorem agrees_pure {a a' : α} (same : forget a = forget a') :
    Agrees forget (pure a) (pure a') :=
  fun _ _ alike => ⟨congrArg Except.ok same, alike⟩

theorem agrees_throw (e : SmbError) : Agrees forget (throw e) (throw e) :=
  fun _ _ alike => ⟨rfl, alike⟩

theorem agrees_ask {c : FsCall Text} (beside : ∀ path ∈ c.paths, Beside streamsDir path) :
    Agrees c.forget (ask c) (ask c) := by
  intro fs fs' alike
  obtain ⟨same, after⟩ := c.exec_alike alike beside
  rw [runOn_ask, runOn_ask]
  refine ⟨?_, after⟩
  show ((c.exec fs).1.mapError ioToSmb).map c.forget =
    ((c.exec fs').1.mapError ioToSmb).map c.forget
  cases here : (c.exec fs).1 with
  | error e =>
    cases there : (c.exec fs').1 with
    | error e' =>
      rw [here, there] at same
      cases same
      rfl
    | ok reply =>
      rw [here, there] at same
      cases same
  | ok reply =>
    cases there : (c.exec fs').1 with
    | error e' =>
      rw [here, there] at same
      cases same
    | ok reply' =>
      rw [here, there] at same
      exact congrArg Except.ok (Except.ok.inj same)

theorem agrees_bind {forget' : β → γ} {prog prog' : LocalProg α} {f f' : α → LocalProg β}
    {forget : α → α} (first : Agrees forget prog prog')
    (rest : ∀ a a', forget a = forget a' → Agrees forget' (f a) (f' a')) :
    Agrees forget' (prog >>= f) (prog' >>= f') := by
  intro fs fs' alike
  obtain ⟨same, after⟩ := first fs fs' alike
  rw [runOn_bind, runOn_bind]
  cases here : prog.runOn fs with
  | mk result fs₁ =>
    cases there : prog'.runOn fs' with
    | mk result' fs₁' =>
      rw [here, there] at same after
      cases result with
      | error e =>
        cases result' with
        | error e' =>
          cases same
          exact ⟨rfl, after⟩
        | ok a' => cases same
      | ok a =>
        cases result' with
        | error e' => cases same
        | ok a' => exact rest a a' (Except.ok.inj same) fs₁ fs₁' after

theorem agrees_askIfFound_bind {forget : β → γ} {c : FsCall Text}
    {f f' : Option c.Reply → LocalProg β}
    (beside : ∀ path ∈ c.paths, Beside streamsDir path)
    (rest : ∀ found found', found.map c.forget = found'.map c.forget →
      Agrees forget (f found) (f' found')) :
    Agrees forget (askIfFound c >>= f) (askIfFound c >>= f') := by
  intro fs fs' alike
  obtain ⟨same, after⟩ := c.exec_alike alike beside
  rw [runOn_askIfFound, runOn_askIfFound]
  cases here : (c.exec fs).1 with
  | error e =>
    cases there : (c.exec fs').1 with
    | error e' =>
      rw [here, there] at same
      cases same
      cases e with
      | notFound => exact rest none none rfl _ _ after
      | _ => exact ⟨rfl, after⟩
    | ok reply =>
      rw [here, there] at same
      cases same
  | ok reply =>
    cases there : (c.exec fs').1 with
    | error e' =>
      rw [here, there] at same
      cases same
    | ok reply' =>
      rw [here, there] at same
      exact rest (some reply) (some reply') (congrArg some (Except.ok.inj same)) _ _ after

end

end LocalProg

theorem LocalProg.runOn_root {α : Type} {fs : Fs Text} (root : ∃ id, fs.node [] = some (.dir id))
    (prog : LocalProg α) : ∃ id, (prog.runOn fs).2.node [] = some (.dir id) :=
  FsProg.run_invariant (fun fs => ∃ id, fs.node [] = some (.dir id))
    (fun _ c root => FsCall.exec_root root c) prog.run fs root

theorem LocalProg.runOn_sound {α : Type} {fs : Fs Text} (sound : fs.Sound) (prog : LocalProg α) :
    (prog.runOn fs).2.Sound :=
  FsProg.run_invariant Fs.Sound (fun _ c sound => FsCall.exec_sound sound c) prog.run fs sound

/-- A handle, with directories that have lost their identities. -/
def LocalHandle.forget : LocalHandle → LocalHandle
  | .file name fd readOnly => .file name fd.forget readOnly
  | .dir name _ => .dir name 0

namespace LocalHandle

/-- Requests see no identity of a directory. -/
theorem read_forget (fs : Fs Text) (h : LocalHandle) (offset : UInt64) (len : UInt32) :
    h.forget.read fs offset len = h.read fs offset len := by
  cases h with
  | dir => rfl
  | file name fd readOnly =>
    obtain ⟨node, readable, writable⟩ := fd
    cases node <;> rfl

theorem writeOwned_forget (fs : Fs Text) (h : LocalHandle) (offset : UInt64) (data : Bytes) :
    h.forget.writeOwned fs offset data = h.writeOwned fs offset data := by
  cases h with
  | dir => rfl
  | file name fd readOnly =>
    obtain ⟨node, readable, writable⟩ := fd
    cases node <;> rfl

theorem truncate_forget (fs : Fs Text) (h : LocalHandle) (len : UInt64) :
    h.forget.truncate fs len = h.truncate fs len := by
  cases h with
  | dir => rfl
  | file name fd readOnly =>
    obtain ⟨node, readable, writable⟩ := fd
    cases node <;> rfl

end LocalHandle

namespace LocalFsBackend

open LocalProg

variable {path src dst : SmbPath} {opts : OpenOptions}

theorem beside_of_outside {q : List Text} (outside : Outside q) : Beside streamsDir q := by
  cases q with
  | nil =>
    intro first
    cases first
  | cons name rest =>
    intro first
    have inside := outside streamsDir (List.mem_of_mem_head? first)
    revert inside
    decide +kernel

section
variable (beside : Beside streamsDir path.components)
include beside

theorem openAsDir_agrees :
    Agrees LocalHandle.forget (openAsDir path) (openAsDir path) :=
  agrees_bind (agrees_ask (c := .openDir path.components) (by simpa [FsCall.paths] using beside))
    fun _ _ _ => agrees_pure rfl

theorem openDirectory_agrees (intent : OpenIntent) :
    Agrees LocalHandle.forget (openDirectory path intent) (openDirectory path intent) := by
  have makes : Agrees LocalHandle.forget
      (ask (.createDir path.components) >>= fun _ => openAsDir path)
      (ask (.createDir path.components) >>= fun _ => openAsDir path) :=
    agrees_bind (agrees_ask (by simpa [FsCall.paths] using beside))
      fun _ _ _ => openAsDir_agrees beside
  cases intent with
  | «open» => exact openAsDir_agrees beside
  | create => exact makes
  | openOrCreate =>
    refine agrees_bind (agrees_ask (c := .exists path.components)
      (by simpa [FsCall.paths] using beside)) fun found found' same => ?_
    obtain rfl : found = found' := same
    cases found with
    | true => exact openAsDir_agrees beside
    | false => exact makes
  | truncate | overwriteOrCreate => exact agrees_throw _

theorem openExistingDir_agrees (opts : OpenOptions) :
    Agrees LocalHandle.forget (openExistingDir path opts) (openExistingDir path opts) := by
  unfold openExistingDir
  cases opts.nonDirectory with
  | true => exact agrees_throw _
  | false =>
    cases opts.intent with
    | «open» | openOrCreate => exact openAsDir_agrees beside
    | create | truncate | overwriteOrCreate => exact agrees_throw _

theorem openFile_agrees (b : LocalFsBackend) (opts : OpenOptions) :
    Agrees LocalHandle.forget (b.openFile path opts) (b.openFile path opts) := by
  have asFile : Agrees LocalHandle.forget
      (do
        let file ← ask (.openWith (toRelPath path) (capOptions opts))
        return .file (fileNameFor path) file b.readOnly)
      (do
        let file ← ask (.openWith (toRelPath path) (capOptions opts))
        return .file (fileNameFor path) file b.readOnly) := by
    refine agrees_bind (agrees_ask (c := .openWith path.components (capOptions opts))
      (by simpa [FsCall.paths] using beside)) fun file file' same => agrees_pure ?_
    exact congrArg (LocalHandle.file (fileNameFor path) · b.readOnly) same
  refine agrees_askIfFound_bind (c := .metadata path.components)
    (by simpa [FsCall.paths] using beside) fun found found' same => ?_
  have kept : (FsCall.metadata path.components).forget = id := rfl
  rw [kept, Option.map_id, id_eq, id_eq] at same
  subst same
  cases found with
  | none => exact asFile
  | some isDir =>
    cases isDir with
    | true => exact openExistingDir_agrees beside opts
    | false => exact asFile

end

theorem open_agrees (b : LocalFsBackend) (primary : path.streamName = none) :
    Agrees LocalHandle.forget (b.open path opts) (b.open path opts) := by
  unfold LocalFsBackend.open
  split
  · exact agrees_throw _
  split
  · exact agrees_throw _
  next outside =>
    rw [Bool.not_eq_true, outside_iff] at outside
    have beside := beside_of_outside outside
    rw [primary]
    dsimp only
    split
    · exact openDirectory_agrees beside opts.intent
    · exact openFile_agrees beside b opts

theorem unlink_agrees (b : LocalFsBackend) (path : SmbPath) :
    Agrees id (b.unlink path) (b.unlink path) := by
  unfold unlink
  split
  · exact agrees_throw _
  split
  · exact agrees_throw _
  next outside =>
  split
  · exact agrees_throw _
  rw [Bool.not_eq_true, outside_iff] at outside
  have beside := beside_of_outside outside
  refine agrees_bind (agrees_ask (c := .symlinkMetadata path.components)
    (by simpa [FsCall.paths] using beside)) fun isDir isDir' same => ?_
  obtain rfl : isDir = isDir' := same
  cases isDir with
  | true =>
    exact agrees_ask (c := .removeDir path.components) (by simpa [FsCall.paths] using beside)
  | false =>
    exact agrees_ask (c := .removeFile path.components) (by simpa [FsCall.paths] using beside)

theorem checkTarget_agrees {q : List Text} (beside : Beside streamsDir q) :
    Agrees id (checkTarget q) (checkTarget q) := by
  intro fs fs' alike
  rw [runOn_checkTarget_eq, runOn_checkTarget_eq]
  rcases alike.find beside with ⟨e, here, there⟩ | ⟨id, here, there⟩ | ⟨id, id', here, there⟩
  · rw [here, there]
    exact ⟨rfl, alike⟩
  · rw [here, there]
    exact ⟨rfl, alike⟩
  · rw [here, there]
    exact ⟨rfl, alike⟩

theorem rename_agrees (b : LocalFsBackend) (src dst : SmbPath) (replace : Bool) :
    Agrees id (b.rename src dst replace) (b.rename src dst replace) := by
  unfold rename
  split
  · exact agrees_throw _
  split
  · exact agrees_throw _
  next outside =>
  split
  · exact agrees_throw _
  rw [Bool.or_eq_true, not_or, Bool.not_eq_true, Bool.not_eq_true, outside_iff,
    outside_iff] at outside
  have beside := beside_of_outside outside.1
  have beside' := beside_of_outside outside.2
  have renames : Agrees id (ask (.rename src.components dst.components))
      (ask (.rename src.components dst.components)) :=
    agrees_ask (c := .rename src.components dst.components)
      (by simpa [FsCall.paths] using ⟨beside, beside'⟩)
  cases replace with
  | true => exact renames
  | false => exact agrees_bind (checkTarget_agrees beside') fun _ _ _ => renames

end LocalFsBackend

end SmbServer
