import SmbServer.Fs.Handle
import SmbServer.Lib.PosixLaws

/-!
# SmbServer.Fs.Host

The server over shares that are directories of the host: one `LocalFsBackend` for each of its
backends, with a tree of its own. Every method runs to its end before the next one starts.

What is not in a tree is given from outside, anew for every call: metadata, random bytes and the
time.
-/

namespace SmbServer

open Lib

/-! ### The directory of a share -/

/-- A tree that a share can be kept in. -/
structure ShareDir where
  fs : Fs Text
  root : ∃ id, fs.node [] = some (.dir id)
  sound : fs.Sound

/-- A call on what is open changes contents only. -/
theorem HandleCall.exec_cases (view : HostView) (fs : Fs Text) (c : HandleCall) :
    (c.exec view fs).2 = fs ∨ ∃ id bytes, (c.exec view fs).2 = fs.setContents id bytes := by
  cases c with
  | readAt | syncData | metadata | setTimes | dirMetadata | entries | entryMetadata =>
    exact .inl rfl
  | writeAt file offset data =>
    rcases fs.writeAt_cases file offset data with ⟨e, failed⟩ | ⟨id, -, done⟩
    · exact .inl (congrArg Prod.snd failed)
    · exact .inr ⟨id, _, congrArg Prod.snd done⟩
  | setLen file len =>
    rcases fs.setLen_cases file len with ⟨e, failed⟩ | ⟨id, -, done⟩
    · exact .inl (congrArg Prod.snd failed)
    · exact .inr ⟨id, _, congrArg Prod.snd done⟩

theorem LocalCall.exec_root (view : HostView) (fs : Fs Text) (c : LocalCall)
    (root : ∃ id, fs.node [] = some (.dir id)) :
    ∃ id, (c.exec view fs).2.node [] = some (.dir id) := by
  cases c with
  | path c => exact FsCall.exec_root root c
  | handle c =>
    rw [LocalCall.exec]
    rcases c.exec_cases view fs with same | ⟨id, bytes, written⟩
    · rw [same]
      exact root
    · rw [written]
      exact root

theorem LocalCall.exec_sound (view : HostView) (fs : Fs Text) (c : LocalCall)
    (sound : fs.Sound) : (c.exec view fs).2.Sound := by
  cases c with
  | path c => exact FsCall.exec_sound sound c
  | handle c =>
    rw [LocalCall.exec]
    rcases c.exec_cases view fs with same | ⟨id, bytes, written⟩
    · rw [same]
      exact sound
    · rw [written]
      exact sound.setContents id bytes

/-- Run a method on the directory. -/
def ShareDir.run {α : Type} (view : HostView) (dir : ShareDir) (prog : LocalProgram α) :
    SmbResult α × ShareDir :=
  ((prog.runOn view dir.fs).1,
    { fs := (prog.runOn view dir.fs).2
      root := Program.run_invariant _ (LocalCall.exec_root view) prog.run dir.fs dir.root
      sound := Program.run_invariant _ (LocalCall.exec_sound view) prog.run dir.fs dir.sound })

structure LocalHost (backends : Nat → LocalFsBackend) where
  dirs : Nat → ShareDir
  /-- The number of calls so far. -/
  ticks : Nat
  view : Nat → HostView
  random : Nat → (n : Nat) → ByteVec n
  clock : Nat → UInt64

namespace LocalHost

variable {backends : Nat → LocalFsBackend} {α : Type}

/-- Run a method on the directory of one backend. -/
def run (n : Nat) (prog : LocalProgram α) (host : LocalHost backends) :
    SmbResult α × LocalHost backends :=
  let (result, dir) := (host.dirs n).run (host.view host.ticks) prog
  (result, { host with dirs := Function.update host.dirs n dir, ticks := host.ticks + 1 })

/-- A handle belongs to the backend that has returned it. -/
instance : Host (LocalHost backends) (Nat × LocalHandle) where
  capabilities n := (backends n).capabilities
  «open» n path opts host :=
    let (result, host) := host.run n ((backends n).open path opts).lift
    (result.map fun h => (n, h), host)
  unlink n path := run n ((backends n).unlink path).lift
  rename n src dst replace := run n ((backends n).rename src dst replace).lift
  read h offset len := run h.1 (h.2.readCalls offset len)
  writeOwned h offset data := run h.1 (h.2.writeOwnedCalls offset data)
  flush h := run h.1 h.2.flushCalls
  stat h := run h.1 h.2.statCalls
  setTimes h times := run h.1 (h.2.setTimesCalls times)
  truncate h len := run h.1 (h.2.truncateCalls len)
  listDir h pattern := run h.1 (h.2.listDirCalls pattern)
  close h := run h.1 h.2.closeCalls
  fillRandom n host := (host.random host.ticks n, { host with ticks := host.ticks + 1 })
  nowFiletime host := (host.clock host.ticks, { host with ticks := host.ticks + 1 })

/-- The tree of a backend. -/
def files (host : LocalHost backends) (n : Nat) : Fs Text := (host.dirs n).fs

theorem root_files (host : LocalHost backends) (n : Nat) :
    ∃ id, (host.files n).node [] = some (.dir id) :=
  (host.dirs n).root

theorem sound_files (host : LocalHost backends) (n : Nat) : (host.files n).Sound :=
  (host.dirs n).sound

/-- What sits at a path of a backend. -/
def node (host : LocalHost backends) (n : Nat) (path : List Text) : Option (Node Nat) :=
  (host.files n).node path

theorem files_run (n : Nat) (prog : LocalProgram α) (host : LocalHost backends) :
    (run n prog host).2.files =
      Function.update host.files n (prog.runOn (host.view host.ticks) (host.files n)).2 := by
  funext m
  by_cases same : m = n
  · subst same
    simp only [run, files, Function.update_self]
    rfl
  · simp only [run, files, Function.update_of_ne same]

/-- A method that leaves its tree alone. -/
theorem files_run_of_same {n : Nat} {prog : LocalProgram α}
    (same : ∀ view fs, (prog.runOn view fs).2 = fs) (host : LocalHost backends) :
    (run n prog host).2.files = host.files := by
  rw [files_run, same, Function.update_eq_self]

end LocalHost

/-! ### Methods that only ask -/

namespace LocalHandle

variable (view : HostView) (fs : Fs Text) (h : LocalHandle)

theorem fs_flushCalls : (h.flushCalls.runOn view fs).2 = fs := by
  cases h <;> rfl

theorem fs_statCalls : (h.statCalls.runOn view fs).2 = fs := by
  cases h <;> rfl

theorem fs_setTimesCalls (times : FileTimes) : ((h.setTimesCalls times).runOn view fs).2 = fs := by
  cases h with
  | dir => rfl
  | file name fd readOnly => cases readOnly <;> rfl

theorem fs_listEntries (dirHandle : Nat) (pattern : Option Text)
    (entries : List (Except IoError OsName)) :
    ((listEntries dirHandle pattern entries).runOn view fs).2 = fs := by
  induction entries with
  | nil => rfl
  | cons entry rest ih =>
    cases entry with
    | error e => rfl
    | ok entry =>
      rw [listEntries]
      cases listedName pattern entry with
      | none => exact ih
      | some name =>
        refine (congrArg Prod.snd (LocalProgram.runOn_askHandle view fs
          (.entryMetadata dirHandle entry) _)).trans ?_
        simp only [HandleCall.exec]
        rw [LocalProgram.runOn_bind]
        split
        next out fs' run =>
          rw [run] at ih
          exact ih
        next e fs' run =>
          rw [run] at ih
          exact ih

theorem fs_listDirCalls (pattern : Option Text) :
    ((h.listDirCalls pattern).runOn view fs).2 = fs := by
  cases h with
  | file => rfl
  | dir name dirHandle =>
    refine (congrArg Prod.snd (LocalProgram.runOn_askHandle view fs (.entries dirHandle) _)).trans ?_
    exact fs_listEntries view fs dirHandle pattern _

end LocalHandle

end SmbServer
