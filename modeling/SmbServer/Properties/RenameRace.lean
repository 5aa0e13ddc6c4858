import SmbServer.Fs.Local
import SmbServer.Lib.Interleave
import SmbServer.Lib.PosixLaws

/-!
# SmbServer.Properties.RenameRace

Renames that must not replace, on a `LocalFsBackend` whose calls come in any order.

The check that nothing sits at the target and the rename are two calls; `rename(2)` replaces what
has been put there in between.

## Main result

`nonReplacing`: in every run in which nothing is put at the target of a rename between its check
and its `rename(2)`, such a rename leaves every entry at its target alone, and of any number of
operations that claim one target for themselves at most one succeeds.

## Proof strategy

`Unclaimed` says that nothing sits at the target of a rename that has passed its check. What it
takes to claim a target is said once, for programs in general (`Claims`): a program claims with one
call, and only where nothing sits.
-/

namespace SmbServer

open Lib

/-! ### Operations on the blocking pool -/

inductive LocalOp where
  | open (path : SmbPath) (opts : OpenOptions)
  | unlink (path : SmbPath)
  | rename (src dst : SmbPath) (replace : Bool)
  deriving DecidableEq

def LocalOp.prog (b : LocalFsBackend) : LocalOp → FsProg Text (SmbResult Unit)
  | .open path opts => (discard (b.open path opts) : LocalProg Unit)
  | .unlink path => b.unlink path
  | .rename src dst replace => b.rename src dst replace

/-- Operations on one share, each with the calls that it has yet to make. -/
structure FsPool (κ : Type) where
  fs : Fs Text
  ops : κ → LocalOp
  progs : κ → FsProg Text (SmbResult Unit)

namespace FsPool

variable {κ : Type}

def start (b : LocalFsBackend) (fs : Fs Text) (ops : κ → LocalOp) : FsPool κ :=
  ⟨fs, ops, fun k => (ops k).prog b⟩

/-- The operation has succeeded. -/
def Succeeded (s : FsPool κ) (k : κ) : Prop := (s.progs k).result = some (.ok ())

instance (s : FsPool κ) (k : κ) : Decidable (s.Succeeded k) :=
  inferInstanceAs (Decidable ((s.progs k).result = some (.ok ())))

/-- The file system behind the next call of an operation. -/
def behind (s : FsPool κ) (k : κ) : Fs Text := ((s.progs k).step s.fs).2

variable [DecidableEq κ]

/-- The next call of an operation. -/
def advance (s : FsPool κ) (k : κ) : FsPool κ :=
  { s with
    fs := s.behind k
    progs := Function.update s.progs k ((s.progs k).step s.fs).1 }

/-- Any operation may go next. -/
def Next (s : FsPool κ) (k : κ) (t : FsPool κ) : Prop := t = s.advance k

/-- The rename is all that is left to do. -/
def checked (src dst : SmbPath) : FsProg Text (SmbResult Unit) :=
  ask (.rename (toRelPath src) (toRelPath dst))

/-- The next call of `k` puts something at the target of a rename that has passed its check. -/
def LateEntry (s : FsPool κ) (k : κ) : Prop :=
  ∃ j src dst, j ≠ k ∧ s.ops j = .rename src dst false ∧ s.progs j = checked src dst ∧
    s.fs.node (toRelPath dst) = none ∧ (s.behind k).node (toRelPath dst) ≠ none

/-! ### Programs of a rename -/

/-- The check and the rename. -/
def unchecked (src dst : SmbPath) : FsProg Text (SmbResult Unit) :=
  (LocalFsBackend.checkTarget (toRelPath dst) >>= fun _ => checked src dst : LocalProg Unit)

theorem rename_prog (b : LocalFsBackend) (src dst : SmbPath) :
    (∃ e, (LocalOp.rename src dst false).prog b = .done (.error e)) ∨
      (LocalOp.rename src dst false).prog b = unchecked src dst := by
  simp only [LocalOp.prog, LocalFsBackend.rename]
  split
  · exact Or.inl ⟨_, rfl⟩
  · split
    · exact Or.inl ⟨_, rfl⟩
    · split
      · exact Or.inl ⟨_, rfl⟩
      · exact Or.inr rfl

/-- Behind the check there is nothing at the target, or the rename fails. -/
theorem step_unchecked (fs : Fs Text) (src dst : SmbPath) :
    (unchecked src dst).step fs = (.done (.error .exists), fs) ∨
      (fs.node (toRelPath dst) = none ∧ (unchecked src dst).step fs = (checked src dst, fs)) := by
  -- the answer of the metadata call decides, and the call edits nothing
  cases there : fs.node (toRelPath dst) with
  | some node =>
    left
    have found : fs.find (toRelPath dst) = .ok node := Fs.find_eq_ok.mpr there
    change (_, fs) = _
    simp only [FsCall.exec, found]
    rfl
  | none =>
    right
    refine ⟨rfl, ?_⟩
    cases found : fs.find (toRelPath dst) with
    | ok node =>
      rw [Fs.find_eq_ok.mp found] at there
      cases there
    | error e =>
      change (_, fs) = _
      simp only [FsCall.exec, found]
      rfl

theorem step_checked (fs : Fs Text) (src dst : SmbPath) :
    (checked src dst).step fs =
      (.done ((fs.rename (toRelPath src) (toRelPath dst)).1.mapError ioToSmb),
        (fs.rename (toRelPath src) (toRelPath dst)).2) := rfl

/-! ### Nothing sits at a checked target -/

/-- A rename that does not replace has yet to check, or nothing sits at its target, or it is over. -/
inductive Phase (b : LocalFsBackend) (fs : Fs Text) (src dst : SmbPath) :
    FsProg Text (SmbResult Unit) → Prop where
  | before : Phase b fs src dst (unchecked src dst)
  | passed (missing : fs.node (toRelPath dst) = none) : Phase b fs src dst (checked src dst)
  | finished (result : SmbResult Unit) : Phase b fs src dst (.done result)

def Unclaimed (b : LocalFsBackend) (s : FsPool κ) : Prop :=
  ∀ k src dst, s.ops k = .rename src dst false → Phase b s.fs src dst (s.progs k)

omit [DecidableEq κ] in
theorem unclaimed_start (b : LocalFsBackend) (fs : Fs Text) (ops : κ → LocalOp) :
    (start b fs ops).Unclaimed b := by
  intro k src dst op
  have here : (start b fs ops).progs k = (LocalOp.rename src dst false).prog b := by
    rw [← op]
    rfl
  rw [here]
  rcases rename_prog b src dst with ⟨e, failed⟩ | before
  · rw [failed]
    exact .finished _
  · rw [before]
    exact .before

/-- The step of the rename itself. -/
theorem Phase.step {b : LocalFsBackend} {fs : Fs Text} {src dst : SmbPath}
    {prog : FsProg Text (SmbResult Unit)} (phase : Phase b fs src dst prog) :
    Phase b (prog.step fs).2 src dst (prog.step fs).1 := by
  cases phase with
  | before =>
    rcases step_unchecked fs src dst with failed | ⟨missing, passed⟩
    · rw [failed]
      exact .finished _
    · rw [passed]
      exact .passed missing
  | passed missing => exact .finished _
  | finished result => exact .finished result

theorem Unclaimed.advance {b : LocalFsBackend} {s : FsPool κ} (inv : s.Unclaimed b) (k : κ)
    (onTime : ¬s.LateEntry k) : (s.advance k).Unclaimed b := by
  intro j src dst op
  have phase := inv j src dst op
  by_cases same : j = k
  · subst same
    simp only [FsPool.advance, Function.update_self]
    exact phase.step
  · simp only [FsPool.advance, Function.update_of_ne same]
    generalize here : s.progs j = prog at phase
    cases phase with
    | before => exact .before
    | finished result => exact .finished result
    | passed missing =>
      apply Phase.passed
      by_contra arrived
      exact onTime ⟨j, src, dst, same, op, here, missing, arrived⟩

omit [DecidableEq κ] in
/-- A rename that does not replace changes nothing at its target or below it. -/
theorem Unclaimed.keeps {b : LocalFsBackend} {s : FsPool κ} (inv : s.Unclaimed b) {k : κ}
    {src dst : SmbPath} (op : s.ops k = .rename src dst false) (path : List Text)
    (below : toRelPath dst <+: path) (node : Node Nat) (there : s.fs.node path = some node) :
    (s.behind k).node path = some node := by
  have phase := inv k src dst op
  unfold behind
  generalize s.progs k = prog at phase
  cases phase with
  | before =>
    rcases step_unchecked s.fs src dst with failed | ⟨-, passed⟩
    · rw [failed]
      exact there
    · rw [passed]
      exact there
  | passed missing =>
    -- nothing sits at the target, so nothing sits below it
    obtain ⟨rest, rfl⟩ := below
    rw [Fs.node_eq_none_of_append missing] at there
    cases there
  | finished result => exact there

/-! ### Claiming a target -/

/-- A program that claims `path` for itself: it makes one entry there, where nothing sits, or
fails. The flag tells whether it has made it; only some programs claim with a rename. -/
inductive Claims (path : List Text) (moves : Prop) : Bool → FsProg Text (SmbResult Unit) → Prop where
  | failed (e : SmbError) : Claims path moves false (.done (.error e))
  | finished (result : SmbResult Unit) : Claims path moves true (.done result)
  | looks (claimed : Bool) (c : FsCall Text) (next : Except IoError c.Reply → FsProg Text _)
      (reads : c.mutates = false) (later : ∀ reply, Claims path moves claimed (next reply)) :
      Claims path moves claimed (.call c next)
  | createsDir (next : Except IoError Unit → FsProg Text _)
      (fails : ∀ e, Claims path moves false (next (.error e)))
      (made : Claims path moves true (next (.ok ()))) :
      Claims path moves false (.call (.createDir path) next)
  | createsFile (flags : OpenFlags) (new : flags.createNew = true)
      (next : Except IoError FileDesc → FsProg Text _)
      (fails : ∀ e, Claims path moves false (next (.error e)))
      (made : ∀ fd, Claims path moves true (next (.ok fd))) :
      Claims path moves false (.call (.openWith path flags) next)
  | renames (src dst : SmbPath) (target : toRelPath dst = path) (may : moves) :
      Claims path moves false (checked src dst)

end FsPool

/-- A rename that does not replace, or a CREATE, at a target. -/
def LocalOp.ClaimsTarget (target : List Text) : LocalOp → Prop
  | .rename _ dst replace => toRelPath dst = target ∧ replace = false
  | .open path opts => toRelPath path = target ∧ path.streamName = none ∧ opts.intent = .create
  | .unlink _ => False

namespace FsPool

variable {κ : Type}

theorem claims_rename (b : LocalFsBackend) (src dst : SmbPath) :
    Claims (toRelPath dst) True false ((LocalOp.rename src dst false).prog b) := by
  rcases rename_prog b src dst with ⟨e, failed⟩ | before
  · rw [failed]
    exact .failed e
  · rw [before]
    apply Claims.looks false (.symlinkMetadata (toRelPath dst)) _ rfl
    intro reply
    cases reply with
    | ok there => exact .failed _
    | error e => exact .renames src dst rfl trivial

/-- The last call of a CREATE of a file. -/
theorem claims_createFile (path : SmbPath) (opts : OpenOptions) (creates : opts.intent = .create)
    (result : FileDesc → LocalHandle) :
    Claims (toRelPath path) False false (discard (do
      let file ← ask (.openWith (toRelPath path) (capOptions opts))
      return result file) : LocalProg Unit) := by
  apply Claims.createsFile
  · rw [capOptions, creates]
  · exact fun e => .failed _
  · exact fun fd => .finished _

theorem claims_create (b : LocalFsBackend) (path : SmbPath) (opts : OpenOptions)
    (plain : path.streamName = none) (creates : opts.intent = .create) :
    Claims (toRelPath path) False false ((LocalOp.open path opts).prog b) := by
  simp only [LocalOp.prog, LocalFsBackend.open, plain]
  split
  · exact .failed _
  · split
    · exact .failed _
    · split
      · rw [creates]
        apply Claims.createsDir
        · exact fun e => .failed _
        · apply Claims.looks true (.openDir (toRelPath path)) _ rfl
          intro reply
          cases reply <;> exact .finished _
      · apply Claims.looks false (.metadata (toRelPath path)) _ rfl
        intro reply
        cases reply with
        | error e =>
          cases e with
          | notFound => exact claims_createFile path opts creates _
          | _ => exact .failed _
        | ok isDir =>
          change Bool at isDir
          cases isDir with
          | false => exact claims_createFile path opts creates _
          | true =>
            change Claims _ False false (discard (LocalFsBackend.openExistingDir path opts) :
              LocalProg Unit)
            simp only [LocalFsBackend.openExistingDir, creates]
            -- a directory that is there is not what CREATE asks for
            cases opts.nonDirectory <;> exact .failed _

theorem Claims.mono {path : List Text} {moves moves' : Prop} {claimed : Bool}
    {prog : FsProg Text (SmbResult Unit)} (claims : Claims path moves claimed prog)
    (weaker : moves → moves') : Claims path moves' claimed prog := by
  induction claims with
  | failed e => exact .failed e
  | finished result => exact .finished result
  | looks claimed c next reads later ih => exact .looks claimed c next reads ih
  | createsDir next fails made ihFails ihMade => exact .createsDir next ihFails ihMade
  | createsFile flags new next fails made ihFails ihMade =>
    exact .createsFile flags new next ihFails ihMade
  | renames src dst target may => exact .renames src dst target (weaker may)

/-- The next call of a program that claims `path` makes the entry, or leaves alone what sits
there. -/
theorem Claims.step {path : List Text} {moves : Prop} {claimed : Bool}
    {prog : FsProg Text (SmbResult Unit)} (claims : Claims path moves claimed prog) (fs : Fs Text)
    (free : ∀ src dst, prog = checked src dst → fs.node path = none) :
    (Claims path moves claimed (prog.step fs).1 ∧ (prog.step fs).2.node path = fs.node path) ∨
      (fs.node path = none ∧ Claims path moves true (prog.step fs).1 ∧
        ((prog.step fs).2.node path).isSome) := by
  cases claims with
  | failed e => exact Or.inl ⟨.failed e, rfl⟩
  | finished result => exact Or.inl ⟨.finished result, rfl⟩
  | looks _ c next reads later =>
    left
    refine ⟨later _, ?_⟩
    simp only [FsProg.step, FsCall.exec_of_not_mutates reads]
  | createsDir next fails made =>
    rcases Fs.createDir_cases fs path with ⟨e, failed⟩ | ⟨admits, done⟩
    · left
      simp only [FsProg.step, FsCall.exec, failed]
      exact ⟨fails e, trivial⟩
    · right
      simp only [FsProg.step, FsCall.exec, done]
      refine ⟨admits.missing, made, ?_⟩
      rw [Fs.node_addDir admits, if_pos rfl]
      rfl
  | createsFile flags new next fails made =>
    rcases Fs.openWith_cases fs path flags with ⟨e, failed⟩ | ⟨fd, fs', done, opened⟩
    · left
      simp only [FsProg.step, FsCall.exec, failed]
      exact ⟨fails e, trivial⟩
    -- the flags ask for a new file, so an old one is not opened
    · cases opened with
      | created creates admits =>
        right
        simp only [FsProg.step, FsCall.exec, done]
        refine ⟨admits.missing, made _, ?_⟩
        rw [Fs.node_addFile admits, if_pos rfl]
        rfl
      | dir id there old | file id there old | emptied id there old =>
        rw [new] at old
        cases old
  | renames src dst target may =>
    -- the rename has checked its target, which is free still
    subst target
    have missing := free src dst rfl
    rw [step_checked]
    rcases Fs.rename_cases fs (toRelPath src) (toRelPath dst) with ⟨e, failed⟩ |
      ⟨same, there, -⟩ | ⟨node, there, -, movable, done⟩
    · left
      rw [failed]
      exact ⟨.failed _, rfl⟩
    · rw [same, missing] at there
      cases there
    · right
      rw [done]
      refine ⟨missing, .finished _, ?_⟩
      rw [Fs.node_move movable, if_pos (List.prefix_refl _), List.drop_length, List.append_nil,
        there]
      rfl

/-! ### One claim -/

/-- Whoever has claimed the target is alone with it. -/
structure Claimed (target : List Text) (s : FsPool κ) (claimed : κ → Bool) : Prop where
  progs : ∀ k, Claims target (∃ src dst, s.ops k = .rename src dst false) (claimed k) (s.progs k)
  there : ∀ k, claimed k = true → (s.fs.node target).isSome
  alone : ∀ i j, claimed i = true → claimed j = true → i = j

theorem claimed_start (b : LocalFsBackend) (fs : Fs Text) (ops : κ → LocalOp) (target : List Text)
    (all : ∀ k, (ops k).ClaimsTarget target) :
    (start b fs ops).Claimed target fun _ => false where
  progs := by
    intro k
    have claim := all k
    change Claims target (∃ src dst, ops k = .rename src dst false) false ((ops k).prog b)
    -- nobody has called anything yet; each operation means to claim, or fails
    cases op : ops k with
    | unlink path =>
      rw [op] at claim
      exact absurd claim id
    | rename src dst replace =>
      rw [op] at claim
      obtain ⟨rfl, rfl⟩ := claim
      exact (claims_rename b src dst).mono fun _ => ⟨src, dst, rfl⟩
    | «open» path opts =>
      rw [op] at claim
      obtain ⟨rfl, plain, creates⟩ := claim
      exact (claims_create b path opts plain creates).mono False.elim
  there := fun _ claimed => by cases claimed
  alone := fun _ _ claimed => by cases claimed

theorem Claimed.of_succeeded {target : List Text} {s : FsPool κ} {claimed : κ → Bool}
    (inv : s.Claimed target claimed) {k : κ} (succeeded : s.Succeeded k) : claimed k = true := by
  have claims := inv.progs k
  unfold Succeeded at succeeded
  generalize s.progs k = prog at claims succeeded
  generalize claimed k = flag at claims ⊢
  cases claims with
  | failed => cases succeeded
  | finished => rfl
  | looks | createsDir | createsFile => cases succeeded
  | renames => cases succeeded

variable [DecidableEq κ]

/-- A program that renames next is allowed to. -/
theorem Claims.may {path : List Text} {moves : Prop} {claimed : Bool} {src dst : SmbPath}
    (claims : Claims path moves claimed (checked src dst)) : moves := by
  generalize here : checked src dst = prog at claims
  cases claims with
  | failed | finished => cases here
  | createsDir | createsFile => cases here
  | looks _ c next reads later =>
    cases here
    cases reads
  | renames _ _ _ may => exact may

theorem Phase.missing {b : LocalFsBackend} {fs : Fs Text} {src dst src' dst' : SmbPath}
    (phase : Phase b fs src dst (checked src' dst')) : fs.node (toRelPath dst) = none := by
  generalize here : checked src' dst' = prog at phase
  cases phase with
  | before => cases here
  | passed missing => exact missing
  | finished => cases here

theorem Claimed.advance {b : LocalFsBackend} {target : List Text} {s : FsPool κ}
    {claimed : κ → Bool} (inv : s.Claimed target claimed)
    (all : ∀ k, (s.ops k).ClaimsTarget target) (unclaimed : s.Unclaimed b) (k : κ) :
    ∃ claimed', (s.advance k).Claimed target claimed' := by
  -- a rename behind its check finds what it has checked
  have free : ∀ src dst, s.progs k = checked src dst → s.fs.node target = none := by
    intro src dst here
    have claims := inv.progs k
    rw [here] at claims
    obtain ⟨src', dst', op⟩ := claims.may
    have claim := all k
    rw [op] at claim
    have phase := unclaimed k src' dst' op
    rw [here] at phase
    rw [← claim.1]
    exact phase.missing
  rcases (inv.progs k).step s.fs free with ⟨goesOn, kept⟩ | ⟨missing, made, there⟩
  · refine ⟨claimed, ?_, ?_, inv.alone⟩
    · intro j
      by_cases same : j = k
      · subst same
        simp only [FsPool.advance, Function.update_self]
        exact goesOn
      · simp only [FsPool.advance, Function.update_of_ne same]
        exact inv.progs j
    · intro j already
      simp only [FsPool.advance, behind, kept]
      exact inv.there j already
  · -- nobody has claimed the target before
    have none : ∀ j, claimed j = false := by
      intro j
      cases already : claimed j with
      | false => rfl
      | true =>
        have sits := inv.there j already
        rw [missing] at sits
        cases sits
    refine ⟨Function.update claimed k true, ?_, ?_, ?_⟩
    · intro j
      by_cases same : j = k
      · subst same
        simp only [FsPool.advance, Function.update_self]
        exact made
      · simp only [FsPool.advance, Function.update_of_ne same]
        exact inv.progs j
    · exact fun _ _ => there
    · have only : ∀ j, Function.update claimed k true j = true → j = k := by
        intro j already
        by_contra other
        rw [Function.update_of_ne other, none j] at already
        cases already
      exact fun i j first second => (only i first).trans (only j second).symm

end FsPool

/-! ### Every run -/

open FsPool in
/-- While nothing is put at the target of a rename that has passed its check, a rename that does
not replace leaves its target alone, and one operation at most gets a target for itself. -/
theorem nonReplacing {κ : Type} [DecidableEq κ] (b : LocalFsBackend) (fs : Fs Text)
    (ops : κ → LocalOp) (s : FsPool κ)
    (run : Reaches FsPool.Next (fun s k => ¬s.LateEntry k) (FsPool.start b fs ops) s) :
    (∀ k src dst, ops k = .rename src dst false → ∀ path node, toRelPath dst <+: path →
      s.fs.node path = some node → (s.behind k).node path = some node) ∧
    ∀ target, (∀ k, (ops k).ClaimsTarget target) →
      ∀ i j, s.Succeeded i → s.Succeeded j → i = j := by
  have invariant : s.ops = ops ∧ s.Unclaimed b := by
    apply run.invariant (fun s => s.ops = ops ∧ s.Unclaimed b)
    · rintro s k t ⟨same, inv⟩ onTime rfl
      exact ⟨same, inv.advance k onTime⟩
    · exact ⟨rfl, unclaimed_start b fs ops⟩
  obtain ⟨same, unclaimed⟩ := invariant
  constructor
  · intro k src dst op path node below there
    rw [← same] at op
    exact unclaimed.keeps op path below node there
  · intro target all i j first second
    -- who has claimed the target is carried along the run
    have claims : s.ops = ops ∧ s.Unclaimed b ∧ ∃ claimed, s.Claimed target claimed := by
      apply run.invariant (fun s => s.ops = ops ∧ s.Unclaimed b ∧ ∃ claimed, s.Claimed target claimed)
      · rintro s k t ⟨same, unclaimed, claimed, inv⟩ onTime rfl
        refine ⟨same, unclaimed.advance k onTime, inv.advance ?_ unclaimed k⟩
        rw [same]
        exact all
      · exact ⟨rfl, unclaimed_start b fs ops, _, claimed_start b fs ops target all⟩
    obtain ⟨-, -, claimed, inv⟩ := claims
    exact inv.alone i j (inv.of_succeeded first) (inv.of_succeeded second)

/-! ### Two renames to one target -/

namespace Sample

/-- A share with two files. -/
def twoFiles : Fs Text where
  tree := .dir 0 [(['a'], .file 0), (['b'], .file 1)]
  contents := fun _ => []
  nextFile := 2
  nextDir := 1

/-- Each file is renamed to `t`. -/
def renames (second : Bool) : LocalOp :=
  .rename ⟨[if second then ['b'] else ['a']], none⟩ ⟨[['t']], none⟩ false

def renamePool : FsPool Bool := FsPool.start ⟨false⟩ twoFiles renames

end Sample

/-- One after the other: the second is refused. -/
theorem nonReplacing_inTurn :
    ¬((((Sample.renamePool.advance false).advance false).advance true).Succeeded false ∧
      (((Sample.renamePool.advance false).advance false).advance true).Succeeded true) := by
  -- the check and the move of the first rename, then the check of the second
  have first : Reaches FsPool.Next (fun s k => ¬s.LateEntry k) Sample.renamePool
      (Sample.renamePool.advance false) := by
    refine (Reaches.refl _).tail ?_ rfl
    rintro ⟨j, src, dst, other, -, here, -⟩
    cases j <;> cases here
  have second := first.tail (a := false) (u := (Sample.renamePool.advance false).advance false) (by
    rintro ⟨j, src, dst, other, -, here, -⟩
    cases j with
    | false => exact other rfl
    | true => cases here) rfl
  have third := second.tail (a := true) (by
    rintro ⟨j, src, dst, other, -, here, -⟩
    cases j with
    | false => cases here
    | true => exact other rfl) rfl
  rintro ⟨both, both'⟩
  have sole := (nonReplacing ⟨false⟩ Sample.twoFiles Sample.renames _ third).2 [['t']] (by
    intro k
    cases k <;> exact ⟨rfl, rfl⟩)
  cases sole false true both both'

/-- Both check, then both rename: the second replaces what the first has put there. -/
theorem renames_replace :
    ¬∀ (b : LocalFsBackend) (fs : Fs Text) (ops : Bool → LocalOp) (s : FsPool Bool),
      Reachable FsPool.Next (FsPool.start b fs ops) s →
        (∀ k src dst, ops k = .rename src dst false → ∀ path node, toRelPath dst <+: path →
          s.fs.node path = some node → (s.behind k).node path = some node) ∧
        ∀ target, (∀ k, (ops k).ClaimsTarget target) →
          ∀ i j, s.Succeeded i → s.Succeeded j → i = j := by
  intro safe
  have run : Reachable FsPool.Next Sample.renamePool
      ((((Sample.renamePool.advance false).advance true).advance false).advance true) :=
    ((((Reaches.refl _).tail trivial rfl).tail trivial rfl).tail trivial rfl).tail trivial rfl
  have sole := (safe ⟨false⟩ Sample.twoFiles Sample.renames _ run).2 [['t']] (by
    intro k
    cases k <;> exact ⟨rfl, rfl⟩)
  cases sole false true (by decide +kernel) (by decide +kernel)

end SmbServer
