import SmbServer.Lib.PosixLaws

/-!
# SmbServer.Lib.PosixTwin

Two file systems side by side that are alike but for one entry of their roots. A call on paths
beside that entry replies the same on both and leaves them alike. Directories are told apart by
their paths only: one of the two may have handed out more identities.
-/

namespace Lib

/-- A directory without its identity. -/
def Node.forget : Node Nat → Node Nat
  | .file id => .file id
  | .dir _ => .dir 0

/-- The directory of a descriptor, without its identity. -/
def FileDesc.forget (fd : FileDesc) : FileDesc := { fd with node := fd.node.forget }

/-- The path is not at the entry of the root, nor below it. -/
def Beside {ν : Type} (name : ν) (path : List ν) : Prop := path.head? ≠ some name

namespace Beside

variable {ν : Type} {name : ν} {path q rest : List ν}

theorem of_prefix (beside : Beside name path) (way : q <+: path) : Beside name q := by
  obtain ⟨rest, rfl⟩ := way
  intro first
  cases q with
  | nil => cases first
  | cons n q => exact beside first

theorem append (beside : Beside name path) (proper : path ≠ []) : Beside name (path ++ rest) := by
  cases path with
  | nil => exact absurd rfl proper
  | cons n path => exact beside

theorem not_prefix (beside : Beside name path) (proper : path ≠ []) :
    ¬path <+: name :: rest := by
  intro way
  cases path with
  | nil => exact proper rfl
  | cons n path =>
    obtain ⟨rfl, -⟩ := List.cons_prefix_cons.mp way
    exact beside rfl

end Beside

namespace Fs

variable {ν : Type} [DecidableEq ν] {name : ν} {fs fs' : Fs ν} {path src dst q : List ν}

/-- Alike at every path beside the entry of the root, and with the same files. -/
structure AlikeBut (name : ν) (fs fs' : Fs ν) : Prop where
  node : ∀ q, Beside name q → (fs.node q).map Node.forget = (fs'.node q).map Node.forget
  contents : fs.contents = fs'.contents
  nextFile : fs.nextFile = fs'.nextFile

namespace AlikeBut

theorem refl (fs : Fs ν) : AlikeBut name fs fs := ⟨fun _ _ => rfl, rfl, rfl⟩

/-- Nothing sits at either, the same file, or a directory at both. -/
theorem cases (alike : AlikeBut name fs fs') (beside : Beside name q) :
    (fs.node q = none ∧ fs'.node q = none) ∨
      (∃ id, fs.node q = some (.file id) ∧ fs'.node q = some (.file id)) ∨
      ∃ id id', fs.node q = some (.dir id) ∧ fs'.node q = some (.dir id') := by
  have same := alike.node q beside
  cases here : fs.node q with
  | none =>
    rw [here] at same
    exact .inl ⟨rfl, Option.map_eq_none_iff.mp same.symm⟩
  | some node =>
    rw [here] at same
    obtain ⟨node', there, forgotten⟩ := Option.map_eq_some_iff.mp same.symm
    cases node with
    | file id =>
      cases node' with
      | file id' =>
        cases forgotten
        exact .inr (.inl ⟨id, rfl, there⟩)
      | dir id' => cases forgotten
    | dir id =>
      cases node' with
      | file id' => cases forgotten
      | dir id' => exact .inr (.inr ⟨id, id', rfl, there⟩)

theorem symm (alike : AlikeBut name fs fs') : AlikeBut name fs' fs :=
  ⟨fun q beside => (alike.node q beside).symm, alike.contents.symm, alike.nextFile.symm⟩

theorem missing (alike : AlikeBut name fs fs') (beside : Beside name q) (none : fs.node q = none) :
    fs'.node q = .none := by
  have same := alike.node q beside
  rw [none] at same
  exact Option.map_eq_none_iff.mp same.symm

theorem isSome (alike : AlikeBut name fs fs') (beside : Beside name q)
    (there : (fs.node q).isSome) : (fs'.node q).isSome := by
  by_contra none
  rw [Option.not_isSome_iff_eq_none] at none
  rw [alike.symm.missing beside none] at there
  cases there

theorem file (alike : AlikeBut name fs fs') (beside : Beside name q) {id : Nat}
    (there : fs.node q = some (.file id)) : fs'.node q = some (.file id) := by
  rcases alike.cases beside with ⟨here, -⟩ | ⟨id', here, there'⟩ | ⟨id', -, here, -⟩
  · rw [there] at here
    cases here
  · rw [there] at here
    cases here
    exact there'
  · rw [there] at here
    cases here

theorem dir (alike : AlikeBut name fs fs') (beside : Beside name q)
    (there : ∃ id, fs.node q = some (.dir id)) : ∃ id, fs'.node q = some (.dir id) := by
  obtain ⟨id, there⟩ := there
  rcases alike.cases beside with ⟨here, -⟩ | ⟨id', here, -⟩ | ⟨-, id', -, there'⟩
  · rw [there] at here
    cases here
  · rw [there] at here
    cases here
  · exact ⟨id', there'⟩

/-! ### Resolution -/

/-- The same error, the same file, or a directory. -/
theorem find (alike : AlikeBut name fs fs') (beside : Beside name path) :
    (∃ e, fs.find path = .error e ∧ fs'.find path = .error e) ∨
      (∃ id, fs.find path = .ok (.file id) ∧ fs'.find path = .ok (.file id)) ∨
      ∃ id id', fs.find path = .ok (.dir id) ∧ fs'.find path = .ok (.dir id') := by
  -- on the way there are the same files
  have half {fs fs' : Fs ν} (alike : AlikeBut name fs fs')
      (blocked : (path.inits.any fun q => (fs.node q).any fun node => !node.isDir) = true) :
      (path.inits.any fun q => (fs'.node q).any fun node => !node.isDir) = true := by
    obtain ⟨q, above, isFile⟩ := List.any_eq_true.mp blocked
    apply List.any_eq_true.mpr
    refine ⟨q, above, ?_⟩
    rcases alike.cases (beside.of_prefix ((List.mem_inits _ _).mp above)) with
      ⟨here, -⟩ | ⟨id, here, there⟩ | ⟨id, -, here, -⟩
    · rw [here] at isFile
      cases isFile
    · rw [there]
      rfl
    · rw [here] at isFile
      cases isFile
  have way := Bool.eq_iff_iff.mpr ⟨half alike, half alike.symm⟩
  rcases alike.cases beside with ⟨here, there⟩ | ⟨id, here, there⟩ | ⟨id, id', here, there⟩
  · left
    simp only [Fs.find, here, there, way]
    split
    · exact ⟨_, rfl, rfl⟩
    · exact ⟨_, rfl, rfl⟩
  · exact .inr (.inl ⟨id, find_eq_ok.mpr here, find_eq_ok.mpr there⟩)
  · exact .inr (.inr ⟨id, id', find_eq_ok.mpr here, find_eq_ok.mpr there⟩)

theorem parent (alike : AlikeBut name fs fs') (beside : Beside name path) :
    fs.parent path = fs'.parent path := by
  unfold Fs.parent
  rcases alike.find (beside.of_prefix (List.dropLast_prefix path)) with
    ⟨e, here, there⟩ | ⟨id, here, there⟩ | ⟨id, id', here, there⟩
  · rw [here, there]
  · rw [here, there]
  · rw [here, there]

theorem isEmptyDir (alike : AlikeBut name fs fs') (beside : Beside name path)
    (proper : path ≠ []) : fs.isEmptyDir path = fs'.isEmptyDir path := by
  have half {fs fs' : Fs ν} (alike : AlikeBut name fs fs') (empty : fs.isEmptyDir path = true) :
      fs'.isEmptyDir path = true := by
    obtain ⟨there, names⟩ := isEmptyDir_iff.mp empty
    exact isEmptyDir_iff.mpr ⟨alike.dir beside there,
      fun n => alike.missing (beside.append proper) (names n)⟩
  rw [Bool.eq_iff_iff]
  exact ⟨half alike, half alike.symm⟩

theorem isDir (alike : AlikeBut name fs fs') (beside : Beside name path) :
    fs.isDir path = fs'.isDir path := by
  unfold Fs.isDir
  rcases alike.cases beside with ⟨here, there⟩ | ⟨id, here, there⟩ | ⟨id, id', here, there⟩
  · rw [here, there]
  · rw [here, there]
  · rw [here, there]
    rfl

theorem admits (alike : AlikeBut name fs fs') (beside : Beside name path)
    (admits : fs.Admits path) : fs'.Admits path :=
  ⟨alike.dir (beside.of_prefix (List.dropLast_prefix path)) admits.parent,
    alike.missing beside admits.missing⟩

theorem movable (alike : AlikeBut name fs fs') (besideSrc : Beside name src)
    (besideDst : Beside name dst) (movable : fs.Movable src dst) : fs'.Movable src dst where
  properSrc := movable.properSrc
  properDst := movable.properDst
  there := alike.isSome besideSrc movable.there
  parent := alike.dir (besideDst.of_prefix (List.dropLast_prefix dst)) movable.parent
  notBelow := movable.notBelow
  notAbove := movable.notAbove

/-! ### Edits -/

theorem setContents (alike : AlikeBut name fs fs') (id : Nat) (bytes : Bytes) :
    AlikeBut name (fs.setContents id bytes) (fs'.setContents id bytes) :=
  ⟨alike.node, by simp only [Fs.setContents, alike.contents], alike.nextFile⟩

theorem addDir (alike : AlikeBut name fs fs') (beside : Beside name path)
    (admits : fs.Admits path) : AlikeBut name (fs.addDir path) (fs'.addDir path) := by
  constructor
  · intro q besideQ
    rw [node_addDir admits, node_addDir (alike.admits beside admits)]
    split
    · rfl
    · exact alike.node q besideQ
  · exact alike.contents
  · exact alike.nextFile

theorem addFile (alike : AlikeBut name fs fs') (beside : Beside name path)
    (admits : fs.Admits path) : AlikeBut name (fs.addFile path) (fs'.addFile path) := by
  constructor
  · intro q besideQ
    rw [node_addFile admits, node_addFile (alike.admits beside admits), alike.nextFile]
    split
    · rfl
    · exact alike.node q besideQ
  · simp only [Fs.addFile, alike.contents, alike.nextFile]
  · exact congrArg (· + 1) alike.nextFile

theorem removeEntry (alike : AlikeBut name fs fs') (beside : Beside name path)
    (proper : path ≠ []) (there : (fs.node path).isSome) :
    AlikeBut name (fs.removeEntry path) (fs'.removeEntry path) := by
  constructor
  · intro q besideQ
    rw [node_removeEntry proper there, node_removeEntry proper (alike.isSome beside there)]
    split
    · rfl
    · exact alike.node q besideQ
  · exact alike.contents
  · exact alike.nextFile

theorem move (alike : AlikeBut name fs fs') (besideSrc : Beside name src)
    (besideDst : Beside name dst) (movable : fs.Movable src dst) :
    AlikeBut name (fs.move src dst) (fs'.move src dst) := by
  constructor
  · intro q besideQ
    rw [node_move movable, node_move (alike.movable besideSrc besideDst movable)]
    split
    · exact alike.node _ (besideSrc.append movable.properSrc)
    · split
      · rfl
      · exact alike.node q besideQ
  · exact alike.contents
  · exact alike.nextFile

/-- What only one of them has below the entry. -/
theorem below (alike : AlikeBut name fs fs') {fs'' : Fs ν}
    (same : ∀ q, Beside name q → fs''.node q = fs.node q) (contents : fs''.contents = fs.contents)
    (nextFile : fs''.nextFile = fs.nextFile) : AlikeBut name fs'' fs' :=
  ⟨fun q beside => (congrArg _ (same q beside)).trans (alike.node q beside),
    contents.trans alike.contents, nextFile.trans alike.nextFile⟩

/-! ### Calls -/

/-- The same reply, and alike afterwards. -/
def Answers (name : ν) {ε α β : Type} (forget : α → β) (r r' : Except ε α × Fs ν) : Prop :=
  r.1.map forget = r'.1.map forget ∧ AlikeBut name r.2 r'.2

theorem createDir (alike : AlikeBut name fs fs') (beside : Beside name path) :
    Answers name id (fs.createDir path) (fs'.createDir path) := by
  unfold Fs.createDir
  rw [← alike.parent beside]
  cases above : fs.parent path with
  | error e => exact ⟨rfl, alike⟩
  | ok =>
    rcases alike.cases beside with ⟨here, there⟩ | ⟨id, here, there⟩ | ⟨id, id', here, there⟩
    · rw [here, there]
      exact ⟨rfl, alike.addDir beside ⟨parent_eq_ok.mp above, here⟩⟩
    · rw [here, there]
      exact ⟨rfl, alike⟩
    · rw [here, there]
      exact ⟨rfl, alike⟩

/-- By cases on a reply that both give. -/
theorem Answers.elim {ε α : Type} {r r' : Except ε α × Fs ν} (answers : Answers name id r r') :
    ∃ reply fs fs', r = (reply, fs) ∧ r' = (reply, fs') ∧ AlikeBut name fs fs' := by
  obtain ⟨same, alike⟩ := answers
  rw [Except.map_id, id_eq, id_eq] at same
  exact ⟨r.1, r.2, r'.2, rfl, Prod.ext same.symm rfl, alike⟩

/-- The directory itself, and where its parent is missing, the parents and then again. -/
theorem createDirAllRev (alike : AlikeBut name fs fs') {path : List ν}
    (beside : Beside name path.reverse) :
    Answers name id (fs.createDirAllRev path) (fs'.createDirAllRev path) := by
  induction path generalizing fs fs' with
  | nil => exact ⟨rfl, alike⟩
  | cons n above ih =>
    have up : Beside name above.reverse := beside.of_prefix (by simp)
    -- what is there may be a directory already
    have failed {fs fs' : Fs ν} (alike : AlikeBut name fs fs') (e : IoError) :
        Answers name id
          (if fs.isDir (n :: above).reverse then (.ok (), fs) else (.error e, fs))
          (if fs'.isDir (n :: above).reverse then (.ok (), fs') else (.error e, fs')) := by
      rw [← alike.isDir beside]
      split
      · exact ⟨rfl, alike⟩
      · exact ⟨rfl, alike⟩
    unfold Fs.createDirAllRev
    obtain ⟨first, fs₁, fs₁', here, there, after⟩ := (alike.createDir beside).elim
    simp only [here, there]
    cases first with
    | ok => exact ⟨rfl, after⟩
    | error e =>
      by_cases missing : e = .notFound
      · subst missing
        dsimp only
        obtain ⟨behind, fs₂, fs₂', here, there, after⟩ := (ih alike up).elim
        rw [here, there]
        cases behind with
        | error e => exact ⟨rfl, after⟩
        | ok =>
          dsimp only
          obtain ⟨again, fs₃, fs₃', here, there, after⟩ := (after.createDir beside).elim
          simp only [here, there]
          cases again with
          | ok => exact ⟨rfl, after⟩
          | error e => exact failed after e
      · cases e with
        | notFound => exact absurd rfl missing
        | _ => exact failed alike _

theorem openDir (alike : AlikeBut name fs fs') (beside : Beside name path) :
    (fs.openDir path).map (fun _ => 0) = (fs'.openDir path).map fun _ => 0 := by
  unfold Fs.openDir
  rcases alike.find beside with ⟨e, here, there⟩ | ⟨id, here, there⟩ | ⟨id, id', here, there⟩
  · rw [here, there]
  · rw [here, there]
  · rw [here, there]
    rfl

omit [DecidableEq ν] in
theorem openFound (id id' : Nat) (flags : OpenFlags) :
    (Fs.openFound id flags).map FileDesc.forget = (Fs.openFound id' flags).map FileDesc.forget := by
  unfold Fs.openFound
  split
  · rfl
  split
  · rfl
  · rfl

theorem openWith (alike : AlikeBut name fs fs') (beside : Beside name path) (flags : OpenFlags) :
    Answers name FileDesc.forget (fs.openWith path flags) (fs'.openWith path flags) := by
  unfold Fs.openWith
  rw [← alike.parent beside]
  cases above : fs.parent path with
  | error e => exact ⟨rfl, alike⟩
  | ok =>
    rcases alike.cases beside with ⟨here, there⟩ | ⟨id, here, there⟩ | ⟨id, id', here, there⟩
    · rw [here, there, ← alike.nextFile]
      dsimp only
      split
      · exact ⟨rfl, alike.addFile beside ⟨parent_eq_ok.mp above, here⟩⟩
      · exact ⟨rfl, alike⟩
    · rw [here, there]
      dsimp only
      split
      · exact ⟨rfl, alike⟩
      split
      · exact ⟨rfl, alike.setContents id []⟩
      · exact ⟨rfl, alike⟩
    · rw [here, there]
      exact ⟨openFound id id' flags, alike⟩

theorem openDots (alike : AlikeBut name fs fs') (beside : Beside name path) (up : Bool)
    (flags : OpenFlags) :
    (fs.openDots path up flags).map FileDesc.forget =
      (fs'.openDots path up flags).map FileDesc.forget := by
  have found {q : List ν} (beside : Beside name q) :
      (∃ e, fs.openDir q = .error e ∧ fs'.openDir q = .error e) ∨
        ∃ id id', fs.openDir q = .ok id ∧ fs'.openDir q = .ok id' := by
    unfold Fs.openDir
    rcases alike.find beside with ⟨e, here, there⟩ | ⟨id, here, there⟩ | ⟨id, id', here, there⟩
    · rw [here, there]
      exact .inl ⟨_, rfl, rfl⟩
    · rw [here, there]
      exact .inl ⟨_, rfl, rfl⟩
    · rw [here, there]
      exact .inr ⟨_, _, rfl, rfl⟩
  unfold Fs.openDots
  rcases found beside with ⟨e, here, there⟩ | ⟨id, id', here, there⟩
  · rw [here, there]
  · rw [here, there]
    cases up with
    | false => exact openFound id id' flags
    | true =>
      rcases found (beside.of_prefix (List.dropLast_prefix path)) with
        ⟨e, here, there⟩ | ⟨id, id', here, there⟩
      · simp only [here, there, if_true]
      · simp only [here, there, if_true]
        exact openFound id id' flags

theorem removeFile (alike : AlikeBut name fs fs') (beside : Beside name path) :
    Answers name id (fs.removeFile path) (fs'.removeFile path) := by
  unfold Fs.removeFile
  rcases alike.find beside with ⟨e, here, there⟩ | ⟨id, here, there⟩ | ⟨id, id', here, there⟩
  · rw [here, there]
    exact ⟨rfl, alike⟩
  · rw [here, there]
    dsimp only
    split
    · exact ⟨rfl, alike⟩
    next proper =>
      have found : (fs.node path).isSome := by
        rw [find_eq_ok.mp here]
        rfl
      exact ⟨rfl, alike.removeEntry beside proper found⟩
  · rw [here, there]
    exact ⟨rfl, alike⟩

theorem removeDir (alike : AlikeBut name fs fs') (beside : Beside name path) :
    Answers name id (fs.removeDir path) (fs'.removeDir path) := by
  unfold Fs.removeDir
  rcases alike.find beside with ⟨e, here, there⟩ | ⟨id, here, there⟩ | ⟨id, id', here, there⟩
  · rw [here, there]
    exact ⟨rfl, alike⟩
  · rw [here, there]
    exact ⟨rfl, alike⟩
  · rw [here, there]
    dsimp only
    split
    · exact ⟨rfl, alike⟩
    next proper =>
      rw [← alike.isEmptyDir beside proper]
      split
      · have found : (fs.node path).isSome := by
          rw [find_eq_ok.mp here]
          rfl
        exact ⟨rfl, alike.removeEntry beside proper found⟩
      · exact ⟨rfl, alike⟩

theorem replaceable (alike : AlikeBut name fs fs') (beside : Beside name dst) (proper : dst ≠ [])
    {node node' : Node Nat} (same : node.forget = node'.forget) :
    fs.replaceable node dst = fs'.replaceable node' dst := by
  unfold Fs.replaceable
  rw [← alike.isEmptyDir beside proper]
  cases node with
  | file a =>
    cases node' with
    | dir b => cases same
    | file b =>
      rcases alike.cases beside with ⟨here, there⟩ | ⟨id, here, there⟩ | ⟨id, id', here, there⟩
      · rw [here, there]
      · rw [here, there]
      · rw [here, there]
  | dir a =>
    cases node' with
    | file b => cases same
    | dir b =>
      rcases alike.cases beside with ⟨here, there⟩ | ⟨id, here, there⟩ | ⟨id, id', here, there⟩
      · rw [here, there]
      · rw [here, there]
      · rw [here, there]

theorem rename (alike : AlikeBut name fs fs') (besideSrc : Beside name src)
    (besideDst : Beside name dst) :
    Answers name id (fs.rename src dst) (fs'.rename src dst) := by
  unfold Fs.rename
  rw [← alike.parent besideSrc, ← alike.parent besideDst]
  split
  · exact ⟨rfl, alike⟩
  next proper =>
    rw [not_or] at proper
    cases aboveSrc : fs.parent src with
    | error e => exact ⟨rfl, alike⟩
    | ok =>
      cases aboveDst : fs.parent dst with
      | error e => exact ⟨rfl, alike⟩
      | ok =>
        cases here : fs.node src with
        | none =>
          rw [alike.missing besideSrc here]
          exact ⟨rfl, alike⟩
        | some node =>
          have same := alike.node src besideSrc
          rw [here] at same
          obtain ⟨node', there, same⟩ := Option.map_eq_some_iff.mp same.symm
          rw [there]
          dsimp only
          rw [← alike.replaceable besideDst proper.2 same.symm]
          -- the checks in their order; each of them is an error of its own
          split
          · exact ⟨rfl, alike⟩
          split
          · exact ⟨rfl, alike⟩
          next notBelow =>
          split
          · exact ⟨rfl, alike⟩
          next notAbove =>
          split
          · exact ⟨rfl, alike⟩
          · have movable : fs.Movable src dst := ⟨proper.1, proper.2, by rw [here]; rfl,
              parent_eq_ok.mp aboveDst, notBelow, notAbove⟩
            exact ⟨rfl, alike.move besideSrc besideDst movable⟩

end AlikeBut

end Fs

namespace FsCall

variable {ν : Type}

/-- A reply, with directories that have lost their identities. -/
def forget : (c : FsCall ν) → c.Reply → c.Reply
  | .openDir _, _ => (0 : Nat)
  | .openWith .., fd | .openDots .., fd => FileDesc.forget fd
  | .metadata _, reply | .symlinkMetadata _, reply | .exists _, reply | .createDir _, reply
  | .createDirAll _, reply | .removeFile _, reply | .removeDir _, reply | .rename .., reply => reply

variable [DecidableEq ν] {name : ν} {fs fs' : Fs ν}

/-- A call beside the entry tells nothing about it. -/
theorem exec_alike (alike : fs.AlikeBut name fs') (c : FsCall ν)
    (beside : ∀ path ∈ c.paths, Beside name path) :
    Fs.AlikeBut.Answers name c.forget (c.exec fs) (c.exec fs') := by
  have stat {path : List ν} (beside : Beside name path) :
      (fs.find path).map Node.isDir = (fs'.find path).map Node.isDir := by
    rcases alike.find beside with ⟨e, here, there⟩ | ⟨id, here, there⟩ | ⟨id, id', here, there⟩
    · rw [here, there]
    · rw [here, there]
    · rw [here, there]
      rfl
  cases c with
  | metadata path => exact ⟨congrArg (Except.map id) (stat (beside path (by simp [paths]))), alike⟩
  | symlinkMetadata path =>
    exact ⟨congrArg (Except.map id) (stat (beside path (by simp [paths]))), alike⟩
  | «exists» path =>
    have same : (fs.node path).isSome = (fs'.node path).isSome := by
      rcases alike.cases (beside path (by simp [paths])) with
        ⟨here, there⟩ | ⟨id, here, there⟩ | ⟨id, id', here, there⟩
      · rw [here, there]
      · rw [here, there]
      · rw [here, there]
        rfl
    exact ⟨congrArg (fun found => Except.ok found) same, alike⟩
  | createDir path => exact alike.createDir (beside path (by simp [paths]))
  | createDirAll path =>
    apply alike.createDirAllRev
    rw [List.reverse_reverse]
    exact beside path (by simp [paths])
  | openDir path => exact ⟨alike.openDir (beside path (by simp [paths])), alike⟩
  | openWith path flags => exact alike.openWith (beside path (by simp [paths])) flags
  | openDots path up flags => exact ⟨alike.openDots (beside path (by simp [paths])) up flags, alike⟩
  | removeFile path => exact alike.removeFile (beside path (by simp [paths]))
  | removeDir path => exact alike.removeDir (beside path (by simp [paths]))
  | rename src dst =>
    exact alike.rename (beside src (by simp [paths])) (beside dst (by simp [paths]))

end FsCall

end Lib
