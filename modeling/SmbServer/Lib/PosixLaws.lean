import SmbServer.Lib.Posix

/-!
# SmbServer.Lib.PosixLaws

What sits where after an edit of the file system, and for each call the cases of what it does.
-/

namespace Lib

namespace Fs

variable {ν : Type} [DecidableEq ν] {fs : Fs ν} {path rest src dst q : List ν}

/-! ### Contents -/

theorem length_overwrite_le (bytes : Bytes) (offset : Nat) (data : Bytes) :
    (overwrite bytes offset data).length ≤ max bytes.length (offset + data.length) := by
  unfold overwrite
  split
  · omega
  · simp only [List.length_append, List.length_take, List.length_replicate, List.length_drop]
    omega

theorem getD_overwrite_of_outside {bytes data : Bytes} {offset i : Nat}
    (outside : i < offset ∨ offset + data.length ≤ i) :
    (overwrite bytes offset data).getD i 0 = bytes.getD i 0 := by
  unfold overwrite
  split
  · rfl
  -- the part in front of the data is as long as the offset, filled up with zeros
  · have front :
        (bytes.take offset ++ List.replicate (offset - bytes.length) 0).length = offset := by
      simp only [List.length_append, List.length_take, List.length_replicate]
      omega
    rw [List.append_assoc, List.getD_eq_getElem?_getD, List.getD_eq_getElem?_getD]
    rcases outside with before | behind
    · rw [List.getElem?_append_left (by omega)]
      by_cases inside : i < bytes.length
      · rw [List.getElem?_append_left (by simp; omega), List.getElem?_take_of_lt before]
      · rw [List.getElem?_append_right (by simp; omega), List.getElem?_replicate,
          List.getElem?_eq_none (by omega)]
        split <;> rfl
    · rw [List.getElem?_append_right (by omega), List.getElem?_append_right (by omega), front,
        List.getElem?_drop]
      congr 2
      omega

omit [DecidableEq ν] in
/-- A write fails and changes nothing, or puts all of the data in the file. -/
theorem writeAt_cases (fs : Fs ν) (fd : FileDesc) (offset : Nat) (data : Bytes) :
    (∃ e, fs.writeAt fd offset data = (.error e, fs)) ∨
      ∃ id, fd.node = .file id ∧ fs.writeAt fd offset data =
        (.ok data.length, fs.setContents id (overwrite (fs.contents id) offset data)) := by
  unfold writeAt
  split
  · exact .inl ⟨_, rfl⟩
  · split
    · exact .inl ⟨_, rfl⟩
    · split
      · exact .inl ⟨_, rfl⟩
      · exact .inr ⟨_, by assumption, rfl⟩

omit [DecidableEq ν] in
/-- A new length is refused and changes nothing, or is what the file then has. -/
theorem setLen_cases (fs : Fs ν) (fd : FileDesc) (len : Nat) :
    (∃ e, fs.setLen fd len = (.error e, fs)) ∨
      ∃ id, fd.node = .file id ∧ fs.setLen fd len =
        (.ok (), fs.setContents id ((fs.contents id).take len ++
          List.replicate (len - (fs.contents id).length) 0)) := by
  unfold setLen
  split
  · exact .inl ⟨_, rfl⟩
  · split
    · exact .inl ⟨_, rfl⟩
    · exact .inr ⟨_, by assumption, rfl⟩

/-! ### Resolution -/

theorem find_eq_ok {node : Node Nat} : fs.find path = .ok node ↔ fs.node path = some node := by
  unfold find
  split
  next node' here => rw [here, Except.ok.injEq, Option.some.injEq]
  next missing =>
    rw [missing]
    split <;> simp

theorem parent_eq_ok :
    fs.parent path = .ok () ↔ ∃ id, fs.node path.dropLast = some (.dir id) := by
  unfold parent
  split
  next id here => simp [find_eq_ok.mp here]
  next id here => simp [find_eq_ok.mp here]
  next e failed =>
    have missing : ∀ node, fs.node path.dropLast ≠ some node := by
      intro node here
      rw [find_eq_ok.mpr here] at failed
      cases failed
    simp [missing]

theorem isEmptyDir_iff :
    fs.isEmptyDir path = true ↔
      (∃ id, fs.node path = some (.dir id)) ∧ ∀ n, fs.node (path ++ [n]) = none := by
  unfold isEmptyDir
  split
  next id entries here =>
    have dir : fs.node path = some (.dir id) := by
      rw [Fs.node, Tree.node, here]
      rfl
    simp only [List.isEmpty_iff, Tree.entries_eq_nil here, dir, Option.some.injEq, Node.dir.injEq,
      exists_eq', true_and]
    rfl
  next other =>
    simp only [Bool.false_eq_true, false_iff, not_and]
    rintro ⟨id, dir⟩
    obtain ⟨t, here, isDir⟩ := Option.map_eq_some_iff.mp dir
    cases t with
    | file id => cases isDir
    | dir id entries => exact absurd here (other id entries)

theorem node_of_append (more : rest ≠ []) (there : (fs.node (path ++ rest)).isSome) :
    ∃ id, fs.node path = some (.dir id) :=
  Tree.node_of_append more there

theorem node_eq_none_of_append (missing : fs.node path = none) : fs.node (path ++ rest) = none :=
  Tree.node_eq_none_of_append missing

/-- The directory above an entry. -/
theorem node_dropLast (proper : path ≠ []) (there : (fs.node path).isSome) :
    ∃ id, fs.node path.dropLast = some (.dir id) := by
  have last : [path.getLast proper] ≠ [] := by simp
  apply node_of_append last
  rwa [List.dropLast_append_getLast]

/-! ### Edits -/

/-- A new entry can be made at the path. -/
structure Admits (fs : Fs ν) (path : List ν) : Prop where
  parent : ∃ id, fs.node path.dropLast = some (.dir id)
  missing : fs.node path = none

theorem Admits.proper (admits : fs.Admits path) : path ≠ [] := by
  rintro rfl
  cases admits.missing

private theorem node_put_new (admits : fs.Admits path) (new : Tree ν Nat)
    (leaf : ∀ n r, new.node (n :: r) = none) :
    (fs.tree.put path (some new)).node q = if q = path then some new.root else fs.node q := by
  by_cases below : path <+: q
  · obtain ⟨r, rfl⟩ := below
    rw [Tree.node_put_append admits.proper admits.parent, Option.bind_some]
    cases r with
    | nil => simp
    | cons n r =>
      rw [leaf, if_neg (by simp)]
      exact (node_eq_none_of_append admits.missing).symm
  · rw [Tree.node_put_of_not_prefix admits.proper below, if_neg]
    · rfl
    · rintro rfl
      exact below (List.prefix_refl q)

theorem node_addDir (admits : fs.Admits path) :
    (fs.addDir path).node q = if q = path then some (.dir fs.nextDir) else fs.node q :=
  node_put_new admits _ fun _ _ => rfl

theorem node_addFile (admits : fs.Admits path) :
    (fs.addFile path).node q = if q = path then some (.file fs.nextFile) else fs.node q :=
  node_put_new admits _ fun _ _ => rfl

theorem node_removeEntry (proper : path ≠ []) (there : (fs.node path).isSome) :
    (fs.removeEntry path).node q = if path <+: q then none else fs.node q := by
  by_cases below : path <+: q
  · obtain ⟨r, rfl⟩ := below
    rw [if_pos (List.prefix_append path r)]
    exact Tree.node_put_append proper (node_dropLast proper there)
  · rw [if_neg below]
    exact Tree.node_put_of_not_prefix proper below

/-- What sits at `src` can be taken to `dst`. -/
structure Movable (fs : Fs ν) (src dst : List ν) : Prop where
  properSrc : src ≠ []
  properDst : dst ≠ []
  there : (fs.node src).isSome
  parent : ∃ id, fs.node dst.dropLast = some (.dir id)
  notBelow : ¬src <+: dst
  notAbove : ¬dst <+: src

theorem node_move (movable : fs.Movable src dst) :
    (fs.move src dst).node q =
      if dst <+: q then fs.node (src ++ q.drop dst.length)
      else if src <+: q then none else fs.node q := by
  -- taking the source away changes nothing outside of it
  have away : ∀ r, ¬src <+: r → (fs.tree.put src none).node r = fs.node r := fun r apart =>
    Tree.node_put_of_not_prefix movable.properSrc apart
  have parent : ∃ id, (fs.tree.put src none).node dst.dropLast = some (.dir id) := by
    rw [away]
    · exact movable.parent
    · exact fun below => movable.notBelow (below.trans (List.dropLast_prefix dst))
  by_cases below : dst <+: q
  · obtain ⟨r, rfl⟩ := below
    rw [if_pos (List.prefix_append dst r), List.drop_left]
    have moved : ((fs.tree.put src none).put dst (fs.tree.get src)).node (dst ++ r) =
        (fs.tree.get src).bind (·.node r) := Tree.node_put_append movable.properDst parent
    exact moved.trans Tree.node_append.symm
  · rw [if_neg below]
    have kept : ((fs.tree.put src none).put dst (fs.tree.get src)).node q =
        (fs.tree.put src none).node q := Tree.node_put_of_not_prefix movable.properDst below
    apply kept.trans
    -- outside the target: what was below the source is gone, the rest is kept
    by_cases taken : src <+: q
    · obtain ⟨r, rfl⟩ := taken
      rw [if_pos (List.prefix_append src r)]
      exact Tree.node_put_append movable.properSrc
        (node_dropLast movable.properSrc movable.there)
    · rw [if_neg taken]
      exact away q taken

/-! ### What the calls do -/

theorem node_of_openDir {id : Nat} (opened : fs.openDir path = .ok id) :
    fs.node path = some (.dir id) := by
  unfold openDir at opened
  split at opened
  next id' found =>
    cases opened
    exact find_eq_ok.mp found
  next => cases opened
  next => cases opened

theorem node_of_openFound {id : Nat} {flags : OpenFlags} {fd : FileDesc}
    (opened : openFound id flags = .ok fd) : fd.node = .dir id := by
  unfold openFound at opened
  split at opened
  · cases opened
  split at opened
  · cases opened
  · cases opened
    rfl

/-- `.` opens the directory at the path, and `..` the one above it. -/
theorem node_of_openDots {up : Bool} {flags : OpenFlags} {fd : FileDesc}
    (opened : fs.openDots path up flags = .ok fd) :
    fs.node path = some fd.node ∨ fs.node path.dropLast = some fd.node := by
  unfold openDots at opened
  split at opened
  · cases opened
  next id here =>
    split at opened
    · split at opened
      · cases opened
      next above there =>
        rw [node_of_openFound opened]
        exact .inr (node_of_openDir there)
    · rw [node_of_openFound opened]
      exact .inl (node_of_openDir here)

theorem createDir_cases (fs : Fs ν) (path : List ν) :
    (∃ e, fs.createDir path = (.error e, fs)) ∨
      (fs.Admits path ∧ fs.createDir path = (.ok (), fs.addDir path)) := by
  unfold createDir
  split
  next e failed => exact Or.inl ⟨e, rfl⟩
  next node parent there => exact Or.inl ⟨.alreadyExists, rfl⟩
  next parent missing => exact Or.inr ⟨⟨parent_eq_ok.mp parent, missing⟩, rfl⟩

/-- What sits there can be opened, whether or not it can be emptied. -/
inductive Opened (fs : Fs ν) (path : List ν) (flags : OpenFlags) : FileDesc → Fs ν → Prop where
  | created (creates : (flags.create || flags.createNew) = true) (admits : fs.Admits path) :
      Opened fs path flags ⟨.file fs.nextFile, flags.read, flags.write⟩ (fs.addFile path)
  | dir (id : Nat) (there : fs.node path = some (.dir id)) (old : flags.createNew = false)
      (reads : flags.write = false) : Opened fs path flags ⟨.dir id, flags.read, false⟩ fs
  | file (id : Nat) (there : fs.node path = some (.file id)) (old : flags.createNew = false)
      (keeps : flags.truncate = false) :
      Opened fs path flags ⟨.file id, flags.read, flags.write⟩ fs
  | emptied (id : Nat) (there : fs.node path = some (.file id)) (old : flags.createNew = false)
      (empties : flags.truncate = true) :
      Opened fs path flags ⟨.file id, flags.read, flags.write⟩ (fs.setContents id [])

/-- The descriptor is one of what sits at the path afterwards. -/
theorem Opened.node {flags : OpenFlags} {fd : FileDesc} {fs' : Fs ν}
    (opened : fs.Opened path flags fd fs') : fs'.node path = some fd.node := by
  cases opened with
  | created creates admits => rw [node_addFile admits, if_pos rfl]
  | dir id there => exact there
  | file id there => exact there
  | emptied id there => exact there

theorem openWith_cases (fs : Fs ν) (path : List ν) (flags : OpenFlags) :
    (∃ e, fs.openWith path flags = (.error e, fs)) ∨
      ∃ fd fs', fs.openWith path flags = (.ok fd, fs') ∧ fs.Opened path flags fd fs' := by
  unfold openWith
  split
  next e failed => exact Or.inl ⟨e, rfl⟩
  -- no entry: a new file, if the flags create one
  next parent missing =>
    split
    next creates =>
      exact Or.inr ⟨_, _, rfl, .created creates ⟨parent_eq_ok.mp parent, missing⟩⟩
    next => exact Or.inl ⟨.notFound, rfl⟩
  -- a directory opens for reading only
  next id parent there =>
    unfold openFound
    split
    · exact Or.inl ⟨.alreadyExists, rfl⟩
    next old =>
      split
      · exact Or.inl ⟨.isADirectory, rfl⟩
      next reads =>
        simp only [Bool.or_eq_true, not_or, Bool.not_eq_true] at reads old
        exact Or.inr ⟨_, _, rfl, .dir id there old reads.1.1⟩
  -- a file, emptied or as it is
  next id parent there =>
    split
    · exact Or.inl ⟨.alreadyExists, rfl⟩
    next old =>
      rw [Bool.not_eq_true] at old
      split
      next empties => exact Or.inr ⟨_, _, rfl, .emptied id there old empties⟩
      next keeps => exact Or.inr ⟨_, _, rfl, .file id there old (by simpa using keeps)⟩

theorem removeFile_cases (fs : Fs ν) (path : List ν) :
    (∃ e, fs.removeFile path = (.error e, fs)) ∨
      ∃ id, fs.node path = some (.file id) ∧ path ≠ [] ∧
        fs.removeFile path = (.ok (), fs.removeEntry path) := by
  unfold removeFile
  split
  next e failed => exact Or.inl ⟨e, rfl⟩
  next id there => exact Or.inl ⟨.isADirectory, rfl⟩
  next id there =>
    split
    · exact Or.inl ⟨.other, rfl⟩
    next proper => exact Or.inr ⟨id, find_eq_ok.mp there, proper, rfl⟩

theorem removeDir_cases (fs : Fs ν) (path : List ν) :
    (∃ e, fs.removeDir path = (.error e, fs)) ∨
      (path ≠ [] ∧ fs.isEmptyDir path = true ∧
        fs.removeDir path = (.ok (), fs.removeEntry path)) := by
  unfold removeDir
  split
  next e failed => exact Or.inl ⟨e, rfl⟩
  next id there => exact Or.inl ⟨.notADirectory, rfl⟩
  next id there =>
    split
    · exact Or.inl ⟨.other, rfl⟩
    next proper =>
      split
      next empty => exact Or.inr ⟨proper, empty, rfl⟩
      · exact Or.inl ⟨.directoryNotEmpty, rfl⟩

theorem rename_cases (fs : Fs ν) (src dst : List ν) :
    (∃ e, fs.rename src dst = (.error e, fs)) ∨
      (src = dst ∧ (fs.node src).isSome ∧ fs.rename src dst = (.ok (), fs)) ∨
      ∃ node, fs.node src = some node ∧ fs.replaceable node dst = .ok () ∧ fs.Movable src dst ∧
        fs.rename src dst = (.ok (), fs.move src dst) := by
  unfold rename
  split
  · exact Or.inl ⟨.other, rfl⟩
  next proper =>
    rw [not_or] at proper
    split
    next e failed => exact Or.inl ⟨e, rfl⟩
    next e parent failed => exact Or.inl ⟨e, rfl⟩
    · exact Or.inl ⟨.notFound, rfl⟩
    next node parentSrc parentDst there =>
      split
      next same => exact Or.inr (Or.inl ⟨same, by rw [there]; rfl, rfl⟩)
      next other =>
        split
        · exact Or.inl ⟨.invalidInput, rfl⟩
        -- the checks in their order; each of them is an error of its own
        next notBelow =>
          split
          · exact Or.inl ⟨.directoryNotEmpty, rfl⟩
          next notAbove =>
            split
            next e failed => exact Or.inl ⟨e, rfl⟩
            next allowed =>
              exact Or.inr (Or.inr ⟨node, there, allowed,
                ⟨proper.1, proper.2, by rw [there]; rfl, parent_eq_ok.mp parentDst, notBelow,
                  notAbove⟩, rfl⟩)

end Fs

/-! ### Identities -/

namespace Fs

variable {ν : Type} [DecidableEq ν] {fs : Fs ν} {path src dst : List ν}

/-- The node has been handed out. -/
def Known (fs : Fs ν) : Node Nat → Prop
  | .file id => id < fs.nextFile
  | .dir id => id < fs.nextDir

/-- What sits somewhere has been handed out, and sits nowhere else. -/
structure Sound (fs : Fs ν) : Prop where
  known : ∀ path node, fs.node path = some node → fs.Known node
  unique : ∀ path path' node, fs.node path = some node → fs.node path' = some node → path = path'

namespace Sound

theorem setContents (sound : fs.Sound) (id : Nat) (bytes : Bytes) :
    (fs.setContents id bytes).Sound :=
  ⟨sound.known, sound.unique⟩

/-- A new entry under an identity that nobody has. -/
private theorem insert (sound : fs.Sound) {fs' : Fs ν} {new : Node Nat}
    (node : ∀ q, fs'.node q = if q = path then some new else fs.node q)
    (unknown : ¬fs.Known new) (known : ∀ node, fs.Known node ∨ node = new → fs'.Known node) :
    fs'.Sound where
  known := by
    intro q n there
    rw [node] at there
    split at there
    · cases there
      exact known new (Or.inr rfl)
    · exact known n (Or.inl (sound.known q n there))
  unique := by
    intro q q' n there there'
    rw [node] at there there'
    split at there
    next here =>
      split at there'
      next here' => exact here.trans here'.symm
      next =>
        cases there
        exact absurd (sound.known q' new there') unknown
    next =>
      split at there'
      next =>
        cases there'
        exact absurd (sound.known q new there) unknown
      next => exact sound.unique q q' n there there'

theorem addDir (sound : fs.Sound) (admits : fs.Admits path) : (fs.addDir path).Sound := by
  apply sound.insert (fun q => node_addDir admits) (Nat.lt_irrefl _)
  rintro (id | id) (old | new)
  · exact old
  · cases new
  · exact Nat.lt_succ_of_lt old
  · cases new
    exact Nat.lt_succ_self _

theorem addFile (sound : fs.Sound) (admits : fs.Admits path) : (fs.addFile path).Sound := by
  apply sound.insert (fun q => node_addFile admits) (Nat.lt_irrefl _)
  rintro (id | id) (old | new)
  · exact Nat.lt_succ_of_lt old
  · cases new
    exact Nat.lt_succ_self _
  · exact old
  · cases new

theorem removeEntry (sound : fs.Sound) (proper : path ≠ []) (there : (fs.node path).isSome) :
    (fs.removeEntry path).Sound where
  known := by
    intro q n here
    rw [node_removeEntry proper there] at here
    split at here
    · cases here
    · exact sound.known q n here
  unique := by
    intro q q' n here here'
    rw [node_removeEntry proper there] at here here'
    split at here
    · cases here
    · split at here'
      · cases here'
      · exact sound.unique q q' n here here'

theorem move (sound : fs.Sound) (movable : fs.Movable src dst) : (fs.move src dst).Sound where
  known := by
    intro q n here
    rw [node_move movable] at here
    split at here
    · exact sound.known _ n here
    · split at here
      · cases here
      · exact sound.known q n here
  unique := by
    -- a node below the target was below the source, from where everything else has gone
    have apart : ∀ q q' n, dst <+: q → ¬src <+: q' → fs.node (src ++ q.drop dst.length) = some n →
        fs.node q' = some n → False := by
      intro q q' n below away here here'
      have same := sound.unique _ _ n here here'
      exact away (same ▸ List.prefix_append src _)
    intro q q' n here here'
    rw [node_move movable] at here here'
    split at here
    next below =>
      split at here'
      next below' =>
        obtain ⟨r, rfl⟩ := below
        obtain ⟨r', rfl⟩ := below'
        rw [List.drop_left] at here here'
        have same := List.append_cancel_left (sound.unique _ _ n here here')
        rw [same]
      next =>
        split at here'
        · cases here'
        next away => exact (apart q q' n below away here here').elim
    next =>
      split at here
      · cases here
      next away =>
        split at here'
        next below' => exact (apart q' q n below' away here' here).elim
        next =>
          split at here'
          · cases here'
          · exact sound.unique q q' n here here'

theorem createDir (sound : fs.Sound) (path : List ν) : (fs.createDir path).2.Sound := by
  rcases createDir_cases fs path with ⟨e, failed⟩ | ⟨admits, done⟩
  · rw [failed]
    exact sound
  · rw [done]
    exact sound.addDir admits

theorem createDirAllRev (sound : fs.Sound) (path : List ν) :
    (fs.createDirAllRev path).2.Sound := by
  induction path generalizing fs with
  | nil => exact sound
  -- first the directory itself; where its parent is missing, the parents and then again
  | cons n above ih =>
    unfold Fs.createDirAllRev
    have first := sound.createDir (n :: above).reverse
    dsimp only
    split
    next fs' done =>
      rw [done] at first
      exact first
    next failed =>
      have behind := ih sound
      split
      next e fs' failed' =>
        rw [failed'] at behind
        exact behind
      next fs' done =>
        rw [done] at behind
        have second := behind.createDir (n :: above).reverse
        split
        next fs'' done' =>
          rw [done'] at second
          exact second
        next e fs'' failed' =>
          rw [failed'] at second
          split <;> exact second
    next e fs' failed other => split <;> exact sound

end Sound

/-! ### Calls that only add entries -/

/-- What was there stays, and what is new sits at one of the places and has a new identity. -/
structure Grows (places : List ν → Prop) (fs fs' : Fs ν) : Prop where
  kept : ∀ q node, fs.node q = some node → fs'.node q = some node
  added : ∀ q node, fs'.node q = some node →
    fs.node q = some node ∨ (places q ∧ ¬fs.Known node)
  known : ∀ node, fs.Known node → fs'.Known node

namespace Grows

variable {places : List ν → Prop} {fs' fs'' : Fs ν} {q : List ν}

theorem refl (fs : Fs ν) : Grows places fs fs :=
  ⟨fun _ _ here => here, fun _ _ here => .inl here, fun _ known => known⟩

theorem trans (first : Grows places fs fs') (second : Grows places fs' fs'') :
    Grows places fs fs'' := by
  constructor
  · exact fun q node here => second.kept q node (first.kept q node here)
  · intro q node here
    rcases second.added q node here with old | ⟨place, new⟩
    · exact first.added q node old
    · exact .inr ⟨place, fun known => new (first.known node known)⟩
  · exact fun node known => second.known node (first.known node known)

theorem mono {places' : List ν → Prop} (grows : Grows places fs fs')
    (fewer : ∀ q, places q → places' q) : Grows places' fs fs' :=
  ⟨grows.kept, fun q node here => (grows.added q node here).imp_right fun new =>
    ⟨fewer q new.1, new.2⟩, grows.known⟩

/-- One entry with a new identity. -/
private theorem entry {new : Node Nat} (missing : fs.node path = none)
    (nodes : ∀ q, fs'.node q = if q = path then some new else fs.node q) (unknown : ¬fs.Known new)
    (known : ∀ node, fs.Known node → fs'.Known node) : Grows (· = path) fs fs' := by
  constructor
  · intro q node here
    rw [nodes, if_neg]
    · exact here
    · rintro rfl
      rw [missing] at here
      cases here
  · intro q node here
    rw [nodes] at here
    split at here
    next same => exact .inr ⟨same, Option.some.inj here ▸ unknown⟩
    next => exact .inl here
  · exact known

theorem addDir (admits : fs.Admits path) : Grows (· = path) fs (fs.addDir path) := by
  refine entry admits.missing (fun q => node_addDir admits) (Nat.lt_irrefl _) fun node known => ?_
  cases node with
  | file id => exact known
  | dir id => exact Nat.lt_succ_of_lt known

theorem addFile (admits : fs.Admits path) : Grows (· = path) fs (fs.addFile path) := by
  refine entry admits.missing (fun q => node_addFile admits) (Nat.lt_irrefl _) fun node known => ?_
  cases node with
  | file id => exact Nat.lt_succ_of_lt known
  | dir id => exact known

theorem setContents (id : Nat) (bytes : Bytes) : Grows places fs (fs.setContents id bytes) :=
  ⟨fun _ _ here => here, fun _ _ here => .inl here, fun _ known => known⟩

theorem createDir (fs : Fs ν) (path : List ν) : Grows (· = path) fs (fs.createDir path).2 := by
  rcases createDir_cases fs path with ⟨e, failed⟩ | ⟨admits, done⟩
  · rw [failed]
    exact refl fs
  · rw [done]
    exact addDir admits

/-- Directories are made on the way to the path, and the root is there already. -/
theorem createDirAllRev (fs : Fs ν) (path : List ν) :
    Grows (fun q => q ≠ [] ∧ q <+: path.reverse) fs (fs.createDirAllRev path).2 := by
  induction path generalizing fs with
  | nil => exact refl fs
  -- first the directory itself; where its parent is missing, the parents and then again
  | cons n above ih =>
    have here (fs : Fs ν) : Grows (fun q => q ≠ [] ∧ q <+: (n :: above).reverse) fs
        (fs.createDir (n :: above).reverse).2 := by
      refine (createDir fs (n :: above).reverse).mono fun q same => ?_
      subst same
      exact ⟨by simp, List.prefix_refl _⟩
    have up := (ih fs).mono fun q place =>
      show q ≠ [] ∧ q <+: (n :: above).reverse from ⟨place.1, place.2.trans (by simp)⟩
    unfold Fs.createDirAllRev
    have first := here fs
    dsimp only
    split
    next fs' done =>
      rw [done] at first
      exact first
    next failed =>
      split
      next e fs' failed' =>
        rw [failed'] at up
        exact up
      next fs' done =>
        rw [done] at up
        have second := up.trans (here fs')
        split
        next fs'' done' =>
          rw [done'] at second
          exact second
        next e fs'' failed' =>
          rw [failed'] at second
          split <;> exact second
    next e fs' failed other => split <;> exact refl fs

theorem openWith (fs : Fs ν) (path : List ν) (flags : OpenFlags) :
    Grows (· = path) fs (fs.openWith path flags).2 := by
  rcases openWith_cases fs path flags with ⟨e, failed⟩ | ⟨fd, fs', done, opened⟩
  · rw [failed]
    exact refl fs
  · rw [done]
    cases opened with
    | created creates admits => exact addFile admits
    | dir | file => exact refl fs
    | emptied id => exact setContents id []

end Grows

/-! ### Making directories -/

/-- No file sits on the way to the path, or at it. -/
def Clear (fs : Fs ν) (path : List ν) : Prop :=
  ∀ q, q <+: path → ∀ id, fs.node q ≠ some (.file id)

theorem Clear.of_prefix {q : List ν} (clear : fs.Clear path) (way : q <+: path) : fs.Clear q :=
  fun r above => clear r (above.trans way)

theorem Clear.find (clear : fs.Clear path) (missing : fs.node path = none) :
    fs.find path = .error .notFound := by
  rw [Fs.find, missing]
  refine if_neg ?_
  simp only [List.any_eq_true, List.mem_inits, Option.any_eq_true, not_exists, not_and,
    Bool.not_eq_true, Bool.not_eq_false']
  intro q way node there
  cases node with
  | file id => exact absurd there (clear q way id)
  | dir id => rfl

/-- Directories on the way to the path have been added, and nothing else. -/
structure Paved (path : List ν) (fs fs' : Fs ν) : Prop where
  kept : ∀ q node, fs.node q = some node → fs'.node q = some node
  added : ∀ q node, fs'.node q = some node →
    fs.node q = some node ∨ (q ≠ [] ∧ q <+: path ∧ ∃ id, node = .dir id)
  contents : fs'.contents = fs.contents
  nextFile : fs'.nextFile = fs.nextFile

namespace Paved

variable {fs' fs'' : Fs ν}

theorem refl (fs : Fs ν) : Paved path fs fs :=
  ⟨fun _ _ here => here, fun _ _ here => .inl here, rfl, rfl⟩

theorem trans (first : Paved path fs fs') (second : Paved path fs' fs'') : Paved path fs fs'' := by
  constructor
  · exact fun q node here => second.kept q node (first.kept q node here)
  · intro q node here
    rcases second.added q node here with old | new
    · exact first.added q node old
    · exact .inr new
  · exact second.contents.trans first.contents
  · exact second.nextFile.trans first.nextFile

theorem longer {rest : List ν} (paved : Paved path fs fs') : Paved (path ++ rest) fs fs' :=
  ⟨paved.kept, fun q node here => (paved.added q node here).imp_right fun new =>
    ⟨new.1, new.2.1.trans (List.prefix_append path rest), new.2.2⟩, paved.contents, paved.nextFile⟩

theorem addDir (admits : fs.Admits path) : Paved path fs (fs.addDir path) := by
  constructor
  · intro q node here
    rw [node_addDir admits, if_neg]
    · exact here
    · rintro rfl
      rw [admits.missing] at here
      cases here
  · intro q node here
    rw [node_addDir admits] at here
    split at here
    next same => exact .inr ⟨same ▸ admits.proper, same ▸ List.prefix_refl q, _,
      (Option.some.inj here).symm⟩
    next => exact .inl here
  · rfl
  · rfl

end Paved

/-- Where no file is in the way, the directories are made. -/
theorem createDirAllRev_of_clear (root : ∃ id, fs.node [] = some (.dir id))
    {path : List ν} (clear : fs.Clear path.reverse) :
    ∃ fs', fs.createDirAllRev path = (.ok (), fs') ∧ Paved path.reverse fs fs' ∧
      ∃ id, fs'.node path.reverse = some (.dir id) := by
  induction path with
  | nil => exact ⟨fs, rfl, .refl fs, root⟩
  | cons n above ih =>
    have whole : (n :: above).reverse = above.reverse ++ [n] := List.reverse_cons
    have up : (n :: above).reverse.dropLast = above.reverse := by
      rw [whole, List.dropLast_concat]
    have clearAbove : fs.Clear above.reverse := clear.of_prefix ⟨[n], whole.symm⟩
    unfold Fs.createDirAllRev
    dsimp only
    cases here : fs.node (n :: above).reverse with
    -- a directory that is there already
    | some node =>
      cases node with
      | file id => exact absurd here (clear _ (List.prefix_refl _) id)
      | dir id =>
        have parent : fs.parent (n :: above).reverse = .ok () :=
          parent_eq_ok.mpr (node_dropLast (by simp) (by rw [here]; rfl))
        have isDir : fs.isDir (n :: above).reverse = true := by
          rw [Fs.isDir, here]
          rfl
        simp only [Fs.createDir, parent, here, isDir, if_true]
        exact ⟨fs, rfl, .refl fs, id, here⟩
    | none =>
      by_cases parent : ∃ id, fs.node above.reverse = some (.dir id)
      -- one to make in a directory that is there
      · have admits : fs.Admits (n :: above).reverse := ⟨up.symm ▸ parent, here⟩
        simp only [Fs.createDir, parent_eq_ok.mpr admits.parent, here]
        exact ⟨_, rfl, .addDir admits, _, by rw [node_addDir admits, if_pos rfl]⟩
      -- one to make after the directories above it
      · have missing : fs.node above.reverse = none := by
          cases there : fs.node above.reverse with
          | none => rfl
          | some node =>
            cases node with
            | file id => exact absurd there (clearAbove _ (List.prefix_refl _) id)
            | dir id => exact absurd ⟨id, there⟩ parent
        have failed : fs.parent (n :: above).reverse = .error .notFound := by
          rw [Fs.parent, up, clearAbove.find missing]
        obtain ⟨fs', done, paved, made⟩ := ih clearAbove
        have free : fs'.node (n :: above).reverse = none := by
          rw [Option.eq_none_iff_forall_ne_some]
          intro node there
          rcases paved.added _ node there with old | ⟨-, way, -⟩
          · rw [here] at old
            cases old
          · have short := way.length_le
            rw [whole, List.length_append, List.length_singleton] at short
            omega
        have admits : fs'.Admits (n :: above).reverse := ⟨up.symm ▸ made, free⟩
        have first : fs.createDir (n :: above).reverse = (.error .notFound, fs) := by
          rw [Fs.createDir, failed]
        have second : fs'.createDir (n :: above).reverse =
            (.ok (), fs'.addDir (n :: above).reverse) := by
          rw [Fs.createDir, parent_eq_ok.mpr admits.parent, free]
        simp only [first, done, second]
        refine ⟨_, rfl, ?_, _, by rw [node_addDir admits, if_pos rfl]⟩
        have behind : Paved (n :: above).reverse fs' (fs'.addDir (n :: above).reverse) :=
          .addDir admits
        rw [whole] at behind ⊢
        exact paved.longer.trans behind

end Fs

theorem FsCall.exec_sound {ν : Type} [DecidableEq ν] {fs : Fs ν} (sound : fs.Sound)
    (c : FsCall ν) : (c.exec fs).2.Sound := by
  cases c with
  | metadata | symlinkMetadata | «exists» | openDir | openDots => exact sound
  | createDir path => exact sound.createDir path
  | createDirAll path => exact sound.createDirAllRev path.reverse
  | openWith path flags =>
    rcases Fs.openWith_cases fs path flags with ⟨e, failed⟩ | ⟨fd, fs', done, opened⟩
    · simp only [exec, failed]
      exact sound
    · simp only [exec, done]
      cases opened with
      | created creates admits => exact sound.addFile admits
      | dir | file => exact sound
      | emptied id => exact sound.setContents id []
  | removeFile path =>
    rcases Fs.removeFile_cases fs path with ⟨e, failed⟩ | ⟨id, there, proper, done⟩
    · simp only [exec, failed]
      exact sound
    · simp only [exec, done]
      exact sound.removeEntry proper (by rw [there]; rfl)
  | removeDir path =>
    rcases Fs.removeDir_cases fs path with ⟨e, failed⟩ | ⟨proper, empty, done⟩
    · simp only [exec, failed]
      exact sound
    · simp only [exec, done]
      obtain ⟨⟨id, there⟩, -⟩ := Fs.isEmptyDir_iff.mp empty
      exact sound.removeEntry proper (by rw [there]; rfl)
  | rename src dst =>
    rcases Fs.rename_cases fs src dst with ⟨e, failed⟩ | ⟨-, -, done⟩ | ⟨node, -, -, movable, done⟩
    · simp only [exec, failed]
      exact sound
    · simp only [exec, done]
      exact sound
    · simp only [exec, done]
      exact sound.move movable

/-- The root is a directory and stays one. -/
theorem FsCall.exec_root {ν : Type} [DecidableEq ν] {fs : Fs ν}
    (root : ∃ id, fs.node [] = some (.dir id)) (c : FsCall ν) :
    ∃ id, (c.exec fs).2.node [] = some (.dir id) := by
  obtain ⟨id, root⟩ := root
  have below {path : List ν} (proper : path ≠ []) : ¬path <+: [] :=
    fun way => proper (List.prefix_nil.mp way)
  have removed {path : List ν} (proper : path ≠ []) (there : (fs.node path).isSome) :
      (fs.removeEntry path).node [] = some (.dir id) := by
    rw [Fs.node_removeEntry proper there, if_neg (below proper)]
    exact root
  cases c with
  | metadata | symlinkMetadata | «exists» | openDir | openDots => exact ⟨id, root⟩
  | createDir path => exact ⟨id, (Fs.Grows.createDir fs path).kept _ _ root⟩
  | createDirAll path => exact ⟨id, (Fs.Grows.createDirAllRev fs path.reverse).kept _ _ root⟩
  | openWith path flags => exact ⟨id, (Fs.Grows.openWith fs path flags).kept _ _ root⟩
  | removeFile path =>
    rcases Fs.removeFile_cases fs path with ⟨e, failed⟩ | ⟨id', there, proper, done⟩
    · simp only [exec, failed]
      exact ⟨id, root⟩
    · simp only [exec, done]
      exact ⟨id, removed proper (by rw [there]; rfl)⟩
  | removeDir path =>
    rcases Fs.removeDir_cases fs path with ⟨e, failed⟩ | ⟨proper, empty, done⟩
    · simp only [exec, failed]
      exact ⟨id, root⟩
    · simp only [exec, done]
      obtain ⟨⟨id', there⟩, -⟩ := Fs.isEmptyDir_iff.mp empty
      exact ⟨id, removed proper (by rw [there]; rfl)⟩
  | rename src dst =>
    rcases Fs.rename_cases fs src dst with ⟨e, failed⟩ | ⟨-, -, done⟩ | ⟨node, -, -, movable, done⟩
    · simp only [exec, failed]
      exact ⟨id, root⟩
    · simp only [exec, done]
      exact ⟨id, root⟩
    · simp only [exec, done]
      refine ⟨id, ?_⟩
      rw [Fs.node_move movable, if_neg (below movable.properDst), if_neg (below movable.properSrc)]
      exact root

/-- The other calls only look. -/
theorem FsCall.exec_of_not_mutates {ν : Type} [DecidableEq ν] {c : FsCall ν}
    (looks : c.mutates = false) (fs : Fs ν) : (c.exec fs).2 = fs := by
  cases c with
  | createDir | createDirAll | removeFile | removeDir | rename => cases looks
  | metadata | symlinkMetadata | «exists» | openDir | openDots => rfl
  | openWith path flags =>
    simp only [mutates, Bool.or_eq_false_iff] at looks
    obtain ⟨⟨old, notNew⟩, keeps⟩ := looks
    rcases Fs.openWith_cases fs path flags with ⟨e, failed⟩ | ⟨fd, fs', done, opened⟩
    · simp only [exec, failed]
    · simp only [exec, done]
      cases opened with
      | created creates admits => simp [old, notNew] at creates
      | dir | file => rfl
      | emptied id there old' empties =>
        rw [keeps] at empties
        cases empties

end Lib
