import SmbServer.Effects.Payload
import SmbServer.Client

/-!
# SmbServer.Properties.TracePrivacy

The trace carries no file content.

Main result:

  Two runs from one state, over hosts that answer alike, whose frames differ in the payloads of
  unsigned WRITE elements only, record the same events under the same keys.

Proof strategy: the two runs are kept next to each other. Frames that differ in payloads only are
split alike, since the header of every element is in front of its payload, and the elements they
are split into differ in payloads only; that such elements agree is `dispatchOne_agrees`.
-/

namespace SmbServer

open Lib

/-! ### Frames that differ in payloads -/

/-- The byte at a position is one behind the fixed part of an unsigned WRITE of the compound. -/
inductive PayloadByte : Bytes → Nat → Prop where
  | here {available sub : Bytes} {hdr : Smb2Header} {next i : Nat}
      (split : splitElement available = some (hdr, sub, next)) (write : hdr.command = .write)
      (unsigned : hasFlag hdr.flags smb2FlagsSigned = false) (behind : writeFixedLen ≤ i)
      (inside : i < sub.length) : PayloadByte available i
  | later {available sub : Bytes} {hdr : Smb2Header} {next i : Nat}
      (split : splitElement available = some (hdr, sub, next)) (more : next ≠ 0)
      (rest : PayloadByte (available.drop next) i) : PayloadByte available (next + i)

/-- The frames are as long as each other and differ in the payloads of unsigned WRITEs only. -/
structure PayloadsOnly (frame frame' : Bytes) : Prop where
  length : frame.length = frame'.length
  differ : ∀ i : Nat, frame[i]? ≠ frame'[i]? → PayloadByte frame i

theorem PayloadsOnly.refl (frame : Bytes) : PayloadsOnly frame frame :=
  ⟨rfl, fun _ differ => absurd rfl differ⟩

/-- How an element is cut off. -/
theorem splitElement_eq_some {available sub : Bytes} {hdr : Smb2Header} {next : Nat}
    (split : splitElement available = some (hdr, sub, next)) :
    (∃ body, Smb2Header.parse available = some (hdr, body)) ∧ next = hdr.nextCommand.toNat ∧
      (next = 0 ∧ sub = available ∨
        smb2HeaderLen ≤ next ∧ next ≤ available.length ∧ sub = available.take next) := by
  unfold splitElement at split
  split at split
  · cases split
  next body parsed =>
  dsimp only at split
  split at split
  next last =>
    obtain ⟨rfl, rfl, rfl⟩ := by simpa using split
    exact ⟨⟨body, parsed⟩, last.symm, .inl ⟨rfl, rfl⟩⟩
  next =>
  split at split
  · cases split
  next fits =>
    obtain ⟨rfl, rfl, rfl⟩ := by simpa using split
    exact ⟨⟨body, parsed⟩, rfl, .inr ⟨by omega, by omega, rfl⟩⟩

/-- The payload bytes of the first element. -/
theorem PayloadByte.first {available sub : Bytes} {hdr : Smb2Header} {next i : Nat}
    (payload : PayloadByte available i)
    (split : splitElement available = some (hdr, sub, next)) (inside : i < sub.length) :
    hdr.command = .write ∧ hasFlag hdr.flags smb2FlagsSigned = false ∧ writeFixedLen ≤ i := by
  cases payload with
  | here split' write unsigned behind =>
    obtain ⟨rfl, -⟩ := Prod.mk.inj (Option.some.inj (split'.symm.trans split))
    exact ⟨write, unsigned, behind⟩
  | later split' more rest =>
    obtain ⟨rfl, rfl, rfl⟩ := by simpa using split'.symm.trans split
    obtain ⟨-, -, last | ⟨-, -, rfl⟩⟩ := splitElement_eq_some split
    · exact absurd last.1 more
    · rw [List.length_take] at inside
      omega

/-- The payload bytes of the elements behind the first. -/
theorem PayloadByte.behind {available sub : Bytes} {hdr : Smb2Header} {next i : Nat}
    (payload : PayloadByte available (next + i))
    (split : splitElement available = some (hdr, sub, next)) (more : next ≠ 0) :
    PayloadByte (available.drop next) i := by
  generalize at_ : next + i = j at payload
  cases payload with
  | here split' write unsigned behind inside =>
    obtain ⟨rfl, rfl, rfl⟩ := by simpa using split'.symm.trans split
    obtain ⟨-, -, last | ⟨-, -, rfl⟩⟩ := splitElement_eq_some split
    · exact absurd last.1 more
    · rw [List.length_take] at inside
      omega
  | later split' more' rest =>
    obtain ⟨rfl, rfl, rfl⟩ := by simpa using split'.symm.trans split
    obtain rfl := Nat.add_left_cancel at_
    exact rest

/-- A frame with payload bytes has a first element, and its header is none of them. -/
theorem PayloadByte.split {available : Bytes} {i : Nat} (payload : PayloadByte available i) :
    ∃ hdr sub next, splitElement available = some (hdr, sub, next) ∧ smb2HeaderLen ≤ i := by
  cases payload with
  | here split write unsigned behind inside =>
    exact ⟨_, _, _, split, Nat.le_trans (Nat.le_add_right _ 48) behind⟩
  | later split more rest =>
    obtain ⟨-, -, last | ⟨long, -⟩⟩ := splitElement_eq_some split
    · exact absurd last.1 more
    · exact ⟨_, _, _, split, Nat.le_trans long (Nat.le_add_right _ _)⟩

/-- Elements at one place that differ in payload bytes only. -/
theorem sameElement_of_differ {sub sub' body : Bytes} {hdr : Smb2Header}
    (parsed : Smb2Header.parse sub = some (hdr, body)) (length : sub.length = sub'.length)
    (differ : ∀ i : Nat, i < sub.length → sub[i]? ≠ sub'[i]? →
      hdr.command = .write ∧ hasFlag hdr.flags smb2FlagsSigned = false ∧ writeFixedLen ≤ i) :
    SameElement sub sub' := by
  by_cases equal : sub = sub'
  · exact equal ▸ .same sub
  -- somewhere the two differ, so the element is an unsigned WRITE
  obtain ⟨i, apart⟩ : ∃ i : Nat, sub[i]? ≠ sub'[i]? := by
    by_contra none
    push Not at none
    exact equal (List.ext_getElem? none)
  have inside : i < sub.length := by
    by_contra outside
    refine apart ?_
    rw [List.getElem?_eq_none (by omega), List.getElem?_eq_none (by omega)]
  obtain ⟨write, unsigned, behind⟩ := differ i inside apart
  -- and in front of its payload they do not
  have front : sub.take writeFixedLen = sub'.take writeFixedLen := by
    refine List.ext_getElem? fun j => ?_
    rw [List.getElem?_take, List.getElem?_take]
    split
    next before =>
      by_contra apart
      exact absurd (differ j (by omega) apart).2.2 (by omega)
    next => rfl
  have fixed : (sub.take writeFixedLen).length = writeFixedLen := by
    rw [List.length_take]
    omega
  have header := Smb2Header.parse_take sub writeFixedLen (Nat.le_add_right _ _) (by omega)
  rw [parsed] at header
  have built := SameElement.payload (sub.take writeFixedLen) (sub.drop writeFixedLen)
    (sub'.drop writeFixedLen) _ hdr fixed (by simp [length]) header write unsigned
  rwa [List.take_append_drop, front, List.take_append_drop] at built

/-- Frames that differ have a first element, and its header is the same in both. -/
theorem PayloadsOnly.header {frame frame' : Bytes} (only : PayloadsOnly frame frame') :
    frame = frame' ∨ ∃ hdr sub body' next, splitElement frame = some (hdr, sub, next) ∧
      Smb2Header.parse frame' = some (hdr, body') := by
  by_cases equal : frame = frame'
  · exact .inl equal
  right
  obtain ⟨i, apart⟩ : ∃ i : Nat, frame[i]? ≠ frame'[i]? := by
    by_contra none
    push Not at none
    exact equal (List.ext_getElem? none)
  obtain ⟨hdr, sub, next, split, -⟩ := (only.differ i apart).split
  obtain ⟨⟨body, parsed⟩, -⟩ := splitElement_eq_some split
  have long := Smb2Header.long_of_parse parsed
  -- No payload byte is that far in front.
  have front : frame.take smb2HeaderLen = frame'.take smb2HeaderLen := by
    refine List.ext_getElem? fun j => ?_
    rw [List.getElem?_take, List.getElem?_take]
    split
    next before =>
      by_contra apart
      obtain ⟨-, -, -, -, behind⟩ := (only.differ j apart).split
      omega
    next => rfl
  have read := Smb2Header.parse_take frame smb2HeaderLen (Nat.le_refl _) long
  have read' := Smb2Header.parse_take frame' smb2HeaderLen (Nat.le_refl _) (only.length ▸ long)
  rw [parsed] at read
  rw [← front, read] at read'
  obtain ⟨⟨hdr', body'⟩, parsed', same⟩ := Option.map_eq_some_iff.mp read'.symm
  obtain ⟨rfl, -⟩ := Prod.mk.inj same
  exact ⟨_, sub, body', next, split, parsed'⟩

/-- Frames that differ in payloads only are split alike. -/
theorem PayloadsOnly.split {frame frame' : Bytes} (only : PayloadsOnly frame frame') :
    (splitElement frame = none ∧ splitElement frame' = none) ∨
      ∃ hdr sub sub' next, splitElement frame = some (hdr, sub, next) ∧
        splitElement frame' = some (hdr, sub', next) ∧ SameElement sub sub' ∧
          (next ≠ 0 → PayloadsOnly (frame.drop next) (frame'.drop next)) := by
  -- equal frames, or frames with equal headers in front of payloads that may differ
  rcases only.header with rfl | ⟨hdr, sub, body', next, split, parsed'⟩
  · cases split : splitElement frame with
    | none => exact .inl ⟨rfl, rfl⟩
    | some parts => exact .inr ⟨_, _, _, _, rfl, rfl, .same _, fun _ => .refl _⟩
  right
  have length := only.length
  obtain ⟨⟨body, parsed⟩, cut, shape⟩ := splitElement_eq_some split
  have first (j : Nat) (inside : j < sub.length) (apart : frame[j]? ≠ frame'[j]?) :=
    (only.differ j apart).first split inside
  -- the last element is the whole rest; any other is cut off at its NextCommand
  rcases shape with ⟨rfl, rfl⟩ | ⟨least, fits, rfl⟩
  · refine ⟨hdr, sub, frame', 0, split, ?_, sameElement_of_differ parsed length first, ?_⟩
    · simp only [splitElement, parsed', ← cut, if_true]
    · exact fun more => absurd rfl more
  · have nonzero : next ≠ 0 := by
      rw [smb2HeaderLen] at least
      omega
    obtain ⟨_, again⟩ := parse_of_splitElement split
    refine ⟨hdr, frame.take next, frame'.take next, next, split, ?_, ?_, fun _ => ?_⟩
    · simp only [splitElement, parsed', ← cut, if_neg nonzero]
      rw [if_neg (by omega)]
    · refine sameElement_of_differ again (by simp [length]) fun j inside apart => ?_
      have before : j < next := by
        rw [List.length_take] at inside
        omega
      rw [List.getElem?_take_of_lt before, List.getElem?_take_of_lt before] at apart
      exact first j (by rw [List.length_take]; omega) apart
    · refine ⟨by simp [length], fun j apart => ?_⟩
      rw [List.getElem?_drop, List.getElem?_drop] at apart
      exact (only.differ _ apart).behind split nonzero

/-- A frame that begins with an SMB2 header is no SMB1 request. -/
theorem smb1Choice_of_header {frame body : Bytes} {hdr : Smb2Header}
    (parsed : Smb2Header.parse frame = some (hdr, body)) : smb1Choice frame = none := by
  have magic : slice frame 0 4 = smb2Magic := by
    by_contra other
    simp [Smb2Header.parse, other] at parsed
  simp [smb1Choice, magic, smb2Magic]

/-! ### Two runs -/

section

variable {σ η : Type} [Host σ η] [Crypto] {R : σ → σ → Prop}

namespace AnswersAlike

theorem dispatchElements_agrees (alike : AnswersAlike R) (server : ServerState) (fuel : Nat)
    (ctx : RelatedContext) (ordinal : UInt32) {frame frame' : Bytes}
    (only : PayloadsOnly frame frame') :
    Action.Agrees (World.Twin R)
      (dispatchElements fuel server frame ctx ordinal : Action (World σ η) _)
      (dispatchElements fuel server frame' ctx ordinal) := by
  induction fuel generalizing frame frame' ctx ordinal with
  | zero => exact .pure _
  | succ fuel ih =>
    rcases only.split with ⟨none, none'⟩ | ⟨hdr, sub, sub', next, split, split', same, rest⟩
    · simp only [dispatchElements, none, none']
      exact .pure _
    obtain ⟨body, parsed⟩ := parse_of_splitElement split
    obtain ⟨header, elements⟩ := same.effective ctx parsed
    simp only [dispatchElements, split, split', ← only.length, ← header]
    refine .bind (alike.dispatchOne_agrees server elements ordinal) fun response => ?_
    split
    next => exact .pure _
    next more =>
      exact .bind (ih _ _ (rest fun zero => more (.inl zero))) fun _ => .pure _

theorem dispatchFrame_agrees (alike : AnswersAlike R) (server : ServerState)
    {frame frame' : Bytes} (only : PayloadsOnly frame frame') :
    Action.Agrees (World.Twin R) (dispatchFrame server frame : Action (World σ η) _)
      (dispatchFrame server frame') := by
  have choice : smb1Choice frame = smb1Choice frame' := by
    rcases only.header with rfl | ⟨hdr, sub, body', next, split, parsed'⟩
    · rfl
    · obtain ⟨⟨body, parsed⟩, -⟩ := splitElement_eq_some split
      rw [smb1Choice_of_header parsed, smb1Choice_of_header parsed']
  simp only [dispatchFrame, ← choice, ← only.length]
  split
  · refine .bind ?_ fun _ => .pure _
    exact Action.Agrees.bind (alike.multiProtocol_steady server _) fun resp =>
      .bind Steady.getConn fun conn => .pure _
  · refine .bind (alike.dispatchElements_agrees server _ _ _ only) fun responses => ?_
    split
    · exact .pure _
    · exact .pure _
    · exact .bind Steady.getConn fun conn => .pure _

end AnswersAlike

/-- The same server and connections, in environments that are the same but for the record of
calls. -/
structure System.Twin (R : σ → σ → Prop) (s s' : System σ η) : Prop where
  server : s.server = s'.server
  conns : s.conns = s'.conns
  nextConnId : s.nextConnId = s'.nextConnId
  env : Env.Twin R s.env s'.env

/-- The same event, or frames that differ in payloads only. -/
inductive Event.SameButPayload : Event → Event → Prop where
  | same (e : Event) : SameButPayload e e
  | frame (cid : UInt64) {bytes bytes' : Bytes} (only : PayloadsOnly bytes bytes') :
      SameButPayload (.frame cid bytes) (.frame cid bytes')

namespace System.Twin

omit [Host σ η] [Crypto] in
theorem onConn {α : Type} {s s' : System σ η} (twin : s.Twin R s') (cid : UInt64)
    {m m' : Action (World σ η) α} (agrees : Action.Agrees (World.Twin R) m m') :
    (s.onConn cid m).2.Twin R (s'.onConn cid m').2 := by
  simp only [System.onConn, ← twin.conns]
  split
  · exact twin
  next conn _ =>
  obtain ⟨-, left, env⟩ := agrees ⟨conn, s.env⟩ ⟨conn, s'.env⟩ ⟨rfl, twin.env⟩
  exact ⟨twin.server, by simp only [left], twin.nextConnId, env⟩

omit [Host σ η] [Crypto] in
theorem onEach {s s' : System σ η} (twin : s.Twin R s') {m : Action (World σ η) Unit}
    (steady : Steady R m) : (s.onEach m).Twin R (s'.onEach m) := by
  rw [System.onEach, System.onEach, ← twin.conns]
  generalize s.conns.keys = cids
  induction cids generalizing s s' with
  | nil => exact twin
  | cons cid rest ih => exact ih (twin.onConn cid steady)

/-- One event. -/
theorem step {s s' : System σ η} (alike : AnswersAlike R) (twin : s.Twin R s') {e e' : Event}
    (same : e.SameButPayload e') : (s.step e).Twin R (s'.step e') := by
  have frames (cid : UInt64) {bytes bytes' : Bytes} (only : PayloadsOnly bytes bytes') :
      (s.step (.frame cid bytes)).Twin R (s'.step (.frame cid bytes')) := by
    simp only [System.step, System.serve, ← twin.server]
    exact twin.onConn cid (alike.dispatchFrame_agrees s.server only)
  cases same with
  -- frames may differ in payloads; any other event is the same on both sides
  | frame cid only => exact frames cid only
  | same e =>
    cases e with
    | accept =>
      refine ⟨twin.server, ?_, ?_, twin.env⟩
      · simp only [System.step, System.accept, twin.conns, twin.nextConnId, twin.server]
      · simp only [System.step, System.accept, twin.nextConnId]
    | frame cid bytes => exact frames cid (.refl bytes)
    | config op =>
      simp only [System.step, System.configure, ← twin.server]
      split
      · exact twin
      next server sweep _ =>
      have edited : ({ s with server := server } : System σ η).Twin R
          { s' with server := server } := ⟨rfl, twin.conns, twin.nextConnId, twin.env⟩
      exact edited.onEach (alike.sweep_steady sweep)
    | hangup cid =>
      refine ⟨twin.server, ?_, twin.nextConnId, twin.env⟩
      simp only [System.step, System.hangup, twin.conns]

/-- A whole run. -/
theorem run {s s' : System σ η} (alike : AnswersAlike R) (twin : s.Twin R s')
    {events events' : List Event} (same : List.Forall₂ Event.SameButPayload events events') :
    (s.run events).Twin R (s'.run events') := by
  induction same generalizing s s' with
  | nil => exact twin
  | cons first _ ih => exact ih (twin.step alike first)

end System.Twin

/-- From any state, two runs over hosts that answer alike record the same trace, when their frames
differ in the payloads of unsigned WRITEs only. -/
theorem trace_independent_of_payloads (R : σ → σ → Prop) (alike : AnswersAlike R)
    (s : System σ η) (host : R s.env.host s.env.host) (events events' : List Event)
    (same : List.Forall₂ Event.SameButPayload events events') :
    (s.run events).env.trace = (s.run events').env.trace := by
  have start : s.Twin R s := ⟨rfl, rfl, rfl, host, rfl, rfl, rfl, rfl⟩
  exact (start.run alike same).env.trace

end

/-! ### A write and another -/

open scoped Sample

namespace Sample

/-- The server, with a trace sink. -/
def traced : ServerState := { Sample.server with traceSink := true }

/-- A WRITE of one byte, in front of the byte. -/
def beforeByte : Bytes :=
  (Client.header .write 0 1 1).write ++ u16le 49 ++ u16le 112 ++ u32le 1 ++ u64le 0 ++
    FileId.write ⟨1, 1⟩ ++ u32le 0 ++ u32le 0 ++ u16le 0 ++ u16le 0 ++ u32le 0

/-- A client opens a file. -/
def opensFile : List Event :=
  Sample.session (Sample.anonymousOn ['w'] ++
    [Client.plain .create 1 1 (Client.createBody Create.fileWriteData 3 0 ['x'])])

/-- It writes one byte to it. -/
def writesByte (b : UInt8) : List Event := opensFile ++ [.frame 1 (beforeByte ++ [b])]

/-- The application answers without looking at what is written. -/
theorem answersAlike : AnswersAlike fun _ _ : Unit => True where
  «open» _ _ _ _ _ _ := ⟨rfl, trivial⟩
  unlink _ _ _ _ _ := ⟨rfl, trivial⟩
  rename _ _ _ _ _ _ _ := ⟨rfl, trivial⟩
  read _ _ _ _ _ _ := ⟨rfl, trivial⟩
  writeOwned _ _ _ _ length _ _ _ :=
    ⟨congrArg (fun n => Except.ok (UInt32.ofNat n)) length, trivial⟩
  flush _ _ _ _ := ⟨rfl, trivial⟩
  stat _ _ _ _ := ⟨rfl, trivial⟩
  setTimes _ _ _ _ _ := ⟨rfl, trivial⟩
  truncate _ _ _ _ _ := ⟨rfl, trivial⟩
  listDir _ _ _ _ _ := ⟨rfl, trivial⟩
  close _ _ _ _ := ⟨rfl, trivial⟩
  fillRandom _ _ _ _ := ⟨rfl, trivial⟩
  nowFiletime _ _ _ := ⟨rfl, trivial⟩

/-- The last byte is the payload. -/
theorem payloadsOnly_byte : PayloadsOnly (beforeByte ++ [7]) (beforeByte ++ [9]) := by
  refine ⟨by decide, fun i differ => ?_⟩
  have front : beforeByte.length = 112 := by decide
  have last : i = 112 := by
    rcases Nat.lt_trichotomy i 112 with before | last | behind
    · rw [List.getElem?_append_left (by omega), List.getElem?_append_left (by omega)] at differ
      exact absurd rfl differ
    · exact last
    · rw [List.getElem?_eq_none (by simp; omega), List.getElem?_eq_none (by simp; omega)] at differ
      exact absurd rfl differ
  subst last
  have split : splitElement (beforeByte ++ [7]) =
      some (Client.header .write 0 1 1, beforeByte ++ [7], 0) := by decide +kernel
  exact .here split rfl (by decide) (by decide) (by decide)

end Sample

/-- One byte or the other: the trace is the same, and the WRITE is in it. -/
theorem trace_independent_of_payloads_byte :
    ((System.start Sample.traced () : System Unit Unit).run (Sample.writesByte 7)).env.trace =
        ((System.start Sample.traced () : System Unit Unit).run (Sample.writesByte 9)).env.trace ∧
      (⟨some ⟨1, 0, 0⟩, .write (FileId.write ⟨1, 1⟩) 0 1⟩ : TraceRecord) ∈
        ((System.start Sample.traced () : System Unit Unit).run
          (Sample.writesByte 7)).env.trace := by
  refine ⟨?_, by decide +kernel⟩
  refine trace_independent_of_payloads (fun _ _ => True) Sample.answersAlike
    (System.start Sample.traced ()) trivial _ _ ?_
  refine List.rel_append (List.forall₂_same.mpr fun e _ => .same e) ?_
  exact .cons (.frame 1 Sample.payloadsOnly_byte) .nil

end SmbServer
