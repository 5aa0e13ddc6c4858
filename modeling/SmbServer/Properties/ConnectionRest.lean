import SmbServer.Properties.ConnectionOrder
import SmbServer.Effects.System
import Mathlib.Order.WellFounded
import Mathlib.Data.List.GetD

/-!
# SmbServer.Properties.ConnectionRest

The tasks of the connections come to an end.

## Main result

`connections_come_to_rest`: the tasks of the connections that have been accepted cannot run forever,
whatever the order, and they never wait for each other: where none of them can take an action, every
`connection_loop` has returned, its connection is no longer registered, and every answer has been
written, except where the socket failed.

## Proof strategy

Every action of a task either takes a byte off the socket or brings a frame or a response one phase
further, and among the actions that do not, every one brings bytes nearer to the wire
(`LoopStep.decreases`). `LoopStep.exists_of_running` finds the next action of a connection from where
its reader and its writer are; the bounded channel is what the two may wait for, and never both.
-/

namespace SmbServer

open Lib

/-! ### What is left to do -/

namespace ConnectionLoop

/-- What the reader has ahead of it, each frame counted with its phases. -/
def ahead (l : ConnectionLoop) : Nat :=
  match l.reader with
  | .reads => l.socket.bytes.length + 1
  | .loadsFlag _ => l.socket.bytes.length + 4
  | .dispatches _ => l.socket.bytes.length + 3
  | .sends _ => l.socket.bytes.length + 2
  | .returned _ => 0

/-- What lies between the channel and the wire. -/
def behind (l : ConnectionLoop) : Nat :=
  (l.channel.queue.map fun payload => (encodeFrame payload).length + 2).sum +
    (match l.writer with
      | .receives => 1
      | .writes rest => rest.length + 2
      | .failed | .drained => 0) +
    (!l.returned).toNat

end ConnectionLoop

/-- Reading a frame takes bytes off the socket. -/
theorem length_of_readOneFrame {socket left : Source} {frame : Bytes}
    (got : readOneFrame socket = .ok (some (frame, left))) :
    left.bytes.length + 4 ≤ socket.bytes.length := by
  have front := ConnectionLoop.decodeFrame_of_readOneFrame got
  rw [((decodeFrame_eq_some_iff _ _ _).mp front).1, List.length_append, length_encodeFrame]
  omega

/-- Every action of a task brings it nearer to its end. -/
theorem LoopStep.decreases {l l' : ConnectionLoop} {a : LoopAction} (step : LoopStep l a l') :
    l'.ahead < l.ahead ∨ l'.ahead = l.ahead ∧ l'.behind < l.behind := by
  cases step with
  | readFrame frame left here got =>
    have taken := length_of_readOneFrame got
    left
    simp only [ConnectionLoop.ahead, here]
    omega
  | readNothing here got | readError e here got | readFails here | flagClear frame here
  | flagSet frame here | send response channel here sent | sendClosed response here closed =>
    left
    simp only [ConnectionLoop.ahead, ConnectionLoop.readerReturns, here]
    omega
  | dispatch frame answer here =>
    left
    cases answer <;>
      · simp only [ConnectionLoop.ahead, ReaderTask.afterDispatch, here]
        omega
  | recv payload channel here received =>
    right
    refine ⟨rfl, ?_⟩
    simp only [ConnectionLoop.behind, here, (Channel.recv_eq_received received).1, List.map_cons,
      List.sum_cons]
    omega
  | recvClosed here closed =>
    right
    refine ⟨rfl, ?_⟩
    simp only [ConnectionLoop.behind, ConnectionLoop.writerReturns, here,
      (Channel.recv_eq_closed closed).1, Channel.dropReceiver_queue, List.map_nil, List.sum_nil]
    omega
  | writeSome piece rest some here =>
    have taken := List.length_pos_iff.mpr some
    right
    refine ⟨rfl, ?_⟩
    simp only [ConnectionLoop.behind, here, List.length_append]
    omega
  | writeDone here =>
    right
    refine ⟨rfl, ?_⟩
    simp only [ConnectionLoop.behind, here, List.length_nil]
    omega
  | writeFails rest here more =>
    right
    refine ⟨rfl, ?_⟩
    simp only [ConnectionLoop.behind, ConnectionLoop.writerReturns, here,
      Channel.dropReceiver_queue, List.map_nil, List.sum_nil]
    omega
  | unregister exit reader writer running =>
    right
    refine ⟨rfl, ?_⟩
    simp only [ConnectionLoop.behind, running, Bool.not_false, Bool.not_true, Bool.toNat_true,
      Bool.toNat_false]
    omega

/-- One entry of a list is replaced in a sum over all. -/
theorem sum_map_set {α : Type} (f : α → Nat) (xs : List α) (i : Nat) (x y : α)
    (here : xs[i]? = some x) : ((xs.set i y).map f).sum + f x = (xs.map f).sum + f y := by
  induction xs generalizing i with
  | nil => cases here
  | cons z xs ih =>
    cases i with
    | zero =>
      cases here
      simp only [List.set_cons_zero, List.map_cons, List.sum_cons]
      omega
    | succ i =>
      have rest := ih i here
      simp only [List.set_cons_succ, List.map_cons, List.sum_cons]
      omega

/-- `connection_loop` returns by one action only. -/
theorem LoopStep.returned_eq {l l' : ConnectionLoop} {a : LoopAction} (step : LoopStep l a l')
    (other : a ≠ .unregister) : l'.returned = l.returned := by
  cases step with
  | unregister => exact absurd rfl other
  | readFrame | readNothing | readError | readFails | flagClear | flagSet | dispatch | send
  | sendClosed | recv | recvClosed | writeSome | writeDone | writeFails => rfl

theorem LoopStep.shuttingDown_cases {l l' : ConnectionLoop} {a : LoopAction}
    (step : LoopStep l a l') (frame : Bytes) (exit : l'.reader = .returned (.shuttingDown frame)) :
    a = .loadFlag true ∨ l.reader = .returned (.shuttingDown frame) := by
  cases step with
  | flagSet => exact .inl rfl
  | dispatch frame answer here => cases answer <;> cases exit
  | readFrame | readNothing | readError | readFails | flagClear | send | sendClosed => cases exit
  | recv | recvClosed | writeSome | writeDone | writeFails | unregister => exact .inr exit

/-! ### The next action of a connection -/

/-- As long as a connection has not returned, one of its tasks can take an action; only the
dispatcher has to answer. -/
theorem LoopStep.exists_of_running {l : ConnectionLoop} (sound : l.Sound)
    (running : l.returned = false) :
    (∃ l', LoopStep l .read l') ∨ (∀ flag, ∃ l', LoopStep l (.loadFlag flag) l') ∨
      (∃ frame, ∀ answer, ∃ l', LoopStep l (.dispatch frame answer) l') ∨
      (∃ l', LoopStep l .send l') ∨ (∃ l', LoopStep l .recv l') ∨ (∃ l', LoopStep l .write l') ∨
      ∃ l', LoopStep l .unregister l' := by
  -- the writer goes on if it has anything to go on with
  have writer (more : ¬(l.writer = .failed ∨ l.writer = .drained))
      (some : l.channel.recv ≠ .empty) :
      (∃ l', LoopStep l .recv l') ∨ ∃ l', LoopStep l .write l' := by
    cases there : l.writer with
    | failed => exact absurd (.inl there) more
    | drained => exact absurd (.inr there) more
    | writes rest =>
      right
      cases rest with
      | nil => exact ⟨_, .writeDone l there⟩
      | cons first rest => exact ⟨_, .writeSome l [first] rest (List.cons_ne_nil _ _) there⟩
    | receives =>
      left
      cases result : l.channel.recv with
      | received payload channel => exact ⟨_, .recv l payload channel there result⟩
      | closed => exact ⟨_, .recvClosed l there result⟩
      | empty => exact absurd result some
  cases here : l.reader with
  | reads =>
    left
    cases got : readOneFrame l.socket with
    | error e => exact ⟨_, .readError l e here got⟩
    | ok result =>
      cases result with
      | none => exact ⟨_, .readNothing l here got⟩
      | some parts => exact ⟨_, .readFrame l parts.1 parts.2 here got⟩
  | loadsFlag frame =>
    right; left
    intro flag
    cases flag with
    | false => exact ⟨_, .flagClear l frame here⟩
    | true => exact ⟨_, .flagSet l frame here⟩
  | dispatches frame =>
    right; right; left
    exact ⟨frame, fun answer => ⟨_, .dispatch l frame answer here⟩⟩
  | sends response =>
    right; right; right
    cases result : l.channel.send response with
    | sent channel => exact .inl ⟨_, .send l response channel here result⟩
    | closed => exact .inl ⟨_, .sendClosed l response here result⟩
    | full =>
      -- the writer makes room: it cannot wait at the same time
      obtain ⟨front, channel, received⟩ := Channel.recv_of_full (by decide) result
      right
      have held : ¬(l.writer = .failed ∨ l.writer = .drained) := by
        intro gone
        have dropped := l.channel.dropped (sound.holding.receiver.mpr gone)
        rw [(Channel.recv_eq_received received).1] at dropped
        cases dropped
      rcases writer held (by rw [received]; simp) with recv | write
      · exact .inl recv
      · exact .inr (.inl write)
  | returned exit =>
    right; right; right; right
    by_cases gone : l.writer = .failed ∨ l.writer = .drained
    · exact .inr (.inr ⟨_, .unregister l exit here gone running⟩)
    · -- the channel has lost its sender
      have closed := sound.holding.sender.mpr ⟨exit, here⟩
      have some : l.channel.recv ≠ .empty := by
        intro empty
        cases closed.symm.trans (Channel.recv_eq_empty empty).2
      rcases writer gone some with recv | write
      · exact .inl recv
      · exact .inr (.inl write)

/-! ### All tasks -/

section
variable {σ η : Type} [Host σ η] [Crypto]

/-- Some task of some connection takes an action. -/
def TaskMove (s s' : Connections σ η) : Prop := ∃ i a, ServerStep s (.task i a) s'

theorem SharedStep.flag_eq {s : Connections σ η} {i : Nat} {connId : UInt64} {seen : Bool}
    {system : System σ η} {entries : List LogEntry}
    (shared : SharedStep s i connId (.loadFlag seen) system entries) : seen = s.shuttingDown := by
  cases shared
  rfl

/-- What all tasks have left to do. -/
def Connections.left (s : Connections σ η) : Nat × Nat :=
  ((s.loops.map ConnectionLoop.ahead).sum, (s.loops.map ConnectionLoop.behind).sum)

theorem TaskMove.decreases {s s' : Connections σ η} (move : TaskMove s s') :
    Prod.Lex (· < ·) (· < ·) s'.left s.left := by
  obtain ⟨i, a, step⟩ := move
  cases step with
  | task _ _ l l' system entries here step shared =>
    have ahead := sum_map_set ConnectionLoop.ahead s.loops i l l' here
    have behind := sum_map_set ConnectionLoop.behind s.loops i l l' here
    rw [Prod.lex_def]
    simp only [Connections.left]
    rcases step.decreases with less | ⟨same, less⟩
    · left
      omega
    · right
      omega

/-- The tasks cannot run forever, whatever the order. -/
theorem taskMove_wellFounded : WellFounded fun s' s : Connections σ η => TaskMove s s' :=
  Subrelation.wf (fun move => move.decreases)
    (InvImage.wf Connections.left (WellFounded.prod_lex Nat.lt_wfRel.wf Nat.lt_wfRel.wf))

/-! ### The connections that are registered -/

namespace System

/-- What a system keeps of its connections when it works on them. -/
structure SameConnections (s s' : System σ η) : Prop where
  nextConnId : s'.nextConnId = s.nextConnId
  live : ∀ cid, (s'.conns.lookup cid).isSome = (s.conns.lookup cid).isSome

omit [Host σ η] [Crypto] in
theorem sameConnections_onConn {α : Type} (s : System σ η) (cid : UInt64)
    (m : Action (World σ η) α) : s.SameConnections (s.onConn cid m).2 where
  nextConnId := by
    rw [onConn]
    split <;> rfl
  live cid' := by
    rw [lookup_onConn]
    split
    · exact Option.isSome_map
    · rfl

omit [Host σ η] [Crypto] in
theorem sameConnections_onEach (s : System σ η) (m : Action (World σ η) Unit) :
    s.SameConnections (s.onEach m) := by
  rw [onEach]
  generalize s.conns.keys = cids
  induction cids generalizing s with
  | nil => exact ⟨rfl, fun _ => rfl⟩
  | cons cid rest ih =>
    have first := s.sameConnections_onConn cid m
    have others := ih (s.onConn cid m).2
    exact ⟨others.nextConnId.trans first.nextConnId,
      fun cid' => (others.live cid').trans (first.live cid')⟩

theorem sameConnections_configure (s : System σ η) (op : ConfigOp) :
    s.SameConnections (s.configure op).2 := by
  rw [configure]
  split
  · exact ⟨rfl, fun _ => rfl⟩
  next server sweep _ =>
    have swept := sameConnections_onEach ({ s with server := server } : System σ η)
      (Sweep.onConnection sweep)
    exact ⟨swept.nextConnId, swept.live⟩

/-- A live connection is served. -/
theorem exists_serve {s : System σ η} {cid : UInt64} (live : (s.conns.lookup cid).isSome = true)
    (frame : Bytes) : ∃ answer s', s.serve cid frame = (some answer, s') := by
  obtain ⟨conn, here⟩ := Option.isSome_iff_exists.mp live
  rw [serve, onConn, here]
  exact ⟨_, _, rfl⟩

end System

/-- Ids are given out in order, and a connection is registered until its loop returns. -/
structure Connections.Registered (s : Connections σ η) : Prop where
  nextConnId : s.system.nextConnId = UInt64.ofNat (s.loops.length + 1)
  connId : ∀ i l, s.loops[i]? = some l → l.connId = UInt64.ofNat (i + 1)
  live : ∀ (i : Nat) (l : ConnectionLoop), s.loops[i]? = some l →
    (s.system.conns.lookup l.connId).isSome = !l.returned

namespace Connections

variable {s s' : Connections σ η}

omit [Host σ η] [Crypto] in
/-- No two of the connections have the same id, as long as the ids do not wrap around. -/
theorem Registered.distinct (here : s.Registered) (few : s.loops.length ≤ 2 ^ 64) {i j : Nat}
    {l k : ConnectionLoop} (first : s.loops[i]? = some l) (second : s.loops[j]? = some k)
    (same : l.connId = k.connId) : i = j := by
  have ibound := (List.getElem?_eq_some_iff.mp first).1
  have jbound := (List.getElem?_eq_some_iff.mp second).1
  rw [here.connId i l first, here.connId j k second] at same
  have values := congrArg UInt64.toNat same
  rw [UInt64.toNat_ofNat', UInt64.toNat_ofNat'] at values
  omega

theorem Registered.step {a : ServerAction} (step : ServerStep s a s')
    (few : s'.loops.length ≤ 2 ^ 64) (before : s.Registered) : s'.Registered := by
  cases step with
  | accept socket =>
    simp only [List.length_append, List.length_cons, List.length_nil] at few
    -- the new id is not in use
    have fresh (i : Nat) (l : ConnectionLoop) (here : s.loops[i]? = some l) :
        l.connId ≠ s.system.nextConnId := by
      have bound := (List.getElem?_eq_some_iff.mp here).1
      intro same
      rw [before.connId i l here, before.nextConnId] at same
      have values := congrArg UInt64.toNat same
      rw [UInt64.toNat_ofNat', UInt64.toNat_ofNat'] at values
      omega
    have oldOrNew (i : Nat) (l : ConnectionLoop)
        (here : (s.loops ++ [ConnectionLoop.start s.system.nextConnId socket])[i]? = some l) :
        s.loops[i]? = some l ∨
          i = s.loops.length ∧ l = .start s.system.nextConnId socket := by
      rw [List.getElem?_append] at here
      split at here
      · exact .inl here
      next behind =>
        rw [List.getElem?_singleton] at here
        split at here
        · exact .inr ⟨by omega, (Option.some.inj here).symm⟩
        · cases here
    constructor
    · simp only [System.accept, before.nextConnId, List.length_append, List.length_cons,
        List.length_nil]
      rw [UInt64.ofNat_add (s.loops.length + 1) 1]
      rfl
    · intro i l here
      rcases oldOrNew i l here with old | ⟨rfl, rfl⟩
      · exact before.connId i l old
      · exact before.nextConnId
    · intro i l here
      simp only [System.accept, Table.lookup_insert]
      rcases oldOrNew i l here with old | ⟨rfl, rfl⟩
      · rw [if_neg (fresh i l old)]
        exact before.live i l old
      · exact congrArg Option.isSome (if_pos rfl)
  | task i a l l' system entries here step shared =>
    have inside : i < s.loops.length := (List.getElem?_eq_some_iff.mp here).1
    simp only [List.length_set] at few
    have entry (j : Nat) (k : ConnectionLoop) (there : (s.loops.set i l')[j]? = some k) :
        i = j ∧ k = l' ∨ i ≠ j ∧ s.loops[j]? = some k := by
      rw [List.getElem?_set] at there
      split at there
      next own =>
        exact .inl ⟨own, (Option.some.inj there).symm⟩
      next other => exact .inr ⟨other, there⟩
    have connId (j : Nat) (k : ConnectionLoop) (there : (s.loops.set i l')[j]? = some k) :
        k.connId = UInt64.ofNat (j + 1) := by
      rcases entry j k there with ⟨rfl, rfl⟩ | ⟨-, old⟩
      · rw [step.connId_eq]
        exact before.connId i l here
      · exact before.connId j k old
    -- an action that leaves the registered connections as they are
    have kept (same : s.system.SameConnections system) (runs : l'.returned = l.returned) :
        Registered { s with
          system := system, loops := s.loops.set i l', log := s.log ++ entries } := by
      refine ⟨?_, connId, ?_⟩
      · dsimp only
        rw [same.nextConnId, List.length_set]
        exact before.nextConnId
      · intro j k there
        dsimp only
        rw [same.live]
        rcases entry j k there with ⟨rfl, rfl⟩ | ⟨-, old⟩
        · rw [step.connId_eq, runs]
          exact before.live i l here
        · exact before.live j k old
    have still : s.system.SameConnections s.system := ⟨rfl, fun _ => rfl⟩
    cases shared with
    | dispatch frame answer system served =>
      have same := s.system.sameConnections_onConn l.connId (dispatchFrame s.system.server frame)
      change s.system.SameConnections (s.system.serve l.connId frame).2 at same
      rw [served] at same
      exact kept same (step.returned_eq LoopAction.noConfusion)
    | unregister =>
      refine ⟨?_, connId, ?_⟩
      · dsimp only
        rw [List.length_set]
        exact before.nextConnId
      · intro j k there
        simp only [System.hangup, Table.lookup_erase]
        rcases entry j k there with ⟨rfl, rfl⟩ | ⟨other, old⟩
        · rw [if_pos step.connId_eq]
          cases step
          rfl
        · rw [if_neg fun same => other (before.distinct few here old same.symm)]
          exact before.live j k old
    | read | readFails | loadFlag | send | recv | write | writeFails =>
      exact kept still (step.returned_eq LoopAction.noConfusion)
  | config op =>
    have same := s.system.sameConnections_configure op
    refine ⟨same.nextConnId.trans before.nextConnId, before.connId, ?_⟩
    intro i l here
    exact (same.live l.connId).trans (before.live i l here)
  | shutdown => exact ⟨before.nextConnId, before.connId, before.live⟩

theorem Registered.exists_move (registered : s.Registered) {i : Nat} {l : ConnectionLoop}
    (here : s.loops[i]? = some l) (sound : l.Sound) (running : l.returned = false) :
    ∃ s', TaskMove s s' := by
  rcases LoopStep.exists_of_running sound running with ⟨l', step⟩ | any | ⟨frame, any⟩ |
    ⟨l', step⟩ | ⟨l', step⟩ | ⟨l', step⟩ | ⟨l', step⟩
  · exact ⟨_, i, _, .task s i _ l l' _ _ here step .read⟩
  · obtain ⟨l', step⟩ := any s.shuttingDown
    exact ⟨_, i, _, .task s i _ l l' _ _ here step .loadFlag⟩
  · -- the connection is registered, so the dispatcher answers
    have live := registered.live i l here
    rw [running] at live
    obtain ⟨answer, system, served⟩ := System.exists_serve live frame
    obtain ⟨l', step⟩ := any answer
    exact ⟨_, i, _, .task s i _ l l' _ _ here step (.dispatch frame answer system served)⟩
  · exact ⟨_, i, _, .task s i _ l l' _ _ here step .send⟩
  · exact ⟨_, i, _, .task s i _ l l' _ _ here step .recv⟩
  · exact ⟨_, i, _, .task s i _ l l' _ _ here step .write⟩
  · exact ⟨_, i, _, .task s i _ l l' _ _ here step .unregister⟩

omit [Host σ η] [Crypto] in
/-- A reader that has returned because of the flag has seen it. -/
def Flagged (s : Connections σ η) : Prop :=
  ∀ l ∈ s.loops, ∀ frame, l.reader = .returned (.shuttingDown frame) → s.shuttingDown = true

theorem Flagged.step {a : ServerAction} (step : ServerStep s a s') (before : s.Flagged) :
    s'.Flagged := by
  cases step with
  | accept socket =>
    intro l member frame same
    rcases List.mem_append.mp member with old | new
    · exact before l old frame same
    · rw [List.mem_singleton.mp new] at same
      cases same
  | task i a l l' system entries here step shared =>
    intro k member frame same
    rcases List.mem_or_eq_of_mem_set member with old | rfl
    · exact before k old frame same
    rcases step.shuttingDown_cases frame same with rfl | already
    · exact shared.flag_eq.symm
    · exact before l (List.mem_of_getElem? here) frame already
  | config op => exact before
  | shutdown => exact fun _ _ _ _ => rfl

omit [Host σ η] [Crypto] in
theorem start_flagged (server : ServerState) (host : σ) :
    (start server host : Connections σ η).Flagged := fun _ member => absurd member List.not_mem_nil

end Connections

/-- Where tasks that are left to themselves end up. -/
theorem connections_come_to_rest (server : ServerState) (host : σ) (s : Connections σ η)
    (run : Reachable ServerStep (Connections.start server host) s)
    (few : s.loops.length ≤ 2 ^ 64) :
    Acc (fun s' s => TaskMove s s') s ∧
      ∀ t, Relation.ReflTransGen TaskMove s t → (∀ u, ¬TaskMove t u) →
        ∀ (i : Nat) (l : ConnectionLoop), t.loops[i]? = some l →
          l.returned = true ∧ t.system.conns.lookup l.connId = none ∧
            (l.writer = .failed ∨
              l.written = (answersOf (t.exchanges i)).flatMap encodeFrame) ∧
            (l.writer = .failed ∨ l.reader = .returned .socketError ∨ t.shuttingDown = true ∨
              ∀ frames rest, CompleteFrames l.stream frames rest →
                (t.exchanges i).map Prod.fst = frames) := by
  refine ⟨taskMove_wellFounded.apply s, ?_⟩
  intro t moves stuck i l here
  have reached : Reachable ServerStep (Connections.start server host) t := by
    apply run.trans
    apply moves.lift id
    rintro s s' ⟨i, a, step⟩
    exact ⟨_, trivial, step⟩
  have short : t.loops.length ≤ 2 ^ 64 := by
    clear stuck here reached
    induction moves with
    | refl => exact few
    | tail _ last ih =>
      obtain ⟨j, a, step⟩ := last
      cases step
      rw [List.length_set]
      exact ih
  have registered : t.Registered := by
    apply reached.invariant (fun s => s.loops.length ≤ 2 ^ 64 → s.Registered) _ _ short
    · intro s a u before _ step bound
      have fewer : s.loops.length ≤ 2 ^ 64 := by
        cases step with
        | accept socket =>
          rw [List.length_append] at bound
          exact Nat.le_trans (Nat.le_add_right _ _) bound
        | task => rwa [List.length_set] at bound
        | config op => exact bound
        | shutdown => exact bound
      exact (before fewer).step step bound
    · intro _
      constructor <;> simp [Connections.start, System.start]
  have flagged : t.Flagged := by
    apply reached.invariant Connections.Flagged _ (Connections.start_flagged server host)
    intro s a u before _ step
    exact before.step step
  have tracked := Connections.tracked_of_reachable reached
  have member := List.mem_of_getElem? here
  have sound := tracked.sound l member
  have returned : l.returned = true := by
    by_contra running
    obtain ⟨u, move⟩ := registered.exists_move here sound (Bool.eq_false_iff.mpr running)
    exact stuck u move
  obtain ⟨⟨exit, there⟩, writer⟩ := sound.holding.returned returned
  have order := sound.inOrder
  rw [← tracked.logged i l here] at order
  refine ⟨returned, ?_, ?_, ?_⟩
  · have gone := registered.live i l here
    rw [returned] at gone
    exact Option.isSome_eq_false_iff.mp gone |> Option.isNone_iff_eq_none.mp
  · rcases writer with failed | drained
    · exact .inl failed
    · exact .inr (order.drained drained)
  · cases exit with
    | closed => exact .inr (.inr (.inr (order.complete (.inl there))))
    | frameError e => exact .inr (.inr (.inr (order.complete (.inr ⟨e, there⟩))))
    | socketError => exact .inr (.inl there)
    | shuttingDown frame => exact .inr (.inr (.inl (flagged l member frame there)))
    | channelClosed => exact .inl (sound.holding.closed there)

end

open scoped Sample in
/-- From the dispatch of a frame on. -/
theorem connections_come_to_rest_oneFrame : ∃ s : Connections Unit Unit,
    s.exchanges 0 ≠ [] ∧ Acc (fun s' s => TaskMove s s') s ∧
      ∀ t, Relation.ReflTransGen TaskMove s t → (∀ u, ¬TaskMove t u) →
        ∀ (i : Nat) (l : ConnectionLoop), t.loops[i]? = some l →
          l.returned = true ∧ t.system.conns.lookup l.connId = none ∧
            (l.writer = .failed ∨
              l.written = (answersOf (t.exchanges i)).flatMap encodeFrame) ∧
            (l.writer = .failed ∨ l.reader = .returned .socketError ∨ t.shuttingDown = true ∨
              ∀ frames rest, CompleteFrames l.stream frames rest →
                (t.exchanges i).map Prod.fst = frames) := by
  obtain ⟨s, run, one, single⟩ := Sample.oneFrame_dispatched
  refine ⟨s, ?_, connections_come_to_rest Sample.server () s run (by rw [single]; decide)⟩
  rw [one]
  exact List.cons_ne_nil _ _

end SmbServer
