import SmbServer.Concurrency.Connections
import SmbServer.Properties.FrameGrammar
import SmbServer.Client

/-!
# SmbServer.Properties.ConnectionOrder

What travels through the tasks of a connection, and what the tasks of all connections make of the
server.

## Main result

`connections_in_order`: in whatever order the tasks of all connections, the configuration operations
and `shutdown()` take turns, the shared state is the one that the logged events lead to, one after
another. Every connection has had dispatched the frames that its client has sent, in order and each
once, and what its client has been sent is the answers to them, in order and each once, as far as
they are written. A client that reads frames off its side finds nothing but those answers.

## Proof strategy

`Receiving`, `Holding` and `Delivering` say where the bytes of a connection are: on the socket, in
the hands of the reader, in the channel, in the hands of the writer, or written. Every action of a
task keeps them. The log is followed by induction on the run.
-/

namespace SmbServer

open Lib

/-- The answers among what has been dispatched. -/
def answersOf (dispatched : List (Bytes × Option Bytes)) : List Bytes := dispatched.filterMap Prod.snd

/-- The frame that the reader has in its hands, also for good when it drops it. -/
def ReaderTask.held : ReaderTask → List Bytes
  | .loadsFlag frame | .dispatches frame | .returned (.shuttingDown frame) => [frame]
  | _ => []

/-- The response that the reader is about to pass on. -/
def ReaderTask.inHand : ReaderTask → List Bytes
  | .sends response => [response]
  | _ => []

def WriterTask.rest : WriterTask → Bytes
  | .writes rest => rest
  | _ => []

namespace ConnectionLoop

variable {l l' : ConnectionLoop} {a : LoopAction}

/-! ### From the socket to the dispatcher -/

/-- The frames that have been read are the ones in front of the stream, and they have all been
dispatched but the one in hand. -/
structure Receiving (l : ConnectionLoop) : Prop where
  split : l.stream =
    (l.dispatched.map Prod.fst ++ l.reader.held).flatMap encodeFrame ++ l.socket.bytes
  measured : ∀ frame ∈ l.dispatched.map Prod.fst ++ l.reader.held,
    frame.length ≤ maxFramePayload
  ended : l.reader = .returned .closed ∨ (∃ e, l.reader = .returned (.frameError e)) →
    decodeFrame l.socket.bytes = none

/-- A frame that is read is in front of what the socket holds. -/
theorem decodeFrame_of_readOneFrame {socket left : Source} {frame : Bytes}
    (got : readOneFrame socket = .ok (some (frame, left))) :
    decodeFrame socket.bytes = some (frame, left.bytes) := by
  cases front : decodeFrame socket.bytes with
  | none =>
    have stops := readOneFrame_of_none front
    rw [got] at stops
    cases stop : stopBefore socket.bytes with
    | ok => rw [stop] at stops; cases stops
    | error e => rw [stop] at stops; cases stops
  | some parts =>
    obtain ⟨frame', behind⟩ := parts
    obtain ⟨left', got', rest⟩ := readOneFrame_of_frame front
    rw [got] at got'
    cases got'
    rw [rest]

/-- A reader that stops has no complete frame in front of it. -/
theorem decodeFrame_of_stop {socket : Source}
    (stops : ∀ frame left, readOneFrame socket ≠ .ok (some (frame, left))) :
    decodeFrame socket.bytes = none := by
  cases front : decodeFrame socket.bytes with
  | none => rfl
  | some parts =>
    obtain ⟨frame, behind⟩ := parts
    obtain ⟨left, got, -⟩ := readOneFrame_of_frame front
    exact absurd got (stops frame left)

/-- A reader that returns without a frame in hand keeps what it has received. -/
theorem Receiving.returns (before : l.Receiving) (exit : ReaderExit)
    (held : l.reader.held = (ReaderTask.returned exit).held)
    (ended : exit = .closed ∨ (∃ e, exit = .frameError e) → decodeFrame l.socket.bytes = none) :
    (l.readerReturns exit).Receiving where
  split := by
    have split := before.split
    rw [held] at split
    exact split
  measured := by
    have measured := before.measured
    rw [held] at measured
    exact measured
  ended := by
    rintro (same | ⟨e, same⟩)
    · cases same
      exact ended (.inl rfl)
    · cases same
      exact ended (.inr ⟨e, rfl⟩)

theorem Receiving.step (step : LoopStep l a l') (before : l.Receiving) : l'.Receiving := by
  have split := before.split
  have measured := before.measured
  cases step with
  | readFrame frame left here got =>
    obtain ⟨shape, short⟩ := (decodeFrame_eq_some_iff _ _ _).mp (decodeFrame_of_readOneFrame got)
    rw [here] at split measured
    simp only [ReaderTask.held, List.append_nil] at split measured
    refine ⟨?_, ?_, ?_⟩
    · simp only [ReaderTask.held, List.flatMap_append, List.flatMap_cons, List.flatMap_nil,
        List.append_nil, List.append_assoc]
      rw [split, shape]
    · intro p member
      rcases List.mem_append.mp member with early | last
      · exact measured p early
      · rw [List.mem_singleton.mp last]
        exact short
    · rintro (same | ⟨e, same⟩) <;> cases same
  | readNothing here got =>
    apply before.returns
    · rw [here]
      rfl
    · intro _
      apply decodeFrame_of_stop
      intro frame left some
      cases got.symm.trans some
  | readError e here got =>
    apply before.returns
    · rw [here]
      rfl
    · intro _
      apply decodeFrame_of_stop
      intro frame left some
      cases got.symm.trans some
  | readFails here =>
    apply before.returns
    · rw [here]
      rfl
    · rintro (same | ⟨e, same⟩) <;> cases same
  | flagClear frame here =>
    rw [here] at split measured
    refine ⟨split, measured, ?_⟩
    rintro (same | ⟨e, same⟩) <;> cases same
  | flagSet frame here =>
    apply before.returns
    · rw [here]
      rfl
    · rintro (same | ⟨e, same⟩) <;> cases same
  | dispatch frame answer here =>
    -- the frame in hand is now among the dispatched
    have free : (ReaderTask.afterDispatch answer).held = [] := by cases answer <;> rfl
    have same : (l.dispatched ++ [(frame, answer)]).map Prod.fst =
        l.dispatched.map Prod.fst ++ [frame] := by simp
    rw [here] at split measured
    refine ⟨?_, ?_, ?_⟩
    · dsimp only
      rw [same, free, List.append_nil]
      exact split
    · dsimp only
      rw [same, free, List.append_nil]
      exact measured
    · cases answer <;> rintro (same | ⟨e, same⟩) <;> cases same
  | send response channel here sent =>
    rw [here] at split measured
    refine ⟨split, measured, ?_⟩
    rintro (same | ⟨e, same⟩) <;> cases same
  | sendClosed response here closed =>
    apply before.returns
    · rw [here]
      rfl
    · rintro (same | ⟨e, same⟩) <;> cases same
  -- the writer does not touch what the reader has
  | recv | recvClosed | writeSome | writeDone | writeFails | unregister =>
    exact ⟨split, measured, before.ended⟩

/-! ### Who holds the channel -/

/-- The reader holds the sending end and the writer the receiving end for as long as they run. -/
structure Holding (l : ConnectionLoop) : Prop where
  sender : l.channel.sender = false ↔ ∃ exit, l.reader = .returned exit
  receiver : l.channel.receiver = false ↔ l.writer = .failed ∨ l.writer = .drained
  drained : l.writer = .drained → ∃ exit, l.reader = .returned exit
  closed : l.reader = .returned .channelClosed → l.writer = .failed
  returned : l.returned = true →
    (∃ exit, l.reader = .returned exit) ∧ (l.writer = .failed ∨ l.writer = .drained)

/-- The reader goes on with a channel whose ends are held as before. -/
theorem Holding.reads (before : l.Holding) (socket : Source) (reader : ReaderTask)
    (channel : Channel Bytes writerChannel) (dispatched : List (Bytes × Option Bytes))
    (runs : ∀ exit, l.reader ≠ .returned exit) (goes : ∀ exit, reader ≠ .returned exit)
    (sender : channel.sender = l.channel.sender) (receiver : channel.receiver = l.channel.receiver) :
    Holding { l with
      socket := socket, reader := reader, channel := channel, dispatched := dispatched } where
  sender := by
    dsimp only
    rw [sender, before.sender]
    constructor
    · rintro ⟨exit, here⟩
      exact absurd here (runs exit)
    · rintro ⟨exit, here⟩
      exact absurd here (goes exit)
  receiver := receiver ▸ before.receiver
  drained done := by
    obtain ⟨exit, here⟩ := before.drained done
    exact absurd here (runs exit)
  closed here := absurd here (goes _)
  returned done := by
    obtain ⟨⟨exit, here⟩, -⟩ := before.returned done
    exact absurd here (runs exit)

/-- The reader returns. -/
theorem Holding.readerReturns (before : l.Holding) (exit : ReaderExit)
    (runs : ∀ exit, l.reader ≠ .returned exit)
    (closed : exit = .channelClosed → l.channel.receiver = false) :
    (l.readerReturns exit).Holding where
  sender := ⟨fun _ => ⟨exit, rfl⟩, fun _ => rfl⟩
  receiver := before.receiver
  drained _ := ⟨exit, rfl⟩
  closed here := by
    cases here
    rcases before.receiver.mp (closed rfl) with failed | drained
    · exact failed
    · obtain ⟨exit, here⟩ := before.drained drained
      exact absurd here (runs exit)
  returned done := by
    obtain ⟨⟨exit, here⟩, -⟩ := before.returned done
    exact absurd here (runs exit)

/-- The writer goes on with a channel whose ends are held as before. -/
theorem Holding.writes (before : l.Holding) (channel : Channel Bytes writerChannel)
    (writer : WriterTask) (written : Bytes)
    (runs : ¬(l.writer = .failed ∨ l.writer = .drained))
    (goes : ¬(writer = .failed ∨ writer = .drained))
    (sender : channel.sender = l.channel.sender) (receiver : channel.receiver = l.channel.receiver) :
    Holding { l with channel := channel, writer := writer, written := written } where
  sender := sender ▸ before.sender
  receiver := by
    dsimp only
    rw [receiver, before.receiver]
    exact ⟨fun here => absurd here runs, fun here => absurd here goes⟩
  drained done := absurd (.inr done) goes
  closed here := absurd (.inl (before.closed here)) runs
  returned done := absurd (before.returned done).2 runs

theorem Holding.step (step : LoopStep l a l') (before : l.Holding) : l'.Holding := by
  cases step with
  | readFrame frame left here got =>
    apply before.reads <;> simp [here]
  | readNothing here got | readError e here got | readFails here | flagSet frame here =>
    apply before.readerReturns <;> simp [here]
  | flagClear frame here =>
    apply before.reads <;> simp [here]
  | dispatch frame answer here =>
    apply before.reads <;> cases answer <;> simp [here, ReaderTask.afterDispatch]
  | send response channel here sent =>
    obtain ⟨-, sender, receiver⟩ := Channel.send_eq_sent sent
    apply before.reads <;> simp [here, sender, receiver]
  | sendClosed response here closed =>
    apply before.readerReturns
    · simp [here]
    · intro _
      exact Channel.send_eq_closed_iff.mp closed
  | recv payload channel here received =>
    obtain ⟨-, sender, receiver⟩ := Channel.recv_eq_received received
    apply before.writes <;> simp [here, sender, receiver]
  | recvClosed here closed =>
    -- the channel is closed because the reader has returned
    have gone := before.sender.mp (Channel.recv_eq_closed closed).2
    refine ⟨before.sender, by simp [writerReturns], fun _ => gone, ?_, fun _ => ⟨gone, .inr rfl⟩⟩
    intro broken
    cases here.symm.trans (before.closed broken)
  | writeSome piece rest some here =>
    apply before.writes <;> simp [here]
  | writeDone here =>
    apply before.writes <;> simp [here]
  | writeFails rest here more =>
    refine ⟨before.sender, by simp [writerReturns], ?_, fun _ => rfl, ?_⟩
    · intro done
      cases done
    · intro done
      exact ⟨(before.returned done).1, .inl rfl⟩
  | unregister exit reader writer running =>
    exact ⟨before.sender, before.receiver, before.drained, before.closed,
      fun _ => ⟨⟨exit, reader⟩, writer⟩⟩

/-! ### From the dispatcher to the wire -/

/-- The answers are written, in the hands of the writer, in the channel or in the hands of the
reader, in this order; behind a failure of the socket some are lost, the first of them perhaps in
the middle. -/
structure Delivering (l : ConnectionLoop) : Prop where
  whole : l.writer ≠ .failed →
    (answersOf l.dispatched).flatMap encodeFrame =
      l.written ++ l.writer.rest ++ (l.channel.queue ++ l.reader.inHand).flatMap encodeFrame
  cut : l.writer = .failed → l.written <+: (answersOf l.dispatched).flatMap encodeFrame

theorem Delivering.written_prefix (here : l.Delivering) :
    l.written <+: (answersOf l.dispatched).flatMap encodeFrame := by
  by_cases failed : l.writer = .failed
  · exact here.cut failed
  · rw [here.whole failed, List.append_assoc]
    exact List.prefix_append _ _

/-- The reader goes on without a response, in front or behind. -/
theorem Delivering.readerReturns (before : l.Delivering) (exit : ReaderExit)
    (kept : l.reader.inHand = [] ∨ l.writer = .failed) : (l.readerReturns exit).Delivering where
  whole fine := by
    rcases kept with none | failed
    · have whole := before.whole fine
      rw [none] at whole
      exact whole
    · exact absurd failed fine
  cut := before.cut

theorem Delivering.step (step : LoopStep l a l') (before : l.Delivering) (holding : l.Holding) :
    l'.Delivering := by
  cases step with
  | readFrame frame left here got =>
    refine ⟨fun fine => ?_, before.cut⟩
    have whole := before.whole fine
    rw [here] at whole
    exact whole
  | readNothing here got | readError e here got | readFails here | flagSet frame here =>
    apply before.readerReturns
    left
    rw [here]
    rfl
  | flagClear frame here =>
    refine ⟨fun fine => ?_, before.cut⟩
    have whole := before.whole fine
    rw [here] at whole
    exact whole
  | dispatch frame answer here =>
    -- the answer, if there is one, is in the hands of the reader
    have grown : answersOf (l.dispatched ++ [(frame, answer)]) =
        answersOf l.dispatched ++ (ReaderTask.afterDispatch answer).inHand := by
      rw [answersOf, List.filterMap_append]
      cases answer <;> rfl
    constructor
    · intro fine
      have whole := before.whole fine
      rw [here] at whole
      simp only [ReaderTask.inHand, List.append_nil] at whole
      dsimp only
      rw [grown, List.flatMap_append, whole]
      simp only [List.flatMap_append, List.append_assoc]
    · intro failed
      dsimp only
      rw [grown, List.flatMap_append]
      exact (before.cut failed).trans (List.prefix_append _ _)
  | send response channel here sent =>
    refine ⟨fun fine => ?_, before.cut⟩
    have whole := before.whole fine
    rw [here] at whole
    dsimp only
    rw [whole, (Channel.send_eq_sent sent).1]
    simp only [ReaderTask.inHand, List.append_nil]
  | sendClosed response here closed =>
    apply before.readerReturns
    right
    rcases holding.receiver.mp (Channel.send_eq_closed_iff.mp closed) with failed | drained
    · exact failed
    · obtain ⟨exit, there⟩ := holding.drained drained
      cases here.symm.trans there
  | recv payload channel here received =>
    refine ⟨fun _ => ?_, fun failed => by cases failed⟩
    have whole := before.whole (by rw [here]; exact WriterTask.noConfusion)
    rw [here, (Channel.recv_eq_received received).1] at whole
    dsimp only
    rw [whole]
    simp only [WriterTask.rest, List.append_nil, List.cons_append, List.flatMap_cons,
      List.append_assoc]
  | recvClosed here closed =>
    refine ⟨fun _ => ?_, fun failed => by cases failed⟩
    have whole := before.whole (by rw [here]; exact WriterTask.noConfusion)
    rw [here, (Channel.recv_eq_closed closed).1] at whole
    exact whole
  | writeSome piece rest some here =>
    refine ⟨fun _ => ?_, fun failed => by cases failed⟩
    have whole := before.whole (by rw [here]; exact WriterTask.noConfusion)
    rw [here] at whole
    dsimp only
    rw [whole]
    simp only [WriterTask.rest, List.append_assoc]
  | writeDone here =>
    refine ⟨fun _ => ?_, fun failed => by cases failed⟩
    have whole := before.whole (by rw [here]; exact WriterTask.noConfusion)
    rw [here] at whole
    exact whole
  | writeFails rest here more => exact ⟨fun fine => absurd rfl fine, fun _ => before.written_prefix⟩
  | unregister exit reader writer running => exact ⟨before.whole, before.cut⟩

/-! ### One connection -/

/-- What every action of the tasks keeps. -/
structure Sound (l : ConnectionLoop) : Prop where
  receiving : l.Receiving
  holding : l.Holding
  delivering : l.Delivering

theorem Sound.start (connId : UInt64) (socket : Source) : (start connId socket).Sound where
  receiving :=
    { split := rfl
      measured := fun _ member => absurd member List.not_mem_nil
      ended := by rintro (here | ⟨e, here⟩) <;> cases here }
  holding :=
    { sender := by simp [ConnectionLoop.start, Channel.new]
      receiver := by simp [ConnectionLoop.start, Channel.new]
      drained := fun done => by cases done
      closed := fun here => by cases here
      returned := fun done => by cases done }
  delivering := ⟨fun _ => rfl, fun failed => by cases failed⟩

theorem Sound.step (step : LoopStep l a l') (before : l.Sound) : l'.Sound :=
  ⟨before.receiving.step step, before.holding.step step,
    before.delivering.step step before.holding⟩

/-- What a client sees of a connection on which `exchanges` have been dispatched. -/
structure InOrder (l : ConnectionLoop) (exchanges : List (Bytes × Option Bytes)) : Prop where
  /-- The frames it has sent are dispatched in order, each once. -/
  dispatched : ∀ frames rest, CompleteFrames l.stream frames rest →
    exchanges.map Prod.fst <+: frames
  /-- No complete frame is left when the reader has come to the end of the stream. -/
  complete : l.reader = .returned .closed ∨ (∃ e, l.reader = .returned (.frameError e)) →
    ∀ frames rest, CompleteFrames l.stream frames rest → exchanges.map Prod.fst = frames
  /-- The answers are written in order, each once. -/
  written : l.written <+: (answersOf exchanges).flatMap encodeFrame
  /-- Nothing is lost unless the socket fails. -/
  drained : l.writer = .drained → l.written = (answersOf exchanges).flatMap encodeFrame
  /-- What it reads off its side of the socket is the answers. -/
  understood : (∀ answer ∈ answersOf exchanges, answer.length ≤ maxFramePayload) →
    ∀ read rest, CompleteFrames l.written read rest → read <+: answersOf exchanges

end ConnectionLoop

/-- Frames in front of a stream are its first complete frames. -/
theorem CompleteFrames.behind {stream rest : Bytes} {payloads : List Bytes}
    (frames : CompleteFrames stream payloads rest) {front : List Bytes}
    (measured : ∀ payload ∈ front, payload.length ≤ maxFramePayload) :
    CompleteFrames (front.flatMap encodeFrame ++ stream) (front ++ payloads) rest where
  split := by rw [List.flatMap_append, frames.split, List.append_assoc]
  measured payload member := by
    rcases List.mem_append.mp member with early | late
    · exact measured payload early
    · exact frames.measured payload late
  maximal := frames.maximal

namespace ConnectionLoop

variable {l : ConnectionLoop}

/-- The complete frames of the stream are those that have been read and those of the socket. -/
theorem Receiving.frames (here : l.Receiving) {frames : List Bytes} {rest : Bytes}
    (cut : CompleteFrames l.stream frames rest) :
    ∃ more, CompleteFrames l.socket.bytes more rest ∧
      frames = l.dispatched.map Prod.fst ++ l.reader.held ++ more := by
  obtain ⟨more, rest', left⟩ := exists_completeFrames l.socket.bytes
  have whole := left.behind here.measured
  rw [← here.split] at whole
  obtain ⟨rfl, rfl⟩ := cut.unique whole
  exact ⟨more, left, rfl⟩

theorem Sound.inOrder (here : l.Sound) : l.InOrder l.dispatched where
  dispatched frames rest cut := by
    obtain ⟨more, -, rfl⟩ := here.receiving.frames cut
    rw [List.append_assoc]
    exact List.prefix_append _ _
  complete ended frames rest cut := by
    obtain ⟨more, left, rfl⟩ := here.receiving.frames cut
    -- nothing is left on the socket, and nothing in the reader's hands
    have bare : CompleteFrames l.socket.bytes [] l.socket.bytes :=
      ⟨rfl, fun _ member => absurd member List.not_mem_nil, here.receiving.ended ended⟩
    obtain ⟨rfl, -⟩ := left.unique bare
    have free : l.reader.held = [] := by
      rcases ended with same | ⟨e, same⟩ <;> rw [same] <;> rfl
    rw [free, List.append_nil, List.append_nil]
  written := here.delivering.written_prefix
  drained done := by
    have whole := here.delivering.whole (by rw [done]; exact WriterTask.noConfusion)
    have gone := here.holding.receiver.mpr (.inr done)
    obtain ⟨exit, returned⟩ := here.holding.drained done
    rw [done, returned, l.channel.dropped gone] at whole
    simpa [WriterTask.rest, ReaderTask.inHand] using whole.symm
  understood measured read rest cut := by
    obtain ⟨lost, whole⟩ := here.delivering.written_prefix
    rw [cut.split, List.append_assoc] at whole
    -- the frames of everything that is to be written, cut in two ways
    obtain ⟨more, rest', behind⟩ := exists_completeFrames (rest ++ lost)
    have one := behind.behind cut.measured
    rw [whole] at one
    have none : CompleteFrames [] [] [] := ⟨rfl, fun _ member => absurd member List.not_mem_nil, rfl⟩
    have other := none.behind measured
    rw [List.append_nil, List.append_nil] at other
    rw [← (one.unique other).1]
    exact List.prefix_append _ _

end ConnectionLoop

/-! ### The history of a connection -/

/-- What an action of a task adds to the history of its connection. -/
def LoopAction.exchange : LoopAction → List (Bytes × Option Bytes)
  | .dispatch frame answer => [(frame, answer)]
  | _ => []

theorem LoopStep.connId_eq {l l' : ConnectionLoop} {a : LoopAction} (step : LoopStep l a l') :
    l'.connId = l.connId := by
  cases step <;> rfl

theorem LoopStep.dispatched_eq {l l' : ConnectionLoop} {a : LoopAction} (step : LoopStep l a l') :
    l'.dispatched = l.dispatched ++ a.exchange := by
  cases step with
  | dispatch frame answer here => rfl
  | readFrame | readNothing | readError | readFails | flagClear | flagSet | send | sendClosed
  | recv | recvClosed | writeSome | writeDone | writeFails | unregister =>
    exact (List.append_nil _).symm

/-! ### All connections -/

section
variable {σ η : Type} [Host σ η] [Crypto]

/-- The shared state is where the logged events lead to, one after another, and the answers are those
that the frames were given there. -/
structure Connections.Linear (init : System σ η) (s : Connections σ η) : Prop where
  system : s.system = init.run (s.log.map LogEntry.event)
  answered : ∀ before behind i connId frame answer,
    s.log = before ++ .frame i connId frame answer :: behind →
      ((init.run (before.map LogEntry.event)).serve connId frame).1 = some answer

namespace Connections

variable {init : System σ η} {s s' : Connections σ η}

/-- One more entry, which leads from the state to the next. -/
theorem Linear.append (before : s.Linear init) (e : LogEntry)
    (answered : ∀ i connId frame answer, e = .frame i connId frame answer →
      (s.system.serve connId frame).1 = some answer)
    (next : s'.system = s.system.step e.event) (log : s'.log = s.log ++ [e]) : s'.Linear init where
  system := by
    rw [next, log, List.map_append, System.run_append, ← before.system]
    rfl
  answered front behind i connId frame answer split := by
    rw [log] at split
    rcases List.eq_nil_or_concat behind with rfl | ⟨most, last, rfl⟩
    · -- the entry is the last one
      obtain ⟨rfl, same⟩ := List.append_inj' split rfl
      rw [← before.system]
      exact answered i connId frame answer (List.head_eq_of_cons_eq same)
    · rw [List.concat_eq_append, ← List.cons_append, ← List.append_assoc] at split
      exact before.answered front most i connId frame answer (List.append_inj' split rfl).1

/-- An action that touches neither the state nor the log. -/
theorem Linear.congr (before : s.Linear init) (system : s'.system = s.system)
    (log : s'.log = s.log) : s'.Linear init where
  system := by rw [system, log]; exact before.system
  answered := by rw [log]; exact before.answered

theorem Linear.step {a : ServerAction} (step : ServerStep s a s') (before : s.Linear init) :
    s'.Linear init := by
  cases step with
  | accept socket =>
    apply before.append .accept _ rfl rfl
    intro i connId frame answer same
    cases same
  | config op =>
    apply before.append (.config op) _ rfl rfl
    intro i connId frame answer same
    cases same
  | shutdown => exact before.congr rfl rfl
  | task i a l l' system entries here step shared =>
    cases shared with
    | dispatch frame answer system served =>
      apply before.append (.frame i l.connId frame answer) _ _ rfl
      · intro i' connId' frame' answer' same
        cases same
        rw [served]
      · change _ = (s.system.serve l.connId frame).2
        rw [served]
    | unregister =>
      apply before.append (.hangup l.connId) _ rfl rfl
      intro i connId frame answer same
      cases same
    | read | readFails | loadFlag | send | recv | write | writeFails =>
      exact before.congr rfl (List.append_nil _)

end Connections

/-! ### The log of a connection -/

theorem SharedStep.exchanges_eq {s : Connections σ η} {i : Nat} {connId : UInt64} {a : LoopAction}
    {system : System σ η} {entries : List LogEntry}
    (shared : SharedStep s i connId a system entries) (task : Nat) :
    entries.filterMap (LogEntry.exchangeOf task) = if i = task then a.exchange else [] := by
  cases shared with
  | dispatch frame answer system served =>
    rw [List.filterMap_cons, List.filterMap_nil, LogEntry.exchangeOf]
    by_cases own : i = task
    · rw [if_pos own, if_pos own]
      rfl
    · rw [if_neg own, if_neg own]
  | read | readFails | loadFlag | send | recv | write | writeFails | unregister =>
    exact (ite_self ([] : List (Bytes × Option Bytes))).symm

theorem SharedStep.connId_eq {s : Connections σ η} {i j : Nat} {connId connId' : UInt64}
    {a : LoopAction} {system : System σ η} {entries : List LogEntry} {frame : Bytes}
    {answer : Option Bytes} (shared : SharedStep s i connId a system entries)
    (entry : .frame j connId' frame answer ∈ entries) : j = i ∧ connId' = connId := by
  cases shared with
  | dispatch frame answer system served =>
    cases List.mem_singleton.mp entry
    exact ⟨rfl, rfl⟩
  | unregister => cases List.mem_singleton.mp entry
  | read | readFails | loadFlag | send | recv | write | writeFails =>
    exact absurd entry List.not_mem_nil

namespace Connections

omit [Host σ η] [Crypto] in
/-- The log has for every task what the task has had dispatched, on its own connection. -/
structure Tracked (s : Connections σ η) : Prop where
  sound : ∀ l ∈ s.loops, l.Sound
  logged : ∀ i l, s.loops[i]? = some l → s.exchanges i = l.dispatched
  fresh : ∀ i, s.loops[i]? = none → s.exchanges i = []
  own : ∀ i connId frame answer, .frame i connId frame answer ∈ s.log →
    ∃ l, s.loops[i]? = some l ∧ l.connId = connId

variable {s s' : Connections σ η}

omit [Host σ η] [Crypto] in
theorem exchanges_append (log : s'.log = s.log ++ entries) (task : Nat) :
    s'.exchanges task = s.exchanges task ++ entries.filterMap (LogEntry.exchangeOf task) := by
  rw [exchanges, exchanges, log, List.filterMap_append]

omit [Host σ η] [Crypto] in
/-- An action that touches no task and logs no frame. -/
theorem Tracked.congr (before : s.Tracked) (entries : List LogEntry)
    (log : s'.log = s.log ++ entries) (loops : s'.loops = s.loops)
    (quiet : ∀ i connId frame answer, .frame i connId frame answer ∉ entries) : s'.Tracked := by
  have same (task : Nat) : s'.exchanges task = s.exchanges task := by
    rw [exchanges_append log, List.filterMap_eq_nil_iff.mpr, List.append_nil]
    intro e member
    cases e with
    | frame i connId frame answer => exact absurd member (quiet i connId frame answer)
    | accept | config | hangup => rfl
  constructor
  · rw [loops]
    exact before.sound
  · intro i l here
    rw [same]
    exact before.logged i l (loops ▸ here)
  · intro i none
    rw [same]
    exact before.fresh i (loops ▸ none)
  · intro i connId frame answer member
    rw [loops]
    rw [log] at member
    rcases List.mem_append.mp member with early | late
    · exact before.own i connId frame answer early
    · exact absurd late (quiet i connId frame answer)

omit [Host σ η] [Crypto] in
/-- A connection is accepted. -/
theorem Tracked.accept (before : s.Tracked) (l : ConnectionLoop) (sound : l.Sound)
    (idle : l.dispatched = []) (loops : s'.loops = s.loops ++ [l])
    (log : s'.log = s.log ++ [.accept]) : s'.Tracked := by
  have same (task : Nat) : s'.exchanges task = s.exchanges task :=
    (exchanges_append log task).trans (List.append_nil _)
  constructor
  · intro l' member
    rw [loops] at member
    rcases List.mem_append.mp member with early | last
    · exact before.sound l' early
    · rw [List.mem_singleton.mp last]
      exact sound
  · intro i l' here
    rw [same]
    rw [loops, List.getElem?_append] at here
    split at here
    · exact before.logged i l' here
    next behind =>
      have new : l' = l := by
        rw [List.getElem?_singleton] at here
        split at here
        · exact (Option.some.inj here).symm
        · cases here
      rw [new, idle]
      exact before.fresh i (List.getElem?_eq_none (Nat.le_of_not_lt behind))
  · intro i none
    rw [same]
    apply before.fresh
    rw [List.getElem?_eq_none_iff] at none ⊢
    rw [loops, List.length_append] at none
    exact Nat.le_trans (Nat.le_add_right _ _) none
  · intro i connId frame answer member
    rw [log] at member
    rcases List.mem_append.mp member with early | last
    · obtain ⟨l', here, own⟩ := before.own i connId frame answer early
      refine ⟨l', ?_, own⟩
      rw [loops, List.getElem?_append_left (List.getElem?_eq_some_iff.mp here).1]
      exact here
    · cases List.mem_singleton.mp last

/-- A task takes an action. -/
theorem Tracked.task (before : s.Tracked) {i : Nat} {a : LoopAction} {l l' : ConnectionLoop}
    {system : System σ η} {entries : List LogEntry} (here : s.loops[i]? = some l)
    (step : LoopStep l a l') (shared : SharedStep s i l.connId a system entries)
    (loops : s'.loops = s.loops.set i l') (log : s'.log = s.log ++ entries) : s'.Tracked := by
  have inside : i < s.loops.length := (List.getElem?_eq_some_iff.mp here).1
  have grown (task : Nat) : s'.exchanges task =
      s.exchanges task ++ if i = task then a.exchange else [] := by
    rw [exchanges_append log, shared.exchanges_eq]
  constructor
  · intro l'' member
    rw [loops] at member
    rcases List.mem_or_eq_of_mem_set member with other | rfl
    · exact before.sound l'' other
    · exact (before.sound l (List.mem_of_getElem? here)).step step
  · intro j l'' there
    rw [loops, List.getElem?_set] at there
    by_cases own : i = j
    · subst own
      rw [if_pos rfl, if_pos inside] at there
      cases there
      rw [grown, if_pos rfl, before.logged i l here, step.dispatched_eq]
    · rw [if_neg own] at there
      rw [grown, if_neg own, List.append_nil]
      exact before.logged j l'' there
  · intro j none
    rw [loops, List.getElem?_eq_none_iff, List.length_set] at none
    rw [grown, if_neg (by omega), List.append_nil]
    exact before.fresh j (List.getElem?_eq_none none)
  · intro j connId frame answer member
    rw [loops]
    rw [log] at member
    rcases List.mem_append.mp member with early | last
    · obtain ⟨l'', there, own⟩ := before.own j connId frame answer early
      rw [List.getElem?_set]
      by_cases same : i = j
      · subst same
        cases here.symm.trans there
        exact ⟨l', by rw [if_pos rfl, if_pos inside], step.connId_eq.trans own⟩
      · exact ⟨l'', by rw [if_neg same]; exact there, own⟩
    · obtain ⟨rfl, rfl⟩ := shared.connId_eq last
      rw [List.getElem?_set, if_pos rfl, if_pos inside]
      exact ⟨l', rfl, step.connId_eq⟩

theorem Tracked.step {a : ServerAction} (step : ServerStep s a s') (before : s.Tracked) :
    s'.Tracked := by
  cases step with
  | accept socket =>
    exact before.accept (.start s.system.nextConnId socket) (.start _ socket) rfl rfl rfl
  | task i a l l' system entries here step shared => exact before.task here step shared rfl rfl
  | config op =>
    refine before.congr [.config op] rfl rfl ?_
    intro i connId frame answer member
    cases List.mem_singleton.mp member
  | shutdown =>
    refine before.congr [] (List.append_nil _).symm rfl ?_
    intro i connId frame answer
    exact List.not_mem_nil

theorem tracked_of_reachable {server : ServerState} {host : σ}
    (run : Reachable ServerStep (start server host) s) : s.Tracked := by
  apply run.invariant Tracked
  · intro s a t before _ step
    exact before.step step
  · constructor <;> simp [start, exchanges]

end Connections

/-- In whatever order the tasks take turns, the frames of every connection are dispatched in order
and answered in order, on a server that takes one event after another. -/
theorem connections_in_order (server : ServerState) (host : σ) (s : Connections σ η)
    (run : Reachable ServerStep (Connections.start server host) s) :
    s.Linear (System.start server host) ∧
      (∀ (i : Nat) (l : ConnectionLoop), s.loops[i]? = some l → l.InOrder (s.exchanges i)) ∧
      ∀ i connId frame answer, .frame i connId frame answer ∈ s.log →
        ∃ l, s.loops[i]? = some l ∧ l.connId = connId := by
  have linear : s.Linear (System.start server host) := by
    apply run.invariant (Connections.Linear (System.start server host))
    · intro s a t before _ step
      exact before.step step
    · exact ⟨rfl, fun before behind i connId frame answer split => by
        cases before <;> cases split⟩
  have tracked := Connections.tracked_of_reachable run
  refine ⟨linear, ?_, tracked.own⟩
  intro i l here
  rw [tracked.logged i l here]
  exact (tracked.sound l (List.mem_of_getElem? here)).inOrder

end

/-! ### A connection that sends one frame -/

open scoped Sample

/-- A frame of one byte, in two pieces. -/
def Sample.oneFrame : Source := [⟨[0, 0], by decide⟩, ⟨[0, 1, 7], by decide⟩]

/-- The frame is dispatched. -/
theorem Sample.oneFrame_dispatched : ∃ s : Connections Unit Unit,
    Reachable ServerStep (Connections.start Sample.server ()) s ∧
      s.exchanges 0 = [([7], (s.exchanges 0).head?.bind Prod.snd)] ∧ s.loops.length = 1 := by
  let accepted : Connections Unit Unit :=
    { system := (System.start Sample.server ()).accept
      shuttingDown := false
      loops := [.start 1 Sample.oneFrame]
      log := [.accept] }
  obtain ⟨answer, system, served⟩ : ∃ answer system,
      accepted.system.serve 1 [7] = (some answer, system) := ⟨_, _, rfl⟩
  refine ⟨_, ((((Reaches.refl _).tail trivial (.accept _ Sample.oneFrame)).tail trivial
    (.task _ 0 .read _ _ _ _ rfl (.readFrame _ [7] [] rfl rfl) .read)).tail trivial
    (.task _ 0 (.loadFlag false) _ _ _ _ rfl (.flagClear _ [7] rfl) .loadFlag)).tail trivial
    (.task _ 0 (.dispatch [7] answer) _ _ _ _ rfl (.dispatch _ [7] answer rfl)
      (.dispatch [7] answer system served)), rfl, rfl⟩

theorem connections_in_order_oneFrame : ∃ s : Connections Unit Unit,
    s.exchanges 0 ≠ [] ∧ s.Linear (System.start Sample.server ()) ∧
      (∀ (i : Nat) (l : ConnectionLoop), s.loops[i]? = some l → l.InOrder (s.exchanges i)) ∧
      ∀ i connId frame answer, .frame i connId frame answer ∈ s.log →
        ∃ l, s.loops[i]? = some l ∧ l.connId = connId := by
  obtain ⟨s, run, one, -⟩ := Sample.oneFrame_dispatched
  refine ⟨s, ?_, connections_in_order Sample.server () s run⟩
  rw [one]
  exact List.cons_ne_nil _ _

end SmbServer
