import SmbServer.Lib.Channel
import SmbServer.Conn.Reader

/-!
# SmbServer.Conn.Loop

The tasks of one connection (`conn/mod.rs`, `conn/reader.rs`, `conn/writer.rs`), as far as they do
not look at the server: `connection_loop`, the reader task, the writer task, and the channel between
the two. What the server contributes, the shutdown flag and the answers of the dispatcher, stands on
the actions.

The socket holds what the client sends until it closes its side; a read takes from it when the
scheduler says so, so that a client that waits for a response before it sends on is covered.
-/

namespace SmbServer

open Lib

/-- The capacity of the channel to the writer. -/
def writerChannel : Nat := 64

/-- How `reader_task` returns. A frame that it has read, or a response that it could not pass on, is
dropped. -/
inductive ReaderExit where
  | closed
  | frameError (e : ReadError)
  | socketError
  | shuttingDown (frame : Bytes)
  | channelClosed
  deriving DecidableEq

/-- Where `reader_task` is. -/
inductive ReaderTask where
  | reads
  | loadsFlag (frame : Bytes)
  | dispatches (frame : Bytes)
  | sends (response : Bytes)
  | returned (exit : ReaderExit)
  deriving DecidableEq

/-- Where `writer_task` is; `write_all` has `rest` left of a frame. -/
inductive WriterTask where
  | receives
  | writes (rest : Bytes)
  | failed
  | drained
  deriving DecidableEq

/-- `stream` and `dispatched` are history: all that the client sends, and the frames that have been
dispatched with their answers. -/
structure ConnectionLoop where
  connId : UInt64
  socket : Source
  reader : ReaderTask
  channel : Channel Bytes writerChannel
  writer : WriterTask
  written : Bytes
  returned : Bool
  stream : Bytes
  dispatched : List (Bytes × Option Bytes)

namespace ConnectionLoop

/-- The tasks have been spawned. -/
def start (connId : UInt64) (socket : Source) : ConnectionLoop where
  connId := connId
  socket := socket
  reader := .reads
  channel := Channel.new
  writer := .receives
  written := []
  returned := false
  stream := socket.bytes
  dispatched := []

/-- The reader returns and drops its end of the channel. -/
def readerReturns (l : ConnectionLoop) (exit : ReaderExit) : ConnectionLoop :=
  { l with reader := .returned exit, channel := l.channel.dropSender }

/-- The writer returns and drops its end of the channel. -/
def writerReturns (l : ConnectionLoop) (writer : WriterTask) : ConnectionLoop :=
  { l with writer := writer, channel := l.channel.dropReceiver }

end ConnectionLoop

inductive LoopAction where
  | read
  | readFails
  | loadFlag (shuttingDown : Bool)
  | dispatch (frame : Bytes) (answer : Option Bytes)
  | send
  | recv
  | write
  | writeFails
  | unregister

/-- The socket fails. -/
def LoopAction.Fails : LoopAction → Prop
  | .readFails | .writeFails => True
  | _ => False

/-- What the reader does with an answer. -/
def ReaderTask.afterDispatch : Option Bytes → ReaderTask
  | none => .reads
  | some response => .sends response

/-- One action of the tasks of a connection. -/
inductive LoopStep : ConnectionLoop → LoopAction → ConnectionLoop → Prop where
  -- `read_one_frame`
  | readFrame (l : ConnectionLoop) (frame : Bytes) (left : Source) (here : l.reader = .reads)
      (got : readOneFrame l.socket = .ok (some (frame, left))) :
      LoopStep l .read { l with socket := left, reader := .loadsFlag frame }
  | readNothing (l : ConnectionLoop) (here : l.reader = .reads)
      (got : readOneFrame l.socket = .ok none) : LoopStep l .read (l.readerReturns .closed)
  | readError (l : ConnectionLoop) (e : ReadError) (here : l.reader = .reads)
      (got : readOneFrame l.socket = .error e) :
      LoopStep l .read (l.readerReturns (.frameError e))
  | readFails (l : ConnectionLoop) (here : l.reader = .reads) :
      LoopStep l .readFails (l.readerReturns .socketError)
  -- the flag is checked after every frame
  | flagClear (l : ConnectionLoop) (frame : Bytes) (here : l.reader = .loadsFlag frame) :
      LoopStep l (.loadFlag false) { l with reader := .dispatches frame }
  | flagSet (l : ConnectionLoop) (frame : Bytes) (here : l.reader = .loadsFlag frame) :
      LoopStep l (.loadFlag true) (l.readerReturns (.shuttingDown frame))
  -- `dispatch_frame`
  | dispatch (l : ConnectionLoop) (frame : Bytes) (answer : Option Bytes)
      (here : l.reader = .dispatches frame) :
      LoopStep l (.dispatch frame answer)
        { l with
          reader := .afterDispatch answer
          dispatched := l.dispatched ++ [(frame, answer)] }
  -- `tx.send`, which waits for room
  | send (l : ConnectionLoop) (response : Bytes) (channel : Channel Bytes writerChannel)
      (here : l.reader = .sends response) (sent : l.channel.send response = .sent channel) :
      LoopStep l .send { l with reader := .reads, channel := channel }
  | sendClosed (l : ConnectionLoop) (response : Bytes) (here : l.reader = .sends response)
      (closed : l.channel.send response = .closed) :
      LoopStep l .send (l.readerReturns .channelClosed)
  -- `rx.recv`, which waits for a response
  | recv (l : ConnectionLoop) (payload : Bytes) (channel : Channel Bytes writerChannel)
      (here : l.writer = .receives) (received : l.channel.recv = .received payload channel) :
      LoopStep l .recv { l with channel := channel, writer := .writes (encodeFrame payload) }
  | recvClosed (l : ConnectionLoop) (here : l.writer = .receives)
      (closed : l.channel.recv = .closed) : LoopStep l .recv (l.writerReturns .drained)
  -- `write_all` writes until nothing is left, in pieces that the socket chooses
  | writeSome (l : ConnectionLoop) (piece rest : Bytes) (some : piece ≠ [])
      (here : l.writer = .writes (piece ++ rest)) :
      LoopStep l .write { l with writer := .writes rest, written := l.written ++ piece }
  | writeDone (l : ConnectionLoop) (here : l.writer = .writes []) :
      LoopStep l .write { l with writer := .receives }
  | writeFails (l : ConnectionLoop) (rest : Bytes) (here : l.writer = .writes rest)
      (more : rest ≠ []) : LoopStep l .writeFails (l.writerReturns .failed)
  -- `connection_loop`, behind both tasks
  | unregister (l : ConnectionLoop) (exit : ReaderExit) (reader : l.reader = .returned exit)
      (writer : l.writer = .failed ∨ l.writer = .drained) (running : l.returned = false) :
      LoopStep l .unregister { l with returned := true }

end SmbServer
