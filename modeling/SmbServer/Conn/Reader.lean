import SmbServer.Lib.Stream
import SmbServer.Proto.Framing

/-!
# SmbServer.Conn.Reader

The frame reader of a connection (`conn/reader.rs`) on a stream that ends.

The stream stands for what the socket delivers until the peer closes it; an error of the socket
itself, which the reader passes on, is not part of it.
-/

namespace SmbServer

open Lib

/-- The kinds of `io::Error` that the reader returns. -/
inductive ReadError
  | unexpectedEof
  | invalidData
  deriving DecidableEq

def frameHeaderLen : Nat := 4

/-- `read_one_frame`: a payload and the stream behind it, or `none` for `Ok(None)`. -/
def readOneFrame (reader : Source) : Except ReadError (Option (Bytes × Source)) :=
  match reader.readExact frameHeaderLen with
  | none => .ok none
  | some (hdr, reader) =>
    match decodeFrameHeader (hdr.getD 0 0) (hdr.getD 1 0) (hdr.getD 2 0) (hdr.getD 3 0) with
    | none => .error .invalidData
    | some len =>
      match reader.readExact len with
      | none => .error .unexpectedEof
      | some (payload, reader) => .ok (some (payload, reader))

/-- The loop of `reader_task`, as far as it reads: the payloads and how it stops. Every frame takes
four bytes at least, so `fuel` rounds are enough for a stream shorter than `fuel`. -/
def readFramesFrom (fuel : Nat) (reader : Source) : Option (List Bytes × Except ReadError Unit) :=
  match fuel with
  | 0 => none
  | fuel + 1 =>
    match readOneFrame reader with
    | .error e => some ([], .error e)
    | .ok none => some ([], .ok ())
    | .ok (some (payload, reader)) =>
      (readFramesFrom fuel reader).map fun (payloads, stop) => (payload :: payloads, stop)

def readFrames (reader : Source) : Option (List Bytes × Except ReadError Unit) :=
  readFramesFrom (reader.bytes.length + 1) reader

end SmbServer
