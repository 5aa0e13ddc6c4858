import SmbServer.Proto.MessageKind

/-!
# SmbServer.Properties.WireRoundTrip

The wire structures are round-trip safe.

## Main result

For each structure of `proto/messages`, `parse` accepts a body exactly when it starts with the
written form of a message whose counts say how long its counted fields are, and it returns that
message. No such written form is the start of another one.

## Proof strategy

A structure's field list is a format, which is exact by construction. The server's own readers and
writers are those of the field list, and what fits the field list is what has the right counts.
-/

namespace SmbServer

open Lib

namespace MessageKind

/-- What is parsed is what was written, in both directions and for every structure. -/
theorem parse_exact (kind : MessageKind) :
    (∀ buf (m : kind.Body),
      kind.parse buf = some m ↔ kind.Sized m ∧ ∃ rest, buf = kind.write m ++ rest) ∧
    ∀ (m m' : kind.Body) rest rest', kind.Sized m → kind.Sized m' →
      kind.write m ++ rest = kind.write m' ++ rest' → m = m' ∧ rest = rest' := by
  constructor
  · exact kind.parse_eq_some
  · intro m m' rest rest' sized sized' same
    exact kind.write_unique sized sized' same

end MessageKind

end SmbServer
