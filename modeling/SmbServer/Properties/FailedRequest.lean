import SmbServer.Effects.Failure

/-!
# SmbServer.Properties.FailedRequest

Main result: over every run, a request element that is answered with an error leaves the sessions,
trees and opens, and the connection's negotiated state, as they were, and closes every handle that
it opened.

Proof strategy: `FailsIntact` holds of every handler (`Effects.Failure`); the preauth hashing
around the handler and the signature check touch none of the tables.
-/

namespace SmbServer

open Lib

variable {σ η : Type} [Host σ η] [Crypto]

/-- The step is an element with header `hdr` that is answered with `status`; it takes the world of
its connection from `w` to `w'`. -/
def System.Answers (s : System σ η) (step : Step) (hdr : Smb2Header) (status : NtStatus)
    (w w' : World σ η) : Prop :=
  ∃ cid e body bytes, step = .element cid e ∧ s.conns.lookup cid = some w.conn ∧ w.env = s.env ∧
    Smb2Header.parse e.bytes = some (hdr, body) ∧
    dispatchOne s.server e.bytes e.ordinal w = (some bytes, w') ∧ readU32 bytes 0x08 = status

/-- The check of the signature and the dispatch around the handler add nothing to a failure. -/
theorem dispatchOne_failed (server : ServerState) (frame : Bytes) (ordinal : UInt32)
    (w w' : World σ η) (hdr : Smb2Header) (body bytes : Bytes)
    (parsed : Smb2Header.parse frame = some (hdr, body))
    (answer : dispatchOne server frame ordinal w = (some bytes, w'))
    (failed : readU32 bytes 0x08 ≠ statusSuccess) : Intact hdr (readU32 bytes 0x08) w w' := by
  have outcome := dispatchOne_cases server frame ordinal w
  rw [answer] at outcome
  dsimp only at outcome
  generalize sent : some bytes = reply at outcome
  cases outcome with
  | malformed => cases sent
  | cancelled => cases sent
  | rejected hdr' body' status w' again _ same => exact Quiet.intact same.effect
  | handled hdr' body' w₁ again _ _ same =>
    obtain ⟨rfl, rfl⟩ := Prod.mk.inj (Option.some.inj (parsed.symm.trans again))
    obtain rfl := Option.some.inj sent
    have before : Quiet hdr w w₁ := same.effect
    exact before.then_intact (runHandler_failed server hdr frame body w₁ failed)

/-- Over every run, a failed request leaves the tables intact. -/
theorem failedRequest_intact (server : ServerState) (host : σ) (events : List Event) :
    System.Throughout server host events fun s step =>
      ∀ hdr status (w w' : World σ η), s.Answers step hdr status w w' → status ≠ statusSuccess →
        Intact hdr status w w' := by
  refine System.Throughout.of_invariant (fun _ => True) server host events trivial
    (fun _ _ _ => trivial) ?_
  rintro s step - hdr status w w' ⟨cid, e, body, bytes, -, -, -, parsed, answer, rfl⟩ failed
  exact dispatchOne_failed s.server e.bytes e.ordinal w w' hdr body bytes parsed answer failed

end SmbServer
