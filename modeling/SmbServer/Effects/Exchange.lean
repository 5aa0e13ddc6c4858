import SmbServer.Effects.Inherit

/-!
# SmbServer.Effects.Exchange

A frame as a list of exchanges: each element as it was received, the connection it was executed on,
and the reply it got. The elements of a frame, the split of its bytes and the responses handed to
the stitcher are all read off that list.
-/

namespace SmbServer

open Lib

variable {σ η : Type} [Host σ η]

/-- An executed element and its reply. -/
structure Exchange (η : Type) where
  element : Element
  conn : Connection η
  reply : Option Bytes

variable [Crypto]

/-- A CANCEL that passes the signature check. -/
def Exchange.Cancelled (x : Exchange η) : Prop :=
  ∃ hdr body, Smb2Header.parse x.element.bytes = some (hdr, body) ∧ hdr.command = .cancel ∧
    verifyRequestSignature x.conn hdr x.element.bytes = .ok ()

/-- The exchanges of what is left of a frame, in the recursion of `dispatchElements`. -/
def exchanges (fuel : Nat) (server : ServerState) (available : Bytes) (ctx : RelatedContext)
    (ordinal : UInt32) (w : World σ η) : List (Exchange η) :=
  match fuel with
  | 0 => []
  | fuel + 1 =>
    match splitElement available with
    | none => []
    | some (hdr, sub, next) =>
      let (bytes, hdr) := effectiveElement ctx hdr sub
      let (response, after) := dispatchOne server bytes ordinal w
      ⟨⟨sub, ctx, ordinal⟩, w.conn, response⟩ ::
        if next = 0 ∨ available.length ≤ next then []
        else
          exchanges fuel server (available.drop next) (nextContext ctx hdr response)
            (if ordinal = maxU32 then maxU32 else ordinal + 1) after

/-- The exchanges of a frame. -/
def frameExchanges (server : ServerState) (frame : Bytes) (w : World σ η) : List (Exchange η) :=
  exchanges (frame.length + 1) server frame initialContext 0 w

/-! ### What is read off the exchanges -/

/-- What the execution of one element has to do with its exchange. -/
structure Exchange.Executed (server : ServerState) (x : Exchange η) (w : World σ η) : Prop where
  conn : w.conn = x.conn
  reply : (dispatchOne server x.element.bytes x.element.ordinal w).1 = x.reply
  parsed : ∃ hdr body, Smb2Header.parse x.element.received = some (hdr, body)

/-- Each exchange is executed in a world that satisfies what every element preserves. -/
theorem exchanges_invariant (Inv : World σ η → Prop) (server : ServerState)
    (preserved : ∀ frame ordinal w, Inv w → Inv (dispatchOne server frame ordinal w).2)
    (fuel : Nat) (available : Bytes) (ctx : RelatedContext) (ordinal : UInt32) (w : World σ η)
    (init : Inv w) :
    ∀ x ∈ exchanges fuel server available ctx ordinal w,
      ∃ w' : World σ η, Inv w' ∧ x.Executed server w' := by
  -- an element is executed in the world that the elements in front of it leave
  induction fuel generalizing available ctx ordinal w with
  | zero => exact fun _ member => absurd member List.not_mem_nil
  | succ fuel ih =>
    intro x member
    rw [exchanges] at member
    cases split : splitElement available with
    | none => simp [split] at member
    | some parts =>
      obtain ⟨hdr, sub, next⟩ := parts
      simp only [split, List.mem_cons] at member
      rcases member with rfl | later
      · have bytes := Element.bytes_of_splitElement split ctx ordinal
        exact ⟨w, init, rfl, by rw [bytes], ⟨hdr, parse_of_splitElement split⟩⟩
      · split at later
        · exact absurd later List.not_mem_nil
        · exact ih _ _ _ _ (preserved _ _ _ init) x later

theorem exchanges_executed (fuel : Nat) (server : ServerState) (available : Bytes)
    (ctx : RelatedContext) (ordinal : UInt32) (w : World σ η) :
    ∀ x ∈ exchanges fuel server available ctx ordinal w,
      ∃ w' : World σ η, x.Executed server w' := by
  intro x member
  obtain ⟨w', -, executed⟩ := exchanges_invariant (fun _ => True) server
    (fun _ _ _ _ => trivial) fuel available ctx ordinal w trivial x member
  exact ⟨w', executed⟩

/-- The received elements are the split of the frame. -/
theorem splitPayload_eq (fuel : Nat) (server : ServerState) (available : Bytes)
    (ctx : RelatedContext) (ordinal : UInt32) (w : World σ η) :
    splitPayload fuel available =
      (exchanges fuel server available ctx ordinal w).map (·.element.received) := by
  induction fuel generalizing available ctx ordinal w with
  | zero => rfl
  | succ fuel ih =>
    rw [splitPayload, exchanges]
    cases split : splitElement available with
    | none => rfl
    | some parts =>
      obtain ⟨hdr, sub, next⟩ := parts
      simp only [List.map_cons]
      split
      · rfl
      · rw [ih]

theorem elements_eq (fuel : Nat) (server : ServerState) (cid : UInt64) (available : Bytes)
    (ctx : RelatedContext) (ordinal : UInt32) (w : World σ η) :
    System.elements fuel server cid available ctx ordinal w =
      (exchanges fuel server available ctx ordinal w).map fun x => .element cid x.element := by
  induction fuel generalizing available ctx ordinal w with
  | zero => rfl
  | succ fuel ih =>
    rw [System.elements, exchanges]
    cases split : splitElement available with
    | none => rfl
    | some parts =>
      obtain ⟨hdr, sub, next⟩ := parts
      simp only [List.map_cons]
      split
      · rfl
      · rw [ih]

/-- The responses are the replies there are. -/
theorem dispatchElements_eq (fuel : Nat) (server : ServerState) (available : Bytes)
    (ctx : RelatedContext) (ordinal : UInt32) (w : World σ η) (responses : List Bytes)
    (done : (dispatchElements fuel server available ctx ordinal w).1 = some responses) :
    responses = (exchanges fuel server available ctx ordinal w).filterMap (·.reply) := by
  induction fuel generalizing available ctx ordinal w responses with
  | zero => cases done
  | succ fuel ih =>
    rw [dispatchElements] at done
    rw [exchanges]
    cases split : splitElement available with
    | none => simp [split] at done
    | some parts =>
      obtain ⟨hdr, sub, next⟩ := parts
      simp only [split, Action.bind_apply] at done
      simp only
      -- an element without a reply puts nothing in front of the others
      by_cases last : next = 0 ∨ available.length ≤ next
      · simp only [last, if_true, Action.pure_apply, Option.some.injEq] at done
        rw [if_pos last, ← done]
        cases (dispatchOne server (effectiveElement ctx hdr sub).1 ordinal w).1 <;> rfl
      · simp only [last, if_false, Action.bind_apply, Action.pure_apply,
          Option.map_eq_some_iff] at done
        obtain ⟨rest, more, rfl⟩ := done
        rw [if_neg last, ih _ _ _ _ rest more]
        cases (dispatchOne server (effectiveElement ctx hdr sub).1 ordinal w).1 <;> rfl

/-- Only a CANCEL that passes the signature check gets no reply. -/
theorem Exchange.Executed.reply_eq_none_iff {server : ServerState} {x : Exchange η}
    {w : World σ η} (h : x.Executed server w) : x.reply = none ↔ x.Cancelled := by
  obtain ⟨hdr, body, received⟩ := h.parsed
  obtain ⟨hdr', body', parsed, -⟩ := x.element.parse_bytes received
  have outcome := dispatchOne_cases server x.element.bytes x.element.ordinal w
  rw [h.reply] at outcome
  revert outcome
  generalize (dispatchOne server x.element.bytes x.element.ordinal w).2 = after
  generalize sent : x.reply = reply
  intro outcome
  rw [Cancelled, ← h.conn]
  cases outcome with
  | malformed _ unparsed =>
    rw [parsed] at unparsed
    cases unparsed
  | rejected hdr body status _ again error =>
    refine iff_of_false nofun ?_
    rintro ⟨hdr'', body'', here, -, ok⟩
    obtain ⟨rfl, rfl⟩ := Prod.mk.inj (Option.some.inj (again.symm.trans here))
    rw [error] at ok
    cases ok
  | cancelled hdr body _ again ok cmd =>
    exact iff_of_true rfl ⟨hdr, body, again, cmd, ok⟩
  | handled hdr body _ again ok cmd =>
    refine iff_of_false nofun ?_
    rintro ⟨hdr'', body'', here, cancel, -⟩
    obtain ⟨rfl, rfl⟩ := Prod.mk.inj (Option.some.inj (again.symm.trans here))
    exact cmd cancel

/-- Stitching changes nothing but the bytes. -/
theorem dispatchFrame_world (server : ServerState) (frame : Bytes) (w : World σ η)
    (noSmb1 : smb1Choice frame = none) :
    (dispatchFrame server frame w).2 =
      (dispatchElements (frame.length + 1) server frame initialContext 0 w).2 := by
  simp only [dispatchFrame, noSmb1, Action.bind_apply]
  rcases dispatchElements (frame.length + 1) server frame initialContext 0 w with
    ⟨_ | _ | _, _⟩ <;> rfl

/-- The payload of a frame that is answered is stitched from the replies. -/
theorem dispatchFrame_eq (server : ServerState) (frame payload : Bytes) (w : World σ η)
    (noSmb1 : smb1Choice frame = none)
    (answer : (dispatchFrame server frame w).1 = some payload) :
    payload = stitchResponses (dispatchFrame server frame w).2.conn
      ((frameExchanges server frame w).filterMap (·.reply)) := by
  simp only [dispatchFrame, noSmb1, Action.bind_apply] at answer ⊢
  cases executed : (dispatchElements (frame.length + 1) server frame initialContext 0 w).1 with
  | none => simp [executed] at answer
  | some responses =>
    have same := dispatchElements_eq _ _ _ _ _ _ responses executed
    cases responses with
    | nil => simp [executed] at answer
    | cons first rest =>
      simp only [executed, Action.bind_apply, getConn_apply, Action.pure_apply,
        Option.some.injEq] at answer ⊢
      rw [frameExchanges, ← same, answer]

end SmbServer
