import SmbServer.Effects.Exchange
import SmbServer.Client

/-!
# SmbServer.Properties.DroppedFrame

What a frame without an answer has done.

Main result:

  Over every run, a frame without a CANCEL that is dropped has executed no element, and left the
  connection and the backend as they were, if and only if its first element is malformed.
  Otherwise every element in front of the malformed one has been executed, and its reply is lost.

Proof strategy: the loop of `dispatch_frame` runs an element before it looks at the framing of the
next one. The exchanges of a frame begin with its first element, so there are none exactly when
that element does not split off.
-/

namespace SmbServer

open Lib

section

variable {σ η : Type} [Host σ η] [Crypto]

/-- A CANCEL among the elements that split off a frame. -/
def HoldsCancel (frame : Bytes) : Prop :=
  ∃ sub ∈ splitCompound frame, ∃ hdr body,
    Smb2Header.parse sub = some (hdr, body) ∧ hdr.command = .cancel

/-- The frame executes no element; the connection and the backend are as before. -/
structure Unaffected (server : ServerState) (frame : Bytes) (w : World σ η) : Prop where
  conn : (dispatchFrame server frame w).2.conn = w.conn
  host : (dispatchFrame server frame w).2.env.host = w.env.host
  calls : (dispatchFrame server frame w).2.env.calls = w.env.calls
  none : frameExchanges server frame w = []

/-- An SMB1 frame is answered. -/
private theorem smb1Choice_of_dropped {server : ServerState} {frame : Bytes} {w : World σ η}
    (dropped : (dispatchFrame server frame w).1 = none) : smb1Choice frame = none := by
  cases choice : smb1Choice frame with
  | none => rfl
  | some chosen => simp [dispatchFrame, choice] at dropped

theorem unaffected_iff (server : ServerState) (frame : Bytes) (w : World σ η)
    (dropped : (dispatchFrame server frame w).1 = none) :
    Unaffected server frame w ↔ splitElement frame = none := by
  have noSmb1 := smb1Choice_of_dropped dropped
  constructor
  · intro h
    have none := h.none
    rw [frameExchanges, exchanges] at none
    cases split : splitElement frame with
    | none => rfl
    | some parts => simp [split] at none
  · intro malformed
    have executed : dispatchElements (frame.length + 1) server frame initialContext 0 w =
        (none, w) := by
      simp only [dispatchElements, malformed, Action.pure_apply]
    have whole : (dispatchFrame server frame w).2 = w := by
      simp only [dispatchFrame, noSmb1, Action.bind_apply, executed, Action.pure_apply]
    exact ⟨by rw [whole], by rw [whole], by rw [whole],
      by simp only [frameExchanges, exchanges, malformed]⟩

/-- Every executed element of a frame without a CANCEL has a reply. -/
theorem reply_isSome (server : ServerState) (frame : Bytes) (w : World σ η)
    (noCancel : ¬HoldsCancel frame) (x : Exchange η)
    (member : x ∈ frameExchanges server frame w) : x.reply.isSome := by
  obtain ⟨w', executed⟩ := exchanges_executed _ _ _ _ _ _ x member
  cases sent : x.reply with
  | some reply => rfl
  | none =>
    obtain ⟨hdr, body, received⟩ := executed.parsed
    obtain ⟨hdr', body', parsed, cancel, -⟩ := executed.reply_eq_none_iff.mp sent
    obtain ⟨hdr'', body'', again, command, -⟩ := x.element.parse_bytes received
    obtain ⟨rfl, rfl⟩ := Prod.mk.inj (Option.some.inj (again.symm.trans parsed))
    refine absurd ⟨x.element.received, ?_, hdr, body, received, command.symm.trans cancel⟩ noCancel
    rw [splitCompound, splitPayload_eq _ server frame initialContext 0 w]
    exact List.mem_map_of_mem member

/-- Over every run, a frame that is dropped has had no effect exactly when its first element is
malformed; whatever it has executed had a reply. -/
theorem dropped_unaffected_iff (server : ServerState) (host : σ) (events : List Event) :
    System.EachEvent server host events fun s e =>
      ∀ cid frame (conn : Connection η), e = .frame cid frame → s.conns.lookup cid = some conn →
        (dispatchFrame s.server frame ⟨conn, s.env⟩).1 = none → ¬HoldsCancel frame →
          (Unaffected s.server frame ⟨conn, s.env⟩ ↔ splitElement frame = none) ∧
            ∀ x ∈ frameExchanges s.server frame ⟨conn, s.env⟩, x.reply.isSome := by
  refine (Always.iff_split _ _).mpr ?_
  intro _ e _ _ cid frame conn _ _ dropped noCancel
  exact ⟨unaffected_iff _ frame _ dropped, reply_isSome _ frame _ noCancel⟩

end

/-! ### A compound with a malformed tail -/

open scoped Sample

/-- A NEGOTIATE for 2.1, and one byte behind it. -/
def Sample.negotiateWithTail : Bytes :=
  let body := Client.negotiateBody [0x0210]
  let hdr := { Client.header .negotiate 0 0 0 with nextCommand := 104 }
  hdr.write ++ body ++ List.replicate (104 - smb2HeaderLen - body.length) 0 ++ [0]

/-- The NEGOTIATE is executed and not answered. -/
theorem negotiate_dropped :
    ¬∀ events : List Event, System.EachEvent Sample.server () events fun s e =>
      ∀ cid frame (conn : Connection Unit), e = .frame cid frame →
        s.conns.lookup cid = some conn →
        (dispatchFrame s.server frame ⟨conn, s.env⟩).1 = none → ¬HoldsCancel frame →
          Unaffected s.server frame ⟨conn, s.env⟩ := by
  intro all
  have last := (all ([.accept] ++ [.frame 1 Sample.negotiateWithTail])).last
  -- not answered, and the dialect is set behind it
  have reached : (((System.start Sample.server ()).run [.accept]).conns.lookup 1).any (fun conn =>
      let w : World Unit Unit := ⟨conn, ((System.start Sample.server ()).run [.accept]).env⟩
      (dispatchFrame Sample.server Sample.negotiateWithTail w).1.isNone && conn.dialect.isNone &&
        (dispatchFrame Sample.server Sample.negotiateWithTail w).2.conn.dialect ==
          some .smb210) = true := by
    decide +kernel
  have server : ((System.start Sample.server ()).run [.accept] : System Unit Unit).server =
    Sample.server := rfl
  revert last reached server
  generalize (System.start Sample.server ()).run [.accept] = s
  intro last reached server
  simp only [Option.any_eq_true, Bool.and_eq_true, Option.isNone_iff_eq_none, beq_iff_eq]
    at reached
  obtain ⟨conn, live, ⟨dropped, before⟩, after⟩ := reached
  rw [← server] at dropped after
  -- none of its elements is a CANCEL
  have noCancel : ¬HoldsCancel Sample.negotiateWithTail := by
    have commands : (splitCompound Sample.negotiateWithTail).all (fun sub =>
        (Smb2Header.parse sub).all fun found => found.1.command ≠ .cancel) = true := by
      decide +kernel
    rintro ⟨sub, member, hdr, body, parsed, cancel⟩
    have here := List.all_eq_true.mp commands sub member
    simp [parsed, cancel] at here
  have unaffected := last 1 Sample.negotiateWithTail conn rfl live dropped noCancel
  rw [unaffected.conn, before] at after
  cases after

end SmbServer
