import SmbServer.System
import SmbServer.Lib.Run

/-!
# SmbServer.Steps

A run of events as a run of single requests. A frame is executed element by element, each with the
bytes it had on the wire and the context it inherits from; `System.run_eq` says that executing the
elements of every frame one after another is the run of the events themselves.
-/

namespace SmbServer

open Lib

/-- One element of a frame: its bytes as received, what it can inherit, and its position. -/
structure Element where
  received : Bytes
  context : RelatedContext
  ordinal : UInt32
  deriving DecidableEq

/-- The bytes the element is dispatched with. -/
def Element.bytes (e : Element) : Bytes :=
  match Smb2Header.parse e.received with
  | some (hdr, _) => (effectiveElement e.context hdr e.received).1
  | none => e.received

theorem Element.bytes_of_splitElement {available sub : Bytes} {hdr : Smb2Header} {next : Nat}
    (split : splitElement available = some (hdr, sub, next)) (ctx : RelatedContext)
    (ordinal : UInt32) :
    Element.bytes ⟨sub, ctx, ordinal⟩ = (effectiveElement ctx hdr sub).1 := by
  obtain ⟨body, parsed⟩ := parse_of_splitElement split
  simp only [Element.bytes, parsed]

/-- The only element of a frame. -/
def Element.single (frame : Bytes) : Element := ⟨frame, initialContext, 0⟩

/-- What a run is made of. -/
inductive Step where
  | accept
  | element (conn : UInt64) (e : Element)
  | smb1 (conn : UInt64) (chosen : UInt16)
  | config (op : ConfigOp)
  | hangup (conn : UInt64)

/-- The connection and the element of a step that has one. -/
def Step.element? : Step → Option (UInt64 × Element)
  | .element cid e => some (cid, e)
  | _ => none

/-- A list of steps that are all elements. -/
theorem eq_elements_of_map (steps : List Step) (elements : List (UInt64 × Element))
    (h : steps.map Step.element? = elements.map some) :
    steps = elements.map fun (cid, e) => .element cid e := by
  induction steps generalizing elements with
  | nil =>
    cases elements with
    | nil => rfl
    | cons => cases h
  | cons step rest ih =>
    cases elements with
    | nil => cases h
    | cons first others =>
      obtain ⟨head, tail⟩ := List.cons.inj h
      cases step with
      | element cid e =>
        obtain rfl := Option.some.inj head
        rw [ih others tail, List.map_cons]
      | accept | smb1 | config | hangup => cases head

variable {σ η : Type} [Host σ η] [Crypto]

namespace System

def execute (s : System σ η) : Step → System σ η
  | .accept => s.accept
  | .element cid e => (s.onConn cid (dispatchOne s.server e.bytes e.ordinal)).2
  | .smb1 cid chosen => (s.onConn cid (handleSmb1MultiProtocol s.server chosen)).2
  | .config op => (s.configure op).2
  | .hangup cid => s.hangup cid

/-- The elements that `dispatchElements` executes, in the same recursion. -/
def elements (fuel : Nat) (server : ServerState) (cid : UInt64) (available : Bytes)
    (ctx : RelatedContext) (ordinal : UInt32) (w : World σ η) : List Step :=
  match fuel with
  | 0 => []
  | fuel + 1 =>
    match splitElement available with
    | none => []
    | some (hdr, sub, next) =>
      let (bytes, hdr) := effectiveElement ctx hdr sub
      let (response, w) := dispatchOne server bytes ordinal w
      .element cid ⟨sub, ctx, ordinal⟩ ::
        if next = 0 ∨ available.length ≤ next then []
        else
          elements fuel server cid (available.drop next) (nextContext ctx hdr response)
            (if ordinal = maxU32 then maxU32 else ordinal + 1) w

/-- The steps of one event. -/
def expand (s : System σ η) : Event → List Step
  | .accept => [.accept]
  | .frame cid bytes =>
    match s.conns.lookup cid with
    | none => []
    | some conn =>
      match smb1Choice bytes with
      | some chosen => [.smb1 cid chosen]
      | none => elements (bytes.length + 1) s.server cid bytes initialContext 0 ⟨conn, s.env⟩
  | .config op => [.config op]
  | .hangup cid => [.hangup cid]

/-- The steps of a list of events. -/
def steps (s : System σ η) : List Event → List Step
  | [] => []
  | e :: events => s.expand e ++ steps (s.step e) events

/-- The system with another world on one connection. -/
private def put (s : System σ η) (cid : UInt64) (w : World σ η) : System σ η :=
  { s with conns := s.conns.modify cid fun _ => w.conn, env := w.env }

omit [Host σ η] [Crypto] in
private theorem put_self (s : System σ η) (cid : UInt64) (conn : Connection η)
    (found : s.conns.lookup cid = some conn) : s.put cid ⟨conn, s.env⟩ = s := by
  simp only [put, Table.modify_const_self s.conns cid conn found]

omit [Host σ η] [Crypto] in
private theorem onConn_put {α : Type} (s : System σ η) (cid : UInt64) (w : World σ η)
    (m : Action (World σ η) α) (live : (s.conns.lookup cid).isSome) :
    ((s.put cid w).onConn cid m).2 = s.put cid (m w).2 := by
  obtain ⟨conn, found⟩ := Option.isSome_iff_exists.mp live
  have here : (s.put cid w).conns.lookup cid = some w.conn := by
    simp only [put, Table.lookup_modify_self, found, Option.map_some]
  simp only [onConn, here]
  simp only [put, Table.modify_modify]
  rfl

private theorem runAll_elements (fuel : Nat) (s : System σ η) (cid : UInt64)
    (live : (s.conns.lookup cid).isSome) (available : Bytes) (ctx : RelatedContext)
    (ordinal : UInt32) (w : World σ η) :
    runAll execute (s.put cid w) (elements fuel s.server cid available ctx ordinal w) =
      s.put cid (dispatchElements fuel s.server available ctx ordinal w).2 := by
  induction fuel generalizing available ctx ordinal w with
  | zero => rfl
  | succ fuel ih =>
    rw [elements, dispatchElements]
    cases split : splitElement available with
    | none => rfl
    | some parts =>
      obtain ⟨hdr, sub, next⟩ := parts
      have first := onConn_put s cid w
        (dispatchOne s.server (effectiveElement ctx hdr sub).1 ordinal) live
      have bytes := Element.bytes_of_splitElement split ctx ordinal
      -- one element is one step; the recursion goes on with what is behind it
      by_cases last : next = 0 ∨ available.length ≤ next
      · simp only [last, if_true, runAll_cons, runAll_nil, execute, bytes, Action.bind_apply,
          Action.pure_apply]
        exact first
      · simp only [last, if_false, runAll_cons, execute, bytes, Action.bind_apply,
          Action.pure_apply]
        have serverEq : (s.put cid w).server = s.server := rfl
        rw [serverEq, first]
        exact ih _ _ _ _

theorem step_eq (s : System σ η) (e : Event) : s.step e = runAll execute s (s.expand e) := by
  cases e with
  | accept => rfl
  | config op => rfl
  | hangup cid => rfl
  | frame cid bytes =>
    cases found : s.conns.lookup cid with
    | none => simp only [step, serve, onConn, expand, found, runAll_nil]
    | some conn =>
      cases choice : smb1Choice bytes with
      | some chosen =>
        simp only [step, serve, expand, found, choice, runAll_cons, runAll_nil, execute, onConn,
          dispatchFrame, Action.bind_apply, Action.pure_apply]
      | none =>
        have live : (s.conns.lookup cid).isSome := by simp [found]
        have elems := runAll_elements (bytes.length + 1) s cid live bytes initialContext 0
          ⟨conn, s.env⟩
        rw [put_self s cid conn found] at elems
        simp only [expand, found, choice]
        rw [elems]
        have frame : (dispatchFrame s.server bytes ⟨conn, s.env⟩).2 =
            (dispatchElements (bytes.length + 1) s.server bytes initialContext 0
              ⟨conn, s.env⟩).2 := by
          simp only [dispatchFrame, choice, Action.bind_apply]
          rcases dispatchElements (bytes.length + 1) s.server bytes initialContext 0
            ⟨conn, s.env⟩ with ⟨_ | _ | _, _⟩ <;> rfl
        simp only [step, serve, onConn, found, put, frame]

/-- A run of events is the run of their steps. -/
theorem run_eq (s : System σ η) (events : List Event) :
    s.run events = runAll execute s (s.steps events) := by
  induction events generalizing s with
  | nil => rfl
  | cons e rest ih => rw [run_cons, ih, steps, runAll_append, ← step_eq]

theorem steps_append (s : System σ η) (before behind : List Event) :
    s.steps (before ++ behind) = s.steps before ++ (s.run before).steps behind := by
  induction before generalizing s with
  | nil => rfl
  | cons e rest ih => rw [List.cons_append, steps, ih, steps, List.append_assoc, run_cons]

/-- The frame holds one unrelated SMB2 request and nothing else. -/
def isSingle (frame : Bytes) : Bool :=
  smb1Choice frame == none &&
    (splitElement frame).any fun (hdr, sub, next) =>
      sub == frame && next == 0 && !hasFlag hdr.flags smb2FlagsRelatedOperations

/-- A single request is one element, dispatched as it was received. -/
theorem expand_single (s : System σ η) (cid : UInt64) (frame : Bytes)
    (live : (s.conns.lookup cid).isSome) (single : isSingle frame = true) :
    s.expand (.frame cid frame) = [.element cid (.single frame)] ∧
      (Element.single frame).bytes = frame := by
  obtain ⟨conn, found⟩ := Option.isSome_iff_exists.mp live
  simp only [isSingle, Bool.and_eq_true, beq_iff_eq, Option.any_eq_true, Bool.not_eq_true',
    Prod.exists] at single
  obtain ⟨notSmb1, hdr, sub, next, alone, ⟨rfl, rfl⟩, unrelated⟩ := single
  constructor
  · simp only [expand, found, notSmb1, elements, alone, true_or, if_true, Element.single]
  · rw [Element.single, Element.bytes_of_splitElement alone, effectiveElement, unrelated]
    rfl

/-- `Q` holds of every event of a run on a server that has just started, and the state the event
finds. -/
def EachEvent (server : ServerState) (host : σ) (events : List Event)
    (Q : System σ η → Event → Prop) : Prop :=
  Always step Q (start server host) events

/-- The last event of a run. -/
theorem EachEvent.last {Q : System σ η → Event → Prop} {server : ServerState} {host : σ}
    {before : List Event} {e : Event} (all : EachEvent server host (before ++ [e]) Q) :
    Q ((start server host).run before) e :=
  ((Always.append _ _ _).mp all).2.1

/-- `Q` holds of every step of the run of `events` on a server that has just started, and the state
the step is executed in. -/
def Throughout (server : ServerState) (host : σ) (events : List Event)
    (Q : System σ η → Step → Prop) : Prop :=
  Always execute Q (start server host) ((start server host).steps events)

theorem Throughout.of_invariant (Inv : System σ η → Prop) {Q : System σ η → Step → Prop}
    (server : ServerState) (host : σ) (events : List Event) (init : Inv (start server host))
    (preserved : ∀ s step, Inv s → Inv (s.execute step)) (here : ∀ s step, Inv s → Q s step) :
    Throughout server host events Q :=
  Always.of_preserved Inv preserved here _ _ init

/-- The elements of the last frame of a run. -/
theorem Throughout.lastFrame {Q : System σ η → Step → Prop} {server : ServerState} {host : σ}
    {before : List Event} {cid : UInt64} {frame : Bytes}
    (all : Throughout server host (before ++ [.frame cid frame]) Q)
    (elements : List (UInt64 × Element))
    (split : (((start server host).run before).expand (.frame cid frame)).map Step.element? =
      elements.map some) :
    Always execute Q ((start server host).run before)
      (elements.map fun (cid, e) => .element cid e) := by
  rw [Throughout, steps_append, Always.append, ← run_eq] at all
  have last := all.2
  rw [steps, steps, List.append_nil] at last
  rwa [eq_elements_of_map _ _ split] at last

/-- The last frame of a run, when it holds one unrelated request. -/
theorem Throughout.last {Q : System σ η → Step → Prop} {server : ServerState} {host : σ}
    {before : List Event} {cid : UInt64} {frame : Bytes}
    (all : Throughout server host (before ++ [.frame cid frame]) Q)
    (live : (((start server host : System σ η).run before).conns.lookup cid).isSome)
    (single : isSingle frame = true) :
    Q ((start server host).run before) (.element cid (.single frame)) := by
  have split := congrArg (List.map Step.element?) (expand_single _ cid frame live single).1
  exact (all.lastFrame [(cid, .single frame)] split).1

end System

end SmbServer
