import MyOwnMesh.Engine.Panics

/-!
# Calls that wait for an answer

`Rpc::call` and `Rpc::call_stream` of `crates/myownmesh-core/src/rpc.rs:193–258`, the frames that
answer them, `engine/mod.rs:2972–3030`, and `drop_peer_inner`, `:3445–3575`. Calls, the driver that
sends their requests, inbound frames and teardowns are tasks that share the table of pending calls
and the peer map; a step is what one of them does between two awaits. The table is keyed by the
request id alone, and a teardown does not look at it.
-/

namespace MyOwnMesh

open Lib Lib.Replay

variable {P : Primitives}

/-! ### The tasks -/

/-- Where a call stands; `rpc.rs:199–225`. -/
inductive CallStage where
  /-- The entry is in the table, the request is queued for the driver. -/
  | queued
  /-- `send_to_peer` has the session in hand. -/
  | sending
  /-- The send failed, the caller has not heard of it yet. -/
  | refused
  /-- The request was sent. -/
  | sent
  | failed
  deriving DecidableEq, Repr

/-- One `call` or `call_stream`. -/
structure Call where
  number : Nat
  requestId : String
  peer : String
  stage : CallStage
  deriving DecidableEq, Repr

/-- A frame that had an effect on a pending call: who sent it, and whom the call was made to. -/
structure Answer where
  requestId : String
  callee : String
  sender : String
  deriving DecidableEq, Repr

/-- The engine, all calls so far with the latest one first, the teardowns under way and the
answers so far. -/
structure CallState (P : Primitives) where
  engine : FrameState P
  calls : List Call
  dropping : List String
  answers : List Answer

/-- The frames that answer a call; `protocol/rpc.rs`. -/
inductive RpcFrame where
  | response (requestId : String) (ok : Option Value) (error : Option String)
  | streamChunk (requestId : String) (seq : UInt64) (payload : Value)
  | streamEnd (requestId : String) (error : Option String)

/-- The call a frame names. -/
def RpcFrame.requestId : RpcFrame → String
  | .response requestId _ _ => requestId
  | .streamChunk requestId _ _ => requestId
  | .streamEnd requestId _ => requestId

/-- The frame as the driver reads it. -/
def RpcFrame.message : RpcFrame → MeshMessage
  | .response requestId ok error => .rpcResponse requestId ok error
  | .streamChunk requestId seq payload => .rpcStreamChunk requestId seq payload
  | .streamEnd requestId error => .rpcStreamEnd requestId error

/-- Nothing was called yet. -/
def CallState.start (engine : FrameState P) : CallState P where
  engine := { engine with rpcPending := ∅ }
  calls := []
  dropping := []
  answers := []

/-- The call that made the entry of a request id: an insert replaces what was there. -/
def CallState.callOf (s : CallState P) (requestId : String) : Option Call :=
  s.calls.find? (·.requestId == requestId)

/-- Move a call on. -/
def setStage (number : Nat) (stage : CallStage) (calls : List Call) : List Call :=
  calls.map fun c ↦ if c.number = number then { c with stage := stage } else c

/-- A call enters the table; `rpc.rs:199–204` and `235–240`. -/
def CallState.call (s : CallState P) (requestId peer : String) (kind : PendingCall) :
    CallState P :=
  { s with
    engine := { s.engine with rpcPending := s.engine.rpcPending.insert requestId kind }
    calls := ⟨s.calls.length, requestId, peer, .queued⟩ :: s.calls }

/-- The driver looks for the session of the peer; `mod.rs:3054–3066` and `3170–3176`. -/
def CallState.lookUp (s : CallState P) (number : Nat) : CallState P :=
  match s.calls.find? (·.number == number) with
  | some c =>
    if c.stage = .queued then
      let found := s.engine.session.peers[c.peer]?.any (·.session.isSome)
      { s with calls := setStage number (if found then .sending else .refused) s.calls }
    else s
  | none => s

/-- The session takes the request or does not; `mod.rs:3067–3088`. -/
def CallState.write (s : CallState P) (number : Nat) (took : Bool) : CallState P :=
  match s.calls.find? (·.number == number) with
  | some c =>
    if c.stage = .sending then
      { s with calls := setStage number (if took then .sent else .refused) s.calls }
    else s
  | none => s

/-- A caller whose request was not sent removes its entry; `rpc.rs:217–220` and `253–256`. -/
def CallState.giveUp (s : CallState P) (number : Nat) : CallState P :=
  match s.calls.find? (·.number == number) with
  | some c =>
    if c.stage = .refused then
      { s with
        engine := { s.engine with rpcPending := s.engine.rpcPending.erase c.requestId }
        calls := setStage number .failed s.calls }
    else s
  | none => s

/-- A frame arrives. It is an answer if it takes the entry it names or hands something to the
caller. -/
def CallState.receive (env : FrameEnv) (s : CallState P) (sender : String) (frame : RpcFrame) :
    CallState P :=
  let after := (handleInboundFrame env s.engine sender frame.message).getD s.engine
  let effective := after.deliveries.length != s.engine.deliveries.length ||
    after.rpcPending.size != s.engine.rpcPending.size
  let answer := (s.callOf frame.requestId).map fun c ↦ ⟨frame.requestId, c.peer, sender⟩
  { s with
    engine := after
    answers := if effective then s.answers ++ answer.toList else s.answers }

/-- A teardown shuts the gate of the peer and takes it out of the map; `mod.rs:3451–3464`.
`epochFits` is whether the peer is the one that was to be dropped. -/
def CallState.beginDrop (s : CallState P) (deviceId : String) (epochFits : Bool) : CallState P :=
  let session := s.engine.session
  if deviceId ∈ session.closing then s
  else if session.peers.contains deviceId && epochFits then
    { s with
      engine := FrameState.withSession
        { s.engine with links := s.engine.links.erase deviceId }
        { session with
          peers := session.peers.erase deviceId
          closing := session.closing ++ [deviceId] }
      dropping := s.dropping ++ [deviceId] }
  else s

/-- The teardown is over; `mod.rs:3551–3575`. A reason that is retried keeps what is queued for the
peer, any other fails it; the gate stays shut when the close timed out. -/
def CallState.finishDrop (env : FrameEnv) (s : CallState P) (deviceId : String)
    (recoverable : Bool) (reason : String) : CallState P :=
  if deviceId ∈ s.dropping then
    let slots := s.engine.slots deviceId
    let settled := s.engine.withSlots deviceId
      (if recoverable then Reliable.markUnsent slots else Reliable.failPeer slots reason)
    let opened : SessionState P :=
      { settled.session with
        closing := if env.closeTimesOut deviceId then settled.session.closing
          else settled.session.closing.erase deviceId }
    { s with
      engine := settled.withSession (reevaluateTopology env.toSessionEnv opened)
      dropping := s.dropping.erase deviceId }
  else s

/-- A close that timed out has ended after all; `mod.rs:3494–3499`. -/
def CallState.openGate (s : CallState P) (deviceId : String) : CallState P :=
  if deviceId ∈ s.dropping then s
  else
    { s with
      engine := s.engine.withSession
        { s.engine.session with closing := s.engine.session.closing.erase deviceId } }

/-- A peer is connected, or its handshake gets further; an id whose gate is shut gets no entry. -/
def CallState.peer (s : CallState P) (deviceId : String) (p : PeerState) : CallState P :=
  if deviceId ∈ s.engine.session.closing then s
  else
    { s with
      engine := s.engine.withSession
        { s.engine.session with peers := s.engine.session.peers.insert deviceId p } }

/-- What happens next. -/
inductive CallOp where
  | call (requestId peer : String) (kind : PendingCall)
  | lookUp (number : Nat)
  | write (number : Nat) (took : Bool)
  | giveUp (number : Nat)
  | receive (env : FrameEnv) (sender : String) (frame : RpcFrame)
  | beginDrop (deviceId : String) (epochFits : Bool)
  | finishDrop (env : FrameEnv) (deviceId : String) (recoverable : Bool) (reason : String)
  | openGate (deviceId : String)
  | peer (deviceId : String) (p : PeerState)

/-- One step of an interleaving. -/
def callStep (s : CallState P) : CallOp → CallState P
  | .call requestId peer kind => s.call requestId peer kind
  | .lookUp number => s.lookUp number
  | .write number took => s.write number took
  | .giveUp number => s.giveUp number
  | .receive env sender frame => s.receive env sender frame
  | .beginDrop deviceId epochFits => s.beginDrop deviceId epochFits
  | .finishDrop env deviceId recoverable reason => s.finishDrop env deviceId recoverable reason
  | .openGate deviceId => s.openGate deviceId
  | .peer deviceId p => s.peer deviceId p

/-! ### What a call may expect -/

/-- A call to the device whose request is on its way or sent, and whose entry is in the table. -/
def CallState.InFlight (s : CallState P) (deviceId : String) : Prop :=
  ∃ requestId c, s.callOf requestId = some c ∧ requestId ∈ s.engine.rpcPending ∧
    c.peer = deviceId ∧ (c.stage = .sending ∨ c.stage = .sent)

/-- A call to the device whose request was sent, and whose entry is in the table. -/
def CallState.Waiting (s : CallState P) (deviceId : String) : Prop :=
  ∃ requestId c, s.callOf requestId = some c ∧ requestId ∈ s.engine.rpcPending ∧
    c.peer = deviceId ∧ c.stage = .sent

/-- The frame, if its sender is admitted and the call it names is pending, comes from the peer the
call was made to. -/
def CallState.FromCallee (s : CallState P) (sender : String) (frame : RpcFrame) : Prop :=
  s.engine.session.peers[sender]?.any PeerState.admitted = true →
    frame.requestId ∈ s.engine.rpcPending →
      ∀ c, s.callOf frame.requestId = some c → c.peer = sender

/-- The step is no frame for the call of another peer, and no teardown of a peer that owes an
answer. -/
def Orderly (s : CallState P) : CallOp → Prop
  | .receive _ sender frame => s.FromCallee sender frame
  | .beginDrop deviceId _ => ¬ s.InFlight deviceId
  | _ => True

/-! ### What a step can do -/

private theorem erase_pending_of_notMem {m : Std.ExtTreeMap String PendingCall} {k : String}
    (h : k ∉ m) : m.erase k = m := by
  refine Std.ExtTreeMap.ext_getElem? fun r ↦ ?_
  rw [Std.ExtTreeMap.getElem?_erase]
  split
  · next heq =>
    have hr : k = r := by simpa using heq
    subst hr
    rw [Std.ExtTreeMap.getElem?_eq_none h]
  · rfl

/-- An answering frame keeps the sessions and adds nothing to the table. Without the entry it names
it does nothing else either. -/
private theorem handle_rpcFrame (env : FrameEnv) (s : FrameState P) (sender : String)
    (frame : RpcFrame) :
    ∃ t, s.handle env sender frame.message = some t ∧ t.session = s.session ∧
      (∀ r ∈ t.rpcPending, r ∈ s.rpcPending) ∧
      (frame.requestId ∉ s.rpcPending →
        t.rpcPending = s.rpcPending ∧ t.deliveries = s.deliveries) := by
  have herase : ∀ k r, r ∈ s.rpcPending.erase k → r ∈ s.rpcPending := fun k r hr ↦
    (Std.ExtTreeMap.mem_erase.mp hr).2
  cases frame with
  | response requestId ok error =>
    refine ⟨_, rfl, ?_⟩
    unfold FrameState.onRpcResponse
    split
    · exact ⟨rfl, fun _ hr ↦ hr, fun _ ↦ ⟨rfl, rfl⟩⟩
    · cases hentry : s.rpcPending[requestId]? with
      | none => exact ⟨rfl, fun _ hr ↦ hr, fun _ ↦ ⟨rfl, rfl⟩⟩
      | some entry =>
        have hmem : requestId ∈ s.rpcPending := by
          rw [Std.ExtTreeMap.mem_iff_isSome_getElem?, hentry]
          rfl
        cases entry with
        | single =>
          cases error with
          | none => exact ⟨rfl, herase requestId, fun hn ↦ absurd hmem hn⟩
          | some e => exact ⟨rfl, herase requestId, fun hn ↦ absurd hmem hn⟩
        | stream => exact ⟨rfl, herase requestId, fun hn ↦ absurd hmem hn⟩
  | streamChunk requestId seq payload =>
    refine ⟨_, rfl, ?_⟩
    unfold FrameState.onRpcStreamChunk
    split
    · exact ⟨rfl, fun _ hr ↦ hr, fun _ ↦ ⟨rfl, rfl⟩⟩
    · cases hentry : s.rpcPending[requestId]? with
      | none => exact ⟨rfl, fun _ hr ↦ hr, fun _ ↦ ⟨rfl, rfl⟩⟩
      | some entry =>
        have hmem : requestId ∈ s.rpcPending := by
          rw [Std.ExtTreeMap.mem_iff_isSome_getElem?, hentry]
          rfl
        cases entry with
        | single => exact ⟨rfl, fun _ hr ↦ hr, fun _ ↦ ⟨rfl, rfl⟩⟩
        | stream => exact ⟨rfl, fun _ hr ↦ hr, fun hn ↦ absurd hmem hn⟩
  | streamEnd requestId error =>
    refine ⟨_, rfl, ?_⟩
    unfold FrameState.onRpcStreamEnd
    split
    · exact ⟨rfl, fun _ hr ↦ hr, fun _ ↦ ⟨rfl, rfl⟩⟩
    · cases hentry : s.rpcPending[requestId]? with
      | none => exact ⟨rfl, herase requestId, fun hn ↦ ⟨erase_pending_of_notMem hn, rfl⟩⟩
      | some entry =>
        have hmem : requestId ∈ s.rpcPending := by
          rw [Std.ExtTreeMap.mem_iff_isSome_getElem?, hentry]
          rfl
        cases entry with
        | single => exact ⟨rfl, herase requestId, fun hn ↦ absurd hmem hn⟩
        | stream =>
          cases error with
          | none => exact ⟨rfl, herase requestId, fun hn ↦ absurd hmem hn⟩
          | some e => exact ⟨rfl, herase requestId, fun hn ↦ absurd hmem hn⟩

/-- An answering frame of a peer that is not admitted, or that names no pending call, leaves the
table and the callers alone. -/
private theorem handleInboundFrame_rpcFrame (env : FrameEnv) (s : FrameState P) (sender : String)
    (frame : RpcFrame) :
    ∃ t, handleInboundFrame env s sender frame.message = some t ∧ t.session = s.session ∧
      (∀ r ∈ t.rpcPending, r ∈ s.rpcPending) ∧
      (s.session.peers[sender]?.any PeerState.admitted = false ∨ frame.requestId ∉ s.rpcPending →
        t.rpcPending = s.rpcPending ∧ t.deliveries = s.deliveries) := by
  have happ : (inboundAdmission frame.message == .application) = true := by cases frame <;> rfl
  unfold handleInboundFrame
  simp only [happ, Bool.true_and, ↓reduceIte]
  cases hp : s.session.peers[sender]? with
  | none => exact ⟨s, rfl, rfl, fun _ hr ↦ hr, fun _ ↦ ⟨rfl, rfl⟩⟩
  | some p =>
    cases hadm : p.admitted with
    | false =>
      simp only [hadm, Bool.not_false, ↓reduceIte]
      refine ⟨_, rfl, ?_⟩
      unfold FrameState.modifyLink
      split
      · exact ⟨rfl, fun _ hr ↦ hr, fun _ ↦ ⟨rfl, rfl⟩⟩
      · exact ⟨rfl, fun _ hr ↦ hr, fun _ ↦ ⟨rfl, rfl⟩⟩
    | true =>
      simp only [hadm, Bool.not_true, Bool.false_eq_true, ↓reduceIte]
      obtain ⟨t, ht, hsession, hsub, hnone⟩ := handle_rpcFrame env s sender frame
      refine ⟨t, ht, hsession, hsub, ?_⟩
      rintro (hn | hn)
      · simp [hadm] at hn
      · exact hnone hn

private theorem find?_setStage (number : Nat) (stage : CallStage) (calls : List Call)
    (requestId : String) :
    (setStage number stage calls).find? (·.requestId == requestId) =
      (calls.find? (·.requestId == requestId)).map fun c ↦
        if c.number = number then { c with stage := stage } else c := by
  rw [setStage, List.find?_map]
  congr 2
  funext c
  simp only [Function.comp_apply]
  split <;> rfl

private theorem map_number_setStage (number : Nat) (stage : CallStage) (calls : List Call) :
    (setStage number stage calls).map Call.number = calls.map Call.number := by
  rw [setStage, List.map_map]
  refine List.map_congr_left fun c _ ↦ ?_
  simp only [Function.comp_apply]
  split <;> rfl

/-- Fewer entries and the same calls: nothing new is in flight. -/
private theorem CallState.InFlight.mono {s t : CallState P} {k : String} (h : t.InFlight k)
    (hcalls : t.calls = s.calls)
    (hpending : ∀ r ∈ t.engine.rpcPending, r ∈ s.engine.rpcPending) : s.InFlight k := by
  obtain ⟨r, c, hc, hr, hpeer, hstage⟩ := h
  rw [CallState.callOf, hcalls] at hc
  exact ⟨r, c, hc, hpending r hr, hpeer, hstage⟩

/-- The invariant of orderly runs. A peer whose teardown is under way has no entry in the map and
no call in flight. -/
structure CallsKept (s : CallState P) : Prop where
  numbered : s.calls.map Call.number = (List.range s.calls.length).reverse
  answered : ∀ a ∈ s.answers, a.sender = a.callee
  nodup : s.dropping.Nodup
  gated : ∀ k ∈ s.dropping, k ∈ s.engine.session.closing ∧ s.engine.session.peers[k]? = none
  idle : ∀ k ∈ s.dropping, ¬ s.InFlight k

/-- Calls are told apart by their numbers. -/
private theorem CallsKept.eq_of_number {s : CallState P} (h : CallsKept s) {c d : Call}
    (hc : c ∈ s.calls) (hd : d ∈ s.calls) (heq : c.number = d.number) : c = d := by
  have hnodup : (s.calls.map Call.number).Nodup := by
    rw [h.numbered, List.nodup_reverse]
    exact List.nodup_range
  exact List.inj_on_of_nodup_map hnodup hc hd heq

/-- A new call is not in flight, and hides the call of the entry it replaces. -/
private theorem CallsKept.call {s : CallState P} (h : CallsKept s) (requestId peer : String)
    (kind : PendingCall) : CallsKept (s.call requestId peer kind) := by
  refine ⟨?_, h.answered, h.nodup, h.gated, fun k hk hflight ↦ h.idle k hk ?_⟩
  · show s.calls.length :: s.calls.map Call.number = (List.range (s.calls.length + 1)).reverse
    rw [h.numbered, List.range_succ, List.reverse_append]
    rfl
  · obtain ⟨r, c, hc, hr, hpeer, hstage⟩ := hflight
    by_cases heq : requestId = r
    · subst heq
      have hnew : c = ⟨s.calls.length, requestId, peer, .queued⟩ := by
        simpa [CallState.call, CallState.callOf, eq_comm] using hc
      rw [hnew] at hstage
      simp at hstage
    · have hold : s.callOf r = some c := by
        simpa [CallState.call, CallState.callOf, heq] using hc
      have hmem : r ∈ s.engine.rpcPending := by
        simpa [CallState.call, heq] using hr
      exact ⟨r, c, hold, hmem, hpeer, hstage⟩

/-- Moving a call on keeps the invariant where the call, if it gets in flight, is to a peer whose
teardown is not under way. -/
private theorem CallsKept.setStage {s : CallState P} (h : CallsKept s) {c : Call}
    (hc : c ∈ s.calls) {stage : CallStage}
    (hstage : stage = .sending ∨ stage = .sent → c.peer ∈ s.dropping →
      c.requestId ∈ s.engine.rpcPending → s.callOf c.requestId ≠ some c) :
    CallsKept { s with calls := setStage c.number stage s.calls } := by
  refine ⟨?_, h.answered, h.nodup, h.gated, fun k hk hflight ↦ h.idle k hk ?_⟩
  · show (MyOwnMesh.setStage c.number stage s.calls).map Call.number = _
    rw [map_number_setStage, h.numbered]
    simp [MyOwnMesh.setStage]
  · obtain ⟨r, d, hd, hr, hpeer, hst⟩ := hflight
    rw [CallState.callOf, find?_setStage, Option.map_eq_some_iff] at hd
    obtain ⟨e, he, rfl⟩ := hd
    split at hpeer
    · next hnum =>
      rw [if_pos hnum] at hst
      obtain rfl : e = c := h.eq_of_number (List.mem_of_find?_eq_some he) hc hnum
      obtain rfl : e.requestId = r := by simpa using List.find?_some he
      exact absurd he (hstage hst (hpeer ▸ hk) hr)
    · next hnum =>
      rw [if_neg hnum] at hst
      exact ⟨r, e, he, hr, hpeer, hst⟩

/-- No session is found for a peer whose teardown is under way. -/
private theorem CallsKept.lookUp {s : CallState P} (h : CallsKept s) (number : Nat) :
    CallsKept (s.lookUp number) := by
  unfold CallState.lookUp
  split
  · next c hc =>
    split
    · have hnum : c.number = number := by simpa using List.find?_some hc
      rw [← hnum]
      refine h.setStage (List.mem_of_find?_eq_some hc) fun hstage hdrop ↦ ?_
      rw [(h.gated c.peer hdrop).2] at hstage
      simp at hstage
    · exact h
  · exact h

/-- A request on its way to such a peer has lost its entry. -/
private theorem CallsKept.write {s : CallState P} (h : CallsKept s) (number : Nat) (took : Bool) :
    CallsKept (s.write number took) := by
  unfold CallState.write
  split
  · next c hc =>
    split
    · next hsending =>
      have hnum : c.number = number := by simpa using List.find?_some hc
      rw [← hnum]
      refine h.setStage (List.mem_of_find?_eq_some hc) fun _ hdrop hr hof ↦ ?_
      exact h.idle c.peer hdrop ⟨c.requestId, c, hof, hr, rfl, .inl hsending⟩
    · exact h
  · exact h

/-- With the same calls, answers and teardowns, sessions and table decide. -/
private theorem CallsKept.of_engine {s : CallState P} (h : CallsKept s) (engine : FrameState P)
    (hpending : ∀ r ∈ engine.rpcPending, r ∈ s.engine.rpcPending)
    (hgated : ∀ k ∈ s.dropping, k ∈ engine.session.closing ∧ engine.session.peers[k]? = none) :
    CallsKept { s with engine := engine } :=
  ⟨h.numbered, h.answered, h.nodup, hgated, fun k hk hflight ↦
    h.idle k hk (hflight.mono rfl hpending)⟩

private theorem CallsKept.giveUp {s : CallState P} (h : CallsKept s) (number : Nat) :
    CallsKept (s.giveUp number) := by
  unfold CallState.giveUp
  split
  · next c hc =>
    split
    · have hnum : c.number = number := by simpa using List.find?_some hc
      have hless := h.of_engine
        { s.engine with rpcPending := s.engine.rpcPending.erase c.requestId }
        (fun r hr ↦ (Std.ExtTreeMap.mem_erase.mp hr).2) h.gated
      rw [← hnum]
      exact hless.setStage (List.mem_of_find?_eq_some hc) fun hstage ↦ by simp at hstage
    · exact h
  · exact h

/-- A frame from the callee is the only kind that gets through to a call. -/
private theorem CallsKept.receive {s : CallState P} (h : CallsKept s) (env : FrameEnv)
    {sender : String} {frame : RpcFrame} (hfrom : s.FromCallee sender frame) :
    CallsKept (s.receive env sender frame) := by
  obtain ⟨t, ht, hsession, hsub, hnone⟩ := handleInboundFrame_rpcFrame env s.engine sender frame
  have hkept := h.of_engine t hsub fun k hk ↦ hsession ▸ h.gated k hk
  refine ⟨hkept.numbered, fun a ha ↦ ?_, hkept.nodup, ?_, ?_⟩
  · simp only [CallState.receive, ht, Option.getD_some] at ha
    split at ha
    · next heffective =>
      rcases List.mem_append.mp ha with hold | hnew
      · exact h.answered a hold
      · obtain ⟨c, hc, rfl⟩ : ∃ c, s.callOf frame.requestId = some c ∧
            a = ⟨frame.requestId, c.peer, sender⟩ := by
          simpa [eq_comm] using hnew
        by_cases hquiet : s.engine.session.peers[sender]?.any PeerState.admitted = false ∨
            frame.requestId ∉ s.engine.rpcPending
        · obtain ⟨hpending, hdeliveries⟩ := hnone hquiet
          simp [hpending, hdeliveries] at heffective
        · obtain ⟨hadmitted, hmem⟩ := not_or.mp hquiet
          exact (hfrom (by simpa using hadmitted) (not_not.mp hmem) c hc).symm
    · exact h.answered a ha
  · intro k hk
    simp only [CallState.receive, ht, Option.getD_some]
    exact hkept.gated k hk
  · intro k hk hflight
    refine hkept.idle k hk (hflight.mono rfl fun r hr ↦ ?_)
    simpa only [CallState.receive, ht, Option.getD_some] using hr

private theorem CallsKept.beginDrop {s : CallState P} (h : CallsKept s) {deviceId : String}
    (hidle : ¬ s.InFlight deviceId) (epochFits : Bool) :
    CallsKept (s.beginDrop deviceId epochFits) := by
  unfold CallState.beginDrop
  simp only
  split
  · exact h
  · next hclosing =>
    split
    · refine ⟨h.numbered, h.answered, ?_, ?_, ?_⟩
      · rw [List.nodup_append]
        refine ⟨h.nodup, List.nodup_singleton _, fun a ha b hb ↦ ?_⟩
        rintro rfl
        rw [List.mem_singleton.mp hb] at ha
        exact hclosing (h.gated deviceId ha).1
      · intro k hk
        simp only [FrameState.withSession, List.mem_append, List.mem_singleton,
          Std.ExtTreeMap.getElem?_erase]
        rcases List.mem_append.mp hk with hold | hnew
        · obtain ⟨hin, hnone⟩ := h.gated k hold
          refine ⟨.inl hin, ?_⟩
          rw [hnone, ite_self]
        · rw [List.mem_singleton.mp hnew]
          simp
      · intro k hk hflight
        have hbefore : s.InFlight k := hflight.mono rfl fun _ hr ↦ hr
        rcases List.mem_append.mp hk with hold | hnew
        · exact h.idle k hold hbefore
        · rw [List.mem_singleton.mp hnew] at hbefore
          exact hidle hbefore
    · exact h

private theorem CallsKept.finishDrop {s : CallState P} (h : CallsKept s) (env : FrameEnv)
    (deviceId : String) (recoverable : Bool) (reason : String) :
    CallsKept (s.finishDrop env deviceId recoverable reason) := by
  unfold CallState.finishDrop
  split
  · refine ⟨h.numbered, h.answered, h.nodup.erase deviceId, ?_, ?_⟩
    · intro k hk
      obtain ⟨hne, hk'⟩ := h.nodup.mem_erase_iff.mp hk
      obtain ⟨hin, hnone⟩ := h.gated k hk'
      have htop := fun session : SessionState P ↦
        keepsSessions_reevaluateTopology env.toSessionEnv session
      refine ⟨?_, ?_⟩
      · show k ∈ (reevaluateTopology env.toSessionEnv _).closing
        rw [(htop _).closing]
        show k ∈ if env.closeTimesOut deviceId then s.engine.session.closing
          else s.engine.session.closing.erase deviceId
        split
        · exact hin
        · exact (List.mem_erase_of_ne hne).mpr hin
      · show (reevaluateTopology env.toSessionEnv _).peers[k]? = none
        rw [Option.eq_none_iff_forall_ne_some]
        intro p hp
        obtain ⟨q, hq, -⟩ := (htop _).peers k p hp
        exact absurd (hnone.symm.trans hq) (by simp)
    · intro k hk hflight
      exact h.idle k (List.mem_of_mem_erase hk) (hflight.mono rfl fun _ hr ↦ hr)
  · exact h

private theorem CallsKept.openGate {s : CallState P} (h : CallsKept s) (deviceId : String) :
    CallsKept (s.openGate deviceId) := by
  unfold CallState.openGate
  split
  · exact h
  · next hdone =>
    refine h.of_engine _ (fun _ hr ↦ hr) fun k hk ↦ ⟨?_, (h.gated k hk).2⟩
    have hne : k ≠ deviceId := by
      rintro rfl
      exact hdone hk
    exact (List.mem_erase_of_ne hne).mpr (h.gated k hk).1

private theorem CallsKept.peer {s : CallState P} (h : CallsKept s) (deviceId : String)
    (p : PeerState) : CallsKept (s.peer deviceId p) := by
  unfold CallState.peer
  split
  · exact h
  · next hopen =>
    refine h.of_engine _ (fun _ hr ↦ hr) fun k hk ↦ ⟨(h.gated k hk).1, ?_⟩
    have hne : deviceId ≠ k := fun heq ↦ hopen (heq ▸ (h.gated k hk).1)
    simp [FrameState.withSession, Std.ExtTreeMap.getElem?_insert, hne, (h.gated k hk).2]

/-- An orderly step keeps the invariant. -/
theorem CallsKept.step {s : CallState P} (h : CallsKept s) {o : CallOp} (ho : Orderly s o) :
    CallsKept (callStep s o) := by
  cases o with
  | call requestId peer kind => exact h.call requestId peer kind
  | lookUp number => exact h.lookUp number
  | write number took => exact h.write number took
  | giveUp number => exact h.giveUp number
  | receive env sender frame => exact h.receive env ho
  | beginDrop deviceId epochFits => exact h.beginDrop ho epochFits
  | finishDrop env deviceId recoverable reason =>
    exact h.finishDrop env deviceId recoverable reason
  | openGate deviceId => exact h.openGate deviceId
  | peer deviceId p => exact h.peer deviceId p

theorem callsKept_start (engine : FrameState P) : CallsKept (.start engine) :=
  ⟨rfl, nofun, List.nodup_nil, nofun, nofun⟩

/-- In every orderly run, every answer to a call comes from the peer the call was made to, and no
call waits for a peer when its teardown is over. -/
theorem calls_answered_by_callee (engine : FrameState P) {ops : List CallOp}
    (h : AllSteps callStep Orderly (.start engine) ops) :
    ∀ before after, ops = before ++ after →
      (∀ a ∈ (run callStep (.start engine) before).answers, a.sender = a.callee) ∧
        ∀ env deviceId recoverable reason rest,
          after = .finishDrop env deviceId recoverable reason :: rest →
          deviceId ∈ (run callStep (.start engine) before).dropping →
          ¬ (run callStep (.start engine)
              (before ++ [.finishDrop env deviceId recoverable reason])).Waiting deviceId := by
  intro before after hops
  have hkept := forall_run_of_allSteps (I := CallsKept) (fun _ _ hs ho ↦ hs.step ho)
    (callsKept_start engine) h before after hops
  refine ⟨hkept.answered, ?_⟩
  intro env deviceId recoverable reason rest _ hdropping hwaiting
  rw [run_append, run_cons, run_nil] at hwaiting
  generalize run callStep (.start engine) before = s at hkept hdropping hwaiting
  have hsame : (s.finishDrop env deviceId recoverable reason).calls = s.calls ∧
      (s.finishDrop env deviceId recoverable reason).engine.rpcPending = s.engine.rpcPending := by
    unfold CallState.finishDrop
    rw [if_pos hdropping]
    exact ⟨rfl, rfl⟩
  obtain ⟨r, c, hc, hr, hpeer, hstage⟩ := hwaiting
  have hflight : (s.finishDrop env deviceId recoverable reason).InFlight deviceId :=
    ⟨r, c, hc, hr, hpeer, .inr hstage⟩
  exact hkept.idle deviceId hdropping
    (hflight.mono hsame.1 fun r hr ↦ by rwa [hsame.2] at hr)

/-! ### Concrete calls -/

/-- A device with two peers whose handshakes are done. -/
def trioNode : FrameState seeded :=
  let joined : PeerState :=
    { PeerState.fresh (some ⟨some "fingerprint", some "fingerprint"⟩) with
      status := .active
      authenticated := true }
  .start { SessionState.join freshNode true with
    peers := ((∅ : PeerMap).insert "alice" joined).insert "bob" joined }

/-- A line on which calls are bound. -/
def boundLine : FrameEnv := { plainLine with rpcHandlers := some fun _ ↦ false }

/-- A call to one of the peers is sent. -/
def callAlice : List CallOp := [.call "request" "alice" .single, .lookUp 0, .write 0 true]

/-- Its peer answers and is dropped. -/
def aliceAnswers : List CallOp :=
  [.receive boundLine "alice" (.response "request" (some .null) none), .beginDrop "alice" true]

/-- A call that is answered before its peer goes. -/
theorem answered_before_drop :
    (∀ a ∈ (run callStep (.start trioNode) (callAlice ++ aliceAnswers)).answers,
      a.sender = a.callee) ∧
      ¬ (run callStep (.start trioNode)
          (callAlice ++ aliceAnswers ++ [.finishDrop boundLine "alice" true ""])).Waiting
        "alice" := by
  have hof : (run callStep (.start trioNode) callAlice).callOf "request" =
      some ⟨0, "request", "alice", .sent⟩ := by decide +kernel
  have hempty : (run callStep (.start trioNode) (callAlice ++ [.receive boundLine "alice"
      (.response "request" (some .null) none)])).engine.rpcPending.isEmpty = true := by
    decide +kernel
  have hsteps : AllSteps callStep Orderly (.start trioNode)
      (callAlice ++ aliceAnswers ++ [.finishDrop boundLine "alice" true ""]) := by
    refine ⟨trivial, trivial, trivial, ?_, ?_, trivial, trivial⟩
    · intro _ _ c hc
      have heq : some c = some ⟨0, "request", "alice", .sent⟩ := hc.symm.trans hof
      cases heq
      rfl
    · rintro ⟨r, c, -, hr, -⟩
      have hnone : (run callStep (.start trioNode) (callAlice ++ [.receive boundLine "alice"
          (.response "request" (some .null) none)])).engine.rpcPending = ∅ :=
        Std.ExtTreeMap.isEmpty_iff.mp hempty
      exact Std.ExtTreeMap.not_mem_empty (hnone ▸ hr)
  obtain ⟨hanswers, hdropped⟩ := calls_answered_by_callee trioNode hsteps
    (callAlice ++ aliceAnswers) [.finishDrop boundLine "alice" true ""] rfl
  exact ⟨hanswers, hdropped boundLine "alice" true "" [] rfl (by decide +kernel)⟩

/-- A call to one peer is answered by another, and a call whose peer is dropped stays in the
table. -/
theorem misdirected_and_orphaned :
    (run callStep (.start trioNode)
        (callAlice ++ [.receive boundLine "bob" (.response "request" (some .null) none)])).answers =
      [⟨"request", "alice", "bob"⟩] ∧
      (run callStep (.start trioNode) (callAlice ++ [.beginDrop "alice" true])).dropping =
        ["alice"] ∧
      (run callStep (.start trioNode) (callAlice ++ [.beginDrop "alice" true,
        .finishDrop boundLine "alice" true ""])).Waiting "alice" := by
  refine ⟨by decide +kernel, by decide +kernel, "request", ⟨0, "request", "alice", .sent⟩, ?_, ?_,
    rfl, rfl⟩
  · decide +kernel
  · decide +kernel

end MyOwnMesh
