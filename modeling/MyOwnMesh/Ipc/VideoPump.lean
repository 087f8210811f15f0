import Mathlib.Data.List.Chain
import Mathlib.Data.List.Nodup
import Mathlib.Logic.Function.Basic
import MyOwnMesh.Lib.Replay

/-!
# The video pump and the media sinks of its clients

`spawn_video_pump` and `forward_video_to_media_sink` of `bridge.rs:218–329, 343–405`, the
subscriptions of `clients.rs:347–386`. The pump looks at the subscribers, waits for a sample and
offers it to those who were there; a sample that the fan-out shed is one that it does not receive.
Whether a number is missing it tells from the last one of the lane that it received, and what a
client still has to be told from one of three states of the client and the lane.

Sinks are numbered in the order in which their pipes are opened, samples of a lane in the order in
which they were dispatched. What is enqueued on a sink is the kind and the number of each body; the
JSON events of clients without a sink are left out.
-/

namespace MyOwnMesh.VideoPump

open Lib Lib.Replay

/-- A peer and one of its lanes. -/
abbrev Lane := String × UInt8

/-- `MediaSinkVideoRecovery`; nothing is to be told if there is none. -/
inductive Recovery where
  | needGap
  | gapSent
  deriving DecidableEq, Repr

/-- What `try_send` answers. -/
inductive Sent where
  | ok
  | full
  | closed
  deriving DecidableEq, Repr

/-- `bridge.rs:359–361`. -/
def videoSequenceDiscontinuous (previous current : UInt64) : Bool := current != previous + 1

/-- The second half of the handoff: the body, unless the sample is a discontinuity. Returns whether
the sink is kept, the next state, and which bodies were enqueued, `true` for the sample's own. -/
def forwardBody (recovery : Option Recovery) (discontinuity : Bool) (marks : List Bool)
    (bodySent : Sent) : Bool × Option Recovery × List Bool :=
  if discontinuity then (true, recovery, marks)
  else
    match bodySent with
    | .ok => (true, none, marks ++ [true])
    | .full => (true, recovery.or (some .needGap), marks)
    | .closed => (false, none, marks)

/-- `bridge.rs:372–405`. -/
def forwardVideoToMediaSink (recovery : Option Recovery) (observedGap discontinuity : Bool)
    (gapSent bodySent : Sent) : Bool × Option Recovery × List Bool :=
  let recovery := if observedGap && recovery.isNone then some .needGap else recovery
  if recovery = some .needGap then
    match gapSent with
    | .ok => forwardBody (some .gapSent) discontinuity [false] bodySent
    | .full => (true, recovery, [])
    | .closed => (false, none, [])
  else forwardBody recovery discontinuity [] bodySent

/-- A body on a sink: its lane, and the number of the sample; none for a discontinuity. -/
structure Entry where
  lane : Lane
  number : Option Nat
  deriving DecidableEq, Repr

/-- The bodies of one lane. -/
def laneLog (lane : Lane) (log : List Entry) : List (Option Nat) :=
  (log.filter (·.lane = lane)).map (·.number)

/-- The subscribers, the clients that disconnected, every client's sink, how many sinks were opened
and which of them have no reader; the pump's own look at the subscribers, whether it exited because
it saw none, and its two maps. Beside them what was enqueued on each sink, and for each lane the
last sample that was received and the sinks that it was offered to. -/
structure Pump where
  subs : List Nat
  gone : List Nat
  sinkOf : Nat → Option Nat
  opened : Nat
  closed : List Nat
  snapshot : Option (List Nat)
  exited : Bool
  lastSequence : Lane → Option UInt64
  recovery : Nat → Lane → Option Recovery
  log : Nat → List Entry
  lastNumber : Lane → Option Nat
  served : Lane → List Nat

def Pump.start : Pump where
  subs := []
  gone := []
  sinkOf _ := none
  opened := 0
  closed := []
  snapshot := none
  exited := false
  lastSequence _ := none
  recovery _ _ := none
  log _ := []
  lastNumber _ := none
  served _ := []

/-- What the sends of one handoff meet: a full budget, and a reader that leaves between them. -/
structure Meets where
  gapFull : Bool
  leaves : Bool
  bodyFull : Bool

/-- A sample as it was dispatched: its number in the session, and whether it has no data. -/
structure Dispatched where
  sequence : UInt64
  discontinuity : Bool

inductive Event where
  | subscribe (client : Nat)
  | unsubscribe (client : Nat)
  | unregister (client : Nat)
  | openSink (client : Nat)
  | clearSink (client : Nat)
  | closeSink (sink : Nat)
  /-- The pump looks at the subscribers. -/
  | look
  /-- It is told that samples were shed. -/
  | lagged
  /-- It receives a sample. -/
  | sample (lane : Lane) (number : Nat) (meets : Nat → Meets)

/-- `try_send` of `media_queue.rs:113–148`. -/
def send (closed : List Nat) (sink : Nat) (full : Bool) : Sent :=
  if sink ∈ closed then .closed else if full then .full else .ok

/-- Bodies of a lane are enqueued on the sink of a client. -/
def Pump.enqueue (p : Pump) (client sink : Nat) (lane : Lane) (closed : List Nat)
    (next : Option Recovery) (bodies : List (Option Nat)) : Pump :=
  { p with
    closed := closed
    recovery := Function.update p.recovery client
      (Function.update (p.recovery client) lane next)
    log := Function.update p.log sink (p.log sink ++ bodies.map fun number ↦ ⟨lane, number⟩)
    served := Function.update p.served lane (sink :: p.served lane) }

/-- The sample is offered to one subscriber; `bridge.rs:273–316`. -/
def Pump.offer (lane : Lane) (number : Nat) (observedGap discontinuity : Bool)
    (meets : Nat → Meets) (p : Pump) (client : Nat) : Pump :=
  if client ∈ p.gone then p
  else
    match p.sinkOf client with
    | none => p
    | some sink =>
      let closed := if (meets client).leaves then sink :: p.closed else p.closed
      let result := forwardVideoToMediaSink (p.recovery client lane) observedGap discontinuity
        (send p.closed sink (meets client).gapFull) (send closed sink (meets client).bodyFull)
      p.enqueue client sink lane closed (if result.1 then result.2.1 else none)
        (result.2.2.map fun isBody ↦ if isBody then some number else none)

section

variable (dispatched : Lane → Nat → Dispatched)

/-- The sample does not have the number after the last one; `bridge.rs:243–247`. -/
def Pump.sequenceGap (p : Pump) (lane : Lane) (number : Nat) : Bool :=
  (p.lastSequence lane).any (videoSequenceDiscontinuous · (dispatched lane number).sequence)

/-- The pump has received a sample, and offers it next. -/
def Pump.receive (p : Pump) (lane : Lane) (number : Nat) : Pump :=
  { p with
    snapshot := none
    lastSequence := Function.update p.lastSequence lane (some (dispatched lane number).sequence)
    lastNumber := Function.update p.lastNumber lane (some number)
    served := Function.update p.served lane [] }

def step (p : Pump) : Event → Pump
  | .subscribe client =>
    { p with subs := if client ∈ p.subs then p.subs else p.subs ++ [client] }
  | .unsubscribe client => { p with subs := p.subs.filter (· ≠ client) }
  | .unregister client =>
    { p with gone := client :: p.gone, subs := p.subs.filter (· ≠ client) }
  | .openSink client =>
    { p with sinkOf := Function.update p.sinkOf client (some p.opened), opened := p.opened + 1 }
  | .clearSink client => { p with sinkOf := Function.update p.sinkOf client none }
  | .closeSink sink => { p with closed := sink :: p.closed }
  | .look =>
    if p.exited then p
    else if p.subs = [] then { p with exited := true }
    else { p with snapshot := some p.subs }
  | .lagged => { p with snapshot := none }
  | .sample lane number meets =>
    match p.snapshot with
    | none => p
    | some subscribers =>
      let discontinuity := (dispatched lane number).discontinuity
      let observedGap := p.sequenceGap dispatched lane number || discontinuity
      subscribers.foldl (Pump.offer lane number observedGap discontinuity meets)
        (p.receive dispatched lane number)

/-- Numbers that follow each other are those of samples that were dispatched one after the other. -/
def Aligned (p : Pump) : Event → Prop
  | .sample lane number _ => p.sequenceGap dispatched lane number = false →
      ∀ m ∈ p.lastNumber lane, number = m + 1
  | _ => True

/-- A client whose sink has a body of the lane was offered the last sample of the lane, unless it is
told of a gap anyway. -/
def Present (p : Pump) : Event → Prop
  | .sample lane number _ => p.sequenceGap dispatched lane number = false →
      (dispatched lane number).discontinuity = false →
      ∀ subscribers ∈ p.snapshot, ∀ client ∈ subscribers, client ∉ p.gone →
        ∀ sink ∈ p.sinkOf client, p.recovery client lane = none →
          laneLog lane (p.log sink) ≠ [] → sink ∈ p.served lane
  | _ => True

instance (p : Pump) : DecidablePred (Aligned dispatched p)
  | .sample lane number _ => inferInstanceAs (Decidable
      (p.sequenceGap dispatched lane number = false → ∀ m ∈ p.lastNumber lane, number = m + 1))
  | .subscribe _ | .unsubscribe _ | .unregister _ | .openSink _ | .clearSink _ | .closeSink _ |
    .look | .lagged => .isTrue trivial

instance (p : Pump) : DecidablePred (Present dispatched p)
  | .sample lane number _ => inferInstanceAs (Decidable
      (p.sequenceGap dispatched lane number = false →
        (dispatched lane number).discontinuity = false →
        ∀ subscribers ∈ p.snapshot, ∀ client ∈ subscribers, client ∉ p.gone →
          ∀ sink ∈ p.sinkOf client, p.recovery client lane = none →
            laneLog lane (p.log sink) ≠ [] → sink ∈ p.served lane))
  | .subscribe _ | .unsubscribe _ | .unregister _ | .openSink _ | .clearSink _ | .closeSink _ |
    .look | .lagged => .isTrue trivial

end

/-! ### The handoff -/

/-- What the handoff does to a sink: which bodies are enqueued, from which state and to which. -/
private theorem forward_cases (recovery : Option Recovery) {observedGap discontinuity : Bool}
    (hgap : discontinuity = true → observedGap = true) (gapSent bodySent : Sent) :
    let x := forwardVideoToMediaSink recovery observedGap discontinuity gapSent bodySent
    let next := if x.1 then x.2.1 else none
    (x.2.2 = [] ∧ next = some .needGap ∧ recovery ≠ some .gapSent) ∨
    (x.2.2 = [] ∧ next = some .gapSent ∧ recovery = some .gapSent) ∨
    (x.2.2 = [] ∧ (gapSent = .closed ∨ bodySent = .closed)) ∨
    (x.2.2 = [false] ∧ recovery ≠ some .gapSent ∧ (next = some .gapSent ∨ bodySent = .closed)) ∨
    (x.2.2 = [false, true] ∧ recovery ≠ some .gapSent ∧ next = none) ∨
    (x.2.2 = [true] ∧ next = none ∧
      (recovery = some .gapSent ∨ recovery = none ∧ observedGap = false)) := by
  rcases recovery with - | - | - <;> cases observedGap <;> cases discontinuity <;>
    cases gapSent <;> cases bodySent <;> simp_all [forwardVideoToMediaSink, forwardBody]

private theorem forward_closed (recovery : Option Recovery) (observedGap discontinuity : Bool) :
    (forwardVideoToMediaSink recovery observedGap discontinuity .closed .closed).2.2 = [] := by
  rcases recovery with - | - | - <;> cases observedGap <;> cases discontinuity <;> rfl

/-! ### The fence -/

/-- Two bodies of a lane that may follow each other on a sink. -/
def Follows : Option Nat → Option Nat → Prop
  | none, none => False
  | some m, some n => n = m + 1
  | _, _ => True

@[simp] theorem laneLog_append (lane : Lane) (a b : List Entry) :
    laneLog lane (a ++ b) = laneLog lane a ++ laneLog lane b := by
  simp [laneLog]

@[simp] theorem laneLog_map_self (lane : Lane) (bodies : List (Option Nat)) :
    laneLog lane (bodies.map fun number ↦ ⟨lane, number⟩) = bodies := by
  simp [laneLog, List.filter_map, Function.comp_def]

theorem laneLog_map_of_ne {lane lane' : Lane} (h : lane ≠ lane') (bodies : List (Option Nat)) :
    laneLog lane' (bodies.map fun number ↦ ⟨lane, number⟩) = [] := by
  simp [laneLog, List.filter_map, Function.comp_def, h]

/-- What a client is still to be told fits what its sink ends with: it was told of a gap if the last
body is a discontinuity, and where nothing is left to tell and the last sample was offered, it is
the last body. -/
structure Tidy (recovery : Option Recovery) (log : List (Option Nat)) (lastNumber : Option Nat)
    (served : Prop) : Prop where
  told : recovery = some .gapSent → ∀ m, log.getLast? ≠ some (some m)
  untold : recovery ≠ some .gapSent → log.getLast? ≠ some none
  caught : recovery = none → served → ∀ m, log.getLast? = some (some m) → lastNumber = some m

/-- The invariant of the pump. -/
structure Fence (p : Pump) : Prop where
  subs : p.subs.Nodup
  snapshot : ∀ subscribers ∈ p.snapshot, subscribers.Nodup
  below : ∀ client sink, p.sinkOf client = some sink → sink < p.opened
  own : ∀ client client' sink, p.sinkOf client = some sink → p.sinkOf client' = some sink →
    client = client'
  fresh : ∀ sink, p.opened ≤ sink → p.log sink = []
  chain : ∀ sink lane, (laneLog lane (p.log sink)).IsChain Follows
  tidy : ∀ client sink, p.sinkOf client = some sink → sink ∉ p.closed → ∀ lane,
    Tidy (p.recovery client lane) (laneLog lane (p.log sink)) (p.lastNumber lane)
      (sink ∈ p.served lane)

/-- Bodies of a lane go to the sink of a client: they may follow what is there, and what the client
is still to be told fits. -/
private theorem Fence.enqueue {p : Pump} (h : Fence p) {client sink : Nat} {lane : Lane}
    (hsink : p.sinkOf client = some sink) {closed : List Nat} (hclosed : p.closed ⊆ closed)
    {next : Option Recovery} {bodies : List (Option Nat)}
    (hchain : (laneLog lane (p.log sink) ++ bodies).IsChain Follows)
    (htidy : sink ∉ closed → Tidy next (laneLog lane (p.log sink) ++ bodies) (p.lastNumber lane)
      True) :
    Fence (p.enqueue client sink lane closed next bodies) := by
  have hlog : ∀ sink' lane', (sink' = sink ∧ lane' = lane ∧
      laneLog lane' ((p.enqueue client sink lane closed next bodies).log sink') =
        laneLog lane (p.log sink) ++ bodies) ∨
      ((sink' = sink → lane' ≠ lane) ∧
        laneLog lane' ((p.enqueue client sink lane closed next bodies).log sink') =
          laneLog lane' (p.log sink')) := by
    intro sink' lane'
    by_cases hs : sink' = sink
    · subst hs
      by_cases hl : lane' = lane
      · subst hl
        exact .inl ⟨rfl, rfl, by simp [Pump.enqueue]⟩
      · refine .inr ⟨fun _ ↦ hl, ?_⟩
        simp [Pump.enqueue, laneLog_map_of_ne (Ne.symm hl)]
    · exact .inr ⟨fun heq ↦ absurd heq hs, by simp [Pump.enqueue, hs]⟩
  refine ⟨h.subs, h.snapshot, h.below, h.own, ?_, ?_, ?_⟩
  · intro sink' hsink'
    have hne : sink' ≠ sink := by
      rintro rfl
      exact absurd (h.below client _ hsink) (Nat.not_lt.mpr hsink')
    simpa [Pump.enqueue, hne] using h.fresh sink' hsink'
  · intro sink' lane'
    rcases hlog sink' lane' with ⟨-, -, heq⟩ | ⟨-, heq⟩
    · rw [heq]
      exact hchain
    · rw [heq]
      exact h.chain sink' lane'
  · intro client' sink' hsink' hopen lane'
    change p.sinkOf client' = some sink' at hsink'
    rcases hlog sink' lane' with ⟨rfl, rfl, heq⟩ | ⟨hne, heq⟩
    · obtain rfl := h.own _ _ _ hsink hsink'
      have hthis := htidy hopen
      rw [heq]
      simp only [Pump.enqueue, Function.update_self, List.mem_cons, true_or]
      exact hthis
    · have hopen' : sink' ∉ p.closed := fun hmem ↦ hopen (hclosed hmem)
      have hbefore := h.tidy client' sink' hsink' hopen' lane'
      have hrecovery : (p.enqueue client sink lane closed next bodies).recovery client' lane' =
          p.recovery client' lane' := by
        by_cases hc : client' = client
        · subst hc
          rw [hsink] at hsink'
          cases hsink'
          simp [Pump.enqueue, hne rfl]
        · simp [Pump.enqueue, hc]
      have hserved : sink' ∈ (p.enqueue client sink lane closed next bodies).served lane' ↔
          sink' ∈ p.served lane' := by
        by_cases hl : lane' = lane
        · subst hl
          have hother : sink' ≠ sink := fun hs ↦ hne hs rfl
          simp [Pump.enqueue, hother]
        · simp [Pump.enqueue, hl]
      rw [heq, hrecovery]
      exact ⟨hbefore.told, hbefore.untold, fun hnone hs ↦ hbefore.caught hnone (hserved.mp hs)⟩

/-- Where a client has nothing to be told and no gap is seen, the sample follows the last body of
its sink. -/
def Ready (lane : Lane) (number : Nat) (observedGap : Bool) (p : Pump) (client : Nat) : Prop :=
  client ∉ p.gone → ∀ sink, p.sinkOf client = some sink → sink ∉ p.closed →
    p.recovery client lane = none → observedGap = false →
    ∀ m, (laneLog lane (p.log sink)).getLast? = some (some m) → number = m + 1

private theorem send_eq_closed {closed : List Nat} {sink : Nat} {full : Bool} :
    send closed sink full = .closed ↔ sink ∈ closed := by
  unfold send
  split
  · simp [*]
  · cases full <;> simp [*]

/-- A list with something behind its last element. -/
private theorem isChain_concat {log : List (Option Nat)} (h : log.IsChain Follows)
    {body : Option Nat} (hlast : ∀ x, log.getLast? = some x → Follows x body) :
    (log ++ [body]).IsChain Follows := by
  rw [List.isChain_append]
  refine ⟨h, List.isChain_singleton _, fun x hx y hy ↦ ?_⟩
  cases hy
  exact hlast x hx

/-- A discontinuity may follow anything but another one. -/
private theorem follows_gap {log : List (Option Nat)} (h : log.getLast? ≠ some none) :
    ∀ x, log.getLast? = some x → Follows x none := by
  intro x hx
  cases x with
  | none => exact absurd hx h
  | some m => trivial

/-- The bodies that a handoff enqueues may follow what is on the sink, and what the client is still
to be told then fits. -/
private theorem Tidy.forward {recovery : Option Recovery} {log : List (Option Nat)}
    {lastNumber : Option Nat} {served : Prop} (h : Tidy recovery log lastNumber served)
    (hchain : log.IsChain Follows) {number : Nat} (hnum : lastNumber = some number)
    {observedGap discontinuity : Bool} (hgap : discontinuity = true → observedGap = true)
    (hready : recovery = none → observedGap = false →
      ∀ m, log.getLast? = some (some m) → number = m + 1)
    (gapSent bodySent : Sent) :
    let x := forwardVideoToMediaSink recovery observedGap discontinuity gapSent bodySent
    (log ++ x.2.2.map fun isBody ↦ if isBody then some number else none).IsChain Follows ∧
      (gapSent ≠ .closed → bodySent ≠ .closed →
        Tidy (if x.1 then x.2.1 else none)
          (log ++ x.2.2.map fun isBody ↦ if isBody then some number else none) lastNumber
          True) := by
  intro x
  have hcases := forward_cases recovery hgap gapSent bodySent
  change (x.2.2 = [] ∧ _) ∨ (x.2.2 = [] ∧ _) ∨ (x.2.2 = [] ∧ _) ∨ (x.2.2 = [false] ∧ _) ∨
    (x.2.2 = [false, true] ∧ _) ∨ (x.2.2 = [true] ∧ _) at hcases
  rcases hcases with ⟨hx, hnext, hrec⟩ | ⟨hx, hnext, hrec⟩ | ⟨hx, hclosed⟩ | ⟨hx, hrec, hnext⟩ |
    ⟨hx, hrec, hnext⟩ | ⟨hx, hnext, hrec⟩
  · simp only [hx, List.map_nil, List.append_nil]
    refine ⟨hchain, fun _ _ ↦ ?_⟩
    rw [hnext]
    exact ⟨nofun, fun _ ↦ h.untold hrec, nofun⟩
  · simp only [hx, List.map_nil, List.append_nil]
    refine ⟨hchain, fun _ _ ↦ ?_⟩
    rw [hnext]
    exact ⟨fun _ ↦ h.told hrec, fun hne ↦ absurd rfl hne, nofun⟩
  · simp only [hx, List.map_nil, List.append_nil]
    refine ⟨hchain, fun hg hb ↦ ?_⟩
    rcases hclosed with hclosed | hclosed
    · exact absurd hclosed hg
    · exact absurd hclosed hb
  · -- a discontinuity, and no body after it
    simp only [hx, List.map_cons, List.map_nil, Bool.false_eq_true, ↓reduceIte]
    refine ⟨isChain_concat hchain (follows_gap (h.untold hrec)), fun _ hb ↦ ?_⟩
    rcases hnext with hnext | hclosed
    · rw [hnext]
      exact ⟨fun _ m ↦ by simp, fun hne ↦ absurd rfl hne, nofun⟩
    · exact absurd hclosed hb
  · -- a discontinuity, and the body
    simp only [hx, List.map_cons, List.map_nil, Bool.false_eq_true, ↓reduceIte]
    have hpair : log ++ [none, some number] = (log ++ [none]) ++ [some number] := by simp
    rw [hpair]
    have hfirst := isChain_concat hchain (follows_gap (h.untold hrec))
    refine ⟨isChain_concat hfirst fun y hy ↦ ?_, fun _ _ ↦ ?_⟩
    · rw [List.getLast?_concat] at hy
      cases hy
      trivial
    · rw [hnext]
      refine ⟨nofun, fun _ ↦ by simp, fun _ _ m hm ↦ ?_⟩
      rw [List.getLast?_concat] at hm
      cases hm
      exact hnum
  · -- the body alone, after a discontinuity or after the body before it
    simp only [hx, List.map_cons, List.map_nil, ↓reduceIte]
    refine ⟨isChain_concat hchain fun y hy ↦ ?_, fun _ _ ↦ ?_⟩
    · rcases hrec with hrec | ⟨hrec, hseen⟩
      · cases y with
        | none => trivial
        | some m => exact absurd hy (h.told hrec m)
      · cases y with
        | none => trivial
        | some m => exact hready hrec hseen m hy
    · rw [hnext]
      refine ⟨nofun, fun _ ↦ by simp, fun _ _ m hm ↦ ?_⟩
      rw [List.getLast?_concat] at hm
      cases hm
      exact hnum

/-- A sample is offered to a client. -/
private theorem Fence.offer {p : Pump} (h : Fence p) {lane : Lane} {number client : Nat}
    {observedGap discontinuity : Bool} (hgap : discontinuity = true → observedGap = true)
    (hnum : p.lastNumber lane = some number) (hready : Ready lane number observedGap p client)
    (meets : Nat → Meets) :
    Fence (p.offer lane number observedGap discontinuity meets client) := by
  unfold Pump.offer
  split
  · exact h
  · next hclient =>
    split
    · exact h
    · next sink hsink =>
      have hmore : p.closed ⊆ if (meets client).leaves then sink :: p.closed else p.closed := by
        split
        · exact List.subset_cons_self _ _
        · exact List.Subset.refl _
      by_cases hopen : sink ∈ p.closed
      · -- nothing is enqueued on a closed sink
        have hsent : ∀ closed full, p.closed ⊆ closed → send closed sink full = .closed :=
          fun closed full hsub ↦ send_eq_closed.mpr (hsub hopen)
        dsimp only
        rw [hsent _ _ (List.Subset.refl _), hsent _ _ hmore]
        refine h.enqueue hsink hmore ?_ fun hnot ↦ absurd (hmore hopen) hnot
        rw [forward_closed, List.map_nil, List.append_nil]
        exact h.chain sink lane
      · have hforward := (h.tidy client sink hsink hopen lane).forward (h.chain sink lane) hnum hgap
          (hready hclient sink hsink hopen)
          (send p.closed sink (meets client).gapFull)
          (send (if (meets client).leaves then sink :: p.closed else p.closed) sink
            (meets client).bodyFull)
        refine h.enqueue hsink hmore hforward.1 fun hnot ↦ hforward.2 ?_ ?_
        · rw [ne_eq, send_eq_closed]
          exact hopen
        · rw [ne_eq, send_eq_closed]
          exact hnot

/-- An offer to one client leaves the others alone. -/
private theorem offer_frame (p : Pump) (lane : Lane) (number : Nat)
    (observedGap discontinuity : Bool) (meets : Nat → Meets) {client other : Nat}
    (hother : other ≠ client) :
    let q := p.offer lane number observedGap discontinuity meets client
    q.gone = p.gone ∧ q.sinkOf = p.sinkOf ∧ q.lastNumber = p.lastNumber ∧
      p.closed ⊆ q.closed ∧ q.recovery other = p.recovery other ∧
      ∀ sink, p.sinkOf client ≠ some sink → q.log sink = p.log sink := by
  intro q
  have hself : q = p → q.gone = p.gone ∧ q.sinkOf = p.sinkOf ∧ q.lastNumber = p.lastNumber ∧
      p.closed ⊆ q.closed ∧ q.recovery other = p.recovery other ∧
      ∀ sink, p.sinkOf client ≠ some sink → q.log sink = p.log sink := by
    intro heq
    rw [heq]
    exact ⟨rfl, rfl, rfl, List.Subset.refl _, rfl, fun _ _ ↦ rfl⟩
  by_cases hgone : client ∈ p.gone
  · exact hself (if_pos hgone)
  · cases hsink : p.sinkOf client with
    | none =>
      rw [hsink] at hself
      refine hself ?_
      simp only [q, Pump.offer, if_neg hgone, hsink]
    | some sink =>
      simp only [q, Pump.offer, if_neg hgone, hsink, Pump.enqueue]
      refine ⟨trivial, trivial, trivial, ?_, Function.update_of_ne hother _ _, fun sink' hne ↦ ?_⟩
      · split
        · exact List.subset_cons_self _ _
        · exact List.Subset.refl _
      · refine Function.update_of_ne ?_ _ _
        rintro rfl
        exact hne rfl

private theorem Fence.offers {lane : Lane} {number : Nat} {observedGap discontinuity : Bool}
    (hgap : discontinuity = true → observedGap = true) (meets : Nat → Meets)
    {clients : List Nat} (hnodup : clients.Nodup) {p : Pump} (h : Fence p)
    (hnum : p.lastNumber lane = some number)
    (hready : ∀ client ∈ clients, Ready lane number observedGap p client) :
    Fence (clients.foldl (Pump.offer lane number observedGap discontinuity meets) p) := by
  induction clients generalizing p with
  | nil => exact h
  | cons client rest ih =>
    obtain ⟨hnotin, hrest⟩ := List.nodup_cons.mp hnodup
    rw [List.foldl_cons]
    refine ih hrest (h.offer hgap hnum (hready client List.mem_cons_self) meets) ?_ ?_
    · have hne : client + 1 ≠ client := Nat.succ_ne_self client
      rw [(offer_frame p lane number observedGap discontinuity meets hne).2.2.1]
      exact hnum
    · intro other hother
      have hne : other ≠ client := by
        rintro rfl
        exact hnotin hother
      obtain ⟨hgone, hsinks, -, hclosed, hrecovery, hlog⟩ :=
        offer_frame p lane number observedGap discontinuity meets hne
      intro hnot sink hsink hopen hnone hseen m hm
      rw [hgone] at hnot
      rw [hsinks] at hsink
      rw [hrecovery] at hnone
      rw [hlog sink fun hsame ↦ hne (h.own _ _ _ hsink hsame)] at hm
      exact hready other (List.mem_cons_of_mem _ hother) hnot sink hsink
        (fun hmem ↦ hopen (hclosed hmem)) hnone hseen m hm

variable {dispatched : Lane → Nat → Dispatched}

/-- A sample is received, and was offered to no one yet. -/
private theorem Fence.receive {p : Pump} (h : Fence p) (lane : Lane) (number : Nat) :
    Fence (p.receive dispatched lane number) := by
  refine ⟨h.subs, nofun, h.below, h.own, h.fresh, h.chain, ?_⟩
  intro client sink hsink hopen lane'
  have hbefore := h.tidy client sink hsink hopen lane'
  refine ⟨hbefore.told, hbefore.untold, fun hnone hserved m hm ↦ ?_⟩
  by_cases hl : lane' = lane
  · subst hl
    simp [Pump.receive] at hserved
  · simp only [Pump.receive, Function.update_of_ne hl] at hserved ⊢
    exact hbefore.caught hnone hserved m hm

private theorem Fence.step {p : Pump} (h : Fence p) {e : Event} (haligned : Aligned dispatched p e)
    (hpresent : Present dispatched p e) : Fence (step dispatched p e) := by
  cases e with
  | subscribe client =>
    refine ⟨?_, h.snapshot, h.below, h.own, h.fresh, h.chain, h.tidy⟩
    simp only [VideoPump.step]
    split
    · exact h.subs
    · next hnew =>
      exact List.nodup_append.mpr ⟨h.subs, List.nodup_singleton _, by
        intro a ha b hb heq
        cases List.mem_singleton.mp hb
        exact hnew (heq ▸ ha)⟩
  | unsubscribe client =>
    exact ⟨h.subs.filter _, h.snapshot, h.below, h.own, h.fresh, h.chain, h.tidy⟩
  | unregister client =>
    exact ⟨h.subs.filter _, h.snapshot, h.below, h.own, h.fresh, h.chain, h.tidy⟩
  | openSink client =>
    -- the new sink is empty, and nobody else's
    have hsinkOf : ∀ client' sink, (VideoPump.step dispatched p (.openSink client)).sinkOf client' =
        some sink → client' = client ∧ sink = p.opened ∨
          client' ≠ client ∧ p.sinkOf client' = some sink := by
      intro client' sink hsink
      by_cases hc : client' = client
      · subst hc
        simp only [VideoPump.step, Function.update_self, Option.some.injEq] at hsink
        exact .inl ⟨rfl, hsink.symm⟩
      · simp only [VideoPump.step, Function.update_of_ne hc] at hsink
        exact .inr ⟨hc, hsink⟩
    refine ⟨h.subs, h.snapshot, ?_, ?_, ?_, h.chain, ?_⟩
    · intro client' sink hsink
      rcases hsinkOf client' sink hsink with ⟨-, rfl⟩ | ⟨-, hold⟩
      · exact Nat.lt_succ_self _
      · exact Nat.lt_succ_of_lt (h.below _ _ hold)
    · intro c c' sink hc hc'
      rcases hsinkOf c sink hc with ⟨rfl, rfl⟩ | ⟨-, hold⟩ <;>
        rcases hsinkOf c' _ hc' with ⟨rfl, hs⟩ | ⟨-, hold'⟩
      · rfl
      · exact absurd (h.below _ _ hold') (lt_irrefl _)
      · exact absurd (h.below _ _ hold) (hs ▸ lt_irrefl _)
      · exact h.own _ _ _ hold hold'
    · intro sink hsink
      exact h.fresh sink (Nat.le_of_succ_le hsink)
    · intro client' sink hsink hopen lane
      rcases hsinkOf client' sink hsink with ⟨rfl, rfl⟩ | ⟨-, hold⟩
      · have hempty : laneLog lane (p.log p.opened) = [] := by rw [h.fresh _ le_rfl]; rfl
        change Tidy _ (laneLog lane (p.log p.opened)) _ _
        rw [hempty]
        exact ⟨fun _ _ ↦ nofun, fun _ ↦ nofun, fun _ _ _ ↦ nofun⟩
      · exact h.tidy client' sink hold hopen lane
  | clearSink client =>
    have hsinkOf : ∀ client' sink,
        (VideoPump.step dispatched p (.clearSink client)).sinkOf client' = some sink →
          p.sinkOf client' = some sink := by
      intro client' sink hsink
      by_cases hc : client' = client
      · subst hc
        simp only [VideoPump.step, Function.update_self, reduceCtorEq] at hsink
      · simpa only [VideoPump.step, Function.update_of_ne hc] using hsink
    refine ⟨h.subs, h.snapshot, fun c sink hc ↦ h.below c sink (hsinkOf c sink hc), ?_, h.fresh,
      h.chain, fun c sink hc ↦ h.tidy c sink (hsinkOf c sink hc)⟩
    intro c c' sink hc hc'
    exact h.own c c' sink (hsinkOf c sink hc) (hsinkOf c' sink hc')
  | closeSink sink =>
    refine ⟨h.subs, h.snapshot, h.below, h.own, h.fresh, h.chain, ?_⟩
    intro client sink' hsink hopen
    exact h.tidy client sink' hsink fun hmem ↦ hopen (List.mem_cons_of_mem _ hmem)
  | look =>
    simp only [VideoPump.step]
    split
    · exact h
    · split
      · exact ⟨h.subs, h.snapshot, h.below, h.own, h.fresh, h.chain, h.tidy⟩
      · refine ⟨h.subs, ?_, h.below, h.own, h.fresh, h.chain, h.tidy⟩
        intro subscribers hsnapshot
        cases hsnapshot
        exact h.subs
  | lagged => exact ⟨h.subs, nofun, h.below, h.own, h.fresh, h.chain, h.tidy⟩
  | sample lane number meets =>
    simp only [VideoPump.step]
    split
    · exact h
    · next subscribers hsnapshot =>
      have hgap : (dispatched lane number).discontinuity = true →
          (p.sequenceGap dispatched lane number ||
            (dispatched lane number).discontinuity) = true := by
        intro hdisc
        rw [hdisc, Bool.or_true]
      refine Fence.offers hgap meets (h.snapshot _ hsnapshot) (h.receive lane number) ?_ ?_
      · simp [Pump.receive]
      · intro client hclient hnot sink hsink hopen hnone hseen m hm
        obtain ⟨hseq, hdisc⟩ := Bool.or_eq_false_iff.mp hseen
        have hlog : laneLog lane (p.log sink) ≠ [] := by
          intro hnil
          change (laneLog lane (p.log sink)).getLast? = some (some m) at hm
          rw [hnil] at hm
          cases hm
        have hserved : sink ∈ p.served lane :=
          hpresent hseq hdisc subscribers hsnapshot client hclient hnot sink hsink hnone hlog
        have hlast := (h.tidy client sink hsink hopen lane).caught hnone hserved m hm
        exact haligned hseq m hlast

/-! ### Runs -/

/-- No hidden gap reaches a client: in every run of the pump in which numbers that follow each other
are those of samples dispatched one after the other, and a client whose sink has a body of a lane is
offered every sample of the lane or told of a gap when it comes back, on every sink and for every
lane there is exactly one discontinuity between two bodies that were not dispatched one after the
other, and no two discontinuities are without a body between them. -/
theorem no_hidden_gap {events : List Event}
    (hevents : AllSteps (step dispatched)
      (fun p e ↦ Aligned dispatched p e ∧ Present dispatched p e) .start events) :
    ∀ pre post, events = pre ++ post → ∀ sink lane,
      (∀ before m between n after,
        laneLog lane ((run (step dispatched) .start pre).log sink) =
          before ++ some m :: (between ++ some n :: after) →
        (∀ body ∈ between, body = none) → n ≠ m + 1 → between = [none]) ∧
      ∀ before after, laneLog lane ((run (step dispatched) .start pre).log sink) ≠
        before ++ none :: none :: after := by
  intro pre post hpre sink lane
  have hstart : Fence Pump.start := by
    refine ⟨List.nodup_nil, nofun, nofun, nofun, fun _ _ ↦ rfl, fun _ _ ↦ List.isChain_nil, nofun⟩
  have hchain := (forall_run_of_allSteps (fun p e hp hc ↦ hp.step hc.1 hc.2) hstart hevents pre post
    hpre).chain sink lane
  have hpairs : ∀ before x y after, laneLog lane ((run (step dispatched) .start pre).log sink) =
      before ++ x :: y :: after → Follows x y := by
    intro before x y after heq
    rw [heq, List.isChain_append_cons_cons] at hchain
    exact hchain.2.1
  constructor
  · intro before m between n after heq hgaps hne
    match between, hgaps, heq with
    | [], _, heq => exact absurd (hpairs before _ _ after heq) hne
    | [body], hgaps, _ => rw [hgaps body List.mem_cons_self]
    | body :: body' :: rest, hgaps, heq =>
      rw [hgaps body List.mem_cons_self, hgaps body' (by simp)] at heq
      refine absurd (hpairs (before ++ [some m]) none none (rest ++ some n :: after) ?_) id
      rw [heq]
      simp
  · intro before after heq
    exact hpairs before none none after heq

/-- A sink with room. -/
def roomy : Nat → Meets := fun _ ↦ ⟨false, false, false⟩

/-- The budget of the sink is full when the second body comes. -/
def shedOne : List Event :=
  [.subscribe 0, .openSink 0, .look, .sample ("peer", 0) 0 roomy, .look,
    .sample ("peer", 0) 1 (fun _ ↦ ⟨false, false, true⟩), .look, .sample ("peer", 0) 2 roomy]

/-- Samples of one session, numbered from one. -/
def oneSession : Lane → Nat → Dispatched := fun _ n ↦ ⟨UInt64.ofNat (n + 1), false⟩

/-- The client is told of the gap, once. -/
theorem shed_body_fenced :
    laneLog ("peer", 0) ((run (step oneSession) .start shedOne).log 0) = [some 0, none, some 2] ∧
      ∀ before after, laneLog ("peer", 0) ((run (step oneSession) .start shedOne).log 0) ≠
        before ++ none :: none :: after := by
  have hevents : AllSteps (step oneSession)
      (fun p e ↦ Aligned oneSession p e ∧ Present oneSession p e) .start shedOne := by
    decide +kernel
  exact ⟨by decide +kernel, (no_hidden_gap hevents shedOne [] rfl 0 ("peer", 0)).2⟩

/-- Samples of two sessions, the first with three of them. -/
def twoSessions : Lane → Nat → Dispatched := fun _ n ↦ ⟨UInt64.ofNat (n % 3 + 1), false⟩

/-- Two hidden gaps. A client leaves for one sample while another keeps the pump running; and the
fan-out sheds the end of one session with the start of the next, so that the numbers still follow
each other. -/
theorem gap_hidden :
    laneLog ("peer", 0) ((run (step oneSession) .start
      [.subscribe 0, .subscribe 1, .openSink 0, .openSink 1, .look, .sample ("peer", 0) 0 roomy,
        .unsubscribe 0, .look, .sample ("peer", 0) 1 roomy, .subscribe 0, .look,
        .sample ("peer", 0) 2 roomy]).log 0) = [some 0, some 2] ∧
    laneLog ("peer", 0) ((run (step twoSessions) .start
      [.subscribe 0, .openSink 0, .look, .sample ("peer", 0) 0 roomy, .look,
        .sample ("peer", 0) 1 roomy, .look, .lagged, .look, .sample ("peer", 0) 5 roomy]).log 0) =
      [some 0, some 1, some 5] := by
  decide +kernel

end MyOwnMesh.VideoPump
