import Mathlib.Logic.Function.Basic
import MyOwnMesh.Engine.Routing
import MyOwnMesh.Lib.Replay

/-!
# Calls of peers that a client answers

The calls in flight of `ipc/clients.rs:441–498`, the handlers of `ipc/bridge.rs:40–138` that hand a
call to a client, and the requests `RpcRespond`, `RpcStreamChunk` and `RpcStreamEnd` of
`control.rs:1410–1457`. The table is keyed by the request id alone, which the caller chooses, and
any client may answer. A step is one access to the table or to the channel of a call. A chunk finds
its channel and waits for a free slot; the slots are given in the order in which the chunks came.
-/

namespace MyOwnMesh.InboundCalls

open Lib Lib.Replay

/-- `clients.rs:177–180`. -/
inductive HandlerMode where
  | single
  | stream
  deriving DecidableEq, Repr

/-- A call that was handed to a client: what its handler heard, the chunks that wait for a slot,
those in the channel and those that the engine took and gave to `send_to_peer`, whose answer it
ignores, and whether it saw the end. -/
structure Call where
  requestId : String
  mode : HandlerMode
  heard : Option (Except String Value) := none
  waiting : List Value := []
  queue : List Value := []
  taken : List Value := []
  ended : Bool := false

/-- The calls in the order in which they came, and under each request id the number of the call
whose sender is kept. -/
structure Table where
  calls : List Call
  pendingInbound : String → Option Nat

inductive Op where
  /-- A handler enters its call into the table. -/
  | put (requestId : String) (mode : HandlerMode)
  | respond (requestId : String) (ok : Option Value) (error : Option String)
  | chunk (requestId : String) (payload : Value)
  | streamEnd (requestId : String)
  /-- The chunk that waits longest gets a slot. -/
  | send (number : Nat)
  /-- The engine takes what is next in the channel. -/
  | recv (number : Nat)

/-- `bridge.rs:84`. -/
def droppedText : String := "IPC handler dropped without responding"

/-- `bridge.rs:127`. -/
def streamSlots : Nat := 32

/-- The result of a response; `control.rs:1415–1421`. -/
def resultOf (ok : Option Value) (error : Option String) : Except String Value :=
  match error with
  | some text => .error text
  | none => .ok (ok.getD .null)

/-- What happens to the sender of a call: one that answers once tells the result. -/
def Call.tell (c : Call) (result : Except String Value) : Call :=
  match c.mode with
  | .single => { c with heard := some result }
  | .stream => c

namespace Table

def new : Table := ⟨[], fun _ ↦ none⟩

variable (t : Table)

def modify (number : Nat) (f : Call → Call) : Table := { t with calls := t.calls.modify number f }

def modeOf (number : Nat) : Option HandlerMode := t.calls[number]?.map (·.mode)

/-- The table lets go of a sender. -/
def drop : Option Nat → Table
  | some number => t.modify number (·.tell (.error droppedText))
  | none => t

/-- `clients.rs:441–443`, with the new channel of the call. -/
def putPendingInbound (requestId : String) (mode : HandlerMode) : Table :=
  let t := t.drop (t.pendingInbound requestId)
  { calls := t.calls ++ [{ requestId := requestId, mode := mode }]
    pendingInbound := Function.update t.pendingInbound requestId (some t.calls.length) }

/-- `clients.rs:445–450`. -/
def takePendingInbound (requestId : String) : Table × Option Nat :=
  ({ t with pendingInbound := Function.update t.pendingInbound requestId none },
    t.pendingInbound requestId)

/-- `resolve_inbound_single` and `reject_inbound_single`; `clients.rs:454–469`. The sender of a
stream is dropped. -/
def resolveInboundSingle (requestId : String) (result : Except String Value) : Table × Bool :=
  match t.takePendingInbound requestId with
  | (t, some number) => (t.modify number (·.tell result), t.modeOf number = some .single)
  | (t, none) => (t, false)

/-- `clients.rs:475–488`, up to the wait. -/
def pushInboundStreamChunk (requestId : String) (payload : Value) : Table × Bool :=
  match t.pendingInbound requestId with
  | some number =>
    if t.modeOf number = some .stream then
      (t.modify number fun c ↦ { c with waiting := c.waiting ++ [payload] }, true)
    else (t, false)
  | none => (t, false)

/-- `clients.rs:493–498`. -/
def closeInboundStream (requestId : String) : Table × Bool :=
  match t.takePendingInbound requestId with
  | (t, some number) => (t.drop (some number), t.modeOf number = some .stream)
  | (t, none) => (t, false)

end Table

def Call.send (c : Call) : Call :=
  match c.waiting with
  | payload :: waiting =>
    if c.queue.length < streamSlots then
      { c with waiting := waiting, queue := c.queue ++ [payload] }
    else c
  | [] => c

/-- The end is seen when nobody can send any more; `engine/mod.rs:2946–2968`. -/
def Call.recv (held : Bool) (c : Call) : Call :=
  match c.queue with
  | payload :: queue => { c with queue := queue, taken := c.taken ++ [payload] }
  | [] => if held || !c.waiting.isEmpty then c else { c with ended := true }

/-- The table still keeps the sender of the call. -/
def Table.holds (t : Table) (number : Nat) : Bool :=
  t.calls[number]?.any fun c ↦ t.pendingInbound c.requestId = some number

def step (t : Table) : Op → Table
  | .put requestId mode => t.putPendingInbound requestId mode
  | .respond requestId ok error => (t.resolveInboundSingle requestId (resultOf ok error)).1
  | .chunk requestId payload => (t.pushInboundStreamChunk requestId payload).1
  | .streamEnd requestId => (t.closeInboundStream requestId).1
  | .send number => t.modify number Call.send
  | .recv number => t.modify number (Call.recv (t.holds number))

/-! ### A call by itself -/

/-- What a call is to hear: the first answer under its request id, and the chunks before the end. -/
structure Life where
  opened : Bool := true
  answer : Option (Except String Value) := none
  chunks : List Value := []

namespace Life

variable (l : Life)

def close (result : Except String Value) : Life :=
  if l.opened then { l with opened := false, answer := some result } else l

/-- A call under the same request id takes its place. -/
def step (requestId : String) : Op → Life
  | .put requestId' _ => if requestId' = requestId then l.close (.error droppedText) else l
  | .respond requestId' ok error =>
    if requestId' = requestId then l.close (resultOf ok error) else l
  | .streamEnd requestId' => if requestId' = requestId then l.close (.error droppedText) else l
  | .chunk requestId' payload =>
    if requestId' = requestId ∧ l.opened = true then { l with chunks := l.chunks ++ [payload] }
    else l
  | .send _ | .recv _ => l

end Life

/-- The call hears what it is to hear. -/
def Call.Follows (c : Call) (l : Life) : Prop :=
  match c.mode with
  | .single => c.heard = l.answer
  | .stream => c.taken ++ c.queue ++ c.waiting = l.chunks ∧ c.queue.length ≤ streamSlots ∧
      (c.ended = true → l.opened = false ∧ c.taken = l.chunks)

theorem Call.tell_requestId (c : Call) (result : Except String Value) :
    (c.tell result).requestId = c.requestId := by
  unfold Call.tell
  split <;> rfl

theorem Call.tell_mode (c : Call) (result : Except String Value) :
    (c.tell result).mode = c.mode := by
  unfold Call.tell
  split <;> simp [*]

theorem Call.send_requestId (c : Call) : c.send.requestId = c.requestId := by
  unfold Call.send
  split
  · split <;> rfl
  · rfl

theorem Call.send_mode (c : Call) : c.send.mode = c.mode := by
  unfold Call.send
  split
  · split <;> rfl
  · rfl

theorem Call.recv_requestId (held : Bool) (c : Call) : (c.recv held).requestId = c.requestId := by
  unfold Call.recv
  split
  · rfl
  · split <;> rfl

theorem Call.recv_mode (held : Bool) (c : Call) : (c.recv held).mode = c.mode := by
  unfold Call.recv
  split
  · rfl
  · split <;> rfl

theorem Call.Follows.send {c : Call} {l : Life} (h : c.Follows l) : c.send.Follows l := by
  unfold Call.Follows at h ⊢
  rw [Call.send_mode]
  unfold Call.send
  cases hmode : c.mode with
  | single =>
    rw [hmode] at h
    dsimp only
    split
    · split <;> exact h
    · exact h
  | stream =>
    rw [hmode] at h
    obtain ⟨hchunks, hslots, hended⟩ := h
    dsimp only
    cases hwaiting : c.waiting with
    | nil => exact ⟨by rw [← hchunks], hslots, hended⟩
    | cons payload waiting =>
      rw [hwaiting] at hchunks
      dsimp only
      split
      case isTrue hroom =>
        refine ⟨by simpa using hchunks, ?_, hended⟩
        rw [List.length_append, List.length_singleton]
        omega
      case isFalse => exact ⟨by rw [hwaiting]; exact hchunks, hslots, hended⟩

theorem Call.Follows.recv {c : Call} {l : Life} {held : Bool} (h : c.Follows l)
    (hheld : l.opened = true → held = true) : (c.recv held).Follows l := by
  unfold Call.Follows at h ⊢
  rw [Call.recv_mode]
  unfold Call.recv
  cases hmode : c.mode with
  | single =>
    rw [hmode] at h
    dsimp only
    split
    · exact h
    · split <;> exact h
  | stream =>
    rw [hmode] at h
    obtain ⟨hchunks, hslots, hended⟩ := h
    dsimp only
    cases hqueue : c.queue with
    | cons payload queue =>
      rw [hqueue] at hchunks hslots
      refine ⟨by simpa using hchunks, Nat.le_of_succ_le hslots, fun hend ↦ ?_⟩
      -- nothing is left in the channel of a call that has ended
      obtain ⟨-, htaken⟩ := hended hend
      rw [← hchunks] at htaken
      simp at htaken
    | nil =>
      rw [hqueue] at hchunks hslots
      dsimp only
      split
      case isTrue => exact ⟨by rw [hqueue]; exact hchunks, by rw [hqueue]; exact hslots, hended⟩
      case isFalse hlast =>
        simp only [Bool.or_eq_true, Bool.not_eq_true', not_or, Bool.not_eq_true,
          Bool.not_eq_false, List.isEmpty_iff] at hlast
        refine ⟨hchunks, hslots, fun _ ↦ ⟨?_, ?_⟩⟩
        · cases hopened : l.opened with
          | false => rfl
          | true => exact absurd (hlast.1.symm.trans (hheld hopened)) Bool.false_ne_true
        · rw [← hchunks, hlast.2]
          simp

/-! ### The table -/

/-- The numbers in the table are those of calls under their own request ids. -/
def Table.Keyed (t : Table) : Prop :=
  ∀ requestId number, t.pendingInbound requestId = some number →
    ∃ c, t.calls[number]? = some c ∧ c.requestId = requestId

/-- A call is kept as long as it is open, and hears what it is to hear. -/
structure Table.Serves (t : Table) (number : Nat) (requestId : String) (mode : HandlerMode)
    (l : Life) : Prop where
  call : ∃ c, t.calls[number]? = some c ∧ c.requestId = requestId ∧ c.mode = mode ∧ c.Follows l
  held : t.pendingInbound requestId = some number ↔ l.opened = true

/-- The entry under a request id is removed, and its call told. -/
def Table.release (t : Table) (requestId : String) (result : Except String Value) : Table where
  calls :=
    match t.pendingInbound requestId with
    | some number => t.calls.modify number (·.tell result)
    | none => t.calls
  pendingInbound := Function.update t.pendingInbound requestId none

section Steps

variable {t : Table} {number : Nat} {requestId : String} {mode : HandlerMode} {l : Life}

theorem getElem?_modify_of_ne {number' : Nat} (h : number' ≠ number) (f : Call → Call) :
    (t.calls.modify number' f)[number]? = t.calls[number]? := by
  rw [List.getElem?_modify]
  simp [h]

theorem getElem?_modify_of_some {c : Call} (number' : Nat) (f : Call → Call)
    (h : t.calls[number]? = some c) :
    (t.calls.modify number' f)[number]? = some (if number' = number then f c else c) := by
  rw [List.getElem?_modify, h]
  rfl

theorem Table.Keyed.modify (h : t.Keyed) (number' : Nat) {f : Call → Call}
    (hid : ∀ c, (f c).requestId = c.requestId) : (t.modify number' f).Keyed := by
  intro r n hr
  obtain ⟨c, hc, hcr⟩ := h r n hr
  refine ⟨_, getElem?_modify_of_some number' f hc, ?_⟩
  split
  · exact (hid c).trans hcr
  · exact hcr

theorem Table.Keyed.release (h : t.Keyed) (requestId' : String) (result : Except String Value) :
    (t.release requestId' result).Keyed := by
  intro r n hr
  by_cases heq : r = requestId'
  · subst heq
    simp [Table.release] at hr
  · simp only [Table.release, Function.update_of_ne heq] at hr
    obtain ⟨c, hc, hcr⟩ := h r n hr
    simp only [Table.release]
    split
    · refine ⟨_, getElem?_modify_of_some _ _ hc, ?_⟩
      split
      · exact (c.tell_requestId result).trans hcr
      · exact hcr
    · exact ⟨c, hc, hcr⟩

theorem Table.Serves.modify {l' : Life} (h : t.Serves number requestId mode l) (number' : Nat)
    {f : Call → Call} (hid : ∀ c, (f c).requestId = c.requestId) (hmode : ∀ c, (f c).mode = c.mode)
    (hopened : l'.opened = l.opened)
    (hother : number' ≠ number → ∀ c : Call, c.Follows l → c.Follows l')
    (hsame : number' = number → ∀ c : Call, c.mode = mode → c.Follows l → (f c).Follows l') :
    (t.modify number' f).Serves number requestId mode l' := by
  obtain ⟨⟨c, hc, hcr, hcm, hfollows⟩, hheld⟩ := h
  refine ⟨⟨_, getElem?_modify_of_some number' f hc, ?_⟩, hopened ▸ hheld⟩
  by_cases heq : number' = number
  · rw [if_pos heq]
    exact ⟨(hid c).trans hcr, (hmode c).trans hcm, hsame heq c hcm hfollows⟩
  · rw [if_neg heq]
    exact ⟨hcr, hcm, hother heq c hfollows⟩

/-- A call is answered once. -/
theorem Call.Follows.tell {c : Call} (h : c.Follows l) (hopened : l.opened = true)
    (result : Except String Value) : (c.tell result).Follows (l.close result) := by
  unfold Call.Follows at h ⊢
  rw [Call.tell_mode]
  unfold Call.tell
  rw [Life.close, if_pos hopened]
  cases hmode : c.mode with
  | single => rfl
  | stream =>
    rw [hmode] at h
    obtain ⟨hchunks, hslots, hended⟩ := h
    exact ⟨hchunks, hslots, fun hend ↦ ⟨rfl, (hended hend).2⟩⟩

theorem Life.close_of_closed (h : ¬ l.opened = true) (result : Except String Value) :
    l.close result = l := by
  rw [Life.close, if_neg h]

theorem Life.opened_close (l : Life) (result : Except String Value) :
    (l.close result).opened = false := by
  unfold Life.close
  split
  · rfl
  next h => exact Bool.not_eq_true _ ▸ h

/-- Another entry is that of another call. -/
theorem Table.Serves.ne (hkeyed : t.Keyed) (h : t.Serves number requestId mode l)
    {requestId' : String} {number' : Nat} (hentry : t.pendingInbound requestId' = some number')
    (hother : requestId' = requestId → ¬ l.opened = true) : number' ≠ number := by
  rintro rfl
  obtain ⟨c, hc, hcr, -, -⟩ := h.call
  obtain ⟨c', hc', hcr'⟩ := hkeyed _ _ hentry
  cases hc.symm.trans hc'
  obtain rfl : requestId' = requestId := hcr'.symm.trans hcr
  exact hother rfl (h.held.mp hentry)

theorem Table.Serves.release (hkeyed : t.Keyed) (h : t.Serves number requestId mode l)
    (requestId' : String) (result : Except String Value) :
    (t.release requestId' result).Serves number requestId mode
      (if requestId' = requestId then l.close result else l) := by
  obtain ⟨c, hc, hcr, hcm, hfollows⟩ := h.call
  have hothers : (requestId' = requestId → ¬ l.opened = true) →
      (t.release requestId' result).calls[number]? = some c := by
    intro hother
    simp only [Table.release]
    split
    next number' hentry => exact (getElem?_modify_of_ne (h.ne hkeyed hentry hother) _).trans hc
    next => exact hc
  by_cases heq : requestId' = requestId
  · rw [if_pos heq]
    refine ⟨?_, by simp [Table.release, Life.opened_close, heq]⟩
    by_cases hopened : l.opened = true
    · simp only [Table.release, heq, h.held.mpr hopened]
      refine ⟨_, getElem?_modify_of_some _ _ hc, ?_⟩
      rw [if_pos rfl]
      exact ⟨(c.tell_requestId result).trans hcr, (c.tell_mode result).trans hcm,
        hfollows.tell hopened result⟩
    · rw [Life.close_of_closed hopened]
      exact ⟨c, hothers fun _ ↦ hopened, hcr, hcm, hfollows⟩
  · rw [if_neg heq]
    refine ⟨⟨c, hothers fun h ↦ absurd h heq, hcr, hcm, hfollows⟩, ?_⟩
    simp only [Table.release, Function.update_of_ne (Ne.symm heq)]
    exact h.held

theorem Table.resolveInboundSingle_eq (t : Table) (requestId : String)
    (result : Except String Value) :
    (t.resolveInboundSingle requestId result).1 = t.release requestId result := by
  unfold Table.resolveInboundSingle Table.takePendingInbound Table.release
  cases t.pendingInbound requestId with
  | some number => rfl
  | none => rfl

theorem Table.closeInboundStream_eq (t : Table) (requestId : String) :
    (t.closeInboundStream requestId).1 = t.release requestId (.error droppedText) := by
  unfold Table.closeInboundStream Table.takePendingInbound Table.release
  cases t.pendingInbound requestId with
  | some number => rfl
  | none => rfl

theorem Table.putPendingInbound_eq (t : Table) (requestId : String) (mode : HandlerMode) :
    t.putPendingInbound requestId mode =
      let t := t.release requestId (.error droppedText)
      { calls := t.calls ++ [{ requestId := requestId, mode := mode }]
        pendingInbound := Function.update t.pendingInbound requestId (some t.calls.length) } := by
  unfold Table.putPendingInbound Table.drop Table.release
  cases t.pendingInbound requestId with
  | some number => simp [Table.modify, Function.update_idem]
  | none => simp [Function.update_idem]

theorem Table.Keyed.put (h : t.Keyed) (requestId' : String) (mode' : HandlerMode) :
    (t.putPendingInbound requestId' mode').Keyed := by
  have hrelease := h.release requestId' (.error droppedText)
  rw [Table.putPendingInbound_eq]
  generalize t.release requestId' (.error droppedText) = t at hrelease
  intro r n hr
  dsimp only at hr ⊢
  by_cases heq : r = requestId'
  · subst heq
    rw [Function.update_self] at hr
    cases hr
    exact ⟨_, List.getElem?_concat_length, rfl⟩
  · rw [Function.update_of_ne heq] at hr
    obtain ⟨c, hc, hcr⟩ := hrelease r n hr
    exact ⟨c, (List.getElem?_append_left (List.getElem?_eq_some_iff.mp hc).1).trans hc, hcr⟩

theorem Table.Serves.put (hkeyed : t.Keyed) (h : t.Serves number requestId mode l)
    (requestId' : String) (mode' : HandlerMode) :
    (t.putPendingInbound requestId' mode').Serves number requestId mode
      (l.step requestId (.put requestId' mode')) := by
  have hrelease := h.release hkeyed requestId' (.error droppedText)
  rw [Table.putPendingInbound_eq, Life.step]
  generalize t.release requestId' (.error droppedText) = t at hrelease
  obtain ⟨⟨c, hc, hcr, hcm, hfollows⟩, hheld⟩ := hrelease
  have hnumber := (List.getElem?_eq_some_iff.mp hc).1
  refine ⟨⟨c, (List.getElem?_append_left hnumber).trans hc, hcr, hcm, hfollows⟩, ?_⟩
  dsimp only
  by_cases heq : requestId' = requestId
  · subst heq
    rw [Function.update_self, if_pos rfl, Life.opened_close, Option.some.injEq]
    exact iff_of_false (by omega) Bool.false_ne_true
  · rw [Function.update_of_ne (Ne.symm heq)]
    exact hheld

/-- The call that was put into the table last. -/
theorem Table.serves_put (t : Table) (requestId : String) (mode : HandlerMode) :
    (t.putPendingInbound requestId mode).Serves t.calls.length requestId mode {} := by
  have hlength : (t.release requestId (.error droppedText)).calls.length = t.calls.length := by
    simp only [Table.release]
    split
    · rw [List.length_modify]
    · rfl
  rw [Table.putPendingInbound_eq]
  generalize t.release requestId (.error droppedText) = t' at hlength
  refine ⟨⟨{ requestId := requestId, mode := mode }, ?_, rfl, rfl, ?_⟩, ?_⟩
  · dsimp only
    rw [← hlength]
    exact List.getElem?_concat_length
  · cases mode with
    | single => rfl
    | stream => exact ⟨rfl, Nat.zero_le _, fun hend ↦ absurd hend Bool.false_ne_true⟩
  · dsimp only
    rw [Function.update_self, hlength]
    exact iff_of_true rfl rfl

theorem Table.Serves.mode_eq (h : t.Serves number requestId mode l) :
    t.modeOf number = some mode := by
  obtain ⟨c, hc, -, hcm, -⟩ := h.call
  rw [Table.modeOf, hc]
  exact congrArg some hcm

theorem Table.Serves.holds_eq (h : t.Serves number requestId mode l) :
    t.holds number = l.opened := by
  obtain ⟨c, hc, hcr, -, -⟩ := h.call
  rw [Bool.eq_iff_iff, ← h.held, Table.holds, hc]
  simp [hcr]

/-- A chunk waits for its call. -/
theorem Call.Follows.chunk {c : Call} (h : c.Follows l) (hopened : l.opened = true)
    (payload : Value) :
    (if c.mode = .stream then { c with waiting := c.waiting ++ [payload] } else c).Follows
      { l with chunks := l.chunks ++ [payload] } := by
  unfold Call.Follows at h ⊢
  cases hmode : c.mode with
  | single =>
    rw [hmode] at h
    simp only [reduceCtorEq, ↓reduceIte, hmode]
    exact h
  | stream =>
    rw [hmode] at h
    obtain ⟨hchunks, hslots, hended⟩ := h
    simp only [↓reduceIte]
    refine ⟨by rw [← hchunks]; simp, hslots, fun hend ↦ ?_⟩
    exact absurd (hopened.symm.trans (hended hend).1) (Ne.symm Bool.false_ne_true)

theorem Table.Serves.chunk (hkeyed : t.Keyed) (h : t.Serves number requestId mode l)
    (requestId' : String) (payload : Value) :
    (t.pushInboundStreamChunk requestId' payload).1.Serves number requestId mode
      (l.step requestId (.chunk requestId' payload)) := by
  simp only [Table.pushInboundStreamChunk, Life.step]
  by_cases hown : requestId' = requestId ∧ l.opened = true
  · obtain ⟨rfl, hopened⟩ := hown
    rw [if_pos ⟨rfl, hopened⟩, h.held.mpr hopened]
    dsimp only
    obtain ⟨c, hc, hcr, rfl, hfollows⟩ := h.call
    have hchunk := hfollows.chunk hopened payload
    rw [h.mode_eq]
    simp only [Option.some.injEq]
    split
    case isTrue hstream =>
      rw [if_pos hstream] at hchunk
      refine ⟨⟨_, getElem?_modify_of_some _ _ hc, ?_⟩, h.held⟩
      rw [if_pos rfl]
      exact ⟨hcr, rfl, hchunk⟩
    case isFalse hsingle =>
      rw [if_neg hsingle] at hchunk
      exact ⟨⟨c, hc, hcr, rfl, hchunk⟩, h.held⟩
  · rw [if_neg hown]
    split
    case h_1 number' hentry =>
      have hne := h.ne hkeyed hentry fun heq hopened ↦ hown ⟨heq, hopened⟩
      split
      · exact h.modify number' (fun _ ↦ rfl) (fun _ ↦ rfl) rfl (fun _ _ hf ↦ hf)
          (fun heq ↦ absurd heq hne)
      · exact h
    case h_2 => exact h

theorem Table.Keyed.step (h : t.Keyed) (op : Op) : (InboundCalls.step t op).Keyed := by
  cases op with
  | put requestId mode => exact h.put requestId mode
  | respond requestId ok error =>
    simp only [InboundCalls.step, Table.resolveInboundSingle_eq]
    exact h.release requestId _
  | chunk requestId payload =>
    simp only [InboundCalls.step, Table.pushInboundStreamChunk]
    split
    · split
      · exact h.modify _ fun _ ↦ rfl
      · exact h
    · exact h
  | streamEnd requestId =>
    simp only [InboundCalls.step, Table.closeInboundStream_eq]
    exact h.release requestId _
  | send number => exact h.modify number Call.send_requestId
  | recv number => exact h.modify number (Call.recv_requestId _)

theorem Table.Serves.step (hkeyed : t.Keyed) (h : t.Serves number requestId mode l) (op : Op) :
    (InboundCalls.step t op).Serves number requestId mode (l.step requestId op) := by
  cases op with
  | put requestId' mode' => exact h.put hkeyed requestId' mode'
  | respond requestId' ok error =>
    simp only [InboundCalls.step, Table.resolveInboundSingle_eq]
    exact h.release hkeyed requestId' _
  | chunk requestId' payload => exact h.chunk hkeyed requestId' payload
  | streamEnd requestId' =>
    simp only [InboundCalls.step, Table.closeInboundStream_eq]
    exact h.release hkeyed requestId' _
  | send number' =>
    exact h.modify number' Call.send_requestId Call.send_mode rfl (fun _ _ hf ↦ hf)
      (fun _ _ _ hf ↦ hf.send)
  | recv number' =>
    refine h.modify number' (Call.recv_requestId _) (Call.recv_mode _) rfl (fun _ _ hf ↦ hf) ?_
    rintro rfl c - hf
    exact hf.recv fun hopened ↦ h.holds_eq.trans hopened

end Steps

theorem keyed_run (ops : List Op) : (run step .new ops).Keyed :=
  run_invariant (fun _ op h ↦ h.step op) (fun _ _ h ↦ absurd h (Option.some_ne_none _).symm) ops

theorem Table.Serves.run {t : Table} {number : Nat} {requestId : String} {mode : HandlerMode}
    {l : Life} (hkeyed : t.Keyed) (h : t.Serves number requestId mode l) (ops : List Op) :
    (Lib.Replay.run InboundCalls.step t ops).Serves number requestId mode
      (Lib.Replay.run (fun l op ↦ l.step requestId op) l ops) := by
  induction ops generalizing t l with
  | nil => exact h
  | cons op ops ih => exact ih (hkeyed.step op) (h.step hkeyed op)

/-- A call hears the first answer under its request id, or that it was dropped if another call came
under the same one before, and nothing else. A stream loses no chunk, keeps their order, and ends
only after the last of them. -/
theorem calls_are_served (before after : List Op) (requestId : String) (mode : HandlerMode) :
    let t := run step .new before
    let l : Life := run (fun l op ↦ l.step requestId op) {} after
    (run step t (.put requestId mode :: after)).Serves t.calls.length requestId mode l := by
  intro t l
  exact (t.serves_put requestId mode).run ((keyed_run before).put requestId mode) after

/-! ### The end of a stream -/

/-- A slot is given and used. -/
theorem Call.length_recv_send {c : Call} (h : c.queue.length + c.waiting.length ≠ 0) :
    (c.send.recv false).queue.length + (c.send.recv false).waiting.length + 1 =
      c.queue.length + c.waiting.length := by
  unfold Call.send
  cases hwaiting : c.waiting with
  | nil =>
    rw [hwaiting] at h
    cases hqueue : c.queue with
    | nil => simp [hqueue] at h
    | cons payload queue => simp [Call.recv, hqueue, hwaiting]
  | cons payload waiting =>
    dsimp only
    split
    case isTrue hroom =>
      cases hqueue : c.queue with
      | nil => simp [Call.recv]
      | cons first queue =>
        simp only [Call.recv, List.cons_append, List.length_append, List.length_cons,
          List.length_nil]
        omega
    case isFalse hfull =>
      cases hqueue : c.queue with
      | nil => simp [hqueue, streamSlots] at hfull
      | cons first queue =>
        simp only [Call.recv, hqueue, hwaiting, List.length_cons]
        omega

theorem Call.ended_recv_send {c : Call} (h : c.queue.length + c.waiting.length = 0) :
    (c.send.recv false).ended = true := by
  have hqueue : c.queue = [] := List.length_eq_zero_iff.mp (by omega)
  have hwaiting : c.waiting = [] := List.length_eq_zero_iff.mp (by omega)
  simp [Call.send, Call.recv, hqueue, hwaiting]

section Rounds

variable {t : Table} {number : Nat} {requestId : String} {mode : HandlerMode} {l : Life} {c : Call}

/-- A slot is given, and the engine takes a chunk. -/
def round (number : Nat) : List Op := [.send number, .recv number]

theorem Table.Serves.round (hkeyed : t.Keyed) (h : t.Serves number requestId mode l)
    (hclosed : l.opened = false) (hc : t.calls[number]? = some c) :
    (Lib.Replay.run InboundCalls.step t (round number)).Keyed ∧
      (Lib.Replay.run InboundCalls.step t (round number)).Serves number requestId mode l ∧
      (Lib.Replay.run InboundCalls.step t (round number)).calls[number]? =
        some (c.send.recv false) := by
  have hsend := h.step hkeyed (.send number)
  refine ⟨(hkeyed.step (.send number)).step (.recv number),
    hsend.step (hkeyed.step (.send number)) (.recv number), ?_⟩
  have hheld : (InboundCalls.step t (.send number)).holds number = false :=
    hsend.holds_eq.trans hclosed
  simp only [InboundCalls.round, run_cons, run_nil, InboundCalls.step] at hheld ⊢
  rw [hheld]
  refine (getElem?_modify_of_some number _ (getElem?_modify_of_some number _ hc)).trans ?_
  rw [if_pos rfl, if_pos rfl]

/-- The chunks that are left are handed over one by one. -/
theorem Table.Serves.exists_ended (hkeyed : t.Keyed) (h : t.Serves number requestId .stream l)
    (hclosed : l.opened = false) (hc : t.calls[number]? = some c) :
    ∃ rounds c', (Lib.Replay.run InboundCalls.step t
        (List.replicate rounds (InboundCalls.round number)).flatten).calls[number]? = some c' ∧
      c'.ended = true ∧ c'.taken = l.chunks := by
  induction hleft : c.queue.length + c.waiting.length generalizing t c with
  | zero =>
    obtain ⟨-, hserves, hround⟩ := h.round hkeyed hclosed hc
    obtain ⟨c', hc', -, hmode, hfollows⟩ := hserves.call
    cases hround.symm.trans hc'
    have hended := Call.ended_recv_send hleft
    rw [Call.Follows, hmode] at hfollows
    exact ⟨1, _, hround, hended, (hfollows.2.2 hended).2⟩
  | succ left ih =>
    obtain ⟨hkeyed', hserves, hround⟩ := h.round hkeyed hclosed hc
    have hless := Call.length_recv_send (c := c) (by omega)
    obtain ⟨rounds, c', hc', hended⟩ := ih hkeyed' hserves hround (by omega)
    refine ⟨rounds + 1, c', ?_, hended⟩
    rw [List.replicate_succ, List.flatten_cons, run_append]
    exact hc'

end Rounds

/-- A stream that is closed, by its client or by another call under its request id, comes to its end
in the engine, and the engine has taken every chunk by then. -/
theorem closed_stream_ends (before after : List Op) (requestId : String) :
    let t := run step .new before
    let l : Life := run (fun l op ↦ l.step requestId op) {} after
    l.opened = false →
      ∃ rounds c, (run step (run step t (.put requestId .stream :: after))
          (List.replicate rounds (round t.calls.length)).flatten).calls[t.calls.length]? = some c ∧
        c.ended = true ∧ c.taken = l.chunks := by
  intro t l hclosed
  have hkeyed : (run step t (.put requestId .stream :: after)).Keyed := by
    have h := keyed_run (before ++ .put requestId .stream :: after)
    rwa [run_append] at h
  have hserves : (run step t (.put requestId .stream :: after)).Serves t.calls.length requestId
      .stream l :=
    (t.serves_put requestId .stream).run ((keyed_run before).put requestId .stream) after
  obtain ⟨c, hc, -⟩ := hserves.call
  exact hserves.exists_ended hkeyed hclosed hc

/-- A client answers in two chunks and ends the stream. -/
theorem two_chunks_end :
    ∃ rounds c, (run step (run step .new [.put "7" .stream, .chunk "7" .null,
          .chunk "7" (.bool true), .streamEnd "7"])
        (List.replicate rounds (round 0)).flatten).calls[0]? = some c ∧
      c.ended = true ∧ c.taken = [.null, .bool true] :=
  closed_stream_ends [] [.chunk "7" .null, .chunk "7" (.bool true), .streamEnd "7"] "7" rfl

end MyOwnMesh.InboundCalls
