import Mathlib.Data.Finset.Card
import Mathlib.Data.List.Chain
import Mathlib.Data.List.Find
import MyOwnMesh.Lib.Trace
import MyOwnMesh.Transport.NackHistory

/-!
# Repairs of sent packets

`vendor/interceptor/src/nack/responder/responder_stream.rs`, with the repair worker of the
checked-in copy. The packets that were sent are kept at their number modulo the size. Feedback
queues repairs; one worker takes them from the queue, looks the packet up again, writes it and only
then lets the number be queued anew. A step is what is done under the lock or between two waits.
-/

namespace MyOwnMesh.Transport

open Lib Lib.Replay
open Video (wireSeq toNat_wireSeq)

variable {size : WindowSize} {β : Type}

structure Packet (β : Type) where
  sequenceNumber : UInt16
  body : β
  deriving DecidableEq

/-! ### The packets that were sent -/

/-- `responder_stream.rs:12–15`. -/
structure SentHistory (size : WindowSize) (β : Type) where
  packets : Vector (Option (Packet β)) size.val
  lastAdded : UInt16
  started : Bool

namespace SentHistory

/-- `responder_stream.rs:24–28`. -/
def new : SentHistory size β := ⟨Vector.replicate _ none, 0, false⟩

variable (s : SentHistory size β)

/-- The packets at the numbers behind `last` are let go. -/
def clearSlots (packets : Vector (Option (Packet β)) size.val) (last : UInt16) (steps : Nat) :
    Vector (Option (Packet β)) size.val :=
  (List.range' 1 steps).foldl
    (fun packets step ↦ packets.set (slot size (last + UInt16.ofNat step)) none) packets

/-- `responder_stream.rs:36–58`. -/
def add (p : Packet β) : SentHistory size β :=
  if !s.started then
    { packets := s.packets.set (slot size p.sequenceNumber) (some p)
      lastAdded := p.sequenceNumber
      started := true }
  else
    let diff := (p.sequenceNumber - s.lastAdded).toNat
    if diff = 0 then s
    else
      let packets :=
        if diff < 32768 then clearSlots s.packets s.lastAdded (diff - 1) else s.packets
      { s with
        packets := packets.set (slot size p.sequenceNumber) (some p)
        lastAdded := p.sequenceNumber }

/-- `responder_stream.rs:60–73`. -/
def get (seq : UInt16) : Option (Packet β) :=
  let diff := (s.lastAdded - seq).toNat
  if 32768 ≤ diff then none
  else if size.val ≤ diff then none
  else s.packets[slot size seq].filter fun p ↦ p.sequenceNumber == seq

end SentHistory

/-- What was sent, with the indexes of the packets. -/
def sentHistory (size : WindowSize) (writes : List (Int × β)) : SentHistory size β :=
  writes.foldl (fun s write ↦ s.add ⟨wireSeq write.1, write.2⟩) .new

/-- A local track counts up, and does not jump over half of the numbers. -/
def Ascending (writes : List (Int × β)) : Prop :=
  (writes.map Prod.fst).IsChain fun i j ↦ i < j ∧ j ≤ i + 32767

instance (writes : List (Int × β)) : Decidable (Ascending writes) :=
  inferInstanceAs (Decidable (List.IsChain _ _))

/-- The packet that was sent under a number, if it is among the last `size` numbers. -/
def retained (size : WindowSize) (writes : List (Int × β)) (seq : UInt16) : Option (Packet β) :=
  writes.getLast?.bind fun last ↦
    (writes.find? fun write ↦ decide (last.1 - size.val < write.1) && wireSeq write.1 == seq).map
      fun write ↦ ⟨seq, write.2⟩

section Slots

variable {packets : Vector (Option (Packet β)) size.val} {last : UInt16} {steps : Nat}
  {k : Fin size.val}

theorem clearSlots_succ :
    SentHistory.clearSlots packets last (steps + 1) =
      (SentHistory.clearSlots packets last steps).set
        (slot size (last + UInt16.ofNat (1 + steps))) none := by
  rw [SentHistory.clearSlots, List.range'_1_concat, List.foldl_append, ← SentHistory.clearSlots]
  rfl

theorem getElem_set_ne {i : Fin size.val} {x : Option (Packet β)} (hne : k ≠ i) :
    (packets.set i x)[k] = packets[k] := by
  simp only [Fin.getElem_fin]
  exact Vector.getElem_set_ne _ _ fun heq ↦ hne (Fin.ext heq.symm)

@[simp] theorem getElem_set_same {x : Option (Packet β)} : (packets.set k x)[k] = x := by
  simp only [Fin.getElem_fin]
  exact Vector.getElem_set_self _

/-- Other places keep their packets. -/
theorem getElem_clearSlots_of_ne
    (hne : ∀ step, 1 ≤ step → step ≤ steps → k ≠ slot size (last + UInt16.ofNat step)) :
    (SentHistory.clearSlots packets last steps)[k] = packets[k] := by
  induction steps with
  | zero => rfl
  | succ steps ih =>
    rw [clearSlots_succ, getElem_set_ne (hne _ (by omega) (by omega))]
    exact ih fun step hone hle ↦ hne step hone (by omega)

theorem getElem_clearSlots {step : Nat} (hone : 1 ≤ step) (hle : step ≤ steps) :
    k = slot size (last + UInt16.ofNat step) →
      (SentHistory.clearSlots packets last steps)[k] = none := by
  intro hk
  induction steps with
  | zero => omega
  | succ steps ih =>
    rw [clearSlots_succ]
    by_cases hlast : k = slot size (last + UInt16.ofNat (1 + steps))
    · clear hk ih
      subst hlast
      exact getElem_set_same
    · rw [getElem_set_ne hlast]
      refine ih ?_
      by_contra hgt
      obtain rfl : step = 1 + steps := by omega
      exact hlast hk

end Slots

/-- The highest index is `h`, and each place of the window holds the packet with its index. -/
structure Retains (s : SentHistory size β) (writes : List (Int × β)) (h : Int) : Prop where
  started : s.started = true
  lastAdded : s.lastAdded = wireSeq h
  highest : ∀ write ∈ writes, write.1 ≤ h
  window : ∀ j, h - size.val < j → j ≤ h →
    s.packets[slot size (wireSeq j)] =
      (writes.find? fun write ↦ write.1 == j).map fun write ↦ ⟨wireSeq j, write.2⟩

variable {s : SentHistory size β} {writes : List (Int × β)} {h i : Int} {body : β}

theorem Retains.add (hs : Retains s writes h) (hlt : h < i) (hnear : i ≤ h + 32767) :
    Retains (s.add ⟨wireSeq i, body⟩) (writes ++ [(i, body)]) i := by
  have hdiff := toNat_wireSeq_sub hlt.le (by omega)
  have hne : (wireSeq i - s.lastAdded).toNat ≠ 0 := by
    rw [hs.lastAdded]
    omega
  have hahead : (wireSeq i - s.lastAdded).toNat < 32768 := by
    rw [hs.lastAdded]
    omega
  have hnone : ∀ j, h < j → (writes.find? fun write ↦ write.1 == j) = none := by
    intro j hj
    rw [List.find?_eq_none]
    intro write hwrite
    have hle := hs.highest write hwrite
    simp only [beq_iff_eq]
    omega
  simp only [SentHistory.add, hs.started, Bool.not_true, Bool.false_eq_true, ↓reduceIte, hne,
    hahead]
  refine ⟨rfl, rfl, ?_, ?_⟩
  · intro write hwrite
    rcases List.mem_append.mp hwrite with hwrite | hwrite
    · exact (hs.highest write hwrite).trans hlt.le
    · rw [List.mem_singleton.mp hwrite]
  · intro j hj hji
    rw [List.find?_append]
    rcases eq_or_lt_of_le hji with rfl | hbelow
    · rw [getElem_set_same, hnone j hlt]
      simp
    · have hslot : slot size (wireSeq j) ≠ slot size (wireSeq i) := fun heq ↦
        absurd (eq_of_slot_eq heq (by omega) (by omega)) (by omega)
      have hlast : ([(i, body)].find? fun write ↦ write.1 == j) = none := by
        rw [List.find?_eq_none]
        intro write hwrite
        rw [List.mem_singleton.mp hwrite]
        simp only [beq_iff_eq]
        omega
      rw [getElem_set_ne hslot, hs.lastAdded, hlast, Option.or_none]
      by_cases hjh : j ≤ h
      · rw [getElem_clearSlots_of_ne, hs.window j (by omega) hjh]
        intro step hone hle heq
        rw [wireSeq_add] at heq
        have hsame := eq_of_slot_eq heq (by omega) (by omega)
        omega
      · have hk : wireSeq j = wireSeq h + UInt16.ofNat (j - h).toNat := by
          rw [wireSeq_add]
          congr 1
          omega
        rw [getElem_clearSlots (by omega) (by omega) (congrArg (slot size) hk),
          hnone j (by omega), Option.map_none]

theorem retains_first (i : Int) (body : β) :
    Retains ((.new : SentHistory size β).add ⟨wireSeq i, body⟩) [(i, body)] i := by
  have hadd : (.new : SentHistory size β).add ⟨wireSeq i, body⟩ =
      { packets := (Vector.replicate size.val none).set (slot size (wireSeq i))
          (some ⟨wireSeq i, body⟩)
        lastAdded := wireSeq i
        started := true } := rfl
  rw [hadd]
  refine ⟨rfl, rfl, by simp, ?_⟩
  intro j hj hji
  by_cases heq : j = i
  · subst heq
    rw [getElem_set_same]
    simp
  · have hslot : slot size (wireSeq j) ≠ slot size (wireSeq i) := fun hs ↦
      heq (eq_of_slot_eq hs (by omega) (by omega))
    rw [getElem_set_ne hslot]
    simp [Ne.symm heq]

theorem Ascending.init {last : Int × β} (h : Ascending (writes ++ [last])) : Ascending writes := by
  rw [Ascending, List.map_append, List.isChain_append] at h
  exact h.1

theorem Ascending.last_lt {prev last : Int × β}
    (h : Ascending (writes ++ [prev] ++ [last])) : prev.1 < last.1 ∧ last.1 ≤ prev.1 + 32767 := by
  rw [Ascending, List.append_assoc, List.map_append, List.isChain_append] at h
  simpa using h.2.1

theorem retains_sentHistory {last : Int × β} (h : Ascending (writes ++ [last])) :
    Retains (sentHistory size (writes ++ [last])) (writes ++ [last]) last.1 := by
  induction writes using List.reverseRecOn generalizing last with
  | nil => exact retains_first last.1 last.2
  | append_singleton writes prev ih =>
    obtain ⟨hlt, hnear⟩ := h.last_lt
    rw [sentHistory, List.foldl_append]
    exact (ih h.init).add hlt hnear

/-- The history finds a packet exactly if it was sent under the number and is among the last. -/
theorem get_sentHistory (h : Ascending writes) (seq : UInt16) :
    (sentHistory size writes).get seq = retained size writes seq := by
  have hsize := size.lt
  rcases List.eq_nil_or_concat writes with rfl | ⟨writes, last, rfl⟩
  · simp [sentHistory, SentHistory.get, SentHistory.new, retained]
  · rw [List.concat_eq_append] at h ⊢
    have hs : Retains (sentHistory size (writes ++ [last])) _ _ := retains_sentHistory h
    obtain ⟨j, hj⟩ : ∃ j, j = last.1 - ((wireSeq last.1 - seq).toNat : Int) := ⟨_, rfl⟩
    have hseq : seq = wireSeq j := by
      have hback := wireSeq_sub_ofNat last.1 (wireSeq last.1 - seq).toNat
      rw [UInt16.ofNat_toNat, ← hj] at hback
      rw [← hback, UInt16.sub_eq_add_neg, UInt16.neg_sub, UInt16.add_comm, UInt16.sub_add_cancel]
    rw [SentHistory.get, hs.lastAdded, retained, List.getLast?_concat, Option.bind_some]
    have hdist : (wireSeq last.1 - seq).toNat < 65536 := UInt16.toNat_lt _
    by_cases hnear : (wireSeq last.1 - seq).toNat < size.val
    · have hfind : ((writes ++ [last]).find? fun write ↦
            decide (last.1 - size.val < write.1) && wireSeq write.1 == seq) =
          (writes ++ [last]).find? fun write ↦ write.1 == j := by
        refine List.find?_congr fun write hwrite ↦ ?_
        have hle := hs.highest write hwrite
        rw [Bool.eq_iff_iff, Bool.and_eq_true, decide_eq_true_eq, beq_iff_eq, beq_iff_eq]
        constructor
        · rintro ⟨hin, heq⟩
          exact wireSeq_inj (heq.trans hseq) (by omega) (by omega)
        · rintro rfl
          exact ⟨by omega, hseq.symm⟩
      rw [if_neg (by omega), if_neg (by omega), hfind, hseq, hs.window j (by omega) (by omega)]
      cases (writes ++ [last]).find? fun write ↦ write.1 == j <;> simp
    · have hnone : ((writes ++ [last]).find? fun write ↦
            decide (last.1 - size.val < write.1) && wireSeq write.1 == seq) = none := by
        rw [List.find?_eq_none]
        intro write hwrite
        have hle := hs.highest write hwrite
        rw [Bool.and_eq_true, decide_eq_true_eq, beq_iff_eq]
        rintro ⟨hin, heq⟩
        have hsame := wireSeq_inj (heq.trans hseq) (by omega) (by omega)
        omega
      rw [hnone, Option.map_none]
      split
      · rfl
      · rw [if_pos (by omega)]

/-! ### The worker -/

/-- Where a spawned worker is in its loop; `responder_stream.rs:122–145`. -/
inductive Stage (β : Type) where
  /-- It takes the lock for the next repair. -/
  | looking
  /-- It writes what it found for the number. -/
  | holding (seq : UInt16) (packet : Option (Packet β))
  /-- It takes the lock to let go of the number. -/
  | written (seq : UInt16)

inductive Event (β : Type) where
  | added (i : Int) (body : β)
  | queued (seq : UInt16)
  | taken (seq : UInt16) (packet : Option (Packet β))
  | resent (packet : Packet β)

/-- `responder_stream.rs:12–21`, with the spawned tasks and a record of what happened. -/
structure Responder (size : WindowSize) (β : Type) where
  history : SentHistory size β
  repairs : List UInt16
  pendingRepairs : Finset UInt16
  repairWorker : Bool
  closed : Bool
  tasks : List (Stage β)
  log : List (Event β)

inductive Op (β : Type) where
  /-- A fresh packet is written. -/
  | add (i : Int) (body : β)
  | requestRepairs (nacks : List UInt16)
  /-- A task runs until it waits again. -/
  | work (task : Nat)
  /-- An abort that was asked for takes hold. -/
  | abort (task : Nat)
  | close

namespace Responder

/-- `responder_stream.rs:23–34`. -/
def new : Responder size β := ⟨.new, [], ∅, false, false, [], []⟩

variable (r : Responder size β)

/-- One number of the feedback; `responder_stream.rs:111–118`. -/
def queue (seq : UInt16) : Responder size β :=
  if r.pendingRepairs.card < size.val ∧ (r.history.get seq).isSome ∧ seq ∉ r.pendingRepairs then
    { r with
      pendingRepairs := insert seq r.pendingRepairs
      repairs := r.repairs ++ [seq]
      log := r.log ++ [.queued seq] }
  else r

/-- `responder_stream.rs:102–148`. -/
def requestRepairs (nacks : List UInt16) : Responder size β :=
  if r.closed then r
  else
    let r' := nacks.foldl queue r
    if !r'.repairWorker && !r'.repairs.isEmpty then
      { r' with repairWorker := true, tasks := r'.tasks ++ [.looking] }
    else r'

/-- `responder_stream.rs:121–145`. -/
def work (task : Nat) : Responder size β :=
  match r.tasks[task]? with
  | none => r
  | some .looking =>
    match r.repairs with
    | [] => { r with repairWorker := false, tasks := r.tasks.eraseIdx task }
    | seq :: repairs =>
      { r with
        repairs := repairs
        tasks := r.tasks.set task (.holding seq (r.history.get seq))
        log := r.log ++ [.taken seq (r.history.get seq)] }
  | some (.holding seq packet) =>
    { r with
      tasks := r.tasks.set task (.written seq)
      log := r.log ++ packet.toList.map .resent }
  | some (.written seq) =>
    { r with
      pendingRepairs := r.pendingRepairs.erase seq
      tasks := r.tasks.set task .looking }

/-- `responder_stream.rs:150–158`; the task ends when it waits next. -/
def close : Responder size β :=
  { r with closed := true, repairs := [], pendingRepairs := ∅, repairWorker := false }

def step : Op β → Responder size β
  | .add i body =>
    { r with history := r.history.add ⟨wireSeq i, body⟩, log := r.log ++ [.added i body] }
  | .requestRepairs nacks => r.requestRepairs nacks
  | .work task => r.work task
  | .abort task => if r.closed then { r with tasks := r.tasks.eraseIdx task } else r
  | .close => r.close

end Responder

namespace Event

def added? : Event β → Option (Int × β)
  | .added i body => some (i, body)
  | _ => none

def queued? : Event β → Option UInt16
  | .queued seq => some seq
  | _ => none

def taken? : Event β → Option (UInt16 × Option (Packet β))
  | .taken seq packet => some (seq, packet)
  | _ => none

def resent? : Event β → Option (Packet β)
  | .resent packet => some packet
  | _ => none

end Event

/-- The packets written so far. -/
def writesOf (log : List (Event β)) : List (Int × β) := log.filterMap Event.added?

def queuedOf (log : List (Event β)) : List UInt16 := log.filterMap Event.queued?

def takenOf (log : List (Event β)) : List (UInt16 × Option (Packet β)) := log.filterMap Event.taken?

def resentOf (log : List (Event β)) : List (Packet β) := log.filterMap Event.resent?

/-- The number a worker has in hand. -/
def Stage.seq? : Stage β → Option UInt16
  | .looking => none
  | .holding seq _ => some seq
  | .written seq => some seq

/-- The packet a worker has yet to write. -/
def Stage.packet? : Stage β → Option (Packet β)
  | .holding _ packet => packet
  | _ => none

/-- A repair is queued and taken by what the history says at the time. -/
def Served (size : WindowSize) (before : List (Event β)) : Event β → Prop
  | .queued seq => ((sentHistory size (writesOf before)).get seq).isSome
  | .taken seq packet => packet = (sentHistory size (writesOf before)).get seq
  | _ => True

/-- What holds while repairs are still served. -/
structure Opened (r : Responder size β) : Prop where
  queue : queuedOf r.log = (takenOf r.log).map Prod.fst ++ r.repairs
  wrote : (takenOf r.log).filterMap Prod.snd = resentOf r.log ++ r.tasks.filterMap Stage.packet?
  pending : ∀ seq, seq ∈ r.pendingRepairs ↔ seq ∈ r.tasks.filterMap Stage.seq? ++ r.repairs
  nodup : (r.tasks.filterMap Stage.seq? ++ r.repairs).Nodup
  bound : r.pendingRepairs.card ≤ size.val

structure Inv (r : Responder size β) : Prop where
  history : r.history = sentHistory size (writesOf r.log)
  served : Trace.Backed (Served size) r.log
  tasks : r.tasks = [] ∨ ∃ t, r.tasks = [t]
  order : (takenOf r.log).map Prod.fst <+: queuedOf r.log
  wrote : resentOf r.log ++ r.tasks.filterMap Stage.packet? <+:
    (takenOf r.log).filterMap Prod.snd
  opened : r.closed = false → Opened r
  worker : r.closed = false →
    (r.repairWorker = false ∧ r.tasks = [] ∧ r.repairs = []) ∨
      (r.repairWorker = true ∧ ∃ t, r.tasks = [t])
  shut : r.closed = true → r.repairs = [] ∧ r.pendingRepairs = ∅

section Worker

variable {r : Responder size β} {task : Nat} {seq : UInt16}

/-! What the only task does. -/

theorem work_idle (htasks : r.tasks = [.looking]) (hrepairs : r.repairs = []) :
    r.work 0 = { r with repairWorker := false, tasks := [] } := by
  simp [Responder.work, htasks, hrepairs]

theorem work_take {repairs : List UInt16} (htasks : r.tasks = [.looking])
    (hrepairs : r.repairs = seq :: repairs) :
    r.work 0 = { r with
      repairs := repairs
      tasks := [.holding seq (r.history.get seq)]
      log := r.log ++ [.taken seq (r.history.get seq)] } := by
  simp [Responder.work, htasks, hrepairs]

theorem work_resend {packet : Option (Packet β)} (htasks : r.tasks = [.holding seq packet]) :
    r.work 0 = { r with
      tasks := [.written seq]
      log := r.log ++ packet.toList.map .resent } := by
  simp [Responder.work, htasks]

theorem work_release (htasks : r.tasks = [.written seq]) :
    r.work 0 = { r with
      pendingRepairs := r.pendingRepairs.erase seq
      tasks := [.looking] } := by
  simp [Responder.work, htasks]

theorem work_cases (htasks : r.tasks = [] ∨ ∃ t, r.tasks = [t]) (task : Nat) :
    r.work task = r ∨
    (r.tasks = [.looking] ∧ r.repairs = [] ∧
      r.work task = { r with repairWorker := false, tasks := [] }) ∨
    (∃ seq repairs, r.tasks = [.looking] ∧ r.repairs = seq :: repairs ∧
      r.work task = { r with
        repairs := repairs
        tasks := [.holding seq (r.history.get seq)]
        log := r.log ++ [.taken seq (r.history.get seq)] }) ∨
    (∃ seq packet, r.tasks = [.holding seq packet] ∧
      r.work task = { r with
        tasks := [.written seq]
        log := r.log ++ packet.toList.map .resent }) ∨
    ∃ seq, r.tasks = [.written seq] ∧
      r.work task = { r with
        pendingRepairs := r.pendingRepairs.erase seq
        tasks := [.looking] } := by
  rcases htasks with hnone | ⟨t, hone⟩
  · exact .inl (by simp [Responder.work, hnone])
  · cases task with
    | succ task => exact .inl (by simp [Responder.work, hone])
    | zero =>
      right
      cases t with
      | looking =>
        cases hrepairs : r.repairs with
        | nil => exact .inl ⟨hone, rfl, by rw [work_idle hone hrepairs, hrepairs]⟩
        | cons seq repairs => exact .inr (.inl ⟨seq, repairs, hone, rfl, work_take hone hrepairs⟩)
      | holding seq packet => exact .inr (.inr (.inl ⟨seq, packet, hone, work_resend hone⟩))
      | written seq => exact .inr (.inr (.inr ⟨seq, hone, work_release hone⟩))

/-- What queueing leaves alone. -/
theorem queue_frame (r : Responder size β) (seq : UInt16) :
    (r.queue seq).history = r.history ∧ (r.queue seq).repairWorker = r.repairWorker ∧
      (r.queue seq).closed = r.closed ∧ (r.queue seq).tasks = r.tasks := by
  unfold Responder.queue
  split <;> exact ⟨rfl, rfl, rfl, rfl⟩

/-- What holds between two numbers of one feedback. -/
structure Queueing (r : Responder size β) : Prop where
  history : r.history = sentHistory size (writesOf r.log)
  served : Trace.Backed (Served size) r.log
  opened : Opened r

theorem Queueing.queue (h : Queueing r) (seq : UInt16) : Queueing (r.queue seq) := by
  unfold Responder.queue
  split
  case isFalse => exact h
  case isTrue hroom =>
    obtain ⟨hcard, hsent, hnew⟩ := hroom
    have hfree : seq ∉ r.tasks.filterMap Stage.seq? ++ r.repairs := fun hmem ↦
      hnew ((h.opened.pending seq).mpr hmem)
    refine ⟨?_, ?_, ?_⟩
    · simpa [writesOf, List.filterMap_cons, Event.added?] using h.history
    · refine h.served.snoc ?_
      rw [Served, ← h.history]
      exact hsent
    · constructor
      · have hqueue := h.opened.queue
        rw [queuedOf, takenOf] at hqueue
        simp [queuedOf, takenOf, List.filterMap_cons, Event.queued?, Event.taken?, hqueue]
      · simpa [takenOf, resentOf, List.filterMap_cons, Event.taken?, Event.resent?] using
          h.opened.wrote
      · intro x
        rw [Finset.mem_insert, h.opened.pending x, ← List.append_assoc,
          List.mem_append (t := [seq]), List.mem_singleton, or_comm]
      · rw [← List.append_assoc, List.nodup_append]
        refine ⟨h.opened.nodup, List.nodup_singleton _, ?_⟩
        rintro x hx y hy rfl
        exact hfree (List.mem_singleton.mp hy ▸ hx)
      · rw [Finset.card_insert_of_notMem hnew]
        exact hcard

theorem foldl_queue_frame (r : Responder size β) (nacks : List UInt16) :
    (nacks.foldl Responder.queue r).history = r.history ∧
      (nacks.foldl Responder.queue r).repairWorker = r.repairWorker ∧
      (nacks.foldl Responder.queue r).closed = r.closed ∧
      (nacks.foldl Responder.queue r).tasks = r.tasks := by
  induction nacks generalizing r with
  | nil => exact ⟨rfl, rfl, rfl, rfl⟩
  | cons seq nacks ih =>
    obtain ⟨h1, h2, h3, h4⟩ := queue_frame r seq
    obtain ⟨g1, g2, g3, g4⟩ := ih (r.queue seq)
    exact ⟨g1.trans h1, g2.trans h2, g3.trans h3, g4.trans h4⟩

theorem Queueing.foldl (h : Queueing r) (nacks : List UInt16) :
    Queueing (nacks.foldl Responder.queue r) := by
  induction nacks generalizing r with
  | nil => exact h
  | cons seq nacks ih => exact ih (h.queue seq)

theorem Queueing.inv (h : Queueing r) (hopen : r.closed = false)
    (hworker : (r.repairWorker = false ∧ r.tasks = [] ∧ r.repairs = []) ∨
      (r.repairWorker = true ∧ ∃ t, r.tasks = [t])) : Inv r where
  history := h.history
  served := h.served
  tasks := hworker.imp (fun h ↦ h.2.1) fun h ↦ h.2
  order := ⟨r.repairs, h.opened.queue.symm⟩
  wrote := h.opened.wrote ▸ List.prefix_rfl
  opened _ := h.opened
  worker _ := hworker
  shut hc := absurd (hopen.symm.trans hc) Bool.false_ne_true

theorem Inv.requestRepairs (h : Inv r) (nacks : List UInt16) : Inv (r.requestRepairs nacks) := by
  unfold Responder.requestRepairs
  split
  case isTrue => exact h
  case isFalse hopen =>
    have hopen := Bool.eq_false_of_not_eq_true hopen
    obtain ⟨-, hworker, hclosed, htasks⟩ := foldl_queue_frame r nacks
    have hq := Queueing.foldl ⟨h.history, h.served, h.opened hopen⟩ nacks
    dsimp only
    split
    case isTrue hspawn =>
      rw [Bool.and_eq_true, Bool.not_eq_true', hworker] at hspawn
      obtain ⟨-, hempty, -⟩ := (h.worker hopen).resolve_right fun hw ↦ by
        rw [hw.1] at hspawn
        exact Bool.noConfusion hspawn.1
      rw [hempty] at htasks
      refine Queueing.inv ⟨hq.history, hq.served, ?_⟩ (hclosed.trans hopen)
        (.inr ⟨rfl, .looking, by rw [htasks]; rfl⟩)
      constructor
      · exact hq.opened.queue
      · simpa [htasks, List.filterMap_cons, Stage.packet?] using hq.opened.wrote
      · simpa [htasks, List.filterMap_cons, Stage.seq?] using hq.opened.pending
      · simpa [htasks, List.filterMap_cons, Stage.seq?] using hq.opened.nodup
      · exact hq.opened.bound
    case isFalse hspawn =>
      refine hq.inv (hclosed.trans hopen) ?_
      rw [hworker, htasks]
      rcases h.worker hopen with ⟨hoff, hempty, -⟩ | hon
      · refine .inl ⟨hoff, hempty, ?_⟩
        simpa [hworker, hoff] using hspawn
      · exact .inr hon

theorem Inv.add (h : Inv r) (i : Int) (body : β) :
    Inv (r.step (.add i body)) where
  history := by
    simp [Responder.step, h.history, sentHistory, writesOf, Event.added?]
  served := h.served.snoc trivial
  tasks := h.tasks
  order := by
    simpa [Responder.step, takenOf, queuedOf, List.filterMap_cons, Event.taken?, Event.queued?]
      using h.order
  wrote := by
    simpa [Responder.step, takenOf, resentOf, List.filterMap_cons, Event.taken?, Event.resent?]
      using h.wrote
  opened hopen := by
    obtain ⟨hqueue, hwrote, hpending, hnodup, hbound⟩ := h.opened hopen
    refine ⟨?_, ?_, hpending, hnodup, hbound⟩
    · simpa [Responder.step, takenOf, queuedOf, List.filterMap_cons, Event.taken?, Event.queued?]
        using hqueue
    · simpa [Responder.step, takenOf, resentOf, List.filterMap_cons, Event.taken?, Event.resent?]
        using hwrote
  worker := h.worker
  shut := h.shut

theorem Inv.close (h : Inv r) : Inv r.close where
  history := h.history
  served := h.served
  tasks := h.tasks
  order := h.order
  wrote := h.wrote
  opened hopen := Bool.noConfusion hopen
  worker hopen := Bool.noConfusion hopen
  shut _ := ⟨rfl, rfl⟩

/-- The last task goes away after the close. -/
theorem Inv.abort (h : Inv r) (hclosed : r.closed = true) (task : Nat) :
    Inv { r with tasks := r.tasks.eraseIdx task } where
  history := h.history
  served := h.served
  tasks := by
    rcases h.tasks with hnone | ⟨t, hone⟩
    · simp [hnone]
    · cases task <;> simp [hone]
  order := h.order
  wrote := by
    refine List.IsPrefix.trans ?_ h.wrote
    rcases h.tasks with hnone | ⟨t, hone⟩
    · simp [hnone]
    · cases task <;> simp [hone]
  opened hopen := absurd (hclosed.symm.trans hopen) Bool.true_eq_false_eq_False
  worker hopen := absurd (hclosed.symm.trans hopen) Bool.true_eq_false_eq_False
  shut := h.shut

theorem Inv.work (h : Inv r) (task : Nat) : Inv (r.work task) := by
  rcases work_cases h.tasks task with hsame | ⟨hlooking, hempty, heq⟩ |
    ⟨seq, repairs, hlooking, hrepairs, heq⟩ | ⟨seq, packet, hholding, heq⟩ | ⟨seq, hwritten, heq⟩
  · rwa [hsame]
  · rw [heq]
    have hwrote := h.wrote
    have hdone : ([.looking] : List (Stage β)).filterMap Stage.packet? = [] := rfl
    rw [hlooking, hdone] at hwrote
    refine ⟨h.history, h.served, .inl rfl, h.order, hwrote, fun hopen ↦ ?_, fun _ ↦ ?_, h.shut⟩
    · obtain ⟨hqueue, hwrote, hpending, hnodup, hbound⟩ := h.opened hopen
      rw [hlooking] at hwrote hpending hnodup
      exact ⟨hqueue, hwrote, hpending, hnodup, hbound⟩
    · exact .inl ⟨rfl, rfl, hempty⟩
  · have hopen : r.closed = false := by
      rw [← Bool.not_eq_true]
      intro hclosed
      rw [(h.shut hclosed).1] at hrepairs
      exact List.cons_ne_nil _ _ hrepairs.symm
    obtain ⟨hqueue, hwrote, hpending, hnodup, hbound⟩ := h.opened hopen
    have hworker := (h.worker hopen).resolve_left fun hidle ↦ by
      rw [hidle.2.1] at hlooking
      exact List.cons_ne_nil _ _ hlooking.symm
    rw [hlooking] at hwrote hpending hnodup
    rw [hrepairs] at hqueue hpending hnodup
    rw [heq]
    refine Queueing.inv ⟨?_, ?_, ?_⟩ hopen (.inr ⟨hworker.1, _, rfl⟩)
    · simpa [writesOf, List.filterMap_cons, Event.added?] using h.history
    · refine h.served.snoc ?_
      rw [Served, ← h.history]
    · rw [queuedOf, takenOf] at hqueue
      rw [takenOf, resentOf] at hwrote
      constructor
      · simp [queuedOf, takenOf, List.filterMap_cons, Event.queued?, Event.taken?, hqueue]
      · cases hget : r.history.get seq <;>
          simp [takenOf, resentOf, List.filterMap_cons, Event.taken?, Event.resent?,
            Stage.packet?, hwrote]
      · simpa [List.filterMap_cons, Stage.seq?] using hpending
      · simpa [List.filterMap_cons, Stage.seq?] using hnodup
      · exact hbound
  · have hheld : [Stage.holding seq packet].filterMap Stage.packet? = packet.toList := by
      cases packet <;> rfl
    have hwrites : writesOf (r.log ++ packet.toList.map .resent) = writesOf r.log := by
      cases packet <;> simp [writesOf, List.filterMap_cons, Event.added?]
    have hqueued : queuedOf (r.log ++ packet.toList.map .resent) = queuedOf r.log := by
      cases packet <;> simp [queuedOf, List.filterMap_cons, Event.queued?]
    have htaken : takenOf (r.log ++ packet.toList.map .resent) = takenOf r.log := by
      cases packet <;> simp [takenOf, List.filterMap_cons, Event.taken?]
    have hresent : resentOf (r.log ++ packet.toList.map .resent) =
        resentOf r.log ++ packet.toList := by
      cases packet <;> simp [resentOf, Event.resent?]
    have hwrote := h.wrote
    rw [hholding, hheld] at hwrote
    rw [heq]
    refine ⟨?_, ?_, .inr ⟨_, rfl⟩, ?_, ?_, fun hopen ↦ ?_, fun hopen ↦ ?_, h.shut⟩
    · rw [hwrites]
      exact h.history
    · refine h.served.append ?_
      cases packet with
      | none => exact .inl rfl
      | some packet => exact .inr ⟨_, rfl, trivial⟩
    · rw [htaken, hqueued]
      exact h.order
    · rw [htaken, hresent]
      simpa [List.filterMap_cons, Stage.packet?] using hwrote
    · obtain ⟨hqueue, hwrote, hpending, hnodup, hbound⟩ := h.opened hopen
      rw [hholding] at hwrote hpending hnodup
      rw [hheld] at hwrote
      refine ⟨?_, ?_, hpending, hnodup, hbound⟩
      · rw [hqueued, htaken]
        exact hqueue
      · rw [htaken, hresent, hwrote]
        simp [List.filterMap_cons, Stage.packet?]
    · have hworker := (h.worker hopen).resolve_left fun hidle ↦ by
        rw [hidle.2.1] at hholding
        exact List.cons_ne_nil _ _ hholding.symm
      exact .inr ⟨hworker.1, _, rfl⟩
  · have hwrote := h.wrote
    have hdone : ([.written seq] : List (Stage β)).filterMap Stage.packet? = [] := rfl
    rw [hwritten, hdone] at hwrote
    rw [heq]
    refine ⟨h.history, h.served, .inr ⟨_, rfl⟩, h.order, hwrote, fun hopen ↦ ?_, fun hopen ↦ ?_,
      fun hclosed ↦ ?_⟩
    · obtain ⟨hqueue, hwrote, hpending, hnodup, hbound⟩ := h.opened hopen
      rw [hwritten, hdone] at hwrote
      rw [hwritten] at hpending hnodup
      obtain ⟨hfirst, hnodup⟩ := List.nodup_cons.mp hnodup
      refine ⟨hqueue, hwrote, fun x ↦ ?_, hnodup, (Finset.card_erase_le).trans hbound⟩
      rw [Finset.mem_erase, hpending x]
      constructor
      · rintro ⟨hne, hmem⟩
        exact (List.mem_cons.mp hmem).resolve_left hne
      · intro hmem
        exact ⟨fun heq ↦ hfirst (heq ▸ hmem), List.mem_cons_of_mem _ hmem⟩
    · have hworker := (h.worker hopen).resolve_left fun hidle ↦ by
        rw [hidle.2.1] at hwritten
        exact List.cons_ne_nil _ _ hwritten.symm
      exact .inr ⟨hworker.1, _, rfl⟩
    · obtain ⟨hempty, hnone⟩ := h.shut hclosed
      exact ⟨hempty, by rw [hnone]; rfl⟩

theorem Inv.step (h : Inv r) (op : Op β) : Inv (r.step op) := by
  cases op with
  | add i body => exact h.add i body
  | requestRepairs nacks => exact h.requestRepairs nacks
  | work task => exact h.work task
  | abort task =>
    rw [Responder.step]
    split
    case isTrue hclosed => exact h.abort hclosed task
    case isFalse => exact h
  | close => exact h.close

end Worker

theorem inv_new : Inv (.new : Responder size β) where
  history := rfl
  served := .nil
  tasks := .inl rfl
  order := List.nil_prefix
  wrote := List.nil_prefix
  opened _ := ⟨rfl, rfl, by simp [Responder.new], List.nodup_nil, Nat.zero_le _⟩
  worker _ := .inl ⟨rfl, rfl, rfl⟩
  shut _ := ⟨rfl, rfl⟩

theorem inv_run (ops : List (Op β)) : Inv (run Responder.step (.new : Responder size β) ops) :=
  run_invariant (fun _ op h ↦ h.step op) inv_new ops

theorem Ascending.of_append {more : List (Int × β)} (h : Ascending (writes ++ more)) :
    Ascending writes := by
  rw [Ascending, List.map_append, List.isChain_append] at h
  exact h.1

/-- Every repair is queued, and looked up again when it is served, by what is then among the last
packets sent. It is served in the order of the requests, by one worker, and no number waits
twice. -/
theorem repairs_serve_requests (ops : List (Op β))
    (h : Ascending (writesOf (run Responder.step (.new : Responder size β) ops).log)) :
    let r := run Responder.step (.new : Responder size β) ops
    (∀ before seq after, r.log = before ++ .queued seq :: after →
      (retained size (writesOf before) seq).isSome) ∧
    (∀ before seq packet after, r.log = before ++ .taken seq packet :: after →
      packet = retained size (writesOf before) seq) ∧
    (takenOf r.log).map Prod.fst <+: queuedOf r.log ∧
    resentOf r.log <+: (takenOf r.log).filterMap Prod.snd ∧
    r.tasks.length ≤ 1 ∧
    (r.closed = false → Opened r ∧ (r.repairs ≠ [] → r.tasks ≠ [])) ∧
    (r.closed = true → r.repairs = [] ∧ r.pendingRepairs = ∅) := by
  intro r
  have hr : Inv r := inv_run ops
  have hget : ∀ {before after : List (Event β)} {e : Event β} (seq : UInt16),
      r.log = before ++ e :: after →
      (sentHistory size (writesOf before)).get seq = retained size (writesOf before) seq := by
    intro before after e seq hlog
    refine get_sentHistory ?_ seq
    have hall : Ascending (writesOf r.log) := h
    rw [hlog, writesOf, List.filterMap_append] at hall
    exact hall.of_append
  refine ⟨?_, ?_, hr.order, (List.prefix_append _ _).trans hr.wrote, ?_, ?_, hr.shut⟩
  · intro before seq after hlog
    rw [← hget seq hlog]
    exact hr.served before _ after hlog
  · intro before seq packet after hlog
    rw [← hget seq hlog]
    exact hr.served before _ after hlog
  · rcases hr.tasks with hnone | ⟨t, hone⟩
    · simp [hnone]
    · simp [hone]
  · intro hopen
    refine ⟨hr.opened hopen, fun hrepairs ↦ ?_⟩
    rcases hr.worker hopen with ⟨-, -, hempty⟩ | ⟨-, t, hone⟩
    · exact absurd hempty hrepairs
    · simp [hone]

/-- Two numbers around the wrap are sent, and feedback names one of them twice, and one that was
never sent. -/
theorem missing_is_resent :
    let r := run Responder.step (.new : Responder ⟨4, ⟨2, rfl⟩, by decide⟩ Nat)
      [.add 65535 7, .add 65536 8, .requestRepairs [65535, 65535, 9], .work 0, .work 0]
    queuedOf r.log = [65535] ∧ resentOf r.log = [⟨65535, 7⟩] ∧
      (takenOf r.log).map Prod.fst <+: queuedOf r.log ∧ r.tasks.length ≤ 1 := by
  have h := @repairs_serve_requests ⟨4, ⟨2, rfl⟩, by decide⟩ Nat
    [.add 65535 7, .add 65536 8, .requestRepairs [65535, 65535, 9], .work 0, .work 0] (by decide)
  exact ⟨by decide, by decide, h.2.2.1, h.2.2.2.2.1⟩

/-- A worker that goes on serves what is queued. -/
theorem exists_drained {r : Responder size β} (hlooking : r.tasks = [.looking]) :
    ∃ n, let r' := run Responder.step r (List.replicate n (.work 0))
      r'.tasks = [] ∧ r'.repairs = [] ∧ r'.closed = r.closed ∧ queuedOf r'.log = queuedOf r.log ∧
        resentOf r'.log = resentOf r.log ++ r.repairs.filterMap r.history.get := by
  obtain ⟨repairs, hrepairs⟩ : ∃ repairs, r.repairs = repairs := ⟨_, rfl⟩
  induction repairs generalizing r with
  | nil =>
    refine ⟨1, ?_⟩
    rw [List.replicate_one, run_cons, run_nil, Responder.step, work_idle hlooking hrepairs]
    simp [hrepairs]
  | cons seq repairs ih =>
    have htake := work_take hlooking hrepairs
    have hresend := work_resend (r := r.work 0) (by rw [htake])
    have hrelease := work_release (r := (r.work 0).work 0) (by rw [hresend])
    obtain ⟨n, htasks, hempty, hclosed, hqueued, hresent⟩ :=
      ih (r := ((r.work 0).work 0).work 0) (by rw [hrelease]) (by rw [hrelease, hresend, htake])
    refine ⟨n + 3, htasks, hempty, hclosed.trans ?_, hqueued.trans ?_, hresent.trans ?_⟩
    · rw [hrelease, hresend, htake]
    · rw [hrelease, hresend, htake]
      cases r.history.get seq <;> simp [queuedOf, List.filterMap_cons, Event.queued?]
    · rw [hrelease, hresend, htake, hrepairs]
      cases hget : r.history.get seq <;>
        simp [resentOf, List.filterMap_cons, Event.resent?, hget]

/-- The packets a worker still has to write, if nothing is sent meanwhile. -/
def Responder.due (r : Responder size β) : List (Packet β) :=
  r.tasks.filterMap Stage.packet? ++ r.repairs.filterMap r.history.get

/-- An open responder serves all that is queued once its worker goes on undisturbed, and keeps
nothing pending. -/
theorem worker_serves_all (ops : List (Op β)) :
    let r := run Responder.step (.new : Responder size β) ops
    r.closed = false → ∃ n, let r' := run Responder.step r (List.replicate n (.work 0))
      r'.tasks = [] ∧ r'.repairs = [] ∧ r'.pendingRepairs = ∅ ∧
        (takenOf r'.log).map Prod.fst = queuedOf r.log ∧
        resentOf r'.log = resentOf r.log ++ r.due := by
  intro r hopen
  have hr : Inv r := inv_run ops
  -- what is in hand is written first, and then the queue is drained
  obtain ⟨n, htasks, hempty, hclosed, hqueued, hresent⟩ :
      ∃ n, let r' := run Responder.step r (List.replicate n (.work 0))
        r'.tasks = [] ∧ r'.repairs = [] ∧ r'.closed = r.closed ∧ queuedOf r'.log = queuedOf r.log ∧
          resentOf r'.log = resentOf r.log ++ r.due := by
    rcases hr.worker hopen with ⟨-, hnone, hempty⟩ | ⟨-, t, hone⟩
    · exact ⟨0, hnone, hempty, rfl, rfl, by simp [Responder.due, hnone, hempty, run_nil]⟩
    cases t with
    | looking =>
      obtain ⟨n, htasks, hempty, hclosed, hqueued, hresent⟩ := exists_drained hone
      refine ⟨n, htasks, hempty, hclosed, hqueued, ?_⟩
      simpa [Responder.due, hone, List.filterMap_cons, Stage.packet?] using hresent
    | written seq =>
      have hrelease := work_release hone
      obtain ⟨n, htasks, hempty, hclosed, hqueued, hresent⟩ :=
        exists_drained (r := r.work 0) (by rw [hrelease])
      refine ⟨n + 1, htasks, hempty, hclosed.trans ?_, hqueued.trans ?_, hresent.trans ?_⟩
      · rw [hrelease]
      · rw [hrelease]
      · rw [hrelease]
        simp [Responder.due, hone, List.filterMap_cons, Stage.packet?]
    | holding seq packet =>
      have hresend := work_resend hone
      have hrelease := work_release (r := r.work 0) (by rw [hresend])
      obtain ⟨n, htasks, hempty, hclosed, hqueued, hresent⟩ :=
        exists_drained (r := (r.work 0).work 0) (by rw [hrelease])
      refine ⟨n + 2, htasks, hempty, hclosed.trans ?_, hqueued.trans ?_, hresent.trans ?_⟩
      · rw [hrelease, hresend]
      · rw [hrelease, hresend]
        cases packet <;> simp [queuedOf, List.filterMap_cons, Event.queued?]
      · rw [hrelease, hresend]
        cases packet <;>
          simp [Responder.due, hone, resentOf, List.filterMap_cons, Event.resent?, Stage.packet?]
  have hr' : Inv (run Responder.step r (List.replicate n (.work 0))) :=
    run_invariant (fun _ op h ↦ h.step op) hr _
  have ho := hr'.opened (hclosed.trans hopen)
  refine ⟨n, htasks, hempty, ?_, ?_, hresent⟩
  · rw [Finset.eq_empty_iff_forall_notMem]
    intro seq hmem
    have hwaits := (ho.pending seq).mp hmem
    rw [htasks, hempty] at hwaits
    exact List.not_mem_nil hwaits
  · rw [← hqueued, ho.queue, hempty, List.append_nil]

theorem missing_is_served :
    let r := run Responder.step (.new : Responder ⟨4, ⟨2, rfl⟩, by decide⟩ Nat)
      [.add 65535 7, .add 65536 8, .requestRepairs [65535, 65536], .work 0]
    ∃ n, let r' := run Responder.step r (List.replicate n (.work 0))
      r'.tasks = [] ∧ r'.repairs = [] ∧ r'.pendingRepairs = ∅ ∧
        (takenOf r'.log).map Prod.fst = queuedOf r.log ∧
        resentOf r'.log = resentOf r.log ++ r.due :=
  worker_serves_all [.add 65535 7, .add 65536 8, .requestRepairs [65535, 65536], .work 0]
    (by decide)

end MyOwnMesh.Transport
