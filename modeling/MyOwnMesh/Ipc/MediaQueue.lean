import Mathlib.Algebra.BigOperators.Group.List.Basic
import Mathlib.Algebra.GroupWithZero.Nat
import MyOwnMesh.Lib.Replay
import MyOwnMesh.Lib.Tally

/-!
# The media handoff to the socket writer

`crates/myownmesh/src/ipc/media_queue.rs`. Bodies go through an unbounded channel whose content is
bounded by a budget behind a lock of its own. A send reserves under the lock and enters the channel
after it let go of the lock; the destructor of an item gives back what was reserved for it, wherever
the item ends. A step is what a thread does under the lock or with the channel.
-/

namespace MyOwnMesh.MediaQueue

open Lib Lib.Replay

/-- A body as it goes to the socket. -/
abbrev Bytes := List UInt8

/-- `media_queue.rs:10–15`. -/
structure Picture where
  peer : Bytes
  lane : UInt8
  timestamp : UInt32
  deriving DecidableEq, Hashable

/-- `control.rs:2401`. -/
def mediaKindVideo : UInt8 := 0

/-- `control.rs:2406`. -/
def mediaKindVideoDiscontinuity : UInt8 := 2

/-- `control.rs:2408`. -/
def maxMediaFrameBytes : Nat := 64 * 1024 * 1024

/-- `media_queue.rs:79`. -/
def maxQueuedSamples : Nat := 4096

/-- The picture a body belongs to, if it has the head of a video message; `media_queue.rs:17–31`. -/
def picture : Bytes → Option Picture
  | kind :: _ :: lane :: t0 :: t1 :: t2 :: t3 :: l0 :: l1 :: rest =>
    if kind = mediaKindVideo ∨ kind = mediaKindVideoDiscontinuity then
      let len := l0.toNat + 256 * l1.toNat
      if len ≤ rest.length then
        some {
          peer := rest.take len
          lane := lane
          timestamp := t0.toUInt32 ||| t1.toUInt32 <<< 8 ||| t2.toUInt32 <<< 16 |||
            t3.toUInt32 <<< 24 }
      else none
    else none
  | _ => none

/-- What is reserved; `media_queue.rs:33–39`. -/
structure Budget where
  pictures : Std.ExtHashMap Picture Nat
  other : Nat
  bytes : Nat
  items : Nat

/-- An item; `media_queue.rs:41–47`. The number of the `try_send` that made it is bookkeeping. -/
structure Item where
  call : Nat
  body : Bytes
  picture : Option Picture
  bytes : Nat
  deriving DecidableEq

/-- What all clones of a sender are built with; `media_queue.rs:66–73`. -/
structure Limits where
  capacity : Nat
  otherCapacity : Nat
  byteCapacity : Nat
  capacity_pos : 0 < capacity
  otherCapacity_pos : 0 < otherCapacity
  otherCapacity_le : otherCapacity ≤ capacity
  byteCapacity_pos : 0 < byteCapacity

/-- `media_queue.rs:96–110`. -/
def channelWithBytes (capacity byteCapacity : Nat) : Option Limits :=
  if h : 0 < capacity ∧ 0 < byteCapacity then
    some ⟨capacity, capacity, byteCapacity, h.1, h.1, Nat.le_refl capacity, h.2⟩
  else none

/-- `media_queue.rs:81–85`. -/
def channel (capacity : Nat) : Option Limits := channelWithBytes capacity maxMediaFrameBytes

/-- `media_queue.rs:89–94`. -/
def channelWithOtherCapacity (capacity otherCapacity : Nat) : Option Limits :=
  if h : 0 < otherCapacity ∧ otherCapacity ≤ capacity then
    some ⟨capacity, otherCapacity, maxMediaFrameBytes, Nat.lt_of_lt_of_le h.1 h.2, h.1, h.2,
      by decide⟩
  else none

/-- The ways a thread can panic here. -/
inductive Panic where
  | underflow
  | reservedPicture
  deriving DecidableEq, Repr

/-- The four limits; `media_queue.rs:120–128`. -/
def Budget.admits (l : Limits) (b : Budget) (picture : Option Picture) (length : Nat) : Bool :=
  let known := picture.any b.pictures.contains
  !((!known && decide (b.pictures.size + b.other ≥ l.capacity)) ||
    (picture.isNone && decide (b.other ≥ l.otherCapacity)) ||
    decide (length > l.byteCapacity - b.bytes) || decide (b.items ≥ maxQueuedSamples))

/-- `media_queue.rs:131–137`. -/
def Budget.reserve (b : Budget) (picture : Option Picture) (length : Nat) : Budget :=
  let counted := { b with bytes := b.bytes + length, items := b.items + 1 }
  match picture with
  | some p => { counted with pictures := Tally.add b.pictures p }
  | none => { counted with other := b.other + 1 }

/-- The destructor of an item; `media_queue.rs:49–64`. -/
def Budget.release (b : Budget) (item : Item) : Except Panic Budget :=
  if b.bytes < item.bytes ∨ b.items < 1 then .error .underflow
  else
    let counted := { b with bytes := b.bytes - item.bytes, items := b.items - 1 }
    match item.picture with
    | some p =>
      match Tally.remove b.pictures p with
      | some pictures => .ok { counted with pictures := pictures }
      | none => .error .reservedPicture
    | none =>
      if b.other < 1 then .error .underflow else .ok { counted with other := b.other - 1 }

/-- The free slots; `media_queue.rs:155–158`. -/
def Budget.capacity (l : Limits) (b : Budget) : Except Panic Nat :=
  if l.capacity < b.pictures.size + b.other then .error .underflow
  else .ok (l.capacity - b.pictures.size - b.other)

/-- The budget, the channel and where the bodies are: with a sender that found the channel open,
reserved and about to enter the channel, in the channel, and out of it with the destructor still to
run. The last four fields are what happened so far, in order: which bodies were admitted, entered
the channel, were received, and were left behind by the receiver. -/
structure Handoff where
  budget : Budget
  closed : Bool
  calls : Nat
  checked : List (Nat × Bytes)
  sending : List Item
  queue : List Item
  leaving : List Item
  admitted : List (Nat × Bytes)
  entered : List (Nat × Bytes)
  received : List (Nat × Bytes)
  drained : List (Nat × Bytes)

/-- A fresh channel. -/
def Handoff.start : Handoff := ⟨⟨∅, 0, 0, 0⟩, false, 0, [], [], [], [], [], [], [], []⟩

/-- What the threads do. -/
inductive Op where
  /-- `try_send` asks whether the channel is closed. -/
  | trySend (body : Bytes)
  /-- A checked `try_send` takes the lock. -/
  | reserve (i : Nat)
  /-- A reserved item enters the channel, or is handed back. `late` is a send that the channel took
  before its receiver went and that arrives after. -/
  | send (i : Nat) (late : Bool)
  | recv
  | dropReceiver
  /-- A dropped receiver clears the channel. -/
  | drain
  /-- The destructor of an item runs. -/
  | release (i : Nat)
  | capacity

/-- A body leaves the channel; `std::mem::take`. -/
def Item.emptied (item : Item) : Item := { item with body := [] }

/-- One step of one thread. -/
def step (l : Limits) (s : Handoff) : Op → Except Panic Handoff
  | .trySend body =>
    if s.closed then .ok { s with calls := s.calls + 1 }
    else .ok { s with calls := s.calls + 1, checked := s.checked ++ [(s.calls, body)] }
  | .reserve i =>
    match s.checked[i]? with
    | none => .ok s
    | some (call, body) =>
      let seen := { s with checked := s.checked.eraseIdx i }
      if s.budget.admits l (picture body) body.length then
        .ok { seen with
          budget := s.budget.reserve (picture body) body.length
          sending := s.sending ++ [⟨call, body, picture body, body.length⟩]
          admitted := s.admitted ++ [(call, body)] }
      else .ok seen
  | .send i late =>
    match s.sending[i]? with
    | none => .ok s
    | some item =>
      if s.closed && !late then
        .ok { s with
          sending := s.sending.eraseIdx i
          leaving := s.leaving ++ [item.emptied] }
      else
        .ok { s with
          sending := s.sending.eraseIdx i
          queue := s.queue ++ [item]
          entered := s.entered ++ [(item.call, item.body)] }
  | .recv =>
    match s.queue with
    | [] => .ok s
    | item :: rest =>
      if s.closed then .ok s
      else
        .ok { s with
          queue := rest
          leaving := s.leaving ++ [item.emptied]
          received := s.received ++ [(item.call, item.body)] }
  | .dropReceiver => .ok { s with closed := true }
  | .drain =>
    match s.queue with
    | [] => .ok s
    | item :: rest =>
      if s.closed then
        .ok { s with
          queue := rest
          leaving := s.leaving ++ [item]
          drained := s.drained ++ [(item.call, item.body)] }
      else .ok s
  | .release i =>
    match s.leaving[i]? with
    | none => .ok s
    | some item =>
      match s.budget.release item with
      | .error e => .error e
      | .ok budget => .ok { s with budget := budget, leaving := s.leaving.eraseIdx i }
  | .capacity =>
    match s.budget.capacity l with
    | .error e => .error e
    | .ok _ => .ok s

/-! ### The books -/

/-- What an item costs: the slot it shares or takes for itself, and its bytes. -/
def Item.charge (item : Item) : Option Picture × Nat := (item.picture, item.bytes)

/-- The number and the body of an item. -/
def Item.entry (item : Item) : Nat × Bytes := (item.call, item.body)

/-- The items between their reservation and their destructor. -/
def Handoff.live (s : Handoff) : List Item := s.sending ++ s.queue ++ s.leaving

/-- The four counters are the totals over some charges. -/
structure Budget.Accounts (b : Budget) (charges : List (Option Picture × Nat)) : Prop where
  bytes : b.bytes = (charges.map Prod.snd).sum
  items : b.items = charges.length
  other : b.other = charges.countP (·.1.isNone)
  pictures : Tally.Counts b.pictures (charges.filterMap Prod.fst)

/-- The four limits are kept. -/
structure Budget.Bounded (l : Limits) (b : Budget) : Prop where
  slots : b.pictures.size + b.other ≤ l.capacity
  other : b.other ≤ l.otherCapacity
  bytes : b.bytes ≤ l.byteCapacity
  items : b.items ≤ maxQueuedSamples

section Books

variable {l : Limits} {b : Budget} {charges more : List (Option Picture × Nat)}

theorem Budget.Accounts.perm (h : b.Accounts charges) (hperm : charges.Perm more) :
    b.Accounts more where
  bytes := h.bytes.trans (hperm.map Prod.snd).sum_eq
  items := h.items.trans hperm.length_eq
  other := h.other.trans (hperm.countP_eq _)
  pictures := h.pictures.perm (hperm.filterMap Prod.fst)

/-- A reservation is one charge more. -/
theorem Budget.Accounts.reserve (h : b.Accounts charges) (picture : Option Picture)
    (length : Nat) : (b.reserve picture length).Accounts ((picture, length) :: charges) := by
  have hbytes := h.bytes
  have hitems := h.items
  have hother := h.other
  cases picture with
  | none =>
    refine ⟨?_, ?_, ?_, h.pictures⟩
    · simp [Budget.reserve, hbytes, Nat.add_comm]
    · simp [Budget.reserve, hitems]
    · simp [Budget.reserve, hother]
  | some p =>
    refine ⟨?_, ?_, ?_, h.pictures.add p⟩
    · simp [Budget.reserve, hbytes, Nat.add_comm]
    · simp [Budget.reserve, hitems]
    · simp [Budget.reserve, hother]

/-- What is charged can be given back. -/
theorem Budget.Accounts.release {item : Item} (h : b.Accounts (item.charge :: charges)) :
    ∃ b', b.release item = .ok b' ∧ b'.Accounts charges ∧ (b.Bounded l → b'.Bounded l) := by
  have hbytes : b.bytes = item.bytes + (charges.map Prod.snd).sum := by
    rw [h.bytes, List.map_cons, List.sum_cons]
    rfl
  have hitems : b.items = charges.length + 1 := by rw [h.items, List.length_cons]
  have hfits : ¬ (b.bytes < item.bytes ∨ b.items < 1) := by omega
  have hother := h.other
  have hpictures := h.pictures
  rw [Budget.release, if_neg hfits]
  cases hp : item.picture with
  | none =>
    simp only [Item.charge, hp, List.countP_cons, List.filterMap_cons, Option.isNone_none,
      ↓reduceIte] at hother hpictures
    simp only
    rw [if_neg (by omega)]
    refine ⟨_, rfl, ⟨?_, ?_, ?_, hpictures⟩, fun hb ↦ ⟨?_, ?_, ?_, ?_⟩⟩
    · show b.bytes - item.bytes = _
      omega
    · show b.items - 1 = _
      omega
    · show b.other - 1 = _
      omega
    · have := hb.slots
      show b.pictures.size + (b.other - 1) ≤ _
      omega
    · exact Nat.le_trans (Nat.sub_le _ _) hb.other
    · exact Nat.le_trans (Nat.sub_le _ _) hb.bytes
    · exact Nat.le_trans (Nat.sub_le _ _) hb.items
  | some p =>
    simp only [Item.charge, hp, List.countP_cons, List.filterMap_cons, Option.isNone_some,
      Bool.false_eq_true, ↓reduceIte, Nat.add_zero] at hother hpictures
    obtain ⟨pictures, hremove, hcounts⟩ := hpictures.remove
    simp only [hremove]
    refine ⟨_, rfl, ⟨?_, ?_, hother, hcounts⟩, fun hb ↦ ⟨?_, hb.other, ?_, ?_⟩⟩
    · show b.bytes - item.bytes = _
      omega
    · show b.items - 1 = _
      omega
    · exact Nat.le_trans (Nat.add_le_add_right (Tally.size_remove_le hremove) b.other) hb.slots
    · exact Nat.le_trans (Nat.sub_le _ _) hb.bytes
    · exact Nat.le_trans (Nat.sub_le _ _) hb.items

/-- An admitted reservation keeps the limits. -/
theorem Budget.Bounded.reserve (hb : b.Bounded l) {picture : Option Picture} {length : Nat}
    (h : b.admits l picture length = true) : (b.reserve picture length).Bounded l := by
  have hbytes := hb.bytes
  cases picture with
  | none =>
    have hadmits : (b.pictures.size + b.other < l.capacity ∧ b.other < l.otherCapacity) ∧
        length ≤ l.byteCapacity - b.bytes ∧ b.items < maxQueuedSamples := by
      simpa [Budget.admits, and_assoc] using h
    obtain ⟨⟨hslots, hother⟩, hroom, hitems⟩ := hadmits
    refine ⟨?_, hother, ?_, hitems⟩
    · show b.pictures.size + (b.other + 1) ≤ l.capacity
      omega
    · show b.bytes + length ≤ l.byteCapacity
      omega
  | some p =>
    have hadmits : (b.pictures.contains p = true ∨ b.pictures.size + b.other < l.capacity) ∧
        length ≤ l.byteCapacity - b.bytes ∧ b.items < maxQueuedSamples := by
      simpa [Budget.admits, and_assoc] using h
    obtain ⟨hslots, hroom, hitems⟩ := hadmits
    refine ⟨?_, hb.other, ?_, hitems⟩
    · show (Tally.add b.pictures p).size + b.other ≤ l.capacity
      rw [Tally.size_add]
      split
      · exact hb.slots
      · next hnew =>
        have := hslots.resolve_left fun hk ↦ hnew (Std.ExtHashMap.mem_iff_contains.mpr hk)
        omega
    · show b.bytes + length ≤ l.byteCapacity
      omega

end Books

/-! ### Runs -/

/-- The invariant: the budget is that of the live items and within the limits, an item is charged
what the body it was made with costs, and the channel is first in, first out. -/
structure Handoff.Kept (l : Limits) (s : Handoff) : Prop where
  accounts : s.budget.Accounts (s.live.map Item.charge)
  bounded : s.budget.Bounded l
  whole : ∀ item ∈ s.sending ++ s.queue, item.charge = (picture item.body, item.body.length)
  charged : ∀ item ∈ s.leaving, ∃ body, (item.call, body) ∈ s.admitted ∧
    item.charge = (picture body, body.length)
  order : s.entered = s.received ++ s.drained ++ s.queue.map Item.entry
  open_ : s.closed = false → s.drained = []
  known : ∀ x ∈ s.sending.map Item.entry ++ s.entered, x ∈ s.admitted

theorem kept_start (l : Limits) : Handoff.start.Kept l where
  accounts := ⟨rfl, rfl, rfl, Tally.counts_empty⟩
  bounded := ⟨Nat.zero_le _, Nat.zero_le _, Nat.zero_le _, Nat.zero_le _⟩
  whole := nofun
  charged := nofun
  order := rfl
  open_ _ := rfl
  known := nofun

section Steps

variable {l : Limits} {s : Handoff}

private theorem Handoff.Kept.reserve (h : s.Kept l) (i : Nat) :
    ∃ s', step l s (.reserve i) = .ok s' ∧ s'.Kept l := by
  simp only [step]
  cases hi : s.checked[i]? with
  | none => exact ⟨s, rfl, h⟩
  | some entry =>
    obtain ⟨call, body⟩ := entry
    simp only
    split
    · next hadmits =>
      refine ⟨_, rfl, ?_, h.bounded.reserve hadmits, ?_, ?_, h.order, h.open_, ?_⟩
      · refine (h.accounts.reserve (picture body) body.length).perm ?_
        simp only [Handoff.live, List.map_append, List.map_cons, List.append_assoc,
          List.singleton_append]
        exact List.perm_middle.symm
      · intro item hitem
        simp only [List.mem_append, List.mem_singleton] at hitem
        rcases hitem with (hold | rfl) | hold
        · exact h.whole item (List.mem_append_left _ hold)
        · rfl
        · exact h.whole item (List.mem_append_right _ hold)
      · intro item hitem
        obtain ⟨made, hmade, hcharge⟩ := h.charged item hitem
        exact ⟨made, List.mem_append_left _ hmade, hcharge⟩
      · intro x hx
        simp only [List.map_append, List.mem_append, List.map_cons, List.map_nil,
          List.mem_singleton] at hx ⊢
        rcases hx with (hold | rfl) | hold
        · exact .inl (h.known x (List.mem_append_left _ hold))
        · exact .inr rfl
        · exact .inl (h.known x (List.mem_append_right _ hold))
    · exact ⟨_, rfl, h.accounts, h.bounded, h.whole, h.charged, h.order, h.open_, h.known⟩

/-- An item that leaves keeps its charge. -/
private theorem Handoff.Kept.charged_snoc (h : s.Kept l) {item : Item}
    (hwhole : item ∈ s.sending ++ s.queue) (hknown : item.entry ∈ s.admitted) {left : Item}
    (hcall : left.call = item.call) (hcharge : left.charge = item.charge) :
    ∀ x ∈ s.leaving ++ [left], ∃ body, (x.call, body) ∈ s.admitted ∧
      x.charge = (picture body, body.length) := by
  intro x hx
  rcases List.mem_append.mp hx with hold | hnew
  · exact h.charged x hold
  · rw [List.mem_singleton.mp hnew, hcall, hcharge, h.whole item hwhole]
    exact ⟨item.body, hknown, rfl⟩

/-- What is in the channel was admitted. -/
private theorem Handoff.Kept.admitted_of_queue (h : s.Kept l) {item : Item}
    (hitem : item ∈ s.queue) : item.entry ∈ s.admitted := by
  refine h.known item.entry (List.mem_append_right _ ?_)
  rw [h.order]
  exact List.mem_append_right _ (List.mem_map_of_mem hitem)

/-- Taking an item out of those about to enter leaves it and the others. -/
private theorem perm_eraseIdx {items : List Item} {i : Nat} {item : Item}
    (h : items[i]? = some item) : items.Perm (item :: items.eraseIdx i) := by
  obtain ⟨hlt, rfl⟩ := List.getElem?_eq_some_iff.mp h
  exact (List.getElem_cons_eraseIdx_perm hlt).symm

private theorem Handoff.Kept.send (h : s.Kept l) (i : Nat) (late : Bool) :
    ∃ s', step l s (.send i late) = .ok s' ∧ s'.Kept l := by
  simp only [step]
  cases hi : s.sending[i]? with
  | none => exact ⟨s, rfl, h⟩
  | some item =>
    have hperm := perm_eraseIdx hi
    have hmem : item ∈ s.sending := List.mem_of_getElem? hi
    have hrest : ∀ x ∈ s.sending.eraseIdx i, x ∈ s.sending := fun x hx ↦
      List.mem_of_mem_eraseIdx hx
    simp only
    split
    · refine ⟨_, rfl, ?_, h.bounded, ?_, ?_, h.order, h.open_, ?_⟩
      · refine h.accounts.perm (List.perm_iff_count.mpr fun a ↦ ?_)
        have hcount := (hperm.map Item.charge).count_eq a
        have hsame : item.emptied.charge = item.charge := rfl
        simp only [Handoff.live, List.map_append, List.map_cons, List.map_nil, List.count_append,
          List.count_cons, List.count_nil, hsame] at hcount ⊢
        omega
      · intro x hx
        rcases List.mem_append.mp hx with hx | hx
        · exact h.whole x (List.mem_append_left _ (hrest x hx))
        · exact h.whole x (List.mem_append_right _ hx)
      · exact h.charged_snoc (List.mem_append_left _ hmem)
          (h.known _ (List.mem_append_left _ (List.mem_map_of_mem hmem))) rfl rfl
      · intro x hx
        rcases List.mem_append.mp hx with hx | hx
        · obtain ⟨y, hy, rfl⟩ := List.mem_map.mp hx
          exact h.known _ (List.mem_append_left _ (List.mem_map_of_mem (hrest y hy)))
        · exact h.known x (List.mem_append_right _ hx)
    · refine ⟨_, rfl, ?_, h.bounded, ?_, h.charged, ?_, h.open_, ?_⟩
      · refine h.accounts.perm (List.perm_iff_count.mpr fun a ↦ ?_)
        have hcount := (hperm.map Item.charge).count_eq a
        simp only [Handoff.live, List.map_append, List.map_cons, List.map_nil, List.count_append,
          List.count_cons, List.count_nil] at hcount ⊢
        omega
      · intro x hx
        simp only [List.mem_append, List.mem_singleton] at hx
        rcases hx with hx | hx | rfl
        · exact h.whole x (List.mem_append_left _ (hrest x hx))
        · exact h.whole x (List.mem_append_right _ hx)
        · exact h.whole x (List.mem_append_left _ hmem)
      · show s.entered ++ [(item.call, item.body)] = _
        rw [h.order, List.map_append, List.append_assoc]
        rfl
      · intro x hx
        simp only [List.mem_append, List.mem_singleton] at hx
        rcases hx with hx | hx | rfl
        · obtain ⟨y, hy, rfl⟩ := List.mem_map.mp hx
          exact h.known _ (List.mem_append_left _ (List.mem_map_of_mem (hrest y hy)))
        · exact h.known x (List.mem_append_right _ hx)
        · exact h.known _ (List.mem_append_left _ (List.mem_map_of_mem hmem))

/-- The first item of the channel leaves it, with its charge: it is handed over or let go. -/
private theorem Handoff.Kept.takeFirst (h : s.Kept l) {item : Item} {rest : List Item}
    (hq : s.queue = item :: rest) (left : Item) (hcall : left.call = item.call)
    (hcharge : left.charge = item.charge) {received drained : List (Nat × List UInt8)}
    (horder : s.entered = received ++ drained ++ rest.map Item.entry)
    (hopen : s.closed = false → drained = []) :
    Handoff.Kept l { s with
      queue := rest
      leaving := s.leaving ++ [left]
      received := received
      drained := drained } := by
  have hmem : item ∈ s.queue := by rw [hq]; exact List.mem_cons_self
  refine ⟨?_, h.bounded, ?_, ?_, horder, hopen, h.known⟩
  · refine h.accounts.perm (List.perm_iff_count.mpr fun a ↦ ?_)
    simp only [Handoff.live, hq, List.map_append, List.map_cons, List.map_nil,
      List.count_append, List.count_cons, List.count_nil, hcharge]
    omega
  · intro x hx
    refine h.whole x ?_
    rw [hq]
    rcases List.mem_append.mp hx with hx | hx
    · exact List.mem_append_left _ hx
    · exact List.mem_append_right _ (List.mem_cons_of_mem _ hx)
  · exact h.charged_snoc (List.mem_append_right _ hmem) (h.admitted_of_queue hmem) hcall hcharge

private theorem Handoff.Kept.recv (h : s.Kept l) :
    ∃ s', step l s .recv = .ok s' ∧ s'.Kept l := by
  simp only [step]
  cases hq : s.queue with
  | nil => exact ⟨s, rfl, h⟩
  | cons item rest =>
    simp only
    split
    · exact ⟨s, rfl, h⟩
    · next hopen =>
      have hnone : s.drained = [] := h.open_ (by simpa using hopen)
      refine ⟨_, rfl, h.takeFirst hq item.emptied rfl rfl ?_ h.open_⟩
      have horder := h.order
      rw [hq, hnone, List.append_nil, List.map_cons] at horder
      rw [horder, hnone, List.append_nil, List.append_assoc]
      rfl

private theorem Handoff.Kept.drain (h : s.Kept l) :
    ∃ s', step l s .drain = .ok s' ∧ s'.Kept l := by
  simp only [step]
  cases hq : s.queue with
  | nil => exact ⟨s, rfl, h⟩
  | cons item rest =>
    simp only
    split
    · next hclosed =>
      refine ⟨_, rfl, h.takeFirst hq item rfl rfl ?_ fun hopen ↦ ?_⟩
      · have horder := h.order
        rw [hq, List.map_cons] at horder
        rw [horder, List.append_assoc, List.append_assoc, List.append_assoc]
        rfl
      · rw [hclosed] at hopen
        cases hopen
    · exact ⟨s, rfl, h⟩

private theorem Handoff.Kept.release (h : s.Kept l) (i : Nat) :
    ∃ s', step l s (.release i) = .ok s' ∧ s'.Kept l := by
  simp only [step]
  cases hi : s.leaving[i]? with
  | none => exact ⟨s, rfl, h⟩
  | some item =>
    have hperm := perm_eraseIdx hi
    have hcharged : s.budget.Accounts (item.charge ::
        (s.sending ++ s.queue ++ s.leaving.eraseIdx i).map Item.charge) := by
      refine h.accounts.perm (List.perm_iff_count.mpr fun a ↦ ?_)
      have hcount := (hperm.map Item.charge).count_eq a
      simp only [Handoff.live, List.map_append, List.map_cons, List.count_append,
        List.count_cons] at hcount ⊢
      omega
    obtain ⟨budget, hrelease, haccounts, hbounded⟩ := hcharged.release (l := l)
    simp only [hrelease]
    exact ⟨_, rfl, haccounts, hbounded h.bounded, h.whole,
      fun x hx ↦ h.charged x (List.mem_of_mem_eraseIdx hx), h.order, h.open_, h.known⟩

/-- No step panics, and each keeps the invariant. -/
theorem Handoff.Kept.step (h : s.Kept l) (o : Op) : ∃ s', step l s o = .ok s' ∧ s'.Kept l := by
  cases o with
  | trySend body =>
    simp only [MediaQueue.step]
    split
    · exact ⟨_, rfl, h.accounts, h.bounded, h.whole, h.charged, h.order, h.open_, h.known⟩
    · exact ⟨_, rfl, h.accounts, h.bounded, h.whole, h.charged, h.order, h.open_, h.known⟩
  | reserve i => exact h.reserve i
  | send i late => exact h.send i late
  | recv => exact h.recv
  | dropReceiver =>
    exact ⟨_, rfl, h.accounts, h.bounded, h.whole, h.charged, h.order, nofun, h.known⟩
  | drain => exact h.drain
  | release i => exact h.release i
  | capacity =>
    have hslots := h.bounded.slots
    refine ⟨s, ?_, h⟩
    simp only [MediaQueue.step, Budget.capacity]
    rw [if_neg (by omega)]

/-- What a step cannot do: take back an entry into the channel, or change the budget without an
admission or a destructor. -/
private theorem step_frame {s' : Handoff} {o : Op} (h : step l s o = .ok s') :
    s.entered <+: s'.entered ∧
      (s'.budget = s.budget ∨ s'.admitted.length = s.admitted.length + 1 ∨
        ∃ i, o = .release i) := by
  have hrefl : s.entered <+: s.entered := List.prefix_refl _
  cases o with
  | trySend body =>
    simp only [step] at h
    split at h
    · cases h
      exact ⟨hrefl, .inl rfl⟩
    · cases h
      exact ⟨hrefl, .inl rfl⟩
  | reserve i =>
    simp only [step] at h
    split at h
    · cases h
      exact ⟨hrefl, .inl rfl⟩
    · split at h
      · cases h
        exact ⟨hrefl, .inr (.inl (by simp))⟩
      · cases h
        exact ⟨hrefl, .inl rfl⟩
  | send i late =>
    simp only [step] at h
    split at h
    · cases h
      exact ⟨hrefl, .inl rfl⟩
    · split at h
      · cases h
        exact ⟨hrefl, .inl rfl⟩
      · cases h
        exact ⟨List.prefix_append _ _, .inl rfl⟩
  | recv =>
    simp only [step] at h
    split at h
    · cases h
      exact ⟨hrefl, .inl rfl⟩
    · split at h
      · cases h
        exact ⟨hrefl, .inl rfl⟩
      · cases h
        exact ⟨hrefl, .inl rfl⟩
  | dropReceiver =>
    cases h
    exact ⟨hrefl, .inl rfl⟩
  | drain =>
    simp only [step] at h
    split at h
    · cases h
      exact ⟨hrefl, .inl rfl⟩
    · split at h
      · cases h
        exact ⟨hrefl, .inl rfl⟩
      · cases h
        exact ⟨hrefl, .inl rfl⟩
  | release i =>
    simp only [step] at h
    split at h
    · cases h
      exact ⟨hrefl, .inl rfl⟩
    · split at h
      · cases h
      · cases h
        exact ⟨hrefl, .inr (.inr ⟨i, rfl⟩)⟩
  | capacity =>
    simp only [step] at h
    split at h
    · cases h
    · cases h
      exact ⟨hrefl, .inl rfl⟩

end Steps

/-- Every run of the threads goes through without a panic. The budget is the total over the items
between reservation and destructor and keeps its limits, only an admission and a destructor change
it, and bodies are received as they were admitted, in the order in which they entered the channel:
what had entered at some time comes before what enters later. -/
theorem budget_never_drifts (l : Limits) (ops : List Op) :
    ∃ s, replay (step l) Handoff.start ops = .ok s ∧
      s.budget.Accounts (s.live.map Item.charge) ∧ s.budget.Bounded l ∧
      (∀ item ∈ s.live, ∃ body, (item.call, body) ∈ s.admitted ∧
        item.charge = (picture body, body.length)) ∧
      (∃ free, s.budget.capacity l = .ok free) ∧
      s.received <+: s.entered ∧ (∀ x ∈ s.entered, x ∈ s.admitted) ∧
      (∀ before after m, ops = before ++ after → replay (step l) Handoff.start before = .ok m →
        m.entered <+: s.entered) ∧
      ∀ o s', step l s o = .ok s' → s'.budget = s.budget ∨
        s'.admitted.length = s.admitted.length + 1 ∨ ∃ i, o = .release i := by
  obtain ⟨s, hrun, h⟩ := replay_total (I := Handoff.Kept l) (fun _ o h ↦ h.step o)
    (kept_start l) ops
  refine ⟨s, hrun, h.accounts, h.bounded, ?_, ?_, ?_, ?_, ?_, fun o s' ho ↦ (step_frame ho).2⟩
  · intro item hitem
    rcases List.mem_append.mp hitem with hin | hout
    · refine ⟨item.body, ?_, h.whole item hin⟩
      rcases List.mem_append.mp hin with hsending | hqueue
      · exact h.known _ (List.mem_append_left _ (List.mem_map_of_mem hsending))
      · exact h.admitted_of_queue hqueue
    · exact h.charged item hout
  · have hslots := h.bounded.slots
    refine ⟨l.capacity - s.budget.pictures.size - s.budget.other, ?_⟩
    rw [Budget.capacity, if_neg (by omega)]
  · rw [h.order, List.append_assoc]
    exact List.prefix_append _ _
  · exact fun x hx ↦ h.known x (List.mem_append_right _ hx)
  · intro before after m hops hm
    rw [hops, replay_append_ok_iff] at hrun
    obtain ⟨m', hm', hafter⟩ := hrun
    rw [hm] at hm'
    cases hm'
    exact replay_invariant (I := fun u ↦ m.entered <+: u.entered)
      (fun _ _ _ _ ha hb ↦ ha.trans (step_frame hb).1) (List.prefix_refl _) hafter

/-- Two bodies that are no video. -/
def twoAudio : List Op :=
  [.trySend [1], .trySend [1, 1], .reserve 0, .reserve 0, .send 1 false, .send 0 false, .recv,
    .recv]

/-- Two overlapping sends: the body that was admitted second enters the channel first and is
received first. -/
theorem admitted_first_received_last :
    ∃ l, channel 8 = some l ∧ ∃ s, replay (step l) Handoff.start twoAudio = .ok s ∧
      s.admitted = [(0, [1]), (1, [1, 1])] ∧ s.received = [(1, [1, 1]), (0, [1])] := by
  refine ⟨_, rfl, _, rfl, rfl, rfl⟩

end MyOwnMesh.MediaQueue
