import Mathlib.Algebra.BigOperators.Group.List.Basic
import Mathlib.Algebra.GroupWithZero.Nat
import MyOwnMesh.Lib.Replay
import MyOwnMesh.Lib.RingStore

/-!
# The packet buffer under the transports

`vendor/webrtc-util/src/buffer/mod.rs`, with the count of refused packets that the checked-in copy
adds. The packets lie in a ring of bytes, each behind its length in two bytes. The ring grows when a
packet does not fit, up to a limit. An operation is what is done under the lock; a read that finds
nothing waits and looks again. The limit on bytes stays as it was made: only tests of the vendored
crate call `set_limit_size`.
-/

namespace MyOwnMesh.PacketBuffer

open Lib Lib.Replay

def minSize : Nat := 2048

def cutoffSize : Nat := 128 * 1024

def maxSize : Nat := 4 * 1024 * 1024

inductive Error where
  | packetTooBig
  | bufferClosed
  | bufferFull
  deriving DecidableEq, Repr

/-- What a read comes to. A packet that is longer than the reader's slice is cut off. -/
inductive Got where
  | packet (bytes : List UInt8)
  | short (bytes : List UInt8)
  | closed
  | waits
  deriving DecidableEq, Repr

inductive Op where
  | write (packet : List UInt8)
  | read (length : Nat)
  | close
  | setLimitCount (limit : Nat)

inductive Reply where
  | wrote (result : Except Error Nat)
  | got (result : Got)
  | done

/-! ### The ring of bytes -/

/-- `buffer/mod.rs:20–34`. -/
structure BufferInternal where
  data : List UInt8
  head : Nat
  tail : Nat
  closed : Bool
  subs : Bool
  count : Nat
  limitCount : Nat
  limitSize : Nat
  drops : Nat

namespace BufferInternal

/-- `buffer/mod.rs:130–149`. -/
def new (limitCount limitSize : Nat) : BufferInternal :=
  ⟨[], 0, 0, false, false, 0, limitCount, limitSize, 0⟩

variable (b : BufferInternal)

def size : Nat := RingStore.size b.data.length b.head b.tail

/-- `head = tail` means empty, so a byte is always kept free. -/
def available (size : Nat) : Bool :=
  decide (size + 2 < RingStore.room b.data.length b.head b.tail)

/-- `buffer/mod.rs:70–86`. -/
def newSize : Nat :=
  let newSize := if b.data.length < cutoffSize then 2 * b.data.length else 5 * b.data.length / 4
  let newSize := if newSize < minSize then minSize else newSize
  let newSize := if b.limitSize = 0 ∧ maxSize < newSize then maxSize else newSize
  if 0 < b.limitSize ∧ b.limitSize + 1 < newSize then b.limitSize + 1 else newSize

/-- `buffer/mod.rs:69–111`. -/
def grow : Option BufferInternal :=
  if b.newSize ≤ b.data.length then none
  else
    let packets := RingStore.unroll b.data b.head b.tail
    some { b with
      data := packets ++ List.replicate (b.newSize - packets.length) 0
      head := 0
      tail := packets.length }

/-- How far the ring may grow. -/
def limit : Nat := if b.limitSize = 0 then maxSize else b.limitSize + 1

theorem newSize_le : b.newSize ≤ b.limit := by
  have hmin : minSize = 2048 := rfl
  have hmax : maxSize = 4194304 := rfl
  simp only [newSize, limit]
  split_ifs <;> omega

theorem lt_newSize (h : b.data.length < b.limit) : b.data.length < b.newSize := by
  have hmin : minSize = 2048 := rfl
  have hcutoff : cutoffSize = 131072 := rfl
  simp only [newSize, limit] at h ⊢
  split_ifs at h ⊢ <;> omega

theorem lt_of_grow {b b' : BufferInternal} (h : b.grow = some b') :
    b.data.length < b'.data.length ∧ b.data.length < b.limit ∧ b'.limit = b.limit := by
  have hle := b.newSize_le
  unfold grow at h
  split at h
  · cases h
  · cases h
    refine ⟨?_, by omega, rfl⟩
    simp only [List.length_append, List.length_replicate]
    omega

/-- The ring grows until the packet fits; `buffer/mod.rs:173–179`. -/
def makeRoom (b : BufferInternal) (size : Nat) : BufferInternal × Bool :=
  if b.available size then (b, true)
  else
    match _ : b.grow with
    | none => (b, false)
    | some b' => makeRoom b' size
termination_by b.limit - b.data.length
decreasing_by
  obtain ⟨hlt, hroom, hlimit⟩ := lt_of_grow ‹b.grow = some b'›
  omega

def putByte (data : List UInt8) (tail : Nat) (byte : UInt8) : List UInt8 × Nat :=
  (data.set tail byte, if data.length ≤ tail + 1 then 0 else tail + 1)

/-- `buffer/mod.rs:181–208`. -/
def store (packet : List UInt8) : BufferInternal :=
  let (data, tail) := putByte b.data b.tail (UInt8.ofNat (packet.length >>> 8))
  let (data, tail) := putByte data tail (UInt8.ofNat packet.length)
  let (data, tail) := RingStore.put data tail packet
  { b with data := data, tail := tail, count := b.count + 1 }

/-- `buffer/mod.rs:39–54`. -/
def reportFull : BufferInternal := { b with drops := b.drops + 1 }

/-- With the result, whether a reader is notified; `buffer/mod.rs:155–217`. -/
def write (packet : List UInt8) : BufferInternal × Except Error Nat × Bool :=
  if 0x10000 ≤ packet.length then (b, .error .packetTooBig, false)
  else if b.closed then (b, .error .bufferClosed, false)
  else if (0 < b.limitCount ∧ b.limitCount ≤ b.count) ∨
      (0 < b.limitSize ∧ b.limitSize < b.size + 2 + packet.length) then
    (b.reportFull, .error .bufferFull, false)
  else
    match b.makeRoom packet.length with
    | (b, false) => (b.reportFull, .error .bufferFull, false)
    | (b, true) =>
      let b := b.store packet
      ({ b with subs := false }, .ok packet.length, b.subs)

/-- One turn of the loop; `buffer/mod.rs:224–285`. -/
def read (length : Nat) : BufferInternal × Got :=
  if b.head ≠ b.tail then
    let n₁ := b.data.getD b.head 0
    let head := if b.data.length ≤ b.head + 1 then 0 else b.head + 1
    let n₂ := b.data.getD head 0
    let head := if b.data.length ≤ head + 1 then 0 else head + 1
    let count := n₁.toNat <<< 8 ||| n₂.toNat
    let copied := min count length
    let bytes := RingStore.peek b.data head copied
    let head := RingStore.advance b.data.length head count
    let (head, tail) := if head = b.tail then (0, 0) else (head, b.tail)
    ({ b with head := head, tail := tail, count := b.count - 1 },
      if copied < count then .short bytes else .packet bytes)
  else ({ b with subs := true }, if b.closed then .closed else .waits)

def step : Op → BufferInternal × Reply
  | .write packet => ((b.write packet).1, .wrote (b.write packet).2.1)
  | .read length => ((b.read length).1, .got (b.read length).2)
  | .close => ({ b with closed := true }, .done)
  | .setLimitCount limit => ({ b with limitCount := limit }, .done)

end BufferInternal

/-! ### A bounded queue of packets -/

/-- What the buffer is for. -/
structure PacketQueue where
  packets : List (List UInt8)
  closed : Bool
  limitCount : Nat
  limitSize : Nat
  drops : Nat

namespace PacketQueue

def new (limitCount limitSize : Nat) : PacketQueue := ⟨[], false, limitCount, limitSize, 0⟩

variable (q : PacketQueue)

/-- Every packet takes two bytes more. -/
def bytes : Nat := (q.packets.map fun packet ↦ packet.length + 2).sum

def limit : Nat := if q.limitSize = 0 then maxSize else q.limitSize + 1

/-- A packet is let in. -/
def Fits (packet : List UInt8) : Prop :=
  (q.limitCount = 0 ∨ q.packets.length < q.limitCount) ∧ q.bytes + 2 + packet.length < q.limit

instance (packet : List UInt8) : Decidable (q.Fits packet) := inferInstanceAs (Decidable (_ ∧ _))

def write (packet : List UInt8) : PacketQueue × Except Error Nat :=
  if 0x10000 ≤ packet.length then (q, .error .packetTooBig)
  else if q.closed then (q, .error .bufferClosed)
  else if q.Fits packet then ({ q with packets := q.packets ++ [packet] }, .ok packet.length)
  else ({ q with drops := q.drops + 1 }, .error .bufferFull)

def read (length : Nat) : PacketQueue × Got :=
  match q.packets with
  | [] => (q, if q.closed then .closed else .waits)
  | packet :: packets =>
    ({ q with packets := packets },
      if length < packet.length then .short (packet.take length) else .packet packet)

def step : Op → PacketQueue × Reply
  | .write packet => ((q.write packet).1, .wrote (q.write packet).2)
  | .read length => ((q.read length).1, .got (q.read length).2)
  | .close => ({ q with closed := true }, .done)
  | .setLimitCount limit => ({ q with limitCount := limit }, .done)

end PacketQueue

/-! ### The ring holds the queue -/

/-- A packet behind its length. -/
def frame (packet : List UInt8) : List UInt8 :=
  UInt8.ofNat (packet.length >>> 8) :: UInt8.ofNat packet.length :: packet

structure Represents (b : BufferInternal) (q : PacketQueue) : Prop where
  holds : RingStore.Holds b.data b.head b.tail (q.packets.flatMap frame)
  small : ∀ packet ∈ q.packets, packet.length < 0x10000
  bounded : b.data.length ≤ b.limit
  closed : b.closed = q.closed
  count : b.count = q.packets.length
  limitCount : b.limitCount = q.limitCount
  limitSize : b.limitSize = q.limitSize
  drops : b.drops = q.drops

theorem length_flatMap_frame (packets : List (List UInt8)) :
    (packets.flatMap frame).length = (packets.map fun packet ↦ packet.length + 2).sum := by
  rw [List.length_flatMap]
  rfl

/-- The two bytes tell the length again. -/
theorem length_of_frame {n : Nat} (h : n < 0x10000) :
    (UInt8.ofNat (n >>> 8)).toNat <<< 8 ||| (UInt8.ofNat n).toNat = n := by
  rw [UInt8.toNat_ofNat', UInt8.toNat_ofNat', Nat.shiftRight_eq_div_pow,
    Nat.mod_eq_of_lt (Nat.div_lt_of_lt_mul h),
    ← Nat.shiftLeft_add_eq_or_of_lt (Nat.mod_lt _ (by decide)), Nat.shiftLeft_eq]
  omega

section Steps

variable {b : BufferInternal} {q : PacketQueue} {xs packet : List UInt8}

theorem putByte_eq {data : List UInt8} {tail : Nat} (h : tail < data.length) (byte : UInt8) :
    BufferInternal.putByte data tail byte = RingStore.put data tail [byte] := by
  have hn : min data.length (tail + [byte].length) - tail = 1 := by
    rw [List.length_singleton]
    omega
  have hset : RingStore.overwrite data tail [byte] = data.set tail byte := by
    rw [RingStore.overwrite, List.set_eq_take_append_cons_drop, if_pos h]
    simp
  rw [BufferInternal.putByte, RingStore.put, hn, ← hset]
  split
  · simp [RingStore.overwrite]
  · simp

theorem exists_of_grow {b' : BufferInternal} (h : RingStore.Holds b.data b.head b.tail xs)
    (hgrow : b.grow = some b') :
    ∃ data, b' = { b with data := data, head := 0, tail := xs.length } ∧
      RingStore.Holds data 0 xs.length xs ∧ data.length ≤ b.limit := by
  have hle := h.length_le
  unfold BufferInternal.grow at hgrow
  split at hgrow
  case isTrue => cases hgrow
  case isFalse hlarger =>
    simp only [h.unroll_eq, Option.some.injEq] at hgrow
    subst hgrow
    refine ⟨_, rfl, RingStore.Holds.copy ?_, ?_⟩
    · rw [Ne, List.replicate_eq_nil_iff]
      omega
    · have hlimit := b.newSize_le
      rw [List.length_append, List.length_replicate]
      omega

/-- The ring makes room unless the limit is in the way, and keeps what it holds. -/
theorem makeRoom_spec (size : Nat) (h : RingStore.Holds b.data b.head b.tail xs)
    (hbound : b.data.length ≤ b.limit) :
    ∃ data head tail, (b.makeRoom size).1 = { b with data := data, head := head, tail := tail } ∧
      RingStore.Holds data head tail xs ∧ data.length ≤ b.limit ∧
      ((b.makeRoom size).2 = true ↔ xs.length + 2 + size < b.limit) ∧
      ((b.makeRoom size).2 = true → xs.length + 2 + size < data.length) := by
  induction b using BufferInternal.makeRoom.induct size with
  | case1 b havailable =>
    rw [BufferInternal.makeRoom, if_pos havailable]
    rw [BufferInternal.available, decide_eq_true_eq, h.room_eq] at havailable
    exact ⟨b.data, b.head, b.tail, rfl, h, hbound, iff_of_true rfl (by omega), fun _ ↦ by omega⟩
  | case2 b havailable hgrow =>
    rw [BufferInternal.makeRoom, if_neg havailable]
    rw [BufferInternal.available, decide_eq_true_eq, h.room_eq] at havailable
    have hfull : b.limit ≤ b.data.length := by
      by_contra hroom
      have hlt := b.lt_newSize (by omega)
      rw [BufferInternal.grow, if_neg (by omega)] at hgrow
      cases hgrow
    split
    case h_1 =>
      exact ⟨b.data, b.head, b.tail, rfl, h, hbound, iff_of_false Bool.false_ne_true (by omega),
        fun hc ↦ absurd hc Bool.false_ne_true⟩
    case h_2 b' hsome =>
      rw [hgrow] at hsome
      cases hsome
  | case3 b havailable b' hgrow ih =>
    rw [BufferInternal.makeRoom, if_neg havailable]
    split
    case h_1 hnone =>
      rw [hgrow] at hnone
      cases hnone
    case h_2 b'' hsome =>
      obtain rfl : b' = b'' := Option.some.inj (hgrow.symm.trans hsome)
      obtain ⟨data, rfl, hholds, hle⟩ := exists_of_grow h hgrow
      exact ih hholds hle

/-- The ring takes a packet that there is room for. -/
theorem holds_store (h : RingStore.Holds b.data b.head b.tail xs)
    (hroom : xs.length + 2 + packet.length < b.data.length) :
    RingStore.Holds (b.store packet).data b.head (b.store packet).tail (xs ++ frame packet) ∧
      (b.store packet).data.length = b.data.length := by
  have hne : b.data ≠ [] := List.length_pos_iff.mp (by omega)
  have htail := h.tail_lt hne
  obtain ⟨⟨data₁, tail₁⟩, hput₁⟩ : ∃ r, r = RingStore.put b.data b.tail
      [UInt8.ofNat (packet.length >>> 8)] := ⟨_, rfl⟩
  have h₁ : RingStore.Holds _ b.head _ (xs ++ [UInt8.ofNat (packet.length >>> 8)]) :=
    h.put (by simp; omega)
  have hlength₁ : data₁.length = b.data.length := by
    rw [show data₁ = _ from congrArg Prod.fst hput₁]
    exact RingStore.length_put (Nat.le_of_lt htail) (by simp; omega)
  rw [← hput₁] at h₁
  dsimp only at h₁
  have htail₁ := h₁.tail_lt (List.length_pos_iff.mp (by omega))
  obtain ⟨⟨data₂, tail₂⟩, hput₂⟩ : ∃ r, r = RingStore.put data₁ tail₁
      [UInt8.ofNat packet.length] := ⟨_, rfl⟩
  have h₂ : RingStore.Holds _ b.head _
      (xs ++ [UInt8.ofNat (packet.length >>> 8)] ++ [UInt8.ofNat packet.length]) :=
    h₁.put (by simp; omega)
  have hlength₂ : data₂.length = data₁.length := by
    rw [show data₂ = _ from congrArg Prod.fst hput₂]
    exact RingStore.length_put (Nat.le_of_lt htail₁) (by simp; omega)
  rw [← hput₂] at h₂
  dsimp only at h₂
  have htail₂ := h₂.tail_lt (List.length_pos_iff.mp (by omega))
  have h₃ : RingStore.Holds _ b.head _ (_ ++ packet) := h₂.put (by simp; omega)
  have hstore : b.store packet = { b with
      data := (RingStore.put data₂ tail₂ packet).1
      tail := (RingStore.put data₂ tail₂ packet).2
      count := b.count + 1 } := by
    simp only [BufferInternal.store, putByte_eq htail, ← hput₁, putByte_eq htail₁, ← hput₂]
  rw [hstore]
  refine ⟨by simpa [frame] using h₃, ?_⟩
  rw [← hlength₁, ← hlength₂]
  exact RingStore.length_put (Nat.le_of_lt htail₂) (by omega)

theorem Represents.size (h : Represents b q) : b.size = q.bytes :=
  h.holds.size_eq.trans (length_flatMap_frame q.packets)

theorem Represents.limit (h : Represents b q) : b.limit = q.limit := by
  rw [BufferInternal.limit, PacketQueue.limit, h.limitSize]

/-- What the limits turn away does not fit. -/
theorem Represents.not_fits (h : Represents b q)
    (hfull : (0 < b.limitCount ∧ b.limitCount ≤ b.count) ∨
      (0 < b.limitSize ∧ b.limitSize < b.size + 2 + packet.length)) : ¬ q.Fits packet := by
  rintro ⟨hcount, hbytes⟩
  rw [h.limitCount, h.count, h.limitSize, h.size] at hfull
  rw [PacketQueue.limit] at hbytes
  rcases hfull with hfull | hfull
  · omega
  · rw [if_neg (by omega)] at hbytes
    omega

theorem Represents.reportFull (h : Represents b q) :
    Represents b.reportFull { q with drops := q.drops + 1 } :=
  { h with drops := congrArg (· + 1) h.drops }

theorem Represents.write (h : Represents b q) (packet : List UInt8) :
    Represents (b.write packet).1 (q.write packet).1 ∧
      (b.write packet).2.1 = (q.write packet).2 := by
  unfold BufferInternal.write PacketQueue.write
  rw [h.closed]
  by_cases hbig : 0x10000 ≤ packet.length
  · rw [if_pos hbig, if_pos hbig]
    exact ⟨h, rfl⟩
  rw [if_neg hbig, if_neg hbig]
  by_cases hclosed : q.closed = true
  · rw [if_pos hclosed, if_pos hclosed]
    exact ⟨h, rfl⟩
  rw [if_neg hclosed, if_neg hclosed]
  by_cases hfull : (0 < b.limitCount ∧ b.limitCount ≤ b.count) ∨
      (0 < b.limitSize ∧ b.limitSize < b.size + 2 + packet.length)
  · rw [if_pos hfull, if_neg (h.not_fits hfull)]
    exact ⟨h.reportFull, rfl⟩
  rw [if_neg hfull]
  obtain ⟨data, head, tail, hb, hholds, hbound, hiff, hroom⟩ :=
    makeRoom_spec packet.length h.holds h.bounded
  generalize b.makeRoom packet.length = made at hb hiff hroom ⊢
  obtain ⟨b₁, made⟩ := made
  dsimp only at hb
  subst hb
  rw [length_flatMap_frame, ← PacketQueue.bytes, h.limit] at hiff
  cases made with
  | false =>
    have hfits : ¬ q.Fits packet := fun hfits ↦ absurd (hiff.mpr hfits.2) Bool.false_ne_true
    rw [if_neg hfits]
    exact ⟨{ h.reportFull with holds := hholds, bounded := hbound }, rfl⟩
  | true =>
    have hcount : q.limitCount = 0 ∨ q.packets.length < q.limitCount := by
      rw [h.limitCount, h.count] at hfull
      omega
    rw [if_pos ⟨hcount, hiff.mp rfl⟩]
    obtain ⟨hstored, hlength⟩ :=
      holds_store (b := { b with data := data, head := head, tail := tail }) hholds (hroom rfl)
    refine ⟨⟨?_, ?_, ?_, h.closed, ?_, h.limitCount, h.limitSize, h.drops⟩, rfl⟩
    · rw [List.flatMap_append, List.flatMap_singleton]
      exact hstored
    · intro p hp
      rcases List.mem_append.mp hp with hp | hp
      · exact h.small p hp
      · rw [List.mem_singleton.mp hp]
        omega
    · exact Nat.le_trans (Nat.le_of_eq hlength) hbound
    · rw [List.length_append, ← h.count]
      rfl

/-- The first of the bytes, and what is behind it. -/
theorem next_of_holds {data rest : List UInt8} {head tail : Nat} {byte : UInt8}
    (h : RingStore.Holds data head tail (byte :: rest)) :
    data.getD head 0 = byte ∧
      RingStore.Holds data (if data.length ≤ head + 1 then 0 else head + 1) tail rest := by
  have hlength : 1 ≤ (byte :: rest).length := by simp
  have hne : data ≠ [] := List.length_pos_iff.mp (Nat.lt_of_lt_of_le hlength h.length_le)
  have hhead := h.head_lt hne
  constructor
  · have hpeek := h.peek_eq hlength
    have hfirst : (data.drop head).take 1 = [byte] := by
      rw [RingStore.peek] at hpeek
      split at hpeek
      · exact hpeek
      · rw [show 1 - (data.length - head) = 0 by omega, List.take_zero, List.append_nil] at hpeek
        rw [hpeek]
        rfl
    have hget : ((data.drop head).take 1)[0]? = some byte := by
      rw [hfirst]
      rfl
    rw [List.getElem?_take_of_lt (by omega), List.getElem?_drop, Nat.add_zero] at hget
    rw [List.getD_eq_getElem?_getD, hget]
    rfl
  · have hdrop := h.drop hlength
    rw [RingStore.advance] at hdrop
    split at hdrop
    case isTrue hend =>
      rw [if_pos hend]
      rwa [show head + 1 - data.length = 0 by omega] at hdrop
    case isFalse hin =>
      rw [if_neg hin]
      exact hdrop

theorem Represents.read (h : Represents b q) (length : Nat) :
    Represents (b.read length).1 (q.read length).1 ∧
      (b.read length).2 = (q.read length).2 := by
  have hsame := h.holds.head_eq_tail_iff
  cases hpackets : q.packets with
  | nil =>
    rw [hpackets] at hsame
    have hb : b.read length = ({ b with subs := true }, if b.closed then .closed else .waits) := by
      rw [BufferInternal.read, if_neg (not_not_intro (hsame.mpr rfl))]
    have hq : q.read length = (q, if q.closed then .closed else .waits) := by
      rw [PacketQueue.read, hpackets]
    rw [hb, hq, h.closed]
    exact ⟨⟨h.holds, h.small, h.bounded, rfl, h.count, h.limitCount, h.limitSize, h.drops⟩, rfl⟩
  | cons packet packets =>
    have hholds := h.holds
    have hsmall := h.small
    rw [hpackets] at hsame hholds hsmall
    have hpacket := hsmall packet List.mem_cons_self
    have hne : b.head ≠ b.tail := fun heq ↦ List.cons_ne_nil _ _ (hsame.mp heq)
    have hq : q.read length = ({ q with packets := packets },
        if length < packet.length then .short (packet.take length) else .packet packet) := by
      rw [PacketQueue.read, hpackets]
    -- the header is read byte by byte
    rw [List.flatMap_cons, frame, List.cons_append, List.cons_append] at hholds
    obtain ⟨hn₁, hholds⟩ := next_of_holds hholds
    generalize hhead₁ : (if b.data.length ≤ b.head + 1 then 0 else b.head + 1) = head₁ at hholds
    obtain ⟨hn₂, hholds⟩ := next_of_holds hholds
    generalize hhead₂ : (if b.data.length ≤ head₁ + 1 then 0 else head₁ + 1) = head₂ at hholds
    have hcount : packet.length ≤ (packet ++ packets.flatMap frame).length := by simp
    have hbytes := hholds.peek_eq (Nat.le_trans (Nat.min_le_left packet.length length) hcount)
    have hrest := hholds.drop hcount
    rw [List.take_append_of_le_length (Nat.min_le_left _ _)] at hbytes
    rw [List.drop_left] at hrest
    generalize hhead : RingStore.advance b.data.length head₂ packet.length = head at hrest
    rw [hq, BufferInternal.read, if_pos hne]
    simp only [hn₁, hhead₁, hn₂, hhead₂, length_of_frame hpacket, hbytes, hhead]
    constructor
    · refine ⟨?_, fun p hp ↦ hsmall p (List.mem_cons_of_mem _ hp), h.bounded, h.closed, ?_,
        h.limitCount, h.limitSize, h.drops⟩
      · split
        case isTrue hreset =>
          have hempty := hrest.head_eq_tail_iff.mp hreset
          rw [hempty] at hrest
          rw [hempty]
          exact hrest.reset
        case isFalse => exact hrest
      · rw [h.count, hpackets]
        rfl
    · by_cases hshort : length < packet.length
      · rw [if_pos hshort, if_pos (by omega), Nat.min_eq_right (Nat.le_of_lt hshort)]
      · rw [if_neg hshort, if_neg (by omega), Nat.min_eq_left (by omega), List.take_length]

theorem Represents.step (h : Represents b q) (op : Op) :
    Represents (b.step op).1 (q.step op).1 ∧ (b.step op).2 = (q.step op).2 := by
  cases op with
  | write packet =>
    obtain ⟨hrepr, hresult⟩ := h.write packet
    exact ⟨hrepr, congrArg Reply.wrote hresult⟩
  | read length =>
    obtain ⟨hrepr, hresult⟩ := h.read length
    exact ⟨hrepr, congrArg Reply.got hresult⟩
  | close =>
    exact ⟨⟨h.holds, h.small, h.bounded, rfl, h.count, h.limitCount, h.limitSize, h.drops⟩, rfl⟩
  | setLimitCount limit =>
    exact ⟨⟨h.holds, h.small, h.bounded, h.closed, h.count, rfl, h.limitSize, h.drops⟩, rfl⟩

end Steps

theorem represents_new (limitCount limitSize : Nat) :
    Represents (.new limitCount limitSize) (.new limitCount limitSize) where
  holds := .unused
  small _ hp := absurd hp List.not_mem_nil
  bounded := Nat.zero_le _
  closed := rfl
  count := rfl
  limitCount := rfl
  limitSize := rfl
  drops := rfl

theorem represents_run (limitCount limitSize : Nat) (ops : List Op) :
    Represents (run (fun (b : BufferInternal) op ↦ (b.step op).1) (.new limitCount limitSize) ops)
      (run (fun (q : PacketQueue) op ↦ (q.step op).1) (.new limitCount limitSize) ops) := by
  induction ops using List.reverseRecOn with
  | nil => exact represents_new limitCount limitSize
  | append_singleton ops op ih =>
    rw [run_append, run_append]
    exact (ih.step op).1

/-- The growing ring answers every operation as a bounded queue of packets does: packets come out
whole and in order, a write is refused exactly if the queue is full, and the ring stays within its
limit. -/
theorem ring_is_queue (limitCount limitSize : Nat) (ops : List Op) (op : Op) :
    let b := run (fun (b : BufferInternal) op ↦ (b.step op).1) (.new limitCount limitSize) ops
    let q := run (fun (q : PacketQueue) op ↦ (q.step op).1) (.new limitCount limitSize) ops
    (b.step op).2 = (q.step op).2 ∧ b.count = q.packets.length ∧ b.size = q.bytes ∧
      b.drops = q.drops ∧ b.closed = q.closed ∧ b.data.length ≤ b.limit := by
  intro b q
  have h : Represents b q := represents_run limitCount limitSize ops
  exact ⟨(h.step op).2, h.count, h.size, h.drops, h.closed, h.bounded⟩

/-! ### A reader that waits -/

/-- Where the reader is: outside, before the lock, between the lock and its wait, or waiting until a
signal comes. A signal that is meant for one reader is passed on if that reader gives up. -/
inductive Phase where
  | idle
  | looking (length : Nat)
  | leaving (length : Nat)
  | asleep (length : Nat)
  | woken (length : Nat) (one : Bool)

/-- One reader beside any number of writers, and the signal that is kept for the next wait. `missed`
records that the buffer was closed while the reader was between the lock and its wait. -/
structure Waiting where
  buffer : BufferInternal
  permit : Bool
  reader : Phase
  missed : Bool

inductive WaitOp where
  | write (packet : List UInt8)
  | close
  | setLimitCount (limit : Nat)
  /-- A read begins. -/
  | read (length : Nat)
  /-- The reader goes on to its next wait. -/
  | go
  /-- The reader gives up, or its time is over. -/
  | cancel

namespace Waiting

variable (w : Waiting)

/-- `Notify::notify_one`. -/
def notifyOne : Waiting :=
  match w.reader with
  | .asleep length => { w with reader := .woken length true }
  | _ => { w with permit := true }

/-- `Notify::notify_waiters` keeps no signal for later. -/
def notifyWaiters : Waiting :=
  match w.reader with
  | .asleep length => { w with reader := .woken length false }
  | .leaving _ => { w with missed := true }
  | _ => w

def go : Waiting :=
  match w.reader with
  | .looking length =>
    let (buffer, got) := w.buffer.read length
    { w with buffer := buffer, reader := if got = .waits then .leaving length else .idle }
  | .leaving length =>
    if w.permit then { w with permit := false, reader := .looking length }
    else { w with reader := .asleep length }
  | .woken length _ => { w with reader := .looking length }
  | _ => w

def step : WaitOp → Waiting
  | .write packet =>
    let (buffer, _, notified) := w.buffer.write packet
    if notified then { w with buffer := buffer }.notifyOne else { w with buffer := buffer }
  | .close =>
    if w.buffer.closed then w
    else { w with buffer := (w.buffer.step .close).1 }.notifyWaiters
  | .setLimitCount limit => { w with buffer := (w.buffer.step (.setLimitCount limit)).1 }
  | .read length =>
    match w.reader with
    | .idle => { w with reader := .looking length }
    | _ => w
  | .go => w.go
  | .cancel =>
    match w.reader with
    | .woken _ true => { w with permit := true, reader := .idle }
    | _ => { w with reader := .idle }

end Waiting

/-- A reader that waits, or is about to, waits for a packet: writers will signal the next one. -/
def Phase.Rests (permit : Bool) (missed : Bool) (b : BufferInternal) (q : PacketQueue) :
    Phase → Prop
  | .asleep _ => q.packets = [] ∧ b.subs = true ∧ (q.closed = true → missed = true)
  | .leaving _ => permit = true ∨
      (q.packets = [] ∧ b.subs = true ∧ (q.closed = true → missed = true))
  | _ => True

/-- Nothing is queued beside a reader that waits. -/
def Waiting.Sound (w : Waiting) : Prop :=
  ∃ q, Represents w.buffer q ∧ w.reader.Rests w.permit w.missed w.buffer q

section Waiting

variable {b : BufferInternal} {q : PacketQueue} {w : Waiting} {packet : List UInt8}

/-- A write that is refused wakes nobody; one that is let in signals a reader that waits. -/
theorem write_cases (h : Represents b q) (packet : List UInt8) :
    (b.write packet).2.2 = b.subs ∨
      ((b.write packet).2.2 = false ∧ (b.write packet).1.subs = b.subs ∧
        ∃ e, (b.write packet).2.1 = .error e) := by
  unfold BufferInternal.write
  split
  · exact .inr ⟨rfl, rfl, _, rfl⟩
  split
  · exact .inr ⟨rfl, rfl, _, rfl⟩
  split
  · exact .inr ⟨rfl, rfl, _, rfl⟩
  obtain ⟨data, head, tail, hb, -⟩ := makeRoom_spec packet.length h.holds h.bounded
  generalize b.makeRoom packet.length = made at hb ⊢
  obtain ⟨b₁, made⟩ := made
  dsimp only at hb
  subst hb
  cases made with
  | false => exact .inr ⟨rfl, rfl, _, rfl⟩
  | true => exact .inl rfl

theorem write_of_refused {e : Error} (h : (q.write packet).2 = .error e) :
    (q.write packet).1.packets = q.packets := by
  unfold PacketQueue.write at h ⊢
  split_ifs at h ⊢
  · rfl
  · rfl
  · rfl

theorem closed_write (q : PacketQueue) (packet : List UInt8) :
    (q.write packet).1.closed = q.closed := by
  unfold PacketQueue.write
  split_ifs <;> rfl

theorem read_waits {length : Nat} (h : (q.read length).2 = .waits) :
    q.packets = [] ∧ q.closed = false ∧ (q.read length).1 = q := by
  unfold PacketQueue.read at h ⊢
  cases hpackets : q.packets with
  | nil =>
    rw [hpackets] at h
    cases hclosed : q.closed with
    | false => exact ⟨rfl, rfl, rfl⟩
    | true => simp [hclosed] at h
  | cons packet packets =>
    rw [hpackets] at h
    dsimp only at h
    split at h <;> cases h

theorem Waiting.Sound.write (h : w.Sound) (packet : List UInt8) :
    (w.step (.write packet)).Sound := by
  obtain ⟨q, hq, hrests⟩ := h
  have hwrite := hq.write packet
  refine ⟨(q.write packet).1, ?_⟩
  simp only [Waiting.step]
  rcases write_cases hq packet with hnotified | ⟨hnotified, hsubs, e, herror⟩
  · rw [hnotified]
    cases hsubs : w.buffer.subs with
    | true =>
      simp only [↓reduceIte, Waiting.notifyOne]
      split
      · exact ⟨hwrite.1, trivial⟩
      next hawake =>
        refine ⟨hwrite.1, ?_⟩
        cases hreader : w.reader with
        | asleep length => exact absurd hreader (hawake length)
        | leaving length => exact .inl rfl
        | _ => trivial
    | false =>
      refine ⟨hwrite.1, ?_⟩
      simp only [Bool.false_eq_true, ↓reduceIte]
      cases hreader : w.reader with
      | asleep length =>
        rw [hreader] at hrests
        exact absurd (hsubs.symm.trans hrests.2.1) Bool.false_ne_true
      | leaving length =>
        rw [hreader] at hrests
        rcases hrests with hpermit | hrests
        · exact .inl hpermit
        · exact absurd (hsubs.symm.trans hrests.2.1) Bool.false_ne_true
      | _ => trivial
  · rw [hnotified]
    simp only [Bool.false_eq_true, ↓reduceIte]
    have hpackets := write_of_refused (hwrite.2.symm.trans herror)
    refine ⟨hwrite.1, ?_⟩
    cases hreader : w.reader with
    | asleep length =>
      rw [hreader] at hrests
      obtain ⟨hempty, hon, hmissed⟩ := hrests
      exact ⟨hpackets.trans hempty, hsubs.trans hon, by rwa [closed_write]⟩
    | leaving length =>
      rw [hreader] at hrests
      rcases hrests with hpermit | ⟨hempty, hon, hmissed⟩
      · exact .inl hpermit
      · exact .inr ⟨hpackets.trans hempty, hsubs.trans hon, by rwa [closed_write]⟩
    | _ => trivial

theorem Waiting.Sound.close (h : w.Sound) : (w.step .close).Sound := by
  obtain ⟨q, hq, hrests⟩ := h
  simp only [Waiting.step]
  split
  · exact ⟨q, hq, hrests⟩
  have hclose := (hq.step .close).1
  simp only [Waiting.notifyWaiters]
  split
  next length hreader => exact ⟨_, hclose, trivial⟩
  next length hreader =>
    rw [hreader] at hrests
    refine ⟨_, hclose, ?_⟩
    rw [hreader]
    exact hrests.imp id fun h ↦ ⟨h.1, h.2.1, fun _ ↦ rfl⟩
  next hasleep hleaving =>
    refine ⟨_, hclose, ?_⟩
    cases hreader : w.reader with
    | asleep length => exact absurd hreader (hasleep length)
    | leaving length => exact absurd hreader (hleaving length)
    | _ => trivial

theorem Waiting.Sound.go (h : w.Sound) : w.go.Sound := by
  obtain ⟨q, hq, hrests⟩ := h
  unfold Waiting.go
  cases hreader : w.reader with
  | looking length =>
    obtain ⟨hread, hgot⟩ := hq.read length
    refine ⟨(q.read length).1, hread, ?_⟩
    by_cases hwaits : (w.buffer.read length).2 = .waits
    · simp only [hwaits, ↓reduceIte]
      obtain ⟨hempty, hopen, hsame⟩ := read_waits (hgot.symm.trans hwaits)
      have hsubs : (w.buffer.read length).1.subs = true := by
        have heq := hq.holds.head_eq_tail_iff
        rw [hempty] at heq
        rw [BufferInternal.read, if_neg (not_not_intro (heq.mpr rfl))]
      rw [hsame]
      exact .inr ⟨hempty, hsubs, fun hc ↦ absurd (hopen.symm.trans hc) Bool.false_ne_true⟩
    · simp only [hwaits, ↓reduceIte]
      trivial
  | leaving length =>
    rw [hreader] at hrests
    dsimp only
    cases hpermit : w.permit with
    | true => exact ⟨q, hq, trivial⟩
    | false =>
      rw [hpermit] at hrests
      exact ⟨q, hq, hrests.resolve_left Bool.false_ne_true⟩
  | woken length one => exact ⟨q, hq, trivial⟩
  | idle => exact ⟨q, hq, by rw [hreader]; trivial⟩
  | asleep length => exact ⟨q, hq, hrests⟩

theorem Waiting.Sound.step (h : w.Sound) (op : WaitOp) : (w.step op).Sound := by
  cases op with
  | write packet => exact h.write packet
  | close => exact h.close
  | go => exact h.go
  | setLimitCount limit =>
    obtain ⟨q, hq, hrests⟩ := h
    refine ⟨_, (hq.step (.setLimitCount limit)).1, ?_⟩
    simp only [Waiting.step]
    cases hreader : w.reader <;> rw [hreader] at hrests <;> exact hrests
  | read length =>
    obtain ⟨q, hq, hrests⟩ := h
    cases hreader : w.reader <;> simp only [Waiting.step, hreader] <;>
      first | exact ⟨q, hq, trivial⟩ | exact ⟨q, hq, hrests⟩
  | cancel =>
    obtain ⟨q, hq, hrests⟩ := h
    simp only [Waiting.step]
    split <;> exact ⟨q, hq, trivial⟩

end Waiting

/-- Before the first read. -/
def Waiting.start (limitCount limitSize : Nat) : Waiting :=
  ⟨.new limitCount limitSize, false, .idle, false⟩

/-- A reader never waits beside a packet. It waits at a closed buffer only if the close came between
its look at the buffer and its wait. -/
theorem reader_waits_for_packets (limitCount limitSize : Nat) (ops : List WaitOp) (length : Nat) :
    let w := run Waiting.step (.start limitCount limitSize) ops
    w.reader = .asleep length →
      w.buffer.count = 0 ∧ w.buffer.head = w.buffer.tail ∧
        (w.buffer.closed = true → w.missed = true) := by
  intro w hreader
  have hsound : w.Sound :=
    run_invariant (fun _ op h ↦ h.step op)
      ⟨_, represents_new limitCount limitSize, trivial⟩ ops
  obtain ⟨q, hq, hrests⟩ := hsound
  rw [hreader] at hrests
  obtain ⟨hempty, -, hmissed⟩ := hrests
  have heq := hq.holds.head_eq_tail_iff
  rw [hempty] at heq
  exact ⟨by rw [hq.count, hempty]; rfl, heq.mpr rfl, fun hc ↦ hmissed (hq.closed ▸ hc)⟩

/-- The close comes between the look and the wait, and the reader waits on. -/
theorem close_is_missed :
    let w := run Waiting.step (.start 0 0) [.read 4, .go, .close, .go]
    w.reader = .asleep 4 ∧ w.buffer.closed = true ∧ w.buffer.count = 0 ∧ w.missed = true := by
  have h := reader_waits_for_packets 0 0 [.read 4, .go, .close, .go] 4 rfl
  exact ⟨rfl, rfl, h.1, h.2.2 rfl⟩

end MyOwnMesh.PacketBuffer
