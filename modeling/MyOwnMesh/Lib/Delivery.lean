import Mathlib.Data.List.Sort
import Mathlib.Data.List.TakeWhile
import Mathlib.Data.List.Pairwise
import Mathlib.Data.List.Perm.Subperm
import Mathlib.Logic.Relation

/-!
# Acknowledged delivery over a line that may lose its tail

One direction of a conversation. The sender keeps the packets nobody acknowledged yet in a
box, numbers them within the stream of that box and puts them on the line in order; the
receiver hands on whatever lies above the highest number it has seen of the stream and
acknowledges that number. The line keeps its order, and it may lose a tail of what is in
flight when the sender starts over with the whole box.

A move is one elementary change of such a line. Every move keeps the invariant `Inv`, which
gives the contract: packets of one stream are handed on in the order they were queued and no
packet twice, a caller who is told that its packet arrived is told the truth, and no caller
is told anything twice.
-/

namespace Lib.Delivery

universe u v w

variable {S : Type u} {C : Type v} {D : Type w}

/-! ### Lines -/

/-- A packet on the line. -/
@[ext] structure Packet (S : Type u) (D : Type w) where
  stream : S
  seq : Nat
  body : D
  deriving DecidableEq

/-- A packet the sender still holds, with the caller that waits for it. -/
structure Slot (C : Type v) (D : Type w) where
  seq : Nat
  body : D
  caller : C
  sent : Bool

/-- The packet of a slot. -/
def Slot.packet (stream : S) (x : Slot C D) : Packet S D := ⟨stream, x.seq, x.body⟩

/-- The box of one stream: the number given out last and the packets held. -/
structure Box (S : Type u) (C : Type v) (D : Type w) where
  stream : S
  next : Nat
  slots : List (Slot C D)

/-- One direction: the sender's box and the line, the receiver's mark, the acknowledgements on
their way back, and the history of streams, packets, hand-overs, callers and verdicts. -/
structure Line (S : Type u) (C : Type v) (D : Type w) where
  box : Option (Box S C D)
  flight : List (Packet S D)
  mark : Option (S × Nat)
  acks : List (S × Nat)
  streams : List S
  queued : List (Packet S D × C)
  seen : List (Packet S D)
  callers : List C
  verdicts : List (C × Bool)

/-- A line nothing has happened on yet. -/
def Line.empty : Line S C D where
  box := none
  flight := []
  mark := none
  acks := []
  streams := []
  queued := []
  seen := []
  callers := []
  verdicts := []

/-- The callers whose packets are still held. -/
def Line.waiting (l : Line S C D) : List C :=
  match l.box with
  | none => []
  | some b => b.slots.map Slot.caller

/-- The highest number seen of a stream, given the mark. -/
def lastSeen [DecidableEq S] (mark : Option (S × Nat)) (stream : S) : Nat :=
  match mark with
  | none => 0
  | some (s, m) => if s = stream then m else 0

/-- The elementary changes of a line. -/
inductive Move [DecidableEq S] : Line S C D → Line S C D → Prop
  /-- A box with a stream of its own is opened. -/
  | openBox {l : Line S C D} (s : S) (hbox : l.box = none) (hs : s ∉ l.streams) :
    Move l { l with box := some ⟨s, 0, []⟩, streams := l.streams ++ [s] }
  /-- A packet is queued for a new caller. -/
  | push {l : Line S C D} (b : Box S C D) (c : C) (d : D) (hbox : l.box = some b)
      (hc : c ∉ l.callers) :
    Move l { l with
      box := some ⟨b.stream, b.next + 1, b.slots ++ [⟨b.next + 1, d, c, false⟩]⟩
      queued := l.queued ++ [(⟨b.stream, b.next + 1, d⟩, c)]
      callers := l.callers ++ [c] }
  /-- A new caller is turned away. -/
  | refuse {l : Line S C D} (c : C) (hc : c ∉ l.callers) :
    Move l { l with callers := l.callers ++ [c], verdicts := l.verdicts ++ [(c, false)] }
  /-- The first unsent packet goes on the line. -/
  | transmit {l : Line S C D} (s : S) (n : Nat) (before after : List (Slot C D)) (x : Slot C D)
      (hbox : l.box = some ⟨s, n, before ++ x :: after⟩) (hsent : ∀ y ∈ before, y.sent = true)
      (hx : x.sent = false) :
    Move l { l with
      box := some ⟨s, n, before ++ { x with sent := true } :: after⟩
      flight := l.flight ++ [x.packet s] }
  /-- The callers of some packets are told that these are given up. -/
  | abandon {l : Line S C D} (b : Box S C D) (gone kept : List (Slot C D))
      (hbox : l.box = some b) (hperm : (gone ++ kept).Perm b.slots)
      (hkept : kept.Sublist b.slots) :
    Move l { l with
      box := some { b with slots := kept }
      verdicts := l.verdicts ++ gone.map (·.caller, false) }
  /-- An empty box goes away. -/
  | closeBox {l : Line S C D} (b : Box S C D) (hbox : l.box = some b) (hb : b.slots = []) :
    Move l { l with box := none }
  /-- The line loses a tail of what is in flight, and the sender starts over. -/
  | rewind {l : Line S C D} (kept : Nat) :
    Move l { l with
      box := l.box.map fun b ↦ { b with slots := b.slots.map ({ · with sent := false }) }
      flight := l.flight.take kept }
  /-- The first packet in flight arrives. -/
  | receive {l : Line S C D} (p : Packet S D) (rest : List (Packet S D))
      (hflight : l.flight = p :: rest) :
    Move l { l with
      flight := rest
      mark := some (p.stream, max (lastSeen l.mark p.stream) p.seq)
      seen := if p.seq ≤ lastSeen l.mark p.stream then l.seen else l.seen ++ [p] }
  /-- The receiver acknowledges its mark. -/
  | acknowledge {l : Line S C D} (a : S × Nat) (hmark : l.mark = some a) :
    Move l { l with acks := l.acks ++ [a] }
  /-- An acknowledgement of the box's stream settles the packets up to its number. -/
  | settle {l : Line S C D} (b : Box S C D) (m : Nat) (hbox : l.box = some b)
      (ha : (b.stream, m) ∈ l.acks) :
    Move l { l with
      box := some { b with slots := b.slots.dropWhile (·.seq ≤ m) }
      verdicts := l.verdicts ++ (b.slots.takeWhile (·.seq ≤ m)).map (·.caller, true) }
  /-- Acknowledgements are used up or lost. -/
  | forget {l : Line S C D} (acks : List (S × Nat)) (hacks : acks ⊆ l.acks) :
    Move l { l with acks := acks }

/-- Any number of moves. -/
abbrev Moves [DecidableEq S] : Line S C D → Line S C D → Prop := Relation.ReflTransGen Move

/-- Several unsent packets go on the line one after the other. -/
theorem moves_transmit [DecidableEq S] {l : Line S C D} {s : S} {n : Nat} (k : Nat)
    (before after : List (Slot C D)) (hbox : l.box = some ⟨s, n, before ++ after⟩)
    (hsent : ∀ y ∈ before, y.sent = true) (hunsent : ∀ y ∈ after, y.sent = false) :
    Moves l { l with
      box := some ⟨s, n, before ++ (after.take k).map ({ · with sent := true }) ++ after.drop k⟩
      flight := l.flight ++ (after.take k).map (Slot.packet s) } := by
  induction k generalizing l before after with
  | zero =>
    have hsame : { l with box := some ⟨s, n, before ++ after⟩ } = l := by rw [← hbox]
    simp only [List.take_zero, List.map_nil, List.append_nil, List.drop_zero, hsame]
    exact .refl
  | succ k ih =>
    cases after with
    | nil =>
      have hsame : { l with box := some ⟨s, n, before ++ []⟩ } = l := by rw [← hbox]
      simp only [List.take_nil, List.map_nil, List.append_nil, List.drop_nil] at hsame ⊢
      rw [hsame]
    | cons x rest =>
      have hfirst := Move.transmit s n before rest x hbox hsent (hunsent x (by simp))
      have hrest := ih (l := { l with
          box := some ⟨s, n, before ++ { x with sent := true } :: rest⟩
          flight := l.flight ++ [x.packet s] })
        (before ++ [{ x with sent := true }]) rest (by simp)
        (by
          intro y hy
          rcases List.mem_append.mp hy with hy | hy
          · exact hsent y hy
          · rw [List.mem_singleton.mp hy])
        (fun y hy ↦ hunsent y (by simp [hy]))
      refine .head hfirst ?_
      simpa using hrest

/-! ### The invariant -/

/-- The box against the rest of the line. Numbers grow along the slots and the unsent ones come
last. A packet on the line is overtaken by none of the box: what lies below it was handed on
or is in flight before it, and so everything up to the mark or up to an acknowledgement was
handed on. -/
structure BoxInv [DecidableEq S] (l : Line S C D) (b : Box S C D) : Prop where
  known : b.stream ∈ l.streams
  newest : ∀ s ∈ l.streams, l.streams.idxOf s ≤ l.streams.idxOf b.stream
  slots : ∀ x ∈ b.slots, (x.packet b.stream, x.caller) ∈ l.queued
  bound : ∀ e ∈ l.queued, e.1.stream = b.stream → e.1.seq ≤ b.next
  order : b.slots.Pairwise fun x y ↦ x.seq < y.seq
  sentFirst : b.slots.Pairwise fun x y ↦ y.sent = true → x.sent = true
  sent : ∀ x ∈ b.slots, x.sent = true → x.packet b.stream ∈ l.seen ∨ x.packet b.stream ∈ l.flight
  flight : ∀ before p after, l.flight = before ++ p :: after → p.stream = b.stream →
    ∀ x ∈ b.slots, x.seq < p.seq → x.packet b.stream ∈ l.seen ∨ x.packet b.stream ∈ before
  mark : ∀ m, l.mark = some (b.stream, m) →
    m ≤ b.next ∧ ∀ x ∈ b.slots, x.seq ≤ m → x.packet b.stream ∈ l.seen
  acks : ∀ m, (b.stream, m) ∈ l.acks →
    m ≤ b.next ∧ ∀ x ∈ b.slots, x.seq ≤ m → x.packet b.stream ∈ l.seen

/-- What holds of every line: everything in flight or handed on was queued, older streams come
first on the line and behind the mark, each stream is handed on in order, every good verdict
is true and every caller is waiting or judged once. -/
structure Inv [DecidableEq S] (l : Line S C D) : Prop where
  box : ∀ b, l.box = some b → BoxInv l b
  queuedKnown : ∀ e ∈ l.queued, e.1.stream ∈ l.streams ∧ 0 < e.1.seq
  queuedOrder : l.queued.Pairwise fun e f ↦ e.1.stream = f.1.stream → e.1.seq < f.1.seq
  asked : ∀ e ∈ l.queued, e.2 ∈ l.callers
  askedOnce : (l.queued.map Prod.snd).Nodup
  flightKnown : ∀ p ∈ l.flight, ∃ c, (p, c) ∈ l.queued
  flightAge : l.flight.Pairwise fun p q ↦
    l.streams.idxOf p.stream ≤ l.streams.idxOf q.stream
  acksKnown : ∀ a ∈ l.acks, a.1 ∈ l.streams
  markKnown : ∀ s m, l.mark = some (s, m) → s ∈ l.streams
  markAge : ∀ s m, l.mark = some (s, m) →
    ∀ p ∈ l.flight, l.streams.idxOf s ≤ l.streams.idxOf p.stream
  markSeen : ∀ s m, l.mark = some (s, m) → ∀ p ∈ l.seen,
    l.streams.idxOf p.stream ≤ l.streams.idxOf s ∧ (p.stream = s → p.seq ≤ m)
  unmarked : l.mark = none → l.seen = []
  seenKnown : ∀ p ∈ l.seen, ∃ c, (p, c) ∈ l.queued
  seenOrder : l.seen.Pairwise fun p q ↦ p.stream = q.stream → p.seq < q.seq
  truthful : ∀ c, (c, true) ∈ l.verdicts → ∃ p, (p, c) ∈ l.queued ∧ p ∈ l.seen
  once : (l.verdicts.map Prod.fst ++ l.waiting).Nodup
  judged : ∀ c ∈ l.verdicts.map Prod.fst ++ l.waiting, c ∈ l.callers

/-- Nothing happened, nothing is wrong. -/
theorem inv_empty [DecidableEq S] : Inv (Line.empty : Line S C D) := by
  constructor <;> simp [Line.empty, Line.waiting]

/-- The callers of a box are its slots' callers. -/
theorem waiting_of_box {l : Line S C D} {b : Box S C D}
    (h : l.box = some b) :
    l.waiting = b.slots.map Slot.caller := by
  simp [Line.waiting, h]

/-- An arrival takes nothing back. -/
private theorem mem_seen_of_arrival {seen : List (Packet S D)} {p q : Packet S D} {m : Nat}
    (hq : q ∈ seen) : q ∈ if p.seq ≤ m then seen else seen ++ [p] := by
  split
  · exact hq
  · exact List.mem_append_left _ hq

/-- And it hands on the packet that arrived, if anything. -/
private theorem seen_of_arrival {seen : List (Packet S D)} {p q : Packet S D} {m : Nat}
    (hq : q ∈ if p.seq ≤ m then seen else seen ++ [p]) : q ∈ seen ∨ q = p := by
  split at hq
  · exact .inl hq
  · simpa using hq

section

variable [DecidableEq S] {l : Line S C D}

/-- A number names one packet of its stream. -/
theorem Inv.packet_unique (h : Inv l) {p q : Packet S D} {c d : C} (hp : (p, c) ∈ l.queued)
    (hq : (q, d) ∈ l.queued) (hs : p.stream = q.stream) (hn : p.seq = q.seq) : p = q := by
  by_contra hne
  have hneq : (p, c) ≠ (q, d) := fun heq ↦ hne (congrArg Prod.fst heq)
  have hsymm : Std.Symm fun e f : Packet S D × C ↦
      e.1.stream = f.1.stream → e.1.seq ≠ f.1.seq := ⟨fun _ _ h hs hn ↦ h hs.symm hn.symm⟩
  have hall : l.queued.Pairwise fun e f ↦ e.1.stream = f.1.stream → e.1.seq ≠ f.1.seq :=
    h.queuedOrder.imp fun h hef ↦ Nat.ne_of_lt (h hef)
  exact hall.forall hp hq hneq hs hn

/-- Slots that carry packets of the box serve as well, once their own numbers grow and their
flags are in order. -/
theorem BoxInv.of_slots {b : Box S C D} (h : BoxInv l b) {slots : List (Slot C D)}
    (hsame : ∀ y ∈ slots, ∃ x ∈ b.slots,
      y.packet b.stream = x.packet b.stream ∧ y.caller = x.caller)
    (horder : slots.Pairwise fun x y ↦ x.seq < y.seq)
    (hfirst : slots.Pairwise fun x y ↦ y.sent = true → x.sent = true)
    (hsent : ∀ y ∈ slots, y.sent = true →
      y.packet b.stream ∈ l.seen ∨ y.packet b.stream ∈ l.flight) :
    BoxInv l { b with slots := slots } := by
  have hseq : ∀ {x y : Slot C D}, y.packet b.stream = x.packet b.stream → y.seq = x.seq :=
    fun hp ↦ congrArg Packet.seq hp
  have hupto : ∀ {m : Nat}, (∀ x ∈ b.slots, x.seq ≤ m → x.packet b.stream ∈ l.seen) →
      ∀ y ∈ slots, y.seq ≤ m → y.packet b.stream ∈ l.seen := by
    intro m hall y hy hle
    obtain ⟨x, hx, hp, -⟩ := hsame y hy
    rw [hp]
    exact hall x hx (hseq hp ▸ hle)
  refine { h with slots := ?_, order := horder, sentFirst := hfirst, sent := hsent,
                  flight := ?_, mark := ?_, acks := ?_ }
  · intro y hy
    obtain ⟨x, hx, hp, hc⟩ := hsame y hy
    rw [hp, hc]
    exact h.slots x hx
  · intro before p after heq hs y hy hlt
    obtain ⟨x, hx, hp, -⟩ := hsame y hy
    rw [hp]
    exact h.flight before p after heq hs x hx (hseq hp ▸ hlt)
  · exact fun m hm ↦ ⟨(h.mark m hm).1, hupto (h.mark m hm).2⟩
  · exact fun m hm ↦ ⟨(h.acks m hm).1, hupto (h.acks m hm).2⟩

/-- Fewer slots are no worse. -/
theorem BoxInv.of_sublist {b : Box S C D} (h : BoxInv l b) {slots : List (Slot C D)}
    (hsub : slots.Sublist b.slots) : BoxInv l { b with slots := slots } :=
  h.of_slots (fun y hy ↦ ⟨y, hsub.subset hy, rfl, rfl⟩) (h.order.sublist hsub)
    (h.sentFirst.sublist hsub) fun y hy ↦ h.sent y (hsub.subset hy)

/-! ### The moves of the sender -/

/-- Opening a box gives it a stream nothing on the line carries. -/
theorem Inv.openBox (h : Inv l) (s : S) (hbox : l.box = none) (hs : s ∉ l.streams) :
    Inv { l with box := some ⟨s, 0, []⟩, streams := l.streams ++ [s] } := by
  have hidx : ∀ {t : S}, t ∈ l.streams → (l.streams ++ [s]).idxOf t = l.streams.idxOf t :=
    fun ht ↦ List.idxOf_append_of_mem ht
  have hflight : ∀ p ∈ l.flight, p.stream ∈ l.streams := by
    intro p hp
    obtain ⟨c, hc⟩ := h.flightKnown p hp
    exact (h.queuedKnown _ hc).1
  have hseen : ∀ p ∈ l.seen, p.stream ∈ l.streams := by
    intro p hp
    obtain ⟨c, hc⟩ := h.seenKnown p hp
    exact (h.queuedKnown _ hc).1
  have hne : ∀ {t : S}, t ∈ l.streams → t ≠ s := fun ht heq ↦ hs (heq ▸ ht)
  have hself : (l.streams ++ [s]).idxOf s = l.streams.length := by
    rw [List.idxOf_append_of_notMem hs]
    simp
  refine { h with box := ?_, queuedKnown := ?_, flightAge := ?_, acksKnown := ?_, markKnown := ?_,
                  markAge := ?_, markSeen := ?_, once := ?_, judged := ?_ }
  · intro b hb
    cases hb
    refine ⟨by simp, ?_, by simp, ?_, by simp, by simp, by simp, by simp, ?_, ?_⟩
    · intro t ht
      simp only [List.mem_append, List.mem_singleton] at ht
      rcases ht with ht | rfl
      · rw [hidx ht, hself]
        exact Nat.le_of_lt (List.idxOf_lt_length_of_mem ht)
      · exact Nat.le_refl _
    · intro e he heq
      exact absurd heq (hne (h.queuedKnown e he).1)
    · intro m hm
      exact absurd rfl (hne (h.markKnown s m hm))
    · intro m hm
      exact absurd rfl (hne (h.acksKnown _ hm))
  · intro e he
    exact ⟨List.mem_append_left _ (h.queuedKnown e he).1, (h.queuedKnown e he).2⟩
  · refine h.flightAge.imp_of_mem fun {p q} hp hq hpq ↦ ?_
    rwa [hidx (hflight p hp), hidx (hflight q hq)]
  · exact fun a ha ↦ List.mem_append_left _ (h.acksKnown a ha)
  · exact fun t m hm ↦ List.mem_append_left _ (h.markKnown t m hm)
  · intro t m hm p hp
    rw [hidx (h.markKnown t m hm), hidx (hflight p hp)]
    exact h.markAge t m hm p hp
  · intro t m hm p hp
    rw [hidx (h.markKnown t m hm), hidx (hseen p hp)]
    exact h.markSeen t m hm p hp
  · have := h.once
    simpa [Line.waiting, hbox] using this
  · have := h.judged
    simpa [Line.waiting, hbox] using this

/-- A packet queued above every number of its stream, behind everything held, is not yet to be
accounted for. -/
theorem BoxInv.push {b : Box S C D} (h : BoxInv l b) (c : C) (d : D)
    (hflight : ∀ p ∈ l.flight, p.stream = b.stream → p.seq ≤ b.next) :
    BoxInv { l with
      box := some ⟨b.stream, b.next + 1, b.slots ++ [⟨b.next + 1, d, c, false⟩]⟩
      queued := l.queued ++ [(⟨b.stream, b.next + 1, d⟩, c)]
      callers := l.callers ++ [c] }
      ⟨b.stream, b.next + 1, b.slots ++ [⟨b.next + 1, d, c, false⟩]⟩ := by
  have hslot : ∀ x ∈ b.slots, x.seq ≤ b.next := fun x hx ↦ h.bound _ (h.slots x hx) rfl
  -- A slot with a number the box gave out before is one of the old ones.
  have hold : ∀ x ∈ b.slots ++ [⟨b.next + 1, d, c, false⟩], x.seq ≤ b.next → x ∈ b.slots := by
    intro x hx hle
    rcases List.mem_append.mp hx with hx | hx
    · exact hx
    · obtain rfl := List.mem_singleton.mp hx
      simp only at hle
      omega
  refine ⟨h.known, h.newest, ?_, ?_, ?_, ?_, ?_, ?_, ?_, ?_⟩
  · intro x hx
    rcases List.mem_append.mp hx with hx | hx
    · exact List.mem_append_left _ (h.slots x hx)
    · obtain rfl := List.mem_singleton.mp hx
      exact List.mem_append_right _ (by simp [Slot.packet])
  · intro e he hs
    rcases List.mem_append.mp he with he | he
    · exact Nat.le_succ_of_le (h.bound e he hs)
    · obtain rfl := List.mem_singleton.mp he
      exact Nat.le_refl _
  · refine List.pairwise_append.mpr ⟨h.order, List.pairwise_singleton _ _, fun x hx y hy ↦ ?_⟩
    obtain rfl := List.mem_singleton.mp hy
    exact Nat.lt_succ_of_le (hslot x hx)
  · refine List.pairwise_append.mpr
      ⟨h.sentFirst, List.pairwise_singleton _ _, fun x _ y hy hsent ↦ ?_⟩
    obtain rfl := List.mem_singleton.mp hy
    cases hsent
  · intro x hx hsent
    rcases List.mem_append.mp hx with hx | hx
    · exact h.sent x hx hsent
    · obtain rfl := List.mem_singleton.mp hx
      cases hsent
  · intro before p after heq hs x hx hlt
    have hp : p.seq ≤ b.next := by
      apply hflight p _ hs
      have heq' : l.flight = before ++ p :: after := heq
      simp [heq']
    exact h.flight before p after heq hs x (hold x hx (by omega)) hlt
  · intro m hm
    obtain ⟨hle, hall⟩ := h.mark m hm
    refine ⟨Nat.le_succ_of_le hle, fun x hx hxm ↦ ?_⟩
    exact hall x (hold x hx (Nat.le_trans hxm hle)) hxm
  · intro m hm
    obtain ⟨hle, hall⟩ := h.acks m hm
    refine ⟨Nat.le_succ_of_le hle, fun x hx hxm ↦ ?_⟩
    exact hall x (hold x hx (Nat.le_trans hxm hle)) hxm

/-- A packet is queued above every number of its stream, behind everything held. -/
theorem Inv.push (h : Inv l) (b : Box S C D) (c : C) (d : D) (hbox : l.box = some b)
    (hc : c ∉ l.callers) :
    Inv { l with
      box := some ⟨b.stream, b.next + 1, b.slots ++ [⟨b.next + 1, d, c, false⟩]⟩
      queued := l.queued ++ [(⟨b.stream, b.next + 1, d⟩, c)]
      callers := l.callers ++ [c] } := by
  have hb := h.box b hbox
  refine { h with box := ?_, queuedKnown := ?_, queuedOrder := ?_, asked := ?_, askedOnce := ?_,
                  flightKnown := ?_, seenKnown := ?_, truthful := ?_, once := ?_, judged := ?_ }
  · intro b' hb'
    cases hb'
    refine hb.push c d fun p hp hs ↦ ?_
    obtain ⟨e, he⟩ := h.flightKnown p hp
    exact hb.bound _ he hs
  · intro e he
    rcases List.mem_append.mp he with he | he
    · exact h.queuedKnown e he
    · obtain rfl := List.mem_singleton.mp he
      exact ⟨hb.known, Nat.succ_pos _⟩
  · refine List.pairwise_append.mpr
      ⟨h.queuedOrder, List.pairwise_singleton _ _, fun e he f hf hs ↦ ?_⟩
    obtain rfl := List.mem_singleton.mp hf
    exact Nat.lt_succ_of_le (hb.bound e he hs)
  · intro e he
    rcases List.mem_append.mp he with he | he
    · exact List.mem_append_left _ (h.asked e he)
    · obtain rfl := List.mem_singleton.mp he
      exact List.mem_append_right _ (List.mem_singleton_self _)
  · have hfresh : c ∉ l.queued.map Prod.snd := by
      intro hmem
      obtain ⟨e, he, rfl⟩ := List.mem_map.mp hmem
      exact hc (h.asked e he)
    simp only [List.map_append, List.map_cons, List.map_nil]
    rw [← List.concat_eq_append]
    exact h.askedOnce.concat hfresh
  · intro p hp
    obtain ⟨e, he⟩ := h.flightKnown p hp
    exact ⟨e, List.mem_append_left _ he⟩
  · intro p hp
    obtain ⟨e, he⟩ := h.seenKnown p hp
    exact ⟨e, List.mem_append_left _ he⟩
  · intro e he
    obtain ⟨p, hp, hseen⟩ := h.truthful e he
    exact ⟨p, List.mem_append_left _ hp, hseen⟩
  · have honce := h.once
    have hjudged := h.judged
    rw [waiting_of_box hbox] at honce hjudged
    have hfresh : c ∉ l.verdicts.map Prod.fst ++ b.slots.map Slot.caller :=
      fun hmem ↦ hc (hjudged c hmem)
    simp only [Line.waiting, List.map_append, List.map_cons, List.map_nil, ← List.append_assoc]
    rw [← List.concat_eq_append]
    exact honce.concat hfresh
  · have hjudged := h.judged
    rw [waiting_of_box hbox] at hjudged
    intro e he
    simp only [Line.waiting, List.map_append, List.map_cons, List.map_nil,
      ← List.append_assoc] at he
    rcases List.mem_append.mp he with he | he
    · exact List.mem_append_left _ (hjudged e he)
    · exact List.mem_append_right _ he

/-- A caller who is turned away waits for nothing. -/
theorem Inv.refuse (h : Inv l) (c : C) (hc : c ∉ l.callers) :
    Inv { l with callers := l.callers ++ [c], verdicts := l.verdicts ++ [(c, false)] } := by
  refine { h with box := fun b hb ↦ ?_, asked := ?_, truthful := ?_, once := ?_, judged := ?_ }
  · exact { h.box b hb with }
  · exact fun e he ↦ List.mem_append_left _ (h.asked e he)
  · intro e he
    refine h.truthful e ?_
    simpa using he
  · have hfresh : c ∉ l.verdicts.map Prod.fst ++ l.waiting := fun hmem ↦ hc (h.judged c hmem)
    have hperm : (l.verdicts.map Prod.fst ++ [c] ++ l.waiting).Perm
        (c :: (l.verdicts.map Prod.fst ++ l.waiting)) := by
      rw [List.append_assoc]
      exact List.perm_middle
    rw [List.map_append]
    exact hperm.nodup_iff.mpr (List.nodup_cons.mpr ⟨hfresh, h.once⟩)
  · intro e he
    simp only [List.map_append, List.map_cons, List.map_nil, List.append_assoc,
      List.mem_append, List.mem_cons, List.not_mem_nil, or_false] at he ⊢
    have hjudged := h.judged e
    rw [List.mem_append] at hjudged
    rcases he with he | he | he
    · exact .inl (hjudged (.inl he))
    · exact .inr he
    · exact .inl (hjudged (.inr he))

/-- Some of the callers that wait are told a verdict and their packets leave the box. -/
theorem Inv.judge (h : Inv l) {b : Box S C D} (hbox : l.box = some b)
    {gone kept : List (Slot C D)} (hperm : (gone ++ kept).Perm b.slots)
    (hsub : kept.Sublist b.slots) (verdict : Bool)
    (htrue : verdict = true → ∀ x ∈ gone, x.packet b.stream ∈ l.seen) :
    Inv { l with
      box := some { b with slots := kept }
      verdicts := l.verdicts ++ gone.map (·.caller, verdict) } := by
  have hb := h.box b hbox
  have hcallers : (l.verdicts.map Prod.fst ++ gone.map Slot.caller ++
      kept.map Slot.caller).Perm (l.verdicts.map Prod.fst ++ l.waiting) := by
    rw [waiting_of_box hbox, List.append_assoc, ← List.map_append]
    exact (hperm.map Slot.caller).append_left _
  have hnames : ((l.verdicts ++ gone.map fun x ↦ (x.caller, verdict)).map Prod.fst) =
      l.verdicts.map Prod.fst ++ gone.map Slot.caller := by
    simp [Function.comp_def]
  refine { h with box := ?_, truthful := ?_, once := ?_, judged := ?_ }
  · intro b' hb'
    cases hb'
    exact { hb.of_sublist hsub with }
  · intro c hc
    rcases List.mem_append.mp hc with hc | hc
    · exact h.truthful c hc
    · obtain ⟨x, hx, heq⟩ := List.mem_map.mp hc
      simp only [Prod.mk.injEq] at heq
      obtain ⟨rfl, rfl⟩ := heq
      refine ⟨x.packet b.stream, hb.slots x ?_, htrue rfl x hx⟩
      exact hperm.mem_iff.mp (List.mem_append_left _ hx)
  · rw [hnames]
    exact hcallers.nodup_iff.mpr h.once
  · intro c hc
    rw [hnames] at hc
    exact h.judged c (hcallers.mem_iff.mp hc)

/-- An acknowledgement settles only packets that were handed on. -/
theorem Inv.settle (h : Inv l) (b : Box S C D) (m : Nat) (hbox : l.box = some b)
    (ha : (b.stream, m) ∈ l.acks) :
    Inv { l with
      box := some { b with slots := b.slots.dropWhile (·.seq ≤ m) }
      verdicts := l.verdicts ++ (b.slots.takeWhile (·.seq ≤ m)).map (·.caller, true) } := by
  refine h.judge hbox ?_ (List.dropWhile_sublist _) true fun _ x hx ↦ ?_
  · rw [List.takeWhile_append_dropWhile]
  · have hle : x.seq ≤ m := by simpa using List.mem_takeWhile_imp hx
    exact ((h.box b hbox).acks m ha).2 x ((List.takeWhile_sublist _).subset hx) hle

/-- An empty box has no caller. -/
theorem Inv.closeBox (h : Inv l) (b : Box S C D) (hbox : l.box = some b) (hb : b.slots = []) :
    Inv { l with box := none } := by
  have hwaiting : l.waiting = [] := by rw [waiting_of_box hbox, hb, List.map_nil]
  refine { h with box := fun b' hb' ↦ ?_, once := ?_, judged := ?_ }
  · cases hb'
  · have honce := h.once
    rwa [hwaiting] at honce
  · have hjudged := h.judged
    rwa [hwaiting] at hjudged

/-- A packet put on the line overtakes nothing when what lies below it in the box was sent. -/
theorem BoxInv.extend {b : Box S C D} (h : BoxInv l b) (p : Packet S D)
    (hsent : ∀ x ∈ b.slots, x.seq < p.seq → x.sent = true) :
    BoxInv { l with flight := l.flight ++ [p] } b := by
  refine { h with sent := ?_, flight := ?_ }
  · intro x hx hxsent
    exact (h.sent x hx hxsent).imp id (List.mem_append_left _)
  · intro front q rear heq hs x hx hlt
    rcases List.eq_nil_or_concat rear with rfl | ⟨rear', r, rfl⟩
    · -- The packet is the one just put on the line.
      have hsplit : l.flight ++ [p] = front ++ [q] := heq
      obtain ⟨rfl, hpq⟩ := List.append_inj' hsplit rfl
      obtain rfl := List.singleton_inj.mp hpq
      exact h.sent x hx (hsent x hx hlt)
    · have hsplit : l.flight ++ [p] = front ++ q :: rear' ++ [r] := by
        simpa using heq
      obtain ⟨hflight, -⟩ := List.append_inj' hsplit rfl
      exact h.flight front q rear' hflight hs x hx hlt

/-- With its packet on the line the first unsent slot counts as sent. -/
theorem BoxInv.transmit {s : S} {n : Nat} {before after : List (Slot C D)} {x : Slot C D}
    (h : BoxInv l ⟨s, n, before ++ x :: after⟩) (hsent : ∀ y ∈ before, y.sent = true) :
    BoxInv { l with flight := l.flight ++ [x.packet s] }
      ⟨s, n, before ++ { x with sent := true } :: after⟩ := by
  have horder := h.order
  simp only [List.pairwise_append, List.pairwise_cons, List.mem_cons] at horder
  obtain ⟨hbefore, ⟨hxafter, hafter⟩, hcross⟩ := horder
  have hput := h.extend (x.packet s) fun y hy hlt ↦ by
    have hlt' : y.seq < x.seq := hlt
    simp only [List.mem_append, List.mem_cons] at hy
    rcases hy with hy | rfl | hy
    · exact hsent y hy
    · omega
    · have := hxafter y hy
      omega
  refine hput.of_slots ?_ ?_ ?_ ?_
  · intro y hy
    simp only [List.mem_append, List.mem_cons] at hy
    rcases hy with hy | rfl | hy
    · exact ⟨y, by simp [hy], rfl, rfl⟩
    · exact ⟨x, by simp, rfl, rfl⟩
    · exact ⟨y, by simp [hy], rfl, rfl⟩
  · simp only [List.pairwise_append, List.pairwise_cons, List.mem_cons]
    refine ⟨hbefore, ⟨hxafter, hafter⟩, fun y hy z hz ↦ ?_⟩
    rcases hz with rfl | hz
    · exact hcross y hy x (.inl rfl)
    · exact hcross y hy z (.inr hz)
  · have hfirst := h.sentFirst
    simp only [List.pairwise_append, List.pairwise_cons] at hfirst ⊢
    obtain ⟨hbefore, ⟨-, hafter⟩, -⟩ := hfirst
    exact ⟨hbefore, ⟨fun _ _ _ ↦ trivial, hafter⟩, fun y hy z _ _ ↦ hsent y hy⟩
  · intro y hy hysent
    simp only [List.mem_append, List.mem_cons] at hy
    rcases hy with hy | rfl | hy
    · exact hput.sent y (by simp [hy]) hysent
    · exact .inr (List.mem_append_right _ (List.mem_singleton_self _))
    · exact hput.sent y (by simp [hy]) hysent

/-- The first unsent packet overtakes nothing: what lies below it in the box was sent. -/
theorem Inv.transmit (h : Inv l) (s : S) (n : Nat) (before after : List (Slot C D))
    (x : Slot C D) (hbox : l.box = some ⟨s, n, before ++ x :: after⟩)
    (hsent : ∀ y ∈ before, y.sent = true) :
    Inv { l with
      box := some ⟨s, n, before ++ { x with sent := true } :: after⟩
      flight := l.flight ++ [x.packet s] } := by
  have hb := h.box _ hbox
  have hx : x ∈ before ++ x :: after := by simp
  refine { h with box := ?_, flightKnown := ?_, flightAge := ?_, markAge := ?_, once := ?_,
                  judged := ?_ }
  · intro b hb'
    cases hb'
    exact { hb.transmit hsent with }
  · intro p hp
    rcases List.mem_append.mp hp with hp | hp
    · exact h.flightKnown p hp
    · obtain rfl := List.mem_singleton.mp hp
      exact ⟨x.caller, hb.slots x hx⟩
  · refine List.pairwise_append.mpr
      ⟨h.flightAge, List.pairwise_singleton _ _, fun p hp q hq ↦ ?_⟩
    obtain rfl := List.mem_singleton.mp hq
    obtain ⟨c, hc⟩ := h.flightKnown p hp
    exact hb.newest _ (h.queuedKnown _ hc).1
  · intro t m hm p hp
    rcases List.mem_append.mp hp with hp | hp
    · exact h.markAge t m hm p hp
    · obtain rfl := List.mem_singleton.mp hp
      exact hb.newest t (h.markKnown t m hm)
  · have honce := h.once
    rw [waiting_of_box hbox] at honce
    simpa [Line.waiting] using honce
  · have hjudged := h.judged
    rw [waiting_of_box hbox] at hjudged
    simpa [Line.waiting] using hjudged

/-- A box with nothing marked as sent expects nothing of the tail of the line. -/
theorem BoxInv.rewind {b : Box S C D} (h : BoxInv l b) (kept : Nat) :
    BoxInv { l with flight := l.flight.take kept }
      { b with slots := b.slots.map ({ · with sent := false }) } := by
  have hsame : ∀ y ∈ b.slots.map ({ · with sent := false }), ∃ x ∈ b.slots,
      y.packet b.stream = x.packet b.stream ∧ y.caller = x.caller := by
    intro y hy
    obtain ⟨x, hx, rfl⟩ := List.mem_map.mp hy
    exact ⟨x, hx, rfl, rfl⟩
  have hunsent : ∀ y ∈ b.slots.map ({ · with sent := false }), y.sent ≠ true := by
    intro y hy hsent
    obtain ⟨x, -, rfl⟩ := List.mem_map.mp hy
    cases hsent
  have hb := h.of_slots hsame (List.pairwise_map.mpr h.order)
    (List.pairwise_map.mpr (h.sentFirst.imp fun _ hf ↦ by cases hf))
    fun y hy hsent ↦ absurd hsent (hunsent y hy)
  refine { hb with sent := fun y hy hsent ↦ absurd hsent (hunsent y hy), flight := ?_ }
  intro before p after heq hs y hy hlt
  have hsplit : l.flight = before ++ p :: (after ++ l.flight.drop kept) := by
    have heq' : l.flight.take kept = before ++ p :: after := heq
    calc l.flight = l.flight.take kept ++ l.flight.drop kept :=
          (List.take_append_drop kept l.flight).symm
      _ = before ++ p :: (after ++ l.flight.drop kept) := by rw [heq']; simp
  exact hb.flight before p _ hsplit hs y hy hlt

/-- Starting over with the whole box makes up for whatever the line loses. -/
theorem Inv.rewind (h : Inv l) (kept : Nat) :
    Inv { l with
      box := l.box.map fun b ↦ { b with slots := b.slots.map ({ · with sent := false }) }
      flight := l.flight.take kept } := by
  have hsub : (l.flight.take kept).Sublist l.flight := List.take_sublist kept l.flight
  refine { h with box := ?_, flightKnown := ?_, flightAge := ?_, markAge := ?_, once := ?_,
                  judged := ?_ }
  · intro b' hb'
    obtain ⟨b, hbox, rfl⟩ := Option.map_eq_some_iff.mp hb'
    exact { (h.box b hbox).rewind kept with }
  · exact fun p hp ↦ h.flightKnown p (hsub.subset hp)
  · exact h.flightAge.sublist hsub
  · exact fun s m hm p hp ↦ h.markAge s m hm p (hsub.subset hp)
  · have honce := h.once
    cases hbox : l.box with
    | none => simpa [Line.waiting, hbox] using honce
    | some b => simpa [Line.waiting, hbox, Function.comp_def] using honce
  · have hjudged := h.judged
    cases hbox : l.box with
    | none => simpa [Line.waiting, hbox] using hjudged
    | some b => simpa [Line.waiting, hbox, Function.comp_def] using hjudged

/-! ### The moves of the receiver -/

/-- Losing acknowledgements loses no knowledge. -/
theorem Inv.forget (h : Inv l) (acks : List (S × Nat)) (hacks : acks ⊆ l.acks) :
    Inv { l with acks := acks } := by
  refine { h with box := fun b hbox ↦ ?_, acksKnown := fun a ha ↦ h.acksKnown a (hacks ha) }
  exact { h.box b hbox with acks := fun m hm ↦ (h.box b hbox).acks m (hacks hm) }

/-- The mark is as good an acknowledgement as any. -/
theorem Inv.acknowledge (h : Inv l) (a : S × Nat) (hmark : l.mark = some a) :
    Inv { l with acks := l.acks ++ [a] } := by
  refine { h with box := fun b hbox ↦ ?_, acksKnown := fun c hc ↦ ?_ }
  · refine { h.box b hbox with acks := fun m hm ↦ ?_ }
    rcases List.mem_append.mp hm with hm | hm
    · exact (h.box b hbox).acks m hm
    · obtain rfl := List.mem_singleton.mp hm
      exact (h.box b hbox).mark m hmark
  · rcases List.mem_append.mp hc with hc | hc
    · exact h.acksKnown c hc
    · obtain rfl := List.mem_singleton.mp hc
      exact h.markKnown c.1 c.2 hmark

/-- The highest number seen of a stream is none or the one the mark gives. -/
theorem lastSeen_cases (mark : Option (S × Nat)) (s : S) :
    lastSeen mark s = 0 ∨ mark = some (s, lastSeen mark s) := by
  cases mark with
  | none => exact .inl rfl
  | some a =>
    obtain ⟨t, m⟩ := a
    by_cases hs : t = s
    · exact .inr (by simp [lastSeen, hs])
    · exact .inl (by simp [lastSeen, hs])

/-- What was handed on is no younger than the next packet, and below its number what the mark
counts of its stream. -/
theorem Inv.seen_le_next (h : Inv l) {p : Packet S D} (hp : p ∈ l.flight) :
    ∀ q ∈ l.seen, l.streams.idxOf q.stream ≤ l.streams.idxOf p.stream ∧
      (q.stream = p.stream → q.seq ≤ lastSeen l.mark p.stream) := by
  intro q hq
  cases hmark : l.mark with
  | none =>
    rw [h.unmarked hmark] at hq
    cases hq
  | some a =>
    obtain ⟨s, m⟩ := a
    have hage := h.markAge s m hmark p hp
    obtain ⟨hle, hseq⟩ := h.markSeen s m hmark q hq
    refine ⟨Nat.le_trans hle hage, fun heq ↦ ?_⟩
    have hsame : s = p.stream := by
      apply (List.idxOf_inj (h.markKnown s m hmark)).mp
      rw [← heq] at hage ⊢
      exact Nat.le_antisymm hage hle
    simp only [lastSeen, hsame, ↓reduceIte]
    exact hseq (heq.trans hsame.symm)

/-- A packet of the box that arrives is handed on now or was so before. -/
theorem Inv.slot_arrives (h : Inv l) {b : Box S C D} (hbox : l.box = some b) {x : Slot C D}
    (hx : x ∈ b.slots) :
    x.packet b.stream ∈ if x.seq ≤ lastSeen l.mark b.stream then l.seen
      else l.seen ++ [x.packet b.stream] := by
  have hb := h.box b hbox
  split
  · next hle =>
    have hpos : 0 < x.seq := (h.queuedKnown _ (hb.slots x hx)).2
    rcases lastSeen_cases l.mark b.stream with h0 | hmark
    · omega
    · exact (hb.mark _ hmark).2 x hx hle
  · exact List.mem_append_right _ (List.mem_singleton_self _)

/-- After an arrival the mark speaks for everything of the box up to its number: what the mark
counted before, what the packet found handed on below it, and the packet itself. -/
theorem Inv.upto_arrival (h : Inv l) {b : Box S C D} (hbox : l.box = some b) {p : Packet S D}
    {rest : List (Packet S D)} (hflight : l.flight = p :: rest) (hs : p.stream = b.stream) :
    max (lastSeen l.mark p.stream) p.seq ≤ b.next ∧
      ∀ x ∈ b.slots, x.seq ≤ max (lastSeen l.mark p.stream) p.seq →
        x.packet b.stream ∈
          if p.seq ≤ lastSeen l.mark p.stream then l.seen else l.seen ++ [p] := by
  have hb := h.box b hbox
  obtain ⟨c, hc⟩ := h.flightKnown p (by simp [hflight])
  have hbound : p.seq ≤ b.next := hb.bound _ hc hs
  have hmark := lastSeen_cases l.mark b.stream
  rw [hs]
  refine ⟨?_, fun x hx hle ↦ ?_⟩
  · rcases hmark with h0 | hmark
    · omega
    · have := (hb.mark _ hmark).1
      omega
  · have hpos : 0 < x.seq := (h.queuedKnown _ (hb.slots x hx)).2
    by_cases hxm : x.seq ≤ lastSeen l.mark b.stream
    · rcases hmark with h0 | hmark
      · omega
      · exact mem_seen_of_arrival ((hb.mark _ hmark).2 x hx hxm)
    · have hxp : x.seq < p.seq ∨ x.seq = p.seq := by omega
      rcases hxp with hlt | heq
      · have hor := hb.flight [] p rest hflight hs x hx hlt
        simp only [List.not_mem_nil, or_false] at hor
        exact mem_seen_of_arrival hor
      · obtain rfl : x.packet b.stream = p := h.packet_unique (hb.slots x hx) hc hs.symm heq
        exact h.slot_arrives hbox hx

/-- The box after the arrival of the first packet in flight. -/
theorem Inv.box_receive (h : Inv l) {b : Box S C D} (hbox : l.box = some b) {p : Packet S D}
    {rest : List (Packet S D)} (hflight : l.flight = p :: rest) :
    BoxInv { l with
      flight := rest
      mark := some (p.stream, max (lastSeen l.mark p.stream) p.seq)
      seen := if p.seq ≤ lastSeen l.mark p.stream then l.seen else l.seen ++ [p] } b := by
  have hb := h.box b hbox
  -- What was handed on or in flight is so still, with the first packet on the other side.
  have hmove : ∀ {x : Slot C D} {flight : List (Packet S D)}, x ∈ b.slots →
      x.packet b.stream ∈ l.seen ∨ x.packet b.stream ∈ p :: flight →
      (x.packet b.stream ∈
        if p.seq ≤ lastSeen l.mark p.stream then l.seen else l.seen ++ [p]) ∨
        x.packet b.stream ∈ flight := by
    intro x flight hx hor
    rw [List.mem_cons] at hor
    rcases hor with hor | rfl | hor
    · exact .inl (mem_seen_of_arrival hor)
    · exact .inl (h.slot_arrives hbox hx)
    · exact .inr hor
  refine { hb with sent := ?_, flight := ?_, mark := ?_, acks := ?_ }
  · exact fun x hx hsent ↦ hmove hx (hflight ▸ hb.sent x hx hsent)
  · intro before q after heq hs x hx hlt
    have hsplit : l.flight = (p :: before) ++ q :: after := by
      have heq' : rest = before ++ q :: after := heq
      rw [hflight, heq', List.cons_append]
    exact hmove hx (hb.flight (p :: before) q after hsplit hs x hx hlt)
  · intro n hn
    simp only [Option.some.injEq, Prod.mk.injEq] at hn
    obtain ⟨hs, rfl⟩ := hn
    exact h.upto_arrival hbox hflight hs
  · intro n hn
    exact ⟨(hb.acks n hn).1, fun x hx hle ↦ mem_seen_of_arrival ((hb.acks n hn).2 x hx hle)⟩

/-- The arrival of the first packet in flight. -/
theorem Inv.receive (h : Inv l) (p : Packet S D) (rest : List (Packet S D))
    (hflight : l.flight = p :: rest) :
    Inv { l with
      flight := rest
      mark := some (p.stream, max (lastSeen l.mark p.stream) p.seq)
      seen := if p.seq ≤ lastSeen l.mark p.stream then l.seen else l.seen ++ [p] } := by
  have hp : p ∈ l.flight := by simp [hflight]
  have hrest : ∀ q ∈ rest, q ∈ l.flight := fun q hq ↦ by simp [hflight, hq]
  obtain ⟨c, hc⟩ := h.flightKnown p hp
  have hbelow := h.seen_le_next hp
  refine { h with box := fun b hbox ↦ h.box_receive hbox hflight, flightKnown := ?_,
                  flightAge := ?_, markKnown := ?_, markAge := ?_, markSeen := ?_,
                  unmarked := ?_, seenKnown := ?_, seenOrder := ?_, truthful := ?_ }
  · exact fun q hq ↦ h.flightKnown q (hrest q hq)
  · have hage := h.flightAge
    rw [hflight] at hage
    exact hage.of_cons
  · intro s n hn
    simp only [Option.some.injEq, Prod.mk.injEq] at hn
    rw [← hn.1]
    exact (h.queuedKnown _ hc).1
  · intro s n hn q hq
    simp only [Option.some.injEq, Prod.mk.injEq] at hn
    have hage := h.flightAge
    rw [hflight, List.pairwise_cons] at hage
    rw [← hn.1]
    exact hage.1 q hq
  · intro s n hn q hq
    simp only [Option.some.injEq, Prod.mk.injEq] at hn
    obtain ⟨rfl, rfl⟩ := hn
    rcases seen_of_arrival hq with hq | rfl
    · obtain ⟨hage, hle⟩ := hbelow q hq
      exact ⟨hage, fun heq ↦ Nat.le_trans (hle heq) (Nat.le_max_left _ _)⟩
    · exact ⟨Nat.le_refl _, fun _ ↦ Nat.le_max_right _ _⟩
  · intro hn
    cases hn
  · intro q hq
    rcases seen_of_arrival hq with hq | rfl
    · exact h.seenKnown q hq
    · exact ⟨c, hc⟩
  · split
    · exact h.seenOrder
    · next hnew =>
      refine List.pairwise_append.mpr
        ⟨h.seenOrder, List.pairwise_singleton _ _, fun q hq r hr heq ↦ ?_⟩
      obtain rfl := List.mem_singleton.mp hr
      have := (hbelow q hq).2 heq
      omega
  · intro e he
    obtain ⟨q, hq, hqseen⟩ := h.truthful e he
    exact ⟨q, hq, mem_seen_of_arrival hqseen⟩

/-! ### Runs -/

/-- Every move keeps the invariant. -/
theorem Inv.move {l' : Line S C D} (h : Inv l) (hmove : Move l l') : Inv l' := by
  cases hmove with
  | openBox s hbox hs => exact h.openBox s hbox hs
  | push b c d hbox hc => exact h.push b c d hbox hc
  | refuse c hc => exact h.refuse c hc
  | transmit s n before after x hbox hsent hx => exact h.transmit s n before after x hbox hsent
  | abandon b gone kept hbox hperm hkept =>
    exact h.judge hbox hperm hkept false fun hf ↦ by cases hf
  | closeBox b hbox hb => exact h.closeBox b hbox hb
  | rewind kept => exact h.rewind kept
  | receive p rest hflight => exact h.receive p rest hflight
  | acknowledge a hmark => exact h.acknowledge a hmark
  | settle b m hbox ha => exact h.settle b m hbox ha
  | forget acks hacks => exact h.forget acks hacks

/-- And so does any number of them. -/
theorem Inv.moves {l' : Line S C D} (h : Inv l) (hmoves : Moves l l') : Inv l' := by
  induction hmoves with
  | refl => exact h
  | tail _ hmove ih => exact ih.move hmove

/-- Along one stream, numbers that grow within a list of packets grow within its packets of
that stream. -/
private theorem pairwise_filter_stream {ps : List (Packet S D)} (s : S)
    (h : ps.Pairwise fun p q ↦ p.stream = q.stream → p.seq < q.seq) :
    (ps.filter fun p ↦ p.stream = s).Pairwise fun p q ↦ p.seq < q.seq := by
  refine (h.filter _).imp_of_mem fun {p q} hp hq hpq ↦ ?_
  simp only [List.mem_filter, decide_eq_true_eq] at hp hq
  exact hpq (hp.2.trans hq.2.symm)

/-- The packets of one stream that were handed on are a sublist of those queued for it: each at
most once and in the order they were queued. -/
theorem Inv.inOrder (h : Inv l) (s : S) :
    (l.seen.filter fun p ↦ p.stream = s).Sublist
      ((l.queued.map Prod.fst).filter fun p ↦ p.stream = s) := by
  have hseen := pairwise_filter_stream s h.seenOrder
  have hqueued := pairwise_filter_stream s (List.pairwise_map.mpr h.queuedOrder)
  have hanti : Std.Antisymm fun p q : Packet S D ↦ p.seq < q.seq :=
    ⟨fun p q hpq hqp ↦ absurd hpq (Nat.lt_asymm hqp)⟩
  have hnodup : (l.seen.filter fun p ↦ p.stream = s).Nodup := by
    refine List.Pairwise.imp (fun {p q} hlt heq ↦ ?_) hseen
    rw [heq] at hlt
    exact Nat.lt_irrefl _ hlt
  refine List.sublist_of_subperm_of_pairwise (List.subperm_of_subset hnodup ?_) hseen hqueued
  intro p hp
  simp only [List.mem_filter, decide_eq_true_eq] at hp ⊢
  obtain ⟨c, hc⟩ := h.seenKnown p hp.1
  exact ⟨List.mem_map.mpr ⟨(p, c), hc, rfl⟩, hp.2⟩

/-- No packet was queued twice. -/
theorem Inv.queued_nodup (h : Inv l) : (l.queued.map Prod.fst).Nodup := by
  rw [List.Nodup, List.pairwise_map]
  refine h.queuedOrder.imp fun {e f} hlt heq ↦ ?_
  have := hlt (congrArg Packet.stream heq)
  rw [heq] at this
  exact Nat.lt_irrefl _ this

/-- No caller was told a verdict twice. -/
theorem Inv.judged_once (h : Inv l) : (l.verdicts.map Prod.fst).Nodup :=
  h.once.sublist (List.sublist_append_left _ _)

end

end Lib.Delivery
