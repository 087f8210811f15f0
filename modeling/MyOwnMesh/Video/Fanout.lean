import MyOwnMesh.Lib.Feed
import MyOwnMesh.Lib.Replay
import MyOwnMesh.Lib.Tally
import MyOwnMesh.Video.Assembler

/-!
# The queue of one video subscriber

`crates/myownmesh-core/src/engine/video_fanout.rs`. Samples wait for their subscriber under three
limits. A sample that does not fit evicts the oldest ones, whose number is kept and handed to the
reader before the next sample. Beside the samples the queue keeps their bytes and how many
fragments of each picture it holds; subtractions and lookups there panic when the books are wrong.
-/

namespace MyOwnMesh.Video.Fanout

open Lib Lib.Replay Lib.Feed

/-- A sample and the peer it came from; `engine/mod.rs`, `InboundVideoSample`. -/
structure InboundVideoSample where
  sender : String
  sample : VideoSample UInt32
  deriving DecidableEq

/-- `video_fanout.rs:16`. -/
def maxPictures : Nat := maxPendingFrames + 1

/-- `video_fanout.rs:17`. -/
def maxBytes : Nat := 64 * 1024 * 1024

/-- `video_fanout.rs:18`. -/
def maxSamples : Nat := 4096

/-- Peer, lane and timestamp; `video_fanout.rs:19`. -/
def Picture : Type := String × UInt8 × UInt32
  deriving DecidableEq, Hashable

/-- The picture a sample is a fragment of; `video_fanout.rs:21–27`. -/
def picture (s : InboundVideoSample) : Picture :=
  (s.sender, s.sample.lane, s.sample.rtpTimestamp)

/-- What a sample counts against the byte limit; `video_fanout.rs:41` and `:53`. -/
def weight (s : InboundVideoSample) : Nat := s.sample.data.length + s.sender.utf8ByteSize

/-- `video_fanout.rs:29–36`. The reader takes the loss count at its next look, so the 64 bits it has
in the source are not modelled. -/
structure Queue where
  samples : List InboundVideoSample
  pictures : Std.ExtHashMap Picture Nat
  bytes : Nat
  lagged : Nat
  closed : Bool

/-- `Queue::default()`. -/
def Queue.empty : Queue := ⟨[], ∅, 0, 0, false⟩

/-- The two ways the books can be wrong. -/
inductive Panic where
  | underflow
  | queuedPicture
  deriving DecidableEq, Repr

/-- Take the oldest sample; `video_fanout.rs:39–49`. -/
def Queue.pop (q : Queue) : Except Panic (Option InboundVideoSample × Queue) :=
  match q.samples with
  | [] => .ok (none, q)
  | sample :: rest =>
    if q.bytes < weight sample then .error .underflow
    else
      match Tally.remove q.pictures (picture sample) with
      | none => .error .queuedPicture
      | some pictures =>
        .ok (some sample,
          { q with samples := rest, pictures := pictures, bytes := q.bytes - weight sample })

/-- A sample of this picture and weight does not fit; `video_fanout.rs:56–59`. -/
def Queue.pressed (q : Queue) (key : Picture) (bytes : Nat) : Bool :=
  !q.samples.isEmpty &&
    ((!q.pictures.contains key && decide (q.pictures.size ≥ maxPictures)) ||
      decide (bytes > maxBytes - q.bytes) || decide (q.samples.length ≥ maxSamples))

/-- The eviction loop; `video_fanout.rs:56–63`. Every round takes a sample, so there are no more
rounds than samples. -/
def Queue.evict (key : Picture) (bytes : Nat) : Nat → Queue → Except Panic Queue
  | 0, q => .ok q
  | rounds + 1, q =>
    if q.pressed key bytes then
      match q.pop with
      | .error e => .error e
      | .ok (_, popped) => Queue.evict key bytes rounds { popped with lagged := popped.lagged + 1 }
    else .ok q

/-- Queue a sample; `video_fanout.rs:51–71`. -/
def Queue.push (q : Queue) (sample : InboundVideoSample) : Except Panic Queue :=
  let key := picture sample
  let bytes := weight sample
  match q.evict key bytes q.samples.length with
  | .error e => .error e
  | .ok q =>
    if bytes > maxBytes then .ok { q with lagged := q.lagged + 1 }
    else
      .ok { q with
        bytes := q.bytes + bytes
        pictures := Tally.add q.pictures key
        samples := q.samples ++ [sample] }

/-- What one look at the queue finds; `video_fanout.rs:127–140`. -/
inductive Received where
  | lagged (missed : Nat)
  | sample (sample : InboundVideoSample)
  | closed
  /-- Nothing yet, the reader waits to be notified. -/
  | wait

/-- One look at the queue; `video_fanout.rs:127–140`. -/
def Queue.recv (q : Queue) : Except Panic (Received × Queue) :=
  if q.lagged ≠ 0 then .ok (.lagged q.lagged, { q with lagged := 0 })
  else
    match q.pop with
    | .error e => .error e
    | .ok (some sample, popped) => .ok (.sample sample, popped)
    | .ok (none, popped) => .ok (if popped.closed then .closed else .wait, popped)

/-- A subscription with what was pushed to it and what its reader was handed. -/
structure Subscription where
  queue : Queue
  pushed : List InboundVideoSample
  reads : List (Read InboundVideoSample)

/-- A fresh subscription. -/
def Subscription.start : Subscription := ⟨.empty, [], []⟩

/-- What the reader is handed. -/
def Received.read : Received → List (Read InboundVideoSample)
  | .lagged missed => [.gap missed]
  | .sample x => [.item x]
  | .closed => []
  | .wait => []

/-- A sample is sent, the reader looks, or the sender goes away; `video_fanout.rs:95–121`. -/
inductive Op where
  | push (sample : InboundVideoSample)
  | recv
  | close

/-- One operation on a subscription. -/
def step (s : Subscription) : Op → Except Panic Subscription
  | .push sample =>
    match s.queue.push sample with
    | .error e => .error e
    | .ok q => .ok { s with queue := q, pushed := s.pushed ++ [sample] }
  | .recv =>
    match s.queue.recv with
    | .error e => .error e
    | .ok (received, q) => .ok { s with queue := q, reads := s.reads ++ received.read }
  | .close => .ok { s with queue := { s.queue with closed := true } }

/-! ### The books -/

/-- The byte count and the picture counts are those of the queued samples. -/
structure Queue.Accounts (q : Queue) : Prop where
  bytes : q.bytes = (q.samples.map weight).sum
  pictures : Tally.Counts q.pictures (q.samples.map picture)

/-- The three limits are kept. -/
structure Queue.Bounded (q : Queue) : Prop where
  pictures : q.pictures.size ≤ maxPictures
  samples : q.samples.length ≤ maxSamples
  bytes : q.bytes ≤ maxBytes

/-- With right books the oldest sample can be taken, and the books stay right. -/
private theorem pop_spec {q : Queue} (h : q.Accounts) {sample : InboundVideoSample}
    {rest : List InboundVideoSample} (hq : q.samples = sample :: rest) :
    ∃ popped, q.pop = .ok (some sample, popped) ∧ popped.Accounts ∧ popped.samples = rest ∧
      popped.lagged = q.lagged ∧ (q.Bounded → popped.Bounded) := by
  have hbytes : q.bytes = weight sample + (rest.map weight).sum := by
    rw [h.bytes, hq, List.map_cons, List.sum_cons]
  have hcounts : Tally.Counts q.pictures (picture sample :: rest.map picture) := by
    have := h.pictures
    rwa [hq, List.map_cons] at this
  obtain ⟨pictures, hremove, hrest⟩ := hcounts.remove
  have hpop : q.pop = .ok (some sample,
      { q with samples := rest, pictures := pictures, bytes := q.bytes - weight sample }) := by
    rw [Queue.pop, hq]
    simp only
    rw [if_neg (by omega), hremove]
  refine ⟨_, hpop, ⟨?_, hrest⟩, rfl, rfl, fun hb ↦ ⟨?_, ?_, ?_⟩⟩
  · show q.bytes - weight sample = (rest.map weight).sum
    omega
  · exact Nat.le_trans (Tally.size_remove_le hremove) hb.pictures
  · have := hb.samples
    rw [hq, List.length_cons] at this
    exact Nat.le_of_succ_le this
  · exact Nat.le_trans (Nat.sub_le _ _) hb.bytes

/-- The loop drops samples from the front and counts them, until the new one fits. -/
private theorem evict_spec (key : Picture) (bytes rounds : Nat) {q : Queue} (h : q.Accounts)
    (hrounds : q.samples.length ≤ rounds) :
    ∃ evicted k, q.evict key bytes rounds = .ok evicted ∧ evicted.Accounts ∧
      k ≤ q.samples.length ∧ evicted.samples = q.samples.drop k ∧
      evicted.lagged = q.lagged + k ∧ evicted.pressed key bytes = false ∧
      (q.Bounded → evicted.Bounded) := by
  induction rounds generalizing q with
  | zero =>
    have hnil : q.samples = [] := List.eq_nil_of_length_eq_zero (Nat.le_zero.mp hrounds)
    refine ⟨q, 0, rfl, h, Nat.zero_le _, rfl, rfl, ?_, id⟩
    simp [Queue.pressed, hnil]
  | succ rounds ih =>
    cases hpressed : q.pressed key bytes with
    | false =>
      refine ⟨q, 0, ?_, h, Nat.zero_le _, rfl, rfl, hpressed, id⟩
      rw [Queue.evict, hpressed]
      rfl
    | true =>
      cases hq : q.samples with
      | nil => simp [Queue.pressed, hq] at hpressed
      | cons sample rest =>
        obtain ⟨popped, hpop, haccounts, hrest, hlagged, hbounded⟩ := pop_spec h hq
        rw [hq, List.length_cons] at hrounds
        obtain ⟨evicted, k, hevict, hacc, hk, hsamples, hlag, hfits, hb⟩ :=
          ih (q := { popped with lagged := popped.lagged + 1 })
            ⟨haccounts.bytes, haccounts.pictures⟩ (by rw [hrest]; omega)
        refine ⟨evicted, k + 1, ?_, hacc, ?_, ?_, ?_, hfits, fun hbq ↦ hb ?_⟩
        · rw [Queue.evict, if_pos hpressed, hpop]
          exact hevict
        · rw [hrest] at hk
          rw [List.length_cons]
          omega
        · rw [hsamples, hrest, List.drop_succ_cons]
        · have hsum : evicted.lagged = popped.lagged + 1 + k := hlag
          omega
        · exact ⟨(hbounded hbq).pictures, (hbounded hbq).samples, (hbounded hbq).bytes⟩

/-- A sample that fits under the limits keeps them. -/
private theorem bounded_of_fits {q : Queue} (h : q.Accounts) (hb : q.Bounded)
    {sample : InboundVideoSample} (hfits : q.pressed (picture sample) (weight sample) = false)
    (hsize : weight sample ≤ maxBytes) :
    Queue.Bounded { q with
      bytes := q.bytes + weight sample
      pictures := Tally.add q.pictures (picture sample)
      samples := q.samples ++ [sample] } := by
  by_cases hnil : q.samples = []
  · -- Into an empty queue every sample of a legal size fits.
    have hcounts := h.pictures
    rw [hnil] at hcounts
    have hbytes := h.bytes
    rw [hnil] at hbytes
    have hzero : q.pictures.size = 0 := hcounts.size_nil
    refine ⟨?_, ?_, ?_⟩
    · show (Tally.add q.pictures (picture sample)).size ≤ maxPictures
      rw [Tally.size_add, hzero]
      split
      · exact Nat.zero_le _
      · simp [maxPictures]
    · simp [hnil, maxSamples]
    · show q.bytes + weight sample ≤ maxBytes
      simp only [List.map_nil, List.sum_nil] at hbytes
      omega
  · have hfits' : (picture sample ∈ q.pictures ∨ q.pictures.size < maxPictures) ∧
        weight sample ≤ maxBytes - q.bytes ∧ q.samples.length < maxSamples := by
      have hnew : q.pictures.contains (picture sample) = false ↔ picture sample ∉ q.pictures := by
        rw [Std.ExtHashMap.mem_iff_contains, Bool.not_eq_true]
      simpa [Queue.pressed, hnil, and_assoc, or_iff_not_imp_left, hnew] using hfits
    obtain ⟨hpicture, hroom, hlength⟩ := hfits'
    refine ⟨?_, ?_, ?_⟩
    · show (Tally.add q.pictures (picture sample)).size ≤ maxPictures
      rw [Tally.size_add]
      split
      · exact hb.pictures
      · next hnew => exact hpicture.resolve_left hnew
    · show (q.samples ++ [sample]).length ≤ maxSamples
      rw [List.length_append, List.length_singleton]
      omega
    · show q.bytes + weight sample ≤ maxBytes
      have := hb.bytes
      omega

/-- A push drops samples from the front of what was queued, the new sample included, and counts
them. -/
private theorem push_spec {q : Queue} (h : q.Accounts) (hb : q.Bounded)
    (sample : InboundVideoSample) :
    ∃ pushed k, q.push sample = .ok pushed ∧ pushed.Accounts ∧ pushed.Bounded ∧
      k ≤ (q.samples ++ [sample]).length ∧ pushed.samples = (q.samples ++ [sample]).drop k ∧
      pushed.lagged = q.lagged + k := by
  obtain ⟨evicted, k, hevict, hacc, hk, hsamples, hlag, hfits, hbounded⟩ :=
    evict_spec (picture sample) (weight sample) q.samples.length h (Nat.le_refl _)
  by_cases hsize : weight sample > maxBytes
  · -- A sample over the limit empties the queue first.
    have hnil : evicted.samples = [] := by
      by_contra hne
      have hpressed : evicted.pressed (picture sample) (weight sample) = true := by
        have hroom : maxBytes - evicted.bytes < weight sample := by omega
        simp [Queue.pressed, hne, hroom]
      rw [hfits] at hpressed
      cases hpressed
    have hall : k = q.samples.length := by
      rw [hsamples, List.drop_eq_nil_iff] at hnil
      omega
    refine ⟨{ evicted with lagged := evicted.lagged + 1 }, k + 1, ?_, ⟨hacc.bytes, hacc.pictures⟩,
      ⟨(hbounded hb).pictures, (hbounded hb).samples, (hbounded hb).bytes⟩, ?_, ?_, ?_⟩
    · simp only [Queue.push, hevict]
      rw [if_pos hsize]
    · simp [hall]
    · show evicted.samples = _
      rw [hnil, List.drop_of_length_le (by simp [hall])]
    · show evicted.lagged + 1 = _
      omega
  · refine ⟨_, k, ?_, ⟨?_, ?_⟩, bounded_of_fits hacc (hbounded hb) hfits (by omega), ?_, ?_, hlag⟩
    · simp only [Queue.push, hevict]
      rw [if_neg hsize]
    · simp [hacc.bytes]
    · show Tally.Counts (Tally.add evicted.pictures (picture sample))
        ((evicted.samples ++ [sample]).map picture)
      refine (hacc.pictures.add (picture sample)).perm ?_
      rw [List.map_append]
      exact (List.perm_append_singleton (picture sample) (evicted.samples.map picture)).symm
    · rw [List.length_append]
      omega
    · show evicted.samples ++ [sample] = _
      rw [hsamples, List.drop_append_of_le_length hk]

/-! ### Runs -/

/-- The invariant of a subscription: right books, the limits kept, and the queue is what follows in
the pushed samples on those read, reported and not reported yet. -/
structure Subscription.Kept (s : Subscription) : Prop where
  accounts : s.queue.Accounts
  bounded : s.queue.Bounded
  behind : position s.reads + s.queue.lagged ≤ s.pushed.length
  queued : s.queue.samples = s.pushed.drop (position s.reads + s.queue.lagged)
  faithful : Faithful s.pushed s.reads

theorem kept_start : Subscription.start.Kept where
  accounts := ⟨rfl, Tally.counts_empty⟩
  bounded := ⟨Nat.zero_le _, Nat.zero_le _, Nat.zero_le _⟩
  behind := Nat.le_refl 0
  queued := rfl
  faithful := faithful_nil []

private theorem Subscription.Kept.push {s : Subscription} (h : s.Kept)
    (sample : InboundVideoSample) : ∃ s', step s (.push sample) = .ok s' ∧ s'.Kept := by
  obtain ⟨q, k, hpush, hacc, hb, hk, hsamples, hlag⟩ := push_spec h.accounts h.bounded sample
  have hbehind := h.behind
  have hqueued : s.queue.samples ++ [sample] =
      (s.pushed ++ [sample]).drop (position s.reads + s.queue.lagged) := by
    rw [h.queued, List.drop_append_of_le_length hbehind]
  refine ⟨⟨q, s.pushed ++ [sample], s.reads⟩, by simp only [step, hpush], hacc, hb, ?_, ?_,
    h.faithful.append [sample]⟩
  · show position s.reads + q.lagged ≤ (s.pushed ++ [sample]).length
    rw [hqueued, List.length_drop] at hk
    rw [List.length_append] at hk ⊢
    omega
  · show q.samples = (s.pushed ++ [sample]).drop (position s.reads + q.lagged)
    rw [hsamples, hqueued, List.drop_drop, hlag, Nat.add_assoc]

private theorem Subscription.Kept.recv {s : Subscription} (h : s.Kept) :
    ∃ s', step s .recv = .ok s' ∧ s'.Kept := by
  by_cases hlag : s.queue.lagged = 0
  · have hqueued := h.queued
    rw [hlag, Nat.add_zero] at hqueued
    cases hsamples : s.queue.samples with
    | nil =>
      have hpop : s.queue.pop = .ok (none, s.queue) := by rw [Queue.pop, hsamples]
      have hread :
          (if s.queue.closed = true then Received.closed else Received.wait).read = [] := by
        split <;> rfl
      have hstep : step s .recv = .ok s := by
        simp only [step, Queue.recv, hlag, ne_eq, not_true_eq_false, ↓reduceIte, hpop, hread,
          List.append_nil]
      exact ⟨s, hstep, h⟩
    | cons sample rest =>
      obtain ⟨popped, hpop, hacc, hrest, hpopped, hb⟩ := pop_spec h.accounts hsamples
      have hfront : s.pushed[position s.reads]? = some sample := by
        rw [← List.head?_drop, ← hqueued, hsamples, List.head?_cons]
      have hlt := (List.getElem?_eq_some_iff.mp hfront).1
      have hposition : position (s.reads ++ [.item sample]) = position s.reads + 1 := by
        simp [Read.span]
      refine ⟨⟨popped, s.pushed, s.reads ++ [.item sample]⟩, ?_, hacc, hb h.bounded, ?_, ?_, ?_⟩
      · simp only [step, Queue.recv, hlag, ne_eq, not_true_eq_false, ↓reduceIte, hpop,
          Received.read]
      · show position (s.reads ++ [.item sample]) + popped.lagged ≤ s.pushed.length
        rw [hposition, hpopped, hlag]
        exact hlt
      · show popped.samples = s.pushed.drop (position (s.reads ++ [.item sample]) + popped.lagged)
        rw [hposition, hpopped, hlag, Nat.add_zero, ← List.tail_drop, ← hqueued, hsamples, hrest,
          List.tail_cons]
      · refine h.faithful.snoc fun x hx ↦ ?_
        cases hx
        exact hfront
  · have hposition : position (s.reads ++ [.gap s.queue.lagged]) =
        position s.reads + s.queue.lagged := by simp [Read.span]
    refine ⟨⟨{ s.queue with lagged := 0 }, s.pushed, s.reads ++ [.gap s.queue.lagged]⟩, ?_,
      ⟨h.accounts.bytes, h.accounts.pictures⟩,
      ⟨h.bounded.pictures, h.bounded.samples, h.bounded.bytes⟩, ?_, ?_, ?_⟩
    · simp only [step, Queue.recv, ne_eq, hlag, not_false_eq_true, ↓reduceIte, Received.read]
    · show position (s.reads ++ [.gap s.queue.lagged]) + 0 ≤ s.pushed.length
      rw [hposition, Nat.add_zero]
      exact h.behind
    · show s.queue.samples = s.pushed.drop (position (s.reads ++ [.gap s.queue.lagged]) + 0)
      rw [hposition, Nat.add_zero]
      exact h.queued
    · exact h.faithful.snoc fun x hx ↦ by cases hx

/-- No operation panics, and each keeps the invariant. -/
theorem Subscription.Kept.step {s : Subscription} (h : s.Kept) (o : Op) :
    ∃ s', step s o = .ok s' ∧ s'.Kept := by
  cases o with
  | push sample => exact h.push sample
  | recv => exact h.recv
  | close =>
    exact ⟨_, rfl, ⟨h.accounts.bytes, h.accounts.pictures⟩,
      ⟨h.bounded.pictures, h.bounded.samples, h.bounded.bytes⟩, h.behind, h.queued, h.faithful⟩

/-- Every run of pushes and receives goes through and accounts for every sample. The samples that
were read stand in the pushed ones behind as many as were read and reported lost before them. -/
theorem every_sample_accounted (ops : List Op) :
    ∃ s, replay step Subscription.start ops = .ok s ∧
      s.queue.bytes = (s.queue.samples.map weight).sum ∧
      Tally.Counts s.queue.pictures (s.queue.samples.map picture) ∧
      s.queue.pictures.size ≤ maxPictures ∧ s.queue.samples.length ≤ maxSamples ∧
      s.queue.bytes ≤ maxBytes ∧
      (items s.reads).Sublist s.pushed ∧
      s.pushed.length = (items s.reads).length + s.queue.samples.length +
        ((gaps s.reads).sum + s.queue.lagged) ∧
      Faithful s.pushed s.reads := by
  obtain ⟨s, hrun, h⟩ := replay_total (I := Subscription.Kept) (fun _ o h ↦ h.step o)
    kept_start ops
  have hlength := congrArg List.length h.queued
  rw [List.length_drop, position_eq] at hlength
  have hbehind := h.behind
  rw [position_eq] at hbehind
  refine ⟨s, hrun, h.accounts.bytes, h.accounts.pictures, h.bounded.pictures, h.bounded.samples,
    h.bounded.bytes, h.faithful.items_sublist, ?_, h.faithful⟩
  omega

end MyOwnMesh.Video.Fanout
