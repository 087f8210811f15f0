import Mathlib.Algebra.BigOperators.Group.List.Basic
import Mathlib.Algebra.GroupWithZero.Nat
import MyOwnMesh.Lib.Replay

/-!
# Frames on a byte stream, read by a future that may be dropped

A frame starts with a header that tells how long its message is and how long the frame. A reader
takes the header from the stream and then the rest; what it has taken lives in the reader. A
bridge serves such a reader and other work in turns, and a reader that is dropped for the other
work takes along what it has taken. Frames come out as they went in exactly when no reader is
dropped that holds something.
-/

namespace Lib.Framing

open Lib.Replay

universe u

variable {B : Type u}

/-- How the frames of a stream are delimited: the length of a header, and what a header says
about the length of the message and of the frame. -/
structure Format (B : Type u) where
  header : Nat
  sizes : List B → Option (Nat × Nat)
  header_pos : 0 < header
  sizes_le : ∀ h n m, sizes h = some (n, m) → header ≤ n ∧ n ≤ m

/-- What comes of reading a frame so far. -/
inductive Outcome (B : Type u) where
  | pending
  | ready (message : List B)
  | malformed

/-- What a list of bytes starts with. -/
def Format.parse (F : Format B) (bytes : List B) : Outcome B :=
  if bytes.length < F.header then .pending
  else
    match F.sizes (bytes.take F.header) with
    | none => .malformed
    | some (n, m) => if bytes.length < m then .pending else .ready (bytes.take n)

/-- The length of the frame that a message travels in. -/
def Format.frameLength (F : Format B) (message : List B) : Nat :=
  match F.sizes (message.take F.header) with
  | none => 0
  | some (_, m) => m

/-- The reader is polled: it fills the header from what the stream has, then the frame. The
results are what it holds, what the stream still has, and the outcome. -/
def Format.poll (F : Format B) (got unread : List B) : List B × List B × Outcome B :=
  let k := F.header - got.length
  let got₁ := got ++ unread.take k
  let unread₁ := unread.drop k
  if got₁.length < F.header then (got₁, unread₁, .pending)
  else
    match F.sizes (got₁.take F.header) with
    | none => (got₁, unread₁, .malformed)
    | some (n, m) =>
      let k' := m - got₁.length
      let got₂ := got₁ ++ unread₁.take k'
      let unread₂ := unread₁.drop k'
      if got₂.length < m then (got₂, unread₂, .pending)
      else (got₂, unread₂, .ready (got₂.take n))

/-- A bridge: the bytes that arrived and are unread, those the current reader holds, the
messages handed on, what was written the other way, and whether the stream was given up. -/
structure Bridge (B : Type u) where
  unread : List B
  got : List B
  forwarded : List (List B)
  written : List B
  failed : Bool

/-- A bridge between two messages. -/
def Bridge.start : Bridge B := ⟨[], [], [], [], false⟩

/-- Bytes arrive, the reader is polled, or the other work completes first. -/
inductive Event (B : Type u) where
  | arrive (chunk : List B)
  | poll
  | outbound (message : List B)

/-- One turn of the bridge. A message that is complete is handed on and a new reader begins;
outbound work drops the reader and writes its message the other way. -/
def Bridge.step (F : Format B) (write : List B → List B) (s : Bridge B) (e : Event B) :
    Bridge B :=
  if s.failed then s
  else
    match e with
    | .arrive chunk => { s with unread := s.unread ++ chunk }
    | .poll =>
      match F.poll s.got s.unread with
      | (got, unread, .pending) => { s with got := got, unread := unread }
      | (_, unread, .ready message) =>
        { s with got := [], unread := unread, forwarded := s.forwarded ++ [message] }
      | (got, unread, .malformed) => { s with got := got, unread := unread, failed := true }
    | .outbound message => { s with got := [], written := s.written ++ write message }

/-- The bytes an event brings. -/
def Event.bytes : Event B → List B
  | .arrive chunk => chunk
  | _ => []

/-- A turn that does not drop a reader with something in it. -/
def KeepsReader (s : Bridge B) (e : Event B) : Prop :=
  match e with
  | .outbound _ => s.got = []
  | _ => True

/-! ### Polling is parsing -/

variable {F : Format B}

/-- A reader that is not done holds no complete frame. -/
def Unfinished (F : Format B) (got : List B) : Prop := F.parse got = .pending

theorem unfinished_nil : Unfinished F ([] : List B) := by
  simp [Unfinished, Format.parse, F.header_pos]

/-- Filling up to a length takes a beginning of what there is. -/
private theorem fill_eq (got unread : List B) {n : Nat} (h : got.length ≤ n) :
    got ++ unread.take (n - got.length) = (got ++ unread).take n ∧
      unread.drop (n - got.length) = (got ++ unread).drop n := by
  constructor
  · rw [List.take_append, List.take_of_length_le h]
  · rw [List.drop_append, List.drop_of_length_le h, List.nil_append]

/-- A reader that is past its header wants more than it holds. -/
private theorem Unfinished.length_lt {got : List B} (h : Unfinished F got)
    (hlen : F.header ≤ got.length) {n m : Nat} (hs : F.sizes (got.take F.header) = some (n, m)) :
    got.length < m := by
  by_contra hge
  simp [Unfinished, Format.parse, Nat.not_lt.mpr hlen, hs, hge] at h

/-- A poll parses what the reader holds together with what the stream has, and takes no more
than the frame. -/
theorem poll_eq {got : List B} (h : Unfinished F got) (unread : List B) :
    match F.parse (got ++ unread) with
    | .pending => F.poll got unread = (got ++ unread, [], .pending)
    | .malformed => (F.poll got unread).2.2 = .malformed
    | .ready message => F.poll got unread =
        ((got ++ unread).take (F.frameLength (got ++ unread)),
          (got ++ unread).drop (F.frameLength (got ++ unread)), .ready message) := by
  -- The header is filled first, unless the reader holds it.
  obtain ⟨a, ha⟩ : ∃ a, a = max F.header got.length := ⟨_, rfl⟩
  have hk : F.header - got.length = a - got.length := by omega
  have hgota : got.length ≤ a := by omega
  obtain ⟨hgot, hunread⟩ := fill_eq got unread hgota
  simp only [Format.poll, hk, hgot, hunread]
  generalize hrest : got ++ unread = rest at *
  have hle : got.length ≤ rest.length := by simp [← hrest]
  unfold Format.parse
  by_cases hshort : rest.length < F.header
  · have hall : rest.length ≤ a := by omega
    simp [hshort, List.take_of_length_le hall, List.drop_of_length_le hall]
  · have hlen : ¬ (rest.take a).length < F.header := by
      simp only [List.length_take]
      omega
    have hhead : (rest.take a).take F.header = rest.take F.header := by
      rw [List.take_take, Nat.min_eq_left (by omega)]
    simp only [hshort, hlen, ↓reduceIte, hhead]
    cases hs : F.sizes (rest.take F.header) with
    | none => rfl
    | some e =>
      obtain ⟨n, m⟩ := e
      obtain ⟨hn, hnm⟩ := F.sizes_le _ _ _ hs
      have hm : a ≤ m := by
        by_cases hlong : F.header ≤ got.length
        · have hgothead : got.take F.header = rest.take F.header := by
            rw [← hrest, List.take_append_of_le_length hlong]
          have := h.length_lt hlong (hgothead ▸ hs)
          omega
        · omega
      have hlen' : (rest.take a).length ≤ m := by
        simp only [List.length_take]
        omega
      obtain ⟨hgot', hunread'⟩ := fill_eq (rest.take a) (rest.drop a) hlen'
      rw [List.take_append_drop] at hgot' hunread'
      simp only [hgot', hunread']
      by_cases hfew : rest.length < m
      · have hall : rest.length ≤ m := by omega
        simp [hfew, List.take_of_length_le hall, List.drop_of_length_le hall]
      · have henough : ¬ (rest.take m).length < m := by simp only [List.length_take]; omega
        simp only [hfew, henough, ↓reduceIte, Format.frameLength, hs, List.take_take,
          Nat.min_eq_left hnm]

/-- What was read names the length of the frame it came in, and all of the frame was there. -/
theorem frameLength_of_ready {bytes message : List B} (h : F.parse bytes = .ready message) :
    F.frameLength message = F.frameLength bytes ∧ F.frameLength bytes ≤ bytes.length := by
  unfold Format.parse at h
  by_cases hshort : bytes.length < F.header
  · simp [hshort] at h
  simp only [hshort, ↓reduceIte] at h
  cases hs : F.sizes (bytes.take F.header) with
  | none => simp [hs] at h
  | some e =>
    obtain ⟨n, m⟩ := e
    simp only [hs] at h
    by_cases hfew : bytes.length < m
    · simp [hfew] at h
    · simp only [hfew, ↓reduceIte, Outcome.ready.injEq] at h
      have hhead : message.take F.header = bytes.take F.header := by
        rw [← h, List.take_take, Nat.min_eq_left (F.sizes_le _ _ _ hs).1]
      simp only [Format.frameLength, hhead, hs]
      exact ⟨trivial, Nat.not_lt.mp hfew⟩

variable {write : List B → List B} {s : Bridge B}

/-- What a poll comes to. -/
theorem Bridge.step_poll (write : List B → List B) (hhealthy : s.failed = false)
    (h : Unfinished F s.got) :
    (F.parse (s.got ++ s.unread) = .pending ∧
      s.step F write .poll = { s with got := s.got ++ s.unread, unread := [] }) ∨
    (∃ message, F.parse (s.got ++ s.unread) = .ready message ∧
      s.step F write .poll = { s with
        got := []
        unread := (s.got ++ s.unread).drop (F.frameLength (s.got ++ s.unread))
        forwarded := s.forwarded ++ [message] }) ∨
    (F.parse (s.got ++ s.unread) = .malformed ∧ (s.step F write .poll).failed = true) := by
  have hpoll := poll_eq h s.unread
  unfold Bridge.step
  rw [if_neg (by simp [hhealthy])]
  cases hparse : F.parse (s.got ++ s.unread) with
  | pending =>
    rw [hparse] at hpoll
    exact .inl ⟨rfl, by simp only [hpoll]⟩
  | ready message =>
    rw [hparse] at hpoll
    exact .inr (.inl ⟨message, rfl, by simp only [hpoll]⟩)
  | malformed =>
    rw [hparse] at hpoll
    obtain ⟨⟨got, unread, outcome⟩, hr⟩ : ∃ r, r = F.poll s.got s.unread := ⟨_, rfl⟩
    rw [← hr] at hpoll ⊢
    cases hpoll
    exact .inr (.inr ⟨rfl, rfl⟩)

/-- Nothing happens to a stream that was given up. -/
theorem Bridge.step_of_failed (h : s.failed = true) (e : Event B) : s.step F write e = s := by
  simp [Bridge.step, h]

/-! ### Frames of messages -/

/-- A message as it travels: the header says how long both are, and the frame begins with the
message. -/
structure Framed (F : Format B) (message frame : List B) : Prop where
  sizes : F.sizes (message.take F.header) = some (message.length, frame.length)
  starts : message <+: frame

namespace Framed

variable {message frame : List B}

theorem le (h : Framed F message frame) :
    F.header ≤ message.length ∧ message.length ≤ frame.length := F.sizes_le _ _ _ h.sizes

/-- The header of a frame is the header of its message. -/
theorem take_header (h : Framed F message frame) (rest : List B) :
    (frame ++ rest).take F.header = message.take F.header := by
  obtain ⟨padding, hpad⟩ := h.starts
  rw [← hpad, List.append_assoc, List.take_append_of_le_length h.le.1]

/-- A whole frame is read as its message. -/
theorem parse_append (h : Framed F message frame) (rest : List B) :
    F.parse (frame ++ rest) = .ready message ∧
      F.frameLength (frame ++ rest) = frame.length := by
  obtain ⟨hheader, hmessage⟩ := h.le
  have hhead := h.take_header rest
  obtain ⟨padding, hpad⟩ := h.starts
  have hstart : (frame ++ rest).take message.length = message := by
    rw [← hpad, List.append_assoc, List.take_left]
  constructor
  · have hlong : ¬ (frame ++ rest).length < F.header := by simp only [List.length_append]; omega
    have hwhole : ¬ (frame ++ rest).length < frame.length := by simp
    simp only [Format.parse, hlong, ↓reduceIte, hhead, h.sizes, hwhole, hstart]
  · simp only [Format.frameLength, hhead, h.sizes]

/-- A frame that is not all there is waited for. -/
theorem parse_of_short (h : Framed F message frame) {bytes rest more : List B}
    (heq : bytes ++ more = frame ++ rest) (hlt : bytes.length < frame.length) :
    F.parse bytes = .pending := by
  unfold Format.parse
  split
  · rfl
  · next hlong =>
    have hhead : bytes.take F.header = message.take F.header := by
      rw [← h.take_header rest, ← heq, List.take_append_of_le_length (Nat.not_lt.mp hlong)]
    simp [hhead, h.sizes, hlt]

end Framed

/-! ### Nothing is lost -/

/-- The messages that are not handed on yet are what is held, unread and still to come. -/
structure Lossless (F : Format B) (frame : List B → List B) (messages : List (List B))
    (future : List B) (s : Bridge B) : Prop where
  healthy : s.failed = false
  unfinished : Unfinished F s.got
  split : ∃ todo, messages = s.forwarded ++ todo ∧
    s.got ++ s.unread ++ future = todo.flatMap frame

variable {frame : List B → List B} {messages : List (List B)} {future : List B}

/-- What starts with frames is either waiting for the rest of the first, or has all of it. -/
private theorem parse_frames {todo : List (List B)} (hframed : ∀ m ∈ todo, Framed F m (frame m))
    {bytes : List B} (h : bytes ++ future = todo.flatMap frame) :
    F.parse bytes = .pending ∨ ∃ m ms rest, todo = m :: ms ∧ bytes = frame m ++ rest ∧
      rest ++ future = ms.flatMap frame := by
  cases todo with
  | nil =>
    rw [List.flatMap_nil] at h
    rw [(List.append_eq_nil_iff.mp h).1]
    exact .inl unfinished_nil
  | cons m ms =>
    have hm : Framed F m (frame m) := hframed m (by simp)
    rw [List.flatMap_cons] at h
    by_cases hlt : bytes.length < (frame m).length
    · exact .inl (hm.parse_of_short h hlt)
    · right
      rcases List.append_eq_append_iff.mp h with ⟨missing, hx, hy⟩ | ⟨rest, hx, hy⟩
      · have hnone : missing = [] := by
          apply List.eq_nil_of_length_eq_zero
          have := congrArg List.length hx
          simp only [List.length_append] at this
          omega
        refine ⟨m, ms, [], rfl, ?_, ?_⟩
        · rw [hx, hnone, List.append_nil, List.append_nil]
        · rw [hy, hnone, List.nil_append, List.nil_append]
      · exact ⟨m, ms, rest, rfl, hx, hy.symm⟩

/-- A turn that keeps the reader keeps it so. -/
theorem Lossless.step (hframed : ∀ m ∈ messages, Framed F m (frame m)) {e : Event B}
    (h : Lossless F frame messages (e.bytes ++ future) s) (hkeep : KeepsReader s e) :
    Lossless F frame messages future (s.step F write e) := by
  obtain ⟨hhealthy, hunfinished, todo, hmessages, hbytes⟩ := h
  cases e with
  | arrive chunk =>
    simp only [Bridge.step, hhealthy, Bool.false_eq_true, ↓reduceIte]
    refine ⟨rfl, hunfinished, todo, hmessages, ?_⟩
    simpa [Event.bytes] using hbytes
  | outbound out =>
    have hgot : s.got = [] := hkeep
    simp only [Bridge.step, hhealthy, Bool.false_eq_true, ↓reduceIte]
    refine ⟨rfl, unfinished_nil, todo, hmessages, ?_⟩
    simpa [Event.bytes, hgot] using hbytes
  | poll =>
    simp only [Event.bytes, List.nil_append] at hbytes
    have htodo : ∀ m ∈ todo, Framed F m (frame m) := fun m hm ↦ hframed m (by simp [hmessages, hm])
    rcases parse_frames htodo hbytes with hpending | ⟨m, ms, rest, rfl, hfirst, hrest⟩
    · rcases Bridge.step_poll write hhealthy hunfinished with
        ⟨-, hstep⟩ | ⟨_, hparse, -⟩ | ⟨hparse, -⟩
      · rw [hstep]
        exact ⟨hhealthy, hpending, todo, hmessages, by simpa using hbytes⟩
      · simp [hpending] at hparse
      · simp [hpending] at hparse
    · obtain ⟨hready, hlength⟩ := (htodo m (by simp)).parse_append rest
      rw [← hfirst] at hready
      rcases Bridge.step_poll write hhealthy hunfinished with
        ⟨hparse, -⟩ | ⟨m', hparse, hstep⟩ | ⟨hparse, -⟩
      · simp [hready] at hparse
      · obtain rfl : m = m' := by
          rw [hready] at hparse
          exact Outcome.ready.inj hparse
        rw [hstep, hfirst, hlength, List.drop_left]
        exact ⟨hhealthy, unfinished_nil, ms, by simp [hmessages], by simpa using hrest⟩
      · simp [hready] at hparse

/-! ### What is lost stays lost -/

/-- How many bytes of the stream are accounted for. -/
def Bridge.weight (F : Format B) (s : Bridge B) : Nat :=
  (s.forwarded.map F.frameLength).sum + s.got.length + s.unread.length

/-- A bridge that accounts for no more than so many bytes, unless it gave up. -/
structure Bounded (F : Format B) (total future : Nat) (s : Bridge B) : Prop where
  unfinished : s.failed = false → Unfinished F s.got
  le : s.failed = false → s.weight F + future ≤ total

/-- No turn accounts for more; dropping a reader accounts for less. -/
theorem Bounded.step (write : List B → List B) {total future : Nat} {e : Event B}
    (h : Bounded F total (e.bytes.length + future) s) :
    Bounded F total future (s.step F write e) ∧
      (s.failed = false → ¬ KeepsReader s e →
        (s.step F write e).weight F + future < total) := by
  cases hfailed : s.failed with
  | true =>
    rw [Bridge.step_of_failed hfailed]
    exact ⟨⟨by simp [hfailed], by simp [hfailed]⟩, by simp⟩
  | false =>
    have hunfinished := h.unfinished hfailed
    have hle := h.le hfailed
    unfold Bridge.weight at hle
    cases e with
    | arrive chunk =>
      simp only [Bridge.step, hfailed, Bool.false_eq_true, ↓reduceIte]
      refine ⟨⟨fun _ ↦ hunfinished, fun _ ↦ ?_⟩, fun _ hkeep ↦ absurd trivial hkeep⟩
      simp only [Bridge.weight, List.length_append]
      simp only [Event.bytes] at hle
      omega
    | outbound out =>
      simp only [Bridge.step, hfailed, Bool.false_eq_true, ↓reduceIte]
      simp only [Event.bytes, List.length_nil] at hle
      refine ⟨⟨fun _ ↦ unfinished_nil, fun _ ↦ ?_⟩, fun _ hkeep ↦ ?_⟩
      · simp only [Bridge.weight, List.length_nil]
        omega
      · have hpos : 0 < s.got.length := List.length_pos_iff.mpr hkeep
        simp only [Bridge.weight, List.length_nil]
        omega
    | poll =>
      refine ⟨?_, fun _ hkeep ↦ absurd trivial hkeep⟩
      simp only [Event.bytes, List.length_nil, Nat.zero_add] at hle
      rcases Bridge.step_poll write hfailed hunfinished with
        ⟨hparse, hstep⟩ | ⟨m, hparse, hstep⟩ | ⟨-, hstep⟩
      · rw [hstep]
        refine ⟨fun _ ↦ hparse, fun _ ↦ ?_⟩
        simp only [Bridge.weight, List.length_append, List.length_nil]
        omega
      · rw [hstep]
        refine ⟨fun _ ↦ unfinished_nil, fun _ ↦ ?_⟩
        obtain ⟨hsame, hthere⟩ := frameLength_of_ready hparse
        rw [List.length_append] at hthere
        simp only [Bridge.weight, List.map_append, List.map_cons, List.map_nil, List.sum_append,
          List.sum_cons, List.sum_nil, hsame, List.length_nil, List.length_drop,
          List.length_append]
        omega
      · exact ⟨by simp [hstep], by simp [hstep]⟩

/-! ### Whole runs -/

/-- The bytes that a list of events brings. -/
def incoming (events : List (Event B)) : List B := events.flatMap Event.bytes

/-- A run that keeps every reader with something in it loses nothing. -/
theorem run_lossless (hframed : ∀ m ∈ messages, Framed F m (frame m)) {events : List (Event B)}
    (h : Lossless F frame messages (incoming events) s)
    (hkeep : AllSteps (Bridge.step F write) KeepsReader s events) :
    Lossless F frame messages [] (run (Bridge.step F write) s events) := by
  induction events generalizing s with
  | nil => exact h
  | cons e rest ih =>
    obtain ⟨hfirst, hrest⟩ := hkeep
    exact ih (Lossless.step hframed h hfirst) hrest

/-- A stream that was given up stays so. -/
theorem run_failed (h : s.failed = true) (events : List (Event B)) :
    (run (Bridge.step F write) s events).failed = true := by
  refine run_invariant (I := fun s : Bridge B ↦ s.failed = true) (fun s e hs ↦ ?_) h events
  rw [Bridge.step_of_failed hs]
  exact hs

/-- Bytes that are not accounted for are not accounted for later. -/
theorem run_bounded (write : List B → List B) {total : Nat} {events : List (Event B)}
    (h : Bounded F total (incoming events).length s) :
    Bounded F total 0 (run (Bridge.step F write) s events) := by
  induction events generalizing s with
  | nil => exact h
  | cons e rest ih =>
    refine ih (Bounded.step write ?_).1
    simpa [incoming] using h

/-- A run that gives up nothing and ends with everything accounted for dropped no reader with
something in it. -/
theorem allSteps_of_bounded {total : Nat} {events : List (Event B)}
    (h : Bounded F total (incoming events).length s)
    (hhealthy : (run (Bridge.step F write) s events).failed = false)
    (hall : total ≤ (run (Bridge.step F write) s events).weight F) :
    AllSteps (Bridge.step F write) KeepsReader s events := by
  induction events generalizing s with
  | nil => trivial
  | cons e rest ih =>
    have hnow : s.failed = false := by
      by_contra hfailed
      rw [Bool.not_eq_false] at hfailed
      simp [run_failed hfailed] at hhealthy
    have hbound : Bounded F total (e.bytes.length + (incoming rest).length) s := by
      simpa [incoming] using h
    have hstep := hbound.step write
    refine ⟨?_, ih hstep.1 hhealthy hall⟩
    by_contra hdrop
    -- From the drop on, one byte less is ever accounted for.
    have hless : Bounded F (total - 1) (incoming rest).length (s.step F write e) := by
      refine ⟨hstep.1.unfinished, fun _ ↦ ?_⟩
      have := hstep.2 hnow hdrop
      omega
    have hend := (run_bounded write hless).le hhealthy
    have := hstep.2 hnow hdrop
    rw [run_cons] at hall
    omega

/-- Frames of messages, in any chunks: once everything that arrived is read, the messages are
handed on as they went in exactly when no reader that held something was dropped. -/
theorem forwarded_iff_keepsReader (hframed : ∀ m ∈ messages, Framed F m (frame m))
    {events : List (Event B)} (hbytes : incoming events = messages.flatMap frame)
    (hread : (run (Bridge.step F write) .start events).failed = true ∨
      (run (Bridge.step F write) .start events).unread = []) :
    ((run (Bridge.step F write) .start events).forwarded = messages ∧
      (run (Bridge.step F write) .start events).failed = false) ↔
      AllSteps (Bridge.step F write) KeepsReader .start events := by
  have hlength : ∀ m ∈ messages, F.frameLength m = (frame m).length := fun m hm ↦ by
    simp only [Format.frameLength, (hframed m hm).sizes]
  have htotal : (messages.map F.frameLength).sum = (incoming events).length := by
    rw [hbytes, List.length_flatMap, List.map_congr_left hlength]
  constructor
  · rintro ⟨hsame, hhealthy⟩
    have hstart : Bounded F (incoming events).length (incoming events).length Bridge.start :=
      ⟨fun _ ↦ unfinished_nil, fun _ ↦ by simp [Bridge.weight, Bridge.start]⟩
    refine allSteps_of_bounded hstart hhealthy ?_
    simp only [Bridge.weight, hsame, htotal]
    omega
  · intro hkeep
    have hstart : Lossless F frame messages (incoming events) Bridge.start :=
      ⟨rfl, unfinished_nil, messages, rfl, by simpa [Bridge.start] using hbytes⟩
    obtain ⟨hhealthy, hunfinished, todo, hmessages, hheld⟩ := run_lossless hframed hstart hkeep
    have hunread := hread.resolve_left (by simp [hhealthy])
    refine ⟨?_, hhealthy⟩
    -- A frame that is still to be handed on would be there whole, in an unfinished reader.
    rw [hunread, List.append_nil, List.append_nil] at hheld
    cases todo with
    | nil => rw [hmessages, List.append_nil]
    | cons m ms =>
      rw [List.flatMap_cons] at hheld
      have hm : Framed F m (frame m) := hframed m (by rw [hmessages]; simp)
      have hready := (hm.parse_append (ms.flatMap frame)).1
      rw [← hheld] at hready
      simp [Unfinished, hready] at hunfinished

end Lib.Framing
