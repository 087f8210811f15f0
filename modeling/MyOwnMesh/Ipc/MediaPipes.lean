import MyOwnMesh.Lib.Replay

/-!
# The media pipes of one client

`MediaSourcePipe` of `control.rs:776–797`, `run_media_source_pipe` of `control.rs:888–938` and the
sink of `clients.rs:123–146`. Every pipe has a channel of its own whose sender is put into the
client's sink; what was there is dropped. A pump clones the sink for a handoff and drops the clone
after it. The task of a pipe returns when its peer hangs up or when its channel has no sender, and
its connection handler then clears the sink, whatever is in it. A pipe is named by its number in
the order of opening; what waits in a channel is left out.
-/

namespace MyOwnMesh.MediaPipes

open Lib Lib.Replay

/-- Where the handler of a pipe stands: the sink is set and the answer is being written, the task
runs, the task returned, the handler is done. -/
inductive Phase where
  | opening
  | running
  | returned
  | done
  deriving DecidableEq, Repr

structure Pipe where
  phase : Phase
  /-- The peer did not hang up. -/
  connected : Bool
  deriving DecidableEq, Repr

/-- The pipes, the one whose sender is the client's sink, and those whose senders the pumps hold. -/
structure Client where
  pipes : List Pipe
  sink : Option Nat
  held : List Nat
  deriving DecidableEq, Repr

def Client.start : Client := ⟨[], none, []⟩

/-- A `MediaSourcePipe` request sets the sink; its answer is written or not; the peer hangs up; the
task returns; the handler clears the sink; a pump clones the sink and drops its clone. -/
inductive Op where
  | openPipe
  | answer (p : Nat) (ok : Bool)
  | hangUp (p : Nat)
  | finish (p : Nat)
  | clear (p : Nat)
  | clone
  | drop (i : Nat)
  deriving DecidableEq, Repr

/-- The phase of a pipe changes. -/
def Client.enter (c : Client) (p : Nat) (phase : Phase) : Client :=
  { c with pipes := c.pipes.modify p fun pipe ↦ { pipe with phase := phase } }

/-- Nobody has a sender of the pipe's channel. -/
def Client.Closed (c : Client) (p : Nat) : Prop := c.sink ≠ some p ∧ p ∉ c.held

instance (c : Client) (p : Nat) : Decidable (c.Closed p) := inferInstanceAs (Decidable (_ ∧ _))

def step (c : Client) : Op → Client
  | .openPipe => { c with pipes := c.pipes ++ [⟨.opening, true⟩], sink := some c.pipes.length }
  | .answer p ok =>
    match c.pipes[p]? with
    | some ⟨.opening, connected⟩ =>
      if ok then c.enter p .running
      -- it cannot be written, and the handler returns without clearing the sink
      else if connected then c else c.enter p .done
    | _ => c
  | .hangUp p => { c with pipes := c.pipes.modify p fun pipe ↦ { pipe with connected := false } }
  | .finish p =>
    match c.pipes[p]? with
    | some ⟨.running, connected⟩ =>
      if connected = false ∨ c.Closed p then c.enter p .returned else c
    | _ => c
  | .clear p =>
    match c.pipes[p]? with
    | some ⟨.returned, _⟩ => { c.enter p .done with sink := none }
    | _ => c
  | .clone => { c with held := c.sink.toList ++ c.held }
  | .drop i => { c with held := c.held.eraseIdx i }

/-- No newer pipe was opened. -/
def Client.Newest (c : Client) (p : Nat) : Prop := p + 1 = c.pipes.length

/-- A handler does not clear the sender of another pipe whose peer is there. -/
def Own (c : Client) : Op → Prop
  | .clear p => ∀ pipe ∈ c.pipes[p]?, pipe.phase = .returned → ∀ q ∈ c.sink, q ≠ p →
      ∀ other ∈ c.pipes[q]?, other.connected = false
  | _ => True

instance (c : Client) : DecidablePred (Own c)
  | .clear p => inferInstanceAs (Decidable (∀ pipe ∈ c.pipes[p]?, pipe.phase = .returned →
      ∀ q ∈ c.sink, q ≠ p → ∀ other ∈ c.pipes[q]?, other.connected = false))
  | .openPipe | .answer _ _ | .hangUp _ | .finish _ | .clone | .drop _ => .isTrue trivial

/-- No pipe is in the middle of opening or closing: every pipe is done, or its task runs, its peer
is there and no newer pipe took its place. -/
def Client.Settled (c : Client) : Prop := ∀ p pipe, c.pipes[p]? = some pipe →
  pipe.phase = .done ∨ pipe.phase = .running ∧ pipe.connected = true ∧ c.Newest p

/-- As long as its peer is there, the newest pipe is open and its sender is the sink. -/
def Client.Open (c : Client) : Prop := ∀ p pipe, c.pipes[p]? = some pipe → c.Newest p →
  pipe.connected = true → (pipe.phase = .opening ∨ pipe.phase = .running) ∧ c.sink = some p

/-- A pipe after one of them changed. -/
private theorem getElem?_modify_eq_some {pipes : List Pipe} {f : Pipe → Pipe} {p q : Nat}
    {pipe : Pipe} (h : (pipes.modify p f)[q]? = some pipe) :
    (p = q ∧ ∃ before, pipes[q]? = some before ∧ pipe = f before) ∨
      (p ≠ q ∧ pipes[q]? = some pipe) := by
  rw [List.getElem?_modify, Option.map_eq_map, Option.map_eq_some_iff] at h
  obtain ⟨before, hbefore, heq⟩ := h
  by_cases hpq : p = q
  · rw [if_pos hpq] at heq
    exact .inl ⟨hpq, before, hbefore, heq.symm⟩
  · rw [if_neg hpq] at heq
    cases heq
    exact .inr ⟨hpq, hbefore⟩

/-- The phase of a pipe changes to one that is open, or the pipe is not the newest one whose peer is
there. -/
private theorem Client.Open.enter {c : Client} (h : c.Open) {p : Nat} {phase : Phase}
    (hphase : ∀ pipe, c.pipes[p]? = some pipe → c.Newest p → pipe.connected = true →
      phase = .opening ∨ phase = .running) : (c.enter p phase).Open := by
  intro q pipe hq hnewest hconnected
  have hnewest' : c.Newest q := by
    rw [Client.Newest, Client.enter, List.length_modify] at hnewest
    exact hnewest
  rcases getElem?_modify_eq_some hq with ⟨rfl, before, hbefore, rfl⟩ | ⟨-, hbefore⟩
  · exact ⟨hphase before hbefore hnewest' hconnected, (h p before hbefore hnewest' hconnected).2⟩
  · exact h q pipe hbefore hnewest' hconnected

private theorem Client.Open.step {c : Client} (h : c.Open) {o : Op} (hown : Own c o) :
    (step c o).Open := by
  cases o with
  | openPipe =>
    intro p pipe hp hnewest hconnected
    simp only [MediaPipes.step, Client.Newest, List.length_append, List.length_singleton]
      at hp hnewest
    obtain rfl : p = c.pipes.length := by omega
    rw [List.getElem?_concat_length] at hp
    cases hp
    exact ⟨.inl rfl, rfl⟩
  | answer p ok =>
    simp only [MediaPipes.step]
    split
    · next connected hp =>
      cases ok with
      | true => exact h.enter fun _ _ _ _ ↦ .inr rfl
      | false =>
        cases connected with
        | true => exact h
        | false =>
          refine h.enter fun pipe hpipe _ hconnected ↦ ?_
          rw [hp] at hpipe
          cases hpipe
          cases hconnected
    · exact h
  | hangUp p =>
    intro q pipe hq hnewest hconnected
    have hnewest' : c.Newest q := by
      simpa only [Client.Newest, MediaPipes.step, List.length_modify] using hnewest
    rcases getElem?_modify_eq_some hq with ⟨rfl, before, hbefore, rfl⟩ | ⟨-, hbefore⟩
    · cases hconnected
    · exact h q pipe hbefore hnewest' hconnected
  | finish p =>
    simp only [MediaPipes.step]
    split
    · next connected hp =>
      split
      · next hover =>
        refine h.enter fun pipe hpipe hnewest hconnected ↦ ?_
        rw [hp] at hpipe
        cases hpipe
        -- its sender is the sink, so the channel is open
        have hsink := (h p _ hp hnewest hconnected).2
        rcases hover with hgone | hclosed
        · rw [hgone] at hconnected
          cases hconnected
        · exact absurd hsink hclosed.1
      · exact h
    · exact h
  | clear p =>
    simp only [MediaPipes.step]
    split
    · next connected hp =>
      intro q pipe hq hnewest hconnected
      have hnewest' : c.Newest q := by
        simpa only [Client.Newest, Client.enter, List.length_modify] using hnewest
      rcases getElem?_modify_eq_some hq with ⟨rfl, before, hbefore, rfl⟩ | ⟨hne, hbefore⟩
      · rw [hp] at hbefore
        cases hbefore
        rcases (h p _ hp hnewest' hconnected).1 with hphase | hphase <;> cases hphase
      · have hsink := (h q pipe hbefore hnewest' hconnected).2
        have hgone : pipe.connected = false := hown _ hp rfl q hsink hne.symm pipe hbefore
        rw [hgone] at hconnected
        cases hconnected
    · exact h
  | clone => exact h
  | drop i => exact h

/-- Re-opening works: in every run in which no handler clears the sender of another pipe whose peer
is there, a pipe whose peer is there and that no newer one replaced does not end; and whenever no
pipe is opening or closing, the sink is the sender of the newest pipe that is connected. -/
theorem newest_pipe_fed {ops : List Op} (hops : AllSteps step Own .start ops) :
    ∀ pre post, ops = pre ++ post →
      (∀ p pipe, (run step .start pre).pipes[p]? = some pipe → (run step .start pre).Newest p →
        pipe.connected = true → pipe.phase ≠ .returned ∧ pipe.phase ≠ .done) ∧
      ((run step .start pre).Settled → ∀ p pipe, (run step .start pre).pipes[p]? = some pipe →
        pipe.phase = .running →
        (∀ q newer, p < q → (run step .start pre).pipes[q]? = some newer →
          newer.phase ≠ .running) →
        (run step .start pre).sink = some p) := by
  intro pre post hpre
  have hopen : (run step .start pre).Open :=
    forall_run_of_allSteps (fun c o hc hown ↦ hc.step hown) (by simp [Client.Open, Client.start])
      hops pre post hpre
  constructor
  · intro p pipe hp hnewest hconnected
    rcases (hopen p pipe hp hnewest hconnected).1 with hphase | hphase <;> rw [hphase] <;> decide
  · intro hsettled p pipe hp hphase _
    rcases hsettled p pipe hp with hdone | ⟨-, hconnected, hnewest⟩
    · rw [hdone] at hphase
      cases hphase
    · exact (hopen p pipe hp hnewest hconnected).2

/-- The client reconnects: the first pipe is done before the second opens. -/
def reconnect : List Op :=
  [.openPipe, .answer 0 true, .clone, .drop 0, .hangUp 0, .finish 0, .clear 0, .openPipe,
    .answer 1 true]

/-- The second pipe is fed. -/
theorem second_pipe_fed :
    (run step .start reconnect).pipes = [⟨.done, false⟩, ⟨.running, true⟩] ∧
      (run step .start reconnect).sink = some 1 := by
  have hsettled : (run step .start reconnect).Settled := by
    intro p pipe hp
    match p, hp with
    | 0, hp => cases hp; exact .inl rfl
    | 1, hp => cases hp; exact .inr ⟨rfl, rfl, rfl⟩
  have hown : AllSteps step Own .start reconnect := by decide
  refine ⟨rfl, (newest_pipe_fed hown reconnect [] rfl).2 hsettled 1 ⟨.running, true⟩ rfl rfl ?_⟩
  intro q newer hq hnewer
  match q, hq, hnewer with
  | q + 2, _, hnewer => cases hnewer

/-- The second pipe opens before the first has ended: the end of the first takes the sink from the
second, which then ends although its peer is there. -/
theorem second_pipe_cleared :
    let overlap := [.openPipe, .answer 0 true, .openPipe, .answer 1 true, .finish 0, .clear 0]
    (run step .start overlap).pipes = [⟨.done, true⟩, ⟨.running, true⟩] ∧
      (run step .start overlap).sink = none ∧
      (run step .start (overlap ++ [.finish 1])).pipes = [⟨.done, true⟩, ⟨.returned, true⟩] := by
  decide

end MyOwnMesh.MediaPipes
