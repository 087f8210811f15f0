import Mathlib.Data.List.Basic
import MyOwnMesh.Lib.Replay

/-!
# Nodes that answer letters with letters

An asynchronous network: every node holds a state and answers a letter with letters of its own.
Letters in flight arrive one at a time and in any order. What arrived and what the nodes posted
is kept as history.
-/

namespace Lib.Network

open Lib.Replay

universe u v w

variable {N : Type u} {M : Type v} {σ : Type w}

/-- A message on its way. -/
@[ext] structure Letter (N : Type u) (M : Type v) where
  source : N
  target : N
  body : M

/-- The nodes, the letters in flight, and the history of arrivals and of what nodes posted. -/
structure Net (N : Type u) (M : Type v) (σ : Type w) where
  node : N → σ
  flight : List (Letter N M)
  arrived : List (Letter N M)
  posted : List (Letter N M)

/-- What a node does with a letter: its own name and state, the source and the body. -/
abbrev Handler (N : Type u) (M : Type v) (σ : Type w) := N → σ → N → M → σ × List (N × M)

/-- The letters of one node. -/
def letters (source : N) (out : List (N × M)) : List (Letter N M) :=
  out.map fun e ↦ ⟨source, e.1, e.2⟩

/-- Nothing has arrived yet. -/
def Net.start (node : N → σ) (flight : List (Letter N M)) : Net N M σ where
  node := node
  flight := flight
  arrived := []
  posted := []

variable [DecidableEq N]

/-- A letter arrives: `before` and `after` are the others in flight. -/
def Net.arrive (handle : Handler N M σ) (s : Net N M σ) (before : List (Letter N M))
    (l : Letter N M) (after : List (Letter N M)) : Net N M σ :=
  let r := handle l.target (s.node l.target) l.source l.body
  { node := Function.update s.node l.target r.1
    flight := before ++ after ++ letters l.target r.2
    arrived := s.arrived ++ [l]
    posted := s.posted ++ letters l.target r.2 }

/-- The letter at this place of the flight arrives, if there is one. -/
def deliver (handle : Handler N M σ) (s : Net N M σ) (i : Nat) : Net N M σ :=
  match s.flight[i]? with
  | none => s
  | some l => s.arrive handle (s.flight.take i) l (s.flight.drop (i + 1))

variable {handle : Handler N M σ} {s : Net N M σ}

/-! ### What a delivery can do -/

/-- The letter at a place of the flight is taken out of it. -/
theorem deliver_of_getElem? (handle : Handler N M σ) {s : Net N M σ} {i : Nat} {l : Letter N M}
    (h : s.flight[i]? = some l) :
    ∃ before after, s.flight = before ++ l :: after ∧
      deliver handle s i = s.arrive handle before l after := by
  refine ⟨s.flight.take i, s.flight.drop (i + 1), ?_, by simp only [deliver, h]⟩
  obtain ⟨hi, hget⟩ := List.getElem?_eq_some_iff.mp h
  rw [← hget, List.getElem_cons_drop, List.take_append_drop]

/-- Nothing happens, or one of the letters arrives. -/
theorem deliver_cases (handle : Handler N M σ) (s : Net N M σ) (i : Nat) :
    deliver handle s i = s ∨
      ∃ before l after, s.flight = before ++ l :: after ∧
        deliver handle s i = s.arrive handle before l after := by
  cases hl : s.flight[i]? with
  | none => exact .inl (by simp only [deliver, hl])
  | some l =>
    obtain ⟨before, after, hflight, heq⟩ := deliver_of_getElem? handle hl
    exact .inr ⟨before, l, after, hflight, heq⟩

/-- Each of the letters can be the next one to arrive. -/
theorem deliver_append (handle : Handler N M σ) {s : Net N M σ} (before : List (Letter N M))
    (l : Letter N M) (after : List (Letter N M)) (h : s.flight = before ++ l :: after) :
    deliver handle s before.length = s.arrive handle before l after := by
  unfold deliver
  simp [h]

/-- A letter in flight can arrive next: its answers are posted and in flight then, and the others
are in flight still. -/
theorem exists_deliver (handle : Handler N M σ) {s : Net N M σ} {l : Letter N M}
    (h : l ∈ s.flight) :
    ∃ i, (deliver handle s i).arrived = s.arrived ++ [l] ∧
      (∀ e ∈ (handle l.target (s.node l.target) l.source l.body).2,
        ⟨l.target, e.1, e.2⟩ ∈ (deliver handle s i).flight ∧
          ⟨l.target, e.1, e.2⟩ ∈ (deliver handle s i).posted) ∧
      ∀ x ∈ s.flight, x ≠ l → x ∈ (deliver handle s i).flight := by
  obtain ⟨before, after, hflight⟩ := List.append_of_mem h
  have hstep := deliver_append handle before l after hflight
  refine ⟨before.length, by rw [hstep]; rfl, fun e he ↦ ?_, fun x hx hne ↦ ?_⟩
  · have hmem : (⟨l.target, e.1, e.2⟩ : Letter N M) ∈
        letters l.target (handle l.target (s.node l.target) l.source l.body).2 :=
      List.mem_map.mpr ⟨e, he, rfl⟩
    rw [hstep]
    exact ⟨List.mem_append_right _ hmem, List.mem_append_right _ hmem⟩
  · rw [hstep]
    rw [hflight, List.mem_append, List.mem_cons] at hx
    refine List.mem_append_left _ (List.mem_append.mpr ?_)
    exact hx.imp id fun h ↦ h.resolve_left hne

/-- A rule for whole runs: what every arrival keeps holds after any number of them. -/
theorem run_arrivals {I : Net N M σ → Prop}
    (hstep : ∀ (s : Net N M σ) before l after, s.flight = before ++ l :: after → I s →
      I (s.arrive handle before l after))
    (hs : I s) (is : List Nat) : I (run (deliver handle) s is) := by
  refine run_invariant (fun t i ht ↦ ?_) hs is
  rcases deliver_cases handle t i with hsame | ⟨before, l, after, hflight, heq⟩
  · rwa [hsame]
  · rw [heq]
    exact hstep t before l after hflight ht

/-! ### Nothing or one letter in flight -/

/-- Without letters nothing happens. -/
theorem run_of_quiet (h : s.flight = []) (is : List Nat) : run (deliver handle) s is = s := by
  induction is with
  | nil => rfl
  | cons i rest ih =>
    have hsame : deliver handle s i = s := by simp [deliver, h]
    rw [run_cons, hsame, ih]

/-- A lone letter has not arrived yet, or the run goes on from its arrival. -/
theorem run_of_lone (handle : Handler N M σ) {s : Net N M σ} {l : Letter N M}
    (h : s.flight = [l]) (is : List Nat) :
    run (deliver handle) s is = s ∨
      ∃ js, run (deliver handle) s is = run (deliver handle) (s.arrive handle [] l []) js := by
  induction is with
  | nil => exact .inl rfl
  | cons i rest ih =>
    rw [run_cons]
    cases i with
    | zero =>
      have hfirst : deliver handle s 0 = s.arrive handle [] l [] :=
        deliver_append handle [] l [] h
      exact .inr ⟨rest, by rw [hfirst]⟩
    | succ i =>
      have hsame : deliver handle s (i + 1) = s := by simp [deliver, h]
      rw [hsame]
      exact ih

/-- A net in which only so many letters can arrive before nothing is in flight comes to rest. -/
theorem flight_of_bounded (handle : Handler N M σ) {s : Net N M σ} {bound : Nat}
    (h : ∀ is, (run (deliver handle) s is).flight = [] ∨
      (run (deliver handle) s is).arrived.length < bound) (is : List Nat) :
    (run (deliver handle) s (is ++ List.replicate bound 0)).flight = [] := by
  have hgo : ∀ n, (run (deliver handle) s (is ++ List.replicate n 0)).flight = [] ∨
      n ≤ (run (deliver handle) s (is ++ List.replicate n 0)).arrived.length := by
    intro n
    induction n with
    | zero => exact .inr (Nat.zero_le _)
    | succ n ih =>
      rw [List.replicate_succ', ← List.append_assoc, run_append]
      obtain ⟨t, ht⟩ : ∃ t, t = run (deliver handle) s (is ++ List.replicate n 0) := ⟨_, rfl⟩
      rw [← ht] at ih ⊢
      cases hflight : t.flight with
      | nil => exact .inl (by rw [run_of_quiet hflight, hflight])
      | cons l rest =>
        have hstep : run (deliver handle) t [0] = t.arrive handle [] l rest :=
          deliver_append handle [] l rest hflight
        rw [hflight] at ih
        have hn := ih.resolve_left (List.cons_ne_nil _ _)
        right
        rw [hstep]
        simp only [Net.arrive, List.length_append, List.length_singleton]
        omega
  rcases hgo bound with hdone | hmany
  · exact hdone
  · exact (h _).resolve_right (Nat.not_lt.mpr hmany)

/-! ### Letters that nobody answers -/

/-- No letter in flight is answered. -/
def Sterile (handle : Handler N M σ) (s : Net N M σ) : Prop :=
  ∀ l ∈ s.flight, ∀ st, (handle l.target st l.source l.body).2 = []

/-- Then nothing is posted any more and what is in flight only arrives. -/
theorem Sterile.run (h : Sterile handle s) (is : List Nat) :
    (run (deliver handle) s is).posted = s.posted ∧
      ((run (deliver handle) s is).arrived ++ (run (deliver handle) s is).flight).Perm
        (s.arrived ++ s.flight) := by
  have hrun : Sterile handle (Replay.run (deliver handle) s is) ∧
      (Replay.run (deliver handle) s is).posted = s.posted ∧
      ((Replay.run (deliver handle) s is).arrived ++
        (Replay.run (deliver handle) s is).flight).Perm (s.arrived ++ s.flight) := by
    refine run_arrivals (I := fun t ↦ Sterile handle t ∧ t.posted = s.posted ∧
      (t.arrived ++ t.flight).Perm (s.arrived ++ s.flight)) ?_ ⟨h, rfl, .refl _⟩ is
    rintro t before l after hflight ⟨hsterile, hposted, hperm⟩
    have hnone : (handle l.target (t.node l.target) l.source l.body).2 = [] :=
      hsterile l (by simp [hflight]) _
    refine ⟨fun x hx ↦ hsterile x ?_, ?_, ?_⟩
    · simp only [Net.arrive, hnone, letters, List.map_nil, List.append_nil, List.mem_append] at hx
      rw [hflight, List.mem_append, List.mem_cons]
      exact hx.imp id .inr
    · simp [Net.arrive, hnone, letters, hposted]
    · refine .trans ?_ hperm
      simp only [Net.arrive, hnone, letters, List.map_nil, List.append_nil, hflight,
        List.append_assoc, List.singleton_append]
      refine List.Perm.append_left t.arrived ?_
      exact List.perm_middle.symm
  exact hrun.2

end Lib.Network
