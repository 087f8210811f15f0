import Mathlib.Data.List.Count
import MyOwnMesh.Lib.Replay

/-!
# A filtered intake

Items arrive for the key they belong to, and keys replace one another. Before the first key items
are queued, up to a bound that drops the oldest; the first key hands over the queued items that
fit it and gives up the others; from then on an item is handed over if it fits the key in force
when it arrives, and given up otherwise. `held_run` is the accounting of a whole run, and
`count_handed_eq_iff` says exactly when no item of a kind is given up.
-/

namespace Lib.Intake

open Lib.Replay

universe u v

variable {K : Type u} {X : Type v}

/-- The key in force, the queued items and those handed over, each with the key it met. -/
structure State (K : Type u) (X : Type v) where
  key : Option K
  queue : List X
  handed : List (K × X)

/-- Nothing happened yet. -/
def State.empty : State K X := ⟨none, [], []⟩

/-- A key comes into force, or an item arrives. -/
inductive Event (K : Type u) (X : Type v) where
  | key (k : K)
  | item (x : X)

/-- The item of an event. -/
def Event.item? : Event K X → Option X
  | .key _ => none
  | .item x => some x

/-- The items that arrive. -/
def items (es : List (Event K X)) : List X := es.filterMap Event.item?

variable (fits : X → K → Bool) (bound : Nat)

/-- One event. -/
def step (s : State K X) : Event K X → State K X
  | .key k => ⟨some k, [], s.handed ++ (s.queue.filter (fits · k)).map (k, ·)⟩
  | .item x =>
    match s.key with
    | none =>
      { s with queue := (if bound ≤ s.queue.length then s.queue.tail else s.queue) ++ [x] }
    | some k => if fits x k then { s with handed := s.handed ++ [(k, x)] } else s

/-- How many items arrive before the first key. -/
def early : List (Event K X) → Nat
  | [] => 0
  | .key _ :: _ => 0
  | .item _ :: rest => 1 + early rest

/-- No item of a kind is compared with a key it does not fit. -/
def OnTime (kind : X → Prop) (s : State K X) : Event K X → Prop
  | .key k => ∀ x ∈ s.queue, kind x → fits x k = true
  | .item x => kind x → ∀ k, s.key = some k → fits x k = true

/-- The keys and the items of an intake meet two conditions, and whatever was handed over fits the
key it met. -/
structure Sound (A : K → Prop) (B : X → Prop) (s : State K X) : Prop where
  key : ∀ k, s.key = some k → A k
  queue : ∀ x ∈ s.queue, B x
  handed : ∀ h ∈ s.handed, A h.1 ∧ B h.2 ∧ fits h.2 h.1 = true

/-- An event meets the two conditions. -/
def Event.Meets (A : K → Prop) (B : X → Prop) : Event K X → Prop
  | .key k => A k
  | .item x => B x

/-- One event. -/
theorem Sound.step {A : K → Prop} {B : X → Prop} {s : State K X} (h : Sound fits A B s)
    {e : Event K X} (he : e.Meets A B) : Sound fits A B (Intake.step fits bound s e) := by
  cases e with
  | key k =>
    refine ⟨fun k' hk' ↦ ?_, fun x hx ↦ absurd hx List.not_mem_nil, fun p hp ↦ ?_⟩
    · cases hk'
      exact he
    · simp only [Intake.step, List.mem_append, List.mem_map, List.mem_filter] at hp
      obtain hp | ⟨x, ⟨hx, hfit⟩, rfl⟩ := hp
      · exact h.handed p hp
      · exact ⟨he, h.queue x hx, hfit⟩
  | item x =>
    unfold Intake.step
    cases hk : s.key with
    | none =>
      refine ⟨fun k' hk' ↦ ?_, fun y hy ↦ ?_, h.handed⟩
      · cases hk'
      · obtain hy | hy := List.mem_append.mp hy
        · split at hy
          · exact h.queue y (List.mem_of_mem_tail hy)
          · exact h.queue y hy
        · rw [List.mem_singleton.mp hy]
          exact he
    | some k =>
      simp only
      split
      · next hfit =>
        have hkey : A k := h.key k hk
        refine ⟨fun k' hk' ↦ ?_, h.queue, fun p hp ↦ ?_⟩
        · cases hk'
          exact hkey
        obtain hp | hp := List.mem_append.mp hp
        · exact h.handed p hp
        · rw [List.mem_singleton.mp hp]
          exact ⟨hkey, he, hfit⟩
      · exact h

/-- A whole run. -/
theorem Sound.run {A : K → Prop} {B : X → Prop} {s : State K X} (h : Sound fits A B s)
    {es : List (Event K X)} (hes : ∀ e ∈ es, e.Meets A B) :
    Sound fits A B (Replay.run (Intake.step fits bound) s es) := by
  induction es generalizing s with
  | nil => exact h
  | cons e rest ih =>
    exact ih (h.step fits bound (hes e (by simp))) fun e' he' ↦ hes e' (by simp [he'])

/-- The queue has room for what still comes before the first key, and is empty after it. -/
structure Room (s : State K X) (es : List (Event K X)) : Prop where
  before : s.key = none → s.queue.length + early es ≤ bound
  after : s.key ≠ none → s.queue = []

/-- Room is kept: an item that takes a place is one fewer to come. -/
theorem Room.step {bound : Nat} {s : State K X} {e : Event K X} {rest : List (Event K X)}
    (h : Room bound s (e :: rest)) : Room bound (Intake.step fits bound s e) rest := by
  cases e with
  | key k => exact ⟨fun hk ↦ absurd hk (by simp [Intake.step]), fun _ ↦ rfl⟩
  | item x =>
    cases hk : s.key with
    | none =>
      have hlen := h.before hk
      simp only [early] at hlen
      have hroom : ¬ bound ≤ s.queue.length := by omega
      refine ⟨fun _ ↦ ?_, fun hsome ↦ absurd hk (by simp [Intake.step, hk] at hsome)⟩
      simp only [Intake.step, hk, if_neg hroom, List.length_append, List.length_singleton]
      omega
    | some k =>
      have hqueue := h.after (by simp [hk])
      have hkey : (Intake.step fits bound s (.item x)).key = some k := by
        simp only [Intake.step, hk]
        split
        · rfl
        · exact hk
      refine ⟨fun hnone ↦ absurd hnone (by simp [hkey]), fun _ ↦ ?_⟩
      simp only [Intake.step, hk]
      split
      · exact hqueue
      · exact hqueue

/-- So it is kept by a whole run. -/
theorem Room.run {bound : Nat} {s : State K X} {es : List (Event K X)} (h : Room bound s es) :
    Room bound (Replay.run (Intake.step fits bound) s es) [] := by
  induction es generalizing s with
  | nil => exact h
  | cons e rest ih => exact ih (h.step fits)

/-! ### Accounting -/

section Counting

variable [DecidableEq X]

/-- How often an event gives up an item. -/
def lostAt (x : X) (s : State K X) : Event K X → Nat
  | .key k => (s.queue.filter fun y ↦ !fits y k).count x
  | .item y =>
    match s.key with
    | none => 0
    | some k => if y = x ∧ fits y k = false then 1 else 0

/-- How often a run gives it up. -/
def lost (x : X) : State K X → List (Event K X) → Nat
  | _, [] => 0
  | s, e :: rest => lostAt fits x s e + lost x (step fits bound s e) rest

/-- How often an item was handed over or still waits. -/
def held (x : X) (s : State K X) : Nat := (s.handed.map Prod.snd).count x + s.queue.count x

variable {bound}

/-- One event: an item that arrives is held from then on, unless it is given up. -/
theorem held_step {s : State K X} {e : Event K X} {rest : List (Event K X)}
    (h : Room bound s (e :: rest)) (x : X) :
    held x (step fits bound s e) + lostAt fits x s e = held x s + (items [e]).count x := by
  cases e with
  | key k =>
    have hsplit : (s.queue.filter (fits · k)).count x + (s.queue.filter (!fits · k)).count x =
        s.queue.count x := by
      rw [← List.count_append]
      exact (List.filter_append_perm (fits · k) s.queue).count_eq x
    have hmap : ((s.queue.filter (fits · k)).map (k, ·)).map Prod.snd =
        s.queue.filter (fits · k) := by
      simp [Function.comp_def]
    simp only [held, step, lostAt, items, Event.item?, List.filterMap_cons, List.filterMap_nil,
      List.map_append, List.count_append, List.count_nil, hmap]
    omega
  | item y =>
    simp only [held, step, lostAt, items, Event.item?, List.filterMap_cons, List.filterMap_nil]
    cases hk : s.key with
    | none =>
      have hlen := h.before hk
      simp only [early] at hlen
      have hroom : ¬ bound ≤ s.queue.length := by omega
      simp only [if_neg hroom, List.count_append]
      omega
    | some k =>
      simp only
      cases hfit : fits y k with
      | true =>
        simp only [↓reduceIte, List.map_append, List.map_cons, List.map_nil, List.count_append,
          Bool.true_eq_false, and_false]
        omega
      | false =>
        simp only [Bool.false_eq_true, ↓reduceIte, and_true, List.count_singleton, beq_iff_eq]

/-- A whole run. -/
theorem held_run {s : State K X} {es : List (Event K X)} (h : Room bound s es) (x : X) :
    held x (run (step fits bound) s es) + lost fits bound x s es =
      held x s + (items es).count x := by
  induction es generalizing s with
  | nil => simp [run_nil, lost, items]
  | cons e rest ih =>
    have hhead := held_step fits h x
    have htail := ih (h.step fits)
    have hitems : items (e :: rest) = items [e] ++ items rest := by
      simp only [items, ← List.filterMap_append, List.singleton_append]
    rw [run_cons, lost, hitems, List.count_append]
    omega

/-- Nothing is lost exactly when no step loses anything. -/
theorem lost_eq_zero_iff (x : X) (s : State K X) (es : List (Event K X)) :
    lost fits bound x s es = 0 ↔
      AllSteps (step fits bound) (fun s e ↦ lostAt fits x s e = 0) s es := by
  induction es generalizing s with
  | nil => simp [lost, AllSteps]
  | cons e rest ih => rw [lost, AllSteps, Nat.add_eq_zero_iff, ih]

/-- An event is on time for a kind exactly when it gives up nothing of it. -/
theorem onTime_iff {kind : X → Prop} {s : State K X} {e : Event K X} :
    OnTime fits kind s e ↔ ∀ x, kind x → lostAt fits x s e = 0 := by
  cases e with
  | key k =>
    simp only [OnTime, lostAt, List.count_eq_zero, List.mem_filter, not_and, Bool.not_eq_true',
      Bool.not_eq_false]
    exact ⟨fun h x hx hq ↦ h x hq hx, fun h x hq hx ↦ h x hx hq⟩
  | item y =>
    simp only [OnTime, lostAt]
    cases s.key with
    | none => simp
    | some k =>
      simp only [Option.some.injEq, forall_eq']
      constructor
      · intro h x hx
        rw [if_neg]
        rintro ⟨rfl, hno⟩
        rw [h hx] at hno
        cases hno
      · intro h hy
        have hzero := h y hy
        by_contra hno
        rw [if_pos ⟨rfl, by simpa using hno⟩] at hzero
        cases hzero

/-- Once a key is in force, every item of a kind was handed over as often as it arrived, exactly
when every event of the run was on time for the kind. -/
theorem count_handed_eq_iff (kind : X → Prop) {es : List (Event K X)} (hearly : early es ≤ bound)
    (hkey : (run (step fits bound) State.empty es).key ≠ none) :
    (∀ x, kind x → ((run (step fits bound) State.empty es).handed.map Prod.snd).count x =
        (items es).count x) ↔
      AllSteps (step fits bound) (OnTime fits kind) State.empty es := by
  have hroom : Room bound (State.empty : State K X) es :=
    ⟨fun _ ↦ by simpa [State.empty] using hearly, fun h ↦ absurd rfl h⟩
  have hafter : Room bound (run (step fits bound) State.empty es) [] := hroom.run fits
  have hcount (x : X) : ((run (step fits bound) State.empty es).handed.map Prod.snd).count x =
      (items es).count x ↔ lost fits bound x State.empty es = 0 := by
    have htotal := held_run fits hroom x
    have hstart : held x (State.empty : State K X) = 0 := rfl
    rw [hstart, held, hafter.after hkey, List.count_nil] at htotal
    omega
  rw [allSteps_congr (fun _ _ ↦ onTime_iff fits), allSteps_forall_iff]
  simp only [hcount, lost_eq_zero_iff]

end Counting

end Lib.Intake
