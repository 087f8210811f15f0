import Mathlib.Data.List.Basic
import Mathlib.Data.List.Induction

/-!
# Guarded replay of a log and total runs of operations

Two shapes of execution over arbitrary states. `replay` folds a log through a
step that may refuse an entry; a refusal rejects the whole log. `run` folds
operations through a total step. Each comes with its append law and with the
rule that carries an invariant from one step to the whole execution.
-/

namespace Lib.Replay

universe u v w

variable {σ : Type u} {τ : Type v} {ε : Type w}

/-- Fold a log through a fallible step, stopping at the first refusal. -/
def replay (step : σ → τ → Except ε σ) (s : σ) : List τ → Except ε σ
  | [] => .ok s
  | t :: rest =>
    match step s t with
    | .error e => .error e
    | .ok s' => replay step s' rest

/-- Replaying an empty log leaves the state alone. -/
@[simp] theorem replay_nil (step : σ → τ → Except ε σ) (s : σ) :
    replay step s [] = .ok s := rfl

/-- The first entry is accepted, and the rest replays from the state it leads to. -/
theorem replay_cons_ok_iff {step : σ → τ → Except ε σ} {s u : σ} {t : τ} {rest : List τ} :
    replay step s (t :: rest) = .ok u ↔
      ∃ s', step s t = .ok s' ∧ replay step s' rest = .ok u := by
  cases h : step s t with
  | error e => simp [replay, h]
  | ok s' => simp [replay, h]

/-- A log is accepted exactly when each half is, the second from where the first ends. -/
theorem replay_append_ok_iff {step : σ → τ → Except ε σ} {s u : σ} {xs ys : List τ} :
    replay step s (xs ++ ys) = .ok u ↔
      ∃ m, replay step s xs = .ok m ∧ replay step m ys = .ok u := by
  induction xs generalizing s with
  | nil => simp
  | cons t rest ih =>
    simp only [List.cons_append, replay_cons_ok_iff, ih]
    constructor
    · rintro ⟨s', ht, m, hm, hu⟩
      exact ⟨m, ⟨s', ht, hm⟩, hu⟩
    · rintro ⟨m, ⟨s', ht, hm⟩, hu⟩
      exact ⟨s', ht, m, hm, hu⟩

/-- A one-entry log is one step. -/
theorem replay_singleton_ok_iff {step : σ → τ → Except ε σ} {s u : σ} {t : τ} :
    replay step s [t] = .ok u ↔ step s t = .ok u := by
  simp [replay_cons_ok_iff]

/-- Appending one entry to an accepted log is one step from its final state. -/
theorem replay_snoc_ok_iff {step : σ → τ → Except ε σ} {s m u : σ} {xs : List τ} {t : τ}
    (hm : replay step s xs = .ok m) :
    replay step s (xs ++ [t]) = .ok u ↔ step m t = .ok u := by
  rw [replay_append_ok_iff]
  constructor
  · rintro ⟨m', hm', hu⟩
    rw [hm] at hm'
    cases hm'
    exact replay_singleton_ok_iff.mp hu
  · exact fun hu ↦ ⟨m, hm, replay_singleton_ok_iff.mpr hu⟩

/-- Every initial segment of an accepted log is accepted. -/
theorem replay_append_left_ok {step : σ → τ → Except ε σ} {s u : σ} {xs ys : List τ}
    (h : replay step s (xs ++ ys) = .ok u) : ∃ m, replay step s xs = .ok m := by
  obtain ⟨m, hm, _⟩ := replay_append_ok_iff.mp h
  exact ⟨m, hm⟩

/-- The invariant rule: what every accepted step preserves, every accepted log preserves.
The step may use that its entry occurs in the log. -/
theorem replay_invariant {step : σ → τ → Except ε σ} {I : σ → Prop} {s u : σ} {log : List τ}
    (hstep : ∀ a t b, t ∈ log → I a → step a t = .ok b → I b)
    (hs : I s) (h : replay step s log = .ok u) : I u := by
  induction log generalizing s with
  | nil =>
    cases h
    exact hs
  | cons t rest ih =>
    obtain ⟨s', ht, hr⟩ := replay_cons_ok_iff.mp h
    refine ih ?_ (hstep s t s' (by simp) hs ht) hr
    exact fun a x b hx ↦ hstep a x b (by simp [hx])

/-- Where the invariant keeps every step from being refused, every log is accepted. -/
theorem replay_total {step : σ → τ → Except ε σ} {I : σ → Prop}
    (hstep : ∀ s t, I s → ∃ s', step s t = .ok s' ∧ I s') {s : σ} (hs : I s) (log : List τ) :
    ∃ u, replay step s log = .ok u ∧ I u := by
  induction log generalizing s with
  | nil => exact ⟨s, rfl, hs⟩
  | cons t rest ih =>
    obtain ⟨s', ht, hs'⟩ := hstep s t hs
    obtain ⟨u, hu, hi⟩ := ih hs'
    exact ⟨u, replay_cons_ok_iff.mpr ⟨s', ht, hu⟩, hi⟩

/-- Run a list of operations through a total step. -/
def run (step : σ → τ → σ) (s : σ) (ops : List τ) : σ := ops.foldl step s

/-- A run of no operation stays where it is. -/
theorem run_nil (step : σ → τ → σ) (s : σ) : run step s [] = s := rfl

/-- A run starts with its first operation. -/
theorem run_cons (step : σ → τ → σ) (s : σ) (o : τ) (ops : List τ) :
    run step s (o :: ops) = run step (step s o) ops := rfl

/-- A run of two halves goes on from where the first ends. -/
theorem run_append (step : σ → τ → σ) (s : σ) (xs ys : List τ) :
    run step s (xs ++ ys) = run step (run step s xs) ys := List.foldl_append

/-- Every operation of a run meets a condition on the state it is applied to. -/
def AllSteps (step : σ → τ → σ) (C : σ → τ → Prop) : σ → List τ → Prop
  | _, [] => True
  | s, o :: ops => C s o ∧ AllSteps step C (step s o) ops

instance decidableAllSteps {step : σ → τ → σ} {C : σ → τ → Prop} [∀ s o, Decidable (C s o)] :
    (s : σ) → (ops : List τ) → Decidable (AllSteps step C s ops)
  | _, [] => .isTrue trivial
  | s, o :: ops =>
    have : Decidable (AllSteps step C (step s o) ops) := decidableAllSteps (step s o) ops
    inferInstanceAs (Decidable (C s o ∧ AllSteps step C (step s o) ops))

/-- A run meets the condition exactly when each half does, the second from where the first
ends. -/
theorem allSteps_append_iff {step : σ → τ → σ} {C : σ → τ → Prop} {s : σ} {xs ys : List τ} :
    AllSteps step C s (xs ++ ys) ↔ AllSteps step C s xs ∧ AllSteps step C (run step s xs) ys := by
  induction xs generalizing s with
  | nil => exact ⟨fun h ↦ ⟨trivial, h⟩, And.right⟩
  | cons o rest ih => rw [List.cons_append, AllSteps, AllSteps, ih, run_cons, and_assoc]

/-- Equivalent conditions are met by the same runs. -/
theorem allSteps_congr {step : σ → τ → σ} {C D : σ → τ → Prop} (h : ∀ s o, C s o ↔ D s o) (s : σ)
    (ops : List τ) : AllSteps step C s ops ↔ AllSteps step D s ops := by
  induction ops generalizing s with
  | nil => exact Iff.rfl
  | cons o rest ih => rw [AllSteps, AllSteps, h, ih]

/-- A run meets a condition exactly when it does at each of its operations. -/
theorem allSteps_iff_forall {step : σ → τ → σ} {C : σ → τ → Prop} {s : σ} {ops : List τ} :
    AllSteps step C s ops ↔ ∀ pre o post, ops = pre ++ o :: post → C (run step s pre) o := by
  constructor
  · rintro h pre o post rfl
    exact (allSteps_append_iff.mp h).2.1
  · intro h
    induction ops using List.reverseRecOn with
    | nil => trivial
    | append_singleton ops o ih =>
      refine allSteps_append_iff.mpr ⟨ih fun pre x post hx ↦ ?_, h ops o [] rfl, trivial⟩
      exact h pre x (post ++ [o]) (by simp [hx])

/-- Conditions that agree under an invariant, which the steps that meet them keep, are met by the
same runs. -/
theorem allSteps_congr_of_invariant {step : σ → τ → σ} {C D : σ → τ → Prop} {I : σ → Prop}
    (h : ∀ s o, I s → (C s o ↔ D s o)) (hI : ∀ s o, I s → D s o → I (step s o)) {s : σ}
    (hs : I s) (ops : List τ) : AllSteps step C s ops ↔ AllSteps step D s ops := by
  induction ops generalizing s with
  | nil => exact Iff.rfl
  | cons o rest ih =>
    rw [AllSteps, AllSteps, h s o hs]
    exact and_congr_right fun hd ↦ ih (hI s o hs hd)

/-- A run meets a family of conditions exactly when it meets each of them. -/
theorem allSteps_forall_iff {ι : Type*} {step : σ → τ → σ} {p : ι → Prop}
    {C : ι → σ → τ → Prop} (s : σ) (ops : List τ) :
    AllSteps step (fun s o ↦ ∀ i, p i → C i s o) s ops ↔
      ∀ i, p i → AllSteps step (C i) s ops := by
  induction ops generalizing s with
  | nil => exact ⟨fun _ _ _ ↦ trivial, fun _ ↦ trivial⟩
  | cons o rest ih =>
    simp only [AllSteps, ih]
    exact ⟨fun h i hi ↦ ⟨h.1 i hi, h.2 i hi⟩,
      fun h ↦ ⟨fun i hi ↦ (h i hi).1, fun i hi ↦ (h i hi).2⟩⟩

/-- A property holds in every state of a run exactly when every step of the run meets the
condition that decides, from the state before it, whether the property survives. `J` is
an invariant the argument may use. -/
theorem forall_run_iff_allSteps {step : σ → τ → σ} {C : σ → τ → Prop} {I J : σ → Prop}
    (hJ : ∀ s o, J s → J (step s o))
    (hstep : ∀ s o, J s → I s → (I (step s o) ↔ C s o)) {s : σ} (ops : List τ)
    (hj : J s) (hi : I s) :
    (∀ pre post, ops = pre ++ post → I (run step s pre)) ↔ AllSteps step C s ops := by
  induction ops generalizing s with
  | nil =>
    refine ⟨fun _ ↦ trivial, fun _ pre post h ↦ ?_⟩
    rw [(List.append_eq_nil_iff.mp h.symm).1]
    exact hi
  | cons o rest ih =>
    constructor
    · intro hall
      have hnext : I (step s o) := hall [o] rest rfl
      refine ⟨(hstep s o hj hi).mp hnext, (ih (hJ s o hj) hnext).mp fun pre post h ↦ ?_⟩
      exact hall (o :: pre) post (by rw [h, List.cons_append])
    · rintro ⟨hc, hrest⟩ pre post h
      have hnext : I (step s o) := (hstep s o hj hi).mpr hc
      cases pre with
      | nil => exact hi
      | cons a pre =>
        obtain ⟨rfl, h'⟩ := List.cons.inj h
        exact (ih (hJ s o hj) hnext).mpr hrest pre post h'

/-- What every step that meets the condition preserves holds in every state of a run whose
steps all meet it. -/
theorem forall_run_of_allSteps {step : σ → τ → σ} {C : σ → τ → Prop} {I : σ → Prop}
    (hstep : ∀ s o, I s → C s o → I (step s o)) {s : σ} {ops : List τ} (hi : I s)
    (hops : AllSteps step C s ops) : ∀ pre post, ops = pre ++ post → I (run step s pre) := by
  induction ops generalizing s with
  | nil =>
    intro pre post h
    rw [(List.append_eq_nil_iff.mp h.symm).1]
    exact hi
  | cons o rest ih =>
    intro pre post h
    cases pre with
    | nil => exact hi
    | cons a pre =>
      obtain ⟨rfl, h'⟩ := List.cons.inj h
      exact ih (hstep s o hi hops.1) hops.2 pre post h'

/-- What every operation of a run preserves holds where the run ends. -/
theorem run_invariant_of_mem {step : σ → τ → σ} {I : σ → Prop} {ops : List τ}
    (hstep : ∀ s, ∀ o ∈ ops, I s → I (step s o)) {s : σ} (hs : I s) : I (run step s ops) := by
  induction ops generalizing s with
  | nil => exact hs
  | cons o rest ih =>
    refine ih ?_ (hstep s o (by simp) hs)
    exact fun a x hx ↦ hstep a x (by simp [hx])

/-- An invariant of every step is an invariant of every run. -/
theorem run_invariant {step : σ → τ → σ} {I : σ → Prop}
    (hstep : ∀ s o, I s → I (step s o)) {s : σ} (hs : I s) (ops : List τ) :
    I (run step s ops) := run_invariant_of_mem (fun s o _ ↦ hstep s o) hs

end Lib.Replay
