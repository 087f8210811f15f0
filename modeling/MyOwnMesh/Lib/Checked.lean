import MyOwnMesh.Lib.Replay

/-!
# Machine arithmetic beside the integers

A computation on machine integers, with the value of a build that lets them wrap and whether a
build that checks would have gone on. An arithmetic is a type of numbers with such operations, each
of them right wherever it stays in range. A program over an arbitrary arithmetic then runs on
machine integers and on the integers themselves.
-/

namespace Lib

open Replay

universe u

/-- What a computation yields where its operations wrap, and whether none of them did. -/
structure Checked (α : Type u) where
  value : α
  exact : Bool

namespace Checked

variable {α β : Type u}

instance : Monad Checked where
  pure a := ⟨a, true⟩
  bind x f := ⟨(f x.value).value, x.exact && (f x.value).exact⟩

@[simp] theorem exact_pure (a : α) : (pure a : Checked α).exact = true := rfl

@[simp] theorem value_bind (x : Checked α) (f : α → Checked β) :
    (x >>= f).value = (f x.value).value := rfl

@[simp] theorem exact_bind (x : Checked α) (f : α → Checked β) :
    (x >>= f).exact = (x.exact && (f x.value).exact) := rfl

section Agrees

variable {α' β' : Type u} {f : α → α'} {g : β → β'}

/-- Where the first computation is exact, its value stands for that of the second. -/
def Agrees (f : α → α') (x : Checked α) (y : Checked α') : Prop :=
  x.exact = true → f x.value = y.value

theorem Agrees.pure {a : α} {a' : α'} (h : f a = a') :
    Agrees f (pure a : Checked α) (pure a' : Checked α') := fun _ ↦ h

/-- Two programs agree when their first steps do, and then whatever follows them. -/
theorem Agrees.bind {x : Checked α} {y : Checked α'} {k : α → Checked β} {k' : α' → Checked β'}
    (h : Agrees f x y) (hk : ∀ a, Agrees g (k a) (k' (f a))) : Agrees g (x >>= k) (y >>= k') := by
  intro hexact
  obtain ⟨hx, hrest⟩ := Bool.and_eq_true_iff.mp hexact
  have hvalue := hk x.value hrest
  rw [h hx] at hvalue
  exact hvalue

end Agrees

variable {σ : Type u} {τ : Type*}

/-- The operations of a program, one after the other. -/
def runAll (step : σ → τ → Checked σ) : σ → List τ → Checked σ
  | s, [] => pure s
  | s, o :: ops => do
    let s' ← step s o
    runAll step s' ops

/-- The step of a build whose operations wrap. -/
abbrev wrapping (step : σ → τ → Checked σ) (s : σ) (o : τ) : σ := (step s o).value

/-- A run is exact when each of its steps is. -/
theorem exact_runAll_iff (step : σ → τ → Checked σ) (s : σ) (ops : List τ) :
    (runAll step s ops).exact = true ↔
      AllSteps (wrapping step) (fun s o ↦ (step s o).exact = true) s ops := by
  induction ops generalizing s with
  | nil => exact ⟨fun _ ↦ trivial, fun _ ↦ rfl⟩
  | cons o ops ih => rw [AllSteps, ← ih, runAll, exact_bind, Bool.and_eq_true]

/-- Programs whose steps agree do so from one end to the other. -/
theorem agrees_runAll {σ' : Type u} {f : σ → σ'} {step : σ → τ → Checked σ}
    {step' : σ' → τ → Checked σ'} (h : ∀ s o, Agrees f (step s o) (step' (f s) o)) (s : σ)
    (ops : List τ) : Agrees f (runAll step s ops) (runAll step' (f s) ops) := by
  induction ops generalizing s with
  | nil => exact .pure rfl
  | cons o ops ih => exact (h s o).bind ih

end Checked

/-- Numbers that stand for integers. An integer that fits is the one its number stands for. -/
structure Arithmetic (ν : Type) where
  toInt : ν → Int
  ofInt : Int → ν
  Fits : Int → Prop
  [decidableFits : DecidablePred Fits]
  toInt_ofInt : ∀ n, Fits n → toInt (ofInt n) = n

namespace Arithmetic

attribute [instance] decidableFits

variable {ν : Type} (A : Arithmetic ν)

/-- The number of an integer result, which may not fit. -/
def result (n : Int) : Checked ν := ⟨A.ofInt n, decide (A.Fits n)⟩

def add (a b : ν) : Checked ν := A.result (A.toInt a + A.toInt b)

def sub (a b : ν) : Checked ν := A.result (A.toInt a - A.toInt b)

def abs (a : ν) : Checked ν := A.result (A.toInt a).natAbs

@[simp] theorem exact_result (n : Int) : (A.result n).exact = true ↔ A.Fits n :=
  decide_eq_true_iff

theorem toInt_result {n : Int} (h : A.Fits n) : A.toInt (A.result n).value = n :=
  A.toInt_ofInt n h

/-- The integers themselves, where every result fits. -/
def integers : Arithmetic Int where
  toInt := id
  ofInt := id
  Fits _ := True
  toInt_ofInt _ _ := rfl

/-- A result stands for the integer one wherever it is exact. -/
theorem agrees_result (n : Int) : Checked.Agrees A.toInt (A.result n) (integers.result n) :=
  fun h ↦ A.toInt_result ((A.exact_result n).mp h)

/-- Two's complement in sixty-four bits: `Int64.ofInt` wraps what does not fit. -/
def i64 : Arithmetic Int64 where
  toInt := Int64.toInt
  ofInt := Int64.ofInt
  Fits n := -9223372036854775808 ≤ n ∧ n ≤ 9223372036854775807
  toInt_ofInt n h := Int64.toInt_ofInt_of_le h.1 (by omega)

theorem fits_toInt (a : Int64) : i64.Fits (i64.toInt a) := ⟨a.le_toInt, a.toInt_le⟩

end Arithmetic

end Lib
