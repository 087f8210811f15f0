import MyOwnMesh.Lib.Decimal

/-!
# The apply policy

Versions and the policy gate of `myownmesh-updater`, `policy.rs:12–103`. A version is compared by
the three numbers of its core, each zero when it does not read as a `u32`, and then by its
pre-release suffix, a version without one being the newest.
-/

namespace MyOwnMesh.Updater

open Lib Std

inductive ApplyPolicy where
  | patch
  | minor
  | all
  | none
  deriving DecidableEq, Repr

def ApplyPolicy.parse (s : String) : Option ApplyPolicy :=
  if s = "patch" then some .patch
  else if s = "minor" then some .minor
  else if s = "all" then some .all
  else if s = "none" then some .none
  else Option.none

/-- The numbers of a version. -/
structure Core where
  major : Nat
  minor : Nat
  patch : Nat
  deriving DecidableEq, Repr

namespace Core

/-- Arrays of three numbers compare from the first on. -/
def cmp : Core → Core → Ordering :=
  compareLex (compareOn Core.major) (compareLex (compareOn Core.minor) (compareOn Core.patch))

instance : TransCmp cmp := inferInstanceAs (TransCmp (compareLex _ _))

theorem isLE_cmp {a b : Core} : (cmp a b).isLE = true ↔ a.major < b.major ∨
    (a.major = b.major ∧ (a.minor < b.minor ∨ (a.minor = b.minor ∧ a.patch ≤ b.patch))) := by
  simp only [cmp, compareLex, compareOn, Ordering.isLE_then_iff_or, Nat.compare_eq_lt,
    Nat.compare_eq_eq, Nat.isLE_compare]

end Core

/-- `str::parse::<u32>`. -/
def parseU32 (cs : List Char) : Option Nat := Text.parseDecimal 4294967296 cs

def splitPrerelease (v : String) : String × String := (Text.splitOnce '-' v).getD (v, "")

def parseCore (core : String) : Core :=
  let parts := (core.toList.splitOn '.').map fun p ↦ (parseU32 p).getD 0
  ⟨parts.getD 0 0, parts.getD 1 0, parts.getD 2 0⟩

/-- The numbers of a version without its suffix. -/
def coreOf (v : String) : Core := parseCore (splitPrerelease v).1

/-- A version without a suffix outranks one with a suffix. -/
def comparePre (a b : String) : Ordering :=
  if a.isEmpty && !b.isEmpty then .gt
  else if !a.isEmpty && b.isEmpty then .lt
  else compare a b

def compareSemver (a b : String) : Ordering :=
  (Core.cmp (coreOf a) (coreOf b)).then (comparePre (splitPrerelease a).2 (splitPrerelease b).2)

def policyAllows (policy : ApplyPolicy) (current candidate : String) : Bool :=
  if compareSemver candidate current ≠ .gt then false
  else
    match policy with
    | .none => false
    | .patch => (coreOf current).major == (coreOf candidate).major &&
        (coreOf current).minor == (coreOf candidate).minor
    | .minor => (coreOf current).major == (coreOf candidate).major
    | .all => true

/-- The comparison is one by three keys. -/
private theorem compareSemver_eq : compareSemver =
    compareLex (fun a b ↦ Core.cmp (coreOf a) (coreOf b))
      (compareLex (compareOn fun v ↦ (splitPrerelease v).2.isEmpty)
        (compareOn fun v ↦ (splitPrerelease v).2)) := by
  funext a b
  simp only [compareSemver, compareLex, compareOn]
  refine congrArg (Ordering.then _) ?_
  rw [comparePre]
  cases (splitPrerelease a).2.isEmpty <;> cases (splitPrerelease b).2.isEmpty <;> rfl

instance : TransCmp compareSemver := by
  have hcore : TransCmp fun a b ↦ Core.cmp (coreOf a) (coreOf b) :=
    { eq_swap := @fun a b ↦ @OrientedCmp.eq_swap Core Core.cmp _ (coreOf a) (coreOf b)
      isLE_trans := @fun a b c ↦
        @TransCmp.isLE_trans Core Core.cmp _ (coreOf a) (coreOf b) (coreOf c) }
  rw [compareSemver_eq]
  infer_instance

/-- How far a policy goes. -/
def ApplyPolicy.reach : ApplyPolicy → Nat
  | .none => 0
  | .patch => 1
  | .minor => 2
  | .all => 3

theorem policyAllows_iff {policy : ApplyPolicy} {current candidate : String} :
    policyAllows policy current candidate = true ↔
      compareSemver candidate current = .gt ∧ 1 ≤ policy.reach ∧
      (policy.reach ≤ 2 → (coreOf current).major = (coreOf candidate).major) ∧
      (policy.reach ≤ 1 → (coreOf current).minor = (coreOf candidate).minor) := by
  unfold policyAllows
  split
  · next holder =>
    constructor
    · rintro ⟨⟩
    · rintro ⟨hnewer, -⟩
      exact absurd hnewer holder
  · next hnewer =>
    cases policy <;> simp [ApplyPolicy.reach, not_not.mp hnewer]

/-- A policy that goes at least as far allows what the other allows. -/
theorem policyAllows_of_reach {policy wider : ApplyPolicy} {current candidate : String}
    (hreach : policy.reach ≤ wider.reach) (h : policyAllows policy current candidate = true) :
    policyAllows wider current candidate = true := by
  obtain ⟨hnewer, hsome, hmajor, hminor⟩ := policyAllows_iff.mp h
  exact policyAllows_iff.mpr ⟨hnewer, hsome.trans hreach, fun hwider ↦ hmajor (hreach.trans hwider),
    fun hwider ↦ hminor (hreach.trans hwider)⟩

private theorem isLE_coreOf {a b : String} (h : (compareSemver a b).isLE = true) :
    (Core.cmp (coreOf a) (coreOf b)).isLE = true := by
  rw [compareSemver_eq, compareLex, Ordering.isLE_then_iff_and] at h
  exact h.1

/-- What is allowed from a version is allowed from every later one that it is newer than: the
numbers between two that agree are the same. -/
theorem policyAllows_of_between {policy : ApplyPolicy} {current between candidate : String}
    (h : policyAllows policy current candidate = true)
    (hcurrent : (compareSemver current between).isLE = true)
    (hcandidate : compareSemver candidate between = .gt) :
    policyAllows policy between candidate = true := by
  have hlower := Core.isLE_cmp.mp (isLE_coreOf hcurrent)
  have hlt : compareSemver between candidate = .lt := OrientedCmp.gt_iff_lt.mp hcandidate
  have hupper := Core.isLE_cmp.mp (isLE_coreOf (Ordering.isLE_of_eq_lt hlt))
  obtain ⟨-, hsome, hmajor, hminor⟩ := policyAllows_iff.mp h
  refine policyAllows_iff.mpr ⟨hcandidate, hsome, fun hreach ↦ ?_, fun hreach ↦ ?_⟩
  · have hsame := hmajor hreach
    omega
  · have hsame := hmajor (hreach.trans (Nat.le_succ 1))
    have hsame' := hminor hreach
    omega

end MyOwnMesh.Updater
