import MyOwnMesh.Lib.Replay
import MyOwnMesh.Lib.Sweep
import MyOwnMesh.Lib.TwoNames
import Mathlib.Data.Finset.Insert
import Mathlib.Data.Finset.Erase
import Mathlib.Order.Monotone.Basic

/-!
# Reconnect intents

`crates/myownmesh-core/src/engine/state.rs:73–114,841–912` and the end of `drop_peer_inner`,
`engine/mod.rs:3530–3567`. After a recoverable drop the side that offers keeps an intent. A tick
asks for the intents that are due, a strong event for all of them; both drop the expired ones and
push the others back. An intent is bounded by the grace that its first drop opens, unless it is
sticky; a sticky one is asked for a number of times and then waits for the peer.
-/

namespace MyOwnMesh.Reconnect

open Lib Lib.Replay Lib.Sweep

/-- `scheduler.rs:72`. -/
def reconnectRetryBackoffMs : List Nat := [2000, 4000, 8000, 15000]

/-- `scheduler.rs:204`. -/
def reconnectingGraceMs : Nat := 90000

/-- `state.rs:84–103`; instants are in milliseconds. -/
structure ReconnectIntent where
  giveUpAt : Nat
  nextRetryAt : Nat
  attempt : Nat
  sticky : Bool
  deriving DecidableEq, Repr

/-- The wait after an attempt; `state.rs:109–113`. -/
def backoffStep (attempt : Nat) : Nat :=
  (reconnectRetryBackoffMs[attempt]?.or reconnectRetryBackoffMs.getLast?).getD 15000

/-- `state.rs:108–116`. -/
def advanceBackoff (intent : ReconnectIntent) (now : Nat) : ReconnectIntent :=
  { intent with
    attempt := intent.attempt + 1
    nextRetryAt := now + backoffStep intent.attempt }

/-- The intents, and the peers that are being closed. -/
structure State where
  intents : AList fun _ : String ↦ ReconnectIntent := ∅
  closing : Finset String := ∅

/-- What a dropped peer is dropped for; `events.rs:75–96`. -/
inductive DropReason where
  | denied
  | iceFailed
  | authFailed
  | userLeft
  | topologyPruned
  | heartbeatTimeout
  | transportError (message : String)
  deriving DecidableEq, Repr

/-- `state.rs:841–853`. -/
def recordReconnectIntent (s : State) (now : Nat) (deviceId : String) (sticky : Bool) : State :=
  let intent := (s.intents.lookup deviceId).getD
    { giveUpAt := now + reconnectingGraceMs, nextRetryAt := now, attempt := 0, sticky := sticky }
  { s with intents :=
      s.intents.insert deviceId { intent with sticky := intent.sticky || sticky } }

/-- `state.rs:857–859`. -/
def clearReconnectIntent (s : State) (deviceId : String) : State :=
  { s with intents := s.intents.erase deviceId }

/-- What the scans keep: a sticky intent, and one before its deadline. -/
def live (now : Nat) (intent : ReconnectIntent) : Bool :=
  intent.sticky || decide (now < intent.giveUpAt)

/-- What the loop of `due_reconnect_intents` does not pass over; `state.rs:875–886`. -/
def isDue (closing : Finset String) (now : Nat) (id : String) (intent : ReconnectIntent) : Bool :=
  !(decide (id ∈ closing) || decide (now < intent.nextRetryAt) ||
    intent.sticky && decide (reconnectRetryBackoffMs.length + 2 ≤ intent.attempt))

/-- `state.rs:869–891`. -/
def dueReconnectIntents (s : State) (now : Nat) : State × List String :=
  let kept := retain (live now) s.intents
  ({ s with intents :=
      update (fun id intent ↦
        if isDue s.closing now id intent then advanceBackoff intent now else intent) kept },
    keysWhere (isDue s.closing now) kept)

/-- `state.rs:897–912`. -/
def flushReconnectIntents (s : State) (now : Nat) : State × List String :=
  let kept := retain (live now) s.intents
  ({ s with intents :=
      update (fun id intent ↦
        if id ∈ s.closing then intent else advanceBackoff intent now) kept },
    keysWhere (fun id _ ↦ decide (id ∉ s.closing)) kept)

/-- `mod.rs:3543–3549`. -/
def recoverable (reason : DropReason) (evicted : Bool) : Bool :=
  !evicted && match reason with
    | .iceFailed | .heartbeatTimeout | .transportError _ => true
    | _ => false

/-- The end of `drop_peer_inner`, as far as the intents go; `mod.rs:3530–3567`. -/
def dropPeerInner (s : State) (now : Nat) (deviceId : String) (reason : DropReason)
    (weOffer sticky evicted : Bool) : State :=
  if recoverable reason evicted && (weOffer || sticky) then
    recordReconnectIntent s now deviceId sticky
  else if recoverable reason evicted then
    s
  else
    clearReconnectIntent s deviceId

/-- What is called, with what it reads of the rest of the engine. -/
inductive Op where
  | record (deviceId : String) (sticky : Bool)
  | clear (deviceId : String)
  | due
  | flush
  | beginPeerClose (deviceId : String)
  | finishPeerClose (deviceId : String)
  | dropPeer (deviceId : String) (reason : DropReason) (weOffer sticky evicted : Bool)
  deriving DecidableEq, Repr

/-- One call, at its time. -/
def step (s : State) (call : Nat × Op) : State :=
  match call.2 with
  | .record deviceId sticky => recordReconnectIntent s call.1 deviceId sticky
  | .clear deviceId => clearReconnectIntent s deviceId
  | .due => (dueReconnectIntents s call.1).1
  | .flush => (flushReconnectIntents s call.1).1
  | .beginPeerClose deviceId => { s with closing := insert deviceId s.closing }
  | .finishPeerClose deviceId => { s with closing := s.closing.erase deviceId }
  | .dropPeer deviceId reason weOffer sticky evicted =>
    dropPeerInner s call.1 deviceId reason weOffer sticky evicted

/-- The calls that record an intent: the recoverable drops among them. -/
def Records (deviceId : String) (sticky : Bool) : Op → Prop
  | .record id st => id = deviceId ∧ st = sticky
  | .dropPeer id reason weOffer st evicted =>
    id = deviceId ∧ st = sticky ∧ recoverable reason evicted = true ∧ (weOffer || st) = true
  | _ => False

/-- The calls that forget an intent: the drops that are meant among them. -/
def Clears (deviceId : String) : Op → Prop
  | .clear id => id = deviceId
  | .dropPeer id reason _ _ evicted => id = deviceId ∧ recoverable reason evicted = false
  | _ => False

/-! ### What a call does to the intent of a peer -/

/-- Everything a call can do to the intent of a peer. -/
inductive Change (closing : Finset String) (now : Nat) (d : String) (old : Option ReconnectIntent) :
    Op → Option ReconnectIntent → Prop where
  | same {op : Op} (h : ∀ sticky, ¬Records d sticky op) (hc : ¬Clears d op) :
      Change closing now d old op old
  | recorded {op : Op} {sticky : Bool} (h : Records d sticky op) (intent : ReconnectIntent)
      (hintent : intent = old.getD ⟨now + reconnectingGraceMs, now, 0, sticky⟩) :
      Change closing now d old op (some { intent with sticky := intent.sticky || sticky })
  | cleared {op : Op} (h : Clears d op) : Change closing now d old op none
  | due : Change closing now d old .due ((old.filter (live now)).map fun intent ↦
      if isDue closing now d intent then advanceBackoff intent now else intent)
  | flushed : Change closing now d old .flush ((old.filter (live now)).map fun intent ↦
      if d ∈ closing then intent else advanceBackoff intent now)

theorem lookup_record (s : State) (now : Nat) (id d : String) (sticky : Bool) :
    (recordReconnectIntent s now id sticky).intents.lookup d =
      if d = id then
        let intent := (s.intents.lookup d).getD ⟨now + reconnectingGraceMs, now, 0, sticky⟩
        some { intent with sticky := intent.sticky || sticky }
      else s.intents.lookup d := by
  show (AList.insert _ _ _).lookup d = _
  rw [TwoNames.lookup_insert_eq]
  split
  · next heq => rw [heq]
  · rfl

theorem change (s : State) (now : Nat) (op : Op) (d : String) :
    Change s.closing now d (s.intents.lookup d) op
      ((step s (now, op)).intents.lookup d) := by
  have hrecord : ∀ {op : Op} {id : String} {sticky : Bool},
      (∀ st, Records d st op ↔ d = id ∧ st = sticky) → ¬Clears d op →
      Change s.closing now d (s.intents.lookup d) op
        ((recordReconnectIntent s now id sticky).intents.lookup d) := by
    intro op id sticky hop hclears
    rw [lookup_record]
    split
    · next heq => exact .recorded ((hop sticky).mpr ⟨heq, rfl⟩) _ rfl
    · next hne => exact .same (fun st h ↦ hne ((hop st).mp h).1) hclears
  have hclear : ∀ {op : Op} {id : String},
      (Clears d op ↔ d = id) → (∀ st, ¬Records d st op) →
      Change s.closing now d (s.intents.lookup d) op
        ((clearReconnectIntent s id).intents.lookup d) := by
    intro op id hop hrecords
    show Change _ now d _ op ((s.intents.erase id).lookup d)
    rw [TwoNames.lookup_erase_eq]
    split
    · next heq => exact .cleared (hop.mpr heq)
    · next hne => exact .same hrecords fun h ↦ hne (hop.mp h)
  cases op with
  | record peer sticky => exact hrecord (fun st ↦ by simp [Records, eq_comm]) id
  | clear peer => exact hclear eq_comm fun _ ↦ id
  | due =>
    show Change _ now d _ .due ((update _ (retain _ _)).lookup d)
    rw [lookup_update, lookup_retain]
    exact .due
  | flush =>
    show Change _ now d _ .flush ((update _ (retain _ _)).lookup d)
    rw [lookup_update, lookup_retain]
    exact .flushed
  | beginPeerClose peer => exact .same (fun _ ↦ id) id
  | finishPeerClose peer => exact .same (fun _ ↦ id) id
  | dropPeer peer reason weOffer sticky evicted =>
    show Change _ now d _ _ (AList.lookup d (dropPeerInner s now peer _ _ _ _).intents)
    unfold dropPeerInner
    by_cases hrec : recoverable reason evicted = true
    · by_cases hdial : (weOffer || sticky) = true
      · rw [if_pos (by rw [hrec, hdial]; rfl)]
        apply hrecord
        · intro st
          simp only [Records, hrec, true_and]
          constructor
          · rintro ⟨rfl, rfl, -⟩
            exact ⟨rfl, rfl⟩
          · rintro ⟨rfl, rfl⟩
            exact ⟨rfl, rfl, hdial⟩
        · rintro ⟨-, hnot⟩
          exact absurd hrec (by simp [hnot])
      · rw [if_neg (by simpa [hrec] using hdial), if_pos hrec]
        refine .same ?_ ?_
        · rintro st ⟨-, rfl, -, h⟩
          exact hdial h
        · rintro ⟨-, hnot⟩
          exact absurd hrec (by simp [hnot])
    · have hnot : recoverable reason evicted = false := by simpa using hrec
      rw [if_neg (by simp [hnot]), if_neg hrec]
      apply hclear
      · simp [Clears, hnot, eq_comm]
      · rintro st ⟨-, -, h, -⟩
        exact hrec h

/-! ### What a due call returns -/

theorem mem_due_iff {s : State} {now : Nat} {d : String} :
    d ∈ (dueReconnectIntents s now).2 ↔ ∃ intent, s.intents.lookup d = some intent ∧
      live now intent = true ∧ isDue s.closing now d intent = true := by
  show d ∈ keysWhere _ (retain _ _) ↔ _
  rw [mem_keysWhere, lookup_retain]
  simp only [Option.filter_eq_some_iff, and_assoc]

theorem isDue_iff {closing : Finset String} {now : Nat} {d : String} {intent : ReconnectIntent} :
    isDue closing now d intent = true ↔ d ∉ closing ∧ intent.nextRetryAt ≤ now ∧
      (intent.sticky = true → intent.attempt < reconnectRetryBackoffMs.length + 2) := by
  simp only [isDue, Bool.not_eq_true', Bool.or_eq_false_iff, Bool.and_eq_false_imp,
    decide_eq_false_iff_not, Nat.not_lt, Nat.not_le, and_assoc]

theorem live_iff {now : Nat} {intent : ReconnectIntent} :
    live now intent = true ↔ intent.sticky = true ∨ now < intent.giveUpAt := by
  simp [live]

theorem backoffStep_succ_le (n : Nat) : backoffStep n ≤ backoffStep (n + 1) := by
  match n with
  | 0 | 1 | 2 | 3 => decide
  | n + 4 => exact Nat.le_refl _

theorem backoffStep_mono {m n : Nat} (h : m ≤ n) : backoffStep m ≤ backoffStep n :=
  monotone_nat_of_le_succ backoffStep_succ_le h

/-- No wait is longer than the last one of the schedule. -/
theorem backoffStep_le (n : Nat) : backoffStep n ≤ 15000 :=
  backoffStep_mono (Nat.le_add_right n 4)

/-! ### What holds of an intent over a history -/

/-- An intent that is held after a call was opened by it, or was held before and is as it was,
sticky perhaps, or pushed back. -/
inductive Held (now : Nat) (d : String) (op : Op) (old : Option ReconnectIntent) :
    ReconnectIntent → Prop where
  | opened {sticky : Bool} (h : Records d sticky op) (hold : old = none) :
      Held now d op old ⟨now + reconnectingGraceMs, now, 0, sticky⟩
  | kept {intent : ReconnectIntent} (hold : old = some intent) (sticky : Bool) :
      Held now d op old { intent with sticky := intent.sticky || sticky }
  | advanced {intent : ReconnectIntent} (hold : old = some intent) :
      Held now d op old (advanceBackoff intent now)

theorem held {s : State} {now : Nat} {op : Op} {d : String} {intent : ReconnectIntent}
    (h : (step s (now, op)).intents.lookup d = some intent) :
    Held now d op (s.intents.lookup d) intent := by
  have hchange := change s now op d
  have hsame : ∀ {i}, s.intents.lookup d = some i → Held now d op (s.intents.lookup d) i := by
    intro i hi
    have hkept : Held now d op (s.intents.lookup d) { i with sticky := i.sticky || false } :=
      .kept hi false
    rwa [Bool.or_false] at hkept
  generalize (step s (now, op)).intents.lookup d = after at hchange h
  cases hchange with
  | same => exact hsame h
  | cleared => cases h
  | @recorded _ sticky hrec i hi =>
    cases h
    cases hold : s.intents.lookup d with
    | none =>
      rw [hold] at hi
      rw [hi, Option.getD_none, Bool.or_self]
      exact .opened hrec rfl
    | some old =>
      rw [hold] at hi
      rw [hi]
      exact .kept rfl sticky
  | due =>
    obtain ⟨i, hi, rfl⟩ := Option.map_eq_some_iff.mp h
    have hi := (Option.filter_eq_some_iff.mp hi).1
    split
    · exact .advanced hi
    · exact hsame hi
  | flushed =>
    obtain ⟨i, hi, rfl⟩ := Option.map_eq_some_iff.mp h
    have hi := (Option.filter_eq_some_iff.mp hi).1
    split
    · exact hsame hi
    · exact .advanced hi

/-- Every intent is due again within the longest wait. -/
def Paced (now : Nat) (s : State) : Prop :=
  ∀ d intent, s.intents.lookup d = some intent → intent.nextRetryAt ≤ now + 15000

theorem Paced.step {now t : Nat} {s : State} (h : Paced now s) (hle : now ≤ t) (op : Op) :
    Paced t (step s (t, op)) := by
  intro d intent hintent
  cases held hintent with
  | opened => exact Nat.le_add_right t 15000
  | @kept old hold =>
    have hold : old.nextRetryAt ≤ now + 15000 := h d old hold
    exact Nat.le_trans hold (Nat.add_le_add_right hle _)
  | advanced => exact Nat.add_le_add_left (backoffStep_le _) t

/-- The times of a history do not decrease, and are at most `now`. -/
def Before (now : Nat) (history : List (Nat × Op)) : Prop :=
  history.Pairwise (·.1 ≤ ·.1) ∧ ∀ call ∈ history, call.1 ≤ now

theorem paced_run {history : List (Nat × Op)} {now : Nat} (h : Before now history) :
    Paced now (run step {} history) := by
  induction history using List.reverseRecOn generalizing now with
  | nil =>
    intro d intent hintent
    exact absurd hintent (by simp [run_nil])
  | append_singleton history call ih =>
    obtain ⟨hpairs, hnow⟩ := h
    obtain ⟨hhistory, -, hlast⟩ := List.pairwise_append.mp hpairs
    have hbefore : Paced call.1 (run step {} history) :=
      ih ⟨hhistory, fun c hc ↦ hlast c hc call List.mem_cons_self⟩
    have hafter := hbefore.step (Nat.le_refl _) call.2
    rw [run_append]
    intro d intent hintent
    exact Nat.le_trans (hafter d intent hintent)
      (Nat.add_le_add_right (hnow call (by simp)) 15000)

/-- A recorded intent is the one that was held, sticky perhaps, or a new one. -/
theorem lookup_of_records {s : State} {t : Nat} {d : String} {sticky : Bool} {op : Op}
    (h : Records d sticky op) :
    ∃ intent, intent = (s.intents.lookup d).getD ⟨t + reconnectingGraceMs, t, 0, sticky⟩ ∧
      (step s (t, op)).intents.lookup d =
        some { intent with sticky := intent.sticky || sticky } := by
  have hrecord : ∀ st, Records d st op → st = sticky := by
    intro st hst
    cases op with
    | record => exact hst.2.symm.trans h.2
    | dropPeer => exact hst.2.1.symm.trans h.2.1
    | clear | due | flush | beginPeerClose | finishPeerClose => exact absurd h id
  have hchange := change s t op d
  generalize (step s (t, op)).intents.lookup d = after at hchange ⊢
  cases hchange with
  | same hnot => exact absurd h (hnot sticky)
  | @recorded _ st hst i hi =>
    obtain rfl := hrecord st hst
    exact ⟨i, hi, rfl⟩
  | cleared hclears =>
    cases op with
    | record => exact absurd hclears id
    | dropPeer =>
      obtain ⟨-, -, hrec, -⟩ := h
      exact absurd hrec (by simp [hclears.2])
    | clear | due | flush | beginPeerClose | finishPeerClose => exact absurd h id
  | due => exact absurd h id
  | flushed => exact absurd h id

/-- A live intent is not dropped by a scan. -/
theorem lookup_scan {s : State} {t : Nat} {d : String} {intent : ReconnectIntent}
    (h : s.intents.lookup d = some intent) (hlive : live t intent = true) :
    d ∈ (step s (t, .due)).intents ∧ d ∈ (step s (t, .flush)).intents := by
  have hkept : (retain (live t) s.intents).lookup d = some intent := by
    rw [lookup_retain, h, Option.filter_some, if_pos hlive]
  constructor
  · rw [← AList.lookup_isSome]
    show ((update _ (retain _ _)).lookup d).isSome = true
    rw [lookup_update, hkept]
    rfl
  · rw [← AList.lookup_isSome]
    show ((update _ (retain _ _)).lookup d).isSome = true
    rw [lookup_update, hkept]
    rfl

/-- An intent whose next attempt comes before its deadline, or that is sticky and not yet parked. -/
def HasRetry (now : Nat) (intent : ReconnectIntent) : Prop :=
  if intent.sticky then intent.attempt < reconnectRetryBackoffMs.length + 2
  else now < intent.giveUpAt ∧ intent.nextRetryAt < intent.giveUpAt

/-- A sticky intent that is not cleared stays, and stays sticky. -/
def StickyHeld (d : String) (s : State) : Prop :=
  ∃ intent, s.intents.lookup d = some intent ∧ intent.sticky = true

theorem StickyHeld.step {d : String} {s : State} (h : StickyHeld d s) (t : Nat) {op : Op}
    (hop : ¬Clears d op) : StickyHeld d (step s (t, op)) := by
  obtain ⟨intent, hintent, hsticky⟩ := h
  have hlive : live t intent = true := live_iff.mpr (.inl hsticky)
  have hchange := change s t op d
  unfold StickyHeld
  generalize (Reconnect.step s (t, op)).intents.lookup d = after at hchange ⊢
  rw [hintent] at hchange
  cases hchange with
  | same => exact ⟨intent, rfl, hsticky⟩
  | recorded _ i hi =>
    obtain rfl : i = intent := hi
    exact ⟨_, rfl, by simp [hsticky]⟩
  | cleared hclears => exact absurd hclears hop
  | due =>
    rw [Option.filter_some, if_pos hlive]
    refine ⟨_, rfl, ?_⟩
    dsimp only
    split
    · exact hsticky
    · exact hsticky
  | flushed =>
    rw [Option.filter_some, if_pos hlive]
    refine ⟨_, rfl, ?_⟩
    dsimp only
    split
    · exact hsticky
    · exact hsticky

/-- The intent of a peer, where it has one, is past an attempt made at a time. -/
def Past (d : String) (t n : Nat) (s : State) : Prop :=
  ∀ intent, s.intents.lookup d = some intent →
    t + backoffStep n ≤ intent.nextRetryAt ∧ n < intent.attempt

theorem Past.step {d : String} {t n : Nat} {s : State} (h : Past d t n s) (hheld : d ∈ s.intents)
    {u : Nat} (hu : t ≤ u) (op : Op) : Past d t n (step s (u, op)) := by
  intro intent hintent
  cases Reconnect.held hintent with
  | opened _ hnone => exact absurd hheld (AList.lookup_eq_none.mp hnone)
  | @kept old hold => exact h old hold
  | advanced hold =>
    obtain ⟨-, hn⟩ := h _ hold
    exact ⟨Nat.add_le_add hu (backoffStep_mono hn.le), hn.trans (Nat.lt_succ_self _)⟩

/-! ### The law -/

/-- What holds right after the intent of a peer is recorded, in a state that is reached by `pre`. -/
structure RecordLaw (pre : List (Nat × Op)) (t : Nat) (op : Op) (d : String) (sticky : Bool) :
    Prop where
  /-- An intent that is not over yet is not dropped by a scan at that time. -/
  survives : (∀ old, (run step {} pre).intents.lookup d = some old →
      sticky = true ∨ live t old = true) →
    d ∈ (step (run step {} (pre ++ [(t, op)])) (t, .due)).intents ∧
      d ∈ (step (run step {} (pre ++ [(t, op)])) (t, .flush)).intents
  /-- A new intent is due at that time. -/
  opened : d ∉ (run step {} pre).intents → d ∉ (run step {} pre).closing →
    d ∈ (dueReconnectIntents (run step {} (pre ++ [(t, op)])) t).2
  /-- An intent with an attempt left is due before its deadline, within the longest wait. -/
  retried : ∀ intent, (run step {} (pre ++ [(t, op)])).intents.lookup d = some intent →
    HasRetry t intent → d ∉ (run step {} pre).closing →
    ∃ u, t ≤ u ∧ u ≤ t + 15000 ∧ live u intent = true ∧
      d ∈ (dueReconnectIntents (run step {} (pre ++ [(t, op)])) u).2

/-- What holds of the intents over a history. -/
structure IntentLaw (history : List (Nat × Op)) : Prop where
  recorded : ∀ pre t op post d sticky, history = pre ++ (t, op) :: post → Records d sticky op →
    RecordLaw pre t op d sticky
  /-- Between two returns of a peer whose intent is held, the wait of the first passes. -/
  spaced : ∀ pre t mid u post d intent,
    history = pre ++ (t, .due) :: (mid ++ (u, .due) :: post) →
    (run step {} pre).intents.lookup d = some intent →
    d ∈ (dueReconnectIntents (run step {} pre) t).2 →
    (∀ m₁ m₂, mid = m₁ ++ m₂ → d ∈ (run step {} (pre ++ (t, .due) :: m₁)).intents) →
    d ∈ (dueReconnectIntents (run step {} (pre ++ (t, .due) :: mid)) u).2 →
    t + backoffStep intent.attempt ≤ u
  sticky : ∀ pre post d, history = pre ++ post → StickyHeld d (run step {} pre) →
    (∀ call ∈ post, ¬Clears d call.2) → StickyHeld d (run step {} history)

theorem closing_of_records {s : State} {t : Nat} {op : Op} {d : String} {sticky : Bool}
    (h : Records d sticky op) : (step s (t, op)).closing = s.closing := by
  cases op with
  | record => rfl
  | dropPeer peer reason weOffer st evicted =>
    show (dropPeerInner s t peer reason weOffer st evicted).closing = _
    unfold dropPeerInner
    rw [if_pos (by rw [h.2.2.1, h.2.2.2]; rfl)]
    rfl
  | clear | due | flush | beginPeerClose | finishPeerClose => exact absurd h id

theorem recordLaw {pre : List (Nat × Op)} {t : Nat} {op : Op} {d : String} {sticky : Bool}
    (hbefore : Before t pre) (h : Records d sticky op) : RecordLaw pre t op d sticky := by
  have hrun : run step {} (pre ++ [(t, op)]) = step (run step {} pre) (t, op) := by
    rw [run_append]
    rfl
  have hpaced : Paced t (step (run step {} pre) (t, op)) :=
    (paced_run hbefore).step (Nat.le_refl t) op
  have hclosing := closing_of_records (s := run step {} pre) (t := t) h
  obtain ⟨intent, hintent, hlookup⟩ := lookup_of_records (s := run step {} pre) (t := t) h
  refine ⟨?_, ?_, ?_⟩
  · rw [hrun]
    intro hlive
    refine lookup_scan hlookup (live_iff.mpr ?_)
    cases hold : (run step {} pre).intents.lookup d with
    | none =>
      rw [hold] at hintent
      rw [hintent]
      exact .inr (Nat.lt_add_of_pos_right (by decide))
    | some old =>
      rw [hold] at hintent
      obtain rfl : intent = old := hintent
      rcases hlive intent hold with hsticky | hlive
      · exact .inl (by simp [hsticky])
      · exact (live_iff.mp hlive).imp (fun hs ↦ by simp [hs]) id
  · rw [hrun]
    intro hnew hopen
    rw [AList.lookup_eq_none.mpr hnew] at hintent
    obtain rfl : intent = _ := hintent
    refine mem_due_iff.mpr ⟨_, hlookup, live_iff.mpr ?_, isDue_iff.mpr ?_⟩
    · exact .inr (Nat.lt_add_of_pos_right (by decide))
    · have hnone : 0 < reconnectRetryBackoffMs.length + 2 := by decide
      exact ⟨hclosing ▸ hopen, Nat.le_refl t, fun _ ↦ hnone⟩
  · rw [hrun]
    intro held hheld hretry hopen
    -- the later of the time of the call and the next attempt
    have hnext := hpaced d held hheld
    refine ⟨max t held.nextRetryAt, Nat.le_max_left _ _, by omega, ?_⟩
    have hlive : live (max t held.nextRetryAt) held = true := by
      rw [live_iff]
      unfold HasRetry at hretry
      split at hretry
      · next hsticky => exact .inl hsticky
      · exact .inr (by omega)
    refine ⟨hlive, mem_due_iff.mpr ⟨held, hheld, hlive, isDue_iff.mpr ?_⟩⟩
    refine ⟨hclosing ▸ hopen, Nat.le_max_right _ _, fun hsticky ↦ ?_⟩
    unfold HasRetry at hretry
    rwa [if_pos hsticky] at hretry

theorem past_of_due {s : State} {t : Nat} {d : String} {intent : ReconnectIntent}
    (hintent : s.intents.lookup d = some intent) (h : d ∈ (dueReconnectIntents s t).2) :
    Past d t intent.attempt (step s (t, .due)) := by
  obtain ⟨i, hi, hlive, hdue⟩ := mem_due_iff.mp h
  obtain rfl : i = intent := Option.some.inj (hi.symm.trans hintent)
  have hafter : (step s (t, .due)).intents.lookup d = some (advanceBackoff i t) := by
    show (update _ (retain _ _)).lookup d = _
    rw [lookup_update, lookup_retain, hi, Option.filter_some, if_pos hlive, Option.map_some,
      if_pos hdue]
  intro after h
  rw [hafter] at h
  cases h
  exact ⟨Nat.le_refl _, Nat.lt_succ_self _⟩

theorem past_run {d : String} {t n : Nat} {s : State} (h : Past d t n s) (mid : List (Nat × Op))
    (htimes : ∀ call ∈ mid, t ≤ call.1)
    (hheld : ∀ m₁ m₂, mid = m₁ ++ m₂ → d ∈ (run step s m₁).intents) :
    Past d t n (run step s mid) := by
  induction mid using List.reverseRecOn with
  | nil => exact h
  | append_singleton mid call ih =>
    rw [run_append]
    refine Past.step (ih ?_ ?_) (hheld mid [call] rfl) (htimes call (by simp)) call.2
    · exact fun c hc ↦ htimes c (List.mem_append_left _ hc)
    · exact fun m₁ m₂ hm ↦ hheld m₁ (m₂ ++ [call]) (by simp [hm])

/-- Over every history, a recorded intent that is not over is kept and asked for again, attempts
are spaced, and a sticky intent stays until it is cleared. -/
theorem reconnect_intents_lawful (history : List (Nat × Op))
    (h : history.Pairwise (·.1 ≤ ·.1)) : IntentLaw history := by
  refine ⟨?_, ?_, ?_⟩
  · rintro pre t op post d sticky rfl hrecords
    obtain ⟨hpre, -, hlast⟩ := List.pairwise_append.mp h
    exact recordLaw ⟨hpre, fun c hc ↦ hlast c hc (t, op) List.mem_cons_self⟩ hrecords
  · rintro pre t mid u post d intent rfl hintent hfirst hheld hsecond
    obtain ⟨-, htail, -⟩ := List.pairwise_append.mp h
    obtain ⟨hafter, -⟩ := List.pairwise_cons.mp htail
    have hpast := past_run (past_of_due hintent hfirst) mid
      (fun c hc ↦ hafter c (List.mem_append_left _ hc)) fun m₁ m₂ hm ↦ by
        have := hheld m₁ m₂ hm
        rwa [run_append, run_cons] at this
    rw [run_append, run_cons] at hsecond
    obtain ⟨last, hlast, -, hdue⟩ := mem_due_iff.mp hsecond
    exact Nat.le_trans (hpast last hlast).1 (isDue_iff.mp hdue).2.1
  · rintro pre post d rfl hsticky hclears
    rw [run_append]
    exact run_invariant_of_mem (fun s call hc hs ↦ hs.step call.1 (hclears call hc)) hsticky

/-- A peer that is dropped again near the end of its window. -/
def lateDrop : List (Nat × Op) :=
  [(0, .record "peer" false), (0, .due), (2000, .due), (6000, .due), (14000, .due), (80000, .due),
    (81000, .record "peer" false)]

theorem late_drop_lawful : IntentLaw lateDrop := reconnect_intents_lawful lateDrop (by decide)

/-- A pinned peer that is dropped again after all of its attempts. -/
def parked : List (Nat × Op) :=
  [(0, .record "peer" true), (0, .flush), (0, .flush), (0, .flush), (0, .flush), (0, .flush),
    (0, .flush), (0, .record "peer" true)]

/-- A drop does not extend the window of the first: the next attempt is after its end, and no due
call asks for the peer. Nor does one for a pinned peer that has had its attempts. A peer that is
cleared in between is asked for twice at once. -/
theorem intents_not_always_retried :
    (∀ u, 81000 ≤ u → "peer" ∉ (dueReconnectIntents (run step {} lateDrop) u).2) ∧
    (∀ u, "peer" ∉ (dueReconnectIntents (run step {} parked) u).2) ∧
    let cleared := [(0, .record "peer" false), (0, .due), (0, .clear "peer"),
      (0, .record "peer" false)]
    "peer" ∈ (dueReconnectIntents (run step {} (cleared.take 1)) 0).2 ∧
      "peer" ∈ (dueReconnectIntents (run step {} cleared) 0).2 := by
  have hlate : (run step {} lateDrop).intents.lookup "peer" =
      some ⟨90000, 95000, 5, false⟩ := by decide +kernel
  have hparked : (run step {} parked).intents.lookup "peer" =
      some ⟨90000, 15000, 6, true⟩ := by decide +kernel
  refine ⟨?_, ?_, by decide +kernel⟩
  · intro u _ hdue
    obtain ⟨intent, hintent, hlive, hnext⟩ := mem_due_iff.mp hdue
    rw [hlate] at hintent
    cases hintent
    have hlive : u < 90000 := (live_iff.mp hlive).resolve_left (by decide)
    have hnext : 95000 ≤ u := (isDue_iff.mp hnext).2.1
    omega
  · intro u hdue
    obtain ⟨intent, hintent, -, hnext⟩ := mem_due_iff.mp hdue
    rw [hparked] at hintent
    cases hintent
    exact absurd ((isDue_iff.mp hnext).2.2 rfl) (by decide)

end MyOwnMesh.Reconnect
