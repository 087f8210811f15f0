import Mathlib.Data.Finset.Card
import Mathlib.Data.Finset.Dedup
import Mathlib.Data.List.Chain
import MyOwnMesh.Lib.Grouping
import MyOwnMesh.Lib.Replay
import MyOwnMesh.Video.Losses

/-!
# What the assembler holds

Whatever packets arrive, the queue of the assembler stays within its bounds, because the loop that
releases units stops at a unit only when no bound is passed and its clock has time left, and because
the clocks are ordered along the queue. That equal timestamps stand together in the queue is another
matter: a timestamp that has wrapped may be newer than the newest and be that of a unit that is
pending still.
-/

namespace MyOwnMesh.Video

open Lib.Grouping Lib.Replay

/-! ### Clocks along the queue -/

section Clocks

variable {T : Type} {now now' : Nat} {u v au : PendingAu T} {pending rest : List (PendingAu T)}

/-- A unit is blocked no later than a unit behind it. -/
def Earlier (u v : PendingAu T) : Prop := ∀ b ∈ v.blockedSince, ∃ a ∈ u.blockedSince, a ≤ b

theorem PendingAu.block_eq (now : Nat) (au : PendingAu T) :
    (au.block now).blockedSince = some (au.blockedSince.getD now) := rfl

theorem PendingAu.block_of_mem {b : Nat} (h : b ∈ au.blockedSince) :
    b ∈ (au.block now).blockedSince := by
  rw [PendingAu.block_eq, Option.mem_def.mp h]
  rfl

theorem Earlier.block_left (h : Earlier u v) : Earlier (u.block now) v := by
  intro b hb
  obtain ⟨a, ha, hle⟩ := h b hb
  exact ⟨a, PendingAu.block_of_mem ha, hle⟩

/-- A clock that starts now is no earlier than one that runs. -/
theorem Earlier.block_right (h : Earlier u v) {a : Nat} (ha : a ∈ u.blockedSince) (hle : a ≤ now) :
    Earlier u (v.block now) := by
  intro b hb
  rw [PendingAu.block_eq] at hb
  cases hv : v.blockedSince with
  | none =>
    rw [hv] at hb
    obtain rfl := Option.some.inj hb
    exact ⟨a, ha, hle⟩
  | some c =>
    rw [hv] at hb
    obtain rfl := Option.some.inj hb
    exact h c hv

/-- What the clocks and markers of a queue keep: the clocks are ordered and in the past, the clock
of the last unit waits for its marker, and a unit holds nothing behind its marker. -/
structure Clocked (now : Nat) (pending : List (PendingAu T)) : Prop where
  order : pending.Pairwise Earlier
  past : ∀ au ∈ pending, ∀ b ∈ au.blockedSince, b ≤ now
  quiet : ∀ au ∈ pending.getLast?, au.blockedSince.isSome → au.markerSeq.isSome
  below : ∀ au ∈ pending, ∀ m ∈ au.markerSeq, ∀ e ∈ au.parts, e.1 ≤ m

/-- Every clock but that of the last unit runs. -/
def Running (pending : List (PendingAu T)) : Prop :=
  ∀ au ∈ pending.dropLast, au.blockedSince.isSome

theorem Clocked.nil : Clocked now ([] : List (PendingAu T)) :=
  ⟨List.Pairwise.nil, by simp, by simp, by simp⟩

theorem Clocked.later (h : Clocked now pending) (hle : now ≤ now') : Clocked now' pending :=
  ⟨h.order, fun au hau b hb ↦ (h.past au hau b hb).trans hle, h.quiet, h.below⟩

theorem getLast?_cons_of_mem {α : Type} {a b : α} {l : List α} (h : b ∈ l.getLast?) :
    b ∈ (a :: l).getLast? := by
  cases l with
  | nil => cases h
  | cons c l => exact h

theorem Clocked.tail (h : Clocked now (au :: rest)) : Clocked now rest :=
  ⟨(List.pairwise_cons.mp h.order).2, fun u hu ↦ h.past u (List.mem_cons_of_mem au hu),
    fun u hu ↦ h.quiet u (getLast?_cons_of_mem hu),
    fun u hu ↦ h.below u (List.mem_cons_of_mem au hu)⟩

theorem Running.tail (h : Running (au :: rest)) : Running rest := by
  intro u hu
  refine h u ?_
  cases rest with
  | nil => cases hu
  | cons v rest => exact List.mem_cons_of_mem au hu

/-- The clock of the front may start. -/
theorem Running.front (h : Running (au :: rest)) :
    Running ((if au.observable rest then au.block now else au) :: rest) := by
  cases rest with
  | nil => simp [Running]
  | cons v rest =>
    intro u hu
    rw [List.dropLast_cons_of_ne_nil (List.cons_ne_nil v rest)] at hu
    rcases List.mem_cons.mp hu with rfl | hu
    · split
      · rfl
      · exact h au List.mem_cons_self
    · exact h u (List.mem_cons_of_mem au hu)

/-- The clock of a unit whose hole can be seen may start. -/
theorem Clocked.block (h : Clocked now (au :: rest)) (hseen : au.observable rest = true) :
    Clocked now (au.block now :: rest) := by
  obtain ⟨hfirst, hrest⟩ := List.pairwise_cons.mp h.order
  refine ⟨List.pairwise_cons.mpr ⟨fun v hv ↦ (hfirst v hv).block_left, hrest⟩, ?_, ?_, ?_⟩
  · intro u hu b hb
    rcases List.mem_cons.mp hu with rfl | hu
    · rw [PendingAu.block_eq] at hb
      obtain rfl := Option.some.inj hb
      cases hau : au.blockedSince with
      | none => exact le_refl now
      | some c => exact h.past au List.mem_cons_self c hau
    · exact h.past u (List.mem_cons_of_mem au hu) b hb
  · intro u hu hblocked
    cases rest with
    | nil =>
      obtain rfl := Option.some.inj hu
      change au.markerSeq.isSome = true
      simpa [PendingAu.observable] using hseen
    | cons v rest => exact h.quiet u hu hblocked
  · intro u hu
    rcases List.mem_cons.mp hu with rfl | hu
    · exact h.below au List.mem_cons_self
    · exact h.below u (List.mem_cons_of_mem au hu)

/-- A unit whose clock may have started. -/
theorem exists_of_mem_startClocks (h : v ∈ startClocks now pending) :
    ∃ u ∈ pending, v = u ∨ v = u.block now := by
  induction pending with
  | nil => cases h
  | cons au rest ih =>
    rw [startClocks] at h
    rcases List.mem_cons.mp h with rfl | h
    · refine ⟨au, List.mem_cons_self, ?_⟩
      split
      · exact .inr rfl
      · exact .inl rfl
    · obtain ⟨u, hu, hv⟩ := ih h
      exact ⟨u, List.mem_cons_of_mem au hu, hv⟩

theorem startClocks_ne_nil (now : Nat) (h : pending ≠ []) : startClocks now pending ≠ [] := by
  cases pending with
  | nil => exact absurd rfl h
  | cons au rest => exact List.cons_ne_nil _ _

/-- Starting the clocks of the holes that can be seen leaves only that of the last unit. -/
theorem running_startClocks (now : Nat) (pending : List (PendingAu T)) :
    Running (startClocks now pending) := by
  induction pending with
  | nil => simp [Running, startClocks]
  | cons au rest ih =>
    cases rest with
    | nil => simp [Running, startClocks]
    | cons v rest =>
      intro u hu
      have hseen : au.observable (v :: rest) = true := by simp [PendingAu.observable]
      rw [startClocks, if_pos hseen, List.dropLast_cons_of_ne_nil
        (startClocks_ne_nil now (List.cons_ne_nil v rest))] at hu
      rcases List.mem_cons.mp hu with rfl | hu
      · rfl
      · exact ih u hu

/-- Starting the clocks of the holes that can be seen keeps them in order. -/
theorem Clocked.startClocks (h : Clocked now pending) : Clocked now (startClocks now pending) := by
  induction pending with
  | nil => exact h
  | cons au rest ih =>
    have hrest := ih h.tail
    cases rest with
    | nil =>
      rw [Video.startClocks]
      split
      · next hseen => exact h.block hseen
      · exact h
    | cons v rest =>
      have hseen : au.observable (v :: rest) = true := by simp [PendingAu.observable]
      have hblock := h.block hseen
      obtain ⟨hfirst, -⟩ := List.pairwise_cons.mp hblock.order
      have hau := hblock.past (au.block now) List.mem_cons_self _ rfl
      rw [Video.startClocks, if_pos hseen]
      refine ⟨List.pairwise_cons.mpr ⟨fun w hw ↦ ?_, hrest.order⟩, ?_, ?_, ?_⟩
      · obtain ⟨u, hu, rfl | rfl⟩ := exists_of_mem_startClocks hw
        · exact hfirst w hu
        · exact (hfirst u hu).block_right rfl hau
      · exact List.forall_mem_cons.mpr ⟨hblock.past _ List.mem_cons_self, hrest.past⟩
      · intro w hw
        obtain ⟨c, l, hl⟩ := List.exists_cons_of_ne_nil
          (startClocks_ne_nil now (List.cons_ne_nil v rest))
        rw [hl] at hw hrest
        exact hrest.quiet w hw
      · exact List.forall_mem_cons.mpr ⟨hblock.below _ List.mem_cons_self, hrest.below⟩

end Clocks

/-! ### Limits -/

section Collect

variable {T : Type} [DecidableEq T] {depacketize : List Bytes → Option Bytes} {now : Nat}
  {au : PendingAu T} {rest pending : List (PendingAu T)}

/-- Changes of the timestamp along the queue are as many as there are timestamps, or more. -/
theorem card_timestamps_le (previous : Option T) (pending : List (PendingAu T)) :
    ((pending.map PendingAu.timestamp).toFinset.filter fun t ↦ previous ≠ some t).card ≤
      pendingFrames previous pending := by
  induction pending generalizing previous with
  | nil => exact Nat.le_refl 0
  | cons au rest ih =>
    rw [List.map_cons, List.toFinset_cons, Finset.filter_insert, pendingFrames]
    by_cases hsame : previous = some au.timestamp
    · rw [if_pos hsame, if_neg (not_not.mpr hsame)]
      exact ih previous
    · rw [if_neg hsame, if_pos hsame]
      refine Nat.le_trans (Finset.card_le_card (t := insert au.timestamp
        ((rest.map PendingAu.timestamp).toFinset.filter fun t ↦ some au.timestamp ≠ some t)) ?_)
        (Nat.le_trans (Finset.card_insert_le _ _) (Nat.succ_le_succ (ih (some au.timestamp))))
      intro t ht
      rw [Finset.mem_insert, Finset.mem_filter] at ht ⊢
      by_cases heq : t = au.timestamp
      · exact .inl heq
      · exact .inr ⟨(ht.resolve_left heq).1, fun h ↦ heq (Option.some.inj h).symm⟩

/-- A queue within its bounds: not too many packets, not too many timestamps, and no unit that is
blocked for long. -/
structure WithinBounds (pending : List (PendingAu T)) (now : Nat) : Prop where
  parts : (pending.map fun au ↦ au.parts.length).sum ≤ maxPendingParts
  frames : (pending.map PendingAu.timestamp).toFinset.card ≤ maxPendingFrames
  clocks : ∀ au ∈ pending, ∀ b ∈ au.blockedSince, now - b < retransmitGrace

omit [DecidableEq T] in
/-- Discontinuities are reported with a sample between, from a gap that may be open to one that
may be open. -/
def Coalesced : Bool → List (AssemblyEvent T) → Bool → Prop
  | gap, [], gap' => gap' = gap
  | _, .sample _ :: events, gap' => Coalesced false events gap'
  | gap, .discontinuity _ _ :: events, gap' => gap = false ∧ Coalesced true events gap'

omit [DecidableEq T] in
theorem Coalesced.append {gap gap' gap'' : Bool} {events events' : List (AssemblyEvent T)}
    (h : Coalesced gap events gap') (h' : Coalesced gap' events' gap'') :
    Coalesced gap (events ++ events') gap'' := by
  induction events generalizing gap with
  | nil =>
    obtain rfl : gap' = gap := h
    exact h'
  | cons event events ih =>
    cases event with
    | sample v => exact ih h
    | discontinuity ts diagnostic => exact ⟨h.1, ih h.2⟩

omit [DecidableEq T] in
/-- Between two discontinuities is a sample. -/
theorem Coalesced.exists_sample {gap gap' : Bool} {before between after : List (AssemblyEvent T)}
    {ts ts' : T} {d d' : VideoRecoveryDiagnostic}
    (h : Coalesced gap
      (before ++ .discontinuity ts d :: (between ++ .discontinuity ts' d' :: after)) gap') :
    ∃ v, .sample v ∈ between := by
  induction before generalizing gap with
  | nil =>
    cases between with
    | nil => exact absurd h.2.1 (by decide)
    | cons event between =>
      cases event with
      | sample v => exact ⟨v, List.mem_cons_self⟩
      | discontinuity ts d => exact absurd h.2.1 (by decide)
  | cons event before ih =>
    cases event with
    | sample v => exact ih h
    | discontinuity ts d => exact ih h.2

/-- The loop stops at a unit only when no bound is passed and the clock of the unit has time
left. -/
theorem verdict_wait {prevEnd : Option Int} (h : verdict depacketize now prevEnd au rest = .wait) :
    limitOf au rest = none ∧
      (au.observable rest = true → now - au.blockedSince.getD now < retransmitGrace) := by
  unfold verdict at h
  cases hlimit : limitOf au rest with
  | some reason =>
    -- Past a bound the front is given up, unless it comes out whole.
    rw [hlimit] at h
    simp only at h
    split at h
    · cases h
    · split at h <;> cases h
  | none =>
    rw [hlimit] at h
    simp only at h
    have hpatience : (if au.observable rest ∧ retransmitGrace ≤ now - au.blockedSince.getD now then
        Verdict.abandon "retransmit_deadline" else .wait : Verdict T) = .wait := by
      split at h
      · exact h
      · split at h
        · cases h
        · exact h
        · cases h
    refine ⟨rfl, fun hseen ↦ ?_⟩
    split at hpatience
    · cases hpatience
    · next hyoung => exact Nat.lt_of_not_le fun hle ↦ hyoung ⟨hseen, hle⟩

theorem limitOf_eq_none (h : limitOf au rest = none) :
    ((au :: rest).map fun u ↦ u.parts.length).sum ≤ maxPendingParts ∧
      pendingFrames none (au :: rest) ≤ maxPendingFrames := by
  unfold limitOf at h
  split at h
  · cases h
  · split at h
    · cases h
    · next hparts =>
      split at h
      · cases h
      · next hframes => exact ⟨Nat.le_of_not_lt hparts, Nat.le_of_not_lt hframes⟩

/-- What is left when the loop stops: the end of the queue, where the clock of the front may have
started. -/
structure Left (now : Nat) (pending : List (PendingAu T)) (r : Collected T) : Prop where
  clocked : Clocked now r.pending
  running : Running r.pending
  bounds : WithinBounds r.pending now
  kept : ∃ gone kept, pending = gone ++ kept ∧
    (r.pending = kept ∨ ∃ au rest, kept = au :: rest ∧ r.pending = au.block now :: rest)

/-- A front that waits is within the bounds. -/
theorem withinBounds_wait {prevEnd : Option Int} (h : Clocked now (au :: rest))
    (hwait : verdict depacketize now prevEnd au rest = .wait) :
    WithinBounds ((if au.observable rest then au.block now else au) :: rest) now := by
  obtain ⟨hlimit, hgrace⟩ := verdict_wait hwait
  obtain ⟨hparts, hframes⟩ := limitOf_eq_none hlimit
  have hcard := card_timestamps_le none (au :: rest)
  rw [Finset.filter_true_of_mem fun t _ ↦ by simp] at hcard
  split
  · next hseen =>
    have hblock := h.block hseen
    obtain ⟨hfirst, -⟩ := List.pairwise_cons.mp hblock.order
    have hau := hgrace hseen
    refine ⟨hparts, hcard.trans hframes,
      List.forall_mem_cons.mpr ⟨fun b hb ↦ ?_, fun v hv b hb ↦ ?_⟩⟩
    · rw [PendingAu.block_eq] at hb
      obtain rfl := Option.some.inj hb
      exact hau
    · obtain ⟨a, ha, hle⟩ := hfirst v hv b hb
      rw [PendingAu.block_eq] at ha
      obtain rfl := Option.some.inj ha
      omega
  · next hunseen =>
    have halone : rest = [] ∧ au.markerSeq.isSome = false := by
      simpa [PendingAu.observable, and_comm] using hunseen
    obtain ⟨rfl, hmarker⟩ := halone
    refine ⟨hparts, hcard.trans hframes, List.forall_mem_cons.mpr ⟨fun b hb ↦ ?_, by simp⟩⟩
    have hquiet := h.quiet au rfl (by rw [Option.mem_def.mp hb]; rfl)
    rw [hmarker] at hquiet
    cases hquiet

theorem collectLoop_left {pending : List (PendingAu T)} (h : Clocked now pending)
    (hrunning : Running pending) (prevEnd : Option Int) (gapOpen : Bool) :
    Left now pending (collectLoop depacketize now pending prevEnd gapOpen) := by
  induction pending generalizing prevEnd gapOpen with
  | nil =>
    rw [collectLoop]
    exact ⟨h, hrunning, ⟨by simp, by simp, by simp⟩, [], [], rfl, .inl rfl⟩
  | cons au rest ih =>
    have hkept : ∀ {pending' : List (PendingAu T)}, (∃ gone kept, rest = gone ++ kept ∧
        (pending' = kept ∨ ∃ u l, kept = u :: l ∧ pending' = u.block now :: l)) →
        ∃ gone kept, au :: rest = gone ++ kept ∧
          (pending' = kept ∨ ∃ u l, kept = u :: l ∧ pending' = u.block now :: l) := by
      rintro pending' ⟨gone, kept, rfl, hpending'⟩
      exact ⟨au :: gone, kept, rfl, hpending'⟩
    rw [collectLoop]
    split
    · next sample endSeq _ =>
      have hrest := ih h.tail hrunning.tail (some endSeq) false
      exact ⟨hrest.clocked, hrest.running, hrest.bounds, hkept hrest.kept⟩
    · next hwait =>
      refine ⟨?_, ?_, withinBounds_wait h hwait, [], au :: rest, rfl, ?_⟩
      · split
        · next hseen => exact h.block hseen
        · exact h
      · exact hrunning.front
      · split
        · exact .inr ⟨au, rest, rfl, rfl⟩
        · exact .inl rfl
    · next reason _ =>
      have hrest := ih h.tail hrunning.tail au.markerSeq true
      exact ⟨hrest.clocked, hrest.running, hrest.bounds, hkept hrest.kept⟩

/-- A unit that is given up is reported unless the one before it was. -/
theorem collectLoop_coalesced (pending : List (PendingAu T)) (prevEnd : Option Int)
    (gapOpen : Bool) :
    Coalesced gapOpen (collectLoop depacketize now pending prevEnd gapOpen).events
      (collectLoop depacketize now pending prevEnd gapOpen).gapOpen := by
  induction pending generalizing prevEnd gapOpen with
  | nil => rfl
  | cons au rest ih =>
    rw [collectLoop]
    split
    · next sample endSeq _ => exact ih (some endSeq) false
    · rfl
    · next reason _ =>
      cases gapOpen with
      | true => exact ih au.markerSeq true
      | false => exact ⟨rfl, ih au.markerSeq true⟩

end Collect

/-! ### Placing -/

section Place

variable {T : Type} {now : Nat} {seq : Int} {marker : Bool} {payload : Bytes} {au w : PendingAu T}
  {before after : List (PendingAu T)}

/-- What becomes of a unit that a packet goes into. -/
def PendingAu.receive (au : PendingAu T) (seq : Int) (marker : Bool) (payload : Bytes) :
    List (PendingAu T) :=
  if marker then (au.store seq payload).split seq else [au.store seq payload]

theorem PendingAu.receive_ne_nil (au : PendingAu T) (seq : Int) (marker : Bool) (payload : Bytes) :
    au.receive seq marker payload ≠ [] := by
  cases marker with
  | false => exact List.cons_ne_nil _ _
  | true => exact List.cons_ne_nil _ _

/-- The units that a packet leaves have the timestamp and the clock of the unit it went into, and
hold nothing but the packet and what that held. -/
theorem mem_receive (hw : w ∈ au.receive seq marker payload) :
    w.timestamp = au.timestamp ∧ w.blockedSince = au.blockedSince ∧
      ∀ e ∈ w.parts, e = (seq, payload) ∨ e ∈ au.parts := by
  have htime := au.store_timestamp seq payload
  have hblocked := au.store_blockedSince seq payload
  cases marker with
  | false =>
    obtain rfl := List.mem_singleton.mp hw
    exact ⟨htime, hblocked, fun e he ↦ mem_parts_store he⟩
  | true =>
    rcases mem_split hw with rfl | ⟨rfl, -⟩
    · exact ⟨htime, hblocked, fun e he ↦ mem_parts_store (List.mem_filter.mp he).1⟩
    · exact ⟨htime, hblocked, fun e he ↦ mem_parts_store (List.mem_filter.mp he).1⟩

/-- A unit holds nothing behind its marker, also when a packet before its marker went into it. -/
theorem below_receive (hbelow : ∀ m ∈ au.markerSeq, ∀ e ∈ au.parts, e.1 ≤ m)
    (hseq : ∀ m ∈ au.markerSeq, seq ≤ m) (hw : w ∈ au.receive seq marker payload) :
    ∀ m ∈ w.markerSeq, ∀ e ∈ w.parts, e.1 ≤ m := by
  have hstore : ∀ m ∈ au.markerSeq, ∀ e ∈ (au.store seq payload).parts, e.1 ≤ m := by
    intro m hm e he
    rcases mem_parts_store he with rfl | he
    · exact hseq m hm
    · exact hbelow m hm e he
  cases marker with
  | false =>
    obtain rfl := List.mem_singleton.mp hw
    rw [PendingAu.store_markerSeq]
    exact hstore
  | true =>
    rcases mem_split hw with rfl | ⟨rfl, -⟩
    · intro m hm e he
      obtain rfl := Option.some.inj hm
      simpa using (List.mem_filter.mp he).2
    · intro m hm e he
      have hm' := (Option.filter_eq_some_iff.mp hm).1
      rw [PendingAu.store_markerSeq] at hm'
      exact hstore m hm' e (List.mem_filter.mp he).1

/-- A clock that waits for a marker goes on waiting, unless the marker has come. -/
theorem quiet_receive (hbelow : ∀ m ∈ au.markerSeq, ∀ e ∈ au.parts, e.1 ≤ m)
    (hseq : ∀ m ∈ au.markerSeq, seq ≤ m)
    (hquiet : au.blockedSince.isSome → au.markerSeq.isSome)
    (hw : w ∈ au.receive seq marker payload) : w.blockedSince.isSome → w.markerSeq.isSome := by
  intro hblocked
  have hsame := (mem_receive hw).2.1
  cases marker with
  | false =>
    obtain rfl := List.mem_singleton.mp hw
    rw [PendingAu.store_markerSeq]
    exact hquiet (hsame ▸ hblocked)
  | true =>
    rcases mem_split hw with rfl | ⟨rfl, e, he, hlt⟩
    · rfl
    · obtain ⟨m, hm⟩ := Option.isSome_iff_exists.mp (hquiet (hsame ▸ hblocked))
      have hle : e.1 ≤ m := by
        rcases mem_parts_store he with rfl | he
        · exact hseq m hm
        · exact hbelow m hm e he
      have hfilter : Option.filter (fun e ↦ decide (seq < e)) (au.store seq payload).markerSeq =
          some m := by
        rw [PendingAu.store_markerSeq, hm]
        exact Option.filter_some_pos (by simpa using lt_of_lt_of_le hlt hle)
      change (Option.filter _ (au.store seq payload).markerSeq).isSome = true
      rw [hfilter]
      rfl

/-- A unit is replaced by units with its clock. -/
theorem Clocked.replace (h : Clocked now (before ++ au :: after))
    (hseq : ∀ m ∈ au.markerSeq, seq ≤ m) (marker : Bool) (payload : Bytes) :
    Clocked now (before ++ au.receive seq marker payload ++ after) := by
  have hau : au ∈ before ++ au :: after := List.mem_append_right before List.mem_cons_self
  have hbelow := h.below au hau
  obtain ⟨hbefore, hrest, hcross⟩ := List.pairwise_append.mp h.order
  obtain ⟨hfirst, hafter⟩ := List.pairwise_cons.mp hrest
  have hmem : ∀ u ∈ before ++ au.receive seq marker payload ++ after,
      u ∈ au.receive seq marker payload ∨ u ∈ before ++ au :: after := by
    intro u hu
    rcases List.mem_append.mp hu with hu | hu
    · exact (List.mem_append.mp hu).symm.imp_right (List.mem_append_left _)
    · exact .inr (List.mem_append_right before (List.mem_cons_of_mem au hu))
  have hclock : ∀ u ∈ au.receive seq marker payload, u.blockedSince = au.blockedSince :=
    fun u hu ↦ (mem_receive hu).2.1
  refine ⟨?_, fun u hu ↦ ?_, fun u hu ↦ ?_, fun u hu ↦ ?_⟩
  · rw [List.append_assoc, List.pairwise_append, List.pairwise_append]
    refine ⟨hbefore, ⟨?_, hafter, ?_⟩, ?_⟩
    · refine List.pairwise_of_forall_mem_list fun u hu v hv b hb ↦ ⟨b, ?_, le_refl b⟩
      rwa [hclock u hu, ← hclock v hv]
    · intro u hu v hv b hb
      rw [hclock u hu]
      exact hfirst v hv b hb
    · intro u hu v hv b hb
      rcases List.mem_append.mp hv with hv | hv
      · rw [hclock v hv] at hb
        exact hcross u hu au List.mem_cons_self b hb
      · exact hcross u hu v (List.mem_cons_of_mem au hv) b hb
  · rcases hmem u hu with hu | hu
    · rw [hclock u hu]
      exact h.past au hau
    · exact h.past u hu
  · by_cases hnil : after = []
    · subst hnil
      rw [List.append_nil, List.getLast?_append_of_ne_nil _ (au.receive_ne_nil seq marker payload)]
        at hu
      exact quiet_receive hbelow hseq (h.quiet au List.getLast?_concat) (List.mem_of_getLast? hu)
    · rw [List.getLast?_append_of_ne_nil _ hnil] at hu
      refine h.quiet u ?_
      rw [List.getLast?_append_of_ne_nil _ (List.cons_ne_nil au after)]
      exact getLast?_cons_of_mem hu
  · rcases hmem u hu with hu | hu
    · exact below_receive hbelow hseq hu
    · exact h.below u hu

variable [DecidableEq T] {newer : T → T → Bool} {s s' : Assembler T} {ts : T} {pos : Nat}

/-- A unit that owns a packet has its timestamp, and its marker is not before the packet. -/
theorem exists_of_pendingPosition {lower : Option Int} {pending : List (PendingAu T)}
    (h : pendingPosition ts seq lower pending = some pos) : ∃ before au after,
      pending = before ++ au :: after ∧ before.length = pos ∧ au.timestamp = ts ∧
        ∀ m ∈ au.markerSeq, seq ≤ m := by
  induction pending generalizing lower pos with
  | nil => cases h
  | cons u rest ih =>
    have hgo : ∀ lower', (pendingPosition ts seq lower' rest).map (· + 1) = some pos →
        ∃ before au after, u :: rest = before ++ au :: after ∧ before.length = pos ∧
          au.timestamp = ts ∧ ∀ m ∈ au.markerSeq, seq ≤ m := by
      intro lower' hpos
      obtain ⟨pos', hpos', rfl⟩ := Option.map_eq_some_iff.mp hpos
      obtain ⟨before, au, after, rfl, rfl, hau⟩ := ih hpos'
      exact ⟨u :: before, au, after, rfl, rfl, hau⟩
    rw [pendingPosition] at h
    split at h
    · next htime =>
      split at h
      · next hbounds =>
        obtain rfl := Option.some.inj h
        exact ⟨[], u, rest, rfl, rfl, htime, hbounds.2⟩
      · exact hgo _ h
    · exact hgo _ h

/-- A new unit. -/
def openedAu (ts : T) (blocked : Option Nat) : PendingAu T where
  timestamp := ts
  parts := []
  markerSeq := none
  blockedSince := blocked
  overflowed := false

/-- Where a new unit goes, and its clock: behind all units if none is newer, or else before the
first unit that is newer. -/
inductive Placed (newer : T → T → Bool) (s : Assembler T) (ts : T) (now : Nat) :
    List (PendingAu T) → Option Nat → List (PendingAu T) → Prop where
  | last (hnewest : ∀ n ∈ s.newestTimestamp, ts = n ∨ newer ts n = true) :
      Placed newer s ts now s.pending none []
  | between (before : List (PendingAu T)) (right : PendingAu T) (rest : List (PendingAu T))
      (hnewest : ∃ n ∈ s.newestTimestamp, ts ≠ n ∧ newer ts n = false)
      (hbefore : ∀ u ∈ before, newer u.timestamp ts = false)
      (hleft : ∀ u ∈ before.getLast?, ts = u.timestamp ∨ newer ts u.timestamp = true)
      (hright : newer right.timestamp ts = true) :
      Placed newer s ts now before (right.blockedSince.or (some now)) (right :: rest)

theorem placed_of_slot {at_ : Nat} {blocked : Option Nat}
    (h : s.slot newer seq ts now = some (at_, blocked)) : ∃ before after,
      before.length = at_ ∧ s.pending = before ++ after ∧
        Placed newer s ts now before blocked after := by
  have hlast : (∀ n ∈ s.newestTimestamp, ts = n ∨ newer ts n = true) → ∃ before after,
      before.length = s.pending.length ∧ s.pending = before ++ after ∧
        Placed newer s ts now before none after := fun hnewest ↦
    ⟨s.pending, [], rfl, (List.append_nil _).symm, .last hnewest⟩
  unfold Assembler.slot at h
  split at h
  · next hnone =>
    simp only [Option.some.injEq, Prod.mk.injEq] at h
    obtain ⟨rfl, rfl⟩ := h
    exact hlast (by simp [hnone])
  · next newest hnewest =>
    split at h
    · next hsame =>
      split at h
      · cases h
      · split at h
        · cases h
        · simp only [Option.some.injEq, Prod.mk.injEq] at h
          obtain ⟨rfl, rfl⟩ := h
          exact hlast (by simp [hnewest, hsame])
    · next hother =>
      split at h
      · next hnewer =>
        simp only [Option.some.injEq, Prod.mk.injEq] at h
        obtain ⟨rfl, rfl⟩ := h
        exact hlast (by simp [hnewest, hnewer])
      · next hold =>
        simp only [Option.bind_eq_bind, Option.bind_eq_some_iff] at h
        obtain ⟨e, -, next, hnext, right, hright, h⟩ := h
        generalize hleft : (if next = 0 then none else s.pending[next - 1]?) = left at h
        split at h
        · cases h
        · next hno =>
          simp only [Option.pure_def, Option.some.injEq, Prod.mk.injEq] at h
          obtain ⟨rfl, rfl⟩ := h
          obtain ⟨hlt, hfound, hfirst⟩ := List.findIdx?_eq_some_iff_getElem.mp hnext
          rw [List.getElem?_eq_getElem hlt] at hright
          obtain rfl := Option.some.inj hright
          refine ⟨s.pending.take next, s.pending[next] :: s.pending.drop (next + 1), ?_, ?_,
            .between _ _ _ ⟨newest, hnewest, hother, by simpa using hold⟩ ?_ ?_ hfound⟩
          · rw [List.length_take]
            omega
          · rw [← List.drop_eq_getElem_cons hlt, List.take_append_drop]
          · intro u hu
            obtain ⟨i, hi, rfl⟩ := List.mem_iff_getElem.mp hu
            rw [List.length_take] at hi
            rw [List.getElem_take]
            simpa using hfirst i (by omega)
          · intro u hu
            have hmem : u ∈ left := by
              rw [List.getLast?_take] at hu
              rw [← hleft]
              split at hu
              · cases hu
              · next hne =>
                rw [List.getElem?_eq_getElem (by omega), Option.some_or] at hu
                rw [if_neg hne, List.getElem?_eq_getElem (by omega)]
                exact hu
            by_contra hnot
            rw [not_or, Bool.not_eq_true] at hnot
            exact hno (.inr (.inr ⟨u, hmem, .inl hnot⟩))

/-- What becomes of the queue when a packet comes. -/
inductive Places (newer : T → T → Bool) (s : Assembler T) (seq : Int) (ts : T) (marker : Bool)
    (payload : Bytes) (now : Nat) : Assembler T → Prop where
  | stale : Places newer s seq ts marker payload now s
  | owned (before : List (PendingAu T)) (au : PendingAu T) (after : List (PendingAu T))
      (hpending : s.pending = before ++ au :: after) (htime : au.timestamp = ts)
      (hmarker : ∀ m ∈ au.markerSeq, seq ≤ m) :
      Places newer s seq ts marker payload now
        { s with pending := before ++ au.receive seq marker payload ++ after }
  | opened (before : List (PendingAu T)) (blocked : Option Nat) (after : List (PendingAu T))
      (hunowned : pendingPosition ts seq s.prevEnd s.pending = none)
      (haccepted : (s.slot newer seq ts now).isSome) (hpending : s.pending = before ++ after)
      (hplaced : Placed newer s ts now before blocked after) :
      Places newer s seq ts marker payload now
        { s with
          newestTimestamp := if ∀ n ∈ s.newestTimestamp, newer ts n then some ts
            else s.newestTimestamp
          pending := before ++ (openedAu ts blocked).receive seq marker payload ++ after }

omit [DecidableEq T] in
theorem put_append (s : Assembler T) (hpending : s.pending = before ++ au :: after) (seq : Int)
    (marker : Bool) (payload : Bytes) : s.put before.length seq marker payload =
      { s with pending := before ++ au.receive seq marker payload ++ after } := by
  have hget : s.pending[before.length]? = some au := by rw [hpending]; simp
  have hdrop : (before ++ au :: after).drop (before.length + 1) = after := by
    rw [List.drop_append]
    simp
  rw [Assembler.put, hget]
  simp only [hpending, List.take_left', hdrop]
  rfl

theorem places (newer : T → T → Bool) (s : Assembler T) (seq : Int) (ts : T) (marker : Bool)
    (payload : Bytes) (now : Nat) : Places newer s seq ts marker payload now
      (s.place newer seq ts marker payload now) := by
  unfold Assembler.place Assembler.enter
  cases hposition : pendingPosition ts seq s.prevEnd s.pending with
  | some pos =>
    obtain ⟨before, au, after, hpending, rfl, htime, hmarker⟩ := exists_of_pendingPosition hposition
    simp only [put_append s hpending]
    exact .owned before au after hpending htime hmarker
  | none =>
    cases hslot : s.slot newer seq ts now with
    | none => exact .stale
    | some slot =>
      obtain ⟨pos, blocked⟩ := slot
      obtain ⟨before, after, rfl, hpending, hplaced⟩ := placed_of_slot hslot
      have hopened : Places newer s seq ts marker payload now _ :=
        .opened before blocked after hposition (by rw [hslot]; rfl) hpending hplaced
      have hinsert : s.pending.insertIdx before.length (openedAu ts blocked) =
          before ++ openedAu ts blocked :: after := by
        rw [hpending, insertIdx_append]
      rw [← put_append { s with pending := before ++ openedAu ts blocked :: after
                                newestTimestamp := _ } rfl, ← hinsert] at hopened
      exact hopened

omit [DecidableEq T] in
/-- A new unit has the clock of the unit it is before. -/
theorem Clocked.insert {blocked : Option Nat} (h : Clocked now s.pending)
    (hrunning : Running s.pending) (hpending : s.pending = before ++ after)
    (hplaced : Placed newer s ts now before blocked after) :
    Clocked now (before ++ openedAu ts blocked :: after) := by
  rw [hpending] at h hrunning
  obtain ⟨hbefore, hafter, hcross⟩ := List.pairwise_append.mp h.order
  have hmem : ∀ u ∈ before ++ openedAu ts blocked :: after,
      u = openedAu ts blocked ∨ u ∈ before ++ after := by
    intro u hu
    rcases List.mem_append.mp hu with hu | hu
    · exact .inr (List.mem_append_left after hu)
    · exact (List.mem_cons.mp hu).imp_right (List.mem_append_right before)
  have hbelow : ∀ u ∈ before ++ openedAu ts blocked :: after, ∀ m ∈ u.markerSeq,
      ∀ e ∈ u.parts, e.1 ≤ m := by
    intro u hu
    rcases hmem u hu with rfl | hu
    · intro m hm
      cases hm
    · exact h.below u hu
  cases hplaced with
  | last _ =>
    refine ⟨List.pairwise_append.mpr ⟨hbefore, List.pairwise_singleton _ _, ?_⟩, ?_, ?_, hbelow⟩
    · intro u _ v hv b hb
      obtain rfl := List.mem_singleton.mp hv
      cases hb
    · intro u hu b hb
      rcases hmem u hu with rfl | hu
      · cases hb
      · exact h.past u hu b hb
    · intro u hu hblocked
      obtain rfl := Option.some.inj (List.getLast?_concat.symm.trans hu)
      cases hblocked
  | between _ right rest _ _ _ _ =>
    have hright : right ∈ before ++ right :: rest :=
      List.mem_append_right before List.mem_cons_self
    obtain ⟨hfirst, -⟩ := List.pairwise_cons.mp hafter
    have hbehind : ∀ v ∈ right :: rest, Earlier right v := by
      intro v hv
      rcases List.mem_cons.mp hv with rfl | hv
      · exact fun b hb ↦ ⟨b, hb, le_refl b⟩
      · exact hfirst v hv
    refine ⟨List.pairwise_append.mpr ⟨hbefore, List.pairwise_cons.mpr ⟨?_, hafter⟩, ?_⟩, ?_, ?_,
      hbelow⟩
    · intro v hv b hb
      obtain ⟨c, hc, hle⟩ := hbehind v hv b hb
      refine ⟨c, ?_, hle⟩
      change c ∈ right.blockedSince.or (some now)
      rw [Option.mem_def.mp hc]
      rfl
    · intro u hu v hv
      rcases List.mem_cons.mp hv with rfl | hv
      · intro b hb
        rcases Option.or_eq_some_iff.mp hb with hright' | ⟨-, hnow⟩
        · exact hcross u hu right List.mem_cons_self b hright'
        · obtain rfl := Option.some.inj hnow
          have hseen : u.blockedSince.isSome := hrunning u (by
            rw [List.dropLast_append_of_ne_nil (List.cons_ne_nil right rest)]
            exact List.mem_append_left _ hu)
          obtain ⟨a, ha⟩ := Option.isSome_iff_exists.mp hseen
          exact ⟨a, ha, h.past u (List.mem_append_left _ hu) a ha⟩
      · exact hcross u hu v hv
    · intro u hu b hb
      rcases hmem u hu with rfl | hu
      · rcases Option.or_eq_some_iff.mp hb with hright' | ⟨-, hnow⟩
        · exact h.past right hright b hright'
        · exact (Option.some.inj hnow).ge
      · exact h.past u hu b hb
    · intro u hu
      refine h.quiet u ?_
      rw [List.getLast?_append_of_ne_nil _ (List.cons_ne_nil right rest)]
      rw [List.getLast?_append_of_ne_nil _ (List.cons_ne_nil _ (right :: rest))] at hu
      exact hu

theorem Clocked.place (h : Clocked now s.pending) (hrunning : Running s.pending) (seq : Int)
    (ts : T) (marker : Bool) (payload : Bytes) :
    Clocked now (s.place newer seq ts marker payload now).pending := by
  have hplaces := places newer s seq ts marker payload now
  generalize s.place newer seq ts marker payload now = s' at hplaces ⊢
  cases hplaces with
  | stale => exact h
  | owned before au after hpending _ hmarker =>
    exact Clocked.replace (hpending ▸ h) hmarker marker payload
  | opened before blocked after _ _ hpending hplaced =>
    refine (h.insert hrunning hpending hplaced).replace (fun m hm ↦ ?_) marker payload
    cases hm

end Place

/-! ### Timestamps along the queue -/

section Times

variable {T : Type} {newer : T → T → Bool} {newest : Option T} {a : T} {p q : List T}

/-- The timestamps of the queue go forward from unit to unit, and the newest is the last. -/
structure InTurn (newer : T → T → Bool) (newest : Option T) (times : List T) : Prop where
  forward : times.IsChain fun a b ↦ b = a ∨ newer b a = true
  last : ∀ a ∈ times.getLast?, newest = some a

theorem InTurn.nil : InTurn newer newest [] := ⟨List.IsChain.nil, by simp⟩

theorem InTurn.right (h : InTurn newer newest (p ++ q)) : InTurn newer newest q := by
  refine ⟨(List.isChain_append.mp h.forward).2.1, fun a ha ↦ h.last a ?_⟩
  rw [List.getLast?_append_of_ne_nil _ (List.ne_nil_of_mem (List.mem_of_getLast? ha))]
  exact ha

/-- A timestamp may be there twice. -/
theorem InTurn.double (h : InTurn newer newest (p ++ a :: q)) :
    InTurn newer newest (p ++ a :: a :: q) := by
  obtain ⟨hp, hq, hseam⟩ := List.isChain_append.mp h.forward
  refine ⟨List.isChain_append.mpr ⟨hp, List.isChain_cons_cons.mpr ⟨.inl rfl, hq⟩, ?_⟩, ?_⟩
  · exact hseam
  · intro b hb
    refine h.last b ?_
    rw [List.getLast?_append_of_ne_nil _ (List.cons_ne_nil _ _)] at hb ⊢
    exact hb

theorem contiguous_double (h : Contiguous (p ++ a :: q)) : Contiguous (p ++ a :: a :: q) := by
  have hsplit : p ++ a :: a :: q = (p ++ [a]) ++ a :: q := by simp
  rw [hsplit]
  refine Contiguous.insert ?_ (.inl List.getLast?_concat)
  simpa using h

/-- Timestamps that go forward, none of them newer than the first, are the first. -/
theorem eq_of_forward (h : (a :: q).IsChain fun a b ↦ b = a ∨ newer b a = true)
    (hold : ∀ t ∈ q, newer t a = false) : ∀ t ∈ q, t = a := by
  induction q with
  | nil => simp
  | cons b q ih =>
    obtain ⟨hstep, hrest⟩ := List.isChain_cons_cons.mp h
    obtain rfl : b = a := by
      refine hstep.resolve_right ?_
      rw [hold b List.mem_cons_self]
      exact Bool.false_ne_true
    exact List.forall_mem_cons.mpr
      ⟨rfl, ih hrest fun t ht ↦ hold t (List.mem_cons_of_mem b ht)⟩

variable [DecidableEq T] {s s' : Assembler T} {seq : Int} {ts : T} {now : Nat} {marker : Bool}
  {payload : Bytes} {au : PendingAu T} {before after pending : List (PendingAu T)}

/-- The timestamps of the queue. -/
def timesOf (pending : List (PendingAu T)) : List T := pending.map PendingAu.timestamp

omit [DecidableEq T] in
@[simp] theorem timesOf_nil : timesOf ([] : List (PendingAu T)) = [] := rfl

omit [DecidableEq T] in
theorem timesOf_append (before after : List (PendingAu T)) :
    timesOf (before ++ after) = timesOf before ++ timesOf after := List.map_append

omit [DecidableEq T] in
/-- What holds of a queue with a unit holds when a packet goes into that. -/
theorem timesOf_receive {P : List T → Prop} (hdouble : ∀ {p q : List T} {a : T},
    P (p ++ a :: q) → P (p ++ a :: a :: q)) (h : P (timesOf (before ++ au :: after))) (seq : Int)
    (marker : Bool) (payload : Bytes) :
    P (timesOf (before ++ au.receive seq marker payload ++ after)) := by
  have htimes : timesOf (au.receive seq marker payload) = [au.timestamp] ∨
      timesOf (au.receive seq marker payload) = [au.timestamp, au.timestamp] := by
    have hstore := au.store_timestamp seq payload
    cases marker with
    | false => exact .inl (congrArg (fun t ↦ [t]) hstore)
    | true =>
      by_cases htail : ((au.store seq payload).parts.filter fun e ↦ decide (seq < e.1)).isEmpty
      · exact .inl (by simp [timesOf, PendingAu.receive, PendingAu.split, htail, hstore])
      · exact .inr (by simp [timesOf, PendingAu.receive, PendingAu.split, htail, hstore])
  rw [timesOf_append] at h
  rw [timesOf_append, timesOf_append, List.append_assoc]
  rcases htimes with htimes | htimes
  · rw [htimes]
    exact h
  · rw [htimes]
    exact hdouble h

omit [DecidableEq T] in
/-- A new unit is in turn. -/
theorem InTurn.insert {blocked : Option Nat}
    (h : InTurn newer s.newestTimestamp (timesOf (before ++ after)))
    (hpending : s.pending = before ++ after)
    (hplaced : Placed newer s ts now before blocked after) :
    InTurn newer (if ∀ n ∈ s.newestTimestamp, newer ts n then some ts else s.newestTimestamp)
      (timesOf (before ++ openedAu ts blocked :: after)) := by
  rw [timesOf_append] at h ⊢
  obtain ⟨hbefore, hafter, -⟩ := List.isChain_append.mp h.forward
  cases hplaced with
  | last hnewest =>
    have hlast : (if ∀ n ∈ s.newestTimestamp, newer ts n then some ts else s.newestTimestamp) =
        some ts := by
      split
      · rfl
      · next hsome =>
        rw [not_forall] at hsome
        obtain ⟨n, hsome⟩ := hsome
        rw [Classical.not_imp] at hsome
        obtain ⟨hn, hold⟩ := hsome
        rw [(hnewest n hn).resolve_right hold]
        exact hn
    rw [hlast]
    have hone : timesOf [openedAu ts none] = [ts] := rfl
    rw [hone]
    refine ⟨List.isChain_append.mpr ⟨hbefore, List.isChain_singleton ts, ?_⟩, fun a ha ↦ ?_⟩
    · intro w hw b hb
      obtain rfl := Option.some.inj hb
      refine hnewest w (h.last w ?_)
      rwa [timesOf_nil, List.append_nil]
    · rw [List.getLast?_concat] at ha
      exact ha
  | between _ right rest hnewest _ hleft hright =>
    have hkept : (if ∀ n ∈ s.newestTimestamp, newer ts n then some ts else s.newestTimestamp) =
        s.newestTimestamp := by
      obtain ⟨n, hn, -, hold⟩ := hnewest
      refine if_neg fun hall ↦ ?_
      rw [hall n hn] at hold
      cases hold
    rw [hkept]
    refine ⟨List.isChain_append.mpr ⟨hbefore, List.isChain_cons_cons.mpr ⟨.inr hright, hafter⟩, ?_⟩,
      fun a ha ↦ h.last a ?_⟩
    · intro w hw b hb
      obtain rfl := Option.some.inj hb
      rw [timesOf, List.getLast?_map] at hw
      obtain ⟨u, hu, rfl⟩ := Option.map_eq_some_iff.mp hw
      exact hleft u hu
    · have hcons : timesOf (openedAu ts (right.blockedSince.or (some now)) :: right :: rest) =
          ts :: right.timestamp :: timesOf rest := rfl
      have hright' : timesOf (right :: rest) = right.timestamp :: timesOf rest := rfl
      rw [hcons, List.getLast?_append_of_ne_nil _ (List.cons_ne_nil _ _)] at ha
      rw [hright', List.getLast?_append_of_ne_nil _ (List.cons_ne_nil _ _)]
      exact ha

theorem InTurn.place (h : InTurn newer s.newestTimestamp (timesOf s.pending)) (seq : Int) (ts : T)
    (marker : Bool) (payload : Bytes) (now : Nat) :
    InTurn newer (s.place newer seq ts marker payload now).newestTimestamp
      (timesOf (s.place newer seq ts marker payload now).pending) := by
  have hplaces := places newer s seq ts marker payload now
  generalize s.place newer seq ts marker payload now = s' at hplaces ⊢
  cases hplaces with
  | stale => exact h
  | owned before au after hpending _ _ =>
    exact timesOf_receive InTurn.double (hpending ▸ h) seq marker payload
  | opened before blocked after _ _ hpending hplaced =>
    have hopen := InTurn.insert (hpending ▸ h) hpending hplaced
    exact timesOf_receive InTurn.double hopen seq marker payload

/-- A packet opens a unit although units with its timestamp are pending, because the timestamp has
wrapped: it is newer than the newest, or not the newest and older than that of a unit before
them. -/
def Wraps (newer : T → T → Bool) (s : Assembler T) (seq : Int) (ts : T) (now : Nat) : Prop :=
  pendingPosition ts seq s.prevEnd s.pending = none ∧ (s.slot newer seq ts now).isSome ∧
    ts ∈ timesOf s.pending ∧
    ∃ newest ∈ s.newestTimestamp, newer ts newest = true ∨
      ts ≠ newest ∧ ∃ t ∈ (timesOf s.pending).takeWhile (· ≠ ts), newer t ts = true

instance (newer : T → T → Bool) (s : Assembler T) (seq : Int) (ts : T) (now : Nat) :
    Decidable (Wraps newer s seq ts now) :=
  inferInstanceAs (Decidable (_ ∧ _ ∧ _ ∧ ∃ newest ∈ s.newestTimestamp, _))

/-- A new unit is behind those with its timestamp, if its timestamp has not wrapped. -/
theorem contiguous_insert {blocked : Option Nat} (hirrefl : ∀ a, newer a a = false)
    (h : InTurn newer s.newestTimestamp (timesOf (before ++ after)))
    (hgrouped : Contiguous (timesOf (before ++ after)))
    (hpending : s.pending = before ++ after) (hplaced : Placed newer s ts now before blocked after)
    (hunowned : pendingPosition ts seq s.prevEnd s.pending = none)
    (haccepted : (s.slot newer seq ts now).isSome) (hwraps : ¬Wraps newer s seq ts now) :
    Contiguous (timesOf (before ++ openedAu ts blocked :: after)) := by
  have hbehind : ts ∈ timesOf (before ++ after) →
      ∀ n ∈ s.newestTimestamp, newer ts n = false ∧ (ts ≠ n →
        ∀ t ∈ (timesOf (before ++ after)).takeWhile (· ≠ ts), newer t ts = false) := by
    intro hmem n hn
    rw [← hpending] at hmem ⊢
    refine ⟨?_, fun hother t ht ↦ ?_⟩
    · by_contra hnewer
      exact hwraps ⟨hunowned, haccepted, hmem, n, hn, .inl (by simpa using hnewer)⟩
    · by_contra hnewer
      exact hwraps ⟨hunowned, haccepted, hmem, n, hn, .inr ⟨hother, t, ht, by simpa using hnewer⟩⟩
  rw [timesOf_append] at h hgrouped hbehind ⊢
  refine hgrouped.insert ?_
  cases hplaced with
  | last hnewest =>
    rw [timesOf_nil, List.append_nil] at *
    by_cases hmem : ts ∈ timesOf s.pending
    · obtain ⟨a, ha⟩ := Option.isSome_iff_exists.mp
        (List.getLast?_isSome.mpr (List.ne_nil_of_mem hmem))
      have hn := h.last a ha
      have hsame : ts = a := by
        refine (hnewest a hn).resolve_right ?_
        rw [(hbehind hmem a hn).1]
        exact Bool.false_ne_true
      exact .inl (hsame ▸ ha)
    · exact .inr ⟨hmem, by simp⟩
  | between _ right rest hnewest hbefore _ hright =>
    have holder : ∀ t ∈ timesOf before, newer t ts = false := by
      intro t ht
      obtain ⟨u, hu, rfl⟩ := List.mem_map.mp ht
      exact hbefore u hu
    by_cases hmem : ts ∈ timesOf before ++ timesOf (right :: rest)
    · obtain ⟨n, hn, hother, -⟩ := hnewest
      have hfound : ts ∈ timesOf before := by
        by_contra hnot
        have hne : right.timestamp ≠ ts := by
          rintro heq
          rw [heq, hirrefl] at hright
          cases hright
        have hnone := (hbehind hmem n hn).2 hother right.timestamp
        rw [List.takeWhile_append_of_pos fun t ht ↦ by
          simpa using fun heq : t = ts ↦ hnot (heq ▸ ht)] at hnone
        have hfirst : right.timestamp ∈ (timesOf (right :: rest)).takeWhile (· ≠ ts) := by
          simp [timesOf, hne]
        rw [hnone (List.mem_append_right _ hfirst)] at hright
        cases hright
      obtain ⟨c, d, hsplit⟩ := List.append_of_mem hfound
      have hforward := (List.isChain_append.mp h.forward).1
      rw [hsplit] at hforward holder ⊢
      have hall := eq_of_forward (List.isChain_append.mp hforward).2.1 fun t ht ↦
        holder t (List.mem_append_right c (List.mem_cons_of_mem ts ht))
      obtain ⟨a, ha⟩ := Option.isSome_iff_exists.mp
        (List.getLast?_isSome.mpr (List.cons_ne_nil ts d))
      have hlast : a = ts := by
        rcases List.mem_cons.mp (List.mem_of_getLast? ha) with ha | ha
        · exact ha
        · exact hall a ha
      rw [List.getLast?_append_of_ne_nil _ (List.cons_ne_nil ts d), ha, hlast]
      exact .inl rfl
    · refine .inr ⟨hmem, fun w hw hhead ↦ ?_⟩
      obtain rfl : right.timestamp = w := Option.some.inj hhead
      rw [holder _ (List.mem_of_getLast? hw)] at hright
      cases hright

theorem contiguous_place (hirrefl : ∀ a, newer a a = false)
    (h : InTurn newer s.newestTimestamp (timesOf s.pending))
    (hgrouped : Contiguous (timesOf s.pending)) (hwraps : ¬Wraps newer s seq ts now)
    (marker : Bool) (payload : Bytes) :
    Contiguous (timesOf (s.place newer seq ts marker payload now).pending) := by
  have hplaces := places newer s seq ts marker payload now
  generalize s.place newer seq ts marker payload now = s' at hplaces ⊢
  cases hplaces with
  | stale => exact hgrouped
  | owned before au after hpending _ _ =>
    exact timesOf_receive contiguous_double (hpending ▸ hgrouped) seq marker payload
  | opened before blocked after hunowned haccepted hpending hplaced =>
    have hopen := contiguous_insert hirrefl (hpending ▸ h) (hpending ▸ hgrouped) hpending hplaced
      hunowned haccepted hwraps
    exact timesOf_receive contiguous_double hopen seq marker payload

end Times

/-! ### A packet -/

section Step

variable {T : Type} [DecidableEq T] {newer : T → T → Bool}
  {depacketize : List Bytes → Option Bytes} {s : Assembler T} {now : Nat} {seq : Int} {ts : T}
  {marker : Bool} {payload : Bytes} {pending : List (PendingAu T)}

/-- What the queue keeps from packet to packet. -/
structure Held (newer : T → T → Bool) (now : Nat) (s : Assembler T) : Prop where
  clocked : Clocked now s.pending
  running : Running s.pending
  inTurn : InTurn newer s.newestTimestamp (timesOf s.pending)

/-- A unit goes on in another one: what that holds is from it or the packet, and its clock is not
started anew. -/
structure GoesOn (seq : Int) (payload : Bytes) (u v : PendingAu T) : Prop where
  timestamp : v.timestamp = u.timestamp
  parts : ∀ e ∈ v.parts, e = (seq, payload) ∨ e ∈ u.parts
  clock : ∀ b ∈ u.blockedSince, b ∈ v.blockedSince

/-- Every unit is one that was pending and goes on, or holds nothing but the packet. -/
def ClocksKept (seq : Int) (payload : Bytes) (pending pending' : List (PendingAu T)) : Prop :=
  ∀ v ∈ pending', (∃ u ∈ pending, GoesOn seq payload u v) ∨ ∀ e ∈ v.parts, e = (seq, payload)

omit [DecidableEq T] in
theorem GoesOn.refl (seq : Int) (payload : Bytes) (u : PendingAu T) : GoesOn seq payload u u :=
  ⟨rfl, fun _ he ↦ .inr he, fun _ hb ↦ hb⟩

omit [DecidableEq T] in
theorem timesOf_startClocks (now : Nat) (pending : List (PendingAu T)) :
    timesOf (startClocks now pending) = timesOf pending := by
  induction pending with
  | nil => rfl
  | cons au rest ih =>
    rw [startClocks]
    split
    · exact congrArg (au.timestamp :: ·) ih
    · exact congrArg (au.timestamp :: ·) ih

theorem ClocksKept.place (newer : T → T → Bool) (s : Assembler T) (seq : Int) (ts : T)
    (marker : Bool) (payload : Bytes) (now : Nat) :
    ClocksKept seq payload s.pending (s.place newer seq ts marker payload now).pending := by
  have hplaces := places newer s seq ts marker payload now
  generalize s.place newer seq ts marker payload now = s' at hplaces ⊢
  cases hplaces with
  | stale => exact fun v hv ↦ .inl ⟨v, hv, .refl seq payload v⟩
  | owned before au after hpending _ _ =>
    intro v hv
    rw [hpending]
    rcases List.mem_append.mp hv with hv | hv
    · rcases List.mem_append.mp hv with hv | hv
      · exact .inl ⟨v, List.mem_append_left _ hv, .refl seq payload v⟩
      · obtain ⟨htime, hclock, hparts⟩ := mem_receive hv
        exact .inl ⟨au, List.mem_append_right before List.mem_cons_self, htime, hparts,
          fun b hb ↦ hclock ▸ hb⟩
    · exact .inl ⟨v, List.mem_append_right before (List.mem_cons_of_mem au hv),
        .refl seq payload v⟩
  | opened before blocked after _ _ hpending _ =>
    intro v hv
    rw [hpending]
    rcases List.mem_append.mp hv with hv | hv
    · rcases List.mem_append.mp hv with hv | hv
      · exact .inl ⟨v, List.mem_append_left after hv, .refl seq payload v⟩
      · refine .inr fun e he ↦ ((mem_receive hv).2.2 e he).resolve_right ?_
        exact List.not_mem_nil
    · exact .inl ⟨v, List.mem_append_right before hv, .refl seq payload v⟩

theorem gapOpen_place (newer : T → T → Bool) (s : Assembler T) (seq : Int) (ts : T)
    (marker : Bool) (payload : Bytes) (now : Nat) :
    (s.place newer seq ts marker payload now).gapOpen = s.gapOpen := by
  have hplaces := places newer s seq ts marker payload now
  generalize s.place newer seq ts marker payload now = s' at hplaces ⊢
  cases hplaces with
  | stale => rfl
  | owned => rfl
  | opened => rfl

/-- What is left of the queue when the loop stops. -/
theorem collectReady_left (depacketize : List Bytes → Option Bytes) (h : Clocked now s.pending)
    (hturn : InTurn newer s.newestTimestamp (timesOf s.pending)) :
    Held newer now (s.collectReady depacketize now).1 ∧
      WithinBounds (s.collectReady depacketize now).1.pending now ∧
      (∃ gone, timesOf s.pending = gone ++ timesOf (s.collectReady depacketize now).1.pending) ∧
      ∀ v ∈ (s.collectReady depacketize now).1.pending, ∃ u ∈ s.pending,
        v.timestamp = u.timestamp ∧ v.parts = u.parts ∧
          ∀ b ∈ u.blockedSince, b ∈ v.blockedSince := by
  have hleft : Left now (startClocks now s.pending)
      (collectLoop depacketize now (startClocks now s.pending) s.prevEnd s.gapOpen) :=
    collectLoop_left h.startClocks (running_startClocks now s.pending) s.prevEnd s.gapOpen
  obtain ⟨gone, kept, hsplit, hkept⟩ := hleft.kept
  have htimes : timesOf (s.collectReady depacketize now).1.pending = timesOf kept := by
    rcases hkept with hkept | ⟨au, rest, rfl, hkept⟩
    · exact congrArg timesOf hkept
    · have hblock : timesOf (au.block now :: rest) = timesOf (au :: rest) := rfl
      rw [← hblock, ← hkept]
      rfl
  have hall : timesOf s.pending = timesOf gone ++ timesOf kept := by
    rw [← timesOf_startClocks now, hsplit, timesOf_append]
  refine ⟨⟨hleft.clocked, hleft.running, ?_⟩, hleft.bounds, ⟨timesOf gone, ?_⟩, fun v hv ↦ ?_⟩
  · rw [htimes]
    exact InTurn.right (hall ▸ hturn)
  · rw [htimes, hall]
  · have hfrom : ∃ w ∈ kept, v = w ∨ v = w.block now := by
      rcases hkept with hkept | ⟨au, rest, rfl, hkept⟩
      · exact ⟨v, hkept ▸ hv, .inl rfl⟩
      · have hv : v ∈ au.block now :: rest := hkept ▸ hv
        rcases List.mem_cons.mp hv with rfl | hv
        · exact ⟨au, List.mem_cons_self, .inr rfl⟩
        · exact ⟨v, List.mem_cons_of_mem au hv, .inl rfl⟩
    obtain ⟨w, hw, hfrom⟩ := hfrom
    obtain ⟨u, hu, hstart⟩ := exists_of_mem_startClocks (hsplit ▸ List.mem_append_right gone hw)
    refine ⟨u, hu, ?_⟩
    have hw : w.timestamp = u.timestamp ∧ w.parts = u.parts ∧
        ∀ b ∈ u.blockedSince, b ∈ w.blockedSince := by
      rcases hstart with rfl | rfl
      · exact ⟨rfl, rfl, fun b hb ↦ hb⟩
      · exact ⟨rfl, rfl, fun b ↦ PendingAu.block_of_mem⟩
    rcases hfrom with rfl | rfl
    · exact hw
    · exact ⟨hw.1, hw.2.1, fun b hb ↦ PendingAu.block_of_mem (hw.2.2 b hb)⟩

/-- The queue with the packet in it, if it has a payload. -/
def Assembler.queued (newer : T → T → Bool) (s : Assembler T) (pkt : RtpPacket T) (now : Nat) :
    Assembler T :=
  if pkt.payload.isEmpty then s else s.placeAt newer pkt now

theorem pushAt_eq (newer : T → T → Bool) (depacketize : List Bytes → Option Bytes)
    (s : Assembler T) (pkt : RtpPacket T) (now : Nat) :
    s.pushAt newer depacketize pkt now = (s.queued newer pkt now).collectReady depacketize now := by
  unfold Assembler.pushAt Assembler.queued
  split
  · rfl
  · rfl

omit [DecidableEq T] in
theorem exists_lastSeq (s : Assembler T) (raw : UInt16) :
    ∃ x, (unwrapSeq s raw).1 = { s with lastSeq := x } := by
  unfold unwrapSeq
  split
  · exact ⟨_, rfl⟩
  · dsimp only
    split
    · exact ⟨_, rfl⟩
    · exact ⟨s.lastSeq, rfl⟩

/-- What holds of the queue, and of the queue with a packet in it wherever the sequence line ends,
holds once the packet is there. -/
theorem queued_induction {P : Assembler T → Prop} {pkt : RtpPacket T} (hempty : P s)
    (hplace : pkt.payload.isEmpty = false → ∀ x,
      P (({ s with lastSeq := x } : Assembler T).place newer (unwrapSeq s pkt.sequenceNumber).2
        pkt.timestamp pkt.marker pkt.payload now)) : P (s.queued newer pkt now) := by
  unfold Assembler.queued
  split
  · exact hempty
  · next hpayload =>
    obtain ⟨x, hx⟩ := exists_lastSeq s pkt.sequenceNumber
    rw [Assembler.placeAt]
    simp only [hx]
    exact hplace (Bool.eq_false_iff.mpr hpayload) x

/-- The packet goes into a new unit because its timestamp has wrapped. -/
def WrapsAt (newer : T → T → Bool) (s : Assembler T) (pkt : RtpPacket T) (now : Nat) : Prop :=
  pkt.payload.isEmpty = false ∧
    Wraps newer s (unwrapSeq s pkt.sequenceNumber).2 pkt.timestamp now

instance (newer : T → T → Bool) (s : Assembler T) (pkt : RtpPacket T) (now : Nat) :
    Decidable (WrapsAt newer s pkt now) := inferInstanceAs (Decidable (_ ∧ _))

theorem Clocked.queued (h : Clocked now s.pending) (hrunning : Running s.pending)
    (pkt : RtpPacket T) : Clocked now (s.queued newer pkt now).pending :=
  queued_induction (P := fun q ↦ Clocked now q.pending) h fun _ x ↦
    Clocked.place (s := { s with lastSeq := x }) h hrunning _ _ _ _

theorem InTurn.queued (h : InTurn newer s.newestTimestamp (timesOf s.pending)) (pkt : RtpPacket T)
    (now : Nat) : InTurn newer (s.queued newer pkt now).newestTimestamp
      (timesOf (s.queued newer pkt now).pending) :=
  queued_induction (P := fun q ↦ InTurn newer q.newestTimestamp (timesOf q.pending)) h fun _ x ↦
    InTurn.place (s := { s with lastSeq := x }) h _ _ _ _ _

/-- A packet keeps the queue within its bounds, and the clocks of its units. -/
theorem Held.pushAt {last : Nat} (h : Held newer last s) (hnow : last ≤ now) (pkt : RtpPacket T)
    (depacketize : List Bytes → Option Bytes) :
    Held newer now (s.pushAt newer depacketize pkt now).1 ∧
      WithinBounds (s.pushAt newer depacketize pkt now).1.pending now ∧
      ClocksKept (unwrapSeq s pkt.sequenceNumber).2 pkt.payload s.pending
        (s.pushAt newer depacketize pkt now).1.pending := by
  have hkept : ClocksKept (unwrapSeq s pkt.sequenceNumber).2 pkt.payload s.pending
      (s.queued newer pkt now).pending :=
    queued_induction (P := fun q ↦ ClocksKept _ _ s.pending q.pending)
      (fun v hv ↦ .inl ⟨v, hv, .refl _ _ v⟩) fun _ x ↦
        ClocksKept.place newer { s with lastSeq := x } _ _ _ _ _
  rw [pushAt_eq]
  obtain ⟨hheld, hbounds, -, hfrom⟩ :=
    collectReady_left depacketize ((h.clocked.later hnow).queued h.running pkt)
      (h.inTurn.queued pkt now)
  refine ⟨hheld, hbounds, fun v hv ↦ ?_⟩
  obtain ⟨u, hu, htime, hparts, hclock⟩ := hfrom v hv
  rcases hkept u hu with ⟨w, hw, hgoes⟩ | hnew
  · refine .inl ⟨w, hw, htime.trans hgoes.timestamp, ?_, fun b hb ↦ hclock b (hgoes.clock b hb)⟩
    rw [hparts]
    exact hgoes.parts
  · rw [← hparts] at hnew
    exact .inr hnew

/-- A packet whose timestamp has not wrapped keeps equal timestamps together. -/
theorem contiguous_pushAt (hirrefl : ∀ a, newer a a = false) {last : Nat}
    (h : Held newer last s) (hnow : last ≤ now) (hgrouped : Contiguous (timesOf s.pending))
    {pkt : RtpPacket T} (hwraps : ¬WrapsAt newer s pkt now)
    (depacketize : List Bytes → Option Bytes) :
    Contiguous (timesOf (s.pushAt newer depacketize pkt now).1.pending) := by
  have hqueued : Contiguous (timesOf (s.queued newer pkt now).pending) := by
    refine queued_induction (P := fun q ↦ Contiguous (timesOf q.pending)) hgrouped
      fun hpayload x ↦ ?_
    exact contiguous_place (s := { s with lastSeq := x }) hirrefl h.inTurn hgrouped
      (fun hw ↦ hwraps ⟨hpayload, hw⟩) pkt.marker pkt.payload
  obtain ⟨-, -, ⟨gone, hgone⟩, -⟩ :=
    collectReady_left depacketize ((h.clocked.later hnow).queued h.running pkt)
      (h.inTurn.queued pkt now)
  rw [pushAt_eq]
  exact hqueued.sublist (hgone ▸ List.sublist_append_right gone _)

theorem coalesced_pushAt (newer : T → T → Bool) (depacketize : List Bytes → Option Bytes)
    (s : Assembler T) (pkt : RtpPacket T) (now : Nat) :
    Coalesced s.gapOpen (s.pushAt newer depacketize pkt now).2
      (s.pushAt newer depacketize pkt now).1.gapOpen := by
  have hgap : (s.queued newer pkt now).gapOpen = s.gapOpen :=
    queued_induction (P := fun q ↦ q.gapOpen = s.gapOpen) rfl fun _ x ↦
      gapOpen_place newer { s with lastSeq := x } _ _ _ _ _
  rw [pushAt_eq, ← hgap]
  exact collectLoop_coalesced _ _ _

end Step

/-! ### A run -/

section Run

variable {depacketize : List Bytes → Option Bytes} {s s' : H264AuAssembler} {now : Nat}
  {pkt : RtpPacket UInt32} {arrivals : List (RtpPacket UInt32 × Nat)}

theorem newerRtpTs_self (a : UInt32) : newerRtpTs a a = false := by simp [newerRtpTs]

/-- The assembler after a packet. -/
def H264AuAssembler.next (depacketize : List Bytes → Option Bytes) (s : H264AuAssembler)
    (a : RtpPacket UInt32 × Nat) : H264AuAssembler :=
  (H264AuAssembler.pushAt depacketize s a.1 a.2).1

theorem run_eq_next (depacketize : List Bytes → Option Bytes) (s : H264AuAssembler)
    (arrivals : List (RtpPacket UInt32 × Nat)) :
    (H264AuAssembler.run depacketize s arrivals).1 =
      run (H264AuAssembler.next depacketize) s arrivals := by
  induction arrivals generalizing s with
  | nil => rfl
  | cons a arrivals ih => exact ih (H264AuAssembler.next depacketize s a)

/-- A packet at the given time left the queue within its bounds, and the clocks in it as they were:
they are ordered along the queue. -/
structure Bounded (s : H264AuAssembler) (pkt : RtpPacket UInt32) (now : Nat)
    (s' : H264AuAssembler) : Prop where
  bounds : WithinBounds s'.pending now
  order : s'.pending.Pairwise Earlier
  clocks : ClocksKept (unwrapSeq s pkt.sequenceNumber).2 pkt.payload s.pending s'.pending

/-- Whatever arrives, the queue is within its bounds after every packet. -/
theorem Held.allSteps_bounded (h : Held newerRtpTs now s)
    (htimes : (now :: arrivals.map Prod.snd).Pairwise (· ≤ ·)) :
    AllSteps (H264AuAssembler.next depacketize)
      (fun s a ↦ Bounded s a.1 a.2 (H264AuAssembler.next depacketize s a)) s arrivals := by
  induction arrivals generalizing now s with
  | nil => trivial
  | cons a arrivals ih =>
    obtain ⟨hfirst, htimes⟩ := List.pairwise_cons.mp htimes
    obtain ⟨hheld, hbounds, hclocks⟩ := h.pushAt (hfirst a.2 List.mem_cons_self) a.1 depacketize
    exact ⟨⟨hbounds, hheld.clocked.order, hclocks⟩, ih hheld htimes⟩

/-- Equal timestamps stand together after every packet, if no packet has a wrapped timestamp that
is pending still. -/
theorem Held.allSteps_contiguous (h : Held newerRtpTs now s)
    (hgrouped : Contiguous (timesOf s.pending))
    (htimes : (now :: arrivals.map Prod.snd).Pairwise (· ≤ ·))
    (hwraps : AllSteps (H264AuAssembler.next depacketize)
      (fun s a ↦ ¬WrapsAt newerRtpTs s a.1 a.2) s arrivals) :
    AllSteps (H264AuAssembler.next depacketize)
      (fun s a ↦ Contiguous (timesOf (H264AuAssembler.next depacketize s a).pending)) s
      arrivals := by
  induction arrivals generalizing now s with
  | nil => trivial
  | cons a arrivals ih =>
    obtain ⟨hfirst, htimes⟩ := List.pairwise_cons.mp htimes
    have hnow := hfirst a.2 List.mem_cons_self
    have hnext := contiguous_pushAt newerRtpTs_self h hnow hgrouped hwraps.1 depacketize
    exact ⟨hnext, ih (h.pushAt hnow a.1 depacketize).1 hnext htimes hwraps.2⟩

theorem coalesced_run (depacketize : List Bytes → Option Bytes) (s : H264AuAssembler)
    (arrivals : List (RtpPacket UInt32 × Nat)) :
    Coalesced s.gapOpen (H264AuAssembler.run depacketize s arrivals).2
      (H264AuAssembler.run depacketize s arrivals).1.gapOpen := by
  induction arrivals generalizing s with
  | nil => rfl
  | cons a arrivals ih =>
    exact (coalesced_pushAt newerRtpTs depacketize s a.1 a.2).append
      (ih (H264AuAssembler.next depacketize s a))

theorem held_start : Held newerRtpTs 0 ({} : H264AuAssembler) :=
  ⟨.nil, by simp [Running], .nil⟩

/-- After every packet the queue is within its bounds, with its clocks kept and equal timestamps
together, if no packet opens a unit because its timestamp has wrapped; and between two reports of a
gap is a unit. -/
theorem assembler_bounded (depacketize : List Bytes → Option Bytes)
    (arrivals : List (RtpPacket UInt32 × Nat))
    (htimes : (arrivals.map Prod.snd).Pairwise (· ≤ ·))
    (hwraps : AllSteps (H264AuAssembler.next depacketize)
      (fun s a ↦ ¬WrapsAt newerRtpTs s a.1 a.2) {} arrivals) :
    (∀ pre a post, arrivals = pre ++ a :: post →
      Bounded (H264AuAssembler.run depacketize {} pre).1 a.1 a.2
          (H264AuAssembler.run depacketize {} (pre ++ [a])).1 ∧
        Contiguous (timesOf (H264AuAssembler.run depacketize {} (pre ++ [a])).1.pending)) ∧
    ∀ before ts d between ts' d' after, (H264AuAssembler.run depacketize {} arrivals).2 =
        before ++ .discontinuity ts d :: (between ++ .discontinuity ts' d' :: after) →
      ∃ sample, .sample sample ∈ between := by
  have htimes : (0 :: arrivals.map Prod.snd).Pairwise (· ≤ ·) :=
    List.pairwise_cons.mpr ⟨fun _ _ ↦ Nat.zero_le _, htimes⟩
  have hgrouped := held_start.allSteps_contiguous contiguous_nil htimes hwraps
  have hbounded : AllSteps (H264AuAssembler.next depacketize) _ {} arrivals :=
    held_start.allSteps_bounded htimes
  rw [allSteps_iff_forall] at hgrouped hbounded
  refine ⟨fun pre a post harrivals ↦ ?_, fun before ts d between ts' d' after hevents ↦ ?_⟩
  · have hlast : (H264AuAssembler.run depacketize {} (pre ++ [a])).1 =
        H264AuAssembler.next depacketize (H264AuAssembler.run depacketize {} pre).1 a := by
      rw [run_eq_next, run_eq_next, run_append, run_cons, run_nil]
    rw [hlast, run_eq_next]
    exact ⟨hbounded pre a post harrivals, hgrouped pre a post harrivals⟩
  · have hcoalesced := coalesced_run depacketize {} arrivals
    rw [hevents] at hcoalesced
    exact hcoalesced.exists_sample

/-- Pictures across the wrap of the sequence numbers and of the timestamps. The second one was lost,
and the last one came behind its end. -/
def pictures : List (RtpPacket UInt32 × Nat) :=
  [(⟨65534, 4294967000, true, [101]⟩, 0), (⟨0, 2704, true, [65]⟩, 33000000),
    (⟨1, 5704, true, [65]⟩, 200000000), (⟨3, 8704, true, [65]⟩, 250000000),
    (⟨2, 8704, false, [65]⟩, 270000000)]

theorem pictures_bounded :
    (∀ pre a post, pictures = pre ++ a :: post →
      Bounded (H264AuAssembler.run startCodes {} pre).1 a.1 a.2
          (H264AuAssembler.run startCodes {} (pre ++ [a])).1 ∧
        Contiguous (timesOf (H264AuAssembler.run startCodes {} (pre ++ [a])).1.pending)) ∧
    ∀ before ts d between ts' d' after, (H264AuAssembler.run startCodes {} pictures).2 =
        before ++ .discontinuity ts d :: (between ++ .discontinuity ts' d' :: after) →
      ∃ sample, .sample sample ∈ between :=
  assembler_bounded startCodes pictures (by decide) (by decide)

/-- Ends of units whose starts do not come, with timestamps that go once around the clock. -/
def fragments : List (RtpPacket UInt32 × Nat) :=
  [(⟨1, 0, true, [28, 0]⟩, 0), (⟨2, 0x60000000, true, [28, 0]⟩, 0),
    (⟨3, 0xC0000000, true, [28, 0]⟩, 0), (⟨4, 0, true, [28, 0]⟩, 0)]

/-- The last timestamp is newer than the one before it and that of the first unit. -/
theorem fragments_not_contiguous : (fragments.map Prod.snd).Pairwise (· ≤ ·) ∧
    ¬Contiguous (timesOf (H264AuAssembler.run startCodes {} fragments).1.pending) := by
  refine ⟨by decide, fun h ↦ ?_⟩
  have htimes : timesOf (H264AuAssembler.run startCodes {} fragments).1.pending =
      [0, 0x60000000, 0xC0000000, 0] := by decide
  rw [htimes] at h
  exact absurd (h 0 0x60000000 (by decide)) (by decide)

end Run

end MyOwnMesh.Video
