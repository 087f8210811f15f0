import Mathlib.Data.List.Nodup
import Mathlib.Data.List.Perm.Basic
import MyOwnMesh.Lib.Replay

/-!
# The media lanes of one session

The lane pools of `webrtc.rs`: `make_media_track` (`606–619`), `ensure_lane`, `open_media_lane` and
`close_media_lane` (`1773–1865`) and `reap_drained_lanes` (`1892–1933`). A call runs from one lock
or one await to the next, so every call under way is a value that says what it does next. Adding a
track may fail and then attaches nothing; removing a sender's track detaches it. A track is its
kind, its lane and the serial number of its making, and its sender is named by the track it
carries.
-/

namespace MyOwnMesh.Lanes

open Lib Lib.Replay

inductive LaneKind where
  | video
  | audio
  deriving DecidableEq, Repr

structure Track where
  kind : LaneKind
  lane : Nat
  serial : Nat
  deriving DecidableEq, Repr

def LaneKind.label : LaneKind → String
  | .video => "video"
  | .audio => "audio"

/-- The id of a track, which two tracks of one lane share. -/
def Track.id (t : Track) : String := t.kind.label ++ "-" ++ toString t.lane

/-- The slot of a lane that was opened; a lane that was never opened or was reaped has none. -/
inductive LaneSlot where
  | open (track : Track)
  | draining (track : Track) (since : Nat)
  deriving DecidableEq, Repr

def LaneSlot.track : LaneSlot → Track
  | .open t => t
  | .draining t _ => t

/-- A drain that outlived the grace. -/
def LaneSlot.due (now grace : Nat) : LaneSlot → Bool
  | .open _ => false
  | .draining _ since => grace ≤ now - since

/-- What a call under way does next. -/
inductive Call where
  /-- `ensure_lane` looks at the slot. -/
  | ensure (k : LaneKind) (l : Nat)
  /-- `ensure_lane` attaches a new track. -/
  | attach (k : LaneKind) (l : Nat)
  /-- `ensure_lane` stores the track it attached. -/
  | store (t : Track)
  /-- `open_media_lane` looks for a lane. -/
  | openLane (k : LaneKind)
  /-- `reap_drained_lanes` frees the slots of the pools that are left. -/
  | reap (grace : Nat) (kinds : List LaneKind) (victims : List Track)
  /-- `reap_drained_lanes` goes through the senders that are left. -/
  | remove (ids : List String) (todo : List Track)
  deriving DecidableEq, Repr

def preProvisionedLanes : Nat := 1

structure Session where
  maxLanes : Nat
  pool : LaneKind → Nat → Option LaneSlot
  senders : List Track
  /-- The serial number of the next track. -/
  made : Nat
  now : Nat
  calls : List Call

namespace Session

/-- The lanes that are there from the start and are never reaped. -/
def pinned (s : Session) : Nat := min preProvisionedLanes s.maxLanes

/-- The track in the slot of a lane, open or draining. -/
def track (s : Session) (k : LaneKind) (l : Nat) : Option Track := (s.pool k l).map LaneSlot.track

/-- The track a pre-provisioned lane is set up with. -/
def setUp (k : LaneKind) (l : Nat) : Track :=
  match k with
  | .video => ⟨.video, l, 2 * l⟩
  | .audio => ⟨.audio, l, 2 * l + 1⟩

def start (maxLanes : Nat) : Session where
  maxLanes := maxLanes
  pool k l := if l < min preProvisionedLanes maxLanes then some (.open (setUp k l)) else none
  senders := (List.range (min preProvisionedLanes maxLanes)).flatMap fun l ↦
    [setUp .video l, setUp .audio l]
  made := 2 * min preProvisionedLanes maxLanes
  now := 0
  calls := []

def setSlot (s : Session) (k : LaneKind) (l : Nat) (slot : LaneSlot) : Session :=
  { s with pool := fun k' l' ↦ if k' = k ∧ l' = l then some slot else s.pool k' l' }

/-- The slot of a lane is due to be reaped. -/
def reapable (s : Session) (grace : Nat) (k : LaneKind) (l : Nat) : Bool :=
  s.pinned ≤ l && (s.pool k l).any (LaneSlot.due s.now grace)

/-- The tracks of one pool that are due. -/
def dueTracks (s : Session) (grace : Nat) (k : LaneKind) : List Track :=
  (List.range s.maxLanes).filterMap fun l ↦ if s.reapable grace k l then s.track k l else none

/-- The due slots of one pool are freed. -/
def sweep (s : Session) (grace : Nat) (k : LaneKind) : Session :=
  { s with pool := fun k' l ↦
      if k' = k ∧ l < s.maxLanes ∧ s.reapable grace k l = true then none else s.pool k' l }

/-- The lane `open_media_lane` takes: the first that drains, else the first without a slot. -/
def target (s : Session) (k : LaneKind) : Option Nat :=
  let isDraining : Option LaneSlot → Bool
    | some (.draining _ _) => true
    | _ => false
  ((List.range s.maxLanes).find? fun l ↦ isDraining (s.pool k l)).or
    ((List.range s.maxLanes).find? fun l ↦ (s.pool k l).isNone)

def close (s : Session) (k : LaneKind) (l : Nat) : Session :=
  if s.maxLanes ≤ l then s
  else
    match s.pool k l with
    | some (.open t) => s.setSlot k l (.draining t s.now)
    | _ => s

end Session

open Session

/-- One step of a call under way, and what it does next; `ok` says whether a track is attached. -/
def Call.advance (s : Session) (ok : Bool) : Call → Session × Option Call
  | .ensure k l =>
    if s.maxLanes ≤ l then (s, none)
    else
      match s.pool k l with
      | some (.open _) => (s, none)
      | some (.draining t _) => (s.setSlot k l (.open t), none)
      | none => (s, some (.attach k l))
  | .attach k l =>
    if ok then
      ({ s with senders := s.senders ++ [⟨k, l, s.made⟩], made := s.made + 1 },
        some (.store ⟨k, l, s.made⟩))
    else (s, none)
  | .store t =>
    match s.pool t.kind t.lane with
    | none => (s.setSlot t.kind t.lane (.open t), none)
    -- the first writer wins, and the track of the loser stays attached
    | some (.open _) => (s, none)
    | some (.draining winner _) => (s.setSlot t.kind t.lane (.open winner), none)
  | .openLane k => (s, (s.target k).map (.ensure k))
  | .reap grace (k :: kinds) victims =>
    (s.sweep grace k, some (.reap grace kinds (victims ++ s.dueTracks grace k)))
  | .reap _ [] victims =>
    (s, if victims = [] then none else some (.remove (victims.map Track.id) s.senders))
  | .remove _ [] => (s, none)
  | .remove ids (t :: todo) =>
    (if t.id ∈ ids then { s with senders := s.senders.erase t } else s, some (.remove ids todo))

/-- Calls begin; `close_media_lane` runs under one lock; a call under way takes one step; time
passes. -/
inductive Op where
  | ensure (k : LaneKind) (l : Nat)
  | openLane (k : LaneKind)
  | close (k : LaneKind) (l : Nat)
  | reap (grace : Nat)
  | advance (i : Nat) (ok : Bool)
  | tick (d : Nat)
  deriving DecidableEq, Repr

def step (s : Session) : Op → Session
  | .ensure k l => { s with calls := .ensure k l :: s.calls }
  | .openLane k => { s with calls := .openLane k :: s.calls }
  | .close k l => s.close k l
  | .reap grace => { s with calls := .reap grace [.video, .audio] [] :: s.calls }
  | .advance i ok =>
    match s.calls[i]? with
    | none => s
    | some c =>
      { (c.advance s ok).1 with calls := (c.advance s ok).2.toList ++ s.calls.eraseIdx i }
  | .tick d => { s with now := s.now + d }

/-- The call stores its track in a slot that is still free, and the sender it removes carries a
track that no slot holds and no call is about to store. -/
def Call.Clean (s : Session) : Call → Prop
  | .store t => s.pool t.kind t.lane = none
  | .remove ids (t :: _) =>
    t.id ∈ ids → t ∈ s.senders → s.track t.kind t.lane ≠ some t ∧ .store t ∉ s.calls
  | _ => True

instance (s : Session) : DecidablePred (Call.Clean s)
  | .store t => inferInstanceAs (Decidable (s.pool t.kind t.lane = none))
  | .remove ids (t :: _) => inferInstanceAs (Decidable (t.id ∈ ids → t ∈ s.senders →
      s.track t.kind t.lane ≠ some t ∧ .store t ∉ s.calls))
  | .ensure _ _ | .attach _ _ | .openLane _ | .reap _ _ _ | .remove _ [] => .isTrue trivial

/-- The step condition: the call that takes its step is clean. -/
def Clean (s : Session) : Op → Prop
  | .advance i _ => ∀ c ∈ s.calls[i]?, c.Clean s
  | _ => True

instance (s : Session) : DecidablePred (Clean s)
  | .advance i _ => inferInstanceAs (Decidable (∀ c ∈ s.calls[i]?, c.Clean s))
  | .ensure _ _ | .openLane _ | .close _ _ | .reap _ | .tick _ => .isTrue trivial

/-- The call is about to detach the track. -/
def Call.Owes (t : Track) : Call → Prop
  | .reap _ _ victims => t ∈ victims
  | .remove ids todo => t.id ∈ ids ∧ t ∈ todo
  | _ => False

/-- Every sender has its own track, and its track is in a slot, about to be stored in one, or about
to be detached; the tracks in the slots and those about to be stored are attached. -/
structure Sound (n : Nat) (s : Session) : Prop where
  size : s.maxLanes = n
  nodup : s.senders.Nodup
  made : ∀ t ∈ s.senders, t.serial < s.made
  slots : ∀ k l t, s.track k l = some t → t ∈ s.senders ∧ t.kind = k ∧ t.lane = l
  storing : ∀ t, .store t ∈ s.calls → t ∈ s.senders
  owned : ∀ t ∈ s.senders,
    s.track t.kind t.lane = some t ∨ .store t ∈ s.calls ∨ ∃ c ∈ s.calls, c.Owes t
  pinned : ∀ k l, l < s.pinned → s.track k l = some (setUp k l)

variable {n : Nat} {s : Session}

private theorem track_setSlot {k k' : LaneKind} {l l' : Nat} {slot : LaneSlot} :
    (s.setSlot k l slot).track k' l' =
      if k' = k ∧ l' = l then some slot.track else s.track k' l' := by
  simp only [Session.track, setSlot]
  split <;> rfl

private theorem track_of_pool {k : LaneKind} {l : Nat} {slot : LaneSlot}
    (h : s.pool k l = some slot) :
    s.track k l = some slot.track := by
  rw [Session.track, h, Option.map_some]

private theorem sound_start (n : Nat) : Sound n (.start n) := by
  have hpool : ∀ k l t, (Session.start n).track k l = some t →
      l < min preProvisionedLanes n ∧ t = setUp k l := by
    intro k l t ht
    by_cases hl : l < min preProvisionedLanes n
    · simp only [Session.track, Session.start, if_pos hl, Option.map_some, Option.some.injEq] at ht
      exact ⟨hl, ht.symm⟩
    · simp only [Session.track, Session.start, if_neg hl, Option.map_none] at ht
      cases ht
  have hset : ∀ k l, l < min preProvisionedLanes n →
      (Session.start n).track k l = some (setUp k l) := by
    intro k l hl
    simp only [Session.track, Session.start, if_pos hl, Option.map_some, LaneSlot.track]
  have hsenders : ∀ t, t ∈ (Session.start n).senders ↔
      ∃ k l, l < min preProvisionedLanes n ∧ t = setUp k l := by
    intro t
    simp only [Session.start, List.mem_flatMap, List.mem_range, List.mem_cons, List.not_mem_nil,
      or_false]
    constructor
    · rintro ⟨l, hl, rfl | rfl⟩
      · exact ⟨.video, l, hl, rfl⟩
      · exact ⟨.audio, l, hl, rfl⟩
    · rintro ⟨k, l, hl, rfl⟩
      cases k with
      | video => exact ⟨l, hl, .inl rfl⟩
      | audio => exact ⟨l, hl, .inr rfl⟩
  refine ⟨rfl, ?_, ?_, ?_, ?_, ?_, hset⟩
  · cases n with
    | zero => decide
    | succ n =>
      have hone : min preProvisionedLanes (n + 1) = 1 := by
        rw [preProvisionedLanes]
        omega
      simp only [Session.start, hone]
      decide
  · intro t ht
    obtain ⟨k, l, hl, rfl⟩ := (hsenders t).mp ht
    change _ < 2 * min preProvisionedLanes n
    cases k with
    | video =>
      simp only [setUp]
      omega
    | audio =>
      simp only [setUp]
      omega
  · intro k l t ht
    obtain ⟨hl, rfl⟩ := hpool k l t ht
    refine ⟨(hsenders _).mpr ⟨k, l, hl, rfl⟩, ?_, ?_⟩
    · cases k <;> rfl
    · cases k <;> rfl
  · intro t ht
    simp [Session.start] at ht
  · intro t ht
    obtain ⟨k, l, hl, rfl⟩ := (hsenders t).mp ht
    left
    cases k with
    | video => exact hset .video l hl
    | audio => exact hset .audio l hl

/-- Where the track of a sender is, seen from one call. -/
private theorem Sound.owned_cons (h : Sound n s) {c : Call} {rest : List Call}
    (hcalls : s.calls.Perm (c :: rest)) {t : Track} (ht : t ∈ s.senders) :
    (s.track t.kind t.lane = some t ∨ .store t ∈ rest ∨ ∃ d ∈ rest, d.Owes t) ∨
      c = .store t ∨ c.Owes t := by
  rcases h.owned t ht with hslot | hmem | ⟨d, hd, howes⟩
  · exact .inl (.inl hslot)
  · rcases List.mem_cons.mp (hcalls.mem_iff.mp hmem) with heq | hmem
    · exact .inr (.inl heq.symm)
    · exact .inl (.inr (.inl hmem))
  · rcases List.mem_cons.mp (hcalls.mem_iff.mp hd) with rfl | hd
    · exact .inr (.inr howes)
    · exact .inl (.inr (.inr ⟨d, hd, howes⟩))

/-- What the other calls are about to store or detach stays so next to a new call. -/
private theorem owned_append {k : LaneKind} {l : Nat} {t : Track} {rest : List Call}
    (next : List Call) (h : s.track k l = some t ∨ .store t ∈ rest ∨ ∃ d ∈ rest, d.Owes t) :
    s.track k l = some t ∨ .store t ∈ next ++ rest ∨ ∃ d ∈ next ++ rest, d.Owes t := by
  rcases h with hslot | hmem | ⟨d, hd, howes⟩
  · exact .inl hslot
  · exact .inr (.inl (List.mem_append_right _ hmem))
  · exact .inr (.inr ⟨d, List.mem_append_right _ hd, howes⟩)

private theorem Sound.storing_cons (h : Sound n s) {c : Call} {rest : List Call}
    (hcalls : s.calls.Perm (c :: rest)) {t : Track} (ht : .store t ∈ rest) : t ∈ s.senders :=
  h.storing t (hcalls.mem_iff.mpr (.tail _ ht))

/-- A call that stores nothing takes the place of a call, and owes what that one stored or owed. -/
private theorem Sound.replace (h : Sound n s) {c : Call} {rest : List Call}
    (hcalls : s.calls.Perm (c :: rest)) {next : List Call} (hnext : ∀ t, .store t ∉ next)
    (howes : ∀ t ∈ s.senders, c = .store t ∨ c.Owes t → ∃ d ∈ next, d.Owes t) :
    Sound n { s with calls := next ++ rest } where
  size := h.size
  nodup := h.nodup
  made := h.made
  slots := h.slots
  storing t ht := by
    rcases List.mem_append.mp ht with hmem | hmem
    · exact absurd hmem (hnext t)
    · exact h.storing_cons hcalls hmem
  owned t ht := by
    rcases h.owned_cons hcalls ht with hother | hthis
    · exact owned_append next hother
    · obtain ⟨d, hd, hdt⟩ := howes t ht hthis
      exact .inr (.inr ⟨d, List.mem_append_left _ hd, hdt⟩)
  pinned := h.pinned

/-- A call that neither stores nor owes anything makes way for one that stores nothing. -/
private theorem Sound.move (h : Sound n s) {c : Call} {rest : List Call}
    (hcalls : s.calls.Perm (c :: rest)) (hidle : ∀ t, ¬ (c = .store t ∨ c.Owes t))
    {next : List Call} (hnext : ∀ t, .store t ∉ next) :
    Sound n { s with calls := next ++ rest } :=
  h.replace hcalls hnext fun t _ hthis ↦ absurd hthis (hidle t)

/-- A slot gets another state and keeps its track. -/
private theorem Sound.setSlot (h : Sound n s) {k : LaneKind} {l : Nat} {slot : LaneSlot}
    (hslot : s.track k l = some slot.track) : Sound n (s.setSlot k l slot) := by
  have htrack : (s.setSlot k l slot).track = s.track := by
    funext k' l'
    rw [track_setSlot]
    split
    · next heq => rw [heq.1, heq.2, hslot]
    · rfl
  exact ⟨h.size, h.nodup, h.made, by rw [htrack]; exact h.slots, h.storing,
    by rw [htrack]; exact h.owned, by rw [htrack]; exact h.pinned⟩

private theorem Sound.close (h : Sound n s) (k : LaneKind) (l : Nat) : Sound n (s.close k l) := by
  rw [Session.close]
  split
  · exact h
  · split
    · next t hpool =>
      have htrack : s.track k l = some t := track_of_pool hpool
      exact h.setSlot htrack
    · exact h

private theorem Sound.attach (h : Sound n s) {k : LaneKind} {l : Nat} {rest : List Call}
    (hcalls : s.calls.Perm (.attach k l :: rest)) :
    Sound n { s with senders := s.senders ++ [⟨k, l, s.made⟩], made := s.made + 1,
                     calls := .store ⟨k, l, s.made⟩ :: rest } where
  size := h.size
  nodup := by
    have hnew : (⟨k, l, s.made⟩ : Track) ∉ s.senders := by
      intro hmem
      exact absurd (h.made _ hmem) (Nat.lt_irrefl _)
    rw [← List.concat_eq_append]
    exact h.nodup.concat hnew
  made t ht := by
    rcases List.mem_append.mp ht with hmem | hmem
    · exact Nat.lt_succ_of_lt (h.made t hmem)
    · rw [List.mem_singleton.mp hmem]
      exact Nat.lt_succ_self _
  slots k' l' t ht := by
    obtain ⟨hmem, hplace⟩ := h.slots k' l' t ht
    exact ⟨List.mem_append_left _ hmem, hplace⟩
  storing t ht := by
    rcases List.mem_cons.mp ht with heq | hmem
    · cases heq
      exact List.mem_append_right _ (List.mem_singleton_self _)
    · exact List.mem_append_left _ (h.storing_cons hcalls hmem)
  owned t ht := by
    rcases List.mem_append.mp ht with hmem | hmem
    · rcases h.owned_cons hcalls hmem with hother | heq | howes
      · exact owned_append [_] hother
      · cases heq
      · exact howes.elim
    · rw [List.mem_singleton.mp hmem]
      exact .inr (.inl (.head _))
  pinned := h.pinned

/-- The track goes into its slot, which is free. -/
private theorem Sound.store (h : Sound n s) {t : Track} {rest : List Call}
    (hcalls : s.calls.Perm (.store t :: rest)) (hfree : s.pool t.kind t.lane = none) :
    Sound n { s.setSlot t.kind t.lane (.open t) with calls := rest } := by
  have hnone : s.track t.kind t.lane = none := by rw [Session.track, hfree, Option.map_none]
  have hmem : t ∈ s.senders := h.storing t (hcalls.mem_iff.mpr (.head _))
  have htrack : ∀ k l u, ({ s.setSlot t.kind t.lane (.open t) with calls := rest } : Session).track
      k l = some u ↔ (k = t.kind ∧ l = t.lane ∧ u = t) ∨ s.track k l = some u := by
    intro k l u
    change (s.setSlot t.kind t.lane (.open t)).track k l = some u ↔ _
    rw [track_setSlot]
    split
    · next heq =>
      rw [heq.1, heq.2, hnone]
      simp [LaneSlot.track, eq_comm]
    · next hne =>
      constructor
      · exact .inr
      · rintro (⟨hk, hl, -⟩ | hu)
        · exact absurd ⟨hk, hl⟩ hne
        · exact hu
  refine ⟨h.size, h.nodup, h.made, ?_, ?_, ?_, ?_⟩
  · intro k l u hu
    rcases (htrack k l u).mp hu with ⟨rfl, rfl, rfl⟩ | hu
    · exact ⟨hmem, rfl, rfl⟩
    · exact h.slots k l u hu
  · intro u hu
    exact h.storing_cons hcalls hu
  · intro u hu
    rcases h.owned_cons hcalls hu with (hslot | hother) | heq | howes
    · exact .inl ((htrack _ _ u).mpr (.inr hslot))
    · exact .inr hother
    · cases heq
      exact .inl ((htrack _ _ t).mpr (.inl ⟨rfl, rfl, rfl⟩))
    · exact howes.elim
  · intro k l hl
    exact (htrack k l _).mpr (.inr (h.pinned k l hl))

private theorem mem_dueTracks {grace : Nat} {k : LaneKind} {t : Track} :
    t ∈ s.dueTracks grace k ↔
      ∃ l, l < s.maxLanes ∧ s.reapable grace k l = true ∧ s.track k l = some t := by
  simp only [dueTracks, List.mem_filterMap, List.mem_range]
  refine exists_congr fun l ↦ and_congr_right fun _ ↦ ?_
  split
  · next hdue => simp [hdue]
  · next hdue => simp [hdue]

/-- The slots of one pool that are due are freed, and the reaper owes their tracks. -/
private theorem Sound.sweep (h : Sound n s) {grace : Nat} {k : LaneKind} {kinds : List LaneKind}
    {victims : List Track} {rest : List Call}
    (hcalls : s.calls.Perm (.reap grace (k :: kinds) victims :: rest)) :
    Sound n { s.sweep grace k with
      calls := .reap grace kinds (victims ++ s.dueTracks grace k) :: rest } := by
  have htrack : ∀ k' l, (s.sweep grace k).track k' l =
      if k' = k ∧ l < s.maxLanes ∧ s.reapable grace k l = true then none else s.track k' l := by
    intro k' l
    simp only [Session.track, Session.sweep]
    split <;> rfl
  refine ⟨h.size, h.nodup, h.made, ?_, ?_, ?_, ?_⟩
  · intro k' l t ht
    change (s.sweep grace k).track k' l = some t at ht
    rw [htrack] at ht
    split at ht
    · cases ht
    · exact h.slots k' l t ht
  · intro t ht
    rcases List.mem_cons.mp ht with heq | hmem
    · cases heq
    · exact h.storing_cons hcalls hmem
  · intro t ht
    change (s.sweep grace k).track t.kind t.lane = some t ∨ _
    rw [htrack]
    rcases h.owned_cons hcalls ht with (hslot | hother) | heq | howes
    · split
      · next hdue =>
        -- the slot is freed, so its track is one of the victims
        refine .inr (.inr ⟨_, .head _, List.mem_append_right _ (mem_dueTracks.mpr ?_)⟩)
        exact ⟨t.lane, hdue.2.1, hdue.2.2, by rw [← hdue.1]; exact hslot⟩
      · exact .inl hslot
    · rcases hother with hmem | ⟨d, hd, hdt⟩
      · exact .inr (.inl (.tail _ hmem))
      · exact .inr (.inr ⟨d, .tail _ hd, hdt⟩)
    · cases heq
    · exact .inr (.inr ⟨_, .head _, List.mem_append_left _ howes⟩)
  · intro k' l hl
    change (s.sweep grace k).track k' l = _
    rw [htrack, if_neg]
    · exact h.pinned k' l hl
    · rintro ⟨-, -, hdue⟩
      have hpinned : s.pinned ≤ l := by
        rw [reapable, Bool.and_eq_true, decide_eq_true_eq] at hdue
        exact hdue.1
      exact absurd hl (Nat.not_lt.mpr hpinned)

/-- A sender is detached whose track is in no slot and is not about to be stored. -/
private theorem Sound.remove (h : Sound n s) {ids : List String} {t : Track} {todo : List Track}
    {rest : List Call} (hcalls : s.calls.Perm (.remove ids (t :: todo) :: rest))
    (hclean : t ∈ s.senders → s.track t.kind t.lane ≠ some t ∧ .store t ∉ s.calls) :
    Sound n { s with senders := s.senders.erase t, calls := .remove ids todo :: rest } where
  size := h.size
  nodup := h.nodup.erase t
  made u hu := h.made u (List.mem_of_mem_erase hu)
  slots k l u hu := by
    obtain ⟨hmem, hk, hl⟩ := h.slots k l u hu
    refine ⟨(List.mem_erase_of_ne ?_).mpr hmem, hk, hl⟩
    rintro rfl
    rw [← hk, ← hl] at hu
    exact (hclean hmem).1 hu
  storing u hu := by
    rcases List.mem_cons.mp hu with heq | hmem
    · cases heq
    · refine (List.mem_erase_of_ne ?_).mpr (h.storing_cons hcalls hmem)
      rintro rfl
      exact (hclean (h.storing_cons hcalls hmem)).2 (hcalls.mem_iff.mpr (.tail _ hmem))
  owned u hu := by
    obtain ⟨hne, hmem⟩ := h.nodup.mem_erase_iff.mp hu
    rcases h.owned_cons hcalls hmem with hother | heq | howes
    · exact owned_append [_] hother
    · cases heq
    · refine .inr (.inr ⟨_, .head _, howes.1, ?_⟩)
      exact (List.mem_cons.mp howes.2).resolve_left hne
  pinned := h.pinned

private theorem Sound.advance (h : Sound n s) {c : Call} {rest : List Call}
    (hcalls : s.calls.Perm (c :: rest)) (ok : Bool) (hclean : c.Clean s) :
    Sound n { (c.advance s ok).1 with calls := (c.advance s ok).2.toList ++ rest } := by
  cases c with
  | ensure k l =>
    have hidle : ∀ t, ¬ (Call.ensure k l = .store t ∨ (Call.ensure k l).Owes t) := by
      simp [Call.Owes]
    simp only [Call.advance]
    split
    · exact h.move hcalls hidle (by simp)
    · split
      · exact h.move hcalls hidle (by simp)
      · next t since hpool =>
        have htrack : s.track k l = some t := track_of_pool hpool
        exact (h.setSlot htrack).move hcalls hidle (by simp)
      · exact h.move hcalls hidle (by simp)
  | attach k l =>
    cases ok with
    | true => exact h.attach hcalls
    | false => exact h.move hcalls (by simp [Call.Owes]) (by simp [Call.advance])
  | store t =>
    have hfree : s.pool t.kind t.lane = none := hclean
    simp only [Call.advance, hfree]
    exact h.store hcalls hfree
  | openLane k =>
    exact h.move hcalls (by simp [Call.Owes]) (by simp [Call.advance])
  | reap grace kinds victims =>
    cases kinds with
    | cons k kinds => exact h.sweep hcalls
    | nil =>
      simp only [Call.advance]
      split
      · next hvictims => exact h.move hcalls (by simp [Call.Owes, hvictims]) (by simp)
      · refine h.replace hcalls (by simp) ?_
        rintro t ht (heq | howes)
        · cases heq
        -- the victim is still attached, so it is among the senders to go through
        · exact ⟨_, .head _, List.mem_map_of_mem howes, ht⟩
  | remove ids todo =>
    cases todo with
    | nil => exact h.move hcalls (by simp [Call.Owes]) (by simp [Call.advance])
    | cons t todo =>
      simp only [Call.advance]
      split
      · next hid => exact h.remove hcalls (hclean hid)
      · next hid =>
        refine h.replace hcalls (by simp) ?_
        rintro u - (heq | ⟨hu, hmem⟩)
        · cases heq
        · refine ⟨_, .head _, hu, (List.mem_cons.mp hmem).resolve_left ?_⟩
          rintro rfl
          exact hid hu

/-- A call begins. -/
private theorem Sound.call (h : Sound n s) {c : Call} (hstore : ∀ t, c ≠ .store t) :
    Sound n { s with calls := c :: s.calls } where
  size := h.size
  nodup := h.nodup
  made := h.made
  slots := h.slots
  storing t ht := by
    rcases List.mem_cons.mp ht with heq | hmem
    · exact absurd heq.symm (hstore t)
    · exact h.storing t hmem
  owned t ht := owned_append [c] (h.owned t ht)
  pinned := h.pinned

private theorem Sound.step (h : Sound n s) {o : Op} (hclean : Clean s o) : Sound n (step s o) := by
  cases o with
  | ensure k l => exact h.call (by simp)
  | openLane k => exact h.call (by simp)
  | close k l => exact h.close k l
  | reap grace => exact h.call (by simp)
  | advance i ok =>
    simp only [Lanes.step]
    split
    · exact h
    · next c hc =>
      obtain ⟨hi, rfl⟩ := List.getElem?_eq_some_iff.mp hc
      exact h.advance (List.getElem_cons_eraseIdx_perm hi).symm ok (hclean _ hc)
  | tick d => exact ⟨h.size, h.nodup, h.made, h.slots, h.storing, h.owned, h.pinned⟩

/-- In every run in which `ensure_lane` stores its tracks in slots that are still free and the
reaper detaches no track that a slot holds or a call is about to store: whenever no call is under
way, the track of every slot is attached by exactly one sender and every sender's track is in a
slot; and a pre-provisioned lane always has the track it was set up with, attached. -/
theorem open_lanes_attached (maxLanes : Nat) {ops : List Op}
    (hops : AllSteps step Clean (.start maxLanes) ops) :
    ∀ pre post, ops = pre ++ post →
      ((run step (.start maxLanes) pre).calls = [] →
        (∀ k l t, (run step (.start maxLanes) pre).track k l = some t →
          (run step (.start maxLanes) pre).senders.count t = 1) ∧
        ∀ t ∈ (run step (.start maxLanes) pre).senders,
          ∃ k l, (run step (.start maxLanes) pre).track k l = some t) ∧
      ∀ k l, l < min preProvisionedLanes maxLanes →
        (run step (.start maxLanes) pre).track k l = some (setUp k l) ∧
          setUp k l ∈ (run step (.start maxLanes) pre).senders := by
  intro pre post hpre
  have hsound : Sound maxLanes (run step (.start maxLanes) pre) :=
    forall_run_of_allSteps (fun s o hs hclean ↦ hs.step hclean) (sound_start maxLanes) hops
      pre post hpre
  refine ⟨fun hcalls ↦ ⟨?_, ?_⟩, ?_⟩
  · intro k l t ht
    exact List.count_eq_one_of_mem hsound.nodup (hsound.slots k l t ht).1
  · intro t ht
    rcases hsound.owned t ht with hslot | hstore | ⟨c, hc, -⟩
    · exact ⟨t.kind, t.lane, hslot⟩
    · rw [hcalls] at hstore
      exact absurd hstore List.not_mem_nil
    · rw [hcalls] at hc
      exact absurd hc List.not_mem_nil
  · intro k l hl
    have htrack : (run step (.start maxLanes) pre).track k l = some (setUp k l) := by
      apply hsound.pinned
      rw [Session.pinned, hsound.size]
      exact hl
    exact ⟨htrack, (hsound.slots k l _ htrack).1⟩

/-- Two video lanes are opened and closed; the first is revived, the second is reaped. -/
def reviveAndReap : List Op :=
  [.ensure .video 1, .advance 0 true, .advance 0 true, .advance 0 true,
   .openLane .video, .advance 0 true, .advance 0 true, .advance 0 true, .advance 0 true,
   .close .video 1, .close .video 2, .tick 10, .ensure .video 1, .advance 0 true,
   .reap 10, .advance 0 true, .advance 0 true, .advance 0 true, .advance 0 true, .advance 0 true,
   .advance 0 true, .advance 0 true, .advance 0 true]

theorem revived_lane_attached :
    (run step (.start 8) reviveAndReap).calls = [] ∧
      (run step (.start 8) reviveAndReap).pool .video 1 = some (.open ⟨.video, 1, 2⟩) ∧
      (run step (.start 8) reviveAndReap).pool .video 2 = none ∧
      (run step (.start 8) reviveAndReap).senders.count ⟨.video, 1, 2⟩ = 1 := by
  have hcalls : (run step (.start 8) reviveAndReap).calls = [] := by decide
  have hlane : (run step (.start 8) reviveAndReap).pool .video 1 =
      some (.open ⟨.video, 1, 2⟩) := by decide
  have hclean : AllSteps step Clean (.start 8) reviveAndReap := by decide
  have hattached := (open_lanes_attached 8 hclean reviveAndReap [] (by simp)).1 hcalls
  exact ⟨hcalls, hlane, by decide, hattached.1 .video 1 ⟨.video, 1, 2⟩ (track_of_pool hlane)⟩

/-- The reaper frees the slot of lane 1; a write opens the lane again under the same track id before
the reaper goes through the senders. -/
def reopenWhileReaping : List Op :=
  [.ensure .video 1, .advance 0 true, .advance 0 true, .advance 0 true, .close .video 1, .tick 10,
   .reap 10, .advance 0 true,
   .ensure .video 1, .advance 0 true, .advance 0 true, .advance 0 true,
   .advance 0 true, .advance 0 true, .advance 0 true, .advance 0 true, .advance 0 true,
   .advance 0 true, .advance 0 true]

/-- Two writes open lane 1 at once. -/
def openTwice : List Op :=
  [.ensure .video 1, .ensure .video 1, .advance 0 true, .advance 1 true, .advance 0 true,
   .advance 1 true, .advance 1 true, .advance 0 true]

/-- The first run ends with an open lane whose track is detached, the second with a sender whose
track is in no slot, and no call is under way. -/
theorem open_lane_detached :
    ((run step (.start 8) reopenWhileReaping).calls = [] ∧
      (run step (.start 8) reopenWhileReaping).pool .video 1 = some (.open ⟨.video, 1, 3⟩) ∧
      (run step (.start 8) reopenWhileReaping).senders.count ⟨.video, 1, 3⟩ = 0) ∧
    (run step (.start 8) openTwice).calls = [] ∧
      ⟨.video, 1, 3⟩ ∈ (run step (.start 8) openTwice).senders ∧
      ∀ k l, (run step (.start 8) openTwice).track k l ≠ some ⟨.video, 1, 3⟩ := by
  refine ⟨by decide, by decide, by decide, ?_⟩
  intro k l htrack
  have hpool : (run step (.start 8) openTwice).track =
      ((Session.start 8).setSlot .video 1 (.open ⟨.video, 1, 2⟩)).track := rfl
  rw [hpool, track_setSlot] at htrack
  split at htrack
  · cases htrack
  · next hne =>
    obtain ⟨-, hk, hl⟩ := (sound_start 8).slots k l _ htrack
    exact hne ⟨hk.symm, hl.symm⟩

end MyOwnMesh.Lanes
