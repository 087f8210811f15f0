import Mathlib.Data.List.Nodup
import Mathlib.Data.List.Count
import Mathlib.Data.List.Perm.Basic
import Mathlib.Order.Nat
import MyOwnMesh.Lib.Replay

/-!
# The pumps of one channel

`ChannelSubscribe` and `ChannelUnsubscribe` of `control.rs:1530–1566`, the subscriber list and the
clients' own sets of `clients.rs:215–256, 310–343`, and `spawn_channel_pump` of `bridge.rs:142–207`,
for one key of a network and a channel. The first subscriber starts a pump on the network that its
request found; a pump looks at the list, waits for a frame of its network and hands it to those it
saw. It ends when it sees an empty list, or when its network is closed. Restarting the network puts
a new one under the key and keeps the list. A client that disconnects leaves the list if the key is
in its own set.

Networks are numbered in the order in which they were joined, frames in the order of their
dispatch. A request finds its network, puts the key into the client's set, enters the list and
starts a pump in four steps. The broadcast buffer is large enough for the frames that wait.
-/

namespace MyOwnMesh.ChannelPumps

open Lib Lib.Replay

/-- A pump that has not ended: its network, the subscribers it saw unless it is about to look, and
the frames that wait for it. -/
structure Pump where
  network : Nat
  snapshot : Option (List Nat)
  queue : List Nat
  deriving DecidableEq, Repr

/-- What a request in flight does next. -/
inductive Pending where
  /-- The network was found. -/
  | found (client network : Nat)
  | enter (client network : Nat)
  | leave (client : Nat)
  /-- The list was empty. -/
  | spawn (network : Nat)
  deriving DecidableEq, Repr

def Pending.isSpawn : Pending → Bool
  | .found _ _ | .enter _ _ | .leave _ => false
  | .spawn _ => true

/-- The network of a request that enters the list. -/
def Pending.entering : Pending → Option Nat
  | .enter _ network => some network
  | .found _ _ | .leave _ | .spawn _ => none

/-- The clients that disconnected, those that have the key in their own set, the subscriber list,
the network under the key, the requests in flight, the pumps and the number of frames so far. Beside
them what was delivered, and what is owed: the frames that were dispatched while a client was
subscribed, which it has been ever since. -/
structure State where
  gone : List Nat
  channelSubs : List Nat
  subs : List Nat
  network : Nat
  pending : List Pending
  pumps : List Pump
  frames : Nat
  delivered : List (Nat × Nat)
  owed : List (Nat × Nat)
  deriving DecidableEq, Repr

def State.start : State := ⟨[], [], [], 0, [], [], 0, [], []⟩

inductive Op where
  | request (client : Nat)
  | proceed (i : Nat)
  | unsubscribe (client : Nat)
  | unregister (client : Nat)
  | restart
  | dispatch
  | look (i : Nat)
  | deliver (i : Nat)
  | closed (i : Nat)
  deriving DecidableEq, Repr

/-- A client leaves the list, and nothing is owed to it any more. -/
def State.leave (s : State) (client : Nat) : State :=
  { s with subs := s.subs.filter (· ≠ client), owed := s.owed.filter (·.1 ≠ client) }

/-- A frame is sent to a receiver of its network. -/
def Pump.receive (network frame : Nat) (p : Pump) : Pump :=
  if p.network = network then { p with queue := p.queue ++ [frame] } else p

def step (s : State) : Op → State
  | .request client =>
    if client ∈ s.gone then s else { s with pending := s.pending ++ [.found client s.network] }
  | .proceed i =>
    match s.pending[i]? with
    | none => s
    | some (.found client network) =>
      { s with
        channelSubs :=
          if client ∈ s.gone ∨ client ∈ s.channelSubs then s.channelSubs
          else client :: s.channelSubs
        pending := s.pending.set i (.enter client network) }
    | some (.enter client network) =>
      { s with
        subs := if client ∈ s.subs then s.subs else s.subs ++ [client]
        pending := if s.subs = [] then s.pending.set i (.spawn network) else s.pending.eraseIdx i }
    | some (.leave client) => { s.leave client with pending := s.pending.eraseIdx i }
    | some (.spawn network) =>
      { s with pending := s.pending.eraseIdx i, pumps := s.pumps ++ [⟨network, none, []⟩] }
  | .unsubscribe client =>
    { s with
      channelSubs :=
        if client ∈ s.gone then s.channelSubs else s.channelSubs.filter (· ≠ client)
      pending := s.pending ++ [.leave client] }
  | .unregister client =>
    if client ∈ s.gone then s
    else
      { s with
        gone := client :: s.gone
        pending := if client ∈ s.channelSubs then s.pending ++ [.leave client] else s.pending
        owed := s.owed.filter (·.1 ≠ client) }
  | .restart => { s with network := s.network + 1 }
  | .dispatch =>
    { s with
      frames := s.frames + 1
      pumps := s.pumps.map (Pump.receive s.network s.frames)
      owed := s.owed ++ (s.subs.filter (· ∉ s.gone)).map fun client ↦ (client, s.frames) }
  | .look i =>
    match s.pumps[i]? with
    | some ⟨network, none, queue⟩ =>
      if s.subs = [] then { s with pumps := s.pumps.eraseIdx i }
      else { s with pumps := s.pumps.set i ⟨network, some s.subs, queue⟩ }
    | _ => s
  | .deliver i =>
    match s.pumps[i]? with
    | some ⟨network, some subscribers, frame :: rest⟩ =>
      { s with
        pumps := s.pumps.set i ⟨network, none, rest⟩
        delivered := s.delivered ++
          (subscribers.filter (· ∉ s.gone)).map fun client ↦ (client, frame) }
    | _ => s
  | .closed i =>
    match s.pumps[i]? with
    | some ⟨network, some _, []⟩ =>
      if network = s.network then s else { s with pumps := s.pumps.eraseIdx i }
    | _ => s

/-- How many pumps still have a frame. -/
def State.queued (s : State) (frame : Nat) : Nat := (s.pumps.flatMap (·.queue)).count frame

/-- How many pumps the network has, those that are about to start included. -/
def State.pumping (s : State) : Nat :=
  s.pumps.countP (·.network = s.network) + s.pending.countP Pending.isSpawn

/-- A pump is started where the network has none: the first subscriber finds the network that is
under the key, and no pump on it. The network is restarted where nobody is subscribed, and a frame
is dispatched where its pump has started and, if it waits for this one, has seen every
subscriber. -/
def Steady (s : State) : Op → Prop
  | .proceed i => s.subs = [] → ∀ network ∈ s.pending[i]?.bind Pending.entering,
      network = s.network ∧ s.pumping = 0
  | .restart => s.subs = [] ∧ s.pending.countP Pending.isSpawn = 0
  | .dispatch => s.pending.countP Pending.isSpawn = 0 ∧ ∀ p ∈ s.pumps, p.network = s.network →
      p.queue = [] → ∀ seen ∈ p.snapshot, ∀ client ∈ s.subs, client ∉ s.gone → client ∈ seen
  | _ => True

instance (s : State) : DecidablePred (Steady s)
  | .proceed i => inferInstanceAs (Decidable (s.subs = [] →
      ∀ network ∈ s.pending[i]?.bind Pending.entering, network = s.network ∧ s.pumping = 0))
  | .restart => inferInstanceAs (Decidable (_ ∧ _))
  | .dispatch => inferInstanceAs (Decidable (s.pending.countP Pending.isSpawn = 0 ∧
      ∀ p ∈ s.pumps, p.network = s.network → p.queue = [] → ∀ seen ∈ p.snapshot,
        ∀ client ∈ s.subs, client ∉ s.gone → client ∈ seen))
  | .request _ | .unsubscribe _ | .unregister _ | .look _ | .deliver _ | .closed _ =>
    .isTrue trivial

/-! ### One pump -/

/-- The network has at most one pump, and one if somebody is subscribed; every frame that is owed
has been delivered once or waits for one pump, and where it comes next that pump has seen its
client. -/
structure Once (s : State) : Prop where
  subs : s.subs.Nodup
  seen : ∀ p ∈ s.pumps, ∀ subscribers ∈ p.snapshot, subscribers.Nodup
  past : ∀ p ∈ s.pumps, p.network ≤ s.network
  spawns : ∀ network, .spawn network ∈ s.pending → network = s.network
  most : s.pumping ≤ 1
  least : s.subs ≠ [] → s.pumping = 1
  unsent : ∀ frame, s.frames ≤ frame →
    s.queued frame = 0 ∧ ∀ client, s.delivered.count (client, frame) = 0
  owed : ∀ client frame, (client, frame) ∈ s.owed → client ∈ s.subs ∧ client ∉ s.gone ∧
    s.delivered.count (client, frame) + s.queued frame = 1
  head : ∀ p ∈ s.pumps, ∀ subscribers ∈ p.snapshot, ∀ frame ∈ p.queue.head?, ∀ client,
    (client, frame) ∈ s.owed → client ∈ subscribers

private theorem count_flatMap_of_perm {pumps pumps' : List Pump} (h : pumps.Perm pumps')
    (frame : Nat) :
    (pumps.flatMap (·.queue)).count frame = (pumps'.flatMap (·.queue)).count frame :=
  (h.flatMap_right _).count_eq _

/-- A frame goes to the pumps of its network. -/
private theorem count_flatMap_receive (pumps : List Pump) (network frame frame' : Nat) :
    ((pumps.map (Pump.receive network frame)).flatMap (·.queue)).count frame' =
      (pumps.flatMap (·.queue)).count frame' +
        if frame = frame' then pumps.countP (·.network = network) else 0 := by
  induction pumps with
  | nil => simp
  | cons p rest ih =>
    rw [List.map_cons, List.flatMap_cons, List.flatMap_cons, List.count_append, List.count_append,
      ih, List.countP_cons]
    by_cases hnet : p.network = network
    · simp only [Pump.receive, if_pos hnet, List.count_append, decide_eq_true hnet, ↓reduceIte]
      by_cases hframe : frame = frame'
      · subst hframe
        simp only [List.count_singleton_self, ↓reduceIte]
        omega
      · simp only [List.count_singleton, beq_iff_eq, if_neg hframe]
        omega
    · simp only [Pump.receive, if_neg hnet, decide_eq_false hnet, Bool.false_eq_true, ↓reduceIte,
        Nat.add_zero]
      omega

/-- The deliveries of one frame. -/
private theorem count_map_pair {clients : List Nat} (h : clients.Nodup)
    (frame client frame' : Nat) :
    (clients.map fun c ↦ (c, frame)).count (client, frame') =
      if frame = frame' ∧ client ∈ clients then 1 else 0 := by
  have hnodup : (clients.map fun c ↦ (c, frame)).Nodup := h.map fun a b hab ↦ (Prod.mk.inj hab).1
  rw [List.Nodup.count hnodup]
  congr 1
  simp only [List.mem_map, Prod.mk.injEq, eq_iff_iff]
  constructor
  · rintro ⟨c, hc, rfl, rfl⟩
    exact ⟨rfl, hc⟩
  · rintro ⟨rfl, hc⟩
    exact ⟨client, hc, rfl, rfl⟩

/-- A pump of the list is replaced by another one. -/
private theorem pumps_set {s : State} {i : Nat} {p : Pump} (h : s.pumps[i]? = some p)
    (p' : Pump) :
    s.pumps.Perm (p :: s.pumps.eraseIdx i) ∧
      (s.pumps.set i p').Perm (p' :: s.pumps.eraseIdx i) := by
  obtain ⟨hi, rfl⟩ := List.getElem?_eq_some_iff.mp h
  exact ⟨(List.getElem_cons_eraseIdx_perm hi).symm, List.set_perm_cons_eraseIdx hi p'⟩

/-! ### One step -/

/-- A request that starts no pump is over, or goes on to something that is none either. -/
private theorem filter_spawns {pending : List Pending} {i : Nat} {r : Pending}
    (hget : pending[i]? = some r) (hr : r.isSpawn = false) :
    ((pending.eraseIdx i).filter Pending.isSpawn).Perm (pending.filter Pending.isSpawn) ∧
      ∀ r', r'.isSpawn = false →
        ((pending.set i r').filter Pending.isSpawn).Perm (pending.filter Pending.isSpawn) := by
  obtain ⟨hi, rfl⟩ := List.getElem?_eq_some_iff.mp hget
  have hperm := (List.getElem_cons_eraseIdx_perm hi).filter Pending.isSpawn
  rw [List.filter_cons, hr, if_neg Bool.false_ne_true] at hperm
  refine ⟨hperm, fun r' hr' ↦ ?_⟩
  have hset := (List.set_perm_cons_eraseIdx hi r').filter Pending.isSpawn
  rw [List.filter_cons, hr', if_neg Bool.false_ne_true] at hset
  exact hset.trans hperm

/-- A request that starts no pump comes in. -/
private theorem filter_spawns_snoc (pending : List Pending) {r : Pending}
    (hr : r.isSpawn = false) :
    ((pending ++ [r]).filter Pending.isSpawn).Perm (pending.filter Pending.isSpawn) := by
  rw [List.filter_append, List.filter_singleton, hr]
  exact .of_eq (List.append_nil _)

/-- Requests that start no pump come and go. -/
private theorem Once.requests {s : State} (h : Once s) {pending : List Pending}
    (hspawns : (pending.filter Pending.isSpawn).Perm (s.pending.filter Pending.isSpawn))
    (channelSubs : List Nat) :
    Once { s with channelSubs := channelSubs, pending := pending } := by
  have hcountP : pending.countP Pending.isSpawn = s.pending.countP Pending.isSpawn := by
    rw [List.countP_eq_length_filter, List.countP_eq_length_filter, hspawns.length_eq]
  have hpumping : State.pumping { s with channelSubs := channelSubs, pending := pending } =
      s.pumping := congrArg (s.pumps.countP (·.network = s.network) + ·) hcountP
  refine ⟨h.subs, h.seen, h.past, ?_, hpumping ▸ h.most, fun hsubs ↦ hpumping ▸ h.least hsubs,
    h.unsent, h.owed, h.head⟩
  intro network hmem
  have hspawn := hspawns.mem_iff.mp (List.mem_filter.mpr ⟨hmem, rfl⟩)
  exact h.spawns network (List.mem_of_mem_filter hspawn)

/-- A request enters the list. -/
private theorem Once.subscribe {s : State} (h : Once s) {i client network : Nat}
    (hget : s.pending[i]? = some (.enter client network))
    (hsteady : s.subs = [] → network = s.network ∧ s.pumping = 0) :
    Once { s with
      subs := if client ∈ s.subs then s.subs else s.subs ++ [client]
      pending :=
        if s.subs = [] then s.pending.set i (.spawn network) else s.pending.eraseIdx i } := by
  obtain ⟨hi, hfound⟩ := List.getElem?_eq_some_iff.mp hget
  have hperm := List.getElem_cons_eraseIdx_perm hi
  rw [hfound] at hperm
  have hold : ∀ c ∈ s.subs, c ∈ if client ∈ s.subs then s.subs else s.subs ++ [client] := by
    intro c hc
    split
    · exact hc
    · exact List.mem_append_left _ hc
  have hspawns : s.pending.countP Pending.isSpawn =
      (s.pending.eraseIdx i).countP Pending.isSpawn := by
    rw [← hperm.countP_eq, List.countP_cons]
    rfl
  have hpumping : (s.subs = [] → s.pumps.countP (·.network = s.network) +
      (s.pending.set i (.spawn network)).countP Pending.isSpawn = 1) := by
    intro hempty
    obtain ⟨-, hzero⟩ := hsteady hempty
    rw [State.pumping, hspawns] at hzero
    rw [(List.set_perm_cons_eraseIdx hi _).countP_eq, List.countP_cons]
    simp only [Pending.isSpawn, ↓reduceIte]
    omega
  refine ⟨?_, h.seen, h.past, ?_, ?_, ?_, h.unsent, ?_, h.head⟩
  · dsimp only
    split
    · exact h.subs
    · next hnew =>
      refine List.nodup_append.mpr ⟨h.subs, List.nodup_singleton _, fun a ha b hb heq ↦ ?_⟩
      cases List.mem_singleton.mp hb
      exact hnew (heq ▸ ha)
  · intro network' hmem
    dsimp only at hmem ⊢
    split at hmem
    · next hempty =>
      rcases List.mem_cons.mp ((List.set_perm_cons_eraseIdx hi _).mem_iff.mp hmem) with heq | hmem
      · cases heq
        exact (hsteady hempty).1
      · exact h.spawns network' (hperm.mem_iff.mp (List.mem_cons_of_mem _ hmem))
    · exact h.spawns network' (hperm.mem_iff.mp (List.mem_cons_of_mem _ hmem))
  · simp only [State.pumping]
    split
    · next hempty => exact (hpumping hempty).le
    · have := h.most
      rwa [State.pumping, hspawns] at this
  · intro _
    simp only [State.pumping]
    split
    · next hempty => exact hpumping hempty
    · next hsubs =>
      have := h.least hsubs
      rwa [State.pumping, hspawns] at this
  · intro c frame hmem
    obtain ⟨hsub, hgone, hcount⟩ := h.owed c frame hmem
    exact ⟨hold c hsub, hgone, hcount⟩

/-- The pump of a request starts. -/
private theorem Once.spawn {s : State} (h : Once s) {i network : Nat}
    (hget : s.pending[i]? = some (.spawn network)) :
    Once { s with pending := s.pending.eraseIdx i, pumps := s.pumps ++ [⟨network, none, []⟩] } := by
  obtain ⟨hi, hspawn⟩ := List.getElem?_eq_some_iff.mp hget
  have hperm := List.getElem_cons_eraseIdx_perm hi
  rw [hspawn] at hperm
  have hnetwork : network = s.network := h.spawns network (hperm.mem_iff.mp List.mem_cons_self)
  have hpumping : State.pumping { s with
      pending := s.pending.eraseIdx i, pumps := s.pumps ++ [⟨network, none, []⟩] } = s.pumping := by
    simp only [State.pumping]
    rw [← hperm.countP_eq, List.countP_cons, List.countP_append, hnetwork]
    simp only [List.countP_singleton, decide_true, ↓reduceIte, Pending.isSpawn]
    omega
  have hqueued : ∀ frame, State.queued { s with
      pending := s.pending.eraseIdx i, pumps := s.pumps ++ [⟨network, none, []⟩] } frame =
        s.queued frame := by
    intro frame
    simp [State.queued]
  have hmem : ∀ p ∈ s.pumps ++ [⟨network, none, []⟩],
      p ∈ s.pumps ∨ p = ⟨network, none, []⟩ := by
    intro p hp
    rcases List.mem_append.mp hp with hp | hp
    · exact .inl hp
    · exact .inr (List.mem_singleton.mp hp)
  refine ⟨h.subs, ?_, ?_, ?_, hpumping ▸ h.most, fun hsubs ↦ hpumping ▸ h.least hsubs, ?_, ?_, ?_⟩
  · intro p hp subscribers hseen
    rcases hmem p hp with hp | rfl
    · exact h.seen p hp subscribers hseen
    · cases hseen
  · intro p hp
    rcases hmem p hp with hp | rfl
    · exact h.past p hp
    · exact hnetwork.le
  · intro network' hpending
    exact h.spawns network' (hperm.mem_iff.mp (List.mem_cons_of_mem _ hpending))
  · intro frame hframe
    rw [hqueued]
    exact h.unsent frame hframe
  · intro client frame howed
    rw [hqueued]
    exact h.owed client frame howed
  · intro p hp subscribers hseen
    rcases hmem p hp with hp | rfl
    · exact h.head p hp subscribers hseen
    · cases hseen

/-- A client leaves the list. -/
private theorem Once.leave {s : State} (h : Once s) (client : Nat) : Once (s.leave client) := by
  refine ⟨h.subs.filter _, h.seen, h.past, h.spawns, h.most, ?_, h.unsent, ?_, ?_⟩
  · intro hsubs
    refine h.least fun hempty ↦ hsubs ?_
    simp only [State.leave, hempty, List.filter_nil]
  · intro client' frame howed
    obtain ⟨howed', hne⟩ := List.mem_filter.mp howed
    obtain ⟨hsub, hgone, hcount⟩ := h.owed client' frame howed'
    exact ⟨List.mem_filter.mpr ⟨hsub, hne⟩, hgone, hcount⟩
  · intro p hp subscribers hseen frame hframe client' howed
    exact h.head p hp subscribers hseen frame hframe client' (List.mem_filter.mp howed).1

/-- What a pump has was dispatched. -/
private theorem Once.lt_frames {s : State} (h : Once s) {p : Pump} (hp : p ∈ s.pumps) {frame : Nat}
    (hframe : frame ∈ p.queue) : frame < s.frames := by
  by_contra hlate
  have hzero := (h.unsent frame (Nat.le_of_not_lt hlate)).1
  have hpos : 0 < s.queued frame :=
    List.count_pos_iff.mpr (List.mem_flatMap.mpr ⟨p, hp, hframe⟩)
  omega

/-- A frame is dispatched. -/
private theorem Once.dispatch {s : State} (h : Once s)
    (hspawns : s.pending.countP Pending.isSpawn = 0)
    (hseen : ∀ p ∈ s.pumps, p.network = s.network → p.queue = [] → ∀ seen ∈ p.snapshot,
      ∀ client ∈ s.subs, client ∉ s.gone → client ∈ seen) :
    Once (step s .dispatch) := by
  have hcountP : ∀ pumps : List Pump, (pumps.map (Pump.receive s.network s.frames)).countP
      (·.network = s.network) = pumps.countP (·.network = s.network) := by
    intro pumps
    rw [List.countP_map]
    congr 1
    funext p
    simp only [Function.comp_apply, Pump.receive]
    split <;> rfl
  have hpumping : (step s .dispatch).pumping = s.pumping :=
    congrArg (· + s.pending.countP Pending.isSpawn) (hcountP s.pumps)
  have hqueued : ∀ frame, (step s .dispatch).queued frame = s.queued frame +
      if s.frames = frame then s.pumps.countP (·.network = s.network) else 0 :=
    fun frame ↦ count_flatMap_receive s.pumps s.network s.frames frame
  have hmem : ∀ p ∈ (step s .dispatch).pumps, ∃ before ∈ s.pumps,
      p = before.receive s.network s.frames := by
    intro p hp
    obtain ⟨before, hbefore, rfl⟩ := List.mem_map.mp hp
    exact ⟨before, hbefore, rfl⟩
  have hsnapshot : ∀ p : Pump, (p.receive s.network s.frames).snapshot = p.snapshot ∧
      (p.receive s.network s.frames).network = p.network := by
    intro p
    unfold Pump.receive
    split <;> exact ⟨rfl, rfl⟩
  have howes : ∀ client frame, (client, frame) ∈ (step s .dispatch).owed →
      (client, frame) ∈ s.owed ∨ frame = s.frames ∧ client ∈ s.subs ∧ client ∉ s.gone := by
    intro client frame howed
    rcases List.mem_append.mp howed with howed | hnew
    · exact .inl howed
    · obtain ⟨c, hc, heq⟩ := List.mem_map.mp hnew
      cases heq
      obtain ⟨hsub, hgone⟩ := List.mem_filter.mp hc
      exact .inr ⟨rfl, hsub, of_decide_eq_true hgone⟩
  -- what was owed before has a smaller number
  have hbefore : ∀ client frame, (client, frame) ∈ s.owed → frame ≠ s.frames := by
    rintro client frame howed rfl
    obtain ⟨-, -, hcount⟩ := h.owed client _ howed
    obtain ⟨hq, hd⟩ := h.unsent s.frames le_rfl
    rw [hq, hd client] at hcount
    cases hcount
  refine ⟨h.subs, ?_, ?_, h.spawns, hpumping ▸ h.most, fun hsubs ↦ hpumping ▸ h.least hsubs, ?_, ?_,
    ?_⟩
  · intro p hp subscribers hp'
    obtain ⟨before, hbefore, rfl⟩ := hmem p hp
    rw [(hsnapshot before).1] at hp'
    exact h.seen before hbefore subscribers hp'
  · intro p hp
    obtain ⟨before, hbefore, rfl⟩ := hmem p hp
    rw [(hsnapshot before).2]
    exact h.past before hbefore
  · intro frame hframe
    have hlt : s.frames < frame := hframe
    obtain ⟨hq, hd⟩ := h.unsent frame hlt.le
    rw [hqueued, hq, if_neg hlt.ne]
    exact ⟨rfl, hd⟩
  · intro client frame howed
    rcases howes client frame howed with hold | ⟨rfl, hsub, hgone⟩
    · obtain ⟨hsub, hgone, hcount⟩ := h.owed client frame hold
      rw [hqueued, if_neg (hbefore client frame hold).symm]
      exact ⟨hsub, hgone, hcount⟩
    · obtain ⟨hq, hd⟩ := h.unsent s.frames le_rfl
      have hone := h.least (List.ne_nil_of_mem hsub)
      rw [State.pumping, hspawns, Nat.add_zero] at hone
      refine ⟨hsub, hgone, ?_⟩
      rw [hqueued, if_pos rfl, hq, hone]
      exact congrArg (· + 1) (hd client)
  · intro p hp subscribers hp' frame hframe client howed
    obtain ⟨before, hpump, rfl⟩ := hmem p hp
    rw [(hsnapshot before).1] at hp'
    -- the frame comes next to a pump that had none, or is not the one that was dispatched
    by_cases hnet : before.network = s.network
    · rw [Pump.receive, if_pos hnet] at hframe
      cases hqueue : before.queue with
      | nil =>
        simp only [hqueue, List.nil_append, List.head?_cons, Option.mem_some_iff] at hframe
        subst hframe
        rcases howes client _ howed with hold | ⟨-, hsub, hgone⟩
        · exact absurd rfl (hbefore client _ hold)
        · exact hseen before hpump hnet hqueue subscribers hp' client hsub hgone
      | cons first rest =>
        simp only [hqueue, List.cons_append, List.head?_cons, Option.mem_some_iff] at hframe
        subst hframe
        rcases howes client _ howed with hold | ⟨heq, -, -⟩
        · refine h.head before hpump subscribers hp' first ?_ client hold
          rw [hqueue]
          rfl
        · have hlt := h.lt_frames hpump (hqueue ▸ List.mem_cons_self : first ∈ before.queue)
          exact absurd heq hlt.ne
    · rw [Pump.receive, if_neg hnet] at hframe
      rcases howes client frame howed with hold | ⟨heq, -, -⟩
      · exact h.head before hpump subscribers hp' frame hframe client hold
      · have hlt := h.lt_frames hpump (List.mem_of_mem_head? hframe)
        exact absurd heq hlt.ne

/-- A pump is replaced by one of the same network, with the subscribers it saw, and hands out the
frames that it no longer has. -/
private theorem Once.setPump {s : State} (h : Once s) {i : Nat} {p : Pump}
    (hget : s.pumps[i]? = some p) (p' : Pump) (hnetwork : p'.network = p.network)
    (hnodup : ∀ subscribers ∈ p'.snapshot, subscribers.Nodup) (more : List (Nat × Nat))
    (hunsent : ∀ frame, s.frames ≤ frame →
      p'.queue.count frame ≤ p.queue.count frame ∧ ∀ client, more.count (client, frame) = 0)
    (howed : ∀ client frame, (client, frame) ∈ s.owed →
      more.count (client, frame) + p'.queue.count frame = p.queue.count frame)
    (hhead : ∀ subscribers ∈ p'.snapshot, ∀ frame ∈ p'.queue.head?, ∀ client,
      (client, frame) ∈ s.owed → client ∈ subscribers) :
    Once { s with pumps := s.pumps.set i p', delivered := s.delivered ++ more } := by
  obtain ⟨hperm, hset⟩ := pumps_set hget p'
  have hrest : ∀ q ∈ s.pumps.set i p', q = p' ∨ q ∈ s.pumps := by
    intro q hq
    rcases List.mem_cons.mp (hset.mem_iff.mp hq) with heq | hq
    · exact .inl heq
    · exact .inr (hperm.mem_iff.mpr (List.mem_cons_of_mem _ hq))
  have hmem : p ∈ s.pumps := hperm.mem_iff.mpr List.mem_cons_self
  have hcountP : (s.pumps.set i p').countP (·.network = s.network) =
      s.pumps.countP (·.network = s.network) := by
    rw [hset.countP_eq, hperm.countP_eq, List.countP_cons, List.countP_cons, hnetwork]
  have hpumping : State.pumping { s with
      pumps := s.pumps.set i p', delivered := s.delivered ++ more } = s.pumping :=
    congrArg (· + s.pending.countP Pending.isSpawn) hcountP
  have hqueued : ∀ frame, State.queued { s with
      pumps := s.pumps.set i p', delivered := s.delivered ++ more } frame + p.queue.count frame =
        s.queued frame + p'.queue.count frame := by
    intro frame
    simp only [State.queued]
    rw [count_flatMap_of_perm hset, count_flatMap_of_perm hperm, List.flatMap_cons,
      List.flatMap_cons, List.count_append, List.count_append]
    omega
  refine ⟨h.subs, ?_, ?_, h.spawns, hpumping ▸ h.most, fun hsubs ↦ hpumping ▸ h.least hsubs, ?_, ?_,
    ?_⟩
  · intro q hq subscribers hseen
    rcases hrest q hq with rfl | hq
    · exact hnodup subscribers hseen
    · exact h.seen q hq subscribers hseen
  · intro q hq
    rcases hrest q hq with rfl | hq
    · rw [hnetwork]
      exact h.past p hmem
    · exact h.past q hq
  · intro frame hframe
    obtain ⟨hle, hmore⟩ := hunsent frame hframe
    obtain ⟨hq, hd⟩ := h.unsent frame hframe
    have hsum := hqueued frame
    refine ⟨by omega, fun client ↦ ?_⟩
    dsimp only
    rw [List.count_append, hd client, hmore client]
  · intro client frame hclient
    obtain ⟨hsub, hgone, hcount⟩ := h.owed client frame hclient
    have hsum := hqueued frame
    have hmore := howed client frame hclient
    refine ⟨hsub, hgone, ?_⟩
    dsimp only
    rw [List.count_append]
    omega
  · intro q hq subscribers hseen frame hframe client hclient
    rcases hrest q hq with rfl | hq
    · exact hhead subscribers hseen frame hframe client hclient
    · exact h.head q hq subscribers hseen frame hframe client hclient

/-- A pump ends that the list does not need, and that has no frame if anything is owed. -/
private theorem Once.erasePump {s : State} (h : Once s) {i : Nat} {p : Pump}
    (hget : s.pumps[i]? = some p) (hspare : s.subs = [] ∨ p.network ≠ s.network)
    (hqueue : s.owed = [] ∨ p.queue = []) : Once { s with pumps := s.pumps.eraseIdx i } := by
  obtain ⟨hperm, -⟩ := pumps_set hget p
  have hmem : ∀ q ∈ s.pumps.eraseIdx i, q ∈ s.pumps := fun q hq ↦
    hperm.mem_iff.mpr (List.mem_cons_of_mem _ hq)
  have hcountP : s.pumps.countP (·.network = s.network) =
      (s.pumps.eraseIdx i).countP (·.network = s.network) +
        if p.network = s.network then 1 else 0 := by
    rw [hperm.countP_eq, List.countP_cons]
    simp
  have hqueued : ∀ frame, s.queued frame =
      p.queue.count frame + State.queued { s with pumps := s.pumps.eraseIdx i } frame := by
    intro frame
    simp only [State.queued]
    rw [count_flatMap_of_perm hperm, List.flatMap_cons, List.count_append]
  have hmost := h.most
  simp only [State.pumping] at hmost
  refine ⟨h.subs, fun q hq ↦ h.seen q (hmem q hq), fun q hq ↦ h.past q (hmem q hq), h.spawns, ?_,
    ?_, ?_, ?_, fun q hq ↦ h.head q (hmem q hq)⟩
  · simp only [State.pumping]
    omega
  · intro hsubs
    have hleast := h.least hsubs
    rcases hspare with hempty | hother
    · exact absurd hempty hsubs
    · rw [if_neg hother] at hcountP
      simp only [State.pumping] at hleast ⊢
      omega
  · intro frame hframe
    obtain ⟨hq, hd⟩ := h.unsent frame hframe
    have hsum := hqueued frame
    exact ⟨by omega, hd⟩
  · intro client frame hclient
    obtain ⟨hsub, hgone, hcount⟩ := h.owed client frame hclient
    have hsum := hqueued frame
    rcases hqueue with hnone | hempty
    · rw [hnone] at hclient
      cases hclient
    · rw [hempty, List.count_nil] at hsum
      exact ⟨hsub, hgone, by dsimp only; omega⟩

private theorem Once.step {s : State} (h : Once s) {o : Op} (hsteady : Steady s o) :
    Once (step s o) := by
  cases o with
  | request client =>
    simp only [ChannelPumps.step]
    split
    · exact h
    · exact h.requests (filter_spawns_snoc _ rfl) s.channelSubs
  | proceed i =>
    simp only [ChannelPumps.step]
    split
    · exact h
    · next client network hget => exact h.requests ((filter_spawns hget rfl).2 _ rfl) _
    · next client network hget =>
      exact h.subscribe hget fun hempty ↦ hsteady hempty network (by rw [hget]; rfl)
    · next client hget => exact (h.leave client).requests (filter_spawns hget rfl).1 s.channelSubs
    · next network hget => exact h.spawn hget
  | unsubscribe client => exact h.requests (filter_spawns_snoc _ rfl) _
  | unregister client =>
    simp only [ChannelPumps.step]
    split
    · exact h
    · have hpending : ((if client ∈ s.channelSubs then s.pending ++ [.leave client]
          else s.pending).filter Pending.isSpawn).Perm (s.pending.filter Pending.isSpawn) := by
        split
        · exact filter_spawns_snoc _ rfl
        · exact .refl _
      have hleft := h.requests hpending s.channelSubs
      refine ⟨hleft.subs, hleft.seen, hleft.past, hleft.spawns, hleft.most, hleft.least,
        hleft.unsent, fun client' frame howed ↦ ?_, fun p hp subscribers hseen frame hframe client'
        howed ↦ h.head p hp subscribers hseen frame hframe client' (List.mem_filter.mp howed).1⟩
      obtain ⟨howed, hne⟩ := List.mem_filter.mp howed
      obtain ⟨hsub, hgone, hcount⟩ := h.owed client' frame howed
      refine ⟨hsub, fun hmem ↦ ?_, hcount⟩
      rcases List.mem_cons.mp hmem with heq | hmem
      · exact of_decide_eq_true hne heq
      · exact hgone hmem
  | restart =>
    obtain ⟨hempty, hspawns⟩ := hsteady
    have hnone : ∀ p ∈ s.pumps, ¬ (decide (p.network = s.network + 1)) = true := by
      intro p hp
      have := h.past p hp
      rw [decide_eq_true_eq]
      omega
    have hpumping : (ChannelPumps.step s .restart).pumping = 0 :=
      congrArg₂ (· + ·) (List.countP_eq_zero.mpr hnone) hspawns
    refine ⟨h.subs, h.seen, fun p hp ↦ Nat.le_succ_of_le (h.past p hp), ?_, ?_, ?_, h.unsent,
      h.owed, h.head⟩
    · intro network hmem
      exact absurd rfl (List.countP_eq_zero.mp hspawns _ hmem)
    · rw [hpumping]
      exact Nat.zero_le 1
    · exact fun hsubs ↦ absurd hempty hsubs
  | dispatch => exact h.dispatch hsteady.1 hsteady.2
  | look i =>
    simp only [ChannelPumps.step]
    split
    · next network queue hget =>
      split
      · next hempty =>
        refine h.erasePump hget (.inl hempty) (.inl ?_)
        rw [List.eq_nil_iff_forall_not_mem]
        rintro ⟨client, frame⟩ howed
        have hsub := (h.owed client frame howed).1
        rw [hempty] at hsub
        cases hsub
      · have hset := h.setPump hget ⟨network, some s.subs, queue⟩ rfl ?_ [] ?_ ?_ ?_
        · rw [List.append_nil] at hset
          exact hset
        · intro subscribers hseen
          cases hseen
          exact h.subs
        · exact fun frame _ ↦ ⟨le_rfl, fun _ ↦ rfl⟩
        · exact fun client frame _ ↦ Nat.zero_add _
        · intro subscribers hseen frame _ client howed
          cases hseen
          exact (h.owed client frame howed).1
    · exact h
  | deliver i =>
    simp only [ChannelPumps.step]
    split
    · next network subscribers frame rest hget =>
      obtain ⟨hperm, -⟩ := pumps_set hget ⟨network, none, rest⟩
      have hpump : (⟨network, some subscribers, frame :: rest⟩ : Pump) ∈ s.pumps :=
        hperm.mem_iff.mpr List.mem_cons_self
      have hnodup : (subscribers.filter (· ∉ s.gone)).Nodup :=
        (h.seen _ hpump subscribers rfl).filter _
      refine h.setPump hget ⟨network, none, rest⟩ rfl nofun _ ?_ ?_ nofun
      · intro frame' hframe'
        have hne : frame ≠ frame' :=
          (lt_of_lt_of_le (h.lt_frames hpump List.mem_cons_self) hframe').ne
        refine ⟨List.count_le_count_cons, fun client ↦ ?_⟩
        rw [count_map_pair hnodup, if_neg fun hboth ↦ hne hboth.1]
      · intro client frame' howed
        rw [count_map_pair hnodup, List.count_cons]
        dsimp only
        by_cases hframe : frame = frame'
        · subst hframe
          have hsaw := h.head _ hpump subscribers rfl frame rfl client howed
          have hgone := (h.owed client frame howed).2.1
          rw [if_pos ⟨rfl, List.mem_filter.mpr ⟨hsaw, decide_eq_true hgone⟩⟩]
          simp only [beq_self_eq_true, ↓reduceIte]
          omega
        · rw [if_neg fun hboth ↦ hframe hboth.1, if_neg (by simpa using hframe)]
          omega
    · exact h
  | closed i =>
    simp only [ChannelPumps.step]
    split
    · next network subscribers hget =>
      split
      · exact h
      · next hother => exact h.erasePump hget (.inr hother) (.inr rfl)
    · exact h

/-! ### Runs -/

/-- Every subscription has one pump: in every run in which a pump is started only where the network
has none, the network is restarted only where nobody is subscribed, and frames are dispatched only
where the pump that waits for them has seen every subscriber, the network has one pump whenever
somebody is subscribed, and a frame that was dispatched while a client was subscribed, which it has
been ever since, is delivered to it at most once, and once when no pump has it any more. -/
theorem frames_delivered_once {ops : List Op} (hops : AllSteps step Steady .start ops) :
    ∀ pre post, ops = pre ++ post →
      ((run step .start pre).subs ≠ [] → (run step .start pre).pumping = 1) ∧
      ∀ client frame, (client, frame) ∈ (run step .start pre).owed →
        (run step .start pre).delivered.count (client, frame) ≤ 1 ∧
        ((run step .start pre).queued frame = 0 →
          (run step .start pre).delivered.count (client, frame) = 1) := by
  intro pre post hpre
  have hstart : Once State.start :=
    ⟨List.nodup_nil, nofun, nofun, nofun, Nat.zero_le 1, fun hsubs ↦ absurd rfl hsubs,
      fun _ _ ↦ ⟨rfl, fun _ ↦ rfl⟩, nofun, nofun⟩
  have honce : Once (run step .start pre) :=
    forall_run_of_allSteps (fun s o hs hc ↦ hs.step hc) hstart hops pre post hpre
  refine ⟨honce.least, fun client frame howed ↦ ?_⟩
  have hcount := (honce.owed client frame howed).2.2
  constructor
  · omega
  · intro hqueued
    omega

/-- A client subscribes, a frame arrives, the client leaves, the pump ends, and it comes back. -/
def comeBack : List Op :=
  [.request 0, .proceed 0, .proceed 0, .proceed 0, .look 0, .dispatch, .deliver 0, .look 0,
    .unsubscribe 0, .proceed 0, .dispatch, .deliver 0, .look 0, .restart, .request 0, .proceed 0,
    .proceed 0, .proceed 0, .look 0, .dispatch, .deliver 0]

/-- The last frame is delivered once. -/
theorem third_frame_delivered_once :
    (0, 2) ∈ (run step .start comeBack).owed ∧ (run step .start comeBack).queued 2 = 0 ∧
      (run step .start comeBack).delivered.count (0, 2) = 1 := by
  have hsteady : AllSteps step Steady .start comeBack := by decide
  have howed : (0, 2) ∈ (run step .start comeBack).owed := by decide
  exact ⟨howed, by decide,
    ((frames_delivered_once hsteady comeBack [] rfl).2 0 2 howed).2 (by decide)⟩

/-- A client that leaves and comes back while its pump waits has two pumps and gets the frame twice;
one that was there when the network was restarted gets none; and one that joins another waits in
vain for the first frame. -/
theorem frames_doubled_and_lost :
    (let s := run step .start [.request 0, .proceed 0, .proceed 0, .proceed 0, .look 0,
      .unsubscribe 0, .proceed 0, .request 0, .proceed 0, .proceed 0, .proceed 0, .look 1,
      .dispatch, .deliver 0, .deliver 1]
    (0, 0) ∈ s.owed ∧ s.queued 0 = 0 ∧ s.delivered.count (0, 0) = 2) ∧
    (let s := run step .start [.request 0, .proceed 0, .proceed 0, .proceed 0, .look 0, .restart,
      .dispatch]
    (0, 0) ∈ s.owed ∧ s.queued 0 = 0 ∧ s.delivered.count (0, 0) = 0) ∧
    let s := run step .start [.request 0, .proceed 0, .proceed 0, .proceed 0, .look 0, .request 1,
      .proceed 0, .proceed 0, .dispatch, .deliver 0]
    (1, 0) ∈ s.owed ∧ s.queued 0 = 0 ∧ s.delivered.count (1, 0) = 0 := by
  decide

end MyOwnMesh.ChannelPumps
