import MyOwnMesh.Engine.Sessions
import MyOwnMesh.Topology

/-!
# The two ends of a link agree about shelving

`reevaluate_topology` and `shape_connections` of `ladder.rs:74–233`, `on_shelve` and `on_unshelve`
of `mod.rs:2819–2846`, for the two ends of one session that both admitted. A pass writes
`local_shelved` under the peer's lock and only then sends the frame. Passes of one end overlap:
besides the driver's there are those of the delayed drops (`governance.rs:1009–1014`,
`handshake.rs:142–166`), so a frame that is still to be sent is part of the state, and any of them
may be sent next. A send fails without ending the session when it times out
(`mod.rs:3054–3088`). Frames that were sent arrive in order.
-/

namespace MyOwnMesh

open Lib Lib.Replay

/-- The two ends of a session. -/
inductive Side where
  | a
  | b
  deriving DecidableEq, Repr

def Side.other : Side → Side
  | .a => .b
  | .b => .a

@[simp] theorem Side.other_other (side : Side) : side.other.other = side := by
  cases side <;> rfl

@[simp] theorem Side.other_ne (side : Side) : side.other ≠ side := by
  cases side <;> decide

/-- One end: what it keeps about the peer, whether it pinned it, the frames its passes still have
to send and those on the way to it. A frame is `true` for `Shelve` and `false` for `Unshelve`. -/
structure LinkEnd where
  peer : PeerState
  remoteShelved : Bool
  sticky : Bool
  unsent : List Bool
  inbox : List Bool

abbrev Link := Side → LinkEnd

/-- Both ends have just admitted the other. -/
def Link.admitted (sticky : Side → Bool) : Link := fun side ↦
  ⟨{ PeerState.fresh (some ⟨none, none⟩) with
      status := .active
      authenticated := true
      localApproveSent := true
      remoteApproveSeen := true }, false, sticky side, [], []⟩

/-- A pass, a send of one of the frames that are due, the arrival of a frame, and a pin set or
taken back. The pass finds the peer among the others that are connected. -/
inductive LinkOp where
  | reevaluate (side : Side) (mode : TopologyMode) (before after : List String)
  | send (side : Side) (i : Nat) (ok : Bool)
  | deliver (side : Side)
  | setSticky (side : Side) (sticky : Bool)

/-- `prunes` of each mode. -/
def TopologyMode.prunes : TopologyMode → Bool
  | .ring _ | .star _ | .hubs _ _ => true
  | .fullMesh => false

section

variable (P : Primitives) (id : Side → String)

/-- The pass at the peer; `ladder.rs:98–128`. -/
def LinkEnd.reevaluate (me peerId : String) (mode : TopologyMode) (activePeers : List String)
    (e : LinkEnd) : LinkEnd :=
  match selectPreferred P mode me activePeers with
  | none => e
  | some preferred =>
    let shouldBeShelved := !preferred.contains peerId && !e.sticky
    { e with
      peer := shelve shouldBeShelved e.peer
      unsent :=
        if e.peer.localShelved ≠ shouldBeShelved then e.unsent ++ [shouldBeShelved] else e.unsent }

/-- The shaping pass closes the link; `ladder.rs:151–179`. -/
def LinkEnd.prunes (me peerId : String) (mode : TopologyMode) (known : List String) (e : LinkEnd) :
    Bool :=
  mode.prunes && !mode.edge P me peerId known && (e.peer.localShelved && e.remoteShelved) &&
    e.peer.status == .shelved && !e.sticky

def Link.step (l : Link) : LinkOp → Link
  | .reevaluate side mode before after =>
    Function.update l side ((l side).reevaluate P (id side) (id side.other) mode
      (before ++ id side.other :: after))
  | .send side i ok =>
    match (l side).unsent[i]? with
    | none => l
    | some frame =>
      let sent := Function.update l side { l side with unsent := (l side).unsent.eraseIdx i }
      if ok then
        Function.update sent side.other
          { l side.other with inbox := (l side.other).inbox ++ [frame] }
      else sent
  | .deliver side =>
    match (l side).inbox with
    | [] => l
    | frame :: rest =>
      Function.update l side { l side with remoteShelved := frame, inbox := rest }
  | .setSticky side sticky => Function.update l side { l side with sticky := sticky }

end

/-- No frame is on the way, and none is due. -/
def Link.Quiet (l : Link) : Prop := ∀ side, (l side).unsent = [] ∧ (l side).inbox = []

/-- Frames are sent in the order of the passes, and no send fails. -/
def Told (_ : Link) : LinkOp → Prop
  | .send _ i ok => i = 0 ∧ ok = true
  | _ => True

instance (l : Link) : DecidablePred (Told l)
  | .send _ i ok => inferInstanceAs (Decidable (i = 0 ∧ ok = true))
  | .reevaluate _ _ _ _ | .deliver _ | .setSticky _ _ => .isTrue trivial

variable {P : Primitives} {id : Side → String}

/-- What an end will know once every frame of the other has arrived is what the other decided. -/
def Link.Caught (l : Link) : Prop := ∀ side,
  ((l side.other).inbox ++ (l side).unsent).getLastD (l side.other).remoteShelved =
    (l side).peer.localShelved

/-! ### One step -/

/-- What a pass does to an end: it decides, and has a frame to send if the decision is new. A pinned
peer is never shelved. -/
theorem LinkEnd.reevaluate_eq (P : Primitives) (e : LinkEnd) (me peerId : String)
    (mode : TopologyMode) (activePeers : List String) :
    ∃ shouldBeShelved, (e.sticky = true → shouldBeShelved = false) ∧
      e.reevaluate P me peerId mode activePeers =
        { e with
          peer := shelve shouldBeShelved e.peer
          unsent := if e.peer.localShelved ≠ shouldBeShelved then e.unsent ++ [shouldBeShelved]
            else e.unsent } := by
  obtain ⟨preferred, hpreferred⟩ := exists_selectPreferred P mode me activePeers
  refine ⟨!preferred.contains peerId && !e.sticky, fun hsticky ↦ ?_, ?_⟩
  · rw [hsticky, Bool.not_true, Bool.and_false]
  · rw [LinkEnd.reevaluate, hpreferred]

private theorem Side.eq_or_eq_other (side side' : Side) : side' = side ∨ side' = side.other := by
  cases side <;> cases side' <;> simp [Side.other]

/-- Two ends, one of which is this one. -/
private theorem Side.forall_iff (side : Side) {p : Side → Prop} :
    (∀ side', p side') ↔ p side ∧ p side.other := by
  constructor
  · exact fun h ↦ ⟨h side, h side.other⟩
  · rintro ⟨hthis, hother⟩ side'
    rcases side.eq_or_eq_other side' with rfl | rfl
    · exact hthis
    · exact hother

private theorem Link.Caught.step {l : Link} (h : l.Caught) {o : LinkOp} (htold : Told l o) :
    (l.step P id o).Caught := by
  cases o with
  | reevaluate side mode before after =>
    obtain ⟨should, -, heq⟩ := (l side).reevaluate_eq P (id side) (id side.other) mode
      (before ++ id side.other :: after)
    obtain ⟨hthis, hother⟩ := (Side.forall_iff side).mp h
    rw [Side.other_other] at hother
    refine (Side.forall_iff side).mpr ⟨?_, ?_⟩
    · simp only [Link.step, heq, Function.update_self, ne_eq, Side.other_ne, not_false_eq_true,
        Function.update_of_ne]
      split
      · rw [← List.append_assoc, List.getLastD_concat]
        rfl
      · next hsame =>
        rw [not_not] at hsame
        rw [hthis, hsame]
        rfl
    · simp only [Link.step, heq, Side.other_other, Function.update_self, ne_eq, Side.other_ne,
        not_false_eq_true, Function.update_of_ne]
      exact hother
  | send side i ok =>
    obtain ⟨rfl, rfl⟩ := htold
    obtain ⟨hthis, hother⟩ := (Side.forall_iff side).mp h
    rw [Side.other_other] at hother
    simp only [Link.step, ↓reduceIte]
    cases hunsent : (l side).unsent with
    | nil => exact h
    | cons frame rest =>
      rw [hunsent] at hthis
      refine (Side.forall_iff side).mpr ⟨?_, ?_⟩
      · simp only [List.getElem?_cons_zero, Function.update_self, ne_eq, (Side.other_ne side).symm,
          not_false_eq_true, Function.update_of_ne, List.eraseIdx_cons_zero, List.append_assoc,
          List.singleton_append]
        exact hthis
      · simp only [List.getElem?_cons_zero, Side.other_other, Function.update_self, ne_eq,
          (Side.other_ne side).symm, not_false_eq_true, Function.update_of_ne]
        exact hother
  | deliver side =>
    obtain ⟨hthis, hother⟩ := (Side.forall_iff side).mp h
    rw [Side.other_other] at hother
    simp only [Link.step]
    cases hinbox : (l side).inbox with
    | nil => exact h
    | cons frame rest =>
      rw [hinbox] at hother
      refine (Side.forall_iff side).mpr ⟨?_, ?_⟩
      · simp only [Function.update_self, ne_eq, Side.other_ne, not_false_eq_true,
          Function.update_of_ne]
        exact hthis
      · simp only [Side.other_other, Function.update_self, ne_eq, Side.other_ne, not_false_eq_true,
          Function.update_of_ne]
        rw [← hother, List.cons_append, List.getLastD_cons]
  | setSticky side sticky =>
    obtain ⟨hthis, hother⟩ := (Side.forall_iff side).mp h
    rw [Side.other_other] at hother
    refine (Side.forall_iff side).mpr ⟨?_, ?_⟩
    · simp only [Link.step, Function.update_self, ne_eq, Side.other_ne, not_false_eq_true,
        Function.update_of_ne]
      exact hthis
    · simp only [Link.step, Side.other_other, Function.update_self, ne_eq, Side.other_ne,
        not_false_eq_true, Function.update_of_ne]
      exact hother

/-- The op is a pass of this end. -/
def LinkOp.PassOf (side : Side) : LinkOp → Prop
  | .reevaluate side' _ _ _ => side' = side
  | _ => False

/-- Only its own passes change what an end decided. -/
private theorem localShelved_step {l : Link} {side : Side} {o : LinkOp} (h : ¬ o.PassOf side) :
    (l.step P id o side).peer.localShelved = (l side).peer.localShelved := by
  cases o with
  | reevaluate side' mode before after =>
    have hne : side ≠ side' := fun heq ↦ h heq.symm
    simp only [Link.step, Function.update_of_ne hne]
  | send side' i ok =>
    simp only [Link.step]
    cases (l side').unsent[i]? with
    | none => rfl
    | some frame =>
      rcases side'.eq_or_eq_other side with rfl | rfl
      · cases ok <;> simp [(Side.other_ne side).symm]
      · cases ok <;> simp
  | deliver side' =>
    simp only [Link.step]
    cases (l side').inbox with
    | nil => rfl
    | cons frame rest =>
      rcases side'.eq_or_eq_other side with rfl | rfl <;> simp
  | setSticky side' sticky =>
    rcases side'.eq_or_eq_other side with rfl | rfl <;> simp [Link.step]

private theorem localShelved_run {side : Side} {ops : List LinkOp} (l : Link)
    (h : ∀ o ∈ ops, ¬ o.PassOf side) :
    (run (Link.step P id) l ops side).peer.localShelved = (l side).peer.localShelved := by
  induction ops generalizing l with
  | nil => rfl
  | cons o rest ih =>
    rw [run_cons, ih _ fun o ho ↦ h o (List.mem_cons_of_mem _ ho),
      localShelved_step (h o List.mem_cons_self)]

/-! ### Runs -/

/-- Both ends agree about shelving: in every run in which frames are sent in the order of the passes
and no send fails, whenever no frame is on the way each end knows what the other decided. A shaping
pass that then closes the link does so where both ends decided to shelve it, and not where the other
end had pinned it at its own last pass. -/
theorem shelving_agreed {sticky : Side → Bool} {ops : List LinkOp}
    (hops : AllSteps (Link.step P id) Told (.admitted sticky) ops) :
    ∀ pre post, ops = pre ++ post → (run (Link.step P id) (.admitted sticky) pre).Quiet →
      ∀ side, (run (Link.step P id) (.admitted sticky) pre side).remoteShelved =
          (run (Link.step P id) (.admitted sticky) pre side.other).peer.localShelved ∧
        ∀ mode known, (run (Link.step P id) (.admitted sticky) pre side).prunes P (id side)
            (id side.other) mode known = true →
          (∀ side', (run (Link.step P id) (.admitted sticky) pre side').peer.localShelved = true) ∧
          ∀ first mode' before after rest,
            pre = first ++ .reevaluate side.other mode' before after :: rest →
            (∀ o ∈ rest, ¬ o.PassOf side.other) →
              (run (Link.step P id) (.admitted sticky) first side.other).sticky = false := by
  intro pre post hpre hquiet side
  have hcaught : (run (Link.step P id) (.admitted sticky) pre).Caught := by
    refine forall_run_of_allSteps (fun s o hs hc ↦ hs.step hc) ?_ hops pre post hpre
    intro side
    rfl
  have hagreed : ∀ side, (run (Link.step P id) (.admitted sticky) pre side).remoteShelved =
      (run (Link.step P id) (.admitted sticky) pre side.other).peer.localShelved := by
    intro side
    have h := hcaught side.other
    rw [Side.other_other, (hquiet side).2, (hquiet side.other).1] at h
    exact h
  refine ⟨hagreed side, fun mode known hprunes ↦ ?_⟩
  simp only [LinkEnd.prunes, Bool.and_eq_true] at hprunes
  obtain ⟨⟨⟨-, hlocal, hremote⟩, -⟩, -⟩ := hprunes
  rw [hagreed] at hremote
  refine ⟨(Side.forall_iff side).mpr ⟨hlocal, hremote⟩, ?_⟩
  rintro first mode' before after rest rfl hrest
  -- the pass decided against shelving, and nothing after it changed that
  by_contra hpinned
  rw [Bool.not_eq_false] at hpinned
  rw [run_append, run_cons, localShelved_run _ hrest] at hremote
  obtain ⟨should, hshould, heq⟩ := LinkEnd.reevaluate_eq P
    (run (Link.step P id) (.admitted sticky) first side.other) (id side.other)
    (id side.other.other) mode' (before ++ id side.other.other :: after)
  simp only [Link.step, Function.update_self, heq, shelve, hshould hpinned] at hremote
  cases hremote

/-- Two spokes of a star. -/
def spokeIds : Side → String
  | .a => "spoke-a"
  | .b => "spoke-b"

/-- Both spokes decide to shelve their link and tell each other. -/
def shelveSpokes : List LinkOp :=
  [.reevaluate .a (.star "hub") ["hub"] [], .send .a 0 true, .deliver .b,
    .reevaluate .b (.star "hub") ["hub"] [], .send .b 0 true, .deliver .a]

/-- Both spokes know, and either may close the link. -/
theorem spokes_agree :
    let l := run (Link.step seeded spokeIds) (.admitted fun _ ↦ false) shelveSpokes
    ((l .a).remoteShelved = true ∧ (l .a).remoteShelved = (l .b).peer.localShelved) ∧
      (l .a).prunes seeded "spoke-a" "spoke-b" (.star "hub") ["hub", "spoke-b", "spoke-a"] = true ∧
      ∀ side, (l side).peer.localShelved = true := by
  intro l
  have hquiet : l.Quiet := by
    intro side
    cases side <;> decide +kernel
  have htold :
      AllSteps (Link.step seeded spokeIds) Told (.admitted fun _ ↦ false) shelveSpokes := by
    decide +kernel
  have hagreed := shelving_agreed htold shelveSpokes [] rfl hquiet .a
  have hprunes : (l .a).prunes seeded "spoke-a" "spoke-b" (.star "hub")
      ["hub", "spoke-b", "spoke-a"] = true := by decide +kernel
  exact ⟨⟨by decide +kernel, hagreed.1⟩, hprunes, (hagreed.2 _ _ hprunes).1⟩

/-- The second spoke pins the first and unshelves it, but the frame is lost: no frame is on the way,
the first still takes the link for shelved on both ends and closes it. -/
theorem pinned_link_closed :
    let l := run (Link.step seeded spokeIds) (.admitted fun _ ↦ false)
      (shelveSpokes ++ [.setSticky .b true, .reevaluate .b (.star "hub") ["hub"] [],
        .send .b 0 false])
    ((l .a).unsent = [] ∧ (l .a).inbox = [] ∧ (l .b).unsent = [] ∧ (l .b).inbox = []) ∧
      (l .a).remoteShelved = true ∧ (l .b).peer.localShelved = false ∧ (l .b).sticky = true ∧
      (l .a).prunes seeded "spoke-a" "spoke-b" (.star "hub")
        ["hub", "spoke-b", "spoke-a"] = true := by
  decide +kernel

end MyOwnMesh
