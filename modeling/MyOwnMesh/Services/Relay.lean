import MyOwnMesh.Lib.Network
import MyOwnMesh.Engine.Routing

/-!
# The hosted frame relay

`crates/myownmesh-core/src/services/relay.rs`. A device that hosts a relay forwards the
envelopes it receives on the relay channel to other members, with the sender stamped in and the
destination cleared. It keeps neither a record of what it forwarded nor a hop count, so what a
frame does after its first hop is decided by who else hosts a relay.
-/

namespace MyOwnMesh.Relay

open Lib Lib.Replay Lib.Network

/-! ### One relay -/

/-- Who a frame is forwarded to; `relay.rs:61–92`. -/
def relayTargets (sender dst : String) (rostered reachable : List String) (maxFanout : UInt32) :
    List String :=
  if sender ∉ rostered then []
  else if dst ≠ "" then
    if dst ≠ sender ∧ dst ∈ rostered ∧ dst ∈ reachable then [dst] else []
  else
    let out := reachable.filter fun id ↦ id != sender && decide (id ∈ rostered)
    if 0 < maxFanout.toNat ∧ maxFanout.toNat < out.length then out.take maxFanout.toNat else out

/-- The forwarded envelope: the authenticated sender, no destination; `relay.rs:169–173`. -/
def forwarded (sender : String) (envelope : RelayEnvelope) : RelayEnvelope where
  dst := ""
  src := sender
  payload := envelope.payload

/-! ### A network of relays -/

/-- Members that all have each other in their rosters and reach each other, some of which host
a relay with unlimited fan-out. -/
structure RelayNetwork where
  members : List String
  nodup : members.Nodup
  relay : String → Bool
  rostered : String → List String
  rostered_all : ∀ m ∈ members, ∀ n ∈ members, n ∈ rostered m
  reachable : String → List String
  reachable_nodup : ∀ m ∈ members, (reachable m).Nodup
  reachable_iff : ∀ m ∈ members, ∀ n, n ∈ reachable m ↔ n ∈ members ∧ n ≠ m

/-- A frame arrives on the relay channel; `mod.rs:3032–3048`, `relay.rs:129–181`. The router
consumes the wrapper-shaped ones, the rest goes to the hosted relay. -/
def RelayNetwork.handle (net : RelayNetwork) : Handler String RelayEnvelope Unit :=
  fun me _ sender envelope ↦
    if (parseWrapper envelope.payload).isSome ∨ net.relay me = false then ((), [])
    else ((), (relayTargets sender envelope.dst (net.rostered me) (net.reachable me) 0).map
      (·, forwarded sender envelope))

/-- A member sends an envelope to a relay. -/
def sendTo (sender relay : String) (envelope : RelayEnvelope) :
    Net String RelayEnvelope Unit :=
  .start (fun _ ↦ ()) [⟨sender, relay, envelope⟩]

/-- What a network makes of one envelope, in every order of arrivals. -/
structure RelayNetwork.Contained (net : RelayNetwork) (sender relay : String)
    (envelope : RelayEnvelope) : Prop where
  /-- The forwards come to an end. -/
  finite : ∃ bound, ∀ is,
    (run (deliver net.handle) (sendTo sender relay envelope) is).posted.length ≤ bound
  /-- Nobody receives the frame twice. -/
  once : ∀ is m,
    ((run (deliver net.handle) (sendTo sender relay envelope) is).arrived.map
      Letter.target).count m ≤ 1
  /-- A directed frame is forwarded to its destination only. -/
  directed : envelope.dst ≠ "" → ∀ is,
    ∀ l ∈ (run (deliver net.handle) (sendTo sender relay envelope) is).posted,
      l.target = envelope.dst

/-- No relay is fed by another. A directed frame is for a device without a relay, or for one
the first relay does not forward to. A broadcast meets no third relay, or there is nobody but
the sender, the first relay and the third one, and the sender hosts none. -/
def RelayNetwork.Unfed (net : RelayNetwork) (sender relay dst : String) : Prop :=
  if dst ≠ "" then dst ∈ net.members → net.relay dst = true → dst = sender ∨ dst = relay
  else (∀ m ∈ net.members, net.relay m = true → m = sender ∨ m = relay) ∨
    net.relay sender = false ∧ ∃ q, ∀ m ∈ net.members, m = sender ∨ m = relay ∨ m = q

variable {net : RelayNetwork} {sender relay : String} {envelope : RelayEnvelope}

/-! ### What one relay forwards -/

/-- A broadcast goes to everyone but the relay and the sender. -/
theorem RelayNetwork.mem_targets_iff {me : String} (hme : me ∈ net.members)
    (hs : sender ∈ net.members) (t : String) :
    t ∈ relayTargets sender "" (net.rostered me) (net.reachable me) 0 ↔
      t ∈ net.members ∧ t ≠ me ∧ t ≠ sender := by
  have hrostered : sender ∈ net.rostered me := net.rostered_all me hme sender hs
  have hall : relayTargets sender "" (net.rostered me) (net.reachable me) 0 =
      (net.reachable me).filter fun id ↦ id != sender && decide (id ∈ net.rostered me) := by
    simp [relayTargets, hrostered]
  rw [hall, List.mem_filter, net.reachable_iff me hme, Bool.and_eq_true, bne_iff_ne,
    decide_eq_true_eq]
  constructor
  · rintro ⟨⟨hm, hne⟩, hns, -⟩
    exact ⟨hm, hne, hns⟩
  · rintro ⟨hm, hne, hns⟩
    exact ⟨⟨hm, hne⟩, hns, net.rostered_all me hme t hm⟩

/-- It goes to each of them once. -/
theorem RelayNetwork.nodup_targets {me : String} (hme : me ∈ net.members) (dst : String) :
    (relayTargets sender dst (net.rostered me) (net.reachable me) 0).Nodup := by
  unfold relayTargets
  split
  · exact List.nodup_nil
  · split
    · split
      · exact List.nodup_singleton dst
      · exact List.nodup_nil
    · simpa using (net.reachable_nodup me hme).filter _

/-- A directed frame goes to its destination or nowhere. -/
theorem RelayNetwork.directed_targets {me dst : String} (hme : me ∈ net.members)
    (hs : sender ∈ net.members) (hdst : dst ≠ "") :
    relayTargets sender dst (net.rostered me) (net.reachable me) 0 =
      if dst ∈ net.members ∧ dst ≠ me ∧ dst ≠ sender then [dst] else [] := by
  have hrostered : sender ∈ net.rostered me := net.rostered_all me hme sender hs
  simp only [relayTargets, hrostered, not_true_eq_false, ↓reduceIte, ne_eq, hdst,
    not_false_eq_true, net.reachable_iff me hme]
  by_cases hm : dst ∈ net.members
  · simp only [net.rostered_all me hme dst hm, hm, true_and]
    exact if_congr and_comm rfl rfl
  · simp [hm]

/-- The answer of a relay to a plain envelope. -/
theorem RelayNetwork.handle_relay {me : String} (sender : String) (hrelay : net.relay me = true)
    (hplain : parseWrapper envelope.payload = none) :
    (net.handle me () sender envelope).2 =
      (relayTargets sender envelope.dst (net.rostered me) (net.reachable me) 0).map
        (·, forwarded sender envelope) := by
  simp [RelayNetwork.handle, hrelay, hplain]

/-- A device without a relay forwards nothing. -/
theorem RelayNetwork.handle_plain {me : String} (hrelay : net.relay me = false) :
    (net.handle me () sender envelope).2 = [] := by
  simp [RelayNetwork.handle, hrelay]

/-! ### Where a frame stops -/

/-- The three promises in one state. -/
structure Fine (envelope : RelayEnvelope) (bound : Nat) (s : Net String RelayEnvelope Unit) :
    Prop where
  bounded : s.posted.length ≤ bound
  once : (s.arrived.map Letter.target).Nodup
  directed : envelope.dst ≠ "" → ∀ l ∈ s.posted, l.target = envelope.dst

/-- In every state is what was promised. -/
theorem RelayNetwork.Contained.of_fine (bound : Nat)
    (h : ∀ is, Fine envelope bound (run (deliver net.handle) (sendTo sender relay envelope) is)) :
    net.Contained sender relay envelope where
  finite := ⟨bound, fun is ↦ (h is).bounded⟩
  once := fun is m ↦ List.nodup_iff_count_le_one.mp (h is).once m
  directed := fun hdst is ↦ (h is).directed hdst

/-- Letters nobody answers, each to another device, keep the promises. -/
theorem fine_of_sterile {s : Net String RelayEnvelope Unit} (h : Sterile net.handle s)
    (hnodup : ((s.arrived ++ s.flight).map Letter.target).Nodup)
    (hdirected : envelope.dst ≠ "" → ∀ l ∈ s.posted, l.target = envelope.dst) (is : List Nat) :
    Fine envelope s.posted.length (run (deliver net.handle) s is) := by
  obtain ⟨hposted, hperm⟩ := h.run is
  refine ⟨by rw [hposted], ?_, by rwa [hposted]⟩
  have hall := (hperm.map Letter.target).nodup_iff.mpr hnodup
  rw [List.map_append] at hall
  exact hall.sublist (List.sublist_append_left _ _)

/-- Nothing has been forwarded yet. -/
theorem fine_sendTo (sender relay : String) (envelope : RelayEnvelope) (bound : Nat) :
    Fine envelope bound (sendTo sender relay envelope) where
  bounded := Nat.zero_le _
  once := List.nodup_nil
  directed := fun _ l hl ↦ by cases hl

/-- The network after the first relay has forwarded the frame. -/
def RelayNetwork.fanned (net : RelayNetwork) (sender relay : String) (envelope : RelayEnvelope) :
    Net String RelayEnvelope Unit :=
  (sendTo sender relay envelope).arrive net.handle [] ⟨sender, relay, envelope⟩ []

/-- What the first relay posts. -/
theorem RelayNetwork.fanned_eq (sender : String) (hrelay : net.relay relay = true)
    (hplain : parseWrapper envelope.payload = none) :
    (net.fanned sender relay envelope).arrived = [⟨sender, relay, envelope⟩] ∧
    (net.fanned sender relay envelope).flight =
      (relayTargets sender envelope.dst (net.rostered relay) (net.reachable relay) 0).map
        (⟨relay, ·, forwarded sender envelope⟩) ∧
    (net.fanned sender relay envelope).posted =
      (relayTargets sender envelope.dst (net.rostered relay) (net.reachable relay) 0).map
        (⟨relay, ·, forwarded sender envelope⟩) := by
  have hanswer := net.handle_relay sender hrelay hplain
  refine ⟨rfl, ?_, ?_⟩
  · simp [RelayNetwork.fanned, Net.arrive, sendTo, Net.start, letters, hanswer]
  · simp [RelayNetwork.fanned, Net.arrive, sendTo, Net.start, letters, hanswer]

/-- No device receives both the first frame and a forward of it, or two forwards. -/
theorem RelayNetwork.nodup_fanned (hr : relay ∈ net.members) (hs : sender ∈ net.members)
    (hrelay : net.relay relay = true) (hplain : parseWrapper envelope.payload = none) :
    (((net.fanned sender relay envelope).arrived ++
      (net.fanned sender relay envelope).flight).map Letter.target).Nodup := by
  obtain ⟨harrived, hflight, -⟩ := net.fanned_eq sender hrelay hplain
  rw [harrived, hflight]
  simp only [List.singleton_append, List.map_cons, List.map_map, Function.comp_def, List.map_id',
    List.nodup_cons]
  refine ⟨fun hmem ↦ ?_, net.nodup_targets hr envelope.dst⟩
  by_cases hdst : envelope.dst = ""
  · rw [hdst, net.mem_targets_iff hr hs] at hmem
    exact hmem.2.1 rfl
  · rw [net.directed_targets hr hs hdst] at hmem
    split at hmem
    · next hto => exact hto.2.1 (List.mem_singleton.mp hmem).symm
    · cases hmem

/-- When the first forwards reach no relay, the frame stops there. -/
theorem RelayNetwork.contained_of_sterile (hr : relay ∈ net.members) (hs : sender ∈ net.members)
    (hrelay : net.relay relay = true) (hplain : parseWrapper envelope.payload = none)
    (hleaf : ∀ t ∈ relayTargets sender envelope.dst (net.rostered relay) (net.reachable relay) 0,
      net.relay t = false) : net.Contained sender relay envelope := by
  obtain ⟨-, hflight, hposted⟩ := net.fanned_eq sender hrelay hplain
  have hsterile : Sterile net.handle (net.fanned sender relay envelope) := by
    intro l hl st
    rw [hflight] at hl
    obtain ⟨t, ht, rfl⟩ := List.mem_map.mp hl
    exact net.handle_plain (hleaf t ht)
  refine .of_fine (net.fanned sender relay envelope).posted.length fun is ↦ ?_
  obtain hstay | ⟨js, hgo⟩ := run_of_lone net.handle (s := sendTo sender relay envelope) rfl is
  · rw [hstay]
    exact fine_sendTo sender relay envelope _
  · rw [hgo]
    refine fine_of_sterile hsterile (net.nodup_fanned hr hs hrelay hplain) (fun hdst l hl ↦ ?_) js
    rw [hposted, net.directed_targets hr hs hdst] at hl
    split at hl
    · simp only [List.map_cons, List.map_nil, List.mem_singleton] at hl
      rw [hl]
    · cases hl

/-- A second relay that is the only other member hands the frame back to the sender, and there
it stops. -/
theorem RelayNetwork.contained_of_three (hr : relay ∈ net.members) (hs : sender ∈ net.members)
    (hrelay : net.relay relay = true) (hplain : parseWrapper envelope.payload = none)
    (hdst : envelope.dst = "") (hsender : net.relay sender = false) {q : String}
    (hall : ∀ m ∈ net.members, m = sender ∨ m = relay ∨ m = q) :
    net.Contained sender relay envelope := by
  obtain ⟨harrived, hflight, hposted⟩ := net.fanned_eq sender hrelay hplain
  rw [hdst] at hflight hposted
  have honly : ∀ t ∈ relayTargets sender "" (net.rostered relay) (net.reachable relay) 0,
      t = q := by
    intro t ht
    obtain ⟨hm, hne, hns⟩ := (net.mem_targets_iff hr hs t).mp ht
    exact ((hall t hm).resolve_left hns).resolve_left hne
  by_cases hleaf : net.relay q = true ∧
      q ∈ relayTargets sender "" (net.rostered relay) (net.reachable relay) 0
  · obtain ⟨hq, hmem⟩ := hleaf
    obtain ⟨hqm, hqr, hqs⟩ := (net.mem_targets_iff hr hs q).mp hmem
    have hone : relayTargets sender "" (net.rostered relay) (net.reachable relay) 0 = [q] :=
      List.perm_singleton.mp ((List.perm_ext_iff_of_nodup (net.nodup_targets hr "")
        (List.nodup_singleton q)).mpr fun t ↦
          ⟨fun ht ↦ List.mem_singleton.mpr (honly t ht), fun ht ↦ List.mem_singleton.mp ht ▸ hmem⟩)
    rw [hone] at hflight hposted
    -- The second relay answers with frames for the sender.
    have hplain' : parseWrapper (forwarded sender envelope).payload = none := hplain
    have hanswer := net.handle_relay relay hq hplain'
    let back := (net.fanned sender relay envelope).arrive net.handle []
      ⟨relay, q, forwarded sender envelope⟩ []
    have hback : back.flight =
        (relayTargets relay "" (net.rostered q) (net.reachable q) 0).map
          (⟨q, ·, forwarded relay (forwarded sender envelope)⟩) := by
      have hletters : back.flight =
          letters q (net.handle q () relay (forwarded sender envelope)).2 := rfl
      rw [hletters, hanswer]
      simp [letters, forwarded]
    have hsterile : Sterile net.handle back := by
      intro l hl st
      rw [hback] at hl
      obtain ⟨t, ht, rfl⟩ := List.mem_map.mp hl
      obtain ⟨hm, hne, hnr⟩ := (net.mem_targets_iff hqm hr t).mp ht
      obtain rfl : t = sender := (hall t hm).resolve_right fun h ↦ h.elim hnr hne
      exact net.handle_plain hsender
    have hnodup : ((back.arrived ++ back.flight).map Letter.target).Nodup := by
      have harr : back.arrived = [⟨sender, relay, envelope⟩,
          ⟨relay, q, forwarded sender envelope⟩] := by simp [back, Net.arrive, harrived]
      rw [harr, hback]
      simp only [List.cons_append, List.nil_append, List.map_cons, List.map_map,
        Function.comp_def, List.map_id', List.nodup_cons, List.mem_cons, not_or,
        net.mem_targets_iff hqm hr]
      exact ⟨⟨hqr.symm, fun h ↦ h.2.2 rfl⟩, fun h ↦ h.2.1 rfl, net.nodup_targets hqm ""⟩
    refine .of_fine back.posted.length fun is ↦ ?_
    obtain hstay | ⟨js, hgo⟩ := run_of_lone net.handle (s := sendTo sender relay envelope) rfl is
    · rw [hstay]
      exact fine_sendTo sender relay envelope _
    rw [hgo]
    obtain hstay | ⟨ks, hgo'⟩ := run_of_lone net.handle
      (s := net.fanned sender relay envelope) hflight js
    · have hrun : run (deliver net.handle) ((sendTo sender relay envelope).arrive net.handle []
          ⟨sender, relay, envelope⟩ []) js = net.fanned sender relay envelope := hstay
      rw [hrun]
      refine ⟨?_, ?_, fun hno ↦ absurd hdst hno⟩
      · simp [back, Net.arrive]
      · rw [harrived]
        exact List.nodup_singleton _
    · have hrun : run (deliver net.handle) ((sendTo sender relay envelope).arrive net.handle []
          ⟨sender, relay, envelope⟩ []) js = run (deliver net.handle) back ks := hgo'
      rw [hrun]
      exact fine_of_sterile hsterile hnodup (fun hno ↦ absurd hdst hno) ks
  · refine net.contained_of_sterile hr hs hrelay hplain fun t ht ↦ ?_
    rw [hdst] at ht
    obtain rfl := honly t ht
    simpa [ht] using hleaf

/-! ### How a frame gets out of hand -/

/-- A letter to a relay puts a forward in flight to every other member. -/
theorem RelayNetwork.exists_forward (net : RelayNetwork) {s : Net String RelayEnvelope Unit}
    {me carrier : String} {e : RelayEnvelope}
    (hl : (⟨carrier, me, e⟩ : Letter String RelayEnvelope) ∈ s.flight)
    (hme : me ∈ net.members) (hc : carrier ∈ net.members) (hrelay : net.relay me = true)
    (hplain : parseWrapper e.payload = none) (hdst : e.dst = "") :
    ∃ i, (deliver net.handle s i).arrived = s.arrived ++ [⟨carrier, me, e⟩] ∧
      (∀ t ∈ net.members, t ≠ me → t ≠ carrier →
        (⟨me, t, forwarded carrier e⟩ : Letter String RelayEnvelope) ∈
          (deliver net.handle s i).flight ∧
        (⟨me, t, forwarded carrier e⟩ : Letter String RelayEnvelope) ∈
          (deliver net.handle s i).posted) ∧
      ∀ x ∈ s.flight, x ≠ ⟨carrier, me, e⟩ → x ∈ (deliver net.handle s i).flight := by
  obtain ⟨i, harrived, hanswers, hothers⟩ := exists_deliver net.handle hl
  refine ⟨i, harrived, fun t ht hne hns ↦ hanswers (t, forwarded carrier e) ?_, hothers⟩
  have hanswer := net.handle_relay carrier hrelay hplain
  rw [hdst] at hanswer
  have hmem : t ∈ relayTargets carrier "" (net.rostered me) (net.reachable me) 0 :=
    (net.mem_targets_iff hme hc t).mpr ⟨ht, hne, hns⟩
  simp only [hanswer]
  exact List.mem_map.mpr ⟨t, hmem, rfl⟩

/-- A directed frame for a relay is forwarded to the sender as well. -/
theorem RelayNetwork.not_contained_of_directed (hr : relay ∈ net.members)
    (hs : sender ∈ net.members) (hne : sender ≠ relay) (hrelay : net.relay relay = true)
    (hplain : parseWrapper envelope.payload = none) (hdst : envelope.dst ≠ "")
    (hd : envelope.dst ∈ net.members) (hdrelay : net.relay envelope.dst = true)
    (hds : envelope.dst ≠ sender) (hdr : envelope.dst ≠ relay) :
    ¬ net.Contained sender relay envelope := by
  intro h
  obtain ⟨-, hflight, -⟩ := net.fanned_eq sender hrelay hplain
  rw [net.directed_targets hr hs hdst, if_pos ⟨hd, hdr, hds⟩] at hflight
  obtain ⟨i, -, hposts, -⟩ := net.exists_forward
    (s := net.fanned sender relay envelope) (e := forwarded sender envelope)
    (by rw [hflight]; exact List.mem_singleton_self _) hd hr hdrelay hplain rfl
  have hback := (hposts sender hs hds.symm hne).2
  exact hds (h.directed hdst [0, i] _ hback).symm

/-- A broadcast that meets a third relay comes back to the first relay through the sender, or
reaches a fourth member twice. -/
theorem RelayNetwork.not_contained_of_broadcast (hr : relay ∈ net.members)
    (hs : sender ∈ net.members) (hne : sender ≠ relay) (hrelay : net.relay relay = true)
    (hplain : parseWrapper envelope.payload = none) (hdst : envelope.dst = "") {q : String}
    (hq : q ∈ net.members) (hqrelay : net.relay q = true) (hqs : q ≠ sender) (hqr : q ≠ relay)
    (hmore : net.relay sender = true ∨
      ∃ x ∈ net.members, x ≠ sender ∧ x ≠ relay ∧ x ≠ q) :
    ¬ net.Contained sender relay envelope := by
  intro h
  -- The first relay forwards to everyone but the sender.
  obtain ⟨i, hfirst, hposts, -⟩ := net.exists_forward (s := sendTo sender relay envelope)
    (List.mem_singleton_self _) hr hs hrelay hplain hdst
  rcases hmore with hsrelay | ⟨x, hx, hxs, hxr, hxq⟩
  · obtain ⟨j, hsecond, hposts, -⟩ := net.exists_forward (hposts q hq hqr hqs).1 hq hr hqrelay
      hplain rfl
    obtain ⟨k, hthird, hposts, -⟩ := net.exists_forward (hposts sender hs hqs.symm hne).1 hs hq
      hsrelay hplain rfl
    obtain ⟨n, hlast, -⟩ := exists_deliver net.handle (hposts relay hr hne.symm hqr.symm).1
    have htwice := h.once [i, j, k, n] relay
    rw [run_cons, run_cons, run_cons, run_cons, run_nil, hlast, hthird, hsecond, hfirst] at htwice
    simp [sendTo, Net.start, List.count_cons] at htwice
  · obtain ⟨j, hsecond, -, hkeep⟩ := exists_deliver net.handle (hposts x hx hxr hxs).1
    have hqletter := hkeep _ (hposts q hq hqr hqs).1 fun heq ↦ hxq (congrArg Letter.target heq).symm
    obtain ⟨k, hthird, hposts, -⟩ := net.exists_forward hqletter hq hr hqrelay hplain rfl
    obtain ⟨n, hlast, -⟩ := exists_deliver net.handle (hposts x hx hxq hxr).1
    have htwice := h.once [i, j, k, n] x
    rw [run_cons, run_cons, run_cons, run_cons, run_nil, hlast, hthird, hsecond, hfirst] at htwice
    simp [sendTo, Net.start, List.count_cons] at htwice
    omega

/-! ### The law -/

/-- In every network of mutually reachable rostered members, one plain envelope that a member
sends to a relay is forwarded finitely often, received at most once by everyone and, when it is
directed, forwarded to its destination only, if and only if no relay is fed by another. -/
theorem relay_contained_iff (net : RelayNetwork) {sender relay : String}
    {envelope : RelayEnvelope} (hs : sender ∈ net.members) (hr : relay ∈ net.members)
    (hne : sender ≠ relay) (hrelay : net.relay relay = true)
    (hplain : parseWrapper envelope.payload = none) :
    net.Contained sender relay envelope ↔ net.Unfed sender relay envelope.dst := by
  unfold RelayNetwork.Unfed
  by_cases hdst : envelope.dst = ""
  · rw [if_neg (not_not.mpr hdst)]
    constructor
    · intro h
      by_contra hfed
      rw [not_or, not_and_or] at hfed
      obtain ⟨hthird, hmore⟩ := hfed
      push Not at hthird
      obtain ⟨q, hq, hqrelay, hqs, hqr⟩ := hthird
      refine net.not_contained_of_broadcast hr hs hne hrelay hplain hdst hq hqrelay hqs hqr ?_ h
      refine hmore.imp (by simp) fun hothers ↦ ?_
      push Not at hothers
      obtain ⟨x, hx, hxs, hxr, hxq⟩ := hothers q
      exact ⟨x, hx, hxs, hxr, hxq⟩
    · rintro (hnone | ⟨hsender, q, hall⟩)
      · refine net.contained_of_sterile hr hs hrelay hplain fun t ht ↦ ?_
        rw [hdst] at ht
        obtain ⟨hm, htr, hts⟩ := (net.mem_targets_iff hr hs t).mp ht
        by_contra hon
        exact (hnone t hm (by simpa using hon)).elim hts htr
      · exact net.contained_of_three hr hs hrelay hplain hdst hsender hall
  · rw [if_pos hdst]
    constructor
    · intro h hd hdrelay
      by_contra hto
      rw [not_or] at hto
      exact net.not_contained_of_directed hr hs hne hrelay hplain hdst hd hdrelay hto.1 hto.2 h
    · intro h
      refine net.contained_of_sterile hr hs hrelay hplain fun t ht ↦ ?_
      rw [net.directed_targets hr hs hdst] at ht
      split at ht
      · next hto =>
        rw [List.mem_singleton.mp ht]
        by_contra hon
        exact (h hto.1 (by simpa using hon)).elim hto.2.2 hto.2.1
      · cases ht

/-- Four devices, of which those with these names host a relay. -/
def fourDevices (relays : List String) : RelayNetwork where
  members := ["a", "b", "r", "s"]
  nodup := by decide
  relay := fun m ↦ m ∈ relays
  rostered := fun _ ↦ ["a", "b", "r", "s"]
  rostered_all := by simp
  reachable := fun m ↦ ["a", "b", "r", "s"].filter (· != m)
  reachable_nodup := fun m _ ↦ List.Nodup.filter _ (by decide)
  reachable_iff := by simp

/-- A plain envelope. -/
def note (dst : String) : RelayEnvelope := ⟨dst, "", .string "hi"⟩

/-- With one relay a broadcast reaches everyone once. -/
theorem lone_relay_contained : (fourDevices ["r"]).Contained "a" "r" (note "") := by
  refine (relay_contained_iff _ ?_ ?_ ?_ ?_ rfl).mpr ?_
  · decide
  · decide
  · decide
  · decide
  · refine .inl fun m _ hm ↦ .inr ?_
    simpa [fourDevices] using hm

/-- A frame for a device that hosts a relay itself is forwarded to everyone: with two relays no
network keeps the three promises for every envelope. -/
theorem directed_frame_leaks :
    ¬ ∀ (net : RelayNetwork) (sender relay : String) (envelope : RelayEnvelope),
      sender ∈ net.members → relay ∈ net.members → sender ≠ relay → net.relay relay = true →
      parseWrapper envelope.payload = none → net.Contained sender relay envelope := by
  intro hall
  have hc := hall (fourDevices ["r", "s"]) "a" "r" (note "s") (by decide) (by decide) (by decide)
    (by decide) rfl
  have hleak := hc.directed (by decide) [0, 0] ⟨"s", "a", forwarded "r" (forwarded "a" (note "s"))⟩
    (by simp [fourDevices, sendTo, run, deliver, Net.arrive, Net.start, letters,
      RelayNetwork.handle, note, parseWrapper, Value.get?, relayTargets, forwarded])
  revert hleak
  decide

end MyOwnMesh.Relay
