import MyOwnMesh.Engine.Suspicion

/-!
# Nothing that a scan finds is left

The scans of the heartbeat and of the ICE watchdog collect what they find and go through it, with
waits in between. Sessions only go or stay meanwhile, and an epoch is never drawn again.
-/

namespace MyOwnMesh.Liveness

open Lib.Replay
open Reconnect (DropReason)
open Watch (Instant)

variable {link : Link} {now : Instant}

/-- Sessions that were there go or stay, suspects wait, and new sessions draw new epochs. -/
structure Later (s s' : Net) : Prop where
  epochs : s.nextEpoch ≤ s'.nextEpoch
  suspects : ∀ x ∈ s.suspects, x ∈ s'.suspects
  offline : s'.offline = s.offline
  entries : ∀ d link', s'.peers.lookup d = some link' → link'.epoch < s.nextEpoch →
    ∃ link, s.peers.lookup d = some link ∧ link.epoch = link'.epoch ∧ link.session = link'.session

namespace Later

variable {s s' s'' : Net} {d : String}

@[refl] theorem refl (s : Net) : Later s s :=
  ⟨le_rfl, fun _ hx ↦ hx, rfl, fun _ link' hlink' _ ↦ ⟨link', hlink', rfl, rfl⟩⟩

theorem trans (h : Later s s') (h' : Later s' s'') : Later s s'' where
  epochs := h.epochs.trans h'.epochs
  suspects x hx := h'.suspects x (h.suspects x hx)
  offline := h'.offline.trans h.offline
  entries d link'' hlink'' hold := by
    obtain ⟨link', hlink', hepoch', hsession'⟩ :=
      h'.entries d link'' hlink'' (hold.trans_le h.epochs)
    obtain ⟨link, hlink, hepoch, hsession⟩ := h.entries d link' hlink' (hepoch' ▸ hold)
    exact ⟨link, hlink, hepoch.trans hepoch', hsession.trans hsession'⟩

theorem touch (a : Touch) : Later s (s.touch d a) := by
  refine ⟨?_, ?_, ?_, ?_⟩
  · unfold Net.touch
    split <;> exact le_rfl
  · intro x hx
    simpa using hx
  · unfold Net.touch
    split <;> rfl
  · intro d' link' hlink' _
    rw [Net.lookup_touch] at hlink'
    split at hlink'
    · next heq =>
      subst heq
      obtain ⟨link, hlink, rfl⟩ := Option.map_eq_some_iff.mp hlink'
      exact ⟨link, hlink, (Link.touch_epoch _).symm, (Link.touch_session _).symm⟩
    · exact ⟨link', hlink', rfl, rfl⟩

theorem put (session : Bool) : Later s (s.put d session) := by
  refine ⟨Nat.le_succ _, fun _ hx ↦ hx, rfl, ?_⟩
  intro d' link' hlink' hold
  by_cases heq : d' = d
  · subst heq
    obtain rfl := Option.some.inj ((AList.lookup_insert s.peers).symm.trans hlink')
    exact absurd hold (lt_irrefl _)
  · exact ⟨link', by rwa [Net.put, AList.lookup_insert_ne heq] at hlink', rfl, rfl⟩

theorem dropPeer {expectedEpoch : Option Nat} {reason : DropReason} {cause : Option Cause} :
    Later s (s.dropPeer d expectedEpoch reason cause) := by
  unfold Net.dropPeer
  split
  · rfl
  · split
    · rfl
    · split
      · rfl
      · refine ⟨le_rfl, fun _ hx ↦ hx, rfl, ?_⟩
        intro d' link' hlink' _
        have hne : d' ≠ d := by
          rintro rfl
          simp at hlink'
        rw [AList.lookup_erase_ne hne] at hlink'
        exact ⟨link', hlink', rfl, rfl⟩

theorem condemn (cause : Cause) : Later s (s.condemn d cause) := by
  unfold Net.condemn
  split
  · rfl
  · have htouch : Later s (s.touch d (.suspect cause)) := touch _
    exact { htouch with }

theorem scanPeer {scan : Scan} {iceUp : String → Bool} :
    Later s (s.scanPeer scan now iceUp d) := by
  unfold Net.scanPeer
  split
  · rfl
  · split
    · rfl
    · next link _ _ cause _ =>
      have htouch : Later s (s.touch d (.suspect cause)) := touch _
      exact { htouch with suspects := fun x hx ↦ List.mem_append_left _ hx }

theorem ask {stamped : Bool} : Later s (s.ask d stamped) := by
  unfold Net.ask
  split
  · rfl
  · have htouch : Later s (s.touch d (.ask stamped)) := touch _
    exact { htouch with }

/-- Operations one after another. -/
theorem foldl {f : Net → String → Net} (hf : ∀ s d, Later s (f s d)) (todo : List String) :
    Later s (todo.foldl f s) := by
  induction todo generalizing s with
  | nil => rfl
  | cons d rest ih => exact (hf s d).trans ih

theorem renegotiateIce {force : Bool} {ice : IceState} {expectedEpoch : Option Nat} :
    Later s (s.renegotiateIce d force ice expectedEpoch) := by
  unfold Net.renegotiateIce
  split
  · rfl
  · split
    · rfl
    · split
      · rfl
      · split
        · exact touch _
        · split
          · rfl
          · split
            · exact touch _
            · rfl

theorem handled (h : Handled) : Later s (s.handled d h) := by
  cases h with
  | kept => rfl
  | refused reason => exact dropPeer
  | authenticated autoApprove =>
    show Later s (ite _ _ _)
    split
    · exact (touch _).trans (touch _)
    · exact touch _
  | approved => exact touch _

theorem handleTransportEvent {epoch : Nat} {event : TransportEvent} :
    Later s (s.handleTransportEvent d epoch event) := by
  unfold Net.handleTransportEvent
  split
  · rfl
  · split
    · rfl
    · cases event with
      | media => exact touch _
      | channelOpen =>
        have hbegun : Later s ((s.touch d .channelOpen).touch d .initiate) :=
          (touch _).trans (touch _)
        exact { hbegun with }
      | channelClosed evicted => exact dropPeer
      | application => exact touch _
      | handshake h => exact (touch _).trans (handled h)
      | ice state asked =>
        cases state with
        | connected => exact touch _
        | disconnected => exact touch _
        | failed =>
          show Later s (ite _ _ _)
          split
          · rfl
          · exact renegotiateIce
        | checking | other => rfl
      | pcClosed => exact dropPeer

/-- Every step but the one that takes up a suspect, and but for the network going. -/
theorem step {op : Op} (hreclaim : ∀ x, op ≠ .reclaim x) (honline : ∀ b, op ≠ .setOffline b) :
    Later s (step s op) := by
  cases op with
  | elapse | setRecovering | finishClose => exact { refl s with }
  | epochsElsewhere count =>
    exact { refl s with epochs := Nat.le_add_right _ _ }
  | setOffline b => exact absurd rfl (honline b)
  | sighted d =>
    show Later s (s.noteSightedWithoutDialing d)
    unfold Net.noteSightedWithoutDialing
    split
    · rfl
    · exact put false
  | ensurePeerSession d =>
    show Later s (s.ensurePeerSession d)
    unfold Net.ensurePeerSession
    split
    · rfl
    · split
      · rfl
      · exact { refl s with }
  | sessionOpened d opened =>
    show Later s (s.sessionOpened d opened)
    unfold Net.sessionOpened
    split
    · rfl
    · have hopening : Later s { s with opening := s.opening.erase d } := { refl s with }
      simp only
      split
      · exact hopening
      · exact hopening.trans (put true)
  | transport d epoch event => exact handleTransportEvent
  | approve | shelve | offer => exact touch _
  | renegotiateIce d force ice expectedEpoch => exact renegotiateIce
  | scan scan now iceUp =>
    show Later s (s.scanPeers scan now iceUp)
    unfold Net.scanPeers
    split
    · rfl
    · exact foldl (fun _ _ ↦ scanPeer) _
  | reclaim x => exact absurd rfl (hreclaim x)
  | wake => exact foldl (fun _ _ ↦ ask) _
  | probeAnswer p now =>
    show Later s (s.probeAnswer p now)
    have hremove : Later s { s with probes := s.probes.erase p } := { refl s with }
    unfold Net.probeAnswer
    split
    · rfl
    · simp only
      split
      · exact hremove
      · split
        · exact hremove.trans (condemn _)
        · exact hremove
  | handshakeWatchdog d due =>
    show Later s (s.handshakeWatchdog d due)
    have hremove : Later s { s with watchdogs := s.watchdogs.erase (d, due) } := { refl s with }
    unfold Net.handshakeWatchdog
    split
    · rfl
    · simp only
      split
      · exact hremove
      · split
        · exact hremove.trans (condemn _)
        · exact hremove
  | clearZombie d ice =>
    show Later s (s.clearStaleSessionIfZombie d ice)
    unfold Net.clearStaleSessionIfZombie
    split
    · rfl
    · split
      · exact condemn _
      · rfl
  | confirm d =>
    show Later s (s.confirmActiveSessionOnAnnounce d)
    unfold Net.confirmActiveSessionOnAnnounce
    split
    · rfl
    · split
      · exact ask
      · rfl
  | clearStuck d =>
    show Later s (s.clearStuckSession d)
    unfold Net.clearStuckSession
    split
    · rfl
    · split
      · exact condemn _
      · rfl
  | carryOut v =>
    show Later s (s.carryOut v)
    have hremove : Later s { s with verdicts := s.verdicts.erase v } := { refl s with }
    unfold Net.carryOut
    split
    · rfl
    · exact hremove.trans dropPeer
  | drop d expectedEpoch reason => exact dropPeer

end Later

/-- A session that was found for a cause: as long as it is there it waits among the suspects, and
a cause that does not count offline finds the host online. -/
structure Marked (d : String) (e : Nat) (cause : Cause) (s : Net) : Prop where
  old : e < s.nextEpoch
  online : cause = .heartbeat ∨ s.offline = false
  waits : ∀ link, s.peers.lookup d = some link → link.epoch = e →
    link.session = true ∧ ∃ x ∈ s.suspects, x.device = d ∧ x.epoch = e ∧ x.cause = cause

namespace Marked

variable {s s' : Net} {d : String} {e : Nat} {cause : Cause}

theorem later (h : Marked d e cause s) (hlater : Later s s') : Marked d e cause s' where
  old := h.old.trans_le hlater.epochs
  online := by
    rw [hlater.offline]
    exact h.online
  waits link' hlink' hepoch' := by
    obtain ⟨link, hlink, hepoch, hsession⟩ := hlater.entries d link' hlink' (hepoch' ▸ h.old)
    obtain ⟨hs, x, hx, hwaits⟩ := h.waits link hlink (hepoch.trans hepoch')
    exact ⟨hsession ▸ hs, x, hlater.suspects x hx, hwaits⟩

/-- A drop by the epoch of a session ends it. -/
theorem dropPeer (hinv : Inv s) (h : Marked d e cause s) (x : Suspect) (hx : x.device = d)
    (hxe : x.epoch = e) (reason : DropReason) (by' : Option Cause) :
    ∀ link, ((s.removeSuspect x).dropPeer x.device (some x.epoch) reason by').peers.lookup d =
      some link → link.epoch ≠ e := by
  subst hx hxe
  intro link hlink hepoch
  unfold Net.dropPeer at hlink
  split at hlink
  · next hclosing =>
    have hsession := (h.waits link hlink hepoch).1
    rw [hinv.gated x.device hclosing link hlink] at hsession
    exact absurd hsession (by simp)
  · split at hlink
    · next hnone => exact absurd (hnone.symm.trans hlink) (by simp)
    · next link' hlink' =>
      split at hlink
      · next hne =>
        obtain rfl := Option.some.inj (hlink'.symm.trans hlink)
        simp [hepoch] at hne
      · rw [AList.lookup_erase] at hlink
        exact absurd hlink (by simp)

theorem reclaim (hinv : Inv s) (h : Marked d e cause s) (x : Suspect) :
    Marked d e cause (s.reclaim x) := by
  obtain ⟨drop, hdrop⟩ : ∃ drop, drop =
      (s.removeSuspect x).dropPeer x.device (some x.epoch) x.cause.reason (some x.cause) :=
    ⟨_, rfl⟩
  have hlater : Later (s.removeSuspect x) drop := hdrop ▸ Later.dropPeer
  by_cases hours : x.device = d ∧ x.epoch = e ∧ x.cause = cause
  · obtain ⟨hd, he, hcause⟩ := hours
    have hgone : Marked d e cause drop :=
      { old := h.old.trans_le hlater.epochs
        online := by
          rw [hlater.offline]
          exact h.online
        waits := fun link hlink hepoch ↦
          absurd hepoch (h.dropPeer hinv x hd he _ _ link (hdrop ▸ hlink)) }
    unfold Net.reclaim
    split
    · exact h
    · simp only [← hdrop]
      split
      · next hconnect =>
        have honline : s.offline = false := h.online.resolve_left (by simp [← hcause, hconnect])
        split
        · exact hgone
        · rw [honline]
          simp only [Bool.false_eq_true, ↓reduceIte]
          split
          · exact hgone
          · refine ⟨h.old, .inr rfl, ?_⟩
            intro link hlink hepoch
            exact ⟨(h.waits link hlink hepoch).1, _, List.mem_cons_self, hd, he, hcause⟩
      · next iceUp hrestart =>
        have honline : s.offline = false := h.online.resolve_left (by simp [← hcause, hrestart])
        rw [honline]
        exact hgone
      · exact hgone
  · have hremove : Marked d e cause (s.removeSuspect x) := by
      refine { h with waits := ?_ }
      intro link hlink hepoch
      obtain ⟨hs, y, hy, hwaits⟩ := h.waits link hlink hepoch
      refine ⟨hs, y, (List.mem_erase_of_ne ?_).mpr hy, hwaits⟩
      rintro rfl
      exact hours hwaits
    have hdropped : Marked d e cause drop := hremove.later hlater
    unfold Net.reclaim
    split
    · exact h
    · simp only [← hdrop]
      split
      · split
        · exact hdropped
        · split
          · exact hremove
          · split
            · exact hdropped
            · refine { hremove with waits := ?_ }
              intro link hlink hepoch
              obtain ⟨hs, y, hy, hwaits⟩ := hremove.waits link hlink hepoch
              exact ⟨hs, y, List.mem_cons_of_mem _ hy, hwaits⟩
      · split
        · exact hremove
        · exact hdropped
      · exact hdropped

theorem step (hinv : Inv s) (h : Marked d e cause s) {op : Op}
    (hop : cause = .heartbeat ∨ op ≠ .setOffline true) : Marked d e cause (step s op) := by
  by_cases hreclaim : ∃ x, op = .reclaim x
  · obtain ⟨x, rfl⟩ := hreclaim
    exact h.reclaim hinv x
  · by_cases honline : ∃ b, op = .setOffline b
    · obtain ⟨b, rfl⟩ := honline
      refine { h with online := ?_ }
      refine hop.imp_right fun hb ↦ ?_
      show b = false
      simpa using hb
    · push Not at hreclaim honline
      exact h.later (Later.step hreclaim honline)

end Marked

/-- What a scan finds is marked. -/
theorem marked_scanPeers {s : Net} (hinv : Inv s) {scan : Scan} {iceUp : String → Bool}
    (hle : now ≤ s.clock) {d : String} (hlink : s.peers.lookup d = some link) {cause : Cause}
    (hfound : link.found now (iceUp d) scan = some cause)
    (honline : cause = .heartbeat ∨ s.offline = false) :
    Marked d link.epoch cause (s.scanPeers scan now iceUp) := by
  have hsession : link.session = true := by
    by_contra hs
    obtain ⟨hstatus, htier, hstarted, -⟩ := (hinv.kept d link hlink).placeholder (by simpa using hs)
    cases scan <;> simp [Link.found, Link.established, hstatus, htier, hstarted] at hfound
  have hkeys : d ∈ s.peers.keys := AList.mem_keys.mp (AList.lookup_isSome.mp (by rw [hlink]; rfl))
  have hmarks : ∀ todo : List String, ∀ s' : Net, s'.clock = s.clock → d ∈ todo →
      s'.peers.lookup d = some link → link.epoch < s'.nextEpoch → s'.offline = s.offline →
      Marked d link.epoch cause (todo.foldl (fun s' d ↦ s'.scanPeer scan now iceUp d) s') := by
    intro todo
    induction todo with
    | nil => simp
    | cons d' rest ih =>
      intro s' hclock hmem hlookup hold hoff
      by_cases heq : d' = d
      · subst heq
        have hlater : Later (s'.scanPeer scan now iceUp d')
            (rest.foldl (fun s' d ↦ s'.scanPeer scan now iceUp d)
              (s'.scanPeer scan now iceUp d')) :=
          Later.foldl (fun _ _ ↦ Later.scanPeer) rest
        apply Marked.later _ hlater
        have hfirst : Later s' (s'.scanPeer scan now iceUp d') := Later.scanPeer
        refine ⟨hold.trans_le hfirst.epochs, ?_, ?_⟩
        · rw [hfirst.offline, hoff]
          exact honline
        · intro link' hlink' hepoch'
          obtain ⟨link'', hlink'', -, hs⟩ :=
            hfirst.entries d' link' hlink' (hepoch' ▸ hold)
          obtain rfl := Option.some.inj (hlookup.symm.trans hlink'')
          refine ⟨hs ▸ hsession, ⟨d', link.epoch, cause, false⟩, ?_, rfl, rfl, rfl⟩
          unfold Net.scanPeer
          simp only [hlookup, hfound]
          exact List.mem_append_right _ List.mem_cons_self
      · apply ih
        · rw [Net.scanPeer_clock, hclock]
        · exact (List.mem_cons.mp hmem).resolve_left (Ne.symm heq)
        · rw [Net.lookup_scanPeer_ne (Ne.symm heq), hlookup]
        · exact hold.trans_le (Later.scanPeer (s := s')).epochs
        · rw [(Later.scanPeer (s := s')).offline, hoff]
  unfold Net.scanPeers
  rw [if_neg (Nat.not_lt.mpr hle)]
  exact hmarks _ s rfl hkeys hlink (hinv.epoch_lt hlink) rfl

/-- A session that a scan finds silent, stuck or not restored is gone as soon as no suspect waits,
whatever happens in between: the heartbeat drops it always, the two watchdogs of ICE unless the host
went offline. A session that took its place is another one. -/
theorem found_sessions_are_dropped {ops mid : List Op} {scan : Scan} {now : Instant}
    {iceUp : String → Bool} (hnow : now ≤ (run step {} ops).clock)
    (honline : scan = .heartbeat ∨
      (run step {} ops).offline = false ∧ ∀ op ∈ mid, op ≠ .setOffline true)
    (hdone : (run step {} (ops ++ .scan scan now iceUp :: mid)).suspects = [])
    {d : String} {link : Link} (hlink : (run step {} ops).peers.lookup d = some link)
    (hfound : (link.found now (iceUp d) scan).isSome = true) :
    ((run step {} (ops ++ .scan scan now iceUp :: mid)).peers.lookup d).map Link.epoch ≠
      some link.epoch := by
  have hinv : Inv (run step {} ops) :=
    run_invariant (I := Inv) (fun _ op h ↦ h.step op) Inv.start ops
  obtain ⟨cause, hcause⟩ := Option.isSome_iff_exists.mp hfound
  have hheart : scan = .heartbeat → cause = .heartbeat := by
    rintro rfl
    simp only [Link.found, Option.ite_none_right_eq_some] at hcause
    exact (Option.some.inj hcause.2).symm
  rw [run_append, run_cons] at hdone ⊢
  have hmarked : Marked d link.epoch cause (step (run step {} ops) (.scan scan now iceUp)) :=
    marked_scanPeers hinv hnow hlink hcause (honline.imp hheart And.left)
  have hend : Inv (run step (step (run step {} ops) (.scan scan now iceUp)) mid) ∧
      Marked d link.epoch cause (run step (step (run step {} ops) (.scan scan now iceUp)) mid) := by
    apply run_invariant_of_mem (I := fun s ↦ Inv s ∧ Marked d link.epoch cause s)
    · rintro s op hop ⟨hs, hm⟩
      exact ⟨hs.step op, hm.step hs (honline.imp hheart fun h ↦ h.2 op hop)⟩
    · exact ⟨hinv.step _, hmarked⟩
  intro hmap
  obtain ⟨link', hlink', hepoch⟩ := Option.map_eq_some_iff.mp hmap
  obtain ⟨-, x, hx, -⟩ := hend.2.waits link' hlink' hepoch
  rw [hdone] at hx
  exact absurd hx (by simp)

/-- What its entry keeps. -/
def silentLink : Link where
  epoch := 0
  session := true
  status := .active
  authenticated := true
  localApproveSent := true
  remoteApproveSeen := true
  lastRecvAt := some 0
  sessionStartedAt := some 0
  dataChannelOpen := true
  handshakeStartedAt := some 0

theorem silent_session_is_dropped :
    ((run step {} (fallSilent ++ .scan .heartbeat (nanos 90001) (fun _ ↦ true) ::
        [.drop "b" none .userLeft, .reclaim ⟨"a", 0, .heartbeat, false⟩])).peers.lookup "a").map
          Link.epoch ≠ some 0 :=
  @found_sessions_are_dropped fallSilent _ .heartbeat (nanos 90001) (fun _ ↦ true) (by decide)
    (.inl rfl) (by decide) "a" silentLink (by decide) (by decide)

end MyOwnMesh.Liveness
