import MyOwnMesh.Engine.Liveness

/-!
# The grounds of the watchers

A watcher that drops a session suspected it before, while it lived, and had grounds in what the
session had lived through by then; only where it drops by the device alone, the session may be one
that took the place of the suspected one. The invariant ties the registers of every entry to the
notes.
-/

namespace MyOwnMesh.Liveness

open Lib.Replay Lib.Trace
open Reconnect (DropReason)
open Watch (Instant)

variable {link : Link} {story : List (Instant × Kind)} {now : Instant}

/-! ### The invariant -/

/-- The session spoke and was asked for a sign of life. -/
def Asked (story : List (Instant × Kind)) (due : Instant) : Prop :=
  (∃ x ∈ story, IsFrame x) ∧ ∃ t, (t, .asked) ∈ story ∧ t + nanos wakeProbeDelayMs ≤ due

/-- A session was suspected, and the device has it still or has got a new one since. -/
def Charged (trace : List Note) (peers : AList fun _ : String ↦ Link) (d : String) (epoch : Nat)
    (cause : Cause) : Prop :=
  ∃ t past rest, trace = past ++ ⟨t, d, epoch, .suspected cause⟩ :: rest ∧
    ∀ link, peers.lookup d = some link → link.epoch = epoch ∨ storyOf past d link.epoch = []

structure Inv (s : Net) : Prop where
  kept : ∀ d link, s.peers.lookup d = some link → link.Kept (s.story d link.epoch)
  fresh : ∀ n ∈ s.trace, n.epoch < s.nextEpoch
  gated : ∀ d ∈ s.closing, ∀ link, s.peers.lookup d = some link → link.session = false
  suspects : ∀ x ∈ s.suspects, Charged s.trace s.peers x.device x.epoch x.cause
  verdicts : ∀ v ∈ s.verdicts, Charged s.trace s.peers v.device v.epoch v.cause
  probes : ∀ p ∈ s.probes, Asked (s.story p.device p.epoch) p.due
  grounded : Backed Grounded s.trace

namespace Inv

variable {s : Net}

theorem start : Inv {} where
  kept d link h := by simp at h
  fresh := by simp
  gated := by simp
  suspects := by simp
  verdicts := by simp
  probes := by simp
  grounded := Backed.nil

theorem epoch_lt (h : Inv s) {d : String} (hlink : s.peers.lookup d = some link) :
    link.epoch < s.nextEpoch := by
  obtain ⟨x, hx⟩ := List.exists_mem_of_ne_nil _ (h.kept d link hlink).alive.1
  exact h.fresh _ (mem_storyOf.mp hx)

/-- What is charged goes on being charged while the trace grows and sessions stay or are new. -/
theorem charged (h : Inv s) {more : List Note} {peers : AList fun _ : String ↦ Link}
    (hpeers : ∀ d link', peers.lookup d = some link' →
      (∃ link, s.peers.lookup d = some link ∧ link.epoch = link'.epoch) ∨
        s.nextEpoch ≤ link'.epoch) {d : String} {epoch : Nat} {cause : Cause}
    (hcharged : Charged s.trace s.peers d epoch cause) :
    Charged (s.trace ++ more) peers d epoch cause := by
  obtain ⟨t, past, rest, htrace, hnow⟩ := hcharged
  refine ⟨t, past, rest ++ more, by simp [htrace], fun link' hlink' ↦ ?_⟩
  rcases hpeers d link' hlink' with ⟨link, hlink, hepoch⟩ | hnew
  · rw [← hepoch]
    exact hnow link hlink
  · refine .inr (storyOf_of_ne fun n hn _ ↦ ?_)
    have hold : n.epoch < s.nextEpoch := h.fresh n (by simp [htrace, hn])
    exact (hold.trans_le hnew).ne

/-- Who is asked goes on being asked while the trace grows. -/
theorem asked (h : Inv s) (more : List Note) :
    ∀ p ∈ s.probes, Asked (storyOf (s.trace ++ more) p.device p.epoch) p.due := by
  intro p hp
  obtain ⟨hspoke, t, ht, hdue⟩ := h.probes p hp
  rw [storyOf_append]
  exact ⟨exists_mem_append hspoke, t, List.mem_append_left _ ht, hdue⟩

theorem touch (h : Inv s) {d : String} {a : Touch}
    (ha : ∀ link, s.peers.lookup d = some link → a.Fits (s.story d link.epoch) s.clock link) :
    Inv (s.touch d a) := by
  unfold Net.touch
  split
  · exact h
  · next link hlink =>
    have hkept := h.kept d link hlink
    have hfits := ha link hlink
    obtain ⟨notes, hnotes⟩ : ∃ notes, notes = ((link.touch s.clock a).2.map fun kind ↦
        Note.mk s.clock d link.epoch kind).toList := ⟨_, rfl⟩
    have habout : ∀ n ∈ notes, n.device = d ∧ n.epoch = link.epoch := by
      rw [hnotes]
      cases (link.touch s.clock a).2 <;> simp
    have hown : storyOf notes d link.epoch =
        ((link.touch s.clock a).2.map fun kind ↦ (s.clock, kind)).toList := by
      rw [hnotes]
      cases (link.touch s.clock a).2 <;> simp [storyOf]
    rw [← hnotes]
    have hpeers : ∀ d' link', (s.peers.insert d (link.touch s.clock a).1).lookup d' = some link' →
        (∃ link, s.peers.lookup d' = some link ∧ link.epoch = link'.epoch) ∨
          s.nextEpoch ≤ link'.epoch := by
      intro d' link' hlookup
      by_cases hd : d' = d
      · subst hd
        obtain rfl : (link.touch s.clock a).1 = link' := by
          simpa [AList.lookup_insert] using hlookup
        exact .inl ⟨link, hlink, (Link.touch_epoch _).symm⟩
      · rw [AList.lookup_insert_ne hd] at hlookup
        exact .inl ⟨link', hlookup, rfl⟩
    constructor
    · intro d' link' hlookup
      show link'.Kept (storyOf (s.trace ++ notes) d' link'.epoch)
      rw [storyOf_append]
      by_cases hd : d' = d
      · subst hd
        obtain rfl : (link.touch s.clock a).1 = link' := by
          simpa [AList.lookup_insert] using hlookup
        rw [Link.touch_epoch, hown]
        exact hkept.touch hfits
      · rw [AList.lookup_insert_ne hd] at hlookup
        rw [storyOf_of_ne fun n hn hdev ↦ absurd (hdev.symm.trans (habout n hn).1) hd,
          List.append_nil]
        exact h.kept d' link' hlookup
    · intro n hn
      rcases List.mem_append.mp hn with hn | hn
      · exact h.fresh n hn
      · rw [(habout n hn).2]
        exact h.epoch_lt hlink
    · intro d' hd' link' hlookup
      by_cases hd : d' = d
      · subst hd
        obtain rfl : (link.touch s.clock a).1 = link' := by
          simpa [AList.lookup_insert] using hlookup
        rw [Link.touch_session]
        exact h.gated d' hd' link hlink
      · rw [AList.lookup_insert_ne hd] at hlookup
        exact h.gated d' hd' link' hlookup
    · exact fun x hx ↦ h.charged hpeers (h.suspects x hx)
    · exact fun v hv ↦ h.charged hpeers (h.verdicts v hv)
    · exact h.asked notes
    · apply h.grounded.append
      cases hkind : (link.touch s.clock a).2 with
      | none => exact .inl (by simp [hnotes, hkind])
      | some kind =>
        refine .inr ⟨⟨s.clock, d, link.epoch, kind⟩, by simp [hnotes, hkind],
          hkept.grounds hfits (by simp [hkind]), ?_⟩
        rintro reason cause rfl
        exact absurd hkind (Link.touch_ne_dropped a)

theorem put (h : Inv s) {d : String} {session : Bool} (hd : session = true → d ∉ s.closing) :
    Inv (s.put d session) := by
  obtain ⟨notes, hnotes⟩ : ∃ notes, notes =
      ((s.peers.lookup d).map fun link ↦ Note.mk s.clock d link.epoch .replaced).toList :=
    ⟨_, rfl⟩
  have habout : ∀ n ∈ notes, n.device = d ∧ n.epoch < s.nextEpoch := by
    rw [hnotes]
    cases hlink : s.peers.lookup d with
    | none => simp
    | some link => simpa using h.epoch_lt hlink
  have hreplaced : Backed Grounded (s.trace ++ notes) := by
    apply h.grounded.append
    cases hlink : s.peers.lookup d with
    | none => exact .inl (by simp [hnotes, hlink])
    | some link =>
      exact .inr ⟨⟨s.clock, d, link.epoch, .replaced⟩, by simp [hnotes, hlink],
        (h.kept d link hlink).alive, by rintro _ _ ⟨⟩⟩
  have hnew : storyOf (s.trace ++ notes) d s.nextEpoch = [] := by
    apply storyOf_of_ne
    intro n hn _
    rcases List.mem_append.mp hn with hn | hn
    · exact (h.fresh n hn).ne
    · exact (habout n hn).2.ne
  obtain ⟨kind, hkind⟩ : ∃ kind : Kind, kind = if session then .opened else .sighted := ⟨_, rfl⟩
  have hopening : kind = .opened ∨ kind = .sighted := by
    rw [hkind]
    split <;> simp
  have hpeers : ∀ d' link', (s.put d session).peers.lookup d' = some link' →
      (∃ link, s.peers.lookup d' = some link ∧ link.epoch = link'.epoch) ∨
        s.nextEpoch ≤ link'.epoch := by
    intro d' link' hlookup
    by_cases hd' : d' = d
    · subst hd'
      obtain rfl := Option.some.inj ((AList.lookup_insert s.peers).symm.trans hlookup)
      exact .inr le_rfl
    · rw [Net.put, AList.lookup_insert_ne hd'] at hlookup
      exact .inl ⟨link', hlookup, rfl⟩
  unfold Net.put at hpeers ⊢
  rw [← hnotes, ← hkind, List.append_assoc]
  constructor
  · intro d' link' hlookup
    show link'.Kept (storyOf (s.trace ++ (notes ++ _)) d' link'.epoch)
    rw [← List.append_assoc, storyOf_append]
    by_cases hd' : d' = d
    · subst hd'
      obtain rfl := Option.some.inj ((AList.lookup_insert s.peers).symm.trans hlookup)
      rw [hnew, storyOf_cons_self]
      refine
        { alive := ⟨by simp, ?_⟩, heard := ?_, opened := ?_, closed := ?_, initiated := ?_,
          restarted := by simp, spoke := by simp, unproven := ?_,
          admitted := by simp [Link.established], placeholder := ?_ }
      · obtain rfl | rfl := hopening <;> simp
      · show ∀ x ∈ _, ¬ IsHeard x
        obtain rfl | rfl := hopening <;> simp
      · intro t ht
        cases session with
        | true =>
          obtain rfl : s.clock = t := by simpa using ht
          simp [hkind]
        | false => simp at ht
      · intro _
        obtain rfl | rfl := hopening <;> simp
      · show ∀ x ∈ _, ¬ IsInitiated x
        obtain rfl | rfl := hopening <;> simp
      · intro _
        obtain rfl | rfl := hopening <;> simp
      · intro hs
        cases session with
        | true => simp at hs
        | false => simp
    · rw [AList.lookup_insert_ne hd'] at hlookup
      have hother : storyOf notes d' link'.epoch = [] := storyOf_of_ne fun n hn hdev ↦
        absurd (hdev.symm.trans (habout n hn).1) hd'
      have hlast : storyOf [⟨s.clock, d, s.nextEpoch, kind⟩] d' link'.epoch = [] :=
        storyOf_of_ne fun n hn hdev ↦ by
          obtain rfl := List.mem_singleton.mp hn
          exact absurd hdev.symm hd'
      rw [storyOf_append, hother, hlast, List.append_nil, List.append_nil]
      exact h.kept d' link' hlookup
  · intro n hn
    rcases List.mem_append.mp hn with hn | hn
    · exact (h.fresh n hn).trans (Nat.lt_succ_self _)
    · rcases List.mem_append.mp hn with hn | hn
      · exact (habout n hn).2.trans (Nat.lt_succ_self _)
      · obtain rfl := List.mem_singleton.mp hn
        exact Nat.lt_succ_self _
  · intro d' hd' link' hlookup
    by_cases heq : d' = d
    · subst heq
      obtain rfl := Option.some.inj ((AList.lookup_insert s.peers).symm.trans hlookup)
      by_contra hs
      exact hd (by simpa using hs) hd'
    · rw [AList.lookup_insert_ne heq] at hlookup
      exact h.gated d' hd' link' hlookup
  · exact fun x hx ↦ h.charged hpeers (h.suspects x hx)
  · exact fun v hv ↦ h.charged hpeers (h.verdicts v hv)
  · exact h.asked _
  · rw [← List.append_assoc]
    apply hreplaced.snoc
    obtain rfl | rfl := hopening
    · exact ⟨hnew, by rintro _ _ ⟨⟩⟩
    · exact ⟨hnew, by rintro _ _ ⟨⟩⟩

theorem dropPeer (h : Inv s) {d : String} {expectedEpoch : Option Nat} {reason : DropReason}
    {cause : Option Cause}
    (hcause : ∀ c ∈ cause, reason = c.reason ∧ ∀ link, s.peers.lookup d = some link →
      (∀ e ∈ expectedEpoch, e = link.epoch) → Accused s.trace d link.epoch c) :
    Inv (s.dropPeer d expectedEpoch reason cause) := by
  unfold Net.dropPeer
  split
  · exact h
  · next hopen =>
    split
    · exact h
    · next link hlink =>
      split
      · exact h
      · next hmatch =>
        have hepoch : ∀ e ∈ expectedEpoch, e = link.epoch := by
          intro e he
          rw [Option.mem_def] at he
          simpa [he] using hmatch
        have hpeers : ∀ d' link', (s.peers.erase d).lookup d' = some link' →
            (∃ link, s.peers.lookup d' = some link ∧ link.epoch = link'.epoch) ∨
              s.nextEpoch ≤ link'.epoch := by
          intro d' link' hlookup
          have hd' : d' ≠ d := by
            rintro rfl
            simp at hlookup
          rw [AList.lookup_erase_ne hd'] at hlookup
          exact .inl ⟨link', hlookup, rfl⟩
        constructor
        · intro d' link' hlookup
          have hd' : d' ≠ d := by
            rintro rfl
            simp at hlookup
          rw [AList.lookup_erase_ne hd'] at hlookup
          show link'.Kept (storyOf (s.trace ++ _) d' link'.epoch)
          have hlast : storyOf [⟨s.clock, d, link.epoch, .dropped reason cause⟩] d' link'.epoch =
              [] :=
            storyOf_of_ne fun n hn hdev ↦ by
              obtain rfl := List.mem_singleton.mp hn
              exact absurd hdev.symm hd'
          rw [storyOf_append, hlast, List.append_nil]
          exact h.kept d' link' hlookup
        · intro n hn
          rcases List.mem_append.mp hn with hn | hn
          · exact h.fresh n hn
          · obtain rfl := List.mem_singleton.mp hn
            exact h.epoch_lt hlink
        · intro d' hd' link' hlookup
          have hne : d' ≠ d := by
            rintro rfl
            simp at hlookup
          rw [AList.lookup_erase_ne hne] at hlookup
          exact h.gated d' ((Finset.mem_insert.mp hd').resolve_left hne) link' hlookup
        · exact fun x hx ↦ h.charged hpeers (h.suspects x hx)
        · exact fun v hv ↦ h.charged hpeers (h.verdicts v hv)
        · exact h.asked _
        · apply h.grounded.snoc
          refine ⟨(h.kept d link hlink).alive, ?_⟩
          rintro reason' c hkind
          obtain ⟨rfl, hc⟩ := Kind.dropped.inj hkind
          exact ⟨(hcause c hc).1, (hcause c hc).2 link hlink hepoch⟩

end Inv

/-! ### What the watchers find -/

theorem SilentFor.of_lastRecvAt (h : link.Kept story) {ms : Nat} {clock : Instant}
    (hle : now ≤ clock) (hsilent : link.lastRecvAt.any fun t ↦ ms < millisSince now t) :
    SilentFor ms story clock := by
  obtain ⟨t, ht, hms⟩ := (Option.any_eq_true _ _).mp hsilent
  refine ⟨t, ht ▸ h.heard, ?_⟩
  exact (of_decide_eq_true hms).trans_le (millisSince_mono hle t)

theorem NeverUpFor.of_sessionStartedAt (h : link.Kept story) {ms : Nat} {clock : Instant}
    (hle : now ≤ clock) (hopen : link.dataChannelOpen = false)
    (hstarted : link.sessionStartedAt.any fun t ↦ ms ≤ millisSince now t) :
    NeverUpFor ms story clock := by
  obtain ⟨t, ht, hms⟩ := (Option.any_eq_true _ _).mp hstarted
  refine ⟨h.closed hopen, t, h.opened t ht, ?_⟩
  exact (of_decide_eq_true hms).trans (millisSince_mono hle t)

/-- A scan has grounds for what it finds. -/
theorem Link.Kept.found (h : link.Kept story) {scan : Scan} {iceUp : Bool} {clock : Instant}
    {cause : Cause} (hle : now ≤ clock) (hfound : link.found now iceUp scan = some cause) :
    Suspicious story clock cause := by
  cases scan with
  | heartbeat =>
    simp only [Link.found, Option.ite_none_right_eq_some, Bool.and_eq_true] at hfound
    obtain ⟨⟨-, hsilent⟩, hcause⟩ := hfound
    obtain rfl := Option.some.inj hcause
    exact SilentFor.of_lastRecvAt h hle hsilent
  | connect =>
    simp only [Link.found, Option.ite_none_right_eq_some, Bool.and_eq_true,
      Bool.not_eq_true'] at hfound
    obtain ⟨⟨hopen, hstarted⟩, hcause⟩ := hfound
    obtain rfl := Option.some.inj hcause
    exact NeverUpFor.of_sessionStartedAt h hle hopen hstarted
  | restart =>
    simp only [Link.found] at hfound
    split at hfound
    · next started htier =>
      rw [Option.ite_none_right_eq_some] at hfound
      obtain ⟨hms, hcause⟩ := hfound
      obtain rfl := Option.some.inj hcause
      exact ⟨started, h.restarted started htier, hms.trans (millisSince_mono hle started)⟩
    · simp at hfound

/-! ### The steps -/

namespace Inv

variable {s : Net} {d : String}

/-- A session that is found is charged. -/
theorem charged_suspect {cause : Cause} (hlink : s.peers.lookup d = some link) :
    Charged (s.touch d (.suspect cause)).trace (s.touch d (.suspect cause)).peers d link.epoch
      cause := by
  refine ⟨s.clock, s.trace, [], ?_, fun link' hlink' ↦ .inl ?_⟩
  · simp [Net.touch, hlink, Link.touch]
  · rw [Net.lookup_touch, if_pos rfl, hlink, Option.map_some] at hlink'
    obtain rfl := Option.some.inj hlink'
    exact Link.touch_epoch _

theorem condemn (h : Inv s) {cause : Cause}
    (hcause : ∀ link, s.peers.lookup d = some link →
      Suspicious (s.story d link.epoch) s.clock cause) :
    Inv (s.condemn d cause) := by
  unfold Net.condemn
  split
  · exact h
  · next link hlink =>
    have htouch : Inv (s.touch d (.suspect cause)) := h.touch (a := .suspect cause) hcause
    refine { htouch with verdicts := ?_ }
    intro v hv
    rcases List.mem_append.mp hv with hv | hv
    · exact htouch.verdicts v (by simpa using hv)
    · obtain rfl := List.mem_singleton.mp hv
      exact charged_suspect hlink

theorem carryOut (h : Inv s) (v : Verdict) : Inv (s.carryOut v) := by
  have hremove : Inv { s with verdicts := s.verdicts.erase v } :=
    { h with verdicts := fun w hw ↦ h.verdicts w (List.mem_of_mem_erase hw) }
  unfold Net.carryOut
  split
  · exact h
  · next hv =>
    have hv : v ∈ s.verdicts := by simpa using hv
    apply hremove.dropPeer
    intro c hc
    obtain rfl := Option.mem_some_iff.mp hc
    refine ⟨rfl, fun link hlink hepoch ↦ ?_⟩
    obtain ⟨t, past, rest, htrace, hnow⟩ := h.verdicts v hv
    refine ⟨t, v.epoch, past, rest, htrace, ?_⟩
    by_cases hby : v.cause.byEpoch = true
    · exact .inl (hepoch v.epoch (by rw [if_pos hby]; rfl))
    · exact (hnow link hlink).imp Eq.symm fun hnew ↦ ⟨by simpa using hby, hnew⟩

theorem scanPeer (h : Inv s) {scan : Scan} {iceUp : String → Bool} (hle : now ≤ s.clock) :
    Inv (s.scanPeer scan now iceUp d) := by
  unfold Net.scanPeer
  split
  · exact h
  · next link hlink =>
    split
    · exact h
    · next cause hfound =>
      have htouch : Inv (s.touch d (.suspect cause)) := by
        apply h.touch
        intro link' hlink'
        obtain rfl := Option.some.inj (hlink.symm.trans hlink')
        exact (h.kept d link hlink).found hle hfound
      refine { htouch with suspects := ?_ }
      intro x hx
      rcases List.mem_append.mp hx with hx | hx
      · exact htouch.suspects x (by simpa using hx)
      · obtain rfl := List.mem_singleton.mp hx
        exact charged_suspect hlink

theorem scanPeers (h : Inv s) {scan : Scan} {iceUp : String → Bool} :
    Inv (s.scanPeers scan now iceUp) := by
  unfold Net.scanPeers
  split
  · exact h
  · next hguard =>
    have hle : now ≤ s.clock := Nat.le_of_not_lt hguard
    clear hguard
    induction s.peers.keys generalizing s with
    | nil => exact h
    | cons d rest ih => exact ih (h.scanPeer hle) (by simpa using hle)

theorem ask (h : Inv s) {stamped : Bool}
    (hspoke : ∀ link, s.peers.lookup d = some link → link.established = true) :
    Inv (s.ask d stamped) := by
  unfold Net.ask
  split
  · exact h
  · next link hlink =>
    have htouch : Inv (s.touch d (.ask stamped)) := h.touch fun _ _ ↦ trivial
    refine { htouch with probes := ?_ }
    intro p hp
    rcases List.mem_cons.mp hp with rfl | hp
    · have hkept := h.kept d link hlink
      show Asked ((s.touch d (.ask stamped)).story d link.epoch) _
      rw [Net.story_touch hlink]
      refine ⟨exists_mem_append (hkept.spoke (hkept.admitted (hspoke link hlink))), s.clock, ?_,
        le_rfl⟩
      simp [Link.touch]
    · exact htouch.probes p (by simpa using hp)

theorem onWake (h : Inv s) : Inv s.onWake := by
  unfold Net.onWake
  have hall : ∀ d ∈ s.peers.keys.filter fun d ↦ (s.peers.lookup d).any Link.established,
      ∀ link, s.peers.lookup d = some link → link.established = true := by
    intro d hd link hlink
    have hany := (List.mem_filter.mp hd).2
    rw [hlink] at hany
    exact hany
  generalize s.peers.keys.filter _ = todo at hall
  induction todo generalizing s with
  | nil => exact h
  | cons d rest ih =>
    refine ih (h.ask (hall d List.mem_cons_self)) ?_
    intro d' hd' link' hlink'
    have hother := hall d' (List.mem_cons_of_mem _ hd')
    rw [Net.ask_peers, Net.lookup_touch] at hlink'
    split at hlink'
    · next heq =>
      subst heq
      obtain ⟨link, hlink, rfl⟩ := Option.map_eq_some_iff.mp hlink'
      exact hother link hlink
    · exact hother link' hlink'

theorem reclaim (h : Inv s) (x : Suspect) : Inv (s.reclaim x) := by
  have hremove : Inv (s.removeSuspect x) :=
    { h with suspects := fun y hy ↦ h.suspects y (List.mem_of_mem_erase hy) }
  unfold Net.reclaim
  split
  · exact h
  · next hx =>
    have hx : x ∈ s.suspects := by simpa using hx
    have hdrop : Inv ((s.removeSuspect x).dropPeer x.device (some x.epoch) x.cause.reason
        (some x.cause)) := by
      apply hremove.dropPeer
      intro c hc
      obtain rfl := Option.mem_some_iff.mp hc
      refine ⟨rfl, fun link _ hepoch ↦ ?_⟩
      obtain ⟨t, past, rest, htrace, -⟩ := h.suspects x hx
      exact ⟨t, x.epoch, past, rest, htrace, .inl (hepoch x.epoch rfl)⟩
    simp only
    split
    · split
      · exact hdrop
      · split
        · exact hremove
        · split
          · exact hdrop
          · refine { h with suspects := ?_ }
            intro y hy
            rcases List.mem_cons.mp hy with rfl | hy
            · exact h.suspects x hx
            · exact h.suspects y (List.mem_of_mem_erase hy)
    · split
      · exact hremove
      · exact hdrop
    · exact hdrop

theorem probeAnswer (h : Inv s) (p : Probe) : Inv (s.probeAnswer p now) := by
  have hremove : Inv { s with probes := s.probes.erase p } :=
    { h with probes := fun q hq ↦ h.probes q (List.mem_of_mem_erase hq) }
  unfold Net.probeAnswer
  split
  · exact h
  · next hcond =>
    have hp : p ∈ s.probes := by
      by_contra hp
      exact hcond (.inl hp)
    have hdue : p.due ≤ now := Nat.le_of_not_lt fun hlt ↦ hcond (.inr (.inl hlt))
    have hle : now ≤ s.clock := Nat.le_of_not_lt fun hlt ↦ hcond (.inr (.inr hlt))
    simp only
    split
    · exact hremove
    · next link hlink =>
      split
      · next hsilent =>
        obtain ⟨hepoch, hsilent⟩ := hsilent
        apply hremove.condemn
        intro link' hlink'
        obtain rfl := Option.some.inj (hlink.symm.trans hlink')
        have hkept := h.kept p.device link hlink
        obtain ⟨⟨y, hy, hyf⟩, t, ht, htdue⟩ := h.probes p hp
        rw [← hepoch] at hy ht
        refine ⟨SilentFor.of_lastRecvAt hkept hle ?_, t, ht, ?_⟩
        · cases hrecv : link.lastRecvAt with
          | none => exact absurd hrecv (hkept.heard.ne_none ⟨y, hy, .inl hyf⟩)
          | some at' => simpa [hrecv] using hsilent
        · have hlate : nanos wakeProbeDelayMs ≤ s.clock - t :=
            Nat.le_sub_of_add_le' (htdue.trans (hdue.trans hle))
          exact (Nat.le_div_iff_mul_le (by decide)).mpr hlate
      · exact hremove

theorem handshakeWatchdog (h : Inv s) (due : Instant) : Inv (s.handshakeWatchdog d due) := by
  have hremove : Inv { s with watchdogs := s.watchdogs.erase (d, due) } := { h with }
  unfold Net.handshakeWatchdog
  split
  · exact h
  · simp only
    split
    · exact hremove
    · next link hlink =>
      split
      · next hcond =>
        simp only [Bool.and_eq_true, Bool.not_eq_true'] at hcond
        obtain ⟨⟨hauth, -⟩, hstarted⟩ := hcond
        apply hremove.condemn
        intro link' hlink'
        obtain rfl := Option.some.inj (hlink.symm.trans hlink')
        have hkept := h.kept d link hlink
        obtain ⟨t, ht, hms⟩ := (Option.any_eq_true _ _).mp hstarted
        exact ⟨hkept.unproven hauth, t, ht ▸ hkept.initiated, of_decide_eq_true hms⟩
      · exact hremove

theorem clearStaleSessionIfZombie (h : Inv s) (ice : Option IceState) :
    Inv (s.clearStaleSessionIfZombie d ice) := by
  unfold Net.clearStaleSessionIfZombie
  split
  · exact h
  · next link hlink =>
    split
    · next hcond =>
      simp only [Bool.and_eq_true] at hcond
      apply h.condemn
      intro link' hlink'
      obtain rfl := Option.some.inj (hlink.symm.trans hlink')
      exact SilentFor.of_lastRecvAt (h.kept d link hlink) le_rfl hcond.1
    · exact h

theorem confirmActiveSessionOnAnnounce (h : Inv s) :
    Inv (s.confirmActiveSessionOnAnnounce d) := by
  unfold Net.confirmActiveSessionOnAnnounce
  split
  · exact h
  · next link hlink =>
    split
    · next hcond =>
      simp only [Bool.and_eq_true] at hcond
      apply h.ask
      intro link' hlink'
      obtain rfl := Option.some.inj (hlink.symm.trans hlink')
      exact hcond.1.1.1
    · exact h

theorem clearStuckSession (h : Inv s) : Inv (s.clearStuckSession d) := by
  unfold Net.clearStuckSession
  split
  · exact h
  · next link hlink =>
    split
    · next hcond =>
      simp only [Bool.and_eq_true, Bool.not_eq_true'] at hcond
      apply h.condemn
      intro link' hlink'
      obtain rfl := Option.some.inj (hlink.symm.trans hlink')
      exact NeverUpFor.of_sessionStartedAt (h.kept d link hlink) le_rfl hcond.1 hcond.2
    · exact h

theorem renegotiateIce (h : Inv s) {force : Bool} {ice : IceState} {expectedEpoch : Option Nat} :
    Inv (s.renegotiateIce d force ice expectedEpoch) := by
  unfold Net.renegotiateIce
  split
  · exact h
  · split
    · exact h
    · next link hlink =>
      split
      · exact h
      · next hmatch =>
        have hsession : ∀ link', s.peers.lookup d = some link' → link'.session = true := by
          intro link' hlink'
          obtain rfl := Option.some.inj (hlink.symm.trans hlink')
          by_contra hs
          exact hmatch (by simp [hs])
        split
        · exact h.touch fun _ _ ↦ trivial
        · split
          · exact h
          · split
            · exact h.touch hsession
            · exact h

/-- The drop of a session for another reason than a watcher's. -/
theorem dropOther (h : Inv s) {expectedEpoch : Option Nat} {reason : DropReason} :
    Inv (s.dropPeer d expectedEpoch reason none) := h.dropPeer (by simp)

theorem handleTransportEvent (h : Inv s) {epoch : Nat} {event : TransportEvent} :
    Inv (s.handleTransportEvent d epoch event) := by
  unfold Net.handleTransportEvent
  split
  · exact h
  · next link hlink =>
    split
    · exact h
    · next hpump =>
      have hsession : link.session = true := by
        by_contra hs
        exact hpump (.inr (by simpa using hs))
      have hone : ∀ link', s.peers.lookup d = some link' → link' = link := fun link' hlink' ↦
        Option.some.inj (hlink'.symm.trans hlink)
      cases event with
      | media => exact h.touch fun _ _ ↦ trivial
      | channelOpen =>
        have hup : Inv (s.touch d .channelOpen) := h.touch fun _ _ ↦ trivial
        have hbegun : Inv ((s.touch d .channelOpen).touch d .initiate) := by
          apply hup.touch
          intro link' hlink'
          rw [Net.lookup_touch, if_pos rfl, hlink, Option.map_some] at hlink'
          obtain rfl := Option.some.inj hlink'
          exact hsession
        exact { hbegun with }
      | channelClosed evicted => exact h.dropOther
      | application => exact h.touch fun _ _ ↦ trivial
      | handshake handled =>
        have hframe : Inv (s.touch d (.frame false)) := h.touch fun _ _ ↦ trivial
        have hspoke : ∀ link', (s.touch d (.frame false)).peers.lookup d = some link' →
            link'.session = true ∧
              ∃ x ∈ (s.touch d (.frame false)).story d link'.epoch, IsFrame x := by
          intro link' hlink'
          rw [Net.lookup_touch, if_pos rfl, hlink, Option.map_some] at hlink'
          obtain rfl := Option.some.inj hlink'
          rw [Link.touch_session, Link.touch_epoch, Net.story_touch hlink]
          exact ⟨hsession, (s.clock, .frame), by simp [Link.touch], rfl⟩
        cases handled with
        | kept => exact hframe
        | refused reason => exact hframe.dropOther
        | authenticated autoApprove =>
          have hauth : Inv ((s.touch d (.frame false)).touch d .authenticate) :=
            hframe.touch hspoke
          show Inv (ite _ _ _)
          split
          · exact hauth.touch fun _ _ ↦ trivial
          · exact hauth
        | approved => exact hframe.touch fun _ _ ↦ trivial
      | ice state asked =>
        cases state with
        | connected => exact h.touch fun _ _ ↦ trivial
        | disconnected =>
          apply h.touch
          intro link' hlink'
          rw [hone link' hlink']
          exact hsession
        | failed =>
          show Inv (ite _ _ _)
          split
          · exact h
          · exact h.renegotiateIce
        | checking | other => exact h
      | pcClosed => exact h.dropOther

/-- Every operation keeps the invariant. -/
theorem step (h : Inv s) (op : Op) : Inv (step s op) := by
  cases op with
  | elapse duration => exact { h with }
  | epochsElsewhere count =>
    exact { h with fresh := fun n hn ↦ (h.fresh n hn).trans_le (Nat.le_add_right _ _) }
  | setOffline offline => exact { h with }
  | setRecovering recovering => exact { h with }
  | sighted d =>
    show Inv (s.noteSightedWithoutDialing d)
    unfold Net.noteSightedWithoutDialing
    split
    · exact h
    · exact h.put (by simp)
  | ensurePeerSession d =>
    show Inv (s.ensurePeerSession d)
    unfold Net.ensurePeerSession
    split
    · exact h
    · split
      · exact h
      · exact { h with }
  | sessionOpened d opened =>
    show Inv (s.sessionOpened d opened)
    unfold Net.sessionOpened
    split
    · exact h
    · have hopening : Inv { s with opening := s.opening.erase d } := { h with }
      simp only
      split
      · exact hopening
      · next hguard =>
        apply hopening.put
        intro _ hclosing
        exact hguard (by simp [show d ∈ s.closing from hclosing])
  | transport d epoch event => exact h.handleTransportEvent
  | approve d => exact h.touch fun _ _ ↦ trivial
  | shelve d shouldBeShelved => exact h.touch fun _ _ ↦ trivial
  | offer d sent => exact h.touch fun _ _ ↦ trivial
  | renegotiateIce d force ice expectedEpoch => exact h.renegotiateIce
  | scan scan now iceUp => exact h.scanPeers
  | reclaim x => exact h.reclaim x
  | wake => exact h.onWake
  | probeAnswer p now => exact h.probeAnswer p
  | handshakeWatchdog d due => exact h.handshakeWatchdog due
  | clearZombie d ice => exact h.clearStaleSessionIfZombie ice
  | confirm d => exact h.confirmActiveSessionOnAnnounce
  | clearStuck d => exact h.clearStuckSession
  | carryOut v => exact h.carryOut v
  | drop d expectedEpoch reason => exact h.dropOther
  | finishClose d =>
    exact { h with gated := fun d' hd' ↦ h.gated d' (Finset.mem_of_mem_erase hd') }

end Inv

/-- A watcher drops a session only while it is alive and after it was suspected, and it was
suspected with grounds in what the session had lived through by then: a session that was heard of
lately, whose channel came up in time, that spoke after its restart or proved itself in time, is
left alone by the watcher concerned. A drop that names no epoch may hit, in place of the suspected
session, one that the device has got since. What comes from a session that is gone changes
nothing. -/
theorem watchers_have_grounds (ops : List Op) : Backed Grounded (run step {} ops).trace :=
  (run_invariant (I := Inv) (fun _ op h ↦ h.step op) Inv.start ops).grounded

/-- A session that comes up and then says nothing for a little over ninety seconds. -/
def fallSilent : List Op :=
  [.ensurePeerSession "a", .sessionOpened "a" true, .transport "a" 0 .channelOpen,
    .transport "a" 0 (.handshake (.authenticated true)), .transport "a" 0 (.handshake .approved),
    .elapse (nanos 90001)]

/-- A probe that looks three milliseconds late takes an answer that came at once for silence. -/
example : ∃ n ∈ (run step {} (fallSilent ++
    [.confirm "a", .elapse (nanos 1), .transport "a" 0 .application, .elapse (nanos 1502),
      .probeAnswer ⟨"a", 0, nanos (90001 + 1500)⟩ (nanos (90001 + 1503)),
      .carryOut ⟨"a", 0, .probe⟩])).trace,
    n.kind = .dropped .heartbeatTimeout (some .probe) := by decide

/-- The watchdog of a handshake drops the session that was opened while it went from its look to the
drop. -/
example : (run step {} [.ensurePeerSession "a", .sessionOpened "a" true,
    .transport "a" 0 .channelOpen, .elapse (nanos 30000), .handshakeWatchdog "a" (nanos 30000),
    .transport "a" 0 .pcClosed, .finishClose "a", .ensurePeerSession "a", .sessionOpened "a" true,
    .carryOut ⟨"a", 0, .handshake⟩]).trace.getLast? =
      some ⟨nanos 30000, "a", 1, .dropped .heartbeatTimeout (some .handshake)⟩ := by decide

end MyOwnMesh.Liveness
