import MyOwnMesh.Engine.Signaling
import MyOwnMesh.Lib.Intake

/-!
# Candidates and ICE generations

The candidates of a session over any number of ICE restarts. Until the first remote description
they are held back, and that description takes its own out of them; from then on each one is
compared with the description in force when it arrives. What is compared with a description of
another generation is dropped, also where its own description is still on the way. The session is
an intake in the sense of `Lib.Intake`: descriptions are its keys and candidates its items.
-/

namespace MyOwnMesh

open Lib Lib.Replay

namespace PeerConnection

/-! ### The property -/

/-- The candidates handed to the connection, each with the description it met. -/
def handed (p : PeerConnection) : List (String × LocalIceCandidate) :=
  p.session.elim [] PeerSession.added

/-- The remote description in force. -/
def inForce (p : PeerConnection) : Option String := p.session.bind PeerSession.remoteDescription

/-- The candidate belongs to the generation that a description announces. -/
def OfGeneration (sdp : String) (x : LocalIceCandidate) : Prop :=
  ∃ ufrag, candidateUfrag x = some ufrag ∧ ufrag ∈ sdpIceUfrags sdp

/-- The candidate that a step delivers. -/
def Op.candidate? : Op → Option LocalIceCandidate
  | .candidate x => some x
  | _ => none

/-- The remote description that a step carries. -/
def Op.sdp? : Op → Option String
  | .offer sdp => some sdp
  | .answer _ sdp => some sdp
  | _ => none

/-- The candidates that were delivered. -/
def delivered (ops : List (NegotiationEnv × Op)) : List LocalIceCandidate :=
  ops.filterMap fun o ↦ o.2.candidate?

/-- The description that a step brings into force, if it does: the checks of `mod.rs:842–857` and
`mod.rs:1806–1895`. -/
def describedBy (p : PeerConnection) (o : NegotiationEnv × Op) : Option String :=
  match o.2, p.session with
  | .offer sdp, some _ => if o.1.parses && o.1.accepts then some sdp else none
  | .answer offerId sdp, some c =>
    if p.takesAnswer offerId && c.awaitingAnswer && o.1.parses && o.1.accepts then some sdp
    else none
  | _, _ => none

/-- The candidate is not of another generation than a description. -/
def fits (x : LocalIceCandidate) (sdp : String) : Bool :=
  candidateMatchesUfrags x (sdpIceUfrags sdp)

/-- The step gives up no candidate of the generation of `last`: none of them is compared with the
description of another generation, neither on its arrival nor in the queue that the first
description of the session empties. -/
def OnTime (last : String) (p : PeerConnection) (o : NegotiationEnv × Op) : Prop :=
  match o.2 with
  | .candidate x => OfGeneration last x → ∀ sdp, p.inForce = some sdp → fits x sdp = true
  | _ => ∀ sdp, p.describedBy o = some sdp →
      ∀ x ∈ p.pendingRemoteCandidates, OfGeneration last x → fits x sdp = true

/-! ### The session as an intake -/

/-- What the intake sees of an entry. -/
def intake (p : PeerConnection) : Intake.State String LocalIceCandidate :=
  ⟨p.inForce, p.pendingRemoteCandidates, p.handed⟩

/-- What it sees of a step. -/
def event (p : PeerConnection) (o : NegotiationEnv × Op) :
    Option (Intake.Event String LocalIceCandidate) :=
  match o.2 with
  | .candidate x => some (.item x)
  | _ => (p.describedBy o).map .key

/-- What it sees of a run. -/
def events (p : PeerConnection) :
    List (NegotiationEnv × Op) → List (Intake.Event String LocalIceCandidate)
  | [] => []
  | o :: rest => (p.event o).toList ++ events (p.step o) rest

/-- The flag of an entry with a session says whether a description is in force. -/
structure Synced (p : PeerConnection) : Prop where
  session : p.session.isSome = true
  flag : p.remoteDescriptionSet = p.inForce.isSome

/-- The step of the intake that stands for a step of the entry. -/
def intakeStep : Intake.State String LocalIceCandidate →
    Intake.Event String LocalIceCandidate → Intake.State String LocalIceCandidate :=
  Intake.step fits maxPendingRemoteCandidates

/-- A description in force is a key of the intake. -/
theorem intake_describe {p : PeerConnection} (hp : p.session.isSome = true) (kind : SdpType)
    (sdp : String) :
    (p.describe kind sdp).intake = intakeStep p.intake (.key sdp) ∧
      (p.describe kind sdp).Synced := by
  obtain ⟨c, hc⟩ := Option.isSome_iff_exists.mp hp
  constructor
  · simp [intake, inForce, handed, describe, drive, hc, intakeStep, Intake.step, fits,
      PeerSession.addIceCandidates, PeerSession.setRemoteDescription]
  · refine ⟨?_, ?_⟩
    · simp [describe, drive, hc]
    · simp [describe, drive, hc, inForce, PeerSession.addIceCandidates,
        PeerSession.setRemoteDescription]

/-- What drives the connection without touching descriptions or candidates is not seen. -/
theorem intake_drive {p : PeerConnection} (hp : p.Synced) {f : PeerSession → PeerSession}
    (hf : ∀ c, (f c).remoteDescription = c.remoteDescription ∧ (f c).added = c.added) :
    (p.drive f).intake = p.intake ∧ (p.drive f).Synced := by
  obtain ⟨c, hc⟩ := Option.isSome_iff_exists.mp hp.session
  have hflag := hp.flag
  simp only [inForce, hc, Option.bind_some] at hflag
  constructor
  · simp [intake, inForce, handed, drive, hc, hf c]
  · exact ⟨by simp [drive, hc], by simp [drive, inForce, hc, hf c, hflag]⟩

/-- A candidate is an item. -/
theorem intake_onCandidate {p : PeerConnection} (hp : p.Synced) (x : LocalIceCandidate) :
    (p.onCandidate x).intake = intakeStep p.intake (.item x) ∧ (p.onCandidate x).Synced := by
  obtain ⟨c, hc⟩ := Option.isSome_iff_exists.mp hp.session
  have hflag := hp.flag
  cases hforce : p.inForce with
  | none =>
    have hunset : p.remoteDescriptionSet = false := by rw [hflag, hforce, Option.isSome_none]
    have hstep : p.onCandidate x =
        { p with pendingRemoteCandidates :=
            (if maxPendingRemoteCandidates ≤ p.pendingRemoteCandidates.length then
              p.pendingRemoteCandidates.tail else p.pendingRemoteCandidates) ++ [x] } := by
      simp only [onCandidate, hunset, ↓reduceIte]
    rw [hstep]
    refine ⟨?_, hp.session, hp.flag⟩
    show (⟨p.inForce, _, p.handed⟩ : Intake.State String LocalIceCandidate) = _
    simp only [intakeStep, Intake.step, intake, hforce]
  | some sdp =>
    have hset : p.remoteDescriptionSet = true := by rw [hflag, hforce, Option.isSome_some]
    have hremote : c.remoteDescription = some sdp := by
      simpa [inForce, hc] using hforce
    have hstep : p.onCandidate x =
        p.drive fun c ↦
          if candidateMatchesUfrags x c.remoteIceUfrags then c.addIceCandidates [x] else c := by
      simp only [onCandidate, hset, Bool.true_eq_false, ↓reduceIte]
    have hufrags : c.remoteIceUfrags = sdpIceUfrags sdp := by
      simp [PeerSession.remoteIceUfrags, hremote]
    rw [hstep]
    cases hfit : fits x sdp with
    | true =>
      have hmatch : candidateMatchesUfrags x c.remoteIceUfrags = true := by
        rw [hufrags]
        exact hfit
      refine ⟨?_, by simp [drive, hc], ?_⟩
      · simp [intake, inForce, handed, drive, hc, hmatch, hremote, intakeStep, Intake.step, hfit,
          PeerSession.addIceCandidates]
      · simp [drive, inForce, hc, hmatch, hremote, hset, PeerSession.addIceCandidates]
    | false =>
      have hmatch : candidateMatchesUfrags x c.remoteIceUfrags = false := by
        rw [hufrags]
        exact hfit
      refine ⟨?_, by simp [drive, hc], ?_⟩
      · simp [intake, inForce, handed, drive, hc, hmatch, hremote, intakeStep, Intake.step, hfit]
      · simp [drive, inForce, hc, hmatch, hremote, hset]

/-- An offer of ours is not seen. -/
theorem intake_offer {p : PeerConnection} (hp : p.Synced) (env : NegotiationEnv) :
    (p.offer env).intake = p.intake ∧ (p.offer env).Synced := by
  unfold offer
  split
  · exact ⟨rfl, hp⟩
  · next sdp _ =>
    obtain ⟨hin, hsync⟩ := intake_drive hp (f := .createOffer sdp) fun _ ↦ ⟨rfl, rfl⟩
    simp only
    split
    · exact ⟨hin, hsync⟩
    · exact ⟨hin, hsync.session, hsync.flag⟩

/-- Nor is our answer. -/
theorem intake_answer {p : PeerConnection} (hp : p.Synced) (env : NegotiationEnv) :
    (p.answer env).intake = p.intake ∧ (p.answer env).Synced := by
  unfold answer
  split
  · exact ⟨rfl, hp⟩
  · exact intake_drive hp fun _ ↦ ⟨rfl, rfl⟩

/-- A remote description is a key where it comes into force. -/
theorem intake_applyRemoteSdp {p : PeerConnection} (hp : p.Synced) (env : NegotiationEnv)
    (kind : SdpType) (sdp : String) {c : PeerSession} (hc : p.session = some c) :
    (p.applyRemoteSdp env kind sdp).1.intake =
        (if (kind = .answer → c.awaitingAnswer = true) ∧ env.parses = true ∧ env.accepts = true
          then intakeStep p.intake (.key sdp) else p.intake) ∧
      (p.applyRemoteSdp env kind sdp).1.Synced := by
  simp only [applyRemoteSdp, hc]
  split
  · next hwait =>
    rw [if_neg (by simp [hwait])]
    exact ⟨rfl, hp⟩
  · next hwait =>
    split
    · next hparse =>
      rw [if_neg (by simp [hparse])]
      exact ⟨rfl, hp⟩
    · next hparse =>
      split
      · next haccept =>
        rw [if_neg (by simp [haccept])]
        exact ⟨rfl, hp⟩
      · next haccept =>
        rw [if_pos ⟨by simpa using hwait, by simpa using hparse, by simpa using haccept⟩]
        exact intake_describe hp.session kind sdp

/-- One step. -/
theorem intake_step {p : PeerConnection} (hp : p.Synced) (o : NegotiationEnv × Op) :
    (p.step o).intake = (p.event o).elim p.intake (intakeStep p.intake) ∧
      (p.step o).Synced := by
  obtain ⟨c, hc⟩ := Option.isSome_iff_exists.mp hp.session
  obtain ⟨env, op⟩ := o
  cases op with
  | offer sdp =>
    obtain ⟨hin, hsync⟩ := intake_applyRemoteSdp hp env .offer sdp hc
    obtain ⟨hin', hsync'⟩ := intake_answer hsync env
    refine ⟨?_, hsync'⟩
    simp only [step, hin', hin, event, describedBy, hc]
    by_cases hyes : env.parses = true ∧ env.accepts = true
    · simp [hyes]
    · simp [hyes]
  | answer offerId sdp =>
    cases ht : p.takesAnswer offerId with
    | false =>
      have hstep : p.step (env, .answer offerId sdp) = p := by simp [step, onAnswer, ht]
      have hevent : p.event (env, .answer offerId sdp) = none := by
        simp [event, describedBy, hc, ht]
      rw [hstep, hevent]
      exact ⟨rfl, hp⟩
    | true =>
      have htaken : Synced { p with pendingOfferId := none } := ⟨hp.session, hp.flag⟩
      have hstep : p.step (env, .answer offerId sdp) =
          ({ p with pendingOfferId := none }.applyRemoteSdp env .answer sdp).1 := by
        simp [step, onAnswer, ht]
      obtain ⟨hin, hsync⟩ := intake_applyRemoteSdp htaken env .answer sdp hc
      have hevent : p.event (env, .answer offerId sdp) =
          if (c.awaitingAnswer && env.parses && env.accepts) = true then some (.key sdp)
          else none := by
        simp only [event, describedBy, hc, ht, Bool.true_and]
        split
        · rfl
        · rfl
      rw [hstep, hevent]
      refine ⟨hin.trans ?_, hsync⟩
      by_cases hyes : (c.awaitingAnswer && env.parses && env.accepts) = true
      · have hall : (SdpType.answer = .answer → c.awaitingAnswer = true) ∧ env.parses = true ∧
            env.accepts = true := by simpa [and_assoc] using hyes
        rw [if_pos hall, if_pos hyes]
        rfl
      · have hnot : ¬ ((SdpType.answer = .answer → c.awaitingAnswer = true) ∧ env.parses = true ∧
            env.accepts = true) := by simpa [and_assoc] using hyes
        rw [if_neg hnot, if_neg hyes]
        rfl
  | localOffer => exact intake_offer hp env
  | candidate x => exact intake_onCandidate hp x
  | dtls => exact intake_drive hp fun _ ↦ ⟨rfl, rfl⟩

/-! ### Runs of a session -/

/-- A fresh session. -/
theorem synced_opened (epoch : Nat) : (opened epoch).Synced := ⟨rfl, rfl⟩

/-- A run of the session is a run of the intake. -/
theorem intake_run {p : PeerConnection} (hp : p.Synced) (ops : List (NegotiationEnv × Op)) :
    (run step p ops).intake = run intakeStep p.intake (p.events ops) := by
  induction ops generalizing p with
  | nil => rfl
  | cons o rest ih =>
    obtain ⟨hin, hsync⟩ := intake_step hp o
    rw [run_cons, ih hsync, events, run_append, hin]
    cases p.event o with
    | none => rfl
    | some e => rfl

/-- The items of the intake are the delivered candidates. -/
theorem items_events (p : PeerConnection) (ops : List (NegotiationEnv × Op)) :
    Intake.items (p.events ops) = delivered ops := by
  induction ops generalizing p with
  | nil => rfl
  | cons o rest ih =>
    have hhead : Intake.items (p.event o).toList = delivered [o] := by
      obtain ⟨env, op⟩ := o
      cases op with
      | candidate x => rfl
      | _ => simp only [event]; cases p.describedBy _ <;> rfl
    rw [events, Intake.items, List.filterMap_append]
    show Intake.items (p.event o).toList ++ Intake.items (events (p.step o) rest) =
      delivered ([o] ++ rest)
    rw [hhead, ih, delivered, delivered, delivered, List.filterMap_append]

/-- A step is on time exactly when its event is. -/
theorem onTime_event_iff (last : String) (p : PeerConnection) (o : NegotiationEnv × Op) :
    OnTime last p o ↔
      ∀ e, p.event o = some e → Intake.OnTime fits (OfGeneration last) p.intake e := by
  obtain ⟨env, op⟩ := o
  cases op with
  | candidate x => simp [OnTime, event, Intake.OnTime, intake]
  | _ => simp [OnTime, event, Intake.OnTime, intake]

/-- So is a run. -/
theorem allSteps_onTime_iff (last : String) {p : PeerConnection} (hp : p.Synced)
    (ops : List (NegotiationEnv × Op)) :
    AllSteps step (OnTime last) p ops ↔
      AllSteps intakeStep (Intake.OnTime fits (OfGeneration last)) p.intake (p.events ops) := by
  induction ops generalizing p with
  | nil => exact Iff.rfl
  | cons o rest ih =>
    obtain ⟨hin, hsync⟩ := intake_step hp o
    rw [AllSteps, events, allSteps_append_iff, ih hsync, onTime_event_iff, hin]
    cases p.event o with
    | none => simp [AllSteps, run_nil]
    | some e => simp [AllSteps, run_cons, run_nil]

/-- A description that comes into force is one the step carries and the connection accepted. -/
theorem accepts_of_describedBy {p : PeerConnection} {o : NegotiationEnv × Op} {sdp : String}
    (h : p.describedBy o = some sdp) : o.1.accepts = true ∧ o.2.sdp? = some sdp := by
  obtain ⟨env, op⟩ := o
  cases hc : p.session with
  | none => cases op <;> simp [describedBy, hc] at h
  | some c =>
    cases op with
    | offer sdp' =>
      simp only [describedBy, hc, Option.ite_none_right_eq_some, Bool.and_eq_true,
        Option.some.injEq] at h
      exact ⟨h.1.2, congrArg some h.2⟩
    | answer offerId sdp' =>
      simp only [describedBy, hc, Option.ite_none_right_eq_some, Bool.and_eq_true,
        Option.some.injEq] at h
      exact ⟨h.1.2, congrArg some h.2⟩
    | _ => simp [describedBy] at h

/-- What an event stands for. -/
theorem event_cases {p : PeerConnection} {o : NegotiationEnv × Op}
    {e : Intake.Event String LocalIceCandidate} (h : p.event o = some e) :
    (∃ x, o.2 = .candidate x ∧ e = .item x) ∨ ∃ sdp, p.describedBy o = some sdp ∧ e = .key sdp := by
  unfold event at h
  split at h
  · next x hx =>
    cases h
    exact .inl ⟨x, hx, rfl⟩
  · obtain ⟨sdp, hsdp, rfl⟩ := Option.map_eq_some_iff.mp h
    exact .inr ⟨sdp, hsdp, rfl⟩

/-- The keys of a run are descriptions that the connection accepted, and its items the delivered
candidates. -/
theorem meets_of_mem_events {A : String → Prop} {B : LocalIceCandidate → Prop}
    (p : PeerConnection) {ops : List (NegotiationEnv × Op)}
    (hA : ∀ o ∈ ops, o.1.accepts = true → ∀ sdp, o.2.sdp? = some sdp → A sdp)
    (hB : ∀ x ∈ delivered ops, B x) : ∀ e ∈ p.events ops, e.Meets A B := by
  induction ops generalizing p with
  | nil => exact fun e he ↦ absurd he List.not_mem_nil
  | cons o rest ih =>
    intro e he
    obtain he | he := List.mem_append.mp he
    · have hevent : p.event o = some e := by simpa using he
      obtain ⟨x, hx, rfl⟩ | ⟨sdp, hsdp, rfl⟩ := event_cases hevent
      · exact hB x (by simp [delivered, hx, Op.candidate?])
      · obtain ⟨haccepts, hcarried⟩ := accepts_of_describedBy hsdp
        exact hA o (by simp) haccepts sdp hcarried
    · refine ih (p.step o) (fun o' ho' ↦ hA o' (by simp [ho'])) (fun x hx ↦ hB x ?_) e he
      rw [delivered, ← List.singleton_append, List.filterMap_append]
      exact List.mem_append_right _ hx

/-- Over a whole session, a candidate is handed to the connection only while a description of its
generation is in force; and every candidate of the generation described last is handed over once
for each delivery, exactly when none of them meets the description of another generation. The
connection refuses a description without a fragment, every candidate is marked, and the queue has
room for those that come first. -/
theorem candidates_reach_generation_iff (epoch : Nat) (ops : List (NegotiationEnv × Op))
    (hmarked : ∀ x ∈ delivered ops, (candidateUfrag x).isSome = true)
    (hufrags : ∀ o ∈ ops, o.1.accepts = true → ∀ sdp, o.2.sdp? = some sdp →
      sdpIceUfrags sdp ≠ [])
    (hfew : Intake.early ((opened epoch).events ops) ≤ maxPendingRemoteCandidates) :
    (∀ h ∈ (run step (opened epoch) ops).handed, OfGeneration h.1 h.2) ∧
    ∀ last, (run step (opened epoch) ops).inForce = some last →
      ((∀ x, OfGeneration last x →
          ((run step (opened epoch) ops).handed.map Prod.snd).count x =
            (delivered ops).count x) ↔
        AllSteps step (OnTime last) (opened epoch) ops) := by
  have hsync := synced_opened epoch
  have hrun : (run step (opened epoch) ops).intake =
      run (Intake.step fits maxPendingRemoteCandidates) .empty ((opened epoch).events ops) :=
    intake_run hsync ops
  constructor
  · have hempty : Intake.Sound fits (sdpIceUfrags · ≠ []) (fun x ↦ (candidateUfrag x).isSome = true)
        .empty :=
      ⟨fun _ h ↦ (by cases h), fun _ h ↦ absurd h List.not_mem_nil,
        fun _ h ↦ absurd h List.not_mem_nil⟩
    have hsound := hempty.run fits maxPendingRemoteCandidates
      (meets_of_mem_events (opened epoch) hufrags hmarked)
    rw [← hrun] at hsound
    intro h hh
    obtain ⟨hne, hsome, hfit⟩ := hsound.handed h hh
    obtain ⟨ufrag, hufrag⟩ := Option.isSome_iff_exists.mp hsome
    exact ⟨ufrag, hufrag, (candidateMatchesUfrags_iff hufrag hne).mp hfit⟩
  · intro last hlast
    have hkey : (run (Intake.step fits maxPendingRemoteCandidates) .empty
        ((opened epoch).events ops)).key ≠ none := by
      rw [← hrun]
      show (run step (opened epoch) ops).inForce ≠ none
      simp [hlast]
    have hcount := Intake.count_handed_eq_iff fits (OfGeneration last) hfew hkey
    rw [← hrun, items_events] at hcount
    rw [allSteps_onTime_iff last hsync]
    exact hcount

/-! ### Sessions of a network -/

/-- The entry is where some run of a session ends, or it has no session. -/
def Reached (p : PeerConnection) : Prop :=
  p.session = none ∨ ∃ epoch ops, p = run step (opened epoch) ops

/-- Nothing drives an entry without a session. -/
theorem session_step_of_none {p : PeerConnection} (h : p.session = none)
    (o : NegotiationEnv × Op) : (p.step o).session = none := by
  obtain ⟨env, op⟩ := o
  cases op with
  | offer sdp =>
    simp only [step, applyRemoteSdp, h, answer]
    split
    · exact h
    · simp [drive, h]
  | answer offerId sdp =>
    simp only [step, onAnswer]
    split
    · simp [applyRemoteSdp, h]
    · exact h
  | localOffer =>
    simp only [step, offer]
    split
    · exact h
    · split
      · simp [drive, h]
      · simp [issueOfferId, drive, h]
  | candidate x =>
    simp only [step, onCandidate]
    split
    · exact h
    · simp [drive, h]
  | dtls => simp [step, drive, h]

/-- One more step of the session. -/
theorem Reached.step {p : PeerConnection} (h : p.Reached) (o : NegotiationEnv × Op) :
    (p.step o).Reached := by
  obtain hnone | ⟨epoch, ops, rfl⟩ := h
  · exact .inl (session_step_of_none hnone o)
  · exact .inr ⟨epoch, ops ++ [o], by rw [run_append, run_cons, run_nil]⟩

/-- Our answer alone is the answer to an offer that did not parse. -/
theorem Reached.answer {p : PeerConnection} (h : p.Reached) (env : NegotiationEnv) :
    (p.answer env).Reached := by
  have hstep : p.step ({ env with parses := false }, .offer "") = p.answer env := by
    simp only [PeerConnection.step, applyRemoteSdp]
    cases p.session with
    | none => rfl
    | some c => simp [PeerConnection.answer]
  rw [← hstep]
  exact h.step _

/-- A description alone is an offer that we did not answer. -/
theorem Reached.applyOffer {p : PeerConnection} (h : p.Reached) (env : NegotiationEnv)
    (sdp : String) : (p.applyRemoteSdp env .offer sdp).1.Reached :=
  h.step ({ env with answerBuilt := none }, .offer sdp)

/-- What signaling does to an entry are steps of its session. -/
theorem closed_reached : SignalState.Closed Reached where
  placeholder := .inl rfl
  opened epoch := .inr ⟨epoch, [], rfl⟩
  offer env _ h := h.step (env, .localOffer)
  answer env _ h := h.answer env
  candidate x _ h := h.step (⟨none, none, false, false, "", false⟩, .candidate x)
  dtls _ h := h.step (⟨none, none, false, false, "", false⟩, .dtls)

/-- In every run of a network, every session stands where a run of session steps has brought it
from its opening. -/
theorem session_of_network {P : Primitives} (e : EngineState P) (autoApprove : Bool)
    (ops : List (SignalEnv × SignalOp)) (k : String) (p : PeerConnection)
    (hp : (run signalStep (.join e autoApprove) ops).connections[k]? = some p)
    (hsession : p.session.isSome = true) :
    ∃ epoch sessionOps, p = run step (opened epoch) sessionOps := by
  have hstep : ∀ (s : SignalState P) (o : SignalEnv × SignalOp), s.Entries Reached →
      (signalStep s o).Entries Reached := by
    intro s o hs
    refine SignalState.Entries.step closed_reached hs o ?_
    obtain ⟨env, op⟩ := o
    cases op with
    | offer k _ sdp => exact fun _ _ _ hreached ↦ hreached.applyOffer _ sdp
    | answer k offerId sdp => exact fun _ _ hreached ↦ hreached.step (_, .answer offerId sdp)
    | _ => trivial
  have hjoin : (SignalState.join e autoApprove).Entries Reached := by
    intro d q hq
    simp [SignalState.join] at hq
  obtain hnone | hreached := run_invariant hstep hjoin ops k p hp
  · simp [hnone] at hsession
  · exact hreached

/-! ### A restart -/

/-- A call on which the connection builds and accepts every description. -/
def agreeable : NegotiationEnv where
  offerBuilt := some "v=0"
  answerBuilt := some "v=0"
  parses := true
  accepts := true
  offerId := "id"
  recoveryAfter := false

/-- A description of this generation. -/
def generationSdp (ufrag : String) : String := "a=ice-ufrag:" ++ ufrag

/-- A candidate of this generation. -/
def generationCandidate (ufrag : String) : LocalIceCandidate :=
  ⟨"candidate:1 1 udp 1 192.0.2.1 9 typ host", none, none, some ufrag⟩

/-- A session with one restart. The first candidate comes before its description, the second
after. -/
def orderlyRestart : List (NegotiationEnv × Op) :=
  [(agreeable, .candidate (generationCandidate "one")), (agreeable, .offer (generationSdp "one")),
    (agreeable, .offer (generationSdp "two")), (agreeable, .candidate (generationCandidate "two"))]

/-- The same restart with the second candidate one message earlier. -/
def overtakenRestart : List (NegotiationEnv × Op) :=
  [(agreeable, .candidate (generationCandidate "one")), (agreeable, .offer (generationSdp "one")),
    (agreeable, .candidate (generationCandidate "two")), (agreeable, .offer (generationSdp "two"))]

/-- Every candidate of the restart arrives when its generation is described. -/
theorem orderly_restart_hands_over :
    (∀ h ∈ (run step (opened 0) orderlyRestart).handed, OfGeneration h.1 h.2) ∧
    ∀ x, OfGeneration (generationSdp "two") x →
      ((run step (opened 0) orderlyRestart).handed.map Prod.snd).count x =
        (delivered orderlyRestart).count x := by
  have hontime : AllSteps step (OnTime (generationSdp "two")) (opened 0) orderlyRestart := by
    refine ⟨fun _ sdp h ↦ (by cases h), ?_, ?_, ?_, trivial⟩
    · intro sdp hsdp x hx _
      cases hsdp
      rw [List.mem_singleton.mp hx]
      decide
    · intro sdp hsdp x hx
      cases hx
    · intro _ sdp hsdp
      cases hsdp
      decide
  obtain ⟨hmet, hall⟩ := candidates_reach_generation_iff 0 orderlyRestart (by decide) (by decide)
    (by decide)
  exact ⟨hmet, (hall (generationSdp "two") rfl).mpr hontime⟩

/-- A candidate that overtakes the description of its restart is taken for a stale one, and never
reaches the connection. -/
theorem overtaking_candidate_lost :
    ((∀ x ∈ delivered overtakenRestart, (candidateUfrag x).isSome = true) ∧
      (∀ o ∈ overtakenRestart, o.1.accepts = true → ∀ sdp, o.2.sdp? = some sdp →
        sdpIceUfrags sdp ≠ []) ∧
      Intake.early ((opened 0).events overtakenRestart) ≤ maxPendingRemoteCandidates) ∧
    ¬ ∀ last, (run step (opened 0) overtakenRestart).inForce = some last →
      ∀ x, OfGeneration last x →
        ((run step (opened 0) overtakenRestart).handed.map Prod.snd).count x =
          (delivered overtakenRestart).count x := by
  refine ⟨⟨by decide, by decide, by decide⟩, fun hall ↦ ?_⟩
  have hlost := hall (generationSdp "two") rfl (generationCandidate "two")
    ⟨"two", by decide, by decide⟩
  exact absurd hlost (by decide)

end PeerConnection

end MyOwnMesh
