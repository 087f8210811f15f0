import Mathlib.Logic.Function.Basic
import MyOwnMesh.Engine.Signaling

/-!
# Offers and their answers

One session, with the driver and the media task as they really run: an offer is installed on the
connection in one step and its id recorded in a later one, and an answer is checked against the
recorded id, then against the state of the connection, and then applied. The media task of
`service_media_renegotiations` runs beside the driver, so that its steps fall anywhere between
those of the driver.
-/

namespace MyOwnMesh

open Lib Lib.Replay

/-! ### Tasks -/

/-- Who offers on a session: the driver, on the four paths of `mod.rs`, or the media task. -/
inductive Who where
  | driver
  | media
  deriving DecidableEq, Repr

/-- Where an offer stands: about to be created, or created under its number and not recorded. -/
inductive OfferTask where
  | idle
  | offering
  | offered (offer : Nat)
  deriving DecidableEq, Repr

/-- Where the answer that the driver handles stands: its id passed, or the connection was also
seen to wait for an answer. -/
inductive AnswerTask where
  | idle
  | taken (offerId sdp : String)
  | checked (offerId sdp : String)
  deriving DecidableEq, Repr

/-- What happened between the session and its peer: an offer was sent under an id, an answer with
an id arrived, an answer was applied while an offer was outstanding. -/
inductive OfferEvent where
  | sent (offer : Nat) (offerId : String)
  | arrived (offerId : String)
  | applied (offer : Nat) (offerId : String)
  deriving DecidableEq, Repr

/-- A session with what runs on it. The log has the latest event first. -/
structure Negotiation where
  entry : PeerConnection
  tasks : Who → OfferTask
  answer : AnswerTask
  log : List OfferEvent

namespace Negotiation

/-- A session that was just opened. -/
def opened (epoch : Nat) : Negotiation where
  entry := .opened epoch
  tasks _ := .idle
  answer := .idle
  log := []

/-- The driver waits for its next message. -/
def driverIdle (s : Negotiation) : Bool := s.tasks .driver == .idle && s.answer == .idle

/-- A task goes on. -/
def setTask (s : Negotiation) (w : Who) (t : OfferTask) : Negotiation :=
  { s with tasks := Function.update s.tasks w t }

/-- The steps of the tasks. -/
inductive Act where
  | begin
  | spawn
  | create (w : Who) (built : Option String)
  | record (w : Who) (offerId : String)
  | abandon (w : Who)
  | answerArrives (offerId sdp : String)
  | answerChecks (reoffers : Bool)
  | answerApplies (accepted reoffers : Bool)

/-- The driver is done with an answer, and may offer again where it could not be applied;
`mod.rs:1945–2046`. -/
def giveUp (s : Negotiation) (reoffers : Bool) : Negotiation :=
  { s with answer := .idle }.setTask .driver (if reoffers then .offering else .idle)

/-- The state after one step. -/
def step (s : Negotiation) : Act → Negotiation
  -- The initial offer, a re-offer at `Sighted`, an ICE restart.
  | .begin => if s.driverIdle then s.setTask .driver .offering else s
  -- The media task goes on only where it finds the connection stable; `mod.rs:1107–1116`.
  | .spawn =>
    match s.entry.session with
    | none => s
    | some c =>
      if s.tasks .media = .idle ∧ c.signaling = .stable then s.setTask .media .offering else s
  | .create w built =>
    match s.tasks w, built, s.entry.session with
    | .offering, some sdp, some c =>
      { s with entry := s.entry.drive (.createOffer sdp) }.setTask w (.offered c.offers)
    | .offering, _, _ => s.setTask w .idle
    | _, _, _ => s
  | .record w offerId =>
    match s.tasks w with
    | .offered n =>
      { s with
        entry := s.entry.issueOfferId offerId
        log := .sent n offerId :: s.log }.setTask w .idle
    | _ => s
  -- The socket circuit armed, or the timer of the call ran out.
  | .abandon w =>
    match s.tasks w with
    | .offered _ => s.setTask w .idle
    | _ => s
  | .answerArrives offerId sdp =>
    if s.driverIdle then
      if s.entry.takesAnswer offerId then
        { s with
          entry := { s.entry with pendingOfferId := none }
          answer := .taken offerId sdp
          log := .arrived offerId :: s.log }
      else { s with log := .arrived offerId :: s.log }
    else s
  | .answerChecks reoffers =>
    match s.answer, s.entry.session with
    | .taken offerId sdp, some c =>
      if c.awaitingAnswer then { s with answer := .checked offerId sdp } else s.giveUp reoffers
    | .taken _ _, none => s.giveUp reoffers
    | _, _ => s
  | .answerApplies accepted reoffers =>
    match s.answer, s.entry.session.map PeerSession.signaling with
    | .checked offerId sdp, some (.haveLocalOffer n) =>
      if accepted then
        { s with
          entry := s.entry.describe .answer sdp
          answer := .idle
          log := .applied n offerId :: s.log }
      else s.giveUp reoffers
    | .checked _ _, _ => s.giveUp reoffers
    | _, _ => s

/-! ### The property -/

/-- Every answer with an id was applied to the offer that had been sent under it. -/
def Paired : List OfferEvent → Prop
  | [] => True
  | .applied n offerId :: older => (offerId ≠ "" → .sent n offerId ∈ older) ∧ Paired older
  | _ :: older => Paired older

/-- The offer sent last, with its id. -/
def lastSent : List OfferEvent → Option (Nat × String)
  | [] => none
  | .sent n offerId :: _ => some (n, offerId)
  | _ :: older => lastSent older

/-- The same, if no answer with that id arrived since, nor one without any. -/
def awaited : List OfferEvent → Option (Nat × String)
  | [] => none
  | .sent n offerId :: _ => some (n, offerId)
  | .arrived offerId :: older => (awaited older).filter fun a ↦ a.2 ≠ offerId ∧ offerId ≠ ""
  | .applied _ _ :: older => awaited older

/-- The step is one of the media task. -/
def Act.OfMedia : Act → Prop
  | .spawn => True
  | .create w _ => w = .media
  | .record w _ => w = .media
  | .abandon w => w = .media
  | _ => False

/-- No offer is created while an answer is handled; and an answer that arrives finds no offer
created without its id recorded, nor one recorded after another that was created later. -/
def Orderly (s : Negotiation) : Act → Prop
  | .create _ _ => s.answer = .idle
  | .answerArrives _ _ => (∀ w n, s.tasks w ≠ .offered n) ∧
      ∀ c n, s.entry.session = some c → c.offers = n + 1 →
        (lastSent s.log).map Prod.fst = some n
  | _ => True

/-! ### The log -/

/-- What is awaited was sent last. -/
theorem lastSent_of_awaited {log : List OfferEvent} {a : Nat × String} (h : awaited log = some a) :
    lastSent log = some a := by
  induction log with
  | nil => cases h
  | cons e older ih =>
    cases e with
    | sent n offerId => exact h
    | arrived offerId => exact ih (Option.filter_eq_some_iff.mp h).1
    | applied n offerId => exact ih h

/-- What was sent last was sent. -/
theorem mem_of_lastSent {log : List OfferEvent} {n : Nat} {offerId : String}
    (h : lastSent log = some (n, offerId)) : .sent n offerId ∈ log := by
  induction log with
  | nil => cases h
  | cons e older ih =>
    cases e with
    | sent m id =>
      cases h
      exact List.mem_cons_self
    | arrived id => exact List.mem_cons_of_mem _ (ih h)
    | applied m id => exact List.mem_cons_of_mem _ (ih h)

/-! ### The invariant -/

/-- What holds between the connection `c` of a session, the recorded id, the tasks and the log. -/
structure Inv (s : Negotiation) (c : PeerSession) : Prop where
  session : s.entry.session = some c
  outstanding : ∀ n, c.signaling = .haveLocalOffer n → c.offers = n + 1
  pending : ∀ id, s.entry.pendingOfferId = some id → (lastSent s.log).map Prod.snd = some id
  created : ∀ w n, s.tasks w = .offered n → n < c.offers
  sent : ∀ n id, .sent n id ∈ s.log → n < c.offers
  installed : ∀ w n, s.tasks w = .offered n → c.offers = n + 1 →
    c.signaling = .haveLocalOffer n
  busy : s.answer ≠ .idle →
    (∀ w n, s.tasks w ≠ .offered n) ∧ s.tasks .driver = .idle ∧ awaited s.log = none
  bound : ∀ id sdp, s.answer = .taken id sdp ∨ s.answer = .checked id sdp →
    id ≠ "" → ∀ n, c.signaling = .haveLocalOffer n → .sent n id ∈ s.log
  waiting : ∀ n id, awaited s.log = some (n, id) → c.offers = n + 1 →
    s.entry.pendingOfferId = some id ∧ c.signaling = .haveLocalOffer n
  paired : Paired s.log

variable {s : Negotiation} {c : PeerSession}

/-- An idle driver handles no answer. -/
theorem not_handled_of_idle {t : AnswerTask} (ht : t = .idle) {id sdp : String} :
    ¬ (t = .taken id sdp ∨ t = .checked id sdp) := by
  subst ht
  simp

/-- A fresh session. -/
theorem inv_opened (epoch : Nat) : Inv (opened epoch) .opened where
  session := rfl
  outstanding n h := by cases h
  pending id h := by cases h
  created w n h := by cases h
  sent n id h := absurd h List.not_mem_nil
  installed w n h := by cases h
  busy h := absurd rfl h
  bound id sdp h := absurd h (not_handled_of_idle rfl)
  waiting n id h := by cases h
  paired := trivial

/-- A task that holds no offer after it. -/
theorem Inv.setTask (h : Inv s c) {w : Who} {t : OfferTask} (ht : ∀ n, t ≠ .offered n)
    (hdriver : s.answer ≠ .idle → w = .driver → t = .idle) : Inv (s.setTask w t) c := by
  have hheld : ∀ w' n, (s.setTask w t).tasks w' = .offered n → s.tasks w' = .offered n := by
    intro w' n hn
    by_cases hw : w' = w
    · subst hw
      simp only [Negotiation.setTask, Function.update_self] at hn
      exact absurd hn (ht n)
    · simpa [Negotiation.setTask, Function.update_of_ne hw] using hn
  refine ⟨h.session, h.outstanding, h.pending, fun w' n hn ↦ h.created w' n (hheld w' n hn),
    h.sent, fun w' n hn ↦ h.installed w' n (hheld w' n hn), fun hbusy ↦ ?_, h.bound, h.waiting,
    h.paired⟩
  obtain ⟨hnone, hidle, hawaited⟩ := h.busy hbusy
  refine ⟨fun w' n hn ↦ hnone w' n (hheld w' n hn), ?_, hawaited⟩
  by_cases hw : Who.driver = w
  · subst hw
    simp [Negotiation.setTask, hdriver hbusy rfl]
  · simpa [Negotiation.setTask, Function.update_of_ne hw] using hidle

/-- The driver is done with its answer. -/
theorem Inv.answerIdle (h : Inv s c) : Inv { s with answer := .idle } c :=
  ⟨h.session, h.outstanding, h.pending, h.created, h.sent, h.installed,
    fun hbusy ↦ absurd rfl hbusy, fun _ _ ha ↦ absurd ha (not_handled_of_idle rfl), h.waiting,
    h.paired⟩

theorem Inv.giveUp (h : Inv s c) (reoffers : Bool) : Inv (s.giveUp reoffers) c := by
  refine h.answerIdle.setTask (fun n hn ↦ ?_) fun hbusy ↦ absurd rfl hbusy
  split at hn
  · cases hn
  · cases hn

/-- An offer is created while no answer is handled: it is the newest one, and outstanding. -/
theorem Inv.create (h : Inv s c) (hidle : s.answer = .idle) (w : Who) (sdp : String) :
    Inv ({ s with entry := s.entry.drive (.createOffer sdp) }.setTask w (.offered c.offers))
      (c.createOffer sdp) where
  session := by simp [Negotiation.setTask, PeerConnection.drive, h.session]
  outstanding n hn := by
    cases hn
    rfl
  pending := h.pending
  created w' n hn := by
    by_cases hw : w' = w
    · subst hw
      simp only [Negotiation.setTask, Function.update_self, OfferTask.offered.injEq] at hn
      simp only [PeerSession.createOffer]
      omega
    · have hlt := h.created w' n (by simpa [Negotiation.setTask, Function.update_of_ne hw] using hn)
      simp only [PeerSession.createOffer]
      omega
  sent n id hn := Nat.lt_succ_of_lt (h.sent n id hn)
  installed w' n hn hnewest := by
    have hn' : n = c.offers := by
      simp only [PeerSession.createOffer] at hnewest
      omega
    rw [hn']
    rfl
  busy hbusy := absurd hidle hbusy
  bound id sdp' ha := by
    exact absurd ha (not_handled_of_idle hidle)
  waiting n id ha hnewest := by
    -- An offer that was just created has not been sent.
    have hlt := h.sent n id (mem_of_lastSent (lastSent_of_awaited ha))
    simp only [PeerSession.createOffer] at hnewest
    omega
  paired := h.paired

/-- The id of a created offer is recorded. -/
theorem Inv.record (h : Inv s c) {w : Who} {n : Nat} (hw : s.tasks w = .offered n)
    (offerId : String) :
    Inv ({ s with
      entry := s.entry.issueOfferId offerId
      log := .sent n offerId :: s.log }.setTask w .idle) c := by
  have hidle : s.answer = .idle := by
    by_contra hbusy
    exact (h.busy hbusy).1 w n hw
  have hrecorded : Inv { s with
      entry := s.entry.issueOfferId offerId
      log := .sent n offerId :: s.log } c := by
    refine ⟨h.session, h.outstanding, fun id hid ↦ ?_, h.created, fun m id hm ↦ ?_, h.installed,
      fun hbusy ↦ absurd hidle hbusy, fun id sdp ha ↦ ?_, fun m id ha hnewest ↦ ?_, h.paired⟩
    · cases hid
      rfl
    · obtain hm | hm := List.mem_cons.mp hm
      · cases hm
        exact h.created w n hw
      · exact h.sent m id hm
    · exact absurd ha (not_handled_of_idle hidle)
    · cases ha
      exact ⟨rfl, h.installed w n hw hnewest⟩
  exact hrecorded.setTask (fun m hm ↦ by cases hm) fun _ _ ↦ rfl

/-- An answer is taken: with an id it is the recorded one, and the outstanding offer was sent
under it. -/
theorem Inv.take (h : Inv s c) (hdriver : s.tasks .driver = .idle) {offerId : String}
    (hnone : ∀ w n, s.tasks w ≠ .offered n)
    (hlast : ∀ n, c.offers = n + 1 → (lastSent s.log).map Prod.fst = some n)
    (htakes : s.entry.takesAnswer offerId = true) (sdp : String) :
    Inv { s with
      entry := { s.entry with pendingOfferId := none }
      answer := .taken offerId sdp
      log := .arrived offerId :: s.log } c := by
  have hpending : offerId ≠ "" → (lastSent s.log).map Prod.snd = some offerId := by
    intro hid
    refine h.pending offerId ?_
    simpa [PeerConnection.takesAnswer, hid] using htakes
  have hawaited : awaited (.arrived offerId :: s.log) = none := by
    simp only [awaited, Option.filter_eq_none_iff, decide_eq_true_eq, not_and, not_not]
    intro a ha hne
    by_contra hid
    have hsame := hpending hid
    rw [lastSent_of_awaited ha, Option.map_some, Option.some.injEq] at hsame
    exact hne hsame
  refine ⟨h.session, h.outstanding, fun id hid' ↦ (by cases hid'), h.created, fun n id hn ↦ ?_,
    h.installed, fun _ ↦ ⟨hnone, hdriver, hawaited⟩, fun id sdp' ha hid n hn ↦ ?_,
    fun n id ha ↦ ?_, h.paired⟩
  · obtain hn | hn := List.mem_cons.mp hn
    · cases hn
    · exact h.sent n id hn
  · have hsame : id = offerId := by
      rcases ha with ha | ha <;> cases ha
      rfl
    subst hsame
    have hfst := hlast n (h.outstanding n hn)
    obtain ⟨⟨m, id'⟩, hsent, hid'⟩ := Option.map_eq_some_iff.mp (hpending hid)
    rw [hsent, Option.map_some, Option.some.injEq] at hfst
    simp only at hfst hid'
    subst hfst hid'
    exact List.mem_cons_of_mem _ (mem_of_lastSent hsent)
  · rw [hawaited] at ha
    cases ha

/-- An answer that is not taken leaves the session alone. -/
theorem Inv.ignore (h : Inv s c) (hidle : s.answer = .idle) (offerId : String) :
    Inv { s with log := .arrived offerId :: s.log } c := by
  refine ⟨h.session, h.outstanding, h.pending, h.created, fun n id hn ↦ ?_, h.installed,
    fun hbusy ↦ absurd hidle hbusy, fun id sdp ha ↦ ?_, fun n id ha ↦ ?_, h.paired⟩
  · obtain hn | hn := List.mem_cons.mp hn
    · cases hn
    · exact h.sent n id hn
  · exact absurd ha (not_handled_of_idle hidle)
  · exact h.waiting n id (Option.filter_eq_some_iff.mp ha).1

/-- The connection is seen to wait for an answer. -/
theorem Inv.check (h : Inv s c) {offerId sdp : String} (ha : s.answer = .taken offerId sdp) :
    Inv { s with answer := .checked offerId sdp } c := by
  have hbusy : s.answer ≠ .idle := by
    rw [ha]
    intro hno
    cases hno
  refine ⟨h.session, h.outstanding, h.pending, h.created, h.sent, h.installed,
    fun _ ↦ h.busy hbusy, fun id sdp' ha' ↦ ?_, h.waiting, h.paired⟩
  refine h.bound id sdp' (.inl ?_)
  rcases ha' with ha' | ha' <;> cases ha'
  exact ha

/-- The answer completes the outstanding offer. -/
theorem Inv.apply (h : Inv s c) {offerId sdp : String} (ha : s.answer = .checked offerId sdp)
    {n : Nat} (hn : c.signaling = .haveLocalOffer n) :
    ∃ c', Inv { s with
      entry := s.entry.describe .answer sdp
      answer := .idle
      log := .applied n offerId :: s.log } c' := by
  have hbusy : s.answer ≠ .idle := by
    rw [ha]
    intro hno
    cases hno
  obtain ⟨hnone, -, hawaited⟩ := h.busy hbusy
  refine ⟨(c.setRemoteDescription .answer sdp).addIceCandidates
    (s.entry.pendingRemoteCandidates.filter (candidateMatchesUfrags · (sdpIceUfrags sdp))), ?_⟩
  refine ⟨?_, fun m hm ↦ (by cases hm), h.pending, h.created, fun m id hm ↦ ?_,
    fun w m hm ↦ absurd hm (hnone w m), fun hno ↦ absurd rfl hno, fun id sdp' ha' ↦ ?_,
    fun m id hm ↦ ?_, ⟨fun hid ↦ h.bound offerId sdp (.inr ha) hid n hn, h.paired⟩⟩
  · simp [PeerConnection.describe, PeerConnection.drive, h.session]
  · obtain hm | hm := List.mem_cons.mp hm
    · cases hm
    · exact h.sent m id hm
  · exact absurd ha' (not_handled_of_idle rfl)
  · rw [awaited, hawaited] at hm
    cases hm

/-- One step. -/
theorem Inv.step (h : Inv s c) {a : Act} (ha : Orderly s a) : ∃ c', Inv (step s a) c' := by
  cases a with
  | begin =>
    simp only [Negotiation.step]
    split
    · next hidle =>
      simp only [driverIdle, Bool.and_eq_true, beq_iff_eq] at hidle
      exact ⟨c, h.setTask (fun _ hn ↦ by cases hn) fun hbusy ↦ absurd hidle.2 hbusy⟩
    · exact ⟨c, h⟩
  | spawn =>
    simp only [Negotiation.step, h.session]
    split
    · exact ⟨c, h.setTask (fun _ hn ↦ by cases hn) fun _ hw ↦ by cases hw⟩
    · exact ⟨c, h⟩
  | create w built =>
    have hidle : s.answer = .idle := ha
    simp only [Negotiation.step, h.session]
    cases hw : s.tasks w with
    | offering =>
      cases built with
      | none => exact ⟨c, h.setTask (fun _ hn ↦ by cases hn) fun hbusy ↦ absurd hidle hbusy⟩
      | some sdp => exact ⟨_, h.create hidle w sdp⟩
    | idle => exact ⟨c, h⟩
    | offered n => exact ⟨c, h⟩
  | record w offerId =>
    simp only [Negotiation.step]
    split
    · next n hw => exact ⟨c, h.record hw offerId⟩
    · exact ⟨c, h⟩
  | abandon w =>
    simp only [Negotiation.step]
    split
    · exact ⟨c, h.setTask (fun _ hn ↦ by cases hn) fun _ _ ↦ rfl⟩
    · exact ⟨c, h⟩
  | answerArrives offerId sdp =>
    obtain ⟨hnone, hlast⟩ := ha
    simp only [Negotiation.step]
    split
    · next hidle =>
      simp only [driverIdle, Bool.and_eq_true, beq_iff_eq] at hidle
      split
      · next htakes =>
        exact ⟨c, h.take hidle.1 hnone (fun n ↦ hlast c n h.session) htakes sdp⟩
      · exact ⟨c, h.ignore hidle.2 offerId⟩
    · exact ⟨c, h⟩
  | answerChecks reoffers =>
    simp only [Negotiation.step, h.session]
    cases hanswer : s.answer with
    | idle => exact ⟨c, h⟩
    | taken offerId sdp =>
      simp only
      split
      · exact ⟨c, h.check hanswer⟩
      · exact ⟨c, h.giveUp reoffers⟩
    | checked offerId sdp => exact ⟨c, h⟩
  | answerApplies accepted reoffers =>
    simp only [Negotiation.step, h.session, Option.map_some]
    cases hanswer : s.answer with
    | idle => exact ⟨c, h⟩
    | taken offerId sdp => exact ⟨c, h⟩
    | checked offerId sdp =>
      cases hn : c.signaling with
      | haveLocalOffer n =>
        simp only
        split
        · exact h.apply hanswer hn
        · exact ⟨c, h.giveUp reoffers⟩
      | stable => exact ⟨c, h.giveUp reoffers⟩
      | haveRemoteOffer => exact ⟨c, h.giveUp reoffers⟩

/-- A whole run. -/
theorem inv_run {epoch : Nat} {acts : List Act}
    (h : AllSteps step Orderly (opened epoch) acts) : ∃ c, Inv (run step (opened epoch) acts) c :=
  forall_run_of_allSteps (I := fun s ↦ ∃ c, Inv s c) (fun _ _ ⟨_, hs⟩ ha ↦ hs.step ha)
    ⟨_, inv_opened epoch⟩ h acts [] (List.append_nil acts).symm

/-! ### The answer that is awaited -/

/-- While an answer is handled and an offer outstanding, the media task can do nothing. -/
theorem Inv.step_of_media (h : Inv s c) (hbusy : s.answer ≠ .idle) {n : Nat}
    (hn : c.signaling = .haveLocalOffer n) {a : Act} (hmedia : a.OfMedia) (ha : Orderly s a) :
    Negotiation.step s a = s := by
  obtain ⟨hnone, -, -⟩ := h.busy hbusy
  cases a with
  | spawn => simp [Negotiation.step, h.session, hn]
  | create w built => exact absurd ha hbusy
  | record w offerId =>
    simp only [Negotiation.step]
    split
    · next m hw => exact absurd hw (hnone w m)
    · rfl
  | abandon w =>
    simp only [Negotiation.step]
    split
    · next m hw => exact absurd hw (hnone w m)
    · rfl
  | _ => exact absurd hmedia id

/-- Nor can any number of its steps. -/
theorem Inv.run_of_media (h : Inv s c) (hbusy : s.answer ≠ .idle) {n : Nat}
    (hn : c.signaling = .haveLocalOffer n) {acts : List Act} (hmedia : ∀ a ∈ acts, a.OfMedia)
    (ha : AllSteps Negotiation.step Orderly s acts) : run Negotiation.step s acts = s := by
  induction acts with
  | nil => rfl
  | cons a rest ih =>
    have hstep := h.step_of_media hbusy hn (hmedia a (by simp)) ha.1
    rw [run_cons, hstep]
    refine ih (fun b hb ↦ hmedia b (by simp [hb])) ?_
    have hrest := ha.2
    rw [hstep] at hrest
    exact hrest

/-- How the driver handles an answer that the connection accepts, with steps of the media task in
between. -/
def handling (offerId sdp : String) (mid mid' : List Act) (again again' : Bool) : List Act :=
  .answerArrives offerId sdp :: mid ++ .answerChecks again :: mid' ++ [.answerApplies true again']

/-- The first answer with the id of the newest offer is applied to that offer. -/
theorem Inv.applies_awaited (h : Inv s c) (hidle : s.driverIdle = true) {n : Nat}
    {offerId sdp : String} (hnewest : c.offers = n + 1)
    (hawaited : awaited s.log = some (n, offerId)) {mid mid' : List Act} {again again' : Bool}
    (hmedia : ∀ a ∈ mid ++ mid', a.OfMedia)
    (hacts : AllSteps Negotiation.step Orderly s (handling offerId sdp mid mid' again again')) :
    (run Negotiation.step s (handling offerId sdp mid mid' again again')).log =
      .applied n offerId :: .arrived offerId :: s.log := by
  obtain ⟨hpending, hn⟩ := h.waiting n offerId hawaited hnewest
  have htakes : s.entry.takesAnswer offerId = true := by
    simp [PeerConnection.takesAnswer, hpending]
  -- The answer passes the check of its id.
  have harrive : Negotiation.step s (.answerArrives offerId sdp) =
      { s with
        entry := { s.entry with pendingOfferId := none }
        answer := .taken offerId sdp
        log := .arrived offerId :: s.log } := by
    simp only [Negotiation.step, hidle, htakes, ↓reduceIte]
  simp only [handling, List.cons_append, List.append_assoc] at hacts ⊢
  obtain ⟨⟨hnone, hlast⟩, hafter⟩ := hacts
  simp only [driverIdle, Bool.and_eq_true, beq_iff_eq] at hidle
  have htaken := h.take hidle.1 hnone (fun m ↦ hlast c m h.session) htakes sdp
  rw [harrive, allSteps_append_iff] at hafter
  rw [run_cons, harrive, run_append]
  have hbusy : ∀ t : AnswerTask, t = .taken offerId sdp ∨ t = .checked offerId sdp → t ≠ .idle := by
    rintro t (rfl | rfl) hno <;> cases hno
  rw [htaken.run_of_media (hbusy _ (.inl rfl)) hn (fun a ha ↦ hmedia a (by simp [ha])) hafter.1]
    at hafter ⊢
  -- The connection waits for an answer.
  have hwaits : c.awaitingAnswer = true := by simp [PeerSession.awaitingAnswer, hn]
  have hcheck : Negotiation.step
      { s with
        entry := { s.entry with pendingOfferId := none }
        answer := .taken offerId sdp
        log := .arrived offerId :: s.log } (.answerChecks again) =
      { s with
        entry := { s.entry with pendingOfferId := none }
        answer := .checked offerId sdp
        log := .arrived offerId :: s.log } := by
    simp only [Negotiation.step, h.session, hwaits, ↓reduceIte]
  have hchecked := htaken.check rfl
  obtain ⟨-, -, hlater⟩ := hafter
  rw [hcheck, allSteps_append_iff] at hlater
  rw [run_cons, hcheck, run_append,
    hchecked.run_of_media (hbusy _ (.inr rfl)) hn (fun a ha ↦ hmedia a (by simp [ha])) hlater.1,
    run_cons, run_nil]
  simp only [Negotiation.step, h.session, Option.map_some, hn, ↓reduceIte]

/-- In every interleaving of a session whose steps are orderly, an answer is applied only while the
outstanding offer is the one that was sent under its id; and the first answer with the id of the
newest offer is applied to it, whatever answers with other ids arrived before. -/
theorem answers_pair_with_offers (epoch : Nat) (acts : List Act)
    (hacts : AllSteps step Orderly (opened epoch) acts) :
    Paired (run step (opened epoch) acts).log ∧
    ∀ c n offerId sdp mid mid' again again',
      (run step (opened epoch) acts).driverIdle = true →
      (run step (opened epoch) acts).entry.session = some c → c.offers = n + 1 →
      awaited (run step (opened epoch) acts).log = some (n, offerId) →
      (∀ a ∈ mid ++ mid', a.OfMedia) →
      AllSteps step Orderly (run step (opened epoch) acts)
        (handling offerId sdp mid mid' again again') →
      .applied n offerId ∈ (run step (run step (opened epoch) acts)
        (handling offerId sdp mid mid' again again')).log := by
  obtain ⟨c, hinv⟩ := inv_run hacts
  refine ⟨hinv.paired, ?_⟩
  intro c' n offerId sdp mid mid' again again' hidle hsession hnewest hawaited hmedia hhandling
  rw [hinv.session, Option.some.injEq] at hsession
  subst hsession
  rw [hinv.applies_awaited hidle hnewest hawaited hmedia hhandling]
  exact List.mem_cons_self

/-! ### Undisturbed tasks -/

/-- Without other steps in between, the steps of an offer make up the offer of the entry. -/
theorem entry_run_offer (env : NegotiationEnv) (hidle : s.driverIdle = true)
    (hsession : s.entry.session.isSome = true) :
    (run step s [.begin, .create .driver env.offerBuilt,
      if env.recoveryAfter then .abandon .driver else .record .driver env.offerId]).entry =
      s.entry.offer env := by
  obtain ⟨c, hc⟩ := Option.isSome_iff_exists.mp hsession
  simp only [run_cons, run_nil, step, hidle, ↓reduceIte, setTask, Function.update_self, hc]
  unfold PeerConnection.offer
  cases env.offerBuilt with
  | none => cases env.recoveryAfter <;> simp
  | some sdp => cases env.recoveryAfter <;> simp

/-- So do the steps of an answer. -/
theorem entry_run_answer (env : NegotiationEnv) (offerId sdp : String) (again again' : Bool)
    (hidle : s.driverIdle = true) (hsession : s.entry.session.isSome = true) :
    (run step s [.answerArrives offerId sdp, .answerChecks again,
      .answerApplies (env.parses && env.accepts) again']).entry =
      (s.entry.onAnswer env offerId sdp).1 := by
  obtain ⟨c, hc⟩ := Option.isSome_iff_exists.mp hsession
  have hanswer : s.answer = .idle := by
    simp only [driverIdle, Bool.and_eq_true, beq_iff_eq] at hidle
    exact hidle.2
  unfold PeerConnection.onAnswer
  cases ht : s.entry.takesAnswer offerId with
  | false => simp [run_cons, run_nil, step, hidle, ht, hanswer]
  | true =>
    simp only [run_cons, run_nil, step, hidle, ht, ↓reduceIte, hc, PeerConnection.applyRemoteSdp]
    cases hn : c.signaling with
    | haveLocalOffer n =>
      have hwaits : c.awaitingAnswer = true := by simp [PeerSession.awaitingAnswer, hn]
      cases hp : env.parses <;> cases ha : env.accepts <;>
        simp [hwaits, hn, giveUp, setTask]
    | stable =>
      have hwaits : c.awaitingAnswer = false := by simp [PeerSession.awaitingAnswer, hn]
      simp [hwaits, giveUp, setTask]
    | haveRemoteOffer =>
      have hwaits : c.awaitingAnswer = false := by simp [PeerSession.awaitingAnswer, hn]
      simp [hwaits, giveUp, setTask]

/-! ### Two runs -/

/-- One offer, sent under its id. -/
def firstOffer : List Act :=
  [.begin, .create .driver (some "v=0"), .record .driver "first"]

/-- The media task finds the connection stable; before it offers, the driver restarts ICE. Its
offer replaces that of the driver, whose answer arrives first. -/
def overtakenOffer : List Act :=
  firstOffer ++ handling "first" "v=0" [] [] false false ++
    [.spawn, .begin, .create .driver (some "v=0"), .record .driver "second",
      .create .media (some "v=0")] ++ handling "second" "v=0" [] [] false false

/-- An answer without an id arrives first. -/
def unlabelledAnswer : List Act := firstOffer ++ handling "" "v=0" [] [] false false

/-- Nothing stands between the first offer and its answer. -/
theorem first_answer_applied :
    Paired (run step (opened 0) firstOffer).log ∧
      .applied 0 "first" ∈ (run step (run step (opened 0) firstOffer)
        (handling "first" "v=0" [.spawn] [] false false)).log := by
  have hfirst : AllSteps step Orderly (opened 0) firstOffer := ⟨trivial, rfl, trivial, trivial⟩
  obtain ⟨hpaired, happlied⟩ := answers_pair_with_offers 0 firstOffer hfirst
  refine ⟨hpaired, happlied _ 0 "first" "v=0" [.spawn] [] false false rfl rfl rfl rfl ?_ ?_⟩
  · intro a ha
    rw [List.append_nil, List.mem_singleton] at ha
    subst ha
    trivial
  · refine ⟨⟨fun w n h ↦ ?_, fun c n hc hn ↦ ?_⟩, trivial, trivial, trivial, trivial⟩
    · cases w <;> cases h
    · cases hc
      cases hn
      rfl

/-- The answer to the ICE restart completes the offer of the media task, which was not sent yet;
and where an answer without an id came first, the one with the id of the
newest offer is not applied. -/
theorem answers_cross :
    ¬ Paired (run step (opened 0) overtakenOffer).log ∧
    (run step (opened 0) unlabelledAnswer).driverIdle = true ∧
    (run step (opened 0) unlabelledAnswer).entry.session.map PeerSession.offers = some 1 ∧
    lastSent (run step (opened 0) unlabelledAnswer).log = some (0, "first") ∧
    .arrived "first" ∉ (run step (opened 0) unlabelledAnswer).log ∧
    .applied 0 "first" ∉ (run step (run step (opened 0) unlabelledAnswer)
      (handling "first" "v=0" [] [] false false)).log := by
  have hlog : (run step (opened 0) overtakenOffer).log =
      [.applied 2 "second", .arrived "second", .sent 1 "second", .applied 0 "first",
        .arrived "first", .sent 0 "first"] := by decide
  refine ⟨?_, by decide, by decide, by decide, by decide, by decide⟩
  rw [hlog]
  rintro ⟨hsent, -⟩
  exact absurd (hsent (by decide)) (by decide)

end Negotiation

end MyOwnMesh
