import MyOwnMesh.Engine.Strangers
import MyOwnMesh.Lib.Delimited
import MyOwnMesh.Lib.Trace

/-!
# What an authentication proves

The handshake of `crates/myownmesh-core/src/engine/handshake.rs` among many devices that run the
code, over a network that delivers whatever it likes to whomever it likes. A device that opens a
channel draws a nonce; a device that is sent a hello signs the nonce, both ids and the fingerprint
of the certificate it presents on that channel; the drawer checks the signature against the nonce
it drew and the fingerprint it observes.

The fingerprints of a session are read from its descriptions in force (`webrtc.rs:1633–1658`). A
description can be applied at any time: an answer is taken without a look at the fingerprint it
names (`mod.rs:832–867`). So what a device observes may change after it has authenticated the peer.
-/

namespace MyOwnMesh

open Lib Lib.Trace

variable {P : Primitives}

/-! ### What a step does to an entry -/

/-- The entry is in the same session, waits for the same answer and is authenticated as before. -/
structure SameCredentials (p p' : PeerState) : Prop where
  session : p'.session = p.session
  nonceSent : p'.nonceSent = p.nonceSent
  authenticated : p'.authenticated = p.authenticated

theorem SameCredentials.refl (p : PeerState) : SameCredentials p p := ⟨rfl, rfl, rfl⟩

theorem SameCredentials.trans {p p' p'' : PeerState} (h : SameCredentials p p')
    (h' : SameCredentials p' p'') : SameCredentials p p'' :=
  ⟨h'.session.trans h.session, h'.nonceSent.trans h.nonceSent,
    h'.authenticated.trans h.authenticated⟩

/-- Every entry was there with the same credentials, and the device has the same key. -/
structure CredentialsKept (s s' : SessionState P) : Prop where
  entries : ∀ (k : String) (p' : PeerState), s'.peers[k]? = some p' →
    ∃ p, s.peers[k]? = some p ∧ SameCredentials p p'
  key : s'.engine.signingKey = s.engine.signingKey

namespace CredentialsKept

variable {s s' s'' : SessionState P}

theorem of_peers (hpeers : s'.peers = s.peers)
    (hkey : s'.engine.signingKey = s.engine.signingKey) : CredentialsKept s s' where
  entries _ p' h := ⟨p', hpeers ▸ h, .refl p'⟩
  key := hkey

theorem refl (s : SessionState P) : CredentialsKept s s := of_peers rfl rfl

theorem trans (h : CredentialsKept s s') (h' : CredentialsKept s' s'') : CredentialsKept s s'' where
  entries k p'' hp'' := by
    obtain ⟨p', hp', hsame'⟩ := h'.entries k p'' hp''
    obtain ⟨p, hp, hsame⟩ := h.entries k p' hp'
    exact ⟨p, hp, hsame.trans hsame'⟩
  key := h'.key.trans h.key

/-- An edit that leaves the credentials alone. -/
theorem modifyPeer (s : SessionState P) (d : String) {f : PeerState → PeerState}
    (hf : ∀ p, SameCredentials p (f p)) : CredentialsKept s (s.modifyPeer d f) where
  entries k p' h := by
    rw [SessionState.modifyPeer, getElem?_modify_peer] at h
    split at h
    · obtain ⟨p, hp, rfl⟩ := Option.map_eq_some_iff.mp h
      exact ⟨p, hp, hf p⟩
    · exact ⟨p', h, .refl p'⟩
  key := rfl

theorem reevaluateTopology (env : SessionEnv) (s : SessionState P) :
    CredentialsKept s (MyOwnMesh.reevaluateTopology env s) := by
  unfold MyOwnMesh.reevaluateTopology
  split
  · exact refl s
  · refine ⟨fun k p' h ↦ ?_, rfl⟩
    rw [Std.ExtTreeMap.getElem?_map] at h
    obtain ⟨p, hp, rfl⟩ := Option.map_eq_some_iff.mp h
    refine ⟨p, hp, ?_⟩
    split
    · exact ⟨rfl, rfl, rfl⟩
    · exact .refl p

theorem dropPeer (env : SessionEnv) (s : SessionState P) (d : String) :
    CredentialsKept s (MyOwnMesh.dropPeer env s d) := by
  unfold MyOwnMesh.dropPeer
  split
  · exact refl s
  · split
    · exact refl s
    · have herased : ∀ t : SessionState P, t.peers = s.peers.erase d → t.engine = s.engine →
          CredentialsKept s t := by
        intro t hpeers hengine
        refine ⟨fun k p' h ↦ ?_, by rw [hengine]⟩
        rw [hpeers, getElem?_erase_peer] at h
        split at h
        · cases h
        · exact ⟨p', h, .refl p'⟩
      refine CredentialsKept.trans ?_ (reevaluateTopology env _)
      exact herased _ rfl rfl

theorem denyIfEvicted (s : SessionState P) (d : String) :
    CredentialsKept s (MyOwnMesh.denyIfEvicted s d) := by
  unfold MyOwnMesh.denyIfEvicted
  split
  · exact of_peers rfl rfl
  · exact refl s

theorem approveRoster (env : SessionEnv) (s : SessionState P) (d label : String) :
    CredentialsKept s (MyOwnMesh.approveRoster env s d label).1 := by
  refine of_peers (peers_approveRoster env s d label) ?_
  unfold MyOwnMesh.approveRoster
  split <;> rfl

theorem settleActivation (env : SessionEnv) (s : SessionState P) (d : String) :
    CredentialsKept s (MyOwnMesh.settleActivation env s d) := by
  unfold MyOwnMesh.settleActivation
  split
  · exact refl s
  · split
    · have hpromoted : CredentialsKept s (s.modifyPeer d fun q ↦ { q with status := .active }) :=
        modifyPeer s d fun p ↦ ⟨rfl, rfl, rfl⟩
      exact (hpromoted.trans (approveRoster env _ d _)).trans (reevaluateTopology env _)
    · exact refl s

theorem sendLocalApprove (env : SessionEnv) (s : SessionState P) (d : String) :
    CredentialsKept s (MyOwnMesh.sendLocalApprove env s d) := by
  unfold MyOwnMesh.sendLocalApprove
  split
  · exact refl s
  · split
    · exact refl s
    · have hlatched : CredentialsKept s
          (s.modifyPeer d fun q ↦ { q with localApproveSent := true }) :=
        modifyPeer s d fun p ↦ ⟨rfl, rfl, rfl⟩
      simp only
      split
      · exact hlatched.trans (settleActivation env _ d)
      · exact hlatched.trans (modifyPeer _ d fun p ↦ ⟨rfl, rfl, rfl⟩)

theorem onApprove (env : SessionEnv) (s : SessionState P) (d : String) :
    CredentialsKept s (MyOwnMesh.onApprove env s d) := by
  have hseen : CredentialsKept s (s.modifyPeer d fun p ↦ { p with remoteApproveSeen := true }) :=
    modifyPeer s d fun p ↦ ⟨rfl, rfl, rfl⟩
  exact hseen.trans (settleActivation env _ d)

theorem onHello (env : SessionEnv) (s : SessionState P) (d : String) (msg : HelloMessage) :
    CredentialsKept s (MyOwnMesh.onHello env s d msg) := by
  have hnoted : CredentialsKept s (s.modifyPeer d fun p ↦
      { p with nonceReceived := some msg.nonce, label := msg.label }) :=
    modifyPeer s d fun p ↦ ⟨rfl, rfl, rfl⟩
  unfold MyOwnMesh.onHello
  split
  · exact dropPeer env s d
  · simp only
    split
    · exact hnoted.trans (dropPeer env _ d)
    · split
      · exact hnoted.trans (dropPeer env _ d)
      · exact hnoted

theorem foldl {step : SessionState P → String → SessionState P}
    (hstep : ∀ s d, CredentialsKept s (step s d)) (ds : List String) (s : SessionState P) :
    CredentialsKept s (ds.foldl step s) := by
  induction ds generalizing s with
  | nil => exact refl s
  | cons d ds ih => exact (hstep s d).trans (ih _)

theorem adoptLogs (env : SessionEnv) (s : SessionState P) (gov members : List Transition) :
    CredentialsKept s (MyOwnMesh.adoptLogs env s gov members) := by
  have hkey : (adoptTransitionLog env.toEnv s.engine gov members).signingKey =
      s.engine.signingKey := (step_frame s.engine (env.toEnv, .adoptTransitionLog gov members)).2
  have hengine : ∀ t : SessionState P, t.peers = s.peers →
      t.engine.signingKey = (adoptTransitionLog env.toEnv s.engine gov members).signingKey →
      CredentialsKept s t := fun t hpeers ht ↦ of_peers hpeers (ht.trans hkey)
  unfold MyOwnMesh.adoptLogs
  simp only
  split
  · exact hengine _ rfl rfl
  · have hrefreshed : ∀ t : SessionState P, CredentialsKept s t →
        CredentialsKept s { t with engine := refreshSelfEvicted t.engine } :=
      fun _ h ↦ h.trans (of_peers rfl rfl)
    -- what the two loops leave alone, the selector and the merge left alone too
    have hshaped : ∀ t : SessionState P, CredentialsKept s t →
        ∀ (owed gone : List String) (b : Bool), CredentialsKept s
          (if b then gone.foldl MyOwnMesh.denyIfEvicted
            (owed.foldl (MyOwnMesh.sendLocalApprove env) t)
          else owed.foldl (MyOwnMesh.sendLocalApprove env) t) := by
      intro t ht owed gone b
      have happroved := ht.trans (foldl (sendLocalApprove env) owed t)
      cases b with
      | true => exact happroved.trans (foldl denyIfEvicted gone _)
      | false => exact happroved
    refine hrefreshed _ (hshaped _ ?_ _ _ _)
    split
    · refine CredentialsKept.trans ?_ (reevaluateTopology env _)
      exact hengine _ rfl rfl
    · exact hengine _ rfl rfl

theorem govern (env : SessionEnv) (s : SessionState P) (op : GovOp) :
    CredentialsKept s (MyOwnMesh.govern env s op) := by
  have hengine : ∀ t : SessionState P, t.peers = s.peers →
      t.engine = step s.engine (env.toEnv, op) → CredentialsKept s t := fun t hpeers hengine ↦
    of_peers hpeers (by rw [hengine]; exact (step_frame s.engine (env.toEnv, op)).2)
  unfold MyOwnMesh.govern
  simp only
  split
  · exact hengine _ rfl rfl
  · split
    · split
      · exact hengine _ rfl rfl
      · exact hengine _ rfl rfl
    · -- the selector runs on the old verdict, and the new engine is written back
      have hmerged : CredentialsKept s { s with engine :=
          { step s.engine (env.toEnv, op) with selfEvicted := s.engine.selfEvicted } } :=
        of_peers rfl (step_frame s.engine (env.toEnv, op)).2
      refine (hmerged.trans (reevaluateTopology env _)).trans (of_peers rfl ?_)
      rw [engine_reevaluateTopology]
    · exact hengine _ rfl rfl

theorem onDeny (env : SessionEnv) (s : SessionState P) (d : String)
    (transitions memberLog : List Transition) :
    CredentialsKept s (s.onDeny env d transitions memberLog) := by
  unfold SessionState.onDeny
  simp only
  refine CredentialsKept.trans ?_ (dropPeer env _ d)
  split
  · exact refl s
  · exact (adoptLogs env s transitions memberLog).trans (of_peers rfl rfl)

end CredentialsKept

/-- Where the entry of a device comes from after a step. -/
inductive Origin (s : SessionState P) (op : SessionOp) (k : String) (p' : PeerState) : Prop
  /-- It was there, with the same credentials. -/
  | kept {p : PeerState} (hp : s.peers[k]? = some p) (hsame : SameCredentials p p')
  /-- The device was sighted. -/
  | sighted (hop : op = .sighted k) (hp' : p' = .fresh none)
  /-- A session was opened. -/
  | connected {session : TransportSession} (hop : op = .connect k session)
      (hp' : p' = .fresh (some session))
  /-- Its channel came up, and a nonce was drawn. -/
  | drew {p : PeerState} {nonce : String} (hop : op = .dataChannelOpen k nonce)
      (hp : s.peers[k]? = some p) (hsame : SameCredentials { p with nonceSent := some nonce } p')
  /-- Its answer passed. -/
  | passed {p : PeerState} {signature : String} (hop : op = .authResponse k signature)
      (hp : s.peers[k]? = some p) (hpasses : authenticates s k signature p = true)
      (hsame : SameCredentials { p with authenticated := true } p')

theorem CredentialsKept.origin {s s' : SessionState P} (h : CredentialsKept s s')
    (op : SessionOp) {k : String} {p' : PeerState} (hp' : s'.peers[k]? = some p') :
    Origin s op k p' := by
  obtain ⟨p, hp, hsame⟩ := h.entries k p' hp'
  exact .kept hp hsame

/-- An answer that does not pass authenticates nobody. -/
private theorem onAuthResponse_carried (env : SessionEnv) {s : SessionState P}
    {d signature : String} (h : ∀ p, s.peers[d]? = some p → authenticates s d signature p = false) :
    CredentialsKept s (onAuthResponse env s d signature) := by
  rcases onAuthResponse_of_not env h with heq | heq | heq
  · rw [heq]
    exact .refl s
  · rw [heq]
    exact .dropPeer env s d
  · rw [heq]
    exact .denyIfEvicted s d

/-- An answer that passes authenticates its device and nobody else. -/
private theorem onAuthResponse_passes (env : SessionEnv) {s : SessionState P}
    {d signature : String} {p : PeerState} (hp : s.peers[d]? = some p)
    (h : authenticates s d signature p = true) :
    CredentialsKept
      (s.modifyPeer d fun q ↦ { q with authenticated := true, status := .pendingApproval })
      (onAuthResponse env s d signature) := by
  unfold authenticates at h
  unfold onAuthResponse
  rw [hp]
  simp only
  split at h
  · next nonce binding hnonce hbinding =>
    rw [hnonce, hbinding]
    simp only
    generalize verify P d (handshakePayload nonce (pubkeyPart d) s.engine.selfId binding)
      signature = verified at h ⊢
    cases verified with
    | error _ => cases h
    | ok valid =>
      cases valid with
      | false => cases h
      | true =>
        have hnot : logEvicted s.engine d = false := by simpa using h
        simp only [hnot, Bool.false_eq_true, ↓reduceIte]
        split
        · exact .sendLocalApprove env _ d
        · exact .refl _
  · cases h

/-- Every entry after a step has an origin, and the key is the device's own. -/
theorem sessionStep_origin (s : SessionState P) (env : SessionEnv) (op : SessionOp) :
    (sessionStep s (env, op)).engine.signingKey = s.engine.signingKey ∧
      ∀ (k : String) (p' : PeerState), (sessionStep s (env, op)).peers[k]? = some p' →
        Origin s op k p' := by
  have hcarried : ∀ t : SessionState P, CredentialsKept s t →
      t.engine.signingKey = s.engine.signingKey ∧
        ∀ (k : String) (p' : PeerState), t.peers[k]? = some p' → Origin s op k p' :=
    fun t h ↦ ⟨h.key, fun _ _ ↦ h.origin op⟩
  cases op with
  | govern op =>
    cases op with
    | adoptTransitionLog gov members => exact hcarried _ (.adoptLogs env s gov members)
    | propose variant => exact hcarried _ (.govern env s (.propose variant))
    | signProposal id => exact hcarried _ (.govern env s (.signProposal id))
    | denyProposal id => exact hcarried _ (.govern env s (.denyProposal id))
    | withdrawProposal id => exact hcarried _ (.govern env s (.withdrawProposal id))
    | spawnSplit id => exact hcarried _ (.govern env s (.spawnSplit id))
    | onPropose peerId msg => exact hcarried _ (.govern env s (.onPropose peerId msg))
    | onAck peerId msg => exact hcarried _ (.govern env s (.onAck peerId msg))
    | onSplit peerId msg => exact hcarried _ (.govern env s (.onSplit peerId msg))
  | sighted d =>
    simp only [sessionStep]
    split
    · exact hcarried _ (.refl s)
    · refine ⟨rfl, fun k p' hp' ↦ ?_⟩
      rw [getElem?_insert_peer] at hp'
      split at hp'
      · next hd =>
        cases hp'
        exact .sighted (hd ▸ rfl) rfl
      · exact .kept hp' (.refl p')
  | connect d session =>
    simp only [sessionStep]
    split
    · exact hcarried _ (.refl s)
    · split
      · exact hcarried _ (.refl s)
      · refine ⟨rfl, fun k p' hp' ↦ ?_⟩
        rw [getElem?_insert_peer] at hp'
        split at hp'
        · next hd =>
          cases hp'
          exact .connected (hd ▸ rfl) rfl
        · exact .kept hp' (.refl p')
  | dataChannelOpen d nonce =>
    refine ⟨rfl, fun k p' hp' ↦ ?_⟩
    have hinitiate : sessionStep s (env, .dataChannelOpen d nonce) = s.modifyPeer d fun p ↦
        { p with status := .handshaking, nonceSent := some nonce } := rfl
    rw [hinitiate, SessionState.modifyPeer, getElem?_modify_peer] at hp'
    split at hp'
    · next hd =>
      obtain ⟨p, hp, rfl⟩ := Option.map_eq_some_iff.mp hp'
      subst hd
      exact .drew rfl hp ⟨rfl, rfl, rfl⟩
    · exact .kept hp' (.refl p')
  | hello d msg => exact hcarried _ (.onHello env s d msg)
  | authResponse d signature =>
    by_cases hpasses : ∃ p, s.peers[d]? = some p ∧ authenticates s d signature p = true
    · obtain ⟨p, hp, hpasses⟩ := hpasses
      have hafter := onAuthResponse_passes env hp hpasses
      refine ⟨hafter.key, fun k p' hp' ↦ ?_⟩
      obtain ⟨q, hq, hsame⟩ := hafter.entries k p' hp'
      rw [SessionState.modifyPeer, getElem?_modify_peer] at hq
      split at hq
      · next hd =>
        subst hd
        rw [hp, Option.map_some, Option.some_inj] at hq
        subst hq
        exact .passed rfl hp hpasses ⟨hsame.session, hsame.nonceSent, hsame.authenticated⟩
      · exact .kept hq hsame
    · refine hcarried _ (onAuthResponse_carried env fun p hp ↦ ?_)
      rw [← Bool.not_eq_true]
      exact fun h ↦ hpasses ⟨p, hp, h⟩
  | approve d => exact hcarried _ (.onApprove env s d)
  | deny d transitions memberLog => exact hcarried _ (.onDeny env s d transitions memberLog)
  | sendLocalApprove d => exact hcarried _ (.sendLocalApprove env s d)
  | approveRoster d label => exact hcarried _ (.approveRoster env s d label)
  | rosterRemove d =>
    refine hcarried _ (.of_peers ?_ ?_)
    · simp only [sessionStep, rosterRemove]
      repeat' split
      all_goals rfl
    · simp only [sessionStep, rosterRemove]
      repeat' split
      all_goals rfl
  | reevaluateTopology => exact hcarried _ (.reevaluateTopology env s)
  | dropPeer d => exact hcarried _ (.dropPeer env s d)
  | queuedDrop =>
    simp only [sessionStep]
    split
    · exact hcarried _ (.refl s)
    · next d rest _ =>
      have hpopped : CredentialsKept s { s with queuedDrops := rest } := .of_peers rfl rfl
      exact hcarried _ (hpopped.trans (.dropPeer env _ d))
  | janitor d =>
    simp only [sessionStep]
    split
    · have hpopped : CredentialsKept s { s with janitors := s.janitors.erase d } :=
        .of_peers rfl rfl
      exact hcarried _ (hpopped.trans (.dropPeer env _ d))
    · exact hcarried _ (.refl s)
  | closeFinished d => exact hcarried _ (.of_peers rfl rfl)

/-! ### What a signature says -/

/-- No part of the payload of an answer can be taken for another: where the verifier's parts have
no bars, a payload that equals it has the same parts. -/
theorem handshakePayload_inj {nonce nonce' mine mine' theirs theirs' binding binding' : String}
    (hnonce : '|' ∉ nonce.toList) (hmine : '|' ∉ mine.toList) (htheirs : '|' ∉ theirs.toList)
    (hbinding : '|' ∉ binding.toList)
    (h : handshakePayload nonce mine theirs binding =
      handshakePayload nonce' mine' theirs' binding') :
    nonce = nonce' ∧ mine = mine' ∧ theirs = theirs' ∧ binding = binding' := by
  have hbar : "|".toList = ['|'] := by decide
  rw [handshakePayload, handshakePayload, Text.utf8_inj, ← String.toList_inj] at h
  simp only [String.toList_append, hbar, List.append_assoc, List.singleton_append,
    List.append_cancel_left_eq] at h
  -- the verifier's payload has three bars, so that the other parts have none either
  have hcount := congrArg (List.count '|') h
  simp only [List.count_append, List.count_cons_self, List.count_eq_zero.mpr hnonce,
    List.count_eq_zero.mpr hmine, List.count_eq_zero.mpr htheirs,
    List.count_eq_zero.mpr hbinding] at hcount
  have hmine' : '|' ∉ mine'.toList := List.count_eq_zero.mp (by omega)
  have htheirs' : '|' ∉ theirs'.toList := List.count_eq_zero.mp (by omega)
  have hbinding' : '|' ∉ binding'.toList := List.count_eq_zero.mp (by omega)
  -- cut at the last bar, three times
  have hlast : (nonce.toList ++ '|' :: (mine.toList ++ '|' :: theirs.toList)) ++
        '|' :: binding.toList =
      (nonce'.toList ++ '|' :: (mine'.toList ++ '|' :: theirs'.toList)) ++
        '|' :: binding'.toList := by simpa using h
  obtain ⟨hids, hb⟩ := Delimited.cut_last_inj hbinding hbinding' hlast
  have hmiddle : (nonce.toList ++ '|' :: mine.toList) ++ '|' :: theirs.toList =
      (nonce'.toList ++ '|' :: mine'.toList) ++ '|' :: theirs'.toList := by simpa using hids
  obtain ⟨hfirst, ht⟩ := Delimited.cut_last_inj htheirs htheirs' hmiddle
  obtain ⟨hn, hm⟩ := Delimited.cut_last_inj hmine hmine' hfirst
  exact ⟨String.toList_inj.mp hn, String.toList_inj.mp hm, String.toList_inj.mp ht,
    String.toList_inj.mp hb⟩

/-- A signature under governance is none of an answer: the domain tags differ. -/
theorem handshakePayload_ne_state (nonce mine theirs binding rest : String) :
    handshakePayload nonce mine theirs binding ≠ Text.utf8 (signDomainTagState ++ rest) := by
  intro h
  rw [handshakePayload, Text.utf8_inj, ← String.toList_inj] at h
  have htake := congrArg (List.take 11) h
  simp only [String.toList_append, List.append_assoc] at htake
  rw [List.take_append_of_le_length (by decide), List.take_append_of_le_length (by decide)]
    at htake
  exact absurd htake (by decide)

/-! ### Many devices -/

/-- Something that happened: a device drew a nonce for a connection; it answered a hello on a
connection, over the fingerprint it presents there; it signed a payload of governance; it
authenticated the peer of a connection, over the fingerprint it observes there; it applied a
description to the session of a connection. -/
inductive Note (ι : Type) where
  | described (i : ι) (deviceId : String)
  | drew (i : ι) (deviceId nonce : String)
  | answered (i : ι) (deviceId nonce binding : String)
  | stated (i : ι) (payload : List UInt8)
  | authenticated (i : ι) (deviceId nonce binding : String)

/-- Devices that run the code, each with one network, and what happened so far. A device that joined
two networks is there twice, with one key. -/
structure Devices (P : Primitives) (ι : Type) where
  session : ι → SessionState P
  trace : List (Note ι)

/-- The fingerprint that the answer to a hello is signed over, if it is answered at all;
`handshake.rs:169–258`. -/
def helloBinding (s : SessionState P) (deviceId : String) (msg : HelloMessage) : Option String :=
  if pubkeyPart msg.deviceId ≠ pubkeyPart deviceId then none
  else ((s.peers[deviceId]?).bind PeerState.session).bind TransportSession.localFingerprint

/-- What a step of a device adds to the trace. -/
def notes {ι : Type} (i : ι) (s : SessionState P) : SessionOp → List (Note ι)
  | .dataChannelOpen deviceId nonce =>
    if s.peers.contains deviceId then [.drew i deviceId nonce] else []
  | .hello deviceId msg =>
    match helloBinding s deviceId msg with
    | some binding => [.answered i deviceId msg.nonce binding]
    | none => []
  | .authResponse deviceId signature =>
    match s.peers[deviceId]? with
    | some p =>
      match authenticates s deviceId signature p, p.nonceSent,
        p.session.bind TransportSession.remoteFingerprint with
      | true, some nonce, some binding => [.authenticated i deviceId nonce binding]
      | _, _, _ => []
    | none => []
  | _ => []

/-- The payloads that governance signs; `network_state.rs:240–252` and `governance.rs:273–284`. -/
inductive StatePayload : List UInt8 → Prop
  | transition (networkId : String) (variant : TransitionVariant) :
    StatePayload (transitionPayload networkId variant)
  | deny (networkId proposalId signer : String) :
    StatePayload (denyPayload networkId proposalId signer)

section Devices

variable {ι : Type}

/-- The id of one of the devices. -/
def HasId (key : ι → P.SigningKey) (id : String) : Prop := ∃ i, publicId P (key i) = id

/-- The device signed this payload. -/
def Signed (key : ι → P.SigningKey) (trace : List (Note ι)) (i : ι) (payload : List UInt8) :
    Prop :=
  .stated i payload ∈ trace ∨ ∃ deviceId nonce binding,
    .answered i deviceId nonce binding ∈ trace ∧
      payload = handshakePayload nonce (publicId P (key i)) (pubkeyPart deviceId) binding

/-- The nonces that notes draw and mention. -/
def nonces : Naming (Note ι) String where
  draws
    | .drew _ _ nonce => some nonce
    | _ => none
  mentions
    | .drew _ _ nonce, x => nonce = x
    | .answered _ _ nonce _, x => nonce = x
    | .authenticated _ _ nonce _, x => nonce = x
    | .stated _ _, _ => False
    | .described _ _, _ => False

/-- A text without the bar of the payload. -/
def Barless (text : String) : Prop := '|' ∉ text.toList

/-- What a step may not do: nonces are drawn new and are base32, fingerprints of certificates have
no bars, and nobody forges a signature of these devices. -/
def Fair (key : ι → P.SigningKey) (w : Devices P ι) (j : ι) : SessionOp → Prop
  | .dataChannelOpen deviceId nonce =>
    nonces.Fresh w.trace (.drew j deviceId nonce) ∧ Barless nonce
  | .connect _ session => ∀ f, session.remoteFingerprint = some f → Barless f
  | .authResponse deviceId signature => ∀ p nonce binding,
    (w.session j).peers[deviceId]? = some p → p.nonceSent = some nonce →
    p.session.bind TransportSession.remoteFingerprint = some binding →
    HasId key (pubkeyPart deviceId) →
    verify P deviceId (handshakePayload nonce (pubkeyPart deviceId)
      (w.session j).engine.selfId binding) signature = .ok true →
    ∃ i, publicId P (key i) = pubkeyPart deviceId ∧
      Signed key w.trace i (handshakePayload nonce (pubkeyPart deviceId)
        (w.session j).engine.selfId binding)
  | _ => True

/-- The devices after a step of one of them. -/
def Devices.step [DecidableEq ι] (w : Devices P ι) (j : ι) (env : SessionEnv) (op : SessionOp) :
    Devices P ι where
  session := Function.update w.session j (sessionStep (w.session j) (env, op))
  trace := w.trace ++ notes j (w.session j) op

/-- Descriptions are applied to the session of a connection, with whatever fingerprints. -/
def SessionState.describe (s : SessionState P) (deviceId : String) (now : TransportSession) :
    SessionState P :=
  s.modifyPeer deviceId fun p ↦ { p with session := p.session.map fun _ ↦ now }

def Devices.describe [DecidableEq ι] (w : Devices P ι) (j : ι) (deviceId : String)
    (now : TransportSession) : Devices P ι where
  session := Function.update w.session j ((w.session j).describe deviceId now)
  trace := w.trace ++ [.described j deviceId]

/-- All that can happen to the devices. -/
inductive Devices.Reachable [DecidableEq ι] (key : ι → P.SigningKey) : Devices P ι → Prop
  | start (engine : ι → EngineState P) (autoApprove : ι → Bool)
      (hkey : ∀ i, (engine i).signingKey = key i) :
    Devices.Reachable key ⟨fun i ↦ .join (engine i) (autoApprove i), []⟩
  | step {w : Devices P ι} (h : Devices.Reachable key w) (j : ι) (env : SessionEnv) (op : SessionOp)
      (hfair : Fair key w j op) : Devices.Reachable key (w.step j env op)
  | describe {w : Devices P ι} (h : Devices.Reachable key w) (j : ι) (deviceId : String)
      {now : TransportSession} (hbarless : ∀ f, now.remoteFingerprint = some f → Barless f) :
    Devices.Reachable key (w.describe j deviceId now)
  | state {w : Devices P ι} (h : Devices.Reachable key w) (i : ι) {payload : List UInt8}
      (hpayload : StatePayload payload) :
    Devices.Reachable key ⟨w.session, w.trace ++ [.stated i payload]⟩

/-- Before an authentication its nonce was drawn for the connection; where the peer has the id of
one of the devices, a device of that id answered it over the same fingerprint. -/
def VouchedFor (key : ι → P.SigningKey) (before : List (Note ι)) (e : Note ι) : Prop :=
  ∀ j k nonce binding, e = .authenticated j k nonce binding →
    .drew j k nonce ∈ before ∧ (HasId key (pubkeyPart k) →
      ∃ i d, publicId P (key i) = pubkeyPart k ∧ pubkeyPart d = publicId P (key j) ∧
        .answered i d nonce binding ∈ before)

/-- The peer of a connection was last authenticated over a fingerprint that is still the one
observed, unless a description was applied since. -/
def AuthenticatedOver (trace : List (Note ι)) (j : ι) (k : String) (p : PeerState) : Prop :=
  ∃ nonce binding past later, trace = past ++ .authenticated j k nonce binding :: later ∧
    (∀ nonce' binding', .authenticated j k nonce' binding' ∉ later) ∧
    (.described j k ∉ later →
      p.session.bind TransportSession.remoteFingerprint = some binding)

/-- What every step of the devices keeps. -/
structure Devices.Inv (key : ι → P.SigningKey) (w : Devices P ι) : Prop where
  /-- A device keeps its key. -/
  own : ∀ i, (w.session i).engine.signingKey = key i
  /-- Governance signs its own payloads only. -/
  stated : ∀ i payload, .stated i payload ∈ w.trace → StatePayload payload
  /-- A nonce is new when it is drawn. -/
  fresh : Backed nonces.Fresh w.trace
  /-- A nonce that an entry waits on was drawn for it. -/
  drawn : ∀ j (k : String) p nonce, (w.session j).peers[k]? = some p → p.nonceSent = some nonce →
    .drew j k nonce ∈ w.trace ∧ Barless nonce
  /-- The fingerprint observed on a connection is one. -/
  barless : ∀ j (k : String) p f, (w.session j).peers[k]? = some p →
    p.session.bind TransportSession.remoteFingerprint = some f → Barless f
  /-- Every authentication was vouched for. -/
  vouched : Backed (VouchedFor key) w.trace
  /-- An authenticated entry was authenticated over the fingerprint it observes, or observed. -/
  current : ∀ j (k : String) p, (w.session j).peers[k]? = some p → p.authenticated = true →
    AuthenticatedOver w.trace j k p

namespace AuthenticatedOver

variable {trace more : List (Note ι)} {j : ι} {k : String} {p p' : PeerState}

/-- What happens elsewhere changes nothing. -/
theorem append (h : AuthenticatedOver trace j k p) (hsession : p'.session = p.session)
    (hmore : ∀ nonce binding, .authenticated j k nonce binding ∉ more) :
    AuthenticatedOver (trace ++ more) j k p' := by
  obtain ⟨nonce, binding, past, later, rfl, hlast, hobserved⟩ := h
  refine ⟨nonce, binding, past, later ++ more, by simp, fun nonce' binding' hmem ↦ ?_, ?_⟩
  · exact (List.mem_append.mp hmem).elim (hlast nonce' binding') (hmore nonce' binding')
  · intro hnot
    rw [hsession]
    exact hobserved fun hmem ↦ hnot (List.mem_append_left _ hmem)

/-- Once a description is applied, nothing is said of what is observed. -/
theorem described (h : AuthenticatedOver trace j k p) :
    AuthenticatedOver (trace ++ [.described j k]) j k p' := by
  obtain ⟨nonce, binding, past, later, rfl, hlast, -⟩ := h
  refine ⟨nonce, binding, past, later ++ [.described j k], by simp,
    fun nonce' binding' hmem ↦ ?_, fun hnot ↦ absurd (by simp) hnot⟩
  rcases List.mem_append.mp hmem with hmem | hmem
  · exact hlast nonce' binding' hmem
  · cases List.mem_singleton.mp hmem

/-- The authentication that just passed is the last. -/
theorem last {nonce binding : String}
    (hobserved : p.session.bind TransportSession.remoteFingerprint = some binding) :
    AuthenticatedOver (trace ++ [.authenticated j k nonce binding]) j k p :=
  ⟨nonce, binding, trace, [], rfl, fun _ _ ↦ List.not_mem_nil, fun _ ↦ hobserved⟩

end AuthenticatedOver

/-- What a step adds to the trace: nothing, or one note. -/
theorem notes_cases (i : ι) (s : SessionState P) (op : SessionOp) :
    notes i s op = [] ∨
    (∃ d nonce, op = .dataChannelOpen d nonce ∧ notes i s op = [.drew i d nonce]) ∨
    (∃ d nonce binding, notes i s op = [.answered i d nonce binding]) ∨
    ∃ d signature p nonce binding, op = .authResponse d signature ∧ s.peers[d]? = some p ∧
      authenticates s d signature p = true ∧ p.nonceSent = some nonce ∧
      p.session.bind TransportSession.remoteFingerprint = some binding ∧
      notes i s op = [.authenticated i d nonce binding] := by
  cases op with
  | dataChannelOpen d nonce =>
    simp only [notes]
    split
    · exact .inr (.inl ⟨d, nonce, rfl, rfl⟩)
    · exact .inl rfl
  | hello d msg =>
    simp only [notes]
    split
    · next binding _ => exact .inr (.inr (.inl ⟨d, msg.nonce, binding, rfl⟩))
    · exact .inl rfl
  | authResponse d signature =>
    simp only [notes]
    split
    · next p hp =>
      split
      · next nonce binding hpasses hnonce hbinding =>
        exact .inr (.inr (.inr ⟨d, signature, p, nonce, binding, rfl, hp, hpasses, hnonce,
          hbinding, rfl⟩))
      · exact .inl rfl
    · exact .inl rfl
  | _ => exact .inl rfl

/-- An answer that passes is noted. -/
theorem notes_of_authenticates (i : ι) {s : SessionState P} {k signature nonce binding : String}
    {p : PeerState} (hp : s.peers[k]? = some p) (hpasses : authenticates s k signature p = true)
    (hnonce : p.nonceSent = some nonce)
    (hbinding : p.session.bind TransportSession.remoteFingerprint = some binding) :
    notes i s (.authResponse k signature) = [.authenticated i k nonce binding] := by
  simp [notes, hp, hpasses, hnonce, hbinding]

/-- An answer that passes is a signature over the nonce and the fingerprint of its connection. -/
theorem verify_of_authenticates {s : SessionState P} {k signature : String} {p : PeerState}
    (h : authenticates s k signature p = true) :
    ∃ nonce binding, p.nonceSent = some nonce ∧
      p.session.bind TransportSession.remoteFingerprint = some binding ∧
      verify P k (handshakePayload nonce (pubkeyPart k) s.engine.selfId binding) signature =
        .ok true := by
  unfold authenticates at h
  split at h
  · next nonce binding hnonce hbinding =>
    split at h
    · next hverify => exact ⟨nonce, binding, hnonce, hbinding, hverify⟩
    · cases h
  · cases h

theorem authenticates_of_verify {s : SessionState P} {k signature nonce binding : String}
    {p : PeerState} (hnonce : p.nonceSent = some nonce)
    (hbinding : p.session.bind TransportSession.remoteFingerprint = some binding)
    (hverify : verify P k (handshakePayload nonce (pubkeyPart k) s.engine.selfId binding)
      signature = .ok true) (hlisted : logEvicted s.engine k = false) :
    authenticates s k signature p = true := by
  simp [authenticates, hnonce, hbinding, hverify, hlisted]

/-- The id of a device has no bar. -/
theorem barless_publicId (k : P.SigningKey) : Barless (publicId P k) := fun h ↦
  absurd (isAlphanum_publicId P k h) (by decide)

/-- A signature that governance did not make answers the nonce it is checked against. -/
theorem Signed.answered {key : ι → P.SigningKey} {trace : List (Note ι)} {i : ι}
    {nonce mine theirs binding : String}
    (hstated : ∀ i payload, .stated i payload ∈ trace → StatePayload payload)
    (hnonce : Barless nonce) (hmine : Barless mine) (htheirs : Barless theirs)
    (hbinding : Barless binding)
    (h : Signed key trace i (handshakePayload nonce mine theirs binding)) :
    ∃ d, pubkeyPart d = theirs ∧ .answered i d nonce binding ∈ trace := by
  obtain hmem | ⟨d, nonce', binding', hmem, hpayload⟩ := h
  · -- a payload of governance has another tag
    generalize hpayload : handshakePayload nonce mine theirs binding = payload at hmem
    cases hstated i payload hmem with
    | transition networkId variant =>
      rw [transitionPayload, String.append_assoc, String.append_assoc] at hpayload
      exact absurd hpayload (handshakePayload_ne_state nonce mine theirs binding _)
    | deny networkId proposalId signer =>
      simp only [denyPayload, String.append_assoc] at hpayload
      exact absurd hpayload (handshakePayload_ne_state nonce mine theirs binding _)
  · obtain ⟨rfl, -, rfl, rfl⟩ :=
      handshakePayload_inj hnonce hmine htheirs hbinding hpayload
    exact ⟨d, rfl, hmem⟩

namespace Devices.Inv

variable {key : ι → P.SigningKey} {w : Devices P ι}

theorem start (engine : ι → EngineState P) (autoApprove : ι → Bool)
    (hkey : ∀ i, (engine i).signingKey = key i) :
    Devices.Inv key ⟨fun i ↦ .join (engine i) (autoApprove i), []⟩ where
  own := hkey
  stated _ _ h := by simp at h
  fresh := .nil
  drawn _ _ _ _ h := by simp [SessionState.join] at h
  barless _ _ _ _ h := by simp [SessionState.join] at h
  vouched := .nil
  current _ _ _ h := by simp [SessionState.join] at h

/-- A signature of governance is no answer and draws nothing. -/
theorem state (h : Devices.Inv key w) (i : ι) {payload : List UInt8}
    (hpayload : StatePayload payload) :
    Devices.Inv key ⟨w.session, w.trace ++ [.stated i payload]⟩ where
  own := h.own
  stated i' payload' hmem := by
    rcases List.mem_append.mp hmem with hmem | hmem
    · exact h.stated i' payload' hmem
    · cases List.mem_singleton.mp hmem
      exact hpayload
  fresh := h.fresh.snoc fun _ hdraws ↦ by cases hdraws
  drawn j k p nonce hp hnonce := by
    obtain ⟨hdrew, hbarless⟩ := h.drawn j k p nonce hp hnonce
    exact ⟨List.mem_append_left _ hdrew, hbarless⟩
  barless := h.barless
  vouched := h.vouched.snoc fun _ _ _ _ heq ↦ by cases heq
  current j k p hp hauth := (h.current j k p hp hauth).append rfl (by simp)

variable {j : ι} {op : SessionOp}

/-- A step draws a new nonce or none. -/
private theorem fresh_notes (hfair : Fair key w j op) :
    notes j (w.session j) op = [] ∨
      ∃ e, notes j (w.session j) op = [e] ∧ nonces.Fresh w.trace e := by
  rcases notes_cases j (w.session j) op with
    hnone | ⟨d, nonce, rfl, hnotes⟩ | ⟨d, nonce, binding, hnotes⟩ |
    ⟨d, signature, p, nonce, binding, rfl, -, -, -, -, hnotes⟩
  · exact .inl hnone
  · exact .inr ⟨_, hnotes, hfair.1⟩
  · exact .inr ⟨_, hnotes, fun _ hdraws ↦ by cases hdraws⟩
  · exact .inr ⟨_, hnotes, fun _ hdraws ↦ by cases hdraws⟩

/-- A step authenticates nobody, or one device that was vouched for. -/
private theorem vouched_notes (h : Devices.Inv key w) (hfair : Fair key w j op) :
    notes j (w.session j) op = [] ∨
      ∃ e, notes j (w.session j) op = [e] ∧ VouchedFor key w.trace e := by
  rcases notes_cases j (w.session j) op with
    hnone | ⟨d, nonce, rfl, hnotes⟩ | ⟨d, nonce, binding, hnotes⟩ |
    ⟨d, signature, p, nonce, binding, rfl, hp, hpasses, hnonce, hbinding, hnotes⟩
  · exact .inl hnone
  · exact .inr ⟨_, hnotes, fun _ _ _ _ heq ↦ by cases heq⟩
  · exact .inr ⟨_, hnotes, fun _ _ _ _ heq ↦ by cases heq⟩
  · refine .inr ⟨_, hnotes, ?_⟩
    rintro _ _ _ _ ⟨⟩
    obtain ⟨hdrew, hbarless⟩ := h.drawn j d p nonce hp hnonce
    refine ⟨hdrew, fun hid ↦ ?_⟩
    obtain ⟨nonce', binding', hnonce', hbinding', hverify⟩ := verify_of_authenticates hpasses
    rw [hnonce, Option.some_inj] at hnonce'
    rw [hbinding, Option.some_inj] at hbinding'
    subst hnonce' hbinding'
    have hself : (w.session j).engine.selfId = publicId P (key j) :=
      congrArg (publicId P) (h.own j)
    obtain ⟨i, hi, hsigned⟩ := hfair p nonce binding hp hnonce hbinding hid hverify
    rw [← hi, hself] at hsigned
    obtain ⟨d', hd', hanswered⟩ := hsigned.answered h.stated hbarless (barless_publicId _)
      (barless_publicId _) (h.barless j d p binding hp hbinding)
    exact ⟨i, d', hi, hd', hanswered⟩

/-- A nonce is drawn once. -/
theorem drew_once (h : Devices.Inv key w) {j' : ι} {k k' nonce : String}
    (hd : .drew j k nonce ∈ w.trace) (hd' : .drew j' k' nonce ∈ w.trace) : j' = j ∧ k' = k := by
  by_cases hne : (.drew j' k' nonce : Note ι) = .drew j k nonce
  · cases hne
    exact ⟨rfl, rfl⟩
  · obtain ⟨first, between, last, hsplit⟩ :=
      h.fresh.before_of_mentions (N := nonces) hd rfl hd' rfl hne
    have hlater := h.fresh (first ++ .drew j k nonce :: between) (.drew j' k' nonce) last
      (by simp [hsplit]) nonce rfl (.drew j k nonce) (by simp)
    exact absurd rfl hlater

end Devices.Inv

variable [DecidableEq ι]

theorem Devices.session_step_self (w : Devices P ι) (j : ι) (env : SessionEnv) (op : SessionOp) :
    (w.step j env op).session j = sessionStep (w.session j) (env, op) :=
  Function.update_self ..

theorem Devices.session_step_of_ne (w : Devices P ι) {j j' : ι} (hj : j' ≠ j) (env : SessionEnv)
    (op : SessionOp) : (w.step j env op).session j' = w.session j' :=
  Function.update_of_ne hj ..

/-- Where an entry comes from after a step of one device. -/
theorem Devices.step_entry {w : Devices P ι} {j j' : ι} {env : SessionEnv} {op : SessionOp}
    {k : String} {p' : PeerState}
    (hp' : ((w.step j env op).session j').peers[k]? = some p') :
    (∃ p, (w.session j').peers[k]? = some p ∧ SameCredentials p p') ∨
      j' = j ∧ Origin (w.session j) op k p' := by
  by_cases hj : j' = j
  · subst hj
    rw [w.session_step_self] at hp'
    exact .inr ⟨rfl, (sessionStep_origin (w.session j') env op).2 k p' hp'⟩
  · rw [w.session_step_of_ne hj] at hp'
    exact .inl ⟨p', hp', .refl p'⟩

namespace Devices.Inv

variable {key : ι → P.SigningKey} {w : Devices P ι} {j : ι} {env : SessionEnv} {op : SessionOp}

/-- A nonce that an entry waits on after a step was drawn for it. -/
private theorem drawn_step (h : Devices.Inv key w) (hfair : Fair key w j op) {j' : ι} {k : String}
    {p' : PeerState} {nonce : String}
    (hp' : ((w.step j env op).session j').peers[k]? = some p')
    (hnonce : p'.nonceSent = some nonce) :
    .drew j' k nonce ∈ (w.step j env op).trace ∧ Barless nonce := by
  have hold : ∀ p, (w.session j').peers[k]? = some p → p.nonceSent = some nonce →
      .drew j' k nonce ∈ (w.step j env op).trace ∧ Barless nonce := by
    intro p hp hsent
    obtain ⟨hdrew, hbarless⟩ := h.drawn j' k p nonce hp hsent
    exact ⟨List.mem_append_left _ hdrew, hbarless⟩
  rcases Devices.step_entry hp' with ⟨p, hp, hsame⟩ | ⟨rfl, horigin⟩
  · exact hold p hp (hsame.nonceSent ▸ hnonce)
  · cases horigin with
    | kept hp hsame => exact hold _ hp (hsame.nonceSent ▸ hnonce)
    | sighted _ hfresh =>
      rw [hfresh] at hnonce
      cases hnonce
    | connected _ hfresh =>
      rw [hfresh] at hnonce
      cases hnonce
    | drew hop hp hsame =>
      subst hop
      rw [hsame.nonceSent, Option.some_inj] at hnonce
      subst hnonce
      refine ⟨List.mem_append_right _ ?_, hfair.2⟩
      have hknown : k ∈ (w.session j').peers := by
        rw [← Std.ExtTreeMap.isSome_getElem?_iff_mem, hp]
        rfl
      simp [notes, hknown]
    | passed _ hp _ hsame => exact hold _ hp (hsame.nonceSent ▸ hnonce)

/-- A fingerprint observed after a step is one. -/
private theorem barless_step (h : Devices.Inv key w) (hfair : Fair key w j op) {j' : ι} {k : String}
    {p' : PeerState} {f : String}
    (hp' : ((w.step j env op).session j').peers[k]? = some p')
    (hf : p'.session.bind TransportSession.remoteFingerprint = some f) : Barless f := by
  rcases Devices.step_entry hp' with ⟨p, hp, hsame⟩ | ⟨rfl, horigin⟩
  · exact h.barless j' k p f hp (hsame.session ▸ hf)
  · cases horigin with
    | kept hp hsame => exact h.barless j' k _ f hp (hsame.session ▸ hf)
    | sighted _ hfresh =>
      rw [hfresh] at hf
      cases hf
    | connected hop hfresh =>
      subst hop
      rw [hfresh] at hf
      exact hfair f hf
    | drew _ hp hsame => exact h.barless j' k _ f hp (hsame.session ▸ hf)
    | passed _ hp _ hsame => exact h.barless j' k _ f hp (hsame.session ▸ hf)

/-- An entry authenticated after a step was authenticated over the fingerprint it observes, or
observed. -/
private theorem current_step (h : Devices.Inv key w) {j' : ι} {k : String} {p' : PeerState}
    (hp' : ((w.step j env op).session j').peers[k]? = some p')
    (hauth : p'.authenticated = true) : AuthenticatedOver (w.step j env op).trace j' k p' := by
  have hfrom : (∃ p, (w.session j').peers[k]? = some p ∧ p'.session = p.session) ∧
      (AuthenticatedOver w.trace j' k p' ∨
        ∃ nonce binding, .authenticated j' k nonce binding ∈ notes j (w.session j) op) := by
    have hold : ∀ p, (w.session j').peers[k]? = some p → p'.session = p.session →
        p.authenticated = true → AuthenticatedOver w.trace j' k p' := by
      intro p hp hsession hp_auth
      have hkept : AuthenticatedOver (w.trace ++ []) j' k p' :=
        (h.current j' k p hp hp_auth).append hsession fun _ _ ↦ List.not_mem_nil
      rwa [List.append_nil] at hkept
    rcases Devices.step_entry hp' with ⟨p, hp, hsame⟩ | ⟨rfl, horigin⟩
    · exact ⟨⟨p, hp, hsame.session⟩, .inl (hold p hp hsame.session (hsame.authenticated ▸ hauth))⟩
    · cases horigin with
      | kept hp hsame =>
        exact ⟨⟨_, hp, hsame.session⟩,
          .inl (hold _ hp hsame.session (hsame.authenticated ▸ hauth))⟩
      | sighted _ hfresh =>
        rw [hfresh] at hauth
        cases hauth
      | connected _ hfresh =>
        rw [hfresh] at hauth
        cases hauth
      | drew _ hp hsame =>
        exact ⟨⟨_, hp, hsame.session⟩,
          .inl (hold _ hp hsame.session (hsame.authenticated ▸ hauth))⟩
      | passed hop hp hpasses hsame =>
        subst hop
        obtain ⟨nonce, binding, hnonce, hbinding, -⟩ := verify_of_authenticates hpasses
        refine ⟨⟨_, hp, hsame.session⟩, .inr ⟨nonce, binding, ?_⟩⟩
        rw [notes_of_authenticates j' hp hpasses hnonce hbinding]
        exact List.mem_singleton.mpr rfl
  obtain ⟨⟨p, hp, hsession⟩, hover⟩ := hfrom
  change AuthenticatedOver (w.trace ++ notes j (w.session j) op) j' k p'
  by_cases hnoted : ∃ nonce binding,
      .authenticated j' k nonce binding ∈ notes j (w.session j) op
  · -- the note is of this entry, over what it observes
    obtain ⟨nonce, binding, hmem⟩ := hnoted
    rcases notes_cases j (w.session j) op with
      hnotes | ⟨d, n, -, hnotes⟩ | ⟨d, n, b, hnotes⟩ |
      ⟨d, signature, q, n, b, -, hq, -, -, hbinding, hnotes⟩
    · simp [hnotes] at hmem
    · simp [hnotes] at hmem
    · simp [hnotes] at hmem
    · rw [hnotes, List.mem_singleton] at hmem
      cases hmem
      rw [hp, Option.some_inj] at hq
      subst hq
      rw [hnotes]
      exact .last (hsession ▸ hbinding)
  · have hnone : ∀ nonce binding,
        .authenticated j' k nonce binding ∉ notes j (w.session j) op :=
      fun nonce binding hmem ↦ hnoted ⟨nonce, binding, hmem⟩
    exact (hover.resolve_right hnoted).append rfl hnone

theorem step (h : Devices.Inv key w) (hfair : Fair key w j op) :
    Devices.Inv key (w.step j env op) where
  own i := by
    by_cases hi : i = j
    · subst hi
      rw [w.session_step_self, (sessionStep_origin (w.session i) env op).1, h.own]
    · rw [w.session_step_of_ne hi, h.own]
  stated i payload hmem := by
    rcases List.mem_append.mp hmem with hmem | hmem
    · exact h.stated i payload hmem
    · rcases notes_cases j (w.session j) op with
        hnotes | ⟨d, nonce, -, hnotes⟩ | ⟨d, nonce, binding, hnotes⟩ |
        ⟨d, signature, p, nonce, binding, -, -, -, -, -, hnotes⟩
      all_goals simp [hnotes] at hmem
  fresh := h.fresh.append (fresh_notes hfair)
  drawn _ _ _ _ hp' hnonce := h.drawn_step hfair hp' hnonce
  barless _ _ _ _ hp' hf := h.barless_step hfair hp' hf
  vouched := h.vouched.append (h.vouched_notes hfair)
  current _ _ _ hp' hauth := h.current_step hp' hauth

/-- Where an entry comes from once descriptions were applied. -/
private theorem describe_entry {now : TransportSession} {d : String} {j' : ι} {k : String}
    {p' : PeerState} (hp' : ((w.describe j d now).session j').peers[k]? = some p') :
    ∃ p, (w.session j').peers[k]? = some p ∧ p'.nonceSent = p.nonceSent ∧
      p'.authenticated = p.authenticated ∧
      (p'.session = p.session ∨ j' = j ∧ k = d ∧ p'.session = p.session.map fun _ ↦ now) := by
  by_cases hj : j' = j
  · subst hj
    change (Function.update w.session j' _ j').peers[k]? = some p' at hp'
    rw [Function.update_self, SessionState.describe, SessionState.modifyPeer,
      getElem?_modify_peer] at hp'
    split at hp'
    · next hd =>
      obtain ⟨p, hp, rfl⟩ := Option.map_eq_some_iff.mp hp'
      exact ⟨p, hp, rfl, rfl, .inr ⟨rfl, by simpa using hd.symm, rfl⟩⟩
    · exact ⟨p', hp', rfl, rfl, .inl rfl⟩
  · change (Function.update w.session j _ j').peers[k]? = some p' at hp'
    rw [Function.update_of_ne hj] at hp'
    exact ⟨p', hp', rfl, rfl, .inl rfl⟩

theorem describe (h : Devices.Inv key w) (d : String) {now : TransportSession}
    (hbarless : ∀ f, now.remoteFingerprint = some f → Barless f) :
    Devices.Inv key (w.describe j d now) where
  own i := by
    by_cases hi : i = j
    · subst hi
      change (Function.update w.session i _ i).engine.signingKey = key i
      rw [Function.update_self]
      exact h.own i
    · change (Function.update w.session j _ i).engine.signingKey = key i
      rw [Function.update_of_ne hi]
      exact h.own i
  stated i payload hmem := by
    rcases List.mem_append.mp hmem with hmem | hmem
    · exact h.stated i payload hmem
    · cases List.mem_singleton.mp hmem
  fresh := h.fresh.snoc fun _ hdraws ↦ by cases hdraws
  drawn j' k p' nonce hp' hnonce := by
    obtain ⟨p, hp, hsent, -, -⟩ := describe_entry hp'
    obtain ⟨hdrew, hnone⟩ := h.drawn j' k p nonce hp (hsent ▸ hnonce)
    exact ⟨List.mem_append_left _ hdrew, hnone⟩
  barless j' k p' f hp' hf := by
    obtain ⟨p, hp, -, -, hsession | ⟨-, -, hsession⟩⟩ := describe_entry hp'
    · exact h.barless j' k p f hp (hsession ▸ hf)
    · rw [hsession] at hf
      obtain ⟨t, ht, hf⟩ := Option.bind_eq_some_iff.mp hf
      obtain ⟨-, -, rfl⟩ := Option.map_eq_some_iff.mp ht
      exact hbarless f hf
  vouched := h.vouched.snoc fun _ _ _ _ heq ↦ by cases heq
  current j' k p' hp' hauth := by
    obtain ⟨p, hp, -, hsame, hsession | ⟨rfl, rfl, -⟩⟩ := describe_entry hp'
    · exact (h.current j' k p hp (hsame ▸ hauth)).append hsession (by simp)
    · exact (h.current j' k p hp (hsame ▸ hauth)).described

theorem of_reachable (h : Devices.Reachable key w) : Devices.Inv key w := by
  induction h with
  | start engine autoApprove hkey => exact .start engine autoApprove hkey
  | step _ j env op hfair ih => exact ih.step hfair
  | describe _ j d hbarless ih => exact ih.describe d hbarless
  | state _ i hpayload ih => exact ih.state i hpayload

end Devices.Inv

/-- In every run, an entry that is authenticated was authenticated over the fingerprint it observes,
unless a description was applied to the session since. And whenever a device authenticates a
connection with the id of one of the devices, the nonce had been drawn for this connection, and
after that a device of that id had answered it, over the same fingerprint and on a connection with
the id of the first; the nonce authenticates no other connection of any device. -/
theorem authentication_agrees {key : ι → P.SigningKey} {w : Devices P ι}
    (h : Devices.Reachable key w) :
    (∀ j (k : String) p, (w.session j).peers[k]? = some p → p.authenticated = true →
      AuthenticatedOver w.trace j k p) ∧
    ∀ past rest j k nonce binding,
      w.trace = past ++ .authenticated j k nonce binding :: rest → HasId key (pubkeyPart k) →
      (∃ i d, publicId P (key i) = pubkeyPart k ∧ pubkeyPart d = publicId P (key j) ∧
        Before past (.drew j k nonce) (.answered i d nonce binding)) ∧
      ∀ j' k' binding', .authenticated j' k' nonce binding' ∈ w.trace → j' = j ∧ k' = k := by
  have hinv := Devices.Inv.of_reachable h
  refine ⟨hinv.current, fun past rest j k nonce binding hsplit hid ↦ ?_⟩
  obtain ⟨hdrew, hvouch⟩ := hinv.vouched past _ rest hsplit j k nonce binding rfl
  obtain ⟨i, d, hi, hd, hanswered⟩ := hvouch hid
  have hfresh : Backed nonces.Fresh past := Backed.of_append (hsplit ▸ hinv.fresh)
  refine ⟨⟨i, d, hi, hd, hfresh.before_of_mentions hdrew rfl hanswered rfl (by simp)⟩, ?_⟩
  intro j' k' binding' hmem
  obtain ⟨past', rest', hsplit'⟩ := List.append_of_mem hmem
  have hdrew' := (hinv.vouched past' _ rest' hsplit' j' k' nonce binding' rfl).1
  have hd : .drew j k nonce ∈ w.trace := by
    rw [hsplit]
    exact List.mem_append_left _ hdrew
  have hd' : .drew j' k' nonce ∈ w.trace := by
    rw [hsplit']
    exact List.mem_append_left _ hdrew'
  exact hinv.drew_once hd hd'

end Devices

/-! ### Device 1 authenticates device 2 -/

/-- The keys of two devices. -/
def twoKeys (b : Bool) : seeded.SigningKey := if b then (2 : UInt8) else (1 : UInt8)

private theorem publicId_twoKeys (b : Bool) :
    publicId seeded (twoKeys b) = seededDevice (if b then 2 else 1) := by
  cases b with
  | false => rfl
  | true => rfl

section TwoDevices

variable (e : Bool → EngineState seeded) (env : SessionEnv)

/-- Device 1 dialed device 2, applied its description and drew a nonce, which device 2 answered. -/
def drawnNonce : Devices seeded Bool :=
  let dialed := ((⟨fun b ↦ .join (e b) true, []⟩ : Devices seeded Bool).step false env
    (.connect (seededDevice 2) ⟨none, none⟩)).step true env
    (.connect (seededDevice 1) ⟨some "fingerprint", none⟩)
  let described := dialed.describe false (seededDevice 2) ⟨none, some "fingerprint"⟩
  (described.step false env (.dataChannelOpen (seededDevice 2) "nonce")).step true env
    (.hello (seededDevice 1) ⟨seededDevice 1, "", "nonce"⟩)

theorem trace_drawnNonce : (drawnNonce e env).trace =
    [.described false (seededDevice 2), .drew false (seededDevice 2) "nonce",
      .answered true (seededDevice 1) "nonce" "fingerprint"] := by
  simp [drawnNonce, Devices.step, Devices.describe, SessionState.describe, SessionState.modifyPeer,
    notes, helloBinding, sessionStep, SessionState.join, initiate, PeerState.fresh,
    Std.ExtTreeMap.mem_modify]

theorem entry_drawnNonce : ((drawnNonce e env).session false).peers[seededDevice 2]? =
    some { PeerState.fresh (some ⟨none, some "fingerprint"⟩) with
      status := .handshaking, nonceSent := some "nonce" } := by
  simp [drawnNonce, Devices.step, Devices.describe, SessionState.describe, sessionStep,
    SessionState.join, initiate, SessionState.modifyPeer, PeerState.fresh]

theorem engine_drawnNonce : ((drawnNonce e env).session false).engine = e false := by
  simp [drawnNonce, Devices.step, Devices.describe, SessionState.describe, sessionStep,
    SessionState.join, initiate, SessionState.modifyPeer]

theorem reachable_drawnNonce (hkey : ∀ b, (e b).signingKey = twoKeys b) :
    Devices.Reachable twoKeys (drawnNonce e env) := by
  have hnonce : Barless "nonce" := by unfold Barless; decide
  have hfingerprint : Barless "fingerprint" := by unfold Barless; decide
  have hdialed := Devices.Reachable.step (.step (.start e (fun _ ↦ true) hkey) false env
    (.connect (seededDevice 2) ⟨none, none⟩) (by rintro f ⟨⟩)) true env
    (.connect (seededDevice 1) ⟨some "fingerprint", none⟩) (by rintro f ⟨⟩)
  refine .step (.step (hdialed.describe false (seededDevice 2) ?_) false env _ ?_) true env _
    trivial
  · rintro f ⟨⟩
    exact hfingerprint
  · refine ⟨fun x hx f hf ↦ ?_, hnonce⟩
    obtain rfl : f = .described false (seededDevice 2) := by
      simpa [Devices.step, Devices.describe, notes] using hf
    exact not_false

/-- The answer of device 2 reaches device 1. -/
def answeredNonce : Devices seeded Bool :=
  (drawnNonce e env).step false env (.authResponse (seededDevice 2) (signWith seeded (2 : UInt8)
    (handshakePayload "nonce" (seededDevice 2) (seededDevice 1) "fingerprint")))

variable {e}

theorem reachable_answeredNonce (hkey : ∀ b, (e b).signingKey = twoKeys b) :
    Devices.Reachable twoKeys (answeredNonce e env) := by
  refine .step (reachable_drawnNonce e env hkey) false env _ ?_
  intro p nonce binding hp hnonce hbinding _ _
  rw [entry_drawnNonce, Option.some_inj] at hp
  subst hp
  cases hnonce
  cases hbinding
  have hself : (e false).selfId = seededDevice 1 := by
    rw [EngineState.selfId, hkey, publicId_twoKeys]
    rfl
  refine ⟨true, (pubkeyPart_seededDevice 2).symm, .inr ⟨seededDevice 1, "nonce", "fingerprint",
    ?_, ?_⟩⟩
  · simp [trace_drawnNonce]
  · rw [engine_drawnNonce, hself, pubkeyPart_seededDevice, pubkeyPart_seededDevice,
      publicId_twoKeys]
    rfl

theorem trace_answeredNonce (hkey : ∀ b, (e b).signingKey = twoKeys b)
    (hopen : logEvicted (e false) (seededDevice 2) = false) :
    (answeredNonce e env).trace =
      [.described false (seededDevice 2), .drew false (seededDevice 2) "nonce",
        .answered true (seededDevice 1) "nonce" "fingerprint",
        .authenticated false (seededDevice 2) "nonce" "fingerprint"] := by
  have hself : (e false).selfId = seededDevice 1 := by
    rw [EngineState.selfId, hkey, publicId_twoKeys]
    rfl
  have hverify : verify seeded (seededDevice 2)
      (handshakePayload "nonce" (pubkeyPart (seededDevice 2))
        ((drawnNonce e env).session false).engine.selfId "fingerprint")
      (signWith seeded (2 : UInt8)
        (handshakePayload "nonce" (seededDevice 2) (seededDevice 1) "fingerprint")) =
      .ok true := by
    rw [engine_drawnNonce, hself, pubkeyPart_seededDevice]
    exact verify_signWith seeded (2 : UInt8) _
  have hpasses := authenticates_of_verify (s := (drawnNonce e env).session false)
    (p := { PeerState.fresh (some ⟨none, some "fingerprint"⟩) with
      status := .handshaking, nonceSent := some "nonce" }) rfl rfl hverify
    (by rw [engine_drawnNonce, hopen])
  rw [answeredNonce, Devices.step, trace_drawnNonce,
    notes_of_authenticates false (entry_drawnNonce e env) hpasses rfl rfl]
  rfl

end TwoDevices

/-- The two devices at their first start. -/
def twoNodes (b : Bool) : EngineState seeded :=
  .start "fleet" (twoKeys b) "" (.emptyFor "fleet") .fullMesh

/-- Device 1 authenticates device 2 by an answer that device 2 gave to the nonce of device 1. -/
theorem answer_of_device_agrees : ∃ i d, publicId seeded (twoKeys i) = seededDevice 2 ∧
    pubkeyPart d = seededDevice 1 ∧
    Before [Note.described false (seededDevice 2), Note.drew false (seededDevice 2) "nonce",
      Note.answered true (seededDevice 1) "nonce" "fingerprint"]
      (.drew false (seededDevice 2) "nonce") (.answered i d "nonce" "fingerprint") := by
  have hkey : ∀ b, (twoNodes b).signingKey = twoKeys b := fun _ ↦ rfl
  have hopen : logEvicted (twoNodes false) (seededDevice 2) = false := by
    refine Bool.eq_false_iff.mpr fun hev ↦ absurd (logEvicted_iff.mp hev).1 ?_
    decide
  have htrace := trace_answeredNonce (openLine (clearEnv 0 "")) hkey hopen
  have hid : HasId twoKeys (pubkeyPart (seededDevice 2)) :=
    ⟨true, (pubkeyPart_seededDevice 2).symm⟩
  obtain ⟨⟨i, d, hi, hd, hbefore⟩, -⟩ :=
    (authentication_agrees (reachable_answeredNonce (openLine (clearEnv 0 "")) hkey)).2
      [.described false (seededDevice 2), .drew false (seededDevice 2) "nonce",
        .answered true (seededDevice 1) "nonce" "fingerprint"] [] false (seededDevice 2) "nonce"
      "fingerprint" htrace hid
  exact ⟨i, d, hi.trans (pubkeyPart_seededDevice 2), hd, hbefore⟩

end MyOwnMesh
