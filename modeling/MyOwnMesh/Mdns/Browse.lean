import Mathlib.Data.List.Destutter
import MyOwnMesh.Lib.Ranks
import MyOwnMesh.Lib.Replay
import MyOwnMesh.Lib.TwoNames

/-!
# The peers that mDNS has found

`crates/myownmesh-signaling/src/mdns/driver.rs:305–359,461–484,764–785` and
`mdns/wire.rs:66–96`. The backend reports services under keys of its own. One table takes a key to
the peer it advertises and another a peer to its addresses and port; both are written by the task
that reads the reports. The pacing of endpoints that failed, which the task also prunes, is not
modelled.
-/

namespace MyOwnMesh.Mdns

open Lib Lib.Ranks Lib.Replay

inductive IpAddr where
  | v4 (bits : BitVec 32)
  | v6 (bits : BitVec 128)
  deriving DecidableEq, Repr

/-- The order of addresses: version four before version six, then by their bits. -/
def IpAddr.rank : IpAddr → Int
  | .v4 bits => bits.toNat
  | .v6 bits => 4294967296 + bits.toNat

/-- `wire.rs:66–73`. -/
structure PeerAdvert where
  room : String
  peer : String
  deriving DecidableEq, Repr

/-- `wire.rs:23`. -/
def protocolVersion : Nat := 1

/-- `wire.rs:78–96`. -/
def parseAdvert (txt : String → Option String) (ourRoom ourDeviceId : String) :
    Option PeerAdvert := do
  let v ← txt "v"
  if v ≠ toString protocolVersion then
    none
  else
    let room ← txt "room"
    if room ≠ ourRoom then
      none
    else
      let peer ← txt "peer"
      if peer.isEmpty ∨ peer = ourDeviceId then none else some ⟨room, peer⟩

/-- `driver.rs:287–291`. -/
structure PeerEntry where
  addrs : List IpAddr
  port : UInt16
  deriving DecidableEq, Repr

/-- `discovery/mod.rs:41–52`. -/
inductive DiscoveryEvent where
  | resolved (key : String) (addrs : List IpAddr) (port : UInt16) (txt : List (String × String))
  | removed (key : String)

/-- What the driver tells the engine of its peers. -/
inductive MdnsInbound where
  | peerAnnounced (deviceId : String)
  | discoveryLost (deviceId : String)
  deriving DecidableEq, Repr

/-- The two tables; `driver.rs:269–273`. -/
structure Tables where
  peers : AList fun _ : String ↦ PeerEntry := ∅
  keyToPeer : AList fun _ : String ↦ String := ∅

/-- The room and the device of the driver; `driver.rs:264–266`. -/
structure Shared where
  roomHandle : String
  deviceId : String

/-- `sort` and `dedup`. -/
def sortDedup (addrs : List IpAddr) : List IpAddr := (ascending IpAddr.rank addrs).destutter (· ≠ ·)

/-- `driver.rs:461–484`. -/
def mergePeerEntry (peers : AList fun _ : String ↦ PeerEntry) (peer : String)
    (addrs : List IpAddr) (port : UInt16) : AList fun _ : String ↦ PeerEntry :=
  let addrs := sortDedup addrs
  match peers.lookup peer with
  | some entry =>
    if entry.port = port then
      peers.insert peer { entry with addrs := sortDedup (entry.addrs ++ addrs) }
    else
      peers.insert peer ⟨addrs, port⟩
  | none => peers.insert peer ⟨addrs, port⟩

variable (shared : Shared)

/-- One report of the backend; `driver.rs:307–357`. -/
def runBrowse (s : Tables) : DiscoveryEvent → Tables × List MdnsInbound
  | .resolved key addrs port txt =>
    match parseAdvert (txt.lookup ·) shared.roomHandle shared.deviceId with
    | none => (s, [])
    | some advert =>
      if addrs.isEmpty then
        (s, [])
      else
        let addrs := ascending IpAddr.rank addrs
        let keyToPeer := s.keyToPeer.insert key advert.peer
        let peers := mergePeerEntry s.peers advert.peer addrs port
        (⟨peers, keyToPeer⟩, [.peerAnnounced advert.peer])
  | .removed key =>
    let keys := s.keyToPeer.erase key
    match (s.keyToPeer.lookup key).filter fun peer ↦ !keys.entries.any (·.2 = peer) with
    | none => ({ s with keyToPeer := keys }, [])
    | some peer => (⟨s.peers.erase peer, keys⟩, [.discoveryLost peer])

/-- The tables after a report. -/
def browsed (s : Tables) (e : DiscoveryEvent) : Tables := (runBrowse shared s e).1

/-- What a report makes the driver tell the engine. -/
def told (s : Tables) (e : DiscoveryEvent) : List MdnsInbound := (runBrowse shared s e).2

/-- What every peer in the table is told as, again and again; `driver.rs:778–783`. -/
def runReannounce (s : Tables) : List MdnsInbound := s.peers.keys.map .peerAnnounced

/-! ### What a report changes -/

/-- Some key leads to the peer. -/
def Known (s : Tables) (peer : String) : Prop := ∃ key, s.keyToPeer.lookup key = some peer

/-- The report is an advertisement of a peer in this room with an address. -/
def Advertises (peer : String) (addrs : List IpAddr) (txt : List (String × String)) : Prop :=
  addrs ≠ [] ∧ ∃ room, parseAdvert (txt.lookup ·) shared.roomHandle shared.deviceId =
    some ⟨room, peer⟩

/-- The report points the last key of a peer at another one. -/
def Repoints (s : Tables) : DiscoveryEvent → Prop
  | .resolved key addrs _ txt => ∃ peer old, Advertises shared peer addrs txt ∧
      s.keyToPeer.lookup key = some old ∧ old ≠ peer ∧
      ∀ key', s.keyToPeer.lookup key' = some old → key' = key
  | .removed _ => False

/-- Everything a report can do. -/
inductive Report (s : Tables) : DiscoveryEvent → Tables → List MdnsInbound → Prop where
  | ignored {key : String} {addrs : List IpAddr} {port : UInt16} {txt : List (String × String)}
      (h : ∀ peer, ¬Advertises shared peer addrs txt) :
      Report s (.resolved key addrs port txt) s []
  | resolved {key peer : String} {addrs : List IpAddr} {port : UInt16}
      {txt : List (String × String)} (h : Advertises shared peer addrs txt) :
      Report s (.resolved key addrs port txt)
        ⟨mergePeerEntry s.peers peer (ascending IpAddr.rank addrs) port,
          s.keyToPeer.insert key peer⟩ [.peerAnnounced peer]
  | kept {key : String} (h : ∀ peer, s.keyToPeer.lookup key = some peer →
        ∃ key', key' ≠ key ∧ s.keyToPeer.lookup key' = some peer) :
      Report s (.removed key) { s with keyToPeer := s.keyToPeer.erase key } []
  | lost {key peer : String} (hkey : s.keyToPeer.lookup key = some peer)
      (hlast : ∀ key', s.keyToPeer.lookup key' = some peer → key' = key) :
      Report s (.removed key) ⟨s.peers.erase peer, s.keyToPeer.erase key⟩ [.discoveryLost peer]

/-- Another key still leads to the peer. -/
theorem any_erase_iff (map : AList fun _ : String ↦ String) (key peer : String) :
    ((map.erase key).entries.any fun p ↦ decide (p.2 = peer)) = true ↔
      ∃ key', key' ≠ key ∧ map.lookup key' = some peer := by
  rw [List.any_eq_true]
  constructor
  · rintro ⟨⟨key', peer'⟩, hmem, heq⟩
    obtain rfl : peer' = peer := of_decide_eq_true heq
    have hlookup : (map.erase key).lookup key' = some peer' := AList.mem_lookup_iff.mpr hmem
    rw [TwoNames.lookup_erase_eq] at hlookup
    split at hlookup
    · cases hlookup
    · next hne => exact ⟨key', hne, hlookup⟩
  · rintro ⟨key', hne, hlookup⟩
    refine ⟨⟨key', peer⟩, ?_, decide_eq_true rfl⟩
    rw [← AList.lookup_erase_ne hne] at hlookup
    exact AList.mem_lookup_iff.mp hlookup

theorem report (s : Tables) (e : DiscoveryEvent) :
    Report shared s e (browsed shared s e) (told shared s e) := by
  unfold browsed told
  cases e with
  | resolved key addrs port txt =>
    rw [runBrowse]
    cases hadvert : parseAdvert (txt.lookup ·) shared.roomHandle shared.deviceId with
    | none =>
      refine .ignored ?_
      rintro peer ⟨_, room, h⟩
      rw [hadvert] at h
      cases h
    | some advert =>
      obtain ⟨room, peer⟩ := advert
      dsimp only
      split
      · next hempty =>
        exact .ignored fun _ h ↦ h.1 (List.isEmpty_iff.mp hempty)
      · next hempty =>
        exact .resolved ⟨fun h ↦ hempty (List.isEmpty_iff.mpr h), room, hadvert⟩
  | removed key =>
    rw [runBrowse]
    cases hkey : s.keyToPeer.lookup key with
    | none =>
      refine .kept ?_
      intro peer h
      rw [hkey] at h
      cases h
    | some peer =>
      have hany := any_erase_iff s.keyToPeer key peer
      by_cases hother : ∃ key', key' ≠ key ∧ s.keyToPeer.lookup key' = some peer
      · rw [Option.filter_some, hany.mpr hother]
        refine .kept ?_
        intro peer' h
        rw [hkey] at h
        cases h
        exact hother
      · have hfalse := Bool.eq_false_iff.mpr fun h ↦ hother (hany.mp h)
        rw [Option.filter_some, hfalse]
        refine .lost hkey ?_
        intro key' h
        by_contra hne
        exact hother ⟨key', hne, h⟩

/-! ### The tables agree -/

theorem mem_of_mem_sortDedup {a : IpAddr} {addrs : List IpAddr} (h : a ∈ sortDedup addrs) :
    a ∈ addrs :=
  (mem_ascending IpAddr.rank).mp ((List.destutter_sublist _ _).mem h)

/-- The entry of the peer has the port, with addresses that are new or had the port before. -/
theorem lookup_mergePeerEntry (peers : AList fun _ : String ↦ PeerEntry) (peer : String)
    (addrs : List IpAddr) (port : UInt16) :
    ∃ entry, entry.port = port ∧
      (∀ a ∈ entry.addrs, a ∈ addrs ∨
        ∃ old, peers.lookup peer = some old ∧ old.port = port ∧ a ∈ old.addrs) ∧
      ∀ name, (mergePeerEntry peers peer addrs port).lookup name =
        if name = peer then some entry else peers.lookup name := by
  unfold mergePeerEntry
  cases hold : peers.lookup peer with
  | none =>
    refine ⟨⟨sortDedup addrs, port⟩, rfl, ?_, TwoNames.lookup_insert_eq _ _ _⟩
    exact fun a ha ↦ .inl (mem_of_mem_sortDedup ha)
  | some old =>
    dsimp only
    split
    · next hport =>
      refine ⟨{ old with addrs := sortDedup (old.addrs ++ sortDedup addrs) }, hport, ?_,
        TwoNames.lookup_insert_eq _ _ _⟩
      intro a ha
      rcases List.mem_append.mp (mem_of_mem_sortDedup ha) with ha | ha
      · exact .inr ⟨old, rfl, hport, ha⟩
      · exact .inl (mem_of_mem_sortDedup ha)
    · refine ⟨⟨sortDedup addrs, port⟩, rfl, ?_, TwoNames.lookup_insert_eq _ _ _⟩
      exact fun a ha ↦ .inl (mem_of_mem_sortDedup ha)

theorem mem_mergePeerEntry (peers : AList fun _ : String ↦ PeerEntry) (peer : String)
    (addrs : List IpAddr) (port : UInt16) (name : String) :
    name ∈ mergePeerEntry peers peer addrs port ↔ name ∈ peers ∨ name = peer := by
  obtain ⟨entry, -, -, hlookup⟩ := lookup_mergePeerEntry peers peer addrs port
  rw [← AList.lookup_isSome, hlookup]
  by_cases hname : name = peer
  · simp [hname]
  · rw [if_neg hname, AList.lookup_isSome]
    simp [hname]

/-- A peer is in the table when it was or is announced, unless it is lost. -/
theorem mem_browsed_iff (s : Tables) (e : DiscoveryEvent) (peer : String) :
    peer ∈ (browsed shared s e).peers ↔
      (peer ∈ s.peers ∨ .peerAnnounced peer ∈ told shared s e) ∧
        .discoveryLost peer ∉ told shared s e := by
  have hreport := report shared s e
  generalize browsed shared s e = s' at hreport ⊢
  generalize told shared s e = out at hreport ⊢
  cases hreport with
  | ignored => simp
  | resolved => simp [mem_mergePeerEntry]
  | kept => simp
  | lost => simp [AList.mem_erase, and_comm]

/-- A key leads to a peer when one did or it is announced, unless it is lost or its last key is
pointed elsewhere. -/
theorem known_browsed_iff {s : Tables} {e : DiscoveryEvent} (h : ¬Repoints shared s e)
    (peer : String) :
    Known (browsed shared s e) peer ↔
      (Known s peer ∨ .peerAnnounced peer ∈ told shared s e) ∧
        .discoveryLost peer ∉ told shared s e := by
  have hreport := report shared s e
  generalize browsed shared s e = s' at hreport ⊢
  generalize told shared s e = out at hreport ⊢
  cases hreport with
  | ignored => simp
  | @resolved key p addrs port txt hadvert =>
    simp only [List.mem_singleton, MdnsInbound.peerAnnounced.injEq, reduceCtorEq,
      not_false_eq_true, and_true, Known, TwoNames.lookup_insert_eq]
    constructor
    · rintro ⟨key', hkey'⟩
      split at hkey'
      · exact .inr (Option.some.inj hkey').symm
      · exact .inl ⟨key', hkey'⟩
    · rintro (⟨key', hkey'⟩ | rfl)
      · by_cases hsame : key' = key
        · -- the key led to the peer: it is announced, or another key leads to it
          by_cases hp : peer = p
          · exact ⟨key, by simp [hp]⟩
          · by_contra hnone
            refine h ⟨p, peer, hadvert, hsame ▸ hkey', hp, fun other hother ↦ ?_⟩
            by_contra hne
            exact hnone ⟨other, by simpa [hne] using hother⟩
        · exact ⟨key', by simpa [hsame] using hkey'⟩
      · exact ⟨key, by simp⟩
  | @kept key hother =>
    simp only [List.not_mem_nil, or_false, not_false_eq_true, and_true, Known,
      TwoNames.lookup_erase_eq]
    constructor
    · rintro ⟨key', hkey'⟩
      split at hkey'
      · cases hkey'
      · exact ⟨key', hkey'⟩
    · rintro ⟨key', hkey'⟩
      by_cases hsame : key' = key
      · obtain ⟨other, hne, hother⟩ := hother peer (hsame ▸ hkey')
        exact ⟨other, by simpa [hne] using hother⟩
      · exact ⟨key', by simpa [hsame] using hkey'⟩
  | @lost key p hkey hlast =>
    simp only [List.mem_singleton, MdnsInbound.discoveryLost.injEq, reduceCtorEq, or_false, Known,
      TwoNames.lookup_erase_eq]
    constructor
    · rintro ⟨key', hkey'⟩
      split at hkey'
      · cases hkey'
      · next hne =>
        refine ⟨⟨key', hkey'⟩, ?_⟩
        rintro rfl
        exact hne (hlast key' hkey')
    · rintro ⟨⟨key', hkey'⟩, hp⟩
      refine ⟨key', ?_⟩
      have hne : key' ≠ key := by
        rintro rfl
        rw [hkey] at hkey'
        exact hp (Option.some.inj hkey').symm
      simpa [hne] using hkey'

/-- Only a peer with a key is lost. -/
theorem known_of_lost {s : Tables} {e : DiscoveryEvent} {peer : String}
    (h : .discoveryLost peer ∈ told shared s e) : Known s peer := by
  have hreport := report shared s e
  generalize browsed shared s e = s' at hreport
  generalize told shared s e = out at hreport h
  cases hreport with
  | ignored => simp at h
  | resolved => simp at h
  | kept => simp at h
  | @lost key p hkey =>
    obtain rfl : peer = p := by simpa using h
    exact ⟨key, hkey⟩

/-- A peer whose last key is pointed elsewhere has no key, and is not lost. -/
theorem unknown_of_repoints {s : Tables} {e : DiscoveryEvent} (h : Repoints shared s e) :
    ∃ peer, Known s peer ∧ ¬Known (browsed shared s e) peer ∧
      .discoveryLost peer ∉ told shared s e := by
  cases e with
  | removed key => exact absurd h id
  | resolved key addrs port txt =>
    obtain ⟨p, old, hadvert, hold, hne, hlast⟩ := h
    have hreport := report shared s (.resolved key addrs port txt)
    generalize browsed shared s (.resolved key addrs port txt) = s' at hreport ⊢
    generalize told shared s (.resolved key addrs port txt) = out at hreport ⊢
    refine ⟨old, ⟨key, hold⟩, ?_⟩
    cases hreport with
    | ignored hnone => exact absurd hadvert (hnone p)
    | @resolved _ q _ _ _ hadvert' =>
      have hq : q = p := by
        obtain ⟨_, room, hroom⟩ := hadvert
        obtain ⟨_, room', hroom'⟩ := hadvert'
        rw [hroom] at hroom'
        cases hroom'
        rfl
      refine ⟨?_, by simp⟩
      rintro ⟨key', hkey'⟩
      rw [TwoNames.lookup_insert_eq] at hkey'
      split at hkey'
      · exact hne ((Option.some.inj hkey').symm.trans hq)
      · next hsame => exact hsame (hlast key' hkey')

/-! ### Every run -/

/-- An event that advertised an address of a peer with a port. -/
def Offered (peer : String) (addr : IpAddr) (port : UInt16) : DiscoveryEvent → Prop
  | .resolved _ addrs port' txt => Advertises shared peer addrs txt ∧ addr ∈ addrs ∧ port' = port
  | .removed _ => False

/-- The addresses of the table were advertised with its ports. -/
def Sourced (events : List DiscoveryEvent) (s : Tables) : Prop :=
  ∀ peer entry, s.peers.lookup peer = some entry → ∀ addr ∈ entry.addrs,
    ∃ e ∈ events, Offered shared peer addr entry.port e

theorem Sourced.browsed {events : List DiscoveryEvent} {s : Tables}
    (h : Sourced shared events s) (e : DiscoveryEvent) :
    Sourced shared (events ++ [e]) (browsed shared s e) := by
  -- what was advertised before is so still
  have hold : ∀ peer addr port, (∃ d ∈ events, Offered shared peer addr port d) →
      ∃ d ∈ events ++ [e], Offered shared peer addr port d := by
    rintro peer addr port ⟨d, hd, hoffer⟩
    exact ⟨d, List.mem_append_left _ hd, hoffer⟩
  intro peer entry hentry addr haddr
  have hreport := report shared s e
  generalize Mdns.browsed shared s e = s' at hreport hentry
  generalize told shared s e = out at hreport
  cases hreport with
  | ignored => exact hold _ _ _ (h peer entry hentry addr haddr)
  | kept => exact hold _ _ _ (h peer entry hentry addr haddr)
  | @lost key p =>
    rw [TwoNames.lookup_erase_eq] at hentry
    split at hentry
    · cases hentry
    · exact hold _ _ _ (h peer entry hentry addr haddr)
  | @resolved key p addrs port txt hadvert =>
    obtain ⟨merged, hport, haddrs, hlookup⟩ :=
      lookup_mergePeerEntry s.peers p (ascending IpAddr.rank addrs) port
    rw [hlookup] at hentry
    split at hentry
    · next hpeer =>
      cases hentry
      rcases haddrs addr haddr with hnew | ⟨old, hlook, hsame, hmem⟩
      · refine ⟨_, List.mem_append_right _ List.mem_cons_self, hpeer ▸ hadvert, ?_, hport.symm⟩
        exact (mem_ascending IpAddr.rank).mp hnew
      · rw [hport.trans hsame.symm]
        exact hold _ _ _ (h peer old (hpeer ▸ hlook) addr hmem)
    · exact hold _ _ _ (h peer entry hentry addr haddr)

theorem sourced_run (events : List DiscoveryEvent) :
    Sourced shared events (run (browsed shared) {} events) := by
  induction events using List.reverseRecOn with
  | nil =>
    intro peer entry hentry
    exact absurd hentry (by simp [run_nil])
  | append_singleton events e ih =>
    rw [run_append]
    exact ih.browsed shared e

/-- The table follows discovery through a sequence of reports. -/
structure Follows (events : List DiscoveryEvent) : Prop where
  peers : ∀ pre post, events = pre ++ post → ∀ peer,
    peer ∈ (run (browsed shared) {} pre).peers ↔ Known (run (browsed shared) {} pre) peer
  addresses : ∀ pre post, events = pre ++ post →
    Sourced shared pre (run (browsed shared) {} pre)
  lost : ∀ pre e post, events = pre ++ e :: post → ∀ peer,
    .discoveryLost peer ∈ told shared (run (browsed shared) {} pre) e ↔
      Known (run (browsed shared) {} pre) peer ∧
        ¬Known (run (browsed shared) {} (pre ++ [e])) peer

/-- The peers of the table are those that a key leads to. -/
def Agree (s : Tables) : Prop := ∀ peer, peer ∈ s.peers ↔ Known s peer

theorem agree_browsed {s : Tables} (hs : Agree s) {e : DiscoveryEvent}
    (h : ¬Repoints shared s e) : Agree (browsed shared s e) := by
  intro peer
  rw [mem_browsed_iff, known_browsed_iff shared h, hs peer]

/-- The table follows discovery exactly when no report points the last key of a peer at another
peer. -/
theorem peers_follow_discovery_iff (events : List DiscoveryEvent) :
    Follows shared events ↔
      AllSteps (browsed shared) (fun s e ↦ ¬Repoints shared s e) {} events := by
  constructor
  · intro h
    refine allSteps_iff_forall.mpr fun pre e post hevents hrepoints ↦ ?_
    obtain ⟨peer, hbefore, hafter, hnot⟩ := unknown_of_repoints shared hrepoints
    rw [(h.lost pre e post hevents peer)] at hnot
    refine hnot ⟨hbefore, ?_⟩
    rwa [run_append]
  · intro h
    have hagree := forall_run_of_allSteps (I := Agree) (s := ({} : Tables))
      (fun s e hs hstep ↦ agree_browsed shared hs hstep) ?_ h
    · refine ⟨hagree, fun pre _ _ ↦ sourced_run shared pre, ?_⟩
      intro pre e post hevents peer
      have hstep := allSteps_iff_forall.mp h pre e post hevents
      have hknown := known_browsed_iff shared hstep peer
      rw [run_append]
      show _ ↔ _ ∧ ¬Known (browsed shared (run (browsed shared) {} pre) e) peer
      rw [hknown]
      constructor
      · exact fun hlost ↦ ⟨known_of_lost shared hlost, fun hnot ↦ hnot.2 hlost⟩
      · rintro ⟨hbefore, hnot⟩
        by_contra hlost
        exact hnot ⟨.inl hbefore, hlost⟩
    · intro peer
      simp [Known]

/-- A service is restarted under its name by another device. -/
def takenOver : List DiscoveryEvent :=
  [.resolved "mom-room" [.v4 1] 41000 [("v", "1"), ("room", "r"), ("peer", "a")],
    .resolved "mom-room" [.v4 2] 41000 [("v", "1"), ("room", "r"), ("peer", "b")],
    .removed "mom-room"]

/-- The first device stays in the table and goes on being announced, though no key leads to it. -/
theorem taken_over_lingers :
    ¬Follows ⟨"r", "self"⟩ takenOver ∧
      runReannounce (run (browsed ⟨"r", "self"⟩) {} takenOver) = [.peerAnnounced "a"] := by
  have hkeys : (run (browsed ⟨"r", "self"⟩) {} takenOver).keyToPeer = ∅ :=
    AList.ext (by decide +kernel)
  have hpeers : runReannounce (run (browsed ⟨"r", "self"⟩) {} takenOver) =
      [.peerAnnounced "a"] := by decide +kernel
  refine ⟨fun h ↦ ?_, hpeers⟩
  have hmem : "a" ∈ (run (browsed ⟨"r", "self"⟩) {} takenOver).peers := by
    have hlist : MdnsInbound.peerAnnounced "a" ∈
        runReannounce (run (browsed ⟨"r", "self"⟩) {} takenOver) := by
      rw [hpeers]
      exact List.mem_cons_self
    obtain ⟨peer, hpeer, heq⟩ := List.mem_map.mp hlist
    cases heq
    exact AList.mem_keys.mpr hpeer
  obtain ⟨key, hkey⟩ := (h.peers takenOver [] (List.append_nil _).symm "a").mp hmem
  rw [hkeys] at hkey
  cases hkey

end MyOwnMesh.Mdns
