import MyOwnMesh.SignalingServer.Hub

/-!
# The presence book of the signaling relay

Four maps are changed by different handlers: the connections with the pairs each announced, the
live owner of each pair, the events kept for replay and the counts per address. Ownership moves
when another connection announces the same device, and the old owner's list still names it. A
closing connection walks its list and lets go only what it still owns.
-/

namespace MyOwnMesh.SignalingServer

open Lib.Replay

variable {X : Externals} {s : Hub X}

/-! ### Entries of a map -/

section Entries

variable {α β : Type} [DecidableEq α] {l : AList (fun _ : α ↦ β)} {a : α} {b : β}

/-- A map's entry is what its key finds. -/
private theorem mem_entries_iff : (⟨a, b⟩ : (_ : α) × β) ∈ l.entries ↔ l.lookup a = some b :=
  (List.mem_dlookup_iff l.nodupKeys).symm

/-- An entry counts besides the entries of the other keys. -/
private theorem countP_erase (p : (_ : α) × β → Bool) (h : l.lookup a = some b) :
    l.entries.countP p = (l.erase a).entries.countP p + if p ⟨a, b⟩ then 1 else 0 := by
  have hkey : a ∈ l.entries.keys := AList.lookup_isSome.mp (by simp [h])
  obtain ⟨b', l₁, l₂, -, hl, herase⟩ := List.exists_of_kerase hkey
  have hb : b' = b := by
    have hmem : (⟨a, b'⟩ : (_ : α) × β) ∈ l.entries := by simp [hl]
    rw [mem_entries_iff, h] at hmem
    exact (Option.some.inj hmem).symm
  rw [show (l.erase a).entries = l₁ ++ l₂ from herase, hl, List.countP_append,
    List.countP_cons, List.countP_append, hb]
  omega

private theorem countP_insert (p : (_ : α) × β → Bool) :
    (l.insert a b).entries.countP p =
      (l.erase a).entries.countP p + if p ⟨a, b⟩ then 1 else 0 := by
  rw [AList.entries_insert, List.countP_cons]
  rfl

end Entries

/-! ### The invariant -/

/-- A live connection lists the pair. -/
def Hub.Lists (s : Hub X) (id : Nat) (pair : String × String) : Prop :=
  ∃ conn, s.conns.lookup id = some conn ∧ pair ∈ conn.present

/-- The presence table and the retained events belong together; `owner` says who may own a
pair. -/
structure Book (s : Hub X) (owner : Nat → String × String → Prop) : Prop where
  owned : ∀ room device p, s.presenceAt room device = some p → owner p.connId (room, device)
  announced : ∀ room device p, s.presenceAt room device = some p →
    presenceOf X p.announce = some (room, device)
  rooms : ∀ room m, s.presence.lookup room = some m → m.entries ≠ []
  stored : ∀ e ∈ s.stored, ∀ room device, presenceOf X e.event = some (room, device) →
    (s.presenceAt room device).isSome

/-- The connections and the counts per address belong together. -/
structure Accounts (s : Hub X) : Prop where
  fresh : ∀ id ∈ s.conns, id < s.nextId
  nodup : ∀ id conn, s.conns.lookup id = some conn → conn.present.Nodup
  counts : ∀ ip, (s.ipCounts.lookup ip).getD 0 = s.connsFrom ip
  bounded : s.limits.maxConnectionsPerIp ≠ 0 →
    ∀ ip, s.connsFrom ip ≤ s.limits.maxConnectionsPerIp

/-- What holds between two calls. -/
structure Exact (s : Hub X) : Prop where
  book : Book s s.Lists
  accounts : Accounts s

theorem Book.mono {owner owner' : Nat → String × String → Prop} (h : Book s owner)
    (himp : ∀ id pair, owner id pair → owner' id pair) : Book s owner' :=
  ⟨fun room device p hp ↦ himp _ _ (h.owned room device p hp), h.announced, h.rooms, h.stored⟩

theorem exact_new (limits : Limits) : Exact (Hub.new X limits) where
  book := ⟨by simp [Hub.presenceAt, Hub.new], by simp [Hub.presenceAt, Hub.new],
    by simp [Hub.new], by simp [Hub.new]⟩
  accounts := ⟨by simp [Hub.new], by simp [Hub.new], by simp [Hub.new, Hub.connsFrom],
    by simp [Hub.new, Hub.connsFrom]⟩

/-! ### Changing a connection in place -/

theorem lookup_modifyConn (s : Hub X) (id : Nat) (f : ConnEntry X → ConnEntry X) (id' : Nat) :
    (s.modifyConn id f).conns.lookup id' =
      if id' = id then (s.conns.lookup id).map f else s.conns.lookup id' := by
  unfold Hub.modifyConn
  cases h : s.conns.lookup id with
  | none =>
    by_cases hid : id' = id
    · subst hid
      simp [h]
    · simp [hid]
  | some conn =>
    by_cases hid : id' = id
    · subst hid
      simp
    · simp [hid, AList.lookup_insert_ne hid]

theorem modifyConn_frame (s : Hub X) (id : Nat) (f : ConnEntry X → ConnEntry X) :
    (s.modifyConn id f).presence = s.presence ∧ (s.modifyConn id f).stored = s.stored ∧
      (s.modifyConn id f).ipCounts = s.ipCounts ∧ (s.modifyConn id f).limits = s.limits ∧
      (s.modifyConn id f).nextId = s.nextId := by
  unfold Hub.modifyConn
  cases s.conns.lookup id <;> exact ⟨rfl, rfl, rfl, rfl, rfl⟩

/-- The counts do not see a change that leaves the address alone. -/
theorem connsFrom_modifyConn {id : Nat} {f : ConnEntry X → ConnEntry X}
    (hip : ∀ c, (f c).ip = c.ip) (ip : IpAddr) :
    (s.modifyConn id f).connsFrom ip = s.connsFrom ip := by
  unfold Hub.modifyConn
  cases h : s.conns.lookup id with
  | none => rfl
  | some conn => simp only [Hub.connsFrom, countP_erase _ h, countP_insert, hip]

theorem Accounts.modifyConn {id : Nat} {f : ConnEntry X → ConnEntry X} (h : Accounts s)
    (hip : ∀ c, (f c).ip = c.ip)
    (hnodup : ∀ c : ConnEntry X, c.present.Nodup → (f c).present.Nodup) :
    Accounts (s.modifyConn id f) := by
  obtain ⟨-, -, hcounts, hlimits, hnext⟩ := modifyConn_frame s id f
  refine ⟨fun id' hid' ↦ ?_, fun id' conn hconn ↦ ?_, fun ip ↦ ?_, fun hmax ip ↦ ?_⟩
  · rw [← AList.lookup_isSome, lookup_modifyConn] at hid'
    rw [hnext]
    apply h.fresh
    rw [← AList.lookup_isSome]
    by_cases heq : id' = id
    · subst heq
      simpa using hid'
    · simpa [heq] using hid'
  · rw [lookup_modifyConn] at hconn
    by_cases heq : id' = id
    · simp only [heq, ↓reduceIte, Option.map_eq_some_iff] at hconn
      obtain ⟨old, hold, rfl⟩ := hconn
      exact hnodup old (h.nodup id old hold)
    · simp only [heq, ↓reduceIte] at hconn
      exact h.nodup id' conn hconn
  · rw [hcounts, connsFrom_modifyConn hip]
    exact h.counts ip
  · rw [hlimits] at hmax ⊢
    rw [connsFrom_modifyConn hip]
    exact h.bounded hmax ip

/-- A connection that forgets no pair still lists what it listed. -/
theorem Hub.Lists.modifyConn {id id' : Nat} {f : ConnEntry X → ConnEntry X}
    {pair : String × String} (h : s.Lists id' pair)
    (hsub : ∀ c : ConnEntry X, c.present ⊆ (f c).present) :
    (s.modifyConn id f).Lists id' pair := by
  obtain ⟨conn, hconn, hpair⟩ := h
  unfold Hub.Lists
  rw [lookup_modifyConn]
  by_cases heq : id' = id
  · subst heq
    exact ⟨f conn, by simp [hconn], hsub conn hpair⟩
  · exact ⟨conn, by simp [heq, hconn], hpair⟩

theorem Book.modifyConn {id : Nat} {f : ConnEntry X → ConnEntry X}
    {owner : Nat → String × String → Prop} (h : Book s owner) :
    Book (s.modifyConn id f) owner := by
  obtain ⟨hpresence, hstored, -, -, -⟩ := modifyConn_frame s id f
  have hat : ∀ room device, (s.modifyConn id f).presenceAt room device =
      s.presenceAt room device := fun room device ↦ by simp only [Hub.presenceAt, hpresence]
  refine ⟨fun room device p hp ↦ ?_, fun room device p hp ↦ ?_, ?_, ?_⟩
  · exact h.owned room device p (hat room device ▸ hp)
  · exact h.announced room device p (hat room device ▸ hp)
  · rw [hpresence]
    exact h.rooms
  · rw [hstored]
    intro e he room device hpair
    rw [hat]
    exact h.stored e he room device hpair

/-- A change that keeps the address and the pairs of a connection keeps the invariant. -/
theorem Exact.modifyConn {id : Nat} {f : ConnEntry X → ConnEntry X} (h : Exact s)
    (hip : ∀ c, (f c).ip = c.ip) (hpresent : ∀ c, (f c).present = c.present) :
    Exact (s.modifyConn id f) where
  book := (h.book.modifyConn).mono fun _ _ hl ↦
    hl.modifyConn fun c ↦ by rw [hpresent]; exact List.Subset.refl _
  accounts := h.accounts.modifyConn hip fun c hc ↦ by rw [hpresent]; exact hc

/-! ### Opening -/

/-- A connection that is admitted counts for its address. -/
theorem Accounts.register (h : Accounts s) (ip : IpAddr) (now : Nat) :
    Accounts (s.register ip now).1 := by
  unfold Hub.register
  by_cases hfull : 0 < s.limits.maxConnectionsPerIp ∧
      s.limits.maxConnectionsPerIp ≤ (s.ipCounts.lookup ip).getD 0
  · simp only [hfull, and_self, ↓reduceIte]
    exact h
  have hnew : s.nextId ∉ s.conns := fun hmem ↦ Nat.lt_irrefl _ (h.fresh _ hmem)
  simp only [hfull, ↓reduceIte]
  refine ⟨fun id hid ↦ ?_, fun id conn hconn ↦ ?_, fun ip' ↦ ?_, fun hmax ip' ↦ ?_⟩
  · rcases (AList.mem_insert _).mp hid with rfl | hid
    · exact Nat.lt_succ_self _
    · exact Nat.lt_succ_of_lt (h.fresh id hid)
  · by_cases hid : id = s.nextId
    · subst hid
      rw [AList.lookup_insert] at hconn
      cases hconn
      exact List.nodup_nil
    · rw [AList.lookup_insert_ne hid] at hconn
      exact h.nodup id conn hconn
  · have hcount := h.counts ip'
    unfold Hub.connsFrom at hcount ⊢
    rw [AList.entries_insert_of_notMem hnew, List.countP_cons, ← hcount]
    by_cases hip : ip' = ip
    · subst hip
      simp
    · simp [AList.lookup_insert_ne hip, Ne.symm hip]
  · have hcount := h.counts ip'
    have hle := h.bounded hmax ip'
    unfold Hub.connsFrom at hcount hle ⊢
    rw [AList.entries_insert_of_notMem hnew, List.countP_cons]
    by_cases hip : ip' = ip
    · subst hip
      simp only [decide_true, ↓reduceIte]
      simp only [not_and, Nat.not_le] at hfull
      have := hfull (Nat.pos_of_ne_zero hmax)
      omega
    · simpa [Ne.symm hip] using hle

/-- A fresh connection lists nothing, and the others list what they did. -/
theorem Exact.register (h : Exact s) (ip : IpAddr) (now : Nat) :
    Exact (s.register ip now).1 := by
  refine ⟨?_, h.accounts.register ip now⟩
  unfold Hub.register
  by_cases hfull : 0 < s.limits.maxConnectionsPerIp ∧
      s.limits.maxConnectionsPerIp ≤ (s.ipCounts.lookup ip).getD 0
  · simp only [hfull, and_self, ↓reduceIte]
    exact h.book
  simp only [hfull, ↓reduceIte]
  refine ⟨fun room device p hp ↦ ?_, h.book.announced, h.book.rooms, h.book.stored⟩
  obtain ⟨conn, hconn, hpair⟩ := h.book.owned room device p hp
  have hid : p.connId ≠ s.nextId := by
    have := h.accounts.fresh p.connId (AList.lookup_isSome.mp (by simp [hconn]))
    omega
  exact ⟨conn, by rw [AList.lookup_insert_ne hid]; exact hconn, hpair⟩

/-! ### Announcing -/

/-- What the presence table says after one insertion. -/
theorem presenceAt_insert (s : Hub X) (room device : String) (p : Presence)
    (room' device' : String) :
    Hub.presenceAt { s with presence := insertPresence s.presence room device p } room' device' =
      if (room', device') = (room, device) then some p else s.presenceAt room' device' := by
  unfold Hub.presenceAt insertPresence
  by_cases hroom : room' = room
  · subst hroom
    by_cases hdevice : device' = device
    · subst hdevice
      simp
    · rw [AList.lookup_insert, Option.bind_some, AList.lookup_insert_ne hdevice,
        if_neg (by simp [hdevice])]
      cases s.presence.lookup room' <;> rfl
  · simp [hroom, AList.lookup_insert_ne hroom]

/-- An announce makes its connection an owner. -/
theorem Book.announce {owner : Nat → String × String → Prop} (h : Book s owner) {id : Nat}
    {event : NostrEvent} {room device : String}
    (hpair : presenceOf X event = some (room, device)) :
    Book { s with presence := insertPresence s.presence room device ⟨id, event⟩ }
      (fun id' pair ↦ owner id' pair ∨ (id' = id ∧ pair = (room, device))) := by
  refine ⟨fun room' device' p hp ↦ ?_, fun room' device' p hp ↦ ?_, fun room' m hm ↦ ?_,
    fun e he room' device' hpair' ↦ ?_⟩
  · rw [presenceAt_insert] at hp
    by_cases hsame : (room', device') = (room, device)
    · rw [if_pos hsame] at hp
      cases hp
      exact .inr ⟨rfl, hsame⟩
    · rw [if_neg hsame] at hp
      exact .inl (h.owned room' device' p hp)
  · rw [presenceAt_insert] at hp
    by_cases hsame : (room', device') = (room, device)
    · rw [if_pos hsame] at hp
      cases hp
      rw [hsame]
      exact hpair
    · rw [if_neg hsame] at hp
      exact h.announced room' device' p hp
  · simp only [insertPresence] at hm
    by_cases hroom : room' = room
    · subst hroom
      rw [AList.lookup_insert] at hm
      cases hm
      rw [AList.entries_insert]
      exact List.cons_ne_nil _ _
    · rw [AList.lookup_insert_ne hroom] at hm
      exact h.rooms room' m hm
  · rw [presenceAt_insert]
    by_cases hsame : (room', device') = (room, device)
    · simp [hsame]
    · rw [if_neg hsame]
      exact h.stored e he room' device' hpair'

/-- The connection that announces lists what it announced. -/
theorem Exact.trackPresence (h : Exact s) {id : Nat} (hlive : id ∈ s.conns)
    (event : NostrEvent) : Exact (s.trackPresence id event) := by
  unfold Hub.trackPresence
  cases hpair : presenceOf X event with
  | none => exact h
  | some pair =>
    obtain ⟨room, device⟩ := pair
    simp only
    have hsub : ∀ c : ConnEntry X, c.present ⊆
        (if (room, device) ∈ c.present then c
          else { c with present := c.present ++ [(room, device)] }).present := by
      intro c pair hmem
      split
      · exact hmem
      · exact List.mem_append_left _ hmem
    constructor
    · refine (Book.modifyConn (h.book.announce hpair)).mono ?_
      rintro id' pair (hlists | ⟨rfl, rfl⟩)
      · exact Hub.Lists.modifyConn hlists hsub
      · -- The announcing connection is live, so its list takes the pair.
        obtain ⟨conn, hconn⟩ := Option.isSome_iff_exists.mp (AList.lookup_isSome.mpr hlive)
        refine ⟨_, by rw [lookup_modifyConn, if_pos rfl, hconn]; rfl, ?_⟩
        by_cases hmem : (room, device) ∈ conn.present
        · simp [hmem]
        · simp [hmem]
    · refine Accounts.modifyConn ⟨h.accounts.fresh, h.accounts.nodup, h.accounts.counts,
        h.accounts.bounded⟩ (fun c ↦ by split <;> rfl) fun c hc ↦ ?_
      split
      · exact hc
      · next hmem =>
        exact List.nodup_append.mpr ⟨hc, List.nodup_singleton _, by
          rintro a ha b hb rfl
          rw [List.mem_singleton] at hb
          exact hmem (hb ▸ ha)⟩

/-- An announce that was tracked is live. -/
theorem isSome_presenceAt_trackPresence (s : Hub X) (id : Nat) {event : NostrEvent}
    {room device : String} (hpair : presenceOf X event = some (room, device)) :
    ((s.trackPresence id event).presenceAt room device).isSome := by
  unfold Hub.trackPresence
  rw [hpair]
  simp only [Hub.presenceAt, (modifyConn_frame _ _ _).1, insertPresence, AList.lookup_insert,
    Option.bind_some, Option.isSome_some]

/-- What is kept was there. -/
theorem mem_of_mem_prune {stored : List StoredEvent} {now : Nat} {e : StoredEvent}
    (h : e ∈ prune stored now) : e ∈ stored :=
  (List.dropWhile_sublist _).mem (List.mem_of_mem_drop h)

/-- What is kept for replay may be anything whose announces are live. -/
theorem Exact.withStored (h : Exact s) {stored : List StoredEvent}
    (hstored : ∀ e ∈ stored, ∀ room device, presenceOf X e.event = some (room, device) →
      (s.presenceAt room device).isSome) : Exact { s with stored := stored } :=
  ⟨⟨h.book.owned, h.book.announced, h.book.rooms, hstored⟩,
    ⟨h.accounts.fresh, h.accounts.nodup, h.accounts.counts, h.accounts.bounded⟩⟩

/-- Handling an event keeps the book. -/
theorem Exact.handleEvent (h : Exact s) {id : Nat} (hlive : id ∈ s.conns) (arr : List Value)
    (now : Nat) : Exact (s.handleEvent id arr now).1 := by
  unfold Hub.handleEvent
  cases arr[1]? with
  | none => exact h
  | some value =>
    simp only
    cases X.decodeEvent value with
    | none => exact h
    | some event =>
      simp only
      by_cases hverify : event.verify X
      · have htrack := h.trackPresence hlive event
        simp only [hverify, not_true_eq_false, ↓reduceIte]
        by_cases hkind : isStoredKind event.kind
        · simp only [hkind, ↓reduceIte]
          refine htrack.withStored fun e he room device hpair ↦ ?_
          rcases List.mem_append.mp (mem_of_mem_prune he) with hold | hnew
          · exact htrack.book.stored e hold room device hpair
          · rw [List.mem_singleton.mp hnew] at hpair
            exact isSome_presenceAt_trackPresence s id hpair
        · simp only [hkind, Bool.false_eq_true, ↓reduceIte]
          exact htrack
      · simp only [hverify, Bool.false_eq_true, not_false_eq_true, ↓reduceIte]
        exact h

/-! ### Closing -/

/-- A connection owns what the table says it owns. -/
theorem owns_iff (s : Hub X) (id : Nat) (pair : String × String) :
    s.owns id pair = true ↔ ∃ p, s.presenceAt pair.1 pair.2 = some p ∧ p.connId = id := by
  unfold Hub.owns
  cases s.presenceAt pair.1 pair.2 <;> simp

/-- What the presence table says after one removal. -/
theorem presenceAt_remove (s : Hub X) (stored : List StoredEvent)
    (room device room' device' : String) :
    Hub.presenceAt { s with
        presence := removePresence s.presence room device
        stored := stored } room' device' =
      if (room', device') = (room, device) then none else s.presenceAt room' device' := by
  unfold Hub.presenceAt removePresence
  cases hlookup : s.presence.lookup room with
  | none =>
    by_cases hroom : room' = room
    · subst hroom
      simp [hlookup]
    · simp [hroom]
  | some m =>
    by_cases hroom : room' = room
    · subst hroom
      by_cases hempty : (m.erase device).entries.isEmpty
      · have hnone : AList.lookup device' (m.erase device) = none := by
          have : m.erase device = ∅ := AList.ext (List.isEmpty_iff.mp hempty)
          simp [this]
        by_cases hdevice : device' = device
        · simp [hempty, hdevice]
        · rw [AList.lookup_erase_ne hdevice] at hnone
          simp [hempty, hdevice, hlookup, hnone]
      · by_cases hdevice : device' = device
        · subst hdevice
          simp [hempty]
        · simp [hempty, hdevice, hlookup, AList.lookup_erase_ne hdevice]
    · by_cases hempty : (m.erase device).entries.isEmpty
      · simp [hempty, hroom, AList.lookup_erase_ne hroom]
      · simp [hempty, hroom, AList.lookup_insert_ne hroom]

/-- No room is left empty by a removal. -/
theorem rooms_remove {presence : AList (fun _ : String ↦ AList (fun _ : String ↦ Presence))}
    (h : ∀ room m, presence.lookup room = some m → m.entries ≠ []) (room device room' : String)
    (m' : AList (fun _ : String ↦ Presence))
    (hm : (removePresence presence room device).lookup room' = some m') : m'.entries ≠ [] := by
  unfold removePresence at hm
  cases hlookup : presence.lookup room with
  | none =>
    rw [hlookup] at hm
    exact h room' m' hm
  | some m =>
    simp only [hlookup] at hm
    by_cases hempty : (m.erase device).entries.isEmpty
    · simp only [hempty, ↓reduceIte] at hm
      by_cases hroom : room' = room
      · subst hroom
        simp at hm
      · rw [AList.lookup_erase_ne hroom] at hm
        exact h room' m' hm
    · simp only [hempty, Bool.false_eq_true, ↓reduceIte] at hm
      by_cases hroom : room' = room
      · subst hroom
        rw [AList.lookup_insert] at hm
        cases hm
        simpa using hempty
      · rw [AList.lookup_insert_ne hroom] at hm
        exact h room' m' hm

/-- Who may own a pair while connection `id` closes: a live connection that lists it, or the
closing one if the pair is still to be walked. -/
def ClosingOwner (s : Hub X) (id : Nat) (todo : List (String × String)) (id' : Nat)
    (pair : String × String) : Prop :=
  s.Lists id' pair ∨ (id' = id ∧ pair ∈ todo)

/-- One pair of the closing connection is walked. -/
theorem Book.departStep {id : Nat} {now : UInt64} {pair : String × String}
    {todo : List (String × String)} (h : Book s (ClosingOwner s id (pair :: todo)))
    (sent : List (Nat × Frame)) :
    Book (departStep id now (s, sent) pair).1
      (ClosingOwner (departStep id now (s, sent) pair).1 id todo) := by
  unfold SignalingServer.departStep
  by_cases howns : s.owns id pair
  · simp only [howns, not_true_eq_false, ↓reduceIte]
    refine ⟨fun room device p hp ↦ ?_, fun room device p hp ↦ ?_,
      rooms_remove h.rooms pair.1 pair.2, fun e he room device hpair ↦ ?_⟩
    · rw [presenceAt_remove] at hp
      by_cases hsame : (room, device) = (pair.1, pair.2)
      · simp [if_pos hsame] at hp
      · rw [if_neg hsame] at hp
        rcases h.owned room device p hp with hlists | ⟨hid, hmem⟩
        · exact .inl hlists
        · exact .inr ⟨hid, (List.mem_cons.mp hmem).resolve_left hsame⟩
    · rw [presenceAt_remove] at hp
      by_cases hsame : (room, device) = (pair.1, pair.2)
      · simp [if_pos hsame] at hp
      · rw [if_neg hsame] at hp
        exact h.announced room device p hp
    · rw [List.mem_filter, decide_eq_true_eq] at he
      have hsame : (room, device) ≠ (pair.1, pair.2) := by
        intro heq
        exact he.2 (hpair.trans (congrArg some heq))
      rw [presenceAt_remove, if_neg hsame]
      exact h.stored e he.1 room device hpair
  · simp only [howns, Bool.false_eq_true, not_false_eq_true, ↓reduceIte]
    refine ⟨fun room device p hp ↦ ?_, h.announced, h.rooms, h.stored⟩
    rcases h.owned room device p hp with hlists | ⟨hid, hmem⟩
    · exact .inl hlists
    · rcases List.mem_cons.mp hmem with rfl | hmem
      · exact absurd ((owns_iff s id (room, device)).mpr ⟨p, hp, hid⟩) howns
      · exact .inr ⟨hid, hmem⟩

/-- The walk touches the presence table and the retained events only. -/
theorem foldl_departStep_frame (s : Hub X) (id : Nat) (now : UInt64)
    (todo : List (String × String)) (sent : List (Nat × Frame)) :
    ∃ presence stored, (todo.foldl (departStep id now) (s, sent)).1 =
      { s with presence := presence, stored := stored } := by
  induction todo generalizing s sent with
  | nil => exact ⟨s.presence, s.stored, rfl⟩
  | cons pair todo ih =>
    rw [List.foldl_cons]
    by_cases howns : s.owns id pair
    · simp only [departStep, howns, not_true_eq_false, ↓reduceIte]
      obtain ⟨presence, stored, heq⟩ := ih _ _
      exact ⟨presence, stored, heq⟩
    · simp only [departStep, howns, Bool.false_eq_true, not_false_eq_true, ↓reduceIte]
      exact ih s sent

/-- After the walk, nothing is left to the closing connection. -/
theorem Book.foldl_departStep {id : Nat} {now : UInt64} {todo : List (String × String)}
    (h : Book s (ClosingOwner s id todo)) (sent : List (Nat × Frame)) :
    Book (todo.foldl (SignalingServer.departStep id now) (s, sent)).1
      (todo.foldl (SignalingServer.departStep id now) (s, sent)).1.Lists := by
  induction todo generalizing s sent with
  | nil =>
    refine h.mono fun id' pair howner ↦ ?_
    exact howner.resolve_right fun hmem ↦ List.not_mem_nil hmem.2
  | cons pair todo ih => exact ih (h.departStep sent) _

/-- Walking one pair does not change who owns another. -/
theorem owns_departStep {id : Nat} {now : UInt64} {pair pair' : String × String}
    (hne : pair' ≠ pair) (sent : List (Nat × Frame)) :
    (departStep id now (s, sent) pair).1.owns id pair' = s.owns id pair' := by
  unfold departStep
  by_cases howns : s.owns id pair
  · simp only [howns, not_true_eq_false, ↓reduceIte]
    unfold Hub.owns
    rw [presenceAt_remove, if_neg hne]
  · simp [howns]

/-- The departures of one pair. -/
def leaveFrames (s : Hub X) (now : UInt64) (pair : String × String) : List (Nat × Frame) :=
  let leave := buildLeaveEvent X pair.1 pair.2 now
  fanout s.conns leave.toValue leave

/-- A walk over distinct pairs sends one departure for each that is owned at its start. -/
theorem foldl_departStep_sent {id : Nat} {now : UInt64} {todo : List (String × String)}
    (hnodup : todo.Nodup) (s : Hub X) (sent : List (Nat × Frame)) :
    (todo.foldl (departStep id now) (s, sent)).2 =
      sent ++ (todo.filter (s.owns id)).flatMap (leaveFrames s now) := by
  induction todo generalizing s sent with
  | nil => simp
  | cons pair todo ih =>
    obtain ⟨hpair, hnodup⟩ := List.nodup_cons.mp hnodup
    obtain ⟨next, hnext⟩ : ∃ next, next = departStep id now (s, sent) pair := ⟨_, rfl⟩
    have hsame : todo.filter (next.1.owns id) = todo.filter (s.owns id) := by
      refine List.filter_congr fun pair' hmem ↦ ?_
      have hne : pair' ≠ pair := by
        rintro rfl
        exact hpair hmem
      rw [hnext]
      exact owns_departStep hne sent
    have hconns : leaveFrames next.1 now = leaveFrames s now := by
      funext pair'
      obtain ⟨_, _, hframe⟩ := foldl_departStep_frame s id now [pair] sent
      rw [List.foldl_cons, List.foldl_nil, ← hnext] at hframe
      simp only [leaveFrames, hframe]
    rw [List.foldl_cons, ← hnext, show next = (next.1, next.2) from rfl, ih hnodup, hsame, hconns]
    by_cases howns : s.owns id pair
    · have hsent : next.2 = sent ++ leaveFrames s now pair := by
        simp [hnext, departStep, howns, leaveFrames]
      rw [hsent, List.filter_cons_of_pos howns, List.flatMap_cons, List.append_assoc]
    · have hsent : next.2 = sent := by simp [hnext, departStep, howns]
      rw [hsent, List.filter_cons_of_neg howns]

/-- An address whose connection is gone counts one less. -/
theorem lookup_releaseIp (counts : AList (fun _ : IpAddr ↦ Nat)) (ip ip' : IpAddr) :
    ((releaseIp counts ip).lookup ip').getD 0 =
      if ip' = ip then (counts.lookup ip).getD 0 - 1 else (counts.lookup ip').getD 0 := by
  unfold releaseIp
  cases hlookup : counts.lookup ip with
  | none =>
    by_cases hip : ip' = ip
    · subst hip
      simp [hlookup]
    · simp [hip]
  | some c =>
    by_cases hip : ip' = ip
    · subst hip
      by_cases hone : c - 1 = 0
      · simp [hone]
      · simp [hone]
    · by_cases hone : c - 1 = 0
      · simp [hone, hip, AList.lookup_erase_ne hip]
      · simp [hone, hip, AList.lookup_insert_ne hip]

/-- Without a connection, its address counts one less. -/
theorem Accounts.close (h : Accounts s) {id : Nat} {entry : ConnEntry X}
    (hentry : s.conns.lookup id = some entry) :
    Accounts { s with conns := s.conns.erase id, ipCounts := releaseIp s.ipCounts entry.ip } := by
  have hcount : ∀ ip, s.connsFrom ip =
      (s.conns.erase id).entries.countP (·.2.ip = ip) + if entry.ip = ip then 1 else 0 := by
    intro ip
    simpa [Hub.connsFrom] using countP_erase (fun c ↦ c.2.ip = ip) hentry
  refine ⟨fun id' hid' ↦ h.fresh id' (AList.mem_erase.mp hid').2, fun id' conn hconn ↦ ?_,
    fun ip ↦ ?_, fun hmax ip ↦ ?_⟩
  · by_cases hid : id' = id
    · subst hid
      simp at hconn
    · rw [AList.lookup_erase_ne hid] at hconn
      exact h.nodup id' conn hconn
  · rw [lookup_releaseIp, h.counts, h.counts, hcount, hcount]
    by_cases hip : ip = entry.ip
    · simp [hip, Hub.connsFrom]
    · simp [hip, Ne.symm hip, Hub.connsFrom]
  · have hle := h.bounded hmax ip
    rw [hcount] at hle
    exact Nat.le_trans (Nat.le_add_right _ _) hle

/-- A closing connection leaves an exact book. -/
theorem Exact.unregister (h : Exact s) (id : Nat) (now : UInt64) :
    Exact (s.unregister id now).1 := by
  unfold Hub.unregister
  cases hentry : s.conns.lookup id with
  | none => exact h
  | some entry =>
    simp only
    have haccounts := h.accounts.close hentry
    obtain ⟨closed, hclosed⟩ : ∃ closed : Hub X, closed =
      { s with conns := s.conns.erase id, ipCounts := releaseIp s.ipCounts entry.ip } := ⟨_, rfl⟩
    rw [← hclosed] at haccounts ⊢
    have hbook : Book closed (ClosingOwner closed id entry.present) := by
      subst hclosed
      refine ⟨fun room device p hp ↦ ?_, h.book.announced, h.book.rooms, h.book.stored⟩
      obtain ⟨conn, hconn, hpair⟩ := h.book.owned room device p hp
      by_cases hid : p.connId = id
      · rw [hid, hentry] at hconn
        cases hconn
        exact .inr ⟨hid, hpair⟩
      · exact .inl ⟨conn, by rw [AList.lookup_erase_ne hid]; exact hconn, hpair⟩
    refine ⟨hbook.foldl_departStep [], ?_⟩
    obtain ⟨presence, stored, hframe⟩ := foldl_departStep_frame closed id now entry.present []
    rw [hframe]
    exact ⟨haccounts.fresh, haccounts.nodup, haccounts.counts, haccounts.bounded⟩

/-- A closing connection sends one departure for each pair it still owns, and no other. -/
theorem Exact.unregister_sent (h : Exact s) (id : Nat) (now : UInt64) :
    ∃ owned : List (String × String), owned.Nodup ∧
      (∀ room device, (room, device) ∈ owned ↔
        ∃ p, s.presenceAt room device = some p ∧ p.connId = id) ∧
      (s.unregister id now).2 = owned.flatMap fun pair ↦
        fanout (s.conns.erase id) (buildLeaveEvent X pair.1 pair.2 now).toValue
          (buildLeaveEvent X pair.1 pair.2 now) := by
  unfold Hub.unregister
  cases hentry : s.conns.lookup id with
  | none =>
    refine ⟨[], List.nodup_nil, fun room device ↦ ⟨fun hmem ↦ absurd hmem List.not_mem_nil, ?_⟩,
      rfl⟩
    rintro ⟨p, hp, rfl⟩
    obtain ⟨conn, hconn, -⟩ := h.book.owned room device p hp
    simp [hentry] at hconn
  | some entry =>
    have hnodup := h.accounts.nodup id entry hentry
    refine ⟨entry.present.filter (s.owns id), hnodup.filter _, fun room device ↦ ?_, ?_⟩
    · rw [List.mem_filter, owns_iff]
      refine ⟨And.right, fun hp ↦ ⟨?_, hp⟩⟩
      obtain ⟨p, hp, rfl⟩ := hp
      obtain ⟨conn, hconn, hpair⟩ := h.book.owned room device p hp
      rw [hentry] at hconn
      cases hconn
      exact hpair
    · exact foldl_departStep_sent hnodup _ []

/-! ### Messages -/

theorem Exact.strike (h : Exact s) (id : Nat) : Exact (s.strike id).1 := by
  unfold Hub.strike
  cases s.conns.lookup id with
  | none => exact h
  | some conn =>
    have hmod : Exact (s.modifyConn id fun c ↦ { c with strikes := c.strikes + 1 }) :=
      h.modifyConn (fun _ ↦ rfl) fun _ ↦ rfl
    simp only
    split <;> exact hmod

/-- A token is taken from a live connection only. -/
theorem Exact.takeToken (h : Exact s) (id : Nat) (isReq : Bool) (now : Nat) :
    Exact (s.takeToken id isReq now).1 ∧
      ((s.takeToken id isReq now).2 = true → id ∈ (s.takeToken id isReq now).1.conns) := by
  unfold Hub.takeToken
  cases hconn : s.conns.lookup id with
  | none => exact ⟨h, by simp⟩
  | some conn =>
    have hlive : ∀ f, id ∈ (s.modifyConn id f).conns := fun f ↦ by
      rw [← AList.lookup_isSome, lookup_modifyConn]
      simp [hconn]
    cases isReq with
    | true => exact ⟨h.modifyConn (fun _ ↦ rfl) fun _ ↦ rfl, fun _ ↦ hlive _⟩
    | false => exact ⟨h.modifyConn (fun _ ↦ rfl) fun _ ↦ rfl, fun _ ↦ hlive _⟩

theorem Exact.handleReq (h : Exact s) (id : Nat) (arr : List Value) :
    Exact (s.handleReq id arr).1 := by
  unfold Hub.handleReq
  cases arr[1]?.bind Value.asStr with
  | none => exact h
  | some subid =>
    simp only
    cases s.conns.lookup id with
    | none => exact h
    | some conn =>
      simp only
      split
      · exact h
      · exact h.modifyConn (fun _ ↦ rfl) fun _ ↦ rfl

theorem Exact.handleClose (h : Exact s) (id : Nat) (arr : List Value) :
    Exact (s.handleClose id arr) := by
  unfold Hub.handleClose
  cases arr[1]?.bind Value.asStr with
  | none => exact h
  | some subid => exact h.modifyConn (fun _ ↦ rfl) fun _ ↦ rfl

/-- No text breaks the book. -/
theorem Exact.onClientMessage (h : Exact s) (id : Nat) (txt : String) (now : Nat) :
    Exact (s.onClientMessage id txt now).1 := by
  unfold Hub.onClientMessage
  split
  · exact h.strike id
  · split
    · next arr _ =>
      split
      · obtain ⟨htoken, -⟩ := h.takeToken id true now
        simp only
        split
        · exact htoken.strike id
        · exact htoken.handleReq id arr
      · obtain ⟨htoken, hlive⟩ := h.takeToken id false now
        simp only
        split
        · exact htoken.strike id
        · next hallowed =>
          exact htoken.handleEvent (hlive (by simpa using hallowed)) arr now
      · exact h.handleClose id arr
      · exact h
    · exact h

/-! ### Replay -/

/-- What is replayed was retained or is the announce of a live member. -/
theorem mem_replay {filters : List Value} {ev : NostrEvent} (h : ev ∈ s.replay filters) :
    (∃ e ∈ s.stored, e.event = ev) ∨
      ∃ room device p, s.presenceAt room device = some p ∧ p.announce = ev := by
  have hfold : ∀ (evs replay : List NostrEvent), ev ∈ evs.foldl (replayStep filters) replay →
      ev ∈ replay ∨ ev ∈ evs := by
    intro evs
    induction evs with
    | nil => exact fun replay hev ↦ .inl hev
    | cons e evs ih =>
      intro replay hev
      rcases ih _ hev with hin | hin
      · unfold replayStep at hin
        split at hin
        · rcases List.mem_append.mp hin with hin | hin
          · exact .inl hin
          · exact .inr (by simp [List.mem_singleton.mp hin])
        · exact .inl hin
      · exact .inr (List.mem_cons_of_mem _ hin)
  rcases hfold _ [] (List.mem_of_mem_drop h) with hnil | hev
  · exact absurd hnil List.not_mem_nil
  rcases List.mem_append.mp hev with hev | hev
  · obtain ⟨e, he, rfl⟩ := List.mem_map.mp hev
    exact .inl ⟨e, he, rfl⟩
  · obtain ⟨⟨room, m⟩, hroom, hev⟩ := List.mem_flatMap.mp hev
    obtain ⟨⟨device, p⟩, hdevice, rfl⟩ := List.mem_map.mp hev
    refine .inr ⟨room, device, p, ?_, rfl⟩
    rw [Hub.presenceAt, mem_entries_iff.mp hroom]
    exact mem_entries_iff.mp hdevice

/-! ### Every run -/

/-- What one call does keeps the book exact. -/
theorem Exact.step (h : Exact s) (o : Op) : Exact (s.step o) := by
  cases o with
  | register ip now => exact h.register ip now
  | message id txt now => exact h.onClientMessage id txt now
  | unregister id now => exact h.unregister id now

/-- The presence book, as a reader of the relay's state finds it. -/
structure PresenceBook (s : Hub X) : Prop where
  owner_live : ∀ room device p, s.presenceAt room device = some p →
    ∃ conn, s.conns.lookup p.connId = some conn ∧ (room, device) ∈ conn.present
  no_empty_room : ∀ room m, s.presence.lookup room = some m → m.entries ≠ []
  announces_live : ∀ e ∈ s.stored, ∀ room device, presenceOf X e.event = some (room, device) →
    (s.presenceAt room device).isSome
  no_ghost : ∀ filters, ∀ ev ∈ s.replay filters, ∀ room device,
    presenceOf X ev = some (room, device) → (s.presenceAt room device).isSome
  counts : ∀ ip, (s.ipCounts.lookup ip).getD 0 = s.connsFrom ip
  bounded : s.limits.maxConnectionsPerIp ≠ 0 →
    ∀ ip, (s.ipCounts.lookup ip).getD 0 ≤ s.limits.maxConnectionsPerIp
  leaves : ∀ id now, ∃ owned : List (String × String), owned.Nodup ∧
    (∀ room device, (room, device) ∈ owned ↔
      ∃ p, s.presenceAt room device = some p ∧ p.connId = id) ∧
    (s.unregister id now).2 = owned.flatMap fun pair ↦
      fanout (s.conns.erase id) (buildLeaveEvent X pair.1 pair.2 now).toValue
        (buildLeaveEvent X pair.1 pair.2 now)

/-- After any calls, from any connections and with any texts, the presence book is exact. -/
theorem presenceBook_of_run (X : Externals) (limits : Limits) (ops : List Op) :
    PresenceBook (run Hub.step (Hub.new X limits) ops) := by
  have h : Exact (run Hub.step (Hub.new X limits) ops) :=
    run_invariant (I := Exact) (fun _ o hs ↦ Exact.step hs o) (exact_new limits) ops
  refine ⟨h.book.owned, h.book.rooms, h.book.stored, fun filters ev hev room device hpair ↦ ?_,
    h.accounts.counts, fun hmax ip ↦ ?_, h.unregister_sent⟩
  · rcases mem_replay hev with ⟨e, he, rfl⟩ | ⟨room', device', p, hp, rfl⟩
    · exact h.book.stored e he room device hpair
    · rw [h.book.announced room' device' p hp] at hpair
      cases hpair
      simp [hp]
  · rw [h.accounts.counts]
    exact h.accounts.bounded hmax ip

end MyOwnMesh.SignalingServer
