import MyOwnMesh.Lib.Replay
import MyOwnMesh.Lib.TwoNames
import MyOwnMesh.Transport.TurnUrls

/-!
# Local bridges to TURN servers

`crates/myownmesh-core/src/transport/turn_stream.rs:41–93`. A list of servers is rewritten: a URL
that is reached over a stream is replaced by the address of a local bridge, a task with a socket
that is kept for the endpoint of the URL. Between two lookups of a call, tasks end and other calls
ask for bridges. What a socket is bound to is up to the system.
-/

namespace MyOwnMesh.TurnBridges

open Lib Lib.Replay

/-- `config.rs:152–162`. -/
structure TurnServer where
  urls : List String
  username : Option String
  credential : Option String
  deriving DecidableEq, Repr

/-- `turn_stream.rs:41–44`. A bridge goes under the number of its socket; its task runs or has
stopped, and has given the port back. -/
structure LocalBridge where
  number : Nat
  port : UInt16
  running : Bool
  deriving DecidableEq, Repr

/-- `turn_stream.rs:46–49`, and how many sockets were asked for. -/
structure Bridges where
  bridges : AList fun _ : StreamEndpoint ↦ LocalBridge := ∅
  bound : Nat := 0

/-- The ports of the tasks that run. -/
def Bridges.held (s : Bridges) : List UInt16 :=
  (s.bridges.entries.filter (·.2.running)).map (·.2.port)

-- the port of a loopback socket that is bound while some ports are held, or a failure
variable (bindSocket : Nat → List UInt16 → Option UInt16)

/-- `turn_stream.rs:77–92`. -/
def ensure (s : Bridges) (endpoint : StreamEndpoint) : Bridges × Option LocalBridge :=
  match s.bridges.lookup endpoint with
  | some existing => (s, some existing)
  | none =>
    match bindSocket s.bound s.held with
    | none => ({ s with bound := s.bound + 1 }, none)
    | some port =>
      let bridge : LocalBridge := ⟨s.bound, port, true⟩
      (⟨s.bridges.insert endpoint bridge, s.bound + 1⟩, some bridge)

/-- What happens besides the calls of one rewriting: a task stops, or another rewriting asks for a
bridge. -/
inductive Event where
  | stopped (endpoint : StreamEndpoint)
  | asked (endpoint : StreamEndpoint)
  deriving DecidableEq, Repr

def happen (s : Bridges) : Event → Bridges
  | .stopped endpoint =>
    match s.bridges.lookup endpoint with
    | some bridge =>
      { s with bridges := s.bridges.insert endpoint { bridge with running := false } }
    | none => s
  | .asked endpoint => (ensure bindSocket s endpoint).1

/-- A rewriting under way: the bridges, and what it has been answered. -/
structure Call where
  bridges : Bridges
  answers : List (StreamEndpoint × Option LocalBridge) := []

-- what happens before each of the lookups of a call
variable (gaps : Nat → List Event)

/-- The bridges that the next lookup finds. -/
def Call.found (c : Call) : Bridges := run (happen bindSocket) c.bridges (gaps c.answers.length)

/-- One lookup. -/
def Call.ask (c : Call) (endpoint : StreamEndpoint) : Call :=
  let (bridges, answer) := ensure bindSocket (c.found bindSocket gaps) endpoint
  ⟨bridges, c.answers ++ [(endpoint, answer)]⟩

/-- The URL of a bridge; `turn_stream.rs:62`. -/
def localUrl (bridge : LocalBridge) : String :=
  "turn:127.0.0.1:" ++ toString bridge.port.toNat ++ "?transport=udp"

/-- `turn_stream.rs:55–65`. -/
def rewriteUrls (c : Call) : List String → Call × List String
  | [] => (c, [])
  | url :: urls =>
    match parseStreamUrl url with
    | none =>
      let (c, rest) := rewriteUrls c urls
      (c, url :: rest)
    | some endpoint =>
      let answer := (ensure bindSocket (c.found bindSocket gaps) endpoint).2
      let (c, rest) := rewriteUrls (c.ask bindSocket gaps endpoint) urls
      (c, (answer.map localUrl).toList ++ rest)

/-- `turn_stream.rs:52–75`. -/
def rewrite (c : Call) : List TurnServer → Call × List TurnServer
  | [] => (c, [])
  | server :: servers =>
    let (c, urls) := rewriteUrls bindSocket gaps c server.urls
    let (c, rest) := rewrite c servers
    (c, if urls.isEmpty then rest else { server with urls := urls } :: rest)

/-! ### What a rewriting should be -/

/-- The URLs with the answers in the place of those that are reached over a stream. -/
inductive PlacedUrls : List String → List (StreamEndpoint × Option LocalBridge) → List String → Prop
  | nil : PlacedUrls [] [] []
  | kept {url : String} {urls out : List String}
      {answers : List (StreamEndpoint × Option LocalBridge)} (h : parseStreamUrl url = none)
      (hrest : PlacedUrls urls answers out) : PlacedUrls (url :: urls) answers (url :: out)
  | asked {url : String} {urls out : List String} {endpoint : StreamEndpoint}
      {answer : Option LocalBridge} {answers : List (StreamEndpoint × Option LocalBridge)}
      (h : parseStreamUrl url = some endpoint) (hrest : PlacedUrls urls answers out) :
      PlacedUrls (url :: urls) ((endpoint, answer) :: answers)
        ((answer.map localUrl).toList ++ out)

/-- The servers in their order and with their credentials, less those that are left without a
URL. -/
inductive Placed :
    List TurnServer → List (StreamEndpoint × Option LocalBridge) → List TurnServer → Prop
  | nil : Placed [] [] []
  | cons {server : TurnServer} {servers out : List TurnServer} {urls : List String}
      {answers answers' : List (StreamEndpoint × Option LocalBridge)}
      (h : PlacedUrls server.urls answers urls) (hrest : Placed servers answers' out) :
      Placed (server :: servers) (answers ++ answers')
        (if urls.isEmpty then out else { server with urls := urls } :: out)

/-- The task of the endpoint runs. -/
def Running (s : Bridges) (endpoint : StreamEndpoint) : Prop :=
  ∃ bridge, s.bridges.lookup endpoint = some bridge ∧ bridge.running = true

/-- The endpoint has a bridge whose task has stopped. -/
def Stopped (s : Bridges) (endpoint : StreamEndpoint) : Prop :=
  ∃ bridge, s.bridges.lookup endpoint = some bridge ∧ bridge.running = false

/-- A finished rewriting is faithful. -/
structure Faithful (servers : List TurnServer) (c : Call) (out : List TurnServer) : Prop where
  placed : Placed servers c.answers out
  /-- A bridge is missing only when no socket could be bound. -/
  failed : ∀ e, (e, none) ∈ c.answers → ∃ n held, bindSocket n held = none
  /-- Equal endpoints go to one bridge. -/
  same : ∀ e b b', (e, some b) ∈ c.answers → (e, some b') ∈ c.answers →
    b.number = b'.number ∧ b.port = b'.port
  /-- Different endpoints go to different bridges, at different ports while both run. -/
  apart : ∀ e e' b b', e ≠ e' → (e, some b) ∈ c.answers → (e', some b') ∈ c.answers →
    b.number ≠ b'.number ∧ (Running c.bridges e → Running c.bridges e' → b.port ≠ b'.port)
  /-- The task of a bridge was running when the bridge was returned. -/
  running : ∀ e b, (e, some b) ∈ c.answers → b.running = true

/-- The endpoints of the streams among the URLs. -/
def endpoints (servers : List TurnServer) : List StreamEndpoint :=
  (servers.flatMap (·.urls)).filterMap parseStreamUrl

theorem rewriteUrls_spec (c : Call) (urls : List String) :
    (rewriteUrls bindSocket gaps c urls).1 =
        run (Call.ask bindSocket gaps) c (urls.filterMap parseStreamUrl) ∧
      ∃ answers, (rewriteUrls bindSocket gaps c urls).1.answers = c.answers ++ answers ∧
        PlacedUrls urls answers (rewriteUrls bindSocket gaps c urls).2 := by
  induction urls generalizing c with
  | nil => exact ⟨rfl, [], (List.append_nil _).symm, .nil⟩
  | cons url urls ih =>
    rw [rewriteUrls]
    cases hparse : parseStreamUrl url with
    | none =>
      obtain ⟨hrun, answers, hanswers, hplaced⟩ := ih c
      refine ⟨?_, answers, hanswers, .kept hparse hplaced⟩
      rw [List.filterMap_cons_none hparse]
      exact hrun
    | some endpoint =>
      obtain ⟨hrun, answers, hanswers, hplaced⟩ := ih (c.ask bindSocket gaps endpoint)
      refine ⟨?_, _, ?_, .asked hparse hplaced⟩
      · rw [List.filterMap_cons_some hparse, run_cons]
        exact hrun
      · show (rewriteUrls bindSocket gaps (c.ask bindSocket gaps endpoint) urls).1.answers = _
        rw [hanswers]
        exact List.append_assoc _ _ _

theorem rewrite_spec (c : Call) (servers : List TurnServer) :
    (rewrite bindSocket gaps c servers).1 = run (Call.ask bindSocket gaps) c (endpoints servers) ∧
      ∃ answers, (rewrite bindSocket gaps c servers).1.answers = c.answers ++ answers ∧
        Placed servers answers (rewrite bindSocket gaps c servers).2 := by
  induction servers generalizing c with
  | nil => exact ⟨rfl, [], (List.append_nil _).symm, .nil⟩
  | cons server servers ih =>
    obtain ⟨hrun, answers, hanswers, hplaced⟩ := rewriteUrls_spec bindSocket gaps c server.urls
    obtain ⟨hrun', answers', hanswers', hplaced'⟩ :=
      ih (rewriteUrls bindSocket gaps c server.urls).1
    refine ⟨?_, answers ++ answers', ?_, .cons hplaced hplaced'⟩
    · rw [endpoints, List.flatMap_cons, List.filterMap_append, run_append, ← hrun]
      exact hrun'
    · rw [← List.append_assoc, ← hanswers]
      exact hanswers'

/-! ### What holds of the bridges -/

/-- Everything a lookup can do. -/
inductive Answered (s : Bridges) (e : StreamEndpoint) : Bridges → Option LocalBridge → Prop
  | cached {b : LocalBridge} (h : s.bridges.lookup e = some b) : Answered s e s (some b)
  | failed {n : Nat} {held : List UInt16} (h : s.bridges.lookup e = none)
      (hbind : bindSocket n held = none) : Answered s e { s with bound := s.bound + 1 } none
  | bound {port : UInt16} (h : s.bridges.lookup e = none)
      (hbind : bindSocket s.bound s.held = some port) :
      Answered s e ⟨s.bridges.insert e ⟨s.bound, port, true⟩, s.bound + 1⟩
        (some ⟨s.bound, port, true⟩)

theorem answered (s : Bridges) (e : StreamEndpoint) :
    Answered bindSocket s e (ensure bindSocket s e).1 (ensure bindSocket s e).2 := by
  unfold ensure
  cases hlookup : s.bridges.lookup e with
  | some b => exact .cached hlookup
  | none =>
    cases hbind : bindSocket s.bound s.held with
    | none => exact .failed hlookup hbind
    | some port => exact .bound hlookup hbind

/-- Different endpoints have different bridges, at different ports while both run. -/
structure Bridges.Sound (s : Bridges) : Prop where
  number : ∀ e b, s.bridges.lookup e = some b → b.number < s.bound
  apart : ∀ e e' b b', e ≠ e' → s.bridges.lookup e = some b → s.bridges.lookup e' = some b' →
    b.number ≠ b'.number ∧ (b.running = true → b'.running = true → b.port ≠ b'.port)

/-- No bridge is taken out or replaced. -/
def Keeps (s s' : Bridges) : Prop :=
  ∀ e b, s.bridges.lookup e = some b →
    ∃ b', s'.bridges.lookup e = some b' ∧ b'.number = b.number ∧ b'.port = b.port

theorem Keeps.refl (s : Bridges) : Keeps s s := fun _ b h ↦ ⟨b, h, rfl, rfl⟩

theorem Keeps.trans {s s' s'' : Bridges} (h : Keeps s s') (h' : Keeps s' s'') : Keeps s s'' := by
  intro e b hb
  obtain ⟨b', hb', hnumber, hport⟩ := h e b hb
  obtain ⟨b'', hb'', hnumber', hport'⟩ := h' e b' hb'
  exact ⟨b'', hb'', hnumber'.trans hnumber, hport'.trans hport⟩

theorem mem_held {s : Bridges} {e : StreamEndpoint} {b : LocalBridge}
    (h : s.bridges.lookup e = some b) (hrun : b.running = true) : b.port ∈ s.held :=
  List.mem_map.mpr ⟨⟨e, b⟩, List.mem_filter.mpr ⟨AList.mem_lookup_iff.mp h, hrun⟩, rfl⟩

theorem ensure_keeps (s : Bridges) (e : StreamEndpoint) :
    Keeps s (ensure bindSocket s e).1 := by
  have hanswered := answered bindSocket s e
  generalize (ensure bindSocket s e).1 = s' at hanswered ⊢
  generalize (ensure bindSocket s e).2 = answer at hanswered
  cases hanswered with
  | cached => exact .refl s
  | failed => exact .refl s
  | bound h =>
    intro e' b hb
    refine ⟨b, ?_, rfl, rfl⟩
    rw [TwoNames.lookup_insert_eq, if_neg]
    · exact hb
    · rintro rfl
      rw [h] at hb
      cases hb

variable {bindSocket} in
theorem Bridges.Sound.ensure (hbind : ∀ n held port, bindSocket n held = some port → port ∉ held)
    {s : Bridges} (hs : s.Sound) (e : StreamEndpoint) : (ensure bindSocket s e).1.Sound := by
  have hanswered := answered bindSocket s e
  generalize (TurnBridges.ensure bindSocket s e).1 = s' at hanswered ⊢
  generalize (TurnBridges.ensure bindSocket s e).2 = answer at hanswered
  cases hanswered with
  | cached => exact hs
  | failed => exact ⟨fun e b h ↦ Nat.lt_succ_of_lt (hs.number e b h), hs.apart⟩
  | @bound port h hport =>
    have hfresh : ∀ e' b, s.bridges.lookup e' = some b →
        b.number ≠ s.bound ∧ (b.running = true → b.port ≠ port) := by
      intro e' b hb
      refine ⟨Nat.ne_of_lt (hs.number e' b hb), ?_⟩
      rintro hrun rfl
      exact hbind _ _ _ hport (mem_held hb hrun)
    constructor
    · intro e' b hb
      rw [TwoNames.lookup_insert_eq] at hb
      split at hb
      · cases hb
        exact Nat.lt_succ_self _
      · exact Nat.lt_succ_of_lt (hs.number e' b hb)
    · intro e₁ e₂ b₁ b₂ hne h₁ h₂
      rw [TwoNames.lookup_insert_eq] at h₁ h₂
      by_cases heq₁ : e₁ = e
      · rw [if_neg fun heq₂ : e₂ = e ↦ hne (heq₁.trans heq₂.symm)] at h₂
        rw [if_pos heq₁] at h₁
        cases h₁
        obtain ⟨hnumber, hports⟩ := hfresh e₂ b₂ h₂
        exact ⟨hnumber.symm, fun _ hrun ↦ (hports hrun).symm⟩
      · rw [if_neg heq₁] at h₁
        by_cases heq₂ : e₂ = e
        · rw [if_pos heq₂] at h₂
          cases h₂
          obtain ⟨hnumber, hports⟩ := hfresh e₁ b₁ h₁
          exact ⟨hnumber, fun hrun _ ↦ hports hrun⟩
        · rw [if_neg heq₂] at h₂
          exact hs.apart e₁ e₂ b₁ b₂ hne h₁ h₂

/-- A task that stops leaves its bridge in place. -/
theorem lookup_stopped (s : Bridges) (e e' : StreamEndpoint) :
    (happen bindSocket s (.stopped e)).bridges.lookup e' =
      (s.bridges.lookup e').map fun b ↦ if e' = e then { b with running := false } else b := by
  rw [happen]
  cases hlookup : s.bridges.lookup e with
  | none =>
    by_cases heq : e' = e
    · rw [heq, hlookup]
      rfl
    · simp [heq]
  | some b =>
    rw [TwoNames.lookup_insert_eq]
    by_cases heq : e' = e
    · rw [heq, hlookup]
      simp
    · simp [heq]

theorem happen_keeps (s : Bridges) (event : Event) : Keeps s (happen bindSocket s event) := by
  cases event with
  | asked e => exact ensure_keeps bindSocket s e
  | stopped e =>
    intro e' b hb
    rw [lookup_stopped, hb]
    refine ⟨_, rfl, ?_⟩
    dsimp only
    split
    · exact ⟨rfl, rfl⟩
    · exact ⟨rfl, rfl⟩

variable {bindSocket} in
theorem Bridges.Sound.happen
    (hbind : ∀ n held port, bindSocket n held = some port → port ∉ held) {s : Bridges}
    (hs : s.Sound) (event : Event) : (happen bindSocket s event).Sound := by
  cases event with
  | asked e => exact hs.ensure hbind e
  | stopped e =>
    -- a bridge goes back to one that was there, and runs only if that did
    have hback : ∀ e' b, (TurnBridges.happen bindSocket s (.stopped e)).bridges.lookup e' = some b →
        ∃ b₀, s.bridges.lookup e' = some b₀ ∧ b₀.number = b.number ∧ b₀.port = b.port ∧
          (b.running = true → b₀.running = true) := by
      intro e' b hb
      rw [lookup_stopped] at hb
      obtain ⟨b₀, hb₀, rfl⟩ := Option.map_eq_some_iff.mp hb
      refine ⟨b₀, hb₀, ?_⟩
      split
      · exact ⟨rfl, rfl, fun h ↦ absurd h (by simp)⟩
      · exact ⟨rfl, rfl, id⟩
    have hbound : (TurnBridges.happen bindSocket s (.stopped e)).bound = s.bound := by
      rw [TurnBridges.happen]
      cases s.bridges.lookup e with
      | none => rfl
      | some b => rfl
    constructor
    · intro e' b hb
      obtain ⟨b₀, hb₀, hnumber, -⟩ := hback e' b hb
      rw [hbound, ← hnumber]
      exact hs.number e' b₀ hb₀
    · intro e₁ e₂ b₁ b₂ hne h₁ h₂
      obtain ⟨c₁, hc₁, hn₁, hp₁, hr₁⟩ := hback e₁ b₁ h₁
      obtain ⟨c₂, hc₂, hn₂, hp₂, hr₂⟩ := hback e₂ b₂ h₂
      obtain ⟨hnumber, hports⟩ := hs.apart e₁ e₂ c₁ c₂ hne hc₁ hc₂
      rw [← hn₁, ← hn₂, ← hp₁, ← hp₂]
      exact ⟨hnumber, fun h₁ h₂ ↦ hports (hr₁ h₁) (hr₂ h₂)⟩

/-! ### Every rewriting -/

/-- What holds of a rewriting under way: the bridges are sound, and what was answered is there. -/
structure Call.Sound (c : Call) : Prop where
  bridges : c.bridges.Sound
  there : ∀ e b, (e, some b) ∈ c.answers → ∃ b', c.bridges.bridges.lookup e = some b' ∧
    b'.number = b.number ∧ b'.port = b.port
  failed : ∀ e, (e, none) ∈ c.answers → ∃ n held, bindSocket n held = none

theorem run_keeps (s : Bridges) (events : List Event) :
    Keeps s (run (happen bindSocket) s events) := by
  induction events generalizing s with
  | nil => exact .refl s
  | cons event events ih => exact (happen_keeps bindSocket s event).trans (ih _)

/-- A lookup adds one answer. -/
theorem answers_ask (c : Call) (e : StreamEndpoint) :
    (c.ask bindSocket gaps e).answers =
      c.answers ++ [(e, (ensure bindSocket (c.found bindSocket gaps) e).2)] := rfl

variable {bindSocket} in
theorem Call.Sound.ask (hbind : ∀ n held port, bindSocket n held = some port → port ∉ held)
    {c : Call} (hc : c.Sound bindSocket) (e : StreamEndpoint) :
    (c.ask bindSocket gaps e).Sound bindSocket := by
  have hfound : (c.found bindSocket gaps).Sound :=
    run_invariant (fun s event hs ↦ hs.happen hbind event) hc.bridges _
  have hkeeps : Keeps c.bridges (c.ask bindSocket gaps e).bridges :=
    (run_keeps bindSocket c.bridges _).trans (ensure_keeps bindSocket _ e)
  have hanswered := answered bindSocket (c.found bindSocket gaps) e
  refine ⟨hfound.ensure hbind e, ?_, ?_⟩
  · intro e' b hb
    rw [answers_ask] at hb
    rcases List.mem_append.mp hb with hb | hb
    · obtain ⟨b₁, hb₁, hnumber, hport⟩ := hc.there e' b hb
      obtain ⟨b₂, hb₂, hnumber', hport'⟩ := hkeeps e' b₁ hb₁
      exact ⟨b₂, hb₂, hnumber'.trans hnumber, hport'.trans hport⟩
    · obtain ⟨rfl, hanswer⟩ := Prod.mk.inj (List.mem_singleton.mp hb)
      show ∃ b', (ensure bindSocket _ e').1.bridges.lookup e' = some b' ∧ _
      generalize (ensure bindSocket (c.found bindSocket gaps) e').1 = s' at hanswered ⊢
      rw [← hanswer] at hanswered
      cases hanswered with
      | cached h => exact ⟨b, h, rfl, rfl⟩
      | bound => exact ⟨_, AList.lookup_insert _, rfl, rfl⟩
  · intro e' h
    rw [answers_ask] at h
    rcases List.mem_append.mp h with h | h
    · exact hc.failed e' h
    · obtain ⟨rfl, hanswer⟩ := Prod.mk.inj (List.mem_singleton.mp h)
      generalize (ensure bindSocket (c.found bindSocket gaps) e').1 = s' at hanswered
      rw [← hanswer] at hanswered
      cases hanswered with
      | failed _ hnone => exact ⟨_, _, hnone⟩

/-- The bridges that were answered were running. -/
def AllRunning (c : Call) : Prop := ∀ e b, (e, some b) ∈ c.answers → b.running = true

/-- A lookup answers with a running bridge exactly when it does not find one that has stopped. -/
theorem allRunning_ask_iff (c : Call) (e : StreamEndpoint) :
    AllRunning (c.ask bindSocket gaps e) ↔
      AllRunning c ∧ ¬Stopped (c.found bindSocket gaps) e := by
  have hanswered := answered bindSocket (c.found bindSocket gaps) e
  unfold AllRunning
  rw [answers_ask]
  generalize (ensure bindSocket (c.found bindSocket gaps) e).1 = s' at hanswered
  generalize (ensure bindSocket (c.found bindSocket gaps) e).2 = answer at hanswered ⊢
  constructor
  · intro h
    refine ⟨fun e' b hb ↦ h e' b (List.mem_append_left _ hb), ?_⟩
    rintro ⟨b, hb, hstopped⟩
    cases hanswered with
    | @cached b' hb' =>
      obtain rfl : b = b' := Option.some.inj (hb.symm.trans hb')
      have hrunning := h e b (by simp)
      rw [hstopped] at hrunning
      cases hrunning
    | failed hnone => rw [hnone] at hb; cases hb
    | bound hnone => rw [hnone] at hb; cases hb
  · rintro ⟨h, hstopped⟩ e' b hb
    rcases List.mem_append.mp hb with hb | hb
    · exact h e' b hb
    · obtain ⟨rfl, hanswer⟩ := Prod.mk.inj (List.mem_singleton.mp hb)
      cases hanswered with
      | cached hb' =>
        cases hanswer
        by_contra hrun
        exact hstopped ⟨b, hb', by simpa using hrun⟩
      | failed => cases hanswer
      | bound =>
        cases hanswer
        rfl

theorem allRunning_run_iff (c : Call) (es : List StreamEndpoint) :
    AllRunning (run (Call.ask bindSocket gaps) c es) ↔ AllRunning c ∧
      AllSteps (Call.ask bindSocket gaps) (fun c e ↦ ¬Stopped (c.found bindSocket gaps) e) c
        es := by
  induction es generalizing c with
  | nil => exact (and_iff_left trivial).symm
  | cons e es ih => rw [run_cons, ih, allRunning_ask_iff, AllSteps, and_assoc]

/-- The bridges after what has happened since the start. -/
def reached (history : List Event) : Bridges := run (happen bindSocket) {} history

variable {bindSocket} in
theorem rewrite_faithful_iff (hbind : ∀ n held port, bindSocket n held = some port → port ∉ held)
    (history : List Event) (servers : List TurnServer) :
    Faithful bindSocket servers (rewrite bindSocket gaps ⟨reached bindSocket history, []⟩ servers).1
        (rewrite bindSocket gaps ⟨reached bindSocket history, []⟩ servers).2 ↔
      AllSteps (Call.ask bindSocket gaps) (fun c e ↦ ¬Stopped (c.found bindSocket gaps) e)
        ⟨reached bindSocket history, []⟩ (endpoints servers) := by
  obtain ⟨hrun, answers, hanswers, hplaced⟩ :=
    rewrite_spec bindSocket gaps ⟨reached bindSocket history, []⟩ servers
  have hstart : Call.Sound bindSocket ⟨reached bindSocket history, []⟩ := by
    refine ⟨?_, fun e b h ↦ absurd h List.not_mem_nil, fun e h ↦ absurd h List.not_mem_nil⟩
    refine run_invariant (fun s event hs ↦ hs.happen hbind event) ?_ history
    exact ⟨fun e b h ↦ absurd h (by simp), fun e e' b b' _ h ↦ absurd h (by simp)⟩
  have hsound : Call.Sound bindSocket
      (rewrite bindSocket gaps ⟨reached bindSocket history, []⟩ servers).1 := by
    rw [hrun]
    exact run_invariant (fun c e hc ↦ hc.ask gaps hbind e) hstart _
  have hall := allRunning_run_iff bindSocket gaps ⟨reached bindSocket history, []⟩
    (endpoints servers)
  rw [← hrun] at hall
  generalize (rewrite bindSocket gaps ⟨reached bindSocket history, []⟩ servers).1 = c at *
  have hnone : AllRunning ⟨reached bindSocket history, []⟩ := fun e b h ↦ absurd h List.not_mem_nil
  rw [show AllSteps _ _ _ _ ↔ AllRunning c from (hall.trans (and_iff_right hnone)).symm]
  refine ⟨Faithful.running, fun hrunning ↦ ⟨?_, hsound.failed, ?_, ?_, hrunning⟩⟩
  · rw [hanswers]
    exact hplaced
  · intro e b b' hb hb'
    obtain ⟨b₁, h₁, hn₁, hp₁⟩ := hsound.there e b hb
    obtain ⟨b₂, h₂, hn₂, hp₂⟩ := hsound.there e b' hb'
    obtain rfl : b₁ = b₂ := Option.some.inj (h₁.symm.trans h₂)
    exact ⟨hn₁.symm.trans hn₂, hp₁.symm.trans hp₂⟩
  · intro e e' b b' hne hb hb'
    obtain ⟨b₁, h₁, hn₁, hp₁⟩ := hsound.there e b hb
    obtain ⟨b₂, h₂, hn₂, hp₂⟩ := hsound.there e' b' hb'
    obtain ⟨hnumber, hports⟩ := hsound.bridges.apart e e' b₁ b₂ hne h₁ h₂
    rw [← hn₁, ← hn₂, ← hp₁, ← hp₂]
    refine ⟨hnumber, ?_⟩
    rintro ⟨c₁, hc₁, hr₁⟩ ⟨c₂, hc₂, hr₂⟩
    rw [h₁] at hc₁
    rw [h₂] at hc₂
    cases hc₁
    cases hc₂
    exact hports hr₁ hr₂

variable {bindSocket} in
/-- A URL is taken apart into its endpoint exactly unless it is a `turns` URL with slashes and
without a query. A rewriting is faithful exactly when no lookup of it finds a bridge whose task has
stopped. -/
theorem turn_servers_rewritten_iff
    (hbind : ∀ n held port, bindSocket n held = some port → port ∉ held) :
    (∀ u : TurnUrl, parseStreamUrl u.render = u.endpoint ↔
      ¬(u.secure = true ∧ u.slashes = true ∧ u.query = none)) ∧
    ∀ gaps history servers,
      Faithful bindSocket servers
          (rewrite bindSocket gaps ⟨reached bindSocket history, []⟩ servers).1
          (rewrite bindSocket gaps ⟨reached bindSocket history, []⟩ servers).2 ↔
        AllSteps (Call.ask bindSocket gaps) (fun c e ↦ ¬Stopped (c.found bindSocket gaps) e)
          ⟨reached bindSocket history, []⟩ (endpoints servers) :=
  ⟨parseStreamUrl_render_iff, fun gaps history servers ↦
    rewrite_faithful_iff gaps hbind history servers⟩

/-- The lowest port from 40000 on that is not held. -/
def lowestPort (_ : Nat) (held : List UInt16) : Option UInt16 :=
  ((List.range (held.length + 1)).map fun k ↦ UInt16.ofNat (40000 + k)).find? (· ∉ held)

theorem lowestPort_not_held (n : Nat) (held : List UInt16) (port : UInt16)
    (h : lowestPort n held = some port) : port ∉ held := by
  simpa using List.find?_some h

/-- `turns:turn` -/
def plainUrl : TurnUrl where
  secure := true
  slashes := false
  host := .name "turn".toList (by decide) (by simp)
  port := none
  query := none

/-- `turn://[::1]:3479?transport=TCP` -/
def tcpUrl : TurnUrl where
  secure := false
  slashes := true
  host := .ipv6 "::1".toList (by decide) (by simp)
  port := some ⟨"3479".toList, by decide, by simp, by decide⟩
  query := some [⟨"transport=TCP".toList, by decide⟩]

/-- `turn:lan` -/
def udpUrl : TurnUrl where
  secure := false
  slashes := false
  host := .name "lan".toList (by decide) (by simp)
  port := none
  query := none

/-- Two servers, one of them without a stream. -/
def threeUrls : List TurnServer :=
  [⟨[plainUrl.render, udpUrl.render], some "user", some "pass"⟩, ⟨[tcpUrl.render], none, none⟩]

/-- A bridge runs, and another one has stopped. -/
def oneStopped : List Event :=
  [.asked ⟨"turn", 5349, true⟩, .asked ⟨"old", 3478, false⟩, .stopped ⟨"old", 3478, false⟩]

/-- Before the second lookup another call asks for a bridge. -/
def onceAsked (k : Nat) : List Event := if k = 1 then [.asked ⟨"new", 5349, true⟩] else []

theorem three_urls_rewritten :
    (∀ u ∈ [plainUrl, tcpUrl, udpUrl], parseStreamUrl u.render = u.endpoint) ∧
      Faithful lowestPort threeUrls
        (rewrite lowestPort onceAsked ⟨reached lowestPort oneStopped, []⟩ threeUrls).1
        (rewrite lowestPort onceAsked ⟨reached lowestPort oneStopped, []⟩ threeUrls).2 := by
  have hparse : ∀ u ∈ [plainUrl, tcpUrl, udpUrl], parseStreamUrl u.render = u.endpoint := by
    intro u hu
    refine ((turn_servers_rewritten_iff lowestPort_not_held).1 u).mpr ?_
    simp only [List.mem_cons, List.not_mem_nil, or_false] at hu
    rcases hu with rfl | rfl | rfl <;> decide
  refine ⟨hparse, ((turn_servers_rewritten_iff lowestPort_not_held).2 _ _ _).mpr ?_⟩
  have hendpoints : endpoints threeUrls = [⟨"turn", 5349, true⟩, ⟨"::1", 3479, false⟩] := by
    have hplain := hparse plainUrl (by simp)
    have htcp := hparse tcpUrl (by simp)
    have hudp := hparse udpUrl (by simp)
    simp only [endpoints, threeUrls, List.flatMap_cons, List.flatMap_nil, List.append_nil,
      List.cons_append, List.nil_append, List.filterMap_cons, hplain, htcp, hudp]
    rfl
  rw [hendpoints]
  refine ⟨?_, ?_, trivial⟩
  · rintro ⟨bridge, hbridge, hstopped⟩
    have hlookup : (Call.found lowestPort onceAsked
        ⟨reached lowestPort oneStopped, []⟩).bridges.lookup ⟨"turn", 5349, true⟩ =
          some ⟨0, 40000, true⟩ := by decide +kernel
    rw [hlookup] at hbridge
    cases hbridge
    cases hstopped
  · rintro ⟨bridge, hbridge, -⟩
    have hlookup : (Call.found lowestPort onceAsked (Call.ask lowestPort onceAsked
        ⟨reached lowestPort oneStopped, []⟩ ⟨"turn", 5349, true⟩)).bridges.lookup
          ⟨"::1", 3479, false⟩ = none := by decide +kernel
    rw [hlookup] at hbridge
    cases hbridge

/-- The host of a URL with slashes keeps them, and a bridge that has stopped is returned. -/
theorem turn_servers_not_always_rewritten :
    parseStreamUrl "turns://turn" = some ⟨"//turn", 5349, true⟩ ∧
    ¬Faithful lowestPort [⟨["turns:turn"], none, none⟩]
      (rewrite lowestPort (fun _ ↦ [])
        ⟨reached lowestPort [.asked ⟨"turn", 5349, true⟩, .stopped ⟨"turn", 5349, true⟩], []⟩
        [⟨["turns:turn"], none, none⟩]).1
      (rewrite lowestPort (fun _ ↦ [])
        ⟨reached lowestPort [.asked ⟨"turn", 5349, true⟩, .stopped ⟨"turn", 5349, true⟩], []⟩
        [⟨["turns:turn"], none, none⟩]).2 := by
  have hkernel : parseStreamUrl "turns://turn" = some ⟨"//turn", 5349, true⟩ ∧
      (rewrite lowestPort (fun _ ↦ [])
        ⟨reached lowestPort [.asked ⟨"turn", 5349, true⟩, .stopped ⟨"turn", 5349, true⟩], []⟩
        [⟨["turns:turn"], none, none⟩]).1.answers =
        [(⟨"turn", 5349, true⟩, some ⟨0, 40000, false⟩)] := by
    decide +kernel
  obtain ⟨hparse, hanswers⟩ := hkernel
  refine ⟨hparse, fun h ↦ ?_⟩
  have hrunning := h.running ⟨"turn", 5349, true⟩ ⟨0, 40000, false⟩ (by
    rw [hanswers]
    exact List.mem_cons_self)
  cases hrunning

end MyOwnMesh.TurnBridges
