import Mathlib.Logic.Relation
import MyOwnMesh.Engine.Directed

/-!
# Flooded frames

A broadcast goes to every connection of its origin, and every forwarder that it is new to sends it
on to all of its own. A node remembers the frame, so it delivers it once; it is what a node heard
first that is sent on, with the hops that copy has left. When nothing is in flight any more,
everybody has it that can be reached over forwarders, unless the hops were used up.
-/

namespace MyOwnMesh

open Lib Lib.Replay Lib.Network

variable (P : Primitives)

/-! ### Broadcasting -/

/-- A member broadcasts: one envelope to every connection that is not shelved; `routing.rs:290–326`.
The number is how many took it. -/
def RoutedMesh.broadcastFlood (mesh : RoutedMesh) (shelved : String → Bool) (me channel : String)
    (body : Value) (id : UInt64) (st : Station) : Station × Nat × List (String × Value) :=
  let envelope : RelayEnvelope :=
    { dst := "", src := me, payload := wrap channel body (mesh.mode me).floodTtl id }
  let targets := (mesh.connected me).filter fun p ↦ !shelved p
  let sent := targets.filter (mesh.accepts me)
  ({ st with seen := (firstSighting st.seen me id).1 }, sent.length,
    sent.map fun p ↦ (p, envelope.encode))

/-- The mesh after a member has broadcast. -/
def RoutedMesh.afterFlood (mesh : RoutedMesh) (shelved : String → Bool)
    (seen : String → List (String × UInt64)) (me channel : String) (body : Value) (id : UInt64) :
    Net String Value Station :=
  let r := mesh.broadcastFlood shelved me channel body id { seen := seen me }
  .start (Function.update (fun m ↦ { seen := seen m }) me r.1) (letters me r.2.2)

/-- The member has the frame, or a copy is on its way to it. -/
def Served (key : String × UInt64) (s : Net String Value Station) (m : String) : Prop :=
  m = key.1 ∨ (s.node m).delivered ≠ [] ∨ ∃ l ∈ s.flight, l.target = m

/-- Unless a forwarder hears the frame first from a copy without hops left and somebody it is
connected to neither has it nor is about to get it. -/
def RoutedMesh.HasHops (mesh : RoutedMesh) (key : String × UInt64)
    (s : Net String Value Station) : RouteAct → Prop
  | .arrive i => ∀ l, s.flight[i]? = some l → (mesh.mode l.target).forwards l.target = true →
    key ∉ (s.node l.target).seen → ∀ e w, RelayEnvelope.decode l.body = some e →
    parseWrapper e.payload = some w → w.ttl = 0 →
    ∀ p ∈ mesh.connected l.target, Served key s p
  | .other _ _ _ => True

/-! ### One node -/

variable {P} {mesh : RoutedMesh} {f : RoutedFrame} {me : String} {st : Station}

/-- The node has the frame. -/
def Aware (f : RoutedFrame) (me : String) (st : Station) : Prop :=
  me = f.origin ∨ st.delivered ≠ []

/-- A node knows the frame if it has it, unless too many others passed through, and delivered it
at most once. -/
structure Attends (f : RoutedFrame) (me : String) (st : Station) : Prop where
  ring : st.seen.length ≤ routingSeenCapacity
  known : st.others < routingSeenCapacity → Aware f me st → Recent f.key st.others st.seen
  fresh : ¬ Aware f me st → f.key ∉ st.seen
  once : st.others < routingSeenCapacity →
    st.delivered = [] ∨ me ≠ f.origin ∧ st.delivered = [f.message]

/-- What a sighting adds to the ring. -/
theorem mem_firstSighting {seen : List (String × UInt64)} {origin : String} {id : UInt64}
    {key : String × UInt64} (h : key ∈ (firstSighting seen origin id).1) :
    key ∈ seen ∨ key = (origin, id) := by
  rcases firstSighting_cases seen origin id with ⟨heq, -⟩ | ⟨heq, -⟩ | ⟨heq, -⟩
  · rw [heq] at h
    exact .inl h
  · rw [heq] at h
    exact .inl h
  · rw [heq, List.mem_append, List.mem_singleton] at h
    refine h.imp (fun h ↦ ?_) (fun h ↦ h)
    split at h
    · exact List.mem_of_mem_tail h
    · exact h

/-- Other frames deliver nothing of this one. -/
@[simp] theorem delivered_hear (P : Primitives) (mesh : RoutedMesh) (me : String) (st : Station)
    (carrier : String) (payload : Value) :
    (mesh.hear P me st carrier payload).delivered = st.delivered := by
  rcases hear_cases P mesh me st carrier payload with heq | ⟨e, w, -, -, heq⟩
  · rw [heq]
  · rw [heq]

/-- Another frame passes through. -/
theorem Attends.hear (h : Attends f me st) {carrier : String} {payload : Value}
    (hapart : ∀ e w, RelayEnvelope.decode payload = some e → parseWrapper e.payload = some w →
      (e.origin carrier, w.id) ≠ f.key) :
    Attends f me (mesh.hear P me st carrier payload) := by
  rcases hear_cases P mesh me st carrier payload with heq | ⟨e, w, hd, hw, heq⟩
  · rw [heq]
    exact ⟨h.ring, fun hfew haware ↦ (h.known (Nat.lt_of_succ_lt hfew) haware).mono (Nat.le_succ _),
      h.fresh, fun hfew ↦ h.once (Nat.lt_of_succ_lt hfew)⟩
  · rw [heq]
    refine ⟨length_firstSighting_le h.ring _ _, fun hfew haware ↦ ?_, fun haware hmem ↦ ?_,
      fun hfew ↦ h.once (Nat.lt_of_succ_lt hfew)⟩
    · exact (h.known (Nat.lt_of_succ_lt hfew) haware).firstSighting h.ring hfew _ _
    · rcases mem_firstSighting hmem with hmem | hkey
      · exact h.fresh haware hmem
      · exact hapart e w hd hw hkey.symm

/-- A node that hears the frame as new. -/
def Station.hearing (st : Station) (f : RoutedFrame) (targets : List String) : Station :=
  { st with
    seen := mark f.key st.seen
    delivered := st.delivered ++ [f.message]
    forwarded := st.forwarded + if targets.isEmpty then 0 else 1 }

theorem Station.aware_hearing (st : Station) (f : RoutedFrame) (me : String)
    (targets : List String) : Aware f me (st.hearing f targets) := by
  simp [Aware, hearing]

/-- It delivers the frame, and did not before. -/
theorem Attends.hearing (h : Attends f me st) (hme : me ≠ f.origin) (hnew : f.key ∉ st.seen)
    (targets : List String) : Attends f me (st.hearing f targets) := by
  have hmark : (firstSighting st.seen f.origin f.id).1 = mark f.key st.seen := by
    rw [firstSighting_of_notMem f.id_ne hnew]
    rfl
  refine ⟨?_, fun _ _ ↦ ?_, fun haware ↦ absurd (st.aware_hearing f me targets) haware,
    fun hfew ↦ .inr ⟨hme, ?_⟩⟩
  · rw [Station.hearing, ← hmark]
    exact length_firstSighting_le h.ring _ _
  · exact ⟨_, [], rfl, Nat.zero_le _⟩
  · have hfirst : st.delivered = [] := by
      by_contra hdelivered
      exact hnew (h.known hfew (.inr hdelivered)).mem
    simp [Station.hearing, hfirst]

/-! ### The mesh -/

/-- All that is in flight are copies for members other than the origin, from nodes that have the
frame and may speak for its origin. -/
structure Flooding (mesh : RoutedMesh) (members : List String) (f : RoutedFrame)
    (s : Net String Value Station) : Prop where
  attends : ∀ m ∈ members, Attends f m (s.node m)
  copies : ∀ l ∈ s.flight, ∃ ttl, l.body = f.copy ttl ∧ l.target ∈ members ∧
    l.target ≠ f.origin ∧ Aware f l.source (s.node l.source) ∧ mesh.Gate l.target l.source f

/-- Whoever passes the frame on has all its connections covered: they have the frame, or a copy
is on its way to them. -/
def Covered (mesh : RoutedMesh) (members : List String) (f : RoutedFrame)
    (s : Net String Value Station) : Prop :=
  ∀ a ∈ members, Aware f a (s.node a) → (a = f.origin ∨ (mesh.mode a).forwards a = true) →
    ∀ b ∈ mesh.connected a, Aware f b (s.node b) ∨ ∃ l ∈ s.flight, l.target = b

variable {mode : TopologyMode} {members : List String} {s : Net String Value Station}
  {before after : List (Letter String Value)} {l : Letter String Value}

/-- A copy that arrives is known, or the node hears it as new. -/
theorem Flooding.arrive_cases (hs : Flooding mesh members f s) (hdst : f.dst = "")
    (hflight : s.flight = before ++ l :: after) :
    ∃ ttl, l.body = f.copy ttl ∧
      (f.key ∈ (s.node l.target).seen ∧
          (s.arrive (mesh.receive P) before l after).node = s.node ∧
          (s.arrive (mesh.receive P) before l after).flight = before ++ after ∨
        f.key ∉ (s.node l.target).seen ∧
          (s.arrive (mesh.receive P) before l after).node = Function.update s.node l.target
            ((s.node l.target).hearing f (mesh.targets P l.target l.source f ttl)) ∧
          (s.arrive (mesh.receive P) before l after).flight = before ++ after ++
            (mesh.targets P l.target l.source f ttl).map fun t ↦
              ⟨l.target, t, f.copy (ttl - 1)⟩) := by
  obtain ⟨ttl, hbody, -, -, -, hgate⟩ := hs.copies l (by simp [hflight])
  refine ⟨ttl, hbody, ?_⟩
  by_cases hmem : f.key ∈ (s.node l.target).seen
  · have hreceive : mesh.receive P l.target (s.node l.target) l.source l.body =
        (s.node l.target, []) := by
      rw [hbody]
      exact receive_copy_of_mem hmem
    refine .inl ⟨hmem, ?_, ?_⟩
    · simp [Net.arrive, hreceive]
    · simp [Net.arrive, hreceive, letters]
  · have hreceive : mesh.receive P l.target (s.node l.target) l.source l.body =
        ((s.node l.target).hearing f (mesh.targets P l.target l.source f ttl),
          (mesh.targets P l.target l.source f ttl).map fun t ↦ (t, f.copy (ttl - 1))) := by
      rw [hbody, receive_copy_of_notMem hgate hmem, if_pos (.inl hdst)]
      rfl
    refine .inr ⟨hmem, ?_, ?_⟩
    · simp [Net.arrive, hreceive]
    · simp [Net.arrive, hreceive, letters, Function.comp_def]

/-- Who gets a copy of a broadcast from a node: its connections but the carrier and the origin,
if it forwards and hops are left. -/
theorem mem_targets_of_broadcast (hdst : f.dst = "") {carrier t : String} {ttl : UInt8} :
    t ∈ mesh.targets P me carrier f ttl ↔ (mesh.mode me).forwards me = true ∧ ttl ≠ 0 ∧
      t ∈ mesh.connected me ∧ t ≠ carrier ∧ t ≠ f.origin ∧ mesh.accepts me t = true := by
  unfold RoutedMesh.targets
  cases hforwards : (mesh.mode me).forwards me with
  | false => simp [hdst]
  | true =>
    by_cases hzero : ttl = 0
    · simp [hzero]
    · simp [hdst, hzero, List.mem_filter]
      tauto

/-- Other frames change nothing about who has this one. -/
theorem aware_other_iff {node carrier m : String} {payload : Value} :
    Aware f m ((mesh.step P s (.other node carrier payload)).node m) ↔ Aware f m (s.node m) := by
  by_cases hm : m = node
  · subst hm
    simp [RoutedMesh.step, Aware]
  · simp [RoutedMesh.step, Function.update_of_ne hm]

/-- What a node has it keeps. -/
theorem Aware.step {a : RouteAct} {m : String} (h : Aware f m (s.node m))
    (hs : Flooding mesh members f s) (hdst : f.dst = "") :
    Aware f m ((mesh.step P s a).node m) := by
  cases a with
  | arrive i =>
    rcases deliver_cases (mesh.receive P) s i with hsame | ⟨before, l, after, hflight, heq⟩
    · rw [RoutedMesh.step, hsame]
      exact h
    rw [RoutedMesh.step, heq]
    obtain ⟨ttl, -, ⟨-, hnode, -⟩ | ⟨-, hnode, -⟩⟩ := hs.arrive_cases (P := P) hdst hflight
    · rw [hnode]
      exact h
    · rw [hnode]
      by_cases hm : m = l.target
      · subst hm
        rw [Function.update_self]
        exact Station.aware_hearing _ _ _ _
      · rw [Function.update_of_ne hm]
        exact h
  | other node carrier payload => exact aware_other_iff.mpr h

section Shape

variable (h : Shaped P mode members mesh) (hdst : f.dst = "")

include h hdst

/-- A step keeps the mesh flooding. -/
theorem Flooding.step (hs : Flooding mesh members f s) {a : RouteAct} (hapart : a.Apart f.key) :
    Flooding mesh members f (mesh.step P s a) := by
  cases a with
  | arrive i =>
    have haware : ∀ m, Aware f m (s.node m) →
        Aware f m ((mesh.step P s (.arrive i)).node m) := fun m hm ↦ hm.step hs hdst
    rcases deliver_cases (mesh.receive P) s i with hsame | ⟨before, l, after, hflight, heq⟩
    · rw [RoutedMesh.step, hsame]
      exact hs
    simp only [RoutedMesh.step, heq] at haware ⊢
    obtain ⟨-, -, hmem, hne, -, -⟩ := hs.copies l (by simp [hflight])
    have hrest : ∀ x ∈ before ++ after, x ∈ s.flight := fun x hx ↦ by
      rw [hflight, List.mem_append, List.mem_cons]
      exact (List.mem_append.mp hx).imp id .inr
    obtain ⟨ttl, -, ⟨-, hnode, hflight'⟩ | ⟨hnew, hnode, hflight'⟩⟩ :=
      hs.arrive_cases (P := P) hdst hflight
    · refine ⟨by rw [hnode]; exact hs.attends, fun x hx ↦ ?_⟩
      rw [hflight'] at hx
      rw [hnode]
      exact hs.copies x (hrest x hx)
    · refine ⟨fun m hm ↦ ?_, fun x hx ↦ ?_⟩
      · rw [hnode]
        by_cases hm' : m = l.target
        · subst hm'
          rw [Function.update_self]
          exact (hs.attends _ hm).hearing hne hnew _
        · rw [Function.update_of_ne hm']
          exact hs.attends m hm
      · rw [hflight', List.mem_append, List.mem_map] at hx
        rcases hx with hx | ⟨t, ht, rfl⟩
        · obtain ⟨ttl', hbody, hx1, hx2, hx3, hx4⟩ := hs.copies x (hrest x hx)
          exact ⟨ttl', hbody, hx1, hx2, haware _ hx3, hx4⟩
        · obtain ⟨hforwards, -, hconn, -, horigin, -⟩ := (mem_targets_of_broadcast hdst).mp ht
          have htm := ((h.connected_iff _ hmem t).mp hconn).1
          refine ⟨ttl - 1, rfl, htm, horigin, ?_, .inr ?_⟩
          · rw [hnode, Function.update_self]
            exact Station.aware_hearing _ _ _ _
          · rw [h.mode_eq t htm, ← h.mode_eq _ hmem]
            exact hforwards
  | other node carrier payload =>
    refine ⟨fun m hm ↦ ?_, fun x hx ↦ ?_⟩
    · simp only [RoutedMesh.step]
      by_cases hm' : m = node
      · subst hm'
        rw [Function.update_self]
        exact (hs.attends m hm).hear hapart
      · rw [Function.update_of_ne hm']
        exact hs.attends m hm
    · obtain ⟨ttl, hbody, hx1, hx2, hx3, hx4⟩ := hs.copies x hx
      exact ⟨ttl, hbody, hx1, hx2, hx3.step hs hdst, hx4⟩

/-- Coverage lasts while nobody is cut off by a forwarder without hops. -/
theorem Covered.step (hcovered : Covered mesh members f s) (hs : Flooding mesh members f s)
    {a : RouteAct} (hops : mesh.HasHops f.key s a) : Covered mesh members f (mesh.step P s a) := by
  have hkeeps : ∀ m, Aware f m (s.node m) → Aware f m ((mesh.step P s a).node m) :=
    fun m hm ↦ hm.step hs hdst
  cases a with
  | other node carrier payload =>
    intro a ha haware hpasses b hb
    exact (hcovered a ha (aware_other_iff.mp haware) hpasses b hb).imp (hkeeps b) (fun h ↦ h)
  | arrive i =>
    cases hl : s.flight[i]? with
    | none =>
      have hsame : mesh.step P s (.arrive i) = s := by simp only [RoutedMesh.step, deliver, hl]
      rw [hsame]
      exact hcovered
    | some l =>
    obtain ⟨before, after, hflight, heq⟩ := deliver_of_getElem? (mesh.receive P) hl
    simp only [RoutedMesh.step, heq] at hkeeps ⊢
    obtain ⟨-, -, hmem, hne, hsource, -⟩ := hs.copies l (by simp [hflight])
    obtain ⟨ttl, hbody, hcases⟩ := hs.arrive_cases (P := P) hdst hflight
    -- The node that the letter was for has the frame now.
    have htarget : Aware f l.target
        ((s.arrive (mesh.receive P) before l after).node l.target) := by
      rcases hcases with ⟨hseen, -, -⟩ | ⟨-, hnode, -⟩
      · refine hkeeps _ (Classical.not_not.mp fun hnot ↦ ?_)
        exact (hs.attends _ hmem).fresh hnot hseen
      · rw [hnode, Function.update_self]
        exact Station.aware_hearing _ _ _ _
    have hrest : ∀ x ∈ before ++ after,
        x ∈ (s.arrive (mesh.receive P) before l after).flight := fun x hx ↦ by
      rcases hcases with ⟨-, -, hflight'⟩ | ⟨-, -, hflight'⟩
      · rw [hflight']
        exact hx
      · rw [hflight']
        exact List.mem_append_left _ hx
    intro a ha haware hpasses b hb
    by_cases hold : Aware f a (s.node a)
    · rcases hcovered a ha hold hpasses b hb with hb | ⟨x, hx, rfl⟩
      · exact .inl (hkeeps b hb)
      · rw [hflight, List.mem_append, List.mem_cons] at hx
        rcases hx with hx | rfl | hx
        · exact .inr ⟨x, hrest x (List.mem_append_left _ hx), rfl⟩
        · exact .inl htarget
        · exact .inr ⟨x, hrest x (List.mem_append_right _ hx), rfl⟩
    · rcases hcases with ⟨-, hnode, -⟩ | ⟨hnew, hnode, hflight'⟩
      · rw [hnode] at haware
        exact absurd haware hold
      · -- The node that heard the frame sends it to all but the two that have it.
        have hat : a = l.target := by
          by_contra hat
          rw [hnode, Function.update_of_ne hat] at haware
          exact hold haware
        subst hat
        have hforwards := hpasses.resolve_left hne
        by_cases httl : ttl = 0
        · -- Without hops nothing is sent, but nobody waits for it either.
          have hserved := hops l hl hforwards hnew _ _
            (by rw [hbody]; exact RelayEnvelope.decode_encode _)
            (parseWrapper_wrap f.channel_ne f.body ttl f.id) httl b hb
          have hne' : b ≠ l.target := ((h.connected_iff _ hmem b).mp hb).2.1
          rcases hserved with horigin | hdelivered | ⟨x, hx, rfl⟩
          · exact .inl (.inl horigin)
          · exact .inl (hkeeps _ (.inr hdelivered))
          · rw [hflight, List.mem_append, List.mem_cons] at hx
            rcases hx with hx | rfl | hx
            · exact .inr ⟨x, hrest x (List.mem_append_left _ hx), rfl⟩
            · exact absurd rfl hne'
            · exact .inr ⟨x, hrest x (List.mem_append_right _ hx), rfl⟩
        by_cases hcarrier : b = l.source
        · subst hcarrier
          exact .inl (hkeeps _ hsource)
        · by_cases horigin : b = f.origin
          · exact .inl (.inl horigin)
          · refine .inr ⟨⟨l.target, b, f.copy (ttl - 1)⟩, ?_, rfl⟩
            rw [hflight']
            refine List.mem_append_right _ (List.mem_map.mpr ⟨b, ?_, rfl⟩)
            exact (mem_targets_of_broadcast hdst).mpr
              ⟨hforwards, httl, hb, hcarrier, horigin, h.accepts _ hmem b hb⟩

/-- So does a run. -/
theorem flooding_run {acts : List RouteAct} (hs : Flooding mesh members f s)
    (hapart : ∀ a ∈ acts, a.Apart f.key) :
    Flooding mesh members f (run (mesh.step P) s acts) := by
  induction acts generalizing s with
  | nil => exact hs
  | cons a acts ih =>
    exact ih (hs.step h hdst (hapart a List.mem_cons_self))
      fun b hb ↦ hapart b (List.mem_cons_of_mem _ hb)

/-- Coverage lasts for a run in which nobody is cut off. -/
theorem covered_run {acts : List RouteAct} (hcovered : Covered mesh members f s)
    (hs : Flooding mesh members f s) (hapart : ∀ a ∈ acts, a.Apart f.key)
    (hops : AllSteps (mesh.step P) (mesh.HasHops f.key) s acts) :
    Covered mesh members f (run (mesh.step P) s acts) := by
  induction acts generalizing s with
  | nil => exact hcovered
  | cons a acts ih =>
    exact ih (hcovered.step h hdst hs hops.1) (hs.step h hdst (hapart a List.mem_cons_self))
      (fun b hb ↦ hapart b (List.mem_cons_of_mem _ hb)) hops.2

end Shape

/-! ### Coming to rest -/

/-- The hops that a copy has left. -/
def hopsLeft (body : Value) : Nat :=
  match (RelayEnvelope.decode body).bind fun e ↦ parseWrapper e.payload with
  | some w => w.ttl.toNat
  | none => 0

@[simp] theorem hopsLeft_copy (f : RoutedFrame) (ttl : UInt8) :
    hopsLeft (f.copy ttl) = ttl.toNat := by
  simp [hopsLeft, RoutedFrame.copy, parseWrapper_wrap f.channel_ne]

/-- What the letters in flight can still cause. -/
def pressure (members : List String) (flight : List (Letter String Value)) : Nat :=
  (flight.map fun l ↦ (members.length + 1) ^ hopsLeft l.body).sum

theorem pressure_append (members : List String) (xs ys : List (Letter String Value)) :
    pressure members (xs ++ ys) = pressure members xs + pressure members ys := by
  simp [pressure]

section Rest

variable (h : Shaped P mode members mesh) (hdst : f.dst = "")

include h hdst

/-- A node sends to no more nodes than there are members, and to none without hops. -/
theorem length_targets_le {me carrier : String} (hme : me ∈ members) (ttl : UInt8) :
    (mesh.targets P me carrier f ttl).length ≤ members.length := by
  have hsub : mesh.targets P me carrier f ttl ⊆ members := fun t ht ↦ by
    obtain ⟨-, -, hconn, -⟩ := (mem_targets_of_broadcast hdst).mp ht
    exact ((h.connected_iff me hme t).mp hconn).1
  have hnodup : (mesh.targets P me carrier f ttl).Nodup := by
    unfold RoutedMesh.targets
    split
    · exact List.nodup_nil
    · exact ((h.connected_nodup me hme).filter _).filter _
  exact (List.subperm_of_subset hnodup hsub).length_le

/-- What a letter causes is less than what it could. -/
theorem pressure_targets_lt {me carrier : String} (hme : me ∈ members) (ttl : UInt8) :
    pressure members ((mesh.targets P me carrier f ttl).map fun t ↦
      ⟨me, t, f.copy (ttl - 1)⟩) < (members.length + 1) ^ ttl.toNat := by
  by_cases hzero : ttl = 0
  · have hnone : mesh.targets P me carrier f ttl = [] := by simp [RoutedMesh.targets, hzero]
    rw [hnone]
    exact Nat.pow_pos (Nat.succ_pos _)
  · have hsucc := toNat_sub_one_add_one hzero
    have hsum : pressure members ((mesh.targets P me carrier f ttl).map fun t ↦
        ⟨me, t, f.copy (ttl - 1)⟩) =
        (mesh.targets P me carrier f ttl).length * (members.length + 1) ^ (ttl - 1).toNat := by
      simp [pressure, Function.comp_def]
    rw [hsum, ← hsucc, Nat.pow_succ, Nat.mul_comm _ (members.length + 1)]
    refine Nat.mul_lt_mul_of_pos_right ?_ (Nat.pow_pos (Nat.succ_pos _))
    exact Nat.lt_succ_of_le (length_targets_le h hdst hme ttl)

/-- Arrivals alone bring the mesh to rest. -/
theorem Flooding.exists_quiet (hs : Flooding mesh members f s) :
    ∃ n, (run (mesh.step P) s (List.replicate n (.arrive 0))).flight = [] := by
  obtain ⟨k, hk⟩ : ∃ k, k = pressure members s.flight := ⟨_, rfl⟩
  induction k using Nat.strong_induction_on generalizing s with
  | _ k ih =>
    cases hflight : s.flight with
    | nil => exact ⟨0, hflight⟩
    | cons l rest =>
      have hstep : mesh.step P s (.arrive 0) = s.arrive (mesh.receive P) [] l rest :=
        deliver_append (mesh.receive P) [] l rest hflight
      obtain ⟨-, -, hmem, -, -, -⟩ := hs.copies l (by simp [hflight])
      have hless : pressure members (mesh.step P s (.arrive 0)).flight < k := by
        rw [hk, hflight, hstep]
        have hsplit : pressure members (l :: rest) =
            (members.length + 1) ^ hopsLeft l.body + pressure members rest := by simp [pressure]
        have hfirst : s.flight = [] ++ l :: rest := hflight
        obtain ⟨ttl, hbody, ⟨-, -, hflight'⟩ | ⟨-, -, hflight'⟩⟩ :=
          hs.arrive_cases (P := P) hdst hfirst
        · rw [hflight', hsplit, List.nil_append]
          exact Nat.lt_add_of_pos_left (Nat.pow_pos (Nat.succ_pos _))
        · rw [hflight', hsplit, List.nil_append, pressure_append, hbody, hopsLeft_copy,
            Nat.add_comm]
          exact Nat.add_lt_add_right (pressure_targets_lt h hdst hmem ttl) _
      obtain ⟨n, hn⟩ := ih _ hless (hs.step h hdst (a := .arrive 0) trivial) rfl
      exact ⟨n + 1, hn⟩

end Rest

/-! ### Paths of copies -/

/-- A forwarder other than the origin that has the frame. -/
def Carried (mesh : RoutedMesh) (members : List String) (f : RoutedFrame)
    (s : Net String Value Station) (m : String) : Prop :=
  m ∈ members ∧ m ≠ f.origin ∧ (mesh.mode m).forwards m = true ∧ Aware f m (s.node m)

/-- Every copy has come over as many different forwarders as it has lost hops. -/
def Travelled (mesh : RoutedMesh) (members : List String) (f : RoutedFrame) (budget : Nat)
    (s : Net String Value Station) : Prop :=
  ∀ l ∈ s.flight, ∃ path : List String, path.Nodup ∧ (∀ m ∈ path, Carried mesh members f s m) ∧
    hopsLeft l.body + path.length = budget

/-- Copies only arrive; the count of other frames does not change. -/
theorem others_receive (P : Primitives) (mesh : RoutedMesh) (me : String) (st : Station)
    (carrier : String) (payload : Value) :
    (mesh.receive P me st carrier payload).1.others = st.others := by
  unfold RoutedMesh.receive
  split <;> rfl

/-- No step lowers the count of other frames. -/
theorem others_le_step (P : Primitives) (mesh : RoutedMesh) (s : Net String Value Station)
    (a : RouteAct) (m : String) :
    (s.node m).others ≤ ((mesh.step P s a).node m).others := by
  cases a with
  | arrive i =>
    rcases deliver_cases (mesh.receive P) s i with hsame | ⟨before, l, after, -, heq⟩
    · rw [RoutedMesh.step, hsame]
    rw [RoutedMesh.step, heq]
    by_cases hm : m = l.target
    · subst hm
      simp [Net.arrive, others_receive]
    · simp [Net.arrive, Function.update_of_ne hm]
  | other node carrier payload =>
    by_cases hm : m = node
    · subst hm
      simp only [RoutedMesh.step, Function.update_self]
      rcases hear_cases P mesh m (s.node m) carrier payload with heq | ⟨e, w, -, -, heq⟩
      · rw [heq]
        exact Nat.le_succ _
      · rw [heq]
        exact Nat.le_succ _
    · simp [RoutedMesh.step, Function.update_of_ne hm]

/-- Nor does a run. -/
theorem others_le_run (P : Primitives) (mesh : RoutedMesh) (s : Net String Value Station)
    (acts : List RouteAct) (m : String) :
    (s.node m).others ≤ ((run (mesh.step P) s acts).node m).others :=
  run_invariant (I := fun t : Net String Value Station ↦ (s.node m).others ≤ (t.node m).others)
    (fun t a ht ↦ ht.trans (others_le_step P mesh t a m)) (Nat.le_refl _) acts

section Paths

variable {budget : Nat} (hdst : f.dst = "")

include hdst

/-- A copy that is sent on has come over one more forwarder. -/
theorem Travelled.step (ht : Travelled mesh members f budget s)
    (hs : Flooding mesh members f s)
    (hfew : ∀ m ∈ members, (s.node m).others < routingSeenCapacity) {a : RouteAct} :
    Travelled mesh members f budget (mesh.step P s a) := by
  have hkeeps : ∀ m, Carried mesh members f s m → Carried mesh members f (mesh.step P s a) m :=
    fun m hm ↦ ⟨hm.1, hm.2.1, hm.2.2.1, hm.2.2.2.step hs hdst⟩
  have hold : ∀ x ∈ s.flight, ∃ path : List String, path.Nodup ∧
      (∀ m ∈ path, Carried mesh members f (mesh.step P s a) m) ∧
      hopsLeft x.body + path.length = budget := by
    intro x hx
    obtain ⟨path, hnodup, hpath, hlen⟩ := ht x hx
    exact ⟨path, hnodup, fun m hm ↦ hkeeps m (hpath m hm), hlen⟩
  cases a with
  | other node carrier payload => exact hold
  | arrive i =>
    rcases deliver_cases (mesh.receive P) s i with hsame | ⟨before, l, after, hflight, heq⟩
    · rw [RoutedMesh.step, hsame]
      exact ht
    simp only [RoutedMesh.step, heq] at hkeeps hold ⊢
    obtain ⟨-, -, hmem, hne, -, -⟩ := hs.copies l (by simp [hflight])
    have hrest : ∀ x ∈ before ++ after, x ∈ s.flight := fun x hx ↦ by
      rw [hflight, List.mem_append, List.mem_cons]
      exact (List.mem_append.mp hx).imp id .inr
    obtain ⟨ttl, hbody, ⟨-, -, hflight'⟩ | ⟨hnew, hnode, hflight'⟩⟩ :=
      hs.arrive_cases (P := P) hdst hflight
    · intro x hx
      rw [hflight'] at hx
      exact hold x (hrest x hx)
    · intro x hx
      rw [hflight', List.mem_append, List.mem_map] at hx
      rcases hx with hx | ⟨t, hmap, rfl⟩
      · exact hold x (hrest x hx)
      · obtain ⟨hforwards, httl, -⟩ := (mem_targets_of_broadcast hdst).mp hmap
        obtain ⟨path, hnodup, hpath, hlen⟩ := ht l (by simp [hflight])
        have hunaware : ¬ Aware f l.target (s.node l.target) := fun haware ↦
          hnew ((hs.attends _ hmem).known (hfew _ hmem) haware).mem
        refine ⟨l.target :: path, ?_, fun m hm ↦ ?_, ?_⟩
        · exact List.nodup_cons.mpr ⟨fun hin ↦ hunaware (hpath _ hin).2.2.2, hnodup⟩
        · rcases List.mem_cons.mp hm with rfl | hm
          · refine ⟨hmem, hne, hforwards, ?_⟩
            rw [hnode, Function.update_self]
            exact Station.aware_hearing _ _ _ _
          · exact hkeeps m (hpath m hm)
        · rw [hbody, hopsLeft_copy] at hlen
          rw [hopsLeft_copy, List.length_cons]
          have hsub := toNat_sub_one_add_one httl
          omega

omit hdst in
/-- With no more forwarders than hops, no forwarder hears the frame with the hops used up: the
path of such a copy would not leave room for it. -/
theorem Travelled.hasHops (ht : Travelled mesh members f budget s)
    (hs : Flooding mesh members f s)
    (hfew : ∀ m ∈ members, (s.node m).others < routingSeenCapacity)
    (hforwarders : (members.filter fun m ↦
      m != f.origin && (mesh.mode m).forwards m).length ≤ budget) (a : RouteAct) :
    mesh.HasHops f.key s a := by
  cases a with
  | other node carrier payload => trivial
  | arrive i =>
    intro l hl hforwards hnew e w hd hw hzero
    exfalso
    have hflight : l ∈ s.flight := List.mem_of_getElem? hl
    obtain ⟨ttl, hbody, hmem, hne, -, -⟩ := hs.copies l hflight
    obtain ⟨path, hnodup, hpath, hlen⟩ := ht l hflight
    have hspent : hopsLeft l.body = 0 := by
      simp [hopsLeft, hd, hw, hzero]
    have hunaware : ¬ Aware f l.target (s.node l.target) := fun haware ↦
      hnew ((hs.attends _ hmem).known (hfew _ hmem) haware).mem
    have hlonger : (l.target :: path).Nodup :=
      List.nodup_cons.mpr ⟨fun hin ↦ hunaware (hpath _ hin).2.2.2, hnodup⟩
    have hsub : l.target :: path ⊆ members.filter fun m ↦
        m != f.origin && (mesh.mode m).forwards m := by
      intro m hm
      rw [List.mem_filter, Bool.and_eq_true, bne_iff_ne]
      rcases List.mem_cons.mp hm with rfl | hm
      · exact ⟨hmem, hne, hforwards⟩
      · obtain ⟨hm, hme, hmf, -⟩ := hpath m hm
        exact ⟨hm, hme, hmf⟩
    have hle := (List.subperm_of_subset hlonger hsub).length_le
    rw [List.length_cons] at hle
    omega

/-- So it is in a whole run. -/
theorem allSteps_hasHops (h : Shaped P mode members mesh)
    (hforwarders : (members.filter fun m ↦
      m != f.origin && (mesh.mode m).forwards m).length ≤ budget) {acts : List RouteAct}
    (hapart : ∀ a ∈ acts, a.Apart f.key) (ht : Travelled mesh members f budget s)
    (hs : Flooding mesh members f s)
    (hfew : ∀ m ∈ members, ((run (mesh.step P) s acts).node m).others < routingSeenCapacity) :
    AllSteps (mesh.step P) (mesh.HasHops f.key) s acts := by
  induction acts generalizing s with
  | nil => trivial
  | cons a acts ih =>
    have hnow : ∀ m ∈ members, (s.node m).others < routingSeenCapacity := fun m hm ↦
      Nat.lt_of_le_of_lt (others_le_run P mesh s (a :: acts) m) (hfew m hm)
    refine ⟨ht.hasHops hs hnow hforwarders a, ?_⟩
    exact ih (fun b hb ↦ hapart b (List.mem_cons_of_mem _ hb)) (ht.step hdst hs hnow)
      (hs.step h hdst (hapart a List.mem_cons_self)) hfew

end Paths

/-! ### Who can be reached -/

/-- The origin and the forwarders pass the frame on to their connections. -/
def RoutedMesh.Passes (mesh : RoutedMesh) (origin a b : String) : Prop :=
  (a = origin ∨ (mesh.mode a).forwards a = true) ∧ b ∈ mesh.connected a

/-- At rest, everybody has the frame that it can reach. -/
theorem Covered.aware_of_reached (hcovered : Covered mesh members f s)
    (h : Shaped P mode members mesh) (horigin : f.origin ∈ members) (hquiet : s.flight = [])
    {m : String} (hreached : Relation.ReflTransGen (mesh.Passes f.origin) f.origin m) :
    m ∈ members ∧ Aware f m (s.node m) := by
  induction hreached with
  | refl => exact ⟨horigin, .inl rfl⟩
  | tail _ hpasses ih =>
    obtain ⟨hmem, haware⟩ := ih
    refine ⟨((h.connected_iff _ hmem _).mp hpasses.2).1, ?_⟩
    refine (hcovered _ hmem haware hpasses.1 _ hpasses.2).resolve_right ?_
    rintro ⟨l, hl, -⟩
    rw [hquiet] at hl
    exact absurd hl List.not_mem_nil

/-! ### A whole broadcast -/

section Broadcast

variable {shelved : String → Bool} {seen : String → List (String × UInt64)}
  (h : Shaped P mode members mesh) (hme : f.origin ∈ members) (hdst : f.dst = "")
  (hopen : ∀ p ∈ mesh.connected f.origin, shelved p = false)
  (hseen : ∀ m, (seen m).length ≤ routingSeenCapacity) (hfresh : ∀ m, f.key ∉ seen m)

include h hme hdst hopen

/-- A copy is on its way to every connection of the origin. -/
theorem flight_afterFlood :
    (mesh.afterFlood shelved seen f.origin f.channel f.body f.id).flight =
      (mesh.connected f.origin).map fun p ↦ ⟨f.origin, p, f.copy mode.floodTtl⟩ := by
  have hunshelved : (mesh.connected f.origin).filter (fun p ↦ !shelved p) =
      mesh.connected f.origin := List.filter_eq_self.mpr fun p hp ↦ by simp [hopen p hp]
  have haccepts : (mesh.connected f.origin).filter (mesh.accepts f.origin) =
      mesh.connected f.origin := List.filter_eq_self.mpr fun p hp ↦ h.accepts _ hme p hp
  simp [RoutedMesh.afterFlood, RoutedMesh.broadcastFlood, Net.start, letters, hunshelved,
    haccepts, RoutedFrame.copy, hdst, h.mode_eq _ hme]

include hseen hfresh

/-- The broadcast floods. -/
theorem flooding_afterFlood :
    Flooding mesh members f (mesh.afterFlood shelved seen f.origin f.channel f.body f.id) := by
  refine ⟨fun m _ ↦ ?_, fun l hl ↦ ?_⟩
  · by_cases hm : m = f.origin
    · subst hm
      have hmark : (firstSighting (seen f.origin) f.origin f.id).1 =
          mark f.key (seen f.origin) := by
        rw [firstSighting_of_notMem f.id_ne (hfresh _)]
        rfl
      simp only [RoutedMesh.afterFlood, RoutedMesh.broadcastFlood, Net.start,
        Function.update_self]
      exact ⟨length_firstSighting_le (hseen _) _ _, fun _ _ ↦ by
          rw [hmark]
          exact ⟨_, [], rfl, Nat.zero_le _⟩,
        fun hnot ↦ absurd (.inl rfl) hnot, fun _ ↦ .inl rfl⟩
    · simp only [RoutedMesh.afterFlood, Net.start, Function.update_of_ne hm]
      exact ⟨hseen m, fun _ haware ↦ absurd rfl (haware.resolve_left hm), fun _ ↦ hfresh m,
        fun _ ↦ .inl rfl⟩
  · rw [flight_afterFlood h hme hdst hopen, List.mem_map] at hl
    obtain ⟨p, hp, rfl⟩ := hl
    obtain ⟨hmem, hne, -⟩ := (h.connected_iff _ hme p).mp hp
    exact ⟨_, rfl, hmem, hne, .inl rfl, .inl rfl⟩

omit hseen hfresh in
/-- All connections of the origin are covered. -/
theorem covered_afterFlood :
    Covered mesh members f (mesh.afterFlood shelved seen f.origin f.channel f.body f.id) := by
  intro a _ haware _ b hb
  have ha : a = f.origin := by
    by_contra hne
    refine (haware.resolve_left hne) ?_
    simp [RoutedMesh.afterFlood, Net.start, Function.update_of_ne hne]
  subst ha
  refine .inr ⟨⟨f.origin, b, f.copy mode.floodTtl⟩, ?_, rfl⟩
  rw [flight_afterFlood h hme hdst hopen]
  exact List.mem_map.mpr ⟨b, hb, rfl⟩

omit hseen hfresh in
/-- No copy has come over a forwarder yet. -/
theorem travelled_afterFlood : Travelled mesh members f mode.floodTtl.toNat
    (mesh.afterFlood shelved seen f.origin f.channel f.body f.id) := by
  intro l hl
  rw [flight_afterFlood h hme hdst hopen, List.mem_map] at hl
  obtain ⟨p, -, rfl⟩ := hl
  exact ⟨[], List.nodup_nil, by simp, by simp⟩

end Broadcast

end MyOwnMesh
