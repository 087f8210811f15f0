import MyOwnMesh.Lib.Walk
import MyOwnMesh.Engine.Directed
import MyOwnMesh.Identity.Signing

/-!
# Routes around a ring

On a ring every member hands a frame to the connection that is closest to the destination by the
length of a common beginning. That measure says nothing about positions in the ring: the members
it ties are taken in the order in which they are listed. Following it from the sender either ends
at the destination or comes round to a member that was there before, and the frame is delivered
exactly in the first case.
-/

namespace MyOwnMesh

open Lib Lib.Replay Lib.Network

variable {P : Primitives} {mesh : RoutedMesh} {members : List String} {n : Option UInt32}

/-! ### The closest connection -/

/-- The closest hop is the first of the connections to other keys that are closest, and there is
one if there is such a connection. -/
theorem closestHop_spec (selfId dest : String) (connected : List String) :
    match closestHop selfId dest connected with
    | none => ∀ c ∈ connected, pubkeyPart c = pubkeyPart selfId
    | some (d, c) => d = ringDistance (pubkeyPart c) (pubkeyPart dest) ∧
        ∃ before after, connected = before ++ c :: after ∧
          (∀ x ∈ before, pubkeyPart x ≠ pubkeyPart selfId →
            d < ringDistance (pubkeyPart x) (pubkeyPart dest)) ∧
          ∀ x ∈ after, pubkeyPart x ≠ pubkeyPart selfId →
            d ≤ ringDistance (pubkeyPart x) (pubkeyPart dest) := by
  induction connected using List.reverseRecOn with
  | nil => simp [closestHop]
  | append_singleton rest c ih =>
    unfold closestHop at ih ⊢
    rw [List.foldl_append, List.foldl_cons, List.foldl_nil]
    generalize List.foldl _ none rest = best at ih ⊢
    by_cases hself : pubkeyPart c = pubkeyPart selfId
    · simp only [hself, ↓reduceIte]
      cases best with
      | none =>
        intro x hx
        rcases List.mem_append.mp hx with hx | hx
        · exact ih x hx
        · rw [List.mem_singleton.mp hx]
          exact hself
      | some e =>
        obtain ⟨d, b⟩ := e
        obtain ⟨hd, before, after, rfl, hbefore, hafter⟩ := ih
        refine ⟨hd, before, after ++ [c], by simp, hbefore, fun x hx hne ↦ ?_⟩
        rcases List.mem_append.mp hx with hx | hx
        · exact hafter x hx hne
        · rw [List.mem_singleton.mp hx] at hne
          exact absurd hself hne
    · simp only [hself, ↓reduceIte]
      cases best with
      | none =>
        exact ⟨rfl, rest, [], rfl, fun x hx hne ↦ absurd (ih x hx) hne, by simp⟩
      | some e =>
        obtain ⟨d, b⟩ := e
        obtain ⟨hd, before, after, hrest, hbefore, hafter⟩ := ih
        simp only
        by_cases hlt : ringDistance (pubkeyPart c) (pubkeyPart dest) < d
        · simp only [hlt, ↓reduceIte]
          refine ⟨trivial, rest, [], rfl, fun x hx hne ↦ ?_, by simp⟩
          rw [hrest, List.mem_append, List.mem_cons] at hx
          rcases hx with hx | rfl | hx
          · exact Nat.lt_trans hlt (hbefore x hx hne)
          · exact Nat.lt_of_lt_of_eq hlt hd
          · exact Nat.lt_of_lt_of_le hlt (hafter x hx hne)
        · simp only [hlt, ↓reduceIte]
          refine ⟨hd, before, after ++ [c], by simp [hrest], hbefore, fun x hx hne ↦ ?_⟩
          rcases List.mem_append.mp hx with hx | hx
          · exact hafter x hx hne
          · rw [List.mem_singleton.mp hx]
            exact Nat.not_lt.mp hlt

/-- A common beginning is no longer than either text. -/
private theorem common_le (xs ys : List UInt8) :
    ((xs.zip ys).takeWhile fun e ↦ e.1 == e.2).length ≤ min xs.length ys.length := by
  rw [← List.length_zip]
  exact (List.takeWhile_sublist _).length_le

/-- Texts whose common beginning is all of both are the same. -/
private theorem eq_of_common {xs ys : List UInt8} (hlen : xs.length = ys.length)
    (h : xs.length ≤ ((xs.zip ys).takeWhile fun e ↦ e.1 == e.2).length) : xs = ys := by
  induction xs generalizing ys with
  | nil => exact (List.eq_nil_of_length_eq_zero hlen.symm).symm
  | cons x xs ih =>
    cases ys with
    | nil => simp at hlen
    | cons y ys =>
      rw [List.zip_cons_cons, List.takeWhile_cons] at h
      by_cases hxy : x = y
      · simp only [hxy, BEq.rfl, ↓reduceIte, List.length_cons, Nat.add_le_add_iff_right] at h
        rw [hxy, ih (by simpa using hlen) h]
      · simp [hxy] at h

/-- Only an id itself is at no distance. -/
theorem eq_of_ringDistance_eq_zero {a b : String} (h : ringDistance a b = 0) : a = b := by
  have hle := common_le (Text.utf8 a) (Text.utf8 b)
  unfold ringDistance at h
  simp only [Text.utf8ByteSize_eq] at h
  rw [← Text.utf8_inj]
  refine eq_of_common ?_ ?_ <;> omega

/-- A non-empty id is at no distance from itself. -/
theorem ringDistance_self {a : String} (h : a ≠ "") : ringDistance a a = 0 := by
  have hcommon : ∀ xs : List UInt8,
      ((xs.zip xs).takeWhile fun e ↦ e.1 == e.2).length = xs.length := by
    intro xs
    induction xs with
    | nil => rfl
    | cons x xs ih => simp [ih]
  have hpos : 0 < (Text.utf8 a).length := by
    rw [List.length_pos_iff, Ne, show ([] : List UInt8) = Text.utf8 "" from rfl, Text.utf8_inj]
    exact h
  unfold ringDistance
  simp only [hcommon, Text.utf8ByteSize_eq]
  omega

/-! ### One way round -/

variable (P) in
/-- Where the topology sends a frame for a destination from a member. -/
def RoutedMesh.greedy (mesh : RoutedMesh) (dest me : String) : Option String :=
  (nextHops P (mesh.mode me) me dest (mesh.connected me)).head?

/-- A connection is the first listed of the closest ones to a destination. -/
def RoutedMesh.NearestHop (mesh : RoutedMesh) (dest me next : String) : Prop :=
  ∃ before after, mesh.connected me = before ++ next :: after ∧
    (∀ x ∈ before, ringDistance next dest < ringDistance x dest) ∧
    ∀ x ∈ after, ringDistance next dest ≤ ringDistance x dest

namespace RoutedMesh.NearestHop

variable {dest me next next' : String}

theorem mem (h : mesh.NearestHop dest me next) : next ∈ mesh.connected me := by
  obtain ⟨before, after, hsplit, -, -⟩ := h
  simp [hsplit]

/-- No connection is closer. -/
theorem le (h : mesh.NearestHop dest me next) {x : String} (hx : x ∈ mesh.connected me) :
    ringDistance next dest ≤ ringDistance x dest := by
  obtain ⟨before, after, hsplit, hbefore, hafter⟩ := h
  rw [hsplit, List.mem_append, List.mem_cons] at hx
  rcases hx with hx | rfl | hx
  · exact Nat.le_of_lt (hbefore x hx)
  · exact Nat.le_refl _
  · exact hafter x hx

/-- There is one nearest hop only. -/
theorem unique (h : mesh.NearestHop dest me next) (h' : mesh.NearestHop dest me next') :
    next = next' := by
  have hle := h.le h'.mem
  have hle' := h'.le h.mem
  obtain ⟨before, after, hsplit, hbefore, -⟩ := h
  obtain ⟨before', after', hsplit', hbefore', -⟩ := h'
  -- Neither stands before the other.
  rcases List.append_eq_append_iff.mp (hsplit.symm.trans hsplit') with
    ⟨mid, hmid, hrest⟩ | ⟨mid, hmid, hrest⟩
  · cases mid with
    | nil => exact (List.cons.inj hrest).1
    | cons y ys =>
      have hy : next = y := (List.cons.inj hrest).1
      have hlt := hbefore' next (by rw [hmid, hy]; simp)
      omega
  · cases mid with
    | nil => exact (List.cons.inj hrest).1.symm
    | cons y ys =>
      have hy : next' = y := (List.cons.inj hrest).1
      have hlt := hbefore next' (by rw [hmid, hy]; simp)
      omega

end RoutedMesh.NearestHop

section Ring

variable (h : Shaped P (.ring n) members mesh)

include h

/-- The hop is the nearest connection. -/
theorem greedy_eq_some_iff {dest me : String} (hme : me ∈ members) (hdest : dest ∈ members)
    (next : String) : mesh.greedy P dest me = some next ↔ mesh.NearestHop dest me next := by
  have hkey : ∀ x ∈ mesh.connected me, pubkeyPart x = x ∧ pubkeyPart x ≠ pubkeyPart me := by
    intro x hx
    obtain ⟨hmem, hne, -⟩ := (h.connected_iff me hme x).mp hx
    rw [(h.names x hmem).2, (h.names me hme).2]
    exact ⟨rfl, hne⟩
  have hspec := closestHop_spec me dest (mesh.connected me)
  simp only [RoutedMesh.greedy, h.mode_eq me hme, nextHops]
  cases hclosest : closestHop me dest (mesh.connected me) with
  | none =>
    simp only [hclosest] at hspec
    have hnil : mesh.connected me = [] :=
      List.eq_nil_iff_forall_not_mem.mpr fun x hx ↦ (hkey x hx).2 (hspec x hx)
    simp [RoutedMesh.NearestHop, hnil]
  | some e =>
    obtain ⟨d, c⟩ := e
    simp only [hclosest] at hspec
    obtain ⟨hd, before, after, hsplit, hbefore, hafter⟩ := hspec
    have hcmem : c ∈ mesh.connected me := by simp [hsplit]
    have hnearest : mesh.NearestHop dest me c := by
      rw [(h.names dest hdest).2, (hkey c hcmem).1] at hd
      refine ⟨before, after, hsplit, fun x hx ↦ ?_, fun x hx ↦ ?_⟩
      · have hxmem : x ∈ mesh.connected me := by simp [hsplit, hx]
        have hx := hbefore x hx (hkey x hxmem).2
        rwa [(h.names dest hdest).2, (hkey x hxmem).1, hd] at hx
      · have hxmem : x ∈ mesh.connected me := by simp [hsplit, hx]
        have hx := hafter x hx (hkey x hxmem).2
        rwa [(h.names dest hdest).2, (hkey x hxmem).1, hd] at hx
    simp only [Option.map_some, Option.toList_some, List.head?_cons, Option.some.injEq]
    constructor
    · rintro rfl
      exact hnearest
    · exact fun hnext ↦ hnearest.unique hnext

/-- The hop is a connection. -/
theorem connected_of_greedy {dest me next : String} (hme : me ∈ members) (hdest : dest ∈ members)
    (hnext : mesh.greedy P dest me = some next) : next ∈ mesh.connected me :=
  ((greedy_eq_some_iff h hme hdest next).mp hnext).mem

/-- A member that is connected to the destination sends it there. -/
theorem greedy_of_connected {dest me : String} (hme : me ∈ members)
    (hconn : dest ∈ mesh.connected me) : mesh.greedy P dest me = some dest := by
  obtain ⟨hdest, -, -⟩ := (h.connected_iff me hme dest).mp hconn
  rw [greedy_eq_some_iff h hme hdest]
  obtain ⟨before, after, hsplit⟩ := List.append_of_mem hconn
  have hself := ringDistance_self (h.names dest hdest).1
  refine ⟨before, after, hsplit, fun x hx ↦ ?_, fun x _ ↦ hself ▸ Nat.zero_le _⟩
  rw [hself, Nat.pos_iff_ne_zero]
  intro hzero
  have hnodup := h.connected_nodup me hme
  rw [hsplit] at hnodup
  exact (List.nodup_append.mp hnodup).2.2 x hx dest List.mem_cons_self
    (eq_of_ringDistance_eq_zero hzero)

/-- A node hands the frame to its hop, unless it has it from there. -/
theorem hop_eq_greedy {dest me : String} (carrier : String) (hme : me ∈ members)
    (hdest : dest ∈ members) :
    mesh.hop P me carrier dest = (mesh.greedy P dest me).filter (· != carrier) := by
  have hsingle : (if dest ∈ mesh.connected me then [dest]
      else nextHops P (mesh.mode me) me dest (mesh.connected me)) =
      (mesh.greedy P dest me).toList := by
    by_cases hconn : dest ∈ mesh.connected me
    · rw [if_pos hconn, greedy_of_connected h hme hconn, Option.toList_some]
    · simp only [hconn, ↓reduceIte, RoutedMesh.greedy, h.mode_eq me hme, nextHops]
      cases closestHop me dest (mesh.connected me) <;> rfl
  simp only [RoutedMesh.hop, hsingle]
  cases hnext : mesh.greedy P dest me with
  | none => rfl
  | some next =>
    have haccepts := h.accepts me hme next (connected_of_greedy h hme hdest hnext)
    by_cases hback : next = carrier
    · simp [hback, Option.filter_some]
    · simp [hback, haccepts, Option.filter_some]

/-- A hop leads to a member. -/
theorem mem_of_greedy {dest me next : String} (hme : me ∈ members) (hdest : dest ∈ members)
    (hnext : mesh.greedy P dest me = some next) : next ∈ members :=
  ((h.connected_iff me hme next).mp (connected_of_greedy h hme hdest hnext)).1

/-- The first hop that takes the frame is the only one. -/
theorem greedy_of_find {dest me first : String} (hme : me ∈ members)
    (hfind : (nextHops P (mesh.mode me) me dest (mesh.connected me)).find? (mesh.accepts me) =
      some first) : mesh.greedy P dest me = some first := by
  simp only [RoutedMesh.greedy, h.mode_eq me hme, nextHops] at hfind ⊢
  cases hclosest : closestHop me dest (mesh.connected me) with
  | none => simp [hclosest] at hfind
  | some e =>
    simp only [hclosest, Option.map_some, Option.toList_some] at hfind ⊢
    have hmem := List.mem_of_find?_eq_some hfind
    rw [List.mem_singleton.mp hmem, List.head?_cons]

/-- Nearest hops lead to the destination exactly if the way ends there. -/
theorem exists_walk_iff {dest me : String} (hme : me ∈ members) (hdest : dest ∈ members) :
    (∃ path, Walk (mesh.greedy P dest) dest me path) ↔
      Relation.ReflTransGen (mesh.NearestHop dest) me dest := by
  constructor
  · rintro ⟨path, hwalk⟩
    induction path generalizing me with
    | nil =>
      obtain rfl : me = dest := hwalk
      exact .refl
    | cons next rest ih =>
      obtain ⟨-, hnext, hrest⟩ := hwalk
      exact .head ((greedy_eq_some_iff h hme hdest next).mp hnext)
        (ih (mem_of_greedy h hme hdest hnext) hrest)
  · intro hleads
    revert hme
    induction hleads using Relation.ReflTransGen.head_induction_on with
    | refl => exact fun _ ↦ ⟨[], rfl⟩
    | @head a b hstep _ ih =>
      intro ha
      by_cases hgoal : a = dest
      · exact ⟨[], hgoal⟩
      · have hnext := (greedy_eq_some_iff h ha hdest b).mpr hstep
        obtain ⟨path, hpath⟩ := ih (mem_of_greedy h ha hdest hnext)
        exact ⟨b :: path, hgoal, hnext, hpath⟩

/-! ### A way that ends delivers -/

/-- A walk to the destination is a route. -/
theorem route_of_walk {dest carrier me : String} {rest : List String} (hme : me ∈ members)
    (hdest : dest ∈ members) (hwalk : Walk (mesh.greedy P dest) dest me rest)
    (hnodup : (carrier :: me :: rest).Nodup) : mesh.Route P dest carrier me rest := by
  induction rest generalizing carrier me with
  | nil => exact hwalk
  | cons next rest ih =>
    obtain ⟨hgoal, hnext, hrest⟩ := hwalk
    have hnextMem := mem_of_greedy h hme hdest hnext
    have hback : next ≠ carrier := by
      rintro rfl
      simp at hnodup
    refine ⟨hgoal, ?_, ?_, ?_, ih hnextMem hrest (List.nodup_cons.mp hnodup).2⟩
    · rw [h.mode_eq me hme]
      rfl
    · rw [h.mode_eq next hnextMem]
      rfl
    · rw [hop_eq_greedy h carrier hme hdest, hnext]
      simp [hback]

/-- If the way from the sender ends, the frame is delivered. -/
theorem deliveredOnce_of_walk {me dest channel : String} {path : List String} {body : Value}
    {id : UInt64} {seen : String → List (String × UInt64)} (hsize : members.length ≤ 32)
    (hme : me ∈ members) (hdest : dest ∈ members) (hne : me ≠ dest)
    (hchannel : channel ≠ relayChannel) (hid : id ≠ 0) (hfresh : ∀ m, (me, id) ∉ seen m)
    (hwalk : Walk (mesh.greedy P dest) dest me path) :
    DeliveredOnce P mesh (mesh.afterSend P seen me dest channel body id) dest
      (me, channel, body) (TopologyMode.ring n).floodTtl.toNat := by
  have hnodup := hwalk.nodup
  have hmem : ∀ x ∈ path, x ∈ members :=
    hwalk.forall_mem (fun x y hx hy ↦ mem_of_greedy h hx hdest hy) hme
  have hlength : (me :: path).length ≤ members.length :=
    (hnodup.subperm (fun x hx ↦ by
      rcases List.mem_cons.mp hx with rfl | hx
      · exact hme
      · exact hmem x hx)).length_le
  cases path with
  | nil => exact absurd hwalk hne
  | cons first rest =>
    obtain ⟨-, hfirst, hrest⟩ := hwalk
    have hfirstMem := hmem first List.mem_cons_self
    have hfind : (nextHops P (mesh.mode me) me dest (mesh.connected me)).find?
        (mesh.accepts me) = some first := by
      have haccepts := h.accepts me hme first (connected_of_greedy h hme hdest hfirst)
      simp only [RoutedMesh.greedy] at hfirst
      cases hhops : nextHops P (mesh.mode me) me dest (mesh.connected me) with
      | nil => simp [hhops] at hfirst
      | cons x xs =>
        rw [hhops, List.head?_cons, Option.some.injEq] at hfirst
        rw [hfirst, List.find?_cons_of_pos haccepts]
    rw [← h.mode_eq me hme]
    refine deliveredOnce_of_route (h.names me hme).1 (h.names dest hdest).1 hchannel hid hfresh
      hfind (route_of_walk h hfirstMem hdest hrest hnodup) hnodup ?_
    rw [h.mode_eq me hme]
    simp only [List.length_cons] at hlength
    exact Nat.le_trans (by omega : rest.length + 1 ≤ 31) (by decide : 31 ≤ 32)

/-! ### What is delivered came along the way -/

omit h in
variable (P mesh) in
/-- A hop on the way to a destination. -/
def Leads (dest a b : String) : Prop := a ≠ dest ∧ mesh.greedy P dest a = some b

omit h in
variable (P mesh members) in
/-- All copies are for members that hops lead to, and so is what the destination has. -/
structure Following (f : RoutedFrame) (s : Net String Value Station) : Prop where
  copies : ∀ l ∈ s.flight, (∃ ttl, l.body = f.copy ttl) ∧ l.target ∈ members ∧
    Relation.ReflTransGen (Leads P mesh f.dst) f.origin l.target
  delivered : (s.node f.dst).delivered ≠ [] →
    Relation.ReflTransGen (Leads P mesh f.dst) f.origin f.dst

/-- An arrival keeps it so. -/
theorem Following.arrive {f : RoutedFrame} (hdest : f.dst ∈ members) {s : Net String Value Station}
    {before after : List (Letter String Value)} {l : Letter String Value}
    (hflight : s.flight = before ++ l :: after) (hs : Following P mesh members f s) :
    Following P mesh members f (s.arrive (mesh.receive P) before l after) := by
  have hdst : f.dst ≠ "" := (h.names f.dst hdest).1
  obtain ⟨⟨ttl, hbody⟩, hmem, hleads⟩ := hs.copies l (by simp [hflight])
  have hothers : ∀ x ∈ before ++ after, (∃ ttl, x.body = f.copy ttl) ∧ x.target ∈ members ∧
      Relation.ReflTransGen (Leads P mesh f.dst) f.origin x.target := by
    intro x hx
    refine hs.copies x ?_
    rw [hflight, List.mem_append, List.mem_cons]
    exact (List.mem_append.mp hx).imp id .inr
  by_cases hseen : f.key ∈ (s.node l.target).seen
  · have hreceive : mesh.receive P l.target (s.node l.target) l.source l.body =
        (s.node l.target, []) := by rw [hbody]; exact receive_copy_of_mem hseen
    refine ⟨fun x hx ↦ hothers x ?_, fun hdelivered ↦ hs.delivered ?_⟩
    · simpa [Net.arrive, hreceive, letters] using hx
    · simpa [Net.arrive, hreceive] using hdelivered
  · have hgate : mesh.Gate l.target l.source f := .inr (by rw [h.mode_eq _ hmem]; rfl)
    have hreceive : mesh.receive P l.target (s.node l.target) l.source (f.copy ttl) = _ :=
      receive_copy_of_notMem hgate hseen
    rw [← hbody] at hreceive
    refine ⟨fun x hx ↦ ?_, fun hdelivered ↦ ?_⟩
    · simp only [Net.arrive, hreceive, letters, List.map_map, List.mem_append, List.mem_map] at hx
      rcases hx with hx | ⟨next, hnext, rfl⟩
      · exact hothers x (List.mem_append.mpr hx)
      · -- What a member on the way sends on goes along the way.
        simp only [RoutedMesh.targets] at hnext
        split at hnext
        · exact absurd hnext List.not_mem_nil
        · next hends =>
          rw [Option.mem_toList, hop_eq_greedy h _ hmem hdest,
            Option.filter_eq_some_iff] at hnext
          have hne : l.target ≠ f.dst := fun heq ↦ hends (.inl ⟨hdst, heq.symm⟩)
          exact ⟨⟨ttl - 1, rfl⟩, mem_of_greedy h hmem hdest hnext.1, hleads.tail ⟨hne, hnext.1⟩⟩
    · by_cases hm : f.dst = l.target
      · rw [← hm] at hleads
        exact hleads
      · refine hs.delivered ?_
        simpa [Net.arrive, Function.update_of_ne hm] using hdelivered

/-- A frame that was sent is on the way. -/
theorem following_afterSend {f : RoutedFrame} (seen : String → List (String × UInt64))
    (hme : f.origin ∈ members) (hdest : f.dst ∈ members) (hne : f.origin ≠ f.dst) :
    Following P mesh members f
      (mesh.afterSend P seen f.origin f.dst f.channel f.body f.id) := by
  constructor
  · intro l hl
    rw [flight_afterSend, Option.mem_toList, Option.map_eq_some_iff] at hl
    obtain ⟨first, hfind, rfl⟩ := hl
    have hfirst := greedy_of_find h hme hfind
    exact ⟨⟨(mesh.mode f.origin).floodTtl, by rw [RoutedFrame.copy]⟩,
      mem_of_greedy h hme hdest hfirst, .single ⟨hne, hfirst⟩⟩
  · intro hsome
    exact absurd (node_afterSend P mesh seen f.origin f.dst f.channel f.body f.id f.dst).1 hsome

/-- What the destination gets of a frame, it gets along the way from the sender. -/
theorem exists_walk_of_delivered {f : RoutedFrame} {seen : String → List (String × UInt64)}
    (hme : f.origin ∈ members) (hdest : f.dst ∈ members) (hne : f.origin ≠ f.dst)
    {is : List Nat} (hdelivered : ((run (deliver (mesh.receive P))
      (mesh.afterSend P seen f.origin f.dst f.channel f.body f.id) is).node
        f.dst).delivered ≠ []) :
    ∃ path, Walk (mesh.greedy P f.dst) f.dst f.origin path := by
  have hstart := following_afterSend h seen hme hdest hne
  have hend := run_arrivals (fun s before l after hflight hs ↦
    Following.arrive h hdest hflight hs) hstart is
  exact exists_walk (hend.delivered hdelivered)

omit h in
/-- A frame on the relay's own channel is not unwrapped by anybody. -/
theorem delivered_of_relayChannel {me dest : String} {body : Value} {id : UInt64}
    {seen : String → List (String × UInt64)} (is : List Nat) (m : String) :
    ((run (deliver (mesh.receive P))
      (mesh.afterSend P seen me dest relayChannel body id) is).node m).delivered = [] := by
  have hidle : ∀ (ttl : UInt8) (at_ : String) (st : Station) (carrier : String),
      mesh.receive P at_ st carrier
        (RelayEnvelope.encode ⟨dest, me, wrap relayChannel body ttl id⟩) = (st, []) := by
    intro ttl at_ st carrier
    have hparse : parseWrapper (wrap relayChannel body ttl id) = none := by
      simp [parseWrapper, wrap, Value.get?, Value.asStr]
    simp [RoutedMesh.receive, onRelayFrame, RoutedMesh.env, hparse]
  have hend : (∀ l ∈ (run (deliver (mesh.receive P))
      (mesh.afterSend P seen me dest relayChannel body id) is).flight, ∃ ttl,
        l.body = RelayEnvelope.encode ⟨dest, me, wrap relayChannel body ttl id⟩) ∧
      ∀ m, ((run (deliver (mesh.receive P))
        (mesh.afterSend P seen me dest relayChannel body id) is).node m).delivered = [] := by
    refine run_arrivals (I := fun (s : Net String Value Station) ↦ (∀ l ∈ s.flight, ∃ ttl,
      l.body = RelayEnvelope.encode ⟨dest, me, wrap relayChannel body ttl id⟩) ∧
      ∀ m, (s.node m).delivered = []) ?_ ⟨fun l hl ↦ ?_, fun m ↦
        (node_afterSend P mesh seen me dest relayChannel body id m).1⟩ is
    · rintro s before l after hflight ⟨hcopies, hnone⟩
      obtain ⟨ttl, hbody⟩ := hcopies l (by simp [hflight])
      refine ⟨fun x hx ↦ hcopies x ?_, fun m ↦ ?_⟩
      · simp only [Net.arrive, hbody, hidle, letters, List.map_nil, List.append_nil,
          List.mem_append] at hx
        rw [hflight, List.mem_append, List.mem_cons]
        exact hx.imp (fun hx ↦ hx) .inr
      · by_cases hm : m = l.target
        · subst hm
          simp [Net.arrive, hbody, hidle, hnone]
        · simp [Net.arrive, Function.update_of_ne hm, hnone]
    · rw [flight_afterSend, Option.mem_toList, Option.map_eq_some_iff] at hl
      obtain ⟨first, -, rfl⟩ := hl
      exact ⟨_, rfl⟩
  exact hend.2 m

end Ring

/-! ### Any two members -/

/-- On a ring of at most 32 members, whatever the order in which each lists its connections, a
frame is delivered to its destination, once and within the hop budget, exactly when it is on an
application channel and nearest hops lead from the sender to the destination. -/
theorem ring_routing_delivers_iff (P : Primitives) (n : Option UInt32) (members : List String)
    (mesh : RoutedMesh) (h : Shaped P (.ring n) members mesh) (hsize : members.length ≤ 32)
    (me dest : String) (hme : me ∈ members) (hdest : dest ∈ members) (hne : me ≠ dest)
    (channel : String) (body : Value) (random : UInt64)
    (seen : String → List (String × UInt64))
    (hfresh : ∀ m, (me, freshFrameId random) ∉ seen m) :
    DeliveredOnce P mesh (mesh.afterSend P seen me dest channel body (freshFrameId random)) dest
        (me, channel, body) (TopologyMode.ring n).floodTtl.toNat ↔
      channel ≠ relayChannel ∧ Relation.ReflTransGen (mesh.NearestHop dest) me dest := by
  rw [← exists_walk_iff h hme hdest]
  have hid := freshFrameId_ne_zero random
  constructor
  · intro honce
    have hdone := honce.finished []
    have hdelivered := honce.delivered
      ([] ++ List.replicate (TopologyMode.ring n).floodTtl.toNat 0)
    rw [hdone] at hdelivered
    simp only [List.isEmpty_nil, ↓reduceIte] at hdelivered
    have hchannel : channel ≠ relayChannel := by
      rintro rfl
      rw [delivered_of_relayChannel] at hdelivered
      exact absurd hdelivered (List.cons_ne_nil _ _).symm
    obtain ⟨f, hf⟩ : ∃ f : RoutedFrame,
      f = ⟨me, dest, channel, body, freshFrameId random, (h.names me hme).1, hchannel, hid⟩ :=
      ⟨_, rfl⟩
    have hsome : ((run (deliver (mesh.receive P))
        (mesh.afterSend P seen f.origin f.dst f.channel f.body f.id)
        ([] ++ List.replicate (TopologyMode.ring n).floodTtl.toNat 0)).node f.dst).delivered ≠
          [] := by
      rw [hf, hdelivered]
      exact List.cons_ne_nil _ _
    obtain ⟨path, hpath⟩ := exists_walk_of_delivered h (by rw [hf]; exact hme)
      (by rw [hf]; exact hdest) (by rw [hf]; exact hne) hsome
    rw [hf] at hpath
    exact ⟨hchannel, path, hpath⟩
  · rintro ⟨hchannel, path, hwalk⟩
    exact deliveredOnce_of_walk h hsize hme hdest hne hchannel hid hfresh hwalk

/-- Six members, each connected to its two neighbours. -/
def hexagon : List String := ["a", "b", "c", "d", "e", "f"]

theorem shaped_hexagon :
    Shaped seeded (.ring (some 2)) hexagon (.ofMembers seeded (.ring (some 2)) hexagon) :=
  shaped_ofMembers seeded _ (by decide) (by decide +kernel)

/-- From `e` the way to `c` goes over `d`. -/
theorem hexagon_e_to_c :
    DeliveredOnce seeded (.ofMembers seeded (.ring (some 2)) hexagon)
      (RoutedMesh.afterSend seeded (.ofMembers seeded (.ring (some 2)) hexagon) (fun _ ↦ [])
        "e" "c" "chat" .null (freshFrameId 6)) "c" ("e", "chat", .null)
      (TopologyMode.ring (some 2)).floodTtl.toNat :=
  (ring_routing_delivers_iff seeded (some 2) hexagon _ shaped_hexagon (by decide) "e" "c"
    (by decide) (by decide) (by decide) "chat" .null 6 (fun _ ↦ [])
    (fun _ ↦ List.not_mem_nil)).mpr
    ⟨by decide, (exists_walk_iff shaped_hexagon (by decide) (by decide)).mp
      ⟨["d", "c"], by decide, by decide +kernel, by decide, by decide +kernel, rfl⟩⟩

/-- From `a` the way to `d` goes to `b`, whose hop is `a`: the frame is never delivered. -/
theorem hexagon_a_to_d_stuck :
    ¬ ∀ (P : Primitives) (n : Option UInt32) (members : List String) (mesh : RoutedMesh),
      Shaped P (.ring n) members mesh → members.length ≤ 32 →
      ∀ (me dest : String), me ∈ members → dest ∈ members → me ≠ dest →
      ∀ (channel : String) (body : Value) (random : UInt64)
        (seen : String → List (String × UInt64)),
      (∀ m, (me, freshFrameId random) ∉ seen m) →
      DeliveredOnce P mesh (mesh.afterSend P seen me dest channel body (freshFrameId random)) dest
        (me, channel, body) (TopologyMode.ring n).floodTtl.toNat := by
  intro h
  have hclaim := (h seeded (some 2) hexagon _ shaped_hexagon (by decide) "a" "d" (by decide)
    (by decide) (by decide) "chat" .null 6 (fun _ ↦ [])
    (fun _ ↦ List.not_mem_nil)).delivered [0]
  have hlength := congrArg List.length hclaim
  revert hlength
  decide +kernel

end MyOwnMesh
