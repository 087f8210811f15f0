import Mathlib.Logic.Function.Basic
import MyOwnMesh.Lib.Replay

/-!
# Which client serves a method

The method claims of `ipc/clients.rs:187–303`, the requests `RpcRegister` and `RpcUnregister` of
`control.rs:1361–1407`, and what a call of a peer comes to: the handler that the engine has under
the method (`rpc.rs:153–185`, `engine/mod.rs:2868–2965`) looks up the client of the method under the
name that its network had in the request that installed it (`ipc/bridge.rs:40–60, 96–116`). The
client of each method is in one table; every client keeps a list of its own methods as well, so that
they can be given up when it disconnects.

A step is one access to a table: a claim enters the list first and the table then; at last it takes
the method from the list of the client that it displaces and installs the handler, here in any
order. A handler stays when the claim is given up. Networks are numbered; the names under which they
are found stay what they are.
-/

namespace MyOwnMesh.MethodClaims

open Lib Lib.Replay

/-- `clients.rs:83`. -/
structure ClaimKey where
  network : String
  method : String
  deriving DecidableEq

/-- What a handler was installed with; `bridge.rs:40–46, 96–103`. -/
structure Handler where
  network : String
  streaming : Bool
  deriving DecidableEq

/-- What a request under way does next. -/
inductive Task where
  /-- The client and the network were found. -/
  | claim (client : Nat) (key : ClaimKey) (streaming : Bool)
  | insert (client : Nat) (key : ClaimKey) (streaming : Bool)
  /-- The client has lost the method to another one. -/
  | displace (client : Nat) (key : ClaimKey)
  | install (client : Nat) (key : ClaimKey) (streaming : Bool)
  | free (client : Nat) (key : ClaimKey)
  deriving DecidableEq

def Task.client : Task → Nat
  | .claim client _ _ | .insert client _ _ | .displace client _ | .install client _ _
  | .free client _ => client

def Task.key : Task → ClaimKey
  | .claim _ key _ | .insert _ key _ | .displace _ key | .install _ key _ | .free _ key => key

/-- The request claims a method. -/
def Task.isClaim : Task → Bool
  | .claim _ _ _ | .insert _ _ _ => true
  | .displace _ _ | .install _ _ _ | .free _ _ => false

/-- The request goes on to install a handler. -/
def Task.installs : Task → Bool
  | .claim _ _ _ | .insert _ _ _ | .install _ _ _ => true
  | .displace _ _ | .free _ _ => false

/-- `clients.rs:157–174`, as far as methods are concerned, the handlers of every network, and the
requests under way. -/
structure Registry where
  nextId : Nat
  clients : Nat → Bool
  methodClaims : Nat → List ClaimKey
  handlerClaims : ClaimKey → Option Nat
  handlers : Nat → String → Option Handler
  tasks : List Task

inductive Op where
  | register
  | unregister (client : Nat)
  | rpcRegister (client : Nat) (key : ClaimKey) (streaming : Bool)
  | rpcUnregister (client : Nat) (key : ClaimKey)
  | proceed (task : Task)

/-- The network under each name; `registry.rs:115–117`. -/
abbrev Networks := String → Option Nat

namespace Registry

def new : Registry := ⟨0, fun _ ↦ false, fun _ ↦ [], fun _ ↦ none, fun _ _ ↦ none, []⟩

variable (r : Registry)

/-- A client that is connected gets another list. -/
def relist (client : Nat) (f : List ClaimKey → List ClaimKey) : Registry :=
  if r.clients client then
    { r with methodClaims := Function.update r.methodClaims client (f (r.methodClaims client)) }
  else r

/-- `clients.rs:190–203`. -/
def register : Registry :=
  { r with
    nextId := r.nextId + 1
    clients := Function.update r.clients r.nextId true
    methodClaims := Function.update r.methodClaims r.nextId [] }

/-- The methods in the list are given up one by one; `clients.rs:215–231`. -/
def unregister (client : Nat) : Registry :=
  if r.clients client then
    { r with
      clients := Function.update r.clients client false
      tasks := r.tasks ++ (r.methodClaims client).map (.free client) }
  else r

/-- `Rpc::serve` and `Rpc::serve_stream`; `rpc.rs:153–185`. -/
def serve (d : Nat) (method : String) (handler : Handler) : Registry :=
  { r with handlers :=
      Function.update r.handlers d (Function.update (r.handlers d) method (some handler)) }

/-- `claim_method`, `release_method` and `install_handler_for_mode`; `clients.rs:265–299`,
`bridge.rs:491–502`. -/
def proceed (networks : Networks) : Task → Registry
  | .claim client key streaming =>
    let r := r.relist client fun keys ↦ if key ∈ keys then keys else key :: keys
    { r with tasks := .insert client key streaming :: r.tasks }
  | .insert client key streaming =>
    let tasks := .install client key streaming :: r.tasks
    let tasks :=
      match r.handlerClaims key with
      | some prev => if prev = client then tasks else .displace prev key :: tasks
      | none => tasks
    { r with handlerClaims := Function.update r.handlerClaims key (some client), tasks := tasks }
  | .displace client key => r.relist client (·.filter (· ≠ key))
  | .install _ key streaming =>
    match networks key.network with
    | some d => r.serve d key.method ⟨key.network, streaming⟩
    | none => r
  | .free client key =>
    if r.handlerClaims key = some client then
      { r with handlerClaims := Function.update r.handlerClaims key none }
    else r

end Registry

def step (networks : Networks) (r : Registry) : Op → Registry
  | .register => r.register
  | .unregister client => r.unregister client
  | .rpcRegister client key streaming =>
    if r.clients client && (networks key.network).isSome then
      { r with tasks := .claim client key streaming :: r.tasks }
    else r
  | .rpcUnregister client key =>
    let r := r.relist client (·.filter (· ≠ key))
    { r with tasks := .free client key :: r.tasks }
  | .proceed task =>
    if task ∈ r.tasks then { r with tasks := r.tasks.erase task }.proceed networks task else r

/-- The client that a handler hands its call to; `bridge.rs:52–60, 108–116`. -/
def Registry.owner (r : Registry) (handler : Handler) (method : String) : Except String Nat :=
  match r.handlerClaims ⟨handler.network, method⟩ with
  | none =>
    .error (if handler.streaming then
      "no IPC client holds streaming method '" ++ method ++ "' on '" ++ handler.network ++ "'"
    else "no IPC client holds method '" ++ method ++ "' on '" ++ handler.network ++ "'")
  | some client =>
    if r.clients client then .ok client else .error "handler owner client disconnected"

/-- The client that a call of a peer is handed to; `mod.rs:2886–2925`. -/
def Registry.lookUp (r : Registry) (d : Nat) (method : String) : Except String Nat :=
  match r.handlers d method with
  | none => .error ("no handler for '" ++ method ++ "'")
  | some handler => r.owner handler method

/-- The requests of one client for one method come one after the other, a client does not disconnect
while it claims a method, and it is not displaced from one that it claims anew. -/
def Steady (r : Registry) : Op → Prop
  | .register => True
  | .unregister client => ∀ task ∈ r.tasks, task.isClaim = true → task.client ≠ client
  | .rpcRegister client key _ | .rpcUnregister client key =>
    ∀ task ∈ r.tasks, task.key = key → task.client ≠ client
  | .proceed (.insert client key _) => ∀ prev ∈ r.handlerClaims key, prev ≠ client →
      ∀ task ∈ r.tasks, task.isClaim = true → task.key = key → task.client ≠ prev
  | .proceed _ => True

/-- The two tables agree up to the requests under way. -/
structure Agrees (r : Registry) : Prop where
  fresh : ∀ c, r.clients c = true → c < r.nextId
  claiming : ∀ c key b, .claim c key b ∈ r.tasks → r.clients c = true
  inserting : ∀ c key b, .insert c key b ∈ r.tasks → r.clients c = true ∧ key ∈ r.methodClaims c
  owned : ∀ c key, r.handlerClaims key = some c →
    (r.clients c = true ∧ key ∈ r.methodClaims c) ∨ .free c key ∈ r.tasks
  listed : ∀ c key, r.clients c = true → key ∈ r.methodClaims c →
    r.handlerClaims key = some c ∨ (∃ b, .insert c key b ∈ r.tasks) ∨ .displace c key ∈ r.tasks
  displaced : ∀ c key, .displace c key ∈ r.tasks → r.handlerClaims key ≠ some c
  freed : ∀ c key, .free c key ∈ r.tasks → r.clients c = true → key ∉ r.methodClaims c
  apart : ∀ c key, .displace c key ∈ r.tasks ∨ .free c key ∈ r.tasks →
    ∀ b, .claim c key b ∉ r.tasks ∧ .insert c key b ∉ r.tasks

section Steps

variable {networks : Networks} {r : Registry} {client c : Nat} {key k : ClaimKey}
  {streaming : Bool} {f : List ClaimKey → List ClaimKey}

@[simp] theorem relist_nextId : (r.relist client f).nextId = r.nextId := by
  unfold Registry.relist
  split <;> rfl

@[simp] theorem relist_clients : (r.relist client f).clients = r.clients := by
  unfold Registry.relist
  split <;> rfl

@[simp] theorem relist_handlerClaims : (r.relist client f).handlerClaims = r.handlerClaims := by
  unfold Registry.relist
  split <;> rfl

@[simp] theorem relist_tasks : (r.relist client f).tasks = r.tasks := by
  unfold Registry.relist
  split <;> rfl

@[simp] theorem relist_handlers : (r.relist client f).handlers = r.handlers := by
  unfold Registry.relist
  split <;> rfl

theorem methodClaims_relist (h : r.clients c = true) :
    (r.relist client f).methodClaims c =
      if c = client then f (r.methodClaims c) else r.methodClaims c := by
  unfold Registry.relist
  by_cases heq : c = client
  · subst heq
    rw [if_pos h, if_pos rfl]
    exact Function.update_self _ _ _
  · rw [if_neg heq]
    split
    · exact Function.update_of_ne heq _ _
    · rfl

/-- A method leaves the list of one client. -/
theorem mem_relist_filter (h : r.clients c = true) :
    k ∈ (r.relist client (·.filter (· ≠ key))).methodClaims c ↔
      k ∈ r.methodClaims c ∧ ¬(c = client ∧ k = key) := by
  rw [methodClaims_relist h]
  by_cases heq : c = client <;> simp [heq]

/-- A method enters the list of one client. -/
theorem mem_relist_insert (h : r.clients c = true) :
    k ∈ (r.relist client fun keys ↦ if key ∈ keys then keys else key :: keys).methodClaims c ↔
      k ∈ r.methodClaims c ∨ (c = client ∧ k = key) := by
  rw [methodClaims_relist h]
  by_cases heq : c = client
  · rw [if_pos heq]
    split
    · constructor
      · exact .inl
      · rintro (hk | ⟨-, rfl⟩) <;> assumption
    · rw [List.mem_cons, or_comm]
      simp [heq]
  · simp [heq]

/-- A request that goes on leaves the others where they are. -/
theorem mem_erase_tasks (r : Registry) (done : Task) :
    (∀ task ∈ r.tasks.erase done, task ∈ r.tasks) ∧
      ∀ task ∈ r.tasks, task ≠ done → task ∈ r.tasks.erase done :=
  ⟨fun _ ↦ List.mem_of_mem_erase, fun _ hmem hne ↦ (List.mem_erase_of_ne hne).mpr hmem⟩

theorem Agrees.register (h : Agrees r) : Agrees r.register := by
  have hold : ∀ c, r.clients c = true → c ≠ r.nextId := fun c hc ↦ Nat.ne_of_lt (h.fresh c hc)
  have hclients : ∀ c, r.clients c = true → r.register.clients c = true := fun c hc ↦
    (Function.update_of_ne (hold c hc) _ _).trans hc
  have hlists : ∀ c, r.clients c = true → r.register.methodClaims c = r.methodClaims c := fun c hc ↦
    Function.update_of_ne (hold c hc) _ _
  -- the list of the new client is empty
  have hnew : ∀ c k, r.register.clients c = true → k ∈ r.register.methodClaims c →
      r.clients c = true ∧ k ∈ r.methodClaims c := by
    intro c k hc hk
    by_cases heq : c = r.nextId
    · subst heq
      simp [Registry.register] at hk
    · simp only [Registry.register, Function.update_of_ne heq] at hc hk
      exact ⟨hc, hk⟩
  refine ⟨?_, ?_, ?_, ?_, ?_, h.displaced, ?_, h.apart⟩
  · intro c hc
    by_cases heq : c = r.nextId
    · exact heq ▸ Nat.lt_succ_self _
    · simp only [Registry.register, Function.update_of_ne heq] at hc
      exact Nat.lt_succ_of_lt (h.fresh c hc)
  · exact fun c k b hk ↦ hclients c (h.claiming c k b hk)
  · intro c k b hk
    obtain ⟨hc, hmem⟩ := h.inserting c k b hk
    exact ⟨hclients c hc, hlists c hc ▸ hmem⟩
  · exact fun c k hk ↦ (h.owned c k hk).imp_left fun ⟨hc, hmem⟩ ↦
      ⟨hclients c hc, hlists c hc ▸ hmem⟩
  · exact fun c k hc hk ↦ h.listed c k (hnew c k hc hk).1 (hnew c k hc hk).2
  · intro c k hk hc hmem
    obtain ⟨hc, hmem⟩ := hnew c k hc hmem
    exact h.freed c k hk hc hmem

theorem Agrees.unregister (h : Agrees r) (hsteady : Steady r (.unregister client)) :
    Agrees (r.unregister client) := by
  unfold Registry.unregister
  split
  case isFalse => exact h
  case isTrue =>
    have htasks : ∀ task, task.isClaim = true ∨ (∃ c k, task = .displace c k) →
        task ∈ r.tasks ++ (r.methodClaims client).map (Task.free client) → task ∈ r.tasks := by
      intro task hkind hmem
      rcases List.mem_append.mp hmem with hmem | hmem
      · exact hmem
      · obtain ⟨k, -, rfl⟩ := List.mem_map.mp hmem
        rcases hkind with hkind | ⟨c, k, hkind⟩ <;> cases hkind
    have hclients : ∀ c, c ≠ client → Function.update r.clients client false c = r.clients c :=
      fun c hc ↦ Function.update_of_ne hc _ _
    have hgone : ∀ c, Function.update r.clients client false c = true →
        c ≠ client ∧ r.clients c = true := by
      intro c hc
      by_cases heq : c = client
      · rw [heq, Function.update_self] at hc
        exact absurd hc Bool.false_ne_true
      · exact ⟨heq, (hclients c heq).symm.trans hc⟩
    refine ⟨?_, ?_, ?_, ?_, ?_, ?_, ?_, ?_⟩
    · exact fun c hc ↦ h.fresh c (hgone c hc).2
    · intro c k b hk
      have hk := htasks _ (.inl rfl) hk
      exact (hclients c (hsteady _ hk rfl)).trans (h.claiming c k b hk)
    · intro c k b hk
      have hk := htasks _ (.inl rfl) hk
      obtain ⟨hc, hmem⟩ := h.inserting c k b hk
      exact ⟨(hclients c (hsteady _ hk rfl)).trans hc, hmem⟩
    · intro c k hk
      rcases h.owned c k hk with ⟨hc, hmem⟩ | hfree
      · by_cases heq : c = client
        · subst heq
          exact .inr (List.mem_append_right _ (List.mem_map_of_mem hmem))
        · exact .inl ⟨(hclients c heq).trans hc, hmem⟩
      · exact .inr (List.mem_append_left _ hfree)
    · intro c k hc hk
      exact (h.listed c k (hgone c hc).2 hk).imp_right
        (Or.imp (fun ⟨b, hi⟩ ↦ ⟨b, List.mem_append_left _ hi⟩) (List.mem_append_left _))
    · exact fun c k hk ↦ h.displaced c k (htasks _ (.inr ⟨c, k, rfl⟩) hk)
    · intro c k hk hc
      obtain ⟨hne, hc⟩ := hgone c hc
      rcases List.mem_append.mp hk with hk | hk
      · exact h.freed c k hk hc
      · obtain ⟨k', -, heq⟩ := List.mem_map.mp hk
        cases heq
        exact absurd rfl hne
    · intro c k hk b
      have hclaims : (Task.claim c k b ∉ r.tasks) ∧ Task.insert c k b ∉ r.tasks := by
        rcases hk with hk | hk
        · exact h.apart c k (.inl (htasks _ (.inr ⟨c, k, rfl⟩) hk)) b
        rcases List.mem_append.mp hk with hk | hk
        · exact h.apart c k (.inr hk) b
        · obtain ⟨k', -, heq⟩ := List.mem_map.mp hk
          cases heq
          exact ⟨fun hc ↦ hsteady _ hc rfl rfl, fun hc ↦ hsteady _ hc rfl rfl⟩
      exact ⟨fun hc ↦ hclaims.1 (htasks _ (.inl rfl) hc),
        fun hc ↦ hclaims.2 (htasks _ (.inl rfl) hc)⟩

theorem Agrees.rpcRegister (h : Agrees r) (hsteady : Steady r (.rpcRegister client key streaming)) :
    Agrees (MethodClaims.step networks r (.rpcRegister client key streaming)) := by
  simp only [MethodClaims.step]
  split
  case isFalse => exact h
  case isTrue hfound =>
    have hconnected : r.clients client = true := ((Bool.and_eq_true _ _).mp hfound).1
    refine ⟨h.fresh, ?_, ?_, ?_, ?_, ?_, ?_, ?_⟩
    · intro c k b hk
      rcases List.mem_cons.mp hk with heq | hk
      · cases heq
        exact hconnected
      · exact h.claiming c k b hk
    · exact fun c k b hk ↦ h.inserting c k b (by simpa using hk)
    · exact fun c k hk ↦ (h.owned c k hk).imp_right (List.mem_cons_of_mem _)
    · exact fun c k hc hk ↦ (h.listed c k hc hk).imp_right
        (Or.imp (fun ⟨b, hi⟩ ↦ ⟨b, List.mem_cons_of_mem _ hi⟩) (List.mem_cons_of_mem _))
    · exact fun c k hk ↦ h.displaced c k (by simpa using hk)
    · exact fun c k hk ↦ h.freed c k (by simpa using hk)
    · intro c k hk b
      have hk : Task.displace c k ∈ r.tasks ∨ Task.free c k ∈ r.tasks := by simpa using hk
      obtain ⟨hclaim, hinsert⟩ := h.apart c k hk b
      refine ⟨fun hc ↦ ?_, fun hc ↦ hinsert (by simpa using hc)⟩
      rcases List.mem_cons.mp hc with heq | hc
      · cases heq
        rcases hk with hk | hk
        · exact hsteady (.displace client key) hk rfl rfl
        · exact hsteady (.free client key) hk rfl rfl
      · exact hclaim hc

theorem Agrees.rpcUnregister (h : Agrees r) (hsteady : Steady r (.rpcUnregister client key)) :
    Agrees (MethodClaims.step networks r (.rpcUnregister client key)) := by
  simp only [MethodClaims.step]
  refine ⟨?_, ?_, ?_, ?_, ?_, ?_, ?_, ?_⟩ <;>
    simp only [relist_clients, relist_nextId, relist_handlerClaims, relist_tasks]
  · exact h.fresh
  · exact fun c k b hk ↦ h.claiming c k b (by simpa using hk)
  · intro c k b hk
    have hinsert : Task.insert c k b ∈ r.tasks := by simpa using hk
    obtain ⟨hc, hmem⟩ := h.inserting c k b hinsert
    refine ⟨hc, (mem_relist_filter hc).mpr ⟨hmem, ?_⟩⟩
    rintro ⟨rfl, rfl⟩
    exact hsteady (.insert c k b) hinsert rfl rfl
  · intro c k hk
    by_cases heq : c = client ∧ k = key
    · obtain ⟨rfl, rfl⟩ := heq
      exact .inr List.mem_cons_self
    · exact (h.owned c k hk).imp (fun ⟨hc, hmem⟩ ↦ ⟨hc, (mem_relist_filter hc).mpr ⟨hmem, heq⟩⟩)
        (List.mem_cons_of_mem _)
  · intro c k hc hk
    exact (h.listed c k hc ((mem_relist_filter hc).mp hk).1).imp_right
      (Or.imp (fun ⟨b, hi⟩ ↦ ⟨b, List.mem_cons_of_mem _ hi⟩) (List.mem_cons_of_mem _))
  · exact fun c k hk ↦ h.displaced c k (by simpa using hk)
  · intro c k hk hc hmem
    rw [mem_relist_filter hc] at hmem
    rcases List.mem_cons.mp hk with heq | hk
    · cases heq
      exact hmem.2 ⟨rfl, rfl⟩
    · exact h.freed c k hk hc hmem.1
  · intro c k hk b
    have hclaims : (Task.claim c k b ∉ r.tasks) ∧ Task.insert c k b ∉ r.tasks := by
      rcases hk with hk | hk
      · exact h.apart c k (.inl (by simpa using hk)) b
      rcases List.mem_cons.mp hk with heq | hk
      · cases heq
        exact ⟨fun hc ↦ hsteady _ hc rfl rfl, fun hc ↦ hsteady _ hc rfl rfl⟩
      · exact h.apart c k (.inr hk) b
    exact ⟨fun hc ↦ hclaims.1 (by simpa using hc), fun hc ↦ hclaims.2 (by simpa using hc)⟩

theorem Agrees.claim (h : Agrees r) (htask : .claim client key streaming ∈ r.tasks) :
    Agrees ({ r with tasks := r.tasks.erase (.claim client key streaming) }.proceed networks
      (.claim client key streaming)) := by
  obtain ⟨hold, hkeep⟩ := mem_erase_tasks r (.claim client key streaming)
  simp only [Registry.proceed]
  refine ⟨?_, ?_, ?_, ?_, ?_, ?_, ?_, ?_⟩ <;>
    simp only [relist_clients, relist_nextId, relist_handlerClaims, relist_tasks]
  · exact h.fresh
  · exact fun c k b hk ↦ h.claiming c k b (hold _ (by simpa using hk))
  · intro c k b hk
    rcases List.mem_cons.mp hk with heq | hk
    · cases heq
      have hc := h.claiming client key _ htask
      exact ⟨hc, (mem_relist_insert (by exact hc)).mpr (.inr ⟨rfl, rfl⟩)⟩
    · obtain ⟨hc, hmem⟩ := h.inserting c k b (hold _ hk)
      exact ⟨hc, (mem_relist_insert (by exact hc)).mpr (.inl hmem)⟩
  · intro c k hk
    rcases h.owned c k hk with ⟨hc, hmem⟩ | hfree
    · exact .inl ⟨hc, (mem_relist_insert (by exact hc)).mpr (.inl hmem)⟩
    · exact .inr (List.mem_cons_of_mem _ (hkeep _ hfree (by simp)))
  · intro c k hc hk
    rcases (mem_relist_insert (by exact hc)).mp hk with hk | ⟨rfl, rfl⟩
    · exact (h.listed c k hc hk).imp_right (Or.imp
        (fun ⟨b, hi⟩ ↦ ⟨b, List.mem_cons_of_mem _ (hkeep _ hi (by simp))⟩)
        fun hd ↦ List.mem_cons_of_mem _ (hkeep _ hd (by simp)))
    · exact .inr (.inl ⟨_, List.mem_cons_self⟩)
  · exact fun c k hk ↦ h.displaced c k (hold _ (by simpa using hk))
  · intro c k hk hc hmem
    have hfree : Task.free c k ∈ r.tasks := hold _ (by simpa using hk)
    rcases (mem_relist_insert (by exact hc)).mp hmem with hmem | ⟨rfl, rfl⟩
    · exact h.freed c k hfree hc hmem
    · exact (h.apart c k (.inr hfree) _).1 htask
  · intro c k hk b
    have hk : Task.displace c k ∈ r.tasks ∨ Task.free c k ∈ r.tasks :=
      hk.imp (fun hk ↦ hold _ (by simpa using hk)) fun hk ↦ hold _ (by simpa using hk)
    refine ⟨fun hc ↦ (h.apart c k hk b).1 (hold _ (by simpa using hc)), fun hc ↦ ?_⟩
    rcases List.mem_cons.mp hc with heq | hc
    · cases heq
      exact (h.apart client key hk _).1 htask
    · exact (h.apart c k hk b).2 (hold _ hc)

theorem Agrees.insert (h : Agrees r) (hsteady : Steady r (.proceed (.insert client key streaming)))
    (htask : .insert client key streaming ∈ r.tasks) :
    Agrees ({ r with tasks := r.tasks.erase (.insert client key streaming) }.proceed networks
      (.insert client key streaming)) := by
  simp only [Registry.proceed]
  generalize hrest : Task.install client key streaming ::
    r.tasks.erase (.insert client key streaming) = rest
  generalize htasks : (match r.handlerClaims key with
    | some prev => if prev = client then rest else .displace prev key :: rest
    | none => rest) = tasks
  have hrest_old : ∀ task ∈ rest, task.installs = false ∨ task.isClaim = true →
      task ∈ r.tasks := by
    intro task hmem hkind
    subst hrest
    rcases List.mem_cons.mp hmem with rfl | hmem
    · simp [Task.installs, Task.isClaim] at hkind
    · exact List.mem_of_mem_erase hmem
  have hnew : ∀ task ∈ tasks, task.installs = false ∨ task.isClaim = true → task ∈ r.tasks ∨
      ∃ prev, r.handlerClaims key = some prev ∧ prev ≠ client ∧ task = .displace prev key := by
    intro task hmem hkind
    subst htasks
    split at hmem
    next prev hprev =>
      split at hmem
      next => exact .inl (hrest_old task hmem hkind)
      next hne =>
        rcases List.mem_cons.mp hmem with rfl | hmem
        · exact .inr ⟨prev, hprev, hne, rfl⟩
        · exact .inl (hrest_old task hmem hkind)
    next => exact .inl (hrest_old task hmem hkind)
  have hkeep : ∀ task ∈ r.tasks, task ≠ .insert client key streaming → task ∈ tasks := by
    intro task hmem hne
    have hmem : task ∈ rest := hrest ▸ List.mem_cons_of_mem _ ((List.mem_erase_of_ne hne).mpr hmem)
    subst htasks
    split
    · split
      · exact hmem
      · exact List.mem_cons_of_mem _ hmem
    · exact hmem
  have hdisplace : ∀ prev, r.handlerClaims key = some prev → prev ≠ client →
      .displace prev key ∈ tasks := by
    intro prev hprev hne
    subst htasks
    rw [hprev]
    dsimp only
    rw [if_neg hne]
    exact List.mem_cons_self
  have hold : ∀ task ∈ tasks, task.installs = false ∨ task.isClaim = true →
      (∀ prev, task ≠ .displace prev key) → task ∈ r.tasks := by
    intro task hmem hkind hne
    rcases hnew task hmem hkind with hmem | ⟨prev, -, -, rfl⟩
    · exact hmem
    · exact absurd rfl (hne prev)
  obtain ⟨hconnected, hlisted⟩ := h.inserting client key _ htask
  refine ⟨h.fresh, ?_, ?_, ?_, ?_, ?_, ?_, ?_⟩
  · exact fun c k b hk ↦ h.claiming c k b (hold _ hk (.inr rfl) (by simp))
  · exact fun c k b hk ↦ h.inserting c k b (hold _ hk (.inr rfl) (by simp))
  · intro c k hk
    dsimp only at hk
    by_cases heq : k = key
    · subst heq
      rw [Function.update_self, Option.some.injEq] at hk
      subst hk
      exact .inl ⟨hconnected, hlisted⟩
    · rw [Function.update_of_ne heq] at hk
      exact (h.owned c k hk).imp_right fun hfree ↦ hkeep _ hfree (by simp)
  · intro c k hc hk
    dsimp only
    by_cases heq : k = key
    · subst heq
      by_cases hclient : c = client
      · exact .inl (by rw [Function.update_self, hclient])
      · rcases h.listed c k hc hk with howner | ⟨b, hinsert⟩ | hdisplaced
        · exact .inr (.inr (hdisplace c howner hclient))
        · exact .inr (.inl ⟨b, hkeep _ hinsert (by simp [hclient])⟩)
        · exact .inr (.inr (hkeep _ hdisplaced (by simp)))
    · rw [Function.update_of_ne heq]
      exact (h.listed c k hc hk).imp_right
        (Or.imp (fun ⟨b, hi⟩ ↦ ⟨b, hkeep _ hi (by simp [heq])⟩) fun hd ↦ hkeep _ hd (by simp))
  · intro c k hk
    dsimp only
    rcases hnew _ hk (.inl rfl) with hmem | ⟨prev, -, hne, hdisplaced⟩
    · by_cases heq : k = key
      · subst heq
        rw [Function.update_self]
        intro hsame
        obtain rfl : client = c := Option.some.inj hsame
        exact (h.apart client k (.inl hmem) _).2 htask
      · rw [Function.update_of_ne heq]
        exact h.displaced c k hmem
    · cases hdisplaced
      rw [Function.update_self]
      exact fun hsame ↦ hne (Option.some.inj hsame).symm
  · exact fun c k hk ↦ h.freed c k (hold _ hk (.inl rfl) (by simp))
  · intro c k hk b
    have hclaims : (Task.claim c k b ∉ r.tasks) ∧ Task.insert c k b ∉ r.tasks := by
      rcases hk with hk | hk
      · rcases hnew _ hk (.inl rfl) with hk | ⟨prev, hprev, hne, hdisplaced⟩
        · exact h.apart c k (.inl hk) b
        · cases hdisplaced
          exact ⟨fun hc ↦ hsteady c hprev hne _ hc rfl rfl rfl,
            fun hc ↦ hsteady c hprev hne _ hc rfl rfl rfl⟩
      · exact h.apart c k (.inr (hold _ hk (.inl rfl) (by simp))) b
    exact ⟨fun hc ↦ hclaims.1 (hold _ hc (.inr rfl) (by simp)),
      fun hc ↦ hclaims.2 (hold _ hc (.inr rfl) (by simp))⟩

theorem Agrees.displace (h : Agrees r) (htask : .displace client key ∈ r.tasks) :
    Agrees ({ r with tasks := r.tasks.erase (.displace client key) }.proceed networks
      (.displace client key)) := by
  obtain ⟨hold, hkeep⟩ := mem_erase_tasks r (.displace client key)
  simp only [Registry.proceed]
  refine ⟨?_, ?_, ?_, ?_, ?_, ?_, ?_, ?_⟩ <;>
    simp only [relist_clients, relist_nextId, relist_handlerClaims, relist_tasks]
  · exact h.fresh
  · exact fun c k b hk ↦ h.claiming c k b (hold _ hk)
  · intro c k b hk
    obtain ⟨hc, hmem⟩ := h.inserting c k b (hold _ hk)
    refine ⟨hc, (mem_relist_filter (by exact hc)).mpr ⟨hmem, ?_⟩⟩
    rintro ⟨rfl, rfl⟩
    exact (h.apart c k (.inl htask) b).2 (hold _ hk)
  · intro c k hk
    rcases h.owned c k hk with ⟨hc, hmem⟩ | hfree
    · refine .inl ⟨hc, (mem_relist_filter (by exact hc)).mpr ⟨hmem, ?_⟩⟩
      rintro ⟨rfl, rfl⟩
      exact h.displaced c k htask hk
    · exact .inr (hkeep _ hfree (by simp))
  · intro c k hc hk
    obtain ⟨hk, hne⟩ := (mem_relist_filter (by exact hc)).mp hk
    exact (h.listed c k hc hk).imp_right (Or.imp (fun ⟨b, hi⟩ ↦ ⟨b, hkeep _ hi (by simp)⟩)
      fun hd ↦ hkeep _ hd (by simpa using hne))
  · exact fun c k hk ↦ h.displaced c k (hold _ hk)
  · intro c k hk hc hmem
    exact h.freed c k (hold _ hk) hc ((mem_relist_filter (by exact hc)).mp hmem).1
  · intro c k hk b
    obtain ⟨hclaim, hinsert⟩ := h.apart c k (hk.imp (hold _) (hold _)) b
    exact ⟨fun hc ↦ hclaim (hold _ hc), fun hc ↦ hinsert (hold _ hc)⟩

/-- A handler that is installed is no matter of the two tables. -/
theorem Agrees.install (h : Agrees r) :
    Agrees ({ r with tasks := r.tasks.erase (.install client key streaming) }.proceed networks
      (.install client key streaming)) := by
  obtain ⟨hold, hkeep⟩ := mem_erase_tasks r (.install client key streaming)
  have hdone : Agrees { r with tasks := r.tasks.erase (.install client key streaming) } := by
    refine ⟨h.fresh, ?_, ?_, ?_, ?_, ?_, ?_, ?_⟩
    · exact fun c k b hk ↦ h.claiming c k b (hold _ hk)
    · exact fun c k b hk ↦ h.inserting c k b (hold _ hk)
    · exact fun c k hk ↦ (h.owned c k hk).imp_right fun hfree ↦ hkeep _ hfree (by simp)
    · exact fun c k hc hk ↦ (h.listed c k hc hk).imp_right
        (Or.imp (fun ⟨b, hi⟩ ↦ ⟨b, hkeep _ hi (by simp)⟩) fun hd ↦ hkeep _ hd (by simp))
    · exact fun c k hk ↦ h.displaced c k (hold _ hk)
    · exact fun c k hk ↦ h.freed c k (hold _ hk)
    · intro c k hk b
      obtain ⟨hclaim, hinsert⟩ := h.apart c k (hk.imp (hold _) (hold _)) b
      exact ⟨fun hc ↦ hclaim (hold _ hc), fun hc ↦ hinsert (hold _ hc)⟩
  simp only [Registry.proceed]
  split
  · exact { hdone with }
  · exact hdone

theorem Agrees.free (h : Agrees r) (htask : .free client key ∈ r.tasks) :
    Agrees ({ r with tasks := r.tasks.erase (.free client key) }.proceed networks
      (.free client key)) := by
  obtain ⟨hold, hkeep⟩ := mem_erase_tasks r (.free client key)
  have happly : ({ r with tasks := r.tasks.erase (.free client key) }.proceed networks
      (.free client key)) = { r with
        handlerClaims := fun k ↦ if k = key ∧ r.handlerClaims key = some client then none
          else r.handlerClaims k
        tasks := r.tasks.erase (.free client key) } := by
    simp only [Registry.proceed]
    split
    next howner => simp [howner, funext_iff, Function.update_apply]
    next howner => simp [howner]
  rw [happly]
  refine ⟨h.fresh, ?_, ?_, ?_, ?_, ?_, ?_, ?_⟩
  · exact fun c k b hk ↦ h.claiming c k b (hold _ hk)
  · exact fun c k b hk ↦ h.inserting c k b (hold _ hk)
  · intro c k hk
    dsimp only at hk
    split at hk
    · cases hk
    next hne =>
      refine (h.owned c k hk).imp_right fun hfree ↦ hkeep _ hfree ?_
      rintro ⟨⟩
      exact hne ⟨rfl, hk⟩
  · intro c k hc hk
    dsimp only
    rcases h.listed c k hc hk with howner | ⟨b, hi⟩ | hd
    · refine .inl ?_
      rw [if_neg]
      · exact howner
      · rintro ⟨rfl, hclient⟩
        obtain rfl : c = client := Option.some.inj (howner.symm.trans hclient)
        exact h.freed c k htask hc hk
    · exact .inr (.inl ⟨b, hkeep _ hi (by simp)⟩)
    · exact .inr (.inr (hkeep _ hd (by simp)))
  · intro c k hk
    dsimp only
    split
    · exact (Option.some_ne_none c).symm
    · exact h.displaced c k (hold _ hk)
  · exact fun c k hk ↦ h.freed c k (hold _ hk)
  · intro c k hk b
    obtain ⟨hclaim, hinsert⟩ := h.apart c k (hk.imp (hold _) (hold _)) b
    exact ⟨fun hc ↦ hclaim (hold _ hc), fun hc ↦ hinsert (hold _ hc)⟩

theorem Agrees.step (h : Agrees r) (op : Op) (hsteady : Steady r op) :
    Agrees (MethodClaims.step networks r op) := by
  cases op with
  | register => exact h.register
  | unregister client => exact h.unregister hsteady
  | rpcRegister client key streaming => exact h.rpcRegister hsteady
  | rpcUnregister client key => exact h.rpcUnregister hsteady
  | proceed task =>
    simp only [MethodClaims.step]
    split
    case isFalse => exact h
    case isTrue htask =>
      cases task with
      | claim client key streaming => exact h.claim htask
      | insert client key streaming => exact h.insert hsteady htask
      | displace client key => exact h.displace htask
      | install client key streaming => exact h.install
      | free client key => exact h.free htask

end Steps

theorem agrees_new : Agrees .new where
  fresh _ hc := absurd hc Bool.false_ne_true
  claiming _ _ _ hk := absurd hk List.not_mem_nil
  inserting _ _ _ hk := absurd hk List.not_mem_nil
  owned _ _ hk := absurd hk (Option.some_ne_none _).symm
  listed _ _ hc := absurd hc Bool.false_ne_true
  displaced _ _ hk := absurd hk List.not_mem_nil
  freed _ _ hk := absurd hk List.not_mem_nil
  apart _ _ hk := hk.elim (absurd · List.not_mem_nil) (absurd · List.not_mem_nil)

/-! ### Handlers -/

/-- The handlers are on their networks, every method that is claimed has one or is about to get it,
and the requests for methods are all of a kind. -/
structure Installed (networks : Networks) (Asked : ClaimKey → Prop) (r : Registry) : Prop where
  known : ∀ task ∈ r.tasks, task.installs = true →
    (networks task.key.network).isSome ∧ Asked task.key
  placed : ∀ d method handler, r.handlers d method = some handler →
    networks handler.network = some d ∧ Asked ⟨handler.network, method⟩
  claimed : ∀ key, (r.handlerClaims key).isSome → ∃ d, networks key.network = some d ∧
    ((r.handlers d key.method).isSome ∨ ∃ c b, .install c key b ∈ r.tasks)

section Handlers

variable {networks : Networks} {Asked : ClaimKey → Prop} {r r' : Registry} {client : Nat}
  {key : ClaimKey} {streaming : Bool}

theorem installed_new : Installed networks Asked .new where
  known _ htask := absurd htask List.not_mem_nil
  placed _ _ _ hhandler := absurd hhandler (Option.some_ne_none _).symm
  claimed _ hkey := absurd hkey Bool.false_ne_true

/-- Claims are given up, and other requests come or go. -/
theorem Installed.kept (h : Installed networks Asked r) (hhandlers : r'.handlers = r.handlers)
    (hclaims : ∀ key, (r'.handlerClaims key).isSome → (r.handlerClaims key).isSome)
    (hold : ∀ task ∈ r'.tasks, task.installs = true → task ∈ r.tasks)
    (hkeep : ∀ c key b, .install c key b ∈ r.tasks → .install c key b ∈ r'.tasks) :
    Installed networks Asked r' where
  known task htask hinstalls := h.known task (hold task htask hinstalls) hinstalls
  placed d method handler hhandler := h.placed d method handler (hhandlers ▸ hhandler)
  claimed key hkey := by
    obtain ⟨d, hd, hserved⟩ := h.claimed key (hclaims key hkey)
    rw [hhandlers]
    exact ⟨d, hd, hserved.imp_right fun ⟨c, b, hinstall⟩ ↦ ⟨c, b, hkeep c key b hinstall⟩⟩

theorem Installed.rpcRegister (h : Installed networks Asked r) (hasked : Asked key) :
    Installed networks Asked
      (MethodClaims.step networks r (.rpcRegister client key streaming)) := by
  simp only [MethodClaims.step]
  split
  case isFalse => exact h
  case isTrue hfound =>
    refine ⟨?_, h.placed, ?_⟩
    · intro task htask hinstalls
      rcases List.mem_cons.mp htask with rfl | htask
      · exact ⟨((Bool.and_eq_true _ _).mp hfound).2, hasked⟩
      · exact h.known task htask hinstalls
    · intro k hk
      obtain ⟨d, hd, hserved⟩ := h.claimed k hk
      exact ⟨d, hd, hserved.imp_right fun ⟨c, b, hi⟩ ↦ ⟨c, b, List.mem_cons_of_mem _ hi⟩⟩

theorem Installed.claim (h : Installed networks Asked r)
    (htask : .claim client key streaming ∈ r.tasks) :
    Installed networks Asked
      ({ r with tasks := r.tasks.erase (.claim client key streaming) }.proceed networks
        (.claim client key streaming)) := by
  obtain ⟨hold, hkeep⟩ := mem_erase_tasks r (.claim client key streaming)
  simp only [Registry.proceed]
  refine ⟨?_, ?_, ?_⟩
  · intro task hmem hinstalls
    rcases List.mem_cons.mp hmem with rfl | hmem
    · exact h.known (.claim client key streaming) htask rfl
    · exact h.known task (hold task (by simpa using hmem)) hinstalls
  · intro d method handler hhandler
    exact h.placed d method handler (by simpa using hhandler)
  · intro k hk
    obtain ⟨d, hd, hserved⟩ := h.claimed k (by simpa using hk)
    refine ⟨d, hd, ?_⟩
    rw [relist_handlers]
    refine hserved.imp_right fun ⟨c, b, hi⟩ ↦ ⟨c, b, List.mem_cons_of_mem _ ?_⟩
    simpa using hkeep _ hi (by simp)

theorem Installed.insert (h : Installed networks Asked r)
    (htask : .insert client key streaming ∈ r.tasks) :
    Installed networks Asked
      ({ r with tasks := r.tasks.erase (.insert client key streaming) }.proceed networks
        (.insert client key streaming)) := by
  obtain ⟨hold, hkeep⟩ := mem_erase_tasks r (.insert client key streaming)
  simp only [Registry.proceed]
  generalize hrest : Task.install client key streaming ::
    r.tasks.erase (.insert client key streaming) = rest
  generalize htasks : (match r.handlerClaims key with
    | some prev => if prev = client then rest else .displace prev key :: rest
    | none => rest) = tasks
  have hmem_rest : ∀ task ∈ tasks, task.installs = true → task ∈ rest := by
    intro task hmem hinstalls
    subst htasks
    split at hmem
    · split at hmem
      · exact hmem
      · rcases List.mem_cons.mp hmem with rfl | hmem
        · cases hinstalls
        · exact hmem
    · exact hmem
  have hrest_mem : ∀ task ∈ rest, task ∈ tasks := by
    intro task hmem
    subst htasks
    split
    · split
      · exact hmem
      · exact List.mem_cons_of_mem _ hmem
    · exact hmem
  have hknown := h.known _ htask rfl
  refine ⟨?_, h.placed, ?_⟩
  · intro task hmem hinstalls
    have hmem := hmem_rest task hmem hinstalls
    rw [← hrest] at hmem
    rcases List.mem_cons.mp hmem with rfl | hmem
    · exact hknown
    · exact h.known task (hold task hmem) hinstalls
  · intro k hk
    by_cases heq : k = key
    · subst heq
      obtain ⟨d, hd⟩ := Option.isSome_iff_exists.mp hknown.1
      exact ⟨d, hd, .inr ⟨client, streaming, hrest_mem _ (hrest ▸ List.mem_cons_self)⟩⟩
    · dsimp only at hk
      rw [Function.update_of_ne heq] at hk
      obtain ⟨d, hd, hserved⟩ := h.claimed k hk
      refine ⟨d, hd, hserved.imp_right fun ⟨c, b, hi⟩ ↦ ⟨c, b, hrest_mem _ ?_⟩⟩
      exact hrest ▸ List.mem_cons_of_mem _ (hkeep _ hi (by simp))

theorem Installed.install (h : Installed networks Asked r)
    (htask : .install client key streaming ∈ r.tasks) :
    Installed networks Asked
      ({ r with tasks := r.tasks.erase (.install client key streaming) }.proceed networks
        (.install client key streaming)) := by
  obtain ⟨hold, hkeep⟩ := mem_erase_tasks r (.install client key streaming)
  obtain ⟨hknown, hasked⟩ := h.known _ htask rfl
  obtain ⟨d, hd⟩ := Option.isSome_iff_exists.mp hknown
  have hd : networks key.network = some d := hd
  simp only [Registry.proceed, hd]
  have hserved : ∀ d' method, ((Registry.serve
      { r with tasks := r.tasks.erase (.install client key streaming) } d key.method
        ⟨key.network, streaming⟩).handlers d' method) =
      if d' = d ∧ method = key.method then some ⟨key.network, streaming⟩
      else r.handlers d' method := by
    intro d' method
    simp only [Registry.serve, Function.update_apply]
    by_cases hd' : d' = d
    · subst hd'
      simp only [↓reduceIte, Function.update_apply, true_and]
    · simp [hd']
  refine ⟨fun task hmem ↦ h.known task (hold task hmem), ?_, ?_⟩
  · intro d' method handler hhandler
    rw [hserved] at hhandler
    split at hhandler
    · next hthis =>
      obtain ⟨rfl, rfl⟩ := hthis
      cases hhandler
      exact ⟨hd, hasked⟩
    · exact h.placed d' method handler hhandler
  · intro k hk
    obtain ⟨d', hd', hserved'⟩ := h.claimed k hk
    refine ⟨d', hd', ?_⟩
    rw [hserved]
    rcases hserved' with hhandler | ⟨c, b, hi⟩
    · refine .inl ?_
      split
      · rfl
      · exact hhandler
    · by_cases hthis : (.install c k b : Task) = .install client key streaming
      · -- the handler that it waited for is there
        cases hthis
        obtain rfl : d = d' := Option.some.inj (hd.symm.trans hd')
        exact .inl (by simp)
      · exact .inr ⟨c, b, hkeep _ hi hthis⟩

theorem Installed.step (h : Installed networks Asked r) (op : Op)
    (hasked : ∀ client key streaming, op = .rpcRegister client key streaming → Asked key) :
    Installed networks Asked (MethodClaims.step networks r op) := by
  cases op with
  | register => exact { h with }
  | unregister client =>
    change Installed networks Asked (r.unregister client)
    unfold Registry.unregister
    split
    · refine h.kept rfl (fun _ hk ↦ hk) (fun task htask hinstalls ↦ ?_)
        fun c k b hi ↦ List.mem_append_left _ hi
      rcases List.mem_append.mp htask with htask | htask
      · exact htask
      · obtain ⟨k, -, rfl⟩ := List.mem_map.mp htask
        cases hinstalls
    · exact h
  | rpcRegister client key streaming => exact h.rpcRegister (hasked client key streaming rfl)
  | rpcUnregister client key =>
    refine h.kept relist_handlers (fun k hk ↦ by simpa [MethodClaims.step] using hk)
      (fun task htask hinstalls ↦ ?_) fun c k b hi ↦ ?_
    · rcases List.mem_cons.mp htask with rfl | htask
      · cases hinstalls
      · simpa using htask
    · exact List.mem_cons_of_mem _ (by simpa using hi)
  | proceed task =>
    simp only [MethodClaims.step]
    split
    case isFalse => exact h
    case isTrue htask =>
      obtain ⟨hold, hkeep⟩ := mem_erase_tasks r task
      cases task with
      | claim client key streaming => exact h.claim htask
      | insert client key streaming => exact h.insert htask
      | displace client key =>
        refine h.kept relist_handlers (fun k hk ↦ by simpa [Registry.proceed] using hk)
          (fun task hmem _ ↦ hold task (by simpa [Registry.proceed] using hmem)) fun c k b hi ↦ ?_
        simpa [Registry.proceed] using hkeep _ hi (by simp)
      | install client key streaming => exact h.install htask
      | free client key =>
        simp only [Registry.proceed]
        split
        · refine h.kept rfl (fun k hk ↦ ?_) (fun task hmem _ ↦ hold task hmem)
            fun c k b hi ↦ hkeep _ hi (by simp)
          dsimp only at hk
          by_cases heq : k = key
          · rw [heq, Function.update_self] at hk
            cases hk
          · rwa [Function.update_of_ne heq] at hk
        · exact h.kept rfl (fun _ hk ↦ hk) (fun task hmem _ ↦ hold task hmem)
            fun c k b hi ↦ hkeep _ hi (by simp)

end Handlers

/-! ### Runs -/

/-- The requests for a method of a network all have the network under this name. -/
def OneName (networks : Networks) (ops : List Op) (d : Nat) (method name : String) : Prop :=
  ∀ client key streaming, .rpcRegister client key streaming ∈ ops →
    networks key.network = some d → key.method = method → key.network = name

theorem Agrees.handlerClaims_iff {r : Registry} (h : Agrees r) (hrest : r.tasks = [])
    (client : Nat) (key : ClaimKey) : r.handlerClaims key = some client ↔
      r.clients client = true ∧ key ∈ r.methodClaims client := by
  constructor
  · intro howner
    exact (h.owned client key howner).resolve_right (hrest ▸ List.not_mem_nil)
  · rintro ⟨hc, hk⟩
    have hlisted := h.listed client key hc hk
    rw [hrest] at hlisted
    simpa using hlisted

/-- Where no request is under way, a call for a method is handed to the client that has the method
in its list under the name with which the handler was installed last, and nobody holds a method who
is no longer connected. If the requests for the method all have the network under one name, the call
is handed to the client that has the method in its list under that name. -/
theorem holders_are_connected (networks : Networks) (ops : List Op)
    (hops : AllSteps (step networks) Steady .new ops)
    (hrest : (run (step networks) .new ops).tasks = []) (d : Nat) (method : String) :
    let r := run (step networks) .new ops
    (∀ client, r.lookUp d method = .ok client ↔ ∃ handler, r.handlers d method = some handler ∧
      r.clients client = true ∧ ⟨handler.network, method⟩ ∈ r.methodClaims client) ∧
    r.lookUp d method ≠ .error "handler owner client disconnected" ∧
    ∀ name, networks name = some d → OneName networks ops d method name →
      ∀ client, r.lookUp d method = .ok client ↔
        r.clients client = true ∧ ⟨name, method⟩ ∈ r.methodClaims client := by
  intro r
  have h : Agrees r := forall_run_of_allSteps (fun _ op hr hsteady ↦ hr.step op hsteady) agrees_new
    hops ops [] (List.append_nil ops).symm
  have howned := h.handlerClaims_iff hrest
  have hfound : ∀ client, r.lookUp d method = .ok client ↔ ∃ handler,
      r.handlers d method = some handler ∧
        r.clients client = true ∧ ⟨handler.network, method⟩ ∈ r.methodClaims client := by
    intro client
    unfold Registry.lookUp
    cases hhandler : r.handlers d method with
    | none => simp
    | some handler =>
      simp only [Option.some.injEq, exists_eq_left', ← howned, Registry.owner]
      cases howner : r.handlerClaims ⟨handler.network, method⟩ with
      | none => simp
      | some owner => simp [((howned owner _).mp howner).1]
  refine ⟨hfound, ?_, fun name hname hone client ↦ ?_⟩
  · unfold Registry.lookUp
    cases hhandler : r.handlers d method with
    | none => simp [String.ext_iff]
    | some handler =>
      simp only [Registry.owner]
      cases howner : r.handlerClaims ⟨handler.network, method⟩ with
      | none => cases handler.streaming <;> simp [String.ext_iff]
      | some owner => simp [((howned owner _).mp howner).1]
  · have hinstalled : Installed networks
        (fun key ↦ networks key.network = some d → key.method = method → key.network = name) r := by
      refine run_invariant_of_mem (fun r op hop hr ↦ hr.step op ?_) installed_new
      rintro client key streaming rfl
      exact hone client key streaming hop
    rw [hfound]
    constructor
    · rintro ⟨handler, hhandler, hc, hk⟩
      obtain ⟨hd, hasked⟩ := hinstalled.placed d method handler hhandler
      exact ⟨hc, hasked hd rfl ▸ hk⟩
    · rintro ⟨hc, hk⟩
      obtain ⟨d', hd', hserved⟩ := hinstalled.claimed ⟨name, method⟩
        (by rw [(howned client _).mpr ⟨hc, hk⟩]; rfl)
      obtain rfl : d = d' := Option.some.inj (hname.symm.trans hd')
      rcases hserved with hhandler | ⟨c, b, hi⟩
      · obtain ⟨handler, hhandler⟩ := Option.isSome_iff_exists.mp hhandler
        obtain ⟨hd, hasked⟩ := hinstalled.placed d method handler hhandler
        have hsame : handler.network = name := hasked hd rfl
        exact ⟨handler, hhandler, hc, by rwa [hsame]⟩
      · exact absurd (hrest ▸ hi) List.not_mem_nil

instance (r : Registry) : DecidablePred (Steady r)
  | .register => .isTrue trivial
  | .unregister client =>
    inferInstanceAs (Decidable (∀ task ∈ r.tasks, task.isClaim = true → task.client ≠ client))
  | .rpcRegister client key _ | .rpcUnregister client key =>
    inferInstanceAs (Decidable (∀ task ∈ r.tasks, task.key = key → task.client ≠ client))
  | .proceed (.insert client key _) =>
    inferInstanceAs (Decidable (∀ prev ∈ r.handlerClaims key, prev ≠ client →
      ∀ task ∈ r.tasks, task.isClaim = true → task.key = key → task.client ≠ prev))
  | .proceed (.claim _ _ _) | .proceed (.displace _ _) | .proceed (.install _ _ _)
  | .proceed (.free _ _) => .isTrue trivial

/-- One network, under its config id and its network id. -/
def twoNames : Networks := fun name ↦ if name ∈ ["net_1", "home"] then some 0 else none

/-- A client claims a method. -/
def claiming (client : Nat) (key : ClaimKey) : List Op :=
  [.rpcRegister client key false, .proceed (.claim client key false),
    .proceed (.insert client key false), .proceed (.install client key false)]

/-- Two clients claim a method one after the other, and the second disconnects. -/
def secondGoes : List Op :=
  [.register, .register] ++ claiming 0 ⟨"home", "m"⟩ ++ claiming 1 ⟨"home", "m"⟩ ++
    [.proceed (.displace 0 ⟨"home", "m"⟩), .unregister 1, .proceed (.free 1 ⟨"home", "m"⟩)]

theorem second_gives_up :
    let r := run (step twoNames) .new secondGoes
    (∀ client, r.lookUp 0 "m" = .ok client ↔ ∃ handler, r.handlers 0 "m" = some handler ∧
      r.clients client = true ∧ ⟨handler.network, "m"⟩ ∈ r.methodClaims client) ∧
    r.lookUp 0 "m" ≠ .error "handler owner client disconnected" ∧
    ∀ client, r.lookUp 0 "m" = .ok client ↔
      r.clients client = true ∧ ⟨"home", "m"⟩ ∈ r.methodClaims client := by
  intro r
  obtain ⟨hfound, hconnected, hone⟩ :=
    holders_are_connected twoNames secondGoes (by decide) (by decide) 0 "m"
  refine ⟨hfound, hconnected, hone "home" (by decide) ?_⟩
  intro client key streaming hmem _ _
  obtain ⟨-, rfl, -⟩ | ⟨-, rfl, -⟩ : (client = 0 ∧ key = ⟨"home", "m"⟩ ∧ streaming = false) ∨
      (client = 1 ∧ key = ⟨"home", "m"⟩ ∧ streaming = false) := by
    simpa [secondGoes, claiming] using hmem
  · rfl
  · rfl

/-- Under two names two clients have one method, and the last one gets all calls. -/
example : (run (step twoNames) .new ([.register, .register] ++ claiming 0 ⟨"home", "m"⟩ ++
    claiming 1 ⟨"net_1", "m"⟩)).lookUp 0 "m" = .ok 1 := by
  decide

/-- A client that disconnects while it claims a method holds it from then on. -/
example : (run (step twoNames) .new [.register, .rpcRegister 0 ⟨"home", "m"⟩ false,
    .proceed (.claim 0 ⟨"home", "m"⟩ false), .unregister 0, .proceed (.free 0 ⟨"home", "m"⟩),
    .proceed (.insert 0 ⟨"home", "m"⟩ false),
    .proceed (.install 0 ⟨"home", "m"⟩ false)]).lookUp 0 "m" =
      .error "handler owner client disconnected" := by
  decide

end MyOwnMesh.MethodClaims
