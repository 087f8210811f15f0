import MyOwnMesh.Lib.Replay
import MyOwnMesh.Updater.Policy

/-!
# Staging and swapping binaries

`apply_pending`, `check_now` and `update_now` of `myownmesh-updater`, `lib.rs:186–432`, `set_prefs`
(`lib.rs:477–541`), `stage_release` (`lib.rs:987–1066`) and the launch of `main.rs:80–85`, on one
machine with any number of processes. A process compares with the version it was started with and
swaps the binary on disk. What a call gets from the network, the file system and the environment is
an argument of it; `check_now` and `update_now` stage after a download, and other calls may come in
between. A staged binary is the one its release names.
-/

namespace MyOwnMesh.Updater

open Lib Lib.Replay Std

/-- `auto_update` of `config.json`. -/
structure AutoUpdateConfig where
  enabled : Bool := true
  channel : String := "stable"
  autoApply : String := "all"
  checkIntervalHours : Nat := 6
  stableUrl : Option String := none
  betaUrl : Option String := none
  deriving DecidableEq, Repr

structure UpdatePrefs where
  enabled : Option Bool := none
  channel : Option String := none
  autoApply : Option String := none
  checkIntervalHours : Option Nat := none
  stableUrl : Option String := none
  betaUrl : Option String := none
  deriving DecidableEq, Repr

def normaliseUrlOverride (v : String) : Option String :=
  let t := Text.trim v
  if t = "" then none else some t

def setPrefs (au : AutoUpdateConfig) (prefs : UpdatePrefs) : Except String AutoUpdateConfig := do
  if let some v := prefs.channel then
    if v ≠ "stable" ∧ v ≠ "beta" then
      throw s!"invalid update channel '{v}' (expected 'stable' or 'beta')"
  if let some v := prefs.autoApply then
    if ApplyPolicy.parse v = none then
      throw s!"invalid auto_apply policy '{v}' (expected patch | minor | all | none)"
  return {
    enabled := prefs.enabled.getD au.enabled
    channel := prefs.channel.getD au.channel
    autoApply := prefs.autoApply.getD au.autoApply
    checkIntervalHours := (prefs.checkIntervalHours.map (max · 1)).getD au.checkIntervalHours
    stableUrl := (prefs.stableUrl.map normaliseUrlOverride).getD au.stableUrl
    betaUrl := (prefs.betaUrl.map normaliseUrlOverride).getD au.betaUrl }

/-- The configured policy; a text that is none counts as `patch`. -/
def AutoUpdateConfig.policy (au : AutoUpdateConfig) : ApplyPolicy :=
  (ApplyPolicy.parse au.autoApply).getD .patch

/-- True when the target is strictly newer; an unknown version needs an update. -/
def versionIsNewer (target : String) (installed : Option String) : Bool :=
  installed.all fun v ↦ compareSemver target v = .gt

/-- The policy under which `check_now` staged a version, and the version it compared with. -/
structure Origin where
  policy : ApplyPolicy
  current : String
  deriving DecidableEq, Repr

/-- A version with the halves of the install to stage or staged; `update_now` asks no policy. -/
structure Plan where
  version : String
  daemon : Bool
  gui : Bool
  origin : Option Origin
  deriving DecidableEq, Repr

inductive CheckOutcome where
  | disabled
  | packageManager
  | notDue
  | upToDate (current latest : String)
  | policyBlocked (current latest policy : String)
  deriving DecidableEq, Repr

inductive UpdateNowOutcome where
  | packageManager
  | upToDate (current latest : String)
  deriving DecidableEq, Repr

/-- What a call finds outside: the feed answers with a release's `tag_name`, if it has one. -/
structure Env where
  configLoads : Bool := true
  disabled : Bool := false
  isPackageManager : Bool := false
  force : Bool := false
  due : Bool := true
  stamp : Except String Unit := .ok ()
  fetch : Except String (Option String)
  guiInstalled : Bool := false

/-- The version that the feed's release names: its tag without the leading `v`s. -/
def fetchLatest (env : Env) : Except String String :=
  match env.fetch with
  | .ok (some tag) => .ok (String.ofList (tag.toList.dropWhile (· = 'v')))
  | .ok none => .error "release missing tag_name"
  | .error e => .error e

/-- Whether the GUI beside the daemon is behind or unknown. -/
def guiNeedsUpdate (env : Env) (guiVersion : Option String) (latest : String) : Bool :=
  env.guiInstalled && versionIsNewer latest guiVersion

/-- What `check_now` answers, or what it goes on to stage. -/
def checkNow (env : Env) (config : AutoUpdateConfig) (guiVersion : Option String)
    (current : String) : Except String (CheckOutcome ⊕ Plan) :=
  let au := if env.configLoads then config else {}
  if !au.enabled || env.disabled then .ok (.inl .disabled)
  else if env.isPackageManager then .ok (.inl .packageManager)
  else if !env.force && !env.due then .ok (.inl .notDue)
  else do
    env.stamp
    let latest ← fetchLatest env
    if compareSemver current latest ≠ .lt then return .inl (.upToDate current latest)
    else if policyAllows au.policy current latest = false then
      return .inl (.policyBlocked current latest au.autoApply)
    else
      return .inr ⟨latest, true, guiNeedsUpdate env guiVersion latest, some ⟨au.policy, current⟩⟩

/-- What `update_now` answers, or what it goes on to stage and apply. -/
def updateNow (env : Env) (guiVersion : Option String) (current : String) :
    Except String (UpdateNowOutcome ⊕ Plan) :=
  if env.isPackageManager then .ok (.inl .packageManager)
  else do
    let latest ← fetchLatest env
    let daemon := compareSemver current latest == .lt
    let gui := guiNeedsUpdate env guiVersion latest
    if !daemon && !gui then return .inl (.upToDate current latest)
    else
      env.stamp
      return .inr ⟨latest, daemon, gui, none⟩

/-- A swap of the daemon binary; `launch` is the policy configured at the launch that made it. -/
structure Swap where
  before : String
  installed : String
  launch : Option ApplyPolicy
  checked : Bool
  deriving DecidableEq, Repr

/-- What a call does after its download. -/
inductive Job where
  | stage (p : Nat) (plan : Plan) (thenApply : Bool)
  | apply (p : Nat)
  deriving DecidableEq, Repr

/-- The binary on disk, the stamp of the GUI, the marker `pending.json`, the versions the processes
were started with, and the swaps made so far. -/
structure Machine where
  disk : String
  guiVersion : Option String
  config : AutoUpdateConfig
  pending : Option Plan := none
  processes : List String := []
  jobs : List Job := []
  swaps : List Swap := []
  deriving DecidableEq, Repr

/-- How the swaps of `apply_one` go, and whether the marker can be removed. -/
structure Faults where
  daemon : Except String Unit := .ok ()
  gui : Except String Bool := .ok true
  removed : Bool := true

/-- The rest of `apply_pending` after the daemon: the GUI, and the marker. -/
def finishApply (m : Machine) (f : Faults) (marker : Plan) : Machine :=
  let swapsGui := marker.gui && versionIsNewer marker.version m.guiVersion &&
    (f.gui.toOption == some true)
  { m with
    guiVersion := if swapsGui then some marker.version else m.guiVersion
    pending := if f.removed then none else m.pending }

/-- `apply_pending` of a process that was started with the version `current`. -/
def applyPending (m : Machine) (current : String) (f : Faults) (launch : Option ApplyPolicy) :
    Machine :=
  match m.pending with
  | none => m
  | some marker =>
    if marker.daemon && versionIsNewer marker.version (some current) then
      match f.daemon with
      | .ok _ =>
        finishApply { m with
          disk := marker.version
          swaps := m.swaps ++ [⟨m.disk, marker.version, launch, marker.origin.isSome⟩] } f marker
      -- the marker stays for the next launch
      | .error _ => m
    else finishApply m f marker

/-- `stage_release`: the daemon is required, the GUI is not; the marker of an earlier staging is
overwritten. -/
def stageRelease (m : Machine) (plan : Plan) (daemon : Except String Unit) (gui : Bool) :
    Except String Machine :=
  match plan.daemon, daemon with
  | true, .error e => .error e
  | _, _ =>
    if plan.daemon = false ∧ (plan.gui && gui) = false then .error "nothing to stage"
    else .ok { m with pending := some { plan with gui := plan.gui && gui } }

/-- The preferences are set; a process is launched; a process checks, updates or applies; a call
that staged downloads, with how its downloads go; `update_now` applies what it staged. -/
inductive Op where
  | setPrefs (prefs : UpdatePrefs) (saved : Bool)
  | launch (f : Faults)
  | checkNow (p : Nat) (env : Env)
  | updateNow (p : Nat) (env : Env)
  | applyNow (p : Nat) (f : Faults)
  | staged (i : Nat) (daemon : Except String Unit) (gui : Bool)
  | applied (i : Nat) (f : Faults)

/-- The call goes on to stage. -/
def Machine.begin (m : Machine) (p : Nat) (plan : Plan) (thenApply : Bool) : Machine :=
  { m with jobs := .stage p plan thenApply :: m.jobs }

def step (m : Machine) : Op → Machine
  | .setPrefs prefs saved =>
    match setPrefs m.config prefs with
    | .ok au => if saved then { m with config := au } else m
    | .error _ => m
  | .launch f =>
    -- the process runs the binary that was on disk, whatever it swaps
    { applyPending m m.disk f (some m.config.policy) with processes := m.processes ++ [m.disk] }
  | .checkNow p env =>
    match m.processes[p]? with
    | some current =>
      match checkNow env m.config m.guiVersion current with
      | .ok (.inr plan) => m.begin p plan false
      | _ => m
    | none => m
  | .updateNow p env =>
    match m.processes[p]? with
    | some current =>
      match updateNow env m.guiVersion current with
      | .ok (.inr plan) => m.begin p plan true
      | _ => m
    | none => m
  | .applyNow p f =>
    match m.processes[p]? with
    | some current => applyPending m current f none
    | none => m
  | .staged i daemon gui =>
    match m.jobs[i]? with
    | some (.stage p plan thenApply) =>
      let rest := m.jobs.eraseIdx i
      match stageRelease m plan daemon gui with
      | .ok m => { m with jobs := if thenApply then .apply p :: rest else rest }
      | .error _ => { m with jobs := rest }
    | _ => m
  | .applied i f =>
    match m.jobs[i]? with
    | some (.apply p) =>
      let m := { m with jobs := m.jobs.eraseIdx i }
      match m.processes[p]? with
      | some current => applyPending m current f none
      | none => m
    | _ => m

/-- The process is not older than the binary on disk when it has a daemon to apply. -/
def Machine.Current (m : Machine) (p : Nat) : Prop :=
  ∀ current ∈ m.processes[p]?, ∀ marker ∈ m.pending, marker.daemon = true →
    compareSemver marker.version current = .gt → compareSemver current m.disk ≠ .lt

instance (m : Machine) (p : Nat) : Decidable (m.Current p) :=
  inferInstanceAs (Decidable (∀ current ∈ m.processes[p]?, ∀ marker ∈ m.pending,
    marker.daemon = true → compareSemver marker.version current = .gt →
      compareSemver current m.disk ≠ .lt))

/-- A daemon that `check_now` staged is launched under a policy that goes at least as far as the one
it was staged under. -/
def Machine.Permitted (m : Machine) : Prop :=
  ∀ marker ∈ m.pending, marker.daemon = true → compareSemver marker.version m.disk = .gt →
    ∀ o ∈ marker.origin, o.policy.reach ≤ m.config.policy.reach

instance (m : Machine) : Decidable m.Permitted :=
  inferInstanceAs (Decidable (∀ marker ∈ m.pending, marker.daemon = true →
    compareSemver marker.version m.disk = .gt → ∀ o ∈ marker.origin,
      o.policy.reach ≤ m.config.policy.reach))

/-- The process of `update_now` is current when it comes to apply. -/
def Job.Ready (m : Machine) : Job → Prop
  | .apply p => m.Current p
  | .stage _ _ _ => True

instance (m : Machine) : DecidablePred (Job.Ready m)
  | .apply p => inferInstanceAs (Decidable (m.Current p))
  | .stage _ _ _ => .isTrue trivial

/-- The step condition: launches are permitted, and processes that apply are current. -/
def Obeyed (m : Machine) : Op → Prop
  | .launch _ => m.Permitted
  | .applyNow p _ => m.Current p
  | .applied i _ => ∀ job ∈ m.jobs[i]?, job.Ready m
  | _ => True

instance (m : Machine) : DecidablePred (Obeyed m)
  | .launch _ => inferInstanceAs (Decidable m.Permitted)
  | .applyNow p _ => inferInstanceAs (Decidable (m.Current p))
  | .applied i _ => inferInstanceAs (Decidable (∀ job ∈ m.jobs[i]?, job.Ready m))
  | .setPrefs _ _ | .checkNow _ _ | .updateNow _ _ | .staged _ _ _ => .isTrue trivial

/-- A launch swaps in a version that `check_now` staged only under a policy that allows the step; no
swap goes back. -/
def Swap.Good (w : Swap) : Prop :=
  compareSemver w.installed w.before = .gt ∧
    ∀ policy ∈ w.launch, w.checked = true → policyAllows policy w.before w.installed = true

/-- The plan was allowed from a version that is not newer than the binary on disk. -/
def Machine.Allows (m : Machine) (plan : Plan) : Prop :=
  ∀ o ∈ plan.origin, policyAllows o.policy o.current plan.version = true ∧
    (compareSemver o.current m.disk).isLE = true

structure Kept (m : Machine) : Prop where
  swaps : ∀ w ∈ m.swaps, w.Good
  processes : ∀ v ∈ m.processes, (compareSemver v m.disk).isLE = true
  pending : ∀ marker ∈ m.pending, m.Allows marker
  jobs : ∀ p plan b, .stage p plan b ∈ m.jobs → m.Allows plan

variable {m : Machine}

private theorem newer_of_versionIsNewer {target v : String}
    (h : versionIsNewer target (some v) = true) : compareSemver target v = .gt := by
  simpa [versionIsNewer] using h

/-- `apply_pending` leaves the binary alone, or swaps in the daemon of the marker, which is newer
than the version the process was started with. -/
private theorem applyPending_cases (m : Machine) (current : String) (f : Faults)
    (launch : Option ApplyPolicy) :
    ∃ guiVersion pending, (∀ marker ∈ pending, marker ∈ m.pending) ∧
      (applyPending m current f launch = { m with guiVersion := guiVersion, pending := pending } ∨
        ∃ marker ∈ m.pending, marker.daemon = true ∧
          compareSemver marker.version current = .gt ∧
          applyPending m current f launch = { m with
            guiVersion := guiVersion
            pending := pending
            disk := marker.version
            swaps := m.swaps ++
              [⟨m.disk, marker.version, launch, marker.origin.isSome⟩] }) := by
  have hleft : ∀ marker ∈ (if f.removed then none else m.pending), marker ∈ m.pending := by
    intro marker hmarker
    split at hmarker
    · cases hmarker
    · exact hmarker
  unfold applyPending
  split
  · exact ⟨m.guiVersion, m.pending, fun _ hmarker ↦ hmarker, .inl rfl⟩
  · next marker hpending =>
    split
    · next hdaemon =>
      rw [Bool.and_eq_true] at hdaemon
      split
      · exact ⟨_, _, hleft,
          .inr ⟨marker, hpending, hdaemon.1, newer_of_versionIsNewer hdaemon.2, rfl⟩⟩
      · exact ⟨m.guiVersion, m.pending, fun _ hmarker ↦ hmarker, .inl rfl⟩
    · exact ⟨_, _, hleft, .inl rfl⟩

/-- What `check_now` stages is allowed from the version of its process. -/
private theorem origin_of_checkNow {env : Env} {config : AutoUpdateConfig}
    {guiVersion : Option String} {current : String} {plan : Plan}
    (h : checkNow env config guiVersion current = .ok (.inr plan)) :
    ∀ o ∈ plan.origin, o.current = current ∧
      policyAllows o.policy current plan.version = true := by
  unfold checkNow at h
  extract_lets au at h
  split at h
  · cases h
  split at h
  · cases h
  split at h
  · cases h
  cases hstamp : env.stamp with
  | error e =>
    rw [hstamp] at h
    cases h
  | ok _ =>
    cases hlatest : fetchLatest env with
    | error e =>
      rw [hstamp, hlatest] at h
      cases h
    | ok latest =>
      simp only [hstamp, hlatest, bind, Except.bind, pure, Except.pure] at h
      split at h
      · cases h
      split at h
      · cases h
      · next hallowed =>
        cases h
        rintro o ⟨⟩
        exact ⟨rfl, Bool.not_eq_false _ ▸ hallowed⟩

private theorem origin_of_updateNow {env : Env} {guiVersion : Option String} {current : String}
    {plan : Plan} (h : updateNow env guiVersion current = .ok (.inr plan)) :
    plan.origin = none := by
  unfold updateNow at h
  split at h
  · cases h
  cases hlatest : fetchLatest env with
  | error e =>
    rw [hlatest] at h
    cases h
  | ok latest =>
    cases hstamp : env.stamp with
    | error e =>
      simp only [hstamp, hlatest, bind, Except.bind, pure, Except.pure] at h
      split at h
      · cases h
      · cases h
    | ok _ =>
      simp only [hstamp, hlatest, bind, Except.bind, pure, Except.pure] at h
      split at h
      · cases h
      · cases h
        rfl

private theorem stageRelease_eq {plan : Plan} {daemon : Except String Unit} {gui : Bool}
    {m' : Machine} (h : stageRelease m plan daemon gui = .ok m') :
    m' = { m with pending := some { plan with gui := plan.gui && gui } } := by
  unfold stageRelease at h
  split at h
  · cases h
  · split at h
    · cases h
    · cases h
      rfl

/-- Everything holds against a newer binary on disk. -/
private theorem Machine.Allows.newer {plan : Plan} (h : m.Allows plan) {m' : Machine}
    (hdisk : (compareSemver m.disk m'.disk).isLE = true) : m'.Allows plan := by
  intro o ho
  obtain ⟨hallowed, hle⟩ := h o ho
  exact ⟨hallowed, TransCmp.isLE_trans hle hdisk⟩

/-- The marker goes or stays, and the stamp of the GUI changes. -/
private theorem Kept.finish (h : Kept m) {guiVersion : Option String} {pending : Option Plan}
    (hpending : ∀ marker ∈ pending, marker ∈ m.pending) :
    Kept { m with guiVersion := guiVersion, pending := pending } :=
  ⟨h.swaps, h.processes, fun marker hmarker ↦ h.pending marker (hpending marker hmarker), h.jobs⟩

private theorem Kept.swap (h : Kept m) {marker : Plan} {w : Swap} (hgood : w.Good)
    (hnewer : compareSemver marker.version m.disk = .gt) :
    Kept { m with disk := marker.version, swaps := m.swaps ++ [w] } := by
  have hdisk : (compareSemver m.disk marker.version).isLE = true :=
    Ordering.isLE_of_eq_lt (OrientedCmp.gt_iff_lt.mp hnewer)
  refine ⟨?_, ?_, ?_, ?_⟩
  · intro w' hw'
    rcases List.mem_append.mp hw' with hmem | hmem
    · exact h.swaps w' hmem
    · rw [List.mem_singleton.mp hmem]
      exact hgood
  · intro v hv
    exact TransCmp.isLE_trans (h.processes v hv) hdisk
  · intro other hother
    exact (h.pending other hother).newer hdisk
  · intro p plan b hjob
    exact (h.jobs p plan b hjob).newer hdisk

/-- `apply_pending` by a process that is not older than the binary on disk, at a launch under a
policy that allows what was staged. -/
private theorem Kept.applyPending (h : Kept m) {current : String} {f : Faults}
    {launch : Option ApplyPolicy}
    (hcurrent : ∀ marker ∈ m.pending, marker.daemon = true →
      compareSemver marker.version current = .gt → compareSemver current m.disk ≠ .lt)
    (hlaunch : ∀ policy ∈ launch, ∀ marker ∈ m.pending, marker.daemon = true →
      compareSemver marker.version m.disk = .gt →
      ∀ o ∈ marker.origin, o.policy.reach ≤ policy.reach) :
    Kept (applyPending m current f launch) := by
  obtain ⟨guiVersion, pending, hpending, hsame | ⟨marker, hmarker, hdaemon, hnewer, hswap⟩⟩ :=
    applyPending_cases m current f launch
  · rw [hsame]
    exact h.finish hpending
  · have hge : (compareSemver m.disk current).isLE = true := by
      rw [Ordering.isLE_iff_ne_gt]
      intro hgt
      exact hcurrent marker hmarker hdaemon hnewer (OrientedCmp.gt_iff_lt.mp hgt)
    have hforward : compareSemver marker.version m.disk = .gt :=
      OrientedCmp.gt_iff_lt.mpr (TransCmp.lt_of_isLE_of_lt hge (OrientedCmp.gt_iff_lt.mp hnewer))
    have hgood : Swap.Good ⟨m.disk, marker.version, launch, marker.origin.isSome⟩ := by
      refine ⟨hforward, fun policy hpolicy hchecked ↦ ?_⟩
      obtain ⟨o, ho⟩ := Option.isSome_iff_exists.mp hchecked
      obtain ⟨hallowed, hle⟩ := h.pending marker hmarker o ho
      exact policyAllows_of_reach (hlaunch policy hpolicy marker hmarker hdaemon hforward o ho)
        (policyAllows_of_between hallowed hle hforward)
    rw [hswap]
    exact (h.swap hgood hforward).finish hpending

private theorem processes_applyPending (current : String) (f : Faults)
    (launch : Option ApplyPolicy) : (applyPending m current f launch).processes = m.processes := by
  obtain ⟨_, _, -, hsame | ⟨_, -, -, -, hswap⟩⟩ := applyPending_cases m current f launch
  · rw [hsame]
  · rw [hswap]

private theorem disk_applyPending (current : String) (f : Faults) (launch : Option ApplyPolicy) :
    (applyPending m current f launch).disk = m.disk ∨
      compareSemver (applyPending m current f launch).disk current = .gt := by
  obtain ⟨_, _, -, hsame | ⟨_, -, -, hnewer, hswap⟩⟩ := applyPending_cases m current f launch
  · rw [hsame]
    exact .inl rfl
  · rw [hswap]
    exact .inr hnewer

private theorem Kept.launch (h : Kept m) (hpermitted : m.Permitted) (f : Faults) :
    Kept (step m (.launch f)) := by
  have heq : compareSemver m.disk m.disk = .eq := ReflCmp.compare_self
  have happlied : Kept (Updater.applyPending m m.disk f (some m.config.policy)) := by
    refine h.applyPending ?_ ?_
    · intro _ _ _ _ hlt
      rw [heq] at hlt
      cases hlt
    · intro policy hpolicy
      cases hpolicy
      exact hpermitted
  refine ⟨happlied.swaps, ?_, happlied.pending, happlied.jobs⟩
  intro v hv
  rcases List.mem_append.mp hv with hmem | hmem
  · rw [← processes_applyPending m.disk f (some m.config.policy)] at hmem
    exact happlied.processes v hmem
  · rw [List.mem_singleton.mp hmem]
    change (compareSemver m.disk
      (Updater.applyPending m m.disk f (some m.config.policy)).disk).isLE = true
    rcases disk_applyPending m.disk f (some m.config.policy) with hsame | hnewer
    · rw [hsame, heq]
      rfl
    · exact Ordering.isLE_of_eq_lt (OrientedCmp.gt_iff_lt.mp hnewer)

/-- A call goes on to stage what its origin allows. -/
private theorem Kept.begin (h : Kept m) (p : Nat) {plan : Plan} (thenApply : Bool)
    (hplan : m.Allows plan) : Kept (m.begin p plan thenApply) := by
  refine ⟨h.swaps, h.processes, h.pending, ?_⟩
  intro q plan' b hjob
  rcases List.mem_cons.mp hjob with heq | hmem
  · cases heq
    exact hplan
  · exact h.jobs q plan' b hmem

private theorem Kept.withJobs (h : Kept m) {jobs : List Job}
    (hjobs : ∀ p plan b, .stage p plan b ∈ jobs → .stage p plan b ∈ m.jobs) :
    Kept { m with jobs := jobs } :=
  ⟨h.swaps, h.processes, h.pending, fun p plan b hjob ↦ h.jobs p plan b (hjobs p plan b hjob)⟩

private theorem Kept.staged (h : Kept m) {i : Nat} {p : Nat} {plan : Plan} {thenApply : Bool}
    (hjob : m.jobs[i]? = some (.stage p plan thenApply)) (daemon : Except String Unit)
    (gui : Bool) : Kept (step m (.staged i daemon gui)) := by
  have hrest : ∀ q plan' b, .stage q plan' b ∈ m.jobs.eraseIdx i → .stage q plan' b ∈ m.jobs :=
    fun _ _ _ hmem ↦ List.mem_of_mem_eraseIdx hmem
  simp only [step, hjob]
  split
  · next m' hstaged =>
    obtain rfl := stageRelease_eq hstaged
    have hpending : Kept { m with pending := some { plan with gui := plan.gui && gui } } := by
      refine ⟨h.swaps, h.processes, ?_, h.jobs⟩
      rintro marker ⟨⟩
      exact h.jobs p plan thenApply (List.mem_of_getElem? hjob)
    refine hpending.withJobs fun q plan' b hmem ↦ ?_
    split at hmem
    · rcases List.mem_cons.mp hmem with heq | hmem
      · cases heq
      · exact hrest q plan' b hmem
    · exact hrest q plan' b hmem
  · exact h.withJobs hrest

private theorem Kept.step (h : Kept m) {o : Op} (hobeyed : Obeyed m o) : Kept (step m o) := by
  cases o with
  | setPrefs prefs saved =>
    simp only [Updater.step]
    split
    · split
      · exact ⟨h.swaps, h.processes, h.pending, h.jobs⟩
      · exact h
    · exact h
  | launch f => exact h.launch hobeyed f
  | checkNow p env =>
    simp only [Updater.step]
    split
    · next current hp =>
      split
      · next plan hplan =>
        refine h.begin p false fun o ho ↦ ?_
        obtain ⟨rfl, hallowed⟩ := origin_of_checkNow hplan o ho
        exact ⟨hallowed, h.processes _ (List.mem_of_getElem? hp)⟩
      · exact h
    · exact h
  | updateNow p env =>
    simp only [Updater.step]
    split
    · split
      · next plan hplan =>
        refine h.begin p true fun o ho ↦ ?_
        rw [origin_of_updateNow hplan] at ho
        cases ho
      · exact h
    · exact h
  | applyNow p f =>
    simp only [Updater.step]
    split
    · next current hp => exact h.applyPending (hobeyed current hp) (by simp)
    · exact h
  | staged i daemon gui =>
    cases hjob : m.jobs[i]? with
    | none =>
      simp only [Updater.step, hjob]
      exact h
    | some job =>
      cases job with
      | stage p plan thenApply => exact h.staged hjob daemon gui
      | apply p =>
        simp only [Updater.step, hjob]
        exact h
  | applied i f =>
    cases hjob : m.jobs[i]? with
    | none =>
      simp only [Updater.step, hjob]
      exact h
    | some job =>
      cases job with
      | stage p plan thenApply =>
        simp only [Updater.step, hjob]
        exact h
      | apply p =>
        have hcurrent : m.Current p := hobeyed _ hjob
        have hrest : Kept { m with jobs := m.jobs.eraseIdx i } :=
          h.withJobs fun _ _ _ hmem ↦ List.mem_of_mem_eraseIdx hmem
        simp only [Updater.step, hjob]
        split
        · next current hp => exact hrest.applyPending (hcurrent current hp) (by simp)
        · exact hrest

/-- In every run in which processes apply a daemon only while they are not older than the binary on
disk, and a launch that finds a newer daemon staged by `check_now` runs under a policy that goes at
least as far as the one it was staged under: every swap installs a version strictly newer than the
one on disk, and a launch installs a version staged by `check_now` only if the policy configured at
that launch permits the step. -/
theorem updates_obey_policy (disk : String) (guiVersion : Option String) (config : AutoUpdateConfig)
    {ops : List Op} (hops : AllSteps step Obeyed ⟨disk, guiVersion, config, none, [], [], []⟩ ops) :
    ∀ w ∈ (run step ⟨disk, guiVersion, config, none, [], [], []⟩ ops).swaps,
      compareSemver w.installed w.before = .gt ∧
        ∀ policy ∈ w.launch, w.checked = true →
          policyAllows policy w.before w.installed = true := by
  have hstart : Kept ⟨disk, guiVersion, config, none, [], [], []⟩ :=
    ⟨by simp, by simp, by simp, by simp⟩
  exact (forall_run_of_allSteps (fun m o hm hobeyed ↦ hm.step hobeyed) hstart hops ops []
    (List.append_nil ops).symm).swaps

/-- The feed answers with a release of this tag. -/
def Env.answers (tag : String) : Env := { fetch := .ok (some tag) }

/-- A patch that `check_now` staged is swapped in by the next launch, and a process launched after
that updates to a new major version. -/
def patchThenUpdate : List Op :=
  [.launch {}, .checkNow 0 (.answers "v1.2.3"), .staged 0 (.ok ()) false, .launch {}, .launch {},
   .updateNow 2 (.answers "v2.0.0"), .staged 0 (.ok ()) false, .applied 0 {}]

theorem patch_then_update_obeyed :
    (run step ⟨"1.2.0", none, { autoApply := "patch" }, none, [], [], []⟩ patchThenUpdate).swaps =
        [⟨"1.2.0", "1.2.3", some .patch, true⟩, ⟨"1.2.3", "2.0.0", none, false⟩] ∧
      ∀ w ∈ (run step ⟨"1.2.0", none, { autoApply := "patch" }, none, [], [], []⟩
          patchThenUpdate).swaps,
        compareSemver w.installed w.before = .gt ∧
          ∀ policy ∈ w.launch, w.checked = true →
            policyAllows policy w.before w.installed = true := by
  have hobeyed : AllSteps step Obeyed ⟨"1.2.0", none, { autoApply := "patch" }, none, [], [], []⟩
      patchThenUpdate := by decide +kernel
  exact ⟨by decide +kernel, updates_obey_policy "1.2.0" none { autoApply := "patch" } hobeyed⟩

/-- The daemon and a command are launched; the command updates to 3.0.0; the daemon, whose feed is
behind, stages 2.0.0 and is told to apply it. -/
def applyStale : List Op :=
  [.launch {}, .launch {}, .updateNow 1 (.answers "v3.0.0"), .staged 0 (.ok ()) false,
   .applied 0 {}, .checkNow 0 (.answers "v2.0.0"), .staged 0 (.ok ()) false, .applyNow 0 {}]

/-- `check_now` stages 2.0.0 under `all`; the policy is set to `none`; a launch applies it. -/
def policyNarrowed : List Op :=
  [.launch {}, .checkNow 0 (.answers "v2.0.0"), .staged 0 (.ok ()) false,
   .setPrefs { autoApply := some "none" } true, .launch {}]

theorem update_goes_back :
    (⟨"3.0.0", "2.0.0", none, true⟩ ∈
        (run step ⟨"1.0.0", none, {}, none, [], [], []⟩ applyStale).swaps ∧
      compareSemver "2.0.0" "3.0.0" = .lt) ∧
    ⟨"1.0.0", "2.0.0", some .none, true⟩ ∈
        (run step ⟨"1.0.0", none, {}, none, [], [], []⟩ policyNarrowed).swaps ∧
      policyAllows .none "1.0.0" "2.0.0" = false := by
  decide +kernel

end MyOwnMesh.Updater
