import MyOwnMesh.NetworkState.Types

/-!
# The roster of authorised devices

`crates/myownmesh-core/src/roster.rs:24–262`. A roster is a list of rows keyed by the
bare public key of a device; every accessor of the source reads the first row of a
device. `Roster.row` is that view, and each operation is specified by what it does to it.
-/

namespace MyOwnMesh

open Lib

/-- One authorised device; `roster.rs:26–49`. -/
structure AuthorizedPeer where
  deviceId : String
  label : String
  approvedAt : UInt64
  role : Role
  deriving DecidableEq, Repr

/-- The roster of one network; `roster.rs:51–59`. -/
structure Roster where
  version : UInt32
  networkId : String
  authorizedDevices : List AuthorizedPeer
  deriving DecidableEq, Repr

/-- A fresh roster; `roster.rs:84–90`. -/
def Roster.emptyFor (networkId : String) : Roster where
  version := 1
  networkId := networkId
  authorizedDevices := []

/-- Edit the first row of a device, `iter_mut().find(..)`. -/
def modifyPeer (pubkey : String) (f : AuthorizedPeer → AuthorizedPeer) :
    List AuthorizedPeer → List AuthorizedPeer
  | [] => []
  | p :: rest => if p.deviceId = pubkey then f p :: rest else p :: modifyPeer pubkey f rest

/-- Membership test by bare public key; `roster.rs:142–148`. -/
def isAuthorized (roster : Roster) (deviceId : String) : Bool :=
  roster.authorizedDevices.any (·.deviceId == pubkeyPart deviceId)

/-- Add a device or refresh its label; `roster.rs:98–114`. -/
def addPeerIn (now : UInt64) (roster : Roster) (deviceId label : String) : Roster :=
  if isAuthorized roster deviceId then
    { roster with
      authorizedDevices := modifyPeer (pubkeyPart deviceId)
        (fun p ↦ { p with label := label }) roster.authorizedDevices }
  else
    { roster with
      authorizedDevices := roster.authorizedDevices ++
        [⟨pubkeyPart deviceId, label, now, .member⟩] }

/-- Set the role tag of a row and say whether it changed; `roster.rs:119–132`. -/
def setRoleIn (roster : Roster) (deviceId : String) (role : Role) : Roster × Bool :=
  match roster.authorizedDevices.find? (·.deviceId == pubkeyPart deviceId) with
  | some existing =>
    if existing.role ≠ role then
      ({ roster with
        authorizedDevices := modifyPeer (pubkeyPart deviceId)
          (fun p ↦ { p with role := role }) roster.authorizedDevices }, true)
    else (roster, false)
  | none => (roster, false)

/-- Drop every row of a device; `roster.rs:134–137`. -/
def removePeerIn (roster : Roster) (deviceId : String) : Roster :=
  { roster with
    authorizedDevices := roster.authorizedDevices.filter (·.deviceId ≠ pubkeyPart deviceId) }

/-- Add a device that has no row, then set its role: the pair of calls that follows every
signed grant. -/
def grantIn (now : UInt64) (roster : Roster) (deviceId label : String) (role : Role) :
    Roster × Bool :=
  setRoleIn (if isAuthorized roster deviceId then roster
    else addPeerIn now roster deviceId label) deviceId role

/-- Version tag of the roster hashes; `roster.rs:186`. -/
def rosterMerkleV : String := "v1"

/-- The bytes the membership root hashes: the sorted device ids, each closed by a bar;
`roster.rs:244–259`. -/
def membershipText (roster : Roster) : String :=
  rosterMerkleV ++ "|membership" ++ String.join
    ((Text.sortStrings (roster.authorizedDevices.map AuthorizedPeer.deviceId)).map (· ++ "|"))

/-- The membership root; `roster.rs:244–262`. -/
def membershipRoot (P : Primitives) (roster : Roster) : String :=
  base32Lower (P.sha256 (Text.utf8 (membershipText roster)))

/-! ### The row of a device -/

/-- The role tag of the first row of a device, if it has a row. -/
def Roster.row (roster : Roster) (pubkey : String) : Option Role :=
  (roster.authorizedDevices.find? (·.deviceId == pubkey)).map AuthorizedPeer.role

private theorem find?_modifyPeer (pubkey k : String) (f : AuthorizedPeer → AuthorizedPeer)
    (hf : ∀ p, (f p).deviceId = p.deviceId) (rows : List AuthorizedPeer) :
    (modifyPeer pubkey f rows).find? (·.deviceId == k) =
      if k = pubkey then (rows.find? (·.deviceId == k)).map f
      else rows.find? (·.deviceId == k) := by
  induction rows with
  | nil => simp [modifyPeer]
  | cons p rest ih =>
    by_cases hp : p.deviceId = pubkey
    · by_cases hk : k = pubkey
      · simp [modifyPeer, hp, hk, hf]
      · have hne : ¬ pubkey = k := fun h ↦ hk h.symm
        simp [modifyPeer, hp, hk, hf, hne]
    · by_cases hpk : p.deviceId = k
      · have hk : ¬ k = pubkey := fun h ↦ hp (hpk.trans h)
        simp [modifyPeer, hpk, hk]
      · simp [modifyPeer, hp, hpk, ih]

/-- A device is authorised exactly when it has a row. -/
theorem isAuthorized_eq_isSome_row (roster : Roster) (deviceId : String) :
    isAuthorized roster deviceId = (roster.row (pubkeyPart deviceId)).isSome := by
  rw [isAuthorized, Roster.row, Option.isSome_map, List.isSome_find?]

/-- Setting a role changes the tag of that row only. -/
theorem row_setRoleIn (roster : Roster) (deviceId : String) (role : Role) (k : String) :
    (setRoleIn roster deviceId role).1.row k =
      if k = pubkeyPart deviceId then (roster.row k).map fun _ ↦ role else roster.row k := by
  unfold setRoleIn
  cases hf : roster.authorizedDevices.find? (·.deviceId == pubkeyPart deviceId) with
  | none =>
    by_cases hk : k = pubkeyPart deviceId
    · simp [Roster.row, hk, hf]
    · simp [hk]
  | some existing =>
    by_cases hr : existing.role = role
    · by_cases hk : k = pubkeyPart deviceId
      · simp [Roster.row, hk, hf, hr]
      · simp [hk, hr]
    · simp only [ne_eq, hr, not_false_eq_true, ↓reduceIte, Roster.row]
      rw [find?_modifyPeer]
      · split
        · simp [Function.comp_def]
        · rfl
      · exact fun _ ↦ rfl

/-- Adding a device gives it a row; an existing tag is kept. -/
theorem row_addPeerIn (now : UInt64) (roster : Roster) (deviceId label k : String) :
    (addPeerIn now roster deviceId label).row k =
      if k = pubkeyPart deviceId then some ((roster.row k).getD .member) else roster.row k := by
  unfold addPeerIn
  split
  · next ha =>
    rw [isAuthorized_eq_isSome_row] at ha
    obtain ⟨r, hr⟩ := Option.isSome_iff_exists.mp ha
    simp only [Roster.row]
    rw [find?_modifyPeer]
    · by_cases hk : k = pubkeyPart deviceId
      · subst hk
        simp only [Roster.row] at hr
        simp [Function.comp_def, hr]
      · simp [hk]
    · exact fun _ ↦ rfl
  · next ha =>
    rw [isAuthorized_eq_isSome_row, Bool.not_eq_true, Option.isSome_eq_false_iff,
      Option.isNone_iff_eq_none] at ha
    by_cases hk : k = pubkeyPart deviceId
    · subst hk
      rw [ha]
      simp only [Roster.row, Option.map_eq_none_iff] at ha
      simp [Roster.row, List.find?_append, ha]
    · have hne : ¬ pubkeyPart deviceId = k := fun h ↦ hk h.symm
      simp [Roster.row, List.find?_append, hk, hne]

/-- Removing a device leaves it without a row. -/
theorem row_removePeerIn (roster : Roster) (deviceId k : String) :
    (removePeerIn roster deviceId).row k =
      if k = pubkeyPart deviceId then none else roster.row k := by
  simp only [Roster.row, removePeerIn, List.find?_filter]
  split
  · next hk =>
    subst hk
    rw [Option.map_eq_none_iff, List.find?_eq_none]
    intro p _
    simp
  · next hk =>
    congr 2
    funext p
    by_cases hp : p.deviceId = k <;> simp [hp, hk]

/-- A signed grant leaves the device with a row of exactly that role. -/
theorem row_grantIn (now : UInt64) (roster : Roster) (deviceId label : String) (role : Role)
    (k : String) :
    (grantIn now roster deviceId label role).1.row k =
      if k = pubkeyPart deviceId then some role else roster.row k := by
  rw [grantIn, row_setRoleIn]
  by_cases hk : k = pubkeyPart deviceId
  · simp only [hk, ↓reduceIte]
    split
    · next ha =>
      rw [isAuthorized_eq_isSome_row] at ha
      obtain ⟨r, hr⟩ := Option.isSome_iff_exists.mp ha
      simp [hr]
    · simp [row_addPeerIn]
  · simp only [hk, ↓reduceIte]
    split
    · rfl
    · simp [row_addPeerIn, hk]

/-! ### One row per device -/

/-- No two rows are of one device. -/
def Roster.Distinct (roster : Roster) : Prop :=
  (roster.authorizedDevices.map AuthorizedPeer.deviceId).Nodup

/-- A fresh roster has no rows to confuse. -/
theorem distinct_emptyFor (networkId : String) : (Roster.emptyFor networkId).Distinct :=
  List.nodup_nil

/-- With one row per device, a row is what its device's lookup finds. -/
theorem Roster.Distinct.row_of_mem {roster : Roster} (h : roster.Distinct) {e : AuthorizedPeer}
    (he : e ∈ roster.authorizedDevices) : roster.row e.deviceId = some e.role := by
  unfold Roster.Distinct at h
  unfold Roster.row
  generalize roster.authorizedDevices = rows at h he
  induction rows with
  | nil => cases he
  | cons p rest ih =>
    rw [List.map_cons, List.nodup_cons] at h
    rcases List.mem_cons.mp he with rfl | he'
    · simp
    · have hne : p.deviceId ≠ e.deviceId := by
        intro heq
        apply h.1
        rw [heq]
        exact List.mem_map_of_mem he'
      rw [List.find?_cons_of_neg (by simpa using hne)]
      exact ih h.2 he'

/-- Two rosters with rows of the same devices hash the same text. -/
theorem membershipText_congr {a b : Roster} (ha : a.Distinct) (hb : b.Distinct)
    (h : ∀ k, (a.row k).isSome = (b.row k).isSome) : membershipText a = membershipText b := by
  have hmem : ∀ {r : Roster} {k : String},
      k ∈ r.authorizedDevices.map AuthorizedPeer.deviceId ↔ (r.row k).isSome = true := by
    intro r k
    rw [Roster.row, Option.isSome_map, List.isSome_find?, List.any_eq_true, List.mem_map]
    simp
  have hperm := (List.perm_ext_iff_of_nodup ha hb).mpr fun k ↦ by rw [hmem, hmem, h]
  rw [membershipText, membershipText, Text.sortStrings_of_perm hperm]

/-- What a lookup finds is a row. -/
theorem Roster.exists_of_row {roster : Roster} {k : String} {r : Role}
    (h : roster.row k = some r) :
    ∃ e ∈ roster.authorizedDevices, e.deviceId = k ∧ e.role = r := by
  unfold Roster.row at h
  obtain ⟨e, he, hr⟩ := Option.map_eq_some_iff.mp h
  exact ⟨e, List.mem_of_find?_eq_some he, by simpa using List.find?_some he, hr⟩

private theorem map_deviceId_modifyPeer (pubkey : String) (f : AuthorizedPeer → AuthorizedPeer)
    (hf : ∀ p, (f p).deviceId = p.deviceId) (rows : List AuthorizedPeer) :
    (modifyPeer pubkey f rows).map AuthorizedPeer.deviceId =
      rows.map AuthorizedPeer.deviceId := by
  induction rows with
  | nil => rfl
  | cons p rest ih =>
    unfold modifyPeer
    split
    · rw [List.map_cons, List.map_cons, hf]
    · rw [List.map_cons, List.map_cons, ih]

/-- Setting a tag keeps the ids of the rows. -/
theorem map_deviceId_setRoleIn (roster : Roster) (deviceId : String) (role : Role) :
    (setRoleIn roster deviceId role).1.authorizedDevices.map AuthorizedPeer.deviceId =
      roster.authorizedDevices.map AuthorizedPeer.deviceId := by
  unfold setRoleIn
  split
  · split
    · exact map_deviceId_modifyPeer (pubkeyPart deviceId) (fun p ↦ { p with role := role })
        (fun _ ↦ rfl) roster.authorizedDevices
    · rfl
  · rfl

/-- Setting a tag keeps the devices of the roster. -/
theorem Roster.Distinct.setRoleIn {roster : Roster} (h : roster.Distinct) (deviceId : String)
    (role : Role) : (setRoleIn roster deviceId role).1.Distinct := by
  unfold Roster.Distinct
  rw [map_deviceId_setRoleIn]
  exact h

/-- Only a device without a row gets a new one. -/
theorem Roster.Distinct.addPeerIn {roster : Roster} (h : roster.Distinct) (now : UInt64)
    (deviceId label : String) : (addPeerIn now roster deviceId label).Distinct := by
  unfold MyOwnMesh.addPeerIn
  split
  · have hids := map_deviceId_modifyPeer (pubkeyPart deviceId)
      (fun p ↦ { p with label := label }) (fun _ ↦ rfl) roster.authorizedDevices
    show (List.map _ _).Nodup
    rw [hids]
    exact h
  · next hn =>
    unfold Roster.Distinct
    rw [List.map_append, List.nodup_append]
    refine ⟨h, List.nodup_singleton _, ?_⟩
    intro a ha b hb hab
    apply hn
    obtain ⟨e, he, rfl⟩ := List.mem_map.mp ha
    have hb' : b = pubkeyPart deviceId := by simpa using hb
    rw [isAuthorized, List.any_eq_true]
    exact ⟨e, he, by simp [hab, hb']⟩

/-- A signed grant keeps one row per device. -/
theorem Roster.Distinct.grantIn {roster : Roster} (h : roster.Distinct) (now : UInt64)
    (deviceId label : String) (role : Role) :
    (grantIn now roster deviceId label role).1.Distinct := by
  unfold MyOwnMesh.grantIn
  apply Roster.Distinct.setRoleIn
  split
  · exact h
  · exact h.addPeerIn now deviceId label

/-- Fewer rows are still one per device. -/
theorem Roster.Distinct.filter {roster : Roster} (h : roster.Distinct)
    (q : AuthorizedPeer → Bool) :
    Roster.Distinct { roster with
      authorizedDevices := roster.authorizedDevices.filter q } :=
  h.sublist (List.filter_sublist.map _)

end MyOwnMesh
