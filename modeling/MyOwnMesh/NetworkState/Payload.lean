import MyOwnMesh.Lib.Delimited
import MyOwnMesh.NetworkState.Types

/-!
# Which signed payloads are unambiguous

A transition payload is a tag, the network id and a hand-formatted variant
(`network_state.rs:198–278`), put together with `|` and `,` and no escaping. Every variant
but a split and a hub list can be read back. A deny payload (`governance.rs:278–289`)
starts like the transition payload of a network named `deny`.
-/

namespace MyOwnMesh

open Lib Lib.Delimited

/-- Normalize a user-typed network id; `identity.rs:327–350`. `lowercase` is the platform's
`str::to_lowercase`. -/
def normalizeNetworkId (lowercase : String → String) (input : String) : Except Error String :=
  let trimmed := lowercase (Text.trim input)
  if trimmed = "" then .error (.identity "network id is empty")
  else if trimmed.utf8ByteSize < 3 then
    .error (.identity "network id must be at least 3 characters")
  else if 64 < trimmed.utf8ByteSize then
    .error (.identity "network id must be 64 characters or fewer")
  else
    match trimmed.toList.find? fun c ↦ !(c.isAlphanum || c == '-' || c == '_') with
    | some c =>
      .error (.identity ("network id contains '" ++ String.singleton c ++
        "'; only letters, digits, '-', and '_' are allowed"))
    | none => .ok trimmed

/-- The id is the normal form of something a user can type. -/
def AcceptedId (lowercase : String → String) (networkId : String) : Prop :=
  ∃ input, normalizeNetworkId lowercase input = .ok networkId

/-- Equal up to the order of split members and of hub lists. -/
def SameUpToOrder : TransitionVariant → TransitionVariant → Prop
  | .split n ms, .split n' ms' => n = n' ∧ ms.Perm ms'
  | .topologyChange (.hubs hubs r), .topologyChange (.hubs hubs' r') =>
    hubs.Perm hubs' ∧ r = r'
  | v, w => v = w

/-- The payload of the variant can be read back: a split names one member and neither the
new id nor the member contains the member separator, a hub list names one hub, and that
one name is not empty and has no comma between two parts in ascending order. -/
def Readable : TransitionVariant → Prop
  | .split newNetworkId members =>
    ∃ x, members = [x] ∧ Unjoined x ∧ ¬ "|members=".toList <:+: newNetworkId.toList ∧
      ¬ "|members=".toList <:+: x.toList
  | .topologyChange (.hubs hubs _) => ∃ x, hubs = [x] ∧ Unjoined x
  | _ => True

/-- The payload of the variant has at most one separator after the network id. -/
def DenyFree : TransitionVariant → Prop
  | .kindChange _ | .topologyChange .fullMesh | .unknown => True
  | .roleRevoke target | .evict target => '|' ∉ target.toList
  | _ => False

/-! ### The network id is cut off first -/

/-- An accepted id contains no separator. -/
theorem AcceptedId.no_separator {lowercase : String → String} {n : String}
    (h : AcceptedId lowercase n) : '|' ∉ n.toList := by
  obtain ⟨input, h⟩ := h
  unfold normalizeNetworkId at h
  simp only at h
  split at h
  · cases h
  · split at h
    · cases h
    · split at h
      · cases h
      · split at h
        · cases h
        · next hfind =>
          cases h
          intro hc
          have hall := List.find?_eq_none.mp hfind '|' hc
          exact hall (by decide)

private theorem payload_eq_iff {n n' w w' : String} (hn : '|' ∉ n.toList)
    (hn' : '|' ∉ n'.toList) :
    Text.utf8 (signDomainTagState ++ n ++ "|" ++ w) =
        Text.utf8 (signDomainTagState ++ n' ++ "|" ++ w') ↔ n = n' ∧ w = w' := by
  rw [Text.utf8_inj, ← String.toList_inj]
  simp only [String.toList_append, List.append_assoc, List.append_cancel_left_eq]
  constructor
  · intro h
    obtain ⟨h₁, h₂⟩ := cut_first_inj hn hn' h
    exact ⟨String.toList_inj.mp h₁, String.toList_inj.mp h₂⟩
  · rintro ⟨rfl, rfl⟩
    rfl

/-- Payloads of accepted networks are equal exactly when the networks and the variant parts
are. -/
theorem transitionPayload_eq_iff {n n' : String} (hn : '|' ∉ n.toList) (hn' : '|' ∉ n'.toList)
    (v w : TransitionVariant) :
    transitionPayload n v = transitionPayload n' w ↔ n = n' ∧ variantWord v = variantWord w :=
  payload_eq_iff hn hn'

/-! ### The variant part -/

/-- The fixed beginning of the variant part. -/
def variantHead : TransitionVariant → String
  | .kindChange _ => "kind_change|to="
  | .roleGrant _ _ => "role_grant|target="
  | .roleRevoke _ => "role_revoke|target="
  | .evict _ => "evict|target="
  | .split _ _ => "split|new_id="
  | .topologyChange .fullMesh => "topology|full_mesh"
  | .topologyChange (.ring _) => "topology|ring|n="
  | .topologyChange (.star _) => "topology|star|hub="
  | .topologyChange (.hubs _ _) => "topology|hubs|hubs="
  | .unknown => "unknown"

/-- The rest of the variant part. -/
def variantBody : TransitionVariant → String
  | .kindChange to_ => kindWord to_
  | .roleGrant target role => target ++ "|role=" ++ roleWord role
  | .roleRevoke target | .evict target => target
  | .split newNetworkId members => newNetworkId ++ "|members=" ++ sortedJoin members
  | .topologyChange .fullMesh | .unknown => ""
  | .topologyChange (.ring nPreferred) => countWord nPreferred
  | .topologyChange (.star hub) => hub
  | .topologyChange (.hubs hubs spokeRedundancy) =>
    sortedJoin hubs ++ "|r=" ++ countWord spokeRedundancy

private theorem variantWord_eq (v : TransitionVariant) :
    variantWord v = variantHead v ++ variantBody v := by
  cases v with
  | kindChange k => rfl
  | roleGrant target role =>
    show "role_grant|target=" ++ target ++ "|role=" ++ roleWord role =
      "role_grant|target=" ++ (target ++ "|role=" ++ roleWord role)
    simp only [String.append_assoc]
  | roleRevoke target => rfl
  | evict target => rfl
  | split newNetworkId members =>
    show "split|new_id=" ++ newNetworkId ++ "|members=" ++ sortedJoin members =
      "split|new_id=" ++ (newNetworkId ++ "|members=" ++ sortedJoin members)
    simp only [String.append_assoc]
  | topologyChange m =>
    cases m with
    | fullMesh => rfl
    | ring n => rfl
    | star hub => rfl
    | hubs hubs r =>
      show "topology|hubs|hubs=" ++ sortedJoin hubs ++ "|r=" ++ countWord r =
        "topology|hubs|hubs=" ++ (sortedJoin hubs ++ "|r=" ++ countWord r)
      simp only [String.append_assoc]
  | unknown => rfl

private def variantHeads : List String :=
  ["kind_change|to=", "role_grant|target=", "role_revoke|target=", "evict|target=",
    "split|new_id=", "topology|full_mesh", "topology|ring|n=", "topology|star|hub=",
    "topology|hubs|hubs=", "unknown"]

private theorem variantHead_mem (v : TransitionVariant) : variantHead v ∈ variantHeads := by
  cases v with
  | topologyChange m => cases m <;> simp [variantHead, variantHeads]
  | _ => simp [variantHead, variantHeads]

/-- No beginning is a prefix of another one. -/
private theorem variantHeads_prefix_free :
    ∀ h ∈ variantHeads, ∀ h' ∈ variantHeads, h.toList <+: h'.toList → h = h' := by
  decide

/-- The variant part determines its fixed beginning. -/
theorem variantWord_eq_iff (v w : TransitionVariant) :
    variantWord v = variantWord w ↔
      variantHead v = variantHead w ∧ variantBody v = variantBody w := by
  rw [variantWord_eq, variantWord_eq]
  constructor
  · intro h
    have hl : (variantHead v).toList ++ (variantBody v).toList =
        (variantHead w).toList ++ (variantBody w).toList := by
      rw [← String.toList_append, ← String.toList_append, h]
    have hhead : variantHead v = variantHead w := by
      have hv := variantHead_mem v
      have hw := variantHead_mem w
      rcases List.append_eq_append_iff.mp hl with ⟨x, hx, -⟩ | ⟨x, hx, -⟩
      · exact variantHeads_prefix_free _ hv _ hw ⟨x, hx.symm⟩
      · exact (variantHeads_prefix_free _ hw _ hv ⟨x, hx.symm⟩).symm
    rw [hhead, List.append_cancel_left_eq, String.toList_inj] at hl
    exact ⟨hhead, hl⟩
  · rintro ⟨hh, hb⟩
    rw [hh, hb]

/-! ### The body of each variant -/

private theorem countWord_toList (n : UInt32) :
    (countWord (some n)).toList = Nat.toDigits 10 n.toNat := by
  simp [countWord]

private theorem isDigit_countWord {n : UInt32} {c : Char}
    (h : c ∈ (countWord (some n)).toList) : c.isDigit = true := by
  rw [countWord_toList] at h
  exact Nat.isDigit_of_mem_toDigits (by decide) (by decide) h

private theorem countWord_no_separator (n : Option UInt32) : '|' ∉ (countWord n).toList := by
  cases n with
  | none => decide
  | some n => exact fun h ↦ absurd (isDigit_countWord h) (by decide)

private theorem countWord_inj {m n : Option UInt32} (h : countWord m = countWord n) : m = n := by
  have hne : ∀ k : UInt32, countWord none ≠ countWord (some k) := by
    intro k hk
    have hn : 'n' ∈ (countWord (some k)).toList := by
      rw [← hk]
      decide
    exact absurd (isDigit_countWord hn) (by decide)
  cases m with
  | none =>
    cases n with
    | none => rfl
    | some k => exact absurd h (hne k)
  | some k =>
    cases n with
    | none => exact absurd h.symm (hne k)
    | some l =>
      rw [← String.toList_inj, countWord_toList, countWord_toList] at h
      have hnat := congrArg (Nat.ofDigitChars 10 · 0) h
      simp only [Nat.ofDigitChars_ten_toDigits] at hnat
      rw [UInt32.toNat_inj.mp hnat]

private theorem roleWord_no_separator (r : Role) : '|' ∉ ("role=" ++ roleWord r).toList := by
  cases r <;> decide

private theorem roleGrant_body_inj {x y : String} {r q : Role}
    (h : x ++ "|role=" ++ roleWord r = y ++ "|role=" ++ roleWord q) : x = y ∧ r = q := by
  have hl : x.toList ++ '|' :: ("role=" ++ roleWord r).toList =
      y.toList ++ '|' :: ("role=" ++ roleWord q).toList := by
    have hs := congrArg String.toList h
    simpa using hs
  obtain ⟨hx, hr⟩ := cut_last_inj (roleWord_no_separator r) (roleWord_no_separator q) hl
  rw [String.toList_inj] at hx hr
  exact ⟨hx, roleWord_inj ((String.append_right_inj _).mp hr)⟩

private theorem hubs_body_inj {x y : String} {r q : Option UInt32}
    (h : x ++ "|r=" ++ countWord r = y ++ "|r=" ++ countWord q) : x = y ∧ r = q := by
  have hno : ∀ n, '|' ∉ ("r=" ++ countWord n).toList := by
    intro n hn
    rw [String.toList_append, List.mem_append] at hn
    rcases hn with hn | hn
    · exact absurd hn (by decide)
    · exact countWord_no_separator n hn
  have hl : x.toList ++ '|' :: ("r=" ++ countWord r).toList =
      y.toList ++ '|' :: ("r=" ++ countWord q).toList := by
    have hs := congrArg String.toList h
    simpa using hs
  obtain ⟨hx, hr⟩ := cut_last_inj (hno r) (hno q) hl
  rw [String.toList_inj] at hx hr
  exact ⟨hx, countWord_inj ((String.append_right_inj _).mp hr)⟩

/-- Two variants of one variant part are equal, or two splits, or two hub lists. -/
theorem variantWord_cases {v w : TransitionVariant} (h : variantWord v = variantWord w) :
    v = w ∨
      (∃ n ms n' ms', v = .split n ms ∧ w = .split n' ms' ∧
        n ++ "|members=" ++ sortedJoin ms = n' ++ "|members=" ++ sortedJoin ms') ∨
      ∃ hubs hubs' r, v = .topologyChange (.hubs hubs r) ∧
        w = .topologyChange (.hubs hubs' r) ∧ sortedJoin hubs = sortedJoin hubs' := by
  obtain ⟨hh, hb⟩ := (variantWord_eq_iff v w).mp h
  rcases v with k | ⟨x, r⟩ | x | x | ⟨n, ms⟩ | (c | x | ⟨hubs, r⟩ | _) | _ <;>
    rcases w with k' | ⟨x', r'⟩ | x' | x' | ⟨n', ms'⟩ | (c' | x' | ⟨hubs', r'⟩ | _) | _ <;>
    simp [variantHead] at hh
  · exact .inl (by rw [kindWord_inj hb])
  · obtain ⟨rfl, rfl⟩ := roleGrant_body_inj hb
    exact .inl rfl
  · exact .inl (by rw [show x = x' from hb])
  · exact .inl (by rw [show x = x' from hb])
  · exact .inr (.inl ⟨n, ms, n', ms', rfl, rfl, hb⟩)
  · exact .inl (by rw [countWord_inj hb])
  · exact .inl (by rw [show x = x' from hb])
  · obtain ⟨hj, rfl⟩ := hubs_body_inj hb
    exact .inr (.inr ⟨hubs, hubs', r, rfl, rfl, hj⟩)
  · exact .inl rfl
  · exact .inl rfl

/-! ### Reading a variant back -/

private theorem sameUpToOrder_refl (v : TransitionVariant) : SameUpToOrder v v := by
  cases v with
  | split n ms => exact ⟨rfl, .refl _⟩
  | topologyChange m =>
    cases m with
    | hubs hubs r => exact ⟨.refl _, rfl⟩
    | _ => rfl
  | _ => rfl

/-- The new id and the members of a split are determined exactly when the separator between them
has one place and the members are one text that is not a join. -/
private theorem split_determined_iff (n : String) (ms : List String) :
    (∀ n' ms', n ++ "|members=" ++ sortedJoin ms = n' ++ "|members=" ++ sortedJoin ms' →
        n = n' ∧ ms.Perm ms') ↔
      ∃ x, ms = [x] ∧ Unjoined x ∧ ¬ "|members=".toList <:+: n.toList ∧
        ¬ "|members=".toList <:+: x.toList := by
  have hsep : "|members=".toList = '|' :: "members=".toList := by decide
  have hc : '|' ∉ "members=".toList := by decide
  have hlist : ∀ a b : String, (a ++ "|members=" ++ b).toList =
      a.toList ++ (('|' :: "members=".toList) ++ b.toList) := by
    intro a b
    rw [String.toList_append, String.toList_append, hsep, List.append_assoc]
  rw [hsep]
  constructor
  · intro h
    have hcut := (cut_unique_iff hc n.toList (sortedJoin ms).toList).mp fun a' b' he ↦ by
      have ha : (String.ofList a').toList = a' := String.toList_ofList
      have hb : (String.ofList b').toList = b' := String.toList_ofList
      have hn := (h (String.ofList a') [String.ofList b'] (by
        rw [← String.toList_inj, hlist, hlist, sortedJoin_singleton, ha, hb, he])).1
      rw [hn, ha]
    obtain ⟨x, rfl, hx⟩ := (sortedJoin_determines_iff ms).mp fun ys hys ↦
      (h n ys (by rw [hys])).2
    rw [sortedJoin_singleton] at hcut
    exact ⟨x, rfl, hx, hcut.1, hcut.2⟩
  · rintro ⟨x, rfl, hx, hn, hxm⟩ n' ms' he
    rw [← String.toList_inj, hlist, hlist, sortedJoin_singleton] at he
    have heq := (cut_unique_iff hc n.toList x.toList).mpr ⟨hn, hxm⟩ _ _ he.symm
    rw [heq, List.append_cancel_left_eq, List.append_cancel_left_eq, String.toList_inj] at he
    refine ⟨(String.toList_inj.mp heq).symm, ?_⟩
    refine (sortedJoin_determines_iff [x]).mpr ⟨x, rfl, hx⟩ ms' ?_
    rw [sortedJoin_singleton, he]

/-- The variant part determines the variant, up to order, exactly when it is readable. -/
theorem readable_iff (v : TransitionVariant) :
    (∀ w, variantWord v = variantWord w → SameUpToOrder v w) ↔ Readable v := by
  constructor
  · intro h
    cases v with
    | split n ms =>
      refine (split_determined_iff n ms).mp fun n' ms' he ↦ ?_
      exact h (.split n' ms') ((variantWord_eq_iff _ _).mpr ⟨rfl, he⟩)
    | topologyChange m =>
      cases m with
      | hubs hubs r =>
        refine (sortedJoin_determines_iff hubs).mp fun hubs' he ↦ ?_
        have hbody : variantBody (.topologyChange (.hubs hubs r)) =
            variantBody (.topologyChange (.hubs hubs' r)) := by
          show sortedJoin hubs ++ "|r=" ++ countWord r = sortedJoin hubs' ++ "|r=" ++ countWord r
          rw [he]
        exact (h (.topologyChange (.hubs hubs' r))
          ((variantWord_eq_iff _ _).mpr ⟨rfl, hbody⟩)).1
      | _ => trivial
    | _ => trivial
  · intro hr w hw
    rcases variantWord_cases hw with rfl | ⟨n, ms, n', ms', rfl, rfl, he⟩ |
      ⟨hubs, hubs', r, rfl, rfl, he⟩
    · exact sameUpToOrder_refl v
    · exact (split_determined_iff n ms).mpr hr n' ms' he
    · exact ⟨(sortedJoin_determines_iff hubs).mpr hr hubs' he.symm, rfl⟩

/-! ### Deny payloads -/

private theorem denyPayload_eq (networkId proposalId signer : String) :
    denyPayload networkId proposalId signer =
      Text.utf8 (signDomainTagState ++ "deny" ++ "|" ++
        (networkId ++ "|" ++ proposalId ++ "|" ++ signer)) := by
  have h : "deny|" = "deny" ++ "|" := by decide
  unfold denyPayload
  rw [h]
  simp only [String.append_assoc]

private theorem exists_denial_iff (w : String) :
    (∃ a b c : String, w = a ++ "|" ++ b ++ "|" ++ c) ↔ 2 ≤ w.toList.count '|' := by
  rw [← exists_two_cuts_iff]
  constructor
  · rintro ⟨a, b, c, h⟩
    refine ⟨a.toList, b.toList, c.toList, ?_⟩
    rw [h]
    simp
  · rintro ⟨a, b, c, h⟩
    refine ⟨String.ofList a, String.ofList b, String.ofList c, ?_⟩
    rw [← String.toList_inj, h]
    simp

private theorem count_variantHead (v : TransitionVariant) :
    (variantHead v).toList.count '|' =
      match v with
      | .topologyChange .fullMesh => 1
      | .topologyChange _ => 2
      | .unknown => 0
      | _ => 1 := by
  cases v with
  | kindChange k => exact (by decide : "kind_change|to=".toList.count '|' = 1)
  | roleGrant target role => exact (by decide : "role_grant|target=".toList.count '|' = 1)
  | roleRevoke target => exact (by decide : "role_revoke|target=".toList.count '|' = 1)
  | evict target => exact (by decide : "evict|target=".toList.count '|' = 1)
  | split n ms => exact (by decide : "split|new_id=".toList.count '|' = 1)
  | topologyChange m =>
    cases m with
    | fullMesh => exact (by decide : "topology|full_mesh".toList.count '|' = 1)
    | ring n => exact (by decide : "topology|ring|n=".toList.count '|' = 2)
    | star hub => exact (by decide : "topology|star|hub=".toList.count '|' = 2)
    | hubs hubs r => exact (by decide : "topology|hubs|hubs=".toList.count '|' = 2)
  | unknown => exact (by decide : "unknown".toList.count '|' = 0)

/-- The variant part cannot be cut into a network, a proposal and a signer exactly when it
has at most one separator. -/
theorem denyFree_iff (v : TransitionVariant) :
    DenyFree v ↔ ¬ ∃ a b c, variantWord v = a ++ "|" ++ b ++ "|" ++ c := by
  rw [exists_denial_iff, variantWord_eq, String.toList_append, List.count_append,
    count_variantHead, Nat.not_le]
  cases v with
  | kindChange k =>
    have hbody : (variantBody (.kindChange k)).toList.count '|' = 0 := by
      show (kindWord k).toList.count '|' = 0
      cases k <;> decide
    simp only [DenyFree, true_iff]
    omega
  | roleGrant target role =>
    have hbody : 0 < (variantBody (.roleGrant target role)).toList.count '|' := by
      rw [List.count_pos_iff]
      simp [variantBody]
    simp only [DenyFree, false_iff]
    omega
  | roleRevoke target =>
    simp only [DenyFree, variantBody, ← List.count_eq_zero]
    omega
  | evict target =>
    simp only [DenyFree, variantBody, ← List.count_eq_zero]
    omega
  | split n ms =>
    have hbody : 0 < (variantBody (.split n ms)).toList.count '|' := by
      rw [List.count_pos_iff]
      simp [variantBody]
    simp only [DenyFree, false_iff]
    omega
  | topologyChange m =>
    cases m with
    | fullMesh =>
      simp only [DenyFree, true_iff]
      decide
    | ring n =>
      simp only [DenyFree, false_iff]
      omega
    | star hub =>
      simp only [DenyFree, false_iff]
      omega
    | hubs hubs r =>
      simp only [DenyFree, false_iff]
      omega
  | unknown =>
    simp only [DenyFree, true_iff]
    decide

/-! ### Signed payloads -/

/-- A payload of an accepted network belongs to that network and variant alone, and is no
deny payload, exactly when the variant is readable and either the network is not called
`deny` or the variant part has at most one separator. -/
theorem payload_unambiguous_iff {lowercase : String → String} {n : String}
    (hn : AcceptedId lowercase n) (v : TransitionVariant) :
    ((∀ n' w, AcceptedId lowercase n' → transitionPayload n v = transitionPayload n' w →
        n = n' ∧ SameUpToOrder v w) ∧
      ∀ networkId proposalId signer,
        transitionPayload n v ≠ denyPayload networkId proposalId signer) ↔
      Readable v ∧ (n ≠ "deny" ∨ DenyFree v) := by
  have hsep := hn.no_separator
  have hdeny : '|' ∉ "deny".toList := by decide
  refine and_congr ?_ ?_
  · rw [← readable_iff]
    constructor
    · intro h w hw
      exact (h n w hn ((transitionPayload_eq_iff hsep hsep v w).mpr ⟨rfl, hw⟩)).2
    · intro h n' w hn' he
      obtain ⟨rfl, hw⟩ := (transitionPayload_eq_iff hsep hn'.no_separator v w).mp he
      exact ⟨rfl, h w hw⟩
  · rw [denyFree_iff, ne_eq, ← not_and_or]
    constructor
    · rintro h ⟨rfl, a, b, c, hw⟩
      refine h a b c ?_
      rw [denyPayload_eq]
      exact (payload_eq_iff hdeny hdeny).mpr ⟨rfl, hw⟩
    · intro h a b c he
      rw [denyPayload_eq] at he
      obtain ⟨rfl, hw⟩ := (payload_eq_iff hsep hdeny).mp he
      exact h ⟨rfl, a, b, c, hw⟩

private theorem accepted_fleet : AcceptedId Text.asciiLower "fleet" := ⟨"fleet", by decide⟩

/-- A grant in the concrete network has a payload of its own. -/
theorem grant_payload_unambiguous :
    (∀ n' w, AcceptedId Text.asciiLower n' →
        transitionPayload "fleet" (.roleGrant "x" .member) = transitionPayload n' w →
        "fleet" = n' ∧ SameUpToOrder (.roleGrant "x" .member) w) ∧
      ∀ networkId proposalId signer, transitionPayload "fleet" (.roleGrant "x" .member) ≠
        denyPayload networkId proposalId signer :=
  (payload_unambiguous_iff accepted_fleet (.roleGrant "x" .member)).mpr
    ⟨trivial, .inl (by decide)⟩

/-- A split for the members `a` and `b` signs the same bytes as one for the member `a,b`,
and a split of the network `deny` the same bytes as a denial in the network `split`. -/
theorem split_payload_ambiguous :
    AcceptedId Text.asciiLower "fleet" ∧ AcceptedId Text.asciiLower "deny" ∧
      transitionPayload "fleet" (.split "new" ["a", "b"]) =
        transitionPayload "fleet" (.split "new" ["a,b"]) ∧
      ¬ SameUpToOrder (.split "new" ["a", "b"]) (.split "new" ["a,b"]) ∧
      transitionPayload "deny" (.split "new" ["a"]) =
        denyPayload "split" "new_id=new" "members=a" := by
  refine ⟨accepted_fleet, ⟨"deny", by decide⟩, ?_, ?_, ?_⟩
  · exact congrArg Text.utf8 (by decide)
  · exact fun h ↦ absurd h.2.length_eq (by decide)
  · exact congrArg Text.utf8 (by decide)

end MyOwnMesh
