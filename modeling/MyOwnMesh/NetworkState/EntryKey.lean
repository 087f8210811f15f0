import MyOwnMesh.Lib.Json
import MyOwnMesh.NetworkState.Types

/-!
# The identity of a member-log entry

`crates/myownmesh-core/src/network_state.rs:824–831`. An entry is identified by its
compact JSON text: the timestamp, the tagged variant and the two lists, in field order.
Equal keys come from equal entries, so deduplication by key never drops a distinct one.
-/

namespace MyOwnMesh

open Lib

/-- The serde tag of a topology; `config.rs:28`. -/
def topologyTag : TopologyMode → String
  | .ring _ => "ring"
  | .star _ => "star"
  | .hubs _ _ => "hubs"
  | .fullMesh => "full_mesh"

/-- The fields of a topology after its tag. -/
def topologyFields : TopologyMode → List Char
  | .ring nPreferred =>
    ',' :: Json.field "n_preferred"
      (Json.optionalNumber (nPreferred.map UInt32.toNat) ++ ['}'])
  | .star hub => ',' :: Json.field "hub" (Json.quote hub ++ ['}'])
  | .hubs hubs spokeRedundancy =>
    ',' :: Json.field "hubs" (Json.array hubs ++ ',' :: Json.field "spoke_redundancy"
      (Json.optionalNumber (spokeRedundancy.map UInt32.toNat) ++ ['}']))
  | .fullMesh => ['}']

/-- The JSON object of a topology. -/
def topologyJson (m : TopologyMode) : List Char :=
  '{' :: Json.field "kind" (Json.quote (topologyTag m) ++ topologyFields m)

/-- The serde tag of a variant; `network_state.rs:146`. -/
def variantTag : TransitionVariant → String
  | .kindChange _ => "kind_change"
  | .roleGrant _ _ => "role_grant"
  | .roleRevoke _ => "role_revoke"
  | .evict _ => "evict"
  | .split _ _ => "split"
  | .topologyChange _ => "topology_change"
  | .unknown => "unknown"

/-- The fields of a variant after its tag. -/
def variantFields : TransitionVariant → List Char
  | .kindChange to_ => ',' :: Json.field "to" (Json.quote (kindWord to_) ++ ['}'])
  | .roleGrant target role =>
    ',' :: Json.field "target" (Json.quote target ++
      ',' :: Json.field "role" (Json.quote (roleWord role) ++ ['}']))
  | .roleRevoke target => ',' :: Json.field "target" (Json.quote target ++ ['}'])
  | .evict target => ',' :: Json.field "target" (Json.quote target ++ ['}'])
  | .split newNetworkId members =>
    ',' :: Json.field "new_network_id" (Json.quote newNetworkId ++
      ',' :: Json.field "members" (Json.array members ++ ['}']))
  | .topologyChange to_ => ',' :: Json.field "to" (topologyJson to_ ++ ['}'])
  | .unknown => ['}']

/-- The JSON object of a variant. -/
def variantJson (v : TransitionVariant) : List Char :=
  '{' :: Json.field "kind" (Json.quote (variantTag v) ++ variantFields v)

/-- The JSON text of an entry, `serde_json::to_string`; `network_state.rs:829–831`. -/
def memberEntryKey (t : Transition) : String :=
  String.ofList ('{' :: Json.field "at" (Json.number t.at_.toNat ++
    ',' :: Json.field "variant" (variantJson t.variant ++
      ',' :: Json.field "signers" (Json.array t.signers ++
        ',' :: Json.field "signatures" (Json.array t.signatures ++ ['}'])))))

/-! ### Equal texts come from equal entries -/

private theorem count_append_inj {m n : Option UInt32} {r u : List Char}
    (h : Json.optionalNumber (m.map UInt32.toNat) ++ '}' :: r =
      Json.optionalNumber (n.map UInt32.toNat) ++ '}' :: u) : m = n ∧ r = u := by
  obtain ⟨hmn, hr⟩ := Json.optionalNumber_append_inj (by decide) (by decide) h
  have hi : Function.Injective UInt32.toNat := fun _ _ ↦ UInt32.toNat_inj.mp
  exact ⟨Option.map_injective hi hmn, (List.cons.inj hr).2⟩

private theorem topologyJson_append_inj {m n : TopologyMode} {r u : List Char}
    (h : topologyJson m ++ r = topologyJson n ++ u) : m = n ∧ r = u := by
  simp only [topologyJson, List.cons_append, Json.field_append, List.append_assoc,
    List.cons.injEq, true_and, Json.field_inj] at h
  obtain ⟨htag, hf⟩ := Json.quote_append_inj h
  cases m <;> cases n <;> simp [topologyTag] at htag
  all_goals simp only [topologyFields, List.cons_append, Json.field_append, List.append_assoc,
    List.cons.injEq, true_and, Json.field_inj, List.nil_append] at hf
  · obtain ⟨rfl, rfl⟩ := count_append_inj hf
    exact ⟨rfl, rfl⟩
  · obtain ⟨rfl, hr⟩ := Json.quote_append_inj hf
    exact ⟨rfl, (List.cons.inj hr).2⟩
  · obtain ⟨rfl, hr⟩ := Json.array_append_inj hf
    simp only [List.cons.injEq, true_and, Json.field_inj] at hr
    obtain ⟨rfl, rfl⟩ := count_append_inj hr
    exact ⟨rfl, rfl⟩
  · exact ⟨rfl, hf⟩

private theorem variantJson_append_inj {v w : TransitionVariant} {r u : List Char}
    (h : variantJson v ++ r = variantJson w ++ u) : v = w ∧ r = u := by
  simp only [variantJson, List.cons_append, Json.field_append, List.append_assoc,
    List.cons.injEq, true_and, Json.field_inj] at h
  obtain ⟨htag, hf⟩ := Json.quote_append_inj h
  cases v <;> cases w <;> simp [variantTag] at htag
  all_goals simp only [variantFields, List.cons_append, Json.field_append, List.append_assoc,
    List.cons.injEq, true_and, Json.field_inj, List.nil_append] at hf
  · obtain ⟨hk, hr⟩ := Json.quote_append_inj hf
    exact ⟨by rw [kindWord_inj hk], (List.cons.inj hr).2⟩
  · obtain ⟨rfl, hr⟩ := Json.quote_append_inj hf
    simp only [List.cons.injEq, true_and, Json.field_inj] at hr
    obtain ⟨hk, hr⟩ := Json.quote_append_inj hr
    exact ⟨by rw [roleWord_inj hk], (List.cons.inj hr).2⟩
  · obtain ⟨rfl, hr⟩ := Json.quote_append_inj hf
    exact ⟨rfl, (List.cons.inj hr).2⟩
  · obtain ⟨rfl, hr⟩ := Json.quote_append_inj hf
    exact ⟨rfl, (List.cons.inj hr).2⟩
  · obtain ⟨rfl, hr⟩ := Json.quote_append_inj hf
    simp only [List.cons.injEq, true_and, Json.field_inj] at hr
    obtain ⟨rfl, hr'⟩ := Json.array_append_inj hr
    exact ⟨rfl, (List.cons.inj hr').2⟩
  · obtain ⟨rfl, hr⟩ := topologyJson_append_inj hf
    exact ⟨rfl, (List.cons.inj hr).2⟩
  · exact ⟨rfl, hf⟩

/-- Two entries with the same key are the same entry. -/
theorem memberEntryKey_inj {t u : Transition} :
    memberEntryKey t = memberEntryKey u ↔ t = u := by
  constructor
  · intro h
    have hl := congrArg String.toList h
    simp only [memberEntryKey, String.toList_ofList, List.cons.injEq, true_and,
      Json.field_inj] at hl
    obtain ⟨hat, hl⟩ := Json.number_append_inj (by decide) (by decide) hl
    simp only [List.cons.injEq, true_and, Json.field_inj] at hl
    obtain ⟨hv, hl⟩ := variantJson_append_inj hl
    simp only [List.cons.injEq, true_and, Json.field_inj] at hl
    obtain ⟨hs, hl⟩ := Json.array_append_inj hl
    simp only [List.cons.injEq, true_and, Json.field_inj] at hl
    obtain ⟨hg, _⟩ := Json.array_append_inj hl
    cases t
    cases u
    simp only at hat hv hs hg
    rw [UInt64.toNat_inj.mp hat, hv, hs, hg]
  · exact congrArg memberEntryKey

end MyOwnMesh
