import MyOwnMesh.Lib.Decimal

/-!
# TURN URLs of a stream

`crates/myownmesh-core/src/transport/turn_stream.rs:95–128`. A URL names a scheme, a host, perhaps
a port and perhaps a query. It is taken apart into an endpoint when the server is reached over a
stream: the scheme is `turns`, or a parameter of the query asks for TCP.
-/

namespace MyOwnMesh.TurnBridges

open Lib.Text

/-- `turn_stream.rs:34–39`. -/
structure StreamEndpoint where
  host : String
  port : UInt16
  tls : Bool
  deriving DecidableEq, Repr

/-- `trim_start_matches("//")`. -/
def trimSlashes : List Char → List Char
  | '/' :: '/' :: cs => trimSlashes cs
  | cs => cs

/-- `str::parse::<u16>`. -/
def parseU16 (cs : List Char) : Option UInt16 := (parseDecimal 65536 cs).map UInt16.ofNat

/-- The scheme of TURN over TLS. -/
def turnsScheme : List Char := "turns:".toList

/-- The scheme of TURN. -/
def turnScheme : List Char := "turn:".toList

/-- Whether the scheme is `turns`, and what follows it; `turn_stream.rs:96–102`. -/
def schemeOf (url : List Char) : Option (Bool × List Char) :=
  match afterChars turnsScheme url with
  | some rest => some (true, rest)
  | none => (afterChars turnScheme url).map fun rest ↦ (false, rest)

/-- The host and the port of an authority; `turn_stream.rs:115–126`. -/
def hostPort (authority : List Char) (defaultPort : UInt16) : Option (List Char × UInt16) :=
  match afterChars ['['] authority with
  | some after =>
    match splitOnceChars ']' after with
    | none => none
    | some (host, suffix) =>
      some (host, ((afterChars [':'] suffix).bind parseU16).getD defaultPort)
  | none =>
    match rsplitOnceChars ':' authority with
    | some (host, port) => (parseU16 port).map fun port ↦ (host, port)
    | none => some (authority, defaultPort)

/-- `query.split('&').any(..)`. -/
def selectsTcp (query : List Char) : Bool :=
  (query.splitOn '&').any fun part ↦ eqIgnoreAsciiCase (String.ofList part) "transport=tcp"

/-- `turn_stream.rs:95–128`. -/
def parseStreamUrl (url : String) : Option StreamEndpoint :=
  match schemeOf url.toList with
  | none => none
  | some (tls, rest) =>
    -- without a query, the authority is the rest with its slashes
    let (authority, query) := (splitOnceChars '?' (trimSlashes rest)).getD (rest, [])
    if !(tls || selectsTcp query) then none
    else
      let defaultPort := if tls then 5349 else 3478
      match hostPort authority defaultPort with
      | none => none
      | some (host, port) =>
        if host.isEmpty then none else some ⟨String.ofList host, port, tls⟩

/-! ### What a URL is made of -/

/-- A name, or a literal in brackets. -/
inductive Host where
  | name (text : List Char) (nonempty : text ≠ [])
      (plain : ∀ c ∈ text, c ∉ [':', '?', '/', '[', ']'])
  | ipv6 (literal : List Char) (nonempty : literal ≠ [])
      (plain : ∀ c ∈ literal, c ∉ ['?', '/', '[', ']'])

/-- The host itself. -/
def Host.value : Host → List Char
  | .name text _ _ => text
  | .ipv6 literal _ _ => literal

/-- The host as it stands in a URL. -/
def Host.text : Host → List Char
  | .name text _ _ => text
  | .ipv6 literal _ _ => '[' :: literal ++ [']']

/-- The digits of a port. -/
structure Port where
  digits : List Char
  nonempty : digits ≠ []
  isDigit : ∀ c ∈ digits, c.isDigit = true
  lt : Nat.ofDigitChars 10 digits 0 < 65536

def Port.value (p : Port) : UInt16 := UInt16.ofNat (Nat.ofDigitChars 10 p.digits 0)

/-- A port as it stands in a URL. -/
def portText : Option Port → List Char
  | some port => ':' :: port.digits
  | none => []

/-- A parameter of a query. -/
structure Param where
  text : List Char
  plain : '&' ∉ text

/-- A query as it stands in a URL, with `&` between the parameters. -/
def queryText : Option (List Param) → List Char
  | some params => '?' :: ['&'].intercalate (params.map (·.text))
  | none => []

def slashText : Bool → List Char
  | true => ['/', '/']
  | false => []

/-- A TURN URL with its optional parts. -/
structure TurnUrl where
  secure : Bool
  slashes : Bool
  host : Host
  port : Option Port
  query : Option (List Param)

namespace TurnUrl

variable (u : TurnUrl)

/-- The host and the port. -/
def authority : List Char := u.host.text ++ portText u.port

/-- What follows the scheme. -/
def rest : List Char := slashText u.slashes ++ (u.authority ++ queryText u.query)

def render : String := String.ofList ((if u.secure then turnsScheme else turnScheme) ++ u.rest)

/-- A parameter asks for TCP, in any case of letters. -/
def overTcp : Bool :=
  match u.query with
  | some params => params.any fun p ↦ eqIgnoreAsciiCase (String.ofList p.text) "transport=tcp"
  | none => false

/-- The port of the URL, or that of its scheme. -/
def portOrDefault : UInt16 :=
  match u.port with
  | some port => port.value
  | none => if u.secure then 5349 else 3478

/-- The endpoint that the URL stands for, if it is reached over a stream. -/
def endpoint : Option StreamEndpoint :=
  if u.secure || u.overTcp then some ⟨String.ofList u.host.value, u.portOrDefault, u.secure⟩
  else none

end TurnUrl

/-! ### The parts are found again -/

theorem parseU16_digits (p : Port) : parseU16 p.digits = some p.value := by
  rw [parseU16, parseDecimal_digits p.nonempty p.isDigit p.lt]
  rfl

theorem head_text (h : Host) : ∃ c cs, h.text = c :: cs ∧ c ≠ '/' := by
  cases h with
  | name text hne hplain =>
    obtain ⟨c, cs, rfl⟩ := List.exists_cons_of_ne_nil hne
    refine ⟨c, cs, rfl, ?_⟩
    rintro rfl
    exact hplain '/' List.mem_cons_self (by decide)
  | ipv6 literal => exact ⟨'[', literal ++ [']'], rfl, by decide⟩

theorem hostPort_name {text : List Char} (hne : text ≠ [])
    (hplain : ∀ c ∈ text, c ∉ [':', '?', '/', '[', ']']) (port : Option Port)
    (defaultPort : UInt16) :
    hostPort (text ++ portText port) defaultPort =
      some (text, (port.map Port.value).getD defaultPort) := by
  have hopen : afterChars ['['] (text ++ portText port) = none := by
    apply afterChars_singleton_of_ne
    obtain ⟨c, cs, rfl⟩ := List.exists_cons_of_ne_nil hne
    rintro ⟨⟩
    exact hplain '[' List.mem_cons_self (by decide)
  have hcolon : ':' ∉ text := fun h ↦ hplain ':' h (by decide)
  unfold hostPort
  rw [hopen]
  cases port with
  | none =>
    simp only [portText, List.append_nil, rsplitOnceChars_of_notMem hcolon]
    rfl
  | some port =>
    have hdigits : ':' ∉ port.digits := fun h ↦ absurd (port.isDigit ':' h) (by decide)
    simp only [portText, rsplitOnceChars_append hdigits, parseU16_digits]
    rfl

theorem hostPort_ipv6 {literal : List Char} (hplain : ∀ c ∈ literal, c ∉ ['?', '/', '[', ']'])
    (port : Option Port) (defaultPort : UInt16) :
    hostPort ('[' :: literal ++ [']'] ++ portText port) defaultPort =
      some (literal, (port.map Port.value).getD defaultPort) := by
  have hopen : afterChars ['['] ('[' :: literal ++ [']'] ++ portText port) =
      some (literal ++ ']' :: portText port) := by
    rw [show '[' :: literal ++ [']'] ++ portText port =
      ['['] ++ (literal ++ ']' :: portText port) by simp]
    exact afterChars_append _ _
  have hclose : ']' ∉ literal := fun h ↦ hplain ']' h (by decide)
  unfold hostPort
  rw [hopen]
  simp only [splitOnceChars_append hclose]
  cases port with
  | none => rfl
  | some port =>
    have hafter : afterChars [':'] (portText (some port)) = some port.digits :=
      afterChars_append [':'] port.digits
    rw [hafter, Option.bind_some, parseU16_digits]
    rfl

theorem hostPort_authority (u : TurnUrl) :
    hostPort u.authority (if u.secure then 5349 else 3478) =
      some (u.host.value, u.portOrDefault) := by
  have hport : u.portOrDefault =
      (u.port.map Port.value).getD (if u.secure then 5349 else 3478) := by
    unfold TurnUrl.portOrDefault
    cases u.port with
    | none => rfl
    | some port => rfl
  rw [hport]
  unfold TurnUrl.authority
  cases u.host with
  | name text hne hplain => exact hostPort_name hne hplain u.port _
  | ipv6 literal hne hplain => exact hostPort_ipv6 hplain u.port _

/-- An authority that starts with a slash has a host that does. -/
theorem head_of_hostPort {cs host : List Char} {defaultPort port : UInt16}
    (h : hostPort ('/' :: cs) defaultPort = some (host, port)) : host.head? = some '/' := by
  have hopen : afterChars ['['] ('/' :: cs) = none := by
    apply afterChars_singleton_of_ne
    rw [List.head?_cons]
    decide
  unfold hostPort at h
  rw [hopen] at h
  dsimp only at h
  cases hsplit : rsplitOnceChars ':' ('/' :: cs) with
  | none =>
    rw [hsplit] at h
    cases h
    rfl
  | some parts =>
    rw [hsplit] at h
    obtain ⟨_, _, heq⟩ := Option.map_eq_some_iff.mp h
    cases heq
    rw [rsplitOnceChars] at hsplit
    cases hrest : rsplitOnceChars ':' cs with
    | none => simp [hrest] at hsplit
    | some rest =>
      rw [hrest] at hsplit
      cases hsplit
      rfl

theorem authority_eq_cons (u : TurnUrl) : ∃ c cs, u.authority = c :: cs ∧ c ≠ '/' := by
  obtain ⟨c, cs, htext, hc⟩ := head_text u.host
  exact ⟨c, cs ++ portText u.port, by rw [TurnUrl.authority, htext]; rfl, hc⟩

theorem notMem_authority (u : TurnUrl) : '?' ∉ u.authority := by
  have hport : '?' ∉ portText u.port := by
    cases u.port with
    | none => exact List.not_mem_nil
    | some port =>
      intro h
      rcases List.mem_cons.mp h with h | h
      · exact absurd h (by decide)
      · exact absurd (port.isDigit '?' h) (by decide)
  have htext : '?' ∉ u.host.text := by
    cases u.host with
    | name text hne hplain => exact fun h ↦ hplain '?' h (by decide)
    | ipv6 literal hne hplain =>
      intro h
      rcases List.mem_append.mp h with h | h
      · rcases List.mem_cons.mp h with h | h
        · exact absurd h (by decide)
        · exact hplain '?' h (by decide)
      · exact absurd (List.mem_singleton.mp h) (by decide)
  intro h
  rcases List.mem_append.mp h with h | h
  · exact htext h
  · exact hport h

theorem trimSlashes_of_ne {c : Char} (hc : c ≠ '/') (cs : List Char) :
    trimSlashes (c :: cs) = c :: cs := by
  unfold trimSlashes
  split
  · next heq =>
    cases heq
    exact absurd rfl hc
  · rfl

theorem trimSlashes_rest (u : TurnUrl) : trimSlashes u.rest = u.authority ++ queryText u.query := by
  obtain ⟨c, cs, hcons, hc⟩ := authority_eq_cons u
  have htrim : trimSlashes (u.authority ++ queryText u.query) =
      u.authority ++ queryText u.query := by
    rw [hcons]
    exact trimSlashes_of_ne hc _
  unfold TurnUrl.rest
  cases u.slashes with
  | false => exact htrim
  | true =>
    show trimSlashes ('/' :: '/' :: (u.authority ++ queryText u.query)) = _
    rw [trimSlashes, htrim]

theorem selectsTcp_params (params : List Param) :
    selectsTcp (['&'].intercalate (params.map (·.text))) =
      params.any fun p ↦ eqIgnoreAsciiCase (String.ofList p.text) "transport=tcp" := by
  unfold selectsTcp
  cases params with
  | nil => decide
  | cons p ps =>
    rw [List.splitOn_intercalate, List.any_map]
    · rfl
    · intro l hl
      obtain ⟨q, _, rfl⟩ := List.mem_map.mp hl
      exact q.plain
    · simp

theorem schemeOf_render (u : TurnUrl) : schemeOf u.render.toList = some (u.secure, u.rest) := by
  unfold schemeOf TurnUrl.render
  rw [String.toList_ofList]
  cases u.secure with
  | true => rw [if_pos rfl, afterChars_append]
  | false =>
    have hnot : afterChars turnsScheme (turnScheme ++ u.rest) = none := rfl
    rw [if_neg (by decide), hnot, afterChars_append]
    rfl

/-- What is parsed once the authority and the query are found. -/
theorem parseStreamUrl_of_split {u : TurnUrl} {authority query : List Char}
    (h : (splitOnceChars '?' (u.authority ++ queryText u.query)).getD (u.rest, []) =
      (authority, query))
    (htcp : selectsTcp query = u.overTcp) :
    parseStreamUrl u.render =
      if u.secure || u.overTcp then
        (hostPort authority (if u.secure then 5349 else 3478)).bind fun p ↦
          if p.1.isEmpty then none else some ⟨String.ofList p.1, p.2, u.secure⟩
      else none := by
  unfold parseStreamUrl
  rw [schemeOf_render]
  simp only [trimSlashes_rest, h, htcp]
  cases u.secure || u.overTcp with
  | false => rfl
  | true =>
    cases hostPort authority (if u.secure then 5349 else 3478) with
    | none => rfl
    | some p => rfl

theorem isEmpty_value (h : Host) : h.value.isEmpty = false := by
  cases h with
  | name text hne => exact List.isEmpty_eq_false_iff.mpr hne
  | ipv6 literal hne => exact List.isEmpty_eq_false_iff.mpr hne

/-- The host of a URL does not start with a slash. -/
theorem head_value_ne (h : Host) : h.value.head? ≠ some '/' := by
  intro heq
  cases h with
  | name text hne hplain => exact hplain '/' (List.mem_of_mem_head? heq) (by decide)
  | ipv6 literal hne hplain => exact hplain '/' (List.mem_of_mem_head? heq) (by decide)

theorem parseStreamUrl_of_authority {u : TurnUrl} {query : List Char}
    (h : (splitOnceChars '?' (u.authority ++ queryText u.query)).getD (u.rest, []) =
      (u.authority, query))
    (htcp : selectsTcp query = u.overTcp) : parseStreamUrl u.render = u.endpoint := by
  rw [parseStreamUrl_of_split h htcp, hostPort_authority, Option.bind_some, isEmpty_value]
  rfl

/-- A URL is taken apart into its endpoint, unless it has slashes, no query and the scheme that
needs none. -/
theorem parseStreamUrl_render_iff (u : TurnUrl) :
    parseStreamUrl u.render = u.endpoint ↔
      ¬(u.secure = true ∧ u.slashes = true ∧ u.query = none) := by
  cases hquery : u.query with
  | some params =>
    have hsplit : (splitOnceChars '?' (u.authority ++ queryText u.query)).getD (u.rest, []) =
        (u.authority, ['&'].intercalate (params.map (·.text))) := by
      rw [hquery, queryText, splitOnceChars_append (notMem_authority u)]
      rfl
    have htcp : selectsTcp (['&'].intercalate (params.map (·.text))) = u.overTcp := by
      rw [selectsTcp_params, TurnUrl.overTcp, hquery]
    simp [parseStreamUrl_of_authority hsplit htcp]
  | none =>
    have hsplit : (splitOnceChars '?' (u.authority ++ queryText u.query)).getD (u.rest, []) =
        (u.rest, []) := by
      rw [hquery, queryText, List.append_nil, splitOnceChars_of_notMem (notMem_authority u)]
      rfl
    have hover : u.overTcp = false := by rw [TurnUrl.overTcp, hquery]
    have htcp : selectsTcp [] = u.overTcp := by
      rw [hover]
      decide
    have hrest : u.rest = slashText u.slashes ++ u.authority := by
      rw [TurnUrl.rest, hquery, queryText, List.append_nil]
    cases hslashes : u.slashes with
    | false =>
      rw [hslashes] at hrest
      have hauthority : (u.rest, ([] : List Char)) = (u.authority, []) := by rw [hrest]; rfl
      simp [parseStreamUrl_of_authority (hsplit.trans hauthority) htcp]
    | true =>
      rw [hslashes] at hrest
      rw [parseStreamUrl_of_split hsplit htcp, TurnUrl.endpoint, hover]
      cases hsecure : u.secure with
      | false => simp
      | true =>
        -- the host that is found starts with a slash
        simp only [Bool.or_false, if_true, and_self, not_true_eq_false, iff_false]
        intro heq
        obtain ⟨⟨host, port⟩, hpart, heq⟩ := Option.bind_eq_some_iff.mp heq
        rw [show u.rest = '/' :: '/' :: u.authority from hrest] at hpart
        have hhead := head_of_hostPort hpart
        split at heq
        · cases heq
        · have hhost : host = u.host.value := by
            have hof := congrArg StreamEndpoint.host (Option.some.inj heq)
            exact String.ofList_injective hof
          exact head_value_ne u.host (hhost ▸ hhead)

end MyOwnMesh.TurnBridges
