import OxideAuth.Client.Pages
import OxideAuth.Consent.Solicitor

/-!
# The callback's query

`get_redirect` receives its query through axum's `Query<RedirectQuery>` extractor. The
query of the request target (empty without one) is split and decoded by
`form_urlencoded::parse`, every key and value becomes a string through
`decode_utf8_lossy`, and serde's derived visitor for `RedirectQuery` (`visitMap`) fills
the four fields. A field given twice is an error, which axum answers with
`400 Bad Request` before `get_redirect` runs (`redirectRequest`).

* `callback_query_extraction`: the extractor reads a query declaratively. It refuses
  exactly the queries that name some field of `RedirectQuery` twice, after decoding, and
  its message names the first such field. Otherwise each field holds the value of the pair
  that names it, a field no pair names is `None`, and every other key is ignored. So a
  callback cannot carry a second `state` (not even as `st%61te`) past the extractor.
-/

namespace OxideAuth.Client

open OxideAuth.Consent

/-! ## The derived visitor -/

/-- The fields of `RedirectQuery`, in declaration order. -/
inductive Field
  | error
  | errorDescription
  | code
  | state
deriving DecidableEq, Repr

/-- The name serde gives a field: the field's own name. -/
def Field.name : Field → String
  | .error => "error"
  | .errorDescription => "error_description"
  | .code => "code"
  | .state => "state"

/-- The derived field visitor: the field a key names; any other key is `__ignore`. -/
def Field.ofKey : String → Option Field
  | "error" => some .error
  | "error_description" => some .errorDescription
  | "code" => some .code
  | "state" => some .state
  | _ => none

/-- A field's value in a query. -/
def Field.get : Field → RedirectQuery → Option String
  | .error, query => query.error
  | .errorDescription, query => query.errorDescription
  | .code, query => query.code
  | .state, query => query.state

/-- A query with one field replaced. -/
def Field.set : Field → RedirectQuery → Option String → RedirectQuery
  | .error, query, value => { query with error := value }
  | .errorDescription, query, value => { query with errorDescription := value }
  | .code, query, value => { query with code := value }
  | .state, query, value => { query with state := value }

/-- The query whose fields `get` gives. -/
def RedirectQuery.ofGet (get : Field → Option String) : RedirectQuery :=
  ⟨get .error, get .errorDescription, get .code, get .state⟩

@[simp] theorem Field.get_none (field : Field) : field.get ⟨none, none, none, none⟩ = none := by
  cases field <;> rfl

@[simp] theorem Field.get_ofGet (field : Field) (get : Field → Option String) :
    field.get (RedirectQuery.ofGet get) = get field := by
  cases field <;> rfl

theorem Field.get_set (field field' : Field) (query : RedirectQuery) (value : Option String) :
    field'.get (field.set query value) = if field' = field then value else field'.get query := by
  cases field <;> cases field' <;> rfl

theorem RedirectQuery.ofGet_get (query : RedirectQuery) :
    RedirectQuery.ofGet (fun field => field.get query) = query := rfl

/-- serde's derived `visit_map` for `RedirectQuery`, over the pairs as `parse` decodes
them and `decode` turns them into strings. A key that names a field given before is the
error `duplicate field`, raised before its value is read; a key that names a field gives
it its value, which `serde_urlencoded` always deserializes as `Some`; any other key is
skipped. -/
def visitMap (decode : Bytes → String) : List (Bytes × Bytes) → RedirectQuery →
    Except String RedirectQuery
  | [], query => .ok query
  | (key, value) :: rest, query =>
    match Field.ofKey (decode key) with
    | none => visitMap decode rest query
    | some field =>
      if (field.get query).isSome then .error ("duplicate field `" ++ field.name ++ "`")
      else visitMap decode rest (field.set query (some (decode value)))

/-- `Query::<RedirectQuery>::try_from_uri`: the target's query, empty without one, read by
`serde_urlencoded::from_str` into a query with every field missing at the start. -/
def redirectQuery (decode : Bytes → String) (target : Bytes) : Except String RedirectQuery :=
  (visitMap decode (parse ((uriQuery target).getD [])) ⟨none, none, none, none⟩).mapError
    ("Failed to deserialize query string: " ++ ·)

/-- A request to `/redirect`: the extractor's query starts `get_redirect`, and a refused
query is answered with `400 Bad Request` and the message, with no invocation. -/
def redirectRequest (decode : Bytes → String) (target : Bytes) : Except Response Request :=
  match redirectQuery decode target with
  | .ok query => .ok (.getRedirect query)
  | .error message => .error (.badRequest message)

/-! ## The declarative reading -/

section
variable (decode : Bytes → String)

/-- The fields the keys of `pairs` name, in order. -/
def keysOf (pairs : List (Bytes × Bytes)) : List Field :=
  pairs.filterMap fun pair => Field.ofKey (decode pair.1)

/-- The value of the first pair whose key names `field`. -/
def lookup (pairs : List (Bytes × Bytes)) (field : Field) : Option String :=
  (pairs.find? fun pair => Field.ofKey (decode pair.1) = some field).map fun pair => decode pair.2

/-- The first field that is named again, after the fields `seen`. -/
def firstRepeat : List Field → List Field → Option Field
  | _, [] => none
  | seen, field :: fields => if field ∈ seen then some field else firstRepeat (field :: seen) fields

/-- The visitor from any point of its loop: with the fields given so far `seen`, it fails
at the first field named again, and otherwise adds the first value of each field not
given yet. -/
theorem visitMap_eq (pairs : List (Bytes × Bytes)) (query : RedirectQuery) (seen : List Field)
    (hseen : ∀ field, (field.get query).isSome ↔ field ∈ seen) :
    visitMap decode pairs query =
      match firstRepeat seen (keysOf decode pairs) with
      | some field => .error ("duplicate field `" ++ field.name ++ "`")
      | none => .ok (.ofGet fun field => (field.get query).or (lookup decode pairs field)) := by
  induction pairs generalizing query seen with
  | nil => simp [visitMap, keysOf, firstRepeat, lookup, RedirectQuery.ofGet_get]
  | cons pair rest ih =>
    obtain ⟨key, value⟩ := pair
    have hlookup : ∀ field, Field.ofKey (decode key) ≠ some field →
        lookup decode ((key, value) :: rest) field = lookup decode rest field := fun field h => by
      simp [lookup, List.find?_cons, h]
    cases hkey : Field.ofKey (decode key) with
    | none =>
      have hkeys : keysOf decode ((key, value) :: rest) = keysOf decode rest := by
        simp [keysOf, hkey]
      have hrest : ∀ f, lookup decode ((key, value) :: rest) f = lookup decode rest f :=
        fun f => hlookup f (by simp [hkey])
      simp only [visitMap, hkey, hkeys, hrest]
      exact ih query seen hseen
    | some field =>
      have hkeys : keysOf decode ((key, value) :: rest) = field :: keysOf decode rest := by
        simp [keysOf, hkey]
      simp only [visitMap, hkey, hkeys, firstRepeat]
      by_cases hfield : field ∈ seen
      · simp [(hseen field).2 hfield, hfield]
      · have hnone : field.get query = none :=
          Option.not_isSome_iff_eq_none.1 fun h => hfield ((hseen field).1 h)
        rw [if_neg (by simp [hnone]), if_neg hfield,
          ih _ (field :: seen) fun f => by by_cases hf : f = field <;> simp [Field.get_set, hf, hseen]]
        cases firstRepeat (field :: seen) (keysOf decode rest) with
        | some _ => rfl
        | none =>
          refine congrArg (fun get => Except.ok (RedirectQuery.ofGet get)) (funext fun f => ?_)
          by_cases hf : f = field
          · subst hf
            simp [Field.get_set, hnone, lookup, List.find?_cons, hkey]
          · simp [Field.get_set, hf, hlookup f (by simpa [hkey] using Ne.symm hf)]

end

/-- The callback's extractor is the declarative reading of its query. With `pairs` the
target's query as `form_urlencoded::parse` decodes it, a request to `/redirect` is
refused with `400 Bad Request` exactly when some field of `RedirectQuery` is named twice,
and the message names the first field named again. Otherwise `get_redirect` is invoked
with each field set to the value of the pair that names it, `None` where no pair does,
and every other key ignored. -/
theorem callback_query_extraction (decode : Bytes → String) (target : Bytes) :
    let pairs := parse ((uriQuery target).getD [])
    redirectRequest decode target =
      match firstRepeat [] (keysOf decode pairs) with
      | some field => .error (.badRequest
          ("Failed to deserialize query string: " ++ ("duplicate field `" ++ field.name ++ "`")))
      | none => .ok (.getRedirect (.ofGet (lookup decode pairs))) := by
  intro pairs
  rw [redirectRequest, redirectQuery, visitMap_eq decode pairs _ [] fun field => by simp]
  cases firstRepeat [] (keysOf decode pairs) <;> simp [Except.mapError]

end OxideAuth.Client
