import OxideAuth.Client.Poison
import OxideAuth.Template

/-!
# The client's pages

What the client sends back: the pages of `get_index` and `get_home`, the page of
`get_redirect`'s `error_response`, the redirects to `/home` and `post_refresh`'s
`BAD_REQUEST`. Every page is a `format!` template, and `Outcome.response` renders an
invocation's outcome with the `Client` configuration the templates read. `format!` inserts
each value as it is (`OxideAuth.line`, `OxideAuth.shows`).

* `mismatch_page_reveals_stored_state`: from every reachable state whose
  `code_grant_state` holds a state, a callback with a code and any other state is answered
  with the error page that shows the stored state, and changes neither the cells nor the
  history. A callback that then carries the stored state has its own code exchanged. The
  state is one cell shared by every caller, so whoever can send a callback and read the
  answer passes the check.
-/

namespace OxideAuth.Client

/-- What the pages read of `Client`, the client's configuration. The `oauth2` client and
the HTTP client, through which the handlers talk to the servers, are left out: their
answers are `Reply`. -/
structure Config where
  id : String
  secret : Option String
  port : UInt16
  scope : String
  protectedResourceEndpoint : String
deriving DecidableEq, Repr

/-- `Client::redirect_uri_with_port`. -/
def redirectUriWithPort (port : UInt16) : String :=
  "http://localhost:" ++ toString port ++ "/redirect"

/-- `Client::redirect_uri`. -/
def Config.redirectUri (client : Config) : String :=
  redirectUriWithPort client.port

/-! ## Pages -/

/-- The page `get_index` formats: the client's registration, its secret included, and a
link to `code_grant_authorization_url`. -/
def indexPage (client : Config) (codeGrantAuthorizationUrl : String) : String := lines [
  "<html>",
  line 16 "<h1>Oxide Auth Example Client</h1>",
  line 16 "<p>This is a simple OAuth2 client example to help demonstrate the usage of oxide-auth.</p>",
  line 16 "<p>",
  line 20 "The client is registered with the following details:",
  line 20 "<list>",
  line 24 ("<li>Client ID: <code>" ++ client.id ++ "</code></li>"),
  line 24 ("<li>Client Secret: <code>" ++ client.secret.getD "[no secret]" ++ "</code></li>"),
  line 24 ("<li>Redirect URI: <code>" ++ client.redirectUri ++ "</code></li>"),
  line 24 ("<li>Scope: <code>" ++ client.scope ++ "</code></li>"),
  line 20 "</list>",
  line 16 "</p>",
  line 16 "<h2>Authorization Code Grant</h2>",
  line 16 "<p>This example demonstrates the authorization code grant flow.</p>",
  line 16 "<p>",
  line 20 "The client will redirect to the authorization server to",
  line 20 "obtain an authorization code, then exchange that code for an",
  line 20 "access token, and finally use that access token to access a",
  line 20 "protected resource on the resource server.",
  line 16 "</p>",
  line 16 ("<p>Start an authorization code grant by clicking <a href=\"" ++
    codeGrantAuthorizationUrl ++ "\">here</a>.</p>"),
  line 12 "</html>"]

/-- The page `get_home` formats from the token pair it read, the endpoint it fetched and
the resource server's answer. -/
def homePage (accessToken refreshToken protectedResourceEndpoint resource : String) : String := lines [
  "<html>",
  line 16 "<h1>Protected Resource Accessed</h1>",
  line 16 "<p>The client has successfully accessed the protected resource using the access token.</p>",
  line 16 "<p>",
  line 20 "The access token and resource details are as follows:",
  line 20 "<list>",
  line 24 ("<li>Access Token: <code>" ++ accessToken ++ "</code></li>"),
  line 24 ("<li>Refresh Token: <code>" ++ refreshToken ++ "</code></li>"),
  line 24 ("<li>Protected Resource Endpoint: <code>" ++ protectedResourceEndpoint ++ "</code></li>"),
  line 24 ("<li>Resource Content: <code>" ++ resource ++ "</code></li>"),
  line 20 "</list>",
  line 16 "</p>",
  line 16 "<form action=\"refresh\" method=\"post\">",
  line 20 "<button>Refresh token</button>",
  line 16 "</form>",
  line 16 "<p>Return to <a href=\"/\">home</a>.</p>",
  line 12 "</html>"]

/-- `get_redirect`'s `error_response`: the message in a paragraph. -/
def errorResponse (message : String) : String := lines [
  "<html>",
  line 20 "<h1>Error During Authorization</h1>",
  line 20 ("<p>" ++ message ++ "</p>"),
  line 20 "<p>Return to <a href=\"/\">home</a>.</p>",
  line 16 "</html>"]

/-- What the client sends: `Html` is a `200 OK` page, `Redirect::to` a `303 See Other`
to its location, `(StatusCode::BAD_REQUEST, String)` a `400` with the text as body. A
handler that panics sends nothing; the connection is closed. -/
inductive Response
  | html (body : String)
  | seeOther (location : String)
  | badRequest (body : String)
  | closed
deriving DecidableEq, Repr

/-- The response to an outcome, for `client`. `authorizeUrl state` is the URL `oauth2`'s
`authorize_url` builds around the state `get_index` drew, which the index page links. -/
def Outcome.response (client : Config) (authorizeUrl : String → String) : Outcome → Response
  | .index state => .html (indexPage client (authorizeUrl state))
  | .home access refresh resource =>
    .html (homePage access refresh client.protectedResourceEndpoint resource)
  | .redirect location => .seeOther location
  | .error message => .html (errorResponse message)
  | .badRequest message => .badRequest message
  | .panicked => .closed

/-! ## What a page shows -/

/-- The error page shows its message. -/
theorem errorResponse_shows (message : String) : shows (errorResponse message) message :=
  (shows_lines (by simp)).trans ((shows_line 20 _).trans (shows_middle "<p>" message "</p>"))

/-- The mismatch message shows the state the client expected. -/
theorem stateMismatch_shows (expected got : String) :
    shows (stateMismatch expected got) expected := by
  simpa only [stateMismatch, String.append_assoc] using shows_middle
    "Client and Authorization server state mismatch: expected " expected (", got " ++ got)

/-! ## The mismatch page -/

/-- From any state whose `code_grant_state` holds `state` unpoisoned: a callback with a code
and another state answers the mismatch message and changes nothing; a callback that then
carries `state` sends its code exchange. -/
theorem mismatch_run (s : Sys) (state guess code code' : String) (reply reply' : Reply)
    (hstored : s.inner.codeGrantState.value = some state)
    (hp : s.inner.codeGrantState.poisoned = false) (hguess : guess ≠ state) :
    let s₁ := s.run [.invoke (.getRedirect ⟨none, none, some code, some guess⟩),
      .step s.threads.length reply]
    let s₂ := s₁.run [.invoke (.getRedirect ⟨none, none, some code', some state⟩),
      .step (s.threads.length + 1) reply']
    (s₁.threads[s.threads.length]?).map (·.pc) = some (.done (.error (stateMismatch state guess))) ∧
    s₁.inner = s.inner ∧ s₁.log = s.log ∧
    s₂.inner = s.inner ∧ s₂.log = .codeSent (s.threads.length + 1) code' state :: s.log := by
  intro s₁ s₂
  obtain ⟨inner, ths, log⟩ := s
  simp (disch := simp) only [s₁, s₂, Sys.run_cons, Sys.run_nil, Sys.step_invoke, Sys.step_last]
  simp_all [handle, getRedirect]

/-- The mismatch page reveals the stored state. From every reachable state in which
`code_grant_state` holds `state`, a callback with no error, a code and any other state is
answered with the error page, which shows `state`, and leaves the cells and the history as
they were. A second callback that carries `state` and a code of its own then has that code
exchanged. -/
theorem mismatch_page_reveals_stored_state (as : List Action) (client : Config)
    (authorizeUrl : String → String) (code guess code' state : String) (reply reply' : Reply)
    (hstored : (Sys.init.run as).inner.codeGrantState.value = some state) (hguess : guess ≠ state) :
    let s := Sys.init.run as
    let s₁ := s.run [.invoke (.getRedirect ⟨none, none, some code, some guess⟩),
      .step s.threads.length reply]
    let s₂ := s₁.run [.invoke (.getRedirect ⟨none, none, some code', some state⟩),
      .step (s.threads.length + 1) reply']
    (∃ o body, (s₁.threads[s.threads.length]?).map (·.pc) = some (.done o) ∧
      o.response client authorizeUrl = .html body ∧ shows body state) ∧
    s₁.inner = s.inner ∧ s₁.log = s.log ∧
    s₂.inner = s.inner ∧ s₂.log = .codeSent (s.threads.length + 1) code' state :: s.log := by
  obtain ⟨h₁, h₂⟩ := mismatch_run (Sys.init.run as) state guess code code' reply reply' hstored
    (codeGrantState_unpoisoned as) hguess
  exact ⟨⟨_, _, h₁, rfl, (errorResponse_shows _).trans (stateMismatch_shows state guess)⟩, h₂⟩

/-- The example's configuration, as `main` builds it. -/
def exampleConfig : Config :=
  ⟨"local_client_id", some "local_client_secret", 8080, "default-scope",
    "http://localhost:8082/resource"⟩

/-- After a `get_index` stored `S`, a callback guessing `X` is shown `S`. -/
theorem mismatch_page_shows_S :
    let as := [.invoke .getIndex, .step 0 ⟨"S", .error "", .error ""⟩]
    ((Sys.init.run as).inner.codeGrantState.value = some "S" ∧ "X" ≠ "S") ∧
    let s := Sys.init.run as
    let reply : Reply := ⟨"", .error "", .error ""⟩
    let s₁ := s.run [.invoke (.getRedirect ⟨none, none, some "C", some "X"⟩),
      .step s.threads.length reply]
    let s₂ := s₁.run [.invoke (.getRedirect ⟨none, none, some "C2", some "S"⟩),
      .step (s.threads.length + 1) reply]
    (∃ o body, (s₁.threads[s.threads.length]?).map (·.pc) = some (.done o) ∧
      o.response exampleConfig id = .html body ∧ shows body "S") ∧
    s₁.inner = s.inner ∧ s₁.log = s.log ∧
    s₂.inner = s.inner ∧ s₂.log = .codeSent (s.threads.length + 1) "C2" "S" :: s.log :=
  ⟨⟨by decide, by decide⟩, mismatch_page_reveals_stored_state _ exampleConfig id "C" "X" "C2" "S" _ _
    (by decide) (by decide)⟩

end OxideAuth.Client
