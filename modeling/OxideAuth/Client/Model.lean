import Mathlib.Data.List.Basic

/-!
# The example client: handlers as an interleaving of steps

A model of `Client` in `examples/axum-example/client.rs`. The client keeps its
per-session state in `ClientStateInner`: three `std::sync::Mutex` cells,
`code_grant_state`, `access_token` and `refresh_token`, shared by the four axum
handlers `get_index`, `get_redirect`, `post_refresh` and `get_home`.

Every handler invocation is a thread with a resumption point (`Pc`). One step of a
thread runs it from one await point or lock acquisition to the next, so each
mutex-guarded access is one step and each network call (`exchange_code`,
`exchange_refresh_token`, the resource request) is an await point whose answer
the environment supplies (`Reply`). Code between two such points touches no
shared state and runs inside the step that precedes it.

Mutexes follow Rust: `lock().unwrap()` on a poisoned mutex panics, and a panic
while a guard is live poisons that mutex (`Mutex.withLock`).

A `Sys` holds the cells, every invocation made so far and a history of
observable events, newest first. The history is written by the steps and read by
nothing in the model: it is there to state properties of whole runs.
-/

namespace OxideAuth.Client

/-! ## Mutex cells -/

/-- A `std::sync::Mutex` cell: the guarded value and the poison flag. -/
structure Mutex (α : Type) where
  value : α
  poisoned : Bool
deriving DecidableEq, Repr

namespace Mutex

variable {α β : Type}

/-- `Mutex::new`. -/
def new (a : α) : Mutex α := ⟨a, false⟩

/-- `m.lock().unwrap()`, then `body` while the guard is live. `body` gives the new
value and its result, or `none` when it panics. The result is `none` when the
handler panicked: at `unwrap` on a poisoned mutex, which stays as it was, or inside
`body`, which poisons the mutex and leaves its value. -/
def withLock (m : Mutex α) (body : α → Option (α × β)) : Mutex α × Option β :=
  if m.poisoned then (m, none)
  else match body m.value with
    | some (a, b) => (⟨a, false⟩, some b)
    | none => (⟨m.value, true⟩, none)

/-- `m.lock().unwrap()` and a read under the guard that cannot panic: the value read,
or `none` when `unwrap` panics. The cell is left as it was (`withLock_read`). -/
def read (m : Mutex α) (f : α → β) : Option β := (m.withLock fun a => some (a, f a)).2

/-- `*m.lock().unwrap() = a`, or `.replace(a)` on an `Option` cell: the new cell, or
`none` when `unwrap` panics, which leaves the cell as it was (`withLock_poisoned`). -/
def set (m : Mutex α) (a : α) : Option (Mutex α) :=
  match m.withLock fun _ => some (a, ()) with
  | (m', some ()) => some m'
  | (_, none) => none

/-- `m.lock().unwrap().as_ref().unwrap()`, the value cloned: the cell afterwards and
the value, or `none` when either `unwrap` panics. The second panics with the guard
live, so an empty cell ends poisoned. -/
def unwrapSome (m : Mutex (Option α)) : Mutex (Option α) × Option α :=
  m.withLock fun v => v.map fun a => (v, a)

@[simp] theorem withLock_poisoned {m : Mutex α} (h : m.poisoned = true)
    (body : α → Option (α × β)) : m.withLock body = (m, none) := by
  simp [withLock, h]

/-- A read leaves the cell as it was. -/
theorem withLock_read (m : Mutex α) (f : α → β) :
    (m.withLock fun a => some (a, f a)).1 = m := by
  cases m with | mk a p => cases p <;> rfl

@[simp] theorem read_eq (m : Mutex α) (f : α → β) :
    m.read f = if m.poisoned then none else some (f m.value) := by
  cases m with | mk a p => cases p <;> rfl

@[simp] theorem set_eq (m : Mutex α) (a : α) :
    m.set a = if m.poisoned then none else some ⟨a, false⟩ := by
  cases m with | mk v p => cases p <;> rfl

@[simp] theorem unwrapSome_eq (m : Mutex (Option α)) :
    m.unwrapSome = if m.poisoned then (m, none) else
      match m.value with
      | some a => (m, some a)
      | none => (⟨none, true⟩, none) := by
  cases m with | mk v p => cases p <;> cases v <;> rfl

end Mutex

/-! ## Requests, replies and the shared state -/

/-- The query of a request to `/redirect` (`RedirectQuery`). -/
structure RedirectQuery where
  error : Option String
  errorDescription : Option String
  code : Option String
  state : Option String
deriving DecidableEq, Repr

/-- The parts of a token-endpoint response that the client reads. -/
structure TokenResponse where
  accessToken : String
  refreshToken : Option String
deriving DecidableEq, Repr

/-- The per-session state shared by the handlers (`ClientStateInner`; its immutable
`client` configuration is left out). -/
structure ClientStateInner where
  codeGrantState : Mutex (Option String)
  accessToken : Mutex (Option String)
  refreshToken : Mutex (Option String)
deriving DecidableEq, Repr

@[simp] theorem ClientStateInner.mk_eta (st : ClientStateInner) :
    ClientStateInner.mk st.codeGrantState st.accessToken st.refreshToken = st := rfl

/-- The state `Client::start` builds: three empty cells. -/
def ClientStateInner.new : ClientStateInner := ⟨.new none, .new none, .new none⟩

/-- A request routed to its handler, with the query it carries. -/
inductive Request
  | getIndex
  | getRedirect (query : RedirectQuery)
  | postRefresh
  | getHome
deriving DecidableEq, Repr

/-- What a handler invocation answers: the index page (linking an authorization URL
that carries `state`), the home page, a redirect, `get_redirect`'s error page,
`post_refresh`'s `BAD_REQUEST`, or a panic. -/
inductive Outcome
  | index (state : String)
  | home (accessToken refreshToken resource : String)
  | redirect (location : String)
  | error (message : String)
  | badRequest (message : String)
  | panicked
deriving DecidableEq, Repr

/-- Where a handler invocation resumes. -/
inductive Pc
  | start
  | awaitingCode
  | storingRefresh (token : String)
  | awaitingRefresh
  | replacingRefresh (token : Option String)
  | readingRefresh (accessToken : String)
  | awaitingResource (accessToken refreshToken : String)
  | done (outcome : Outcome)
deriving DecidableEq, Repr

/-- What the outside world supplies at a step: the value `CsrfToken::new_random`
draws, the token endpoint's answer and the resource server's answer. A step reads
only the part its own call needs. -/
structure Reply where
  csrf : String
  token : Except String TokenResponse
  resource : Except String String

/-- Observable events of invocation `t`: storing an anti-forgery state, sending a
code exchange after reading `state`, sending a refresh exchange, receiving a token
response, writing a token cell, and `get_home` reading the token pair. -/
inductive Event
  | stored (t : Nat) (state : String)
  | codeSent (t : Nat) (code state : String)
  | refreshSent (t : Nat) (token : String)
  | received (t : Nat) (response : TokenResponse)
  | accessWritten (t : Nat) (token : String)
  | refreshWritten (t : Nat) (token : Option String)
  | homeRead (t : Nat) (accessToken refreshToken : String)
deriving DecidableEq, Repr

/-- A step's result: where the invocation resumes, the shared state, and the events
it produced, oldest first. -/
abbrev StepResult := Pc × ClientStateInner × List Event

/-! ## Handlers -/

namespace ClientStateInner

variable (t : Nat)

/-- `state.access_token.lock().unwrap().replace(access_token)`, in `get_redirect` and
`post_refresh` once the token endpoint answered, after the events `recorded` so far in
the step; the handler resumes at `next`. -/
def storeAccess (accessToken : String) (next : Pc) (st : ClientStateInner)
    (recorded : List Event) : StepResult :=
  match st.accessToken.set (some accessToken) with
  | none => (.done .panicked, st, recorded)
  | some m => (next, { st with accessToken := m }, recorded ++ [.accessWritten t accessToken])

/-- The last lock of `get_redirect` and of `post_refresh`: the refresh token cell
becomes `token`, and the handler redirects to `/home`. -/
def storeRefresh (token : Option String) (st : ClientStateInner) : StepResult :=
  match st.refreshToken.set token with
  | none => (.done .panicked, st, [])
  | some m => (.done (.redirect "/home"), { st with refreshToken := m },
      [.refreshWritten t token])

end ClientStateInner

open ClientStateInner

/-- `get_index`: draws the anti-forgery state, stores it in `code_grant_state` and
renders the page linking the authorization URL. -/
def getIndex (t : Nat) (reply : Reply) (st : ClientStateInner) : Pc → StepResult
  | .start =>
    match st.codeGrantState.set (some reply.csrf) with
    | none => (.done .panicked, st, [])
    | some m => (.done (.index reply.csrf), { st with codeGrantState := m },
        [.stored t reply.csrf])
  | pc => (pc, st, [])

/-- `get_redirect`'s message for an error returned by the authorization server. -/
def authorizationError (error : String) (description : Option String) : String :=
  let message := "Authorization error: " ++ error ++
    match description with
    | some d => "(" ++ d ++ ")"
    | none => ""
  "Authorization server returned an error: " ++ message

/-- `get_redirect`'s message for a state that differs from the stored one. -/
def stateMismatch (expected got : String) : String :=
  "Client and Authorization server state mismatch: expected " ++ expected ++ ", got " ++ got

/-- Where `get_redirect` resumes once the access token is stored: at storing the
refresh token when the response has one, else done. -/
def afterAccess (token : TokenResponse) : Pc :=
  match token.refreshToken with
  | some refresh => .storingRefresh refresh
  | none => .done (.redirect "/home")

/-- `get_redirect`: checks the callback query, compares its state with
`code_grant_state`, exchanges the code, then stores the access token and, when the
response has one, the refresh token, under two separate locks. -/
def getRedirect (t : Nat) (query : RedirectQuery) (reply : Reply) (st : ClientStateInner) :
    Pc → StepResult
  | .start =>
    match query.error, query.code, query.state with
    | some error, _, _ =>
      (.done (.error (authorizationError error query.errorDescription)), st, [])
    | none, none, _ => (.done (.error "Authorization server returned no code"), st, [])
    | none, some _, none => (.done (.error "Authorization server returned no state"), st, [])
    | none, some code, some redirectState =>
      match st.codeGrantState.read id with
      | none => (.done .panicked, st, [])
      | some none => (.done (.error "Client is missing state information"), st, [])
      | some (some codeGrantState) =>
        if redirectState ≠ codeGrantState then
          (.done (.error (stateMismatch codeGrantState redirectState)), st, [])
        else (.awaitingCode, st, [.codeSent t code codeGrantState])
  | .awaitingCode =>
    match reply.token with
    | .error err => (.done (.error ("Token exchange error: " ++ err)), st, [])
    | .ok token => storeAccess t token.accessToken (afterAccess token) st [.received t token]
  | .storingRefresh refresh => storeRefresh t (some refresh) st
  | pc => (pc, st, [])

/-- `post_refresh`: reads the stored refresh token (unwrapping it while the guard
is live), exchanges it, then stores the new access token and replaces the refresh
token, under two separate locks. -/
def postRefresh (t : Nat) (reply : Reply) (st : ClientStateInner) : Pc → StepResult
  | .start =>
    match st.refreshToken.unwrapSome with
    | (m, none) => (.done .panicked, { st with refreshToken := m }, [])
    | (m, some token) => (.awaitingRefresh, { st with refreshToken := m }, [.refreshSent t token])
  | .awaitingRefresh =>
    match reply.token with
    | .error err => (.done (.badRequest ("Token refresh error: " ++ err)), st, [])
    | .ok token =>
      storeAccess t token.accessToken (.replacingRefresh token.refreshToken) st [.received t token]
  | .replacingRefresh refresh => storeRefresh t refresh st
  | pc => (pc, st, [])

/-- `get_home`: reads the access token (unwrapping it while the guard is live) and
the refresh token under two separate locks, then fetches the protected resource
and unwraps the answer. -/
def getHome (t : Nat) (reply : Reply) (st : ClientStateInner) : Pc → StepResult
  | .start =>
    match st.accessToken.unwrapSome with
    | (m, none) => (.done .panicked, { st with accessToken := m }, [])
    | (m, some access) => (.readingRefresh access, { st with accessToken := m }, [])
  | .readingRefresh access =>
    match st.refreshToken.read fun v => v.getD "[no refresh token]" with
    | none => (.done .panicked, st, [])
    | some refresh => (.awaitingResource access refresh, st, [.homeRead t access refresh])
  | .awaitingResource access refresh =>
    match reply.resource with
    | .error _ => (.done .panicked, st, [])
    | .ok resource => (.done (.home access refresh resource), st, [])
  | pc => (pc, st, [])

/-- One step of invocation `t` of the handler `request` was routed to. -/
def handle (t : Nat) (reply : Reply) (st : ClientStateInner) (pc : Pc) :
    Request → StepResult
  | .getIndex => getIndex t reply st pc
  | .getRedirect query => getRedirect t query reply st pc
  | .postRefresh => postRefresh t reply st pc
  | .getHome => getHome t reply st pc

/-! ## Runs -/

/-- A handler invocation: the request it serves and where it resumes. -/
structure Thread where
  request : Request
  pc : Pc
deriving DecidableEq, Repr

/-- The client: shared cells, every invocation so far (indexed by its position),
and the history of events, newest first. -/
structure Sys where
  inner : ClientStateInner
  threads : List Thread
  log : List Event
deriving DecidableEq, Repr

/-- The client as `Client::start` leaves it. -/
def Sys.init : Sys := ⟨.new, [], []⟩

/-- A scheduler move: route a new request, or run invocation `t` one step with the
environment's `reply`. -/
inductive Action
  | invoke (request : Request)
  | step (t : Nat) (reply : Reply)

namespace Sys

/-- The request invocation `t` serves. -/
def requestOf (s : Sys) (t : Nat) : Option Request := (s.threads[t]?).map (·.request)

/-- One scheduler move. A step of an invocation that does not exist changes nothing. -/
def step (s : Sys) : Action → Sys
  | .invoke request => { s with threads := s.threads ++ [⟨request, .start⟩] }
  | .step t reply =>
    match s.threads[t]? with
    | none => s
    | some th =>
      let r := handle t reply s.inner th.pc th.request
      ⟨r.2.1, s.threads.set t ⟨th.request, r.1⟩, r.2.2.reverse ++ s.log⟩

/-- A run: scheduler moves in order. -/
def run (s : Sys) : List Action → Sys
  | [] => s
  | a :: as => (s.step a).run as

@[simp] theorem run_nil (s : Sys) : s.run [] = s := rfl

@[simp] theorem run_cons (s : Sys) (a : Action) (as : List Action) :
    s.run (a :: as) = (s.step a).run as := rfl

/-- A property that holds initially and that every move preserves holds along
every run. -/
theorem run_invariant {P : Sys → Prop} (hstep : ∀ s a, P s → P (s.step a)) :
    ∀ (as : List Action) (s : Sys), P s → P (s.run as)
  | [], _, h => h
  | a :: as, s, h => run_invariant hstep as (s.step a) (hstep s a h)

end Sys

end OxideAuth.Client
