import OxideAuth.Client.Model

/-!
# What one step can do

`Move` summarises the steps of the four handlers: one constructor for each kind of step,
with the guard under which the code takes it, where the invocation resumes, the shared
state it leaves and the events it records. `handle_move` shows that every step of
`handle` is one of them. It is the one lemma that unfolds the handlers, through
`getIndex_move`, `getRedirect_move`, `postRefresh_move` and `getHome_move`; the step
lemmas of the later modules go by cases on `Move`, so a change to a handler touches its
`_move` lemma and the constructors it reaches. The lemmas about concrete runs
(`login_run`, `refresh_run`, `home_run`, `mismatch_run`, `stored_state_not_consumed`)
compute the handlers on their requests instead.

On top of `Move`:

* `Move.of_done`: a finished invocation does not move;
* `Move.values`: the cell values after a step are the values before it with the step's
  write events applied (`Event.apply`), so the history alone determines every cell value
  (`replay`, `Sys.values_replay`), and a cell holds its last write (`replay_lastWrite`);
* `Move.thread`: a step of invocation `t` records only events of `t`;
* `requestOf_step`: invocations keep the request they were routed with;
* `Hist`: a property of every event of a history and the events before it, kept along
  every run by `Sys.hist_local_run` (with `Sys.HistInv`).
-/

namespace OxideAuth.Client

open ClientStateInner

/-! ## Control points -/

/-- Whether an invocation has answered. -/
def Pc.isDone : Pc → Bool
  | .done _ => true
  | _ => false

theorem Pc.isDone_iff {pc : Pc} : pc.isDone = true ↔ ∃ o, pc = .done o := by
  cases pc <;> simp [Pc.isDone]

/-- The control points of each handler: where an invocation of it can be. -/
def Request.Fits (r : Request) (pc : Pc) : Bool :=
  match pc, r with
  | .start, _ | .done _, _ => true
  | .awaitingCode, .getRedirect _ | .storingRefresh _, .getRedirect _ => true
  | .awaitingRefresh, .postRefresh | .replacingRefresh _, .postRefresh => true
  | .readingRefresh _, .getHome | .awaitingResource _ _, .getHome => true
  | _, _ => false

/-- The refresh token an invocation is about to store: a `get_redirect` or a
`post_refresh` between its two writes. -/
def Pc.pendingRefresh : Pc → Option (Option String)
  | .storingRefresh token => some (some token)
  | .replacingRefresh token => some token
  | _ => none

/-- Whether an answer reports a failure: an error page, `BAD_REQUEST` or a panic. -/
def Outcome.failed : Outcome → Bool
  | .error _ | .badRequest _ | .panicked => true
  | _ => false

/-! ## The steps of the handlers -/

/-- The token exchange a handler awaits at a control point, a response `token` to it, and
where the handler resumes once the response's access token is stored: `get_redirect` at
storing the response's refresh token, if it has one (`afterAccess`), `post_refresh` at
replacing the refresh token with the response's. -/
inductive Exchange : Request → Pc → TokenResponse → Pc → Prop
  | code (query : RedirectQuery) (token : TokenResponse) :
    Exchange (.getRedirect query) .awaitingCode token (afterAccess token)
  | refresh (token : TokenResponse) :
    Exchange .postRefresh .awaitingRefresh token (.replacingRefresh token.refreshToken)

/-- The refresh token a handler stores at a control point: `get_redirect` the one its
response carried, `post_refresh` its response's, or none. -/
inductive Storing : Request → Pc → Option String → Prop
  | code (query : RedirectQuery) (token : String) :
    Storing (.getRedirect query) (.storingRefresh token) (some token)
  | refresh (token : Option String) : Storing .postRefresh (.replacingRefresh token) token

theorem Storing.pendingRefresh {r : Request} {pc : Pc} {token : Option String}
    (h : Storing r pc token) : pc.pendingRefresh = some token := by
  cases h <;> rfl

/-- What one step of invocation `t` of the handler for `r` can do from `pc` on the shared
state `st`: where it resumes, the shared state it leaves and the events it records, oldest
first. -/
inductive Move (t : Nat) : Request → ClientStateInner → Pc → StepResult → Prop
  /-- An invocation that has answered, or that is at no control point of its handler,
  does not move. -/
  | stay {r st pc} (h : pc.isDone = true ∨ r.Fits pc = false) : Move t r st pc (pc, st, [])
  /-- A failure before the first write or after the last: an error page, `BAD_REQUEST`, or
  a panic at a poisoned cell or at an error from the resource server. -/
  | fail {r st pc} (o : Outcome) (ho : o.failed = true) (hd : pc.isDone = false)
      (hp : pc.pendingRefresh = none) : Move t r st pc (.done o, st, [])
  /-- `get_index` stores the state it drew. -/
  | store {st} (state : String) (h : st.codeGrantState.poisoned = false) :
      Move t .getIndex st .start (.done (.index state),
        { st with codeGrantState := ⟨some state, false⟩ }, [.stored t state])
  /-- `get_redirect` exchanges the code of a callback that carries the stored state. -/
  | sendCode {st} (query : RedirectQuery) (code state : String) (he : query.error = none)
      (hc : query.code = some code) (hs : query.state = some state)
      (hg : st.codeGrantState = ⟨some state, false⟩) :
      Move t (.getRedirect query) st .start (.awaitingCode, st, [.codeSent t code state])
  /-- A token response arrives and its access token is stored. -/
  | writeAccess {r st pc next} (token : TokenResponse) (hx : Exchange r pc token next)
      (h : st.accessToken.poisoned = false) :
      Move t r st pc (next, { st with accessToken := ⟨some token.accessToken, false⟩ },
        [.received t token, .accessWritten t token.accessToken])
  /-- A token response arrives and the handler panics at the poisoned `access_token`. -/
  | accessPanic {r st pc next} (token : TokenResponse) (hx : Exchange r pc token next)
      (h : st.accessToken.poisoned = true) :
      Move t r st pc (.done .panicked, st, [.received t token])
  /-- The refresh token is stored and the handler redirects to `/home`. -/
  | writeRefresh {r st pc} (token : Option String) (hx : Storing r pc token)
      (h : st.refreshToken.poisoned = false) :
      Move t r st pc (.done (.redirect "/home"), { st with refreshToken := ⟨token, false⟩ },
        [.refreshWritten t token])
  /-- The handler panics at the poisoned `refresh_token` instead of storing it. -/
  | refreshPanic {r st pc} (token : Option String) (hx : Storing r pc token)
      (h : st.refreshToken.poisoned = true) : Move t r st pc (.done .panicked, st, [])
  /-- `post_refresh` exchanges the refresh token it unwrapped. -/
  | sendRefresh {st} (token : String) (h : st.refreshToken = ⟨some token, false⟩) :
      Move t .postRefresh st .start (.awaitingRefresh, st, [.refreshSent t token])
  /-- `post_refresh` unwraps an empty `refresh_token` with the guard live. -/
  | poisonRefresh {st} (h : st.refreshToken = ⟨none, false⟩) :
      Move t .postRefresh st .start
        (.done .panicked, { st with refreshToken := ⟨none, true⟩ }, [])
  /-- `get_home` reads the access token. -/
  | readAccess {st} (access : String) (h : st.accessToken = ⟨some access, false⟩) :
      Move t .getHome st .start (.readingRefresh access, st, [])
  /-- `get_home` unwraps an empty `access_token` with the guard live. -/
  | poisonAccess {st} (h : st.accessToken = ⟨none, false⟩) :
      Move t .getHome st .start (.done .panicked, { st with accessToken := ⟨none, true⟩ }, [])
  /-- `get_home` reads the refresh token, or the placeholder for none, and fetches the
  resource with the pair. -/
  | readRefresh {st} (access : String) (h : st.refreshToken.poisoned = false) :
      Move t .getHome st (.readingRefresh access)
        (.awaitingResource access (st.refreshToken.value.getD "[no refresh token]"), st,
          [.homeRead t access (st.refreshToken.value.getD "[no refresh token]")])
  /-- `get_home` answers with the home page. -/
  | home {st} (access refresh resource : String) :
      Move t .getHome st (.awaitingResource access refresh)
        (.done (.home access refresh resource), st, [])

/-! ## Every handler step is a move -/

section
variable (t : Nat) (reply : Reply) (st : ClientStateInner)

/-- Storing a response's access token writes it, or panics at the poisoned cell. -/
theorem storeAccess_move {r : Request} {pc next : Pc} (token : TokenResponse)
    (hx : Exchange r pc token next) :
    Move t r st pc (storeAccess t token.accessToken next st [.received t token]) := by
  cases h : st.accessToken.poisoned
  · simpa [storeAccess, h] using Move.writeAccess token hx h
  · simpa [storeAccess, h] using Move.accessPanic token hx h

/-- Storing the refresh token writes it, or panics at the poisoned cell. -/
theorem storeRefresh_move {r : Request} {pc : Pc} {token : Option String}
    (hx : Storing r pc token) : Move t r st pc (storeRefresh t token st) := by
  cases h : st.refreshToken.poisoned
  · simpa [storeRefresh, h] using Move.writeRefresh token hx h
  · simpa [storeRefresh, h] using Move.refreshPanic token hx h

/-- `get_index` stores the state it drew, or panics at the poisoned cell. -/
theorem getIndex_move (pc : Pc) : Move t .getIndex st pc (getIndex t reply st pc) := by
  cases pc
  case start =>
    cases h : st.codeGrantState.poisoned
    · simpa [getIndex, h] using Move.store reply.csrf h
    · simp only [getIndex, Mutex.set_eq, h, if_true]; exact .fail .panicked rfl rfl rfl
  all_goals exact .stay (by simp [Pc.isDone, Request.Fits])

/-- `get_redirect` exchanges the code of a callback that carries the stored state and
answers every other callback with an error page; it then stores the response's tokens. -/
theorem getRedirect_move (query : RedirectQuery) (pc : Pc) :
    Move t (.getRedirect query) st pc (getRedirect t query reply st pc) := by
  cases pc
  case start =>
    rcases query with ⟨_ | e, d, _ | c, _ | v⟩
    all_goals try exact .fail _ rfl rfl rfl
    rcases st with ⟨⟨_ | g, _ | _⟩, a, r⟩
    all_goals try exact .fail _ rfl rfl rfl
    by_cases hv : v = g
    · subst hv
      simp only [getRedirect, Mutex.read_eq, id, ne_eq, not_true_eq_false, if_false,
        Bool.false_eq_true]
      exact .sendCode _ c v rfl rfl rfl rfl
    · simp only [getRedirect, Mutex.read_eq, id, ne_eq, hv, not_false_eq_true, if_true, if_false,
        Bool.false_eq_true]
      exact .fail _ rfl rfl rfl
  case awaitingCode =>
    cases h : reply.token with
    | error err => simp only [getRedirect, h]; exact .fail _ rfl rfl rfl
    | ok token => simp only [getRedirect, h]; exact storeAccess_move t st token (.code query token)
  case storingRefresh refresh => exact storeRefresh_move t st (.code query refresh)
  all_goals exact .stay (by simp [Pc.isDone, Request.Fits])

/-- `post_refresh` exchanges the stored refresh token, or panics at an empty or poisoned
cell; it then stores the response's tokens. -/
theorem postRefresh_move (pc : Pc) : Move t .postRefresh st pc (postRefresh t reply st pc) := by
  cases pc
  case start =>
    rcases st with ⟨g, a, ⟨_ | r, _ | _⟩⟩
    exacts [.poisonRefresh rfl, .fail _ rfl rfl rfl, .sendRefresh r rfl, .fail _ rfl rfl rfl]
  case awaitingRefresh =>
    cases h : reply.token with
    | error err => simp only [postRefresh, h]; exact .fail _ rfl rfl rfl
    | ok token => simp only [postRefresh, h]; exact storeAccess_move t st token (.refresh token)
  case replacingRefresh refresh => exact storeRefresh_move t st (.refresh refresh)
  all_goals exact .stay (by simp [Pc.isDone, Request.Fits])

/-- `get_home` reads the access token, or panics at an empty or poisoned cell; it then
reads the refresh token and answers with the home page. -/
theorem getHome_move (pc : Pc) : Move t .getHome st pc (getHome t reply st pc) := by
  cases pc
  case start =>
    rcases st with ⟨g, ⟨_ | a, _ | _⟩, r⟩
    exacts [.poisonAccess rfl, .fail _ rfl rfl rfl, .readAccess a rfl, .fail _ rfl rfl rfl]
  case readingRefresh access =>
    cases h : st.refreshToken.poisoned
    · simpa [getHome, h] using Move.readRefresh access h
    · simp only [getHome, Mutex.read_eq, h, if_true]; exact .fail _ rfl rfl rfl
  case awaitingResource access refresh =>
    cases h : reply.resource with
    | error err => simp only [getHome, h]; exact .fail _ rfl rfl rfl
    | ok resource => simp only [getHome, h]; exact .home access refresh resource
  all_goals exact .stay (by simp [Pc.isDone, Request.Fits])

/-- Every step of a handler is a `Move`. -/
theorem handle_move (pc : Pc) (r : Request) : Move t r st pc (handle t reply st pc r) := by
  cases r
  exacts [getIndex_move t reply st pc, getRedirect_move t reply st _ pc,
    postRefresh_move t reply st pc, getHome_move t reply st pc]

end

section
variable {t : Nat} {r : Request} {st : ClientStateInner} {pc : Pc} {res : StepResult}

/-- A finished invocation does not move. -/
theorem Move.of_done {o : Outcome} (hm : Move t r st (.done o) res) : res = (.done o, st, []) := by
  cases hm with
  | stay => rfl
  | fail _ _ hd => cases hd
  | writeAccess _ hx | accessPanic _ hx | writeRefresh _ hx | refreshPanic _ hx => cases hx

end

/-! ## Cell values follow the history -/

/-- The values of the three cells, poison flags left out. -/
structure Values where
  codeGrantState : Option String
  accessToken : Option String
  refreshToken : Option String
deriving DecidableEq, Repr

/-- The cell values of the shared state. -/
def ClientStateInner.values (st : ClientStateInner) : Values :=
  ⟨st.codeGrantState.value, st.accessToken.value, st.refreshToken.value⟩

namespace Event

/-- The invocation that recorded an event. -/
def thread : Event → Nat
  | stored t _ | codeSent t _ _ | refreshSent t _ | received t _
  | accessWritten t _ | refreshWritten t _ | homeRead t _ _ => t

/-- The write an event records, applied to cell values. -/
def apply (v : Values) : Event → Values
  | stored _ state => { v with codeGrantState := some state }
  | accessWritten _ token => { v with accessToken := some token }
  | refreshWritten _ token => { v with refreshToken := token }
  | _ => v

end Event

/-- The cell values a history (newest first) leads to from `Client::start`. -/
def replay : List Event → Values
  | [] => ⟨none, none, none⟩
  | e :: log => e.apply (replay log)

theorem replay_append_reverse (evs log : List Event) :
    replay (evs.reverse ++ log) = evs.foldl Event.apply (replay log) := by
  induction evs generalizing log with
  | nil => rfl
  | cons e evs ih => simpa using ih (e :: log)

/-- The value `write` reads off the most recent event of a history (newest first) that
has one: a cell's last write, for the `write` that reads that cell's writes. -/
def lastWrite {α : Type} (write : Event → Option α) (log : List Event) : Option α :=
  log.findSome? write

/-- A cell that every event either sets through `write` or leaves as it was holds its last
write, and its initial value before any. -/
theorem replay_lastWrite {α β : Type} (cell : Values → β) (write : Event → Option α)
    (f : α → β) (happly : ∀ v e, cell (e.apply v) = ((write e).map f).getD (cell v))
    (log : List Event) :
    cell (replay log) = ((lastWrite write log).map f).getD (cell (replay [])) := by
  induction log with
  | nil => rfl
  | cons e log ih =>
    show cell (e.apply (replay log)) = _
    rw [happly, ih]
    simp only [lastWrite, List.findSome?_cons]
    cases write e <;> rfl

section
variable {t : Nat} {r : Request} {st : ClientStateInner} {pc : Pc} {res : StepResult}

/-- A step writes exactly what its events record: a panic that poisons a cell leaves its
value. -/
theorem Move.values (hm : Move t r st pc res) :
    res.2.1.values = res.2.2.foldl Event.apply st.values := by
  cases hm <;> first | rfl | simp_all [ClientStateInner.values]

/-- A step of invocation `t` records only events of `t`. -/
theorem Move.thread (hm : Move t r st pc res) : ∀ e ∈ res.2.2, e.thread = t := by
  cases hm <;> simp [Event.thread]

end

/-! ## Scheduler moves -/

namespace Sys

variable {t : Nat} {reply : Reply} {s : Sys}

theorem step_run {th : Thread} (h : s.threads[t]? = some th) :
    s.step (.step t reply) =
      ⟨(handle t reply s.inner th.pc th.request).2.1,
        s.threads.set t ⟨th.request, (handle t reply s.inner th.pc th.request).1⟩,
        (handle t reply s.inner th.pc th.request).2.2.reverse ++ s.log⟩ := by
  simp [step, h]

theorem step_missing (h : s.threads[t]? = none) : s.step (.step t reply) = s := by
  simp [step, h]

/-- Invocations keep the request they were routed with. -/
theorem requestOf_step {t' : Nat} {req : Request} (h : s.requestOf t' = some req) (a : Action) :
    (s.step a).requestOf t' = some req := by
  obtain ⟨th, hth, rfl⟩ := Option.map_eq_some'.mp h
  have hlt : t' < s.threads.length := (List.getElem?_eq_some_iff.mp hth).1
  cases a with
  | invoke request => simp [step, requestOf, List.getElem?_append_left hlt, hth]
  | step t reply =>
    cases hs : s.threads[t]? with
    | none => rw [step_missing hs]; exact h
    | some th' =>
      rw [step_run hs]
      by_cases ht : t = t'
      · subst ht; simp_all [requestOf]
      · simp [requestOf, List.getElem?_set_ne ht, hth]

/-- A step of an invocation changes no invocation's request. -/
theorem requestOf_step_run (s : Sys) (t : Nat) (reply : Reply) :
    (s.step (.step t reply)).requestOf = s.requestOf := by
  funext t'
  cases hs : s.threads[t]? with
  | none => rw [step_missing hs]
  | some th =>
    rw [step_run hs]
    by_cases ht : t = t'
    · subst ht
      have hlt : t < s.threads.length := (List.getElem?_eq_some_iff.mp hs).1
      simp [requestOf, hs, List.getElem?_set, hlt]
    · simp [requestOf, List.getElem?_set_ne ht]

theorem requestOf_run {t' : Nat} {req : Request} (h : s.requestOf t' = some req)
    (as : List Action) : (s.run as).requestOf t' = some req :=
  Sys.run_invariant (P := fun s => s.requestOf t' = some req)
    (fun _ a h => requestOf_step h a) as s h

/-- What a move does to the invocation at index `t`: it is the one just routed, it took a
step, or it is as it was and the move was not a step of it. -/
theorem getElem?_step_threads {a : Action} {th : Thread} (h : (s.step a).threads[t]? = some th) :
    (∃ request, a = .invoke request ∧ t = s.threads.length ∧ th = ⟨request, .start⟩) ∨
    (∃ reply th₀, a = .step t reply ∧ s.threads[t]? = some th₀ ∧
      th = ⟨th₀.request, (handle t reply s.inner th₀.pc th₀.request).1⟩) ∨
    (s.threads[t]? = some th ∧ ∀ reply, a ≠ .step t reply) := by
  cases a with
  | invoke request =>
    simp only [step] at h
    by_cases ht : t < s.threads.length
    · rw [List.getElem?_append_left ht] at h
      exact .inr (.inr ⟨h, fun _ => nofun⟩)
    · rw [List.getElem?_append_right (by omega)] at h
      obtain ⟨hlt, h⟩ := List.getElem?_eq_some_iff.mp h
      simp only [List.length_cons, List.length_nil] at hlt
      exact .inl ⟨request, rfl, by omega, by simpa using h.symm⟩
  | step t' reply =>
    cases hs : s.threads[t']? with
    | none =>
      rw [step_missing hs] at h
      exact .inr (.inr ⟨h, fun _ hr => by cases hr; simp [hs] at h⟩)
    | some th₀ =>
      rw [step_run hs] at h
      by_cases htt : t' = t
      · subst htt
        have hlt : t' < s.threads.length := (List.getElem?_eq_some_iff.mp hs).1
        simp only [List.getElem?_set_self hlt, Option.some.injEq] at h
        exact .inr (.inl ⟨reply, th₀, rfl, hs, h.symm⟩)
      · rw [List.getElem?_set_ne htt] at h
        exact .inr (.inr ⟨h, fun _ hr => htt (by cases hr; rfl)⟩)

/-- A move adds events, newest first, only of the invocation it steps. -/
theorem step_log_events (a : Action) :
    ∃ evs, (s.step a).log = evs ++ s.log ∧
      ∀ e ∈ evs, (∃ reply, a = .step e.thread reply) ∧ e.thread < s.threads.length := by
  cases a with
  | invoke request => exact ⟨[], rfl, nofun⟩
  | step t reply =>
    cases hs : s.threads[t]? with
    | none => exact ⟨[], by rw [step_missing hs]; rfl, nofun⟩
    | some th =>
      refine ⟨_, by rw [step_run hs], fun e he => ?_⟩
      rw [(handle_move t reply s.inner th.pc th.request).thread e (List.mem_reverse.1 he)]
      exact ⟨⟨reply, rfl⟩, (List.getElem?_eq_some_iff.mp hs).1⟩

theorem length_step_threads (a : Action) : s.threads.length ≤ (s.step a).threads.length := by
  cases a with
  | invoke request => simp [step]
  | step t reply =>
    cases hs : s.threads[t]? with
    | none => rw [step_missing hs]
    | some th => simp [step_run hs]

/-- A move keeps every event naming an invocation that exists. -/
theorem step_events_bound (h : ∀ e ∈ s.log, e.thread < s.threads.length) (a : Action) :
    ∀ e ∈ (s.step a).log, e.thread < (s.step a).threads.length := by
  obtain ⟨evs, hlog, hevs⟩ := s.step_log_events a
  intro e he
  rcases List.mem_append.1 (hlog ▸ he) with he | he
  exacts [(hevs e he).2.trans_le (s.length_step_threads a),
    (h e he).trans_le (s.length_step_threads a)]

/-- A move keeps the cell values those the history records. -/
theorem values_replay_step (h : s.inner.values = replay s.log) (a : Action) :
    (s.step a).inner.values = replay (s.step a).log := by
  cases a with
  | invoke request => exact h
  | step t reply =>
    cases hs : s.threads[t]? with
    | none => rw [step_missing hs]; exact h
    | some th =>
      rw [step_run hs]
      simp only [replay_append_reverse, (handle_move t reply s.inner th.pc th.request).values, h]

/-- The cell values are those the history records, from every reachable state. -/
theorem values_replay (as : List Action) :
    (Sys.init.run as).inner.values = replay (Sys.init.run as).log :=
  Sys.run_invariant (P := fun s => s.inner.values = replay s.log)
    (fun _ a h => values_replay_step h a) as _ rfl

end Sys

/-! ## Properties of histories -/

/-- `P e past` holds of every event `e` of a history (newest first) and the events
`past` that precede it. -/
def Hist (P : Event → List Event → Prop) : List Event → Prop
  | [] => True
  | e :: past => P e past ∧ Hist P past

@[simp] theorem hist_nil (P : Event → List Event → Prop) : Hist P [] := trivial

@[simp] theorem hist_cons {P : Event → List Event → Prop} {e : Event} {past : List Event} :
    Hist P (e :: past) ↔ P e past ∧ Hist P past := Iff.rfl

theorem hist_iff {P : Event → List Event → Prop} {log : List Event} :
    Hist P log ↔ ∀ e past, e :: past <:+ log → P e past := by
  induction log with
  | nil => simp
  | cons e log ih =>
    simp only [hist_cons, ih, List.suffix_cons_iff, List.cons.injEq]
    constructor
    · rintro ⟨he, hl⟩ e' past (⟨rfl, rfl⟩ | hs)
      exacts [he, hl e' past hs]
    · intro h
      exact ⟨h e log (.inl ⟨rfl, rfl⟩), fun e' past hs => h e' past (.inr hs)⟩

theorem Hist.mono {P Q : Event → List Event → Prop} (hPQ : ∀ e past, P e past → Q e past) :
    ∀ {log : List Event}, Hist P log → Hist Q log
  | [], _ => trivial
  | _ :: _, ⟨he, hl⟩ => ⟨hPQ _ _ he, Hist.mono hPQ hl⟩

theorem hist_and {P Q : Event → List Event → Prop} {log : List Event} :
    Hist (fun e past => P e past ∧ Q e past) log ↔ Hist P log ∧ Hist Q log := by
  induction log with
  | nil => simp
  | cons e log ih => simp only [hist_cons, ih, and_and_and_comm]

/-- The last write of a history is an event of it, so it satisfies what `Hist` promises of
every event. -/
theorem Hist.lastWrite {α : Type} {P : Event → List Event → Prop} {write : Event → Option α}
    {x : α} : ∀ {log : List Event}, Hist P log → lastWrite write log = some x →
      ∃ e past, e :: past <:+ log ∧ write e = some x ∧ P e past
  | [], _, h => nomatch h
  | e :: log, ⟨he, hl⟩, h => by
    rw [OxideAuth.Client.lastWrite, List.findSome?_cons] at h
    cases hw : write e with
    | some y =>
      rw [hw] at h
      exact ⟨e, log, List.suffix_refl _, hw.trans h, he⟩
    | none =>
      rw [hw] at h
      obtain ⟨e', past, hs, hw', he'⟩ := Hist.lastWrite hl h
      exact ⟨e', past, hs.trans (List.suffix_cons e log), hw', he'⟩

/-! ## Invariants of runs -/

/-- What `Sys.hist_local_run` carries along a run: the cells hold the values the history
records, every event of the history satisfies `P` (given every invocation's request), and
every invocation satisfies `Q`. -/
def Sys.HistInv (P : (Nat → Option Request) → Event → List Event → Prop)
    (Q : Nat → Thread → List Event → Prop) (s : Sys) : Prop :=
  s.inner.values = replay s.log ∧ Hist (P s.requestOf) s.log ∧
    ∀ t th, s.threads[t]? = some th → Q t th s.log

section
variable {P : (Nat → Option Request) → Event → List Event → Prop}
  {Q : Nat → Thread → List Event → Prop}
  (hmono : ∀ req req' e past, (∀ t r, req t = some r → req' t = some r) →
    P req e past → P req' e past)
  (hlonger : ∀ t th log evs, Q t th log → Q t th (evs ++ log))
  (hfresh : ∀ t req log, Q t ⟨req, .start⟩ log)
  (hstep : ∀ req log t r st pc res, Move t r st pc res → Hist (P req) log → req t = some r →
    st.values = replay log → Q t ⟨r, pc⟩ log →
    Hist (P req) (res.2.2.reverse ++ log) ∧ Q t ⟨r, res.1⟩ (res.2.2.reverse ++ log))
include hmono hlonger hfresh hstep

/-- A scheduler move keeps `Sys.HistInv` when `P` survives new invocations, `Q` survives a
longer history and holds of a fresh invocation, and every `Move` keeps both for the
invocation that moves. -/
theorem Sys.HistInv.step {s : Sys} (h : s.HistInv P Q) (a : Action) : (s.step a).HistInv P Q := by
  obtain ⟨hv, hb, hq⟩ := h
  refine ⟨Sys.values_replay_step hv a, ?_⟩
  cases a with
  | invoke request =>
    refine ⟨hb.mono (hmono _ _ · · fun t r h => Sys.requestOf_step h _), fun t th hth => ?_⟩
    simp only [Sys.step] at hth ⊢
    by_cases ht : t < s.threads.length
    · rw [List.getElem?_append_left ht] at hth
      exact hq t th hth
    · rw [List.getElem?_append_right (by omega)] at hth
      obtain ⟨_, h⟩ := List.getElem?_eq_some_iff.mp hth
      have : th = ⟨request, .start⟩ := by simpa using h.symm
      exact this ▸ hfresh t request s.log
  | step t reply =>
    cases hs : s.threads[t]? with
    | none => rw [Sys.step_missing hs]; exact ⟨hb, hq⟩
    | some th =>
      obtain ⟨hb', hq'⟩ := hstep _ _ t _ _ _ _ (handle_move t reply s.inner th.pc th.request) hb
        (by simp [Sys.requestOf, hs]) hv (hq t th hs)
      have hreq := Sys.requestOf_step_run s t reply
      rw [Sys.step_run hs] at hreq ⊢
      refine ⟨hreq ▸ hb', fun t' th' hth => ?_⟩
      by_cases ht : t = t'
      · subst ht
        have hlt : t < s.threads.length := (List.getElem?_eq_some_iff.mp hs).1
        simp only [List.getElem?_set, hlt, if_true, Option.some.injEq] at hth
        exact hth ▸ hq'
      · rw [List.getElem?_set_ne ht] at hth
        exact hlonger _ _ _ _ (hq t' th' hth)

/-- The induction behind every history invariant of the client: a property `P` of each
recorded event (given every invocation's request) and a property `Q` of each invocation
hold along every run when `Sys.HistInv.step`'s conditions hold. -/
theorem Sys.hist_local_run (as : List Action) :
    Hist (P (Sys.init.run as).requestOf) (Sys.init.run as).log ∧
      ∀ t th, (Sys.init.run as).threads[t]? = some th → Q t th (Sys.init.run as).log :=
  (Sys.run_invariant (P := Sys.HistInv P Q) (fun _ a h => h.step hmono hlonger hfresh hstep a)
    as Sys.init ⟨rfl, trivial, fun _ _ h => nomatch h⟩).2

end

end OxideAuth.Client
