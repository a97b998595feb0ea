import OxideAuth.Client.Steps

/-!
# The anti-forgery state

`get_index` stores a fresh `CsrfToken` in `code_grant_state`; `get_redirect`
compares the callback's `state` with it before exchanging the code.

* `code_exchange_bound_to_stored_state`: in every run, a code exchange is sent only
  by a `get_redirect` whose query had no error, had the code and carried the state
  it read, which a `get_index` stored most recently before; and a `get_redirect`
  writes a token cell only after its own exchange. Along every run every event
  is `Bound`, and a `get_redirect` past its comparison has `Sent` its exchange.
* `stored_state_accepted_twice`, `stored_state_not_consumed`: `get_redirect` reads
  `code_grant_state` and does not clear it, so one stored state is accepted by every
  callback that carries it until the next `get_index`.
-/

namespace OxideAuth.Client

open ClientStateInner

/-! ## The stored anti-forgery state -/

/-- The anti-forgery state an event stores, with the invocation that stored it. -/
def Event.storedState : Event → Option (Nat × String)
  | .stored t state => some (t, state)
  | _ => none

/-- The anti-forgery state most recently stored in a history, and the invocation
that stored it. -/
def lastStored (log : List Event) : Option (Nat × String) := lastWrite Event.storedState log

theorem replay_codeGrantState (log : List Event) :
    (replay log).codeGrantState = (lastStored log).map Prod.snd := by
  rw [lastStored, replay_lastWrite Values.codeGrantState Event.storedState (some ·.2)
    fun v e => by cases e <;> rfl]
  cases lastWrite Event.storedState log <;> rfl

/-- Only `get_index` writes `code_grant_state`, and never poisons it. -/
theorem Move.codeGrantState {t : Nat} {r : Request} {st : ClientStateInner} {pc : Pc}
    {res : StepResult} (hm : Move t r st pc res) :
    res.2.1.codeGrantState = st.codeGrantState ∨
    (r = .getIndex ∧ st.codeGrantState.poisoned = false ∧
      ∃ state, res.2.1.codeGrantState = ⟨some state, false⟩) := by
  cases hm with
  | store state h => exact .inr ⟨rfl, h, state, rfl⟩
  | _ => exact .inl rfl

/-! ## Every event is bound -/

/-- What the history promises about an event, given the request of every
invocation: a stored state comes from `get_index`; a code exchange comes from a
`get_redirect` whose query has no error, has the code, and carries the state read,
which a `get_index` stored most recently before; a token write by a `get_redirect`
comes after that invocation's code exchange. -/
def Bound (req : Nat → Option Request) : Event → List Event → Prop
  | .stored t _, _ => req t = some .getIndex
  | .codeSent t code state, past =>
    (∃ query, req t = some (.getRedirect query) ∧ query.error = none ∧
      query.code = some code ∧ query.state = some state) ∧
    ∃ t', lastStored past = some (t', state) ∧ req t' = some .getIndex
  | .accessWritten t _, past | .refreshWritten t _, past =>
    ∃ r, req t = some r ∧
      ∀ query, r = .getRedirect query → ∃ code state, .codeSent t code state ∈ past
  | _, _ => True

theorem Bound.mono {req req' : Nat → Option Request}
    (h : ∀ t r, req t = some r → req' t = some r) :
    ∀ e past, Bound req e past → Bound req' e past
  | .stored .., _, hb => h _ _ hb
  | .codeSent .., _, ⟨⟨q, hq, hq'⟩, t', hl, ht'⟩ =>
    ⟨⟨q, h _ _ hq, hq'⟩, t', hl, h _ _ ht'⟩
  | .accessWritten .., _, ⟨r, hr, hw⟩ => ⟨r, h _ _ hr, hw⟩
  | .refreshWritten .., _, ⟨r, hr, hw⟩ => ⟨r, h _ _ hr, hw⟩
  | .refreshSent .., _, _ | .received .., _, _ | .homeRead .., _, _ => trivial

/-- The state a history stored last was stored by a `get_index`. -/
theorem lastStored_bound {req : Nat → Option Request} {log : List Event} {t : Nat}
    {v : String} (hb : Hist (Bound req) log) (h : lastStored log = some (t, v)) :
    req t = some .getIndex := by
  obtain ⟨e, past, -, hw, he⟩ := hb.lastWrite h
  cases e <;>
    simp only [Event.storedState, reduceCtorEq, Option.some.injEq, Prod.mk.injEq] at hw
  exact hw.1 ▸ he

/-- What an invocation promises: a `get_redirect` that waits for its code exchange
or stores its refresh token has sent that exchange. -/
def Sent (t : Nat) (th : Thread) (log : List Event) : Prop :=
  ∀ query, th.request = .getRedirect query →
    (th.pc = .awaitingCode ∨ ∃ r, th.pc = .storingRefresh r) →
      ∃ code state, .codeSent t code state ∈ log

/-- A step keeps every event bound and keeps its own invocation's promise. -/
theorem Move.bound {req : Nat → Option Request} {log : List Event} {t : Nat} {r : Request}
    {st : ClientStateInner} {pc : Pc} {res : StepResult} (hm : Move t r st pc res)
    (hb : Hist (Bound req) log) (hr : req t = some r) (hv : st.values = replay log)
    (hsent : Sent t ⟨r, pc⟩ log) :
    Hist (Bound req) (res.2.2.reverse ++ log) ∧
      Sent t ⟨r, res.1⟩ (res.2.2.reverse ++ log) := by
  cases hm with
  | stay => exact ⟨hb, hsent⟩
  | sendCode query code state herr hc hs hg =>
    -- the callback is accepted: the state read is the one last stored
    have hcgs : (replay log).codeGrantState = some state := by
      rw [← hv]; simp [ClientStateInner.values, hg]
    rw [replay_codeGrantState] at hcgs
    obtain ⟨⟨t', v'⟩, hl, rfl⟩ := Option.map_eq_some'.mp hcgs
    exact ⟨⟨⟨⟨query, hr, herr, hc, hs⟩, t', hl, lastStored_bound hb hl⟩, hb⟩,
      fun _ _ _ => ⟨code, _, .head _⟩⟩
  | writeAccess token hx =>
    -- the response to the code exchange arrived: the access token is stored after it
    have hcode : ∀ query, r = .getRedirect query →
        ∃ code state, .codeSent t code state ∈ log := fun q hq => by
      cases hx; exacts [hsent q hq (.inl rfl), nomatch hq]
    exact ⟨⟨⟨r, hr, fun q hq => (hcode q hq).imp fun _ => .imp fun _ => .tail _⟩, trivial,
      hb⟩, fun q hq _ => (hcode q hq).imp fun _ => .imp fun _ => List.mem_append_right _⟩
  | writeRefresh token hx =>
    have hcode : ∀ query, r = .getRedirect query →
        ∃ code state, .codeSent t code state ∈ log := fun q hq => by
      cases hx; exacts [hsent q hq (.inr ⟨_, rfl⟩), nomatch hq]
    exact ⟨⟨⟨r, hr, hcode⟩, hb⟩, fun _ _ h => by
      rcases h with h | ⟨_, h⟩ <;> cases h⟩
  | store => exact ⟨⟨hr, hb⟩, fun _ _ h => by rcases h with h | ⟨_, h⟩ <;> cases h⟩
  | _ =>
    -- nothing bound is recorded, and the invocation is away from its code exchange
    exact ⟨by first | exact hb | exact ⟨trivial, hb⟩,
      fun _ _ h => by rcases h with h | ⟨_, h⟩ <;> cases h⟩

/-- Along every run, every event is bound and every invocation keeps its promise. -/
theorem bound_run (as : List Action) :
    Hist (Bound (Sys.init.run as).requestOf) (Sys.init.run as).log ∧
      ∀ t th, (Sys.init.run as).threads[t]? = some th → Sent t th (Sys.init.run as).log :=
  Sys.hist_local_run (fun _ _ e past h => Bound.mono h e past)
    (fun _ _ _ evs h q hq hpc => (h q hq hpc).imp fun _ => .imp fun _ => List.mem_append_right evs)
    (fun _ _ _ _ _ h => by rcases h with h | ⟨_, h⟩ <;> cases h)
    (fun _ _ _ _ _ _ _ hm hb hr hv hq => hm.bound hb hr hv hq) as

/-! ## Code exchanges are bound to the stored state -/

/-- A code exchange is sent only by a `get_redirect` whose query had no error, had
the code, and carried the state that invocation read from `code_grant_state`, the
state a `get_index` stored most recently before the exchange; and a `get_redirect`
writes a token cell only after its own code exchange. So a callback before any
`get_index`, without a state or with another state sends nothing and writes
nothing. -/
theorem code_exchange_bound_to_stored_state (as : List Action) :
    let s := Sys.init.run as
    (∀ t code state past, .codeSent t code state :: past <:+ s.log →
      (∃ query, s.requestOf t = some (.getRedirect query) ∧ query.error = none ∧
        query.code = some code ∧ query.state = some state) ∧
      ∃ t', lastStored past = some (t', state) ∧ s.requestOf t' = some .getIndex) ∧
    ∀ t query, s.requestOf t = some (.getRedirect query) →
      (∀ token past, .accessWritten t token :: past <:+ s.log →
        ∃ code state, .codeSent t code state ∈ past) ∧
      (∀ token past, .refreshWritten t token :: past <:+ s.log →
        ∃ code state, .codeSent t code state ∈ past) := by
  have hb := hist_iff.mp (bound_run as).1
  refine ⟨fun t c v past h => hb _ past h, fun t q hq => ⟨fun a past h => ?_, fun a past h => ?_⟩⟩
  all_goals
    obtain ⟨r, hr, hw⟩ := hb _ past h
    exact hw q (Option.some.inj (hr.symm.trans hq))

/-! ## The stored state is not consumed -/

/-- `code_grant_state` is never poisoned: no handler panics while holding it. -/
theorem codeGrantState_unpoisoned (as : List Action) :
    (Sys.init.run as).inner.codeGrantState.poisoned = false := by
  refine Sys.run_invariant (P := fun s => s.inner.codeGrantState.poisoned = false)
    (fun s a h => ?_) as Sys.init rfl
  cases a with
  | invoke request => exact h
  | step t reply =>
    cases hs : s.threads[t]? with
    | none => rw [Sys.step_missing hs]; exact h
    | some th =>
      rw [Sys.step_run hs]
      rcases (handle_move t reply s.inner th.pc th.request).codeGrantState with
        h' | ⟨-, -, _, h'⟩ <;> simp [h', h]

/-- Only a step of `get_index` changes `code_grant_state`. -/
theorem codeGrantState_written_by_index {s : Sys} {a : Action}
    (h : (s.step a).inner.codeGrantState ≠ s.inner.codeGrantState) :
    ∃ t reply, a = .step t reply ∧ s.requestOf t = some .getIndex := by
  cases a with
  | invoke request => exact absurd rfl h
  | step t reply =>
    cases hs : s.threads[t]? with
    | none => rw [Sys.step_missing hs] at h; exact absurd rfl h
    | some th =>
      rw [Sys.step_run hs] at h
      rcases (handle_move t reply s.inner th.pc th.request).codeGrantState with h' | ⟨hi, -, -⟩
      · exact absurd h' h
      · exact ⟨t, reply, rfl, by simp [Sys.requestOf, hs, hi]⟩

/-- Replays: one run in which `get_index` stores `S` once and two callbacks both
carry it. -/
def replayRun : List Action :=
  [.invoke .getIndex, .step 0 ⟨"S", .error "", .error ""⟩,
   .invoke (.getRedirect ⟨none, none, some "C1", some "S"⟩), .step 1 ⟨"", .error "", .error ""⟩,
   .invoke (.getRedirect ⟨none, none, some "C2", some "S"⟩), .step 2 ⟨"", .error "", .error ""⟩]

/-- The state stored by the one `get_index` of `replayRun` is accepted twice: two
invocations send a code exchange that read it. -/
theorem stored_state_accepted_twice :
    ∃ past₁ past₂, .codeSent 1 "C1" "S" :: past₁ <:+ (Sys.init.run replayRun).log ∧
      .codeSent 2 "C2" "S" :: past₂ <:+ (Sys.init.run replayRun).log ∧
      lastStored past₁ = some (0, "S") ∧ lastStored past₂ = some (0, "S") :=
  ⟨[.stored 0 "S"], [.codeSent 1 "C1" "S", .stored 0 "S"], by decide⟩

/-- `get_redirect` never clears `code_grant_state`: from every reachable state that
holds `state`, a callback carrying `state`, a code and no error sends its code
exchange and leaves the cells as they were; and only `get_index` changes
`code_grant_state`. So one stored state is accepted by every such callback until a
`get_index` stores another. -/
theorem stored_state_not_consumed (as : List Action) (query : RedirectQuery)
    (code state : String) (reply : Reply)
    (hstored : (Sys.init.run as).inner.codeGrantState.value = some state)
    (herr : query.error = none) (hcode : query.code = some code)
    (hstate : query.state = some state) :
    let s := Sys.init.run as
    let s' := (s.step (.invoke (.getRedirect query))).step (.step s.threads.length reply)
    (s'.inner = s.inner ∧ s'.log = .codeSent s.threads.length code state :: s.log) ∧
    ∀ a, (s.step a).inner.codeGrantState ≠ s.inner.codeGrantState →
      ∃ t reply, a = .step t reply ∧ s.requestOf t = some .getIndex := by
  refine ⟨?_, fun a h => codeGrantState_written_by_index h⟩
  have hp := codeGrantState_unpoisoned as
  simp [Sys.step, getRedirect, handle, herr, hcode, hstate, hstored, hp]

theorem stored_state_not_consumed_example :
    let as := [.invoke .getIndex, .step 0 ⟨"S", .error "", .error ""⟩]
    let query : RedirectQuery := ⟨none, none, some "C", some "S"⟩
    ((Sys.init.run as).inner.codeGrantState.value = some "S" ∧ query.error = none ∧
      query.code = some "C" ∧ query.state = some "S") ∧
    let s := Sys.init.run as
    let s' := (s.step (.invoke (.getRedirect query))).step
      (.step s.threads.length ⟨"", .error "", .error ""⟩)
    (s'.inner = s.inner ∧ s'.log = .codeSent s.threads.length "C" "S" :: s.log) ∧
    ∀ a, (s.step a).inner.codeGrantState ≠ s.inner.codeGrantState →
      ∃ t reply, a = .step t reply ∧ s.requestOf t = some .getIndex :=
  ⟨by decide, stored_state_not_consumed _ _ "C" "S" _ (by decide) rfl rfl rfl⟩

end OxideAuth.Client
