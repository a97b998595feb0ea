import OxideAuth.Client.Steps

/-!
# Each invocation follows its handler

However the scheduler interleaves the invocations, the events of one invocation, oldest
first (`eventsOf`), are a prefix of the sequence its handler records when it runs to its
end and succeeds (`Request.Trace`). `TraceAt` says how far along that sequence an
invocation is at each control point; `Move.traceAt` is the step lemma, and the events of
the other invocations do not change `eventsOf`.

* `invocations_follow_their_handler`: in every run, each invocation has sent at most one
  token request, received at most one response, written only that response's tokens, the
  access token before the refresh token, and `get_home` has read the token pair at most
  once. No invocation retries a request.
-/

namespace OxideAuth.Client

open ClientStateInner

/-! ## One invocation's events -/

/-- The events of invocation `t`, oldest first, in a history kept newest first. -/
def eventsOf (t : Nat) (log : List Event) : List Event :=
  (log.filter (·.thread == t)).reverse

section
variable {t : Nat} {evs : List Event}

theorem eventsOf_append_own (log : List Event) (h : ∀ e ∈ evs, e.thread = t) :
    eventsOf t (evs.reverse ++ log) = eventsOf t log ++ evs := by
  simp [eventsOf, List.filter_append, List.filter_reverse,
    List.filter_eq_self.2 fun e he => beq_iff_eq.2 (h e he)]

theorem eventsOf_append_other (log : List Event) (h : ∀ e ∈ evs, e.thread ≠ t) :
    eventsOf t (evs ++ log) = eventsOf t log := by
  simp [eventsOf, List.filter_append,
    List.filter_eq_nil_iff.2 fun e he hb => h e he (beq_iff_eq.1 hb)]

theorem eventsOf_of_bound {log : List Event} (h : ∀ e ∈ log, e.thread < t) : eventsOf t log = [] := by
  simp only [eventsOf, List.reverse_eq_nil_iff, List.filter_eq_nil_iff, beq_iff_eq]
  exact fun e he het => absurd (h e he) (by omega)

end

/-! ## The handlers' traces -/

/-- The events an invocation of `request` records when it runs to its end and succeeds,
oldest first, for the values it meets: `get_index` stores the state it drew; `get_redirect`
sends one code exchange, receives one response and writes that response's access token,
then its refresh token when it has one; `post_refresh` sends one refresh exchange,
receives one response and writes its access token, then its refresh token or none;
`get_home` reads the token pair. -/
def Request.Trace (t : Nat) : Request → List Event → Prop
  | .getIndex, evs => ∃ state, evs = [.stored t state]
  | .getRedirect _, evs => ∃ code state response,
      evs = [.codeSent t code state, .received t response, .accessWritten t response.accessToken] ++
        (response.refreshToken.map fun refresh => .refreshWritten t (some refresh)).toList
  | .postRefresh, evs => ∃ token response,
      evs = [.refreshSent t token, .received t response, .accessWritten t response.accessToken,
        .refreshWritten t response.refreshToken]
  | .getHome, evs => ∃ access refresh, evs = [.homeRead t access refresh]

theorem Request.trace_exists (t : Nat) : ∀ r : Request, ∃ evs, r.Trace t evs
  | .getIndex => ⟨_, "", rfl⟩
  | .getRedirect _ => ⟨_, "", "", ⟨"", none⟩, rfl⟩
  | .postRefresh => ⟨_, "", ⟨"", none⟩, rfl⟩
  | .getHome => ⟨_, "", "", rfl⟩

/-- How far along its handler's trace invocation `t` of `request` is at `pc`, given its
events so far, oldest first. The control points of other handlers allow nothing. -/
def TraceAt (t : Nat) (request : Request) (pc : Pc) (evs : List Event) : Prop :=
  match pc, request with
  | .start, _ => evs = []
  | .awaitingCode, .getRedirect _ => ∃ code state, evs = [.codeSent t code state]
  | .storingRefresh refresh, .getRedirect _ => ∃ code state response,
      response.refreshToken = some refresh ∧
      evs = [.codeSent t code state, .received t response, .accessWritten t response.accessToken]
  | .awaitingRefresh, .postRefresh => ∃ token, evs = [.refreshSent t token]
  | .replacingRefresh refresh, .postRefresh => ∃ token response,
      response.refreshToken = refresh ∧
      evs = [.refreshSent t token, .received t response, .accessWritten t response.accessToken]
  | .readingRefresh _, .getHome => evs = []
  | .awaitingResource access refresh, .getHome => evs = [.homeRead t access refresh]
  | .done _, _ => ∃ full, request.Trace t full ∧ evs <+: full
  | _, _ => False

/-- Wherever an invocation stands, its events so far begin its handler's trace. -/
theorem TraceAt.exists_trace {t : Nat} {r : Request} {pc : Pc} {evs : List Event}
    (h : TraceAt t r pc evs) : ∃ full, r.Trace t full ∧ evs <+: full := by
  cases pc with
  | start =>
    obtain ⟨full, hfull⟩ := r.trace_exists t
    exact ⟨full, hfull, h ▸ List.nil_prefix⟩
  | done o => exact h
  | awaitingCode =>
    cases r <;> simp only [TraceAt] at h
    obtain ⟨c, v, rfl⟩ := h
    exact ⟨_, ⟨c, v, ⟨"", none⟩, rfl⟩, by simp⟩
  | storingRefresh _ =>
    cases r <;> simp only [TraceAt] at h
    obtain ⟨c, v, resp, hr, rfl⟩ := h
    exact ⟨_, ⟨c, v, resp, rfl⟩, by simp [hr]⟩
  | awaitingRefresh =>
    cases r <;> simp only [TraceAt] at h
    obtain ⟨tok, rfl⟩ := h
    exact ⟨_, ⟨tok, ⟨"", none⟩, rfl⟩, by simp⟩
  | replacingRefresh _ =>
    cases r <;> simp only [TraceAt] at h
    obtain ⟨tok, resp, -, rfl⟩ := h
    exact ⟨_, ⟨tok, resp, rfl⟩, by simp⟩
  | readingRefresh _ =>
    cases r <;> simp only [TraceAt] at h
    exact ⟨_, ⟨"", "", rfl⟩, h ▸ List.nil_prefix⟩
  | awaitingResource access refresh =>
    cases r <;> simp only [TraceAt] at h
    exact ⟨_, ⟨access, refresh, rfl⟩, h ▸ List.prefix_refl _⟩

/-! ## The step lemma -/

/-- A step of invocation `t` moves it along its handler's trace. -/
theorem Move.traceAt {t : Nat} {r : Request} {st : ClientStateInner} {pc : Pc}
    {res : StepResult} {evs : List Event} (hm : Move t r st pc res) (h : TraceAt t r pc evs) :
    TraceAt t r res.1 (evs ++ res.2.2) := by
  cases hm with
  | stay | readAccess => simpa using h
  | fail | poisonRefresh | poisonAccess | home => simpa using h.exists_trace
  | store state =>
    obtain rfl : evs = [] := h
    exact ⟨_, ⟨_, rfl⟩, List.prefix_refl _⟩
  | sendCode query code state =>
    obtain rfl : evs = [] := h
    exact ⟨code, state, rfl⟩
  | sendRefresh token =>
    obtain rfl : evs = [] := h
    exact ⟨token, rfl⟩
  | readRefresh access =>
    obtain rfl : evs = [] := h
    rfl
  | writeAccess token hx =>
    cases hx
    · obtain ⟨c, v, rfl⟩ := h
      cases hr : token.refreshToken with
      | some refresh =>
        rw [show afterAccess token = .storingRefresh refresh by simp [afterAccess, hr]]
        exact ⟨c, v, token, hr, rfl⟩
      | none =>
        rw [show afterAccess token = .done (.redirect "/home") by simp [afterAccess, hr]]
        exact ⟨_, ⟨c, v, token, rfl⟩, by simp [hr]⟩
    · obtain ⟨tok, rfl⟩ := h
      exact ⟨tok, token, rfl, rfl⟩
  | accessPanic token hx =>
    cases hx
    · obtain ⟨c, v, rfl⟩ := h
      exact ⟨_, ⟨c, v, token, rfl⟩, by simp⟩
    · obtain ⟨tok, rfl⟩ := h
      exact ⟨_, ⟨tok, token, rfl⟩, by simp⟩
  | writeRefresh token hx | refreshPanic token hx =>
    cases hx
    · obtain ⟨c, v, resp, hr, rfl⟩ := h
      exact ⟨_, ⟨c, v, resp, rfl⟩, by simp [hr]⟩
    · obtain ⟨tok, resp, rfl, rfl⟩ := h
      exact ⟨_, ⟨tok, resp, rfl⟩, by simp⟩

/-! ## Along a run -/

/-- Along every run, every event names an invocation that exists, and every invocation is
where `TraceAt` puts it. -/
theorem Sys.trace_run (as : List Action) :
    (∀ e ∈ (Sys.init.run as).log, e.thread < (Sys.init.run as).threads.length) ∧
    ∀ t th, (Sys.init.run as).threads[t]? = some th →
      TraceAt t th.request th.pc (eventsOf t (Sys.init.run as).log) := by
  refine Sys.run_invariant (P := fun s => (∀ e ∈ s.log, e.thread < s.threads.length) ∧
      ∀ (t : Nat) (th : Thread), s.threads[t]? = some th →
        TraceAt t th.request th.pc (eventsOf t s.log))
    (fun s a ⟨hlt, hw⟩ => ⟨Sys.step_events_bound hlt a, fun t th hth => ?_⟩) as Sys.init
    ⟨fun _ h => (nomatch h), fun _ _ h => nomatch h⟩
  obtain ⟨evs, hlog, hevs⟩ := s.step_log_events a
  rcases Sys.getElem?_step_threads hth with
    ⟨request, rfl, rfl, rfl⟩ | ⟨reply, th₀, rfl, hth₀, rfl⟩ | ⟨hth, hnot⟩
  · exact eventsOf_of_bound hlt
  · have hm := handle_move t reply s.inner th₀.pc th₀.request
    rw [Sys.step_run hth₀, eventsOf_append_own _ hm.thread]
    exact hm.traceAt (hw t th₀ hth₀)
  · rw [hlog, eventsOf_append_other _ fun e he het => ?_]
    · exact hw t th hth
    · obtain ⟨⟨reply, h⟩, -⟩ := hevs e he
      exact hnot reply (het ▸ h)

/-- No invocation strays from its handler. In every run, the events of each invocation,
oldest first, begin the sequence its handler records when it succeeds: one stored state
for `get_index`; one code exchange, one response, that response's access token and then
its refresh token for `get_redirect`; one refresh exchange, one response, its access
token and then its refresh token for `post_refresh`; one read of the token pair for
`get_home`. So no invocation sends a second token request, and each writes only the
tokens of the response it received, the access token first. -/
theorem invocations_follow_their_handler (as : List Action) :
    let s := Sys.init.run as
    ∀ t th, s.threads[t]? = some th → ∃ full, th.request.Trace t full ∧ eventsOf t s.log <+: full :=
  fun t th hth => ((Sys.trace_run as).2 t th hth).exists_trace

end OxideAuth.Client
