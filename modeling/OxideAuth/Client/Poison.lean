import OxideAuth.Client.Csrf

/-!
# Panics, poisoned cells and failed invocations

The handlers take every cell with `lock().unwrap()`. `get_home` unwraps
`access_token` and `post_refresh` unwraps `refresh_token` while the guard is still
live (`Mutex.unwrapSome`): on an empty cell the handler panics and poisons it, and
every later `lock().unwrap()` on that cell panics.

* `cells_poisoned_only_by_empty_unwrap`: those two unwraps are the only moves that
  poison a cell (`code_grant_state` is never poisoned, `codeGrantState_unpoisoned`).
* `poisoned_cells_frozen`: along any run a poisoned cell keeps its value.
* `home_before_login_poisons_access_token`: `/home` before any login poisons
  `access_token`; a later login passes its state check, receives a token and panics
  before storing it.
* `login_stores_token_unless_poisoned`: from every reachable state whose
  `access_token` is not poisoned, a login stores the exchanged access token.
* `refresh_without_new_token_poisons`: `post_refresh` stores the response's refresh
  token even when it has none, and the next `post_refresh` then poisons
  `refresh_token`.
* `failed_invocations_write_nothing`: along every run, an invocation that answered with
  an error page, `BAD_REQUEST` or a panic recorded no write. The one exception is a
  `get_redirect` or `post_refresh` that stored its access token and then panicked at a
  poisoned `refresh_token` (`Written`, kept by `Move.written`).
* `poisoned_token_cells_block_home`: once a token cell is poisoned, no invocation routed
  afterwards answers with the home page. Once `access_token` is poisoned, none answers
  with the redirect to it either (`Sys.fresh_run`).
* `unpoisoned_client_reaches_home`: without a poisoned token cell, a login followed by a
  visit of `/home` ends with the home page from every reachable state (`home_run`).
-/

namespace OxideAuth.Client

open ClientStateInner

/-! ## Where cells get poisoned -/

/-- How a step may change a cell: not at all, or from an unpoisoned cell to an
unpoisoned one, or to a poisoned one only where `poisons` holds. -/
def Mutex.Changes {α : Type} (m m' : Mutex α) (poisons : Prop) : Prop :=
  m' = m ∨ m.poisoned = false ∧ (m'.poisoned = false ∨ poisons)

section
variable {α : Type} {m m' : Mutex α} {poisons : Prop}

/-- A poisoned cell does not change. -/
theorem Mutex.Changes.frozen (h : m.Changes m' poisons) (hp : m.poisoned = true) : m' = m := by
  rcases h with h | ⟨h, -⟩
  exacts [h, by simp_all]

/-- A cell becomes poisoned only where `poisons` holds. -/
theorem Mutex.Changes.origin (h : m.Changes m' poisons) (hp : m'.poisoned = true) :
    m.poisoned = true ∨ poisons := by
  rcases h with rfl | ⟨-, h | h⟩
  exacts [.inl hp, by simp_all, .inr h]

theorem Mutex.Changes.mono {Q : Prop} (h : m.Changes m' poisons) (hQ : poisons → Q) :
    m.Changes m' Q :=
  h.imp_right fun ⟨hp, h⟩ => ⟨hp, h.imp_right hQ⟩

end

/-- A step poisons `access_token` only where `get_home` unwraps an empty access
token with its guard live, and `refresh_token` only where `post_refresh` unwraps an
empty refresh token with its guard live; `code_grant_state` it never poisons. -/
theorem Move.changes {t : Nat} {r : Request} {st : ClientStateInner} {pc : Pc}
    {res : StepResult} (hm : Move t r st pc res) :
    st.accessToken.Changes res.2.1.accessToken
      (r = .getHome ∧ pc = .start ∧ st.accessToken = ⟨none, false⟩) ∧
    st.refreshToken.Changes res.2.1.refreshToken
      (r = .postRefresh ∧ pc = .start ∧ st.refreshToken = ⟨none, false⟩) := by
  cases hm <;> simp_all [Mutex.Changes]

/-- A scheduler move poisons `access_token` only by running a `get_home` at its
start on an empty access token, and `refresh_token` only by running a
`post_refresh` at its start on an empty refresh token. -/
theorem Sys.step_changes (s : Sys) (a : Action) :
    s.inner.accessToken.Changes (s.step a).inner.accessToken
      (∃ t reply, a = .step t reply ∧ s.threads[t]? = some ⟨.getHome, .start⟩ ∧
        s.inner.accessToken = ⟨none, false⟩) ∧
    s.inner.refreshToken.Changes (s.step a).inner.refreshToken
      (∃ t reply, a = .step t reply ∧ s.threads[t]? = some ⟨.postRefresh, .start⟩ ∧
        s.inner.refreshToken = ⟨none, false⟩) := by
  cases a with
  | invoke request => exact ⟨.inl rfl, .inl rfl⟩
  | step t reply =>
    cases hs : s.threads[t]? with
    | none => rw [Sys.step_missing hs]; exact ⟨.inl rfl, .inl rfl⟩
    | some th =>
      rw [Sys.step_run hs]
      obtain ⟨ha, hr⟩ := (handle_move t reply s.inner th.pc th.request).changes
      exact ⟨ha.mono fun ⟨h1, h2, h3⟩ => ⟨t, reply, rfl, h1 ▸ h2 ▸ hs, h3⟩,
        hr.mono fun ⟨h1, h2, h3⟩ => ⟨t, reply, rfl, h1 ▸ h2 ▸ hs, h3⟩⟩

/-- Poisoning happens only where a handler unwraps an empty cell while holding its
guard: `get_home` on `access_token`, `post_refresh` on `refresh_token`. -/
theorem cells_poisoned_only_by_empty_unwrap (s : Sys) (a : Action) :
    ((s.step a).inner.accessToken.poisoned = true → s.inner.accessToken.poisoned = false →
      ∃ t reply, a = .step t reply ∧ s.threads[t]? = some ⟨.getHome, .start⟩ ∧
        s.inner.accessToken.value = none) ∧
    ((s.step a).inner.refreshToken.poisoned = true → s.inner.refreshToken.poisoned = false →
      ∃ t reply, a = .step t reply ∧ s.threads[t]? = some ⟨.postRefresh, .start⟩ ∧
        s.inner.refreshToken.value = none) := by
  obtain ⟨ha, hr⟩ := s.step_changes a
  refine ⟨fun hp hp' => ?_, fun hp hp' => ?_⟩
  · obtain ⟨t, reply, h1, h2, h3⟩ := (ha.origin hp).resolve_left (by simp [hp'])
    exact ⟨t, reply, h1, h2, by rw [h3]⟩
  · obtain ⟨t, reply, h1, h2, h3⟩ := (hr.origin hp).resolve_left (by simp [hp'])
    exact ⟨t, reply, h1, h2, by rw [h3]⟩

/-- Once a token cell is poisoned no run changes it again: every later
`lock().unwrap()` on it panics. -/
theorem poisoned_cells_frozen (s : Sys) (as : List Action) :
    (s.inner.accessToken.poisoned = true →
      (s.run as).inner.accessToken = s.inner.accessToken) ∧
    (s.inner.refreshToken.poisoned = true →
      (s.run as).inner.refreshToken = s.inner.refreshToken) := by
  refine ⟨fun hp => ?_, fun hp => ?_⟩
  · refine Sys.run_invariant (P := fun s' => s'.inner.accessToken = s.inner.accessToken)
      (fun s' a h => ?_) as s rfl
    exact ((s'.step_changes a).1.frozen (h ▸ hp)).trans h
  · refine Sys.run_invariant (P := fun s' => s'.inner.refreshToken = s.inner.refreshToken)
      (fun s' a h => ?_) as s rfl
    exact ((s'.step_changes a).2.frozen (h ▸ hp)).trans h

/-! ## A login after `get_home` on an empty client -/

/-- `/home` requested before any token is stored, then a login (`/`, then
`/redirect` with the stored state) whose code exchange answers `T`. -/
def poisonRun : List Action :=
  [.invoke .getHome, .step 0 ⟨"", .error "", .error ""⟩,
   .invoke .getIndex, .step 1 ⟨"S", .error "", .error ""⟩,
   .invoke (.getRedirect ⟨none, none, some "C", some "S"⟩), .step 2 ⟨"", .error "", .error ""⟩,
   .step 2 ⟨"", .ok ⟨"T", none⟩, .error ""⟩]

/-- In `poisonRun`, `get_home` panics with the `access_token` guard live and poisons
it; the login passes the state check and receives `T`, then panics at
`access_token.lock().unwrap()`, so `T` is never stored and the cell stays empty and
poisoned. -/
theorem home_before_login_poisons_access_token :
    (Sys.init.run poisonRun).threads.map (·.pc) =
      [.done .panicked, .done (.index "S"), .done .panicked] ∧
    (Sys.init.run poisonRun).log =
      [.received 2 ⟨"T", none⟩, .codeSent 2 "C" "S", .stored 1 "S"] ∧
    (Sys.init.run poisonRun).inner.accessToken = ⟨none, true⟩ := by
  decide

/-! ## Recovery while `access_token` is not poisoned -/

theorem Sys.step_invoke (inner : ClientStateInner) (ths : List Thread) (log : List Event)
    (request : Request) :
    (Sys.mk inner ths log).step (.invoke request) = ⟨inner, ths ++ [⟨request, .start⟩], log⟩ := rfl

/-- The newest invocation takes one step. -/
theorem Sys.step_last (inner : ClientStateInner) (ths : List Thread) (th : Thread)
    (log : List Event) {t : Nat} (ht : ths.length = t) (reply : Reply) :
    (Sys.mk inner (ths ++ [th]) log).step (.step t reply) =
      ⟨(handle t reply inner th.pc th.request).2.1,
        ths ++ [⟨th.request, (handle t reply inner th.pc th.request).1⟩],
        (handle t reply inner th.pc th.request).2.2.reverse ++ log⟩ := by
  subst ht
  have hs : (Sys.mk inner (ths ++ [th]) log).threads[ths.length]? = some th := by simp
  rw [Sys.step_run hs]
  simp

/-- A login from any state whose `code_grant_state` and `access_token` are not
poisoned stores the exchanged access token. -/
theorem login_run (s : Sys) (state code : String) (token : TokenResponse)
    (hc : s.inner.codeGrantState.poisoned = false) (ha : s.inner.accessToken.poisoned = false) :
    let reply : Reply := ⟨state, .ok token, .error ""⟩
    (s.run [.invoke .getIndex, .step s.threads.length reply,
      .invoke (.getRedirect ⟨none, none, some code, some state⟩),
      .step (s.threads.length + 1) reply, .step (s.threads.length + 1) reply,
      .step (s.threads.length + 1) reply]).inner.accessToken.value = some token.accessToken := by
  intro reply
  obtain ⟨inner, ths, log⟩ := s
  simp (disch := simp) only [Sys.run_cons, Sys.run_nil, Sys.step_invoke, Sys.step_last]
  rcases token with ⟨a, _ | r⟩ <;> cases hr : inner.refreshToken.poisoned <;>
    simp_all [handle, getIndex, getRedirect, storeAccess, storeRefresh, afterAccess]

/-- From every reachable state whose `access_token` is not poisoned, a `get_index`
followed by a `get_redirect` that carries the state just stored and whose code
exchange answers `token`, each run to completion, leaves `token`'s access token
stored. -/
theorem login_stores_token_unless_poisoned (as : List Action) (state code : String)
    (token : TokenResponse) (h : (Sys.init.run as).inner.accessToken.poisoned = false) :
    let s := Sys.init.run as
    let reply : Reply := ⟨state, .ok token, .error ""⟩
    (s.run [.invoke .getIndex, .step s.threads.length reply,
      .invoke (.getRedirect ⟨none, none, some code, some state⟩),
      .step (s.threads.length + 1) reply, .step (s.threads.length + 1) reply,
      .step (s.threads.length + 1) reply]).inner.accessToken.value =
        some token.accessToken :=
  login_run (Sys.init.run as) state code token (codeGrantState_unpoisoned as) h

/-- A login whose code exchange returns access token `A` and refresh token `R`. -/
def loginRun : List Action :=
  [.invoke .getIndex, .step 0 ⟨"S", .error "", .error ""⟩,
   .invoke (.getRedirect ⟨none, none, some "C", some "S"⟩), .step 1 ⟨"", .error "", .error ""⟩,
   .step 1 ⟨"", .ok ⟨"A", some "R"⟩, .error ""⟩, .step 1 ⟨"", .error "", .error ""⟩]

/-- After `loginRun`, a second login whose code exchange returns `T` stores it. -/
theorem login_stores_token_after_login :
    (Sys.init.run loginRun).inner.accessToken.poisoned = false ∧
    let s := Sys.init.run loginRun
    let reply : Reply := ⟨"S2", .ok ⟨"T", none⟩, .error ""⟩
    (s.run [.invoke .getIndex, .step s.threads.length reply,
      .invoke (.getRedirect ⟨none, none, some "C2", some "S2"⟩),
      .step (s.threads.length + 1) reply, .step (s.threads.length + 1) reply,
      .step (s.threads.length + 1) reply]).inner.accessToken.value = some "T" :=
  ⟨by decide, login_stores_token_unless_poisoned loginRun "S2" "C2" ⟨"T", none⟩ (by decide)⟩

/-! ## A refresh without a new refresh token -/

/-- `post_refresh` stores the response's refresh token even when there is none: a
successful refresh whose response carries no refresh token empties `refresh_token`,
and the next `post_refresh` unwraps the empty cell with its guard live and poisons it. -/
theorem refresh_run (s : Sys) (refresh : String) (token : TokenResponse)
    (h : s.inner.refreshToken = ⟨some refresh, false⟩) (ha : s.inner.accessToken.poisoned = false)
    (hnone : token.refreshToken = none) :
    let reply : Reply := ⟨"", .ok token, .error ""⟩
    let s' := s.run [.invoke .postRefresh, .step s.threads.length reply,
      .step s.threads.length reply, .step s.threads.length reply]
    s'.inner.refreshToken = ⟨none, false⟩ ∧
      (s'.run [.invoke .postRefresh, .step (s.threads.length + 1) reply]).inner.refreshToken =
        ⟨none, true⟩ := by
  intro reply s'
  obtain ⟨inner, ths, log⟩ := s
  simp (disch := simp) only [s', Sys.run_cons, Sys.run_nil, Sys.step_invoke, Sys.step_last]
  simp_all [handle, postRefresh, storeAccess, storeRefresh]

/-- From every reachable state holding an unpoisoned refresh token and access token, a
refresh whose response has no refresh token empties `refresh_token`, and the next
refresh poisons it. -/
theorem refresh_without_new_token_poisons (as : List Action) (refresh : String)
    (token : TokenResponse)
    (h : (Sys.init.run as).inner.refreshToken = ⟨some refresh, false⟩)
    (ha : (Sys.init.run as).inner.accessToken.poisoned = false)
    (hnone : token.refreshToken = none) :
    let s := Sys.init.run as
    let reply : Reply := ⟨"", .ok token, .error ""⟩
    let s' := s.run [.invoke .postRefresh, .step s.threads.length reply,
      .step s.threads.length reply, .step s.threads.length reply]
    s'.inner.refreshToken = ⟨none, false⟩ ∧
      (s'.run [.invoke .postRefresh, .step (s.threads.length + 1) reply]).inner.refreshToken =
        ⟨none, true⟩ :=
  refresh_run (Sys.init.run as) refresh token h ha hnone

theorem refresh_without_new_token_after_login :
    (Sys.init.run loginRun).inner.refreshToken = ⟨some "R", false⟩ ∧
    (Sys.init.run loginRun).inner.accessToken.poisoned = false ∧
    (⟨"A2", none⟩ : TokenResponse).refreshToken = none ∧
    let s := Sys.init.run loginRun
    let reply : Reply := ⟨"", .ok ⟨"A2", none⟩, .error ""⟩
    let s' := s.run [.invoke .postRefresh, .step s.threads.length reply,
      .step s.threads.length reply, .step s.threads.length reply]
    s'.inner.refreshToken = ⟨none, false⟩ ∧
      (s'.run [.invoke .postRefresh, .step (s.threads.length + 1) reply]).inner.refreshToken =
        ⟨none, true⟩ :=
  ⟨by decide, by decide, rfl,
    refresh_without_new_token_poisons loginRun "R" ⟨"A2", none⟩ (by decide) (by decide) rfl⟩

/-! ## Which failures write -/

/-- Whether an event records a write to a cell. -/
def Event.isWrite : Event → Bool
  | .stored .. | .accessWritten .. | .refreshWritten .. => true
  | _ => false

/-- Every write invocation `t` recorded in a history satisfies `P`. -/
def WritesOf (t : Nat) (log : List Event) (P : Event → Prop) : Prop :=
  ∀ e ∈ log, e.thread = t → e.isWrite = true → P e

/-- What invocation `t` has written by the time it is at `pc`: its access token only,
between its two writes; nothing, once it has failed, unless it panicked at
`refresh_token` (which is then poisoned) after storing its access token; and nothing
anywhere else before it answers. -/
def Written (t : Nat) (st : ClientStateInner) (log : List Event) : Pc → Prop
  | .storingRefresh _ | .replacingRefresh _ => WritesOf t log fun e => ∃ a, e = .accessWritten t a
  | .done o => o.failed = true → WritesOf t log (fun _ => False) ∨
      (o = .panicked ∧ st.refreshToken.poisoned = true ∧
        WritesOf t log fun e => ∃ a, e = .accessWritten t a)
  | _ => WritesOf t log fun _ => False

section
variable {t : Nat} {log : List Event} {P : Event → Prop} {evs : List Event}

theorem WritesOf.append_other (h : WritesOf t log P) (hevs : ∀ e ∈ evs, e.thread ≠ t) :
    WritesOf t (evs ++ log) P := fun e he het hw =>
  (List.mem_append.1 he).elim (fun he' => absurd het (hevs e he')) (fun he' => h e he' het hw)

theorem WritesOf.of_none (h : WritesOf t log fun _ => False) : WritesOf t log P :=
  fun e he het hw => (h e he het hw).elim

theorem WritesOf.append_own (h : WritesOf t log P) (hevs : ∀ e ∈ evs, e.isWrite = true → P e) :
    WritesOf t (evs ++ log) P := fun e he het hw =>
  (List.mem_append.1 he).elim (fun he' => hevs e he' hw) (fun he' => h e he' het hw)

/-- An invocation that has written nothing meets `Written` wherever no refresh token is
pending. -/
theorem written_of_none {st : ClientStateInner} {pc : Pc} (h : WritesOf t log fun _ => False)
    (hp : pc.pendingRefresh = none) : Written t st log pc := by
  cases pc <;> first | exact h | exact fun _ => .inl h | simp [Pc.pendingRefresh] at hp

/-- Before it answers and outside its two writes, an invocation has written nothing. -/
theorem Written.none_of {st : ClientStateInner} {pc : Pc} (h : Written t st log pc)
    (hd : pc.isDone = false) (hp : pc.pendingRefresh = none) : WritesOf t log fun _ => False := by
  cases pc <;> first | exact h | simp [Pc.pendingRefresh, Pc.isDone] at hp hd

/-- Between its two writes, an invocation has written its access token only. -/
theorem Written.of_pending {st : ClientStateInner} {pc : Pc} {x : Option String}
    (h : Written t st log pc) (hp : pc.pendingRefresh = some x) :
    WritesOf t log fun e => ∃ a, e = .accessWritten t a := by
  cases pc <;> first | exact h | simp [Pc.pendingRefresh] at hp

/-- Events that write no cell keep what an invocation has written. -/
theorem WritesOf.append_reads (h : WritesOf t log P) (hevs : ∀ e ∈ evs, e.isWrite = false) :
    WritesOf t (evs ++ log) P :=
  h.append_own fun e he hw => absurd hw (by simp [hevs e he])

/-- Another invocation's step keeps `Written`: its events are not `t`'s, and a poisoned
`refresh_token` stays poisoned. -/
theorem Written.frame {st st' : ClientStateInner} {pc : Pc} (h : Written t st log pc)
    (hevs : ∀ e ∈ evs, e.thread ≠ t)
    (hst : st.refreshToken.poisoned = true → st'.refreshToken.poisoned = true) :
    Written t st' (evs ++ log) pc := by
  cases pc <;> try exact WritesOf.append_other h hevs
  case done o =>
    exact fun hf => (h hf).imp (WritesOf.append_other · hevs)
      fun ⟨h1, h2, h3⟩ => ⟨h1, hst h2, WritesOf.append_other h3 hevs⟩

/-- A step of invocation `t` keeps `Written`: its only write before it answers is the
access token, and the only failure after that is the panic at a poisoned
`refresh_token`. -/
theorem Move.written {r : Request} {st : ClientStateInner} {pc : Pc} {res : StepResult}
    (hm : Move t r st pc res) (h : Written t st log pc) :
    Written t res.2.1 (res.2.2.reverse ++ log) res.1 := by
  -- a step that writes nothing, from a point before any write to one outside the writes
  have hquiet : ∀ {pc' : Pc} {st' : ClientStateInner} {evs : List Event},
      pc.isDone = false → pc.pendingRefresh = none → (∀ e ∈ evs, e.isWrite = false) →
      pc'.pendingRefresh = none → Written t st' (evs ++ log) pc' :=
    fun hd hp hevs hp' => written_of_none ((h.none_of hd hp).append_reads hevs) hp'
  cases hm with
  | stay => exact h
  | fail o _ hd hp => exact hquiet hd hp (fun _ h => nomatch h) rfl
  | writeAccess token hx =>
    have hw : WritesOf t log fun _ => False := by cases hx <;> exact h
    have hacc : WritesOf t ([.accessWritten t token.accessToken, .received t token] ++ log)
        fun e => ∃ a, e = .accessWritten t a := hw.of_none.append_own fun e he hwr => by
      rcases List.mem_pair.1 he with rfl | rfl
      exacts [⟨_, rfl⟩, by cases hwr]
    cases hx
    · unfold afterAccess; split
      exacts [hacc, fun hf => nomatch hf]
    · exact hacc
  | accessPanic token hx => cases hx <;> exact hquiet rfl rfl (by simp [Event.isWrite]) rfl
  | refreshPanic token hx hR => exact fun _ => .inr ⟨rfl, hR, h.of_pending hx.pendingRefresh⟩
  | writeRefresh | store | home => exact fun hf => nomatch hf
  | _ => exact hquiet rfl rfl (by simp [Event.isWrite]) rfl

end

/-- Along every run, every event names an invocation that exists, and every invocation
has written what `Written` allows. -/
theorem Sys.written_run (as : List Action) :
    (∀ e ∈ (Sys.init.run as).log, e.thread < (Sys.init.run as).threads.length) ∧
    ∀ t th, (Sys.init.run as).threads[t]? = some th →
      Written t (Sys.init.run as).inner (Sys.init.run as).log th.pc := by
  refine Sys.run_invariant (P := fun s => (∀ e ∈ s.log, e.thread < s.threads.length) ∧
      ∀ (t : Nat) (th : Thread), s.threads[t]? = some th → Written t s.inner s.log th.pc)
    (fun s a ⟨hlt, hw⟩ => ⟨Sys.step_events_bound hlt a, fun t th hth => ?_⟩) as Sys.init
    ⟨fun _ h => (nomatch h), fun _ _ h => nomatch h⟩
  obtain ⟨evs, hlog, hevs⟩ := s.step_log_events a
  rcases Sys.getElem?_step_threads hth with
    ⟨request, rfl, rfl, rfl⟩ | ⟨reply, th₀, rfl, hth₀, rfl⟩ | ⟨hth, hnot⟩
  · intro e he het _
    rcases List.mem_append.1 (hlog ▸ he) with he | he
    · obtain ⟨⟨_, h⟩, -⟩ := hevs e he
      cases h
    · have := hlt e he
      omega
  · rw [Sys.step_run hth₀]
    exact (handle_move t reply _ _ _).written (hw t th₀ hth₀)
  · rw [hlog]
    refine (hw t th hth).frame (fun e he het => ?_) fun hp => ?_
    · obtain ⟨⟨reply, h⟩, -⟩ := hevs e he
      exact hnot reply (het ▸ h)
    · rw [(s.step_changes a).2.frozen hp]; exact hp

/-- Failures write nothing, with one exception. An invocation that answered with an
error page, `BAD_REQUEST` or a panic recorded no write of any cell, unless it panicked
at `refresh_token` after storing its access token: a `get_redirect` or `post_refresh`
whose second lock found `refresh_token` poisoned, which then stays poisoned. Its only
write is then that access token. -/
theorem failed_invocations_write_nothing (as : List Action) :
    let s := Sys.init.run as
    ∀ t th, s.threads[t]? = some th → ∀ o, th.pc = .done o → o.failed = true →
      (∀ e ∈ s.log, e.thread = t → e.isWrite = false) ∨
      (o = .panicked ∧ s.inner.refreshToken.poisoned = true ∧
        ∀ e ∈ s.log, e.thread = t → e.isWrite = true → ∃ a, e = .accessWritten t a) := by
  intro s t th hth o ho hf
  have hw := (Sys.written_run as).2 t th hth
  rw [ho] at hw
  refine (hw hf).imp_left fun h e he het => ?_
  cases hwr : e.isWrite
  · rfl
  · exact (h e he het hwr).elim

/-! ## A poisoned token cell blocks the home page for good -/

/-- Whether an answer tells the user they are logged in: the home page, or the redirect
to it. -/
def Outcome.loggedIn : Outcome → Bool
  | .home .. | .redirect _ => true
  | _ => false

/-- Where an invocation is before it has written or read the access token: not started,
waiting for a token exchange, or answered without logging in. -/
def Pc.beforeAccess : Pc → Bool
  | .start | .awaitingCode | .awaitingRefresh => true
  | .done o => !o.loggedIn
  | _ => false

/-- Where an invocation is before `get_home` has read the refresh token: anywhere but
waiting for the resource or answered with the home page. -/
def Pc.beforeHome : Pc → Bool
  | .awaitingResource .. | .done (.home ..) => false
  | _ => true

section
variable {t : Nat} {r : Request} {st : ClientStateInner} {pc : Pc} {res : StepResult}

/-- With `access_token` poisoned, an invocation that has not got past the cell never
does: its `lock().unwrap()` on the cell panics. -/
theorem Move.beforeAccess (hm : Move t r st pc res) (hp : st.accessToken.poisoned = true)
    (hpc : pc.beforeAccess = true) : res.1.beforeAccess = true := by
  cases hm with
  | stay => exact hpc
  | fail o ho => cases o <;> first | rfl | cases ho
  | writeAccess _ _ h => simp [hp] at h
  | readAccess _ h | poisonAccess h => simp [h] at hp
  | writeRefresh _ hx | refreshPanic _ hx => cases hx <;> cases hpc
  | readRefresh | home => cases hpc
  | _ => rfl

/-- With `refresh_token` poisoned, a `get_home` that has not read the cell never does. -/
theorem Move.beforeHome (hm : Move t r st pc res) (hp : st.refreshToken.poisoned = true)
    (hpc : pc.beforeHome = true) : res.1.beforeHome = true := by
  cases hm with
  | stay | home => exact hpc
  | fail o ho => cases o <;> first | rfl | cases ho
  | writeAccess _ hx =>
    cases hx
    · unfold afterAccess; split <;> rfl
    · rfl
  | writeRefresh _ _ h | readRefresh _ h => simp [hp] at h
  | sendRefresh _ h | poisonRefresh h => simp [h] at hp
  | _ => rfl

end

/-- A condition on the cells that no move undoes, under which a step never leaves the
control points `P`, keeps every invocation routed afterwards at `P`. -/
theorem Sys.fresh_run {C : ClientStateInner → Prop} {P : Pc → Bool}
    (hC : ∀ (s : Sys) a, C s.inner → C (s.step a).inner)
    (hstep : ∀ t reply st pc r, C st → P pc = true → P (handle t reply st pc r).1 = true)
    (hstart : P .start = true) (s : Sys) (hs : C s.inner) (bs : List Action) :
    ∀ t th, s.threads.length ≤ t → (s.run bs).threads[t]? = some th → P th.pc = true := by
  refine (Sys.run_invariant (P := fun s' => C s'.inner ∧
      ∀ (t : Nat) (th : Thread), s.threads.length ≤ t → s'.threads[t]? = some th → P th.pc = true)
    (fun s' a ⟨hc, hb⟩ => ⟨hC s' a hc, fun t th ht hth => ?_⟩) bs s
    ⟨hs, fun t th ht h => by simp [List.getElem?_eq_none ht] at h⟩).2
  rcases Sys.getElem?_step_threads hth with ⟨_, -, -, rfl⟩ | ⟨_, th₀, -, hth₀, rfl⟩ | ⟨hth, -⟩
  exacts [hstart, hstep _ _ _ _ _ hc (hb t th₀ ht hth₀), hb t th ht hth]

/-- Once a token cell is poisoned the client never shows the home page again: no
invocation routed afterwards, in any run, answers with it. Once `access_token` is
poisoned, none answers with the redirect to it either, so nobody can log in. -/
theorem poisoned_token_cells_block_home (as bs : List Action) :
    let s := Sys.init.run as
    ∀ t th, s.threads.length ≤ t → (s.run bs).threads[t]? = some th → ∀ o, th.pc = .done o →
      ((s.inner.accessToken.poisoned = true ∨ s.inner.refreshToken.poisoned = true) →
        ∀ access refresh resource, o ≠ .home access refresh resource) ∧
      (s.inner.accessToken.poisoned = true → ∀ location, o ≠ .redirect location) := by
  intro s t th ht hth o ho
  have haccess : s.inner.accessToken.poisoned = true → th.pc.beforeAccess = true := fun hp =>
    Sys.fresh_run (C := fun st => st.accessToken.poisoned = true)
      (fun s' a h => by simp only at h ⊢; rw [(s'.step_changes a).1.frozen h]; exact h)
      (fun t reply st pc r hp hpc => (handle_move t reply st pc r).beforeAccess hp hpc) rfl s hp bs
      t th ht hth
  have hrefresh : s.inner.refreshToken.poisoned = true → th.pc.beforeHome = true := fun hp =>
    Sys.fresh_run (C := fun st => st.refreshToken.poisoned = true)
      (fun s' a h => by simp only at h ⊢; rw [(s'.step_changes a).2.frozen h]; exact h)
      (fun t reply st pc r hp hpc => (handle_move t reply st pc r).beforeHome hp hpc) rfl s hp bs
      t th ht hth
  rw [ho] at haccess hrefresh
  refine ⟨fun hp a x res hh => ?_, fun hp l hl => ?_⟩
  · subst hh
    rcases hp with hp | hp
    · simpa [Pc.beforeAccess, Outcome.loggedIn] using haccess hp
    · simpa [Pc.beforeHome] using hrefresh hp
  · subst hl
    simpa [Pc.beforeAccess, Outcome.loggedIn] using haccess hp


/-! ## Without a poisoned token cell the home page stays in reach -/

/-- From any state whose cells are not poisoned, a `get_index`, a callback carrying the
state it stored, and a visit of `/home`, each run to its end, end with the home page. It
shows the exchanged access token and the response's refresh token, or the refresh token
stored before when the response has none. -/
theorem home_run (s : Sys) (state code resource : String) (token : TokenResponse)
    (hc : s.inner.codeGrantState.poisoned = false) (ha : s.inner.accessToken.poisoned = false)
    (hr : s.inner.refreshToken.poisoned = false) :
    let reply : Reply := ⟨state, .ok token, .ok resource⟩
    let n := s.threads.length
    ((s.run [.invoke .getIndex, .step n reply,
        .invoke (.getRedirect ⟨none, none, some code, some state⟩),
        .step (n + 1) reply, .step (n + 1) reply, .step (n + 1) reply,
        .invoke .getHome, .step (n + 2) reply, .step (n + 2) reply,
        .step (n + 2) reply]).threads[n + 2]?).map (·.pc) =
      some (.done (.home token.accessToken
        ((token.refreshToken.or s.inner.refreshToken.value).getD "[no refresh token]") resource)) := by
  intro reply n
  obtain ⟨inner, ths, log⟩ := s
  simp (disch := simp) only [Sys.run_cons, Sys.run_nil, Sys.step_invoke, Sys.step_last]
  rcases token with ⟨a, _ | r⟩ <;>
    simp_all [n, handle, getIndex, getRedirect, getHome, storeAccess, storeRefresh, afterAccess,
      List.getElem_append_right]

/-- Without a poisoned token cell the client can always log in and show the home page.
From every reachable state in which neither token cell is poisoned, a login followed by a
visit of `/home`, each run to its end and answered successfully by the servers, ends with
the home page. It shows the new access token, and the response's refresh token or, when
the response carries none, the one stored before. So a poisoned token cell is what keeps
the home page out of reach. -/
theorem unpoisoned_client_reaches_home (as : List Action) (state code resource : String)
    (token : TokenResponse) (ha : (Sys.init.run as).inner.accessToken.poisoned = false)
    (hr : (Sys.init.run as).inner.refreshToken.poisoned = false) :
    let s := Sys.init.run as
    let reply : Reply := ⟨state, .ok token, .ok resource⟩
    let n := s.threads.length
    ((s.run [.invoke .getIndex, .step n reply,
        .invoke (.getRedirect ⟨none, none, some code, some state⟩),
        .step (n + 1) reply, .step (n + 1) reply, .step (n + 1) reply,
        .invoke .getHome, .step (n + 2) reply, .step (n + 2) reply,
        .step (n + 2) reply]).threads[n + 2]?).map (·.pc) =
      some (.done (.home token.accessToken
        ((token.refreshToken.or s.inner.refreshToken.value).getD "[no refresh token]") resource)) :=
  home_run _ state code resource token (codeGrantState_unpoisoned as) ha hr

/-- After `loginRun`, a second login whose response carries no refresh token, then a
visit of `/home`, end with the home page showing the new access token and the refresh
token `R` stored by the first login. -/
theorem client_reaches_home_after_login :
    ((Sys.init.run loginRun).inner.accessToken.poisoned = false ∧
      (Sys.init.run loginRun).inner.refreshToken.poisoned = false) ∧
    let s := Sys.init.run loginRun
    let reply : Reply := ⟨"S2", .ok ⟨"T", none⟩, .ok "data"⟩
    let n := s.threads.length
    ((s.run [.invoke .getIndex, .step n reply,
        .invoke (.getRedirect ⟨none, none, some "C2", some "S2"⟩),
        .step (n + 1) reply, .step (n + 1) reply, .step (n + 1) reply,
        .invoke .getHome, .step (n + 2) reply, .step (n + 2) reply,
        .step (n + 2) reply]).threads[n + 2]?).map (·.pc) =
      some (.done (.home "T" "R" "data")) :=
  ⟨⟨by decide, by decide⟩,
    (unpoisoned_client_reaches_home loginRun "S2" "C2" "data" ⟨"T", none⟩ (by decide)
      (by decide)).trans (by decide)⟩

end OxideAuth.Client
