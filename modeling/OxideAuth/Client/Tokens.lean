import OxideAuth.Client.Steps

/-!
# The token cells

`get_redirect` and `post_refresh` store a token response in two cells,
`access_token` and `refresh_token`, under two separate locks; `get_home` reads them
under two separate locks too.

* `token_cells_written_from_responses`: along every run, each cell on its own is
  written atomically and only with a token of a successful response that the
  writing invocation received before, and holds its most recent write. The
  invariant pairs `FromResponse` (for each write event) with `Pending` (for an
  invocation between its two writes).
* `presented_tokens_issued`: every token the client presents, the refresh token
  `post_refresh` exchanges and the access token `get_home` sends as bearer and shows,
  came in a successful token response received earlier (`Presented`, with
  `ReadAccess` for a `get_home` between its two reads).
* `token_pair_mixed`: the pair is not written atomically. Two `get_redirect`s that
  interleave their writes leave, once both completed, a pair that no serial run of
  their updates (`PairUpdate`) produces.
-/

namespace OxideAuth.Client

open ClientStateInner

/-! ## Every token write carries its invocation's response -/

/-- The access token an event writes. -/
def Event.accessWrite : Event → Option String
  | .accessWritten _ token => some token
  | _ => none

/-- The refresh token an event writes: `some token`, where `token` may be none. -/
def Event.refreshWrite : Event → Option (Option String)
  | .refreshWritten _ token => some token
  | _ => none

/-- The access token most recently written in a history. -/
def lastAccess (log : List Event) : Option String := lastWrite Event.accessWrite log

/-- The refresh token most recently written in a history, `none` before any write. -/
def lastRefresh (log : List Event) : Option String := (lastWrite Event.refreshWrite log).join

theorem replay_accessToken (log : List Event) : (replay log).accessToken = lastAccess log := by
  rw [lastAccess, replay_lastWrite Values.accessToken Event.accessWrite some
    fun v e => by cases e <;> rfl]
  cases lastWrite Event.accessWrite log <;> rfl

theorem replay_refreshToken (log : List Event) : (replay log).refreshToken = lastRefresh log := by
  rw [lastRefresh, replay_lastWrite Values.refreshToken Event.refreshWrite id
    fun v e => by cases e <;> rfl]
  cases lastWrite Event.refreshWrite log <;> rfl

/-- A token write by invocation `t` writes a token of a successful response that `t`
received before. -/
def FromResponse : Event → List Event → Prop
  | .accessWritten t token, past => ∃ r, .received t r ∈ past ∧ r.accessToken = token
  | .refreshWritten t token, past => ∃ r, .received t r ∈ past ∧ r.refreshToken = token
  | _, _ => True

/-- An invocation about to store a refresh token has received the response it
comes from. -/
def Pending (t : Nat) (pc : Pc) (log : List Event) : Prop :=
  ∀ token, pc.pendingRefresh = some token →
    ∃ r, .received t r ∈ log ∧ r.refreshToken = token

theorem Pending.append {t : Nat} {pc : Pc} {log : List Event} (h : Pending t pc log)
    (evs : List Event) : Pending t pc (evs ++ log) :=
  fun x hx => (h x hx).imp fun _ h => ⟨List.mem_append_right _ h.1, h.2⟩

/-- A step keeps every token write tied to its invocation's response: the access token
it writes is the one of the response it records right before. -/
theorem Move.fromResponse {log : List Event} {t : Nat} {r : Request} {st : ClientStateInner}
    {pc : Pc} {res : StepResult} (hm : Move t r st pc res)
    (hb : Hist FromResponse log) (hp : Pending t pc log) :
    Hist FromResponse (res.2.2.reverse ++ log) ∧
      Pending t res.1 (res.2.2.reverse ++ log) := by
  have hnone : ∀ {pc' : Pc} {log'}, pc'.pendingRefresh = none → Pending t pc' log' :=
    fun h _ h' => nomatch h.symm.trans h'
  cases hm with
  | stay => exact ⟨hb, hp⟩
  | writeAccess token hx =>
    -- the access token comes with the response recorded right before it
    refine ⟨⟨⟨token, .head _, rfl⟩, trivial, hb⟩,
      fun x hx' => ⟨token, .tail _ (.head _), ?_⟩⟩
    cases hx
    · cases hr : token.refreshToken <;> simp_all [afterAccess, Pc.pendingRefresh]
    · simpa [Pc.pendingRefresh] using hx'
  | writeRefresh token hx => exact ⟨⟨hp token hx.pendingRefresh, hb⟩, hnone rfl⟩
  | _ => exact ⟨by first | exact hb | exact ⟨trivial, hb⟩, hnone rfl⟩

/-- Along every run, every token write is tied to its invocation's response. -/
theorem fromResponse_run (as : List Action) :
    Hist FromResponse (Sys.init.run as).log ∧
      ∀ t th, (Sys.init.run as).threads[t]? = some th → Pending t th.pc (Sys.init.run as).log :=
  Sys.hist_local_run (P := fun _ => FromResponse) (Q := fun t th log => Pending t th.pc log)
    (fun _ _ _ _ _ h => h) (fun _ _ _ evs h => h.append evs) (fun _ _ _ _ h => nomatch h)
    (fun _ _ _ _ _ _ _ hm hb _ _ hp => hm.fromResponse hb hp) as

/-- Each token cell is updated on its own, atomically, and only with a token of a
successful response: a write by an invocation writes a token of the response that
invocation received before (an invocation whose exchange fails receives none and
writes nothing), and each cell holds its most recent write. -/
theorem token_cells_written_from_responses (as : List Action) :
    let s := Sys.init.run as
    (∀ t token past, .accessWritten t token :: past <:+ s.log →
      ∃ r, .received t r ∈ past ∧ r.accessToken = token) ∧
    (∀ t token past, .refreshWritten t token :: past <:+ s.log →
      ∃ r, .received t r ∈ past ∧ r.refreshToken = token) ∧
    s.inner.accessToken.value = lastAccess s.log ∧
    s.inner.refreshToken.value = lastRefresh s.log := by
  have hb := hist_iff.mp (fromResponse_run as).1
  have hv := Sys.values_replay as
  refine ⟨fun t a past h => hb _ past h, fun t v past h => hb _ past h, ?_, ?_⟩
  · rw [← replay_accessToken, ← hv]; rfl
  · rw [← replay_refreshToken, ← hv]; rfl

/-! ## Every token the client presents was issued to it -/

/-- A token the client presents is one a token response gave it before: the refresh
token `post_refresh` exchanges, and the access token `get_home` sends as bearer and
shows with the refresh token, or with a placeholder when none is stored. -/
def Presented : Event → List Event → Prop
  | .refreshSent _ token, past => ∃ t r, .received t r ∈ past ∧ r.refreshToken = some token
  | .homeRead _ access refresh, past =>
    (∃ t r, .received t r ∈ past ∧ r.accessToken = access) ∧
    (refresh = "[no refresh token]" ∨ ∃ t r, .received t r ∈ past ∧ r.refreshToken = some refresh)
  | _, _ => True

/-- A `get_home` that has read the access token read one a token response gave. -/
def ReadAccess : Pc → List Event → Prop
  | .readingRefresh access, log => ∃ t r, .received t r ∈ log ∧ r.accessToken = access
  | _, _ => True

theorem ReadAccess.append {pc : Pc} {log : List Event} (h : ReadAccess pc log)
    (evs : List Event) : ReadAccess pc (evs ++ log) := by
  cases pc <;> try trivial
  obtain ⟨t, r, hr, h⟩ := h
  exact ⟨t, r, List.mem_append_right _ hr, h⟩

/-- The access token `access_token` holds came in a response received before. -/
theorem lastAccess_received {log : List Event} (hb : Hist FromResponse log) {access : String}
    (h : lastAccess log = some access) :
    ∃ t r, .received t r ∈ log ∧ r.accessToken = access := by
  obtain ⟨e, past, hs, hw, he⟩ := hb.lastWrite h
  cases e <;> simp only [Event.accessWrite, reduceCtorEq, Option.some.injEq] at hw
  obtain ⟨r, hr, rfl⟩ := he
  exact ⟨_, r, hs.subset (.tail _ hr), hw⟩

/-- The refresh token `refresh_token` holds came in a response received before. -/
theorem lastRefresh_received {log : List Event} (hb : Hist FromResponse log) {refresh : String}
    (h : lastRefresh log = some refresh) :
    ∃ t r, .received t r ∈ log ∧ r.refreshToken = some refresh := by
  obtain ⟨e, past, hs, hw, he⟩ := hb.lastWrite (Option.join_eq_some.mp h)
  cases e <;> simp only [Event.refreshWrite, reduceCtorEq, Option.some.injEq] at hw
  obtain ⟨r, hr, rfl⟩ := he
  exact ⟨_, r, hs.subset (.tail _ hr), hw⟩

/-- A step presents only tokens that responses gave, given that every cell holds its
most recent write. -/
theorem Move.presented {log : List Event} {t : Nat} {r : Request} {st : ClientStateInner}
    {pc : Pc} {res : StepResult} (hm : Move t r st pc res) (hv : st.values = replay log)
    (hb : Hist FromResponse log) (hp : Hist Presented log) (hq : ReadAccess pc log) :
    Hist Presented (res.2.2.reverse ++ log) ∧ ReadAccess res.1 (res.2.2.reverse ++ log) := by
  have haccess : st.accessToken.value = lastAccess log := by
    rw [← replay_accessToken, ← hv]; rfl
  have hrefresh : st.refreshToken.value = lastRefresh log := by
    rw [← replay_refreshToken, ← hv]; rfl
  cases hm with
  | stay => exact ⟨hp, hq⟩
  | writeAccess token hx =>
    refine ⟨⟨trivial, trivial, hp⟩, ?_⟩
    cases hx
    · unfold afterAccess; split <;> trivial
    · trivial
  | sendRefresh token h =>
    exact ⟨⟨lastRefresh_received hb (by rw [← hrefresh, h]), hp⟩, trivial⟩
  | readAccess access h => exact ⟨hp, lastAccess_received hb (by rw [← haccess, h])⟩
  | readRefresh access h =>
    refine ⟨⟨⟨hq, ?_⟩, hp⟩, trivial⟩
    cases hx : st.refreshToken.value with
    | none => exact .inl rfl
    | some x => exact .inr (lastRefresh_received hb (hx ▸ hrefresh).symm)
  | _ => exact ⟨by first | exact hp | exact ⟨trivial, hp⟩, trivial⟩

/-- Every token the client presents was issued to it: the refresh token `post_refresh`
exchanges and the access token `get_home` sends as bearer and shows are tokens of a
successful response that some invocation received earlier, and the refresh token
`get_home` shows is one too unless it shows the placeholder. -/
theorem presented_tokens_issued (as : List Action) :
    let s := Sys.init.run as
    (∀ t token past, .refreshSent t token :: past <:+ s.log →
      ∃ t' r, .received t' r ∈ past ∧ r.refreshToken = some token) ∧
    (∀ t access refresh past, .homeRead t access refresh :: past <:+ s.log →
      (∃ t' r, .received t' r ∈ past ∧ r.accessToken = access) ∧
      (refresh = "[no refresh token]" ∨
        ∃ t' r, .received t' r ∈ past ∧ r.refreshToken = some refresh)) := by
  have hrun := Sys.hist_local_run
    (P := fun _ e past => FromResponse e past ∧ Presented e past)
    (Q := fun t th log => Pending t th.pc log ∧ ReadAccess th.pc log)
    (fun _ _ _ _ _ h => h) (fun _ _ _ evs h => ⟨h.1.append evs, h.2.append evs⟩)
    (fun _ _ _ => ⟨fun _ h => (nomatch h), trivial⟩)
    (fun _ _ _ _ _ _ _ hm hb _ hv hq => by
      have hf := hm.fromResponse (hb.mono fun _ _ h => h.1) hq.1
      have hp := hm.presented hv (hb.mono fun _ _ h => h.1) (hb.mono fun _ _ h => h.2) hq.2
      exact ⟨hist_and.2 ⟨hf.1, hp.1⟩, hf.2, hp.2⟩) as
  have hp := hist_iff.mp (hist_and.1 hrun.1).2
  exact ⟨fun t token past h => hp _ past h, fun t a x past h => hp _ past h⟩

/-! ## The pair is not updated atomically -/

/-- How a completed handler changes the token pair when it runs alone, as one
indivisible update: the serial reading of the pair. `get_redirect` sets the access
token and, when the response has one, the refresh token; `post_refresh` sets both. -/
inductive PairUpdate
  | redirect (response : TokenResponse)
  | refresh (response : TokenResponse)

/-- The response a handler's update carries. -/
def PairUpdate.response : PairUpdate → TokenResponse
  | .redirect r | .refresh r => r

/-- One indivisible update of the pair (access token, refresh token). -/
def PairUpdate.apply (pair : Option String × Option String) :
    PairUpdate → Option String × Option String
  | .redirect r => (some r.accessToken, r.refreshToken.or pair.2)
  | .refresh r => (some r.accessToken, r.refreshToken)

/-- When every response carries a refresh token, a serial run of updates leaves the
pair of one response. -/
theorem serial_pair_of_one_response (pair : Option String × Option String) :
    ∀ us : List PairUpdate, us ≠ [] → (∀ u ∈ us, u.response.refreshToken.isSome) →
      ∃ u ∈ us, us.foldl PairUpdate.apply pair =
        (some u.response.accessToken, u.response.refreshToken)
  | [], h, _ => absurd rfl h
  | [u], _, hs => ⟨u, .head _, by
      obtain ⟨x, hx⟩ := Option.isSome_iff_exists.mp (hs u (.head _))
      cases u <;> simp_all [PairUpdate.apply, PairUpdate.response]⟩
  | u :: u' :: us, _, hs => by
    obtain ⟨w, hw, h⟩ := serial_pair_of_one_response (PairUpdate.apply pair u) (u' :: us) (by simp)
      fun v hv => hs v (.tail _ hv)
    exact ⟨w, .tail _ hw, h⟩

/-- Two `get_redirect`s whose exchanges answer (A1, R1) and (A2, R2) interleave
their two locked writes. -/
def mixRun : List Action :=
  [.invoke .getIndex, .step 0 ⟨"S", .error "", .error ""⟩,
   .invoke (.getRedirect ⟨none, none, some "C1", some "S"⟩), .step 1 ⟨"", .error "", .error ""⟩,
   .invoke (.getRedirect ⟨none, none, some "C2", some "S"⟩), .step 2 ⟨"", .error "", .error ""⟩,
   .step 1 ⟨"", .ok ⟨"A1", some "R1"⟩, .error ""⟩, .step 2 ⟨"", .ok ⟨"A2", some "R2"⟩, .error ""⟩,
   .step 2 ⟨"", .error "", .error ""⟩, .step 1 ⟨"", .error "", .error ""⟩]

/-- After `mixRun` every invocation has completed and the client holds (A2, R1),
which no serial run of the two handlers' updates, in any order, produces. -/
theorem token_pair_mixed :
    let s := Sys.init.run mixRun
    s.threads.map (·.pc) =
      [.done (.index "S"), .done (.redirect "/home"), .done (.redirect "/home")] ∧
    (s.inner.accessToken.value, s.inner.refreshToken.value) = (some "A2", some "R1") ∧
    ∀ us : List PairUpdate, us ≠ [] →
      (∀ u ∈ us, u = .redirect ⟨"A1", some "R1"⟩ ∨ u = .redirect ⟨"A2", some "R2"⟩) →
        us.foldl PairUpdate.apply (none, none) ≠ (some "A2", some "R1") := by
  refine ⟨by decide, by decide, fun us hne hus h => ?_⟩
  obtain ⟨u, hu, h'⟩ := serial_pair_of_one_response (none, none) us hne
    fun u hu => by rcases hus u hu with rfl | rfl <;> rfl
  rcases hus u hu with rfl | rfl <;> simp_all [PairUpdate.response]

end OxideAuth.Client
