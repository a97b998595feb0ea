import OxideAuth.Client.Tokens

/-!
# Serial runs update the token pair atomically

`token_pair_mixed` shows two `get_redirect`s whose locked writes interleave and leave a
pair that no serial order of their updates produces. The anomaly needs that
interleaving. When no invocation starts or steps while another one is unfinished
(`Sys.serialRun`), the concrete client refines the abstract one of `PairUpdate`, in
which every completed handler updates the pair in one indivisible step.

* `pairUpdates`: the updates of the pair a history records, oldest first: every stored
  access token with the response it came from, as a `get_redirect`'s or a
  `post_refresh`'s `PairUpdate` (`serialPair` folds them from the empty client).
* `Move.serial`: one step of the unfinished invocation keeps the pair equal to the
  fold of the recorded updates, except for the refresh token the invocation is about to
  store (`Pc.pendingRefresh`), and keeps every `get_home` read on the folded pair.
* `serial_runs_update_pair_atomically`: in every serial run, every pair `get_home`
  reads is the fold of the updates recorded before the read, and every quiescent state
  holds the fold of all recorded updates unless `refresh_token` is poisoned (then a
  `get_redirect` can panic between its two writes).
-/

namespace OxideAuth.Client

open ClientStateInner

/-! ## Serial runs -/

theorem Pc.pendingRefresh_of_isDone {pc : Pc} (h : pc.isDone = true) : pc.pendingRefresh = none := by
  obtain ⟨o, rfl⟩ := Pc.isDone_iff.1 h
  rfl

namespace Sys

/-- A move of a serial run: a request is routed only when every invocation has answered,
and an invocation steps only when every other one has. -/
def serialMove (s : Sys) : Action → Bool
  | .invoke _ => s.threads.all (·.pc.isDone)
  | .step t _ => (s.threads.eraseIdx t).all (·.pc.isDone)

/-- A run in which no two invocations are ever unfinished together. -/
def serialRun (s : Sys) : List Action → Bool
  | [] => true
  | a :: as => s.serialMove a && (s.step a).serialRun as

variable {s : Sys} {i : Nat} {th : Thread}

theorem serialMove_invoke {request : Request} (h : s.serialMove (.invoke request) = true)
    (hi : s.threads[i]? = some th) : th.pc.isDone = true :=
  List.all_eq_true.1 h th (List.getElem?_mem hi)

theorem serialMove_step {t : Nat} {reply : Reply} (h : s.serialMove (.step t reply) = true)
    (hi : s.threads[i]? = some th) (hit : i ≠ t) : th.pc.isDone = true :=
  List.all_eq_true.1 h th (List.mem_eraseIdx_iff_getElem?.2 ⟨i, hit, hi⟩)

/-- The induction behind the properties of serial runs, with every invocation's request
taken from the run's last state. -/
theorem serial_run_invariant {P : (Nat → Option Request) → Sys → Prop}
    (hstep : ∀ s a req, s.serialMove a = true →
      (∀ t r, s.requestOf t = some r → req t = some r) → P req s → P req (s.step a)) :
    ∀ (as : List Action) (s : Sys), s.serialRun as = true →
      P (s.run as).requestOf s → P (s.run as).requestOf (s.run as)
  | [], _, _, h => h
  | a :: as, s, hs, h => by
    simp only [serialRun, Bool.and_eq_true] at hs
    exact serial_run_invariant hstep as (s.step a) hs.2
      (hstep s a _ hs.1 (fun t r h' => requestOf_run (requestOf_step h' a) as) h)

end Sys

/-! ## The pair a history records -/

/-- The update a stored response makes, by the handler that stored it. -/
def updateOf : Option Request → TokenResponse → List PairUpdate
  | some (.getRedirect _), response => [.redirect response]
  | some .postRefresh, response => [.refresh response]
  | _, _ => []

/-- The update an event records, given the events before it: a stored access token,
written right after its handler recorded the response the token came from. -/
def storedUpdate (req : Nat → Option Request) : Event → List Event → List PairUpdate
  | .accessWritten _ _, .received t response :: _ => updateOf (req t) response
  | _, _ => []

/-- The updates of the pair a history (newest first) records, oldest first. -/
def pairUpdates (req : Nat → Option Request) : List Event → List PairUpdate
  | [] => []
  | e :: past => pairUpdates req past ++ storedUpdate req e past

/-- The pair the serial run of a history's updates leaves from the empty client. -/
def serialPair (req : Nat → Option Request) (log : List Event) : Option String × Option String :=
  (pairUpdates req log).foldl PairUpdate.apply (none, none)

/-- A `get_home` read the folded pair: its access token, and its refresh token or the
placeholder when there is none. -/
def HomeReadSerial (req : Nat → Option Request) : Event → List Event → Prop
  | .homeRead _ access refresh, past =>
    (serialPair req past).1 = some access ∧
      (serialPair req past).2.getD "[no refresh token]" = refresh
  | _, _ => True

@[simp] theorem serialPair_cons {req : Nat → Option Request} (e : Event) (past : List Event) :
    serialPair req (e :: past) =
      (storedUpdate req e past).foldl PairUpdate.apply (serialPair req past) := by
  simp [serialPair, pairUpdates, List.foldl_append]

/-! ## One step of the unfinished invocation -/

/-- What the serial invariant asks of the unfinished invocation: while `refresh_token` is
not poisoned the pair is the fold of the recorded updates, but for the refresh token the
invocation is about to store; and a `get_home` between its two reads still finds the
access token it read. -/
def SerialAt (req : Nat → Option Request) (st : ClientStateInner) (pc : Pc)
    (log : List Event) : Prop :=
  (st.refreshToken.poisoned = false →
    serialPair req log = (st.accessToken.value, pc.pendingRefresh.getD st.refreshToken.value)) ∧
  ∀ access, pc = .readingRefresh access → st.accessToken.value = some access

/-- The pair update of the handler that stores a response's access token: that access
token, and the refresh token the handler is about to store next, or the one stored. -/
theorem Exchange.update {req : Nat → Option Request} {t : Nat} {r : Request} {pc next : Pc}
    {token : TokenResponse} (hx : Exchange r pc token next) (hreq : req t = some r) :
    ∃ u, updateOf (req t) token = [u] ∧ (∀ a, next ≠ .readingRefresh a) ∧
      ∀ pair, PairUpdate.apply pair u =
        (some token.accessToken, next.pendingRefresh.getD pair.2) := by
  cases hx
  · refine ⟨.redirect token, by simp [updateOf, hreq], fun a h => ?_, fun pair => ?_⟩
    · unfold afterAccess at h; split at h <;> cases h
    · cases hr : token.refreshToken <;> simp [afterAccess, PairUpdate.apply, Pc.pendingRefresh, hr]
  · exact ⟨.refresh token, by simp [updateOf, hreq], fun _ h => (nomatch h), fun _ => rfl⟩

/-- One step of the unfinished invocation keeps the serial invariant, and records a
`get_home` read only of the folded pair. -/
theorem Move.serial {req : Nat → Option Request} {log : List Event} {t : Nat} {r : Request}
    {st : ClientStateInner} {pc : Pc} {res : StepResult} (hm : Move t r st pc res)
    (hreq : req t = some r) (hb : Hist (HomeReadSerial req) log) (h : SerialAt req st pc log) :
    Hist (HomeReadSerial req) (res.2.2.reverse ++ log) ∧
    SerialAt req res.2.1 res.1 (res.2.2.reverse ++ log) := by
  have hpair : pc.pendingRefresh = none → st.refreshToken.poisoned = false →
      serialPair req log = (st.accessToken.value, st.refreshToken.value) := fun hp hR => by
    simpa [hp] using h.1 hR
  cases hm with
  | stay => exact ⟨hb, h⟩
  | writeAccess token hx =>
    -- the response's update of the pair, but for the refresh token still to be stored
    obtain ⟨u, hu, hnext, happly⟩ := hx.update hreq
    have hp : pc.pendingRefresh = none := by cases hx <;> rfl
    refine ⟨⟨trivial, trivial, hb⟩, fun hR => ?_, fun a h => absurd h (hnext a)⟩
    simp [storedUpdate, hu, hpair hp hR, happly]
  | writeRefresh token hx hR =>
    have hpend := h.1 hR
    rw [hx.pendingRefresh] at hpend
    exact ⟨⟨trivial, hb⟩, fun _ => by simpa [storedUpdate, Pc.pendingRefresh] using hpend,
      fun _ h => nomatch h⟩
  | refreshPanic token hx hR => exact ⟨hb, fun h' => by simp [hR] at h', fun _ h => nomatch h⟩
  | poisonRefresh => exact ⟨hb, fun h' => by simp at h', fun _ h => nomatch h⟩
  | readAccess a ha =>
    exact ⟨hb, fun hR => by simpa [Pc.pendingRefresh] using hpair rfl hR,
      fun _ h => by cases h; simp [ha]⟩
  | poisonAccess ha =>
    exact ⟨hb, fun hR => by simpa [ha, Pc.pendingRefresh] using hpair rfl hR,
      fun _ h => nomatch h⟩
  | readRefresh a hR =>
    -- `get_home` reads the pair the serial run folded
    refine ⟨⟨?_, hb⟩, fun _ => by simpa [storedUpdate, Pc.pendingRefresh] using hpair rfl hR,
      fun _ h => nomatch h⟩
    simp [HomeReadSerial, hpair rfl hR, h.2 a rfl]
  | fail o _ _ hp =>
    exact ⟨hb, fun hR => by simpa [Pc.pendingRefresh] using hpair hp hR, fun _ h => nomatch h⟩
  | accessPanic token hx =>
    have hp : pc.pendingRefresh = none := by cases hx <;> rfl
    exact ⟨⟨trivial, hb⟩,
      fun hR => by simpa [storedUpdate, Pc.pendingRefresh] using hpair hp hR,
      fun _ h => nomatch h⟩
  | _ =>
    exact ⟨by first | exact hb | exact ⟨trivial, hb⟩,
      fun hR => by simpa [storedUpdate, Pc.pendingRefresh] using hpair rfl hR,
      fun _ h => nomatch h⟩

/-- A step of a finished invocation changes nothing. -/
theorem Sys.step_of_done {s : Sys} {t : Nat} {th : Thread} (hth : s.threads[t]? = some th)
    (hd : th.pc.isDone = true) (reply : Reply) : s.step (.step t reply) = s := by
  obtain ⟨request, pc⟩ := th
  obtain ⟨o, rfl⟩ := Pc.isDone_iff.1 hd
  have hset : s.threads.set t ⟨request, .done o⟩ = s.threads := List.ext_getElem? fun i => by
    rw [List.getElem?_set]
    split
    · subst_vars; simp [(List.getElem?_eq_some_iff.mp hth).1, hth]
    · rfl
  rw [Sys.step_run hth, (handle_move t reply s.inner _ request).of_done, hset]
  rfl

/-! ## Along a serial run -/

/-- The invariant of serial runs: every recorded `get_home` read saw the folded pair, a
quiescent state holds it while `refresh_token` is not poisoned, and every unfinished
invocation meets `SerialAt`. -/
structure SerialInv (req : Nat → Option Request) (s : Sys) : Prop where
  homeReads : Hist (HomeReadSerial req) s.log
  quiescent : s.inner.refreshToken.poisoned = false →
    (∀ (t : Nat) (th : Thread), s.threads[t]? = some th → th.pc.isDone = true) →
    serialPair req s.log = (s.inner.accessToken.value, s.inner.refreshToken.value)
  unfinished : ∀ (t : Nat) (th : Thread), s.threads[t]? = some th → th.pc.isDone = false →
    SerialAt req s.inner th.pc s.log

theorem SerialInv.init (req : Nat → Option Request) : SerialInv req Sys.init :=
  ⟨trivial, fun _ _ => rfl, fun _ _ h => nomatch h⟩

/-- A serial move keeps the invariant. -/
theorem SerialInv.step {req : Nat → Option Request} {s : Sys} {a : Action}
    (hs : s.serialMove a = true) (hreq : ∀ t r, s.requestOf t = some r → req t = some r)
    (h : SerialInv req s) : SerialInv req (s.step a) := by
  cases a with
  | invoke request =>
    refine ⟨h.homeReads, fun _ hall => ?_, fun i th hi hnd => ?_⟩
    · have := hall s.threads.length ⟨request, .start⟩ (by simp [Sys.step])
      simp [Pc.isDone] at this
    rcases Sys.getElem?_step_threads hi with ⟨_, -, -, rfl⟩ | ⟨_, _, h', -⟩ | ⟨hi, -⟩
    · refine ⟨fun hR => ?_, fun _ h => nomatch h⟩
      simpa [Pc.pendingRefresh] using h.quiescent hR fun _ _ hj => Sys.serialMove_invoke hs hj
    · cases h'
    · simp [Sys.serialMove_invoke hs hi] at hnd
  | step t reply =>
    cases hth : s.threads[t]? with
    | none => rw [Sys.step_missing hth]; exact h
    | some th =>
      cases hd : th.pc.isDone
      · obtain ⟨hb', hat⟩ := (handle_move t reply s.inner th.pc th.request).serial
          (hreq t th.request (by simp [Sys.requestOf, hth])) h.homeReads (h.unfinished t th hth hd)
        refine ⟨by rw [Sys.step_run hth]; exact hb', fun hR hall => ?_, fun i th' hi hnd => ?_⟩
        · have hdone := hall t ⟨th.request, (handle t reply s.inner th.pc th.request).1⟩
            (by simp [Sys.step_run hth, (List.getElem?_eq_some_iff.mp hth).1])
          rw [Sys.step_run hth] at hR ⊢
          simpa [Pc.pendingRefresh_of_isDone hdone] using hat.1 hR
        rcases Sys.getElem?_step_threads hi with ⟨_, h', -⟩ | ⟨_, th₀, h', hth₀, rfl⟩ | ⟨hi, hnot⟩
        · cases h'
        · cases h'
          rw [hth, Option.some.injEq] at hth₀
          subst hth₀
          rw [Sys.step_run hth]
          exact hat
        · simp [Sys.serialMove_step hs hi fun hit => hnot reply (hit ▸ rfl)] at hnd
      · rw [Sys.step_of_done hth hd]; exact h

/-- In every run in which no invocation starts or steps while another one is unfinished,
the client refines the abstract one in which each completed handler updates the token
pair as one `PairUpdate`, in the order the handlers stored their responses: every pair
`get_home` reads (its refresh token shown with the placeholder when there is none) is the
fold of the updates recorded before the read, and every quiescent state holds the fold
of all recorded updates, unless `refresh_token` is poisoned. -/
theorem serial_runs_update_pair_atomically (as : List Action)
    (hserial : Sys.init.serialRun as = true) :
    let s := Sys.init.run as
    (∀ t access refresh past, .homeRead t access refresh :: past <:+ s.log →
      ((pairUpdates s.requestOf past).foldl PairUpdate.apply (none, none)).1 = some access ∧
      ((pairUpdates s.requestOf past).foldl PairUpdate.apply (none, none)).2.getD
        "[no refresh token]" = refresh) ∧
    (s.inner.refreshToken.poisoned = false → s.threads.all (·.pc.isDone) = true →
      (s.inner.accessToken.value, s.inner.refreshToken.value) =
        (pairUpdates s.requestOf s.log).foldl PairUpdate.apply (none, none)) := by
  have h := Sys.serial_run_invariant (P := SerialInv) (fun _ _ _ hs hreq h => h.step hs hreq)
    as Sys.init hserial (SerialInv.init _)
  refine ⟨fun t a x past hs => hist_iff.mp h.homeReads _ past hs, fun hR hall => ?_⟩
  exact (h.quiescent hR fun _ th ht => List.all_eq_true.1 hall th (List.getElem?_mem ht)).symm

/-- A login, a visit of `/home` and a refresh, one after another. -/
def serialSession : List Action :=
  [.invoke .getIndex, .step 0 ⟨"S", .error "", .error ""⟩,
   .invoke (.getRedirect ⟨none, none, some "C", some "S"⟩), .step 1 ⟨"", .error "", .error ""⟩,
   .step 1 ⟨"", .ok ⟨"A1", some "R1"⟩, .error ""⟩, .step 1 ⟨"", .error "", .error ""⟩,
   .invoke .getHome, .step 2 ⟨"", .error "", .error ""⟩, .step 2 ⟨"", .error "", .error ""⟩,
   .step 2 ⟨"", .error "", .ok "data"⟩,
   .invoke .postRefresh, .step 3 ⟨"", .error "", .error ""⟩,
   .step 3 ⟨"", .ok ⟨"A2", none⟩, .error ""⟩, .step 3 ⟨"", .error "", .error ""⟩]

theorem serial_session_pair :
    Sys.init.serialRun serialSession = true ∧
    let s := Sys.init.run serialSession
    (∀ t access refresh past, .homeRead t access refresh :: past <:+ s.log →
      ((pairUpdates s.requestOf past).foldl PairUpdate.apply (none, none)).1 = some access ∧
      ((pairUpdates s.requestOf past).foldl PairUpdate.apply (none, none)).2.getD
        "[no refresh token]" = refresh) ∧
    (s.inner.refreshToken.poisoned = false → s.threads.all (·.pc.isDone) = true →
      (s.inner.accessToken.value, s.inner.refreshToken.value) =
        (pairUpdates s.requestOf s.log).foldl PairUpdate.apply (none, none)) :=
  ⟨by decide, serial_runs_update_pair_atomically serialSession (by decide)⟩

end OxideAuth.Client
