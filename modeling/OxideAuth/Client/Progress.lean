import OxideAuth.Client.Steps

/-!
# Every invocation finishes

No handler waits for another: each lock is taken and released within one step. So
every invocation finishes, with a page, a redirect, an error or a panic, after at most
three of its own steps, whatever the other invocations do in between and whatever the
servers answer.

* `Request.Fits` (in `Steps`): the control points of each handler. Every invocation of a
  reachable state sits at one of its handler's (`threads_fit`).
* `Move.progress`: a step of an unfinished invocation moves it to a control point of its
  handler with fewer steps left (`Pc.remaining`).
* `invocations_finish`: an invocation of a reachable state has finished once three
  more of its steps have run.
-/

namespace OxideAuth.Client

open ClientStateInner

/-! ## Control points -/

/-- How many more of its own steps an invocation takes at most from a control point. -/
def Pc.remaining : Pc → Nat
  | .start => 3
  | .awaitingCode | .awaitingRefresh | .readingRefresh _ => 2
  | .storingRefresh _ | .replacingRefresh _ | .awaitingResource _ _ => 1
  | .done _ => 0

theorem Pc.remaining_eq_zero {pc : Pc} : pc.remaining = 0 ↔ ∃ o, pc = .done o := by
  cases pc <;> simp [Pc.remaining]

/-- Whether an action is a step of invocation `t`. -/
def Action.isStepOf (t : Nat) : Action → Bool
  | .step t' _ => t' == t
  | .invoke _ => false

section
variable {t : Nat} {r : Request} {st : ClientStateInner} {pc : Pc} {res : StepResult}

/-- A step of an unfinished invocation moves it to a control point of its handler with
fewer steps left. -/
theorem Move.progress (hm : Move t r st pc res) (hfit : r.Fits pc = true)
    (hpc : pc.remaining ≠ 0) : r.Fits res.1 = true ∧ res.1.remaining < pc.remaining := by
  cases hm with
  | stay h =>
    rcases h with h | h
    · obtain ⟨o, rfl⟩ := Pc.isDone_iff.1 h
      exact absurd rfl hpc
    · simp [h] at hfit
  | writeAccess _ hx =>
    cases hx
    · unfold afterAccess; split <;> simp [Request.Fits, Pc.remaining]
    · simp [Request.Fits, Pc.remaining]
  | fail | accessPanic | writeRefresh | refreshPanic => exact ⟨rfl, Nat.pos_of_ne_zero hpc⟩
  | _ => simp [Request.Fits, Pc.remaining]

/-- A step keeps an invocation at its handler's control points and takes one off the
steps it has left, if any. -/
theorem Move.remaining (hm : Move t r st pc res) (hfit : r.Fits pc = true) :
    r.Fits res.1 = true ∧ res.1.remaining ≤ pc.remaining - 1 := by
  by_cases hpc : pc.remaining = 0
  · obtain ⟨o, rfl⟩ := Pc.remaining_eq_zero.1 hpc
    rw [hm.of_done]
    exact ⟨hfit, by simp [Pc.remaining]⟩
  · have := hm.progress hfit hpc
    exact ⟨this.1, by omega⟩

end

theorem Request.fits_start (r : Request) : r.Fits .start := by
  cases r <;> rfl

theorem Pc.remaining_le (pc : Pc) : pc.remaining ≤ 3 := by
  cases pc <;> simp [Pc.remaining]

/-! ## Along a run -/

namespace Sys

/-- One action moves invocation `t` only if it is a step of `t`, and then takes one off
the steps it has left. -/
theorem thread_step (s : Sys) (a : Action) {t : Nat} {th : Thread}
    (ht : s.threads[t]? = some th) (hfit : th.request.Fits th.pc) :
    ∃ pc', (s.step a).threads[t]? = some ⟨th.request, pc'⟩ ∧ th.request.Fits pc' ∧
      pc'.remaining ≤ th.pc.remaining - if a.isStepOf t then 1 else 0 := by
  have hlt : t < s.threads.length := (List.getElem?_eq_some_iff.1 ht).1
  cases a with
  | invoke request =>
    exact ⟨th.pc, by simp [step, List.getElem?_append_left hlt, ht], hfit, by simp [Action.isStepOf]⟩
  | step t' reply =>
    by_cases htt : t' = t
    · subst htt
      rw [step_run ht]
      obtain ⟨hf, hr⟩ := (handle_move t' reply s.inner th.pc th.request).remaining hfit
      exact ⟨_, by simp [hlt], hf, by simpa [Action.isStepOf] using hr⟩
    · have hsame : (s.step (.step t' reply)).threads[t]? = some th := by
        cases ht' : s.threads[t']? with
        | none => rw [step_missing ht', ht]
        | some th' => rw [step_run ht', List.getElem?_set_ne htt, ht]
      exact ⟨th.pc, hsame, hfit, by simp [Action.isStepOf, htt]⟩

/-- Along a run, invocation `t` stays at its handler's control points and loses one
remaining step for each of its steps. -/
theorem thread_run (bs : List Action) (s : Sys) {t : Nat} {th : Thread}
    (ht : s.threads[t]? = some th) (hfit : th.request.Fits th.pc) :
    ∃ pc', (s.run bs).threads[t]? = some ⟨th.request, pc'⟩ ∧ th.request.Fits pc' ∧
      pc'.remaining ≤ th.pc.remaining - bs.countP (·.isStepOf t) := by
  induction bs generalizing s th with
  | nil => exact ⟨th.pc, ht, hfit, by simp⟩
  | cons a bs ih =>
    obtain ⟨pc₁, h₁, hf₁, hr₁⟩ := s.thread_step a ht hfit
    obtain ⟨pc', h', hf', hr'⟩ := ih (s.step a) h₁ hf₁
    refine ⟨pc', h', hf', ?_⟩
    rw [List.countP_cons]
    split at hr₁ <;> simp_all <;> omega

/-- Every invocation of a reachable state is at a control point of its handler. -/
theorem threads_fit (as : List Action) :
    ∀ (t : Nat) (th : Thread), (Sys.init.run as).threads[t]? = some th → th.request.Fits th.pc := by
  refine run_invariant
    (P := fun s => ∀ (t : Nat) (th : Thread), s.threads[t]? = some th → th.request.Fits th.pc)
    (fun s a h t th ht => ?_) as Sys.init (by simp [Sys.init])
  cases h₀ : s.threads[t]? with
  | some th₀ =>
    obtain ⟨pc', h', hf', -⟩ := s.thread_step a h₀ (h t th₀ h₀)
    rw [h'] at ht
    cases ht
    exact hf'
  | none =>
    cases a with
    | invoke request =>
      have hle : s.threads.length ≤ t := List.getElem?_eq_none_iff.1 h₀
      rw [step, List.getElem?_append_right hle] at ht
      rcases List.getElem?_eq_some_iff.1 ht with ⟨hi, rfl⟩
      simpa using request.fits_start
    | step t' reply =>
      cases ht' : s.threads[t']? with
      | none => simp [step_missing ht', h₀] at ht
      | some th' =>
        have htt : t' ≠ t := by rintro rfl; simp [h₀] at ht'
        simp [step_run ht', List.getElem?_set_ne htt, h₀] at ht

end Sys

/-- An invocation of a reachable state has finished, with a page, a redirect, an error
or a panic, once three more of its steps have run, whatever else runs in between. -/
theorem invocations_finish (as bs : List Action) (t : Nat) (th : Thread)
    (ht : (Sys.init.run as).threads[t]? = some th) (hsteps : 3 ≤ bs.countP (·.isStepOf t)) :
    ∃ o, ((Sys.init.run as).run bs).threads[t]? = some ⟨th.request, .done o⟩ := by
  obtain ⟨pc', h', -, hr⟩ :=
    (Sys.init.run as).thread_run bs ht (Sys.threads_fit as t th ht)
  have hzero : pc'.remaining = 0 := by have := th.pc.remaining_le; omega
  obtain ⟨o, rfl⟩ := Pc.remaining_eq_zero.1 hzero
  exact ⟨o, h'⟩

/-- Server answers in which the code exchange succeeds. -/
def exchangeReply : Reply := ⟨"S", .ok ⟨"T", some "R"⟩, .error ""⟩

theorem invocations_finish_redirect :
    (Sys.init.run [.invoke (.getRedirect ⟨none, none, some "C", some "S"⟩)]).threads[0]? =
      some ⟨.getRedirect ⟨none, none, some "C", some "S"⟩, .start⟩ ∧
    3 ≤ [Action.step 0 exchangeReply, .invoke .getHome, .step 0 exchangeReply,
      .step 0 exchangeReply].countP (·.isStepOf 0) ∧
    ∃ o, ((Sys.init.run [.invoke (.getRedirect ⟨none, none, some "C", some "S"⟩)]).run
      [.step 0 exchangeReply, .invoke .getHome, .step 0 exchangeReply,
        .step 0 exchangeReply]).threads[0]? =
        some ⟨.getRedirect ⟨none, none, some "C", some "S"⟩, .done o⟩ :=
  ⟨rfl, by decide,
    invocations_finish [.invoke (.getRedirect ⟨none, none, some "C", some "S"⟩)]
      [.step 0 exchangeReply, .invoke .getHome, .step 0 exchangeReply, .step 0 exchangeReply] 0
      ⟨.getRedirect ⟨none, none, some "C", some "S"⟩, .start⟩ rfl (by decide)⟩

end OxideAuth.Client
