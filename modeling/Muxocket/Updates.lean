import Mathlib.Data.List.Perm.Basic
import Muxocket.Net

/-!
# Window updates that are due

Credit that is marked for a window update is carried by one: as long as an update is pending
for a window, a frame is queued that will be given the credit of that window when it is
written.
-/

namespace Muxocket

theorem Flow.updPending_onRead {sf : Flow} {n : Int} (hpending : (sf.onRead n).updPending = true) :
  sf.updPending = true ∨ sf.queues n = true
  := by
  unfold Flow.onRead at hpending
  unfold Flow.queues Flow.needsFrame
  split at hpending
  · rename_i hdue
    unfold Flow.flushUpdate at hpending
    split at hpending
    · left
      exact hpending
    · rename_i hpos
      cases hold : sf.updPending with
      | true => exact .inl rfl
      | false =>
          right
          simp only [Bool.and_eq_true, decide_eq_true_eq, Bool.not_eq_true']
          exact ⟨hdue, not_le.mp hpos, hold⟩
  · left
    exact hpending

theorem Flow.updPending_addCredits (delta : Int) (sf : Flow) :
  (sf.addCredits delta).updPending = sf.updPending
  := by
  unfold Flow.addCredits
  split <;> rfl

namespace Station

variable {cfg : SessionConfig} {r : Rules} {t t' : Station}

/-- The control frames of a session that are not yet resolved. -/
def controls (t : Station) : List WriteFrame :=
  t.sess.ctrlQueue ++ t.sess.lateCtrl ++ t.batch

/-- For every window with a pending update there is a frame that will carry its credit. -/
structure Updates (t : Station) : Prop where
  stream : ∀ h < t.sess.next, (t.sess.heap h).flow.updPending = true →
    ∃ f ∈ t.controls, f.streamFlow = some h
  session : t.sess.flow.updPending = true → ∃ f ∈ t.controls, f.sessionFlow = true
  window : t.sess.flow.enabled = true → t.sess.flow.toFlow.Ok

/-- What keeps the frames and the windows keeps the pending updates carried. -/
theorem Updates.of_le (ht : t.Updates) (hnext : t'.sess.next = t.sess.next)
    (hstream : ∀ k < t.sess.next, (t'.sess.heap k).flow.updPending = true →
      (t.sess.heap k).flow.updPending = true)
    (hsession : t'.sess.flow.updPending = true → t.sess.flow.updPending = true)
    (hwindow : t'.sess.flow.enabled = true → t'.sess.flow.toFlow.Ok)
    (hmem : ∀ f ∈ t.controls, f ∈ t'.controls) :
  t'.Updates
  := by
  refine ⟨?_, ?_, hwindow⟩
  · intro h hh hpending
    rw [hnext] at hh
    obtain ⟨f, hf, hflow⟩ := ht.stream h hh (hstream h hh hpending)
    exact ⟨f, hmem f hf, hflow⟩
  · intro hpending
    obtain ⟨f, hf, hflow⟩ := ht.session (hsession hpending)
    exact ⟨f, hmem f hf, hflow⟩

/-- Changing a channel but not its window keeps the pending updates carried. -/
theorem Updates.update (ht : t.Updates) {h : Nat} {f : Channel → Channel}
    (hf : (f (t.sess.heap h)).flow.updPending = (t.sess.heap h).flow.updPending)
    (hheap : t'.sess.heap = (t.sess.update h f).heap) (hnext : t'.sess.next = t.sess.next)
    (hflow : t'.sess.flow = t.sess.flow) (hmem : ∀ f ∈ t.controls, f ∈ t'.controls) :
  t'.Updates
  := by
  apply ht.of_le hnext _ _ _ hmem
  · intro k _ hpending
    rwa [hheap, Session.apply_heap_update (fun c => c.flow.updPending) hf] at hpending
  · rw [hflow]
    exact id
  · rw [hflow]
    apply ht.window

theorem controls_queueNew {s : Session} {need : Bool} {f g : WriteFrame} {batch : List WriteFrame}
    (hf : f ∈ s.ctrlQueue ++ s.lateCtrl ++ batch ∨ need = true ∧ f = g) :
  f ∈ (s.queueNew cfg need g).ctrlQueue ++ (s.queueNew cfg need g).lateCtrl ++ batch
  := by
  unfold Session.queueNew
  simp only [List.mem_append] at hf ⊢
  grind

/-- A frame of the batch that is made ready carried the credit of the windows that are not
pending any more. -/
theorem Updates.ready (ht : t.Updates) {f : WriteFrame} {rest : List WriteFrame}
    (hbatch : t.batch = f :: rest) (hnext : t'.sess.next = t.sess.next)
    (hstream : ∀ k < t.sess.next, (t'.sess.heap k).flow.updPending = true →
      (t.sess.heap k).flow.updPending = true ∧ f.streamFlow ≠ some k)
    (hsession : t'.sess.flow.updPending = true →
      t.sess.flow.updPending = true ∧ f.sessionFlow = false)
    (hwindow : t'.sess.flow.enabled = true → t'.sess.flow.toFlow.Ok)
    (hctrl : t'.sess.ctrlQueue = t.sess.ctrlQueue) (hlate : t'.sess.lateCtrl = t.sess.lateCtrl)
    (hbatch' : t'.batch = rest) :
  t'.Updates
  := by
  have hmem : ∀ g ∈ t.controls, g ≠ f → g ∈ t'.controls := by
    intro g hg hne
    simpa [controls, hctrl, hlate, hbatch, hbatch', hne] using hg
  refine ⟨?_, ?_, hwindow⟩
  · intro k hk hpending
    rw [hnext] at hk
    obtain ⟨hpending, hne⟩ := hstream k hk hpending
    obtain ⟨g, hg, hflow⟩ := ht.stream k hk hpending
    refine ⟨g, hmem g hg ?_, hflow⟩
    rintro rfl
    contradiction
  · intro hpending
    obtain ⟨hpending, hne⟩ := hsession hpending
    obtain ⟨g, hg, hflow⟩ := ht.session hpending
    refine ⟨g, hmem g hg ?_, hflow⟩
    rintro rfl
    simp [hflow] at hne

theorem mem_eraseIdx_or {fs : List WriteFrame} {i : Nat} {f g : WriteFrame} (hf : fs[i]? = some f)
    (hg : g ∈ fs) :
  g = f ∨ g ∈ fs.eraseIdx i
  := by
  obtain ⟨hi, rfl⟩ := List.getElem?_eq_some_iff.mp hf
  simpa using (List.getElem_cons_eraseIdx_perm hi).mem_iff.mpr hg

/-- Moves keep the pending updates carried. -/
theorem Move.updates (hm : Move cfg r t t') (ht : t.Updates) :
  t'.Updates
  := by
  have hall : ∀ f ∈ t.controls, f ∈ t.controls := fun _ hf => hf
  cases hm with
  | touch h f hh hf =>
      exact ht.update (h := h) (f := f) (by rw [hf.keeps.flow]) rfl rfl rfl hall
  | fin h late | lateFin h late | retire h | push f rest h | feed f rest h | feedEarly h p =>
      refine ht.update (h := h) ?_ rfl rfl rfl hall
      simp [Channel.closeFin, Channel.lateFin, Channel.finish, Channel.feedEarly]
  | updStream f rest h =>
      exact ht.update (h := h) (Flow.updPending_addCredits _ _) rfl rfl rfl hall
  | drain h | giveUp h | refuse f rest h | remoteFin f rest h | early f rest h
  | gotFin f rest h | reset f rest h | acked f rest h | idle h =>
      exact ht.update (h := h) rfl rfl rfl rfl hall
  | clock | lateWrite | forgive | unstash | expire | stash | discard | pass | fed | resend
  | updLate =>
      exact ht.of_le rfl (fun _ _ => id) id ht.window hall
  | offer g | collectData g q hq =>
      refine ht.of_le rfl (fun _ _ => id) id ht.window ?_
      intro f hf
      simp only [controls, List.mem_append] at hf ⊢
      grind
  | joinCtrl i g hg =>
      refine ht.of_le rfl (fun _ _ => id) id ht.window ?_
      intro f hf
      have hlate := mem_eraseIdx_or (g := f) hg
      simp only [controls, List.mem_append, List.mem_singleton] at hf ⊢
      grind
  | credit n =>
      refine ⟨?_, ?_, ?_⟩
      · intro h hh hpending
        obtain ⟨f, hf, hflow⟩ := ht.stream h hh hpending
        exact ⟨f, controls_queueNew (.inl hf), hflow⟩
      · intro hpending
        rcases Flow.updPending_onRead hpending with hpending | hqueues
        · obtain ⟨f, hf, hflow⟩ := ht.session hpending
          exact ⟨f, controls_queueNew (.inl hf), hflow⟩
        · exact ⟨_, controls_queueNew (.inr ⟨hqueues, rfl⟩), rfl⟩
      · intro henabled
        apply (ht.window henabled).onRead
  | ack h =>
      refine ht.update (h := h) (f := Channel.ack) rfl rfl rfl rfl ?_
      intro f hf
      apply controls_queueNew (.inl hf)
  | updSession f rest =>
      refine ht.of_le rfl (fun _ _ => id) ?_ ?_ hall
      · exact fun hpending => by rwa [Flow.updPending_addCredits] at hpending
      · exact fun henabled => (ht.window henabled).addCredits _
  | publish id =>
      refine ⟨?_, ht.session, ht.window⟩
      intro h hh hpending
      by_cases hnew : h = t.sess.next
      · subst hnew
        simp [Session.publish, newStreamFlow, Flow.new] at hpending
      · have hlt : h < t.sess.next := by
          simp only [Session.publish] at hh
          omega
        apply ht.stream h hlt
        simpa [Session.publish, hnew] using hpending
  | take h p bufs hh =>
      refine ⟨?_, ?_, ht.window⟩
      · intro k hk hpending
        by_cases hkh : k = h
        · subst hkh
          have hflow : ((t.sess.takeCore cfg k p bufs).heap k).flow
              = (t.sess.heap k).flow.onRead (int32 p.length) := by
            simp [Session.takeCore, Session.queueNew, Channel.take]
          rw [hflow] at hpending
          rcases Flow.updPending_onRead hpending with hpending | hqueues
          · obtain ⟨f, hf, hflow⟩ := ht.stream k hk hpending
            exact ⟨f, controls_queueNew (.inl hf), hflow⟩
          · exact ⟨_, controls_queueNew (.inr ⟨hqueues, rfl⟩), rfl⟩
        · have hheap : (t.sess.takeCore cfg h p bufs).heap k = t.sess.heap k := by
            simp [Session.takeCore, Session.queueNew, Session.update, hkh]
          rw [hheap] at hpending
          obtain ⟨f, hf, hflow⟩ := ht.stream k hk hpending
          exact ⟨f, controls_queueNew (.inl hf), hflow⟩
      · intro hpending
        obtain ⟨f, hf, hflow⟩ := ht.session hpending
        exact ⟨f, controls_queueNew (.inl hf), hflow⟩
  | write h p =>
      refine ht.of_le rfl ?_ ?_ ?_ hall
      · intro k _ hpending
        have hkeep := Session.apply_heap_update (fun c => c.flow.updPending) (s := t.sess) (h := h)
          (f := Channel.send cfg t.sess.now p) rfl k
        exact hkeep.symm.trans hpending
      · intro hpending
        simp only [Session.spend] at hpending
        split at hpending <;> exact hpending
      · intro henabled
        simp only [Session.spend]
        split
        · exact (ht.window henabled).deduct _
        · exact ht.window henabled
  | collectCtrl g q hq =>
      refine ht.of_le rfl (fun _ _ => id) id ht.window ?_
      intro f hf
      simp only [controls, hq, List.mem_append, List.mem_cons] at hf ⊢
      grind
  | ready f rest hbatch _ hstream hsession =>
      refine ht.ready hbatch rfl ?_ ?_ ht.window rfl rfl rfl
      · intro k _ hpending
        exact ⟨hpending, by simp [hstream]⟩
      · exact fun hpending => ⟨hpending, hsession⟩
  | readyAck f rest h hbatch _ hstream hsession =>
      refine ht.ready hbatch rfl ?_ ?_ ht.window rfl rfl rfl
      · intro k _ hpending
        have hkeep := Session.apply_heap_update (fun c => c.flow.updPending) (s := t.sess) (h := h)
          (f := Channel.ackSent) rfl k
        exact ⟨hkeep.symm.trans hpending, by simp [hstream]⟩
      · exact fun hpending => ⟨hpending, hsession⟩
  | readyStream f rest h hbatch _ hstream hsession =>
      refine ht.ready hbatch rfl ?_ ?_ ht.window rfl rfl rfl
      · intro k _ hpending
        by_cases hkh : k = h
        · subst hkh
          simp [Channel.updSent, Flow.resolved] at hpending
        · rw [Session.heap_update_of_ne hkh] at hpending
          refine ⟨hpending, ?_⟩
          rw [hstream]
          simpa using Ne.symm hkh
      · exact fun hpending => ⟨hpending, hsession⟩
  | readySession f rest hbatch _ hstream hsession =>
      refine ht.ready hbatch rfl ?_ ?_ ?_ rfl rfl rfl
      · intro k _ hpending
        exact ⟨hpending, by simp [hstream]⟩
      · intro hpending
        simp [Flow.resolved] at hpending
      · exact fun henabled => (ht.window henabled).resolved

theorem updates_new (now : Int) :
  Updates { sess := newSession cfg now }
  := by
  have hpending : (newSession cfg now).flow.updPending = false := by
    unfold newSession newSessionFlow
    dsimp only
    split <;> rfl
  refine ⟨?_, ?_, ?_⟩
  · intro h hh
    simp at hh
  · simp [-newSession, hpending]
  · unfold newSession newSessionFlow
    dsimp only
    split
    · intro henabled
      contradiction
    · intro _
      apply Flow.Ok.new

/-- When no control frame is queued, no credit waits for one. -/
theorem Updates.unflushed_of_flushed {s : Session} (ht : Updates { sess := s })
    (hwindows : ∀ h < s.next, (s.heap h).flow.Ok) (hctrl : s.ctrlQueue = [])
    (hlate : s.lateCtrl = []) :
  (∀ h < s.next, (s.heap h).flow.unflushed = 0)
    ∧ (s.flow.enabled = true → s.flow.unflushed = 0)
  := by
  have hnone : controls { sess := s } = [] := by
    simp [controls, hctrl, hlate]
  constructor
  · intro h hh
    by_contra hne
    obtain ⟨f, hf, -⟩ := ht.stream h hh ((hwindows h hh).unflushed hne)
    simp [hnone] at hf
  · intro henabled
    by_contra hne
    obtain ⟨f, hf, -⟩ := ht.session ((ht.window henabled).unflushed hne)
    simp [hnone] at hf

end Station

/-- Steps keep the pending updates of both sessions carried. -/
theorem Net.Step.updates {cfg : Side → SessionConfig} {terms : Terms} {n n' : Net}
    (hstep : Net.Step cfg terms n n') (hn : ∀ d, (n.st d).Updates) :
  ∀ d, (n'.st d).Updates
  := by
  rcases hstep.carries with ⟨e, t, hmove, rfl⟩ | hcarries
  · exact (Function.forall_update_iff n.st fun _ t => t.Updates).mpr
      ⟨hmove.updates (hn e), fun d _ => hn d⟩
  · intro d
    obtain ⟨hand, out, heq, -⟩ := hcarries.st d
    rw [heq]
    exact ⟨(hn d).stream, (hn d).session, (hn d).window⟩

end Muxocket
