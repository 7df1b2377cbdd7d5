import Muxocket.Operations

/-!
# The shape of a session

What holds of a single session between any two moves, whatever its peer does.  The first
part is about one channel: when its ring may be closed, how its two streams end, what it
keeps for retransmission and what its window owes.  The second part is about the table, the
early frames and the queues of the session.
-/

namespace Muxocket

namespace Channel

/-! ### The ring -/

/-- The ring of a channel is closed only when the channel is, or when its peer has ended the
stream, and what is in it is not thrown away before. -/
structure RingOk (c : Channel) : Prop where
  drained : c.drained = true → c.ring = none ∧ c.closed = true
  closed : c.closed = true → c.drained = true ∨ c.drainable = true
  readDone : c.readDone = true → c.drainable = true ∨ c.closed = true
  ring : c.ring = none → c.closed = true ∨ c.readDone = true

variable {c c' : Channel} {cfg : SessionConfig} {r : Rules} {hand : List PacketFrame}

section

variable (hc : c.RingOk)

include hc

/-- Data is put on a ring. -/
theorem RingOk.push (p : Bytes) :
  (c.push p).RingOk
  := by
  unfold Channel.push
  split
  · rename_i bufs hring
    refine ⟨?_, hc.closed, hc.readDone, ?_⟩
    · intro hdrained
      have hnone := (hc.drained hdrained).1
      rw [hring] at hnone
      contradiction
    · intro hnone
      contradiction
  · exact ⟨hc.drained, hc.closed, hc.readDone, hc.ring⟩

theorem RingOk.feed (p : Bytes) :
  (c.feed p).RingOk
  := by
  have hpush := hc.push p
  unfold Channel.feed
  split
  · exact ⟨hc.drained, hc.closed, hc.readDone, hc.ring⟩
  · exact ⟨hpush.drained, hpush.closed, hpush.readDone, hpush.ring⟩

/-- A frame is kept for retransmission. -/
theorem RingOk.register (cfg : SessionConfig) (u : UnackedFrame) :
  (c.register cfg u).RingOk
  := by
  unfold Channel.register
  split
  · exact ⟨hc.drained, hc.closed, hc.readDone, hc.ring⟩
  · apply hc

/-- A channel is finalized. -/
theorem RingOk.retire (hread : c.readDone = true) :
  c.retire.RingOk
  := by
  simp only [Channel.retire]
  split
  · exact ⟨fun h => ⟨rfl, (hc.drained h).2⟩, hc.closed, hc.readDone, fun _ => .inr hread⟩
  · exact ⟨hc.drained, hc.closed, hc.readDone, hc.ring⟩

theorem RingOk.touch (htouch : Touch cfg r c c') :
  c'.RingOk
  := by
  cases htouch with
  | alike halike =>
      rw [halike]
      exact ⟨hc.drained, hc.closed, hc.readDone, hc.ring⟩
  | shut hdrained =>
      exact ⟨fun h => ⟨(hc.drained h).1, rfl⟩, fun _ => .inl hdrained, fun _ => .inr rfl,
        fun _ => .inl rfl⟩
  | abandon hkept hdrained =>
      exact ⟨fun h => ⟨(hc.drained h).1, rfl⟩, fun _ => hdrained.symm, fun _ => .inr rfl,
        fun _ => .inl rfl⟩
  | remoteDone => exact ⟨hc.drained, fun _ => .inr rfl, fun _ => .inl rfl, fun _ => .inr rfl⟩
  | trim _ hsome =>
      refine ⟨?_, hc.closed, hc.readDone, ?_⟩
      · intro hdrained
        rw [(hc.drained hdrained).1] at hsome
        contradiction
      · intro hnone
        contradiction
  | eof _ hread =>
      exact ⟨fun h => ⟨rfl, (hc.drained h).2⟩, hc.closed, hc.readDone, fun _ => .inr hread⟩
  | _ => exact ⟨hc.drained, hc.closed, hc.readDone, hc.ring⟩

theorem RingOk.alter (halter : Alter cfg r hand c c') :
  c'.RingOk
  := by
  cases halter with
  | touch htouch => apply hc.touch htouch
  | fin now =>
      have hreg := RingOk.register (c := { c with writeClosed := true })
        ⟨hc.drained, hc.closed, hc.readDone, hc.ring⟩ cfg
      exact ⟨(hreg _).drained, (hreg _).closed, (hreg _).readDone, (hreg _).ring⟩
  | lateFin now =>
      have hreg := RingOk.register (c := { c with finWaiting := false })
        ⟨hc.drained, hc.closed, hc.readDone, hc.ring⟩ cfg
      exact ⟨(hreg _).drained, (hreg _).closed, (hreg _).readDone, (hreg _).ring⟩
  | send now p =>
      have hreg := hc.register cfg
      exact ⟨(hreg _).drained, (hreg _).closed, (hreg _).readDone, (hreg _).ring⟩
  | drain | giveUp =>
      exact ⟨fun _ => ⟨rfl, rfl⟩, fun _ => .inl rfl, fun _ => .inr rfl, fun _ => .inl rfl⟩
  | retire hdone hfin hread => apply hc.retire hread
  | push f => apply hc.push
  | remoteFin => exact ⟨hc.drained, fun _ => .inr rfl, fun _ => .inl rfl, fun _ => .inr rfl⟩
  | feed f => apply hc.feed
  | feedEarly p =>
      apply RingOk.feed
      exact ⟨hc.drained, hc.closed, hc.readDone, hc.ring⟩
  | take p bufs hreads hbufs hp =>
      refine ⟨?_, hc.closed, hc.readDone, ?_⟩
      · intro hdrained
        rw [Channel.buffers, (hc.drained hdrained).1] at hbufs
        exact absurd (List.append_eq_nil_iff.mp hbufs.symm).1 hp
      · intro hnone
        contradiction
  | _ => exact ⟨hc.drained, hc.closed, hc.readDone, hc.ring⟩

end

/-! ### The streams -/

/-- How the streams of a channel end: the stream it writes is closed before its end is sent,
and both have ended when the channel is finalized. -/
structure EndOk (c : Channel) : Prop where
  finSent : c.finSent = true → c.writeClosed = true
  finWaiting : c.finWaiting = true → c.writeClosed = true ∧ c.finSent = false
  done : c.done = true ↔ c.reorderMap = none
  finalized : c.done = true → c.readDone = true ∧ c.finQueued = true
  offset : c.writeOffset = c.sent.flatten.length
  chunks : ∀ p ∈ c.sent, p ≠ []

/-- What happens to a channel keeps its end in order. -/
theorem EndOk.alter (hc : c.EndOk) (halter : Alter cfg r hand c c') :
  c'.EndOk
  := by
  obtain ⟨hfinSent, hfinWaiting, hdone, hfinalized, hoffset, hchunks⟩ := hc
  cases halter with
  | touch htouch =>
      cases htouch with
      | alike halike =>
          rw [halike]
          exact ⟨hfinSent, hfinWaiting, hdone, hfinalized, hoffset, hchunks⟩
      | deferFin hw =>
          refine ⟨fun _ => rfl, fun _ => ⟨rfl, ?_⟩, hdone, hfinalized, hoffset, hchunks⟩
          grind
      | abandon =>
          exact ⟨fun _ => rfl, fun h => ⟨rfl, (hfinWaiting h).2⟩, hdone, fun _ => ⟨rfl, rfl⟩,
            hoffset, hchunks⟩
      | remoteDone =>
          exact ⟨hfinSent, hfinWaiting, hdone, fun h => ⟨rfl, (hfinalized h).2⟩, hoffset, hchunks⟩
      | _ => exact ⟨hfinSent, hfinWaiting, hdone, hfinalized, hoffset, hchunks⟩
  | fin now hw | lateFin now hw =>
      simp only [Channel.closeFin, Channel.lateFin, Channel.finish, Channel.register]
      split <;> constructor <;> grind
  | send now p hclosed hw hp =>
      simp only [Channel.send, Channel.register]
      split <;> constructor <;> simp <;> grind
  | giveUp =>
      exact ⟨fun _ => rfl, fun h => ⟨rfl, (hfinWaiting h).2⟩, hdone, fun _ => ⟨rfl, rfl⟩, hoffset,
        hchunks⟩
  | retire hdone' hfin hread =>
      simp only [Channel.retire]
      split <;>
        exact ⟨hfinSent, hfinWaiting, by simp, fun _ => ⟨hread, hfin⟩, hoffset, hchunks⟩
  | push f =>
      unfold Channel.push
      split <;> exact ⟨hfinSent, hfinWaiting, hdone, hfinalized, hoffset, hchunks⟩
  | remoteFin =>
      exact ⟨hfinSent, hfinWaiting, hdone, fun h => ⟨rfl, (hfinalized h).2⟩, hoffset, hchunks⟩
  | feed f =>
      unfold Channel.feed Channel.push
      split
      · exact ⟨hfinSent, hfinWaiting, hdone, hfinalized, hoffset, hchunks⟩
      · split <;> exact ⟨hfinSent, hfinWaiting, hdone, hfinalized, hoffset, hchunks⟩
  | feedEarly p =>
      have hdone' : c.done = true ↔ c.reorderMap.map (fun m => m.erase c.readOffset) = none := by
        simp [hdone]
      unfold Channel.feedEarly Channel.feed Channel.push
      split
      · exact ⟨hfinSent, hfinWaiting, hdone', hfinalized, hoffset, hchunks⟩
      · split <;> exact ⟨hfinSent, hfinWaiting, hdone', hfinalized, hoffset, hchunks⟩
  | keepEarly f =>
      refine ⟨hfinSent, hfinWaiting, ?_, hfinalized, hoffset, hchunks⟩
      simp [Channel.keepEarly, hdone]
  | _ => exact ⟨hfinSent, hfinWaiting, hdone, hfinalized, hoffset, hchunks⟩

/-! ### Retransmission -/

/-- A channel with unacknowledged frames is one the retransmission timer scans. -/
def Armed (c : Channel) : Prop :=
  c.unacked ≠ [] → c.inARQ = true

/-- What is unacknowledged stays looked after. -/
theorem Armed.alter (hc : c.Armed) (halter : Alter cfg r hand c c') :
  c'.Armed
  := by
  unfold Armed at hc ⊢
  cases halter with
  | touch htouch =>
      cases htouch with
      | alike halike =>
          rw [halike]
          apply hc
      | @retime us hus =>
          intro hne
          apply hc
          intro hnil
          apply hne
          simpa [hnil] using hus
      | _ => apply hc
  | fin now | lateFin now | send now p =>
      simp only [Channel.closeFin, Channel.lateFin, Channel.finish, Channel.send, Channel.register]
      split
      · intro _
        rfl
      · apply hc
  | retire =>
      simp only [Channel.retire]
      split <;> simp
  | push f =>
      unfold Channel.push
      split <;> apply hc
  | feed f =>
      unfold Channel.feed Channel.push
      grind
  | feedEarly p =>
      unfold Channel.feedEarly Channel.feed Channel.push
      grind
  | acked f =>
      intro hne
      have hold : c.unacked ≠ [] := by
        intro hnil
        simp [Channel.acked, hnil] at hne
      simp only [Channel.acked] at hne ⊢
      simp [hc hold, hne]
  | idle hunacked =>
      intro hne
      exact absurd hunacked hne
  | _ => apply hc

/-! ### Delayed acknowledgements -/

/-- An acknowledgement is delayed only by a channel that is not finalized. -/
def Timed (c : Channel) : Prop :=
  c.ackTimer = true → c.reorderMap.isSome = true

/-- No finalized channel puts off acknowledgements. -/
theorem Timed.alter (hc : c.Timed) (halter : Alter cfg r hand c c') :
  c'.Timed
  := by
  unfold Timed at hc ⊢
  cases halter with
  | touch htouch =>
      cases htouch with
      | alike halike =>
          rw [halike]
          apply hc
      | ackTimer b hb => apply hb
      | _ => apply hc
  | fin now | lateFin now | send now p =>
      simp only [Channel.closeFin, Channel.lateFin, Channel.finish, Channel.send, Channel.register]
      split <;> apply hc
  | retire =>
      simp only [Channel.retire]
      split <;> simp
  | push f =>
      unfold Channel.push
      split <;> apply hc
  | feed f | feedEarly p =>
      simp only [Channel.feedEarly, Channel.feed, Channel.push]
      grind
  | keepEarly f => simpa [Channel.keepEarly] using hc
  | _ => apply hc

end Channel

/-! ### Windows -/

/-- A window with less consumed than makes an update due, and with an update queued for what
is not flushed. -/
structure Flow.Ok (sf : Flow) : Prop where
  threshold : 1 ≤ sf.threshold
  consumed : sf.consumed < sf.threshold
  unflushed : sf.unflushed ≠ 0 → sf.updPending = true

theorem Flow.Ok.new (initialWindow : Int) :
  (Flow.new initialWindow).Ok
  := by
  refine ⟨le_max_right _ _, ?_, by simp [Flow.new]⟩
  apply lt_of_lt_of_le zero_lt_one (le_max_right _ _)

variable {sf : Flow}

/-- What is consumed is flushed when it is due. -/
theorem Flow.Ok.onRead (hsf : sf.Ok) (n : Int) :
  (sf.onRead n).Ok
  := by
  obtain ⟨hthreshold, hconsumed, hunflushed⟩ := hsf
  unfold Flow.onRead
  split
  · unfold Flow.flushUpdate
    split
    · exact ⟨hthreshold, hthreshold, hunflushed⟩
    · exact ⟨hthreshold, hthreshold, fun _ => rfl⟩
  · rename_i hlt
    exact ⟨hthreshold, by simpa using hlt, hunflushed⟩

theorem Flow.Ok.addCredits (hsf : sf.Ok) (delta : Int) :
  (sf.addCredits delta).Ok
  := by
  unfold Flow.addCredits
  split
  · apply hsf
  · exact ⟨hsf.threshold, hsf.consumed, hsf.unflushed⟩

theorem Flow.Ok.deduct (hsf : sf.Ok) (n : Int) :
  (sf.deduct n).Ok
  := ⟨hsf.threshold, hsf.consumed, hsf.unflushed⟩

theorem Flow.Ok.resolved (hsf : sf.Ok) :
  sf.resolved.Ok
  := ⟨hsf.threshold, hsf.consumed, fun h => absurd rfl h⟩

namespace Channel

/-- The credit of a channel stays sound. -/
theorem flowOk_alter {cfg : SessionConfig} {r : Rules} {hand : List PacketFrame} {c c' : Channel}
    (hc : c.flow.Ok) (halter : Alter cfg r hand c c') :
  c'.flow.Ok
  := by
  cases halter with
  | touch htouch => rwa [htouch.keeps.flow]
  | fin now => simpa [closeFin, finish] using hc
  | lateFin now => simpa [lateFin, finish] using hc
  | send now p => apply hc.deduct
  | retire | push f | feed f => simpa using hc
  | feedEarly p => simpa [feedEarly] using hc
  | credit f => apply hc.addCredits
  | updSent => apply hc.resolved
  | take p bufs => apply hc.onRead
  | _ => apply hc

end Channel

/-! ### The session -/

/-- A frame of the data queue. -/
inductive WriteFrame.Stream : WriteFrame → Prop
  | data (id offset : Nat) (p : Bytes) : Stream (dataFrame id offset p)
  | fin (id offset : Nat) : Stream (finFrame id offset)

/-- A frame of the control queue of a session. -/
inductive WriteFrame.Control (s : Session) : WriteFrame → Prop
  | plain {f : WriteFrame} : f.Plain → Control s f
  | session : Control s { flag := .upd, sessionFlow := true }
  | ack (h : Nat) : h < s.next →
      Control s { flag := .ack, chID := (s.heap h).id, ackCh := some h }
  | upd (h : Nat) : h < s.next →
      Control s { flag := .upd, chID := (s.heap h).id, streamFlow := some h }

/-- A frame that is ready to be written: data, and nothing else, has a payload. -/
def WriteFrame.Ready (f : WriteFrame) : Prop :=
  if f.flag = .data then f.length = f.payload.length else f.pBuf = none

/-- A field that a change of a channel keeps. -/
theorem Session.apply_heap_update {α : Type} (g : Channel → α) {s : Session} {h : Nat}
    {f : Channel → Channel} (hf : g (f (s.heap h)) = g (s.heap h)) (k : Nat) :
  g ((s.update h f).heap k) = g (s.heap k)
  := by
  by_cases hk : k = h
  · subst hk
    rw [heap_update_self, hf]
  · rw [heap_update_of_ne hk]

namespace Station

variable {cfg : SessionConfig} {r : Rules} {t t' : Station}

/-! ### The channels -/

/-- The heap of a session grows by nothing but opening a channel. -/
theorem Move.next_eq (hm : Move cfg r t t') :
  t'.sess.next = t.sess.next
    ∨ ∃ id, id ≠ 0 ∧ t.sess.channels id = none ∧ t.sess.pending.lookup id = none
      ∧ (r.once id → ∀ h < t.sess.next, (t.sess.heap h).id ≠ id)
      ∧ t' = { t with sess := t.sess.publish cfg id }
  := by
  cases hm with
  | publish id hid hnone hlookup honce =>
      right
      exact ⟨id, hid, hnone, hlookup, honce, rfl⟩
  | _ =>
      left
      rfl

/-- What new channels have and no move takes away, every channel has. -/
theorem Move.forall_channel {P : Channel → Prop} (hm : Move cfg r t t')
    (hnew : ∀ id, id ≠ 0 → P (newChannel cfg id))
    (halter : ∀ c c', P c → Alter cfg r t.hand c c' → P c')
    (hP : ∀ h < t.sess.next, P (t.sess.heap h)) :
  ∀ h < t'.sess.next, P (t'.sess.heap h)
  := by
  intro h hh
  by_cases hold : h < t.sess.next
  · rcases hm.alter hold with hsame | hchange
    · rw [hsame]
      apply hP h hold
    · apply halter _ _ (hP h hold) hchange
  · rcases hm.next_eq with hnext | ⟨id, hid, -, -, -, rfl⟩
    · omega
    · have hlast : h = t.sess.next := by
        simp only [Session.publish] at hh
        omega
      simpa [Session.publish, hlast] using hnew id hid

theorem done_touch {c c' : Channel} (htouch : Touch cfg r c c') :
  c'.done = c.done ∧ c'.inARQ = c.inARQ
  := by
  cases htouch with
  | alike halike =>
      rw [halike]
      exact ⟨rfl, rfl⟩
  | _ => exact ⟨rfl, rfl⟩

/-- The table changes in two ways: a channel is finalized, or one is opened. -/
theorem Move.table (hm : Move cfg r t t') :
  (t'.sess.channels = t.sess.channels ∧ t'.sess.next = t.sess.next
      ∧ ∀ k, (t'.sess.heap k).done = (t.sess.heap k).done)
    ∨ (∃ h, h < t.sess.next ∧ t' = { t with sess := t.sess.retire h })
    ∨ ∃ id, id ≠ 0 ∧ t.sess.channels id = none ∧ t.sess.pending.lookup id = none
      ∧ t' = { t with sess := t.sess.publish cfg id }
  := by
  have hkeep : ∀ {f : Channel → Channel} {h : Nat},
      (f (t.sess.heap h)).done = (t.sess.heap h).done →
      ∀ k, ((t.sess.update h f).heap k).done = (t.sess.heap k).done :=
    fun hf => Session.apply_heap_update Channel.done hf
  cases hm with
  | retire h hh =>
      right
      left
      exact ⟨h, hh, rfl⟩
  | publish id hid hnone hlookup =>
      right
      right
      exact ⟨id, hid, hnone, hlookup, rfl⟩
  | touch h f hh hf =>
      left
      exact ⟨rfl, rfl, hkeep (done_touch hf).1⟩
  | fin h | lateFin h | write h p =>
      left
      refine ⟨rfl, rfl, hkeep ?_⟩
      simp only [Channel.closeFin, Channel.lateFin, Channel.finish, Channel.send, Channel.register]
      split <;> rfl
  | push f rest h =>
      left
      refine ⟨rfl, rfl, hkeep ?_⟩
      unfold Channel.push
      split <;> rfl
  | feed f rest h =>
      left
      refine ⟨rfl, rfl, hkeep ?_⟩
      unfold Channel.feed Channel.push
      grind
  | feedEarly h p =>
      left
      refine ⟨rfl, rfl, hkeep ?_⟩
      unfold Channel.feedEarly Channel.feed Channel.push
      grind
  | drain h =>
      left
      exact ⟨rfl, rfl, hkeep (f := fun c => c.shut.drain) rfl⟩
  | giveUp h =>
      left
      exact ⟨rfl, rfl, hkeep (f := fun c => c.abandon.drain) rfl⟩
  | refuse f rest h | remoteFin f rest h | early f rest h | gotFin f rest h
  | reset f rest h | ack h | acked f rest h | idle h | updStream f rest h | take h
  | readyAck f rest h
  | readyStream f rest h =>
      left
      exact ⟨rfl, rfl, hkeep rfl⟩
  | _ =>
      left
      exact ⟨rfl, rfl, fun _ => rfl⟩

/-- The table of a session has the channels that are not finalized, and early frames are kept
for other identifiers only. -/
structure TableOk (s : Session) : Prop where
  tabled : ∀ id h, s.channels id = some h →
    h < s.next ∧ (s.heap h).id = id ∧ (s.heap h).done = false
  live : ∀ h < s.next, (s.heap h).done = false → s.channels (s.heap h).id = some h
  stashed : ∀ id, (s.pending.lookup id).isSome = true → s.channels id = none

theorem done_retire (s : Session) (h k : Nat) :
  ((s.retire h).heap k).done = if k = h then true else (s.heap k).done
  := by
  have hheap : (s.retire h).heap = (s.update h Channel.retire).heap := rfl
  rw [hheap]
  by_cases hk : k = h
  · subst hk
    simp only [Session.heap_update_self, Channel.retire, if_true]
    split <;> rfl
  · rw [Session.heap_update_of_ne hk, if_neg hk]

variable {s s' : Session} {h : Nat} {f : WriteFrame}

/-- A channel leaves the table. -/
theorem TableOk.retire (hs : TableOk s) (hh : h < s.next) :
  TableOk (s.retire h)
  := by
  have hid : ∀ k, ((s.retire h).heap k).id = (s.heap k).id :=
    Session.apply_heap_update Channel.id (by simp)
  have hchannels : ∀ id k, (s.retire h).channels id = some k ↔ s.channels id = some k ∧ k ≠ h := by
    intro id k
    simp only [Session.retire]
    split
    · rename_i hcond
      by_cases hidk : id = (s.heap h).id
      · subst hidk
        simp only [Function.update_self, hcond]
        grind
      · rw [Function.update_of_ne hidk]
        constructor
        · intro hk
          refine ⟨hk, ?_⟩
          rintro rfl
          exact hidk (hs.tabled _ _ hk).2.1.symm
        · intro hk
          apply hk.1
    · rename_i hcond
      constructor
      · intro hk
        refine ⟨hk, ?_⟩
        rintro rfl
        rw [(hs.tabled _ _ hk).2.1] at hcond
        exact hcond hk
      · intro hk
        apply hk.1
  refine ⟨?_, ?_, ?_⟩
  · intro id k hk
    obtain ⟨hk, hne⟩ := (hchannels id k).mp hk
    rw [hid, done_retire, if_neg hne]
    apply hs.tabled id k hk
  · intro k hk hdone
    rw [done_retire] at hdone
    split at hdone
    · contradiction
    · rename_i hne
      rw [hid, hchannels]
      exact ⟨hs.live k hk hdone, hne⟩
  · intro id hid
    have hnone := hs.stashed id hid
    rw [Option.eq_none_iff_forall_ne_some] at hnone ⊢
    intro k hk
    exact hnone k ((hchannels id k).mp hk).1

/-- A channel enters the table. -/
theorem TableOk.publish (hs : TableOk s) {id : Nat} (hnone : s.channels id = none)
    (hlookup : s.pending.lookup id = none) :
  TableOk (s.publish cfg id)
  := by
  have hheap : ∀ k < s.next, (s.publish cfg id).heap k = s.heap k := by
    intro k hk
    have hne : k ≠ s.next := by omega
    simp [Session.publish, hne]
  have hlast : (s.publish cfg id).heap s.next = newChannel cfg id := by
    simp [Session.publish]
  refine ⟨?_, ?_, ?_⟩
  · intro id' k hk
    by_cases hid : id' = id
    · subst hid
      obtain rfl : s.next = k := by simpa [Session.publish] using hk
      rw [hlast]
      exact ⟨Nat.lt_succ_self _, rfl, rfl⟩
    · have hold : s.channels id' = some k := by simpa [Session.publish, hid] using hk
      obtain ⟨hlt, hidk, hdone⟩ := hs.tabled id' k hold
      rw [hheap k hlt]
      exact ⟨Nat.lt_succ_of_lt hlt, hidk, hdone⟩
  · intro k hk hdone
    by_cases hlt : k < s.next
    · rw [hheap k hlt] at hdone ⊢
      have hold := hs.live k hlt hdone
      have hne : (s.heap k).id ≠ id := by
        rintro rfl
        rw [hold] at hnone
        contradiction
      simpa [Session.publish, hne] using hold
    · obtain rfl : k = s.next := by
        simp only [Session.publish] at hk
        omega
      rw [hlast]
      simp [Session.publish]
  · intro id' hid'
    have hne : id' ≠ id := by
      rintro rfl
      simp [Session.publish, hlookup] at hid'
    simpa [Session.publish, hne] using hs.stashed id' hid'

/-- Early frames are kept for nothing but identifiers without a channel. -/
theorem Move.lookup_pending (hm : Move cfg r t t') {id : Nat}
    (hid : (t'.sess.pending.lookup id).isSome = true) :
  (t.sess.pending.lookup id).isSome = true ∨ t.sess.channels id = none
  := by
  cases hm with
  | unstash id' q hq | expire id' q hq =>
      left
      by_cases heq : id = id'
      · subst heq
        simp at hid
      · simpa [AList.lookup_erase_ne heq] using hid
  | stash f rest hhand hnone =>
      by_cases heq : id = f.chID
      · right
        rw [heq, hnone]
      · left
        simpa [Session.keepPending, AList.lookup_insert_ne heq] using hid
  | _ => exact .inl hid

/-- Moves keep the table. -/
theorem Move.tableOk (hm : Move cfg r t t') (ht : TableOk t.sess) :
  TableOk t'.sess
  := by
  rcases hm.table with ⟨hchannels, hnext, hdone⟩ | ⟨h, hh, rfl⟩ | ⟨id, -, hnone, hlookup, rfl⟩
  · have hid : ∀ k < t.sess.next, (t'.sess.heap k).id = (t.sess.heap k).id :=
      fun k hk => hm.id_eq hk
    refine ⟨?_, ?_, ?_⟩
    · intro id h hh
      rw [hchannels] at hh
      obtain ⟨hlt, heq, hlive⟩ := ht.tabled id h hh
      rw [hnext, hid h hlt, hdone]
      exact ⟨hlt, heq, hlive⟩
    · intro h hh hlive
      rw [hnext] at hh
      rw [hdone] at hlive
      rw [hid h hh, hchannels]
      apply ht.live h hh hlive
    · intro id hsome
      rw [hchannels]
      rcases hm.lookup_pending hsome with hold | hnone
      · apply ht.stashed id hold
      · apply hnone
  · apply ht.retire hh
  · apply ht.publish hnone hlookup

/-! ### The channels the timer scans -/

/-- The retransmission timer scans the channels that say so, and no other than channels. -/
structure ScanOk (s : Session) : Prop where
  scanned : ∀ h < s.next, (s.heap h).inARQ = true → h ∈ s.arqSet
  scans : ∀ h ∈ s.arqSet, h < s.next

theorem ScanOk.of_eq (hs : ScanOk s) (hnext : s'.next = s.next) (hset : s'.arqSet = s.arqSet)
    (harq : ∀ k, (s'.heap k).inARQ = (s.heap k).inARQ) :
  ScanOk s'
  := by
  constructor
  · intro h hh hin
    rw [hset]
    rw [hnext] at hh
    rw [harq] at hin
    apply hs.scanned h hh hin
  · intro h hh
    rw [hset] at hh
    rw [hnext]
    apply hs.scans h hh

/-- Changing the channel `h` by `f`, with `h` among the channels the timer scans if it has to
be, and the other channels as before. -/
theorem ScanOk.update (hs : ScanOk s) (hh : h < s.next) {f : Channel → Channel}
    (hheap : s'.heap = (s.update h f).heap) (hnext : s'.next = s.next)
    (hself : (f (s.heap h)).inARQ = true → h ∈ s'.arqSet)
    (hother : ∀ k, k ≠ h → (k ∈ s'.arqSet ↔ k ∈ s.arqSet)) :
  ScanOk s'
  := by
  constructor
  · intro k hk hin
    rw [hheap] at hin
    rw [hnext] at hk
    by_cases hkh : k = h
    · subst hkh
      rw [Session.heap_update_self] at hin
      apply hself hin
    · rw [Session.heap_update_of_ne hkh] at hin
      rw [hother k hkh]
      apply hs.scanned k hk hin
  · intro k hk
    rw [hnext]
    by_cases hkh : k = h
    · rwa [hkh]
    · rw [hother k hkh] at hk
      apply hs.scans k hk

theorem mem_arqJoin (s : Session) (h k : Nat) (hk : k ≠ h) :
  k ∈ s.arqJoin cfg h ↔ k ∈ s.arqSet
  := by
  unfold Session.arqJoin
  split <;> simp [hk]

/-- A channel joins the set that is scanned. -/
theorem self_mem_arqJoin (hs : ScanOk s) (hh : h < s.next)
    (hin : cfg.reliability = true ∨ (s.heap h).inARQ = true) :
  h ∈ s.arqJoin cfg h
  := by
  unfold Session.arqJoin
  have := hs.scanned h hh
  split <;> grind

theorem mem_arqLeave (s : Session) (h k : Nat) (hk : k ≠ h) :
  k ∈ s.arqLeave h ↔ k ∈ s.arqSet
  := by
  unfold Session.arqLeave
  split <;> simp [hk]

theorem inARQ_register (u : UnackedFrame) (c : Channel) :
  (c.register cfg u).inARQ = true → cfg.reliability = true ∨ c.inARQ = true
  := by
  unfold Channel.register
  split
  · intro _
    left
    assumption
  · intro h
    right
    apply h

/-- Moves keep the set of channels that is scanned. -/
theorem Move.scanOk (hm : Move cfg r t t') (ht : ScanOk t.sess) :
  ScanOk t'.sess
  := by
  have hkeep : ∀ {f : Channel → Channel} {h : Nat},
      (f (t.sess.heap h)).inARQ = (t.sess.heap h).inARQ →
      ∀ k, ((t.sess.update h f).heap k).inARQ = (t.sess.heap k).inARQ :=
    fun hf => Session.apply_heap_update Channel.inARQ hf
  cases hm with
  | touch h f hh hf => exact ht.of_eq rfl rfl (hkeep (done_touch hf).2)
  | fin h late hh | lateFin h late hh =>
      refine ht.update hh rfl rfl ?_ ?_
      · intro hin
        simp only [Channel.closeFin, Channel.lateFin, Channel.finish] at hin
        have harq := inARQ_register _ _ hin
        apply self_mem_arqJoin ht hh harq
      · apply mem_arqJoin
  | write h p hh =>
      refine ht.update hh rfl rfl ?_ ?_
      · intro hin
        apply self_mem_arqJoin ht hh (inARQ_register _ _ hin)
      · apply mem_arqJoin
  | retire h hh =>
      refine ht.update hh rfl rfl ?_ ?_
      · intro hin
        simp only [Channel.retire] at hin
        split at hin <;> contradiction
      · apply mem_arqLeave
  | acked f rest h hhand hflag hh =>
      refine ht.update hh rfl rfl ?_ ?_
      · intro hin
        simp only [Channel.acked, Bool.and_eq_true, Bool.not_eq_true',
          decide_eq_false_iff_not] at hin
        have := ht.scanned h hh hin.1
        simp only [Session.acked]
        grind
      · intro k hk
        simp only [Session.acked]
        split
        · apply mem_arqLeave _ _ _ hk
        · rfl
  | idle h hh =>
      refine ht.update hh rfl rfl ?_ ?_
      · intro hin
        contradiction
      · intro k hk
        simp [Session.arqIdle, hk]
  | push f rest h =>
      refine ht.of_eq rfl rfl (hkeep ?_)
      unfold Channel.push
      split <;> rfl
  | feed f rest h =>
      refine ht.of_eq rfl rfl (hkeep ?_)
      unfold Channel.feed Channel.push
      grind
  | feedEarly h p =>
      refine ht.of_eq rfl rfl (hkeep ?_)
      unfold Channel.feedEarly Channel.feed Channel.push
      grind
  | drain h => exact ht.of_eq rfl rfl (hkeep (f := fun c => c.shut.drain) rfl)
  | giveUp h => exact ht.of_eq rfl rfl (hkeep (f := fun c => c.abandon.drain) rfl)
  | refuse f rest h | remoteFin f rest h | early f rest h | gotFin f rest h | reset f rest h | ack h
  | updStream f rest h | take h | readyAck f rest h | readyStream f rest h =>
      exact ht.of_eq rfl rfl (hkeep rfl)
  | publish id =>
      constructor
      · intro h hh hin
        by_cases hlt : h < t.sess.next
        · have hne : h ≠ t.sess.next := by omega
          simp only [Session.publish, Function.update_of_ne hne] at hin
          apply ht.scanned h hlt hin
        · obtain rfl : h = t.sess.next := by
            simp only [Session.publish] at hh
            omega
          simp [Session.publish] at hin
      · intro h hh
        apply Nat.lt_succ_of_lt (ht.scans h hh)
  | _ => exact ht.of_eq rfl rfl (fun _ => rfl)

/-! ### The queues -/

/-- Merging keeps frames ready. -/
theorem ready_mergeInto {out : List WriteFrame} (hout : ∀ g ∈ out, g.Ready) (hf : f.Ready) :
  ∀ g ∈ mergeInto out f, g.Ready
  := by
  intro g hg
  rcases mem_mergeInto hg with hg | rfl | ⟨k, hk, hflag, -, ⟨hack, rfl⟩ | ⟨hupd, rfl⟩⟩
  · apply hout g hg
  · apply hf
  · simpa [WriteFrame.Ready, hflag, hack] using hout k hk
  · simpa [WriteFrame.Ready, hflag, hupd] using hout k hk

/-- The frames in the queues of a session are those its operations make. -/
structure QueueOk (t : Station) : Prop where
  writes : ∀ f ∈ t.sess.writes, f.Stream
  late : ∀ f ∈ t.sess.lateWrites, ∃ id offset, f = finFrame id offset
  ctrl : ∀ f ∈ t.sess.ctrlQueue ++ t.sess.lateCtrl, f.Control t.sess
  batch : ∀ f ∈ t.batch, f.Stream ∨ f.Control t.sess
  out : ∀ f ∈ t.out, f.Ready
  hand : ∀ f ∈ t.hand, f.Sound

/-- What may be queued for writing. -/
theorem Move.mem_writes (hm : Move cfg r t t') (hf : f ∈ t'.sess.writes) :
  f ∈ t.sess.writes ∨ f ∈ t.sess.lateWrites ∨ f.Stream
  := by
  cases hm with
  | fin h late | lateFin h late =>
      simp only [Session.queueFin] at hf
      have := WriteFrame.Stream.fin (t.sess.heap h).id (t.sess.heap h).writeOffset
      grind
  | lateWrite i g hg =>
      have := List.mem_of_getElem? hg
      grind
  | resend h u hh hu =>
      have hstream : (u.frame (t.sess.heap h).id).Stream := by
        unfold UnackedFrame.frame
        split <;> constructor
      grind
  | write h p =>
      simp only [Session.spend] at hf
      have := WriteFrame.Stream.data (t.sess.heap h).id (t.sess.heap h).writeOffset p
      grind
  | collectData g q hq =>
      left
      rw [hq]
      apply List.mem_cons_of_mem _ hf
  | _ => exact .inl hf

/-- Only ends of streams wait for room. -/
theorem Move.mem_lateWrites (hm : Move cfg r t t') (hf : f ∈ t'.sess.lateWrites) :
  f ∈ t.sess.lateWrites ∨ ∃ id offset, f = finFrame id offset
  := by
  cases hm with
  | fin h late | lateFin h late =>
      simp only [Session.queueFin] at hf
      grind
  | lateWrite i g hg =>
      left
      apply List.mem_of_mem_eraseIdx hf
  | _ => exact .inl hf

theorem mem_queueNew {need : Bool} {g : WriteFrame}
    (hf : f ∈ (s.queueNew cfg need g).ctrlQueue ++ (s.queueNew cfg need g).lateCtrl) :
  f ∈ s.ctrlQueue ++ s.lateCtrl ∨ need = true ∧ f = g
  := by
  unfold Session.queueNew at hf
  simp only [List.mem_append] at hf ⊢
  grind

/-- What is queued is what was, or a new frame.  A reset is queued for a channel that has been
closed, or for one that was closed recently. -/
theorem Move.mem_ctrl (hm : Move cfg r t t') (hf : f ∈ t'.sess.ctrlQueue ++ t'.sess.lateCtrl) :
  f ∈ t.sess.ctrlQueue ++ t.sess.lateCtrl
    ∨ f.Control t.sess ∧ (f.flag = .rst → r.late f.chID ∨ ∃ h < t.sess.next,
      (t.sess.heap h).id = f.chID ∧ (t.sess.heap h).closed = true
        ∧ (t.sess.heap h).readDone = false)
  := by
  cases hm with
  | offer g hg hreset =>
      have := WriteFrame.Control.plain (s := t.sess) hg
      simp only [List.mem_append, List.mem_singleton] at hf ⊢
      grind
  | joinCtrl i g hg =>
      left
      have hmem := List.mem_of_getElem? hg
      simp only [List.mem_append, List.mem_singleton] at hf ⊢
      rcases hf with (hf | rfl) | hf
      · left
        apply hf
      · right
        apply hmem
      · right
        apply List.mem_of_mem_eraseIdx hf
  | credit n =>
      rcases mem_queueNew hf with hf | ⟨-, rfl⟩
      · left
        apply hf
      · right
        exact ⟨.session, fun hflag => by cases hflag⟩
  | ack h hh =>
      rcases mem_queueNew hf with hf | ⟨-, rfl⟩
      · left
        apply hf
      · right
        exact ⟨.ack h hh, fun hflag => by cases hflag⟩
  | take h p bufs hh =>
      rcases mem_queueNew hf with hf | ⟨-, rfl⟩
      · left
        apply hf
      · right
        exact ⟨.upd h hh, fun hflag => by cases hflag⟩
  | collectCtrl g q hq =>
      left
      simp only [hq]
      simp only [List.mem_append, List.mem_cons] at hf ⊢
      grind
  | _ => exact .inl hf

/-- A batch is taken from the two queues. -/
theorem Move.mem_batch (hm : Move cfg r t t') (hf : f ∈ t'.batch) :
  f ∈ t.batch ∨ f ∈ t.sess.writes ∨ f ∈ t.sess.ctrlQueue
  := by
  cases hm with
  | collectCtrl g q hq | collectData g q hq => grind
  | ready g rest hbatch | readyAck g rest h hbatch | readyStream g rest h hbatch
  | readySession g rest hbatch =>
      left
      rw [hbatch]
      apply List.mem_cons_of_mem _ hf
  | _ => exact .inl hf

/-- A control frame stays one. -/
theorem control_mono (hnext : s.next ≤ s'.next)
    (hid : ∀ h < s.next, (s'.heap h).id = (s.heap h).id) (hf : f.Control s) :
  f.Control s'
  := by
  cases hf with
  | plain hplain => apply WriteFrame.Control.plain hplain
  | session => apply WriteFrame.Control.session
  | ack h hh =>
      rw [← hid h hh]
      apply WriteFrame.Control.ack h (lt_of_lt_of_le hh hnext)
  | upd h hh =>
      rw [← hid h hh]
      apply WriteFrame.Control.upd h (lt_of_lt_of_le hh hnext)

/-- Frames of streams have nothing to be filled in. -/
theorem ready_stream (hf : f.Stream) :
  f.Ready ∧ f.ackCh = none ∧ f.streamFlow = none ∧ f.sessionFlow = false
  := by
  cases hf with
  | data id offset p =>
      refine ⟨?_, rfl, rfl, rfl⟩
      rw [WriteFrame.Ready, if_pos (by rfl), payload_dataFrame]
      rfl
  | fin id offset => simp [WriteFrame.Ready, finFrame]

theorem ready_control (hf : f.Control s) :
  f.flag ≠ .data ∧ f.pBuf = none
  := by
  cases hf with
  | plain hplain =>
      obtain ⟨hflag, heq⟩ := hplain
      rw [heq]
      grind
  | _ => simp

/-- What can be in a batch. -/
theorem ready_batch (ht : QueueOk t) {rest : List WriteFrame} (hbatch : t.batch = f :: rest) :
  f.Ready ∧ (f.flag ≠ .data ∧ f.pBuf = none
    ∨ f.ackCh = none ∧ f.streamFlow = none ∧ f.sessionFlow = false)
  := by
  rcases ht.batch f (by simp [hbatch]) with hstream | hcontrol
  · exact ⟨(ready_stream hstream).1, .inr (ready_stream hstream).2⟩
  · obtain ⟨hflag, hpBuf⟩ := ready_control hcontrol
    exact ⟨by simpa [WriteFrame.Ready, hflag] using hpBuf, .inl ⟨hflag, hpBuf⟩⟩

section

variable {f : WriteFrame} {rest : List WriteFrame} (ht : QueueOk t) (hbatch : t.batch = f :: rest)

include ht hbatch

/-- A frame that refers to nothing is neither an acknowledgement nor a window update. -/
theorem plain_of_batch (hack : f.ackCh = none) (hstream : f.streamFlow = none)
    (hsession : f.sessionFlow = false) :
  f.flag ≠ .ack ∧ f.flag ≠ .upd
  := by
  rcases ht.batch f (by simp [hbatch]) with hf | hf
  · cases hf <;> simp [dataFrame, finFrame]
  · cases hf with
    | plain hplain =>
        have := hplain.1
        grind
    | _ => contradiction

/-- An acknowledgement in a batch is of a channel. -/
theorem ack_of_batch {h : Nat} (hack : f.ackCh = some h) :
  h < t.sess.next ∧ f = { flag := .ack, chID := (t.sess.heap h).id, ackCh := some h }
  := by
  rcases ht.batch f (by simp [hbatch]) with hf | hf
  · cases hf <;> contradiction
  · cases hf with
    | plain hplain =>
        rw [hplain.2] at hack
        contradiction
    | ack k hk =>
        obtain rfl : k = h := Option.some.inj hack
        exact ⟨hk, rfl⟩
    | _ => contradiction

/-- So is a window update. -/
theorem upd_of_batch {h : Nat} (hstream : f.streamFlow = some h) :
  h < t.sess.next ∧ f = { flag := .upd, chID := (t.sess.heap h).id, streamFlow := some h }
  := by
  rcases ht.batch f (by simp [hbatch]) with hf | hf
  · cases hf <;> contradiction
  · cases hf with
    | plain hplain =>
        rw [hplain.2] at hstream
        contradiction
    | upd k hk =>
        obtain rfl : k = h := Option.some.inj hstream
        exact ⟨hk, rfl⟩
    | _ => contradiction

/-- Or it is one of the session. -/
theorem session_of_batch (hsession : f.sessionFlow = true) :
  f = { flag := .upd, sessionFlow := true }
  := by
  rcases ht.batch f (by simp [hbatch]) with hf | hf
  · cases hf <;> contradiction
  · cases hf with
    | plain hplain =>
        rw [hplain.2] at hsession
        contradiction
    | session => rfl
    | _ => contradiction

end

/-- What is written is filled in. -/
theorem Move.ready_out (hm : Move cfg r t t') (ht : QueueOk t) :
  ∀ f ∈ t'.out, f.Ready
  := by
  have hlength : ∀ {f : WriteFrame} (n : Nat), f.flag ≠ .data ∧ f.pBuf = none →
      WriteFrame.Ready { f with length := n } := by
    intro f n hf
    simpa [WriteFrame.Ready, hf.1] using hf.2
  cases hm with
  | ready f rest hbatch => apply ready_mergeInto ht.out (ready_batch ht hbatch).1
  | readyAck f rest h hbatch =>
      apply ready_mergeInto ht.out
      exact (ready_batch ht hbatch).1
  | readyStream f rest h hbatch hack hstream
  | readySession f rest hbatch hack hstream hsession =>
      have hf := (ready_batch ht hbatch).2
      unfold mergeUpdate
      split
      · apply ht.out
      · apply ready_mergeInto ht.out (hlength _ _)
        grind
  | _ => apply ht.out

theorem sound_packet (id : Nat) (f : PendingFrame) :
  (f.packet id).Sound
  := by
  rcases f.early with hflag | ⟨hflag, hdata⟩
  · simp [PacketFrame.Sound, PendingFrame.packet, hflag]
  · simp only [PacketFrame.Sound, PendingFrame.packet]
    split
    · trivial
    · apply hdata

/-- Moves keep the queues. -/
theorem Move.queueOk (hm : Move cfg r t t') (ht : QueueOk t) :
  QueueOk t'
  := by
  have hmono : ∀ {f : WriteFrame}, f.Control t.sess → f.Control t'.sess :=
    control_mono hm.closed_next.2 fun h hh => hm.id_eq hh
  refine ⟨?_, ?_, ?_, ?_, hm.ready_out ht, ?_⟩
  · intro f hf
    rcases hm.mem_writes hf with hf | hf | hf
    · apply ht.writes f hf
    · obtain ⟨id, offset, rfl⟩ := ht.late f hf
      apply WriteFrame.Stream.fin
    · apply hf
  · intro f hf
    rcases hm.mem_lateWrites hf with hf | hf
    · apply ht.late f hf
    · apply hf
  · intro f hf
    rcases hm.mem_ctrl hf with hf | ⟨hf, -⟩
    · apply hmono (ht.ctrl f hf)
    · apply hmono hf
  · intro f hf
    rcases hm.mem_batch hf with hf | hf | hf
    · rcases ht.batch f hf with hstream | hcontrol
      · left
        apply hstream
      · right
        apply hmono hcontrol
    · left
      apply ht.writes f hf
    · right
      apply hmono (ht.ctrl f (by simp [hf]))
  · intro f hf
    rcases hm.mem_hand hf with hf | ⟨id, q, g, -, -, rfl⟩
    · apply ht.hand f hf
    · apply sound_packet

/-! ### The shape -/

/-- The shape of a session in the middle of an operation. -/
structure Shape (t : Station) : Prop where
  ring : ∀ h < t.sess.next, (t.sess.heap h).RingOk
  streams : ∀ h < t.sess.next, (t.sess.heap h).EndOk
  armed : ∀ h < t.sess.next, (t.sess.heap h).Armed
  timed : ∀ h < t.sess.next, (t.sess.heap h).Timed
  windows : ∀ h < t.sess.next, (t.sess.heap h).flow.Ok
  named : ∀ h < t.sess.next, (t.sess.heap h).id ≠ 0
  table : TableOk t.sess
  scan : ScanOk t.sess
  queue : QueueOk t

/-- A new session has the shape of a session. -/
theorem shape_new (now : Int) :
  Shape { sess := newSession cfg now }
  := by
  constructor
  · simp
  · simp
  · simp
  · simp
  · simp
  · simp
  · constructor <;> simp
  · constructor <;> simp
  · constructor <;> simp

/-- Moves keep the shape of a session. -/
theorem Move.shape (hm : Move cfg r t t') (ht : t.Shape) :
  t'.Shape
  where
  ring := by
    apply hm.forall_channel _ (fun _ _ hc halter => hc.alter halter) ht.ring
    intro id _
    constructor <;> simp
  streams := by
    apply hm.forall_channel _ (fun _ _ hc halter => hc.alter halter) ht.streams
    intro id _
    constructor <;> simp
  armed := by
    apply hm.forall_channel _ (fun _ _ hc halter => hc.alter halter) ht.armed
    intro id _
    simp [Channel.Armed]
  timed := by
    apply hm.forall_channel _ (fun _ _ hc halter => hc.alter halter) ht.timed
    intro id _
    simp [Channel.Timed]
  windows := by
    apply hm.forall_channel _ (fun _ _ hc halter => Channel.flowOk_alter hc halter) ht.windows
    intro id _
    apply Flow.Ok.new
  named := by
    apply hm.forall_channel (P := fun c => c.id ≠ 0) (fun _ hid => hid) _ ht.named
    intro c c' hc halter
    rwa [halter.id_eq]
  table := hm.tableOk ht.table
  scan := hm.scanOk ht.scan
  queue := hm.queueOk ht.queue

theorem Shape.tabled (ht : t.Shape) :
  t.sess.Tabled
  := by
  intro id h hh
  obtain ⟨hlt, hid, hdone⟩ := ht.table.tabled id h hh
  refine ⟨hlt, hid, ?_⟩
  rw [Option.isSome_iff_ne_none, ne_eq, ← (ht.streams h hlt).done, hdone]
  simp

theorem Shape.oneRef (ht : t.Shape) (hf : f ∈ t.sess.writes ∨ f ∈ t.sess.ctrlQueue) :
  f.OneRef
  := by
  rcases hf with hf | hf
  · have hrefs := ready_stream (ht.queue.writes f hf)
    left
    exact ⟨hrefs.2.1, hrefs.2.2.1⟩
  · cases ht.queue.ctrl f (by simp [hf]) with
    | plain hplain =>
        left
        rw [hplain.2]
        exact ⟨rfl, rfl⟩
    | session =>
        left
        exact ⟨rfl, rfl⟩
    | ack h =>
        right
        right
        exact ⟨rfl, rfl⟩
    | upd h =>
        right
        left
        exact ⟨rfl, rfl⟩

end Station

end Muxocket
