import Mathlib.Algebra.Order.BigOperators.Group.Finset
import Muxocket.Lib.Sums
import Muxocket.Net

/-!
# Accounts of credit

Credit is spent when bytes are written and returned when bytes are consumed.  The accounts of
a session say where its credit is: what a writer may still spend, what has been consumed and
what a window update in hand, or ready to be written, carries.  Every move keeps the accounts,
as long as the counters do not wrap.
-/

namespace Muxocket

open Session WriteFrame
open Channel (closeFin finish rest_feed send unread)

/-! ### Sums -/

/-- The sum of `g` over the first `n` channels of a heap whose identifiers `K` selects. -/
def sumOver (K : Nat → Bool) (g : Channel → Int) (heap : Nat → Channel) (n : Nat) : Int :=
  ∑ h ∈ Finset.range n, if K (heap h).id then g (heap h) else 0

/-- The sum of `g` over the channels of a session whose identifiers `K` selects. -/
def Session.total (K : Nat → Bool) (g : Channel → Int) (s : Session) : Int :=
  sumOver K g s.heap s.next

/-- The number of bytes discarded without a channel for the identifiers `K` selects. -/
def Session.discards (K : Nat → Bool) (s : Session) : Int :=
  (s.discarded.map fun e => if K e.1 then (e.2 : Int) else 0).sum

/-- The payload of the frames whose identifiers `K` selects. -/
def pay (K : Nat → Bool) (fs : List PacketFrame) : Int :=
  (fs.map fun f => if K f.chID then (f.data.length : Int) else 0).sum

/-- The credit the window updates for an identifier carry.  The session has the identifier
zero. -/
def credits (id : Nat) (fs : List PacketFrame) : Int :=
  (fs.map fun f => if f.flag = .upd ∧ f.chID = id then (f.dataLength : Int) else 0).sum

section

variable {K : Nat → Bool} {g g' : Channel → Int} {heap heap' : Nat → Channel} {n h : Nat}

variable {c : Channel} {id : Nat}

/-- The sum, after a change of one channel. -/
theorem sumOver_update (hh : h < n) (hid : c.id = (heap h).id) :
  sumOver K g (Function.update heap h c) n
    = sumOver K g heap n + if K (heap h).id then g c - g (heap h) else 0
  := by
  unfold sumOver
  rw [sum_range_update (fun c => if K c.id then g c else 0) heap hh, hid]
  split <;> simp

theorem sumOver_congr (hid : ∀ h < n, (heap' h).id = (heap h).id)
    (hg : ∀ h < n, K (heap h).id = true → g (heap' h) = g (heap h)) :
  sumOver K g heap' n = sumOver K g heap n
  := by
  apply Finset.sum_congr rfl
  intro i hi
  have hlt := Finset.mem_range.mp hi
  rw [hid i hlt]
  split
  · rename_i hK
    apply hg i hlt hK
  · rfl

theorem sumOver_update_of_eq (hid : c.id = (heap h).id)
    (hg : K (heap h).id = true → g c = g (heap h)) :
  sumOver K g (Function.update heap h c) n = sumOver K g heap n
  := by
  apply sumOver_congr
  · intro i _
    by_cases hi : i = h
    · rw [hi, Function.update_self, hid]
    · rw [Function.update_of_ne hi]
  · intro i _ hK
    by_cases hi : i = h
    · subst hi
      rw [Function.update_self, hg hK]
    · rw [Function.update_of_ne hi]

/-- The sum, after a channel is added. -/
theorem sumOver_succ (c : Channel) :
  sumOver K g (Function.update heap n c) (n + 1)
    = sumOver K g heap n + if K c.id then g c else 0
  := by
  unfold sumOver
  rw [Finset.sum_range_succ, Function.update_self]
  congr 1
  apply Finset.sum_congr rfl
  intro i hi
  have hne : i ≠ n := by
    have := Finset.mem_range.mp hi
    omega
  rw [Function.update_of_ne hne]

/-- A sum is at least each of its parts. -/
theorem le_sumOver (hg : ∀ h < n, K (heap h).id = true → 0 ≤ g (heap h)) (hh : h < n)
    (hK : K (heap h).id = true) :
  g (heap h) ≤ sumOver K g heap n
  := by
  have hle := Finset.single_le_sum (s := Finset.range n)
    (f := fun i => if K (heap i).id then g (heap i) else 0) (a := h)
    (fun i hi => by
      split
      · rename_i hKi
        apply hg i (Finset.mem_range.mp hi) hKi
      · rfl)
    (Finset.mem_range.mpr hh)
  unfold sumOver
  simpa [hK] using hle

variable {s : Session}

theorem Session.le_total (hg : ∀ h < s.next, K (s.heap h).id = true → 0 ≤ g (s.heap h))
    (hh : h < s.next) (hK : K (s.heap h).id = true) :
  g (s.heap h) ≤ s.total K g
  := le_sumOver hg hh hK

theorem sumOver_nonneg (hg : ∀ h < n, K (heap h).id = true → 0 ≤ g (heap h)) :
  0 ≤ sumOver K g heap n
  := by
  apply Finset.sum_nonneg
  intro i hi
  split
  · rename_i hKi
    apply hg i (Finset.mem_range.mp hi) hKi
  · rfl

theorem Session.total_nonneg (hg : ∀ h < s.next, K (s.heap h).id = true → 0 ≤ g (s.heap h)) :
  0 ≤ s.total K g
  := sumOver_nonneg hg

theorem Session.total_natCast_nonneg (K : Nat → Bool) (g : Channel → Nat) (s : Session) :
  0 ≤ s.total K (fun c => g c)
  := by
  apply total_nonneg
  intro h _ _
  apply Int.natCast_nonneg

theorem Session.total_add (s : Session) :
  s.total K (fun c => g c + g' c) = s.total K g + s.total K g'
  := by
  unfold total sumOver
  rw [← Finset.sum_add_distrib]
  apply Finset.sum_congr rfl
  intro i _
  split <;> simp

theorem Session.total_sub (s : Session) :
  s.total K (fun c => g c - g' c) = s.total K g - s.total K g'
  := by
  unfold total sumOver
  rw [← Finset.sum_sub_distrib]
  apply Finset.sum_congr rfl
  intro i _
  split <;> simp

theorem Session.total_eq_zero (hzero : ∀ h < s.next, K (s.heap h).id = true → g (s.heap h) = 0) :
  s.total K g = 0
  := by
  unfold total sumOver
  apply Finset.sum_eq_zero
  intro i hi
  have hg := hzero i (Finset.mem_range.mp hi)
  grind

/-- At most one channel of the session has had the identifier. -/
def Session.Single (id : Nat) (s : Session) : Prop :=
  ∀ h < s.next, ∀ k < s.next, (s.heap h).id = id → (s.heap k).id = id → h = k

/-- The sum over the one channel of an identifier. -/
theorem Session.Single.total_eq (hs : s.Single id) (hh : h < s.next) (hid : (s.heap h).id = id) :
  s.total (· == id) g = g (s.heap h)
  := by
  unfold total sumOver
  rw [Finset.sum_eq_single_of_mem h (Finset.mem_range.mpr hh)]
  · simp [hid]
  · intro k hk hne
    have hidk : (s.heap k).id ≠ id :=
      fun hidk => hne (hs k (Finset.mem_range.mp hk) h hh hidk hid)
    simp [hidk]

theorem Session.Single.total_const_le (hs : s.Single id) {x : Int} (hx : 0 ≤ x) :
  s.total (· == id) (fun _ => x) ≤ x
  := by
  by_cases hex : ∃ h < s.next, (s.heap h).id = id
  · obtain ⟨h, hh, hid⟩ := hex
    rw [hs.total_eq hh hid]
  · rw [total_eq_zero]
    · exact hx
    · intro h hh hid
      exact absurd ⟨h, hh, by simpa using hid⟩ hex

end

section

variable (K : Nat → Bool) (id : Nat) (f : PacketFrame) (fs fs' : List PacketFrame)

@[simp]
theorem pay_nil :
  pay K [] = 0
  := rfl

/-- The data of a frame counts if it is of the kind. -/
@[simp]
theorem pay_cons :
  pay K (f :: fs) = (if K f.chID then (f.data.length : Int) else 0) + pay K fs
  := by
  simp [pay]

@[simp]
theorem pay_append :
  pay K (fs ++ fs') = pay K fs + pay K fs'
  := by
  simp [pay]

theorem pay_nonneg :
  0 ≤ pay K fs
  := by
  induction fs with
  | nil => rfl
  | cons f fs ih =>
      rw [pay_cons]
      split <;> omega

@[simp]
theorem credits_nil :
  credits id [] = 0
  := rfl

/-- The credit of a window update counts. -/
@[simp]
theorem credits_cons :
  credits id (f :: fs)
    = (if f.flag = .upd ∧ f.chID = id then (f.dataLength : Int) else 0) + credits id fs
  := by
  simp [credits]

@[simp]
theorem credits_append :
  credits id (fs ++ fs') = credits id fs + credits id fs'
  := by
  simp [credits]

theorem pay_eq_zero (hfs : ∀ f ∈ fs, f.data = []) :
  pay K fs = 0
  := by
  apply List.sum_eq_zero
  intro x hx
  obtain ⟨f, hf, rfl⟩ := List.mem_map.mp hx
  simp [hfs f hf]

theorem credits_eq_zero (hfs : ∀ f ∈ fs, f.flag = .upd → f.dataLength = 0) :
  credits id fs = 0
  := by
  apply List.sum_eq_zero
  intro x hx
  obtain ⟨f, hf, rfl⟩ := List.mem_map.mp hx
  have hlength := hfs f hf
  grind

/-- What is noted of early frames that are dropped. -/
theorem sum_early (frames : List PendingFrame) :
  ((frames.map fun f => (id, f.data.length)).map fun e => if K e.1 then (e.2 : Int) else 0).sum
    = if K id then (pendingLength frames : Int) else 0
  := by
  induction frames with
  | nil => simp [pendingLength]
  | cons f frames ih =>
      rw [List.map_cons, List.map_cons, List.sum_cons, ih]
      simp only [pendingLength, List.map_cons, List.sum_cons]
      split <;> simp

theorem credits_nonneg :
  0 ≤ credits id fs
  := by
  induction fs with
  | nil => rfl
  | cons f fs ih =>
      rw [credits_cons]
      split <;> omega

end

/-! ### Windows that do not wrap -/

namespace Flow

variable {sf : Flow} {n : Nat}

/-- Credit that is spent is gone. -/
theorem sendCredits_deduct (hn : (n : Int) ≤ sf.sendCredits) (hlt : sf.sendCredits < 2 ^ 31) :
  (sf.deduct n).sendCredits = sf.sendCredits - n
  := int32_of_mem (by omega) (by omega)

/-- Credit that arrives adds up, short of overflow. -/
theorem sendCredits_addCredits (hpos : 0 ≤ sf.sendCredits) (hlt : sf.sendCredits + n < 2 ^ 31) :
  (sf.addCredits (int32 n)).sendCredits = sf.sendCredits + n
  := by
  rw [int32_of_mem (by omega) (by omega)]
  unfold addCredits
  split
  · omega
  · apply int32_of_mem <;> omega

/-- What is consumed stays consumed until it is flushed, and is not flushed twice. -/
theorem onRead_eq (hconsumed : 0 ≤ sf.consumed) (hunflushed : 0 ≤ sf.unflushed)
    (hlt : sf.consumed + sf.unflushed + n < 2 ^ 31) :
  (sf.onRead (int32 n)).consumed + (sf.onRead (int32 n)).unflushed = sf.consumed + sf.unflushed + n
    ∧ 0 ≤ (sf.onRead (int32 n)).consumed ∧ 0 ≤ (sf.onRead (int32 n)).unflushed
  := by
  have hn : int32 n = n := int32_of_mem (by omega) (by omega)
  have hsum : int32 (sf.consumed + n) = sf.consumed + n := int32_of_mem (by omega) (by omega)
  rw [hn]
  unfold onRead flushUpdate
  simp only [consume, hsum]
  split
  · split
    · simp only
      omega
    · rw [int32_of_mem (by omega) (by omega)]
      simp only
      omega
  · simp only
    omega

@[simp]
theorem sendCredits_onRead (n : Int) (sf : Flow) :
  (sf.onRead n).sendCredits = sf.sendCredits
  := by
  unfold onRead flushUpdate
  split
  · split <;> rfl
  · rfl

end Flow

/-! ### What the moves of a channel do to its books -/

namespace Channel

/-- A closed channel drops what it is fed. -/
theorem dropped_feed (p : Bytes) (c : Channel) :
  (c.feed p).dropped = c.dropped + if c.closed then p.length else 0
  := by
  unfold feed
  split
  · rfl
  · simp

end Channel

/-! ### The window of a channel, where it is spent -/

/-- The window of the channels of a session. -/
def SessionConfig.window (cfg : SessionConfig) : Int :=
  (newStreamFlow (int32 cfg.initialStreamWindow)).sendCredits

theorem SessionConfig.window_pos (cfg : SessionConfig) :
  0 < cfg.window
  := by
  unfold window newStreamFlow Flow.new
  dsimp only
  split
  · decide
  · omega

theorem SessionConfig.window_lt (cfg : SessionConfig) :
  cfg.window < 2 ^ 31
  := by
  unfold window newStreamFlow Flow.new
  dsimp only
  split <;> apply int32_lt

/-- The window of a channel is the configured one, if that is a positive 32-bit integer. -/
theorem SessionConfig.window_eq {cfg : SessionConfig} (h : cfg.initialStreamWindow < 2 ^ 31) :
  cfg.window = cfg.initialStreamWindow
  := by
  have hpos := cfg.stream_pos
  unfold window newStreamFlow Flow.new
  dsimp only
  rw [int32_of_mem (by omega) (by omega), if_neg (by omega)]

/-- The credit of a channel and what it has written, beyond the window it started with. -/
def Channel.spent (cfg : SessionConfig) (c : Channel) : Int :=
  c.flow.sendCredits + c.writeOffset - cfg.window

namespace Station

variable {cfg : SessionConfig} {r : Rules} {t t' : Station}

/-- The credit for an identifier at the side that spends it, with what it has written, beyond
the windows it started with. -/
def spent (cfg : SessionConfig) (id : Nat) (t : Station) : Int :=
  t.sess.total (· == id) (Channel.spent cfg) + credits id t.hand

/-- Nothing of the credit for an identifier is negative or too large where it is spent. -/
structure SpendOk (id : Nat) (t : Station) : Prop where
  nonneg : ∀ h < t.sess.next, (t.sess.heap h).id = id → 0 ≤ (t.sess.heap h).flow.sendCredits
  bound : t.sess.total (· == id) (fun c => c.flow.sendCredits) + credits id t.hand < 2 ^ 31

variable {id : Nat}

/-- The credit of a channel does not overflow. -/
theorem SpendOk.sendCredits_lt {h : Nat} (ht : t.SpendOk id) (hh : h < t.sess.next)
    (hid : (t.sess.heap h).id = id) :
  (t.sess.heap h).flow.sendCredits + credits id t.hand < 2 ^ 31
  := by
  have hle := le_total (K := (· == id)) (g := fun c => c.flow.sendCredits)
    (fun k hk hK => ht.nonneg k hk (by simpa using hK)) hh (by simpa using hid)
  have hbound := ht.bound
  omega

variable {c : Channel}

/-- A move that changes the books of no channel and no window update in hand. -/
theorem spent_update {h : Nat} (hheap : t'.sess.heap = Function.update t.sess.heap h c)
    (hnext : t'.sess.next = t.sess.next) (hid : c.id = (t.sess.heap h).id)
    (hflow : c.flow.sendCredits = (t.sess.heap h).flow.sendCredits)
    (hoffset : c.writeOffset = (t.sess.heap h).writeOffset)
    (hhand : credits id t'.hand = credits id t.hand) :
  t'.spent cfg id = t.spent cfg id
  := by
  unfold spent total
  rw [hheap, hnext, hhand]
  congr 1
  apply sumOver_update_of_eq hid
  intro _
  simp [Channel.spent, hflow, hoffset]

/-- Early frames carry no credit. -/
theorem credits_early (id id' : Nat) (frames : List PendingFrame) :
  credits id (frames.map (PendingFrame.packet id')) = 0
  := by
  induction frames with
  | nil => rfl
  | cons f frames ih =>
      have hflag : f.flag ≠ .upd := by
        have := f.early
        grind
      simp [ih, PendingFrame.packet, hflag]

/-- A frame without credit is taken. -/
theorem credits_tail {f : PacketFrame} {rest : List PacketFrame} (hhand : t.hand = f :: rest)
    (hflag : f.flag ≠ .upd) :
  credits id rest = credits id t.hand
  := by
  simp [hhand, hflag]

/-- Moves keep the account of the credit for an identifier where it is spent. -/
theorem Move.spent_eq (hm : Move cfg r t t') (hid : id ≠ 0) (ht : t.SpendOk id)
    (hlate : r.updates ∨ (t.sess.channels id = none → credits id t.hand = 0)) :
  t'.spent cfg id = t.spent cfg id
  := by
  cases hm with
  | touch h f hh hf =>
      exact spent_update (h := h) rfl rfl hf.keeps.id (by rw [hf.keeps.flow])
        hf.keeps.writeOffset rfl
  | fin h late | lateFin h late | retire h | feedEarly h p =>
      refine spent_update (h := h) rfl rfl ?_ ?_ ?_ rfl <;>
        simp [closeFin, Channel.lateFin, finish, Channel.feedEarly]
  | take h p bufs => exact spent_update (h := h) rfl rfl rfl (by simp [Channel.take]) rfl rfl
  | drain h | giveUp h | ack h | idle h | readyAck f rest h | readyStream f rest h =>
      exact spent_update (h := h) rfl rfl rfl rfl rfl rfl
  | push f rest h hhand hflag | feed f rest h hhand hflag =>
      refine spent_update (h := h) rfl rfl ?_ ?_ ?_ (credits_tail hhand (by simp [hflag])) <;> simp
  | refuse f rest h hhand hflag | remoteFin f rest h hhand hflag | early f rest h m hhand hflag
  | gotFin f rest h hhand hflag | reset f rest h hhand hflag | acked f rest h hhand hflag =>
      exact spent_update (h := h) rfl rfl rfl rfl rfl (credits_tail hhand (by simp [hflag]))
  | discard f rest hhand hflag | pass f rest hhand hflag =>
      exact congrArg (t.sess.total (· == id) (Channel.spent cfg) + ·) (credits_tail hhand hflag)
  | stash f rest hhand hnone early =>
      exact congrArg (t.sess.total (· == id) (Channel.spent cfg) + ·)
        (credits_tail hhand (by grind))
  | unstash id' q =>
      simp only [spent, credits_append, credits_early, zero_add]
      rfl
  | updStream f rest h hhand hflag hlt hidh =>
      by_cases heq : f.chID = id
      · have hbound := ht.sendCredits_lt hlt (hidh.trans heq)
        have hnonneg := ht.nonneg h hlt (hidh.trans heq)
        have hrest := credits_nonneg id rest
        simp only [hhand, credits_cons, hflag, heq, and_self, if_true] at hbound
        simp only [spent, hhand, credits_cons, hflag, heq, and_self, if_true, total,
          update]
        rw [sumOver_update hlt (by rfl), hidh, heq]
        simp only [Channel.spent, Channel.credit, beq_self_eq_true, if_true]
        rw [Flow.sendCredits_addCredits hnonneg (by omega)]
        omega
      · have hne' : ((t.sess.heap h).id == id) = false := by
          simpa [hidh] using heq
        simp only [spent, hhand, credits_cons, heq, and_false, if_false, total,
          update]
        rw [sumOver_update hlt (by rfl), hne']
        simp
  | updSession f rest hhand hflag hzero =>
      have hne : f.chID ≠ id := by
        rw [hzero]
        exact hid.symm
      simp only [spent, hhand, credits_cons, hne, and_false, if_false, zero_add]
      rfl
  | updLate f rest hhand hflag hne hnone hnotime =>
      by_cases heq : f.chID = id
      · have hzero : credits id t.hand = 0 := by
          rcases hlate with hupdates | hlate
          · exact absurd hupdates hnotime
          · apply hlate
            rw [← heq, hnone]
        have hrest := credits_nonneg id rest
        have hfirst := hzero
        simp only [hhand, credits_cons, hflag, heq, and_self, if_true] at hfirst
        simp only [spent, hzero]
        omega
      · simp only [spent, hhand, credits_cons, heq, and_false, if_false, zero_add]
  | publish id' =>
      simp only [spent, total, Session.publish]
      rw [sumOver_succ]
      simp [Channel.spent, SessionConfig.window]
  | write h p hh hclosed hw hp hcredit =>
      simp only [spent, total, spend, update]
      rw [sumOver_update hh (by simp [send])]
      by_cases heq : (t.sess.heap h).id = id
      · have hbound := ht.sendCredits_lt hh heq
        have hhand := credits_nonneg id t.hand
        simp only [heq, beq_self_eq_true, if_true, Channel.spent, send]
        rw [Flow.sendCredits_deduct hcredit (by omega)]
        push_cast
        omega
      · have hne' : ((t.sess.heap h).id == id) = false := by
          simpa using heq
        simp [hne']
  | _ => rfl

theorem credits_of_mem {fs : List PacketFrame} {f : PacketFrame} (hf : f ∈ fs)
    (hflag : f.flag = .upd) (hid : f.chID = id) :
  f.dataLength ≤ credits id fs
  := by
  induction fs with
  | nil => contradiction
  | cons g fs ih =>
      have hrest := credits_nonneg id fs
      rw [credits_cons]
      rcases List.mem_cons.mp hf with rfl | hf
      · simp only [hflag, hid, and_self, if_true]
        omega
      · have := ih hf
        split <;> omega

/-- What may happen to the credit of a channel. -/
theorem sendCredits_alter {hand : List PacketFrame} {c' : Channel}
    (halter : Alter cfg r hand c c') :
  c'.flow.sendCredits = c.flow.sendCredits
    ∨ (∃ p : Bytes, (p.length : Int) ≤ c.flow.sendCredits ∧ c'.flow = c.flow.deduct p.length)
    ∨ ∃ f ∈ hand, f.flag = .upd ∧ c.id = f.chID ∧ c'.flow = c.flow.addCredits (int32 f.dataLength)
  := by
  cases halter with
  | touch htouch =>
      left
      rw [htouch.keeps.flow]
  | fin now | lateFin now | retire | push f | feed f | feedEarly p | take p bufs =>
      left
      simp [closeFin, Channel.lateFin, finish, Channel.feedEarly, Channel.take]
  | send now p hclosed hw hp hcredit =>
      right
      left
      exact ⟨p, hcredit, rfl⟩
  | credit f hf hflag hid =>
      right
      right
      exact ⟨f, hf, hflag, hid, rfl⟩
  | _ =>
      left
      rfl

/-- Moves make no credit negative where it is spent. -/
theorem Move.spend_nonneg (hm : Move cfg r t t') (ht : t.SpendOk id) :
  ∀ h < t'.sess.next, (t'.sess.heap h).id = id → 0 ≤ (t'.sess.heap h).flow.sendCredits
  := by
  intro h hh hid
  have hhand := credits_nonneg id t.hand
  by_cases hlt : h < t.sess.next
  · rw [hm.id_eq hlt] at hid
    have hnonneg := ht.nonneg h hlt hid
    have hbound := ht.sendCredits_lt hlt hid
    rcases hm.alter hlt with hsame | halter
    · rw [hsame]
      apply hnonneg
    · rcases sendCredits_alter halter with heq | ⟨p, hp, heq⟩ | ⟨f, hf, hflag, hidf, heq⟩
      · rw [heq]
        apply hnonneg
      · rw [heq, Flow.sendCredits_deduct hp (by omega)]
        omega
      · have hle := credits_of_mem hf hflag (hidf.symm.trans hid)
        rw [heq, Flow.sendCredits_addCredits hnonneg (by omega)]
        omega
  · rcases hm.next_eq with hnext | ⟨id', -, -, -, -, rfl⟩
    · omega
    · obtain rfl : h = t.sess.next := by
        simp only [Session.publish] at hh
        omega
      simp only [Session.publish, Function.update_self]
      apply cfg.window_pos.le

/-! ### The window of a channel, where it is returned -/

end Station

/-- The credit a channel has to return, less what the application has got of it. -/
def Channel.returning (c : Channel) : Int :=
  c.flow.consumed + c.flow.unflushed - c.delivered.length

namespace Station

variable {cfg : SessionConfig} {r : Rules} {t t' : Station}

/-- The credit for an identifier at the side that returns it, less what its application has
got. -/
def returning (id : Nat) (t : Station) : Int :=
  t.sess.total (· == id) Channel.returning + credits id (t.out.map packet)

variable {h id : Nat} {c : Channel}

variable {out : List WriteFrame} {f : WriteFrame}

/-- Merging keeps the credit of a batch. -/
theorem credits_mergeInto
    (hlt : f.flag = .upd → f.chID = id → credits id (out.map packet) + f.length < 2 ^ 32) :
  credits id ((mergeInto out f).map packet)
    = credits id (out.map packet)
      + if f.flag = .upd ∧ f.chID = id then (f.length : Int) else 0
  := by
  rcases mergeInto_cases out f with heq | ⟨hack, before, g, after, rfl, hg, -, heq⟩
    | ⟨hupd, before, g, after, rfl, hg, hid, heq⟩
  · rw [heq]
    simp [packet]
  · rw [heq]
    simp [packet, hack, hg]
  · rw [heq]
    have hlt := hlt hupd
    have hbefore := credits_nonneg id (before.map packet)
    have hafter := credits_nonneg id (after.map packet)
    simp only [List.map_append, List.map_cons, credits_append, credits_cons, packet, hg,
      hupd, hid, true_and] at hlt ⊢
    split
    · rename_i hsame
      have hlt := hlt hsame
      simp only [hsame, if_true] at hlt
      have hmod : (g.length + f.length) % 2 ^ 32 = g.length + f.length :=
        Nat.mod_eq_of_lt (by omega)
      rw [hmod]
      push_cast
      omega
    · omega

/-- So does filling in a window update. -/
theorem credits_mergeUpdate {delta : Int} (hflag : f.flag = .upd)
    (hlt : f.chID = id → 0 ≤ delta ∧ credits id (out.map packet) + delta < 2 ^ 31) :
  credits id ((mergeUpdate out f delta).map packet)
    = credits id (out.map packet) + if f.chID = id then delta else 0
  := by
  unfold mergeUpdate
  split
  · rename_i hle
    by_cases hid : f.chID = id
    · have hzero : delta = 0 := by
        have := (hlt hid).1
        omega
      simp [hzero]
    · simp [hid]
  · rename_i hpos
    have hcast : ((delta.toNat : Nat) : Int) = delta := Int.toNat_of_nonneg (by omega)
    have hbound : f.flag = .upd → f.chID = id →
        credits id (out.map packet) + (delta.toNat : Int) < 2 ^ 32 := by
      intro _ hid
      have := (hlt hid).2
      omega
    rw [credits_mergeInto (f := { f with length := delta.toNat }) hbound]
    simp [hflag, hcast]

/-- Nothing of the credit for an identifier is negative or too large where it is returned. -/
structure ReturnOk (id : Nat) (t : Station) : Prop where
  nonneg : ∀ h < t.sess.next, (t.sess.heap h).id = id →
    0 ≤ (t.sess.heap h).flow.consumed ∧ 0 ≤ (t.sess.heap h).flow.unflushed
  bound : t.sess.total (· == id) (fun c => c.flow.consumed + c.flow.unflushed + c.unread)
    + credits id (t.out.map packet) < 2 ^ 31

/-- The credit to return does not overflow. -/
theorem ReturnOk.returning_lt (ht : t.ReturnOk id) (hh : h < t.sess.next)
    (hid : (t.sess.heap h).id = id) :
  (t.sess.heap h).flow.consumed + (t.sess.heap h).flow.unflushed + (t.sess.heap h).unread
    + credits id (t.out.map packet) < 2 ^ 31
  := by
  have hle := le_total (K := (· == id))
    (g := fun c => c.flow.consumed + c.flow.unflushed + c.unread)
    (fun k hk hK => by
      have := ht.nonneg k hk (by simpa using hK)
      omega) hh (by simpa using hid)
  have hbound := ht.bound
  omega

/-- A change of a channel that returns no credit. -/
theorem returning_update (hheap : t'.sess.heap = Function.update t.sess.heap h c)
    (hnext : t'.sess.next = t.sess.next) (hid : c.id = (t.sess.heap h).id)
    (hflow : c.flow.consumed + c.flow.unflushed
      = (t.sess.heap h).flow.consumed + (t.sess.heap h).flow.unflushed)
    (hdelivered : c.delivered = (t.sess.heap h).delivered)
    (hout : credits id (t'.out.map packet) = credits id (t.out.map packet)) :
  t'.returning id = t.returning id
  := by
  unfold returning total
  rw [hheap, hnext, hout]
  congr 1
  apply sumOver_update_of_eq hid
  intro _
  simp [Channel.returning, hflow, hdelivered]

/-- Moves keep the account of the credit for an identifier where it is returned. -/
theorem Move.returning_eq (hm : Move cfg r t t') (hid : id ≠ 0) (hshape : t.Shape)
    (ht : t.ReturnOk id) :
  t'.returning id = t.returning id
  := by
  cases hm with
  | touch h f hh hf =>
      exact returning_update (h := h) rfl rfl hf.keeps.id (by rw [hf.keeps.flow])
        hf.keeps.delivered rfl
  | fin h late | lateFin h late | write h p | retire h | push f rest h | feed f rest h
  | feedEarly h p =>
      refine returning_update (h := h) rfl rfl ?_ ?_ ?_ rfl <;>
        simp [closeFin, Channel.lateFin, finish, send, Flow.deduct,
          Channel.feedEarly]
  | updStream f rest h =>
      refine returning_update (h := h) rfl rfl rfl ?_ rfl rfl
      simp only [Channel.credit, Flow.addCredits]
      split <;> rfl
  | drain h | giveUp h | refuse f rest h | remoteFin f rest h | early f rest h | gotFin f rest h
  | reset f rest h | ack h | acked f rest h | idle h =>
      exact returning_update (h := h) rfl rfl rfl rfl rfl rfl
  | publish id' =>
      simp only [returning, total, Session.publish]
      rw [sumOver_succ]
      simp [Channel.returning, newStreamFlow, Flow.new]
  | take h p bufs hh _ hbufs hp =>
      simp only [returning, total, takeCore, queueNew, update]
      rw [sumOver_update hh (by rfl)]
      by_cases heq : (t.sess.heap h).id = id
      · have hbound := ht.returning_lt hh heq
        obtain ⟨hconsumed, hunflushed⟩ := ht.nonneg h hh heq
        have hout := credits_nonneg id (t.out.map packet)
        have hread : (t.sess.heap h).unread = p.length + bufs.flatten.length := by
          rw [unread, hbufs, List.length_append]
        have hsum := Flow.onRead_eq (n := p.length) hconsumed hunflushed (by omega)
        simp only [heq, beq_self_eq_true, if_true, Channel.returning, Channel.take,
          List.length_append]
        push_cast
        omega
      · have hne : ((t.sess.heap h).id == id) = false := by
          simpa using heq
        simp [hne]
  | ready f rest hbatch hack hstream hsession =>
      have hflag := (plain_of_batch hshape.queue hbatch hack hstream hsession).2
      simp only [returning]
      rw [credits_mergeInto (fun h => absurd h hflag)]
      simp [hflag]
  | readyAck f rest h hbatch hack =>
      obtain ⟨hh, rfl⟩ := ack_of_batch hshape.queue hbatch hack
      refine returning_update (h := h) rfl rfl rfl rfl rfl ?_
      rw [credits_mergeInto (by simp)]
      simp
  | readyStream f rest h hbatch hack hstream =>
      obtain ⟨hh, rfl⟩ := upd_of_batch hshape.queue hbatch hstream
      have hbound : (t.sess.heap h).id = id → 0 ≤ (t.sess.heap h).flow.unflushed
          ∧ credits id (t.out.map packet) + (t.sess.heap h).flow.unflushed < 2 ^ 31 := by
        intro heq
        have hlt := ht.returning_lt hh heq
        have hnonneg := ht.nonneg h hh heq
        omega
      simp only [returning, total, update]
      rw [sumOver_update hh (by rfl), credits_mergeUpdate rfl hbound]
      by_cases heq : (t.sess.heap h).id = id
      · simp only [heq, beq_self_eq_true, if_true, Channel.returning, Channel.updSent,
          Flow.resolved]
        omega
      · simp [heq]
  | readySession f rest hbatch hack hstream hsession =>
      obtain rfl := session_of_batch hshape.queue hbatch hsession
      simp only [returning]
      rw [credits_mergeUpdate rfl (fun h => absurd h hid.symm)]
      simp [hid.symm]
      rfl
  | _ => rfl

/-- What may happen to the credit a channel has to return. -/
theorem consumed_alter {hand : List PacketFrame} {c' : Channel} (halter : Alter cfg r hand c c') :
  (c'.flow.consumed = c.flow.consumed ∧ c'.flow.unflushed = c.flow.unflushed)
    ∨ (∃ p : Bytes, p.length ≤ c.unread ∧ c'.flow = c.flow.onRead (int32 p.length))
    ∨ c'.flow = c.flow.resolved
  := by
  cases halter with
  | touch htouch =>
      left
      rw [htouch.keeps.flow]
      exact ⟨rfl, rfl⟩
  | fin now | lateFin now | retire | push f | feed f | feedEarly p =>
      left
      simp [closeFin, Channel.lateFin, finish, Channel.feedEarly]
  | credit f =>
      left
      simp only [Channel.credit, Flow.addCredits]
      split <;> exact ⟨rfl, rfl⟩
  | take p bufs _ hbufs =>
      right
      left
      refine ⟨p, ?_, rfl⟩
      rw [unread, hbufs, List.length_append]
      omega
  | updSent =>
      right
      right
      rfl
  | _ =>
      left
      exact ⟨rfl, rfl⟩

/-- Moves make no credit negative where it is returned. -/
theorem Move.return_nonneg (hm : Move cfg r t t') (ht : t.ReturnOk id) :
  ∀ h < t'.sess.next, (t'.sess.heap h).id = id →
    0 ≤ (t'.sess.heap h).flow.consumed ∧ 0 ≤ (t'.sess.heap h).flow.unflushed
  := by
  intro h hh hid
  have hout := credits_nonneg id (t.out.map packet)
  by_cases hlt : h < t.sess.next
  · rw [hm.id_eq hlt] at hid
    obtain ⟨hconsumed, hunflushed⟩ := ht.nonneg h hlt hid
    have hbound := ht.returning_lt hlt hid
    rcases hm.alter hlt with hsame | halter
    · rw [hsame]
      exact ⟨hconsumed, hunflushed⟩
    · rcases consumed_alter halter with ⟨heq, heq'⟩ | ⟨p, hp, heq⟩ | heq
      · rw [heq, heq']
        exact ⟨hconsumed, hunflushed⟩
      · rw [heq]
        apply (Flow.onRead_eq hconsumed hunflushed (by omega)).2
      · rw [heq]
        exact ⟨hconsumed, le_rfl⟩
  · rcases hm.next_eq with hnext | ⟨id', -, -, -, -, rfl⟩
    · omega
    · obtain rfl : h = t.sess.next := by
        simp only [Session.publish] at hh
        omega
      simp [Session.publish, newStreamFlow, Flow.new]

/-! ### The window of a session, where it is spent -/

/-- The credit of a session, with what its channels have written. -/
def spentSession (t : Station) : Int :=
  t.sess.flow.sendCredits + t.sess.total (fun _ => true) (fun c => c.writeOffset) + credits 0 t.hand

/-- The session has flow control, and nothing of its credit is negative or too large where it
is spent. -/
structure SessionSpendOk (t : Station) : Prop where
  enabled : t.sess.flow.enabled = true
  nonneg : 0 ≤ t.sess.flow.sendCredits
  bound : t.sess.flow.sendCredits + credits 0 t.hand < 2 ^ 31

theorem Move.enabled_eq (hm : Move cfg r t t') :
  t'.sess.flow.enabled = t.sess.flow.enabled
  := by
  cases hm with
  | _ => rfl

/-- A change of a channel that spends no credit. -/
theorem spentSession_update (hheap : t'.sess.heap = Function.update t.sess.heap h c)
    (hnext : t'.sess.next = t.sess.next)
    (hflow : t'.sess.flow.sendCredits = t.sess.flow.sendCredits) (hid : c.id = (t.sess.heap h).id)
    (hoffset : c.writeOffset = (t.sess.heap h).writeOffset)
    (hhand : credits 0 t'.hand = credits 0 t.hand) :
  t'.spentSession = t.spentSession
  := by
  unfold spentSession total
  rw [hheap, hnext, hhand, hflow]
  congr 2
  apply sumOver_update_of_eq hid
  intro _
  simp [hoffset]

/-- Moves keep the account of the credit of a session where it is spent. -/
theorem Move.spentSession_eq (hm : Move cfg r t t') (hshape : t.Shape) (ht : t.SessionSpendOk) :
  t'.spentSession = t.spentSession ∧ 0 ≤ t'.sess.flow.sendCredits
  := by
  have hnonneg := ht.nonneg
  cases hm with
  | touch h f hh hf =>
      exact ⟨spentSession_update (h := h) rfl rfl rfl hf.keeps.id hf.keeps.writeOffset rfl,
        hnonneg⟩
  | fin h late | lateFin h late | retire h | feedEarly h p =>
      refine ⟨spentSession_update (h := h) rfl rfl rfl ?_ ?_ rfl, hnonneg⟩ <;>
        simp [closeFin, Channel.lateFin, finish, Channel.feedEarly]
  | drain h | giveUp h | ack h | idle h | readyAck f rest h | readyStream f rest h | take h =>
      exact ⟨spentSession_update (h := h) rfl rfl rfl rfl rfl rfl, hnonneg⟩
  | push f rest h hhand hflag | feed f rest h hhand hflag =>
      refine ⟨spentSession_update (h := h) rfl rfl rfl ?_ ?_
        (credits_tail hhand (by simp [hflag])), hnonneg⟩ <;> simp
  | refuse f rest h hhand hflag | remoteFin f rest h hhand hflag | early f rest h m hhand hflag
  | gotFin f rest h hhand hflag | reset f rest h hhand hflag | acked f rest h hhand hflag =>
      exact ⟨spentSession_update (h := h) rfl rfl rfl rfl rfl
        (credits_tail hhand (by simp [hflag])), hnonneg⟩
  | discard f rest hhand hflag | pass f rest hhand hflag =>
      refine ⟨?_, hnonneg⟩
      exact congrArg (t.sess.flow.sendCredits + t.sess.total _ _ + ·) (credits_tail hhand hflag)
  | stash f rest hhand hnone early =>
      refine ⟨?_, hnonneg⟩
      exact congrArg (t.sess.flow.sendCredits + t.sess.total _ _ + ·)
        (credits_tail hhand (by grind))
  | unstash id' q =>
      refine ⟨?_, hnonneg⟩
      simp only [spentSession, credits_append, credits_early, zero_add]
      rfl
  | credit n =>
      refine ⟨?_, by simpa [creditCore, queueNew] using hnonneg⟩
      simp only [spentSession, creditCore, queueNew, Flow.sendCredits_onRead]
      rfl
  | updStream f rest h hhand hflag hlt hidh =>
      have hne : f.chID ≠ 0 := by
        rw [← hidh]
        apply hshape.named h hlt
      refine ⟨spentSession_update (h := h) rfl rfl rfl rfl rfl ?_, hnonneg⟩
      simp [hhand, hne]
  | updSession f rest hhand hflag hzero =>
      have hbound := ht.bound
      have hrest := credits_nonneg 0 rest
      simp only [hhand, credits_cons, hflag, hzero, and_self, if_true] at hbound
      have hadd := Flow.sendCredits_addCredits (n := f.dataLength) hnonneg (by omega)
      constructor
      · simp only [spentSession, hhand, credits_cons, hflag, hzero, and_self, if_true, hadd]
        simp only [total]
        omega
      · simp only [hadd]
        omega
  | updLate f rest hhand hflag hne =>
      refine ⟨?_, hnonneg⟩
      simp [spentSession, hhand, hne]
  | publish id' =>
      refine ⟨?_, hnonneg⟩
      simp only [spentSession, total, Session.publish]
      rw [sumOver_succ]
      simp
  | write h p hh hclosed hw hp hcredit hsession =>
      have hbound := ht.bound
      have hhand := credits_nonneg 0 t.hand
      have hle := hsession ht.enabled
      have hdeduct := Flow.sendCredits_deduct hle (by omega)
      simp only [spentSession, total, spend, update, ht.enabled, if_true,
        hdeduct]
      rw [sumOver_update hh (by simp [send])]
      simp only [if_true, send]
      push_cast
      omega
  | _ => exact ⟨rfl, hnonneg⟩

/-! ### The window of a session, where it is returned -/

/-- The credit a session has to return, less what its channels have consumed.  With
retransmissions, nothing is returned for what is discarded without a channel. -/
def returningSession (cfg : SessionConfig) (t : Station) : Int :=
  t.owed + t.sess.flow.consumed + t.sess.flow.unflushed + credits 0 (t.out.map packet)
    - t.sess.total (fun _ => true) (fun c => c.delivered.length + c.dropped)
    - if cfg.reliability then 0 else t.sess.discards (fun _ => true)

/-- The session has flow control, and nothing of its credit is negative or too large where it
is returned. -/
structure SessionReturnOk (t : Station) : Prop where
  enabled : t.sess.flow.enabled = true
  consumed : 0 ≤ t.sess.flow.consumed
  unflushed : 0 ≤ t.sess.flow.unflushed
  bound : t.owed + t.sess.flow.consumed + t.sess.flow.unflushed
    + credits 0 (t.out.map packet) < 2 ^ 31

/-- A move that returns credit for `n` more bytes a channel has consumed. -/
theorem returningSession_update {n : Nat} (hh : h < t.sess.next)
    (hheap : t'.sess.heap = Function.update t.sess.heap h c) (hnext : t'.sess.next = t.sess.next)
    (hflow : t'.sess.flow = t.sess.flow) (hid : c.id = (t.sess.heap h).id)
    (hconsumed : c.delivered.length + c.dropped
      = (t.sess.heap h).delivered.length + (t.sess.heap h).dropped + n)
    (howed : t'.owed = t.owed + n)
    (hout : credits 0 (t'.out.map packet) = credits 0 (t.out.map packet))
    (hdiscarded : t'.sess.discarded = t.sess.discarded) :
  t'.returningSession cfg = t.returningSession cfg
  := by
  unfold returningSession total discards
  rw [hheap, hnext, hflow, howed, hout, hdiscarded, sumOver_update hh hid]
  simp only [if_true]
  push_cast
  omega

/-- Moves keep the account of the credit of a session where it is returned. -/
theorem Move.returningSession_eq (hm : Move cfg r t t') (hshape : t.Shape)
    (ht : t.SessionReturnOk) :
  t'.returningSession cfg = t.returningSession cfg
    ∧ 0 ≤ t'.sess.flow.consumed ∧ 0 ≤ t'.sess.flow.unflushed
  := by
  have hnonneg := And.intro ht.consumed ht.unflushed
  have hbound := ht.bound
  have hcredits := credits_nonneg 0 (t.out.map packet)
  cases hm with
  | touch h f hh hf =>
      refine ⟨returningSession_update (h := h) (n := 0) hh rfl rfl rfl hf.keeps.id ?_ rfl rfl rfl,
        hnonneg⟩
      rw [hf.keeps.delivered, hf.keeps.dropped, Nat.add_zero]
  | fin h late hh | lateFin h late hh | retire h hh | push f rest h hhand hflag hh =>
      refine ⟨returningSession_update (h := h) (n := 0) hh rfl rfl rfl ?_ ?_ rfl rfl rfl,
        hnonneg⟩ <;> simp [closeFin, Channel.lateFin, finish]
  | drain h hh | giveUp h hh | refuse f rest h hhand hflag hh | take h p bufs hh =>
      refine ⟨returningSession_update (h := h) hh rfl rfl rfl rfl ?_ rfl rfl rfl, hnonneg⟩
      simp only [Channel.drain, Channel.shut, Channel.abandon, unread, Channel.buffers,
        Channel.refuse, Channel.take, List.length_append]
      omega
  | feed f rest h hhand hflag hh =>
      refine ⟨returningSession_update (h := h)
        (n := if (t.sess.heap h).closed then f.data.length else 0) hh rfl rfl rfl ?_ ?_ ?_ rfl rfl,
        hnonneg⟩
      · simp
      · simp only [rest_feed, Channel.dropped_feed]
        omega
      · simp only
        split <;> rfl
  | feedEarly h p hh =>
      refine ⟨returningSession_update (h := h) (n := if (t.sess.heap h).closed then p.length else 0)
        hh rfl rfl rfl ?_ ?_ ?_ rfl rfl, hnonneg⟩
      · simp [Channel.feedEarly]
      · simp only [Channel.feedEarly, rest_feed, Channel.dropped_feed]
        omega
      · simp only
        split <;> rfl
  | remoteFin f rest h hhand hflag hh | early f rest h m hhand hflag hh
  | gotFin f rest h hhand hflag hh | reset f rest h hhand hflag hh
  | acked f rest h hhand hflag hh | updStream f rest h hhand hflag hh | ack h hh | idle h hh =>
      exact ⟨returningSession_update (h := h) (n := 0) hh rfl rfl rfl rfl rfl rfl rfl rfl, hnonneg⟩
  | write h p hh =>
      have hsame : ∀ sf : Flow, (if t.sess.flow.enabled then sf.deduct p.length else sf).consumed
            = sf.consumed
          ∧ (if t.sess.flow.enabled then sf.deduct p.length else sf).unflushed = sf.unflushed := by
        intro sf
        split <;> exact ⟨rfl, rfl⟩
      simp only [returningSession, total, discards, spend, update,
        (hsame _).1, (hsame _).2]
      refine ⟨?_, hnonneg⟩
      rw [sumOver_update_of_eq (by simp [send]) (by simp [send])]
  | credit n hn hle =>
      have hsum := Flow.onRead_eq (n := n) ht.consumed ht.unflushed (by omega)
      refine ⟨?_, hsum.2⟩
      simp only [returningSession, total, discards, creditCore,
        queueNew]
      omega
  | forgive n hle hdisabled =>
      rw [ht.enabled] at hdisabled
      contradiction
  | discard f rest hhand hflag =>
      refine ⟨?_, hnonneg⟩
      simp only [returningSession, total, discards, noteDiscarded]
      split
      · rfl
      · simp only [List.map_append, List.map_cons, List.map_nil, List.sum_append, List.sum_cons,
          List.sum_nil, if_true]
        push_cast
        omega
  | expire id q =>
      refine ⟨?_, hnonneg⟩
      have hsum := sum_early (fun _ => true) id q.frames
      simp only [if_true, ← q.bytes_eq] at hsum
      simp only [returningSession, total, discards, List.map_append, List.sum_append]
      split
      · rfl
      · simp only [if_true, hsum]
        push_cast
        omega
  | updSession f rest =>
      have hsame : ∀ n sf, (Flow.addCredits n sf).consumed = sf.consumed
          ∧ (Flow.addCredits n sf).unflushed = sf.unflushed := by
        intro n sf
        unfold Flow.addCredits
        split <;> exact ⟨rfl, rfl⟩
      simp only [returningSession, total, discards, (hsame _ _).1, (hsame _ _).2]
      exact ⟨trivial, hnonneg⟩
  | publish id' =>
      refine ⟨?_, hnonneg⟩
      simp only [returningSession, total, discards, Session.publish]
      rw [sumOver_succ]
      simp
  | ready f rest hbatch hack hstream hsession =>
      have hflag := (plain_of_batch hshape.queue hbatch hack hstream hsession).2
      refine ⟨?_, hnonneg⟩
      simp only [returningSession]
      rw [credits_mergeInto (fun h => absurd h hflag)]
      simp [hflag]
  | readyAck f rest h hbatch hack =>
      obtain ⟨hh, rfl⟩ := ack_of_batch hshape.queue hbatch hack
      refine ⟨returningSession_update (h := h) (n := 0) hh rfl rfl rfl rfl rfl rfl ?_ rfl, hnonneg⟩
      rw [credits_mergeInto (by simp)]
      simp
  | readyStream f rest h hbatch hack hstream =>
      obtain ⟨hh, rfl⟩ := upd_of_batch hshape.queue hbatch hstream
      have hne := hshape.named h hh
      refine ⟨returningSession_update (h := h) (n := 0) hh rfl rfl rfl rfl rfl rfl ?_ rfl, hnonneg⟩
      rw [credits_mergeUpdate rfl (fun h => absurd h hne)]
      simp [hne]
  | readySession f rest hbatch hack hstream hsession =>
      obtain rfl := session_of_batch hshape.queue hbatch hsession
      refine ⟨?_, ht.consumed, le_rfl⟩
      simp only [returningSession, total, discards]
      rw [credits_mergeUpdate rfl (fun _ => ⟨ht.unflushed, by omega⟩)]
      simp only [if_true, Flow.resolved]
      omega
  | _ => exact ⟨rfl, hnonneg⟩

end Station

end Muxocket
