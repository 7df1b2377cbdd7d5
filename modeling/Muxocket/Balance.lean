import Muxocket.Goods

/-!
# Balances

The accounts of two sessions, with what is in flight between them, balance: the credit one of
them has spent is what the other has got and not yet returned, and without retransmissions the
bytes one of them has sent are those the other has got.  The balances are kept by every step,
as long as no counter wraps and no window update is lost.
-/

namespace Muxocket

theorem total_spent (K : Nat → Bool) (cfg : SessionConfig) (s : Session) :
  s.total K (Channel.spent cfg)
    = s.total K (fun c => c.flow.sendCredits) + s.total K (fun c => c.writeOffset)
      - s.total K (fun _ => cfg.window)
  := by
  unfold Channel.spent
  rw [Session.total_sub, Session.total_add]

theorem total_returning (K : Nat → Bool) (s : Session) :
  s.total K Channel.returning
    = s.total K (fun c => c.flow.consumed + c.flow.unflushed)
      - s.total K (fun c => c.delivered.length)
  := by
  unfold Channel.returning
  rw [Session.total_sub]

namespace Net

/-- The balance of the credit for an identifier that the side `d` spends. -/
def streamBalance (cfg : Side → SessionConfig) (d : Side) (id : Nat) (n : Net) : Int :=
  (n.st d).spent (cfg d) id + credits id (n.link d.other) + (n.st d.other).returning id

/-- The balance of the session credit that the side `d` spends. -/
def sessionBalance (cfg : Side → SessionConfig) (d : Side) (n : Net) : Int :=
  (n.st d).spentSession + credits 0 (n.link d.other)
    + (n.st d.other).returningSession (cfg d.other)

/-- The balance of the bytes that the side `d` sends for the identifiers `K` selects. -/
def goodsBalance (d : Side) (K : Nat → Bool) (n : Net) : Int :=
  (n.st d).sent K - pay K (n.link d) - (n.st d.other).got K

variable {cfg : Side → SessionConfig} {terms : Terms} {n n' : Net}

/-! ### Steps and sums -/

variable {d : Side} {f : PacketFrame} {id : Nat}

theorem st_put_of_ne {e : Side} (he : e ≠ d) (t : Station) (n : Net) :
  (n.put d t).st e = n.st e
  := by
  simp [put, he]

theorem eq_or_other (d e : Side) :
  e = d ∨ e = d.other
  := by
  cases d <;> cases e <;> simp [Side.other]

theorem credits_eraseIdx (id : Nat) {fs : List PacketFrame} {i : Nat} (hf : fs[i]? = some f) :
  credits id (fs.eraseIdx i) + credits id [f] = credits id fs
  := by
  rw [credits_cons, credits_nil, add_zero]
  apply sum_eraseIdx (fun f : PacketFrame =>
    if f.flag = .upd ∧ f.chID = id then (f.dataLength : Int) else 0) hf

theorem pay_eraseIdx {K : Nat → Bool} {fs : List PacketFrame} {i : Nat} (hf : fs[i]? = some f) :
  pay K (fs.eraseIdx i) + pay K [f] = pay K fs
  := by
  rw [pay_cons, pay_nil, add_zero]
  apply sum_eraseIdx (fun f : PacketFrame => if K f.chID then (f.data.length : Int) else 0) hf

/-- Window updates for the side `d` are neither lost nor duplicated. -/
def KeepsUpdates (terms : Terms) (d : Side) : Prop :=
  terms.ordered ∨ (terms.rules d).updates

/-- A frame that may be lost or duplicated carries no credit. -/
theorem KeepsUpdates.credits_eq_zero (hkeep : KeepsUpdates terms d) (hordered : ¬ terms.ordered)
    (hupd : f.flag = .upd → ¬ (terms.rules d).updates) (id : Nat) :
  credits id [f] = 0
  := by
  have hflag : f.flag ≠ .upd := fun hflag => hkeep.elim hordered (hupd hflag)
  simp [hflag]

/-! ### The balances of credit -/

section

variable (hstep : Step cfg terms n n')

include hstep

/-- Two accounts, one at each side, and the credit in flight between them.  What a step does to
the sum is what the moves do to the accounts, if one of them counts the credit in the hand and
the other the credit that is written out. -/
theorem Step.balance_eq {S R : Station → Int}
    (hS : ∀ t, Station.Move (cfg d) (terms.rules d) (n.st d) t → S t = S (n.st d))
    (hR : ∀ t, Station.Move (cfg d.other) (terms.rules d.other) (n.st d.other) t →
      R t = R (n.st d.other)) (hSsend : ∀ t : Station, S { t with out := [] } = S t)
    (hRsend : ∀ t : Station,
      R { t with out := [] } + credits id (t.out.map WriteFrame.packet) = R t)
    (hSgrab : ∀ (t : Station) f, t.hand = [] → S { t with hand := [f] } = S t + credits id [f])
    (hRgrab : ∀ (t : Station) f, R { t with hand := [f] } = R t) (hkeep : KeepsUpdates terms d) :
  S (n'.st d) + credits id (n'.link d.other) + R (n'.st d.other)
    = S (n.st d) + credits id (n.link d.other) + R (n.st d.other)
  := by
  cases hstep with
  | move e t hmove =>
      rcases eq_or_other d e with rfl | rfl
      · simp only [st_put, st_put_of_ne (Side.other_ne e), hS t hmove]
        rfl
      · simp only [st_put, st_put_of_ne (Side.ne_other d), hR t hmove]
        rfl
  | send e =>
      rcases eq_or_other d e with rfl | rfl
      · simp [put, Side.other_ne, hSsend]
      · have hout := hRsend (n.st d.other)
        simp only [put, setLink, Function.update_self, credits_append,
          Function.update_of_ne (Side.ne_other d)]
        omega
  | grab e i f hf hhand =>
      rcases eq_or_other d e with rfl | rfl
      · have hsum := credits_eraseIdx id hf
        have hgrab := hSgrab _ f hhand
        simp only [put, setLink, Function.update_self, Function.update_of_ne (Side.other_ne e)]
        omega
      · simp [put, Side.ne_other, Side.other_ne, hRgrab]
  | lose e i f hf hordered hupd =>
      rcases eq_or_other d e with rfl | rfl
      · simp
      · have hsum := credits_eraseIdx id hf
        have hzero := hkeep.credits_eq_zero hordered (by simpa using hupd) id
        simp only [setLink, Function.update_self]
        omega
  | dup e i f hf hordered hupd =>
      rcases eq_or_other d e with rfl | rfl
      · simp
      · have hzero := hkeep.credits_eq_zero hordered (by simpa using hupd) id
        simp only [setLink, Function.update_self, credits_append, hzero, add_zero]

/-- Steps keep the balance of the credit for an identifier. -/
theorem Step.streamBalance_eq (hshape : n.Shape) (hid : id ≠ 0) (hspend : (n.st d).SpendOk id)
    (hreturn : (n.st d.other).ReturnOk id) (hkeep : KeepsUpdates terms d)
    (hlate : (terms.rules d).updates
      ∨ ((n.st d).sess.channels id = none → credits id (n.st d).hand = 0)) :
  n'.streamBalance cfg d id = n.streamBalance cfg d id
  := by
  apply hstep.balance_eq (fun t hmove => hmove.spent_eq hid hspend hlate)
    (fun t hmove => hmove.returning_eq hid (hshape.st _) hreturn) _ _ _ _ hkeep
  · intro t
    rfl
  · intro t
    simp [Station.returning]
  · intro t f hhand
    simp [Station.spent, hhand]
  · intro t f
    rfl

/-- Steps keep the balance of the session credit. -/
theorem Step.sessionBalance_eq (hshape : n.Shape) (hspend : (n.st d).SessionSpendOk)
    (hreturn : (n.st d.other).SessionReturnOk) (hkeep : KeepsUpdates terms d) :
  n'.sessionBalance cfg d = n.sessionBalance cfg d
  := by
  apply hstep.balance_eq (fun t hmove => (hmove.spentSession_eq (hshape.st _) hspend).1)
    (fun t hmove => (hmove.returningSession_eq (hshape.st _) hreturn).1) _ _ _ _ hkeep
  · intro t
    rfl
  · intro t
    simp only [Station.returningSession, List.map_nil, credits_nil]
    omega
  · intro t f hhand
    simp [Station.spentSession, hhand]
  · intro t f
    rfl

/-! ### Credit that does not wrap -/

/-- A step does not change the session of a side, or it is a move of it. -/
theorem Step.sess_or_move (d : Side) :
  (n'.st d).sess = (n.st d).sess ∨ Station.Move (cfg d) (terms.rules d) (n.st d) (n'.st d)
  := by
  rcases hstep.carries with ⟨e, t, hmove, rfl⟩ | hcarries
  · by_cases he : d = e
    · subst he
      right
      rwa [st_put]
    · left
      rw [st_put_of_ne he]
  · left
    obtain ⟨hand, out, heq, -⟩ := hcarries.st d
    rw [heq]

end

/-- Steps close no session, and by none of them a session hears the goodbye of its peer. -/
theorem Steps.marks_eq (hsteps : Steps cfg terms n n') (d : Side) :
  (n'.st d).sess.closed = (n.st d).sess.closed
    ∧ (n'.st d).sess.goAwayRecv = (n.st d).sess.goAwayRecv
  := by
  induction hsteps with
  | refl => exact ⟨rfl, rfl⟩
  | tail _ hstep ih =>
      rcases hstep.sess_or_move d with hsame | hmove
      · rwa [hsame]
      · exact ⟨hmove.closed_next.1.trans ih.1, hmove.goAwayRecv_eq.trans ih.2⟩

/-- The credit for an identifier that the side `d` spends is in balance, and no counter of it
is negative. -/
structure StreamOk (cfg : Side → SessionConfig) (d : Side) (id : Nat) (n : Net) : Prop where
  balance : n.streamBalance cfg d id = 0
  spend : ∀ h < (n.st d).sess.next, ((n.st d).sess.heap h).id = id →
    0 ≤ ((n.st d).sess.heap h).flow.sendCredits
  returned : ∀ h < (n.st d.other).sess.next, ((n.st d.other).sess.heap h).id = id →
    0 ≤ ((n.st d.other).sess.heap h).flow.consumed
      ∧ 0 ≤ ((n.st d.other).sess.heap h).flow.unflushed

/-- What the reader has got for an identifier, read or not, the writer has written. -/
def Covered (d : Side) (id : Nat) (n : Net) : Prop :=
  (n.st d.other).sess.total (· == id) (fun c => c.delivered.length + c.unread)
    ≤ (n.st d).sess.total (· == id) (fun c => c.writeOffset)

section

variable (hn : n.StreamOk cfg d id)

include hn

/-- The parts of the balance of the credit for an identifier add up to at most the window. -/
theorem StreamOk.sum_le (hsingle : (n.st d).sess.Single id) (hcover : n.Covered d id) :
  (n.st d).sess.total (· == id) (fun c => c.flow.sendCredits) + credits id (n.st d).hand
    + credits id (n.link d.other) + credits id ((n.st d.other).out.map WriteFrame.packet)
    + (n.st d.other).sess.total (· == id) (fun c => c.flow.consumed + c.flow.unflushed + c.unread)
    ≤ (cfg d).window
  := by
  have hbalance := hn.balance
  have hwindow := hsingle.total_const_le (cfg d).window_pos.le
  unfold Covered at hcover
  simp only [streamBalance, Station.spent, Station.returning, total_spent, total_returning,
    Session.total_add] at hbalance hcover ⊢
  omega

theorem StreamOk.spend_nonneg :
  0 ≤ (n.st d).sess.total (· == id) (fun c => c.flow.sendCredits)
  := by
  apply Session.total_nonneg
  intro h hh hid
  apply hn.spend h hh (by simpa using hid)

theorem StreamOk.returning_nonneg :
  0 ≤ (n.st d.other).sess.total (· == id) (fun c => c.flow.consumed + c.flow.unflushed)
  := by
  apply Session.total_nonneg
  intro h hh hid
  have hreturned := hn.returned h hh (by simpa using hid)
  omega

theorem StreamOk.spendOk (hsingle : (n.st d).sess.Single id) (hcover : n.Covered d id) :
  (n.st d).SpendOk id
  := by
  refine ⟨hn.spend, ?_⟩
  have hsum := hn.sum_le hsingle hcover
  rw [Session.total_add (g := fun c => c.flow.consumed + c.flow.unflushed)] at hsum
  have hlt := (cfg d).window_lt
  have hreturning := hn.returning_nonneg
  have hunread := Session.total_natCast_nonneg (· == id) Channel.unread (n.st d.other).sess
  have hlink := credits_nonneg id (n.link d.other)
  have hout := credits_nonneg id ((n.st d.other).out.map WriteFrame.packet)
  omega

theorem StreamOk.returnOk (hsingle : (n.st d).sess.Single id) (hcover : n.Covered d id) :
  (n.st d.other).ReturnOk id
  := by
  refine ⟨hn.returned, ?_⟩
  have hsum := hn.sum_le hsingle hcover
  have hlt := (cfg d).window_lt
  have hspend := hn.spend_nonneg
  have hlink := credits_nonneg id (n.link d.other)
  have hhand := credits_nonneg id (n.st d).hand
  omega

end

/-- Steps keep the credit for an identifier in balance. -/
theorem Step.streamOk (hstep : Step cfg terms n n') (hshape : n.Shape) (hid : id ≠ 0)
    (hn : n.StreamOk cfg d id) (hsingle : (n.st d).sess.Single id) (hcover : n.Covered d id)
    (hkeep : KeepsUpdates terms d) (hlate : (terms.rules d).updates
      ∨ ((n.st d).sess.channels id = none → credits id (n.st d).hand = 0)) :
  n'.StreamOk cfg d id
  where
  balance := by
    rw [hstep.streamBalance_eq hshape hid (hn.spendOk hsingle hcover)
      (hn.returnOk hsingle hcover) hkeep hlate, hn.balance]
  spend := by
    rcases hstep.sess_or_move d with hsame | hmove
    · rw [hsame]
      apply hn.spend
    · apply hmove.spend_nonneg (hn.spendOk hsingle hcover)
  returned := by
    rcases hstep.sess_or_move d.other with hsame | hmove
    · rw [hsame]
      apply hn.returned
    · apply hmove.return_nonneg (hn.returnOk hsingle hcover)

/-- The session credit that the side `d` spends is in balance, and no counter of it is
negative. -/
structure SessionOk (cfg : Side → SessionConfig) (d : Side) (n : Net) : Prop where
  balance : n.sessionBalance cfg d = (cfg d).initialSessionWindow
  enabled : ∀ e, (n.st e).sess.flow.enabled = true
  spend : 0 ≤ (n.st d).sess.flow.sendCredits
  consumed : 0 ≤ (n.st d.other).sess.flow.consumed
  unflushed : 0 ≤ (n.st d.other).sess.flow.unflushed

/-- What the reader has credited to the session, the writer has written. -/
def CoveredSession (cfg : Side → SessionConfig) (d : Side) (n : Net) : Prop :=
  (n.st d.other).sess.total (fun _ => true) (fun c => c.delivered.length + c.dropped)
      + (if (cfg d.other).reliability then 0 else (n.st d.other).sess.discards fun _ => true)
    ≤ (n.st d).sess.total (fun _ => true) (fun c => c.writeOffset)

/-- The parts of the balance of the session credit add up to at most the window. -/
theorem SessionOk.sum_le (hn : n.SessionOk cfg d) (hcover : n.CoveredSession cfg d) :
  (n.st d).sess.flow.sendCredits + credits 0 (n.st d).hand + credits 0 (n.link d.other)
    + credits 0 ((n.st d.other).out.map WriteFrame.packet) + (n.st d.other).owed
    + (n.st d.other).sess.flow.consumed + (n.st d.other).sess.flow.unflushed
    ≤ (cfg d).initialSessionWindow
  := by
  have hbalance := hn.balance
  unfold CoveredSession at hcover
  simp only [sessionBalance, Station.spentSession, Station.returningSession] at hbalance
  omega

/-- Steps keep the session credit in balance. -/
theorem Step.sessionOk (hstep : Step cfg terms n n') (hshape : n.Shape) (hn : n.SessionOk cfg d)
    (hlt : (cfg d).initialSessionWindow < 2 ^ 31) (hcover : n.CoveredSession cfg d)
    (hkeep : KeepsUpdates terms d) :
  n'.SessionOk cfg d
  := by
  have hsum := hn.sum_le hcover
  have hhand := credits_nonneg 0 (n.st d).hand
  have hlink := credits_nonneg 0 (n.link d.other)
  have hout := credits_nonneg 0 ((n.st d.other).out.map WriteFrame.packet)
  have hspend := hn.spend
  have hconsumed := hn.consumed
  have hunflushed := hn.unflushed
  have hspendOk : (n.st d).SessionSpendOk := ⟨hn.enabled d, hspend, by omega⟩
  have hreturnOk : (n.st d.other).SessionReturnOk :=
    ⟨hn.enabled d.other, hconsumed, hunflushed, by omega⟩
  have hreturned : 0 ≤ (n'.st d.other).sess.flow.consumed
      ∧ 0 ≤ (n'.st d.other).sess.flow.unflushed := by
    rcases hstep.sess_or_move d.other with hsame | hmove
    · rw [hsame]
      exact ⟨hconsumed, hunflushed⟩
    · exact (hmove.returningSession_eq (hshape.st _) hreturnOk).2
  refine ⟨?_, ?_, ?_, hreturned.1, hreturned.2⟩
  · rw [hstep.sessionBalance_eq hshape hspendOk hreturnOk hkeep, hn.balance]
  · intro e
    rcases hstep.sess_or_move e with hsame | hmove
    · rw [hsame, hn.enabled]
    · rw [hmove.enabled_eq, hn.enabled]
  · rcases hstep.sess_or_move d with hsame | hmove
    · rw [hsame]
      exact hspend
    · exact (hmove.spentSession_eq (hshape.st _) hspendOk).2

/-! ### The balance of data -/

/-- Without retransmissions, steps over an ordered transport keep the balance of data. -/
theorem Step.goodsBalance_eq (hstep : Step cfg terms n n') (hshape : n.Shape)
    (hordered : terms.ordered) (hrel : ∀ d, (cfg d).reliability = false)
    (hunacked : ∀ d, ∀ h < (n.st d).sess.next, ((n.st d).sess.heap h).unacked = [])
    (d : Side) (K : Nat → Bool) :
  n'.goodsBalance d K = n.goodsBalance d K
  := by
  cases hstep with
  | move e t hmove =>
      rcases eq_or_other d e with rfl | rfl
      · simp only [goodsBalance, st_put, st_put_of_ne (Side.other_ne e)]
        rw [hmove.sent_eq K (hshape.st _) (hunacked _)]
        rfl
      · simp only [goodsBalance, st_put, st_put_of_ne (Side.ne_other d)]
        rw [hmove.got_eq K (hshape.st _) (hrel _)]
        rfl
  | send e =>
      rcases eq_or_other d e with rfl | rfl
      · simp [goodsBalance, put, Station.sent, Side.other_ne]
        omega
      · simp [goodsBalance, put, Station.got, Side.ne_other]
  | grab e i f hf hhand =>
      have hsum := pay_eraseIdx (K := K) hf
      rcases eq_or_other d e with rfl | rfl
      · simp [goodsBalance, put, Station.sent, Side.ne_other, Side.other_ne]
      · simp [goodsBalance, put, Station.got, Side.ne_other, hhand] at hsum ⊢
        omega
  | lose e i f hf hnot | dup e i f hf hnot => contradiction

end Net

end Muxocket
