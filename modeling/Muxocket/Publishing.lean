import Muxocket.EarlyFrames
import Muxocket.Filing
import Muxocket.Readers

/-!
# Where the frames of a channel are while it is opened

While a channel is opened and its reader goes on, every frame that has arrived is in one place: it
has been handed to the channel, it is with `OpenChannel`, it is kept, or it is with the reader, in
this order.  The reader cannot hand a frame to the channel while `OpenChannel` has frames, because
it waits for `feedMu`, and no frame is kept once the channel is in the table.
-/

namespace Muxocket.EarlyFrames

open Session

/-! ### What becomes of the frames kept -/

variable {cfg : SessionConfig} {s : Session} {id : Nat}

/-- Nothing is kept for an identifier by pruning. -/
theorem lookup_pruneLocked (h : s.pending.lookup id = none) :
  (s.pruneLocked cfg).pending.lookup id = none
  := by
  obtain ⟨hnone | hsame, -⟩ := lookup_releaseExpired cfg id s.pending.entries s
  · exact hnone
  · exact hsame.trans h

/-- Nothing is kept for an identifier when a channel is closed. -/
theorem lookup_markClosedLocked (k : Nat) (h : s.pending.lookup id = none) :
  (s.markClosedLocked cfg k).pending.lookup id = none
  := by
  have hdrop : (s.dropEarly cfg k).pending.lookup id = none := by
    unfold dropEarly
    split
    · rename_i q hq
      have hne : id ≠ k := by
        rintro rfl
        simp [h] at hq
      rw [releasePendingLocked, paid_creditPending cfg k q.frames s]
      dsimp only
      rw [AList.lookup_erase_ne hne, h]
    · exact h
  have hprune : ((s.dropEarly cfg k).pruneFull cfg).pending.lookup id = none := by
    unfold pruneFull
    split
    · exact lookup_pruneLocked hdrop
    · exact hdrop
  unfold markClosedLocked
  dsimp only
  split
  · unfold evictFull evictOldest
    split
    · split <;> exact hprune
    · exact hprune
  · exact hdrop

/-- A channel that is taken from the table leaves the other entries alone, and nothing is kept. -/
theorem keeps_of_retires {s' : Session} (h : s.Retires cfg s') (id : Nat) :
  (s'.channels id = s.channels id ∨ s'.channels id = none)
    ∧ (s.pending.lookup id = none → s'.pending.lookup id = none)
  := by
  induction h with
  | same htable =>
      obtain ⟨-, hchannels, -, hpending, -, -⟩ := Table.mk.inj htable
      rw [hchannels, hpending]
      exact ⟨.inl rfl, fun h => h⟩
  | remove k _ htable ih =>
      rename_i s₁ s₂ _
      obtain ⟨-, hchannels, -, hpending, -, -⟩ := Table.mk.inj htable
      rw [hchannels, hpending]
      unfold removeChannelIf
      dsimp only
      split
      · have hbeside := beside_markClosedLocked cfg (s₁.heap k).id
          { s₁ with channels := Function.update s₁.channels (s₁.heap k).id none }
        refine ⟨?_, fun hnone => lookup_markClosedLocked _ (ih.2 hnone)⟩
        rw [hbeside]
        dsimp only
        by_cases hid : id = (s₁.heap k).id
        · exact .inr (by simp [hid])
        · rw [Function.update_of_ne hid]
          exact ih.1
      · exact ih

/-- Pruning leaves the frames kept for an identifier, if they have not expired. -/
theorem stash_pruneLocked (hexpired : expired id s = []) :
  stash id (s.pruneLocked cfg) = stash id s
  := by
  obtain ⟨hnone | hsame, hfresh⟩ := lookup_releaseExpired cfg id s.pending.entries s
  · cases hq : s.pending.lookup id with
    | none =>
        have hprune : (s.pruneLocked cfg).pending.lookup id = none := lookup_pruneLocked hq
        simp [stash, hq, hprune]
    | some q =>
        have hnone : (s.pruneLocked cfg).pending.lookup id = none := hnone
        by_cases hlt : q.expires < s.now
        · have hframes : q.frames = [] := by simpa [expired, hq, hlt] using hexpired
          simp [stash, hnone, hq, hframes]
        · have hall : ∀ e ∈ s.pending.entries, e.1 = id → s.now ≤ e.2.expires := by
            rintro ⟨k, q'⟩ he rfl
            have heq := AList.mem_lookup_iff.mpr he
            rw [Option.mem_def, hq] at heq
            rw [← Option.some.inj heq]
            exact Int.not_lt.mp hlt
          have hsame : (s.pruneLocked cfg).pending.lookup id = s.pending.lookup id := hfresh hall
          simp [stash, hsame]
  · have hsame : (s.pruneLocked cfg).pending.lookup id = s.pending.lookup id := hsame
    simp [stash, hsame]

/-- A frame that is kept is the last of those kept. -/
theorem stash_keepPending (cfg : SessionConfig) (id : Nat) (f : PendingFrame) (s : Session) :
  stash id (s.keepPending cfg id f) = stash id s ++ [f]
  := by
  unfold keepPending stash
  dsimp only
  rw [AList.lookup_insert]
  cases s.pending.lookup id <;> simp [PendingQueue.push, PendingQueue.new]

/-- Looking for a closed identifier leaves the frames kept. -/
theorem stash_recentlyClosedLocked (id : Nat) (s : Session) :
  stash id (s.recentlyClosedLocked id) = stash id s
    ∧ expired id (s.recentlyClosedLocked id) = expired id s
  := by
  unfold recentlyClosedLocked
  split
  · split <;> exact ⟨rfl, rfl⟩
  · exact ⟨rfl, rfl⟩

theorem stash_stashLocked {f : PendingFrame} (hkept : (s.stashLocked cfg id f).1 = true)
    (hexpired : expired id s = []) :
  stash id (s.stashLocked cfg id f).2 = stash id s ++ [f]
  := by
  obtain ⟨hstash, hexpired'⟩ := stash_recentlyClosedLocked id s
  unfold stashLocked at hkept ⊢
  split at hkept
  · contradiction
  · rename_i hrecent
    rw [if_neg hrecent]
    dsimp only at hkept ⊢
    split at hkept
    · rename_i hroom
      rw [if_pos hroom, stash_keepPending, stash_pruneLocked (hexpired'.trans hexpired), hstash]
    · contradiction

theorem channels_stashLocked (cfg : SessionConfig) (id : Nat) (f : PendingFrame) (s : Session) :
  (s.stashLocked cfg id f).2.channels = s.channels
  := by
  rw [beside_stashLocked cfg id f s]

/-! ### Locks -/

/-- Who holds a lock, if the reader and `OpenChannel` do as the two flags say. -/
def Holds (m : Option Party) (reader opener : Bool) : Prop :=
  (m = some .reader ↔ reader = true) ∧ (m = some .opener ↔ opener = true)

variable {r o : Bool} {m : Option Party}

theorem Holds.free (h : Holds none r o) :
  r = false ∧ o = false
  := by
  cases r <;> cases o <;> simp [Holds] at h ⊢

theorem Holds.of_reader (h : Holds m true o) :
  o = false
  := by
  have hm := h.1.mpr rfl
  cases o with
  | false => rfl
  | true => simp [hm, Holds] at h

theorem Holds.of_opener (h : Holds m r true) :
  r = false
  := by
  have hm := h.2.mpr rfl
  cases r with
  | false => rfl
  | true => simp [hm, Holds] at h

/-! ### The invariant -/

/-- What the reader does under the lock, for an identifier without a channel or with one. -/
theorem check_cases (cfg : SessionConfig) (id : Nat) (f : PendingFrame) (s : Session) :
  (∃ h, s.channels id = some h ∧ check cfg id f s = (.channel h, s, []))
    ∨ s.channels id = none ∧ (check cfg id f s).2.1.channels = s.channels
      ∧ ((check cfg id f s).2.2 = [] → (check cfg id f s).1 = .kept
        ∧ stash id (check cfg id f s).2.1 = stash id s ++ [f])
      ∧ ∀ h, (check cfg id f s).1 ≠ .channel h
  := by
  cases hc : s.channels id with
  | some h => exact .inl ⟨h, rfl, by simp [check, hc]⟩
  | none =>
      obtain ⟨hstash, hexpired⟩ := stash_recentlyClosedLocked id s
      have hchannels : (s.recentlyClosedLocked id).channels = s.channels := by
        rw [beside_recentlyClosedLocked id s]
      refine .inr ⟨rfl, ?_⟩
      simp only [check, hc]
      split
      · simp
      · split
        · rename_i hkept
          refine ⟨(channels_stashLocked cfg id f _).trans hchannels, fun hlost => ⟨rfl, ?_⟩,
            by simp⟩
          rw [stash_stashLocked hkept (hexpired.trans hlost), hstash]
        · exact ⟨(channels_stashLocked cfg id f _).trans hchannels, by simp, by simp⟩

/-- `OpenChannel` has delivered its frames if it does not hold `feedMu` of a channel in the
table. -/
theorem Opener.frames_eq_nil {o : Opener} (hhandle : o.handle ≠ none) (hfeeds : o.feeds = false) :
  o.frames = []
  := by
  cases o with
  | taken | held => simp [Opener.handle] at hhandle
  | published frames h =>
      obtain rfl : frames = none := by simpa [Opener.feeds] using hfeeds
      rfl
  | delivering => simp [Opener.feeds] at hfeeds
  | _ => rfl

theorem Opener.took_of_handle {o : Opener} (hhandle : o.handle ≠ none) :
  o.took = true
  := by
  cases o <;> simp [Opener.took, Opener.handle] at hhandle ⊢

namespace State

/-- The channel is not in the table yet, or still is. -/
def Alive (id : Nat) (s : State) : Prop :=
  s.opener.handle = none ∨ (s.session.channels id).isSome

/-- Every frame that has arrived is in one place, and the locks are held as the two goroutines
say. -/
structure Sound (id : Nat) (s : State) : Prop where
  channelsMu : Holds s.channelsMu s.reader.locks s.opener.locks
  feedMu : Holds s.feedMu s.reader.feeds s.opener.feeds
  channel : ∀ h, s.session.channels id = some h → s.opener.handle = some h
  handle : ∀ h, s.reader.handle = some h → s.opener.handle = some h
  applied : ∀ e ∈ s.applied, s.opener.handle = some e.1
  frames : s.Alive id → s.lost = [] → s.arrived
    = s.applied.map Prod.snd ++ s.opener.frames ++ stash id s.session ++ s.reader.frames
  taken : s.Alive id → s.lost = [] → s.opener.took = true → s.session.pending.lookup id = none
  fresh : s.opener.handle = none → s.early = s.opener.frames
  early : s.lost = [] → s.opener.handle ≠ none → s.early <+: s.arrived.take s.since
  order : s.lost = [] → s.opener.handle ≠ none →
    s.applied.map Prod.snd ++ s.opener.frames ++ s.reader.bound <+: s.arrived

variable {id : Nat}

variable {session : Session}

theorem sound_init (h : session.channels id = none) :
  (init id session).Sound id
  where
  channelsMu := by simp [init, Holds, Reader.locks, Opener.locks]
  feedMu := by simp [init, Holds, Reader.feeds, Opener.feeds]
  channel := by simp [init, h]
  handle := by simp [init, Reader.handle]
  applied := by simp [init]
  frames := by simp [init, Reader.frames, Opener.frames]
  taken := by simp [init, Opener.took, Opener.handle]
  fresh := by simp [init, Opener.frames]
  early := by simp [init, Opener.handle]
  order := by simp [init, Opener.handle]

theorem stash_eq_nil {s : Session} (h : s.pending.lookup id = none) :
  stash id s = []
  := by
  simp [stash, h]

namespace Sound

variable {cfg : SessionConfig} {id : Nat} {s s' : State}

/-- Without the frame of the reader. -/
theorem order_left (hs : s.Sound id) (hlost : s.lost = []) (hhandle : s.opener.handle ≠ none) :
  s.applied.map Prod.snd ++ s.opener.frames <+: s.arrived
  := by
  exact (List.prefix_append _ _).trans (hs.order hlost hhandle)

/-- The reader goes on without changing anything but where it is and who holds the locks. -/
theorem goOn (hs : s.Sound id) {m m' : Option Party} {r : Reader}
    (hm : Holds m r.locks s.opener.locks) (hm' : Holds m' r.feeds s.opener.feeds)
    (hhandle : ∀ h, r.handle = some h → s.reader.handle = some h ∨ s.session.channels id = some h)
    (hframes : s.lost = [] → r.frames = s.reader.frames) :
  Sound id { s with channelsMu := m, feedMu := m', reader := r }
  where
  channelsMu := hm
  feedMu := hm'
  channel := hs.channel
  handle h hh := (hhandle h hh).elim (hs.handle h) (hs.channel h)
  applied := hs.applied
  frames halive hlost := by
    dsimp only
    rw [hframes hlost]
    exact hs.frames halive hlost
  taken := hs.taken
  fresh := hs.fresh
  early := hs.early
  order hlost hne := by
    cases hh : r.handle with
    | none => simpa [Reader.bound, hh] using hs.order_left hlost hne
    | some h =>
        rcases hhandle h hh with hsame | hc
        · have horder := hs.order hlost hne
          simp only [Reader.bound, hsame, reduceCtorEq, if_false] at horder
          simpa only [Reader.bound, hh, reduceCtorEq, if_false, hframes hlost] using horder
        · have halive : s.Alive id := .inr (by rw [hc]; rfl)
          have hnone := hs.taken halive hlost (Opener.took_of_handle hne)
          have harrived := hs.frames halive hlost
          rw [stash_eq_nil hnone, List.append_nil] at harrived
          simp only [Reader.bound, hh, reduceCtorEq, if_false, hframes hlost]
          rw [harrived]

variable {f : PendingFrame}

section

variable (hs : s.Sound id)

include hs

variable {o : Opener}

/-- A frame is handed to the channel, by the reader or by `OpenChannel`. -/
theorem deliver {h : Nat} {r : Reader} (hhandle : s.opener.handle = some h)
    (hhandle' : o.handle = s.opener.handle) (hm : Holds s.channelsMu r.locks o.locks)
    (hm' : Holds s.feedMu r.feeds o.feeds) (hr : ∀ h, r.handle = some h → s.opener.handle = some h)
    (hframes : s.opener.frames ++ s.reader.frames = f :: (o.frames ++ r.frames))
    (hbound : s.opener.frames ++ s.reader.bound = f :: (o.frames ++ r.bound)) :
  Sound id { s with session := s.session.deliver cfg h f, applied := s.applied ++ [(h, f)]
                    reader := r, opener := o }
  := by
  have hretires : s.session.Retires cfg (s.session.deliver cfg h f) := retires_deliver h _ f
  obtain ⟨hchannels, hpending⟩ := keeps_of_retires hretires id
  have htook : s.opener.took = true := Opener.took_of_handle (by simp [hhandle])
  have hback : ∀ k, (s.session.deliver cfg h f).channels id = some k →
      s.session.channels id = some k := by
    intro k hk
    rcases hchannels with heq | hnone
    · rw [← heq, hk]
    · simp [hnone] at hk
  have halive : State.Alive id { s with
      session := s.session.deliver cfg h f, applied := s.applied ++ [(h, f)]
      reader := r, opener := o } → s.Alive id := by
    rintro (hnone | hsome)
    · simp [hhandle', hhandle] at hnone
    · obtain ⟨k, hk⟩ := Option.isSome_iff_exists.mp hsome
      exact .inr (by rw [hback k hk]; rfl)
  constructor
  case channelsMu => exact hm
  case feedMu => exact hm'
  case channel =>
    intro k hk
    exact hhandle'.trans (hs.channel k (hback k hk))
  case handle =>
    intro k hk
    exact hhandle'.trans (hr k hk)
  case applied =>
    intro e he
    rcases List.mem_append.mp he with he | he
    · exact hhandle'.trans (hs.applied e he)
    · rw [List.mem_singleton.mp he]
      exact hhandle'.trans hhandle
  case frames =>
    intro halive' hlost
    have hnone := hs.taken (halive halive') hlost htook
    have harrived := hs.frames (halive halive') hlost
    rw [stash_eq_nil hnone, List.append_nil, List.append_assoc, hframes] at harrived
    dsimp only
    rw [stash_eq_nil (hpending hnone), harrived]
    simp
  case taken =>
    intro halive' hlost _
    exact hpending (hs.taken (halive halive') hlost htook)
  case fresh =>
    intro hnone
    simp [hhandle', hhandle] at hnone
  case early =>
    intro hlost _
    exact hs.early hlost (by simp [hhandle])
  case order =>
    intro hlost _
    have horder := hs.order hlost (by simp [hhandle])
    rw [List.append_assoc, hbound] at horder
    simpa using horder

/-- Under the lock of the table the reader finds a channel, keeps its frame or loses it. -/
theorem checked (hr : s.reader = .locked f) :
  Sound id { s with
    session := (check cfg id f s.session).2.1
    reader := .unlocking f (check cfg id f s.session).1
    lost := s.lost ++ (check cfg id f s.session).2.2 }
  := by
  have hmu := hs.channelsMu
  have hfeed := hs.feedMu
  rw [hr] at hmu hfeed
  have hlocks : s.opener.locks = false := hmu.of_reader
  rcases check_cases cfg id f s.session with ⟨h, hc, heq⟩ | ⟨hc, hchannels, hkept, hother⟩
  · rw [heq]
    dsimp only
    rw [List.append_nil]
    apply hs.goOn (r := .unlocking f (.channel h)) hmu hfeed
    · intro k hk
      obtain rfl : h = k := by simpa [Reader.handle] using hk
      exact .inr hc
    · intro _
      simp [hr, Reader.frames]
  · have hhandle : Reader.handle (.unlocking f (check cfg id f s.session).1) = none := by
      cases hfound : (check cfg id f s.session).1 with
      | channel h => exact absurd hfound (hother h)
      | _ => rfl
    have halive : State.Alive id { s with
        session := (check cfg id f s.session).2.1
        reader := .unlocking f (check cfg id f s.session).1
        lost := s.lost ++ (check cfg id f s.session).2.2 } → s.opener.handle = none := by
      rintro (hnone | hsome)
      · exact hnone
      · simp [hchannels, hc] at hsome
    constructor
    case channelsMu => exact hmu
    case feedMu => exact hfeed
    case channel =>
      intro k hk
      simp [hchannels, hc] at hk
    case handle =>
      intro k hk
      simp [hhandle] at hk
    case applied => exact hs.applied
    case frames =>
      intro halive' hlost
      obtain ⟨hlost, hnone⟩ := List.append_eq_nil_iff.mp hlost
      obtain ⟨hfound, hstash⟩ := hkept hnone
      have harrived := hs.frames (.inl (halive halive')) hlost
      dsimp only
      rw [hstash, hfound, harrived, hr]
      simp [Reader.frames]
    case taken =>
      intro halive' _ htook
      have hnone := halive halive'
      cases ho : s.opener with
      | taken | held => simp [ho, Opener.locks] at hlocks
      | _ => simp [ho, Opener.took, Opener.handle] at htook hnone
    case fresh => exact hs.fresh
    case early =>
      intro hlost
      exact hs.early (List.append_eq_nil_iff.mp hlost).1
    case order =>
      intro hlost hne
      simpa [Reader.bound, hhandle] using hs.order_left (List.append_eq_nil_iff.mp hlost).1 hne

/-- Every step of the reader. -/
theorem read (hstep : s.read cfg id = some s') :
  s'.Sound id
  := by
  have hmu := hs.channelsMu
  have hfeed := hs.feedMu
  unfold State.read at hstep
  cases hr : s.reader with
  | idle => simp [hr] at hstep
  | read f =>
      simp only [hr] at hstep
      rw [hr] at hmu hfeed
      split at hstep
      · split at hstep
        · rename_i h hc
          cases hstep
          apply hs.goOn (r := .found f h) hmu hfeed
          · intro k hk
            obtain rfl : h = k := by simpa [Reader.handle] using hk
            exact .inr hc
          · simp [hr, Reader.frames]
        · cases hstep
          apply hs.goOn (r := .missing f) hmu hfeed
          · simp [Reader.handle]
          · simp [hr, Reader.frames]
      · contradiction
  | missing f =>
      simp only [hr] at hstep
      rw [hr] at hmu hfeed
      split at hstep
      · rename_i hnone
        rw [hnone] at hmu
        cases hstep
        apply hs.goOn (r := .locked f) _ hfeed
        · simp [Reader.handle]
        · simp [hr, Reader.frames]
        · simp [Holds, Reader.locks, hmu.free.2]
      · contradiction
  | locked f =>
      obtain rfl : _ = s' := by simpa [hr] using hstep
      exact hs.checked hr
  | unlocking f r =>
      rw [hr] at hmu hfeed
      have hlocks := hmu.of_reader
      cases r with
      | channel h =>
          obtain rfl : _ = s' := by simpa [hr] using hstep
          apply hs.goOn (r := .found f h) _ hfeed
          · exact fun k hk => .inl (by simpa [hr, Reader.handle] using hk)
          · simp [hr, Reader.frames]
          · simp [Holds, Reader.locks, hlocks]
      | kept | lost =>
          obtain rfl : _ = s' := by simpa [hr] using hstep
          apply hs.goOn (r := .idle) _ hfeed
          · simp [Reader.handle]
          · simp [hr, Reader.frames]
          · simp [Holds, Reader.locks, hlocks]
  | found f h =>
      simp only [hr] at hstep
      rw [hr] at hmu hfeed
      split at hstep
      · rename_i hnone
        rw [hnone] at hfeed
        cases hstep
        apply hs.goOn (r := .feeding f h) hmu
        · simp [Holds, Reader.feeds, hfeed.free.2]
        · exact fun k hk => .inl (by simpa [hr, Reader.handle] using hk)
        · simp [hr, Reader.frames]
      · contradiction
  | feeding f h =>
      obtain rfl : _ = s' := by simpa [hr] using hstep
      rw [hr] at hmu hfeed
      have hhandle := hs.handle h (by simp [hr, Reader.handle])
      have hnil := Opener.frames_eq_nil (by simp [hhandle]) hfeed.of_reader
      apply hs.deliver (r := .fed) hhandle rfl hmu hfeed
      · simp [Reader.handle]
      · simp [hnil, hr, Reader.frames]
      · simp [hnil, hr, Reader.bound, Reader.handle, Reader.frames]
  | fed =>
      obtain rfl : _ = s' := by simpa [hr] using hstep
      rw [hr] at hmu hfeed
      apply hs.goOn (r := .idle) hmu
      · simp [Holds, Reader.feeds, hfeed.of_reader]
      · simp [Reader.handle]
      · simp [hr, Reader.frames]

/-- `OpenChannel` goes on without changing anything but where it is and who holds the locks. -/
theorem goOpen {m m' : Option Party} (hm : Holds m s.reader.locks o.locks)
    (hm' : Holds m' s.reader.feeds o.feeds) (hhandle : o.handle = s.opener.handle)
    (hframes : o.frames = s.opener.frames) (htook : o.took = true → s.opener.took = true) :
  Sound id { s with channelsMu := m, feedMu := m', opener := o }
  := by
  have halive : State.Alive id { s with channelsMu := m, feedMu := m', opener := o } →
      s.Alive id := by
    simp [State.Alive, hhandle]
  constructor
  case channelsMu => exact hm
  case feedMu => exact hm'
  case channel => exact fun h hh => hhandle.trans (hs.channel h hh)
  case handle => exact fun h hh => hhandle.trans (hs.handle h hh)
  case applied => exact fun e he => hhandle.trans (hs.applied e he)
  case frames =>
    intro halive' hlost
    dsimp only
    rw [hframes]
    exact hs.frames (halive halive') hlost
  case taken => exact fun halive' hlost ho => hs.taken (halive halive') hlost (htook ho)
  case fresh =>
    intro hnone
    dsimp only
    rw [hframes]
    exact hs.fresh (hhandle ▸ hnone)
  case early => exact fun hlost hne => hs.early hlost (hhandle ▸ hne)
  case order =>
    intro hlost hne
    dsimp only
    rw [hframes]
    exact hs.order hlost (hhandle ▸ hne)

/-- `OpenChannel` takes the frames kept. -/
theorem take (ho : s.opener = .locked) (session : Session) (frames : Option (List PendingFrame))
    (lost : List PendingFrame) (hchannels : session.channels = s.session.channels)
    (hpending : session.pending.lookup id = none)
    (hframes : lost = [] → frames.getD [] = stash id s.session) :
  Sound id { s with session := session, opener := .taken frames, lost := s.lost ++ lost
                    early := frames.getD [] }
  := by
  have hmu := hs.channelsMu
  have hfeed := hs.feedMu
  rw [ho] at hmu hfeed
  have hhandle : s.opener.handle = none := by simp [ho, Opener.handle]
  constructor
  case channelsMu => exact hmu
  case feedMu => exact hfeed
  case channel =>
    intro h hh
    have hopen := hs.channel h (by rw [← hchannels]; exact hh)
    simp [hhandle] at hopen
  case handle =>
    intro h hh
    have hopen := hs.handle h hh
    simp [hhandle] at hopen
  case applied =>
    intro e he
    have hopen := hs.applied e he
    simp [hhandle] at hopen
  case frames =>
    intro _ hlost
    obtain ⟨hlost, hnone⟩ := List.append_eq_nil_iff.mp hlost
    have harrived := hs.frames (.inl hhandle) hlost
    rw [ho] at harrived
    dsimp only
    rw [harrived, stash_eq_nil hpending]
    simp [Opener.frames, hframes hnone]
  case taken => exact fun _ _ _ => hpending
  case fresh => simp [Opener.frames]
  case early => simp [Opener.handle]
  case order => simp [Opener.handle]

theorem takePending (ho : s.opener = .locked) :
  (s.takePending cfg id).Sound id
  := by
  have hearly : s.early = [] := by
    rw [hs.fresh (by simp [ho, Opener.handle]), ho]
    rfl
  unfold State.takePending
  cases hq : s.session.pending.lookup id with
  | none =>
      have hsound := hs.take ho s.session none [] rfl hq (by simp [stash, hq])
      simpa [hearly] using hsound
  | some q =>
      dsimp only
      have hpaid := paid_creditPending cfg id q.frames s.session
      split
      · have hsound := hs.take ho (s.session.releasePendingLocked cfg id q) none q.frames
          (by rw [releasePendingLocked, hpaid])
          (by rw [releasePendingLocked, hpaid]; exact AList.lookup_erase _ _)
          (by simp +contextual [stash, hq])
        simpa [hearly] using hsound
      · have hsound := hs.take ho { s.session with
          pendingBytes := s.session.pendingBytes - q.bytes
          pending := s.session.pending.erase id } (some q.frames) [] rfl
          (AList.lookup_erase _ _) (by simp [stash, hq])
        simpa using hsound

/-- `OpenChannel` puts the channel in the table. -/
theorem publish {frames : Option (List PendingFrame)} (ho : s.opener = .held frames) :
  Sound id { s with session := s.session.publish cfg id, since := s.arrived.length
                    opener := .published frames s.session.next }
  := by
  have hmu := hs.channelsMu
  have hfeed := hs.feedMu
  rw [ho] at hmu hfeed
  have hhandle : s.opener.handle = none := by simp [ho, Opener.handle]
  have hnone : s.lost = [] → s.session.pending.lookup id = none :=
    fun hlost => hs.taken (.inl hhandle) hlost (by simp [ho, Opener.took])
  have harrived := hs.frames (.inl hhandle)
  have happlied : s.applied = [] := by
    rw [List.eq_nil_iff_forall_not_mem]
    intro e he
    have hopen := hs.applied e he
    simp [hhandle] at hopen
  constructor
  case channelsMu => exact hmu
  case feedMu => exact hfeed
  case channel =>
    intro h hh
    simpa [Session.publish, Opener.handle] using hh
  case handle =>
    intro h hh
    have hopen := hs.handle h hh
    simp [hhandle] at hopen
  case applied => simp [happlied]
  case frames =>
    intro _ hlost
    rw [ho] at harrived
    exact harrived hlost
  case taken => exact fun _ hlost _ => hnone hlost
  case fresh => simp [Opener.handle]
  case early =>
    intro hlost _
    dsimp only
    rw [List.take_length, hs.fresh hhandle, harrived hlost, happlied,
      stash_eq_nil (hnone hlost)]
    simp
  case order =>
    intro hlost _
    have hreader : s.reader.handle = none := by
      cases hr : s.reader.handle with
      | none => rfl
      | some h =>
          have hopen := hs.handle h hr
          simp [hhandle] at hopen
    dsimp only
    rw [harrived hlost, ho, happlied, Reader.bound, if_pos hreader]
    simp [Opener.frames]

/-- Every step of `OpenChannel`. -/
theorem openNext (hstep : s.openNext cfg id = some s') :
  s'.Sound id
  := by
  have hmu := hs.channelsMu
  have hfeed := hs.feedMu
  unfold State.openNext at hstep
  cases ho : s.opener with
  | idle | failed | done => simp [ho] at hstep
  | locking =>
      simp only [ho] at hstep
      rw [ho] at hmu hfeed
      split at hstep
      · rename_i hnone
        rw [hnone] at hmu
        cases hstep
        apply hs.goOpen (o := .locked) _ hfeed
        · simp [ho, Opener.handle]
        · simp [ho, Opener.frames]
        · simp [Opener.took, Opener.handle]
        · simp [Holds, Opener.locks, hmu.free.1]
      · contradiction
  | locked =>
      simp only [ho] at hstep
      split at hstep
      · cases hstep
        rw [ho] at hmu hfeed
        apply hs.goOpen (o := .failing) hmu hfeed
        · simp [ho, Opener.handle]
        · simp [ho, Opener.frames]
        · simp [Opener.took, Opener.handle]
      · cases hstep
        exact hs.takePending ho
  | failing =>
      obtain rfl : _ = s' := by simpa [ho] using hstep
      rw [ho] at hmu hfeed
      apply hs.goOpen (o := .failed) _ hfeed
      · simp [ho, Opener.handle]
      · simp [ho, Opener.frames]
      · simp [Opener.took, Opener.handle]
      · simp [Holds, Opener.locks, hmu.of_opener]
  | taken frames =>
      rw [ho] at hmu hfeed
      cases frames with
      | none =>
          obtain rfl : _ = s' := by simpa [ho] using hstep
          apply hs.goOpen (o := .held none) hmu hfeed
          · simp [ho, Opener.handle]
          · simp [ho, Opener.frames]
          · simp [ho, Opener.took]
      | some frames =>
          simp only [ho] at hstep
          split at hstep
          · rename_i hnone
            rw [hnone] at hfeed
            cases hstep
            apply hs.goOpen (o := .held (some frames)) hmu
            · simp [Holds, Opener.feeds, hfeed.free.1]
            · simp [ho, Opener.handle]
            · simp [ho, Opener.frames]
            · simp [ho, Opener.took]
          · contradiction
  | held frames =>
      obtain rfl : _ = s' := by simpa [ho] using hstep
      exact hs.publish ho
  | published frames h =>
      rw [ho] at hmu hfeed
      cases frames with
      | none =>
          obtain rfl : _ = s' := by simpa [ho] using hstep
          apply hs.goOpen (o := .relocking h) _ hfeed
          · simp [ho, Opener.handle]
          · simp [ho, Opener.frames]
          · simp [ho, Opener.took, Opener.handle]
          · simp [Holds, Opener.locks, hmu.of_opener]
      | some frames =>
          obtain rfl : _ = s' := by simpa [ho] using hstep
          apply hs.goOpen (o := .delivering frames h) _ hfeed
          · simp [ho, Opener.handle]
          · simp [ho, Opener.frames]
          · simp [ho, Opener.took, Opener.handle]
          · simp [Holds, Opener.locks, hmu.of_opener]
  | delivering frames h =>
      rw [ho] at hmu hfeed
      cases frames with
      | nil =>
          obtain rfl : _ = s' := by simpa [ho] using hstep
          apply hs.goOpen (o := .relocking h) hmu
          · simp [Holds, Opener.feeds, hfeed.of_opener]
          · simp [ho, Opener.handle]
          · simp [ho, Opener.frames]
          · simp [ho, Opener.took, Opener.handle]
      | cons f frames =>
          obtain rfl : _ = s' := by simpa [ho] using hstep
          apply hs.deliver (o := .delivering frames h) (by simp [ho, Opener.handle]) _ hmu hfeed
          · exact hs.handle
          · simp [ho, Opener.frames]
          · simp [ho, Opener.frames]
          · simp [ho, Opener.handle]
  | relocking h =>
      simp only [ho] at hstep
      rw [ho] at hmu hfeed
      split at hstep
      · rename_i hnone
        rw [hnone] at hmu
        cases hstep
        apply hs.goOpen (o := .relocked h) _ hfeed
        · simp [ho, Opener.handle]
        · simp [ho, Opener.frames]
        · simp [ho, Opener.took, Opener.handle]
        · simp [Holds, Opener.locks, hmu.free.1]
      · contradiction
  | relocked h =>
      obtain rfl : _ = s' := by simpa [ho] using hstep
      rw [ho] at hmu hfeed
      apply hs.goOpen (o := .done h) _ hfeed
      · simp [ho, Opener.handle]
      · simp [ho, Opener.frames]
      · simp [ho, Opener.took, Opener.handle]
      · simp [Holds, Opener.locks, hmu.of_opener]

/-- A frame arrives. -/
theorem arrive (hr : s.reader = .idle) :
  Sound id { s with reader := .read f, arrived := s.arrived ++ [f] }
  := by
  have hmu := hs.channelsMu
  have hfeed := hs.feedMu
  rw [hr] at hmu hfeed
  refine { hs with
    channelsMu := hmu, feedMu := hfeed, handle := ?_, frames := ?_, early := ?_, order := ?_ }
  · simp [Reader.handle]
  · intro halive hlost
    have harrived := hs.frames halive hlost
    rw [hr] at harrived
    dsimp only
    rw [harrived]
    simp [Reader.frames]
  · intro hlost hne
    refine (hs.early hlost hne).trans ?_
    rw [List.take_append]
    exact List.prefix_append _ _
  · intro hlost hne
    have horder := (hs.order_left hlost hne).trans (List.prefix_append _ [f])
    simpa [Reader.bound, Reader.handle] using horder

/-- Something else happens to the session. -/
theorem other {session : Session} (hm : Meanwhile id s (.other session)) :
  Sound id { s with
    session := session
    lost := s.lost ++ if (session.pending.lookup id).isSome then [] else stash id s.session }
  := by
  obtain ⟨hchannels, hpending⟩ := hm
  have hback : ∀ k, session.channels id = some k → s.session.channels id = some k := by
    intro k hk
    rcases hchannels with heq | hnone
    · rw [← heq, hk]
    · simp [hnone] at hk
  have halive : (s.opener.handle = none ∨ (session.channels id).isSome) → s.Alive id := by
    rintro (hnone | hsome)
    · exact .inl hnone
    · obtain ⟨k, hk⟩ := Option.isSome_iff_exists.mp hsome
      exact .inr (by rw [hback k hk]; rfl)
  refine { hs with channel := ?_, frames := ?_, taken := ?_, early := ?_, order := ?_ }
  · exact fun k hk => hs.channel k (hback k hk)
  · intro halive' hlost
    obtain ⟨hlost, hdropped⟩ := List.append_eq_nil_iff.mp hlost
    have hstash : stash id session = stash id s.session := by
      rcases hpending with heq | hnone
      · simp [stash, heq]
      · rw [stash_eq_nil hnone]
        simpa [hnone] using hdropped.symm
    dsimp only
    rw [hstash]
    exact hs.frames (halive halive') hlost
  · intro halive' hlost htook
    have hnone := hs.taken (halive halive') (List.append_eq_nil_iff.mp hlost).1 htook
    exact hpending.elim (fun heq => heq.trans hnone) fun h => h
  · exact fun hlost => hs.early (List.append_eq_nil_iff.mp hlost).1
  · exact fun hlost => hs.order (List.append_eq_nil_iff.mp hlost).1

theorem step {a : Action} (hm : Meanwhile id s a) (hstep : s.step cfg id a = some s') :
  s'.Sound id
  := by
  cases a with
  | arrive f =>
      obtain ⟨⟨hr, -⟩, hsome⟩ := Option.ite_none_right_eq_some.mp hstep
      cases hsome
      exact hs.arrive hr
  | read => exact hs.read hstep
  | call =>
      obtain ⟨ho, rfl⟩ := Run.guard hstep
      have hmu := hs.channelsMu
      have hfeed := hs.feedMu
      rw [ho] at hmu hfeed
      apply hs.goOpen
      · split <;> exact hmu
      · split <;> exact hfeed
      · rw [ho]
        split <;> rfl
      · rw [ho]
        split <;> rfl
      · split <;> simp [Opener.took, Opener.handle]
  | openNext => exact hs.openNext hstep
  | other session =>
      cases hstep
      exact hs.other hm

end

end Sound

theorem sound_of_run {cfg : SessionConfig} {s : State} (hchannel : session.channels id = none)
    (hrun : Run (State.step cfg id) (Meanwhile id) (init id session) s) :
  s.Sound id
  := by
  apply hrun.invariant (I := fun s => s.Sound id)
  · exact fun s a s' hs hm hstep => hs.step hm hstep
  · exact sound_init hchannel

end State

end Muxocket.EarlyFrames
