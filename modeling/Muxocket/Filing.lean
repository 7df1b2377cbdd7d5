import Muxocket.Lib.Run
import Muxocket.Lib.Sums
import Muxocket.Table

/-!
# Early frames and closed identifiers fit the table

`Filed` says how the table of the open channels, the queues of early frames and the closed
identifiers fit together, and that each is within its limit.  The functions that work under
the lock of the table keep an early frame, open a channel, take a channel from the table, or
forget what has expired.  Every one of them keeps `Filed`, at any time.
-/

namespace Muxocket

namespace Session

/-! ### How the three maps fit together -/

/-- The number of payload bytes in the queues of early frames. -/
def earlyBytes (s : Session) : Int :=
  (s.pending.entries.map fun e => (e.2.bytes : Int)).sum

/-- The table, the early frames and the closed identifiers of a session fit together, and
each is within its limits. -/
structure Filed (cfg : SessionConfig) (s : Session) : Prop where
  bytes : s.pendingBytes = s.earlyBytes
  room : s.pendingBytes ≤ cfg.maxPendingEarlyBytesPerSession
  queues : s.pending.entries.length ≤ cfg.maxPendingChannels
  frames : ∀ id q, s.pending.lookup id = some q →
    q.frames.length ≤ cfg.maxPendingEarlyFramesPerSession
  few : s.closedIDs.entries.length ≤ maxClosedIDs
  opened : ∀ id, (s.channels id).isSome →
    s.pending.lookup id = none ∧ s.closedIDs.lookup id = none
  recent : ∀ id t, s.closedIDs.lookup id = some t → s.now ≤ t → s.pending.lookup id = none

theorem filed_newSession (cfg : SessionConfig) (now : Int) :
  (newSession cfg now).Filed cfg
  where
  bytes := rfl
  room := Int.natCast_nonneg _
  queues := Nat.zero_le _
  frames := by
    intro id q hq
    simp at hq
  few := Nat.zero_le _
  opened := by
    intro id hid
    simp at hid
  recent := by
    intro id t ht
    simp at ht

namespace Filed

variable {cfg : SessionConfig} {s : Session}

variable {s' : Session} {id : Nat}

section

variable (hs : s.Filed cfg)

include hs

/-- Only the table matters. -/
theorem of_table (htable : s'.table = s.table) :
  s'.Filed cfg
  := by
  obtain ⟨hnow, hchannels, -, hpending, hbytes, hclosed⟩ := Table.mk.inj htable
  constructor
  · rw [hbytes, earlyBytes, hpending]
    exact hs.bytes
  · rw [hbytes]
    exact hs.room
  · rw [hpending]
    exact hs.queues
  · rw [hpending]
    exact hs.frames
  · rw [hclosed]
    exact hs.few
  · rw [hchannels, hpending, hclosed]
    exact hs.opened
  · rw [hnow, hpending, hclosed]
    exact hs.recent

/-- The early frames of an identifier are dropped or delivered. -/
theorem erase {q : PendingQueue} (hq : s.pending.lookup id = some q) :
  Filed cfg { s with pendingBytes := s.pendingBytes - q.bytes, pending := s.pending.erase id }
  := by
  have hsum := sum_erase_entries (fun e : Sigma fun _ : Nat => PendingQueue => (e.2.bytes : Int)) hq
  have hsub : (s.pending.erase id).entries.Sublist s.pending.entries := List.kerase_sublist id _
  constructor
  · have hbytes := hs.bytes
    simp only [earlyBytes] at hbytes hsum ⊢
    omega
  · have hroom := hs.room
    dsimp only
    omega
  · exact hsub.length_le.trans hs.queues
  · intro k p hp
    exact hs.frames k p (lookup_of_sublist hsub hp)
  · exact hs.few
  · intro k hk
    exact ⟨lookup_none_of_sublist hsub (hs.opened k hk).1, (hs.opened k hk).2⟩
  · intro k t ht hle
    exact lookup_none_of_sublist hsub (hs.recent k t ht hle)

/-- Closed identifiers are forgotten. -/
theorem forget {ids : AList fun _ : Nat => Int} (hsub : ids.entries.Sublist s.closedIDs.entries) :
  Filed cfg { s with closedIDs := ids }
  := by
  refine ⟨hs.bytes, hs.room, hs.queues, hs.frames, hsub.length_le.trans hs.few, ?_, ?_⟩
  · intro k hk
    exact ⟨(hs.opened k hk).1, lookup_none_of_sublist hsub (hs.opened k hk).2⟩
  · intro k t ht hle
    exact hs.recent k t (lookup_of_sublist hsub ht) hle

/-- An identifier is remembered that has no channel and no early frames. -/
theorem remember (hchannel : s.channels id = none) (hpending : s.pending.lookup id = none)
    (hroom : s.closedIDs.entries.length < maxClosedIDs) (t : Int) :
  Filed cfg { s with closedIDs := s.closedIDs.insert id t }
  := by
  refine ⟨hs.bytes, hs.room, hs.queues, hs.frames, ?_, ?_, ?_⟩
  · change (Sigma.mk id t :: s.closedIDs.entries.kerase id).length ≤ maxClosedIDs
    rw [List.length_cons]
    have hless := (List.kerase_sublist id s.closedIDs.entries).length_le
    omega
  · intro k hk
    dsimp only at hk ⊢
    have hne : k ≠ id := by
      intro heq
      rw [heq, hchannel] at hk
      contradiction
    rw [AList.lookup_insert_ne hne]
    exact hs.opened k hk
  · intro k t' ht hle
    by_cases hid : k = id
    · rw [hid]
      exact hpending
    · rw [AList.lookup_insert_ne hid] at ht
      exact hs.recent k t' ht hle

/-! ### The functions that work under the lock -/

theorem releasePendingLocked {q : PendingQueue} (hq : s.pending.lookup id = some q) :
  (s.releasePendingLocked cfg id q).Filed cfg
  := by
  apply (hs.erase hq).of_table
  rw [Session.releasePendingLocked, paid_creditPending cfg id q.frames s]
  rfl

theorem releaseExpired {queues : List (Sigma fun _ : Nat => PendingQueue)}
    (hnodup : (queues.map Sigma.fst).Nodup)
    (hqueues : ∀ e ∈ queues, s.pending.lookup e.1 = some e.2) :
  (s.releaseExpired cfg queues).Filed cfg
  := by
  induction queues generalizing s with
  | nil => exact hs
  | cons e queues ih =>
      rw [List.map_cons, List.nodup_cons] at hnodup
      have hrest : ∀ e' ∈ queues, s.pending.lookup e'.1 = some e'.2 :=
        fun e' he' => hqueues e' (List.mem_cons_of_mem e he')
      unfold Session.releaseExpired
      split
      · apply ih (hs.releasePendingLocked (hqueues e List.mem_cons_self)) hnodup.2
        intro e' he'
        have hne : e'.1 ≠ e.1 := by
          intro heq
          apply hnodup.1
          rw [← heq]
          exact List.mem_map_of_mem he'
        rw [Session.releasePendingLocked, paid_creditPending cfg e.1 e.2.frames s]
        dsimp only
        rw [AList.lookup_erase_ne hne]
        exact hrest e' he'
      · exact ih hs hnodup.2 hrest

end

/-- Of the queues of early frames some are dropped, and no closed identifier is forgotten. -/
theorem sublist_releaseExpired (cfg : SessionConfig)
    (queues : List (Sigma fun _ : Nat => PendingQueue)) (s : Session) :
  (s.releaseExpired cfg queues).pending.entries.Sublist s.pending.entries
    ∧ (s.releaseExpired cfg queues).closedIDs = s.closedIDs
  := by
  induction queues generalizing s with
  | nil => exact ⟨List.Sublist.refl _, rfl⟩
  | cons e queues ih =>
      unfold Session.releaseExpired
      split
      · obtain ⟨hsub, hclosed⟩ := ih (s.releasePendingLocked cfg e.1 e.2)
        rw [hclosed]
        rw [Session.releasePendingLocked, paid_creditPending cfg e.1 e.2.frames s] at hsub ⊢
        exact ⟨hsub.trans (List.kerase_sublist _ _), rfl⟩
      · exact ih s

theorem sublist_unexpired (now : Int) (entries : List (Sigma fun _ : Nat => Int))
    (ids : AList fun _ : Nat => Int) :
  (unexpired now entries ids).entries.Sublist ids.entries
  := by
  induction entries generalizing ids with
  | nil => exact List.Sublist.refl _
  | cons e entries ih =>
      unfold unexpired
      split
      · exact (ih _).trans (List.kerase_sublist _ _)
      · exact ih ids

theorem sublist_closedIDs_pruneLocked (cfg : SessionConfig) (s : Session) :
  (s.pruneLocked cfg).closedIDs.entries.Sublist s.closedIDs.entries
  := by
  rw [← (sublist_releaseExpired cfg s.pending.entries s).2]
  apply sublist_unexpired

theorem pruneLocked (hs : s.Filed cfg) :
  (s.pruneLocked cfg).Filed cfg
  := by
  have hexpired : (s.releaseExpired cfg s.pending.entries).Filed cfg := by
    apply hs.releaseExpired s.pending.nodupKeys
    intro e he
    exact AList.mem_lookup_iff.mpr he
  exact hexpired.forget (sublist_unexpired _ _ _)

/-- An identifier that was not closed recently is not remembered once it has been looked up. -/
theorem lookup_recentlyClosedLocked (h : ¬ s.recentlyClosed id) :
  (s.recentlyClosedLocked id).closedIDs.lookup id = none
  := by
  unfold recentlyClosed at h
  unfold Session.recentlyClosedLocked
  split
  · rename_i t ht
    rw [ht, decide_eq_true_eq, not_le] at h
    rw [if_pos h]
    apply AList.lookup_erase
  · rename_i hnone
    exact hnone

theorem recentlyClosedLocked (hs : s.Filed cfg) (id : Nat) :
  (s.recentlyClosedLocked id).Filed cfg
  := by
  unfold Session.recentlyClosedLocked
  split
  · split
    · exact hs.forget (List.kerase_sublist _ _)
    · exact hs
  · exact hs

theorem dropEarly (hs : s.Filed cfg) (id : Nat) :
  (s.dropEarly cfg id).Filed cfg ∧ (s.dropEarly cfg id).pending.lookup id = none
  := by
  unfold Session.dropEarly
  split
  · rename_i q hq
    refine ⟨hs.releasePendingLocked hq, ?_⟩
    rw [Session.releasePendingLocked]
    dsimp only
    rw [paid_creditPending cfg id q.frames s]
    apply AList.lookup_erase
  · rename_i hnone
    exact ⟨hs, hnone⟩

theorem pruneFull (hs : s.Filed cfg) :
  (s.pruneFull cfg).Filed cfg
    ∧ (s.pruneFull cfg).pending.entries.Sublist s.pending.entries
  := by
  unfold Session.pruneFull
  split
  · exact ⟨hs.pruneLocked, (sublist_releaseExpired cfg _ s).1⟩
  · exact ⟨hs, List.Sublist.refl _⟩

/-- The entry that expires first is one of the entries. -/
theorem oldest_mem {entries : List (Sigma fun _ : Nat => Int)} {e : Sigma fun _ : Nat => Int}
    (he : oldest entries = some e) :
  e ∈ entries
  := by
  induction entries with
  | nil => contradiction
  | cons e' entries ih =>
      unfold oldest at he
      split at he
      · cases he
        exact List.mem_cons_self
      · rename_i e'' hrest
        split at he
        · cases he
          exact List.mem_cons_of_mem _ (ih hrest)
        · cases he
          exact List.mem_cons_self

theorem oldest_eq_none {entries : List (Sigma fun _ : Nat => Int)} (he : oldest entries = none) :
  entries = []
  := by
  cases entries with
  | nil => rfl
  | cons e entries =>
      unfold oldest at he
      split at he
      · contradiction
      · split at he <;> contradiction

section

variable (hs : s.Filed cfg)

include hs

theorem evictFull :
  s.evictFull.Filed cfg ∧ s.evictFull.pending = s.pending
    ∧ s.evictFull.closedIDs.entries.length < maxClosedIDs
  := by
  unfold Session.evictFull
  split
  · unfold evictOldest
    split
    · rename_i hfull _ hnone
      rw [oldest_eq_none hnone] at hfull
      contradiction
    · rename_i e he
      refine ⟨hs.forget (List.kerase_sublist _ _), rfl, ?_⟩
      have hkey : e.1 ∈ s.closedIDs.entries.keys := List.mem_keys_of_mem (oldest_mem he)
      obtain ⟨t, l₁, l₂, -, hentries, herase⟩ := List.exists_of_kerase hkey
      have hfew := hs.few
      change (s.closedIDs.entries.kerase e.1).length < maxClosedIDs
      rw [hentries, List.length_append, List.length_cons] at hfew
      rw [herase, List.length_append]
      omega
  · rename_i hroom
    exact ⟨hs, rfl, not_le.mp hroom⟩

/-- Of what is closed, and has left the table, no early frames are kept. -/
theorem markClosedLocked (hchannel : s.channels id = none) :
  (s.markClosedLocked cfg id).Filed cfg
  := by
  obtain ⟨hdrop, hpending⟩ := hs.dropEarly id
  unfold Session.markClosedLocked
  dsimp only
  split
  · obtain ⟨hprune, hsub⟩ := hdrop.pruneFull
    obtain ⟨hevict, hsame, hroom⟩ := hprune.evictFull
    refine hevict.remember ?_ ?_ hroom _
    · rw [beside_makeRoom cfg id s]
      exact hchannel
    · rw [hsame]
      exact lookup_none_of_sublist hsub hpending
  · exact hdrop

theorem removeChannelIf (h : Nat) :
  (s.removeChannelIf cfg h).Filed cfg
  := by
  unfold Session.removeChannelIf
  dsimp only
  split
  · have hremoved : Filed cfg
        { s with channels := Function.update s.channels (s.heap h).id none } := by
      refine ⟨hs.bytes, hs.room, hs.queues, hs.frames, hs.few, ?_, hs.recent⟩
      intro id hid
      by_cases heq : id = (s.heap h).id
      · simp [heq] at hid
      · simp only [Function.update_of_ne heq] at hid
        exact hs.opened id hid
    apply hremoved.markClosedLocked
    simp
  · exact hs

theorem of_retires (h : s.Retires cfg s') :
  s'.Filed cfg
  := by
  induction h with
  | same htable => exact hs.of_table htable
  | remove h _ htable ih => exact (ih.removeChannelIf h).of_table htable

/-- An early frame is kept for which there is room, of a channel that is not in the table. -/
theorem keepPending (hpos : 0 < cfg.maxPendingEarlyFramesPerSession) {f : PendingFrame}
    (hroom : s.hasRoom cfg id f) (hchannel : s.channels id = none)
    (hrecent : s.closedIDs.lookup id = none) :
  (s.keepPending cfg id f).Filed cfg
  := by
  unfold hasRoom at hroom
  rw [Bool.and_eq_true, decide_eq_true_eq] at hroom
  obtain ⟨hlimit, hbytes⟩ := hroom
  have hinsert := sum_insert_entries
    (fun e : Sigma fun _ : Nat => PendingQueue => (e.2.bytes : Int)) s.pending id
  constructor
  · have hsum := hs.bytes
    unfold Session.keepPending earlyBytes
    dsimp only
    rw [hinsert]
    cases hq : s.pending.lookup id with
    | some q =>
        have herase := sum_erase_entries
          (fun e : Sigma fun _ : Nat => PendingQueue => (e.2.bytes : Int)) hq
        simp only [earlyBytes, Option.getD_some, PendingQueue.push] at hsum herase ⊢
        omega
    | none =>
        rw [erase_of_lookup hq]
        simp only [earlyBytes, Option.getD_none, PendingQueue.push, PendingQueue.new] at hsum ⊢
        omega
  · exact hbytes
  · change (Sigma.mk id _ :: (s.pending.erase id).entries).length ≤ _
    have hqueues := hs.queues
    cases hq : s.pending.lookup id with
    | some q =>
        have herase := sum_erase_entries (fun _ => (1 : Int)) hq
        simp at herase ⊢
        omega
    | none =>
        rw [hq, decide_eq_true_eq] at hlimit
        rw [erase_of_lookup hq, List.length_cons]
        omega
  · intro k p hk
    by_cases hid : k = id
    · subst hid
      simp only [Session.keepPending, AList.lookup_insert, Option.some.injEq] at hk
      rw [← hk]
      cases hq : s.pending.lookup k with
      | some q =>
          rw [hq, decide_eq_true_eq] at hlimit
          simp only [PendingQueue.push, Option.getD_some, List.length_append, List.length_singleton]
          omega
      | none =>
          simp only [PendingQueue.push, PendingQueue.new, Option.getD_none, List.nil_append,
            List.length_singleton]
          omega
    · simp only [Session.keepPending, AList.lookup_insert_ne hid] at hk
      exact hs.frames k p hk
  · exact hs.few
  · intro k hk
    have hne : k ≠ id := by
      intro heq
      simp [heq, Session.keepPending, hchannel] at hk
    simp only [Session.keepPending, AList.lookup_insert_ne hne]
    exact hs.opened k hk
  · intro k t ht hle
    have hne : k ≠ id := by
      intro heq
      subst heq
      simp [Session.keepPending, hrecent] at ht
    simp only [Session.keepPending, AList.lookup_insert_ne hne]
    exact hs.recent k t ht hle

theorem stashLocked (hpos : 0 < cfg.maxPendingEarlyFramesPerSession)
    (hchannel : s.channels id = none) (f : PendingFrame) :
  (s.stashLocked cfg id f).2.Filed cfg
  := by
  unfold Session.stashLocked
  split
  · exact hs
  · rename_i hold
    have hpruned := (hs.recentlyClosedLocked id).pruneLocked
    dsimp only
    split
    · rename_i hroom
      refine hpruned.keepPending hpos hroom ?_ ?_
      · rw [(beside_recentlyClosedLocked id s).trans (beside_pruneLocked cfg _)]
        exact hchannel
      · apply lookup_none_of_sublist (sublist_closedIDs_pruneLocked cfg _)
        exact lookup_recentlyClosedLocked hold
    · exact hpruned

/-- A channel is opened under an identifier that has none, and no early frames either. -/
theorem publish (hpending : s.pending.lookup id = none) :
  (s.publish cfg id).Filed cfg
  := by
  have hforgot : Filed cfg { s with closedIDs := s.closedIDs.erase id } :=
    hs.forget (List.kerase_sublist id _)
  refine ⟨hforgot.bytes, hforgot.room, hforgot.queues, hforgot.frames, hforgot.few, ?_,
    hforgot.recent⟩
  intro k hk
  by_cases hid : k = id
  · subst hid
    exact ⟨hpending, AList.lookup_erase _ _⟩
  · simp only [Session.publish, Function.update_of_ne hid] at hk ⊢
    exact hforgot.opened k hk

theorem openID (hopen : s.openID cfg id = some s') :
  s'.Filed cfg
  := by
  unfold Session.openID at hopen
  obtain ⟨-, hopen⟩ := Option.ite_none_left_eq_some.mp hopen
  split at hopen
  · rename_i hnone
    cases hopen
    exact hs.publish hnone
  · rename_i q hq
    split at hopen
    · cases hopen
      apply (hs.releasePendingLocked hq).publish
      rw [Session.releasePendingLocked]
      apply AList.lookup_erase
    · cases hopen
      refine Filed.of_retires ?_ (retires_deliverPending s.next _ q.frames)
      apply (hs.erase hq).publish
      apply AList.lookup_erase

end

end Filed

/-! ### Runs of the functions that work under the lock -/

/-- A call of one of the functions that work under the lock of the table, or the passing of
time. -/
inductive TableCall where
  | stash (id : Nat) (f : PendingFrame)
  | openChannel (label : Bytes)
  | remove (h : Nat)
  | recentlyClosed (id : Nat)
  | prune
  | release (id : Nat)
  | wait (d : Nat)

/-- What becomes of a session by a call.  Early frames are kept only for identifiers that are
not in the table, and only queues that are there are released. -/
def call (cfg : SessionConfig) (s : Session) : TableCall → Option Session
  | .stash id f => if (s.channels id).isSome then none else some (s.stashLocked cfg id f).2
  | .openChannel label => s.openChannel cfg label
  | .remove h => some (s.removeChannelIf cfg h)
  | .recentlyClosed id => some (s.recentlyClosedLocked id)
  | .prune => some (s.pruneLocked cfg)
  | .release id => (s.pending.lookup id).map fun q => s.releasePendingLocked cfg id q
  | .wait d => some { s with now := s.now + d }

variable {cfg : SessionConfig} {s : Session}

/-- Every call keeps the maps fitting together. -/
theorem Filed.call (hpos : 0 < cfg.maxPendingEarlyFramesPerSession) {s' : Session} {a : TableCall}
    (hs : s.Filed cfg) (hcall : s.call cfg a = some s') :
  s'.Filed cfg
  := by
  cases a with
  | stash id f =>
      obtain ⟨hnone, hs'⟩ := Option.ite_none_left_eq_some.mp hcall
      obtain rfl := Option.some.inj hs'
      rw [Option.not_isSome_iff_eq_none] at hnone
      exact hs.stashLocked hpos hnone f
  | openChannel label =>
      obtain ⟨id, -, hopen⟩ := Option.bind_eq_some_iff.mp hcall
      exact hs.openID hopen
  | remove h =>
      cases hcall
      exact hs.removeChannelIf h
  | recentlyClosed id =>
      cases hcall
      exact hs.recentlyClosedLocked id
  | prune =>
      cases hcall
      exact hs.pruneLocked
  | release id =>
      obtain ⟨q, hq, rfl⟩ := Option.map_eq_some_iff.mp hcall
      exact hs.releasePendingLocked hq
  | wait d =>
      cases hcall
      refine ⟨hs.bytes, hs.room, hs.queues, hs.frames, hs.few, hs.opened, ?_⟩
      intro id t ht hle
      apply hs.recent id t ht
      dsimp only at hle
      omega

theorem channels_removeChannelIf {h k id : Nat} (hk : s.channels id = some k) (hne : k ≠ h) :
  (s.removeChannelIf cfg h).channels id = some k
  := by
  unfold removeChannelIf
  dsimp only
  split
  · rename_i hh
    have hid : id ≠ (s.heap h).id := by
      intro heq
      rw [← heq, hk] at hh
      exact hne (Option.some.inj hh)
    rw [beside_markClosedLocked cfg]
    simp only [Function.update_of_ne hid]
    exact hk
  · exact hk

/-- Finalizing a channel does not take another channel from the table. -/
theorem channels_finalize {h k id : Nat} (hk : s.channels id = some k) (hne : k ≠ h) :
  (s.finalize cfg h).channels id = some k
  := by
  unfold finalize
  split
  · exact hk
  · have htable : (((s.cleanupReliability h).closeRing h).update h fun c =>
        { c with done := true }).table = s.table := by
      simp
    apply channels_removeChannelIf _ hne
    exact (congrFun (congrArg Table.channels htable) id).trans hk

/-- Whatever functions are called under the lock of the table, the table, the early frames and
the closed identifiers fit together and are within the limits of the configuration, and
finalizing a channel never takes another from the table. -/
theorem filed_of_calls (c : Config) (now : Int) {s : Session}
    (hrun : Run (call c.newSession) (fun _ _ => True) (newSession c.newSession now) s) :
  s.Filed c.newSession
    ∧ (∀ id q, s.pending.lookup id = some q → q.bytes = pendingLength q.frames)
    ∧ ∀ h k id, s.channels id = some k → k ≠ h →
      (s.finalize c.newSession h).channels id = some k
  := by
  refine ⟨?_, fun _ q _ => q.bytes_eq, fun h k id => channels_finalize⟩
  have hpos : 0 < c.newSession.maxPendingEarlyFramesPerSession := orDefault_pos (by decide)
  apply Run.invariant (I := Filed c.newSession) _ hrun (filed_newSession _ now)
  intro s a s' hs _ hcall
  exact hs.call hpos hcall

/-- A channel with early frames is opened and taken from the table, and early frames for
another channel are kept. -/
theorem filed_of_calls_reopened :
  ∃ s, Run (call { defaultConfig with reliability := true }.newSession) (fun _ _ => True)
      (newSession { defaultConfig with reliability := true }.newSession 0) s
    ∧ (s.pendingBytes = 2 ∧ (s.closedIDs.lookup 11).isSome)
    ∧ s.Filed { defaultConfig with reliability := true }.newSession
  := by
  obtain ⟨s, hrun, hs⟩ := Run.exists_of_exec
    (call { defaultConfig with reliability := true }.newSession) (fun _ _ => True)
    (newSession { defaultConfig with reliability := true }.newSession 0)
    [.stash 11 { flag := .data, offset := 0, data := [1, 2, 3] }, .wait 5, .openChannel [97],
      .remove 0, .stash 12 { flag := .data, offset := 0, data := [1, 2] },
      .stash 11 { flag := .data, offset := 3, data := [4] }]
    (fun s => s.pendingBytes = 2 ∧ (s.closedIDs.lookup 11).isSome) (by decide +kernel)
  exact ⟨s, hrun, hs, (filed_of_calls _ 0 hrun).1⟩

end Session

end Muxocket
