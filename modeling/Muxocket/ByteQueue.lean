import Mathlib.Data.List.Induction
import Muxocket.RingBuffer

/-!
# Queues of bytes

A ring is meant to be a queue of bytes: buffers are pushed at its end, and at its beginning they
are read as much at a time as the reader wants.  Such a queue is given by the buffers pushed and by
the number of bytes consumed, which say what is unread.  A log of what happened to a ring is legal
if it can be replayed on a list of slots.  A legal log is one of a queue of bytes, if no buffer
pushed is empty.
-/

namespace Muxocket.RingBuffer

/-! ### Calls -/

/-- The bytes that a call consumes of the oldest slot. -/
def Call.consumes : Call → Bytes → Bytes
  | .pop, b => b
  | .partialRead n, b => b.take n
  | .peek, _ => []
  | .advance n, b => b.take n

/-- The slots of a queue after a call has found `x` in front of `q`. -/
def Call.leaves (c : Call) (x : Slot) (q : List Slot) : List Slot :=
  if c.removes x then q else { x with buf := x.buf.drop c.eats } :: q

variable {x : Slot} {q xs : List Slot} {n : Nat}

/-- A call removes a buffer if it consumes what is left of it, and otherwise leaves the rest. -/
theorem Call.removes_cases (c : Call) (hx : x.buf ≠ []) :
  c.removes x = true ∧ c.consumes x.buf = x.buf
    ∨ c.removes x = false ∧ c.eats < x.buf.length ∧ c.consumes x.buf = x.buf.take c.eats
  := by
  have hpos : 0 < x.buf.length := List.length_pos_iff.mpr hx
  cases c with
  | pop => exact .inl ⟨by simp [Call.removes], rfl⟩
  | peek =>
      exact .inr ⟨by simp [Call.removes, Call.eats, hx], hpos, by simp [Call.consumes, Call.eats]⟩
  | partialRead n | advance n =>
      by_cases hn : x.buf.length ≤ n
      · exact .inl ⟨by simp [Call.removes, Call.eats, hn], List.take_of_length_le hn⟩
      · exact .inr ⟨by simp [Call.removes, Call.eats]; omega, Nat.lt_of_not_le hn, rfl⟩

/-! ### Logs -/

/-- The buffer that is pushed. -/
def Event.puts : Event → List Slot
  | .put x => [x]
  | _ => []

/-- The bytes that are consumed. -/
def Event.consumes : Event → Bytes
  | .took c x => c.consumes x.buf
  | _ => []

/-- The reference to a buffer that a call returns, when it has removed the buffer. -/
def Event.returns : Event → List (Option Nat)
  | .took c x => if c.removes x then [x.head] else []
  | _ => []

/-- The call an event belongs to. -/
def Event.call : Event → Option Call
  | .put _ => none
  | .took c _ => some c
  | .missed c => some c

/-- The slots of a queue after an event, if it can happen. -/
def Event.apply : Event → List Slot → Option (List Slot)
  | .put x, q => some (q ++ [x])
  | .took _ _, [] => none
  | .took c x, y :: q => if x = y then some (c.leaves x q) else none
  | .missed _, [] => some []
  | .missed _, _ :: _ => none

/-- The slots of a queue to which everything in a log has happened. -/
def replay (log : List Event) : Option (List Slot) :=
  log.foldlM (fun q e => e.apply q) []

theorem replay_append (log : List Event) (e : Event) :
  replay (log ++ [e]) = (replay log).bind e.apply
  := by
  simp [replay]

/-- What is replayed of the beginning of a log, and of the event after it. -/
theorem replay_split {earlier later : List Event} {e : Event}
    (h : replay (earlier ++ e :: later) = some q) :
  ∃ q₀ q₁, replay earlier = some q₀ ∧ e.apply q₀ = some q₁
  := by
  simp only [replay, List.foldlM_append, List.foldlM_cons, Option.bind_eq_bind,
    Option.bind_eq_some_iff] at h
  obtain ⟨q₀, hq₀, q₁, hq₁, -⟩ := h
  exact ⟨q₀, q₁, hq₀, hq₁⟩

/-! ### What is unread -/

/-- What is unread of buffers of which the first `n` bytes have been consumed. -/
def unread : List Slot → Nat → List Slot
  | [], _ => []
  | x :: xs, n =>
      if x.buf.length ≤ n then unread xs (n - x.buf.length)
      else { x with buf := x.buf.drop n } :: xs

theorem unread_zero (hne : ∀ x ∈ xs, x.buf ≠ []) :
  unread xs 0 = xs
  := by
  cases xs with
  | nil => rfl
  | cons x xs =>
      have hx := hne x (by simp)
      simp [unread, hx]

/-- One more buffer is pushed. -/
theorem unread_push (hn : n ≤ (xs.flatMap Slot.buf).length) (hx : x.buf ≠ []) :
  unread (xs ++ [x]) n = unread xs n ++ [x]
  := by
  induction xs generalizing n with
  | nil =>
      obtain rfl : n = 0 := by simpa using hn
      simp [unread, hx]
  | cons y xs ih =>
      rw [List.flatMap_cons, List.length_append] at hn
      simp only [List.cons_append, unread]
      split
      · exact ih (by omega)
      · rfl

/-- More of the oldest buffer is consumed, but not all of it. -/
theorem unread_eat {m : Nat} (h : unread xs n = x :: q) (hm : m < x.buf.length) :
  unread xs (n + m) = { x with buf := x.buf.drop m } :: q
  := by
  induction xs generalizing n with
  | nil => simp [unread] at h
  | cons y xs ih =>
      unfold unread at h ⊢
      split at h
      · rw [if_pos (by omega), Nat.sub_add_comm (by assumption)]
        exact ih h
      · obtain ⟨rfl, rfl⟩ := List.cons.inj h
        rw [List.length_drop] at hm
        rw [if_neg (by omega)]
        simp [List.drop_drop]

/-- The oldest buffer is consumed. -/
theorem unread_remove (hne : ∀ y ∈ xs, y.buf ≠ []) (h : unread xs n = x :: q) :
  unread xs (n + x.buf.length) = q
  := by
  induction xs generalizing n with
  | nil => simp [unread] at h
  | cons y xs ih =>
      have hne' : ∀ z ∈ xs, z.buf ≠ [] := fun z hz => hne z (by simp [hz])
      unfold unread at h ⊢
      split at h
      · rw [if_pos (by omega), Nat.sub_add_comm (by assumption)]
        exact ih hne' h
      · obtain ⟨rfl, rfl⟩ := List.cons.inj h
        rw [List.length_drop, if_pos (by omega), show n + (y.buf.length - n) - y.buf.length = 0 by
          omega]
        exact unread_zero hne'

/-! ### Legal logs -/

/-- A log is one of a queue of bytes that holds `q`. -/
structure Queues (log : List Event) (q : List Slot) : Prop where
  unread : unread (log.flatMap Event.puts) (log.flatMap Event.consumes).length = q
  bytes : log.flatMap Event.consumes ++ q.flatMap Slot.buf
    = (log.flatMap Event.puts).flatMap Slot.buf
  heads : log.flatMap Event.returns ++ q.map Slot.head = (log.flatMap Event.puts).map Slot.head
  nonempty : ∀ x ∈ q, x.buf ≠ []

/-- A call finds the oldest slot of a queue of bytes. -/
theorem Queues.took {log : List Event} {c : Call} (h : Queues log (x :: q))
    (hne : ∀ y ∈ log.flatMap Event.puts, y.buf ≠ []) :
  Queues (log ++ [Event.took c x]) (c.leaves x q)
  := by
  obtain ⟨hunread, hbytes, hheads, hnonempty⟩ := h
  have hlength : ((log ++ [Event.took c x]).flatMap Event.consumes).length
      = (log.flatMap Event.consumes).length + (c.consumes x.buf).length := by
    simp [Event.consumes]
  have hputs : (log ++ [Event.took c x]).flatMap Event.puts = log.flatMap Event.puts := by
    simp [Event.puts]
  rcases c.removes_cases (hnonempty x (by simp)) with ⟨hr, hall⟩ | ⟨hr, hlt, hpart⟩
  · constructor
    · rw [hlength, hputs, hall, Call.leaves, if_pos hr]
      exact unread_remove hne hunread
    · rw [hputs, ← hbytes]
      simp [Event.consumes, Call.leaves, hr, hall]
    · rw [hputs, ← hheads]
      simp [Event.returns, Call.leaves, hr]
    · rw [Call.leaves, if_pos hr]
      exact fun y hy => hnonempty y (by simp [hy])
  · have hleaves : c.leaves x q = { x with buf := x.buf.drop c.eats } :: q := by
      rw [Call.leaves, if_neg (by simp [hr])]
    rw [hleaves]
    constructor
    · rw [hlength, hputs, hpart, List.length_take, Nat.min_eq_left (Nat.le_of_lt hlt)]
      exact unread_eat hunread hlt
    · rw [hputs, ← hbytes]
      simp only [List.flatMap_append, List.flatMap_cons, List.flatMap_nil, Event.consumes, hpart,
        List.append_assoc, List.nil_append]
      rw [← List.append_assoc (List.take _ _), List.take_append_drop]
    · rw [hputs, ← hheads]
      simp [Event.returns, hr]
    · intro y hy
      rcases List.mem_cons.mp hy with rfl | hy
      · simpa using hlt
      · exact hnonempty y (by simp [hy])

/-- A log that can be replayed is one of a queue of bytes, if no buffer pushed is empty. -/
theorem queues_of_replay {log : List Event} (h : replay log = some q)
    (hne : ∀ x ∈ log.flatMap Event.puts, x.buf ≠ []) :
  Queues log q
  := by
  induction log using List.reverseRecOn generalizing q with
  | nil =>
      obtain rfl : [] = q := by simpa [replay] using h
      exact ⟨rfl, rfl, rfl, by simp⟩
  | append_singleton log e ih =>
      rw [replay_append] at h
      obtain ⟨q₀, hq₀, hq⟩ := Option.bind_eq_some_iff.mp h
      have hne₀ : ∀ x ∈ log.flatMap Event.puts, x.buf ≠ [] :=
        fun x hx => hne x (by simp only [List.flatMap_append, List.mem_append]; exact .inl hx)
      have h₀ := ih hq₀ hne₀
      cases e with
      | put x =>
          obtain rfl : q₀ ++ [x] = q := by simpa [Event.apply] using hq
          have hx : x.buf ≠ [] := hne x (by simp [Event.puts])
          have hle : (log.flatMap Event.consumes).length
              ≤ ((log.flatMap Event.puts).flatMap Slot.buf).length := by
            simp [← h₀.bytes]
          constructor
          · rw [← h₀.unread, ← unread_push hle hx]
            simp [Event.puts, Event.consumes]
          · simp [Event.puts, Event.consumes, ← h₀.bytes]
          · simp [Event.puts, Event.returns, ← h₀.heads]
          · intro y hy
            rcases List.mem_append.mp hy with hy | hy
            · exact h₀.nonempty y hy
            · rwa [List.mem_singleton.mp hy]
      | took c x =>
          cases q₀ with
          | nil => simp [Event.apply] at hq
          | cons y q₀ =>
              obtain ⟨rfl, rfl⟩ := Run.guard hq
              exact h₀.took hne₀
      | missed c =>
          cases q₀ with
          | nil =>
              obtain rfl : [] = q := by simpa [Event.apply] using hq
              obtain ⟨hunread, hbytes, hheads, hnonempty⟩ := h₀
              constructor
              · simpa [Event.puts, Event.consumes] using hunread
              · simpa [Event.puts, Event.consumes] using hbytes
              · simpa [Event.puts, Event.returns] using hheads
              · exact hnonempty
          | cons y q₀ => simp [Event.apply] at hq

end Muxocket.RingBuffer
