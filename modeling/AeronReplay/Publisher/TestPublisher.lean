import AeronReplay.Publisher.Loop
import AeronReplay.Publisher.Process

set_option autoImplicit false

/-! # The test publisher

The loop of `test_message_publisher.cpp`, a second publisher that repeats the publish thread of
`AeronPublisher::run` without the thread and stops when it has sent `message_count` messages.
`testPublisher_agrees`: it puts on the wire what the publish thread would, and so it does not
retry a message, as its comments say, but builds the next one; and it goes through the iterations
up to the first that finds it stopped or done.

Connecting, sleeping and what is printed are left out. -/

namespace AeronReplay.TestPublisher

open AeronPublisher

/-- What an iteration meets: the clock, the signal handler's flag, and the result of the offer. -/
structure Iteration where
  event_time : Int64
  publish_time : Int64
  running : Bool
  result : OfferResult

/-- The variables of `main`, and the messages that have been offered successfully. -/
structure Main where
  sequence_number : UInt64
  sent_count : Int32
  wire : List (List UInt8)

def Main.start : Main := ⟨0, 0, []⟩

/-- The body of the loop. -/
def Main.iterate (p : Main) (it : Iteration) : Main :=
  let sequence_number := p.sequence_number + 1
  let buffer := message p.sequence_number it.event_time it.publish_time
    (payload (sequence_number - 1))
  let p := { p with sequence_number := sequence_number }
  match it.result with
  | .position => { p with
      sent_count := p.sent_count + 1
      wire := p.wire ++ [buffer] }
  -- "retry this message"
  | .BACK_PRESSURED => p
  | .NOT_CONNECTED => p
  | .ADMIN_ACTION => p
  | .MAX_POSITION_EXCEEDED => p
  | .other => p

/-- The loop, and whether it has come to its end. -/
def loop (message_count : Int32) : Main → List Iteration → Bool × Main
  | p, [] => (false, p)
  | p, it :: its =>
    if it.running && p.sent_count < message_count then loop message_count (p.iterate it) its
    else (true, p)

/-- The same iteration of the publish thread of a publisher that is running. -/
def Iteration.toPublisher (it : Iteration) : AeronPublisher.Iteration :=
  ⟨it.event_time, it.publish_time, true, true, it.result⟩

/-- The publish thread after these iterations. -/
def publisher (its : List Iteration) : PublishThread := .run (its.map Iteration.toPublisher)

theorem publisher_snoc (its : List Iteration) (it : Iteration) :
    publisher (its ++ [it]) = (publisher its).iterate it.toPublisher := by
  rw [publisher, List.map_append, List.map_singleton, PublishThread.run_snoc, publisher]

/-- The variables are those of the publish thread. -/
structure Agrees (p : Main) (its : List Iteration) : Prop where
  sequence_number : p.sequence_number = (publisher its).sequence_number
  wire : p.wire = (publisher its).wire
  sent_count : p.sent_count.toInt = p.wire.length

theorem agrees_start : Agrees .start [] := ⟨rfl, rfl, rfl⟩

/-- `sent_count++` below another `int` does not overflow. -/
theorem toInt_succ {n k : Int32} (h : n < k) :
    (n + 1).toInt = n.toInt + 1 ∧ n.toInt + 1 ≤ k.toInt := by
  have hlt := Int32.lt_iff_toInt_lt.mp h
  have hle := k.toInt_lt
  have hge := n.le_toInt
  have hone : (1 : Int32).toInt = 1 := by decide
  refine ⟨?_, hlt⟩
  rw [Int32.toInt_add, hone]
  exact Int.bmod_eq_of_le (by omega) (by omega)

theorem Agrees.iterate {p : Main} {its : List Iteration} {message_count : Int32}
    (h : Agrees p its) (hlt : p.sent_count < message_count) (it : Iteration) :
    Agrees (p.iterate it) (its ++ [it]) ∧
      (p.iterate it).sent_count.toInt ≤ max p.sent_count.toInt message_count.toInt := by
  obtain ⟨event_time, publish_time, running, result⟩ := it
  obtain ⟨hnumber, hwire, hcount⟩ := h
  -- an offer that fails only takes its number
  have hfails : result ≠ .position →
      p.iterate ⟨event_time, publish_time, running, result⟩
        = { p with sequence_number := p.sequence_number + 1 } →
      Agrees (p.iterate ⟨event_time, publish_time, running, result⟩)
        (its ++ [⟨event_time, publish_time, running, result⟩]) ∧
      (p.iterate ⟨event_time, publish_time, running, result⟩).sent_count.toInt
        ≤ max p.sent_count.toInt message_count.toInt := by
    intro hresult heq
    have hnot : (Iteration.toPublisher ⟨event_time, publish_time, running, result⟩).published
        = false := decide_eq_false hresult
    rw [heq]
    refine ⟨⟨?_, ?_, hcount⟩, Int.le_max_left _ _⟩
    · rw [publisher_snoc, PublisherProcess.iterate_of_not_published _ hnot, hnumber]
      rfl
    · rw [publisher_snoc, PublisherProcess.iterate_of_not_published _ hnot]
      exact hwire
  cases result with
  | position =>
      obtain ⟨hsucc, hle⟩ := toInt_succ hlt
      refine ⟨⟨?_, ?_, ?_⟩, ?_⟩
      · rw [publisher_snoc, PublisherProcess.iterate_of_published _ rfl]
        exact congrArg (· + 1) hnumber
      · rw [publisher_snoc, PublisherProcess.iterate_of_published _ rfl]
        show p.wire ++ [message p.sequence_number event_time publish_time _] = _
        rw [hwire, hnumber]
        rfl
      · show (p.sent_count + 1).toInt = ((p.wire ++ [_]).length : Int)
        rw [hsucc, hcount, List.length_append, List.length_singleton]
        omega
      · show (p.sent_count + 1).toInt ≤ _
        rw [hsucc]
        exact Int.le_trans hle (Int.le_max_right _ _)
  | BACK_PRESSURED | NOT_CONNECTED | ADMIN_ACTION | MAX_POSITION_EXCEEDED | other =>
      exact hfails nofun rfl

/-- Each of these iterations was entered while running and with fewer than `message_count`
messages sent, after those before. -/
def Entered (message_count : Int32) (before taken : List Iteration) : Prop :=
  ∀ first it later, taken = first ++ it :: later →
    it.running = true ∧
      ((publisher (before ++ first)).wire.length : Int) < message_count.toInt

theorem Entered.nil (message_count : Int32) (before : List Iteration) :
    Entered message_count before [] := Transition.forall_split_nil

theorem Entered.cons {message_count : Int32} {before taken : List Iteration} {it : Iteration}
    (hrunning : it.running = true)
    (hlt : ((publisher before).wire.length : Int) < message_count.toInt)
    (h : Entered message_count (before ++ [it]) taken) :
    Entered message_count before (it :: taken) := by
  apply Transition.forall_split_cons
  · rw [List.append_nil]
    exact ⟨hrunning, hlt⟩
  · intro first x later heq
    have hthere := h first x later heq
    rwa [List.append_assoc] at hthere

/-- The iteration at which the loop ends: it is not running, or `message_count` messages have been
sent. -/
def EndsAt (message_count : Int32) (taken rest : List Iteration) : Prop :=
  ∃ it later, rest = it :: later ∧
    (it.running = false ∨
      message_count.toInt ≤ ((publisher taken).wire.length : Int))

/-- What a loop does that has gone through some iterations before. -/
theorem loop_agrees (message_count : Int32) {p : Main} {before its : List Iteration}
    (h : Agrees p before) (hle : p.sent_count.toInt ≤ max 0 message_count.toInt) :
    ∃ taken rest, its = taken ++ rest ∧
      Agrees (loop message_count p its).2 (before ++ taken) ∧
      (loop message_count p its).2.sent_count.toInt ≤ max 0 message_count.toInt ∧
      Entered message_count before taken ∧
      ((loop message_count p its).1 = false → rest = []) ∧
      ((loop message_count p its).1 = true → EndsAt message_count (before ++ taken) rest) := by
  induction its generalizing p before with
  | nil =>
      refine ⟨[], [], rfl, ?_, hle, Entered.nil message_count before, fun _ => rfl, nofun⟩
      rw [List.append_nil]
      exact h
  | cons it its ih =>
      have hsent : p.sent_count.toInt = ((publisher before).wire.length : Int) := by
        rw [h.sent_count, h.wire]
      unfold loop
      cases hgo : it.running && decide (p.sent_count < message_count) with
      | false =>
          rw [if_neg (by simp)]
          refine ⟨[], it :: its, rfl, ?_, hle, Entered.nil message_count before, nofun, ?_⟩
          · rw [List.append_nil]
            exact h
          · intro _
            refine ⟨it, its, rfl, ?_⟩
            rw [Bool.and_eq_false_iff, decide_eq_false_iff_not, Int32.lt_iff_toInt_lt] at hgo
            rw [List.append_nil, ← hsent]
            exact hgo.imp_right Int.not_lt.mp
      | true =>
          rw [if_pos rfl]
          rw [Bool.and_eq_true, decide_eq_true_eq] at hgo
          obtain ⟨hrunning, hlt⟩ := hgo
          obtain ⟨hnext, hbound⟩ := h.iterate hlt it
          obtain ⟨taken, rest, hsplit, hagrees, hle', hentered, hopen, hended⟩ :=
            ih hnext (by omega)
          rw [Int32.lt_iff_toInt_lt, hsent] at hlt
          rw [List.append_assoc] at hagrees hended
          exact ⟨it :: taken, rest, congrArg (it :: ·) hsplit, hagrees, hle',
            Entered.cons hrunning hlt hentered, hopen, hended⟩

/-- **The test publisher agrees with the publisher.** Whatever its offers meet, what it has put on
the wire is what the publish thread of the publisher puts there in the iterations it goes through,
so that a message whose offer fails is never sent again. It enters an iteration only while it is
running and has sent fewer than `message_count` messages, and ends by itself exactly at the first
iteration where this is not so: it never sends more than `message_count`. -/
theorem testPublisher_agrees (message_count : Int32) (its : List Iteration) :
    ∃ taken rest, its = taken ++ rest ∧
      (loop message_count .start its).2.wire = (publisher taken).wire ∧
      ((loop message_count .start its).2.wire.length : Int) ≤ max 0 message_count.toInt ∧
      (∀ first it later, taken = first ++ it :: later →
        it.running = true ∧ ((publisher first).wire.length : Int) < message_count.toInt) ∧
      ((loop message_count .start its).1 = false ↔ rest = []) ∧
      ((loop message_count .start its).1 = true ↔ ∃ it later, rest = it :: later ∧
        (it.running = false ∨
          ((publisher taken).wire.length : Int) = max 0 message_count.toInt)) := by
  obtain ⟨taken, rest, hsplit, hagrees, hle, hentered, hopen, hended⟩ :=
    loop_agrees message_count agrees_start (Int.le_max_left 0 message_count.toInt)
  rw [List.nil_append] at hagrees hended
  have hcount := hagrees.sent_count
  have hwire := hagrees.wire
  have hnotEnded : rest = [] → (loop message_count .start its).1 = false := by
    intro hrest
    apply Bool.eq_false_iff.mpr
    intro htrue
    obtain ⟨it, later, hcons, -⟩ := hended htrue
    rw [hrest] at hcons
    cases hcons
  refine ⟨taken, rest, hsplit, hwire, by omega, hentered, ⟨hopen, hnotEnded⟩, ?_, ?_⟩
  · intro htrue
    obtain ⟨it, later, hrest, hstop⟩ := hended htrue
    refine ⟨it, later, hrest, ?_⟩
    rw [← hwire] at hstop ⊢
    apply hstop.imp_right
    omega
  · rintro ⟨it, later, hrest, -⟩
    by_contra hnot
    have hnil := hopen (Bool.eq_false_iff.mpr hnot)
    rw [hrest] at hnil
    cases hnil

end AeronReplay.TestPublisher
