import AeronReplay.Lib.Transition
import AeronReplay.Publisher.WireFormat
import Mathlib.Data.List.Induction

set_option autoImplicit false

/-! # The publishing loop

The publish thread of `AeronPublisher::run` and `AeronPublisher::publish`
(`AeronPublisher.cpp`). Every iteration builds a message with the next sequence number and
offers it once; whether the offer succeeds is decided elsewhere. `wire_consecutive_iff` says
when the numbers of the messages that get through are consecutive.

What is printed is left out. -/

namespace AeronReplay.AeronPublisher

/-! ## The loop -/

/-- What `publication_->offer` returns: a new stream position, which is positive, or an error. -/
inductive OfferResult where
  | position
  | BACK_PRESSURED
  | NOT_CONNECTED
  | ADMIN_ACTION
  | MAX_POSITION_EXCEEDED
  | other
  deriving DecidableEq

/-- What an iteration meets: the clock, the members that `publish` tests, which another thread
may change, and the result of the offer. -/
structure Iteration where
  event_time : Int64
  publish_time : Int64
  running_ : Bool
  publication_ : Bool
  result : OfferResult

/-- The publish thread: its counter, the publisher's counter, and, not in the program, the
messages that have been offered successfully, the first one first. -/
structure PublishThread where
  sequence_number : UInt64
  message_count_ : Int64
  wire : List (List UInt8)

/-- `publish`, with the new value of `message_count_`. -/
def publish (message_count_ : Int64) (it : Iteration) : Bool × Int64 :=
  if !it.running_ || !it.publication_ then (false, message_count_)
  else
    match it.result with
    | .position => (true, message_count_ + 1)
    | .BACK_PRESSURED => (false, message_count_)
    | .NOT_CONNECTED => (false, message_count_)
    | .ADMIN_ACTION => (false, message_count_)
    | .MAX_POSITION_EXCEEDED => (false, message_count_)
    | .other => (false, message_count_)

/-- What `snprintf` writes; at most 51 characters, so that the buffer is large enough. -/
def payload (n : UInt64) : List UInt8 :=
  ("Test message " ++ toString n.toNat ++ " from Publisher").toUTF8.toList

namespace PublishThread

def start : PublishThread := ⟨0, 0, []⟩

/-- One iteration. The counter is advanced while the message is built. -/
def iterate (p : PublishThread) (it : Iteration) : PublishThread :=
  let sequence_number := p.sequence_number + 1
  let buffer := message p.sequence_number it.event_time it.publish_time
    (payload (sequence_number - 1))
  let (published, message_count_) := publish p.message_count_ it
  { sequence_number := sequence_number
    message_count_ := message_count_
    wire := if published then p.wire ++ [buffer] else p.wire }

/-- The thread after these iterations. -/
def run (its : List Iteration) : PublishThread := its.foldl iterate start

/-- The sequence numbers in the headers on the wire. -/
def numbers (p : PublishThread) : List UInt64 :=
  p.wire.map fun bytes => (MessageHeader.ofBytes bytes).sequence_number

end PublishThread

/-- The message of the iteration gets through. -/
def Iteration.published (it : Iteration) : Bool :=
  it.running_ && it.publication_ && it.result = .position

/-! ## One iteration -/

namespace PublishThread

theorem run_snoc (its : List Iteration) (it : Iteration) :
    run (its ++ [it]) = (run its).iterate it :=
  List.foldl_append

theorem publish_eq (message_count_ : Int64) (it : Iteration) :
    (publish message_count_ it).1 = it.published := by
  unfold publish Iteration.published
  obtain ⟨_, _, running_, publication_, result⟩ := it
  cases running_ <;> cases publication_ <;> cases result <;> rfl

theorem message_sequence_number (n : UInt64) (event_time publish_time : Int64)
    (payload : List UInt8) :
    (MessageHeader.ofBytes (message n event_time publish_time payload)).sequence_number = n := by
  rw [message, MessageHeader.ofBytes_toBytes]
  rfl

/-- Every iteration takes a number, whether its offer succeeds or not. -/
theorem run_sequence_number (its : List Iteration) :
    (run its).sequence_number = .ofNat its.length := by
  induction its using List.reverseRecOn with
  | nil => rfl
  | append_singleton its it ih =>
      rw [run_snoc, List.length_append, List.length_singleton, UInt64.ofNat_add, ← ih]
      rfl

theorem numbers_snoc (its : List Iteration) (it : Iteration) :
    (run (its ++ [it])).numbers
      = if it.published then (run its).numbers ++ [.ofNat its.length] else (run its).numbers := by
  rw [run_snoc, ← publish_eq (run its).message_count_]
  unfold iterate numbers
  dsimp only
  split
  · rw [List.map_append, List.map_singleton, message_sequence_number, run_sequence_number]
  · rfl

/-- Every iteration is on the wire or has failed. -/
theorem length_numbers (its : List Iteration) :
    (run its).numbers.length + its.countP (!·.published) = its.length := by
  induction its using List.reverseRecOn with
  | nil => rfl
  | append_singleton its it ih =>
      rw [numbers_snoc, List.countP_append, List.length_append, List.length_singleton, ← ih]
      cases hit : it.published with
      | true => simp [hit]; omega
      | false => simp [hit]; omega

/-! ## The numbers on the wire -/

/-- The numbers on the wire are consecutive and begin at 0. -/
def Consecutive (p : PublishThread) : Prop :=
  p.numbers = (List.range p.numbers.length).map UInt64.ofNat

theorem ofNat_add_eq_iff (k n : Nat) :
    UInt64.ofNat (k + n) = UInt64.ofNat k ↔ 2 ^ 64 ∣ n := by
  rw [← UInt64.toNat_inj, UInt64.toNat_ofNat', UInt64.toNat_ofNat']
  omega

/-- A published message continues the sequence if the failures before it do not show. -/
theorem consecutive_snoc (its : List Iteration) (it : Iteration) :
    (run (its ++ [it])).Consecutive ↔
      (run its).Consecutive ∧ (it.published = true → 2 ^ 64 ∣ its.countP (!·.published)) := by
  unfold Consecutive
  rw [numbers_snoc]
  cases hit : it.published with
  | false => simp
  | true =>
      -- the message carries the number of its iteration, the sequence asks for that of the message
      have hnext : UInt64.ofNat its.length = UInt64.ofNat (run its).numbers.length ↔
          2 ^ 64 ∣ its.countP (!·.published) := by
        rw [← length_numbers]
        exact ofNat_add_eq_iff _ _
      rw [if_pos rfl, List.length_append, List.length_singleton, List.range_succ, List.map_append,
        List.map_singleton, ← hnext]
      constructor
      · intro h
        obtain ⟨hbefore, hlast⟩ := List.append_inj' h rfl
        exact ⟨hbefore, fun _ => (List.cons.inj hlast).1⟩
      · rintro ⟨hbefore, hlast⟩
        rw [← hbefore, hlast rfl]

/-- **When the wire has no gaps.** The numbers on the wire are consecutive from 0 exactly when
before every published message the number of failed iterations is a multiple of `2 ^ 64`, which
in practice is none; and the failed iterations leave the counter alone exactly when there are
none. -/
theorem wire_consecutive_iff (its : List Iteration) :
    ((run its).Consecutive ↔ ∀ xs it ys, its = xs ++ it :: ys → it.published = true →
      2 ^ 64 ∣ xs.countP (!·.published)) ∧
    ((∀ xs it ys, its = xs ++ it :: ys → it.published = false →
        (run (xs ++ [it])).sequence_number = (run xs).sequence_number) ↔
      ∀ it ∈ its, it.published = true) := by
  constructor
  · induction its using List.reverseRecOn with
    | nil => exact iff_of_true rfl fun xs it ys h => by simp at h
    | append_singleton its it ih => rw [consecutive_snoc, ih, Transition.forall_split_snoc]
  · constructor
    · intro h it hit
      obtain ⟨xs, ys, hsplit⟩ := List.append_of_mem hit
      by_contra hfailed
      have hsame := h xs it ys hsplit (Bool.eq_false_iff.mpr hfailed)
      rw [run_snoc] at hsame
      exact absurd (UInt64.add_eq_left.mp hsame) (by decide)
    · intro h xs it ys hsplit hfailed
      rw [h it (by rw [hsplit]; simp)] at hfailed
      cases hfailed

/-- The first offer finds no subscriber. Its number 0 never gets on the wire. -/
theorem rejected_offer_takes_number :
    ¬ (run [⟨0, 0, true, true, .NOT_CONNECTED⟩, ⟨0, 0, true, true, .position⟩]).Consecutive := by
  have hsplit : [(⟨0, 0, true, true, .NOT_CONNECTED⟩ : Iteration), ⟨0, 0, true, true, .position⟩]
      = [⟨0, 0, true, true, .NOT_CONNECTED⟩] ++ [⟨0, 0, true, true, .position⟩] := rfl
  rw [hsplit, consecutive_snoc]
  rintro ⟨-, hfailed⟩
  exact absurd (hfailed rfl) (by decide)

/-! ## The messages on the wire -/

/-- The iterations whose messages have got through, each with its number. -/
def sent (its : List Iteration) : List (Iteration × Nat) :=
  its.zipIdx.filter (·.1.published)

/-- The message an iteration builds. -/
def messageOf (i : Iteration × Nat) : List UInt8 :=
  message (.ofNat i.2) i.1.event_time i.1.publish_time (payload (.ofNat i.2))

theorem sent_snoc (its : List Iteration) (it : Iteration) :
    sent (its ++ [it]) = sent its ++ if it.published then [(it, its.length)] else [] := by
  rw [sent, List.zipIdx_append, List.filter_append, Nat.zero_add, List.zipIdx_singleton, sent]
  cases hit : it.published <;> simp [hit]

/-- The wire has the messages of the iterations that have got through. -/
theorem wire_eq (its : List Iteration) : (run its).wire = (sent its).map messageOf := by
  induction its using List.reverseRecOn with
  | nil => rfl
  | append_singleton its it ih =>
      have hwire : (run (its ++ [it])).wire = if it.published then
          (run its).wire ++ [messageOf (it, its.length)] else (run its).wire := by
        rw [run_snoc, ← publish_eq (run its).message_count_, messageOf,
          ← run_sequence_number its]
        unfold iterate
        dsimp only
        rw [UInt64.add_sub_cancel]
      rw [hwire, sent_snoc, List.map_append, ← ih]
      cases it.published with
      | true => rfl
      | false => exact (List.append_nil _).symm

theorem mem_sent {its : List Iteration} {it : Iteration} {i : Nat} :
    (it, i) ∈ sent its ↔ its[i]? = some it ∧ it.published = true := by
  rw [sent, List.mem_filter, List.mem_zipIdx_iff_getElem?]

/-- The numbers on the wire increase. -/
theorem sent_sorted (its : List Iteration) :
    (sent its).Pairwise fun i j => i.2 < j.2 := by
  refine List.Pairwise.filter _ ?_
  have hrange : (its.zipIdx.map Prod.snd).Pairwise (· < ·) := by
    rw [List.zipIdx_map_snd]
    exact List.pairwise_lt_range'
  exact List.pairwise_map.mp hrange

end PublishThread

end AeronReplay.AeronPublisher
