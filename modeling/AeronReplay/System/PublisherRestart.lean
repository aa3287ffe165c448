import AeronReplay.System.AtMostOnce
import AeronReplay.System.EndToEnd

set_option autoImplicit false

/-! # A publisher that is started again

The publish thread counts from 0, so that a publisher that is started again, for the same
subscriber, sends numbers that it has sent before. The subscriber cannot tell the two runs apart:
of the second one it handles exactly the messages whose number has not got through in the first
one (`restarted_unheard`, for the runs that respect `SlotOrder`). A restarted publisher is not heard
until it has come as far as before. -/

namespace AeronReplay

open Transition CheckpointManager AeronPublisher AeronSubscriber

/-! ## The pipeline while nothing is forgotten -/

namespace Pipeline

variable {config : SubscriberConfig} {fs gs : List Fragment} {f : Fragment}

/-- The numbers of the messages. -/
def numbersOf (fs : List Fragment) : List UInt64 := fs.map Fragment.sequence_number

theorem numbersOf_snoc (fs : List Fragment) (f : Fragment) :
    numbersOf (fs ++ [f]) = numbersOf fs ++ [f.sequence_number] := List.map_append

/-- What becomes of one more message on the fast path. -/
theorem accepted_snoc (config : SubscriberConfig) (fs : List Fragment) (f : Fragment) :
    (fastPath config (fs ++ [f])).accepted = (fastPath config fs).accepted ++ [f] ∨
      (fastPath config (fs ++ [f])).accepted = (fastPath config fs).accepted ∧
        f.message_number ∈ (fastPath config fs).tracking.duplicate_buffer_ := by
  rw [fastPath_snoc, FastPathRun.next]
  dsimp only
  split
  · next hdup => exact .inr ⟨rfl, (track_duplicate.mp hdup).2⟩
  · exact .inl rfl

/-- The ring knows only numbers of accepted messages. -/
theorem mem_accepted_of_ring (hvalue : f.message_number ≠ -1)
    (hring : f.message_number ∈ (fastPath config fs).tracking.duplicate_buffer_) :
    f.sequence_number ∈ numbersOf (fastPath config fs).accepted := by
  obtain ⟨g, hg, hnumber⟩ := (mem_ring config fs hring).resolve_left hvalue
  exact List.mem_map.mpr ⟨g, hg, Fragment.sequence_number_of_message_number hnumber⟩

/-- The fast path drops a message only for an accepted one with its number. -/
theorem mem_numbersOf_accepted (hvalue : ∀ f ∈ fs, f.message_number ≠ -1) {n : UInt64} :
    n ∈ numbersOf (fastPath config fs).accepted ↔ n ∈ numbersOf fs := by
  refine ⟨fun h => ((accepted_sublist config fs).map _).subset h, ?_⟩
  induction fs using List.reverseRecOn with
  | nil => exact nofun
  | append_singleton fs f ih =>
      intro hn
      have hold := ih fun g hg => hvalue g (List.mem_append_left _ hg)
      rw [numbersOf_snoc] at hn
      obtain hacc | ⟨hacc, hring⟩ := accepted_snoc config fs f
      · rw [hacc, numbersOf_snoc]
        exact List.mem_append.mpr ((List.mem_append.mp hn).imp_left hold)
      · rw [hacc]
        refine (List.mem_append.mp hn).elim hold fun hlast => ?_
        obtain rfl := List.mem_singleton.mp hlast
        exact mem_accepted_of_ring (hvalue f (by simp)) hring

/-- The worker, while it has not come to its limit. -/
theorem worker_snoc_of_few (hfew : (numbersOf fs).toFinset.card ≤ MessageWorker.seenLimit)
    (f : Fragment) :
    (worker (fs ++ [f])).processed = if f.sequence_number ∈ numbersOf fs
      then (worker fs).processed else (worker fs).processed ++ [f] := by
  have hseen : f.sequence_number ∈ (worker fs).seen_sequences_ ↔
      f.sequence_number ∈ numbersOf fs := by
    rw [(worker_eq_filter fs).1]
    exact Generations.mem_seen_of_few hfew
  rw [worker_snoc, processed_next]
  simp only [hseen]

/-- One more message is processed if its number is new. -/
theorem processed_snoc_of_few (hvalue : ∀ g ∈ fs ++ [f], g.message_number ≠ -1)
    (hfew : (numbersOf fs).toFinset.card ≤ MessageWorker.seenLimit) :
    processed config (fs ++ [f]) = if f.sequence_number ∈ numbersOf fs
      then processed config fs else processed config fs ++ [f] := by
  have hmem : ∀ n, n ∈ numbersOf (fastPath config fs).accepted ↔ n ∈ numbersOf fs := fun n =>
    mem_numbersOf_accepted fun g hg => hvalue g (List.mem_append_left _ hg)
  unfold processed
  obtain hacc | ⟨hacc, hring⟩ := accepted_snoc config fs f
  · have hcard : (numbersOf (fastPath config fs).accepted).toFinset = (numbersOf fs).toFinset := by
      ext n
      rw [List.mem_toFinset, List.mem_toFinset, hmem]
    rw [hacc, worker_snoc_of_few (hcard ▸ hfew)]
    simp only [hmem]
  · rw [hacc, if_pos ((hmem _).mp (mem_accepted_of_ring (hvalue f (by simp)) hring))]

/-- Of messages with different numbers, those are processed whose number has not come before. -/
theorem processed_append_of_few (hvalue : ∀ g ∈ fs ++ gs, g.message_number ≠ -1)
    (hfew : (numbersOf (fs ++ gs)).toFinset.card ≤ MessageWorker.seenLimit)
    (hdistinct : (numbersOf gs).Nodup) :
    processed config (fs ++ gs)
      = processed config fs ++ gs.filter fun g => g.sequence_number ∉ numbersOf fs := by
  induction gs using List.reverseRecOn with
  | nil => simp
  | append_singleton gs g ih =>
      have hsubset : numbersOf (fs ++ gs) ⊆ numbersOf (fs ++ (gs ++ [g])) := by
        rw [← List.append_assoc, numbersOf_snoc]
        exact List.subset_append_left _ _
      have hcard : (numbersOf (fs ++ gs)).toFinset.card ≤ MessageWorker.seenLimit :=
        (Finset.card_le_card fun n hn =>
          List.mem_toFinset.mpr (hsubset (List.mem_toFinset.mp hn))).trans hfew
      rw [numbersOf_snoc, List.nodup_append] at hdistinct
      obtain ⟨hbefore, -, hnew⟩ := hdistinct
      have hold := ih (fun f hf => hvalue f (by simp at hf ⊢; tauto)) hcard hbefore
      rw [← List.append_assoc] at hvalue ⊢
      rw [processed_snoc_of_few hvalue hcard, hold, List.filter_append, List.filter_singleton]
      have hiff : g.sequence_number ∈ numbersOf (fs ++ gs) ↔ g.sequence_number ∈ numbersOf fs := by
        rw [numbersOf, List.map_append, List.mem_append]
        exact or_iff_left fun hmem => hnew _ hmem _ (List.mem_singleton_self _) rfl
      simp only [hiff]
      by_cases hseen : g.sequence_number ∈ numbersOf fs <;> simp [hseen]

end Pipeline

/-! ## Two runs of the publisher -/

namespace System

open Pipeline

variable {config : Config} {d₀ : CheckpointData} {as : List (Accesses.Event poolSize)}
  {a : Accesses.State poolSize} {its its₁ its₂ : List Iteration} {fs gs : List Fragment}

/-- A subscriber at work, and what it has received of a publisher: all of its first run and a part
of its second one, which have not sent more messages than the worker remembers. -/
structure RestartedReception (config : Config) (d₀ : CheckpointData) (its₁ its₂ : List Iteration)
    (fs gs : List Fragment) (as : List (Accesses.Event poolSize)) (a : Accesses.State poolSize) :
    Prop where
  complete : OrderedCompleteRun config d₀ as a
  polls : Accesses.polls as = fs ++ gs
  first : fs.map Fragment.bytes = (PublishThread.run its₁).wire
  second : gs.map Fragment.bytes <:+: (PublishThread.run its₂).wire
  few : its₁.length + its₂.length ≤ MessageWorker.seenLimit

/-- The message with this number has got through. -/
def gotThrough (its : List Iteration) (n : UInt64) : Bool :=
  its[n.toNat]?.any (·.published)

theorem gotThrough_iff {n : UInt64} :
    gotThrough its n = true ↔ ∃ it, its[n.toNat]? = some it ∧ it.published = true := by
  rw [gotThrough, Option.any_eq_true]

/-- The numbers of what the whole wire has brought. -/
theorem mem_numbersOf_wire (hits : its.length < 2 ^ 63)
    (hfs : fs.map Fragment.bytes = (PublishThread.run its).wire) {n : UInt64} :
    n ∈ numbersOf fs ↔ gotThrough its n = true := by
  have hnumbers : fs.map number = wireNumbers its :=
    numbers_eq hits (List.Subset.refl _) (hfs.trans (PublishThread.wire_eq its))
  rw [gotThrough_iff, ← mem_wireNumbers, ← hnumbers, numbersOf, List.mem_map, List.mem_map]
  constructor
  · rintro ⟨f, hf, rfl⟩
    exact ⟨f, hf, rfl⟩
  · rintro ⟨f, hf, hn⟩
    exact ⟨f, hf, UInt64.toNat_inj.mp (Int.ofNat_inj.mp hn)⟩

theorem length_wire_le (its : List Iteration) :
    (PublishThread.run its).wire.length ≤ its.length := by
  have hlength := PublishThread.length_numbers its
  rw [PublishThread.numbers, List.length_map] at hlength
  omega

theorem nodup_numbersOf (h : (fs.map number).Pairwise (· < ·)) : (numbersOf fs).Nodup := by
  refine List.pairwise_map.mpr ((List.pairwise_map.mp h).imp fun {f g} hlt heq => ?_)
  unfold number at hlt
  rw [heq] at hlt
  exact Int.lt_irrefl _ hlt

/-- **A restarted publisher is not heard.** The subscriber handles all of the first run, and of
the second one exactly the messages whose number has not got through in the first. -/
theorem restarted_unheard (h : RestartedReception config d₀ its₁ its₂ fs gs as a) :
    handlerCalls (Accesses.history as)
      = fs ++ gs.filter fun g => !gotThrough its₁ g.sequence_number := by
  have hlimit : MessageWorker.seenLimit < 2 ^ 63 := by decide
  have hfew := h.few
  have hits₁ : its₁.length < 2 ^ 63 := by omega
  have hits₂ : its₂.length < 2 ^ 63 := by omega
  have hfirst : fs.map Fragment.bytes <:+: (PublishThread.run its₁).wire :=
    h.first ▸ List.infix_rfl
  have hlt : ∀ f ∈ fs ++ gs, number f < 2 ^ 63 - 1 := by
    intro f hf
    rcases List.mem_append.mp hf with hf | hf
    · have := (fromPublisher_of_received hits₁ hfirst f hf).number_lt
      omega
    · have := (fromPublisher_of_received hits₂ h.second f hf).number_lt
      omega
  have hnumbers : (numbersOf (fs ++ gs)).toFinset.card ≤ MessageWorker.seenLimit := by
    have hcard : (numbersOf (fs ++ gs)).toFinset.card ≤ fs.length + gs.length := by
      refine (List.toFinset_card_le _).trans_eq ?_
      rw [numbersOf, List.length_map, List.length_append]
    have hfs := hfirst.length_le
    have hgs := h.second.length_le
    have hwire₁ := length_wire_le its₁
    have hwire₂ := length_wire_le its₂
    rw [List.length_map] at hfs hgs
    omega
  rw [h.complete.handlerCalls, h.polls,
    processed_append_of_few (fun f hf => message_number_ne (hlt f hf)) hnumbers
      (nodup_numbersOf (sorted_of_received hits₂ h.second)),
    processed_of_sorted (fun f hf => hlt f (List.mem_append_left _ hf))
      (sorted_of_received hits₁ hfirst)]
  refine congrArg (fs ++ ·) (List.filter_congr fun g _ => ?_)
  simp only [mem_numbersOf_wire hits₁ h.first, Bool.not_eq_true, Bool.decide_eq_false]

/-- The publisher is started again after two messages; only the third message of its second run
is handled. -/
theorem restarted_unheard_third : ∃ fs gs as a,
    RestartedReception {} .zero [offering .position, offering .position]
      [offering .position, offering .position, offering .position] fs gs as a ∧
    gs.map number = [0, 1, 2] ∧
    (handlerCalls (Accesses.history as)).map number = [0, 1, 2] := by
  let its₁ := [offering .position, offering .position]
  let its₂ := [offering .position, offering .position, offering .position]
  let received (its : List Iteration) : List Fragment :=
    (PublishThread.run its).wire.map fun bytes => ⟨bytes, 64⟩
  have hreceived : ∀ its, (received its).map Fragment.bytes = (PublishThread.run its).wire := by
    intro its
    rw [List.map_map]
    exact List.map_id _
  have hnumbers : ∀ its, its.length < 2 ^ 63 → (received its).map number = wireNumbers its :=
    fun its hits => numbers_eq hits (List.Subset.refl _)
      ((hreceived its).trans (PublishThread.wire_eq its))
  obtain ⟨as, a, hcomplete, has⟩ :=
    exists_orderedCompleteRun {} .zero (received its₁ ++ received its₂)
  have h : RestartedReception {} .zero its₁ its₂ (received its₁) (received its₂) as a :=
    ⟨hcomplete, has, hreceived its₁, hreceived its₂ ▸ List.infix_rfl, by decide⟩
  refine ⟨_, _, as, a, h, hnumbers its₂ (by decide), ?_⟩
  have hfilter : (fun g : Fragment => !gotThrough its₁ g.sequence_number)
      = (fun n : Int => !its₁[n.toNat]?.any (·.published)) ∘ number := rfl
  rw [restarted_unheard h, List.map_append, hnumbers its₁ (by decide), hfilter, ← List.filter_map,
    hnumbers its₂ (by decide)]
  decide

end System

end AeronReplay
