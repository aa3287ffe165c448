import AeronReplay.System.Schedule

set_option autoImplicit false

/-! # Streams and validity

What a fragment does to the others. Both duplicate filters and gap detection work on the bare
sequence number: not on the publisher or the session, so that two streams meet where their
numbers coincide (`streams_meet_in_numbers`), and not on the outcome of a validation, which is
switched off (`validity_ignored`). -/

namespace AeronReplay.System

open Transition CheckpointManager Pipeline

variable {config : Config} {d₀ d₀' : CheckpointData} {es es' : List (Event poolSize)}
  {s s' : State poolSize}

/-- A run in which no buffer has been missing and all that has arrived has been handled. -/
structure CompleteRun (config : Config) (d₀ : CheckpointData) (es : List (Event poolSize))
    (s : State poolSize) : Prop where
  run : Run (subscriberProcess config d₀) es s
  pool : ∀ f, .allocationFailed f ∉ es
  settled : s.Settled

theorem exists_completeRun (config : Config) (d₀ : CheckpointData) (fs : List Fragment) :
    ∃ es s, CompleteRun config d₀ es s ∧ arrivals es = fs := by
  obtain ⟨es, s, r, hpool, hsettled, hfs⟩ :=
    exists_settled_run (by decide) poolSize_lt (State.start_init config d₀) fs
  exact ⟨es, s, ⟨r, hpool, hsettled⟩, hfs⟩

theorem CompleteRun.fastPath (h : CompleteRun config d₀ es s) :
    Pipeline.fastPath config.toSubscriberConfig (arrivals es)
      = ⟨s.tracking, acceptances es, gaps es⟩ :=
  (settled_run poolSize_lt h.run h.pool h.settled).1

theorem CompleteRun.handlerCalls (h : CompleteRun config d₀ es s) :
    handlerCalls es = processed config.toSubscriberConfig (arrivals es) :=
  (settled_run poolSize_lt h.run h.pool h.settled).2

theorem CompleteRun.tracking (h : CompleteRun config d₀ es s) :
    s.tracking = (Pipeline.fastPath config.toSubscriberConfig (arrivals es)).tracking := by
  rw [h.fastPath]

/-! ## Two streams -/

/-- A message of the stream `mine` whose number is not the initial value of the ring and occurs
nowhere else than in the stream. -/
def Undisputed (mine : Fragment → Bool) (fs : List Fragment) (f : Fragment) : Bool :=
  mine f && decide (f.message_number ≠ -1) &&
    fs.all fun g => mine g || decide (g.sequence_number ≠ f.sequence_number)

variable {mine : Fragment → Bool} {fs : List Fragment}

theorem undisputed_iff {f : Fragment} : Undisputed mine fs f = true ↔
    (mine f = true ∧ f.message_number ≠ -1) ∧
      ∀ g ∈ fs, mine g = true ∨ g.sequence_number ≠ f.sequence_number := by
  simp [Undisputed]

/-- In the whole list an undisputed message of a stream without repeats is fresh. -/
theorem undisputed_fresh
    (hrepeat : (fs.filter mine).Pairwise fun g f => g.sequence_number ≠ f.sequence_number) :
    FreshIn (Undisputed mine fs) fs := by
  rw [List.pairwise_filter] at hrepeat
  refine hrepeat.imp_of_mem fun {g f} hg hf hne hP => ?_
  obtain ⟨⟨hmine, -⟩, hother⟩ := undisputed_iff.mp hP
  rcases hother g hg with hg' | hg'
  · exact hne hg' hmine
  · exact hg'

/-- **Streams meet in their sequence numbers only.** The messages of a stream without repeats
whose numbers the other fragments do not use are handled as if the stream arrived alone, and a
message is dropped only if an earlier one carries its number; the number `-1` is the initial
value of the ring. -/
theorem streams_meet_in_numbers (mine : Fragment → Bool) (h : CompleteRun config d₀ es s)
    (halone : CompleteRun config d₀' es' s') (hstream : arrivals es' = (arrivals es).filter mine)
    (hrepeat : (arrivals es').Pairwise fun g f => g.sequence_number ≠ f.sequence_number) :
    (System.handlerCalls es).filter (Undisputed mine (arrivals es))
      = (System.handlerCalls es').filter (Undisputed mine (arrivals es)) ∧
    ∀ fs f gs, arrivals es = fs ++ f :: gs → f.message_number ≠ -1 →
      (∀ g ∈ fs, g.sequence_number ≠ f.sequence_number) → f ∈ System.handlerCalls es := by
  rw [h.handlerCalls, halone.handlerCalls]
  refine ⟨?_, fun fs f gs hsplit hvalue hfresh => hsplit ▸ mem_processed hvalue hfresh⟩
  have hvalue : ∀ f, Undisputed mine (arrivals es) f = true → f.message_number ≠ -1 :=
    fun f hP => (undisputed_iff.mp hP).1.2
  have hwhole := undisputed_fresh (hstream ▸ hrepeat)
  have hpart : FreshIn (Undisputed mine (arrivals es)) (arrivals es') := by
    rw [hstream]
    exact hwhole.sublist List.filter_sublist
  have hsame : (arrivals es').filter (Undisputed mine (arrivals es))
      = (arrivals es).filter (Undisputed mine (arrivals es)) := by
    rw [hstream, List.filter_filter]
    refine List.filter_congr fun f _ => ?_
    cases hP : Undisputed mine (arrivals es) f with
    | false => rfl
    | true => exact (undisputed_iff.mp hP).1.1
  rw [processed_filter hwhole fun f _ => hvalue f, processed_filter hpart fun f _ => hvalue f,
    hsame]

/-- A message without payload. -/
def bareMessage (publisher_id : UInt16) (sequence_number : UInt64) : Fragment where
  bytes := { MessageHeader.zero with
    magic := .sekr
    version := 1
    sequence_number := sequence_number
    message_length := 64
    publisher_id := publisher_id }.toBytes
  position := 64

set_option maxRecDepth 20000 in
/-- Two publishers with different numbers. -/
theorem streams_meet_in_numbers_disjoint : ∃ es s es' s',
    CompleteRun {} .zero es s ∧ arrivals es = [bareMessage 2 7, bareMessage 1 1] ∧
    CompleteRun {} .zero es' s' ∧ arrivals es' = [bareMessage 1 1] ∧
    (System.handlerCalls es).filter (Undisputed (·.header.publisher_id = 1) (arrivals es))
      = (System.handlerCalls es').filter (Undisputed (·.header.publisher_id = 1) (arrivals es)) ∧
    ∀ fs f gs, arrivals es = fs ++ f :: gs → f.message_number ≠ -1 →
      (∀ g ∈ fs, g.sequence_number ≠ f.sequence_number) → f ∈ System.handlerCalls es := by
  obtain ⟨es, s, h, hes⟩ := exists_completeRun {} .zero [bareMessage 2 7, bareMessage 1 1]
  obtain ⟨es', s', h', hes'⟩ := exists_completeRun {} .zero [bareMessage 1 1]
  have hstream : arrivals es' = (arrivals es).filter (·.header.publisher_id = 1) := by
    rw [hes, hes']
    decide
  have hrepeat : (arrivals es').Pairwise fun g f => g.sequence_number ≠ f.sequence_number := by
    rw [hes']
    exact List.pairwise_singleton _ _
  exact ⟨es, s, es', s', h, hes, h', hes', streams_meet_in_numbers _ h h' hstream hrepeat⟩

set_option maxRecDepth 20000 in
/-- Where two publishers use the same number, the message that arrives second is lost, although
it is handled when it arrives alone. -/
theorem other_publisher_hides_message : ∃ es s es' s',
    CompleteRun {} .zero es s ∧ arrivals es = [bareMessage 1 1, bareMessage 2 1] ∧
    CompleteRun {} .zero es' s' ∧ arrivals es' = [bareMessage 2 1] ∧
    (bareMessage 1 1).header.publisher_id = 1 ∧ (bareMessage 2 1).header.publisher_id = 2 ∧
    (System.handlerCalls es).filter (·.header.publisher_id = 2) = [] ∧
    (System.handlerCalls es').filter (·.header.publisher_id = 2) = [bareMessage 2 1] := by
  obtain ⟨es, s, h, hes⟩ := exists_completeRun {} .zero [bareMessage 1 1, bareMessage 2 1]
  obtain ⟨es', s', h', hes'⟩ := exists_completeRun {} .zero [bareMessage 2 1]
  refine ⟨es, s, es', s', h, hes, h', hes', by decide, by decide, ?_, ?_⟩
  · rw [h.handlerCalls, hes]
    decide
  · rw [h'.handlerCalls, hes']
    decide

/-! ## Valid and invalid fragments -/

/-- **Validity has no influence.** Two lists of fragments with the same sequence numbers are
handled alike, message by message, whether the fragments are valid or not; and inserted
fragments that the fast path drops as duplicates without reporting a gap leave no trace. -/
theorem validity_ignored (h : CompleteRun config d₀ es s) (h' : CompleteRun config d₀' es' s') :
    (∀ zs, SameNumbers zs → arrivals es = zs.map Prod.fst → arrivals es' = zs.map Prod.snd →
      (∃ ws : List (Fragment × Fragment), ws.Sublist zs ∧
        System.handlerCalls es = ws.map Prod.fst ∧ System.handlerCalls es' = ws.map Prod.snd) ∧
      gaps es' = gaps es ∧ s'.tracking = s.tracking) ∧
    (Inserted config.toSubscriberConfig
        (AeronSubscriber.initialTracking config.toSubscriberConfig) (arrivals es) (arrivals es') →
      System.handlerCalls es' = System.handlerCalls es ∧
      gaps es' = gaps es ∧ s'.tracking = s.tracking) := by
  have hgaps : gaps es = (Pipeline.fastPath config.toSubscriberConfig (arrivals es)).gaps := by
    rw [h.fastPath]
  have hgaps' : gaps es' = (Pipeline.fastPath config.toSubscriberConfig (arrivals es')).gaps := by
    rw [h'.fastPath]
  rw [h.handlerCalls, h'.handlerCalls, hgaps, hgaps', h.tracking, h'.tracking]
  refine ⟨fun zs hsame hes hes' => ?_, fun hinserted => ?_⟩
  · rw [hes, hes']
    obtain ⟨ws, -, -, -, htracking, hgaps⟩ := fastPath_same config.toSubscriberConfig hsame
    exact ⟨processed_same config.toSubscriberConfig hsame, hgaps.symm, htracking.symm⟩
  · rw [processed, processed, fastPath_inserted hinserted]
    exact ⟨rfl, rfl, rfl⟩

/-- A header with a sequence number and nothing else. -/
def damaged (sequence_number : UInt64) : Fragment where
  bytes := { MessageHeader.zero with sequence_number := sequence_number }.toBytes
  position := 128

set_option maxRecDepth 20000 in
/-- A damaged repetition of a message. -/
theorem validity_ignored_repetition : ∃ es s es' s',
    CompleteRun {} .zero es s ∧ arrivals es = [bareMessage 1 1] ∧
    CompleteRun {} .zero es' s' ∧ arrivals es' = [bareMessage 1 1, damaged 1] ∧
    (MessageBuffer.fresh.copyFromAeron (damaged 1).bytes).validate = false ∧
    System.handlerCalls es' = System.handlerCalls es ∧ gaps es' = gaps es ∧
    s'.tracking = s.tracking := by
  obtain ⟨es, s, h, hes⟩ := exists_completeRun {} .zero [bareMessage 1 1]
  obtain ⟨es', s', h', hes'⟩ := exists_completeRun {} .zero [bareMessage 1 1, damaged 1]
  refine ⟨es, s, es', s', h, hes, h', hes', by decide, (validity_ignored h h').2 ?_⟩
  rw [hes, hes']
  exact .keep _ (.insert _ ⟨rfl, by decide, fun _ => by decide, fun _ => by decide⟩ (.nil _))

set_option maxRecDepth 20000 in
/-- An empty fragment is not valid, and yet it reaches the handler and sets the number that is
expected next. -/
theorem invalid_fragment_processed : ∃ es s es' s',
    CompleteRun {} .zero es s ∧ arrivals es = [] ∧
    CompleteRun {} .zero es' s' ∧ arrivals es' = [⟨[], 64⟩] ∧
    (MessageBuffer.fresh.copyFromAeron []).validate = false ∧
    System.handlerCalls es = [] ∧ System.handlerCalls es' = [⟨[], 64⟩] ∧
    s.tracking.expected_sequence_ = 0 ∧ s'.tracking.expected_sequence_ = 1 := by
  obtain ⟨es, s, h, hes⟩ := exists_completeRun {} .zero []
  obtain ⟨es', s', h', hes'⟩ := exists_completeRun {} .zero [⟨[], 64⟩]
  refine ⟨es, s, es', s', h, hes, h', hes', by decide, ?_, ?_, ?_, ?_⟩
  · rw [h.handlerCalls, hes]
    decide
  · rw [h'.handlerCalls, hes']
    decide
  · rw [h.tracking, hes]
    decide
  · rw [h'.tracking, hes']
    decide

end AeronReplay.System
