import AeronReplay.Queue.Interleaving

set_option autoImplicit false

/-! # The calls of the queue as single steps

`interleaving_simulates` compares the accesses of producer and consumer with a list. Here they are
compared with the queue itself, on which `enqueue` and `dequeue` are made in one step. The two
memories agree but for the slots that a call in progress has already written (`Refined`): a producer
writes its slot before it stores `tail_`, a consumer clears its slot before it stores `head_`. Every
access leaves the second queue alone but for the one at which the call takes effect, which is the
whole call; between calls the two are the same (`Refined.eq_mem`). -/

namespace AeronReplay.RingQueue

open Transition

variable {N : Ring.Size} {α : Type} {K : QueueClass N α}

/-! ## The accesses of a call -/

/-- One access of `enqueue(item)`, with what it shows. -/
inductive EnqueueStep (K : QueueClass N α) (item : α) :
    RingQueue α → ProducerPc α → List (Fifo.Event α) → RingQueue α → ProducerPc α → Prop
  | loadTail {q : RingQueue α} (hr : K.refuses item = false) :
      EnqueueStep K item q .idle [] q (.loadedTail item q.tail_)
  | loadHeadFull {q : RingQueue α} {current_tail : Nat}
      (hfull : increment N current_tail = q.head_) :
      EnqueueStep K item q (.loadedTail item current_tail) [.full] q .idle
  | loadHead {q : RingQueue α} {current_tail : Nat}
      (hfull : increment N current_tail ≠ q.head_) :
      EnqueueStep K item q (.loadedTail item current_tail) [] q (.loadedHead item current_tail)
  | writeSlot {q : RingQueue α} {current_tail : Nat} :
      EnqueueStep K item q (.loadedHead item current_tail) []
        { q with buffer_ := Function.update q.buffer_ current_tail item }
        (.wroteSlot item current_tail)
  | storeTail {q : RingQueue α} {current_tail : Nat} :
      EnqueueStep K item q (.wroteSlot item current_tail) [.enq item]
        { q with tail_ := increment N current_tail } .idle

/-- One access of `dequeue`. -/
inductive DequeueStep (K : QueueClass N α) :
    RingQueue α → ConsumerPc α → List (Fifo.Event α) → RingQueue α → ConsumerPc α → Prop
  | loadHead {q : RingQueue α} : DequeueStep K q .idle [] q (.loadedHead q.head_)
  | loadTailEmpty {q : RingQueue α} {current_head : Nat} (hempty : current_head = q.tail_) :
      DequeueStep K q (.loadedHead current_head) [.empty] q .idle
  | loadTail {q : RingQueue α} {current_head : Nat} (hempty : current_head ≠ q.tail_) :
      DequeueStep K q (.loadedHead current_head) [] q (.loadedTail current_head)
  | readSlot {q : RingQueue α} {current_head : Nat} :
      DequeueStep K q (.loadedTail current_head) [] q
        (.readSlot current_head (q.buffer_ current_head))
  | clearSlot {q : RingQueue α} {current_head : Nat} {buf c : α} (hclear : K.clear = some c) :
      DequeueStep K q (.readSlot current_head buf) []
        { q with buffer_ := Function.update q.buffer_ current_head c }
        (.clearedSlot current_head buf)
  | storeHead {q : RingQueue α} {current_head : Nat} {buf : α} (hclear : K.clear = none) :
      DequeueStep K q (.readSlot current_head buf) [.deq buf]
        { q with head_ := increment N current_head } .idle
  | storeHeadCleared {q : RingQueue α} {current_head : Nat} {buf : α} :
      DequeueStep K q (.clearedSlot current_head buf) [.deq buf]
        { q with head_ := increment N current_head } .idle

/-- One access of the consumer's `size`. -/
inductive SizeStep (K : QueueClass N α) (q : RingQueue α) :
    ConsumerPc α → List (Fifo.Event α) → ConsumerPc α → Prop
  | loadHead : SizeStep K q .idle [] (.sizeLoadedHead q.head_)
  | loadTail {current_head : Nat} :
      SizeStep K q (.sizeLoadedHead current_head) [.size (K.size current_head q.tail_)] .idle

section

variable {q q' : RingQueue α} {e : List (Fifo.Event α)}

theorem EnqueueStep.step {item : α} {pc pc' : ProducerPc α}
    (h : EnqueueStep K item q pc e q' pc') (c : ConsumerPc α) :
    Step K ⟨q, pc, c⟩ e ⟨q', pc', c⟩ := by
  cases h with
  | loadTail hr => exact .loadTail rfl hr
  | loadHeadFull hfull => exact .loadHeadFull rfl hfull
  | loadHead hfull => exact .loadHead rfl hfull
  | writeSlot => exact .writeSlot rfl
  | storeTail => exact .storeTail rfl

theorem DequeueStep.step {pc pc' : ConsumerPc α} (h : DequeueStep K q pc e q' pc')
    (p : ProducerPc α) : Step K ⟨q, p, pc⟩ e ⟨q', p, pc'⟩ := by
  cases h with
  | loadHead => exact .loadHeadToDequeue rfl
  | loadTailEmpty hempty => exact .loadTailEmpty rfl hempty
  | loadTail hempty => exact .loadTailToDequeue rfl hempty
  | readSlot => exact .readSlot rfl
  | clearSlot hclear => exact .clearSlot rfl hclear
  | storeHead hclear => exact .storeHead rfl hclear
  | storeHeadCleared => exact .storeHeadCleared rfl

theorem SizeStep.step {pc pc' : ConsumerPc α} (h : SizeStep K q pc e pc') (p : ProducerPc α) :
    Step K ⟨q, p, pc⟩ e ⟨q, p, pc'⟩ := by
  cases h with
  | loadHead => exact .loadHeadToSize rfl
  | loadTail => exact .loadTailToSize rfl

end

/-! ## Two queues -/

/-- The slots of the queue that producer and consumer are working on are those of `buffer`, but for
the ones that a call in progress has written. -/
structure Agrees (K : QueueClass N α) (c : State α) (buffer : Nat → α) : Prop where
  slots : ∀ i, (∀ item, c.producer ≠ .wroteSlot item i) → (∀ a, c.consumer ≠ .clearedSlot i a) →
    c.mem.buffer_ i = buffer i
  clear : ∀ i a, c.consumer = .clearedSlot i a → K.clear = some (c.mem.buffer_ i)

/-- The queue `q`, as it is between calls, and the queue that producer and consumer are working on
store the list `l` at the same place. -/
structure Refined (K : QueueClass N α) (c : State α) (q : RingQueue α) (l : List α) : Prop where
  represents : Represents K c l
  stores : Stores N q l
  head : q.head_ = c.mem.head_
  tail : q.tail_ = c.mem.tail_
  agrees : Agrees K c q.buffer_

variable {c c' : State α} {q : RingQueue α} {l : List α} {buffer : Nat → α}

theorem refined_init (h : (interleaving K).Init c) : Refined K c c.mem [] := by
  obtain ⟨l, hl, hrep⟩ := (interleaving_simulates K).init c h
  obtain rfl : l = [] := hl
  obtain ⟨-, -, hp, hc⟩ := h
  refine ⟨hrep, hrep.stores_mem (by simp [hc]), rfl, rfl, fun _ _ _ => rfl, fun i a hcleared => ?_⟩
  cases hc.symm.trans hcleared

/-- **Between calls the two queues are the same.** -/
theorem Refined.eq_mem (h : Refined K c q l) (hp : c.producer = .idle) (hc : c.consumer = .idle) :
    q = c.mem := by
  have hslots : c.mem.buffer_ = q.buffer_ :=
    funext fun i => h.agrees.slots i (by simp [hp]) (by simp [hc])
  have hhead := h.head
  have htail := h.tail
  obtain ⟨buffer, head, tail⟩ := q
  obtain ⟨⟨buffer', head', tail'⟩, p, pc⟩ := c
  obtain rfl : buffer' = buffer := hslots
  obtain rfl : head = head' := hhead
  obtain rfl : tail = tail' := htail
  rfl

/-! ## What an access does to the slots -/

/-- The producer goes from one place to another without writing. -/
theorem Agrees.produce (h : Agrees K c buffer) (hp : ∀ item i, c.producer ≠ .wroteSlot item i)
    (p : ProducerPc α) : Agrees K { c with producer := p } buffer :=
  ⟨fun i _ hc => h.slots i (fun item => hp item i) hc, h.clear⟩

/-- The consumer goes from one place to another without writing. -/
theorem Agrees.consume (h : Agrees K c buffer) (hc : ∀ i a, c.consumer ≠ .clearedSlot i a)
    {pc : ConsumerPc α} (hpc : ∀ i a, pc ≠ .clearedSlot i a) :
    Agrees K { c with consumer := pc } buffer :=
  ⟨fun i hp _ => h.slots i hp (hc i), fun i a hcleared => absurd hcleared (hpc i a)⟩

/-- The slot that the producer writes is not the one that the consumer is clearing. -/
theorem Agrees.writeSlot (h : Agrees K c buffer) (hrep : Represents K c l) {item : α} {t : Nat}
    (hp : c.producer = .loadedHead item t) :
    Agrees K { c with
      mem := { c.mem with buffer_ := Function.update c.mem.buffer_ t item }
      producer := .wroteSlot item t } buffer := by
  refine ⟨fun i hwrote hcleared => ?_, fun i a hcleared => ?_⟩
  · have hne : i ≠ t := fun heq => hwrote item (by rw [heq])
    show Function.update c.mem.buffer_ t item i = _
    rw [Function.update_of_ne hne]
    exact h.slots i (by simp [hp]) hcleared
  · have hknows := hrep.consumer
    rw [show c.consumer = _ from hcleared] at hknows
    obtain ⟨rfl, l', rfl⟩ := hknows
    have htail := hrep.producer
    rw [hp] at htail
    have hne : c.mem.head_ ≠ t := by
      have := hrep.stores.tail_ne_head (by simp)
      rw [restored_tail, restored_head, ← htail.1] at this
      exact Ne.symm this
    show K.clear = some (Function.update c.mem.buffer_ t item c.mem.head_)
    rw [Function.update_of_ne hne]
    exact h.clear _ a hcleared

theorem Agrees.clearSlot (h : Agrees K c buffer) {i : Nat} {a b : α}
    (hc : c.consumer = .readSlot i a) (hclear : K.clear = some b) :
    Agrees K { c with
      mem := { c.mem with buffer_ := Function.update c.mem.buffer_ i b }
      consumer := .clearedSlot i a } buffer := by
  refine ⟨fun j hwrote hcleared => ?_, fun j a' hcleared => ?_⟩
  · have hne : j ≠ i := fun heq => hcleared a (by rw [heq])
    show Function.update c.mem.buffer_ i b j = _
    rw [Function.update_of_ne hne]
    exact h.slots j hwrote (by simp [hc])
  · cases hcleared
    show K.clear = some (Function.update c.mem.buffer_ i b i)
    rw [Function.update_self]
    exact hclear

/-- The slot that the producer has written is the one that `enqueue` writes. -/
theorem Agrees.storeTail (h : Agrees K c buffer) {item : α} {t t' : Nat}
    (hp : c.producer = .wroteSlot item t) (hslot : c.mem.buffer_ t = item) :
    Agrees K { c with
      mem := { c.mem with tail_ := t' }
      producer := .idle } (Function.update buffer t item) := by
  refine ⟨fun i _ hcleared => ?_, h.clear⟩
  by_cases heq : i = t
  · rw [heq, Function.update_self]
    exact hslot
  · rw [Function.update_of_ne heq]
    refine h.slots i (fun item' hwrote => heq ?_) hcleared
    rw [hp] at hwrote
    cases hwrote
    rfl

/-- The slot that the consumer has cleared is the one that `dequeue` clears. -/
theorem Agrees.storeHead (h : Agrees K c buffer) {i head : Nat} {a : α}
    (hc : c.consumer = .readSlot i a ∧ K.clear = none ∨ c.consumer = .clearedSlot i a) :
    Agrees K { c with
      mem := { c.mem with head_ := head }
      consumer := .idle } (cleared K buffer i) := by
  refine ⟨fun j hwrote _ => ?_, fun j a' hcleared => (by cases hcleared)⟩
  rcases hc with ⟨hc, hclear⟩ | hc
  · rw [cleared, hclear]
    exact h.slots j hwrote (by simp [hc])
  · rw [cleared, h.clear i a hc]
    show c.mem.buffer_ j = Function.update buffer i (c.mem.buffer_ i) j
    by_cases heq : j = i
    · rw [heq, Function.update_self]
    · rw [Function.update_of_ne heq]
      refine h.slots j hwrote fun a' hcleared => heq ?_
      rw [hc] at hcleared
      cases hcleared
      rfl

/-! ## What an access does to the queue -/

/-- What the list does when an access shows something, or nothing. -/
theorem Refined.fifo (h : Refined K c q l) {e : List (Fifo.Event α)} (hstep : Step K c e c') :
    ∃ l', Represents K c' l' ∧ (Fifo.Step (N.val - 1) l e l' ∨ e = [] ∧ l' = l) := by
  obtain ⟨l', hl', h'⟩ := (interleaving_simulates K).step _ _ _ _ h.represents hstep
  rw [List.filterMap_some] at h'
  exact ⟨l', hl', h'⟩

/-- An access that shows nothing does nothing. -/
theorem Refined.silent (h : Refined K c q l) (hstep : Step K c [] c') : Refined K c' q l := by
  obtain ⟨l', hl', hfifo | ⟨-, rfl⟩⟩ := h.fifo hstep
  · cases hfifo
  have hsame : c'.mem.head_ = c.mem.head_ ∧ c'.mem.tail_ = c.mem.tail_ ∧
      Agrees K c' q.buffer_ := by
    generalize he : ([] : List (Fifo.Event α)) = e at hstep
    cases hstep with
    | loadHeadFull | storeTail | loadTailEmpty | storeHead | storeHeadCleared
      | loadTailToSize => cases he
    | refuse => exact ⟨rfl, rfl, h.agrees⟩
    | loadTail hp | loadHead hp => exact ⟨rfl, rfl, h.agrees.produce (by simp [hp]) _⟩
    | writeSlot hp => exact ⟨rfl, rfl, h.agrees.writeSlot h.represents hp⟩
    | loadHeadToDequeue hc | loadTailToDequeue hc | readSlot hc | loadHeadToSize hc =>
        exact ⟨rfl, rfl, h.agrees.consume (by simp [hc]) (by simp)⟩
    | clearSlot hc hclear => exact ⟨rfl, rfl, h.agrees.clearSlot hc hclear⟩
  obtain ⟨hhead, htail, hagrees⟩ := hsame
  exact ⟨hl', h.stores, h.head.trans hhead.symm, h.tail.trans htail.symm, hagrees⟩

/-- **Storing `tail_` is the whole call of `enqueue`.** -/
theorem Refined.enq (h : Refined K c q l) {a : α} (hstep : Step K c [.enq a] c') :
    (enqueue K q a).1 = true ∧ Refined K c' (enqueue K q a).2 (l ++ [a]) := by
  obtain ⟨l', hl', hfifo | ⟨hnil, -⟩⟩ := h.fifo hstep
  swap
  · cases hnil
  cases hfifo with
  | enq _ hroom =>
      have hitem := h.represents.item
      have hcur := h.represents.producer
      have hstored : K.refuses a = false ∧ c'.mem.head_ = c.mem.head_ ∧
          c'.mem.tail_ = increment N c.mem.tail_ ∧
          Agrees K c' (Function.update q.buffer_ c.mem.tail_ a) := by
        generalize he : [Fifo.Event.enq a] = e at hstep
        cases hstep with
        | storeTail hp =>
            cases he
            rw [hp] at hitem hcur
            obtain ⟨rfl, -, hslot⟩ := hcur
            exact ⟨hitem, rfl, rfl, h.agrees.storeTail hp hslot⟩
        | _ => cases he
      obtain ⟨hrefuses, hhead, htail, hagrees⟩ := hstored
      obtain ⟨-, hok, hstores⟩ | ⟨hfull, -⟩ := enqueue_spec K h.stores hrefuses
      · have hne : increment N q.tail_ ≠ q.head_ := fun heq => by
          have := h.stores.full_iff.mp heq
          omega
        have heq : (enqueue K q a).2 = { q with
            buffer_ := Function.update q.buffer_ q.tail_ a
            tail_ := increment N q.tail_ } := by
          simp [enqueue, hrefuses, hne]
        refine ⟨hok, hl', hstores, ?_, ?_, ?_⟩
        · rw [heq, hhead]
          exact h.head
        · rw [heq, htail, ← h.tail]
        · rw [heq, h.tail]
          exact hagrees
      · omega

/-- `enqueue` is refused when it loads `head_`. -/
theorem Refined.full (h : Refined K c q l) (hstep : Step K c [.full] c') :
    l.length = N.val - 1 ∧ Refined K c' q l := by
  obtain ⟨l', hl', hfifo | ⟨hnil, -⟩⟩ := h.fifo hstep
  swap
  · cases hnil
  have hsame : c'.mem = c.mem ∧ Agrees K c' q.buffer_ := by
    generalize he : [Fifo.Event.full (α := α)] = e at hstep
    cases hstep with
    | loadHeadFull hp => exact ⟨rfl, h.agrees.produce (by simp [hp]) _⟩
    | _ => cases he
  cases hfifo with
  | full hfull =>
      exact ⟨hfull, hl', h.stores, hsame.1 ▸ h.head, hsame.1 ▸ h.tail, hsame.2⟩

/-- **Storing `head_` is the whole call of `dequeue`.** -/
theorem Refined.deq (h : Refined K c q l) {a : α} (hstep : Step K c [.deq a] c') :
    ∃ l', l = a :: l' ∧ (dequeue K q).1 = some a ∧ Refined K c' (dequeue K q).2 l' := by
  obtain ⟨l', hl', hfifo | ⟨hnil, -⟩⟩ := h.fifo hstep
  swap
  · cases hnil
  cases hfifo with
  | deq =>
      have hcons := h.represents.consumer
      have hstored : c'.mem.head_ = increment N c.mem.head_ ∧ c'.mem.tail_ = c.mem.tail_ ∧
          Agrees K c' (cleared K q.buffer_ c.mem.head_) := by
        generalize he : [Fifo.Event.deq a] = e at hstep
        cases hstep with
        | storeHead hc hclear =>
            rw [hc] at hcons
            obtain ⟨rfl, -⟩ := hcons
            exact ⟨rfl, rfl, h.agrees.storeHead (.inl ⟨hc, hclear⟩)⟩
        | storeHeadCleared hc =>
            rw [hc] at hcons
            obtain ⟨rfl, -⟩ := hcons
            exact ⟨rfl, rfl, h.agrees.storeHead (.inr hc)⟩
        | _ => cases he
      obtain ⟨hhead, htail, hagrees⟩ := hstored
      obtain ⟨hnil, -⟩ | ⟨b, l'', hl, hsome, hrest⟩ := dequeue_spec K h.stores
      · cases hnil
      cases hl
      have hne : q.head_ ≠ q.tail_ := fun heq => by cases h.stores.empty_iff.mp heq
      have heq : (dequeue K q).2 = { q with
          buffer_ := cleared K q.buffer_ q.head_
          head_ := increment N q.head_ } := by
        simp [dequeue, hne]
      refine ⟨l', rfl, hsome, hl', hrest, ?_, ?_, ?_⟩
      · rw [heq, hhead, ← h.head]
      · rw [heq, htail]
        exact h.tail
      · rw [heq, h.head]
        exact hagrees

/-- `dequeue` is refused when it loads `tail_`. -/
theorem Refined.empty (h : Refined K c q l) (hstep : Step K c [.empty] c') :
    dequeue K q = (none, q) ∧ Refined K c' q l := by
  obtain ⟨l', hl', hfifo | ⟨hnil, -⟩⟩ := h.fifo hstep
  swap
  · cases hnil
  have hsame : c'.mem = c.mem ∧ Agrees K c' q.buffer_ := by
    generalize he : [Fifo.Event.empty (α := α)] = e at hstep
    cases hstep with
    | loadTailEmpty hc => exact ⟨rfl, h.agrees.consume (by simp [hc]) (by simp)⟩
    | _ => cases he
  cases hfifo with
  | empty =>
      obtain ⟨-, hnone⟩ | ⟨b, l', hl, -⟩ := dequeue_spec K h.stores
      · exact ⟨hnone, hl', h.stores, hsame.1 ▸ h.head, hsame.1 ▸ h.tail, hsame.2⟩
      · cases hl

/-- `size` is exact when it loads `tail_`. -/
theorem Refined.size (h : Refined K c q l) {n : Nat} (hstep : Step K c [.size n] c') :
    n = K.size q.head_ q.tail_ ∧ Refined K c' q l := by
  obtain ⟨l', hl', hfifo | ⟨hnil, -⟩⟩ := h.fifo hstep
  swap
  · cases hnil
  have hsame : c'.mem = c.mem ∧ Agrees K c' q.buffer_ := by
    generalize he : [Fifo.Event.size (α := α) n] = e at hstep
    cases hstep with
    | loadTailToSize hc => exact ⟨rfl, h.agrees.consume (by simp [hc]) (by simp)⟩
    | _ => cases he
  cases hfifo with
  | size =>
      exact ⟨(h.stores.size_eq K).symm, hl', h.stores, hsame.1 ▸ h.head, hsame.1 ▸ h.tail,
        hsame.2⟩

/-! ## Calls that are made alone -/

/-- From `pc` on, `enqueue(item)` goes to its end and shows `x`, the other thread standing still. -/
inductive Enqueues (K : QueueClass N α) (item : α) :
    RingQueue α → ProducerPc α → Fifo.Event α → RingQueue α → Prop
  | last {q q' : RingQueue α} {pc pc' : ProducerPc α} {x : Fifo.Event α}
      (h : EnqueueStep K item q pc [x] q' pc') : Enqueues K item q pc x q'
  | head {q q₁ q' : RingQueue α} {pc pc₁ : ProducerPc α} {x : Fifo.Event α}
      (h : EnqueueStep K item q pc [] q₁ pc₁) (rest : Enqueues K item q₁ pc₁ x q') :
      Enqueues K item q pc x q'

/-- From `pc` on, `dequeue` goes to its end and shows `x`, the other thread standing still. -/
inductive Dequeues (K : QueueClass N α) :
    RingQueue α → ConsumerPc α → Fifo.Event α → RingQueue α → Prop
  | last {q q' : RingQueue α} {pc pc' : ConsumerPc α} {x : Fifo.Event α}
      (h : DequeueStep K q pc [x] q' pc') : Dequeues K q pc x q'
  | head {q q₁ q' : RingQueue α} {pc pc₁ : ConsumerPc α} {x : Fifo.Event α}
      (h : DequeueStep K q pc [] q₁ pc₁) (rest : Dequeues K q₁ pc₁ x q') : Dequeues K q pc x q'

/-- The producer is in a call of `enqueue(item)`. -/
def ProducerPc.Carries (item : α) : ProducerPc α → Prop
  | .idle => True
  | .loadedTail x _ => x = item
  | .loadedHead x _ => x = item
  | .wroteSlot x _ => x = item

/-- The consumer is not in a call of `size`. -/
def ConsumerPc.Dequeuing : ConsumerPc α → Prop
  | .sizeLoadedHead _ => False
  | _ => True

/-- The consumer is in a call of `size`. -/
def ConsumerPc.Sizing : ConsumerPc α → Prop
  | .idle => True
  | .sizeLoadedHead _ => True
  | _ => False

section

variable {q' : RingQueue α} {e : List (Fifo.Event α)}

theorem EnqueueStep.carries {item : α} {pc pc' : ProducerPc α}
    (h : EnqueueStep K item q pc e q' pc') : pc'.Carries item := by
  cases h with
  | loadHeadFull | storeTail => trivial
  | loadTail | loadHead | writeSlot => rfl

theorem DequeueStep.dequeuing {pc pc' : ConsumerPc α} (h : DequeueStep K q pc e q' pc') :
    pc'.Dequeuing := by
  cases h with
  | _ => trivial

theorem SizeStep.sizing {pc pc' : ConsumerPc α} (h : SizeStep K q pc e pc') : pc'.Sizing := by
  cases h with
  | _ => trivial

/-- Alone, the accesses of `enqueue` do what the call does in one step. -/
theorem enqueues_of_enqueue {item : α} {accepted : Bool} (hitem : K.refuses item = false)
    (h : enqueue K q item = (accepted, q')) :
    Enqueues K item q .idle (if accepted then .enq item else .full) q' := by
  by_cases hfull : increment N q.tail_ = q.head_
  · obtain ⟨rfl, rfl⟩ : accepted = false ∧ q' = q := by
      simpa [enqueue, hitem, hfull, eq_comm] using h
    exact .head (.loadTail hitem) (.last (.loadHeadFull hfull))
  · obtain ⟨rfl, rfl⟩ : accepted = true ∧ q' = { q with
        buffer_ := Function.update q.buffer_ q.tail_ item
        tail_ := increment N q.tail_ } := by
      simpa [enqueue, hitem, hfull, eq_comm] using h
    exact .head (.loadTail hitem) (.head (.loadHead hfull) (.head .writeSlot (.last .storeTail)))

/-- Alone, the accesses of `dequeue` do what the call does in one step. -/
theorem dequeues_of_dequeue {buf : α} (h : dequeue K q = (some buf, q')) :
    Dequeues K q .idle (.deq buf) q' := by
  have hne : q.head_ ≠ q.tail_ := fun heq => by
    rw [dequeue, if_pos heq] at h
    cases h
  rw [dequeue, if_neg hne] at h
  obtain ⟨rfl, rfl⟩ : buf = q.buffer_ q.head_ ∧ q' = { q with
      buffer_ := cleared K q.buffer_ q.head_
      head_ := increment N q.head_ } := by
    simpa [eq_comm] using h
  refine .head .loadHead (.head (.loadTail hne) (.head .readSlot ?_))
  cases hclear : K.clear with
  | none =>
      rw [cleared, hclear]
      exact .last (.storeHead hclear)
  | some c =>
      rw [cleared, hclear]
      exact .head (.clearSlot hclear) (.last .storeHeadCleared)

theorem dequeues_of_dequeue_none (h : dequeue K q = (none, q')) :
    q' = q ∧ Dequeues K q .idle .empty q := by
  have heq : q.head_ = q.tail_ := by
    by_contra hne
    rw [dequeue, if_neg hne] at h
    cases h
  rw [dequeue, if_pos heq] at h
  obtain rfl : q = q' := congrArg Prod.snd h
  exact ⟨rfl, .head .loadHead (.last (.loadTailEmpty heq))⟩

/-- Wherever it is, `enqueue` comes to its end. -/
theorem exists_enqueues {item : α} {pc : ProducerPc α} (hitem : K.refuses item = false)
    (h : pc.Carries item) (q : RingQueue α) :
    ∃ x q', Enqueues K item q pc x q' ∧ (x = .enq item ∨ x = .full) := by
  have hwrote : ∀ q t, ∃ x q', Enqueues K item q (.wroteSlot item t) x q' ∧
      (x = .enq item ∨ x = .full) := fun q t => ⟨_, _, .last .storeTail, .inl rfl⟩
  have hroom : ∀ q t, ∃ x q', Enqueues K item q (.loadedHead item t) x q' ∧
      (x = .enq item ∨ x = .full) := fun q t => by
    obtain ⟨x, q', hrest, hx⟩ := hwrote _ t
    exact ⟨x, q', .head .writeSlot hrest, hx⟩
  have htail : ∀ q t, ∃ x q', Enqueues K item q (.loadedTail item t) x q' ∧
      (x = .enq item ∨ x = .full) := fun q t => by
    by_cases hfull : increment N t = q.head_
    · exact ⟨_, _, .last (.loadHeadFull hfull), .inr rfl⟩
    · obtain ⟨x, q', hrest, hx⟩ := hroom q t
      exact ⟨x, q', .head (.loadHead hfull) hrest, hx⟩
  cases pc with
  | idle =>
      obtain ⟨x, q', hrest, hx⟩ := htail q q.tail_
      exact ⟨x, q', .head (.loadTail hitem) hrest, hx⟩
  | loadedTail _ t => exact h ▸ htail q t
  | loadedHead _ t => exact h ▸ hroom q t
  | wroteSlot _ t => exact h ▸ hwrote q t

/-- Wherever it is, `dequeue` comes to its end. -/
theorem exists_dequeues {pc : ConsumerPc α} (h : pc.Dequeuing) (q : RingQueue α) :
    ∃ x q', Dequeues K q pc x q' ∧ (x = .empty ∨ ∃ buf, x = .deq buf) := by
  have hcleared : ∀ q i buf, ∃ x q', Dequeues K q (.clearedSlot i buf) x q' ∧
      (x = .empty ∨ ∃ buf, x = .deq buf) := fun q i buf =>
    ⟨_, _, .last .storeHeadCleared, .inr ⟨buf, rfl⟩⟩
  have hread : ∀ q i buf, ∃ x q', Dequeues K q (.readSlot i buf) x q' ∧
      (x = .empty ∨ ∃ buf, x = .deq buf) := fun q i buf => by
    cases hclear : K.clear with
    | none => exact ⟨_, _, .last (.storeHead hclear), .inr ⟨buf, rfl⟩⟩
    | some c =>
        obtain ⟨x, q', hrest, hx⟩ := hcleared _ i buf
        exact ⟨x, q', .head (.clearSlot hclear) hrest, hx⟩
  have htail : ∀ q i, ∃ x q', Dequeues K q (.loadedTail i) x q' ∧
      (x = .empty ∨ ∃ buf, x = .deq buf) := fun q i => by
    obtain ⟨x, q', hrest, hx⟩ := hread q i (q.buffer_ i)
    exact ⟨x, q', .head .readSlot hrest, hx⟩
  have hhead : ∀ q i, ∃ x q', Dequeues K q (.loadedHead i) x q' ∧
      (x = .empty ∨ ∃ buf, x = .deq buf) := fun q i => by
    by_cases hempty : i = q.tail_
    · exact ⟨_, _, .last (.loadTailEmpty hempty), .inl rfl⟩
    · obtain ⟨x, q', hrest, hx⟩ := htail q i
      exact ⟨x, q', .head (.loadTail hempty) hrest, hx⟩
  cases pc with
  | idle =>
      obtain ⟨x, q', hrest, hx⟩ := hhead q q.head_
      exact ⟨x, q', .head .loadHead hrest, hx⟩
  | loadedHead i => exact hhead q i
  | loadedTail i => exact htail q i
  | readSlot i buf => exact hread q i buf
  | clearedSlot i buf => exact hcleared q i buf
  | sizeLoadedHead => cases h

/-- What `dequeue` returns has been in the queue. -/
theorem Refined.mem_of_dequeues {p : ProducerPc α} {m : RingQueue α} {pc : ConsumerPc α} {buf : α}
    (h : Refined K ⟨m, p, pc⟩ q l) (hdeq : Dequeues K m pc (.deq buf) q') : buf ∈ l := by
  generalize hx : Fifo.Event.deq buf = x at hdeq
  induction hdeq with
  | last hstep =>
      subst hx
      obtain ⟨l', rfl, -⟩ := h.deq (hstep.step p)
      exact List.mem_cons_self
  | head hstep _ ih => exact ih (h.silent (hstep.step p)) hx

end

end AeronReplay.RingQueue
