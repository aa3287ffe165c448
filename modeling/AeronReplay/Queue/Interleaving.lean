import AeronReplay.Lib.Fifo
import AeronReplay.Queue.RingQueue

set_option autoImplicit false

/-! # One producer and one consumer, access by access

The producer runs `enqueue`, the consumer runs `dequeue` and `size`, and their atomic accesses
interleave in any order. Each thread holds a copy of the other thread's index that may be stale
by the time it is used. `interleaving_simulates` is the simulation by the bounded FIFO of
capacity `Size - 1`: an insertion takes effect when `tail_` is stored, a removal when `head_` is
stored, a refusal when the other thread's index is loaded. -/

namespace AeronReplay.RingQueue

open Transition

variable {N : Ring.Size} {α : Type}

/-! ## The threads -/

/-- Where the producer is in `enqueue`, with its local variables. -/
inductive ProducerPc (α : Type) where
  | idle
  | loadedTail (item : α) (current_tail : Nat)
  | loadedHead (item : α) (current_tail : Nat)
  | wroteSlot (item : α) (current_tail : Nat)

/-- Where the consumer is in `dequeue` or in `size`, with its local variables. -/
inductive ConsumerPc (α : Type) where
  | idle
  | loadedHead (current_head : Nat)
  | loadedTail (current_head : Nat)
  | readSlot (current_head : Nat) (buf : α)
  | clearedSlot (current_head : Nat) (buf : α)
  | sizeLoadedHead (current_head : Nat)

structure State (α : Type) where
  mem : RingQueue α
  producer : ProducerPc α
  consumer : ConsumerPc α

/-- One atomic access of one thread. -/
inductive Step (K : QueueClass N α) : State α → List (Fifo.Event α) → State α → Prop
  | refuse {s : State α} {item : α} (hp : s.producer = .idle) (hr : K.refuses item = true) :
      Step K s [] s
  | loadTail {s : State α} {item : α} (hp : s.producer = .idle)
      (hr : K.refuses item = false) :
      Step K s [] { s with producer := .loadedTail item s.mem.tail_ }
  | loadHeadFull {s : State α} {item : α} {current_tail : Nat}
      (hp : s.producer = .loadedTail item current_tail)
      (hfull : increment N current_tail = s.mem.head_) :
      Step K s [.full] { s with producer := .idle }
  | loadHead {s : State α} {item : α} {current_tail : Nat}
      (hp : s.producer = .loadedTail item current_tail)
      (hfull : increment N current_tail ≠ s.mem.head_) :
      Step K s [] { s with producer := .loadedHead item current_tail }
  | writeSlot {s : State α} {item : α} {current_tail : Nat}
      (hp : s.producer = .loadedHead item current_tail) :
      Step K s [] { s with
        mem := { s.mem with buffer_ := Function.update s.mem.buffer_ current_tail item }
        producer := .wroteSlot item current_tail }
  | storeTail {s : State α} {item : α} {current_tail : Nat}
      (hp : s.producer = .wroteSlot item current_tail) :
      Step K s [.enq item] { s with
        mem := { s.mem with tail_ := increment N current_tail }
        producer := .idle }
  | loadHeadToDequeue {s : State α} (hc : s.consumer = .idle) :
      Step K s [] { s with consumer := .loadedHead s.mem.head_ }
  | loadTailEmpty {s : State α} {current_head : Nat}
      (hc : s.consumer = .loadedHead current_head) (hempty : current_head = s.mem.tail_) :
      Step K s [.empty] { s with consumer := .idle }
  | loadTailToDequeue {s : State α} {current_head : Nat}
      (hc : s.consumer = .loadedHead current_head) (hempty : current_head ≠ s.mem.tail_) :
      Step K s [] { s with consumer := .loadedTail current_head }
  | readSlot {s : State α} {current_head : Nat} (hc : s.consumer = .loadedTail current_head) :
      Step K s [] { s with consumer := .readSlot current_head (s.mem.buffer_ current_head) }
  | clearSlot {s : State α} {current_head : Nat} {buf c : α}
      (hc : s.consumer = .readSlot current_head buf) (hclear : K.clear = some c) :
      Step K s [] { s with
        mem := { s.mem with buffer_ := Function.update s.mem.buffer_ current_head c }
        consumer := .clearedSlot current_head buf }
  | storeHead {s : State α} {current_head : Nat} {buf : α}
      (hc : s.consumer = .readSlot current_head buf) (hclear : K.clear = none) :
      Step K s [.deq buf] { s with
        mem := { s.mem with head_ := increment N current_head }
        consumer := .idle }
  | storeHeadCleared {s : State α} {current_head : Nat} {buf : α}
      (hc : s.consumer = .clearedSlot current_head buf) :
      Step K s [.deq buf] { s with
        mem := { s.mem with head_ := increment N current_head }
        consumer := .idle }
  | loadHeadToSize {s : State α} (hc : s.consumer = .idle) :
      Step K s [] { s with consumer := .sizeLoadedHead s.mem.head_ }
  | loadTailToSize {s : State α} {current_head : Nat}
      (hc : s.consumer = .sizeLoadedHead current_head) :
      Step K s [.size (K.size current_head s.mem.tail_)] { s with consumer := .idle }

/-- The system of one producer and one consumer, started on an empty queue. What the slots hold
at the start does not matter. -/
def interleaving (K : QueueClass N α) : Lts (State α) (Fifo.Event α) where
  Init s := s.mem.head_ = 0 ∧ s.mem.tail_ = 0 ∧ s.producer = .idle ∧ s.consumer = .idle
  Step := Step K

/-! ## The simulation relation -/

/-- The memory with a slot that the consumer has read and cleared, but not yet released, put
back: this is where the queue keeps its first element until `head_` is stored. -/
def State.restored (s : State α) : RingQueue α :=
  match s.consumer with
  | .clearedSlot h a => { s.mem with buffer_ := Function.update s.mem.buffer_ h a }
  | _ => s.mem

/-- What the producer knows: its copy of `tail_` is current, and once it has found room there
is room until it stores `tail_`, since the consumer only makes more. -/
def ProducerKnows (N : Ring.Size) (m : RingQueue α) (l : List α) : ProducerPc α → Prop
  | .idle => True
  | .loadedTail _ t => t = m.tail_
  | .loadedHead _ t => t = m.tail_ ∧ l.length + 1 < N.val
  | .wroteSlot item t => t = m.tail_ ∧ l.length + 1 < N.val ∧ m.buffer_ t = item

/-- What the consumer knows: its copy of `head_` is current, and once it has found an element
the queue keeps one, since the producer only adds more. -/
def ConsumerKnows (m : RingQueue α) (l : List α) : ConsumerPc α → Prop
  | .idle => True
  | .loadedHead h => h = m.head_
  | .loadedTail h => h = m.head_ ∧ l ≠ []
  | .readSlot h a => h = m.head_ ∧ ∃ l', l = a :: l'
  | .clearedSlot h a => h = m.head_ ∧ ∃ l', l = a :: l'
  | .sizeLoadedHead h => h = m.head_

/-- The items the producer is working on are acceptable. -/
def ProducerItem (K : QueueClass N α) : ProducerPc α → Prop
  | .idle => True
  | .loadedTail item _ => K.refuses item = false
  | .loadedHead item _ => K.refuses item = false
  | .wroteSlot item _ => K.refuses item = false

/-- The queue of the state `s` stores `l`. -/
structure Represents (K : QueueClass N α) (s : State α) (l : List α) : Prop where
  stores : Stores N s.restored l
  producer : ProducerKnows N s.mem l s.producer
  consumer : ConsumerKnows s.mem l s.consumer
  item : ProducerItem K s.producer
  accepted : ∀ a ∈ l, K.refuses a = false

/-- While the consumer is not between clearing a slot and releasing it, the memory itself
stores the list. -/
theorem Represents.stores_mem {K : QueueClass N α} {s : State α} {l : List α}
    (h : Represents K s l) (hc : ∀ i a, s.consumer ≠ .clearedSlot i a) : Stores N s.mem l := by
  have heq : s.restored = s.mem := by
    unfold State.restored
    split
    · rename_i i a hcleared
      exact absurd hcleared (hc i a)
    · rfl
  rw [← heq]
  exact h.stores

theorem restored_head (s : State α) : s.restored.head_ = s.mem.head_ := by
  unfold State.restored
  split <;> rfl

theorem restored_tail (s : State α) : s.restored.tail_ = s.mem.tail_ := by
  unfold State.restored
  split <;> rfl

/-- Away from the first slot the restored memory is the memory. -/
theorem restored_buffer_of_ne {m : RingQueue α} {l : List α} {c : ConsumerPc α}
    (hc : ConsumerKnows m l c) {p : ProducerPc α} {i : Nat} (hi : i ≠ m.head_) :
    (State.restored ⟨m, p, c⟩).buffer_ i = m.buffer_ i := by
  cases c with
  | clearedSlot h a =>
      obtain ⟨rfl, -⟩ := hc
      exact Function.update_of_ne hi _ _
  | idle | loadedHead | loadedTail | readSlot | sizeLoadedHead => rfl

/-- With an element stored, the free slot at `tail_` is not the first slot. -/
theorem Stores.tail_ne_head {q : RingQueue α} {l : List α} (h : Stores N q l) (hl : l ≠ []) :
    q.tail_ ≠ q.head_ := fun heq => hl (h.empty_iff.mp heq.symm)

theorem ConsumerKnows.push {m : RingQueue α} {l : List α} {c : ConsumerPc α}
    (h : ConsumerKnows m l c) (a : α) (m' : RingQueue α) (hm : m'.head_ = m.head_) :
    ConsumerKnows m' (l ++ [a]) c := by
  cases c with
  | idle => trivial
  | loadedHead i => exact h.trans hm.symm
  | loadedTail i => exact ⟨h.1.trans hm.symm, by simp⟩
  | readSlot i b =>
      obtain ⟨hi, l', rfl⟩ := h
      exact ⟨hi.trans hm.symm, l' ++ [a], rfl⟩
  | clearedSlot i b =>
      obtain ⟨hi, l', rfl⟩ := h
      exact ⟨hi.trans hm.symm, l' ++ [a], rfl⟩
  | sizeLoadedHead i => exact h.trans hm.symm

theorem ProducerKnows.pop {m : RingQueue α} {a : α} {l : List α} {p : ProducerPc α}
    (h : ProducerKnows N m (a :: l) p) (m' : RingQueue α) (htail : m'.tail_ = m.tail_)
    (hbuf : m'.buffer_ = m.buffer_) : ProducerKnows N m' l p := by
  cases p with
  | idle => trivial
  | loadedTail b t => exact h.trans htail.symm
  | loadedHead b t =>
      have := h.2
      rw [List.length_cons] at this
      exact ⟨h.1.trans htail.symm, by omega⟩
  | wroteSlot b t =>
      have := h.2.1
      rw [List.length_cons] at this
      exact ⟨h.1.trans htail.symm, by omega, by rw [hbuf]; exact h.2.2⟩

/-! ## One step at a time -/

/-- Writing the free slot at `tail_` changes no stored value. -/
theorem Stores.write_free {q : RingQueue α} {l : List α} (h : Stores N q l) (item : α) :
    Stores N { q with buffer_ := Function.update q.buffer_ q.tail_ item } l where
  head_lt := h.head_lt
  room := h.room
  tail_eq := h.tail_eq
  view_eq := by
    show Ring.view (Function.update q.buffer_ q.tail_ item) N.val q.head_ _ = l
    rw [h.tail_eq, Ring.view_update_of_ne, h.view_eq]
    intro i hi
    have := h.room
    exact Ring.slot_ne (by omega) h.room (by omega)

/-- Advancing `tail_` over a slot that already holds the item appends it. -/
theorem Stores.advance {q : RingQueue α} {l : List α} {item : α} (h : Stores N q l)
    (hslot : q.buffer_ q.tail_ = item) (hroom : l.length + 1 < N.val) :
    Stores N { q with tail_ := increment N q.tail_ } (l ++ [item]) := by
  have hpush := h.push item hroom
  rw [← hslot, Function.update_eq_self] at hpush
  rw [← hslot]
  exact hpush

variable {K : QueueClass N α}

theorem represents_writeSlot {s : State α} {l : List α} (h : Represents K s l) {item : α}
    {t : Nat} (hp : s.producer = .loadedHead item t) :
    Represents K { s with
      mem := { s.mem with buffer_ := Function.update s.mem.buffer_ t item }
      producer := .wroteSlot item t } l := by
  obtain ⟨m, p, c⟩ := s
  obtain rfl : p = _ := hp
  obtain ⟨rfl, hroom⟩ : t = m.tail_ ∧ l.length + 1 < N.val := h.producer
  have hstores := h.stores.write_free item
  rw [restored_tail] at hstores
  refine ⟨?_, ⟨rfl, hroom, Function.update_self _ _ _⟩, ?_, h.item, h.accepted⟩
  · cases c with
    | clearedSlot i a =>
        obtain ⟨rfl, l', rfl⟩ : i = m.head_ ∧ ∃ l', l = a :: l' := h.consumer
        have hne : m.tail_ ≠ m.head_ := h.stores.tail_ne_head (by simp)
        show Stores N { m with
          buffer_ := Function.update (Function.update m.buffer_ m.tail_ item) m.head_ a } _
        rw [Function.update_comm hne]
        exact hstores
    | idle | loadedHead | loadedTail | readSlot | sizeLoadedHead => exact hstores
  · have hc := h.consumer
    cases c <;> exact hc

theorem represents_storeTail {s : State α} {l : List α} (h : Represents K s l) {item : α}
    {t : Nat} (hp : s.producer = .wroteSlot item t) :
    Represents K { s with
      mem := { s.mem with tail_ := increment N t }
      producer := .idle } (l ++ [item]) := by
  obtain ⟨m, p, c⟩ := s
  obtain rfl : p = _ := hp
  obtain ⟨rfl, hroom, hslot⟩ : t = m.tail_ ∧ l.length + 1 < N.val ∧ m.buffer_ t = item :=
    h.producer
  -- the item is already in its slot, also where that slot is seen through `restored`
  have hsame : (State.restored ⟨m, .wroteSlot item m.tail_, c⟩).buffer_
      (State.restored ⟨m, .wroteSlot item m.tail_, c⟩).tail_ = item := by
    rw [restored_tail]
    by_cases hl : l = []
    · cases c with
      | clearedSlot i a =>
          obtain ⟨-, l', rfl⟩ := h.consumer
          cases hl
      | idle | loadedHead | loadedTail | readSlot | sizeLoadedHead => exact hslot
    · have hne := h.stores.tail_ne_head hl
      rw [restored_tail, restored_head] at hne
      rw [restored_buffer_of_ne h.consumer hne]
      exact hslot
  have hpush := h.stores.advance hsame hroom
  rw [restored_tail] at hpush
  refine ⟨?_, trivial, h.consumer.push item _ rfl, trivial, ?_⟩
  · cases c <;> exact hpush
  · intro a ha
    rcases List.mem_append.mp ha with ha | ha
    · exact h.accepted a ha
    · obtain rfl := List.mem_singleton.mp ha
      exact h.item

theorem represents_readSlot {s : State α} {l : List α} (h : Represents K s l) {i : Nat}
    (hc : s.consumer = .loadedTail i) :
    Represents K { s with consumer := .readSlot i (s.mem.buffer_ i) } l := by
  obtain ⟨m, p, c⟩ := s
  obtain rfl : c = _ := hc
  obtain ⟨rfl, hne⟩ : i = m.head_ ∧ l ≠ [] := h.consumer
  cases l with
  | nil => exact absurd rfl hne
  | cons a l' =>
      have hfirst : m.buffer_ m.head_ = a := (h.stores.pop a).1
      exact ⟨h.stores, h.producer, ⟨rfl, l', by rw [hfirst]⟩, h.item, h.accepted⟩

theorem represents_clearSlot {s : State α} {l : List α} (h : Represents K s l) {i : Nat}
    {a : α} (c : α) (hc : s.consumer = .readSlot i a) :
    Represents K { s with
      mem := { s.mem with buffer_ := Function.update s.mem.buffer_ i c }
      consumer := .clearedSlot i a } l := by
  obtain ⟨m, p, pc⟩ := s
  obtain rfl : pc = _ := hc
  obtain ⟨rfl, l', rfl⟩ : i = m.head_ ∧ ∃ l', l = a :: l' := h.consumer
  have hfirst : m.buffer_ m.head_ = a := (h.stores.pop a).1
  refine ⟨?_, ?_, ⟨rfl, l', rfl⟩, h.item, h.accepted⟩
  · show Stores N { m with
      buffer_ := Function.update (Function.update m.buffer_ m.head_ c) m.head_ a } _
    rw [Function.update_idem, ← hfirst, Function.update_eq_self, hfirst]
    exact h.stores
  · -- the producer's slot is not the one being cleared
    have hp := h.producer
    cases p with
    | wroteSlot item t =>
        obtain ⟨rfl, hroom, hslot⟩ :
            t = m.tail_ ∧ (a :: l').length + 1 < N.val ∧ m.buffer_ t = item := hp
        have hne : m.tail_ ≠ m.head_ := h.stores.tail_ne_head (by simp)
        exact ⟨rfl, hroom, (Function.update_of_ne hne _ _).trans hslot⟩
    | idle | loadedTail | loadedHead => exact hp

theorem represents_storeHead {s : State α} {l : List α} (h : Represents K s l) {i : Nat}
    {a : α} (hc : s.consumer = .readSlot i a ∨ s.consumer = .clearedSlot i a) :
    ∃ l', l = a :: l' ∧ Represents K { s with
      mem := { s.mem with head_ := increment N i }
      consumer := .idle } l' := by
  obtain ⟨m, p, pc⟩ := s
  have hknows : i = m.head_ ∧ ∃ l', l = a :: l' := by
    have := h.consumer
    rcases hc with rfl | rfl <;> exact this
  obtain ⟨rfl, l', rfl⟩ := hknows
  obtain ⟨-, hpop⟩ := h.stores.pop (m.buffer_ m.head_)
  refine ⟨l', rfl, ?_, h.producer.pop _ rfl rfl, trivial, h.item, fun b hb =>
    h.accepted b (List.mem_cons_of_mem a hb)⟩
  rcases hc with rfl | rfl
  · have heq : (State.restored ⟨m, p, .readSlot m.head_ a⟩) = m := rfl
    rw [heq, Function.update_eq_self] at hpop
    exact hpop
  · have heq : (State.restored ⟨m, p, .clearedSlot m.head_ a⟩)
        = { m with buffer_ := Function.update m.buffer_ m.head_ a } := rfl
    rw [heq] at hpop
    simp only [Function.update_idem, Function.update_eq_self] at hpop
    exact hpop

/-- **The ring queue is simulated by the bounded FIFO.** -/
theorem interleaving_simulates (K : QueueClass N α) :
    Simulation (interleaving K) (Fifo.lts α (N.val - 1)) some (Represents K) where
  init := by
    rintro ⟨⟨buf, hd, tl⟩, p, c⟩ ⟨rfl, rfl, rfl, rfl⟩
    exact ⟨[], rfl, ⟨N.val_pos, N.val_pos, (Nat.zero_mod _).symm, rfl⟩, trivial, trivial,
      trivial, by simp⟩
  step := by
    intro s l e s' h hstep
    rw [List.filterMap_some]
    have hcur := h.producer
    have hcons := h.consumer
    cases hstep with
    | refuse => exact ⟨l, h, Or.inr ⟨rfl, rfl⟩⟩
    | loadTail hp hr =>
        exact ⟨l, ⟨h.stores, rfl, h.consumer, hr, h.accepted⟩, Or.inr ⟨rfl, rfl⟩⟩
    | loadHeadFull hp hfull =>
        rw [hp] at hcur
        have hlen := h.stores.full_iff.mp (by rwa [restored_tail, restored_head, ← hcur])
        exact ⟨l, ⟨h.stores, trivial, h.consumer, trivial, h.accepted⟩, Or.inl (.full hlen)⟩
    | loadHead hp hfull =>
        rw [hp] at hcur
        have hlen : l.length ≠ N.val - 1 := fun heq => hfull (by
          have := h.stores.full_iff.mpr heq
          rwa [restored_tail, restored_head, ← hcur] at this)
        have hroom := h.stores.room
        have hitem := h.item
        rw [hp] at hitem
        exact ⟨l, ⟨h.stores, ⟨hcur, by omega⟩, h.consumer, hitem, h.accepted⟩,
          Or.inr ⟨rfl, rfl⟩⟩
    | writeSlot hp => exact ⟨l, represents_writeSlot h hp, Or.inr ⟨rfl, rfl⟩⟩
    | storeTail hp =>
        rw [hp] at hcur
        have hroom := hcur.2.1
        exact ⟨_, represents_storeTail h hp, Or.inl (.enq _ (by omega))⟩
    | loadHeadToDequeue hc =>
        exact ⟨l, ⟨h.stores_mem (by simp [hc]), h.producer, rfl, h.item, h.accepted⟩,
          Or.inr ⟨rfl, rfl⟩⟩
    | loadTailEmpty hc hempty =>
        have hstores := h.stores_mem (by simp [hc])
        rw [hc] at hcons
        obtain rfl := hstores.empty_iff.mp (hcons.symm.trans hempty)
        exact ⟨[], ⟨hstores, h.producer, trivial, h.item, h.accepted⟩, Or.inl .empty⟩
    | loadTailToDequeue hc hempty =>
        have hstores := h.stores_mem (by simp [hc])
        rw [hc] at hcons
        have hne : l ≠ [] := fun hl => hempty (hcons.trans (hstores.empty_iff.mpr hl))
        exact ⟨l, ⟨hstores, h.producer, ⟨hcons, hne⟩, h.item, h.accepted⟩, Or.inr ⟨rfl, rfl⟩⟩
    | readSlot hc => exact ⟨l, represents_readSlot h hc, Or.inr ⟨rfl, rfl⟩⟩
    | clearSlot hc _ => exact ⟨l, represents_clearSlot h _ hc, Or.inr ⟨rfl, rfl⟩⟩
    | storeHead hc _ =>
        obtain ⟨l', rfl, h'⟩ := represents_storeHead h (Or.inl hc)
        exact ⟨l', h', Or.inl (.deq _)⟩
    | storeHeadCleared hc =>
        obtain ⟨l', rfl, h'⟩ := represents_storeHead h (Or.inr hc)
        exact ⟨l', h', Or.inl (.deq _)⟩
    | loadHeadToSize hc =>
        exact ⟨l, ⟨h.stores_mem (by simp [hc]), h.producer, rfl, h.item, h.accepted⟩,
          Or.inr ⟨rfl, rfl⟩⟩
    | loadTailToSize hc =>
        have hstores := h.stores_mem (by simp [hc])
        rw [hc] at hcons
        have hsize := hstores.size_eq K
        rw [← show _ = s.mem.head_ from hcons] at hsize
        refine ⟨l, ⟨hstores, h.producer, trivial, h.item, h.accepted⟩, Or.inl ?_⟩
        rw [hsize]
        exact .size l

/-! ## What the two queues guarantee -/

/-- What one producer and one consumer may rely on, in every interleaving of their accesses. -/
structure FifoContract (K : QueueClass N α) : Prop where
  /-- Every run is, event for event, a run of the FIFO of capacity `Size - 1`. The values
  returned, followed by the values in the slots, are the values accepted. -/
  refines : ∀ es s, Run (interleaving K) es s → ∃ l,
    Run (Fifo.lts α (N.val - 1)) es l ∧ Stores N s.restored l ∧
    Fifo.deqs es ++ l = Fifo.enqs es ∧ l.length ≤ N.val - 1
  /-- The values returned are an initial segment of the values accepted. -/
  in_order : ∀ es s, Run (interleaving K) es s → Fifo.deqs es <+: Fifo.enqs es
  /-- What `enqueue` refuses to take is never returned. -/
  acceptable : ∀ es s, Run (interleaving K) es s → ∀ a ∈ Fifo.deqs es, K.refuses a = false
  /-- `enqueue` is refused at its load of `head_` only with `Size - 1` elements stored. -/
  full_only : ∀ es s t, Run (interleaving K) es s → Step K s [.full] t →
    (Fifo.enqs es).length = (Fifo.deqs es).length + (N.val - 1)
  /-- `dequeue` is refused at its load of `tail_` only with no element stored. -/
  empty_only : ∀ es s t, Run (interleaving K) es s → Step K s [.empty] t →
    Fifo.enqs es = Fifo.deqs es
  /-- With no operation in progress `size()` is the number of elements stored. -/
  size_exact : ∀ es s, Run (interleaving K) es s → s.producer = .idle → s.consumer = .idle →
    (Fifo.deqs es).length + K.size s.mem.head_ s.mem.tail_ = (Fifo.enqs es).length
  /-- After the consumer has seen a positive `size()`, its next `dequeue` is not refused. -/
  size_promise : ∀ es s t, Run (interleaving K) es s → Fifo.promised es = true →
    ¬ Step K s [.empty] t

theorem interleaving_run {es : List (Fifo.Event α)} {s : State α}
    (r : Run (interleaving K) es s) :
    ∃ l, Represents K s l ∧ Run (Fifo.lts α (N.val - 1)) es l := by
  obtain ⟨l, h, hr⟩ := (interleaving_simulates K).run r
  rw [List.filterMap_some] at hr
  exact ⟨l, h, hr⟩

/-- Every accepted value is one that `enqueue` takes. -/
theorem enqs_acceptable {es : List (Fifo.Event α)} {s : State α}
    (r : Run (interleaving K) es s) :
    ∀ a ∈ Fifo.enqs es, K.refuses a = false := by
  induction r with
  | init _ => intro a ha; cases ha
  | step r h ih =>
      intro a ha
      rw [Fifo.enqs_append] at ha
      rcases List.mem_append.mp ha with ha | ha
      · exact ih a ha
      · cases h with
        | storeTail hp =>
            obtain rfl : a = _ := List.mem_singleton.mp ha
            obtain ⟨l, hl, -⟩ := interleaving_run r
            have hitem := hl.item
            rw [hp] at hitem
            exact hitem
        | _ => cases ha

theorem empty_step_nil {es : List (Fifo.Event α)} {s t : State α}
    (r : Run (interleaving K) es s) (h : Step K s [.empty] t) :
    Run (Fifo.lts α (N.val - 1)) es [] := by
  obtain ⟨l, hl, hr⟩ := interleaving_run r
  obtain ⟨l', -, hfifo | ⟨hnil, -⟩⟩ := (interleaving_simulates K).step _ _ _ _ hl h
  · obtain rfl := Fifo.empty_eq_nil hfifo
    exact hr
  · cases hnil

/-- The contract holds of every queue class. -/
theorem fifoContract (K : QueueClass N α) : FifoContract K where
  refines es s r := by
    obtain ⟨l, hl, hr⟩ := interleaving_run r
    exact ⟨l, hr, hl.stores, Fifo.run_conserved hr⟩
  in_order es s r := by
    obtain ⟨l, -, hr⟩ := interleaving_run r
    exact Fifo.run_deqs_initial hr
  acceptable es s r a ha := by
    obtain ⟨l, -, hr⟩ := interleaving_run r
    exact enqs_acceptable r a ((Fifo.run_deqs_initial hr).subset ha)
  full_only es s t r h := by
    obtain ⟨l, hl, hr⟩ := interleaving_run r
    obtain ⟨l', -, hfifo | ⟨hnil, -⟩⟩ := (interleaving_simulates K).step _ _ _ _ hl h
    · rw [← (Fifo.run_conserved hr).1, List.length_append, Fifo.full_length hfifo]
    · cases hnil
  empty_only es s t r h := by
    have hval := (Fifo.run_conserved (empty_step_nil r h)).1
    rw [← hval, List.append_nil]
  size_exact es s r _ hc := by
    obtain ⟨l, hl, hr⟩ := interleaving_run r
    have hstores := hl.stores_mem (by simp [hc])
    rw [hstores.size_eq K, ← (Fifo.run_conserved hr).1, List.length_append]
  size_promise es s t r hp h := Fifo.run_promised (empty_step_nil r h) hp rfl

/-- **Both ring queues are bounded FIFO queues of capacity `Size - 1`** for one producer and
one consumer, and `MessageQueue` never returns a null pointer. -/
theorem queues_refine_bounded_fifo (N : Ring.Size) (β T : Type) :
    FifoContract (messageQueue N β) ∧ FifoContract (spscQueue N T) ∧
    ∀ es s, Run (interleaving (messageQueue N β)) es s → Fifo.Event.deq none ∉ es := by
  refine ⟨fifoContract _, fifoContract _, fun es s r hmem => ?_⟩
  have hnull := (fifoContract (messageQueue N β)).acceptable es s r none
    (List.mem_filterMap.mpr ⟨_, hmem, rfl⟩)
  cases hnull

end AeronReplay.RingQueue
