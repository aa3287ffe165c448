import AeronReplay.Lib.Ring

set_option autoImplicit false

/-! # `MessageQueue` and `SPSCQueue`

The two ring queues of the subscriber (`MessageQueue.h`, `SPSCQueue.h`). Both keep an array of
`Size` slots, the index `head_` of the oldest element and the index `tail_` of the next free
slot; one slot always stays free, so that `head_ == tail_` means empty. They differ in three
places, collected in `QueueClass`: `MessageQueue` refuses a null pointer, writes null into a
slot it has read, and computes `size()` by masking a difference that may wrap around `size_t`.

The counters `total_enqueued_`, `total_dequeued_` and `enqueue_failures_` are only read by
`getStatistics` and are left out. -/

namespace AeronReplay

/-- The memory of a ring queue. Only the slots below `Size` are used. -/
structure RingQueue (α : Type) where
  buffer_ : Nat → α
  head_ : Nat
  tail_ : Nat

/-- `(idx + 1) & (Size - 1)` on `size_t`. -/
def increment (N : Ring.Size) (idx : Nat) : Nat := (idx + 1) % Ring.word &&& (N.val - 1)

theorem increment_eq (N : Ring.Size) (idx : Nat) : increment N idx = (idx + 1) % N.val := by
  rw [increment, Ring.and_mask, Ring.mod_word_mod]

/-- What distinguishes the two queue classes. -/
structure QueueClass (N : Ring.Size) (α : Type) where
  /-- The arguments `enqueue` refuses without looking at the queue. -/
  refuses : α → Bool
  /-- What `dequeue` writes into the slot it has read. -/
  clear : Option α
  /-- `size()`, from the loaded values of `head_` and `tail_`. -/
  size : Nat → Nat → Nat
  size_eq : ∀ h k, h < N.val → k < N.val → size h ((h + k) % N.val) = k

/-- `MessageQueue::size`: `(t - h) & (Size - 1)`. -/
def MessageQueue.size (N : Ring.Size) (h t : Nat) : Nat :=
  (t + Ring.word - h) % Ring.word &&& (N.val - 1)

/-- `SPSCQueue::size`. -/
def SPSCQueue.size (N : Ring.Size) (current_head current_tail : Nat) : Nat :=
  if current_head ≤ current_tail then current_tail - current_head
  else N.val - current_head + current_tail

/-- `MessageQueue<Size>` of pointers to `β`; `none` is the null pointer. -/
def messageQueue (N : Ring.Size) (β : Type) : QueueClass N (Option β) where
  refuses buf := buf.isNone
  clear := some none
  size := MessageQueue.size N
  size_eq := Ring.masked_sub N

/-- `SPSCQueue<T, Size>`. -/
def spscQueue (N : Ring.Size) (T : Type) : QueueClass N T where
  refuses _ := false
  clear := none
  size := SPSCQueue.size N
  size_eq _ _ := Ring.dist_by_cases

/-! ## The operations of one thread alone -/

namespace RingQueue

variable {N : Ring.Size} {α : Type}

/-- The slots after `dequeue` has read slot `h`. -/
def cleared (K : QueueClass N α) (buffer : Nat → α) (h : Nat) : Nat → α :=
  match K.clear with
  | some c => Function.update buffer h c
  | none => buffer

def enqueue (K : QueueClass N α) (q : RingQueue α) (item : α) : Bool × RingQueue α :=
  if K.refuses item then (false, q)
  else
    let next_tail := increment N q.tail_
    if next_tail = q.head_ then (false, q)
    else (true, { q with
      buffer_ := Function.update q.buffer_ q.tail_ item
      tail_ := next_tail })

def dequeue (K : QueueClass N α) (q : RingQueue α) : Option α × RingQueue α :=
  if q.head_ = q.tail_ then (none, q)
  else (some (q.buffer_ q.head_), { q with
    buffer_ := cleared K q.buffer_ q.head_
    head_ := increment N q.head_ })

/-- `full()`. -/
def full (N : Ring.Size) (q : RingQueue α) : Bool := increment N q.tail_ = q.head_

/-- The queue stores the list `l`, oldest first. -/
structure Stores (N : Ring.Size) (q : RingQueue α) (l : List α) : Prop where
  head_lt : q.head_ < N.val
  room : l.length < N.val
  tail_eq : q.tail_ = (q.head_ + l.length) % N.val
  view_eq : Ring.view q.buffer_ N.val q.head_ l.length = l

/-- The queue is full exactly when one slot is left. -/
theorem Stores.full_iff {q : RingQueue α} {l : List α} (h : Stores N q l) :
    increment N q.tail_ = q.head_ ↔ l.length = N.val - 1 := by
  have hroom := h.room
  have hhead := h.head_lt
  rw [increment_eq, h.tail_eq, Nat.mod_add_mod, Nat.add_assoc]
  constructor
  · intro heq
    by_contra hne
    have hslot := Ring.slot_ne (n := N.val) (h := q.head_)
      (show l.length + 1 < N.val by omega) N.val_pos (by omega)
    rw [heq, Nat.add_zero, Nat.mod_eq_of_lt hhead] at hslot
    exact hslot rfl
  · intro hlen
    rw [hlen, show N.val - 1 + 1 = N.val by omega, Nat.add_mod_right, Nat.mod_eq_of_lt hhead]

/-- The queue is empty exactly when the two indices agree. -/
theorem Stores.empty_iff {q : RingQueue α} {l : List α} (h : Stores N q l) :
    q.head_ = q.tail_ ↔ l = [] := by
  rw [h.tail_eq]
  constructor
  · intro heq
    by_contra hne
    have hpos := List.length_pos_iff.mpr hne
    have hslot := Ring.slot_ne (h := q.head_) h.room N.val_pos (by omega)
    rw [← heq, Nat.add_zero, Nat.mod_eq_of_lt h.head_lt] at hslot
    exact hslot rfl
  · rintro rfl
    rw [List.length_nil, Nat.add_zero, Nat.mod_eq_of_lt h.head_lt]

theorem Stores.size_eq (K : QueueClass N α) {q : RingQueue α} {l : List α}
    (h : Stores N q l) : K.size q.head_ q.tail_ = l.length := by
  rw [h.tail_eq]
  exact K.size_eq _ _ h.head_lt h.room

/-- What a queue stores is determined by its memory. -/
theorem Stores.unique {q : RingQueue α} {l l' : List α} (h : Stores N q l) (h' : Stores N q l') :
    l = l' := by
  have hlength : l.length = l'.length := by
    by_contra hne
    exact Ring.slot_ne h.room h'.room hne (h.tail_eq.symm.trans h'.tail_eq)
  have hview := h'.view_eq
  rw [← hlength, h.view_eq] at hview
  exact hview

/-- Writing the slot at `tail_` and then advancing `tail_` appends the value. -/
theorem Stores.push {q : RingQueue α} {l : List α} (h : Stores N q l) (item : α)
    (hroom : l.length + 1 < N.val) :
    Stores N { q with
      buffer_ := Function.update q.buffer_ q.tail_ item
      tail_ := increment N q.tail_ } (l ++ [item]) where
  head_lt := h.head_lt
  room := by rwa [List.length_append]
  tail_eq := by
    show increment N q.tail_ = _
    rw [increment_eq, h.tail_eq, Nat.mod_add_mod, Nat.add_assoc, List.length_append,
      List.length_singleton]
  view_eq := by
    show Ring.view (Function.update q.buffer_ q.tail_ item) N.val q.head_ _ = _
    rw [List.length_append, List.length_singleton, h.tail_eq, Ring.view_push _ _ h.room,
      h.view_eq]

/-- Advancing `head_` removes the first value, whatever is written into its slot. -/
theorem Stores.pop {q : RingQueue α} {a : α} {l : List α} (h : Stores N q (a :: l)) (b : α) :
    q.buffer_ q.head_ = a ∧
    Stores N { q with
      buffer_ := Function.update q.buffer_ q.head_ b
      head_ := increment N q.head_ } l := by
  have hview := h.view_eq
  rw [List.length_cons, Ring.view_cons _ h.head_lt] at hview
  obtain ⟨hfirst, hrest⟩ := List.cons.inj hview
  have hroom := h.room
  rw [List.length_cons] at hroom
  refine ⟨hfirst, ⟨?_, by omega, ?_, ?_⟩⟩
  · show increment N q.head_ < N.val
    rw [increment_eq]
    exact Nat.mod_lt _ N.val_pos
  · show q.tail_ = (increment N q.head_ + l.length) % N.val
    rw [h.tail_eq, increment_eq, Nat.mod_add_mod, List.length_cons, Nat.add_assoc,
      Nat.add_comm l.length 1]
  · show Ring.view (Function.update q.buffer_ q.head_ b) N.val (increment N q.head_) _ = l
    rw [increment_eq, Ring.view_update_head _ _ h.head_lt (by omega)]
    exact hrest

/-- Without interference, `enqueue` appends and is refused only on a full queue. -/
theorem enqueue_spec (K : QueueClass N α) {q : RingQueue α} {l : List α} (h : Stores N q l)
    {item : α} (hitem : K.refuses item = false) :
    (l.length < N.val - 1 ∧ (enqueue K q item).1 = true ∧
        Stores N (enqueue K q item).2 (l ++ [item])) ∨
      (l.length = N.val - 1 ∧ enqueue K q item = (false, q)) := by
  have hroom := h.room
  by_cases hfull : increment N q.tail_ = q.head_
  · exact Or.inr ⟨h.full_iff.mp hfull, by simp [enqueue, hitem, hfull]⟩
  · have hlen : l.length ≠ N.val - 1 := fun heq => hfull (h.full_iff.mpr heq)
    refine Or.inl ⟨by omega, by simp [enqueue, hitem, hfull], ?_⟩
    have heq : (enqueue K q item).2 = { q with
        buffer_ := Function.update q.buffer_ q.tail_ item
        tail_ := increment N q.tail_ } := by
      simp [enqueue, hitem, hfull]
    rw [heq]
    exact h.push item (by omega)

/-- Without interference, `dequeue` returns the oldest value and is refused only on an empty
queue. -/
theorem dequeue_spec (K : QueueClass N α) {q : RingQueue α} {l : List α} (h : Stores N q l) :
    (l = [] ∧ dequeue K q = (none, q)) ∨
      ∃ a l', l = a :: l' ∧ (dequeue K q).1 = some a ∧ Stores N (dequeue K q).2 l' := by
  by_cases hempty : q.head_ = q.tail_
  · exact Or.inl ⟨h.empty_iff.mp hempty, by simp [dequeue, hempty]⟩
  · cases l with
    | nil => exact absurd (h.empty_iff.mpr rfl) hempty
    | cons a l' =>
        have hcleared : ∃ b, cleared K q.buffer_ q.head_
            = Function.update q.buffer_ q.head_ b := by
          unfold cleared
          cases K.clear with
          | some c => exact ⟨c, rfl⟩
          | none => exact ⟨q.buffer_ q.head_, (Function.update_eq_self _ _).symm⟩
        obtain ⟨b, hb⟩ := hcleared
        obtain ⟨hfirst, hrest⟩ := h.pop b
        refine Or.inr ⟨a, l', rfl, by simp [dequeue, hempty, hfirst], ?_⟩
        have heq : (dequeue K q).2 = { q with
            buffer_ := Function.update q.buffer_ q.head_ b
            head_ := increment N q.head_ } := by
          simp [dequeue, hempty, hb]
        rw [heq]
        exact hrest

end RingQueue

end AeronReplay
