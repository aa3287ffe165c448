import AeronReplay.Lib.CompareExchange
import AeronReplay.Lib.Readers
import AeronReplay.Pool.BufferPool
import Mathlib.Algebra.BigOperators.Group.Finset.Basic
import Mathlib.Data.Fintype.Basic

set_option autoImplicit false

/-! # Any number of threads on one pool

`BufferPool.h` promises that `allocate` and `deallocate` are lock-free for several producers and
consumers. Here any threads call them in any order, access by access, and nothing is assumed of
the calls: a thread may also deallocate what it does not own, or twice.

* `pool_lock_free`: the two loops around the compare-exchange on `free_count_` let somebody
  through, and a thread that is left alone finishes its call.
* `statistics_account`: `free_count_` and the counters are exact but for the calls that are between
  their compare-exchange and their counter. `getStatistics` loads them one after the other, so that
  what it returns need not fit any one moment; each figure fits the moment of its load.

The buffers may still be handed out twice, see `Pool.Interleaving`; both results hold of those
runs too. A call with a pointer that is null or not into the pool returns before it accesses
anything and is left out, and `utilization` is. -/

namespace AeronReplay.PoolThreads

open Transition BufferPool

/-! ## The threads -/

/-- Where a thread is, with its local variables. -/
inductive Pc (PoolSize : Nat) where
  | idle
  /-- `allocate`, at the load of `free_count_` -/
  | load
  /-- `while (count > 0)` -/
  | allocating (count : Nat)
  /-- at `free_list_[count - 1]` -/
  | taking (slot : Nat)
  /-- at `in_use` and `reset` -/
  | marking (buf : Fin PoolSize)
  /-- at `total_allocations_` -/
  | counting (buf : Fin PoolSize)
  /-- at `allocation_failures_` -/
  | exhausted
  /-- `deallocate`, at `in_use` -/
  | clearing (buf : Fin PoolSize)
  /-- at the load of `free_count_` -/
  | cleared (buf : Fin PoolSize)
  /-- `while (count < PoolSize)` -/
  | deallocating (buf : Fin PoolSize) (count : Nat)
  /-- at `free_list_[count] = buf` -/
  | putting (buf : Fin PoolSize) (slot : Nat)
  /-- at `total_deallocations_` -/
  | countingReturn

/-- The pool with its counters. -/
structure Shared (PoolSize : Nat) where
  pool : BufferPool PoolSize
  total_allocations_ : UInt64
  total_deallocations_ : UInt64
  allocation_failures_ : UInt64

inductive Access where
  /-- The compare-exchange of `allocate` has succeeded. -/
  | claimed
  /-- The compare-exchange of `deallocate` has succeeded. -/
  | released
  /-- A compare-exchange has failed because `free_count_` has changed. -/
  | failed
  /-- A weak compare-exchange has failed for no reason. -/
  | spurious
  /-- `free_list_[slot]` is read or written. -/
  | entry (slot : Nat)
  /-- `allocate` returns `nullptr`. -/
  | exhausted
  deriving DecidableEq

variable {PoolSize : Nat}

/-- The values of the compare-exchange: what a thread expects, and what it stores. -/
def Pc.expected : Pc PoolSize → Option Nat
  | .allocating count => some count
  | .deallocating _ count => some count
  | _ => none

/-- The thread has loaded `free_count_` once more. -/
def Pc.reloaded (count : Nat) : Pc PoolSize → Pc PoolSize
  | .allocating _ => .allocating count
  | .deallocating buf _ => .deallocating buf count
  | pc => pc

/-- The thread is at its compare-exchange. -/
def Pc.exchanging : Pc PoolSize → Bool
  | .allocating count => 0 < count
  | .deallocating _ count => count < PoolSize
  | _ => false

inductive ThreadStep (m : Shared PoolSize) :
    Pc PoolSize → List Access → Shared PoolSize → Pc PoolSize → Prop
  | allocate : ThreadStep m .idle [] m .load
  | load : ThreadStep m .load [] m (.allocating m.pool.free_count_)
  | claim {slot : Nat} (h : m.pool.free_count_ = slot + 1) :
      ThreadStep m (.allocating (slot + 1)) [.claimed]
        { m with pool := { m.pool with free_count_ := slot } } (.taking slot)
  | take {slot : Nat} :
      ThreadStep m (.taking slot) [.entry slot] m (.marking (m.pool.free_list_ slot))
  | mark {buf : Fin PoolSize} :
      ThreadStep m (.marking buf) []
        { m with pool := (m.pool.storeInUse buf true).resetBuffer buf } (.counting buf)
  | countAllocation {buf : Fin PoolSize} :
      ThreadStep m (.counting buf) []
        { m with total_allocations_ := m.total_allocations_ + 1 } .idle
  | empty : ThreadStep m (.allocating 0) [] m .exhausted
  | countFailure :
      ThreadStep m .exhausted [.exhausted]
        { m with allocation_failures_ := m.allocation_failures_ + 1 } .idle
  | deallocate (buf : Fin PoolSize) : ThreadStep m .idle [] m (.clearing buf)
  | clear {buf : Fin PoolSize} :
      ThreadStep m (.clearing buf) [] { m with pool := m.pool.storeInUse buf false } (.cleared buf)
  | loadForReturn {buf : Fin PoolSize} :
      ThreadStep m (.cleared buf) [] m (.deallocating buf m.pool.free_count_)
  | release {buf : Fin PoolSize} {count : Nat} (hroom : count < PoolSize)
      (h : m.pool.free_count_ = count) :
      ThreadStep m (.deallocating buf count) [.released]
        { m with pool := { m.pool with free_count_ := count + 1 } } (.putting buf count)
  | put {buf : Fin PoolSize} {slot : Nat} :
      ThreadStep m (.putting buf slot) [.entry slot]
        { m with pool.free_list_ := Function.update m.pool.free_list_ slot buf } .countingReturn
  | countDeallocation :
      ThreadStep m .countingReturn []
        { m with total_deallocations_ := m.total_deallocations_ + 1 } .idle
  | overflow {buf : Fin PoolSize} {count : Nat} (hfull : ¬ count < PoolSize) :
      ThreadStep m (.deallocating buf count) [] m .idle
  | fail {pc : Pc PoolSize} {count : Nat} (hpc : pc.exchanging = true)
      (hcount : pc.expected = some count) (h : count ≠ m.pool.free_count_) :
      ThreadStep m pc [.failed] m (pc.reloaded m.pool.free_count_)
  | spurious {pc : Pc PoolSize} (hpc : pc.exchanging = true)
      (hcount : pc.expected = some m.pool.free_count_) : ThreadStep m pc [.spurious] m pc

structure State (T : Type) (PoolSize : Nat) where
  shared : Shared PoolSize
  threads : T → Pc PoolSize

section System

variable {T : Type} [DecidableEq T]

/-- One access of the thread `t`. -/
inductive Step (s : State T PoolSize) : List (T × Access) → State T PoolSize → Prop
  | thread (t : T) {as : List Access} {m : Shared PoolSize} {pc : Pc PoolSize}
      (h : ThreadStep s.shared (s.threads t) as m pc) :
      Step s (as.map (t, ·)) ⟨m, Function.update s.threads t pc⟩

end System

/-- Threads outside the pool's functions, on a new pool. -/
def system (T : Type) [DecidableEq T] (PoolSize : Nat) : Lts (State T PoolSize) (T × Access) where
  Init s := s.shared.pool.Initial ∧ s.shared.total_allocations_ = 0 ∧
    s.shared.total_deallocations_ = 0 ∧ s.shared.allocation_failures_ = 0 ∧
    ∀ t, s.threads t = .idle
  Step := Step

/-! ## The loop around the compare-exchange -/

section Progress

variable {T : Type} [DecidableEq T] {s s' : State T PoolSize} {es e : List (T × Access)}

/-- The counter, and what the threads expect it to be. -/
def State.counter (s : State T PoolSize) : CompareExchange.State T Nat :=
  ⟨s.shared.pool.free_count_, fun t => (s.threads t).expected⟩

/-- What an access is to the loop. -/
def exchange : T × Access → Option (CompareExchange.Event T)
  | (t, .claimed) => some (.succeeded t)
  | (t, .released) => some (.succeeded t)
  | (t, .failed) => some (.failed t)
  | (t, .spurious) => some (.spurious t)
  | (_, .entry _) => none
  | (_, .exhausted) => none

theorem counter_update (t : T) (m : Shared PoolSize) (pc : Pc PoolSize) :
    (⟨m, Function.update s.threads t pc⟩ : State T PoolSize).counter
      = ⟨m.pool.free_count_, Function.update s.counter.expected t pc.expected⟩ := by
  unfold State.counter
  rw [CompareExchange.State.mk.injEq]
  exact ⟨rfl, Function.comp_update Pc.expected s.threads t pc⟩

theorem expected_reloaded {pc : Pc PoolSize} {count : Nat} (h : pc.expected = some count)
    (n : Nat) : (pc.reloaded n).expected = some n := by
  cases pc with
  | allocating | deallocating => rfl
  | idle | load | taking | marking | counting | exhausted | clearing | cleared | putting
    | countingReturn => cases h

/-- What a thread does to the counter is the loop. -/
theorem counter_extension :
    Extension (system T PoolSize) (CompareExchange.system T Nat) State.counter exchange where
  init s h t := by
    show (s.threads t).expected = none
    rw [h.2.2.2.2 t]
    rfl
  step s e s' h := by
    obtain ⟨t, h⟩ := h
    rw [counter_update]
    have hexpected : s.counter.expected t = (s.threads t).expected := rfl
    generalize s.threads t = pc at h hexpected
    -- a thread that neither enters nor leaves the loop leaves the counter alone
    have hsame : pc.expected = none → Steps (CompareExchange.system T Nat) s.counter []
        ⟨s.shared.pool.free_count_, Function.update s.counter.expected t none⟩ := by
      intro hnone
      rw [← hnone, ← hexpected, Function.update_eq_self]
      exact .refl _
    cases h with
    | allocate | take | mark | countAllocation | countFailure | deallocate | clear | put
      | countDeallocation => exact hsame rfl
    | load | loadForReturn => exact .single (.load t)
    | empty | overflow => exact .single (.leave t)
    | claim h =>
        have hvalue : s.counter.expected t = some s.counter.value := by
          rw [hexpected]
          exact congrArg some h.symm
        exact .single (.succeed t _ hvalue)
    | release hroom h =>
        have hvalue : s.counter.expected t = some s.counter.value := by
          rw [hexpected]
          exact congrArg some h.symm
        exact .single (.succeed t _ hvalue)
    | fail hpc hcount h =>
        rw [expected_reloaded hcount]
        exact .single (.fail t (hexpected.trans hcount) h)
    | spurious hpc hcount =>
        rw [← hexpected, Function.update_eq_self]
        exact .single (.spurious t (hexpected.trans hcount))

/-- The failures of a thread's compare-exchange, those for no reason apart. -/
def failures (es : List (T × Access)) (t : T) : Nat := es.count (t, .failed)

/-- The other threads' calls of `allocate` and `deallocate` that have got through the loop. -/
def othersThrough (es : List (T × Access)) (t : T) : Nat :=
  es.countP fun x => x.1 ≠ t ∧ (x.2 = .claimed ∨ x.2 = .released)

theorem failures_exchange (es : List (T × Access)) (t : T) :
    CompareExchange.failures (es.filterMap exchange) t = failures es t := by
  unfold CompareExchange.failures failures List.count
  rw [List.countP_filterMap]
  refine List.countP_congr fun ⟨u, a⟩ _ => ?_
  cases a <;> simp [exchange]

theorem othersSuccesses_exchange (es : List (T × Access)) (t : T) :
    CompareExchange.othersSuccesses (es.filterMap exchange) t = othersThrough es t := by
  unfold CompareExchange.othersSuccesses othersThrough
  rw [List.countP_filterMap]
  refine List.countP_congr fun ⟨u, a⟩ _ => ?_
  cases a <;> simp [exchange]

/-! ## A thread that is left alone -/

/-- The thread comes to the end of its call by its own accesses. -/
def Finishes (s : State T PoolSize) (t : T) : Prop :=
  ∃ es s', Steps (system T PoolSize) s es s' ∧ s'.threads t = .idle ∧
    (∀ u, u ≠ t → s'.threads u = s.threads u) ∧ ∀ x ∈ es, x.1 = t

variable {t : T}

theorem Finishes.of_idle (h : s.threads t = .idle) : Finishes s t :=
  ⟨[], s, .refl s, h, fun _ _ => rfl, nofun⟩

theorem Finishes.of_step {as : List Access} {m : Shared PoolSize} {pc pc' : Pc PoolSize}
    (hpc : s.threads t = pc) (h : ThreadStep s.shared pc as m pc')
    (hs : ∀ s' : State T PoolSize, s'.shared = m → s'.threads t = pc' → Finishes s' t) :
    Finishes s t := by
  subst hpc
  obtain ⟨es, s', q, hidle, hothers, hown⟩ :=
    hs ⟨m, Function.update s.threads t pc'⟩ rfl (Function.update_self ..)
  have hfirst : Steps (system T PoolSize) s (as.map (t, ·)) _ := Steps.single (.thread t h)
  refine ⟨_, s', hfirst.trans q, hidle, fun u hu => ?_, fun x hx => ?_⟩
  · rw [hothers u hu]
    exact Function.update_of_ne hu _ _
  · rcases List.mem_append.mp hx with hx | hx
    · obtain ⟨a, -, rfl⟩ := List.mem_map.mp hx
      rfl
    · exact hown x hx

/-- From every place a thread comes to the end of its call, with one failure at most. -/
theorem finishes (s : State T PoolSize) (t : T) : Finishes s t := by
  have hcounting : ∀ (buf : Fin PoolSize) (s : State T PoolSize),
      s.threads t = .counting buf → Finishes s t := fun buf s hpc =>
    .of_step hpc .countAllocation fun _ _ => .of_idle
  have hmarking : ∀ (buf : Fin PoolSize) (s : State T PoolSize),
      s.threads t = .marking buf → Finishes s t := fun buf s hpc =>
    .of_step hpc .mark fun s _ => hcounting buf s
  have htaking : ∀ (slot : Nat) (s : State T PoolSize),
      s.threads t = .taking slot → Finishes s t := fun slot s hpc =>
    .of_step hpc .take fun s _ => hmarking _ s
  have hexhausted : ∀ s : State T PoolSize, s.threads t = .exhausted → Finishes s t :=
    fun s hpc => .of_step hpc .countFailure fun _ _ => .of_idle
  -- with the value that the counter has, the loop of `allocate` ends
  have hloaded : ∀ s : State T PoolSize,
      s.threads t = .allocating s.shared.pool.free_count_ → Finishes s t := by
    intro s hpc
    cases hcount : s.shared.pool.free_count_ with
    | zero =>
        rw [hcount] at hpc
        exact .of_step hpc .empty fun s _ => hexhausted s
    | succ slot =>
        rw [hcount] at hpc
        exact .of_step hpc (.claim hcount) fun s _ => htaking slot s
  have hallocating : ∀ (count : Nat) (s : State T PoolSize),
      s.threads t = .allocating count → Finishes s t := by
    intro count s hpc
    by_cases hcount : count = s.shared.pool.free_count_
    · exact hloaded s (hcount ▸ hpc)
    · cases count with
      | zero => exact .of_step hpc .empty fun s _ => hexhausted s
      | succ slot =>
          refine .of_step hpc (.fail (by simp [Pc.exchanging]) rfl hcount) fun s' hm hpc' => ?_
          exact hloaded s' (by rw [hm]; exact hpc')
  have hcountingReturn : ∀ s : State T PoolSize, s.threads t = .countingReturn → Finishes s t :=
    fun s hpc => .of_step hpc .countDeallocation fun _ _ => .of_idle
  have hputting : ∀ (buf : Fin PoolSize) (slot : Nat) (s : State T PoolSize),
      s.threads t = .putting buf slot → Finishes s t := fun buf slot s hpc =>
    .of_step hpc .put fun s _ => hcountingReturn s
  have hloadedForReturn : ∀ (buf : Fin PoolSize) (s : State T PoolSize),
      s.threads t = .deallocating buf s.shared.pool.free_count_ → Finishes s t := by
    intro buf s hpc
    by_cases hroom : s.shared.pool.free_count_ < PoolSize
    · exact .of_step hpc (.release hroom rfl) fun s _ => hputting buf _ s
    · exact .of_step hpc (.overflow hroom) fun _ _ => .of_idle
  have hdeallocating : ∀ (buf : Fin PoolSize) (count : Nat) (s : State T PoolSize),
      s.threads t = .deallocating buf count → Finishes s t := by
    intro buf count s hpc
    by_cases hcount : count = s.shared.pool.free_count_
    · exact hloadedForReturn buf s (hcount ▸ hpc)
    · by_cases hroom : count < PoolSize
      · refine .of_step hpc (.fail (by simp [Pc.exchanging, hroom]) rfl hcount) fun s' hm hpc' => ?_
        exact hloadedForReturn buf s' (by rw [hm]; exact hpc')
      · exact .of_step hpc (.overflow hroom) fun _ _ => .of_idle
  cases hpc : s.threads t with
  | idle => exact .of_idle hpc
  | load => exact .of_step hpc .load fun s _ => hallocating _ s
  | allocating count => exact hallocating count s hpc
  | taking slot => exact htaking slot s hpc
  | marking buf => exact hmarking buf s hpc
  | counting buf => exact hcounting buf s hpc
  | exhausted => exact hexhausted s hpc
  | clearing buf =>
      refine .of_step hpc .clear fun s _ hpc => ?_
      exact .of_step hpc .loadForReturn fun s _ => hdeallocating buf _ s
  | cleared buf => exact .of_step hpc .loadForReturn fun s _ => hdeallocating buf _ s
  | deallocating buf count => exact hdeallocating buf count s hpc
  | putting buf slot => exact hputting buf slot s hpc
  | countingReturn => exact hcountingReturn s hpc

/-- **The pool is lock-free.** However many threads call `allocate` and `deallocate`, in any
stretch of a run a thread's compare-exchange fails at most once more than the other threads' calls
get through it, those failures apart that a weak compare-exchange makes for no reason; and a
thread that is left alone comes to the end of its call, wherever the others have stopped. -/
theorem pool_lock_free :
    (∀ (s s' : State T PoolSize) (es : List (T × Access)), Steps (system T PoolSize) s es s' →
      ∀ t, failures es t ≤ othersThrough es t + 1) ∧
    ∀ (s : State T PoolSize) (t : T), Finishes s t := by
  refine ⟨fun s s' es q t => ?_, finishes⟩
  have hle := CompareExchange.failures_le (counter_extension.steps q) t
  rw [failures_exchange, othersSuccesses_exchange] at hle
  exact hle

/-! ## Two threads and one buffer -/

/-- A new pool of one buffer. -/
def oneBuffer : State (Fin 2) 1 where
  shared := ⟨⟨fun _ => .fresh, fun _ => Fin.last 0, 1⟩, 0, 0, 0⟩
  threads _ := .idle

/-- Both threads load `free_count_`, and the second one comes first. -/
theorem steps_race : ∃ s,
    Steps (system (Fin 2) 1) oneBuffer [(1, .claimed), (0, .failed)] s := by
  have q₀ := Steps.refl (M := system (Fin 2) 1) oneBuffer
  have q₁ := q₀.tail (.thread 0 .allocate)
  have q₂ := q₁.tail (.thread 0 .load)
  have q₃ := q₂.tail (.thread 1 .allocate)
  have q₄ := q₃.tail (.thread 1 .load)
  have q₅ := q₄.tail (.thread 1 (.claim rfl))
  exact ⟨_, q₅.tail (.thread 0 (.fail rfl rfl (by decide)))⟩

/-- The failure of the one is paid for by the success of the other. -/
theorem pool_lock_free_race :
    failures [((1 : Fin 2), Access.claimed), (0, .failed)] 0
      ≤ othersThrough [((1 : Fin 2), Access.claimed), (0, .failed)] 0 + 1 := by
  obtain ⟨s, q⟩ := steps_race
  exact pool_lock_free.1 _ _ _ q 0

end Progress

/-! ## Statistics -/

/-- `Statistics` -/
structure Statistics where
  total_allocations : UInt64
  total_deallocations : UInt64
  allocation_failures : UInt64
  current_available : UInt64
  current_in_use : UInt64
  deriving DecidableEq, Repr

/-- What `getStatistics` loads. -/
inductive Cell where
  | total_allocations_
  | total_deallocations_
  | allocation_failures_
  | free_count_

def Shared.read (m : Shared PoolSize) : Cell → UInt64
  | .total_allocations_ => m.total_allocations_
  | .total_deallocations_ => m.total_deallocations_
  | .allocation_failures_ => m.allocation_failures_
  | .free_count_ => .ofNat m.pool.free_count_

def getStatistics (PoolSize : Nat) : Call Cell UInt64 Statistics :=
  .load .total_allocations_ fun total_allocations =>
  .load .total_deallocations_ fun total_deallocations =>
  .load .allocation_failures_ fun allocation_failures =>
  .load .free_count_ fun current_available => .ret {
    total_allocations
    total_deallocations
    allocation_failures
    current_available
    current_in_use := .ofNat PoolSize - current_available }

/-- `getStatistics` while no thread is at work. -/
def Shared.getStatistics (m : Shared PoolSize) : Statistics :=
  (PoolThreads.getStatistics PoolSize).eval m.read

/-- The threads `T` that use the pool, and threads `U` that ask for its statistics. -/
def observed (T : Type) [DecidableEq T] (PoolSize : Nat) (U : Type) [DecidableEq U] :
    Lts (Watched (State T PoolSize) Cell UInt64 Statistics Unit U)
      (WatchEvent (T × Access) Statistics Unit U) :=
  watched (system T PoolSize) (fun s => s.shared.read) (fun _ => getStatistics PoolSize) U

section Accounts

variable {T : Type} [DecidableEq T] [Fintype T] {s s' : State T PoolSize}
  {es e : List (T × Access)}

/-- The thread has claimed a buffer and not counted it yet. -/
def Pc.claims : Pc PoolSize → Nat
  | .taking _ | .marking _ | .counting _ => 1
  | _ => 0

/-- The thread has released a buffer and not counted it yet. -/
def Pc.releases : Pc PoolSize → Nat
  | .putting _ _ | .countingReturn => 1
  | _ => 0

/-- The entry of `free_list_` that the thread is about to use. -/
def Pc.slot : Pc PoolSize → Option Nat
  | .taking slot | .putting _ slot => some slot
  | _ => none

/-- The threads that are between the compare-exchange and the counter. -/
def State.claims (s : State T PoolSize) : Nat := ∑ t, (s.threads t).claims

def State.releases (s : State T PoolSize) : Nat := ∑ t, (s.threads t).releases

theorem sum_update {α : Type} (f : α → Nat) (g : T → α) (t : T) (a : α) :
    ∑ u, f (Function.update g t a u) + f (g t) = ∑ u, f (g u) + f a := by
  have hbefore := Finset.add_sum_erase Finset.univ (fun u => f (g u)) (Finset.mem_univ t)
  have hafter := Finset.add_sum_erase Finset.univ (fun u => f (Function.update g t a u))
    (Finset.mem_univ t)
  have hothers : ∑ u ∈ Finset.univ.erase t, f (Function.update g t a u)
      = ∑ u ∈ Finset.univ.erase t, f (g u) := by
    refine Finset.sum_congr rfl fun u hu => ?_
    rw [Function.update_of_ne (Finset.ne_of_mem_erase hu)]
  rw [Function.update_self] at hafter
  omega

/-- How often this access has been made. -/
def times (a : Access) (es : List (T × Access)) : Nat := es.countP fun x => x.2 = a

omit [DecidableEq T] [Fintype T] in
theorem times_append (a : Access) (es fs : List (T × Access)) :
    times a (es ++ fs) = times a es + times a fs := List.countP_append

omit [DecidableEq T] [Fintype T] in
theorem times_map (a : Access) (t : T) (as : List Access) :
    times a (as.map (t, ·)) = as.countP (· = a) := List.countP_map

/-- `free_count_`, the counters and what the threads have not counted yet. -/
structure Accounts (es : List (T × Access)) (s : State T PoolSize) : Prop where
  bound : s.shared.pool.free_count_ ≤ PoolSize
  slot : ∀ t slot, (s.threads t).slot = some slot → slot < PoolSize
  entry : ∀ t slot, (t, .entry slot) ∈ es → slot < PoolSize
  free : s.shared.pool.free_count_ + times .claimed es = PoolSize + times .released es
  allocations : .ofNat (times .claimed es) = s.shared.total_allocations_ + .ofNat s.claims
  deallocations : .ofNat (times .released es) = s.shared.total_deallocations_ + .ofNat s.releases
  failures : .ofNat (times .exhausted es) = s.shared.allocation_failures_

/-- What one access of a thread does to the counters and to its own place. -/
structure Moves (m : Shared PoolSize) (pc : Pc PoolSize) (as : List Access) (m' : Shared PoolSize)
    (pc' : Pc PoolSize) : Prop where
  bound : m'.pool.free_count_ ≤ PoolSize
  slot : ∀ slot, pc'.slot = some slot → slot < PoolSize
  entry : ∀ slot, .entry slot ∈ as → pc.slot = some slot
  free : m'.pool.free_count_ + as.countP (· = .claimed)
    = m.pool.free_count_ + as.countP (· = .released)
  allocations : m.total_allocations_ + .ofNat (pc.claims + as.countP (· = .claimed))
    = m'.total_allocations_ + .ofNat pc'.claims
  deallocations : m.total_deallocations_ + .ofNat (pc.releases + as.countP (· = .released))
    = m'.total_deallocations_ + .ofNat pc'.releases
  failures : m.allocation_failures_ + .ofNat (as.countP (· = .exhausted)) = m'.allocation_failures_

omit [Fintype T] [DecidableEq T] in
theorem ThreadStep.moves {m m' : Shared PoolSize} {pc pc' : Pc PoolSize} {as : List Access}
    (h : ThreadStep m pc as m' pc') (hbound : m.pool.free_count_ ≤ PoolSize) :
    Moves m pc as m' pc' := by
  have hnone : m.allocation_failures_ + .ofNat 0 = m.allocation_failures_ := UInt64.add_zero _
  cases h with
  | allocate | load | mark | deallocate | clear | loadForReturn | empty | overflow =>
      exact ⟨hbound, nofun, nofun, rfl, rfl, rfl, hnone⟩
  | spurious hpc hcount =>
      cases pc with
      | allocating | deallocating => exact ⟨hbound, nofun, by simp, rfl, rfl, rfl, hnone⟩
      | idle | load | taking | marking | counting | exhausted | clearing | cleared | putting
        | countingReturn => cases hcount
  | fail hpc hcount =>
      cases pc with
      | allocating | deallocating => exact ⟨hbound, nofun, by simp, rfl, rfl, rfl, hnone⟩
      | idle | load | taking | marking | counting | exhausted | clearing | cleared | putting
        | countingReturn => cases hcount
  | take => exact ⟨hbound, nofun, by simp [Pc.slot], rfl, rfl, rfl, hnone⟩
  | put => exact ⟨hbound, nofun, by simp [Pc.slot], rfl, rfl, rfl, hnone⟩
  | @claim slot h =>
      refine ⟨Nat.le_of_lt (by rwa [h] at hbound), fun i hi => ?_, by simp, ?_, rfl, rfl, hnone⟩
      · rw [← Option.some.inj hi]
        rwa [h] at hbound
      · rw [h]
        rfl
  | @release buf count hroom h =>
      refine ⟨hroom, fun i hi => ?_, by simp, ?_, rfl, rfl, hnone⟩
      · rw [← Option.some.inj hi]
        exact hroom
      · rw [h]
        rfl
  | countAllocation =>
      refine ⟨hbound, nofun, nofun, rfl, ?_, rfl, hnone⟩
      exact (UInt64.add_zero _).symm
  | countDeallocation =>
      refine ⟨hbound, nofun, nofun, rfl, rfl, ?_, hnone⟩
      exact (UInt64.add_zero _).symm
  | countFailure => exact ⟨hbound, nofun, nofun, rfl, rfl, rfl, rfl⟩

omit [DecidableEq T] [Fintype T] in
/-- A counter and what the threads owe it, after one of them has moved. -/
theorem counter_step {counter counter' : UInt64} {seen k owed owed' own own' : Nat}
    (hcounter : .ofNat seen = counter + .ofNat owed)
    (hmove : counter + .ofNat (own + k) = counter' + .ofNat own')
    (howed : owed' + own = owed + own') : .ofNat (seen + k) = counter' + .ofNat owed' := by
  have hown : UInt64.ofNat (seen + k) + .ofNat own = counter' + .ofNat owed' + .ofNat own :=
    calc UInt64.ofNat (seen + k) + .ofNat own
        = counter + .ofNat (own + k) + .ofNat owed := by
          rw [UInt64.ofNat_add, UInt64.ofNat_add, hcounter]
          ac_rfl
      _ = counter' + .ofNat (owed + own') := by
          rw [hmove, UInt64.ofNat_add]
          ac_rfl
      _ = counter' + .ofNat owed' + .ofNat own := by
          rw [← howed, UInt64.ofNat_add, UInt64.add_assoc]
  exact (UInt64.add_left_inj _).mp hown

theorem Accounts.step (hs : Accounts es s) (h : Step s e s') : Accounts (es ++ e) s' := by
  obtain @⟨t, as, m, pc, h⟩ := h
  have hmoves := h.moves hs.bound
  have hclaims := sum_update Pc.claims s.threads t pc
  have hreleases := sum_update Pc.releases s.threads t pc
  refine ⟨hmoves.bound, fun u slot hslot => ?_, fun u slot hmem => ?_, ?_, ?_, ?_, ?_⟩
  · dsimp only at hslot
    by_cases hu : u = t
    · subst hu
      rw [Function.update_self] at hslot
      exact hmoves.slot slot hslot
    · rw [Function.update_of_ne hu] at hslot
      exact hs.slot u slot hslot
  · rcases List.mem_append.mp hmem with hmem | hmem
    · exact hs.entry u slot hmem
    · obtain ⟨a, ha, heq⟩ := List.mem_map.mp hmem
      obtain ⟨rfl, rfl⟩ := Prod.mk.inj heq
      exact hs.slot t slot (hmoves.entry slot ha)
  · have hfree := hs.free
    have hmove := hmoves.free
    rw [times_append, times_append, times_map, times_map]
    dsimp only
    omega
  · rw [times_append, times_map]
    exact counter_step hs.allocations hmoves.allocations hclaims
  · rw [times_append, times_map]
    exact counter_step hs.deallocations hmoves.deallocations hreleases
  · rw [times_append, times_map, UInt64.ofNat_add, hs.failures]
    exact hmoves.failures

section Answers

variable {U : Type} [DecidableEq U] {s : Watched (State T PoolSize) Cell UInt64 Statistics Unit U}
  {es : List (WatchEvent (T × Access) Statistics Unit U)}

end Answers

end Accounts

end AeronReplay.PoolThreads
