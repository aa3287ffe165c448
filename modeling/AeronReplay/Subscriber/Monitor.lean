import AeronReplay.Lib.Checked
import Mathlib.Data.List.Induction
import Mathlib.Algebra.Order.Field.Rat
import Mathlib.Algebra.Order.Floor.Ring
import Mathlib.Algebra.Order.BigOperators.Group.List
import Mathlib.Data.Rat.Floor
import Mathlib.Tactic.Linarith

set_option autoImplicit false

/-! # The monitoring thread

The loop of the monitoring thread in the subscriber's `main.cpp`, which sums up the latencies of the
messages that the worker reports and prints their average, minimum and maximum at every hundredth
message. Messages without a positive latency are left out of the sum but counted in the divisor.
`reports_consistent_iff` says for which messages the average that is printed lies between the
minimum and the maximum.

Latencies are exact rationals here, where the code has a `double`. -/

namespace AeronReplay

open Checked

/-- `MessageStats`, the timestamps. -/
structure MessageStats where
  send_timestamp : Int64
  recv_timestamp : Int64

namespace MessageStats

def latency_us (s : MessageStats) : ℚ :=
  if 0 < s.send_timestamp ∧ s.send_timestamp < s.recv_timestamp then
    ((s.recv_timestamp - s.send_timestamp).toInt : ℚ) / 1000
  else 0

end MessageStats

/-- The variables of the loop. -/
structure Monitor where
  counter : Int64 := 0
  total_latency_us : Int64 := 0
  min_latency_us : Int64 := Int64.maxValue
  max_latency_us : Int64 := 0

/-- The latency figures that are printed. -/
structure LatencyReport where
  avg_latency : ℚ
  min_latency_us : Int64
  max_latency_us : Int64
  deriving DecidableEq

namespace Monitor

/-- What the loop does with a message, unless a sum overflows. -/
def observe (m : Monitor) (stats : MessageStats) : Option Monitor := do
  let counter ← add? m.counter 1
  let latency := stats.latency_us
  if 0 < latency then
    let us := Int64.ofInt ⌊latency⌋
    let total_latency_us ← add? m.total_latency_us us
    some
      { counter
        total_latency_us
        min_latency_us := if us < m.min_latency_us then us else m.min_latency_us
        max_latency_us := if m.max_latency_us < us then us else m.max_latency_us }
  else some { m with counter }

/-- The loop over the messages. -/
def run (stats : List MessageStats) : Option Monitor := stats.foldlM observe {}

/-- What is printed after a message, as far as it is about latencies. -/
def report (m : Monitor) : Option LatencyReport :=
  if m.counter % 100 = 0 then
    let avg_latency : ℚ :=
      if 0 < m.counter then (m.total_latency_us.toInt : ℚ) / m.counter.toInt else 0
    if 0 < avg_latency then some ⟨avg_latency, m.min_latency_us, m.max_latency_us⟩ else none
  else none

end Monitor

/-- The average lies between the minimum and the maximum. -/
def LatencyReport.Consistent (r : LatencyReport) : Prop :=
  (r.min_latency_us.toInt : ℚ) ≤ r.avg_latency ∧ r.avg_latency ≤ r.max_latency_us.toInt

/-! ## Samples -/

/-- The latency that a message adds to the sum, if it has a positive one. -/
def MessageStats.sample (s : MessageStats) : Option Int :=
  if 0 < s.latency_us then some ⌊s.latency_us⌋ else none

def samples (stats : List MessageStats) : List Int := stats.filterMap MessageStats.sample

theorem MessageStats.sample_range {s : MessageStats} {l : Int} (h : s.sample = some l) :
    0 ≤ l ∧ l < 2 ^ 63 := by
  rw [sample] at h
  split at h
  case isFalse => exact absurd h (by simp)
  case isTrue hpos =>
    obtain rfl := Option.some.inj h
    refine ⟨Int.floor_nonneg.mpr (le_of_lt hpos), ?_⟩
    have hdiff := (s.recv_timestamp - s.send_timestamp).toInt_lt
    have hcast : ((s.recv_timestamp - s.send_timestamp).toInt : ℚ) < 2 ^ 63 := by
      exact_mod_cast hdiff
    rw [Int.floor_lt, latency_us]
    push_cast
    split
    · linarith
    · norm_num

theorem samples_snoc (stats : List MessageStats) (s : MessageStats) :
    samples (stats ++ [s]) = samples stats ++ s.sample.toList := by
  rw [samples, List.filterMap_append]
  cases h : s.sample with
  | none => rw [List.filterMap_cons_none h]; rfl
  | some l => rw [List.filterMap_cons_some h]; rfl

theorem mem_samples_range {stats : List MessageStats} {l : Int} (h : l ∈ samples stats) :
    0 ≤ l ∧ l < 2 ^ 63 := by
  obtain ⟨s, -, hs⟩ := List.mem_filterMap.mp h
  exact MessageStats.sample_range hs

/-! ## What the loop has summed up -/

/-- Neither of the two sums overflows. -/
def Fitting (stats : List MessageStats) : Prop :=
  stats.length < 2 ^ 63 ∧ (samples stats).sum < 2 ^ 63

namespace Monitor

/-- The variables of the loop after the messages. -/
structure Summary (stats : List MessageStats) (m : Monitor) : Prop where
  counter : m.counter.toInt = stats.length
  total : m.total_latency_us.toInt = (samples stats).sum
  least : m.min_latency_us.toInt ∈ samples stats ∨
    samples stats = [] ∧ m.min_latency_us.toInt = 2 ^ 63 - 1
  minimum : ∀ l ∈ samples stats, m.min_latency_us.toInt ≤ l
  maximum : ∀ l ∈ samples stats, l ≤ m.max_latency_us.toInt
  nonneg : 0 ≤ m.max_latency_us.toInt

theorem sum_nonneg (stats : List MessageStats) : 0 ≤ (samples stats).sum :=
  List.sum_nonneg fun _ hl => (mem_samples_range hl).1

/-- A counter that has not reached its limit goes through. -/
theorem add?_counter {c : Int64} {n : Nat} (hc : c.toInt = n) :
    (n + 1 < 2 ^ 63 ∧ add? c 1 = some (c + 1) ∧ (c + 1).toInt = ((n + 1 : Nat) : Int)) ∨
      (2 ^ 63 ≤ n + 1 ∧ add? c 1 = none) := by
  have hone : (1 : Int64).toInt = 1 := Int64.toInt_one
  by_cases hn : n + 1 < 2 ^ 63
  · have hfits : Fits (c.toInt + (1 : Int64).toInt) := ⟨by omega, by omega⟩
    refine Or.inl ⟨hn, add?_of_fits hfits, ?_⟩
    rw [toInt_add_of_fits hfits]
    omega
  · refine Or.inr ⟨by omega, add?_of_not_fits fun hfits => ?_⟩
    have := hfits.2
    omega

/-- A step without a sample. -/
theorem observe_of_none {m : Monitor} {s : MessageStats} (hs : s.sample = none) :
    m.observe s = (add? m.counter 1).map fun counter => { m with counter } := by
  have hlat : ¬ 0 < s.latency_us := fun hpos => by
    rw [MessageStats.sample, if_pos hpos] at hs
    exact absurd hs (by simp)
  rw [observe]
  cases add? m.counter 1 with
  | none => rfl
  | some c => simp [hlat]

/-- A step with a sample. -/
theorem observe_of_some {m : Monitor} {s : MessageStats} {l : Int} (hs : s.sample = some l) :
    m.observe s = (add? m.counter 1).bind fun counter =>
      (add? m.total_latency_us (Int64.ofInt l)).map fun total_latency_us =>
        { counter
          total_latency_us
          min_latency_us :=
            if Int64.ofInt l < m.min_latency_us then Int64.ofInt l else m.min_latency_us
          max_latency_us :=
            if m.max_latency_us < Int64.ofInt l then Int64.ofInt l else m.max_latency_us } := by
  rw [MessageStats.sample] at hs
  split at hs
  case isFalse => exact absurd hs (by simp)
  case isTrue hpos =>
    obtain rfl := Option.some.inj hs
    rw [observe]
    cases add? m.counter 1 with
    | none => rfl
    | some c =>
        simp only [if_pos hpos, Option.bind_eq_bind, Option.bind_some]
        cases add? m.total_latency_us (Int64.ofInt ⌊s.latency_us⌋) with
        | none => rfl
        | some t => rfl

/-- A message without a sample only counts. -/
theorem Summary.observe_of_none {stats : List MessageStats} {m : Monitor} (h : Summary stats m)
    {s : MessageStats} (hs : s.sample = none) :
    (Fitting (stats ++ [s]) → ∃ m', m.observe s = some m' ∧ Summary (stats ++ [s]) m') ∧
      (¬ Fitting (stats ++ [s]) → m.observe s = none) := by
  have hlen : (stats ++ [s]).length = stats.length + 1 := by simp
  have hsame : samples (stats ++ [s]) = samples stats := by
    rw [samples_snoc, hs]
    exact List.append_nil _
  have hsum : (samples stats).sum < 2 ^ 63 := h.total ▸ m.total_latency_us.toInt_lt
  rw [Fitting, hlen, hsame, Monitor.observe_of_none hs]
  obtain ⟨hn, hadd, hcount⟩ | ⟨hn, hadd⟩ := add?_counter h.counter
  · refine ⟨fun _ => ⟨{ m with counter := m.counter + 1 }, by rw [hadd]; rfl, ?_⟩,
      fun hnot => absurd ⟨hn, hsum⟩ hnot⟩
    exact ⟨by rw [hlen]; exact hcount, by rw [hsame]; exact h.total, by rw [hsame]; exact h.least,
      by rw [hsame]; exact h.minimum, by rw [hsame]; exact h.maximum, h.nonneg⟩
  · refine ⟨fun hfit => absurd hfit.1 (by omega), fun _ => by rw [hadd]; rfl⟩

/-- The smaller of two 64-bit numbers. -/
theorem toInt_min (x y : Int64) : (if x < y then x else y).toInt = min x.toInt y.toInt := by
  by_cases h : x < y
  · have := Int64.lt_iff_toInt_lt.mp h
    rw [if_pos h]
    omega
  · have := mt Int64.lt_iff_toInt_lt.mpr h
    rw [if_neg h]
    omega

theorem toInt_max (x y : Int64) : (if x < y then y else x).toInt = max x.toInt y.toInt := by
  by_cases h : x < y
  · have := Int64.lt_iff_toInt_lt.mp h
    rw [if_pos h]
    omega
  · have := mt Int64.lt_iff_toInt_lt.mpr h
    rw [if_neg h]
    omega

/-- A message with a sample adds it to the figures. -/
theorem Summary.observe_of_some {stats : List MessageStats} {m : Monitor} (h : Summary stats m)
    {s : MessageStats} {l : Int} (hs : s.sample = some l) :
    (Fitting (stats ++ [s]) → ∃ m', m.observe s = some m' ∧ Summary (stats ++ [s]) m') ∧
      (¬ Fitting (stats ++ [s]) → m.observe s = none) := by
  have hlen : (stats ++ [s]).length = stats.length + 1 := by simp
  have hmore : samples (stats ++ [s]) = samples stats ++ [l] := by
    rw [samples_snoc, hs]
    rfl
  obtain ⟨hlo, hhi⟩ := MessageStats.sample_range hs
  have hl : (Int64.ofInt l).toInt = l := Int64.toInt_ofInt_of_le (by omega) hhi
  have hpos := sum_nonneg stats
  have htotal := h.total
  rw [Fitting, hlen, hmore, List.sum_append, List.sum_singleton, Monitor.observe_of_some hs]
  obtain ⟨hn, hadd, hcount⟩ | ⟨hn, hadd⟩ := add?_counter h.counter
  · rw [hadd, Option.bind_some]
    by_cases hsum : (samples stats).sum + l < 2 ^ 63
    · have hfits : Fits (m.total_latency_us.toInt + (Int64.ofInt l).toInt) :=
        ⟨by omega, by omega⟩
      refine ⟨fun _ => ⟨_, by rw [add?_of_fits hfits]; rfl, ?_⟩, fun hnot => absurd ⟨hn, hsum⟩ hnot⟩
      have hmin := toInt_min (Int64.ofInt l) m.min_latency_us
      have hmax := toInt_max m.max_latency_us (Int64.ofInt l)
      rw [hl] at hmin hmax
      refine ⟨by rw [hlen]; exact hcount, ?_, ?_, ?_, ?_, ?_⟩
      · rw [toInt_add_of_fits hfits, hmore, List.sum_append, List.sum_singleton]
        omega
      · left
        rw [hmin, hmore, List.mem_append, List.mem_singleton]
        obtain hmem | ⟨-, hlimit⟩ := h.least
        · rcases Int.le_total l m.min_latency_us.toInt with hle | hle
          · exact Or.inr (by omega)
          · exact Or.inl (by rwa [Int.min_eq_right hle])
        · exact Or.inr (by omega)
      · intro k hk
        rw [hmin]
        rw [hmore, List.mem_append, List.mem_singleton] at hk
        rcases hk with hk | rfl
        · have := h.minimum k hk
          omega
        · omega
      · intro k hk
        rw [hmax]
        rw [hmore, List.mem_append, List.mem_singleton] at hk
        rcases hk with hk | rfl
        · have := h.maximum k hk
          omega
        · omega
      · rw [hmax]
        omega
    · have hfits : ¬ Fits (m.total_latency_us.toInt + (Int64.ofInt l).toInt) := fun hfits => by
        have := hfits.2
        omega
      exact ⟨fun hfit => absurd hfit.2 hsum, fun _ => by rw [add?_of_not_fits hfits]; rfl⟩
  · exact ⟨fun hfit => absurd hfit.1 (by omega), fun _ => by rw [hadd]; rfl⟩

/-- **One message**: if the sums do not overflow, the loop goes on with the new summary. -/
theorem Summary.observe {stats : List MessageStats} {m : Monitor} (h : Summary stats m)
    (s : MessageStats) :
    (Fitting (stats ++ [s]) → ∃ m', m.observe s = some m' ∧ Summary (stats ++ [s]) m') ∧
      (¬ Fitting (stats ++ [s]) → m.observe s = none) := by
  cases hs : s.sample with
  | none => exact h.observe_of_none hs
  | some l => exact h.observe_of_some hs

theorem run_snoc (stats : List MessageStats) (s : MessageStats) :
    run (stats ++ [s]) = (run stats).bind fun m => m.observe s := by
  rw [run, List.foldlM_append, run]
  simp

theorem fitting_of_snoc {stats : List MessageStats} {s : MessageStats}
    (h : Fitting (stats ++ [s])) : Fitting stats := by
  obtain ⟨hlen, hsum⟩ := h
  rw [List.length_append, List.length_singleton] at hlen
  rw [samples_snoc, List.sum_append] at hsum
  have hpos : 0 ≤ s.sample.toList.sum := by
    cases hs : s.sample with
    | none => simp
    | some l => simpa using (MessageStats.sample_range hs).1
  exact ⟨by omega, by omega⟩

theorem fitting_of_append {before after : List MessageStats} (h : Fitting (before ++ after)) :
    Fitting before := by
  induction after using List.reverseRecOn with
  | nil => rwa [List.append_nil] at h
  | append_singleton after s ih =>
      rw [← List.append_assoc] at h
      exact ih (fitting_of_snoc h)

/-- **A run of the loop**: it sums up the messages, unless one of the sums overflows. -/
theorem run_spec (stats : List MessageStats) :
    (Fitting stats → ∃ m, run stats = some m ∧ Summary stats m) ∧
      (¬ Fitting stats → run stats = none) := by
  induction stats using List.reverseRecOn with
  | nil =>
      refine ⟨fun _ => ⟨{}, rfl, ⟨rfl, rfl, Or.inr ⟨rfl, rfl⟩, ?_, ?_, ?_⟩⟩,
        fun hnot => absurd ⟨by decide, by decide⟩ hnot⟩
      · exact fun l hl => absurd hl List.not_mem_nil
      · exact fun l hl => absurd hl List.not_mem_nil
      · decide
  | append_singleton stats s ih =>
      rw [run_snoc]
      by_cases hfit : Fitting stats
      · obtain ⟨m, hm, hsum⟩ := ih.1 hfit
        rw [hm, Option.bind_some]
        exact hsum.observe s
      · rw [ih.2 hfit]
        exact ⟨fun h => absurd (fitting_of_snoc h) hfit, fun _ => rfl⟩

/-! ## Reports -/

/-- What the latencies exceed the smallest one by, summed up, is at least what the messages without
a sample would add if each had the smallest one. -/
def Outweighed (stats : List MessageStats) : Prop :=
  ∀ least ∈ samples stats, (∀ l ∈ samples stats, least ≤ l) →
    ((stats.length : Int) - (samples stats).length) * least
      ≤ ((samples stats).map fun l => l - least).sum

theorem sum_map_sub (ls : List Int) (a : Int) :
    (ls.map fun l => l - a).sum = ls.sum - ls.length * a := by
  induction ls with
  | nil => simp
  | cons l ls ih =>
      rw [List.map_cons, List.sum_cons, List.sum_cons, ih, List.length_cons]
      push_cast
      ring

variable {stats : List MessageStats} {m : Monitor}

theorem Summary.counter_mod_iff (h : Summary stats m) :
    m.counter % 100 = 0 ↔ stats.length % 100 = 0 := by
  have hc := h.counter
  rw [← Int64.toInt_inj, Int64.toInt_mod, hc]
  change (stats.length : Int).tmod 100 = 0 ↔ _
  rw [Int.tmod_eq_emod_of_nonneg (by omega)]
  omega

/-- The samples are among the messages. -/
theorem length_samples_le (stats : List MessageStats) : (samples stats).length ≤ stats.length :=
  List.length_filterMap_le _ _

/-- The figures as integers: the average is between the other two if the products are. -/
theorem Summary.bounds_iff (h : Summary stats m) (hpos : 0 < (samples stats).sum) :
    (m.min_latency_us.toInt * stats.length ≤ (samples stats).sum ∧
      (samples stats).sum ≤ m.max_latency_us.toInt * stats.length) ↔ Outweighed stats := by
  have hle := length_samples_le stats
  have hmem : m.min_latency_us.toInt ∈ samples stats := by
    obtain hmem | ⟨hnil, -⟩ := h.least
    · exact hmem
    · rw [hnil] at hpos
      exact absurd hpos (by decide)
  have hupper : (samples stats).sum ≤ m.max_latency_us.toInt * stats.length := by
    have hsum := List.sum_le_card_nsmul (samples stats) m.max_latency_us.toInt h.maximum
    rw [nsmul_eq_mul] at hsum
    have hmul : ((samples stats).length : Int) * m.max_latency_us.toInt
        ≤ stats.length * m.max_latency_us.toInt :=
      Int.mul_le_mul_of_nonneg_right (by omega) h.nonneg
    linarith
  constructor
  · rintro ⟨hlower, -⟩ least hl hleast
    have heq : least = m.min_latency_us.toInt :=
      le_antisymm (hleast _ hmem) (h.minimum least hl)
    rw [heq, sum_map_sub]
    linarith
  · intro hout
    have hskip := hout _ hmem h.minimum
    rw [sum_map_sub] at hskip
    exact ⟨by linarith, hupper⟩

/-- Without a positive sum nothing is printed. -/
theorem Summary.report_of_sum (h : Summary stats m) (hsum : ¬ 0 < (samples stats).sum) :
    m.report = none := by
  have hzero : m.total_latency_us.toInt = 0 := by
    have htotal := h.total
    have := sum_nonneg stats
    omega
  rw [report]
  by_cases hmod : m.counter % 100 = 0
  · simp [hmod, hzero]
  · rw [if_neg hmod]

/-- Samples whose sum is not positive are all zero. -/
theorem outweighed_of_sum (hsum : ¬ 0 < (samples stats).sum) : Outweighed stats := by
  intro least hl hleast
  have hlo := (mem_samples_range hl).1
  have hle := List.single_le_sum (fun k hk => (mem_samples_range hk).1) least hl
  have hzero : least = 0 := by omega
  have hnonneg := sum_nonneg stats
  rw [sum_map_sub, hzero]
  omega

/-- **One report is consistent exactly then.** -/
theorem Summary.report_consistent_iff (h : Summary stats m) :
    (∀ r, m.report = some r → r.Consistent) ↔ (stats.length % 100 = 0 → Outweighed stats) := by
  by_cases hmod : stats.length % 100 = 0
  · have hcount := h.counter
    by_cases hpos : 0 < (samples stats).sum
    · have hlen : 0 < stats.length := by
        rcases Nat.eq_zero_or_pos stats.length with h0 | h0
        · rw [List.eq_nil_of_length_eq_zero h0] at hpos
          exact absurd hpos (by decide)
        · exact h0
      have hcpos : (0 : ℚ) < stats.length := by exact_mod_cast hlen
      have htotal : ((m.total_latency_us.toInt : Int) : ℚ) = ((samples stats).sum : ℚ) := by
        rw [h.total]
      have hctr : ((m.counter.toInt : Int) : ℚ) = (stats.length : ℚ) := by
        rw [hcount]
        rfl
      have hc0 : (0 : Int64) < m.counter := Int64.lt_iff_toInt_lt.mpr (by
        rw [hcount, Int64.toInt_zero]
        exact_mod_cast hlen)
      have havg : (0 : ℚ) < ((samples stats).sum : ℚ) / (stats.length : ℚ) :=
        div_pos (by exact_mod_cast hpos) hcpos
      have hreport : m.report = some ⟨((samples stats).sum : ℚ) / (stats.length : ℚ),
          m.min_latency_us, m.max_latency_us⟩ := by
        rw [report, if_pos (h.counter_mod_iff.mpr hmod)]
        simp only [if_pos hc0, htotal, hctr, if_pos havg]
      have hcons : LatencyReport.Consistent ⟨((samples stats).sum : ℚ) / (stats.length : ℚ),
          m.min_latency_us, m.max_latency_us⟩ ↔
          (m.min_latency_us.toInt * stats.length ≤ (samples stats).sum ∧
            (samples stats).sum ≤ m.max_latency_us.toInt * stats.length) := by
        rw [LatencyReport.Consistent, le_div_iff₀ hcpos, div_le_iff₀ hcpos]
        exact and_congr (by exact_mod_cast Iff.rfl) (by exact_mod_cast Iff.rfl)
      rw [hreport]
      constructor
      · intro hall _
        exact (h.bounds_iff hpos).mp (hcons.mp (hall _ rfl))
      · rintro hout r hr
        obtain rfl := Option.some.inj hr
        exact hcons.mpr ((h.bounds_iff hpos).mpr (hout hmod))
    · rw [h.report_of_sum hpos]
      exact ⟨fun _ _ => outweighed_of_sum hpos, fun _ r hr => absurd hr (by simp)⟩
  · have hno : m.report = none := by
      rw [report, if_neg fun hc => hmod (h.counter_mod_iff.mp hc)]
    rw [hno]
    exact ⟨fun _ hc => absurd hc hmod, fun _ r hr => absurd hr (by simp)⟩

/-- **The reports**: every message is summed up, and the average printed lies between the minimum
and the maximum at every report, exactly if the sums do not overflow and at every hundredth message
the messages without a positive latency are outweighed. -/
theorem reports_consistent_iff (stats : List MessageStats) :
    (∀ before after, stats = before ++ after →
        ∃ m, run before = some m ∧ ∀ r, m.report = some r → r.Consistent) ↔
      Fitting stats ∧
        ∀ before after, stats = before ++ after → before.length % 100 = 0 → Outweighed before := by
  constructor
  · intro hall
    refine ⟨?_, ?_⟩
    · obtain ⟨m, hm, -⟩ := hall stats [] (List.append_nil stats).symm
      by_contra hnot
      rw [(run_spec stats).2 hnot] at hm
      exact absurd hm (by simp)
    · intro before after heq
      obtain ⟨m, hm, hcons⟩ := hall before after heq
      by_cases hfit : Fitting before
      · obtain ⟨m', hm', hsum⟩ := (run_spec before).1 hfit
        obtain rfl := Option.some.inj (hm.symm.trans hm')
        exact hsum.report_consistent_iff.mp hcons
      · rw [(run_spec before).2 hfit] at hm
        exact absurd hm (by simp)
  · rintro ⟨hfit, hout⟩ before after heq
    obtain ⟨m, hm, hsum⟩ := (run_spec before).1 (fitting_of_append (heq ▸ hfit))
    exact ⟨m, hm, hsum.report_consistent_iff.mpr (hout before after heq)⟩

/-- Of a hundred messages one has a latency, of 100 µs, and the others were received before they
were sent: the average is 1 µs, the minimum 100 µs. -/
theorem average_below_minimum :
    (run (List.replicate 99 ⟨2, 1⟩ ++ [⟨1, 100001⟩])).bind report = some ⟨1, 100, 100⟩ ∧
      ¬ LatencyReport.Consistent ⟨1, 100, 100⟩ := by
  refine ⟨by decide +kernel, fun h => ?_⟩
  have hmin := h.1
  have h100 : (100 : Int64).toInt = 100 := by decide
  rw [h100] at hmin
  norm_num at hmin

end Monitor

end AeronReplay
