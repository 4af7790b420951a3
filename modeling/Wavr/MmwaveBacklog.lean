import Wavr.Backlog
import Wavr.MmwaveFraming
import Wavr.Run

/-!
# A radar on a wire

`_read_frame` reads once and again until its buffer gives a frame, and hands out that one frame.
What it leaves over is the next call's.
-/

namespace Wavr.Mmwave
open Framing (frames)
open Run

/-- `_read_frame`: the frame, what is left over, and the reads still to come. `none` where the reads
run out while it waits. -/
def readFrame (leftover : Bytes) : List Bytes → Option (Bytes × Bytes × List Bytes)
  | [] => none
  | chunk :: reads =>
    match takeLd2450Frame (leftover ++ chunk) with
    | (some frame, rest) => some (frame, rest, reads)
    | (none, rest) => readFrame rest reads

/-- A call that returned: its frame and what it left over. -/
structure Returned where
  frame : Bytes
  leftover : Bytes

/-- The buffer behind a read. -/
def pass (buf chunk : Bytes) : Bytes := (takeLd2450Frame (buf ++ chunk)).2

/-- The call that returns behind a read. -/
def returned (buf chunk : Bytes) : Option Returned :=
  (takeLd2450Frame (buf ++ chunk)).1.map (⟨·, pass buf chunk⟩)

/-- The calls that return during these reads. -/
def calls (leftover : Bytes) (reads : List Bytes) : List Returned := outputs pass returned leftover reads

/-- One call behind the other. -/
theorem calls_eq (leftover : Bytes) (reads : List Bytes) : calls leftover reads =
    match readFrame leftover reads with
    | none => []
    | some (frame, rest, reads) => ⟨frame, rest⟩ :: calls rest reads := by
  induction reads generalizing leftover with
  | nil => rfl
  | cons chunk reads ih =>
    rw [calls, outputs, readFrame]
    rcases htake : takeLd2450Frame (leftover ++ chunk) with ⟨frame | frame, rest⟩
    · have hnone : returned leftover chunk = none := by simp [returned, htake]
      have hpass : pass leftover chunk = rest := by simp [pass, htake]
      rw [hnone, hpass]
      exact ih rest
    · have hpass : pass leftover chunk = rest := by simp [pass, htake]
      have hsome : returned leftover chunk = some ⟨frame, rest⟩ := by simp [returned, htake, hpass]
      rw [hsome, hpass]
      rfl

def IsReport (b : Bytes) : Prop := b.length = 30 ∧ HEADER <+: b ∧ TAIL <:+ b

/-- The first values of a sequence. -/
def first (f : ℕ → Bytes) (n : ℕ) : List Bytes := (List.range n).map f

/-- Serial reads of at most 64 bytes from a radar that sends one report behind the other. -/
structure SerialRun where
  reads : ℕ → Bytes
  read_le : ∀ n, (reads n).length ≤ 64
  reports : ℕ → Bytes
  isReport : ∀ n, IsReport (reports n)
  stream : ∀ m, ∃ k, (first reads m).flatten <+: (first reports k).flatten

/-- The complete frames in what a call leaves over. -/
def held (leftover : Bytes) : ℕ := (frames LD2450 0 leftover).length

/-- Every call of the run leaves over at most so many frames. -/
def Bounded (run : SerialRun) : Prop :=
  ∃ c, ∀ m, ∀ call ∈ calls [] (first run.reads m), held call.leftover ≤ c

/-- However many reads in a row, they bring at most so many bytes more than a report each. -/
def Slow (run : SerialRun) : Prop :=
  ∃ c, ∀ i n, ∑ k ∈ Finset.range n, (run.reads (i + k)).length ≤ 30 * n + c

/-! ## A buffer that begins with a report -/

/-- A beginning of some reports. -/
def Aligned (buf : Bytes) : Prop := ∃ reports : List Bytes, (∀ r ∈ reports, IsReport r) ∧ buf <+: reports.flatten

section
variable {buf : Bytes}

theorem Aligned.header (h : Aligned buf) (hlong : 30 ≤ buf.length) : HEADER <+: buf := by
  obtain ⟨reports, hall, hpre⟩ := h
  cases reports with
  | nil =>
    rw [List.flatten_nil, List.prefix_nil] at hpre
    simp [hpre] at hlong
  | cons r reports =>
    have hr := (hall r List.mem_cons_self).2.1
    rw [List.flatten_cons] at hpre
    refine List.prefix_of_prefix_length_le (hr.trans (List.prefix_append _ _)) hpre ?_
    have hheader : HEADER.length = 4 := rfl
    omega

theorem Aligned.drop (h : Aligned buf) (hlong : 30 ≤ buf.length) : Aligned (buf.drop 30) := by
  obtain ⟨reports, hall, hpre⟩ := h
  cases reports with
  | nil =>
    rw [List.flatten_nil, List.prefix_nil] at hpre
    simp [hpre] at hlong
  | cons r reports =>
    refine ⟨reports, fun r' hr' => hall r' (List.mem_cons_of_mem r hr'), ?_⟩
    have hr := (hall r List.mem_cons_self).1
    have hdrop := hpre.drop 30
    rwa [List.flatten_cons, List.drop_left' hr] at hdrop

theorem Aligned.drop_mul (h : Aligned buf) (k : ℕ) (hlong : 30 * k ≤ buf.length) :
    Aligned (buf.drop (30 * k)) := by
  induction k with
  | zero => exact h
  | succ k ih =>
    have hnext := (ih (by omega)).drop (by rw [List.length_drop]; omega)
    rwa [List.drop_drop] at hnext

theorem Aligned.take_of_le (h : Aligned buf) (hlong : 30 ≤ buf.length) :
    takeLd2450Frame buf = (some (buf.take 30), buf.drop 30) := by
  rw [takeLd2450Frame, Framing.find_of_prefix (by decide) (h.header hlong)]
  simp [Option.filter, hlong]

theorem take_of_lt (hshort : buf.length < 30) : takeLd2450Frame buf = (none, buf) := by
  have hnone : (Framing.find HEADER buf).filter (· + 30 ≤ buf.length) = none := by
    rw [Option.filter_eq_none_iff]
    intro i _
    simp only [decide_eq_true_eq]
    omega
  have hbound : ¬ MAX_BUFFER < buf.length := by
    have hmax : MAX_BUFFER = 4096 := rfl
    omega
  rw [takeLd2450Frame, hnone]
  simp [hbound]

theorem Aligned.held_eq (h : Aligned buf) : held buf = buf.length / 30 := by
  unfold held
  induction hn : buf.length using Nat.strong_induction_on generalizing buf with
  | _ n ih =>
    by_cases hlong : 30 ≤ buf.length
    · have hdrop : (buf.drop 30).length = n - 30 := by rw [List.length_drop, hn]
      rw [Framing.frames_of_header (h.header hlong) hlong, List.length_cons]
      rw [show LD2450.size = 30 from rfl, ih (n - 30) (by omega) (h.drop hlong) hdrop]
      omega
    · rw [Framing.frames_short (not_le.mp hlong)]
      rw [List.length_nil]
      omega

end

/-! ## A run -/

section
variable (run : SerialRun)

/-- The bytes that a read brings. -/
def SerialRun.arrivals (n : ℕ) : ℕ := (run.reads n).length

/-- The buffer in front of a read. -/
def SerialRun.buffer (n : ℕ) : Bytes := finish pass [] (first run.reads n)

theorem first_succ (f : ℕ → Bytes) (n : ℕ) : first f (n + 1) = first f n ++ [f n] := by
  rw [first, List.range_succ, List.map_append]
  rfl

theorem SerialRun.buffer_succ (n : ℕ) : run.buffer (n + 1) = pass (run.buffer n) (run.reads n) := by
  rw [buffer, first_succ, finish_append]
  rfl

/-- What was read is a beginning of the radar's reports. -/
theorem SerialRun.aligned_stream (n : ℕ) : Aligned (first run.reads n).flatten := by
  obtain ⟨k, hk⟩ := run.stream n
  refine ⟨first run.reports k, fun r hr => ?_, hk⟩
  obtain ⟨j, -, rfl⟩ := List.mem_map.mp hr
  exact run.isReport j

/-- The buffer is what was read less the reports that were handed out, and a read keeps it so. -/
theorem SerialRun.aligned (n : ℕ) : ∃ k, 30 * k ≤ (first run.reads n).flatten.length ∧
    run.buffer n = (first run.reads n).flatten.drop (30 * k) := by
  induction n with
  | zero => exact ⟨0, Nat.zero_le _, rfl⟩
  | succ n ih =>
    obtain ⟨k, hk, hbuffer⟩ := ih
    have hflat : (first run.reads (n + 1)).flatten = (first run.reads n).flatten ++ run.reads n := by
      rw [first_succ, List.flatten_append, List.flatten_singleton]
    have hfed : run.buffer n ++ run.reads n = (first run.reads (n + 1)).flatten.drop (30 * k) := by
      rw [hflat, List.drop_append_of_le_length hk, hbuffer]
    have hle : 30 * k ≤ (first run.reads (n + 1)).flatten.length := by
      rw [hflat, List.length_append]
      omega
    have haligned := (run.aligned_stream (n + 1)).drop_mul k hle
    -- the buffer begins with a report, so a call takes its frame from the front
    rw [buffer_succ, pass, hfed]
    by_cases hlong : 30 ≤ ((first run.reads (n + 1)).flatten.drop (30 * k)).length
    · refine ⟨k + 1, ?_, ?_⟩
      · rw [List.length_drop] at hlong
        omega
      · rw [haligned.take_of_le hlong, List.drop_drop]
        rfl
    · refine ⟨k, hle, ?_⟩
      rw [take_of_lt (not_le.mp hlong)]

theorem SerialRun.aligned_fed (n : ℕ) : Aligned (run.buffer n ++ run.reads n) := by
  obtain ⟨k, hk, hbuffer⟩ := run.aligned n
  have hflat : (first run.reads (n + 1)).flatten = (first run.reads n).flatten ++ run.reads n := by
    rw [first_succ, List.flatten_append, List.flatten_singleton]
  rw [hbuffer, ← List.drop_append_of_le_length hk, ← hflat]
  refine (run.aligned_stream (n + 1)).drop_mul k ?_
  rw [hflat, List.length_append]
  omega

/-- The buffer is a queue that is served a report at a time. -/
theorem SerialRun.length_buffer (n : ℕ) : (run.buffer n).length = Backlog.level 30 run.arrivals n := by
  induction n with
  | zero => rfl
  | succ n ih =>
    have hlength : (run.buffer n ++ run.reads n).length = Backlog.level 30 run.arrivals n + run.arrivals n := by
      rw [List.length_append, ih]
      rfl
    rw [buffer_succ, pass]
    by_cases hlong : 30 ≤ (run.buffer n ++ run.reads n).length
    · rw [(run.aligned_fed n).take_of_le hlong, Backlog.level_succ_of_le (hlength ▸ hlong),
        List.length_drop, hlength]
    · have hshort := not_le.mp hlong
      rw [take_of_lt hshort, Backlog.level_succ_of_lt (hlength ▸ hshort)]
      exact hlength

/-- A call returns behind each read that completes a report. -/
theorem SerialRun.mem_calls (m : ℕ) (call : Returned) : call ∈ calls [] (first run.reads m) ↔
    ∃ n < m, returned (run.buffer n) (run.reads n) = some call := by
  induction m with
  | zero => simp [calls, first, outputs]
  | succ m ih =>
    have hsplit : calls [] (first run.reads (m + 1)) =
        calls [] (first run.reads m) ++ (returned (run.buffer m) (run.reads m)).toList := by
      rw [calls, first_succ, outputs_append]
      simp [outputs, calls, buffer]
    rw [hsplit, List.mem_append, ih, Option.mem_toList]
    constructor
    · rintro (⟨n, hn, hcall⟩ | hcall)
      · exact ⟨n, by omega, hcall⟩
      · exact ⟨m, m.lt_succ_self, hcall⟩
    · rintro ⟨n, hn, hcall⟩
      rcases Nat.lt_succ_iff_lt_or_eq.mp hn with hlt | rfl
      · exact .inl ⟨n, hlt, hcall⟩
      · exact .inr hcall

theorem SerialRun.returned_leftover {n : ℕ} {call : Returned}
    (h : returned (run.buffer n) (run.reads n) = some call) : call.leftover = run.buffer (n + 1) := by
  obtain ⟨frame, -, rfl⟩ := Option.map_eq_some_iff.mp h
  exact (run.buffer_succ n).symm

theorem SerialRun.exists_returned {n : ℕ} (h : 30 ≤ (run.buffer n ++ run.reads n).length) :
    ∃ call, returned (run.buffer n) (run.reads n) = some call := by
  refine ⟨⟨(run.buffer n ++ run.reads n).take 30, pass (run.buffer n) (run.reads n)⟩, ?_⟩
  rw [returned, (run.aligned_fed n).take_of_le h]
  rfl

theorem SerialRun.held_buffer (n : ℕ) : held (run.buffer n) = Backlog.level 30 run.arrivals n / 30 := by
  obtain ⟨k, hk, hbuffer⟩ := run.aligned n
  have haligned : Aligned (run.buffer n) := hbuffer ▸ (run.aligned_stream n).drop_mul k hk
  rw [haligned.held_eq, run.length_buffer]

/-- The frames left over stay bounded where the buffer does. -/
theorem bounded_iff_level : Bounded run ↔ ∃ c, ∀ n, Backlog.level 30 run.arrivals n ≤ c := by
  constructor
  · rintro ⟨c, hc⟩
    refine ⟨30 * c + 30, fun n => ?_⟩
    cases n with
    | zero => exact Nat.zero_le _
    | succ n =>
      by_cases hlong : 30 ≤ (run.buffer n ++ run.reads n).length
      · obtain ⟨call, hcall⟩ := run.exists_returned hlong
        have hheld := hc (n + 1) call ((run.mem_calls (n + 1) call).mpr ⟨n, n.lt_succ_self, hcall⟩)
        rw [run.returned_leftover hcall, run.held_buffer] at hheld
        omega
      · -- no call returns here, and less than a report waits
        have hshort := not_le.mp hlong
        have hlevel : (run.buffer n ++ run.reads n).length = Backlog.level 30 run.arrivals (n + 1) := by
          rw [← run.length_buffer, run.buffer_succ, pass, take_of_lt hshort]
        omega
  · rintro ⟨c, hc⟩
    refine ⟨c, fun m call hcall => ?_⟩
    obtain ⟨n, -, hreturned⟩ := (run.mem_calls m call).mp hcall
    rw [run.returned_leftover hreturned, run.held_buffer]
    exact (Nat.div_le_self _ _).trans (hc (n + 1))

/-- The frames left over stay bounded exactly where no stretch of reads brings much more than one
report a read. -/
theorem bounded_iff_slow : Bounded run ↔ Slow run :=
  (bounded_iff_level run).trans (Backlog.bounded_iff (by decide))

end

/-! ## Sixty-four bytes a read -/

/-- A report without targets. -/
def quietReport : Bytes := HEADER ++ List.replicate 24 0 ++ TAIL

/-- The reports on the wire, byte by byte. -/
def onWire (n : ℕ) : UInt8 := quietReport.getD (n % 30) 0

/-- So many bytes at a time. -/
def cut (width n : ℕ) : Bytes := (List.range width).map fun k => onWire (width * n + k)

theorem flatten_cut (width m : ℕ) : (first (cut width) m).flatten = (List.range (width * m)).map onWire := by
  induction m with
  | zero => rfl
  | succ m ih =>
    rw [first_succ, List.flatten_append, ih, List.flatten_singleton, Nat.mul_succ, List.range_add, List.map_append,
      List.map_map]
    rfl

theorem cut_report (n : ℕ) : cut 30 n = quietReport := by
  have hbytes : ∀ k ∈ List.range 30, onWire (30 * n + k) = quietReport.getD k 0 := by
    intro k hk
    rw [onWire, Nat.mul_add_mod, Nat.mod_eq_of_lt (List.mem_range.mp hk)]
  rw [cut, List.map_congr_left hbytes]
  decide

/-- A serial port that always has 64 bytes. -/
def fullReads : SerialRun where
  reads := cut 64
  read_le n := by simp [cut]
  reports := cut 30
  isReport n := by
    rw [cut_report]
    exact ⟨by decide, by decide, by decide⟩
  stream m := by
    refine ⟨3 * m, ?_⟩
    have hmore : 30 * (3 * m) = 64 * m + 26 * m := by omega
    rw [flatten_cut, flatten_cut, hmore, List.range_add, List.map_append]
    exact List.prefix_append _ _

/-- Every read brings 34 bytes more than a call hands out. -/
theorem fullReads_not_bounded : ¬ Bounded fullReads := by
  intro h
  obtain ⟨c, hc⟩ := (Backlog.bounded_iff (by decide)).mp ((bounded_iff_level fullReads).mp h)
  have hstretch := hc 0 (c + 1)
  have harrivals : ∀ n, fullReads.arrivals n = 64 := fun n => by simp [SerialRun.arrivals, fullReads, cut]
  rw [Finset.sum_const_nat fun k _ => harrivals (0 + k), Finset.card_range] at hstretch
  omega

end Wavr.Mmwave
