import Mathlib.Data.List.Infix

/-!
# Frames in a stream

A frame is so many symbols, from a header on. A reader that takes frames off a bounded buffer takes
those of the whole stream, in whatever chunks the stream comes in.
-/

namespace Wavr.Framing

variable {α : Type*} [DecidableEq α]

/-- What frames begin with and how long they are. -/
structure Format (α : Type*) where
  header : List α
  size : ℕ
  header_ne : header ≠ []
  header_le : header.length ≤ size

/-- Where the header first occurs. -/
def find (header : List α) : List α → Option ℕ
  | [] => none
  | b :: s => if header.isPrefixOf (b :: s) then some 0 else (find header s).map (· + 1)

/-- The frames of a stream, from left to right and none overlapping another, behind `n` symbols that
belong to one already. -/
def frames (fmt : Format α) : ℕ → List α → List (List α)
  | _, [] => []
  | n + 1, _ :: s => frames fmt n s
  | 0, b :: s =>
    if fmt.header.isPrefixOf (b :: s) ∧ fmt.size ≤ (b :: s).length then
      (b :: s).take fmt.size :: frames fmt (fmt.size - 1) s
    else frames fmt 0 s

/-- The last `keep` symbols of a buffer that is past its bound. -/
def trim (bound keep : ℕ) (buf : List α) : List α :=
  if bound < buf.length then buf.drop (buf.length - keep) else buf

/-- The next frame of a buffer, and what is left of it. -/
def take (fmt : Format α) (bound keep : ℕ) (buf : List α) : Option (List α) × List α :=
  match find fmt.header buf with
  | some i =>
    if i + fmt.size ≤ buf.length then (some ((buf.drop i).take fmt.size), buf.drop (i + fmt.size))
    else (none, trim bound keep buf)
  | none => (none, trim bound keep buf)

/-! ## Reading until nothing comes -/

section
variable {σ β γ : Type*}

/-- A reader gives values, each of which makes it smaller, until it has none. -/
structure Reader (σ γ β : Type*) where
  feed : σ → γ → σ
  next : σ → Option β × σ
  size : σ → ℕ
  next_lt : ∀ {s b s'}, next s = (some b, s') → size s' < size s

variable (r : Reader σ γ β)

/-- Everything a reader gives. -/
def Reader.drain (s : σ) : List β × σ :=
  match h : r.next s with
  | (some b, s') =>
    have := r.next_lt h
    (b :: (drain s').1, (drain s').2)
  | (none, s') => ([], s')
termination_by r.size s

/-- What it gives as it is fed, chunk by chunk. -/
def Reader.feedAll : σ → List γ → List β × σ
  | s, [] => ([], s)
  | s, c :: cs =>
    let given := r.drain (r.feed s c)
    let rest := feedAll given.2 cs
    (given.1 ++ rest.1, rest.2)

variable {r} {s s' : σ} {b : β}

theorem Reader.drain_some (h : r.next s = (some b, s')) : r.drain s = (b :: (r.drain s').1, (r.drain s').2) := by
  rw [drain]
  split
  · rename_i b' s₁ h'
    cases h.symm.trans h'
    rfl
  · rename_i s₁ h'
    cases h.symm.trans h'

theorem Reader.drain_none (h : r.next s = (none, s')) : r.drain s = ([], s') := by
  rw [drain]
  split
  · rename_i b' s₁ h'
    cases h.symm.trans h'
  · rename_i s₁ h'
    cases h.symm.trans h'
    rfl

/-- Two readers of one kind give the same. -/
theorem Reader.feedAll_map {τ : Type*} (r : Reader σ γ β) (r' : Reader τ γ β) (g : τ → σ)
    (hfeed : ∀ t c, r.feed (g t) c = g (r'.feed t c))
    (hnext : ∀ t, r.next (g t) = ((r'.next t).1, g (r'.next t).2)) (t : τ) (cs : List γ) :
    (r.feedAll (g t) cs).1 = (r'.feedAll t cs).1 := by
  have hdrain : ∀ n t, r'.size t = n → r.drain (g t) = ((r'.drain t).1, g (r'.drain t).2) := by
    intro n
    induction n using Nat.strong_induction_on with
    | _ n ih =>
      intro t hn
      have hg := hnext t
      rcases hr : r'.next t with ⟨b | b, t'⟩
      · rw [hr] at hg
        rw [drain_none hr, drain_none hg]
      · rw [hr] at hg
        rw [drain_some hr, drain_some hg, ih _ (hn ▸ r'.next_lt hr) t' rfl]
  induction cs generalizing t with
  | nil => rfl
  | cons c cs ih =>
    rw [feedAll, feedAll, hfeed, hdrain _ _ rfl]
    exact congrArg _ (ih _)

end

/-! ## Where the header is -/

section
variable {header s : List α} {i : ℕ}

theorem find_some (h : find header s = some i) :
    header <+: s.drop i ∧ i < s.length ∧ ∀ j < i, ¬ header <+: s.drop j := by
  induction s generalizing i with
  | nil => cases h
  | cons b s ih =>
    rw [find] at h
    split at h
    · rename_i hhere
      obtain rfl := Option.some.inj h
      exact ⟨List.isPrefixOf_iff_prefix.mp hhere, by simp, fun j hj => absurd hj (by omega)⟩
    · rename_i hnot
      obtain ⟨j, hj, rfl⟩ := Option.map_eq_some_iff.mp h
      obtain ⟨hat, hlt, hbefore⟩ := ih hj
      refine ⟨hat, Nat.succ_lt_succ hlt, fun k hk => ?_⟩
      cases k with
      | zero => exact fun hpre => hnot (List.isPrefixOf_iff_prefix.mpr hpre)
      | succ k => exact hbefore k (by omega)

theorem find_of_prefix (hne : header ≠ []) (h : header <+: s) : find header s = some 0 := by
  cases s with
  | nil => exact absurd (List.prefix_nil.mp h) hne
  | cons b s => exact if_pos (List.isPrefixOf_iff_prefix.mpr h)

theorem find_cons {b : α} (h : ¬ header <+: b :: s) : find header (b :: s) = (find header s).map (· + 1) :=
  if_neg fun hpre => h (List.isPrefixOf_iff_prefix.mp hpre)

/-- The header is not searched for where its first symbol does not occur. -/
theorem find_append_of_not_mem {c : α} {a : List α} (h : c ∉ a) :
    find (c :: header) (a ++ s) = (find (c :: header) s).map (a.length + ·) := by
  induction a with
  | nil => simp
  | cons b a ih =>
    have hb : b ≠ c := fun he => h (he ▸ List.mem_cons_self)
    have hnot : ¬ c :: header <+: b :: (a ++ s) := fun hpre => hb (List.cons_prefix_cons.mp hpre).1.symm
    rw [List.cons_append, find_cons hnot, ih fun hm => h (List.mem_cons_of_mem b hm), Option.map_map]
    congr 1
    funext i
    simp only [Function.comp, List.length_cons]
    omega

/-- What is found in a beginning is found there in the whole. -/
theorem find_mono {p : List α} (hp : p <+: s) (h : find header p = some i) : find header s = some i := by
  induction p generalizing s i with
  | nil => cases h
  | cons b p ih =>
    obtain ⟨t, rfl⟩ := hp
    rw [List.cons_append]
    by_cases hhere : header <+: b :: p
    · rw [find, if_pos (List.isPrefixOf_iff_prefix.mpr hhere)] at h
      have hwhole : header <+: b :: (p ++ t) := hhere.trans ⟨t, rfl⟩
      rw [find, if_pos (List.isPrefixOf_iff_prefix.mpr hwhole), ← h]
    · rw [find_cons hhere] at h
      obtain ⟨j, hj, rfl⟩ := Option.map_eq_some_iff.mp h
      have hshort : header.length ≤ p.length := by
        have := (find_some hj).1.length_le
        rw [List.length_drop] at this
        omega
      have hnot : ¬ header <+: b :: (p ++ t) := fun hpre =>
        hhere (List.prefix_of_prefix_length_le hpre ⟨t, rfl⟩ (by simp only [List.length_cons]; omega))
      rw [find_cons hnot, ih ⟨t, rfl⟩ hj, Option.map_some]

theorem find_none (h : find header s = none) (hne : header ≠ []) (j : ℕ) : ¬ header <+: s.drop j := by
  induction s generalizing j with
  | nil =>
    rw [List.drop_nil]
    exact fun hpre => hne (List.prefix_nil.mp hpre)
  | cons b s ih =>
    rw [find] at h
    split at h
    · cases h
    · rename_i hnot
      cases j with
      | zero => exact fun hpre => hnot (List.isPrefixOf_iff_prefix.mpr hpre)
      | succ j => exact ih (Option.map_eq_none_iff.mp h) j

end

/-! ## The frames of a stream -/

section
variable {fmt : Format α} {s : List α} {n : ℕ}

theorem frames_skip (fmt : Format α) (n : ℕ) (s : List α) : frames fmt n s = frames fmt 0 (s.drop n) := by
  induction n generalizing s with
  | zero => rfl
  | succ n ih =>
    cases s with
    | nil => rfl
    | cons b s => exact ih s

theorem frames_of_header (h : fmt.header <+: s) (hsize : fmt.size ≤ s.length) :
    frames fmt 0 s = s.take fmt.size :: frames fmt 0 (s.drop fmt.size) := by
  obtain ⟨k, hk⟩ : ∃ k, fmt.size = k + 1 := by
    have hpos := List.length_pos_of_ne_nil fmt.header_ne
    exact ⟨fmt.size - 1, by have := fmt.header_le; omega⟩
  cases s with
  | nil => simp [hk] at hsize
  | cons b s =>
    rw [frames, if_pos ⟨List.isPrefixOf_iff_prefix.mpr h, hsize⟩, frames_skip, hk]
    rfl

theorem frames_cons (b : α) (h : ¬ fmt.header <+: b :: s) : frames fmt 0 (b :: s) = frames fmt 0 s := by
  rw [frames, if_neg fun hboth => h (List.isPrefixOf_iff_prefix.mp hboth.1)]

/-- No frame begins where there is no header. -/
theorem frames_drop (h : ∀ j < n, ¬ fmt.header <+: s.drop j) : frames fmt 0 s = frames fmt 0 (s.drop n) := by
  induction n generalizing s with
  | zero => rfl
  | succ n ih =>
    cases s with
    | nil => rfl
    | cons b s =>
      rw [frames_cons b (h 0 n.succ_pos)]
      exact ih fun j hj => h (j + 1) (Nat.succ_lt_succ hj)

theorem frames_short (h : s.length < fmt.size) : frames fmt 0 s = [] := by
  induction s with
  | nil => rfl
  | cons b s ih =>
    rw [frames, if_neg fun hboth => absurd hboth.2 (not_le.mpr h)]
    exact ih ((Nat.lt_succ_self _).trans h)

end

/-! ## The frames a buffer gives -/

section
variable {fmt : Format α} {bound keep n : ℕ} {buf rest frame header later : List α}

omit [DecidableEq α] in
/-- A header that ends inside the buffer is in the buffer. -/
theorem prefix_of_append (h : header <+: (buf ++ later).drop n) (hin : n + header.length ≤ buf.length) :
    header <+: buf.drop n := by
  rw [List.drop_append_of_le_length (by omega)] at h
  refine List.prefix_of_prefix_length_le h (List.prefix_append _ _) ?_
  rw [List.length_drop]
  omega

omit [DecidableEq α] in
theorem append_of_header (h : header <+: buf.drop n) (hn : n ≤ buf.length) :
    header <+: (buf ++ later).drop n := by
  rw [List.drop_append_of_le_length hn]
  exact h.trans (List.prefix_append _ _)

theorem take_some_eq (h : take fmt bound keep buf = (some frame, rest)) : ∃ i,
    find fmt.header buf = some i ∧ i + fmt.size ≤ buf.length ∧ frame = (buf.drop i).take fmt.size ∧
      rest = buf.drop (i + fmt.size) := by
  unfold take at h
  split at h
  · rename_i i hi
    split at h
    · rename_i hsize
      cases h
      exact ⟨i, hi, hsize, rfl, rfl⟩
    · cases h
  · cases h

theorem take_lt (h : take fmt bound keep buf = (some frame, rest)) : rest.length < buf.length := by
  obtain ⟨i, -, hsize, -, rfl⟩ := take_some_eq h
  have hpos := List.length_pos_of_ne_nil fmt.header_ne
  have hle := fmt.header_le
  rw [List.length_drop]
  omega

/-- A frame that is taken is the first of the stream, whatever comes behind the buffer. -/
theorem frames_take_some (h : take fmt bound keep buf = (some frame, rest)) (later : List α) :
    frames fmt 0 (buf ++ later) = frame :: frames fmt 0 (rest ++ later) := by
  obtain ⟨i, hi, hsize, rfl, rfl⟩ := take_some_eq h
  obtain ⟨hat, hlt, hbefore⟩ := find_some hi
  have hle := fmt.header_le
  have hfree : ∀ j < i, ¬ fmt.header <+: (buf ++ later).drop j := fun j hj hpre =>
    hbefore j hj (prefix_of_append hpre (by omega))
  have hlong : fmt.size ≤ ((buf ++ later).drop i).length := by
    rw [List.length_drop, List.length_append]
    omega
  rw [frames_drop hfree, frames_of_header (append_of_header hat hlt.le) hlong, List.drop_drop,
    List.drop_append_of_le_length hlt.le, List.drop_append_of_le_length hsize,
    List.take_append_of_le_length (by rw [List.length_drop]; omega)]

theorem take_none_eq (h : take fmt bound keep buf = (none, rest)) :
    rest = trim bound keep buf ∧ ∀ j, j + fmt.size ≤ buf.length → ¬ fmt.header <+: buf.drop j := by
  unfold take at h
  split at h
  · rename_i i hi
    split at h
    · cases h
    · rename_i hsize
      cases h
      obtain ⟨-, -, hbefore⟩ := find_some hi
      exact ⟨rfl, fun j hj => hbefore j (by omega)⟩
  · rename_i hi
    cases h
    exact ⟨rfl, fun j _ => find_none hi fmt.header_ne j⟩

/-- What is trimmed holds no beginning of a frame. -/
theorem frames_take_none (hkeep : fmt.size ≤ keep + 1) (h : take fmt bound keep buf = (none, rest))
    (later : List α) : frames fmt 0 (buf ++ later) = frames fmt 0 (rest ++ later) := by
  obtain ⟨rfl, hfree⟩ := take_none_eq h
  unfold trim
  split
  · have hle := fmt.header_le
    -- a frame from any of the bytes that go would have been whole already
    have hnone : ∀ j < buf.length - keep, ¬ fmt.header <+: (buf ++ later).drop j := fun j hj hpre =>
      hfree j (by omega) (prefix_of_append hpre (by omega))
    rw [frames_drop hnone, List.drop_append_of_le_length (by omega)]
  · rfl

/-- A buffer that gives nothing holds no frame. -/
theorem frames_of_take_none (h : take fmt bound keep buf = (none, rest)) : frames fmt 0 buf = [] := by
  obtain ⟨-, hfree⟩ := take_none_eq h
  have hdrop : frames fmt 0 buf = frames fmt 0 (buf.drop (buf.length + 1 - fmt.size)) :=
    frames_drop fun j hj => hfree j (by omega)
  rw [hdrop]
  refine frames_short ?_
  have hpos := List.length_pos_of_ne_nil fmt.header_ne
  have hle := fmt.header_le
  rw [List.length_drop]
  omega

/-! ## A buffer that is fed -/

/-- A buffer as a reader. -/
def buffer (fmt : Format α) (bound keep : ℕ) : Reader (List α) (List α) (List α) where
  feed buf chunk := buf ++ chunk
  next := take fmt bound keep
  size := List.length
  next_lt := take_lt

/-- Reading a buffer until nothing comes leaves the frames that are still to come. -/
theorem frames_drain (bound : ℕ) (hkeep : fmt.size ≤ keep + 1) (buf later : List α) :
    frames fmt 0 (buf ++ later) =
        ((buffer fmt bound keep).drain buf).1 ++ frames fmt 0 (((buffer fmt bound keep).drain buf).2 ++ later) ∧
      frames fmt 0 buf = ((buffer fmt bound keep).drain buf).1 := by
  induction hn : buf.length using Nat.strong_induction_on generalizing buf with
  | _ n ih =>
    rcases htake : take fmt bound keep buf with ⟨frame | frame, rest⟩
    · rw [Reader.drain_none (r := buffer fmt bound keep) htake]
      exact ⟨frames_take_none hkeep htake later, frames_of_take_none htake⟩
    · obtain ⟨hrest, hall⟩ := ih rest.length (hn ▸ take_lt htake) rest rfl
      rw [Reader.drain_some (r := buffer fmt bound keep) htake, frames_take_some htake, hrest]
      refine ⟨rfl, ?_⟩
      have hnow := frames_take_some htake []
      rw [List.append_nil, List.append_nil, hall] at hnow
      exact hnow

/-- However the stream is cut into chunks, the buffer gives the frames of the whole stream. -/
theorem feedAll_eq_frames (bound : ℕ) (hkeep : fmt.size ≤ keep + 1) (chunks : List (List α)) :
    ((buffer fmt bound keep).feedAll [] chunks).1 = frames fmt 0 chunks.flatten := by
  -- a buffer that was read until nothing came holds no frame of its own
  have hbuffered : ∀ buf, frames fmt 0 buf = [] →
      ((buffer fmt bound keep).feedAll buf chunks).1 = frames fmt 0 (buf ++ chunks.flatten) := by
    induction chunks with
    | nil =>
      intro buf hbuf
      rw [List.flatten_nil, List.append_nil, hbuf]
      rfl
    | cons chunk chunks ih =>
      intro buf _
      obtain ⟨hall, hgiven⟩ := frames_drain bound hkeep (buf ++ chunk) chunks.flatten
      have hleft := (frames_drain bound hkeep (buf ++ chunk) []).1
      rw [List.append_nil, List.append_nil, hgiven] at hleft
      have hempty := List.self_eq_append_right.mp hleft
      rw [List.flatten_cons, ← List.append_assoc, hall, ← ih _ hempty]
      rfl
  exact hbuffered [] rfl

end

end Wavr.Framing
