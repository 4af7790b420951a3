import Wavr.Framing
import Wavr.Mmwave

/-!
# Framing a radar's stream

`take_ld2450_frame` and the native `Ld2450Framer`: both trim a buffer past its bound, and neither
loses a frame by it.
-/

namespace Wavr.Mmwave
open Framing (Format Reader frames)

abbrev Bytes := List UInt8

/-! ## The Core's -/

def MAX_BUFFER : ℕ := 4096

def KEEP_ON_OVERFLOW : ℕ := 64

def takeLd2450Frame (buf : Bytes) : Option Bytes × Bytes :=
  match (Framing.find HEADER buf).filter (· + 30 ≤ buf.length) with
  | some i => (some ((buf.drop i).take 30), buf.drop (i + 30))
  | none => (none, if MAX_BUFFER < buf.length then buf.drop (buf.length - KEEP_ON_OVERFLOW) else buf)

/-- The frames of the stream. -/
def LD2450 : Format UInt8 := ⟨HEADER, 30, by decide, by decide⟩

theorem takeLd2450Frame_eq (buf : Bytes) :
    takeLd2450Frame buf = Framing.take LD2450 MAX_BUFFER KEEP_ON_OVERFLOW buf := by
  unfold takeLd2450Frame Framing.take Framing.trim
  have hheader : LD2450.header = HEADER := rfl
  have hsize : LD2450.size = 30 := rfl
  rw [hheader, hsize]
  cases Framing.find HEADER buf with
  | none => rfl
  | some i =>
    by_cases hlong : i + 30 ≤ buf.length
    · simp [Option.filter, hlong]
    · simp [Option.filter, hlong]

/-- Append a chunk, then take until nothing comes. -/
def appended : Reader Bytes Bytes Bytes where
  feed buf chunk := buf ++ chunk
  next := takeLd2450Frame
  size := List.length
  next_lt := by
    intro buf frame rest h
    rw [takeLd2450Frame_eq] at h
    exact Framing.take_lt h

/-! ## The native one -/

namespace Native

def kHeader : Bytes := [0xAA, 0xFF, 0x03, 0x00]

def kFrameLen : ℕ := 30

def kMaxBuffer : ℕ := 4096

def kKeepOnOverflow : ℕ := 64

/-- `std::search`, as the distance from the begin: that of the end where nothing is found. -/
def search : Bytes → ℕ
  | [] => 0
  | b :: s => if kHeader.isPrefixOf (b :: s) then 0 else search s + 1

structure Ld2450Framer where
  buf : Bytes

def Ld2450Framer.feed (f : Ld2450Framer) (data : Bytes) : Ld2450Framer := ⟨f.buf ++ data⟩

def Ld2450Framer.next (f : Ld2450Framer) : Option Bytes × Ld2450Framer :=
  let i := search f.buf
  if i ≠ f.buf.length ∧ i + kFrameLen ≤ f.buf.length then
    (some ((f.buf.drop i).take kFrameLen), ⟨f.buf.drop (i + kFrameLen)⟩)
  else if kMaxBuffer < f.buf.length then (none, ⟨f.buf.drop (f.buf.length - kKeepOnOverflow)⟩)
  else (none, f)

theorem search_eq (buf : Bytes) : search buf = (Framing.find HEADER buf).getD buf.length := by
  have hheader : kHeader = HEADER := rfl
  induction buf with
  | nil => rfl
  | cons b s ih =>
    rw [search, Framing.find, hheader]
    by_cases hhere : HEADER.isPrefixOf (b :: s)
    · rw [if_pos hhere, if_pos hhere]
      rfl
    · rw [if_neg hhere, if_neg hhere, ih]
      cases Framing.find HEADER s <;> rfl

/-- The native framer trims where the Core does. -/
theorem Ld2450Framer.next_eq (f : Ld2450Framer) :
    f.next = ((takeLd2450Frame f.buf).1, ⟨(takeLd2450Frame f.buf).2⟩) := by
  unfold Ld2450Framer.next takeLd2450Frame
  have htrimmed : (if kMaxBuffer < f.buf.length then (none, ⟨f.buf.drop (f.buf.length - kKeepOnOverflow)⟩)
      else (none, f)) = ((none : Option Bytes), Ld2450Framer.mk
        (if MAX_BUFFER < f.buf.length then f.buf.drop (f.buf.length - KEEP_ON_OVERFLOW) else f.buf)) := by
    by_cases hover : MAX_BUFFER < f.buf.length
    · rw [if_pos hover]
      exact if_pos hover
    · rw [if_neg hover]
      exact if_neg hover
  rw [search_eq]
  dsimp only
  rw [htrimmed]
  cases hfind : Framing.find HEADER f.buf with
  | none => exact if_neg fun hboth => hboth.1 rfl
  | some i =>
    obtain ⟨-, hlt, -⟩ := Framing.find_some hfind
    by_cases hlong : i + 30 ≤ f.buf.length
    · rw [Option.getD_some, if_pos ⟨hlt.ne, hlong⟩]
      simp [Option.filter, hlong, kFrameLen]
    · rw [if_neg fun hboth => hlong hboth.2]
      simp [Option.filter, hlong]

/-- Feed a chunk, then take the next until it is empty. -/
def fed : Reader Ld2450Framer Bytes Bytes where
  feed := Ld2450Framer.feed
  next := Ld2450Framer.next
  size f := f.buf.length
  next_lt := by
    intro f frame f' h
    rw [f.next_eq] at h
    obtain ⟨hframe, rfl⟩ := Prod.mk.inj h
    exact appended.next_lt (Prod.ext hframe rfl)

end Native

/-- In whatever chunks a stream comes, both runtimes give its frames. -/
theorem framing_lossless (chunks : List Bytes) :
    (appended.feedAll [] chunks).1 = frames LD2450 0 chunks.flatten ∧
      (Native.fed.feedAll ⟨[]⟩ chunks).1 = frames LD2450 0 chunks.flatten := by
  have hkeep : LD2450.size ≤ KEEP_ON_OVERFLOW + 1 := by decide
  let bounded := Framing.buffer LD2450 MAX_BUFFER KEEP_ON_OVERFLOW
  have hnext : ∀ buf, appended.next (id buf) =
    ((bounded.next buf).1, id (bounded.next buf).2) := takeLd2450Frame_eq
  have hsame : (appended.feedAll [] chunks).1 = (bounded.feedAll [] chunks).1 :=
    Reader.feedAll_map appended bounded id (fun _ _ => rfl) hnext [] chunks
  have hcore : (appended.feedAll [] chunks).1 = frames LD2450 0 chunks.flatten :=
    hsame.trans (Framing.feedAll_eq_frames MAX_BUFFER hkeep chunks)
  refine ⟨hcore, ?_⟩
  rw [← hcore]
  exact Reader.feedAll_map Native.fed appended Native.Ld2450Framer.mk (fun _ _ => rfl)
    (fun buf => Native.Ld2450Framer.next_eq ⟨buf⟩) [] chunks

end Wavr.Mmwave
