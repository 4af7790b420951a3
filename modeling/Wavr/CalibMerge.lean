import Wavr.CalibRefine

/-!
# Merging walks

`merge_points` with its two keyword arguments: a stored pair is replaced by a new floor point
near enough, the rest is kept, and the oldest go first when the union is too long.
-/

namespace Wavr.CalibMerge
open CalibStore CalibRefine

variable {F α β : Type} (nm : Numerics F) (maxPoints : ℤ) (dedupEpsM : F)

def replaceNear (n : Json F × Json F) : List (F × F) → List Bool → Except Raised (List Bool)
  | e :: es, r :: rs => do
    let hit ← if r then .ok true
      else do
        let (x, y) ← floats nm n.1 n.2
        .ok (nm.ar.le (nm.hypot (nm.ar.sub x e.1) (nm.ar.sub y e.2)) dedupEpsM)
    return hit :: (← replaceNear n es rs)
  | _, _ => .ok []

def markReplaced (existing : List (F × F)) (newFloor : List (Json F)) : Except Raised (List Bool) :=
  newFloor.foldlM (fun replaced p => do replaceNear nm dedupEpsM (← unpack p) existing replaced)
    (existing.map fun _ => false)

/-- Everything but the overflow, which is cut off the front. -/
def newest (l : List β) (length : ℕ) : List β := l.drop (length - maxPoints).toNat

def mergePoints (existingImage : Option (List α)) (existingFloor : Option (List (F × F)))
    (existingSize : Option (ℤ × ℤ)) (newImage : List α) (newFloor : List (Json F)) (newSize : Option (ℤ × ℤ)) :
    Except Raised (List α × List (Json F)) :=
  match existingImage, existingFloor, existingSize, newSize with
  | some image, some floor, some size, some newSize =>
    if size.1 ≠ newSize.1 ∨ size.2 ≠ newSize.2 then .ok (newImage, newFloor)
    else do
      let replaced ← markReplaced nm dedupEpsM floor newFloor
      let outImage := kept image replaced ++ newImage
      let outFloor := (kept floor replaced).map pairJson ++ newFloor
      .ok (newest maxPoints outImage outImage.length, newest maxPoints outFloor outImage.length)
  | _, _, _, _ => .ok (newImage, newFloor)

/-- The merge of `solve_progressive`, which leaves both arguments at their defaults. -/
theorem mergePoints_default (existing : Option (List α × List (F × F))) (existingSize : Option (ℤ × ℤ))
    (newImage : List α) (newFloor : List (Json F)) (newSize : ℤ × ℤ) :
    CalibRefine.mergePoints nm existing existingSize newImage newFloor newSize =
      mergePoints nm MAX_POINTS (nm.ar.lit DEDUP_EPS_M) (existing.map Prod.fst) (existing.map Prod.snd)
        existingSize newImage newFloor (some newSize) := by
  have hnear : ∀ n es rs, CalibRefine.replaceNear nm n es rs =
      replaceNear nm (nm.ar.lit DEDUP_EPS_M) n es rs := by
    intro n es
    induction es with
    | nil => intro rs; rfl
    | cons e es ih =>
      intro rs
      cases rs with
      | nil => rfl
      | cons r rs => simp only [CalibRefine.replaceNear, replaceNear, ih]
  have hmark : ∀ floor, CalibRefine.markReplaced nm floor newFloor =
      markReplaced nm (nm.ar.lit DEDUP_EPS_M) floor newFloor := by
    intro floor
    simp only [CalibRefine.markReplaced, markReplaced, hnear]
  have hnewest : ∀ {γ : Type} (l : List γ) (length : ℕ),
      CalibRefine.newest MAX_POINTS l length = newest MAX_POINTS l length := by
    intro γ l length
    have hk : length - MAX_POINTS = ((length : ℤ) - (MAX_POINTS : ℕ)).toNat := by omega
    rw [CalibRefine.newest, newest, hk]
  cases existing with
  | none => rfl
  | some walk =>
    cases existingSize with
    | none => rfl
    | some size =>
      obtain ⟨image, floor⟩ := walk
      simp only [CalibRefine.mergePoints, mergePoints, hmark, hnewest, Option.map_some]

/-! ## What is kept -/

/-- Two numbers, as a floor point of a walk. -/
def IsPoint (n : Json F) : Prop := ∃ a b p, unpack n = .ok (a, b) ∧ floats nm a b = .ok p

/-- Whether a new floor point replaces an existing one. -/
def near (n : Json F) (e : F × F) : Bool :=
  match unpack n with
  | .error _ => false
  | .ok (a, b) =>
    match floats nm a b with
    | .error _ => false
    | .ok (x, y) => nm.ar.le (nm.hypot (nm.ar.sub x e.1) (nm.ar.sub y e.2)) dedupEpsM

/-- The stored pairs that no point of the walk replaces, oldest first. -/
def survivors (stored : List (α × F × F)) (walk : List (α × Json F)) : List (α × F × F) :=
  stored.filter fun p => ! walk.any fun n => near nm dedupEpsM n.2 p.2

/-- A pair as it is handed out. -/
def asMerged (p : α × F × F) : α × Json F := (p.1, pairJson p.2)

/-- What a merge is for: both lists equally long and within the bound, the pairs of the walk at
the end, in front of them the newest of the survivors. -/
structure Keeps (stored : List (α × F × F)) (walk : List (α × Json F)) (out : List α × List (Json F)) : Prop where
  sameLength : out.1.length = out.2.length
  bounded : (out.1.length : ℤ) ≤ maxPoints
  newest : ∃ old, old <:+ survivors nm dedupEpsM stored walk ∧ out.1.zip out.2 = old.map asMerged ++ walk

section
variable {nm dedupEpsM} {stored : List (α × F × F)} {walk : List (α × Json F)}

theorem replaceNear_eq {n : Json F} (hn : IsPoint nm n) (es : List (F × F)) (f : F × F → Bool) :
    (do replaceNear nm dedupEpsM (← unpack n) es (es.map f)) =
      .ok (es.map fun e => f e || near nm dedupEpsM n e) := by
  obtain ⟨a, b, p, ha, hp⟩ := hn
  have hhit : ∀ e, near nm dedupEpsM n e =
      nm.ar.le (nm.hypot (nm.ar.sub p.1 e.1) (nm.ar.sub p.2 e.2)) dedupEpsM := by
    intro e
    simp only [near, ha, hp]
  rw [ha]
  change replaceNear nm dedupEpsM (a, b) es (es.map f) = _
  induction es with
  | nil => rfl
  | cons e es ih => cases hf : f e <;> simp [replaceNear, ih, hf, hp, hhit, bind, Except.bind, pure, Except.pure]

theorem foldlM_replaceNear (floor : List (Json F)) (hw : ∀ n ∈ floor, IsPoint nm n) (es : List (F × F))
    (f : F × F → Bool) :
    floor.foldlM (fun replaced p => do replaceNear nm dedupEpsM (← unpack p) es replaced) (es.map f) =
      .ok (es.map fun e => f e || floor.any fun n => near nm dedupEpsM n e) := by
  induction floor generalizing f with
  | nil => simp [pure, Except.pure]
  | cons n floor ih =>
    have hrest := ih (fun m hm => hw m (List.mem_cons_of_mem _ hm)) fun e => f e || near nm dedupEpsM n e
    rw [List.foldlM_cons, replaceNear_eq (hw n List.mem_cons_self)]
    simp only [List.any_cons, ← Bool.or_assoc]
    exact hrest

theorem markReplaced_eq {floor : List (Json F)} (hw : ∀ n ∈ floor, IsPoint nm n) (es : List (F × F)) :
    markReplaced nm dedupEpsM es floor = .ok (es.map fun e => floor.any fun n => near nm dedupEpsM n e) := by
  refine (foldlM_replaceNear floor hw es fun _ => false).trans ?_
  simp only [Bool.false_or]

theorem kept_eq_filter (l : List α) (g : α → β) (r : α → Bool) :
    kept (l.map g) (l.map r) = (l.filter fun x => ! r x).map g := by
  induction l with
  | nil => rfl
  | cons x l ih =>
    simp only [kept] at ih
    cases hx : r x <;> simp [kept, hx, ih]

/-- A merge: one list of pairs, cut at the front. -/
theorem mergePoints_eq (hw : ∀ n ∈ walk, IsPoint nm n.2) (stored : List (α × F × F)) (size : ℤ × ℤ) :
    mergePoints nm maxPoints dedupEpsM (some (stored.map Prod.fst)) (some (stored.map Prod.snd)) (some size)
        (walk.map Prod.fst) (walk.map Prod.snd) (some size) =
      .ok ((newest maxPoints ((survivors nm dedupEpsM stored walk).map asMerged ++ walk)
          ((survivors nm dedupEpsM stored walk).map asMerged ++ walk).length).unzip) := by
  have hpoints : ∀ n ∈ walk.map Prod.snd, IsPoint nm n := by
    intro n hn
    obtain ⟨p, hp, rfl⟩ := List.mem_map.mp hn
    exact hw p hp
  have hmark : markReplaced nm dedupEpsM (stored.map Prod.snd) (walk.map Prod.snd) =
      .ok (stored.map fun p => walk.any fun n => near nm dedupEpsM n.2 p.2) := by
    rw [markReplaced_eq hpoints, List.map_map]
    simp only [List.any_map]
    rfl
  have himage := kept_eq_filter stored Prod.fst fun p => walk.any fun n => near nm dedupEpsM n.2 p.2
  have hfloor := kept_eq_filter stored Prod.snd fun p => walk.any fun n => near nm dedupEpsM n.2 p.2
  unfold mergePoints
  simp only [ne_eq, not_true_eq_false, or_self, if_false, hmark, bind, Except.bind, himage, hfloor]
  simp [newest, survivors, asMerged, List.unzip_eq_map, List.map_drop, Function.comp_def]

/-- Nothing of the walk is cut off as long as it fits on its own. -/
theorem newest_append {walk : List β} (hfit : (walk.length : ℤ) ≤ maxPoints) (old : List β) :
    ∃ k, newest maxPoints (old ++ walk) (old ++ walk).length = old.drop k ++ walk ∧
      ((old.drop k).length + walk.length : ℤ) ≤ maxPoints := by
  refine ⟨((old ++ walk).length - maxPoints).toNat, ?_, ?_⟩
  · have hk : ((old ++ walk).length - maxPoints).toNat ≤ old.length := by
      rw [List.length_append]
      omega
    rw [newest, List.drop_append_of_le_length hk]
  · rw [List.length_drop, List.length_append]
    omega

theorem keeps_of_pairs {pairs : List (α × Json F)} {k : ℕ}
    (hp : pairs = ((survivors nm dedupEpsM stored walk).map asMerged).drop k ++ walk)
    (hb : (pairs.length : ℤ) ≤ maxPoints) : Keeps nm maxPoints dedupEpsM stored walk pairs.unzip := by
  refine ⟨by simp, by simpa using hb, (survivors nm dedupEpsM stored walk).drop k, List.drop_suffix _ _, ?_⟩
  rw [List.zip_unzip, hp, List.map_drop]

theorem mergePoints_fresh {stored : Option (List (α × F × F))} {storedSize newSize : Option (ℤ × ℤ)}
    (h : stored = none ∨ storedSize = none ∨ storedSize ≠ newSize) :
    mergePoints nm maxPoints dedupEpsM (stored.map (List.map Prod.fst)) (stored.map (List.map Prod.snd))
        storedSize (walk.map Prod.fst) (walk.map Prod.snd) newSize = .ok walk.unzip := by
  rw [List.unzip_eq_map]
  match stored, storedSize, newSize with
  | none, _, _ | some _, none, _ | some _, some _, none => rfl
  | some stored, some size, some newSize =>
    have hne : size.1 ≠ newSize.1 ∨ size.2 ≠ newSize.2 := by
      by_contra hsame
      push Not at hsame
      simp [Prod.ext hsame.1 hsame.2] at h
    exact if_pos hne

/-- For a walk that fits on its own every merge keeps what it should; without a set stored at the
size of the walk, the walk is handed out as it is. -/
theorem mergePoints_keeps (nm : Numerics F) (maxPoints : ℤ) (dedupEpsM : F)
    (stored : Option (List (α × F × F))) (storedSize newSize : Option (ℤ × ℤ)) (walk : List (α × Json F))
    (hw : ∀ n ∈ walk, IsPoint nm n.2) :
    ∃ out, mergePoints nm maxPoints dedupEpsM (stored.map (List.map Prod.fst)) (stored.map (List.map Prod.snd))
        storedSize (walk.map Prod.fst) (walk.map Prod.snd) newSize = .ok out ∧
      out.1.length = out.2.length ∧
      ((walk.length : ℤ) ≤ maxPoints → Keeps nm maxPoints dedupEpsM (stored.getD []) walk out) ∧
      (stored = none ∨ storedSize = none ∨ storedSize ≠ newSize → out = walk.unzip) := by
  by_cases hfresh : stored = none ∨ storedSize = none ∨ storedSize ≠ newSize
  · refine ⟨walk.unzip, mergePoints_fresh maxPoints hfresh, by simp, fun hfit => ?_, fun _ => rfl⟩
    exact keeps_of_pairs maxPoints (k := (survivors nm dedupEpsM (stored.getD []) walk).length)
      (by rw [List.drop_eq_nil_of_le (by simp), List.nil_append]) hfit
  · push Not at hfresh
    obtain ⟨hstored, hsize, rfl⟩ := hfresh
    obtain ⟨stored, rfl⟩ := Option.ne_none_iff_exists'.mp hstored
    obtain ⟨size, rfl⟩ := Option.ne_none_iff_exists'.mp hsize
    refine ⟨_, mergePoints_eq maxPoints hw stored size, by simp, fun hfit => ?_, by simp⟩
    obtain ⟨k, hpairs, hb⟩ := newest_append maxPoints hfit ((survivors nm dedupEpsM stored walk).map asMerged)
    exact keeps_of_pairs maxPoints hpairs (by rw [hpairs, List.length_append]; exact_mod_cast hb)

end

/-- A first walk of two pairs under a bound of one is handed out whole. -/
theorem first_walk_over_bound :
    ∃ out, mergePoints tenPixels 1 (5 / 100) none none none [0, 1] [pairJson (0, 0), pairJson (1, 0)]
        (some (640, 480)) =
        .ok out ∧
      ¬ Keeps tenPixels 1 (5 / 100) [] [(0, pairJson (0, 0)), (1, pairJson (1, 0))] out :=
  ⟨_, rfl, fun h => absurd h.bounded (by decide)⟩

/-- The second of two stored pairs is walked to again. -/
theorem mergePoints_two_stored :
    ∃ out, mergePoints tenPixels 3 (5 / 100) (some [7, 8]) (some [(0, 0), (1, 0)]) (some (640, 480)) [9]
        [pairJson (1, 1 / 100)] (some (640, 480)) = .ok out ∧ out.1.length = out.2.length ∧
      Keeps tenPixels 3 (5 / 100) [(7, 0, 0), (8, 1, 0)] [(9, pairJson (1, 1 / 100))] out := by
  obtain ⟨out, hout, hlen, hkeeps, _⟩ := mergePoints_keeps tenPixels 3 (5 / 100) (some [(7, 0, 0), (8, 1, 0)])
    (some (640, 480)) (some (640, 480)) [(9, pairJson (1, 1 / 100))] fun n hn => by
      rw [List.mem_singleton.mp hn]
      exact ⟨_, _, (1, 1 / 100), rfl, rfl⟩
  exact ⟨out, hout, hlen, hkeeps (by decide)⟩

end Wavr.CalibMerge
