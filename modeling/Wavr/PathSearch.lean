import Mathlib.Data.Finset.Card
import Mathlib.Data.Finset.SDiff
import Mathlib.Data.List.Chain

/-!
# Breadth-first search for a path

The first path that a breadth-first search comes upon, over any finite graph. Every path it returns
goes from step to step, without a repetition, and to a neighbour it goes directly.
-/

namespace Wavr.PathSearch

/-- Every node with the nodes it leads to, in the order in which they are visited. -/
structure Graph (α : Type*) where
  nodes : List α
  next : α → List α
  closed : ∀ x, ∀ y ∈ next x, y ∈ nodes

variable {α : Type*} [DecidableEq α]

/-- The neighbours of one node, along the path to it: the goal is found, or the new ones queue up. -/
def visit (goal : α) (path : List α) : List α → List α → List (α × List α) →
    List α ⊕ List α × List (α × List α)
  | [], seen, queue => .inr (seen, queue)
  | n :: ns, seen, queue =>
    if n ∈ seen then visit goal path ns seen queue
    else if n = goal then .inl (path ++ [n])
    else visit goal path ns (n :: seen) (queue ++ [(n, path ++ [n])])

/-- The nodes that have not been seen. -/
def unseen (g : Graph α) (seen : List α) : ℕ := (g.nodes.toFinset \ seen.toFinset).card

theorem unseen_cons {g : Graph α} {seen : List α} {n : α} (hn : n ∈ g.nodes) (hseen : n ∉ seen) :
    unseen g (n :: seen) + 1 = unseen g seen := by
  have hmem : n ∈ g.nodes.toFinset \ seen.toFinset :=
    Finset.mem_sdiff.mpr ⟨List.mem_toFinset.mpr hn, fun h => hseen (List.mem_toFinset.mp h)⟩
  rw [unseen, List.toFinset_cons, Finset.sdiff_insert, Finset.card_erase_of_mem hmem]
  exact Nat.sub_add_cancel (Finset.card_pos.mpr ⟨n, hmem⟩)

/-- What is taken off the unseen is put on the queue. -/
theorem visit_measure {g : Graph α} {goal : α} {path ns seen seen' : List α} {queue queue' : List (α × List α)}
    (hns : ∀ n ∈ ns, n ∈ g.nodes) (h : visit goal path ns seen queue = .inr (seen', queue')) :
    unseen g seen' + queue'.length = unseen g seen + queue.length := by
  induction ns generalizing seen queue with
  | nil =>
    cases h
    rfl
  | cons n ns ih =>
    obtain ⟨hn, hns⟩ := List.forall_mem_cons.mp hns
    unfold visit at h
    split_ifs at h with hseen hgoal
    · exact ih hns h
    · have hmeasure := ih hns h
      have hcons := unseen_cons (g := g) hn hseen
      rw [List.length_append, List.length_singleton] at hmeasure
      omega

def search (g : Graph α) (goal : α) (seen : List α) : List (α × List α) → Option (List α)
  | [] => none
  | (node, path) :: queue =>
    match _h : visit goal path (g.next node) seen queue with
    | .inl found => some found
    | .inr (seen', queue') => search g goal seen' queue'
termination_by queue => unseen g seen + queue.length
decreasing_by
  have hmeasure := visit_measure (g.closed node) _h
  rw [List.length_cons]
  omega

/-- Fewest steps first. -/
def shortestPath (g : Graph α) (start goal : α) : Option (List α) := search g goal [start] [(start, [start])]

/-- A way through the graph from `start` to `node`. -/
structure Way (g : Graph α) (start node : α) (path : List α) : Prop where
  steps : path.IsChain fun x y => y ∈ g.next x
  head : path.head? = some start
  last : path.getLast? = some node
  nodup : path.Nodup

section
variable {g : Graph α} {start node goal : α} {path : List α}

omit [DecidableEq α] in
theorem Way.append (h : Way g start node path) {n : α} (hn : n ∈ g.next node) (hnew : n ∉ path) :
    Way g start n (path ++ [n]) := by
  refine ⟨?_, ?_, List.getLast?_concat, ?_⟩
  · refine List.isChain_append.mpr ⟨h.steps, List.isChain_singleton n, fun x hx y hy => ?_⟩
    rw [h.last] at hx
    cases hx
    cases hy
    exact hn
  · rw [List.head?_append, h.head]
    rfl
  · exact List.nodup_append.mpr ⟨h.nodup, List.nodup_singleton n, fun x hx y hy heq =>
      hnew (List.mem_singleton.mp hy ▸ heq ▸ hx)⟩

/-- What the search keeps of every entry of its queue. -/
def Kept (g : Graph α) (start : α) (seen : List α) (queue : List (α × List α)) : Prop :=
  ∀ e ∈ queue, Way g start e.1 e.2 ∧ ∀ x ∈ e.2, x ∈ seen

theorem visit_kept {ns seen : List α} {queue : List (α × List α)} (hway : Way g start node path)
    (hpath : ∀ x ∈ path, x ∈ seen) (hns : ∀ n ∈ ns, n ∈ g.next node) (hqueue : Kept g start seen queue) :
    (∀ found, visit goal path ns seen queue = .inl found → Way g start goal found) ∧
      ∀ seen' queue', visit goal path ns seen queue = .inr (seen', queue') → Kept g start seen' queue' := by
  induction ns generalizing seen queue with
  | nil =>
    refine ⟨fun _ h => (by cases h), ?_⟩
    rintro seen' queue' ⟨⟩
    exact hqueue
  | cons n ns ih =>
    obtain ⟨hn, hns⟩ := List.forall_mem_cons.mp hns
    unfold visit
    split_ifs with hseen hgoal
    · exact ih hpath hns hqueue
    · refine ⟨?_, fun _ _ h => (by cases h)⟩
      rintro found ⟨⟩
      exact hgoal ▸ hway.append hn fun hmem => hseen (hpath n hmem)
    · refine ih (fun x hx => List.mem_cons_of_mem n (hpath x hx)) hns fun e he => ?_
      rcases List.mem_append.mp he with hold | hnew
      · exact ⟨(hqueue e hold).1, fun x hx => List.mem_cons_of_mem n ((hqueue e hold).2 x hx)⟩
      · rw [List.mem_singleton.mp hnew]
        refine ⟨hway.append hn fun hmem => hseen (hpath n hmem), fun x hx => ?_⟩
        rcases List.mem_append.mp hx with hx | hx
        · exact List.mem_cons_of_mem n (hpath x hx)
        · exact List.mem_singleton.mp hx ▸ List.mem_cons_self

/-- A path that is found is a way to the goal. -/
theorem way_of_search {seen : List α} {queue : List (α × List α)} (hqueue : Kept g start seen queue)
    {found : List α} (h : search g goal seen queue = some found) : Way g start goal found := by
  fun_induction search g goal seen queue with
  | case1 seen => cases h
  | case2 seen node path queue found' hvisit =>
    cases h
    obtain ⟨⟨hway, hpath⟩, hrest⟩ := List.forall_mem_cons.mp hqueue
    exact (visit_kept hway hpath (fun _ hn => hn) hrest).1 _ hvisit
  | case3 seen node path queue seen' queue' hvisit ih =>
    obtain ⟨⟨hway, hpath⟩, hrest⟩ := List.forall_mem_cons.mp hqueue
    exact ih ((visit_kept hway hpath (fun _ hn => hn) hrest).2 _ _ hvisit) h

theorem way_of_shortestPath (h : shortestPath g start goal = some path) : Way g start goal path := by
  refine way_of_search (fun e he => ?_) h
  rw [List.mem_singleton.mp he]
  exact ⟨⟨List.isChain_singleton start, rfl, rfl, List.nodup_singleton start⟩, fun x hx => hx⟩

theorem visit_of_mem {ns seen : List α} {queue : List (α × List α)} (h : goal ∈ ns) (hseen : goal ∉ seen) :
    visit goal path ns seen queue = .inl (path ++ [goal]) := by
  induction ns generalizing seen queue with
  | nil => cases h
  | cons n ns ih =>
    unfold visit
    by_cases hn : n = goal
    · rw [hn, if_neg hseen, if_pos rfl]
    · have hmem : goal ∈ ns := (List.mem_cons.mp h).resolve_left (Ne.symm hn)
      split_ifs with hold
      · exact ih hmem hseen
      · exact ih hmem fun hcons => (List.mem_cons.mp hcons).elim (Ne.symm hn) hseen

/-- To a neighbour the path is the one step. -/
theorem shortestPath_of_next (h : goal ∈ g.next start) (hne : goal ≠ start) :
    shortestPath g start goal = some [start, goal] := by
  have hvisit : visit goal [start] (g.next start) [start] [] = .inl [start, goal] :=
    visit_of_mem h fun hmem => hne (List.mem_singleton.mp hmem)
  rw [shortestPath, search]
  split
  · rename_i found hfound
    rw [hvisit] at hfound
    cases hfound
    rfl
  · rename_i hfound
    rw [hvisit] at hfound
    cases hfound

/-! ## Fewest steps -/

/-- A way that may come back to where it has been. -/
structure Route (g : Graph α) (start node : α) (path : List α) : Prop where
  steps : path.IsChain fun x y => y ∈ g.next x
  head : path.head? = some start
  last : path.getLast? = some node

inductive ReachedIn (g : Graph α) (start : α) : ℕ → α → Prop
  | start : ReachedIn g start 0 start
  | step {n : ℕ} {x y : α} (h : ReachedIn g start n x) (hy : y ∈ g.next x) : ReachedIn g start (n + 1) y

omit [DecidableEq α] in
theorem Way.route (h : Way g start node path) : Route g start node path := ⟨h.steps, h.head, h.last⟩

omit [DecidableEq α] in
theorem ReachedIn.exists_route {n : ℕ} (h : ReachedIn g start n node) :
    ∃ path, Route g start node path ∧ path.length = n + 1 := by
  induction h with
  | start => exact ⟨[start], ⟨List.isChain_singleton start, rfl, rfl⟩, rfl⟩
  | @step n x y _ hy ih =>
    obtain ⟨path, hroute, hlen⟩ := ih
    refine ⟨path ++ [y], ⟨?_, ?_, List.getLast?_concat⟩, by rw [List.length_append, hlen, List.length_singleton]⟩
    · refine List.isChain_append.mpr ⟨hroute.steps, List.isChain_singleton y, fun z hz w hw => ?_⟩
      rw [hroute.last] at hz
      cases hz
      cases hw
      exact hy
    · rw [List.head?_append, hroute.head]
      rfl

omit [DecidableEq α] in
theorem Route.reachedIn (h : Route g start node path) : ReachedIn g start (path.length - 1) node := by
  induction path using List.reverseRecOn generalizing node with
  | nil => cases h.head
  | append_singleton path x ih =>
    obtain rfl : x = node := by simpa using h.last
    obtain ⟨hsteps, -, hjoin⟩ := List.isChain_append.mp h.steps
    rw [List.length_append, List.length_singleton, Nat.add_sub_cancel]
    rcases path.eq_nil_or_concat' with rfl | ⟨init, y, rfl⟩
    · obtain rfl : x = start := by simpa using h.head
      exact .start
    · have hlast : (init ++ [y]).getLast? = some y := List.getLast?_concat
      have hhead : (init ++ [y]).head? = some start := by
        have hhead := h.head
        rwa [List.head?_append_of_ne_nil _ (by simp)] at hhead
      have hreached := ih ⟨hsteps, hhead, hlast⟩
      rw [List.length_append, List.length_singleton, Nat.add_sub_cancel] at hreached
      rw [List.length_append, List.length_singleton]
      exact hreached.step (hjoin y hlast x rfl)

/-- The queue holds what is `d` steps away, then what is one step farther; what is nearer has been seen. -/
structure Layered (g : Graph α) (start goal : α) (d : ℕ) (seen : List α) (front back : List (α × List α)) :
    Prop where
  front_length : ∀ e ∈ front, e.2.length = d + 1
  back_length : ∀ e ∈ back, e.2.length = d + 2
  early : ∀ n ≤ d, ∀ x, ReachedIn g start n x → x ∈ seen
  late : ∀ e ∈ back, ∀ n ≤ d, ¬ ReachedIn g start n e.1
  closed : ∀ x ∈ seen, x ∈ (front ++ back).map Prod.fst ∨ ∀ y ∈ g.next x, y ∈ seen
  goal_unseen : goal ∉ seen

theorem visit_found {ns seen found : List α} {queue : List (α × List α)}
    (h : visit goal path ns seen queue = .inl found) : found.length = path.length + 1 := by
  induction ns generalizing seen queue with
  | nil => cases h
  | cons n ns ih =>
    unfold visit at h
    split_ifs at h
    · exact ih h
    · cases h
      rw [List.length_append, List.length_singleton]
    · exact ih h

/-- What a node's neighbours add. -/
theorem visit_adds {ns seen seen' : List α} {queue queue' : List (α × List α)} (hgoal : goal ∉ seen)
    (h : visit goal path ns seen queue = .inr (seen', queue')) :
    ∃ added, queue' = queue ++ added ∧ (∀ x ∈ seen, x ∈ seen') ∧ (∀ n ∈ ns, n ∈ seen') ∧
      (∀ x ∈ seen', x ∈ seen ∨ x ∈ added.map Prod.fst) ∧
      (∀ e ∈ added, e.1 ∉ seen ∧ e.2.length = path.length + 1) ∧ goal ∉ seen' := by
  induction ns generalizing seen queue with
  | nil =>
    cases h
    exact ⟨[], by simp, fun _ hx => hx, by simp, fun _ hx => .inl hx, by simp, hgoal⟩
  | cons n ns ih =>
    unfold visit at h
    split_ifs at h with hseen hn
    · obtain ⟨added, hqueue, hkeep, hall, hnew, hadded, hgoal'⟩ := ih hgoal h
      exact ⟨added, hqueue, hkeep, List.forall_mem_cons.mpr ⟨hkeep n hseen, hall⟩, hnew, hadded, hgoal'⟩
    · have hgoal' : goal ∉ n :: seen := fun hmem => (List.mem_cons.mp hmem).elim (Ne.symm hn) hgoal
      obtain ⟨added, hqueue, hkeep, hall, hnew, hadded, hgoal''⟩ := ih hgoal' h
      refine ⟨(n, path ++ [n]) :: added, ?_, fun x hx => hkeep x (List.mem_cons_of_mem n hx),
        List.forall_mem_cons.mpr ⟨hkeep n List.mem_cons_self, hall⟩, fun x hx => ?_, ?_, hgoal''⟩
      · rw [hqueue, List.append_assoc, List.singleton_append]
      · rw [List.map_cons, List.mem_cons]
        rcases hnew x hx with hold | hmem
        · exact (List.mem_cons.mp hold).elim (fun heq => .inr (.inl heq)) .inl
        · exact .inr (.inr hmem)
      · refine List.forall_mem_cons.mpr ⟨⟨hseen, by rw [List.length_append, List.length_singleton]⟩,
          fun e he => ?_⟩
        exact ⟨fun hmem => (hadded e he).1 (List.mem_cons_of_mem n hmem), (hadded e he).2⟩

section
variable {d : ℕ} {seen : List α} {front back : List (α × List α)}

theorem Layered.visit {seen' : List α} {queue' : List (α × List α)}
    (h : Layered g start goal d seen ((node, path) :: front) back)
    (hvisit : PathSearch.visit goal path (g.next node) seen (front ++ back) = .inr (seen', queue')) :
    ∃ added, queue' = front ++ (back ++ added) ∧ Layered g start goal d seen' front (back ++ added) := by
  obtain ⟨added, hqueue, hkeep, hall, hnew, hadded, hgoal⟩ := visit_adds h.goal_unseen hvisit
  have hpath : path.length = d + 1 := h.front_length _ List.mem_cons_self
  refine ⟨added, by rw [hqueue, List.append_assoc], ?_, ?_, ?_, ?_, ?_, hgoal⟩
  · exact fun e he => h.front_length e (List.mem_cons_of_mem _ he)
  · intro e he
    rcases List.mem_append.mp he with he | he
    · exact h.back_length e he
    · rw [(hadded e he).2, hpath]
  · exact fun n hn x hx => hkeep x (h.early n hn x hx)
  · intro e he n hn hreached
    rcases List.mem_append.mp he with he | he
    · exact h.late e he n hn hreached
    · exact (hadded e he).1 (h.early n hn _ hreached)
  · intro x hx
    rw [← List.append_assoc, List.map_append, List.mem_append]
    rcases hnew x hx with hold | hmem
    · rcases h.closed x hold with hqueued | hnext
      · rw [List.cons_append, List.map_cons, List.mem_cons] at hqueued
        rcases hqueued with rfl | hqueued
        · exact .inr hall
        · exact .inl (.inl hqueued)
      · exact .inr fun y hy => hkeep y (hnext y hy)
    · exact .inl (.inr hmem)

omit [DecidableEq α] in
/-- When nothing so near is left, the rest is the next layer. -/
theorem Layered.next (h : Layered g start goal d seen [] back) : Layered g start goal (d + 1) seen back [] where
  front_length := h.back_length
  back_length := by simp
  early n hn x hx := by
    rcases Nat.le_succ_iff.mp hn with hle | rfl
    · exact h.early n hle x hx
    · cases hx with
      | @step _ y _ hreached hx =>
        rcases h.closed y (h.early d le_rfl y hreached) with hqueued | hnext
        · obtain ⟨e, he, rfl⟩ := List.mem_map.mp hqueued
          exact absurd hreached (h.late e (by simpa using he) d le_rfl)
        · exact hnext x hx
  late := by simp
  closed := by simpa using h.closed
  goal_unseen := h.goal_unseen

omit [DecidableEq α] in
theorem Layered.exists_front {queue : List (α × List α)} {e : α × List α}
    (h : Layered g start goal d seen front back) (hqueue : e :: queue = front ++ back) :
    ∃ d front' back', queue = front' ++ back' ∧ Layered g start goal d seen (e :: front') back' := by
  cases front with
  | nil =>
    obtain rfl : back = e :: queue := hqueue.symm
    exact ⟨d + 1, queue, [], (List.append_nil queue).symm, h.next⟩
  | cons e' front =>
    obtain ⟨rfl, rfl⟩ := List.cons.inj hqueue
    exact ⟨d, front, back, rfl, h⟩

/-- Nothing is nearer than what is found; where nothing is found, the goal is not reached. -/
theorem search_fewest {queue : List (α × List α)} (h : Layered g start goal d seen front back)
    (hqueue : queue = front ++ back) {n : ℕ} (hn : ReachedIn g start n goal) :
    ∃ found, search g goal seen queue = some found ∧ found.length ≤ n + 1 := by
  fun_induction search g goal seen queue generalizing d front back with
  | case1 seen =>
    obtain ⟨rfl, rfl⟩ := List.nil_eq_append_iff.mp hqueue
    have hseen : ∀ m x, ReachedIn g start m x → x ∈ seen := by
      intro m x hx
      induction hx with
      | start => exact h.early 0 (Nat.zero_le d) start .start
      | step _ hy ih => exact (h.closed _ ih).resolve_left (by simp) _ hy
    exact absurd (hseen n goal hn) h.goal_unseen
  | case2 seen node path queue found hvisit =>
    obtain ⟨d', front', back', -, h'⟩ := h.exists_front hqueue
    refine ⟨found, rfl, ?_⟩
    have hpath : path.length = d' + 1 := h'.front_length _ List.mem_cons_self
    have hfar : d' < n := by
      by_contra hle
      exact h'.goal_unseen (h'.early n (not_lt.mp hle) goal hn)
    rw [visit_found hvisit, hpath]
    omega
  | case3 seen node path queue seen' queue' hvisit ih =>
    obtain ⟨d', front', back', rfl, h'⟩ := h.exists_front hqueue
    obtain ⟨added, hqueue', h''⟩ := h'.visit hvisit
    exact ih h'' hqueue'

end

omit [DecidableEq α] in
theorem layered_start (hne : goal ≠ start) : Layered g start goal 0 [start] [(start, [start])] [] where
  front_length := by simp
  back_length := by simp
  early n hn x hx := by
    obtain rfl := Nat.le_zero.mp hn
    cases hx
    exact List.mem_singleton_self start
  late := by simp
  closed := by simp
  goal_unseen := by simpa using hne

/-- The path found is a way with the fewest nodes. -/
theorem shortestPath_fewest (hne : goal ≠ start) (h : shortestPath g start goal = some path) :
    Way g start goal path ∧ ∀ other, Route g start goal other → path.length ≤ other.length := by
  refine ⟨way_of_shortestPath h, fun other hother => ?_⟩
  obtain ⟨found, hfound, hle⟩ := search_fewest (layered_start hne) rfl hother.reachedIn
  obtain rfl := Option.some.inj (h.symm.trans hfound)
  have hpos : other ≠ [] := by
    rintro rfl
    cases hother.head
  have := List.length_pos_iff.mpr hpos
  omega

/-- None is found exactly where there is none. -/
theorem shortestPath_eq_none_iff (hne : goal ≠ start) :
    shortestPath g start goal = none ↔ ∀ path, ¬ Route g start goal path := by
  constructor
  · intro h path hpath
    obtain ⟨found, hfound, -⟩ := search_fewest (layered_start hne) rfl hpath.reachedIn
    cases h.symm.trans hfound
  · intro h
    by_contra hsome
    obtain ⟨path, hpath⟩ := Option.ne_none_iff_exists'.mp hsome
    exact h path (way_of_shortestPath hpath).route

end

end Wavr.PathSearch
