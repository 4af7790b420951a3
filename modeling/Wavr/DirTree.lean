import Mathlib.Algebra.GroupWithZero.Nat
import Mathlib.Data.List.Infix
import Wavr.Dict

/-!
# A directory as a tree

What is below one directory: each path is a list of names, with a directory or a file at it. There
are no links, so a path is where it says. The directory itself is the empty path.
-/

namespace Wavr

variable {ν κ : Type*}

inductive DirEntry (κ : Type*)
  | dir
  | file (content : κ)
  deriving DecidableEq

abbrev DirTree (ν κ : Type*) := Dict (List ν) (DirEntry κ)

namespace DirTree

/-- Each path has its name, and a directory at each way point. -/
def Closed [DecidableEq ν] (t : DirTree ν κ) : Prop :=
  ∀ p e, t.get? p = some e → p ≠ [] ∧ ∀ q, q <+: p → q ≠ p → q ≠ [] → t.get? q = some .dir

section
variable [DecidableEq ν] (t : DirTree ν κ) (p : List ν)

def isDirectory : Bool :=
  p.isEmpty || match t.get? p with
    | some .dir => true
    | _ => false

def isFile : Bool :=
  match t.get? p with
  | some (.file _) => true
  | _ => false

/-- A directory at each of the paths where there is nothing. -/
def addDirs (t : DirTree ν κ) (paths : List (List ν)) : DirTree ν κ :=
  paths.foldl (fun t q => t.setDefault q .dir) t

/-- The directories on the way to `p`, and `p`; `none` if there is something at `p` or a file on the way. -/
def mkdirs : Option (DirTree ν κ) :=
  if p = [] ∨ (t.get? p).isSome ∨ p.inits.any t.isFile then none
  else some (t.addDirs (p.inits.filter (· ≠ [])))

/-- Opens a file for writing: its content from now on. `none` if there is a directory, or none to
hold it. -/
def write (content : κ) : Option (DirTree ν κ) :=
  if t.isDirectory p ∨ t.isDirectory p.dropLast = false then none else some (t.set p (.file content))

end

variable [DecidableEq ν] {t t' : DirTree ν κ} {p q : List ν} {content : κ}

theorem closed_empty : Closed (Dict.empty : DirTree ν κ) := by
  intro p e h
  cases h

theorem isDirectory_iff : t.isDirectory p = true ↔ p = [] ∨ t.get? p = some .dir := by
  unfold isDirectory
  cases h : t.get? p with
  | none => simp
  | some e => cases e <;> simp

theorem isFile_iff : t.isFile p = true ↔ ∃ c, t.get? p = some (.file c) := by
  unfold isFile
  cases h : t.get? p with
  | none => simp
  | some e => cases e <;> simp

theorem get?_addDirs (paths : List (List ν)) :
    (t.addDirs paths).get? q = if t.get? q = none ∧ q ∈ paths then some .dir else t.get? q := by
  rw [addDirs, Dict.get?_foldl_setDefault]
  cases h : t.get? q <;> by_cases hq : q ∈ paths <;> simp [hq]

/-- What is there after `mkdirs` was there or is a directory on the way. -/
theorem get?_mkdirs (h : t.mkdirs p = some t') (q : List ν) :
    t'.get? q = if t.get? q = none ∧ q <+: p ∧ q ≠ [] then some .dir else t.get? q := by
  unfold mkdirs at h
  split at h
  · cases h
  · cases h
    rw [get?_addDirs]
    simp [List.mem_inits]

theorem mkdirs_new (h : t.mkdirs p = some t') :
    p ≠ [] ∧ t.get? p = none ∧ ∀ q, q <+: p → ∀ c, t.get? q ≠ some (.file c) := by
  unfold mkdirs at h
  split at h
  · cases h
  · rename_i hno
    rw [not_or, not_or] at hno
    refine ⟨hno.1, by simpa using hno.2.1, fun q hq c hc => hno.2.2 ?_⟩
    exact List.any_eq_true.mpr ⟨q, (List.mem_inits _ _).mpr hq, isFile_iff.mpr ⟨c, hc⟩⟩

theorem isDirectory_mkdirs (h : t.mkdirs p = some t') : t'.isDirectory p = true := by
  obtain ⟨hne, hnone, -⟩ := mkdirs_new h
  rw [isDirectory_iff, get?_mkdirs h, if_pos ⟨hnone, List.prefix_rfl, hne⟩]
  exact .inr rfl

theorem Closed.mkdirs (ht : Closed t) (h : t.mkdirs p = some t') : Closed t' := by
  obtain ⟨-, -, hfile⟩ := mkdirs_new h
  intro q e hq
  have hway : ∀ r, r <+: p → r ≠ [] → t'.get? r = some .dir := by
    intro r hr hne
    rw [get?_mkdirs h]
    cases hr' : t.get? r with
    | none => rw [if_pos ⟨rfl, hr, hne⟩]
    | some e =>
      cases e with
      | dir => simp
      | file c => exact absurd hr' (hfile r hr c)
  rw [get?_mkdirs h] at hq
  split at hq
  · rename_i hnew
    exact ⟨hnew.2.2, fun r hr _ hne => hway r (hr.trans hnew.2.1) hne⟩
  · obtain ⟨hne, hdirs⟩ := ht q e hq
    refine ⟨hne, fun r hr hrq hrne => ?_⟩
    rw [get?_mkdirs h, hdirs r hr hrq hrne]
    simp

theorem write_eq_some (h : t.write p content = some t') :
    p ≠ [] ∧ t.get? p ≠ some .dir ∧ t.isDirectory p.dropLast = true ∧ t' = t.set p (.file content) := by
  unfold write at h
  split at h
  · cases h
  · rename_i hno
    rw [not_or] at hno
    cases h
    have hnot : ¬ (p = [] ∨ t.get? p = some .dir) := fun hd => hno.1 (isDirectory_iff.mpr hd)
    rw [not_or] at hnot
    exact ⟨hnot.1, hnot.2, by simpa using hno.2, rfl⟩

omit [DecidableEq ν] in
/-- A proper way point of a path is one of the directory that holds it. -/
theorem prefix_dropLast (hq : q <+: p) (hne : q ≠ p) : q <+: p.dropLast := by
  obtain ⟨l, rfl⟩ := hq
  have hl : l ≠ [] := by
    rintro rfl
    exact hne (by simp)
  rw [List.dropLast_append_of_ne_nil hl]
  exact List.prefix_append q _

theorem Closed.write (ht : Closed t) (h : t.write p content = some t') : Closed t' := by
  obtain ⟨hne, hnodir, hparent, rfl⟩ := write_eq_some h
  have hway : ∀ q, q <+: p → q ≠ p → q ≠ [] → t.get? q = some .dir := by
    intro q hq hqp hqne
    rcases isDirectory_iff.mp hparent with hroot | hdir
    · have hpre := prefix_dropLast hq hqp
      rw [hroot, List.prefix_nil] at hpre
      exact absurd hpre hqne
    · by_cases heq : q = p.dropLast
      · rw [heq, hdir]
      · exact (ht _ _ hdir).2 q (prefix_dropLast hq hqp) heq hqne
  intro q e hq
  rw [Dict.get?_set] at hq
  have hkeep : ∀ r, t.get? r = some .dir → (t.set p (.file content)).get? r = some .dir := by
    intro r hr
    rw [Dict.get?_set, if_neg ?_, hr]
    rintro rfl
    exact hnodir hr
  split at hq
  · rename_i hqp
    subst hqp
    exact ⟨hne, fun r hr hrq hrne => hkeep r (hway r hr hrq hrne)⟩
  · obtain ⟨hqne, hdirs⟩ := ht q e hq
    exact ⟨hqne, fun r hr hrq hrne => hkeep r (hdirs r hr hrq hrne)⟩

/-! ## What is kept -/

theorem isFile_mkdirs (h : t.mkdirs p = some t') (hq : t.isFile q = true) : t'.isFile q = true := by
  obtain ⟨c, hc⟩ := isFile_iff.mp hq
  rw [isFile_iff]
  exact ⟨c, by rw [get?_mkdirs h, if_neg (by simp [hc]), hc]⟩

theorem isFile_write (h : t.write p content = some t') (hq : t.isFile q = true) : t'.isFile q = true := by
  obtain ⟨-, -, -, rfl⟩ := write_eq_some h
  obtain ⟨c, hc⟩ := isFile_iff.mp hq
  rw [isFile_iff, Dict.get?_set]
  by_cases hqp : q = p
  · exact ⟨content, if_pos hqp⟩
  · exact ⟨c, by rw [if_neg hqp, hc]⟩

theorem isFile_written (h : t.write p content = some t') : t'.isFile p = true := by
  obtain ⟨-, -, -, rfl⟩ := write_eq_some h
  exact isFile_iff.mpr ⟨content, Dict.get?_set_self _ _ _⟩

/-! ## What the files amount to -/

section
variable (size : κ → ℕ)

def entrySize : DirEntry κ → ℕ
  | .file c => size c
  | .dir => 0

/-- Each file as its size; where that is one, the number of files. -/
def bytes (t : DirTree ν κ) : ℕ := (t.values.map (entrySize size)).sum

theorem bytes_set (t : DirTree ν κ) (p : List ν) (e : DirEntry κ) :
    bytes size (t.set p e) ≤ bytes size t + entrySize size e := by
  obtain ⟨pre, post, hset, hold⟩ := Dict.exists_values_set t p e
  unfold bytes
  rw [hset, hold]
  simp only [List.map_append, List.map_cons, List.sum_append, List.sum_cons]
  omega

theorem bytes_addDirs (t : DirTree ν κ) (paths : List (List ν)) :
    bytes size (t.addDirs paths) ≤ bytes size t := by
  induction paths generalizing t with
  | nil => exact le_rfl
  | cons q paths ih =>
    have hfirst : bytes size (t.setDefault q .dir) ≤ bytes size t := by
      unfold Dict.setDefault
      split
      · exact le_rfl
      · exact bytes_set size t q .dir
    exact le_trans (ih _) hfirst

theorem bytes_mkdirs (h : t.mkdirs p = some t') : bytes size t' ≤ bytes size t := by
  unfold mkdirs at h
  split at h
  · cases h
  · cases h
    exact bytes_addDirs size t _

end

/-! ## A list of files put in place -/

/-- The tree has these files, and the directories on the way to them. -/
structure Holds (t : DirTree ν κ) (files : List (List ν × κ)) : Prop where
  file : ∀ p c, t.get? p = some (.file c) ↔ (p, c) ∈ files
  dir : ∀ p, t.get? p = some .dir ↔ p ≠ [] ∧ ∃ f ∈ files, p <+: f.1 ∧ p ≠ f.1

/-- No file is in the way of `p`, and `p` in the way of none. -/
def Free (p : List ν) (files : List (List ν × κ)) : Prop := ∀ f ∈ files, ¬ f.1 <+: p ∧ ¬ p <+: f.1

theorem holds_empty : Holds (Dict.empty : DirTree ν κ) [] := by
  constructor <;> simp

section
variable {files : List (List ν × κ)}

theorem Holds.none_of_free (ht : Holds t files) (hfree : Free p files) : t.get? p = none := by
  cases h : t.get? p with
  | none => rfl
  | some e =>
    cases e with
    | dir =>
      obtain ⟨-, f, hf, hpre, -⟩ := (ht.dir p).mp h
      exact absurd hpre (hfree f hf).2
    | file c => exact absurd List.prefix_rfl (hfree (p, c) ((ht.file p c).mp h)).1

/-- The directory for a file that is free to go there: it is there, or can be made. -/
theorem Holds.parent (ht : Holds t files) (hfree : Free p files) (hno : t.isDirectory p.dropLast = false) :
    ∃ t', t.mkdirs p.dropLast = some t' := by
  have hnot : ¬ (p.dropLast = [] ∨ t.get? p.dropLast = some .dir) := by
    rw [← isDirectory_iff, hno]
    simp
  rw [not_or] at hnot
  have hfile : ∀ q, q <+: p.dropLast → t.isFile q = false := by
    intro q hq
    rw [Bool.eq_false_iff, ne_eq, isFile_iff]
    rintro ⟨c, hc⟩
    exact (hfree (q, c) ((ht.file q c).mp hc)).1 (hq.trans (List.dropLast_prefix p))
  refine ⟨_, if_neg ?_⟩
  rw [not_or, not_or]
  refine ⟨hnot.1, ?_, ?_⟩
  · cases h : t.get? p.dropLast with
    | none => simp
    | some e =>
      cases e with
      | dir => exact absurd h hnot.2
      | file c =>
        have := hfile _ List.prefix_rfl
        rw [Bool.eq_false_iff, ne_eq, isFile_iff] at this
        exact absurd ⟨c, h⟩ this
  · rw [Bool.not_eq_true, List.any_eq_false]
    intro q hq
    rw [hfile q ((List.mem_inits _ _).mp hq)]
    simp

/-- What is there once the directory is: what was, and the way to it. -/
theorem Holds.get?_parent (ht : Holds t files)
    (hparent : t' = t ∧ t.isDirectory p.dropLast = true ∨ t.mkdirs p.dropLast = some t') (q : List ν) :
    t'.get? q = if t.get? q = none ∧ q <+: p.dropLast ∧ q ≠ [] then some .dir else t.get? q := by
  rcases hparent with ⟨rfl, hdir⟩ | hmade
  · split
    · rename_i h
      obtain ⟨hnone, hpre, hne⟩ := h
      rcases isDirectory_iff.mp hdir with hroot | hd
      · rw [hroot, List.prefix_nil] at hpre
        exact absurd hpre hne
      · obtain ⟨-, f, hf, hpf, hpne⟩ := (ht.dir _).mp hd
        refine (ht.dir q).mpr ⟨hne, f, hf, hpre.trans hpf, ?_⟩
        rintro rfl
        exact hpne (hpf.eq_of_length_le hpre.length_le)
    · rfl
  · exact get?_mkdirs hmade q

theorem Holds.put (ht : Holds t files) (hfree : Free p files) (hp : p ≠ [])
    (hparent : t' = t ∧ t.isDirectory p.dropLast = true ∨ t.mkdirs p.dropLast = some t') (c : κ) :
    ∃ t'', t'.write p c = some t'' ∧ Holds t'' (files ++ [(p, c)]) := by
  have hget := ht.get?_parent hparent
  have hshort : p.dropLast ≠ p := by
    intro he
    have := congrArg List.length he
    rw [List.length_dropLast] at this
    have := List.length_pos_of_ne_nil hp
    omega
  have hpnone : t'.get? p = none := by
    rw [hget, if_neg ?_, ht.none_of_free hfree]
    rintro ⟨-, hpre, -⟩
    exact hshort ((List.dropLast_prefix p).eq_of_length_le hpre.length_le)
  have hdirp : t'.isDirectory p.dropLast = true := by
    rcases hparent with ⟨rfl, hdir⟩ | hmade
    · exact hdir
    · exact isDirectory_mkdirs hmade
  refine ⟨t'.set p (.file c), ?_, ?_, ?_⟩
  · unfold write
    rw [if_neg]
    rw [not_or, isDirectory_iff, hpnone, hdirp]
    exact ⟨by simpa using hp, by simp⟩
  · intro q d
    rw [Dict.get?_set, List.mem_append, List.mem_singleton]
    by_cases hqp : q = p
    · subst hqp
      rw [if_pos rfl]
      constructor
      · rintro h
        cases h
        exact .inr rfl
      · rintro (h | h)
        · exact absurd List.prefix_rfl (hfree _ h).1
        · cases h
          rfl
    · rw [if_neg hqp, hget]
      constructor
      · intro h
        split at h
        · cases h
        · exact .inl ((ht.file q d).mp h)
      · rintro (h | h)
        · have hq := (ht.file q d).mpr h
          rw [if_neg (by simp [hq]), hq]
        · exact absurd (congrArg Prod.fst h) hqp
  · intro q
    rw [Dict.get?_set]
    by_cases hqp : q = p
    · subst hqp
      rw [if_pos rfl]
      constructor
      · intro h
        cases h
      · rintro ⟨-, f, hf, hpre, hne⟩
        rcases List.mem_append.mp hf with hf | hf
        · exact absurd hpre (hfree f hf).2
        · rw [List.mem_singleton.mp hf] at hne
          exact absurd rfl hne
    · rw [if_neg hqp, hget]
      constructor
      · intro h
        split at h
        · rename_i hnew
          exact ⟨hnew.2.2, (p, c), by simp, hnew.2.1.trans (List.dropLast_prefix p), hqp⟩
        · obtain ⟨hne, f, hf, hpre⟩ := (ht.dir q).mp h
          exact ⟨hne, f, List.mem_append_left _ hf, hpre⟩
      · rintro ⟨hne, f, hf, hpre, hnef⟩
        rcases List.mem_append.mp hf with hf | hf
        · rw [(ht.dir q).mpr ⟨hne, f, hf, hpre, hnef⟩]
          simp
        · rw [List.mem_singleton.mp hf] at hpre hnef
          cases hq : t.get? q with
          | none => rw [if_pos ⟨rfl, prefix_dropLast hpre hnef, hne⟩]
          | some e =>
            cases e with
            | dir => simp
            | file d => exact absurd hpre (hfree (q, d) ((ht.file q d).mp hq)).1

end

end DirTree
end Wavr
