import Wavr.SafeTar

/-!
# What an update can leave behind

The archive is anything: what is below the destination is told by what one entry can do there.
-/

namespace Wavr.SafeTar

/-! ## One entry -/

/-- Everything an entry of this size can do below the destination, failed or not. -/
inductive Moved (size : ℤ) (s : State) (failed : Bool) (s' : State) : Prop
  | kept (ht : s'.tree = s.tree) (hi : s'.sawIndex = s.sawIndex)
      (hb : s'.totalBytes = s.totalBytes ∨ failed = true)
  | made (p : Path) (hp : ∀ part ∈ p, Plain part) (ht : s.tree.mkdirs p = some s'.tree)
      (hi : s'.sawIndex = s.sawIndex) (hb : s'.totalBytes = s.totalBytes ∨ failed = true)
  | wrote (name : List Char) (data : Bytes) (tree : Tree)
      (hname : validatePathComponents name = .ok ()) (hfile : validateFileName name = .ok ())
      (hsize : size ≤ MAX_ENTRY_BYTES) (hdata : data.length ≤ size.toNat)
      (hb : s'.totalBytes = s.totalBytes + size) (hcap : s'.totalBytes ≤ MAX_TOTAL_BYTES)
      (hparent : makeParent s.tree (place name) = some tree)
      (hwrite : tree.write (place name) data = some s'.tree)
      (hi : s'.sawIndex = true → s.sawIndex = true ∨ name = "index.html".toList)

def failed {α : Type} : Except Failure α → Bool
  | .error _ => true
  | .ok _ => false

section
variable {dest : Path} {name : List Char} {size : ℤ} {tar header : Bytes} {s : State}

theorem moved_directory :
    Moved size s (failed (directory (canonical dest) name size tar s).1)
      (directory (canonical dest) name size tar s).2 := by
  unfold directory
  cases hname : validatePathComponents name with
  | error e => exact .kept rfl rfl (.inl rfl)
  | ok _ =>
    rw [safeResolve_eq hname]
    dsimp only
    split
    · exact .kept rfl rfl (.inl rfl)
    · split
      · exact .kept rfl rfl (.inl rfl)
      · rename_i tree htree
        exact .made (place name) (plain_place hname) htree rfl (.inl rfl)

variable (size tar) in
theorem copyExact_length : (copyExact tar size).1.length ≤ size.toNat := by
  simp [copyExact]

/-- The directories on the way to a file, or nothing where they are there. -/
theorem makeParent_cases {tree tree' : Tree} {out : Path} (h : makeParent tree out = some tree') :
    tree' = tree ∨ tree.mkdirs out.dropLast = some tree' := by
  unfold makeParent at h
  split at h
  · exact .inl (Option.some.inj h).symm
  · exact .inr h

theorem moved_regularFile :
    Moved size s (failed (regularFile (canonical dest) name size tar s).1)
      (regularFile (canonical dest) name size tar s).2 := by
  unfold regularFile
  cases hname : validatePathComponents name with
  | error e => exact .kept rfl rfl (.inl rfl)
  | ok _ =>
    cases hfile : validateFileName name with
    | error e => exact .kept rfl rfl (.inl rfl)
    | ok _ =>
      dsimp only
      split
      · exact .kept rfl rfl (.inl rfl)
      · rename_i hsize
        split
        · exact .kept rfl rfl (.inr rfl)
        · rename_i hcap
          rw [safeResolve_eq hname]
          dsimp only
          split
          · exact .kept rfl rfl (.inr rfl)
          · rename_i tree htree
            have hdata := copyExact_length size tar
            unfold writeEntry
            cases hcopy : copyExact tar size with
            | mk data rest =>
              rw [hcopy] at hdata
              dsimp only at hdata ⊢
              cases hwrite : tree.write (place name) data with
              | none =>
                dsimp only
                rcases makeParent_cases htree with rfl | hmade
                · exact .kept rfl rfl (.inr rfl)
                · exact .made _ (fun part hpart => plain_place hname part (List.mem_of_mem_dropLast hpart)) hmade rfl
                    (.inr rfl)
              | some tree' =>
                have hwrote : ∀ (b : Bool) (s' : State), s'.tree = tree' → s'.totalBytes = s.totalBytes + size →
                    (s'.sawIndex = true → s.sawIndex = true ∨ name = "index.html".toList) →
                    Moved size s b s' := by
                  intro b s' ht hb hi
                  exact .wrote name data tree hname hfile (not_lt.mp hsize) hdata hb
                    (hb.symm ▸ not_lt.mp hcap) htree (ht.symm ▸ hwrite) hi
                cases rest with
                | error e => exact hwrote _ _ rfl rfl .inl
                | ok rest =>
                  dsimp only
                  cases skipPadding rest size with
                  | error e => exact hwrote _ _ rfl rfl .inl
                  | ok rest =>
                    refine hwrote _ _ rfl rfl fun h => ?_
                    rw [Bool.or_eq_true, decide_eq_true_eq] at h
                    exact h

variable (dest tar header s) in
theorem moved_entry :
    ∃ size, Moved size s (failed (entry (canonical dest) header tar s).1) (entry (canonical dest) header tar s).2 ∧
      (0 ≤ size ∨ parseOctalSize header = .ok size) := by
  unfold entry
  cases hsize : parseOctalSize header with
  | error e => exact ⟨0, .kept rfl rfl (.inl rfl), .inl le_rfl⟩
  | ok size =>
    refine ⟨size, ?_, .inr rfl⟩
    dsimp only
    split
    · exact moved_directory
    · exact moved_regularFile
    · exact moved_regularFile
    · exact .kept rfl rfl (.inl rfl)

end

/-! ## What is below the destination -/

/-- Everything below the destination is where its name says, and each file is a web asset within
the cap of one entry. -/
structure Safe (t : Tree) : Prop where
  closed : t.Closed
  plain : ∀ p e, t.get? p = some e → ∀ part ∈ p, Plain part
  asset : ∀ p c, t.get? p = some (.file c) → WebAsset p ∧ (c.length : ℤ) ≤ MAX_ENTRY_BYTES

section
variable {t t' : Tree} {p : Path} {data : Bytes}

theorem safe_empty : Safe (Dict.empty : Tree) :=
  ⟨DirTree.closed_empty, fun _ _ h => (by cases h), fun _ _ h => (by cases h)⟩

theorem Safe.mkdirs (ht : Safe t) (hp : ∀ part ∈ p, Plain part) (h : t.mkdirs p = some t') : Safe t' := by
  refine ⟨ht.closed.mkdirs h, fun q e hq => ?_, fun q c hq => ?_⟩
  · rw [DirTree.get?_mkdirs h] at hq
    split at hq
    · rename_i hnew
      exact fun part hpart => hp part (hnew.2.1.subset hpart)
    · exact ht.plain q e hq
  · rw [DirTree.get?_mkdirs h] at hq
    split at hq
    · cases hq
    · exact ht.asset q c hq

theorem Safe.write (ht : Safe t) (hp : ∀ part ∈ p, Plain part) (hasset : WebAsset p)
    (hsize : (data.length : ℤ) ≤ MAX_ENTRY_BYTES) (h : t.write p data = some t') : Safe t' := by
  refine ⟨ht.closed.write h, fun q e hq => ?_, fun q c hq => ?_⟩
  · obtain ⟨-, -, -, rfl⟩ := DirTree.write_eq_some h
    rw [Dict.get?_set] at hq
    split at hq
    · rename_i hqp
      rw [hqp]
      exact hp
    · exact ht.plain q e hq
  · obtain ⟨-, -, -, rfl⟩ := DirTree.write_eq_some h
    rw [Dict.get?_set] at hq
    split at hq
    · rename_i hqp
      cases hq
      rw [hqp]
      exact ⟨hasset, hsize⟩
    · exact ht.asset q c hq

/-- The sum of the contents, and their number. -/
def contents (t : Tree) : ℕ := t.bytes List.length

def fileCount (t : Tree) : ℕ := t.bytes fun _ => 1

theorem bytes_makeParent (size : Bytes → ℕ) (h : makeParent t p = some t') : t'.bytes size ≤ t.bytes size := by
  rcases makeParent_cases h with rfl | hmade
  · exact le_rfl
  · exact DirTree.bytes_mkdirs size hmade

theorem bytes_write (size : Bytes → ℕ) (h : t.write p data = some t') : t'.bytes size ≤ t.bytes size + size data := by
  obtain ⟨-, -, -, rfl⟩ := DirTree.write_eq_some h
  exact DirTree.bytes_set size t p (.file data)

end

section
variable {dest : Path} {size : ℤ} {s s' : State} {b : Bool}

def Indexed (s : State) : Prop := s.sawIndex = true → s.tree.isFile ["index.html".toList] = true

theorem Moved.safe (h : Moved size s b s') (hs : Safe s.tree) : Safe s'.tree := by
  cases h with
  | kept ht => rw [ht]; exact hs
  | made p hp ht => exact hs.mkdirs hp ht
  | wrote name data tree hname hfile hsize hdata _ _ hparent hwrite _ =>
    have hplain := plain_place hname
    have htree : Safe tree := by
      rcases makeParent_cases hparent with rfl | hmade
      · exact hs
      · exact hs.mkdirs (fun part hpart => hplain part (List.mem_of_mem_dropLast hpart)) hmade
    refine htree.write hplain (webAsset_place hfile) ?_ hwrite
    have hcap : (0 : ℤ) ≤ MAX_ENTRY_BYTES := by decide
    omega

theorem Moved.fileCount (h : Moved size s b s') : SafeTar.fileCount s'.tree ≤ SafeTar.fileCount s.tree + 1 := by
  cases h with
  | kept ht => rw [ht]; exact Nat.le_succ _
  | made p _ ht => exact (DirTree.bytes_mkdirs _ ht).trans (Nat.le_succ _)
  | wrote name data tree _ _ _ _ _ _ hparent hwrite _ =>
    exact (bytes_write _ hwrite).trans (Nat.add_le_add_right (bytes_makeParent _ hparent) 1)

theorem Moved.indexed (h : Moved size s b s') (hs : Indexed s) : Indexed s' := by
  intro hi'
  cases h with
  | kept ht hi => rw [ht]; exact hs (hi ▸ hi')
  | made p _ ht hi => exact DirTree.isFile_mkdirs ht (hs (hi ▸ hi'))
  | wrote name data tree _ _ _ _ _ _ hparent hwrite hi =>
    rcases hi hi' with hold | rfl
    · refine DirTree.isFile_write hwrite ?_
      rcases makeParent_cases hparent with rfl | hmade
      · exact hs hold
      · exact DirTree.isFile_mkdirs hmade (hs hold)
    · exact DirTree.isFile_written hwrite

/-- While no entry counts backwards, what is written is counted. -/
theorem Moved.contents (h : Moved size s b s') (h0 : 0 ≤ size) (hs : (SafeTar.contents s.tree : ℤ) ≤ s.totalBytes)
    (hcap : s.totalBytes ≤ MAX_TOTAL_BYTES) :
    (SafeTar.contents s'.tree : ℤ) ≤ MAX_TOTAL_BYTES ∧
      (b = false → (SafeTar.contents s'.tree : ℤ) ≤ s'.totalBytes ∧ s'.totalBytes ≤ MAX_TOTAL_BYTES) := by
  cases h with
  | kept ht _ hb =>
    rw [ht]
    refine ⟨hs.trans hcap, fun hf => ?_⟩
    rcases hb with hb | hb
    · rw [hb]
      exact ⟨hs, hcap⟩
    · rw [hf] at hb
      cases hb
  | made p _ ht _ hb =>
    have hle : (SafeTar.contents s'.tree : ℤ) ≤ s.totalBytes :=
      le_trans (by exact_mod_cast DirTree.bytes_mkdirs _ ht) hs
    refine ⟨hle.trans hcap, fun hf => ?_⟩
    rcases hb with hb | hb
    · rw [hb]
      exact ⟨hle, hcap⟩
    · rw [hf] at hb
      cases hb
  | wrote name data tree _ _ _ hdata hb hcap' hparent hwrite _ =>
    have hle : SafeTar.contents s'.tree ≤ SafeTar.contents s.tree + data.length :=
      (bytes_write _ hwrite).trans (Nat.add_le_add_right (bytes_makeParent _ hparent) _)
    have hcount : (SafeTar.contents s'.tree : ℤ) ≤ s'.totalBytes := by omega
    exact ⟨hcount.trans hcap', fun _ => ⟨hcount, hcap'⟩⟩

/-! ## The whole archive -/

variable (dest) in
theorem extractLoop_safe (left : ℕ) (tar : Bytes) {s : State} (hs : Safe s.tree) (hi : Indexed s)
    (hn : SafeTar.fileCount s.tree + left ≤ MAX_ENTRIES) :
    Safe (extractLoop (canonical dest) left tar s).2.tree ∧ Indexed (extractLoop (canonical dest) left tar s).2 ∧
      SafeTar.fileCount (extractLoop (canonical dest) left tar s).2.tree ≤ MAX_ENTRIES := by
  have hnow : SafeTar.fileCount s.tree ≤ MAX_ENTRIES := (Nat.le_add_right _ _).trans hn
  induction left generalizing tar s with
  | zero =>
    unfold extractLoop
    split
    · exact ⟨hs, hi, hnow⟩
    · exact ⟨hs, hi, hnow⟩
    · dsimp only
      split
      · exact ⟨hs, hi, hnow⟩
      · exact ⟨hs, hi, hnow⟩
  | succ left ih =>
    unfold extractLoop
    split
    · exact ⟨hs, hi, hnow⟩
    · exact ⟨hs, hi, hnow⟩
    · rename_i header rest _
      dsimp only
      split
      · exact ⟨hs, hi, hnow⟩
      · obtain ⟨size, hmoved, -⟩ := moved_entry dest rest header s
        have hs' := hmoved.safe hs
        have hi' := hmoved.indexed hi
        have hn' := hmoved.fileCount
        split
        · rename_i e s' he
          rw [he] at hs' hi' hn'
          exact ⟨hs', hi', hn'.trans (by omega)⟩
        · rename_i rest' s' he
          rw [he] at hs' hi' hn'
          have hleft : SafeTar.fileCount s'.tree + left ≤ MAX_ENTRIES :=
            (Nat.add_le_add_right hn' left).trans (by omega)
          exact ih rest' hs' hi' hleft ((Nat.le_add_right _ _).trans hleft)

/-- Whatever the archive is, and whether it is taken or not: all that is ever below the destination
is web assets of at most 32 MiB in plain directories, at most 4000 of them; and where it is taken,
there is an index. -/
theorem extract_safe (dest : Path) (tar : Bytes) :
    Safe (extract dest tar).2 ∧ SafeTar.fileCount (extract dest tar).2 ≤ MAX_ENTRIES ∧
      ((extract dest tar).1 = .ok () → (extract dest tar).2.isFile ["index.html".toList] = true) := by
  obtain ⟨hs, hi, hn⟩ := extractLoop_safe dest MAX_ENTRIES tar (s := ⟨.empty, 0, false⟩) safe_empty
    (fun h => by cases h) (by decide)
  unfold extract
  split
  · rename_i e s he
    rw [he] at hs hn
    exact ⟨hs, hn, fun h => by cases h⟩
  · rename_i s he
    rw [he] at hs hi hn
    split
    · rename_i hsaw
      exact ⟨hs, hn, fun _ => hi hsaw⟩
    · exact ⟨hs, hn, fun h => by cases h⟩

end

/-! ## The total -/

section
variable {dest : Path} {name : List Char} {size : ℤ} {tar header rest : Bytes} {s s' : State}

end

end Wavr.SafeTar
