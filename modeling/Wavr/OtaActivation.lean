import Wavr.Run
import Wavr.SafeTarBounds

/-!
# Updates of the companion

`BundleInstaller` and `WavrUpdatePlugin`: a bundle is fetched, verified, unpacked beside the others and
renamed into its place; from the next launch on the app is made of it, for good once its page has said
that it came up. The process may be killed at any point, and a launch is where that shows.
-/

namespace Wavr.OtaActivation
open Run SafeTar

/-- What the platform does: its letters and digits, its digest, its unzipping, and where the bundles are. -/
structure Platform where
  letterOrDigit : Char → Bool
  sha256 : Bytes → Bytes
  /-- Nothing where it raises. -/
  gunzip : Bytes → Option Bytes
  webDir : Path

def MAX_DOWNLOAD : ℕ := 64 * 1024 * 1024
def MAX_VERIFY_ATTEMPTS : ℕ := 2

structure Opts where
  sha256 : Bytes
  size : ℕ
  version : String
  deriving DecidableEq

inductive Phase
  | fetching
  | unpacking (tar : Bytes)
  | replacing
  | moving
  deriving DecidableEq

/-- An install that is under way. -/
structure Job where
  opts : Opts
  phase : Phase
  deriving DecidableEq

/-- A path is the name of a directory of `wavr-web`; none is the empty path, for the assets of the APK. -/
structure Device where
  web : Dict String Tree
  job : Option Job
  serverPath : Option String
  activeVersion : Option String
  pendingVerify : Bool
  verifyAttempts : ℕ
  rollbackPath : Option String
  rollbackVersion : Option String
  /-- What the running page was loaded from. -/
  live : Option Tree
  /-- Something was applied since the page was loaded. -/
  applied : Bool
  deriving DecidableEq

def Device.fresh : Device where
  web := .empty
  job := none
  serverPath := none
  activeVersion := none
  pendingVerify := false
  verifyAttempts := 0
  rollbackPath := none
  rollbackVersion := none
  live := none
  applied := false

def staging (version : String) : String := ".staging-" ++ version

variable (pf : Platform)

def isSafeVersion (v : String) : Bool :=
  v ≠ "" && v.length ≤ 64 && v.toList.all fun c => pf.letterOrDigit c || c = '.' || c = '_' || c = '-'

/-- `deleteRecursively` of a directory of `wavr-web`: two of the names are that of all, and of more. -/
def deleteRecursively (name : String) (web : Dict String Tree) : Dict String Tree :=
  if name = "." ∨ name = ".." then .empty else web.erase name

/-- What is loaded of a path: the assets of the APK where the directory is not there. -/
def content (d : Device) (path : Option String) : Option Tree := path.bind d.web.get?

/-! ## The installer -/

def abort (job : Job) (d : Device) : Device :=
  { d with web := deleteRecursively (staging job.opts.version) d.web, job := none }

def begin (o : Opts) (d : Device) : Device :=
  if d.job = none ∧ isSafeVersion pf o.version = true ∧ 0 < o.size ∧ o.size ≤ MAX_DOWNLOAD then
    { d with web := deleteRecursively (staging o.version) d.web, job := some ⟨o, .fetching⟩ }
  else d

def Device.at (phase : Phase) (job : Job) (d : Device) : Device := { d with job := some { job with phase } }

def stagingPath (o : Opts) : Path := pf.webDir ++ [(staging o.version).toList]

/-- The installer goes on; `body` is what was fetched where that is what is waited for. -/
def proceed (body : Bytes) (job : Job) (d : Device) : Device :=
  match job.phase with
  | .fetching =>
    if body.length = job.opts.size ∧ pf.sha256 body = job.opts.sha256 then
      match pf.gunzip body with
      | some tar => d.at (.unpacking tar) job
      | none => abort job d
    else abort job d
  | .unpacking tar =>
    match extract (stagingPath pf job.opts) tar with
    | (.ok (), tree) => { d.at .replacing job with web := d.web.set (staging job.opts.version) tree }
    | (.error _, _) => abort job d
  | .replacing => { d.at .moving job with web := deleteRecursively job.opts.version d.web }
  | .moving =>
    match d.web.get? (staging job.opts.version) with
    | some tree => { d with web := (d.web.erase (staging job.opts.version)).set job.opts.version tree, job := none }
    | none => abort job d

/-- The first `n` entries have been unpacked. -/
def unpackSome (n : ℕ) (job : Job) (d : Device) : Device :=
  match job.phase with
  | .unpacking tar =>
    let s := (extractLoop (canonical (stagingPath pf job.opts)) n tar ⟨.empty, 0, false⟩).2
    { d with web := d.web.set (staging job.opts.version) s.tree }
  | _ => d

/-! ## The plugin -/

def apply (version : String) (d : Device) : Device :=
  if isSafeVersion pf version = true ∧ (d.web.get? version).any (·.isFile ["index.html".toList]) = true then
    { d with
      rollbackPath := d.serverPath
      rollbackVersion := some (d.activeVersion.getD "")
      serverPath := some version
      activeVersion := some version
      pendingVerify := true
      verifyAttempts := 0
      applied := true }
  else d

def markLaunchOk (d : Device) : Device :=
  { d with pendingVerify := false, verifyAttempts := 0, rollbackPath := none, rollbackVersion := none }

def reset (d : Device) : Device :=
  { d with
    web := .empty
    serverPath := none
    activeVersion := none
    pendingVerify := false
    verifyAttempts := 0
    rollbackPath := none
    rollbackVersion := none }

def revertToRollback (d : Device) : Device :=
  { d with
    serverPath := d.rollbackPath
    activeVersion := some (d.rollbackVersion.getD "")
    pendingVerify := false
    verifyAttempts := 0
    rollbackPath := none
    rollbackVersion := none
    web := match d.activeVersion with
      | some bad => if isSafeVersion pf bad then deleteRecursively bad d.web else d.web
      | none => d.web }

def load (d : Device) : Device :=
  if d.pendingVerify then
    let d := { d with verifyAttempts := d.verifyAttempts + 1 }
    if MAX_VERIFY_ATTEMPTS ≤ d.verifyAttempts then revertToRollback pf d else d
  else d

/-- The process starts; a new binary forgets the path. -/
def launch (newBinary : Bool) (d : Device) : Device :=
  let d := load pf { d with serverPath := if newBinary then none else d.serverPath, job := none, applied := false }
  { d with live := content d d.serverPath }

inductive Event
  | launch (newBinary : Bool)
  | download (o : Opts)
  /-- The installer goes on, part of the way, or fails. -/
  | proceed (body : Bytes)
  | unpackSome (n : ℕ)
  | fail
  | apply (version : String)
  | markLaunchOk
  | reset

def step (d : Device) : Event → Device
  | .launch newBinary => launch pf newBinary d
  | .download o => begin pf o d
  | .proceed body => d.job.elim d fun job => proceed pf body job d
  | .unpackSome n => d.job.elim d fun job => unpackSome pf n job d
  | .fail => d.job.elim d fun job => abort job d
  | .apply version => apply pf version d
  | .markLaunchOk => markLaunchOk d
  | .reset => reset d

/-! ## Directories -/

section
variable {pf} {d : Device} {web web' : Dict String Tree} {name version : String} {t : Tree}

theorem fewer_deleteRecursively (name : String) (web : Dict String Tree) : web.Fewer (deleteRecursively name web) := by
  unfold deleteRecursively
  split
  · exact fun _ => .inr rfl
  · exact web.fewer_erase name

@[simp] theorem content_none (d : Device) : content d none = none := rfl

/-- Where directories are only deleted, what a path has was there. -/
theorem content_of_fewer {d' : Device} (h : d.web.Fewer d'.web) {path : Option String} (ht : content d' path = some t) :
    content d path = some t := by
  obtain ⟨name, hname, hget⟩ := Option.bind_eq_some_iff.mp ht
  exact Option.bind_eq_some_iff.mpr ⟨name, hname, h.of_get? hget⟩

theorem content_set_ne (d' : Device) (h : d.web.Fewer d'.web) {path : Option String} (hne : path ≠ some name)
    (ht : content { d' with web := d'.web.set name tree } path = some t) : content d path = some t := by
  obtain ⟨p, hp, hget⟩ := Option.bind_eq_some_iff.mp ht
  have hpn : p ≠ name := fun he => hne (he ▸ hp)
  dsimp only at hget
  rw [Dict.get?_set_ne _ hpn] at hget
  exact Option.bind_eq_some_iff.mpr ⟨p, hp, h.of_get? hget⟩

end

/-! ## What the page is made of -/

section
variable {pf} {trusted : Opts → Prop} {d : Device} {e : Event} {t : Tree}

/-- The complete contents of an archive with the size and the digest that were named. -/
def Matches (pf : Platform) (o : Opts) (t : Tree) : Prop :=
  ∃ body tar, body.length = o.size ∧ pf.sha256 body = o.sha256 ∧ pf.gunzip body = some tar ∧
    extract (stagingPath pf o) tar = (.ok (), t)

def IsStaging (name : String) : Prop := ∃ version, name = staging version

/-- No version has the name of another's staging directory. -/
def Named (trusted : Opts → Prop) : Event → Prop
  | .download o => trusted o ∧ ¬ IsStaging o.version
  | .apply version => ¬ IsStaging version
  | _ => True

def Verified (pf : Platform) (trusted : Opts → Prop) (t : Tree) : Prop := ∃ o, trusted o ∧ Matches pf o t

structure JobSound (pf : Platform) (trusted : Opts → Prop) (web : Dict String Tree) (job : Job) : Prop where
  trusted : trusted job.opts
  named : ¬ IsStaging job.opts.version
  unpacking : ∀ tar, job.phase = .unpacking tar → ∃ body : Bytes, body.length = job.opts.size ∧
    pf.sha256 body = job.opts.sha256 ∧ pf.gunzip body = some tar
  unpacked : job.phase = .replacing ∨ job.phase = .moving →
    ∀ t, web.get? (staging job.opts.version) = some t → Matches pf job.opts t

structure Sound (pf : Platform) (trusted : Opts → Prop) (d : Device) : Prop where
  web : ∀ name t, d.web.get? name = some t → IsStaging name ∨ Verified pf trusted t
  job : ∀ job ∈ d.job, JobSound pf trusted d.web job
  serverPath : ∀ name ∈ d.serverPath, ¬ IsStaging name
  rollbackPath : ∀ name ∈ d.rollbackPath, ¬ IsStaging name
  live : ∀ t ∈ d.live, Verified pf trusted t

theorem JobSound.fewer {web web' : Dict String Tree} {job : Job} (h : JobSound pf trusted web job)
    (hweb : web.Fewer web') : JobSound pf trusted web' job :=
  ⟨h.trusted, h.named, h.unpacking, fun hp t ht => h.unpacked hp t (hweb.of_get? ht)⟩

theorem Sound.abort (h : Sound pf trusted d) (job : Job) : Sound pf trusted (OtaActivation.abort job d) :=
  ⟨fun name t ht => h.web name t ((fewer_deleteRecursively _ _).of_get? ht), fun _ hj => (by cases hj), h.serverPath,
    h.rollbackPath, h.live⟩

theorem Sound.proceed (h : Sound pf trusted d) (body : Bytes) {job : Job} (hjob : job ∈ d.job) :
    Sound pf trusted (OtaActivation.proceed pf body job d) := by
  have hj := h.job job hjob
  unfold OtaActivation.proceed
  cases hphase : job.phase with
  | fetching =>
    dsimp only
    split
    · rename_i hmatch
      split
      · rename_i tar htar
        refine ⟨h.web, fun job' hj' => ?_, h.serverPath, h.rollbackPath, h.live⟩
        cases hj'
        exact ⟨hj.trusted, hj.named, fun tar' heq => ⟨body, hmatch.1, hmatch.2, by cases heq; exact htar⟩,
          fun hp => by rcases hp with hp | hp <;> cases hp⟩
      · exact h.abort job
    · exact h.abort job
  | unpacking tar =>
    dsimp only
    obtain ⟨body', hlen, hdigest, htar⟩ := hj.unpacking tar hphase
    split
    · rename_i tree htree
      refine ⟨fun name t ht => ?_, fun job' hj' => ?_, h.serverPath, h.rollbackPath, h.live⟩
      · by_cases hname : name = staging job.opts.version
        · exact .inl ⟨_, hname⟩
        · exact h.web name t (by simpa [Device.at, hname] using ht)
      · cases hj'
        refine ⟨hj.trusted, hj.named, fun _ heq => (by cases heq), fun _ t ht => ?_⟩
        dsimp only at ht
        rw [Dict.get?_set_self] at ht
        cases ht
        exact ⟨body', tar, hlen, hdigest, htar, htree⟩
    · exact h.abort job
  | replacing =>
    have hfewer := fewer_deleteRecursively job.opts.version d.web
    refine ⟨fun name t ht => h.web name t (hfewer.of_get? ht), fun job' hj' => ?_, h.serverPath, h.rollbackPath, h.live⟩
    cases hj'
    exact ⟨hj.trusted, hj.named, fun _ heq => (by cases heq),
      fun _ t ht => hj.unpacked (.inl hphase) t (hfewer.of_get? ht)⟩
  | moving =>
    dsimp only
    split
    · rename_i tree htree
      refine ⟨fun name t ht => ?_, fun _ hj' => (by cases hj'), h.serverPath, h.rollbackPath, h.live⟩
      dsimp only at ht
      rw [Dict.get?_set] at ht
      split at ht
      · cases ht
        exact .inr ⟨job.opts, hj.trusted, hj.unpacked (.inr hphase) _ htree⟩
      · exact h.web name t ((d.web.fewer_erase _).of_get? ht)
    · exact h.abort job

theorem Sound.unpackSome (h : Sound pf trusted d) (n : ℕ) {job : Job} (hjob : job ∈ d.job) :
    Sound pf trusted (OtaActivation.unpackSome pf n job d) := by
  have hj := h.job job hjob
  unfold OtaActivation.unpackSome
  split
  · rename_i tar hphase
    refine ⟨fun name t ht => ?_, fun job' hj' => ?_, h.serverPath, h.rollbackPath, h.live⟩
    · by_cases hname : name = staging job.opts.version
      · exact .inl ⟨_, hname⟩
      · exact h.web name t (by simpa [hname] using ht)
    · rw [Option.mem_unique hj' hjob]
      exact ⟨hj.trusted, hj.named, hj.unpacking, fun hp => by rw [hphase] at hp; rcases hp with hp | hp <;> cases hp⟩
  · exact h

variable (pf) in
theorem fewer_load (d : Device) : d.web.Fewer (load pf d).web := by
  unfold load
  split
  · dsimp only
    split
    · unfold revertToRollback
      dsimp only
      split
      · split
        · exact fewer_deleteRecursively _ _
        · exact .refl _
      · exact .refl _
    · exact .refl _
  · exact .refl _

theorem Sound.load (h : Sound pf trusted d) (hjob : d.job = none) : Sound pf trusted (OtaActivation.load pf d) := by
  have hfewer := fewer_load pf d
  refine ⟨fun name t ht => h.web name t (hfewer.of_get? ht), ?_, ?_, ?_, ?_⟩
  · have hnone : (OtaActivation.load pf d).job = none := by
      unfold OtaActivation.load
      split
      · dsimp only
        split <;> exact hjob
      · exact hjob
    rw [hnone]
    exact fun _ hj => by cases hj
  · unfold OtaActivation.load
    split
    · dsimp only
      split
      · exact h.rollbackPath
      · exact h.serverPath
    · exact h.serverPath
  · unfold OtaActivation.load
    split
    · dsimp only
      split
      · exact fun _ hn => by cases hn
      · exact h.rollbackPath
    · exact h.rollbackPath
  · unfold OtaActivation.load
    split
    · dsimp only
      split <;> exact h.live
    · exact h.live

theorem Sound.launch (h : Sound pf trusted d) (newBinary : Bool) :
    Sound pf trusted (OtaActivation.launch pf newBinary d) := by
  have hstart : Sound pf trusted
      { d with serverPath := if newBinary then none else d.serverPath, job := none, applied := false } := by
    refine ⟨h.web, fun _ hj => (by cases hj), ?_, h.rollbackPath, h.live⟩
    dsimp only
    split
    · exact fun _ hn => by cases hn
    · exact h.serverPath
  have hload := hstart.load rfl
  refine ⟨hload.web, hload.job, hload.serverPath, hload.rollbackPath, fun t ht => ?_⟩
  obtain ⟨name, hname, hget⟩ := Option.bind_eq_some_iff.mp ht
  exact (hload.web name t hget).resolve_left (hload.serverPath name hname)

theorem Sound.step (h : Sound pf trusted d) (he : Named trusted e) : Sound pf trusted (OtaActivation.step pf d e) := by
  have hrun : ∀ f : Job → Device, (∀ job ∈ d.job, Sound pf trusted (f job)) → Sound pf trusted (d.job.elim d f) := by
    intro f hf
    cases hjob : d.job with
    | none => exact h
    | some job => exact hf job hjob
  cases e with
  | launch newBinary => exact h.launch newBinary
  | download o =>
    simp only [OtaActivation.step, begin]
    split
    · have hfewer := fewer_deleteRecursively (staging o.version) d.web
      refine ⟨fun name t ht => h.web name t (hfewer.of_get? ht), fun job hj => ?_, h.serverPath, h.rollbackPath, h.live⟩
      cases hj
      exact ⟨he.1, he.2, fun _ heq => (by cases heq), fun hp => by rcases hp with hp | hp <;> cases hp⟩
    · exact h
  | proceed body => exact hrun _ fun job hj => h.proceed body hj
  | unpackSome n => exact hrun _ fun job hj => h.unpackSome n hj
  | fail => exact hrun _ fun job _ => h.abort job
  | apply version =>
    simp only [OtaActivation.step, OtaActivation.apply]
    split
    · refine ⟨h.web, h.job, fun name hn => ?_, h.serverPath, h.live⟩
      cases hn
      exact he
    · exact h
  | markLaunchOk => exact ⟨h.web, h.job, h.serverPath, fun _ hn => (by cases hn), h.live⟩
  | reset =>
    exact ⟨fun _ _ ht => (by cases ht), fun job hj => (h.job job hj).fewer fun _ => .inr rfl, fun _ hn => (by cases hn),
      fun _ hn => (by cases hn), h.live⟩

/-- An archive of one empty file. -/
def sampleArchive : Bytes := "index.html".toList.map (fun c => UInt8.ofNat c.toNat) ++ List.replicate 114 0 ++
  [48] ++ List.replicate 387 0

def samplePlatform : Platform := ⟨Char.isAlphanum, id, some, [['w', 'e', 'b']]⟩

def sampleOpts (version : String) : Opts := ⟨sampleArchive, 512, version⟩

def installed (version : String) : List Event :=
  [.download (sampleOpts version), .proceed sampleArchive, .unpackSome 1, .proceed [], .proceed [], .proceed []]

end

/-! ## A page that does not come up -/

section
variable {pf} {renders : Tree → Bool} {d : Device} {e : Event} {t : Tree} {path : Option String}

/-- The page that is running came up; that of the APK always does. -/
def Shows (renders : Tree → Bool) (d : Device) : Prop := ∀ t ∈ d.live, renders t = true

/-- What a path leads to comes up. -/
def Good (renders : Tree → Bool) (d : Device) (path : Option String) : Prop := ∀ t ∈ content d path, renders t = true

/-- The directory that the installer is about to fill. -/
def Job.target (job : Job) : Option String :=
  match job.phase with
  | .unpacking _ => some (staging job.opts.version)
  | .moving => some job.opts.version
  | _ => none

/-- Only a page that came up asks for anything; it says so before it applies a bundle, applies one only,
and none is installed over one that is in use. -/
def Careful (renders : Tree → Bool) (d : Device) : Event → Prop
  | .launch _ => True
  | .download _ => Shows renders d
  | .proceed _ => ∀ job ∈ d.job, ∀ name ∈ job.target, d.serverPath ≠ some name ∧ d.rollbackPath ≠ some name
  | .unpackSome _ => ∀ job ∈ d.job, ∀ name ∈ job.target, d.serverPath ≠ some name ∧ d.rollbackPath ≠ some name
  | .fail => True
  | .apply _ => Shows renders d ∧ d.pendingVerify = false
  | .markLaunchOk => Shows renders d ∧ d.applied = false
  | .reset => Shows renders d

structure Healing (renders : Tree → Bool) (d : Device) : Prop where
  settled : d.pendingVerify = false → Good renders d d.serverPath ∧ Shows renders d
  tested : d.pendingVerify = true →
    Good renders d d.rollbackPath ∧ d.verifyAttempts ≤ 1 ∧ (d.verifyAttempts = 0 → Shows renders d)
  loaded : d.applied = false → ∀ t ∈ content d d.serverPath, d.live = some t ∨ renders t = true

theorem Good.of_content {d' : Device} (h : Good renders d path)
    (hcontent : ∀ t, content d' path = some t → content d path = some t) : Good renders d' path :=
  fun t ht => h t (hcontent t ht)

/-- The installer, as long as it leaves what is in use. -/
theorem Healing.web (h : Healing renders d) {web : Dict String Tree} {job : Option Job}
    (hserver : ∀ t, content { d with web, job } d.serverPath = some t → content d d.serverPath = some t)
    (hrollback : ∀ t, content { d with web, job } d.rollbackPath = some t → content d d.rollbackPath = some t) :
    Healing renders { d with web, job } :=
  ⟨fun hp => ⟨(h.settled hp).1.of_content hserver, (h.settled hp).2⟩,
    fun hp => ⟨(h.tested hp).1.of_content hrollback, (h.tested hp).2⟩,
    fun ha t ht => h.loaded ha t (hserver t ht)⟩

theorem Healing.fewer (h : Healing renders d) {web : Dict String Tree} {job : Option Job} (hweb : d.web.Fewer web) :
    Healing renders { d with web, job } :=
  h.web (fun _ ht => content_of_fewer hweb ht) fun _ ht => content_of_fewer hweb ht

theorem Healing.set (h : Healing renders d) {web : Dict String Tree} {job : Option Job} {name : String}
    (hweb : d.web.Fewer web) (hserver : d.serverPath ≠ some name) (hrollback : d.rollbackPath ≠ some name) (t : Tree) :
    Healing renders { d with web := web.set name t, job } :=
  h.web (fun _ ht => content_set_ne { d with web, job } hweb hserver ht)
    fun _ ht => content_set_ne { d with web, job } hweb hrollback ht

theorem Healing.proceed (h : Healing renders d) (body : Bytes) (job : Job)
    (hfree : ∀ name ∈ job.target, d.serverPath ≠ some name ∧ d.rollbackPath ≠ some name) :
    Healing renders (OtaActivation.proceed pf body job d) := by
  have habort : Healing renders (abort job d) := h.fewer (fewer_deleteRecursively _ _)
  unfold OtaActivation.proceed
  cases hphase : job.phase with
  | fetching =>
    dsimp only
    split
    · split
      · exact h.fewer (.refl _)
      · exact habort
    · exact habort
  | unpacking tar =>
    dsimp only
    split
    · obtain ⟨hserver, hrollback⟩ := hfree (staging job.opts.version) (by rw [Job.target, hphase]; rfl)
      exact h.set (.refl _) hserver hrollback _
    · exact habort
  | replacing => exact h.fewer (fewer_deleteRecursively _ _)
  | moving =>
    dsimp only
    split
    · obtain ⟨hserver, hrollback⟩ := hfree job.opts.version (by rw [Job.target, hphase]; rfl)
      exact h.set (d.web.fewer_erase _) hserver hrollback _
    · exact habort

theorem Healing.unpackSome (h : Healing renders d) (n : ℕ) (job : Job)
    (hfree : ∀ name ∈ job.target, d.serverPath ≠ some name ∧ d.rollbackPath ≠ some name) :
    Healing renders (OtaActivation.unpackSome pf n job d) := by
  unfold OtaActivation.unpackSome
  split
  · rename_i tar hphase
    obtain ⟨hserver, hrollback⟩ := hfree (staging job.opts.version) (by rw [Job.target, hphase]; rfl)
    exact h.set (.refl _) hserver hrollback _
  · exact h

/-- What a launch does to the three states that an update can be in. -/
theorem launch_cases (pf : Platform) (newBinary : Bool) (d : Device) :
    let d' := launch pf newBinary d
    d'.live = content d' d'.serverPath ∧ d'.applied = false ∧ d.web.Fewer d'.web ∧
      (d.pendingVerify = false ∧ d'.pendingVerify = false ∧
          d'.serverPath = (if newBinary then none else d.serverPath) ∨
        d.pendingVerify = true ∧ d.verifyAttempts + 1 < 2 ∧ d'.pendingVerify = true ∧
          d'.verifyAttempts = d.verifyAttempts + 1 ∧ d'.rollbackPath = d.rollbackPath ∨
        d.pendingVerify = true ∧ 2 ≤ d.verifyAttempts + 1 ∧ d'.pendingVerify = false ∧
          d'.serverPath = d.rollbackPath) := by
  intro d'
  have hfewer := fewer_load pf { d with
    serverPath := if newBinary then none else d.serverPath, job := none, applied := false }
  cases hp : d.pendingVerify with
  | false =>
    have hload : d' = { d with
        serverPath := if newBinary then none else d.serverPath
        job := none
        applied := false
        live := content d (if newBinary then none else d.serverPath) } := by
      simp [d', launch, load, hp, content]
    refine ⟨?_, ?_, hfewer, .inl ⟨rfl, ?_, ?_⟩⟩ <;> rw [hload]
    · rfl
    · exact hp
  | true =>
    by_cases hattempts : d.verifyAttempts + 1 < 2
    · have hload : d' = { d with
          serverPath := if newBinary then none else d.serverPath
          job := none
          applied := false
          verifyAttempts := d.verifyAttempts + 1
          live := content d (if newBinary then none else d.serverPath) } := by
        have hnot : ¬ MAX_VERIFY_ATTEMPTS ≤ d.verifyAttempts + 1 := not_le.mpr hattempts
        simp [d', launch, load, hp, hnot, content]
      refine ⟨?_, ?_, hfewer, .inr (.inl ⟨rfl, hattempts, ?_, ?_, ?_⟩)⟩ <;> rw [hload]
      · rfl
      · exact hp
    · have hle : MAX_VERIFY_ATTEMPTS ≤ d.verifyAttempts + 1 := not_lt.mp hattempts
      refine ⟨rfl, ?_, hfewer, .inr (.inr ⟨rfl, hle, ?_, ?_⟩)⟩
      · simp [d', launch, load, hp, hle, revertToRollback]
      · simp [d', launch, load, hp, hle, revertToRollback]
      · simp [d', launch, load, hp, hle, revertToRollback]

theorem Healing.launch (h : Healing renders d) (newBinary : Bool) :
    Healing renders (OtaActivation.launch pf newBinary d) := by
  obtain ⟨hlive, happlied, hfewer, hcases⟩ := launch_cases pf newBinary d
  have hgood : ∀ p, Good renders d p → Good renders (OtaActivation.launch pf newBinary d) p :=
    fun p hp => hp.of_content fun _ ht => content_of_fewer hfewer ht
  have hloaded : ∀ t ∈ content (OtaActivation.launch pf newBinary d) (OtaActivation.launch pf newBinary d).serverPath,
      (OtaActivation.launch pf newBinary d).live = some t ∨ renders t = true :=
    fun t ht => .inl (hlive.trans ht)
  have hshows : Good renders (OtaActivation.launch pf newBinary d) (OtaActivation.launch pf newBinary d).serverPath →
      Shows renders (OtaActivation.launch pf newBinary d) := fun hg t ht => hg t (hlive ▸ ht)
  rcases hcases with ⟨hp, hp', hpath⟩ | ⟨hp, hlt, hp', hattempts, hrollback⟩ | ⟨hp, -, hp', hpath⟩
  · have hg : Good renders (OtaActivation.launch pf newBinary d)
        (OtaActivation.launch pf newBinary d).serverPath := by
      rw [hpath]
      split
      · exact fun _ ht => by cases ht
      · exact hgood _ (h.settled hp).1
    exact ⟨fun _ => ⟨hg, hshows hg⟩, fun hpend => (by rw [hp'] at hpend; cases hpend), fun _ => hloaded⟩
  · refine ⟨fun hpend => (by rw [hp'] at hpend; cases hpend), fun _ => ⟨?_, by omega, fun h0 => by omega⟩,
      fun _ => hloaded⟩
    rw [hrollback]
    exact hgood _ (h.tested hp).1
  · have hg : Good renders (OtaActivation.launch pf newBinary d)
        (OtaActivation.launch pf newBinary d).serverPath := by
      rw [hpath]
      exact hgood _ (h.tested hp).1
    exact ⟨fun _ => ⟨hg, hshows hg⟩, fun hpend => (by rw [hp'] at hpend; cases hpend), fun _ => hloaded⟩

theorem Healing.step (h : Healing renders d) (he : Careful renders d e) :
    Healing renders (OtaActivation.step pf d e) := by
  have hrun : ∀ f : Job → Device, (∀ job ∈ d.job, Healing renders (f job)) → Healing renders (d.job.elim d f) := by
    intro f hf
    cases hjob : d.job with
    | none => exact h
    | some job => exact hf job hjob
  cases e with
  | launch newBinary => exact h.launch newBinary
  | download o =>
    simp only [OtaActivation.step, begin]
    split
    · exact h.fewer (fewer_deleteRecursively _ _)
    · exact h
  | proceed body => exact hrun _ fun job hj => h.proceed body job (he job hj)
  | unpackSome n => exact hrun _ fun job hj => h.unpackSome n job (he job hj)
  | fail => exact hrun _ fun job _ => h.fewer (fewer_deleteRecursively _ _)
  | apply version =>
    simp only [OtaActivation.step, OtaActivation.apply]
    split
    · refine ⟨fun hp => (by cases hp), fun _ => ⟨?_, Nat.zero_le 1, fun _ => he.1⟩, fun ha => (by cases ha)⟩
      exact (h.settled he.2).1
    · exact h
  | markLaunchOk =>
    refine ⟨fun _ => ⟨fun t ht => ?_, he.1⟩, fun hp => (by cases hp), fun ha => h.loaded ha⟩
    -- what the path leads to is what is running, and that came up
    rcases h.loaded he.2 t ht with hlive | hgood
    · exact he.1 t hlive
    · exact hgood
  | reset => exact ⟨fun _ => ⟨fun _ ht => (by cases ht), he⟩, fun hp => (by cases hp), fun _ _ ht => (by cases ht)⟩

variable (pf) in
/-- A launch that has nothing to verify changes nothing. -/
theorem launch_settled (hp : d.pendingVerify = false) :
    (launch pf false d).web = d.web ∧ (launch pf false d).serverPath = d.serverPath ∧
      (launch pf false d).pendingVerify = false ∧ (launch pf false d).live = content d d.serverPath := by
  unfold launch load
  simp [hp, content]

/-- Where a second bundle is applied before the app has been launched with the first, and does not come
up, what the app goes back to is the first, which nobody has ever seen: from the second launch on, and for
good, for nothing watches over it any more. -/
theorem unseen_forever (pf : Platform) (d : Device) {v w : String} {t u : Tree} (hv : isSafeVersion pf v = true)
    (hw : isSafeVersion pf w = true) (hne : v ≠ w) (hdots : w ≠ "." ∧ w ≠ "..") (ht : d.web.get? v = some t)
    (hu : d.web.get? w = some u) (hindex : t.isFile ["index.html".toList] = true)
    (hindex' : u.isFile ["index.html".toList] = true) (n : ℕ) :
    let d' := finish (OtaActivation.step pf) d ([.apply v, .apply w] ++ List.replicate (n + 2) (.launch false))
    d'.live = some t ∧ d'.pendingVerify = false := by
  intro d'
  -- two launches after the two bundles it has gone back to the first
  let after := fun n => finish (OtaActivation.step pf) d ([.apply v, .apply w] ++ List.replicate (n + 2) (.launch false))
  have hback : ∀ n, (after n).live = some t ∧ (after n).pendingVerify = false ∧
      content (after n) (after n).serverPath = some t := by
    intro n
    show (finish (OtaActivation.step pf) d _).live = _ ∧ (finish (OtaActivation.step pf) d _).pendingVerify = _ ∧
      content (finish (OtaActivation.step pf) d _) (finish (OtaActivation.step pf) d _).serverPath = _
    induction n with
    | zero =>
      have hfirst : apply pf v d = { d with
          rollbackPath := d.serverPath
          rollbackVersion := some (d.activeVersion.getD "")
          serverPath := some v
          activeVersion := some v
          pendingVerify := true
          verifyAttempts := 0
          applied := true } := by
        unfold apply
        rw [if_pos ⟨hv, by rw [ht]; exact hindex⟩]
      have hsecond : apply pf w (apply pf v d) = { d with
          rollbackPath := some v
          rollbackVersion := some v
          serverPath := some w
          activeVersion := some w
          pendingVerify := true
          verifyAttempts := 0
          applied := true } := by
        rw [hfirst]
        unfold apply
        rw [if_pos ⟨hw, by dsimp only; rw [hu]; exact hindex'⟩]
        rfl
      have hkept : (deleteRecursively w d.web).get? v = some t := by
        unfold deleteRecursively
        rw [if_neg (by rintro (h | h); exacts [hdots.1 h, hdots.2 h]), Dict.get?_erase, if_neg hne, ht]
      simp only [List.cons_append, List.nil_append, List.replicate, finish_cons, finish_nil,
        OtaActivation.step]
      rw [hsecond]
      simp [launch, load, MAX_VERIFY_ATTEMPTS, revertToRollback, hw, content, hkept]
    | succ n ih =>
      obtain ⟨hlive, hpending, hcontent⟩ := ih
      rw [show n + 1 + 2 = (n + 2) + 1 from rfl, List.replicate_succ', ← List.append_assoc, finish_append]
      obtain ⟨hweb, hpath, hpending', hlive'⟩ := launch_settled pf hpending
      refine ⟨hlive'.trans hcontent, hpending', ?_⟩
      show content _ (launch pf false _).serverPath = _
      rw [hpath]
      show Option.bind _ (launch pf false _).web.get? = _
      rw [hweb]
      exact hcontent
  exact ⟨(hback n).1, (hback n).2.1⟩

theorem unseen_forever_sample :
    let d := finish (OtaActivation.step samplePlatform) .fresh (installed "1.2" ++ installed "1.3")
    let d' := finish (OtaActivation.step samplePlatform) d
      ([.apply "1.2", .apply "1.3"] ++ List.replicate (5 + 2) (.launch false))
    d'.live = some (extract (stagingPath samplePlatform (sampleOpts "1.2")) sampleArchive).2 ∧ d'.pendingVerify = false :=
  unseen_forever samplePlatform _ (u := (extract (stagingPath samplePlatform (sampleOpts "1.3")) sampleArchive).2)
    (by decide) (by decide) (by decide) (by decide) (by decide +kernel) (by decide +kernel) (by decide +kernel)
    (by decide +kernel) 5

end

end Wavr.OtaActivation
