import Wavr.ClientView
import Wavr.PathTemplate

/-!
# Client commands

`request_for` of `client_commands.py`, and `command_request` of `client_commands.cpp`, which reads the
same table. The path of a request is the route of its command, whatever the arguments.
-/

namespace Wavr.ClientCommands

open NativeJson PathTemplate
open Json (get)
open ClientView (isStr isInt isBool isTrue)

inductive ArgType
  | string
  | bool
  | int
  | strings
  | any
  deriving DecidableEq

inductive Place
  | path
  | body
  deriving DecidableEq

structure Arg where
  type : ArgType
  required : Bool
  place : Place
  deriving DecidableEq

structure Command where
  method : String
  path : String
  auth : String
  args : List (String × Arg)

/-- The call is malformed. -/
inductive CommandError
  | unknownCommand
  | notObject
  | unknownArgument
  | missingArgument
  | wrongType
  | badPathSegment

def CommandError.code : CommandError → String
  | .unknownCommand => "unknown_command"
  | .notObject => "not_object"
  | .unknownArgument => "unknown_argument"
  | .missingArgument => "missing_argument"
  | .wrongType => "wrong_type"
  | .badPathSegment => "bad_path_segment"

/-- What a call comes to where it makes no request. -/
inductive Fault (E : Type)
  | refused (e : E)
  /-- Any other exception. -/
  | raised

structure Request (J : Type) where
  method : String
  path : String
  body : J
  auth : String

/-! ## The table -/

def arg (type : ArgType) : Arg := ⟨type, true, .body⟩

def optional (type : ArgType) : Arg := ⟨type, false, .body⟩

def pathArg : Arg := ⟨.string, true, .path⟩

def cmd (method path : String) (args : List (String × Arg)) : Command := ⟨method, path, "token", args⟩

/-- A route that a device reaches before it has a token. -/
def onboarding (method path : String) (args : List (String × Arg)) : Command := ⟨method, path, "none", args⟩

def COMMANDS : List (String × Command) :=
  [("pair.request", onboarding "POST" "/api/pair-request"
      [("requester_name", arg .string), ("platform", optional .string), ("reported_fp", optional .string),
        ("device_key", optional .string)]),
    ("pair.status", onboarding "POST" "/api/pair-request/status" [("request_id", arg .string)]),
    ("pair.redeem", onboarding "POST" "/api/pair"
      [("code", arg .string), ("device_name", arg .string), ("device_key", optional .string)]),
    ("pairings.list", cmd "GET" "/api/pending-pairings" []),
    ("pairings.approve", cmd "POST" "/api/pending-pairings/\x7bid\x7d/approve"
      [("id", pathArg), ("role", optional .string), ("confirm_code", arg .string)]),
    ("pairings.deny", cmd "POST" "/api/pending-pairings/\x7bid\x7d/deny" [("id", pathArg)]),
    ("pair.code", cmd "POST" "/api/pair-code" [("role", optional .string), ("person_id", optional .string)]),
    ("devices.list", cmd "GET" "/api/devices" []),
    ("device.revoke", cmd "DELETE" "/api/devices/\x7bid\x7d" [("id", pathArg)]),
    ("device.role", cmd "POST" "/api/devices/\x7bid\x7d/role" [("id", pathArg), ("role", arg .string)]),
    ("watch.get", cmd "GET" "/api/watch" []),
    ("watch.set", cmd "POST" "/api/watch" [("on", arg .bool)]),
    ("sensing.set", cmd "POST" "/api/system/toggle" [("on", arg .bool)]),
    ("sources.list", cmd "GET" "/api/system" []),
    ("source.set", cmd "POST" "/api/sources/\x7bname\x7d/toggle" [("name", pathArg), ("enabled", arg .bool)]),
    ("source.restart", cmd "POST" "/api/sources/\x7bname\x7d/restart" [("name", pathArg)]),
    ("nodes.list", cmd "GET" "/api/nodes" []),
    ("nodes.pending", cmd "GET" "/api/nodes/pending" []),
    ("node.approve", cmd "POST" "/api/nodes/\x7bid\x7d/approve"
      [("id", pathArg), ("name", arg .string), ("sensor_type", arg .string), ("room", arg .string),
        ("transport", optional .string)]),
    ("node.deny", cmd "POST" "/api/nodes/\x7bid\x7d/deny" [("id", pathArg)]),
    ("node.disable", cmd "POST" "/api/nodes/\x7bid\x7d/disable" [("id", pathArg)]),
    ("node.revoke", cmd "DELETE" "/api/nodes/\x7bid\x7d" [("id", pathArg)]),
    ("node.enroll_code", cmd "POST" "/api/nodes/enroll-code"
      [("name", arg .string), ("sensor_type", arg .string), ("room", arg .string),
        ("transport", optional .string)]),
    ("space.get", cmd "GET" "/api/space" []),
    ("space.rename", cmd "PUT" "/api/space" [("name", arg .string), ("kind", optional .string)]),
    ("settings.list", cmd "GET" "/api/settings" []),
    ("setting.set", cmd "PUT" "/api/settings/\x7bkey\x7d"
      [("key", pathArg), ("value", arg .any), ("consent", optional .string)]),
    ("setting.reset", cmd "DELETE" "/api/settings/\x7bkey\x7d" [("key", pathArg)]),
    ("setup.status", cmd "GET" "/api/setup/status" []),
    ("setup.create_space", cmd "POST" "/api/setup/create-space"
      [("name", arg .string), ("kind", optional .string), ("owner_name", optional .string),
        ("functions", optional .strings), ("room", optional .string)]),
    ("discoveries.list", cmd "GET" "/api/discoveries" []),
    ("discovery.accept", cmd "POST" "/api/discoveries/\x7bid\x7d/accept" [("id", pathArg)]),
    ("discovery.dismiss", cmd "POST" "/api/discoveries/\x7bid\x7d/dismiss" [("id", pathArg)]),
    ("scene.get", cmd "GET" "/api/scene" []),
    ("doctor.run", cmd "GET" "/api/health/doctor" [])]

/-! ## In Python -/

section
variable {F : Type}

def typeOk : ArgType → Json F → Bool
  | .string, v => isStr v
  | .bool, v => isBool v
  | .int, v => isInt v
  | .strings, .arr items => items.all isStr
  | .strings, _ => false
  | .any, _ => true

def segment (v : String) : List Char := UrlSplit.quote v.toList

/-- The characters of `_PATH_ARG` between the braces. -/
def isArgChar (c : Char) : Bool := ('a' ≤ c ∧ c ≤ 'z') ∨ c = '_'

/-- Behind an opening brace: the name that `_PATH_ARG` matches there, and what follows its brace. -/
def matchArg (rest : List Char) : Option (String × List Char) :=
  match rest.dropWhile isArgChar with
  | '}' :: after =>
    if rest.takeWhile isArgChar = [] then none else some (String.ofList (rest.takeWhile isArgChar), after)
  | _ => none

theorem length_matchArg {rest after : List Char} {k : String} (h : matchArg rest = some (k, after)) :
    after.length < rest.length := by
  unfold matchArg at h
  split at h
  · rename_i hdrop
    have hlen := congrArg List.length hdrop
    have hle := (List.dropWhile_suffix isArgChar (l := rest)).length_le
    split_ifs at h
    cases h
    rw [List.length_cons] at hlen
    omega
  · cases h

/-- `_PATH_ARG.sub`; `none` is the KeyError of a name without a value. -/
def sub (values : String → Option (List Char)) : List Char → Option (List Char)
  | [] => some []
  | c :: rest =>
    match _h : matchArg rest with
    | some (k, after) =>
      if c = '{' then (values k).bind fun v => (sub values after).map (v ++ ·)
      else (sub values rest).map (c :: ·)
    | none => (sub values rest).map (c :: ·)
termination_by cs => cs.length
decreasing_by
  · exact (length_matchArg _h).trans (Nat.lt_succ_self _)
  · exact Nat.lt_succ_self _
  · exact Nat.lt_succ_self _

/-- What the arguments have filled so far. -/
structure Parts (F : Type) where
  body : Dict String (Json F)
  pathValues : Dict String (List Char)

/-- An argument that is there. -/
def takeValue (s : Parts F) (e : String × Arg) (v : Json F) : Except (Fault CommandError) (Parts F) :=
  if ! typeOk e.2.type v then .error (.refused .wrongType)
  else
    match e.2.place, v with
    | .path, .str text =>
      if text = "" ∨ text = "." ∨ text = ".." then .error (.refused .badPathSegment)
      else .ok { s with pathValues := s.pathValues.set e.1 (segment text) }
    -- `quote` takes a text
    | .path, _ => .error .raised
    | .body, v => .ok { s with body := s.body.set e.1 v }

def takeArgument (args : List (String × Json F)) (s : Parts F) (e : String × Arg) :
    Except (Fault CommandError) (Parts F) :=
  match get args e.1 with
  | .null => if e.2.required then .error (.refused .missingArgument) else .ok s
  | v => takeValue s e v

/-- The request behind the loop. -/
def finish (spec : Command) (s : Parts F) : Except (Fault CommandError) (Request (Json F)) :=
  match sub s.pathValues.get? spec.path.toList with
  | none => .error .raised
  | some path =>
    .ok ⟨spec.method, String.ofList path, if spec.method = "GET" then .null else .obj s.body.entries, spec.auth⟩

def requestOf (spec : Command) (args : List (String × Json F)) : Except (Fault CommandError) (Request (Json F)) :=
  if args.any fun e => (spec.args.lookup e.1).isNone then .error (.refused .unknownArgument)
  else
    (spec.args.insertionSort fun a b => a.1 ≤ b.1).foldlM (takeArgument args) ⟨Dict.empty, Dict.empty⟩ >>=
      finish spec

def requestFor (name args : Json F) : Except (Fault CommandError) (Request (Json F)) :=
  match name with
  | .str n =>
    match COMMANDS.lookup n, args with
    | none, _ => .error (.refused .unknownCommand)
    | some spec, .obj fields => requestOf spec fields
    | some _, _ => .error (.refused .notObject)
  | _ => .error (.refused .unknownCommand)

/-! ## In C++ -/

namespace Native

def typeOk : ArgType → Value F → Bool
  | .string, v => v.isString
  | .bool, v => v.isBoolean
  | .int, v => v.isNumberInteger
  | .strings, .array items => items.all Value.isString
  | .strings, _ => false
  | .any, _ => true

/-- The RFC 3986 unreserved characters. -/
def keep (c : UInt8) : Bool :=
  ('A'.toUInt8 ≤ c && c ≤ 'Z'.toUInt8) || ('a'.toUInt8 ≤ c && c ≤ 'z'.toUInt8) ||
    ('0'.toUInt8 ≤ c && c ≤ '9'.toUInt8) || c == '-'.toUInt8 || c == '.'.toUInt8 || c == '_'.toUInt8 ||
    c == '~'.toUInt8

def hex : List Char := "0123456789ABCDEF".toList

/-- One byte of the text. -/
def escape (c : UInt8) : List Char :=
  if keep c then [Char.ofUInt8 c]
  else ['%', hex.getD (c >>> 4).toNat '0', hex.getD (c &&& 15).toNat '0']

def segment (v : String) : List Char := (v.toList.flatMap String.utf8EncodeChar).flatMap escape

/-- The loop over the template; `none` is the exception of a name without a value. -/
def expand (values : String → Option (List Char)) : List Char → Option (List Char)
  | [] => some []
  | c :: rest =>
    if c = '{' then
      -- the loop would start again where no brace closes
      if '}' ∈ rest then
        let key := String.ofList (Text.before '}' rest)
        (values key).bind fun v => (expand values (Text.after '}' rest)).map (v ++ ·)
      else none
    else (expand values rest).map (c :: ·)
termination_by cs => cs.length
decreasing_by
  all_goals simp only [List.length_cons]
  · have hle := (List.dropWhile_suffix (· ≠ '}') (l := rest)).length_le
    simp only [Text.after, List.length_drop]
    omega
  · omega

/-- `m[k] = v`. -/
def assign {ν : Type} (k : String) (v : ν) : List (String × ν) → List (String × ν)
  | [] => [(k, v)]
  | e :: es =>
    if Utf8.bytes k < Utf8.bytes e.1 then (k, v) :: e :: es
    else if k = e.1 then (k, v) :: es
    else e :: assign k v es

structure Parts (F : Type) where
  body : List (String × Value F)
  pathValues : List (String × List Char)

def takeValue (s : Parts F) (e : String × Arg) (v : Value F) : Except (Fault String) (Parts F) :=
  if ! typeOk e.2.type v then .error (.refused "wrong_type")
  else
    match e.2.place, v with
    | .path, .string text =>
      if text = "" ∨ text = "." ∨ text = ".." then .error (.refused "bad_path_segment")
      else .ok { s with pathValues := assign e.1 (segment text) s.pathValues }
    | .path, _ => .error .raised
    | .body, v => .ok { s with body := assign e.1 v s.body }

def takeArgument (args : Value F) (s : Parts F) (e : String × Arg) : Except (Fault String) (Parts F) :=
  match args.item e.1 with
  | .null => if e.2.required then .error (.refused "missing_argument") else .ok s
  | v => takeValue s e v

def finish (spec : Command) (s : Parts F) : Except (Fault String) (Request (Value F)) :=
  match expand (fun k => s.pathValues.lookup k) spec.path.toList with
  | none => .error .raised
  | some path =>
    .ok ⟨spec.method, String.ofList path, if spec.method = "GET" then .null else .object s.body, spec.auth⟩

def requestOf (spec : Command) (args : Value F) (entries : List (String × Value F)) :
    Except (Fault String) (Request (Value F)) :=
  if entries.any fun a => ((ofPairs spec.args).lookup a.1).isNone then .error (.refused "unknown_argument")
  else (ofPairs spec.args).foldlM (takeArgument args) ⟨[], []⟩ >>= finish spec

def commandRequest (name args : Value F) : Except (Fault String) (Request (Value F)) :=
  match name with
  | .string n =>
    match (ofPairs COMMANDS).lookup n, args with
    | none, _ => .error (.refused "unknown_command")
    | some spec, .object entries => requestOf spec (.object entries) entries
    | some _, _ => .error (.refused "not_object")
  | _ => .error (.refused "unknown_command")

end Native

/-! ## One request from both -/

/-- Both refuse with one code, or both answer. -/
def Alike {α β : Type} (R : α → β → Prop) : Except (Fault String) α → Except (Fault CommandError) β → Prop
  | .error (.refused code), .error (.refused e) => code = e.code
  | .ok a, .ok b => R a b
  | _, _ => False

def SameRequest (r : Request (Value F)) (r' : Request (Json F)) : Prop :=
  r.method = r'.method ∧ r.path = r'.path ∧ r.auth = r'.auth ∧ Denotes r.body r'.body

def fieldsOf : Json F → List (String × Json F)
  | .obj fields => fields
  | _ => []

def entriesOf : Value F → List (String × Value F)
  | .object entries => entries
  | _ => []

/-- A segment of a path where its template has `seg`: the place of an argument holds that argument. -/
def Filled {J : Type} (find : String → Option J) (text : String → J) (seg s : List Char) : Prop :=
  match param seg with
  | some k => s ≠ [] ∧ s ≠ ['.'] ∧ s ≠ ['.', '.'] ∧ ∃ t, find k = some (text t) ∧ unquote s = some t
  | none => s = seg

/-- The request stays on the route of its command, with the arguments in their places. -/
structure OnRoute {J : Type} (spec : Command) (find : String → Option J) (text : String → J)
    (fields : J → List (String × J)) (r : Request J) : Prop where
  method : r.method = spec.method
  auth : r.auth = spec.auth
  segments : List.Forall₂ (Filled find text) (segments spec.path.toList) (segments r.path.toList)
  no_query : '?' ∉ r.path.toList
  no_fragment : '#' ∉ r.path.toList
  body : ∀ e ∈ fields r.body, find e.1 = some e.2 ∧ ∃ a, spec.args.lookup e.1 = some a ∧ a.place = .body

/-- A row that both read alike: its places are names of path arguments, and those are texts it needs. -/
def sound (c : Command) : Bool :=
  (c.args.map Prod.fst).Nodup ∧
    (segments c.path.toList).all (fun seg => wellFormed isArgChar seg ∧
      (param seg).all fun k => c.args.lookup k = some pathArg) ∧
    c.args.all fun e => e.2.place = .body ∨ e.2 = pathArg

theorem sound_commands : COMMANDS.all (fun e => sound e.2) = true := by
  decide +kernel

theorem nodup_commands : (COMMANDS.map Prod.fst).Nodup := by
  decide +kernel

/-! ## Segments -/

theorem escape_ascii : ∀ n ∈ List.range 128, Native.escape (UInt8.ofNat n) = UrlSplit.quote [Char.ofNat n] := by
  decide +kernel

theorem escape_high : ∀ n ∈ List.range 256, 128 ≤ n → Native.escape (UInt8.ofNat n) =
    ['%', UrlSplit.upperHex (n / 16), UrlSplit.upperHex (n % 16)] := by
  decide +kernel

theorem escape_char (c : Char) : (String.utf8EncodeChar c).flatMap Native.escape = UrlSplit.quote [c] := by
  have hbytes := Utf8.encode_eq c
  rw [Utf8.encode] at hbytes
  dsimp only at hbytes
  by_cases hascii : c.val.toNat ≤ 0x7f
  · rw [if_pos hascii] at hbytes
    obtain ⟨b, hb, hval⟩ := List.map_eq_singleton_iff.mp hbytes
    rw [hb, List.flatMap_singleton, ← UInt8.ofNat_toNat (x := b), hval,
      escape_ascii _ (List.mem_range.mpr (Nat.lt_succ_of_le hascii))]
    rw [show Char.ofNat c.val.toNat = c from Char.ofNat_toNat c]
  · have habove : ∀ d : Char, d.val.toNat ≤ 0x7f → ¬ c ≤ d := fun d hd hle => hascii (le_trans hle hd)
    have hne : ∀ d : Char, d.val.toNat ≤ 0x7f → c ≠ d := fun d hd heq => habove d hd heq.le
    have hsafe : UrlSplit.isAlwaysSafe c = false := by
      simp [UrlSplit.isAlwaysSafe, UrlSplit.isAsciiAlpha, IpAddress.isDecDigit, habove, hne]
    have hhigh : ∀ b ∈ String.utf8EncodeChar c, 128 ≤ b.toNat := by
      intro b hb
      have hmem : b.toNat ∈ (String.utf8EncodeChar c).map UInt8.toNat := List.mem_map.mpr ⟨b, hb, rfl⟩
      rw [hbytes, if_neg hascii] at hmem
      split_ifs at hmem <;> simp only [List.mem_cons, List.not_mem_nil, or_false] at hmem <;> omega
    have hquote : UrlSplit.quote [c] = (String.utf8EncodeChar c).flatMap fun b =>
        ['%', UrlSplit.upperHex (b.toNat / 16), UrlSplit.upperHex (b.toNat % 16)] := by
      simp [UrlSplit.quote, hsafe]
    rw [hquote]
    refine List.flatMap_congr fun b hb => ?_
    have hesc := escape_high b.toNat (List.mem_range.mpr b.toNat_lt) (hhigh b hb)
    rwa [UInt8.ofNat_toNat] at hesc

/-- Byte by byte or character by character, both escape alike. -/
theorem segment_eq (v : String) : Native.segment v = segment v := by
  rw [Native.segment, List.flatMap_assoc, segment]
  simp only [escape_char]
  rw [UrlSplit.quote]
  refine List.flatMap_congr fun c _ => ?_
  rw [UrlSplit.quote, List.flatMap_singleton]

/-! ## Templates -/

theorem matchArg_place {k : String} (hne : k ≠ "") (hname : k.toList.all isArgChar = true) (rest : List Char) :
    matchArg (k.toList ++ '}' :: rest) = some (k, rest) := by
  have hall := List.all_eq_true.mp hname
  have hdrop : (k.toList ++ '}' :: rest).dropWhile isArgChar = '}' :: rest := by
    rw [List.dropWhile_append_of_pos hall]
    rfl
  have htake : (k.toList ++ '}' :: rest).takeWhile isArgChar = k.toList := by
    rw [List.takeWhile_append_of_pos hall]
    simp [isArgChar]
  unfold matchArg
  rw [hdrop, htake]
  simp [hne]

variable (values : String → Option (List Char))

theorem expands_sub : Expands isArgChar values (sub values) where
  nil := by rw [sub]
  char c rest hc := by
    rw [sub]
    split <;> simp [hc]
  place k rest hne hname := by
    have hmatch := matchArg_place hne hname rest
    rw [place, List.cons_append, List.append_assoc, List.singleton_append, sub]
    split
    · rename_i k' after h
      rw [hmatch] at h
      cases h
      rw [if_pos rfl]
    · rename_i h
      rw [hmatch] at h
      cases h

theorem expands_expand : Expands isArgChar values (Native.expand values) where
  nil := by rw [Native.expand]
  char c rest hc := by rw [Native.expand, if_neg hc]
  place k rest hne hname := by
    have hclose : '}' ∉ k.toList := fun hmem => absurd (List.all_eq_true.mp hname _ hmem) (by decide)
    rw [place, List.cons_append, List.append_assoc, Native.expand, if_pos rfl, if_pos (by simp),
      Text.before_append hclose, Text.after_append hclose]
    simp [Text.before, Text.after]

/-! ## The loop over the arguments -/

theorem Alike.bind {α β γ δ : Type} {R : α → β → Prop} {S : γ → δ → Prop} {x : Except (Fault String) α}
    {y : Except (Fault CommandError) β} {f : α → Except (Fault String) γ} {g : β → Except (Fault CommandError) δ}
    (h : Alike R x y) (hf : ∀ a b, R a b → Alike S (f a) (g b)) : Alike S (x >>= f) (y >>= g) := by
  cases x with
  | ok a =>
    cases y with
    | ok b => exact hf a b h
    | error e => cases e <;> exact h.elim
  | error e =>
    cases y with
    | ok b => cases e <;> exact h.elim
    | error e' => cases e <;> cases e' <;> exact h

theorem Alike.and_eq {α β : Type} {R : α → β → Prop} {x : Except (Fault String) α}
    {y : Except (Fault CommandError) β} (h : Alike R x y) : Alike (fun a b => R a b ∧ y = .ok b) x y := by
  cases x with
  | ok a =>
    cases y with
    | ok b => exact ⟨h, rfl⟩
    | error e => cases e <;> exact h.elim
  | error e =>
    cases y with
    | ok b => cases e <;> exact h.elim
    | error e' => cases e <;> cases e' <;> exact h

theorem assign_of_lt {ν : Type} {k : String} {v : ν} {m : List (String × ν)} (h : ∀ e ∈ m, e.1 < k) :
    Native.assign k v m = m ++ [(k, v)] := by
  induction m with
  | nil => rfl
  | cons e m ih =>
    obtain ⟨he, hm⟩ := List.forall_mem_cons.mp h
    have hbytes : ¬ Utf8.bytes k < Utf8.bytes e.1 := by
      rw [Utf8.bytes_lt_iff]
      exact lt_asymm he
    rw [Native.assign, if_neg hbytes, if_neg he.ne', ih hm, List.cons_append]

theorem set_of_lt {ν : Type} {k : String} {d : Dict String ν} (h : ∀ e ∈ d.entries, e.1 < k) (v : ν) :
    (d.set k v).entries = d.entries ++ [(k, v)] := by
  refine Dict.entries_set_of_get?_eq_none (Option.eq_none_iff_forall_ne_some.mpr fun w hw => ?_) v
  exact lt_irrefl k (h (k, w) (Dict.mem_entries.mpr hw))

/-- One state of both loops. -/
structure Related (n : Native.Parts F) (p : Parts F) : Prop where
  body : Agree n.body p.body.entries
  sorted : Sorted n.body
  pathValues : n.pathValues = p.pathValues.entries

/-- The loop has not come to the key yet. -/
structure Before (p : Parts F) (k : String) : Prop where
  body : ∀ e ∈ p.body.entries, e.1 < k
  pathValues : ∀ e ∈ p.pathValues.entries, e.1 < k

section
variable {args : Value F} {fields : List (String × Json F)} {n : Native.Parts F} {p p' : Parts F}
  {e : String × Arg}

theorem typeOk_eq {v : Value F} {j : Json F} (h : Denotes v j) (type : ArgType) :
    Native.typeOk type v = typeOk type j := by
  cases type with
  | string => exact ClientView.isString_eq h
  | bool => exact ClientView.isBoolean_eq h
  | int => exact ClientView.isNumberInteger_eq h
  | any => rfl
  | strings =>
    cases h with
    | @array vs js hall =>
      show vs.all Value.isString = js.all isStr
      induction hall with
      | nil => rfl
      | cons hd _ ih => rw [List.all_cons, List.all_cons, ClientView.isString_eq hd, ih]
    | _ => rfl

theorem Related.setBody (h : Related n p) {k : String} (hk : Before p k) {v : Value F} {j : Json F}
    (hd : Denotes v j) :
    Related { n with body := Native.assign k v n.body } { p with body := p.body.set k j } := by
  have hlow : ∀ e ∈ n.body, e.1 < k := by
    intro e he
    have hmem : e.1 ∈ p.body.entries.map Prod.fst := h.body.keys ▸ List.mem_map_of_mem he
    obtain ⟨e', he', heq⟩ := List.mem_map.mp hmem
    exact heq ▸ hk.body e' he'
  refine ⟨?_, ?_, h.pathValues⟩
  · show Agree (Native.assign k v n.body) (p.body.set k j).entries
    rw [assign_of_lt hlow, set_of_lt hk.body]
    exact List.rel_append h.body (.cons ⟨rfl, hd⟩ .nil)
  · show Sorted (Native.assign k v n.body)
    rw [assign_of_lt hlow]
    refine List.pairwise_append.mpr ⟨h.sorted, List.pairwise_singleton _ _, fun e he e' he' => ?_⟩
    rw [List.mem_singleton.mp he', Utf8.bytes_lt_iff]
    exact hlow e he

theorem Related.setPath (h : Related n p) {k : String} (hk : Before p k) (v : List Char) :
    Related { n with pathValues := Native.assign k v n.pathValues }
      { p with pathValues := p.pathValues.set k v } := by
  refine ⟨h.body, h.sorted, ?_⟩
  show Native.assign k v n.pathValues = (p.pathValues.set k v).entries
  rw [set_of_lt hk.pathValues, h.pathValues, assign_of_lt hk.pathValues]

theorem alike_takeValue (h : Related n p) (he : e.2.place = .body ∨ e.2 = pathArg) (hbefore : Before p e.1)
    {v : Value F} {j : Json F} (hd : Denotes v j) :
    Alike Related (Native.takeValue n e v) (takeValue p e j) := by
  unfold Native.takeValue takeValue
  rw [typeOk_eq hd]
  split_ifs with htype
  · exact rfl
  · rcases he with hbody | hpath
    · rw [hbody]
      exact h.setBody hbefore hd
    · rw [hpath] at htype ⊢
      cases hd with
      | string text =>
        show Alike Related (if _ then _ else _) (if _ then _ else _)
        split_ifs with hbad
        · exact rfl
        · rw [segment_eq]
          exact h.setPath hbefore (segment text)
      | _ => simp [typeOk, isStr, pathArg] at htype

/-- One argument, looked at by both. -/
theorem alike_takeArgument (hargs : Denotes args (.obj fields)) (h : Related n p)
    (he : e.2.place = .body ∨ e.2 = pathArg) (hbefore : Before p e.1) :
    Alike Related (Native.takeArgument args n e) (takeArgument fields p e) := by
  have hd := hargs.item e.1
  have hvalue := alike_takeValue h he hbefore hd
  unfold Native.takeArgument takeArgument
  generalize args.item e.1 = v, get fields e.1 = j at hd hvalue ⊢
  cases hd with
  | null =>
    dsimp only
    split_ifs
    · exact rfl
    · exact h
  | _ => exact hvalue

theorem takeValue_cases {v : Json F} (h : takeValue p e v = .ok p') :
    (∃ t, v = .str t ∧ ¬ (t = "" ∨ t = "." ∨ t = "..") ∧ e.2.place = .path ∧
      p' = { p with pathValues := p.pathValues.set e.1 (segment t) }) ∨
    e.2.place = .body ∧ p' = { p with body := p.body.set e.1 v } := by
  unfold takeValue at h
  split_ifs at h
  cases hplace : e.2.place with
  | body =>
    rw [hplace] at h
    cases h
    exact .inr ⟨rfl, rfl⟩
  | path =>
    rw [hplace] at h
    cases v with
    | str t =>
      dsimp only at h
      split_ifs at h with hbad
      cases h
      exact .inl ⟨t, rfl, hbad, rfl, rfl⟩
    | _ => cases h

/-- What an argument that was taken leaves behind. -/
theorem takeArgument_cases (h : takeArgument fields p e = .ok p') :
    (e.2.required = false ∧ p' = p) ∨
    (∃ t, fields.lookup e.1 = some (.str t) ∧ ¬ (t = "" ∨ t = "." ∨ t = "..") ∧ e.2.place = .path ∧
      p' = { p with pathValues := p.pathValues.set e.1 (segment t) }) ∨
    ∃ v, fields.lookup e.1 = some v ∧ e.2.place = .body ∧ p' = { p with body := p.body.set e.1 v } := by
  unfold takeArgument at h
  split at h
  · split_ifs at h with hreq
    cases h
    exact .inl ⟨by simpa using hreq, rfl⟩
  · rename_i hnull
    have hlookup : fields.lookup e.1 = some (Json.get fields e.1) := by
      cases hl : fields.lookup e.1 with
      | none => exact absurd (by simp [Json.get, hl]) hnull
      | some v => simp [Json.get, hl]
    rcases takeValue_cases h with ⟨t, hv, hrest⟩ | hrest
    · exact .inr (.inl ⟨t, hv ▸ hlookup, hrest⟩)
    · exact .inr (.inr ⟨_, hlookup, hrest⟩)

/-- What the loop has gathered of the arguments `L`. -/
structure Gathered (fields : List (String × Json F)) (L : List (String × Arg)) (p : Parts F) : Prop where
  body : ∀ k v, p.body.get? k = some v → fields.lookup k = some v ∧ ∃ a, (k, a) ∈ L ∧ a.place = .body
  pathValues : ∀ k s, p.pathValues.get? k = some s →
    ∃ t, fields.lookup k = some (.str t) ∧ ¬ (t = "" ∨ t = "." ∨ t = "..") ∧ s = segment t

theorem Gathered.takeArgument {L : List (String × Arg)} (hp : Gathered fields L p) (he : e ∈ L)
    (h : takeArgument fields p e = .ok p') : Gathered fields L p' := by
  rcases takeArgument_cases h with ⟨-, rfl⟩ | ⟨t, ht, hbad, -, rfl⟩ | ⟨v, hv, hplace, rfl⟩
  · exact hp
  · refine ⟨hp.body, fun k s hs => ?_⟩
    rw [Dict.get?_set] at hs
    split_ifs at hs with hk
    · cases hs
      exact ⟨t, hk ▸ ht, hbad, rfl⟩
    · exact hp.pathValues k s hs
  · refine ⟨fun k w hw => ?_, hp.pathValues⟩
    rw [Dict.get?_set] at hw
    split_ifs at hw with hk
    · cases hw
      exact ⟨hk ▸ hv, e.2, hk ▸ he, hplace⟩
    · exact hp.body k w hw

/-- A path argument that was taken has its segment, and keeps it. -/
theorem isSome_takeArgument (h : takeArgument fields p e = .ok p') (k : String)
    (hk : (p.pathValues.get? k).isSome ∨ e = (k, pathArg)) : (p'.pathValues.get? k).isSome := by
  rcases takeArgument_cases h with ⟨hreq, rfl⟩ | ⟨t, -, -, -, rfl⟩ | ⟨v, -, hplace, rfl⟩
  · refine hk.resolve_right fun heq => ?_
    rw [heq] at hreq
    cases hreq
  · rw [Dict.get?_set]
    split_ifs with hkey
    · rfl
    · exact hk.resolve_right fun heq => hkey (heq ▸ rfl)
  · refine hk.resolve_right fun heq => ?_
    rw [heq] at hplace
    cases hplace

theorem gathered_foldlM {L l : List (String × Arg)} (hl : l ⊆ L) (hp : Gathered fields L p)
    (h : l.foldlM (takeArgument fields) p = .ok p') :
    Gathered fields L p' ∧
      ∀ k, (p.pathValues.get? k).isSome ∨ (k, pathArg) ∈ l → (p'.pathValues.get? k).isSome := by
  induction l generalizing p with
  | nil =>
    cases h
    exact ⟨hp, fun k hk => hk.resolve_right (List.not_mem_nil)⟩
  | cons e l ih =>
    rw [List.foldlM_cons] at h
    cases hstep : takeArgument fields p e with
    | error f =>
      rw [hstep] at h
      cases h
    | ok q =>
      rw [hstep] at h
      obtain ⟨he, hrest⟩ := List.cons_subset.mp hl
      obtain ⟨hgathered, hsome⟩ := ih hrest (hp.takeArgument he hstep) h
      refine ⟨hgathered, fun k hk => hsome k ?_⟩
      rcases hk with hk | hk
      · exact .inl (isSome_takeArgument hstep k (.inl hk))
      · exact (List.mem_cons.mp hk).imp (fun heq => isSome_takeArgument hstep k (.inr heq.symm)) id

/-- The keys come in their order, so what is set goes to the end. -/
theorem Before.takeArgument {k : String} (hp : Before p k) (he : e.1 < k)
    (hbefore : Before p e.1) (h : takeArgument fields p e = .ok p') : Before p' k := by
  rcases takeArgument_cases h with ⟨-, rfl⟩ | ⟨t, -, -, -, rfl⟩ | ⟨v, -, -, rfl⟩
  · exact hp
  · refine ⟨hp.body, fun e' he' => ?_⟩
    rw [set_of_lt hbefore.pathValues] at he'
    rcases List.mem_append.mp he' with hold | hnew
    · exact hp.pathValues e' hold
    · exact List.mem_singleton.mp hnew ▸ he
  · refine ⟨fun e' he' => ?_, hp.pathValues⟩
    rw [set_of_lt hbefore.body] at he'
    rcases List.mem_append.mp he' with hold | hnew
    · exact hp.body e' hold
    · exact List.mem_singleton.mp hnew ▸ he

theorem alike_foldlM (hargs : Denotes args (.obj fields)) {l : List (String × Arg)}
    (hsorted : l.Pairwise fun a b => a.1 < b.1) (hl : ∀ e ∈ l, e.2.place = .body ∨ e.2 = pathArg)
    (h : Related n p) (hbefore : ∀ e ∈ l, Before p e.1) :
    Alike Related (l.foldlM (Native.takeArgument args) n) (l.foldlM (takeArgument fields) p) := by
  induction l generalizing n p with
  | nil => exact h
  | cons e l ih =>
    obtain ⟨hhead, htail⟩ := List.pairwise_cons.mp hsorted
    obtain ⟨he, hrest⟩ := List.forall_mem_cons.mp hl
    obtain ⟨hbe, hbrest⟩ := List.forall_mem_cons.mp hbefore
    have hstep := alike_takeArgument hargs h he hbe
    rw [List.foldlM_cons, List.foldlM_cons]
    refine hstep.and_eq.bind fun n' p' ⟨hrel, hp'⟩ => ?_
    exact ih htail hrest hrel fun e' he' => (hbrest e' he').takeArgument (hhead e' he') hbe hp'

theorem mem_assign {ν : Type} {k : String} {v : ν} {m : List (String × ν)} {e : String × ν}
    (h : e ∈ Native.assign k v m) : e = (k, v) ∨ e ∈ m := by
  induction m with
  | nil => exact .inl (List.mem_singleton.mp h)
  | cons e' m ih =>
    unfold Native.assign at h
    split_ifs at h with hlt heq
    · exact List.mem_cons.mp h
    · exact (List.mem_cons.mp h).imp_right (List.mem_cons_of_mem e')
    · rcases List.mem_cons.mp h with rfl | hmem
      · exact .inr List.mem_cons_self
      · exact (ih hmem).imp_right (List.mem_cons_of_mem e')

theorem native_takeValue_body {e : String × Arg} {v : Value F} {n n' : Native.Parts F}
    (h : Native.takeValue n e v = .ok n') : n'.body = n.body ∨ n'.body = Native.assign e.1 v n.body := by
  unfold Native.takeValue at h
  split_ifs at h
  cases hplace : e.2.place with
  | body =>
    rw [hplace] at h
    cases h
    exact .inr rfl
  | path =>
    rw [hplace] at h
    cases v with
    | string t =>
      dsimp only at h
      split_ifs at h
      cases h
      exact .inl rfl
    | _ => cases h

theorem native_takeArgument_body {entries : List (String × Value F)} {e : String × Arg} {n n' : Native.Parts F}
    (h : Native.takeArgument (.object entries) n e = .ok n') :
    n'.body = n.body ∨ ∃ v, entries.lookup e.1 = some v ∧ n'.body = Native.assign e.1 v n.body := by
  unfold Native.takeArgument at h
  split at h
  · split_ifs at h
    cases h
    exact .inl rfl
  · rename_i hnull
    refine (native_takeValue_body h).imp_right fun hbody => ⟨_, ?_, hbody⟩
    cases hl : entries.lookup e.1 with
    | none => exact absurd (by simp [Value.item, Value.find, hl]) hnull
    | some v => simp [Value.item, Value.find, hl]

/-- What stands in a native body is the argument itself. -/
theorem find_of_mem_body {entries : List (String × Value F)} {l : List (String × Arg)} {n n' : Native.Parts F}
    (hn : ∀ e ∈ n.body, entries.lookup e.1 = some e.2)
    (h : l.foldlM (Native.takeArgument (.object entries)) n = .ok n') :
    ∀ e ∈ n'.body, entries.lookup e.1 = some e.2 := by
  induction l generalizing n with
  | nil =>
    cases h
    exact hn
  | cons e l ih =>
    rw [List.foldlM_cons] at h
    cases hstep : Native.takeArgument (.object entries) n e with
    | error f =>
      rw [hstep] at h
      cases h
    | ok q =>
      rw [hstep] at h
      refine ih (fun e' he' => ?_) h
      rcases native_takeArgument_body hstep with hbody | ⟨v, hv, hbody⟩
      · exact hn e' (hbody ▸ he')
      · rw [hbody] at he'
        rcases mem_assign he' with rfl | hold
        · exact hv
        · exact hn e' hold

end

/-! ## The request -/

section
variable {spec : Command} {fields : List (String × Json F)} {p : Parts F}

theorem unquote_ne {t : String} (h : ¬ (t = "" ∨ t = "." ∨ t = "..")) :
    segment t ≠ [] ∧ segment t ≠ ['.'] ∧ segment t ≠ ['.', '.'] := by
  rw [not_or, not_or] at h
  refine ⟨fun heq => h.1 ?_, fun heq => h.2.1 ?_, fun heq => h.2.2 ?_⟩
  · exact quote_injective heq
  · exact quote_injective heq
  · exact quote_injective heq

theorem Gathered.exists_path (hp : Gathered fields spec.args p) (hs : sound spec = true)
    (hsome : ∀ k, (k, pathArg) ∈ spec.args → (p.pathValues.get? k).isSome) :
    ∃ path, (∀ f, Expands isArgChar p.pathValues.get? f → f spec.path.toList = some path) ∧
      List.Forall₂ (Filled (fun k => fields.lookup k) .str) (segments spec.path.toList) (segments path) ∧
      '?' ∉ path ∧ '#' ∉ path := by
  obtain ⟨-, hsegs, -⟩ := of_decide_eq_true hs
  rw [List.all_eq_true] at hsegs
  have hwf : ∀ seg ∈ segments spec.path.toList, wellFormed isArgChar seg = true ∧
      (fill p.pathValues.get? seg).isSome := by
    intro seg hseg
    obtain ⟨hseg, hparam⟩ := of_decide_eq_true (hsegs seg hseg)
    refine ⟨hseg, ?_⟩
    unfold fill
    cases hk : param seg with
    | none => rfl
    | some k =>
      rw [hk] at hparam
      exact hsome k (Dict.mem_of_lookup (of_decide_eq_true hparam))
  obtain ⟨path, hpath, hfill, hquery⟩ := PathTemplate.exists_path hwf fun k s hs c hc => by
    obtain ⟨t, -, -, rfl⟩ := hp.pathValues k s hs
    exact UrlSplit.isQuoted_of_mem_quote hc
  refine ⟨path, hpath, hfill.imp fun seg s h => ?_, hquery⟩
  unfold fill at h
  unfold Filled
  cases hk : param seg with
  | none =>
    rw [hk] at h
    exact (Option.some.inj h).symm
  | some k =>
    rw [hk] at h
    obtain ⟨t, ht, hbad, rfl⟩ := hp.pathValues k s h
    obtain ⟨hempty, hdot, hdots⟩ := unquote_ne hbad
    exact ⟨hempty, hdot, hdots, t, ht, unquote_quote t⟩

/-- The arguments in the order of their names, as both take them. -/
theorem sorted_args (hs : sound spec = true) :
    ofPairs spec.args = spec.args.insertionSort (fun a b => a.1 ≤ b.1) ∧
      (ofPairs spec.args).Perm spec.args ∧ (ofPairs spec.args).Pairwise fun a b => a.1 < b.1 := by
  obtain ⟨hn, -, -⟩ := of_decide_eq_true hs
  have hperm := perm_ofPairs hn
  have hsorted := sorted_ofPairs spec.args
  exact ⟨hsorted.eq_insertionSort hperm, hperm, hsorted.imp fun h => Utf8.bytes_lt_iff.mp h⟩

theorem gathered_start (fields : List (String × Json F)) (L : List (String × Arg)) :
    Gathered fields L ⟨Dict.empty, Dict.empty⟩ := ⟨fun _ _ h => (by cases h), fun _ _ h => (by cases h)⟩

/-- What the loop leaves where it goes through. -/
theorem gathered_of_loop (hs : sound spec = true)
    (h : (spec.args.insertionSort fun a b => a.1 ≤ b.1).foldlM (takeArgument fields) ⟨Dict.empty, Dict.empty⟩ =
      .ok p) :
    Gathered fields spec.args p ∧ ∀ k, (k, pathArg) ∈ spec.args → (p.pathValues.get? k).isSome := by
  obtain ⟨hsort, hperm, -⟩ := sorted_args hs
  rw [← hsort] at h
  obtain ⟨hgathered, hsome⟩ := gathered_foldlM hperm.subset (gathered_start fields spec.args) h
  exact ⟨hgathered, fun k hk => hsome k (.inr (hperm.mem_iff.mpr hk))⟩

theorem any_unknown {entries : List (String × Value F)} (hs : sound spec = true)
    (hargs : Denotes (.object entries) (.obj fields)) :
    (entries.any fun a => ((ofPairs spec.args).lookup a.1).isNone) =
      fields.any fun e => (spec.args.lookup e.1).isNone := by
  obtain ⟨hn, -, -⟩ := of_decide_eq_true hs
  have hlookup : ∀ k, (ofPairs spec.args).lookup k = spec.args.lookup k := fun k =>
    (Dict.lookup_perm (perm_ofPairs hn).symm hn k).symm
  rw [Bool.eq_iff_iff, List.any_eq_true, List.any_eq_true]
  constructor
  · rintro ⟨e, he, hnone⟩
    obtain ⟨e', he', heq⟩ := List.mem_map.mp (hargs.mem_keys.mp (List.mem_map_of_mem he))
    exact ⟨e', he', by rwa [heq, ← hlookup]⟩
  · rintro ⟨e, he, hnone⟩
    obtain ⟨e', he', heq⟩ := List.mem_map.mp (hargs.mem_keys.mpr (List.mem_map_of_mem he))
    exact ⟨e', he', by rwa [hlookup, heq]⟩

theorem alike_requestOf {entries : List (String × Value F)} (hs : sound spec = true)
    (hargs : Denotes (.object entries) (.obj fields)) :
    Alike SameRequest (Native.requestOf spec (.object entries) entries) (requestOf spec fields) := by
  obtain ⟨hsort, hperm, hpairwise⟩ := sorted_args hs
  obtain ⟨-, -, hplaces⟩ := of_decide_eq_true hs
  have hl : ∀ e ∈ ofPairs spec.args, e.2.place = .body ∨ e.2 = pathArg := fun e he =>
    of_decide_eq_true (List.all_eq_true.mp hplaces e (hperm.mem_iff.mp he))
  have hstart : Related (⟨[], []⟩ : Native.Parts F) ⟨Dict.empty, Dict.empty⟩ := ⟨.nil, .nil, rfl⟩
  have hloop := alike_foldlM hargs hpairwise hl hstart fun _ _ => ⟨fun _ h => (by cases h),
    fun _ h => (by cases h)⟩
  unfold Native.requestOf requestOf
  rw [any_unknown hs hargs]
  split_ifs
  · exact rfl
  · rw [← hsort]
    refine hloop.and_eq.bind fun n p ⟨hrel, hp⟩ => ?_
    rw [hsort] at hp
    obtain ⟨hgathered, hsome⟩ := gathered_of_loop hs hp
    obtain ⟨path, hpath, -⟩ := hgathered.exists_path hs hsome
    have hvalues : (fun k => n.pathValues.lookup k) = p.pathValues.get? := by
      funext k
      rw [hrel.pathValues, Dict.lookup_entries]
    unfold Native.finish finish
    rw [hvalues, hpath _ (expands_expand _), hpath _ (expands_sub _)]
    refine ⟨rfl, rfl, rfl, ?_⟩
    dsimp only
    split_ifs
    · exact .null
    · exact .object hrel.sorted (.refl _) hrel.body.keys hrel.body.values

theorem onRoute_requestOf {r : Request (Json F)} (hs : sound spec = true) (h : requestOf spec fields = .ok r) :
    OnRoute spec (fun k => fields.lookup k) .str fieldsOf r := by
  obtain ⟨hn, -, -⟩ := of_decide_eq_true hs
  unfold requestOf at h
  split_ifs at h
  obtain ⟨p, hp, hr⟩ := exists_of_bind_ok h
  obtain ⟨hgathered, hsome⟩ := gathered_of_loop hs hp
  obtain ⟨path, hpath, hsegs, hquery, hfragment⟩ := hgathered.exists_path hs hsome
  unfold finish at hr
  rw [hpath _ (expands_sub _)] at hr
  cases hr
  refine ⟨rfl, rfl, ?_, ?_, ?_, fun e he => ?_⟩
  · rwa [String.toList_ofList]
  · rwa [String.toList_ofList]
  · rwa [String.toList_ofList]
  · dsimp only at he
    split_ifs at he
    · cases he
    · obtain ⟨hfind, a, ha, hplace⟩ := hgathered.body e.1 e.2 (Dict.mem_entries.mp he)
      exact ⟨hfind, a, Dict.lookup_of_mem hn ha, hplace⟩

theorem find_of_mem_native_body {entries : List (String × Value F)} {r : Request (Value F)}
    (h : Native.requestOf spec (.object entries) entries = .ok r) :
    ∀ e ∈ entriesOf r.body, entries.lookup e.1 = some e.2 := by
  unfold Native.requestOf at h
  split_ifs at h
  obtain ⟨p, hp, hr⟩ := exists_of_bind_ok h
  have hbody := find_of_mem_body (fun _ he => (by cases he)) hp
  unfold Native.finish at hr
  split at hr
  · cases hr
  · cases hr
    intro e he
    dsimp only at he
    split_ifs at he
    · cases he
    · exact hbody e he

theorem lookup_string {entries : List (String × Value F)} (hargs : Denotes (.object entries) (.obj fields))
    {k t : String} (h : fields.lookup k = some (.str t)) : entries.lookup k = some (.string t) := by
  have hitem := hargs.item k
  rw [Json.get, h] at hitem
  replace hitem : Denotes ((entries.lookup k).getD .null) (.str t) := hitem
  cases hv : entries.lookup k with
  | none =>
    rw [hv] at hitem
    cases hitem
  | some v =>
    rw [hv] at hitem
    cases hitem
    rfl

theorem exists_field {v : Value F} {j : Json F} (h : Denotes v j) {e : String × Value F} (he : e ∈ entriesOf v) :
    ∃ e' ∈ fieldsOf j, e'.1 = e.1 := by
  cases v with
  | object m =>
    cases j with
    | obj fields => exact List.mem_map.mp (h.mem_keys.mp (List.mem_map_of_mem he))
    | _ => cases h
  | _ => cases he

theorem onRoute_native_requestOf {entries : List (String × Value F)} {r : Request (Value F)}
    (hs : sound spec = true) (hargs : Denotes (.object entries) (.obj fields))
    (h : Native.requestOf spec (.object entries) entries = .ok r) :
    OnRoute spec (fun k => entries.lookup k) .string entriesOf r := by
  have halike := alike_requestOf hs hargs
  rw [h] at halike
  cases hr' : requestOf spec fields with
  | error f =>
    rw [hr'] at halike
    exact halike.elim
  | ok r' =>
    rw [hr'] at halike
    obtain ⟨hmethod, hpath, hauth, hbody⟩ := halike
    have hroute := onRoute_requestOf hs hr'
    refine ⟨hmethod.trans hroute.method, hauth.trans hroute.auth, ?_, ?_, ?_, fun e he => ?_⟩
    · rw [hpath]
      refine hroute.segments.imp fun seg s hseg => ?_
      unfold Filled at hseg ⊢
      cases hk : param seg with
      | none =>
        rw [hk] at hseg
        exact hseg
      | some k =>
        rw [hk] at hseg
        obtain ⟨hempty, hdot, hdots, t, ht, hread⟩ := hseg
        exact ⟨hempty, hdot, hdots, t, lookup_string hargs ht, hread⟩
    · rw [hpath]
      exact hroute.no_query
    · rw [hpath]
      exact hroute.no_fragment
    · obtain ⟨e', he', hkey⟩ := exists_field hbody he
      exact ⟨find_of_mem_native_body h e he, hkey ▸ (hroute.body e' he').2⟩

end

/-- Every command, and whatever its arguments: both make one request or refuse with one code, and a
request stays on the route of its command. -/
theorem request_on_route {name args : Value F} {name' args' : Json F} (hname : Denotes name name')
    (hargs : Denotes args args') :
    Alike SameRequest (Native.commandRequest name args) (requestFor name' args') ∧
    (∀ r, requestFor name' args' = .ok r → ∃ n spec, name' = .str n ∧ COMMANDS.lookup n = some spec ∧
      OnRoute spec (fun k => (fieldsOf args').lookup k) .str fieldsOf r) ∧
    ∀ r, Native.commandRequest name args = .ok r → ∃ n spec, name = .string n ∧ COMMANDS.lookup n = some spec ∧
      OnRoute spec (fun k => (entriesOf args).lookup k) .string entriesOf r := by
  have hlookup : ∀ n, (ofPairs COMMANDS).lookup n = COMMANDS.lookup n := fun n =>
    (Dict.lookup_perm (perm_ofPairs nodup_commands).symm nodup_commands n).symm
  cases hname with
  | string n =>
    unfold Native.commandRequest requestFor
    dsimp only
    rw [hlookup]
    cases hspec : COMMANDS.lookup n with
    | none => exact ⟨rfl, fun _ h => (by cases h), fun _ h => (by cases h)⟩
    | some spec =>
      have hs : sound spec = true := List.all_eq_true.mp sound_commands _ (Dict.mem_of_lookup hspec)
      cases args with
      | object entries =>
        cases args' with
        | obj fields =>
          exact ⟨alike_requestOf hs hargs, fun r h => ⟨n, spec, rfl, hspec, onRoute_requestOf hs h⟩,
            fun r h => ⟨n, spec, rfl, hspec, onRoute_native_requestOf hs hargs h⟩⟩
        | _ => cases hargs
      | _ =>
        cases hargs
        all_goals exact ⟨rfl, fun _ h => (by cases h), fun _ h => (by cases h)⟩
  | _ => exact ⟨rfl, fun _ h => (by cases h), fun _ h => (by cases h)⟩

end

/-- A key that would leave its segment, and a list for a value. -/
def awkwardSetting : Json ℚ := .obj [("value", .arr [.int 1, .null]), ("key", .str "../a b?ü#")]

theorem awkwardSetting_on_route :
    Alike SameRequest (Native.commandRequest (.string "setting.set") (encode awkwardSetting))
      (requestFor (.str "setting.set") awkwardSetting) ∧
    (∀ r, requestFor (.str "setting.set") awkwardSetting = .ok r → ∃ n spec,
      Json.str (F := ℚ) "setting.set" = .str n ∧ COMMANDS.lookup n = some spec ∧
        OnRoute spec (fun k => (fieldsOf awkwardSetting).lookup k) .str fieldsOf r) ∧
    ∀ r, Native.commandRequest (.string "setting.set") (encode awkwardSetting) = .ok r → ∃ n spec,
      Value.string (F := ℚ) "setting.set" = .string n ∧ COMMANDS.lookup n = some spec ∧
        OnRoute spec (fun k => (entriesOf (encode awkwardSetting)).lookup k) .string entriesOf r := by
  refine request_on_route (.string _) (denotes_encode (.obj (by decide) ?_))
  refine List.forall_mem_cons.mpr ⟨.arr ?_, List.forall_mem_cons.mpr ⟨.str _, by simp⟩⟩
  exact List.forall_mem_cons.mpr ⟨.int (by decide) (by decide), List.forall_mem_cons.mpr ⟨.null, by simp⟩⟩

end Wavr.ClientCommands
