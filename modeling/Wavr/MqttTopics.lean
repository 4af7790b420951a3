import Wavr.Text

/-!
# MQTT topics

The topics under which rooms and the house stand on the broker, and the slug that puts a room name
into a topic level.
-/

namespace Wavr.MqttTopics
open Text

/-- `str.isalnum` of a character, and `str.lower`, which looks at the whole text. -/
structure Platform where
  isalnum : Char → Bool
  lower : List Char → List Char

variable (pf : Platform)

/-- On ASCII text these are the ASCII classes and cases. -/
structure Documented : Prop where
  isalnum_ascii : ∀ c : Char, c.toNat < 128 → pf.isalnum c = c.isAlphanum
  lower_ascii : ∀ s : List Char, (∀ c ∈ s, c.toNat < 128) → pf.lower s = s.map Char.toLower

def slugChar (c : Char) : Char := if pf.isalnum c ∨ c = '-' ∨ c = '_' then c else '_'

def slugRoom (name : String) : String :=
  let s := pf.lower (stripOf (· = '_') (name.toList.map (slugChar pf)))
  if s = [] then "room" else String.ofList s

variable (mqttPrefix room : String)

def roomStateTopic : String := mqttPrefix ++ "/rooms/" ++ slugRoom pf room ++ "/state"

def roomEventTopic : String := mqttPrefix ++ "/rooms/" ++ slugRoom pf room ++ "/event"

def statusTopic : String := mqttPrefix ++ "/status"

def roomAvailabilityTopic : String := mqttPrefix ++ "/rooms/" ++ slugRoom pf room ++ "/availability"

def roomCoverageTopic : String := mqttPrefix ++ "/rooms/" ++ slugRoom pf room ++ "/coverage"

def houseCoverageTopic : String := mqttPrefix ++ "/house/coverage"

def intrusionTopic : Option String → String
  | none => mqttPrefix ++ "/watch/house/intrusion"
  | some room => mqttPrefix ++ "/watch/rooms/" ++ slugRoom pf room ++ "/intrusion"

def routineAnomalyTopic : String := mqttPrefix ++ "/rooms/" ++ slugRoom pf room ++ "/routine_anomaly"

def houseStatusTopic : String := mqttPrefix ++ "/house/status"

/-- What is published of a room. -/
inductive RoomTopic
  | state
  | event
  | availability
  | coverage
  | intrusion
  | routineAnomaly
  deriving DecidableEq

def RoomTopic.topic (k : RoomTopic) : String :=
  match k with
  | .state => roomStateTopic pf mqttPrefix room
  | .event => roomEventTopic pf mqttPrefix room
  | .availability => roomAvailabilityTopic pf mqttPrefix room
  | .coverage => roomCoverageTopic pf mqttPrefix room
  | .intrusion => intrusionTopic pf mqttPrefix (some room)
  | .routineAnomaly => routineAnomalyTopic pf mqttPrefix room

/-- The topics of the house; the last three are written out where the away monitor and the alerts on
unknown devices publish. -/
def houseTopics : List String :=
  [statusTopic mqttPrefix, houseCoverageTopic mqttPrefix, houseStatusTopic mqttPrefix,
    intrusionTopic pf mqttPrefix none, mqttPrefix ++ "/house/state", mqttPrefix ++ "/house/event",
    mqttPrefix ++ "/security/rogue"]

/-- What a slug is made of. -/
def isSlugChar (c : Char) : Bool := ('a' ≤ c ∧ c ≤ 'z') ∨ ('0' ≤ c ∧ c ≤ '9') ∨ c = '_' ∨ c = '-'

def MAX_STR_LEN : ℕ := 200

/-- `_bounded_str` of the house map: all that it asks of the name of a room. -/
def boundedStr (v : String) : Bool := v.length ≤ MAX_STR_LEN

/-! ## Topics apart -/

/-- What stands in front of the slug. -/
def RoomTopic.stem : RoomTopic → String
  | .intrusion => "/watch/rooms/"
  | _ => "/rooms/"

/-- The last level. -/
def RoomTopic.word : RoomTopic → String
  | .state => "state"
  | .event => "event"
  | .availability => "availability"
  | .coverage => "coverage"
  | .intrusion => "intrusion"
  | .routineAnomaly => "routine_anomaly"

/-- What stands behind the prefix. -/
def houseLevels : List String :=
  ["/status", "/house/coverage", "/house/status", "/watch/house/intrusion", "/house/state",
    "/house/event", "/security/rogue"]

section
variable {pf mqttPrefix room} {room' : String} {k k' : RoomTopic}

theorem toList_topic : (k.topic pf mqttPrefix room).toList =
    (mqttPrefix.toList ++ (k.stem.toList ++ (slugRoom pf room).toList)) ++ '/' :: k.word.toList := by
  have hlast : ∀ w : String, ("/" ++ w).toList = '/' :: w.toList := fun w => by simp
  have htopic : k.topic pf mqttPrefix room = mqttPrefix ++ k.stem ++ slugRoom pf room ++ ("/" ++ k.word) := by
    cases k <;> rfl
  rw [htopic, String.toList_append, String.toList_append, String.toList_append, hlast,
    List.append_assoc _ k.stem.toList]

theorem afterLast_topic : afterLast '/' (k.topic pf mqttPrefix room).toList = k.word.toList := by
  have hword : '/' ∉ k.word.toList := by cases k <;> decide
  rw [toList_topic, afterLast_append_cons hword]

theorem word_inj : k.word = k'.word ↔ k = k' := by
  cases k <;> cases k' <;> decide

/-- Room topics tell the kind and the slug, and nothing else. -/
theorem topic_inj :
    k.topic pf mqttPrefix room = k'.topic pf mqttPrefix room' ↔
      k = k' ∧ slugRoom pf room = slugRoom pf room' := by
  constructor
  · intro h
    have hk : k = k' := by
      rw [← word_inj, ← String.toList_inj, ← afterLast_topic (k := k), h, afterLast_topic]
    subst hk
    have hl := congrArg String.toList h
    rw [toList_topic, toList_topic, List.append_left_inj, List.append_right_inj,
      List.append_right_inj] at hl
    exact ⟨rfl, String.toList_inj.mp hl⟩
  · rintro ⟨rfl, h⟩
    rw [← String.toList_inj, toList_topic, toList_topic, h]

theorem topic_not_mem_houseTopics : k.topic pf mqttPrefix room ∉ houseTopics pf mqttPrefix := by
  have hapart : ∀ t ∈ houseLevels, ¬ k.stem.toList <+: t.toList := by
    cases k <;> decide
  have hlevels : houseTopics pf mqttPrefix = houseLevels.map (mqttPrefix ++ ·) := rfl
  rw [hlevels, List.mem_map]
  rintro ⟨t, ht, heq⟩
  refine hapart t ht ?_
  have hl := congrArg String.toList heq
  rw [toList_topic, String.toList_append, List.append_assoc, List.append_assoc,
    List.append_right_inj] at hl
  exact ⟨_, hl.symm⟩

/-! ## Slugs -/

theorem isSlugChar_toLower {c : Char} (hascii : c.toNat < 128) (h : c.isAlphanum ∨ c = '-' ∨ c = '_') :
    isSlugChar c.toLower = true := by
  have hall : ∀ n < 128, (Char.ofNat n).isAlphanum ∨ Char.ofNat n = '-' ∨ Char.ofNat n = '_' →
      isSlugChar (Char.ofNat n).toLower = true := by
    decide +kernel
  rw [← Char.ofNat_toNat c] at h ⊢
  exact hall c.toNat hascii h

theorem isSlugChar_of_mem_slugRoom (hpf : Documented pf)
    (hroom : ∀ c ∈ room.toList, pf.isalnum c → c.toNat < 128) {c : Char}
    (hc : c ∈ (slugRoom pf room).toList) : isSlugChar c = true := by
  -- before it is lowered, the text is ASCII
  have hkept : ∀ d ∈ stripOf (· = '_') (room.toList.map (slugChar pf)),
      d.toNat < 128 ∧ (d.isAlphanum ∨ d = '-' ∨ d = '_') := by
    intro d hd
    obtain ⟨e, he, rfl⟩ := List.mem_map.mp (mem_of_mem_stripOf hd)
    unfold slugChar
    split
    · rename_i hkeep
      rcases hkeep with hnum | rfl | rfl
      · have hascii := hroom e he hnum
        rw [hpf.isalnum_ascii e hascii] at hnum
        exact ⟨hascii, .inl hnum⟩
      · decide
      · decide
    · decide
  unfold slugRoom at hc
  dsimp only at hc
  rw [hpf.lower_ascii _ fun d hd => (hkept d hd).1] at hc
  split at hc
  · have hdefault : "room".toList.all isSlugChar = true := by decide +kernel
    exact List.all_eq_true.mp hdefault c hc
  · rw [String.toList_ofList] at hc
    obtain ⟨d, hd, rfl⟩ := List.mem_map.mp hc
    exact isSlugChar_toLower (hkept d hd).1 (hkept d hd).2

end

/-- A room shares a topic with the rooms of the same slug, each kind for itself, and with nothing of the
house. -/
theorem room_topics (hpf : Documented pf) (mqttPrefix room room' : String) :
    (∀ k k' : RoomTopic, k.topic pf mqttPrefix room = k'.topic pf mqttPrefix room' ↔
      k = k' ∧ slugRoom pf room = slugRoom pf room') ∧
    (∀ k : RoomTopic, k.topic pf mqttPrefix room ∉ houseTopics pf mqttPrefix) ∧
    ((∀ c ∈ room.toList, pf.isalnum c → c.toNat < 128) →
      ∀ c ∈ (slugRoom pf room).toList, isSlugChar c = true) :=
  ⟨fun _ _ => topic_inj, fun _ => topic_not_mem_houseTopics,
    fun hroom _ hc => isSlugChar_of_mem_slugRoom hpf hroom hc⟩

/-- Names in ASCII. -/
def asciiPlatform : Platform where
  isalnum := Char.isAlphanum
  lower := List.map Char.toLower

theorem room_topics_ascii :
    RoomTopic.state.topic asciiPlatform "wavr" "Kids #1" ∉ houseTopics asciiPlatform "wavr" :=
  (room_topics asciiPlatform ⟨fun _ _ => rfl, fun _ _ => rfl⟩ "wavr" "Kids #1" "sala").2.1 .state

/-- The house map takes both names, and every topic of one is that of the other. -/
theorem rooms_share_topics :
    boundedStr "Kids#1" = true ∧ boundedStr "Kids 1" = true ∧ "Kids#1" ≠ "Kids 1" ∧
      ∀ k : RoomTopic, k.topic asciiPlatform "wavr" "Kids#1" = k.topic asciiPlatform "wavr" "Kids 1" := by
  refine ⟨by decide, by decide, by decide, fun k => ?_⟩
  exact topic_inj.mpr ⟨rfl, by decide⟩

end Wavr.MqttTopics
