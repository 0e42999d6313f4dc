import BG96Driver.Mqtt.Delivery
import BG96Driver.Mqtt.Topic

/-!
# The rewritten topic of a message, and `matchTopic`

`mqtt_checkAvail` replaces what is after the last `/` of the topic in `mqtt_topic` by `#`, and
`matchTopic` erases what is after the last `/` of its copies. A byte of the array is a character.

* `rewritten`: the topic that `mqtt_checkAvail` leaves (`storeMessage_topic`).
* `rewriting_matches`: it matches the same topics as the one that was received.
-/

namespace Bg96.Delivery

open CString

/-- A string of an array as characters. -/
def chars (s : List UInt8) : List Char := s.map Char.ofUInt8

/-- The topic with `#` after its last `/`. -/
def rewritten (topic : List UInt8) : List UInt8 :=
  (topic.reverse.dropWhile (· ≠ slash)).reverse ++ [hash]

variable {s t u v : List UInt8}

theorem ofUInt8_inj {a b : UInt8} (h : Char.ofUInt8 a = Char.ofUInt8 b) : a = b := by
  have hval : a.toUInt32 = b.toUInt32 := congrArg Char.val h
  have hnat : a.toUInt32.toNat = b.toUInt32.toNat := congrArg UInt32.toNat hval
  rw [UInt8.toNat_toUInt32, UInt8.toNat_toUInt32] at hnat
  exact UInt8.toNat_inj.mp hnat

theorem mem_chars {b : UInt8} : Char.ofUInt8 b ∈ chars s ↔ b ∈ s := by
  refine ⟨fun h => ?_, List.mem_map_of_mem⟩
  obtain ⟨c, hc, heq⟩ := List.mem_map.mp h
  exact ofUInt8_inj heq ▸ hc

theorem slash_mem_chars : '/' ∈ chars s ↔ slash ∈ s := mem_chars (b := slash)

theorem nul_mem_chars : Bg96.nul ∈ chars s ↔ CString.nul ∈ s := mem_chars (b := CString.nul)

theorem rewritten_append (u : List UInt8) (hv : slash ∉ v) :
    rewritten (u ++ slash :: v) = u ++ [slash, hash] := by
  have hpos : ∀ b ∈ v.reverse, decide (b ≠ slash) = true := fun b hb => by
    simpa using ne_of_mem_of_not_mem (List.mem_reverse.mp hb) hv
  rw [rewritten, List.reverse_append, List.reverse_cons, List.append_assoc,
    List.dropWhile_append_of_pos hpos]
  simp

/-- The last slash of a topic. -/
theorem exists_lastSlash (h : slash ∈ t) : ∃ u v, t = u ++ slash :: v ∧ slash ∉ v := by
  cases hlast : strrchr slash t with
  | none => exact absurd h (strrchr_eq_none.mp hlast)
  | some k =>
    obtain ⟨u, v, ht, hv, -⟩ := strrchr_eq_some hlast
    exact ⟨u, v, ht, hv⟩

theorem rewritten_rewritten (h : slash ∈ t) : rewritten (rewritten t) = rewritten t := by
  obtain ⟨u, v, rfl, hv⟩ := exists_lastSlash h
  have hhash : slash ∉ [hash] := by decide
  rw [rewritten_append u hv, rewritten_append u hhash]

/-- The rewriting keeps what `matchTopic` compares. -/
theorem uptoSlash_rewritten (h : slash ∈ t) :
    uptoSlash (chars (rewritten t)) = uptoSlash (chars t) := by
  have hupto {w : List UInt8} (hw : slash ∉ w) (u : List UInt8) :
      uptoSlash (chars (u ++ slash :: w)) = chars u ++ ['/'] := by
    have hchars : chars (u ++ slash :: w) = chars u ++ '/' :: chars w := List.map_append
    rw [hchars, uptoSlash_append _ (mt slash_mem_chars.mp hw)]
  obtain ⟨u, v, rfl, hv⟩ := exists_lastSlash h
  rw [rewritten_append u hv, hupto hv, hupto (w := [hash]) (by decide)]

/-- A string of an array with a slash is a topic. -/
def topicOf (t : List UInt8) (hnul : CString.nul ∉ t) (h : slash ∈ t) : Topic :=
  ⟨chars t, mt nul_mem_chars.mp hnul, slash_mem_chars.mpr h⟩

theorem rewritten_ok (hnul : CString.nul ∉ t) (h : slash ∈ t) :
    CString.nul ∉ rewritten t ∧ slash ∈ rewritten t := by
  obtain ⟨u, v, rfl, hv⟩ := exists_lastSlash h
  rw [rewritten_append u hv]
  refine ⟨?_, List.mem_append_right u List.mem_cons_self⟩
  rw [List.mem_append, not_or]
  exact ⟨fun hmem => hnul (List.mem_append_left _ hmem), by decide⟩

/-- The rewritten topic matches the same topics. -/
theorem matchTopic_rewritten (s : Topic) (hnul : CString.nul ∉ t) (h : slash ∈ t) :
    matchTopic s.chars (chars (rewritten t)) = matchTopic s.chars (chars t) := by
  obtain ⟨hnul', h'⟩ := rewritten_ok hnul h
  have hpath : (topicOf (rewritten t) hnul' h').path = (topicOf t hnul h).path :=
    uptoSlash_rewritten h
  have hrewritten := matchTopic_eq s (topicOf (rewritten t) hnul' h')
  rw [hpath] at hrewritten
  exact hrewritten.trans (matchTopic_eq s (topicOf t hnul h)).symm

theorem matchTopic_equivalence :
    Equivalence fun s t : Topic => matchTopic s.chars t.chars = some true := by
  have hiff (s t : Topic) : matchTopic s.chars t.chars = some true ↔ s.path = t.path := by
    rw [matchTopic_eq, Option.some_inj, decide_eq_true_iff]
  exact ⟨fun s => (hiff s s).mpr rfl, fun h => (hiff _ _).mpr ((hiff _ _).mp h).symm,
    fun h h' => (hiff _ _).mpr (((hiff _ _).mp h).trans ((hiff _ _).mp h'))⟩

/-! ## The array -/

variable {n : Nat} {a : CharArray n}

/-- The stores of the rewriting, where the rewritten topic fits. -/
theorem replaceEnd_rewritten (ht : a.Holds t) (h : slash ∈ t) (hfits : (rewritten t).length < n) :
    ∃ a', replaceEnd a = some a' ∧ a'.Holds (rewritten t) := by
  have hlast : ¬ (t.length + 1 = n ∧ t.getLast? = some slash) := by
    rintro ⟨hlen, hend⟩
    obtain ⟨u, rfl⟩ : ∃ u, t = u ++ [slash] := List.getLast?_eq_some_iff.mp hend
    rw [rewritten_append u List.not_mem_nil] at hfits
    simp only [List.length_append, List.length_cons, List.length_nil] at hlen hfits
    omega
  obtain ⟨a', ha'⟩ := Option.isSome_iff_exists.mp ((replaceEnd_isSome ht).mpr ⟨h, hlast⟩)
  obtain ⟨u, v, rfl, hv, hholds⟩ := replaceEnd_eq_some ht ha'
  exact ⟨a', ha', by rwa [rewritten_append u hv]⟩

/-- What `mqtt_checkAvail` leaves in `mqtt_topic` when it receives a message for the client. -/
theorem storeMessage_topic {mqttId : Int} {b b' : Buffers} {topic payload : List UInt8}
    {o : Option MqttMessage}
    (h : storeMessage mqttId b mqttId topic payload = some (b', o)) :
    b'.topic.Holds (rewritten (upToNul topic)) := by
  obtain ⟨t, ht, h⟩ := Option.bind_eq_some_iff.mp h
  obtain ⟨p, -, h⟩ := Option.bind_eq_some_iff.mp h
  rw [if_pos rfl] at h
  obtain ⟨p', -, h⟩ := Option.bind_eq_some_iff.mp h
  obtain ⟨t', ht', h⟩ := Option.bind_eq_some_iff.mp h
  obtain ⟨u, v, htopic, hv, hholds⟩ := replaceEnd_eq_some (CharArray.holds_storeString ht) ht'
  cases h
  rwa [htopic, rewritten_append u hv]

/-- **The rewriting of a received topic.** If it fits, what `mqtt_checkAvail` leaves in `mqtt_topic`
matches the topics that the received topic matches, and is not changed by another rewriting;
`matchTopic` is an equivalence of topics with a slash. -/
theorem rewriting_matches {mqttTopic : CharArray 256} (ht : mqttTopic.Holds t) (h : slash ∈ t)
    (hfits : (rewritten t).length < 256) :
    (∃ a, replaceEnd mqttTopic = some a ∧
      (∀ mqttId b payload b' o, storeMessage mqttId b mqttId t payload = some (b', o) →
        b'.topic.string 0 = a.string 0) ∧
      (∀ s : Topic, matchTopic s.chars (chars (a.string 0)) = matchTopic s.chars (chars t)) ∧
      ∃ a', replaceEnd a = some a' ∧ a'.string 0 = a.string 0) ∧
    Equivalence fun s t : Topic => matchTopic s.chars t.chars = some true := by
  refine ⟨?_, matchTopic_equivalence⟩
  obtain ⟨a, ha, hholds⟩ := replaceEnd_rewritten ht h hfits
  have hslash := (rewritten_ok ht.1 h).2
  have hagain := rewritten_rewritten h
  obtain ⟨a', ha', hholds'⟩ := replaceEnd_rewritten hholds hslash (by rwa [hagain])
  refine ⟨a, ha, fun mqttId b payload b' o hstore => ?_, fun s => ?_, a', ha', ?_⟩
  · have hleft := storeMessage_topic hstore
    rw [upToNul_eq ht.1] at hleft
    rw [hleft.string_zero, hholds.string_zero]
  · rw [hholds.string_zero, matchTopic_rewritten s ht.1 h]
  · rw [hholds'.string_zero, hholds.string_zero, hagain]

/-- `mqtt_topic` with the topic `a/b`. -/
def receivedAb : CharArray 256 where
  chars := [97, slash, 98] ++ CString.nul :: List.replicate 252 CString.nul
  length_eq := by rw [List.length_append, ← List.replicate_succ, List.length_replicate]; rfl

theorem rewriting_matches_ab : ∃ a, replaceEnd receivedAb = some a ∧
    ∀ s : Topic, matchTopic s.chars (chars (a.string 0)) = matchTopic s.chars ['a', '/', 'b'] := by
  have hholds : receivedAb.Holds [97, slash, 98] := ⟨by decide, _, rfl⟩
  obtain ⟨a, ha, -, hmatch, -⟩ := (rewriting_matches hholds (by decide) (by decide)).1
  exact ⟨a, ha, hmatch⟩

end Bg96.Delivery
