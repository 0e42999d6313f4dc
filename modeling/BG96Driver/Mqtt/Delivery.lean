import BG96Driver.Lib.CString
import BG96Driver.Modem.Broker
import BG96Driver.Modem.Serial

/-!
# `BG96::mqtt_recv`: the buffers of a message

A line with a message is scanned into two arrays, and the message is what they hold after the quotes
are stripped and the end of the topic is replaced. The stores are not checked.

* `storeMessage`: the stores of `mqtt_checkAvail`, and the message.
* `mqttRecv`: what is done with what the module has sent.
* `stores_inside_iff`: all stores are inside the arrays if and only if the topic and the payload of
  the line fit, and the topic has a `/` after which there is room.
* `mqttRecv_unspaced`: a message without white space is received, and its length is one too large.
* `payload_never_delivered`: no message is received with its payload and the length of it.
-/

namespace Bg96.Delivery

open Program Scanf CString Modem

/-! ## The stores -/

/-- `mqtt_topic` and `mqtt_payload`. -/
structure Buffers where
  topic : CharArray 256
  payload : CharArray 1548

/-- The arrays at the start. -/
def Buffers.zero : Buffers :=
  ⟨⟨List.replicate 256 nul, List.length_replicate⟩,
    ⟨List.replicate 1548 nul, List.length_replicate⟩⟩

/-- The members of `MQTTMessage` that `mqtt_checkAvail` sets, with the strings they point to. -/
structure MqttMessage where
  topic : List UInt8
  topicLen : Nat
  msg : List UInt8
  msgLen : Nat
  deriving DecidableEq

def slash : UInt8 := 47

def hash : UInt8 := 35

/-- The last quote of `mqtt_payload` is stripped. -/
def stripQuote {n : Nat} (payload : CharArray n) : Option (CharArray n) :=
  payload.store ((payload.string 0).length - 1 : Int) nul

/-- What is after the last `/` of `mqtt_topic` is replaced. `strrchr` gives `NULL` if there is no
`/`. -/
def replaceEnd {n : Nat} (topic : CharArray n) : Option (CharArray n) := do
  let lastslash ← strrchr slash (topic.string 0)
  let topic ← topic.store (lastslash + 1 : Nat) hash
  topic.store (lastslash + 2 : Nat) nul

/-- The stores of `BG96::mqtt_checkAvail` for a line with these fields; `none` if one is not in its
array. -/
def storeMessage (mqttId : Int) (b : Buffers) (id : Int) (topic payload : List UInt8) :
    Option (Buffers × Option MqttMessage) := do
  let topic ← b.topic.storeString 0 topic
  let payload ← b.payload.storeString 0 payload
  if id = mqttId then
    let payload ← stripQuote payload
    let topic ← replaceEnd topic
    return (⟨topic, payload⟩, some {
      topic := topic.string 0
      topicLen := (topic.string 0).length
      msg := payload.string 1
      msgLen := (payload.string 0).length })
  else return (⟨topic, payload⟩, none)

/-- `BG96::mqtt_recv`, when the module has sent `unread`. -/
def mqttRecv (mqttId : Int) (b : Buffers) (unread : List UInt8) :
    Option (Buffers × Option MqttMessage) :=
  match (read true (format qmtrecv.text) [] unread).1 with
  | some [.number id, .number _, .text topic, .text payload] =>
    storeMessage mqttId b id topic payload
  | _ => some (b, none)

variable {mqttId id : Int} {b b' : Buffers} {topic payload unread : List UInt8}
  {o : Option MqttMessage} {m : MqttMessage}

section Stores

variable {n : Nat} {a a' : CharArray n} {s : List UInt8}

theorem stripQuote_isSome (h : a.Holds s) : (stripQuote a).isSome = true ↔ s ≠ [] := by
  have hlen := h.length_lt
  rw [stripQuote, h.string_zero, CharArray.store_isSome, ← List.length_pos_iff]
  omega

theorem stripQuote_eq_some (h : a.Holds s) (hstrip : stripQuote a = some a') :
    ∃ w c, s = w ++ [c] ∧ a'.Holds w ∧ a'.string 1 = w.drop 1 := by
  have hne : s ≠ [] := (stripQuote_isSome h).mp (Option.isSome_of_eq_some hstrip)
  obtain ⟨w, c, rfl⟩ := (List.eq_nil_or_concat' s).resolve_left hne
  rw [stripQuote, h.string_zero, List.length_append, List.length_singleton] at hstrip
  rw [show ((w.length + 1 : Nat) : Int) - 1 = w.length by omega] at hstrip
  exact ⟨w, c, rfl, h.store_last hstrip⟩

/-- There is room after the last `/`. -/
theorem replaceEnd_isSome (h : a.Holds s) : (replaceEnd a).isSome = true ↔
    slash ∈ s ∧ ¬ (s.length + 1 = n ∧ s.getLast? = some slash) := by
  have hlen := h.length_lt
  rw [replaceEnd, h.string_zero]
  cases hlast : strrchr slash s with
  | none =>
    refine iff_of_false Bool.false_ne_true ?_
    exact fun hs => strrchr_eq_none.mp hlast hs.1
  | some k =>
    obtain ⟨u, v, rfl, hv, rfl⟩ := strrchr_eq_some hlast
    rw [List.length_append, List.length_cons] at hlen ⊢
    obtain ⟨a₁, h₁⟩ : ∃ a₁, a.store (u.length + 1 : Nat) hash = some a₁ :=
      Option.isSome_iff_exists.mp (CharArray.store_isSome.mpr (by omega))
    rw [Option.bind_eq_bind, Option.bind_some, h₁, Option.bind_eq_bind, Option.bind_some,
      CharArray.store_isSome, and_iff_right (List.mem_append_right u List.mem_cons_self)]
    cases v with
    | nil =>
      rw [List.length_nil] at hlen
      rw [List.length_nil, List.getLast?_concat, and_iff_left rfl]
      omega
    | cons c v =>
      have hnot : (u ++ slash :: c :: v).getLast? ≠ some slash := by
        rw [List.getLast?_append_cons, List.getLast?_cons_cons]
        exact fun heq => hv (List.mem_of_getLast? heq)
      rw [List.length_cons] at hlen
      exact iff_of_true (by omega) fun hend => hnot hend.2

theorem replaceEnd_eq_some (h : a.Holds s) (hreplace : replaceEnd a = some a') :
    ∃ u v, s = u ++ slash :: v ∧ slash ∉ v ∧ a'.Holds (u ++ [slash, hash]) := by
  obtain ⟨k, hlast, hstores⟩ := Option.bind_eq_some_iff.mp hreplace
  obtain ⟨a₁, h₁, h₂⟩ := Option.bind_eq_some_iff.mp hstores
  rw [h.string_zero] at hlast
  obtain ⟨u, v, rfl, hv, rfl⟩ := strrchr_eq_some hlast
  refine ⟨u, v, rfl, hv, ?_⟩
  rw [← List.singleton_append, ← List.append_assoc] at h
  rw [← List.length_singleton (a := slash), ← List.length_append] at h₁
  rw [show [slash, hash] = [slash] ++ [hash] from rfl, ← List.append_assoc]
  refine h.store_end (by decide) h₁ ?_
  rw [List.length_append, List.length_append]
  exact h₂

end Stores

/-- The arrays have room for the topic and the payload, and for what is written after the last
`/`. -/
def Fits (mqttId id : Int) (topic payload : List UInt8) : Prop :=
  topic.length ≤ 255 ∧ payload.length ≤ 1547 ∧ (id = mqttId →
    slash ∈ upToNul topic ∧
      ¬ ((upToNul topic).length = 255 ∧ (upToNul topic).getLast? = some slash))

theorem storeMessage_isSome (hpayload : upToNul payload ≠ []) :
    (storeMessage mqttId b id topic payload).isSome = true ↔ Fits mqttId id topic payload := by
  have htopic := CharArray.storeString_isSome (a := b.topic) (k := 0) (s := topic)
  have hpay := CharArray.storeString_isSome (a := b.payload) (k := 0) (s := payload)
  unfold storeMessage Fits
  cases ht : b.topic.storeString 0 topic with
  | none =>
    rw [ht] at htopic
    refine iff_of_false Bool.false_ne_true fun hfits => ?_
    exact Bool.false_ne_true (htopic.mpr (by omega))
  | some t =>
    rw [ht] at htopic
    have hle := htopic.mp rfl
    cases hp : b.payload.storeString 0 payload with
    | none =>
      rw [hp] at hpay
      refine iff_of_false Bool.false_ne_true fun hfits => ?_
      exact Bool.false_ne_true (hpay.mpr (by omega))
    | some p =>
      rw [hp] at hpay
      have hle' := hpay.mp rfl
      rw [Option.bind_eq_bind, Option.bind_some, Option.bind_eq_bind, Option.bind_some,
        and_iff_right (by omega), and_iff_right (by omega)]
      by_cases hid : id = mqttId
      · rw [if_pos hid]
        have hroom := replaceEnd_isSome (CharArray.holds_storeString ht)
        obtain ⟨p', hp'⟩ := Option.isSome_iff_exists.mp
          ((stripQuote_isSome (CharArray.holds_storeString hp)).mpr hpayload)
        rw [hp', Option.bind_some, imp_iff_right hid]
        cases hr : replaceEnd t with
        | none =>
          rw [hr] at hroom
          refine iff_of_false Bool.false_ne_true fun hfits => ?_
          refine Bool.false_ne_true (hroom.mpr ⟨hfits.1, fun hend => hfits.2 ⟨?_, hend.2⟩⟩)
          omega
        | some t' =>
          rw [hr] at hroom
          obtain ⟨hslash, hend⟩ := hroom.mp rfl
          refine iff_of_true rfl ⟨hslash, fun hlast => hend ⟨?_, hlast.2⟩⟩
          omega
      · rw [if_neg hid]
        exact iff_of_true rfl fun heq => absurd heq hid

/-- The message: its payload has no first and no last character, its length has the first one, and
its topic has another end. -/
theorem storeMessage_eq_some (h : storeMessage mqttId b id topic payload = some (b', some m)) :
    ∃ u v w c, upToNul topic = u ++ slash :: v ∧ slash ∉ v ∧ upToNul payload = w ++ [c] ∧
      m = ⟨u ++ [slash, hash], u.length + 2, w.drop 1, w.length⟩ := by
  obtain ⟨t, ht, h⟩ := Option.bind_eq_some_iff.mp h
  obtain ⟨p, hp, h⟩ := Option.bind_eq_some_iff.mp h
  split at h
  · obtain ⟨p', hp', h⟩ := Option.bind_eq_some_iff.mp h
    obtain ⟨t', ht', h⟩ := Option.bind_eq_some_iff.mp h
    obtain ⟨u, v, htopic, hv, hholds⟩ := replaceEnd_eq_some (CharArray.holds_storeString ht) ht'
    obtain ⟨w, c, hpayload, hholds', hmsg⟩ :=
      stripQuote_eq_some (CharArray.holds_storeString hp) hp'
    cases h
    refine ⟨u, v, w, c, htopic, hv, hpayload, ?_⟩
    rw [hholds.string_zero, hholds'.string_zero, hmsg, List.length_append]
    rfl
  · cases h

/-! ## The line of a message -/

/-- The directives of `qmtrecv`. -/
def qmtrecvDirectives : List Directive :=
  (bytes "+QMTRECV:").map .lit ++ [.space, .number true 10 32, .lit 44, .number true 10 32,
    .lit 44, .lit 34, .set (some 256) [34], .lit 34, .lit 44, .word, .space]

theorem format_qmtrecv : format qmtrecv.text = qmtrecvDirectives := by decide

/-- What the pattern takes from a line: the payload is a word. -/
theorem matched_qmtrecv {line : List UInt8} {fs : List Field}
    (h : matched (format qmtrecv.text) line = some fs) : ∃ id mid topic word,
      fs = [.number id, .number mid, .text topic, .text word] ∧ word ≠ [] ∧
        ∀ b ∈ word, inWord b = true := by
  rw [format_qmtrecv, matched] at h
  split at h
  · rename_i hscan
    cases h
    obtain ⟨_, h₁⟩ := of_scan_lits hscan
    obtain ⟨_, h₂⟩ := of_scan_space h₁
    obtain ⟨id, _, _, rfl, h₃⟩ := of_scan_number h₂
    obtain ⟨_, h₄⟩ := of_scan_lit h₃
    obtain ⟨mid, _, _, rfl, h₅⟩ := of_scan_number h₄
    obtain ⟨_, h₆⟩ := of_scan_lit h₅
    obtain ⟨_, h₇⟩ := of_scan_lit h₆
    obtain ⟨topic, _, _, rfl, h₈⟩ := of_scan_set h₇
    obtain ⟨_, h₉⟩ := of_scan_lit h₈
    obtain ⟨_, h₁₀⟩ := of_scan_lit h₉
    obtain ⟨word, _, _, rfl, hword, h₁₁⟩ := of_scan_word h₁₀
    obtain ⟨_, hend⟩ := of_scan_space h₁₁
    cases hend
    exact ⟨id, mid, topic, word, rfl, hword⟩
  · cases h

/-- The first line that is matched has these fields. -/
def Carries (unread : List UInt8) (id : Int) (topic word : List UInt8) : Prop :=
  ∃ mid, (read true (format qmtrecv.text) [] unread).1 =
    some [.number id, .number mid, .text topic, .text word]

theorem Carries.mqttRecv_eq (h : Carries unread id topic payload) :
    mqttRecv mqttId b unread = storeMessage mqttId b id topic payload := by
  obtain ⟨mid, h⟩ := h
  rw [mqttRecv, h]

/-- A message is in a line, or there is none. -/
theorem carries_or (mqttId : Int) (b : Buffers) (unread : List UInt8) :
    (∃ id topic word, Carries unread id topic word ∧ upToNul word ≠ []) ∨
      (∀ id topic word, ¬ Carries unread id topic word) ∧
        mqttRecv mqttId b unread = some (b, none) := by
  cases h : (read true (format qmtrecv.text) [] unread).1 with
  | none =>
    refine .inr ⟨?_, by rw [mqttRecv, h]⟩
    rintro id topic word ⟨mid, hread⟩
    rw [h] at hread
    cases hread
  | some fs =>
    obtain ⟨line, hmatched⟩ := read_matched h
    obtain ⟨id, mid, topic, word, rfl, hne, hword⟩ := matched_qmtrecv hmatched
    refine .inl ⟨id, topic, word, ⟨mid, h⟩, ?_⟩
    rwa [upToNul_eq fun hmem => absurd (hword _ hmem) (by decide)]

/-- `mqttCheckAvail` gives the fields as they are received. -/
theorem wp_mqttCheckAvail {checksum : List UInt8 → Nat} {mayRefuse : Format → Prop} {T : Prop}
    {s : Storage} (h : Carries s.unread id topic payload) :
    wp (serial checksum mayRefuse) T (fun r _ => r = if id = mqttId then
      some (strAt [fieldValue (.text topic)] 0, strAt [fieldValue (.text payload)] 0) else none)
      (mqttCheckAvail mqttId) s := by
  obtain ⟨mid, hread⟩ := h
  have hreceived : (received qmtrecv s.unread).1 =
      some [.int id, .int mid, fieldValue (.text topic), fieldValue (.text payload)] := by
    have hwhole : decide ((bytes qmtrecv.text).getLast? = some lf) = true := by decide
    rw [received, hwhole, hread]
    rfl
  rw [mqttCheckAvail, wp_bind]
  refine wp_serial_locked (wp_serial_timed ?_)
  rintro r s' ⟨rfl, rfl⟩
  rw [hreceived]
  exact rfl

/-! ## The buffers -/

/-- **The buffers.** All stores are inside the arrays if and only if the message that is matched
fits. -/
theorem stores_inside_iff (mqttId : Int) (b : Buffers) (unread : List UInt8) :
    (mqttRecv mqttId b unread).isSome = true ↔
      ∀ id topic word, Carries unread id topic word → Fits mqttId id topic word := by
  rcases carries_or mqttId b unread with ⟨id, topic, word, hcarries, hword⟩ | ⟨hnone, hrecv⟩
  · rw [hcarries.mqttRecv_eq, storeMessage_isSome hword]
    constructor
    · rintro hfits id' topic' word' ⟨mid', hcarries'⟩
      obtain ⟨mid, hcarries⟩ := hcarries
      rw [hcarries] at hcarries'
      cases hcarries'
      exact hfits
    · exact fun h => h id topic word hcarries
  · rw [hrecv]
    exact iff_of_true rfl fun id topic word hcarries => absurd hcarries (hnone id topic word)

/-! ## Messages that arrive -/

/-- The line of a message. -/
def messageLine (id mid : Nat) (topic payload : List UInt8) : List UInt8 :=
  bytes "+QMTRECV:" ++ 32 :: (numeral 10 id ++ 44 :: (numeral 10 mid ++ 44 :: 34 ::
    (topic ++ 34 :: 44 :: (34 :: payload ++ [34]))))

/-- A topic that stands between the quotes of a line, and that the pattern takes. -/
structure Quoted (topic : List UInt8) : Prop where
  ne_nil : topic ≠ []
  length_le : topic.length ≤ 256
  no_quote : 34 ∉ topic
  no_lf : lf ∉ topic

variable {l rest : List UInt8}

/-- The pattern goes with the line up to the payload, which keeps its quotes. -/
theorem scan_messageLine (id mid : Nat) (htopic : Quoted topic) (payload : List UInt8) :
    scan qmtrecvDirectives (messageLine id mid topic payload ++ [cr, lf]) =
      (scan [.word, .space] ((34 :: payload ++ [34]) ++ [cr, lf])).map fun f =>
        (.number id :: .number mid :: .text topic :: f.1, f.2) := by
  have hdigit (n : Nat) : ∀ b ∈ numeral 10 n, isDigit 10 b = true :=
    isDigit_numeral (by decide) (by decide) n
  have hvalue (n : Nat) : valueOf 10 (numeral 10 n) = n :=
    valueOf_numeral (by decide) (by decide) n
  have hline : messageLine id mid topic payload ++ [cr, lf] = bytes "+QMTRECV:" ++ ([32] ++
      (numeral 10 id ++ 44 :: (numeral 10 mid ++ 44 :: 34 ::
        (topic ++ 34 :: 44 :: ((34 :: payload ++ [34]) ++ [cr, lf]))))) := by
    simp [messageLine]
  have hhead (r : List UInt8) : ∀ b ∈ (numeral 10 id ++ r).head?, isSpace b = false := by
    intro b hb
    rw [List.head?_append_of_ne_nil _ (numeral_ne_nil 10 id)] at hb
    exact isSpace_of_isDigit (hdigit id b (List.mem_of_mem_head? hb))
  have hquote : ∀ c ∈ topic, c ∉ [(34 : UInt8)] := fun c hc => by
    simpa using fun heq : c = 34 => htopic.no_quote (heq ▸ hc)
  rw [hline, qmtrecvDirectives, scan_lits,
    scan_space _ (List.forall_mem_singleton.mpr rfl) (hhead _),
    scan_number _ _ _ (numeral_ne_nil 10 id) (hdigit id) (by rintro _ ⟨⟩; rfl), scan, if_pos rfl,
    scan_number _ _ _ (numeral_ne_nil 10 mid) (hdigit mid) (by rintro _ ⟨⟩; rfl), scan, if_pos rfl,
    scan, if_pos rfl,
    scan_set _ htopic.ne_nil htopic.length_le hquote (by rintro _ ⟨⟩; decide),
    scan, if_pos rfl, scan, if_pos rfl, hvalue, hvalue]
  simp only [Option.map_map]
  rfl

/-- A line whose payload has no white space is matched. -/
theorem matched_messageLine (id mid : Nat) (htopic : Quoted topic)
    (hpayload : ∀ b ∈ payload, inWord b = true) :
    matched qmtrecvDirectives (messageLine id mid topic payload ++ [cr, lf]) =
      some [.number id, .number mid, .text topic, .text (34 :: payload ++ [34])] := by
  have hword : ∀ b ∈ 34 :: payload ++ [34], inWord b = true := by
    intro b hb
    simp only [List.cons_append, List.mem_cons, List.mem_append, List.not_mem_nil, or_false] at hb
    rcases hb with rfl | hb | rfl
    · rfl
    · exact hpayload b hb
    · rfl
  rw [matched, scan_messageLine id mid htopic, scan_word _ (by simp) hword (by rintro _ ⟨⟩; rfl)]
  rfl

/-- A line whose payload has white space is not matched: its last quote is not in the word. -/
theorem matched_messageLine_none (id mid : Nat) (htopic : Quoted topic)
    (hpayload : ¬ ∀ b ∈ payload, inWord b = true) :
    matched qmtrecvDirectives (messageLine id mid topic payload ++ [cr, lf]) = none := by
  obtain ⟨p, c, q, rfl, hp, hc⟩ : ∃ p c q, payload = p ++ c :: q ∧
      (∀ b ∈ p, inWord b = true) ∧ inWord c = false := by
    have hsplit := List.takeWhile_append_dropWhile (p := inWord) (l := payload)
    cases hd : payload.dropWhile inWord with
    | nil => exact absurd (List.dropWhile_eq_nil_iff.mp hd) hpayload
    | cons c q =>
      have hhead := List.head?_dropWhile_not inWord payload
      rw [hd] at hhead
      exact ⟨_, c, q, by rw [← hd, hsplit], fun b => List.mem_takeWhile_imp, hhead⟩
  have hword : ∀ b ∈ 34 :: p, inWord b = true := List.forall_mem_cons.mpr ⟨rfl, hp⟩
  have hcut : (34 :: (p ++ c :: q) ++ [34]) ++ [cr, lf] =
      (34 :: p) ++ (c :: q ++ [34, cr, lf]) := by simp
  have hrest : (c :: q ++ [34, cr, lf]).dropWhile isSpace ≠ [] := by
    intro hnil
    have hspace := List.dropWhile_eq_nil_iff.mp hnil 34 (by simp)
    exact absurd hspace (by decide)
  rw [matched, scan_messageLine id mid htopic, hcut, scan_word _ (by simp) hword
    (by rintro _ ⟨⟩; exact hc), scan]
  cases hd : (c :: q ++ [34, cr, lf]).dropWhile isSpace with
  | nil => exact absurd hd hrest
  | cons d r => rfl

theorem lf_not_mem_messageLine (id mid : Nat) (htopic : Quoted topic) (hpayload : lf ∉ payload) :
    lf ∉ messageLine id mid topic payload := by
  have hname : lf ∉ bytes "+QMTRECV:" := by decide
  have hnumber (n : Nat) : lf ∉ numeral 10 n :=
    not_mem_numeral (by decide) (by decide) (by decide) n
  have h32 : lf ≠ 32 := by decide
  have h34 : lf ≠ 34 := by decide
  have h44 : lf ≠ 44 := by decide
  simp only [messageLine, List.cons_append, List.mem_append, List.mem_cons, List.not_mem_nil,
    not_or, or_false]
  exact ⟨hname, h32, hnumber id, h44, hnumber mid, h44, h34, htopic.no_lf, h34, h44, h34,
    hpayload, h34⟩

/-- What the module sends: a message, after anything without a `+`. -/
def arrival (l : List UInt8) (id mid : Nat) (topic payload rest : List UInt8) : List UInt8 :=
  l ++ (answerLine (messageLine id mid topic payload) ++ rest)

/-- A message without white space is carried. -/
theorem carries_arrival (id mid : Nat) (htopic : Quoted topic)
    (hpayload : ∀ b ∈ payload, inWord b = true) (hl : 43 ∉ l) :
    Carries (arrival l id mid topic payload rest) id topic (34 :: payload ++ [34]) := by
  have hlf : lf ∉ payload := fun hmem => absurd (hpayload lf hmem) (by decide)
  have hread := read_answerLine qmtrecvDirectives.tail 43 (by decide) (by decide) hl
    (lf_not_mem_messageLine id mid htopic hlf) (matched_messageLine id mid htopic hpayload) rest
  refine ⟨mid, ?_⟩
  rw [format_qmtrecv]
  exact congrArg Prod.fst hread

theorem nul_not_mem_quoted (hpayload : ∀ b ∈ payload, inWord b = true) :
    nul ∉ 34 :: payload ++ [34] := by
  have hnul : nul ∉ payload := fun hmem => absurd (hpayload nul hmem) (by decide)
  have h34 : nul ≠ 34 := by decide
  simp [hnul, h34]

/-- The stores for a message without white space. -/
theorem stores_inside_arrival (id mid : Nat) (htopic : Quoted topic)
    (hpayload : ∀ b ∈ payload, inWord b = true) (hl : 43 ∉ l) :
    (mqttRecv mqttId b (arrival l id mid topic payload rest)).isSome = true ↔
      Fits mqttId id topic (34 :: payload ++ [34]) := by
  rw [(carries_arrival id mid htopic hpayload hl).mqttRecv_eq, storeMessage_isSome]
  rw [upToNul_eq (nul_not_mem_quoted hpayload)]
  exact List.cons_ne_nil _ _

/-- The topic has no `/`, so a `#` is written to the address after `NULL`. -/
theorem stores_inside_iff_no_slash :
    ¬ ∀ mqttId b unread, (mqttRecv mqttId b unread).isSome = true := by
  intro h
  have hquoted : Quoted (bytes "abc") := ⟨by decide, by decide, by decide, by decide⟩
  have hfits := (stores_inside_arrival 0 1 hquoted (List.forall_mem_nil _) (by decide)).mp
    (h (0 : Nat) .zero (arrival [] 0 1 (bytes "abc") [] []))
  exact absurd (hfits.2.2 rfl).1 (by decide)

/-! ## What is delivered -/

/-- The payload is the one that was sent, and the lengths are those of the strings. -/
def Delivered (payload : List UInt8) (m : MqttMessage) : Prop :=
  m.msg = payload ∧ m.msgLen = payload.length ∧ m.topicLen = m.topic.length

/-- A message without white space: the payload is the one that was sent, and its length is one too
large. -/
theorem mqttRecv_unspaced (id mid : Nat) (htopic : Quoted topic)
    (hpayload : ∀ b ∈ payload, inWord b = true) (hl : 43 ∉ l)
    (h : mqttRecv id b (arrival l id mid topic payload rest) = some (b', some m)) :
    m.msg = payload ∧ m.msgLen = payload.length + 1 ∧ m.topicLen = m.topic.length := by
  rw [(carries_arrival id mid htopic hpayload hl).mqttRecv_eq] at h
  obtain ⟨u, v, w, c, -, -, hw, rfl⟩ := storeMessage_eq_some h
  rw [upToNul_eq (nul_not_mem_quoted hpayload)] at hw
  obtain ⟨rfl, -⟩ := List.append_inj' hw rfl
  exact ⟨rfl, rfl, by simp⟩

/-- A message with white space is passed. -/
theorem mqttRecv_spaced (id mid : Nat) (htopic : Quoted topic) (hlf : lf ∉ payload)
    (hpayload : ¬ ∀ b ∈ payload, inWord b = true) (hl : 43 ∉ l) :
    mqttRecv mqttId b (arrival l id mid topic payload rest) = mqttRecv mqttId b rest := by
  have hread := read_answerLine_none qmtrecvDirectives.tail 43 (by decide) (by decide) hl
    (lf_not_mem_messageLine id mid htopic hlf) (matched_messageLine_none id mid htopic hpayload)
    rest
  have hfields : (read true (format qmtrecv.text) [] (arrival l id mid topic payload rest)).1 =
      (read true (format qmtrecv.text) [] rest).1 := by
    rw [format_qmtrecv]
    exact congrArg Prod.fst hread
  rw [mqttRecv, hfields]
  rfl

/-- The length of a payload that is received is one too large. -/
theorem mqttRecv_msgLen (h : mqttRecv mqttId b unread = some (b', some m)) (hne : m.msg ≠ []) :
    m.msgLen = m.msg.length + 1 := by
  rcases carries_or mqttId b unread with ⟨_, _, word, hcarries, -⟩ | ⟨-, hnone⟩
  · rw [hcarries.mqttRecv_eq] at h
    obtain ⟨u, v, w, c, -, -, -, rfl⟩ := storeMessage_eq_some h
    have hpos := List.length_pos_iff.mpr hne
    dsimp only at hpos ⊢
    rw [List.length_drop] at hpos ⊢
    omega
  · rw [hnone] at h
    cases h

/-- A topic of at most 200 characters with a `/`, without a quote. -/
structure TopicName (topic : List UInt8) : Prop where
  has_slash : slash ∈ topic
  length_le : topic.length ≤ 200
  no_quote : 34 ∉ topic
  no_lf : lf ∉ topic

theorem TopicName.quoted (h : TopicName topic) : Quoted topic where
  ne_nil := List.ne_nil_of_mem h.has_slash
  length_le := Nat.le_trans h.length_le (by decide)
  no_quote := h.no_quote
  no_lf := h.no_lf

/-- **Delivery.** No message is delivered: the quote before the payload is in the length of it. -/
theorem payload_never_delivered (id mid : Nat) (htopic : TopicName topic) (hl : 43 ∉ l) :
    ¬ ∃ b' m, mqttRecv id b (arrival l id mid topic payload rest) = some (b', some m) ∧
      Delivered payload m := by
  rintro ⟨b', m, hrecv, hmsg, hlen, -⟩
  by_cases hempty : payload = []
  · subst hempty
    obtain ⟨-, hone, -⟩ :=
      mqttRecv_unspaced id mid htopic.quoted (List.forall_mem_nil _) hl hrecv
    rw [hone] at hlen
    cases hlen
  · subst hmsg
    rw [mqttRecv_msgLen hrecv hempty] at hlen
    omega

theorem payload_never_delivered_text :
    ¬ ∃ b' m, mqttRecv (0 : Nat) .zero (arrival [] 0 1 (bytes "a/b") (bytes "hi") []) =
      some (b', some m) ∧ Delivered (bytes "hi") m :=
  payload_never_delivered 0 1 ⟨by decide, by decide, by decide, by decide⟩ (by decide)

/-- A character that is printed, and is no quote. -/
def printable (c : UInt8) : Bool := 32 ≤ c && c < 127 && c ≠ 34

/-- The length of `hi` is 3. -/
theorem payload_never_delivered_length : ¬ ∀ (id mid : Nat) b l topic payload rest,
    TopicName topic → payload.length ≤ 1000 → payload.all printable = true → 43 ∉ l →
      ∃ b' m, mqttRecv id b (arrival l id mid topic payload rest) = some (b', some m) ∧
        Delivered payload m := by
  intro h
  obtain ⟨b', m, hrecv, -, hlen, -⟩ := h 0 1 .zero [] (bytes "a/b") (bytes "hi") []
    ⟨by decide, by decide, by decide, by decide⟩ (by decide) (by decide) (by decide)
  have hquoted : Quoted (bytes "a/b") := ⟨by decide, by decide, by decide, by decide⟩
  have hword : (bytes "hi").all inWord = true := by decide
  have hthree := (mqttRecv_unspaced 0 1 hquoted (List.all_eq_true.mp hword) (by decide) hrecv).2.1
  rw [hlen] at hthree
  exact absurd hthree (by decide)

end Bg96.Delivery
