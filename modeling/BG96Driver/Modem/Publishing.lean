import BG96Driver.Modem.Broker
import BG96Driver.Modem.Sending

/-!
# What `BG96::mqtt_publish` reports, and what arrives

`sent` is set by the first `write` and again by the second one, any result of `write` but 0 passes
for a success, and the identifiers of the `+QMTPUB` line are not looked at. The payload ends with
the byte 0x1A, also if it has one before its end.

* `Published`: the module has taken the message and reported so. `Genuine`: the answers of which
  `mqtt_publish` makes no other success.
* `publish_honest_iff`: a success is of a message that was published if and only if the answers are
  genuine.
* `OnWire`: the bytes that are put on the wire. `takeMessage`: the message that the module takes.
* `payload_intact_iff`: the message is the payload if and only if it has no byte 0x1A, and the
  writes are complete.
-/

namespace Bg96.Modem

open Program

variable {mqttId msgId qos retain rc : Int} {topic : String} {data wire : List UInt8}
  {l said : List Exchange} {cmd : Format}

/-- The byte that ends a payload. -/
def ctrlZ : UInt8 := 0x1A

/-- The line that reports a published message. -/
def qmtpubReport : Format := ⟨"+QMTPUB: %d,%d,%d", []⟩

/-- Each `write` gives the number of its bytes. -/
def AllWritten (said : List Exchange) : Prop := ∀ d n, ⟨.write d, n⟩ ∈ said → n = (d.length : Int)

/-- The module has asked for the payload, got all of it and its end, and reported that this message
is published. -/
def Published (cmd : Format) (mqttId msgId : Int) (data : List UInt8) (said : List Exchange) :
    Prop :=
  ∃ p report, said = [⟨.send cmd, true⟩, ⟨.recv prompt, some p⟩,
      ⟨.write data, (data.length : Int)⟩, ⟨.write [ctrlZ], (1 : Int)⟩,
      ⟨.recv qmtpubReport, some report⟩] ∧
    intAt report 0 = mqttId ∧ intAt report 1 = msgId ∧ intAt report 2 = 0

/-- A report of a success comes after all the bytes, and is of this message. -/
def Genuine (mqttId msgId : Int) (said : List Exchange) : Prop :=
  ∀ report, ⟨.recv qmtpubReport, some report⟩ ∈ said → intAt report 2 = 0 →
    AllWritten said ∧ intAt report 0 = mqttId ∧ intAt report 1 = msgId

/-- What `mqtt_publish` makes of a report. -/
def publishResult : Option (List Value) → Int
  | some report => if intAt report 2 = 0 then 1 else -1
  | none => -1

/-- What is said in `mqtt_publish`, and what it returns. -/
inductive PublishCase (cmd : Format) (data : List UInt8) : List Exchange → Int → Prop where
  | refused : PublishCase cmd data [] (-1)
  | unsent : PublishCase cmd data [⟨.send cmd, false⟩] (-1)
  | unprompted : PublishCase cmd data [⟨.send cmd, true⟩, ⟨.recv prompt, none⟩] (-1)
  | unended (p : List Value) (n : Int) : PublishCase cmd data [⟨.send cmd, true⟩,
      ⟨.recv prompt, some p⟩, ⟨.write data, n⟩, ⟨.write [ctrlZ], (0 : Int)⟩] (-1)
  | ended (p : List Value) (n m : Int) (hm : m ≠ 0) (report : Option (List Value)) :
      PublishCase cmd data [⟨.send cmd, true⟩, ⟨.recv prompt, some p⟩, ⟨.write data, n⟩,
        ⟨.write [ctrlZ], m⟩, ⟨.recv qmtpubReport, report⟩] (publishResult report)

/-- What is said after the prompt. -/
theorem traces_publishData (h : Traces (publishData data) l (some rc)) (p : List Value) :
    PublishCase cmd data ([⟨.send cmd, true⟩, ⟨.recv prompt, some p⟩] ++ spoken l) rc := by
  obtain ⟨n, _, rfl, hend⟩ := traces_call.mp h
  obtain ⟨m, _, rfl, hrest⟩ := traces_call.mp hend
  rw [spoken_cons rfl, spoken_cons rfl]
  change Traces (if m ≠ 0 then _ else _) _ _ at hrest
  by_cases hm : m ≠ 0
  · rw [if_pos hm] at hrest
    obtain ⟨report, _, rfl, hret⟩ := traces_call.mp hrest
    have hcase : PublishCase cmd data _ _ := .ended p n m hm report
    cases report with
    | none =>
      obtain ⟨rfl, ⟨⟩⟩ := traces_ret.mp hret
      exact hcase
    | some report =>
      obtain ⟨rfl, ⟨⟩⟩ := traces_ret.mp hret
      exact hcase
  · rw [if_neg hm] at hrest
    obtain ⟨rfl, ⟨⟩⟩ := traces_ret.mp hrest
    obtain rfl : m = 0 := not_not.mp hm
    exact .unended p n

theorem traces_mqttPublish
    (h : Traces (mqttPublish mqttId msgId qos retain topic data) l (some rc)) :
    PublishCase (qmtpub mqttId msgId qos retain topic) data (spoken l) rc := by
  unfold mqttPublish at h
  split at h
  · obtain ⟨rfl, ⟨⟩⟩ := traces_ret.mp h
    exact .refused
  · obtain ⟨_, _, rfl, htimeout⟩ := traces_call.mp h
    obtain ⟨_, _, rfl, hbody⟩ := traces_call.mp htimeout
    rw [spoken_silent rfl, spoken_silent rfl]
    change Traces (peek _ prompt >>= _) _ _ at hbody
    obtain ⟨p, l₁, l₂, rfl, h₁, h₂⟩ := traces_bind_some.mp hbody
    have hpeek := traces_peek h₁
    rw [spoken_append]
    generalize spoken l₁ = said at hpeek
    cases hpeek with
    | unsent =>
      obtain ⟨rfl, ⟨⟩⟩ := traces_ret.mp h₂
      exact .unsent
    | sent p =>
      cases p with
      | none =>
        obtain ⟨rfl, ⟨⟩⟩ := traces_ret.mp h₂
        exact .unprompted
      | some p =>
        change Traces (publishData data >>= _) _ _ at h₂
        obtain ⟨rc, l₃, l₄, rfl, h₃, h₄⟩ := traces_bind_some.mp h₂
        obtain ⟨_, _, rfl, hunlock⟩ := traces_call.mp h₄
        obtain ⟨_, _, rfl, hret⟩ := traces_call.mp hunlock
        obtain ⟨rfl, ⟨⟩⟩ := traces_ret.mp hret
        rw [spoken_append, spoken_silent rfl, spoken_silent rfl, spoken_nil, List.append_nil]
        exact traces_publishData h₃ p

/-! ## A reported success -/

/-- The writes of a call that comes to the report. -/
theorem allWritten_ended {p : List Value} {n m : Int} {report : Option (List Value)} :
    AllWritten [⟨.send cmd, true⟩, ⟨.recv prompt, some p⟩, ⟨.write data, n⟩, ⟨.write [ctrlZ], m⟩,
      ⟨.recv qmtpubReport, report⟩] ↔ n = data.length ∧ m = 1 := by
  constructor
  · intro h
    exact ⟨h data n (by simp), h [ctrlZ] m (by simp)⟩
  · rintro ⟨rfl, rfl⟩ d k hmem
    simp only [List.mem_cons, Sigma.mk.injEq, reduceCtorEq, false_and, false_or,
      Call.write.injEq, List.not_mem_nil, or_false] at hmem
    rcases hmem with ⟨rfl, hk⟩ | ⟨rfl, hk⟩
    · exact eq_of_heq hk
    · exact eq_of_heq hk

/-- A success is reported after the end of the payload, on a report of a success. -/
theorem PublishCase.reported (h : PublishCase cmd data said rc) (hrc : 0 < rc) :
    ∃ p n m report, intAt report 2 = 0 ∧ said = [⟨.send cmd, true⟩, ⟨.recv prompt, some p⟩,
      ⟨.write data, n⟩, ⟨.write [ctrlZ], m⟩, ⟨.recv qmtpubReport, some report⟩] := by
  cases h with
  | refused | unsent | unprompted | unended => exact absurd hrc (by decide)
  | ended p n m hm report =>
    cases report with
    | none => exact absurd hrc (by decide)
    | some report =>
      change 0 < if intAt report 2 = 0 then (1 : Int) else -1 at hrc
      split at hrc
      · exact ⟨p, n, m, report, ‹_›, rfl⟩
      · exact absurd hrc (by decide)

/-- A report of a success is one that makes a success. -/
theorem PublishCase.success {report : List Value} (h : PublishCase cmd data said rc)
    (hmem : ⟨.recv qmtpubReport, some report⟩ ∈ said) (hreport : intAt report 2 = 0) : 0 < rc := by
  have hprompt : qmtpubReport ≠ prompt := by decide
  cases h with
  | refused => cases hmem
  | unsent | unprompted | unended => simp [hprompt] at hmem
  | ended p n m hm report' =>
    obtain rfl : some report = report' := by simpa [hprompt] using hmem
    rw [publishResult, if_pos hreport]
    decide

/-- **Truth of `mqtt_publish`.** A success is reported only for a message that was published if and
only if the answers are genuine. -/
theorem publish_honest_iff
    (h : Traces (mqttPublish mqttId msgId qos retain topic data) l (some rc)) :
    (0 < rc → Published (qmtpub mqttId msgId qos retain topic) mqttId msgId data (spoken l)) ↔
      Genuine mqttId msgId (spoken l) := by
  have hcase := traces_mqttPublish h
  constructor
  · intro hpublished report hmem hreport
    obtain ⟨p, report', hsaid, hid, hmid, -⟩ := hpublished (hcase.success hmem hreport)
    rw [hsaid] at hmem ⊢
    have hprompt : qmtpubReport ≠ prompt := by decide
    obtain rfl : report = report' := by simpa [hprompt] using hmem
    exact ⟨allWritten_ended.mpr ⟨rfl, rfl⟩, hid, hmid⟩
  · intro hgenuine hrc
    obtain ⟨p, n, m, report, hreport, hsaid⟩ := hcase.reported hrc
    rw [hsaid] at hgenuine ⊢
    obtain ⟨hwritten, hid, hmid⟩ := hgenuine report (by simp) hreport
    obtain ⟨rfl, rfl⟩ := allWritten_ended.mp hwritten
    exact ⟨p, report, rfl, hid, hmid, hreport⟩

/-- A payload is published as message 2, with what the writes give and the report. -/
def publishing (data : List UInt8) (n : Int) (report : List Value) : List Exchange :=
  [⟨.lock, ()⟩, ⟨.setTimeout bg96Timeout60s, ()⟩, ⟨.send (qmtpub 0 2 1 0 "a/b"), true⟩,
    ⟨.recv prompt, some []⟩, ⟨.write data, n⟩, ⟨.write [ctrlZ], (1 : Int)⟩,
    ⟨.recv qmtpubReport, some report⟩, ⟨.setTimeout atTimeout, ()⟩, ⟨.unlock, ()⟩]

theorem publish_honest_iff_genuine :
    Genuine 0 2 (spoken (publishing [65] 1 [.int 0, .int 2, .int 0])) := by
  have h : Traces (mqttPublish 0 2 1 0 "a/b" [65]) (publishing [65] 1 [.int 0, .int 2, .int 0])
      (some 1) := traces_iff_replay.mpr rfl
  exact (publish_honest_iff h).mp fun _ => ⟨[], _, rfl, rfl, rfl, rfl⟩

/-- The report is of message 1, which has timed out. -/
theorem publish_honest_iff_earlier : ¬ ∀ mqttId msgId qos retain topic data l rc,
    Traces (mqttPublish mqttId msgId qos retain topic data) l (some rc) → 0 < rc →
      Published (qmtpub mqttId msgId qos retain topic) mqttId msgId data (spoken l) := by
  intro h
  have htrace : Traces (mqttPublish 0 2 1 0 "a/b" [65])
      (publishing [65] 1 [.int 0, .int 1, .int 0]) (some 1) := traces_iff_replay.mpr rfl
  obtain ⟨p, report, hsaid, -, hmid, -⟩ := h _ _ _ _ _ _ _ _ htrace (by decide)
  obtain rfl : report = [.int 0, .int 1, .int 0] := by
    have hlast := congrArg List.getLast? hsaid
    simpa [publishing, spoken, Call.Spoken, eq_comm] using hlast
  exact absurd hmid (by decide)

/-! ## The payload on the wire -/

/-- A `write` of `d` that gives `n` puts `w` on the wire: all of `d` if `n` is the number of its
bytes, and fewer bytes otherwise. -/
def Wrote (d : List UInt8) (n : Int) (w : List UInt8) : Prop :=
  w <+: d ∧ (w = d ↔ n = d.length)

/-- The bytes that the writes of a trace put on the wire. -/
inductive OnWire : List Exchange → List UInt8 → Prop where
  | nil : OnWire [] []
  | write {d w ws : List UInt8} {n : Int} {l : List Exchange} (hw : Wrote d n w)
    (h : OnWire l ws) : OnWire (⟨.write d, n⟩ :: l) (w ++ ws)
  | other {e : Exchange} {ws : List UInt8} {l : List Exchange} (he : ∀ d, e.1 ≠ .write d)
    (h : OnWire l ws) : OnWire (e :: l) ws

/-- The module takes what comes before the first `ctrlZ` as the message. It gets the rest as
commands. -/
def takeMessage (wire : List UInt8) : Option (List UInt8 × List UInt8) :=
  if ctrlZ ∈ wire then
    some (wire.takeWhile (· ≠ ctrlZ), (wire.dropWhile (· ≠ ctrlZ)).tail)
  else none

theorem takeMessage_append {a : List UInt8} (ha : ctrlZ ∉ a) (b : List UInt8) :
    takeMessage (a ++ ctrlZ :: b) = some (a, b) := by
  have hpos : ∀ c ∈ a, decide (c ≠ ctrlZ) = true := fun c hc => by
    simpa using fun heq : c = ctrlZ => ha (heq ▸ hc)
  rw [takeMessage, if_pos (by simp), List.takeWhile_append_of_pos hpos,
    List.dropWhile_append_of_pos hpos]
  simp

/-- The message ends where the first `ctrlZ` is. -/
theorem takeMessage_iff {a b : List UInt8} :
    takeMessage wire = some (a, b) ↔ ctrlZ ∉ a ∧ wire = a ++ ctrlZ :: b := by
  constructor
  · intro h
    have hmem : ctrlZ ∈ wire := by
      by_contra hnot
      rw [takeMessage, if_neg hnot] at h
      cases h
    obtain ⟨a', b', rfl, ha'⟩ := List.eq_append_cons_of_mem hmem
    rw [takeMessage_append ha'] at h
    obtain ⟨rfl, rfl⟩ : a' = a ∧ b' = b := by simpa using h
    exact ⟨ha', rfl⟩
  · rintro ⟨ha, rfl⟩
    exact takeMessage_append ha b

/-- The encoding of a payload is decoded to the payload if it has no `ctrlZ`. -/
theorem takeMessage_encoded : takeMessage (data ++ [ctrlZ]) = some (data, []) ↔ ctrlZ ∉ data := by
  rw [takeMessage_iff]
  exact and_iff_left rfl

theorem onWire_spoken (h : OnWire l wire) : OnWire (spoken l) wire := by
  induction h with
  | nil => exact .nil
  | write hw _ ih => exact .write hw ih
  | @other e ws l he _ ih =>
    by_cases hspoken : e.1.Spoken = true
    · rw [spoken_cons hspoken]
      exact .other he ih
    · rw [spoken_silent (by simpa using hspoken)]
      exact ih

/-- The wire after a payload and its end. -/
theorem onWire_ended {p : List Value} {n m : Int} {report : Option (List Value)}
    (h : OnWire [⟨.send cmd, true⟩, ⟨.recv prompt, some p⟩, ⟨.write data, n⟩, ⟨.write [ctrlZ], m⟩,
      ⟨.recv qmtpubReport, report⟩] wire) :
    ∃ w e, wire = w ++ e ∧ Wrote data n w ∧ Wrote [ctrlZ] m e := by
  cases h with
  | other _ h => cases h with
    | other _ h => cases h with
      | other hne _ => exact absurd rfl (hne data)
      | @write _ w _ _ _ hw h => cases h with
        | other hne _ => exact absurd rfl (hne [ctrlZ])
        | @write _ e _ _ _ he h => cases h with
          | other _ h => cases h with
            | nil => exact ⟨w, e, by rw [List.append_nil], hw, he⟩

/-- **Payloads.** The message that the module takes in a publish that is reported as a success is
the payload if and only if the payload has no byte 0x1A, and each write puts all of its bytes. -/
theorem payload_intact_iff
    (h : Traces (mqttPublish mqttId msgId qos retain topic data) l (some rc)) (hrc : 0 < rc)
    (hwire : OnWire l wire) :
    (∃ rest, takeMessage wire = some (data, rest)) ↔
      ctrlZ ∉ data ∧ AllWritten (spoken l) := by
  obtain ⟨p, n, m, report, -, hsaid⟩ := (traces_mqttPublish h).reported hrc
  have hspoken := onWire_spoken hwire
  rw [hsaid] at hspoken ⊢
  obtain ⟨w, e, rfl, ⟨hw, hwn⟩, he, hem⟩ := onWire_ended hspoken
  rw [allWritten_ended, ← hwn]
  have hend : m = 1 ↔ e = [ctrlZ] := hem.symm
  rw [hend]
  constructor
  · rintro ⟨rest, htake⟩
    obtain ⟨hz, heq⟩ := takeMessage_iff.mp htake
    have hwz : ctrlZ ∉ w := fun hmem => hz (hw.subset hmem)
    -- the end is on the wire, so it is in the second write
    have hze : ctrlZ ∈ e := by
      have hmem : ctrlZ ∈ w ++ e := by simp [heq]
      exact (List.mem_append.mp hmem).resolve_left hwz
    have he' : e = [ctrlZ] := by
      rcases List.prefix_cons_iff.mp he with rfl | ⟨t, rfl, ht⟩
      · cases hze
      · rw [List.prefix_nil.mp ht]
    rw [he', takeMessage_append hwz] at htake
    exact ⟨hz, congrArg Prod.fst (Option.some.inj htake), he'⟩
  · rintro ⟨hz, rfl, rfl⟩
    exact ⟨[], takeMessage_append hz []⟩

/-- The bytes on the wire when all of them are put. -/
theorem onWire_publishing (data : List UInt8) (report : List Value) :
    OnWire (publishing data data.length report) (data ++ ([ctrlZ] ++ [])) := by
  refine .other nofun (.other nofun (.other nofun (.other nofun ?_)))
  refine .write ⟨List.prefix_rfl, iff_of_true rfl rfl⟩ (.write ⟨List.prefix_rfl, by simp⟩ ?_)
  exact .other nofun (.other nofun (.other nofun .nil))

theorem payload_intact_iff_text :
    ∃ rest, takeMessage ([65, 66, 67] ++ ([ctrlZ] ++ [])) = some ([65, 66, 67], rest) := by
  have h : Traces (mqttPublish 0 2 1 0 "a/b" [65, 66, 67])
      (publishing [65, 66, 67] 3 [.int 0, .int 2, .int 0]) (some 1) := traces_iff_replay.mpr rfl
  refine (payload_intact_iff h (by decide) (onWire_publishing [65, 66, 67] _)).mpr
    ⟨by decide, ?_⟩
  exact allWritten_ended.mpr ⟨rfl, rfl⟩

/-- The module takes the first byte as the message, and the last one as a command. -/
theorem payload_intact_iff_binary : ¬ ∀ mqttId msgId qos retain topic data l rc wire,
    Traces (mqttPublish mqttId msgId qos retain topic data) l (some rc) → 0 < rc →
      OnWire l wire → ∃ rest, takeMessage wire = some (data, rest) := by
  intro h
  have htrace : Traces (mqttPublish 0 2 1 0 "a/b" [65, ctrlZ, 66])
      (publishing [65, ctrlZ, 66] 3 [.int 0, .int 2, .int 0]) (some 1) := traces_iff_replay.mpr rfl
  obtain ⟨rest, htake⟩ := h _ _ _ _ _ _ _ _ _ htrace (by decide) (onWire_publishing _ _)
  exact absurd (takeMessage_iff.mp htake).1 (by decide)

end Bg96.Modem
