import BG96Driver.Modem.Broker
import BG96Driver.Modem.Exchange
import BG96Driver.Mqtt.Client

/-!
# `BG96MQTTClient`: message identifiers

`subscribe` and `publish` take the next identifier with `getNextMessageId`, which counts up and
never begins again. `unsubscribe` takes the one that is stored with the subscription.

* `ClientCall`, `Step`: the calls that use identifiers, with what is said about them to the module.
* `givenId`: the identifier in a command.
* `message_ids_in_range`: if the counter is at most 65535 when a call takes an identifier, all
  identifiers that are given to the module are in range, and the counter does not overflow.
-/

namespace Bg96.MessageIds

open Program Modem

/-! ## The calls -/

/-- The members of `MQTTMessage` that `publish` uses. It sets `msg_id`. -/
structure OutgoingMessage where
  qos : Int
  retain : Int
  topic : String
  msg : List UInt8

/-- A call of the client. A message is `none` if it is `NULL`. -/
inductive ClientCall where
  | subscription (k : MqttCall)
  | publish (message : Option OutgoingMessage)

/-- The program of a call of `BG96`. -/
def program : ModemCall → At Int
  | .mqttSubscribe mqttId topic qos msgId _ =>
    Modem.mqttSubscribe mqttId (String.ofList topic.chars) qos msgId
  | .mqttUnsubscribe mqttId topic msgId _ =>
    Modem.mqttUnsubscribe mqttId (String.ofList topic.chars) msgId

/-- Whether the modem acknowledges the command of a call. -/
def acknowledged : ModemCall → Bool
  | .mqttSubscribe _ _ _ _ ok => ok
  | .mqttUnsubscribe _ _ _ ok => ok

/-- What is said in calls of `BG96`. -/
inductive Said : List ModemCall → List Exchange → Prop where
  | nil : Said [] []
  | cons {call : ModemCall} {calls : List ModemCall} {l l' : List Exchange}
    (h : Traces (program call) l (some (mqttResult (acknowledged call)))) (hs : Said calls l') :
    Said (call :: calls) (l ++ l')

variable (n : Nat) in
/-- A call changes the client, and this is said. `BG96MQTTClient::publish` gives the next identifier
to `mqtt_publish`, if there is a message. -/
inductive Step (c : MqttClient) : ClientCall → List Exchange → MqttClient → Prop where
  | subscription {k : MqttCall} {c' : MqttClient} {ret : Int} {out : List ModemCall}
    {l : List Exchange} (hexec : k.exec n c = some (c', ret, out)) (hsaid : Said out l) :
    Step c (.subscription k) l c'
  | publish {message : OutgoingMessage} {l : List Exchange} {rc : Int}
    (h : Traces (mqttPublish mqttCtxId c.nmid message.qos message.retain message.topic
      message.msg) l (some rc)) :
    Step c (.publish (some message)) l { c with nmid := c.nmid + 1 }
  | publishNull : Step c (.publish none) [] c

/-- A run of calls from the constructor reaches the client, with what has been said. Each call
satisfies `P` in the state before it. -/
inductive Ran (n : Nat) (P : MqttClient → ClientCall → Prop) :
    MqttClient → List Exchange → Prop where
  | ctor : Ran n P .ctor []
  | call {c c' : MqttClient} {said l : List Exchange} {k : ClientCall} (hc : Ran n P c said)
    (hp : P c k) (hstep : Step n c k l c') : Ran n P c' (said ++ l)

/-! ## The identifiers -/

/-- An identifier of an MQTT packet. -/
def InRange (id : Int) : Prop := 1 ≤ id ∧ id ≤ 65535

/-- The commands with an identifier. It is their second parameter. -/
def idCommands : List String :=
  ["AT+QMTSUB=%d,%d,\"%s\",%d", "AT+QMTUNS=%d,%d,\"%s\"", "AT+QMTPUB=%d,%d,%d,%d,\"%s\""]

/-- The identifier in a command. -/
def givenId (cmd : Format) : Option Int :=
  if cmd.text ∈ idCommands then some (intAt cmd.args 1) else none

/-- The identifiers that are given to the module are in range. -/
def IdsInRange (said : List Exchange) : Prop :=
  ∀ cmd ok id, ⟨.send cmd, ok⟩ ∈ said → givenId cmd = some id → InRange id

/-- The counter is an `int`. -/
def NoOverflow (c : MqttClient) : Prop := c.nmid ≤ 2 ^ 31 - 1

/-- The call takes the next identifier. -/
def TakesId : ClientCall → Prop
  | .subscription (.subscribe _ _ _ _ cell _) => cell.isSome = true
  | .subscription (.unsubscribe _ _) => False
  | .publish message => message.isSome = true

/-- An identifier that is taken is in range. -/
def WithinRange (c : MqttClient) (k : ClientCall) : Prop := TakesId k → c.nmid ≤ 65535

/-! ## What is given to the module -/

variable {n : Nat} {c c' : MqttClient} {k : ClientCall} {id : Int} {l said : List Exchange}
  {out : List ModemCall}

/-- If the call sends a command, the identifier is in it. -/
def Gives (id : Int) (call : Modem.Call) : Prop := ∀ cmd, call = .send cmd → givenId cmd = some id

/-- A program that gives one identifier. -/
theorem idsInRange_of_only {α : Type} {T : Prop} {p : At α} {o : Option α}
    (hp : Only T (Gives id) p) (h : Traces p l o) (hid : InRange id) : IdsInRange l := by
  intro cmd ok id' hmem hgiven
  have hgives := (hp.traces h).1 _ hmem cmd rfl
  rw [hgiven] at hgives
  cases hgives
  exact hid

theorem idsInRange_nil : IdsInRange [] := fun _ _ _ hmem => absurd hmem List.not_mem_nil

theorem IdsInRange.append (h : IdsInRange said) (h' : IdsInRange l) : IdsInRange (said ++ l) := by
  intro cmd ok id hmem hgiven
  rcases List.mem_append.mp hmem with hmem | hmem
  · exact h cmd ok id hmem hgiven
  · exact h' cmd ok id hmem hgiven

theorem only_exchange {cmd : Format} {α : Type} {f : Bool → α} (hcmd : givenId cmd = some id) :
    Only False (Gives id) (locked (timed 15000 (command cmd)) >>= fun ok => .ret (f ok)) := by
  refine (only_locked (by rintro _ ⟨⟩) (by rintro _ ⟨⟩) (only_timed (fun _ => by rintro _ ⟨⟩) ?_)).map
  exact only_command (by rintro _ ⟨⟩; exact hcmd) (by rintro _ ⟨⟩)

/-- The identifier of a call of `BG96`. -/
def callId : ModemCall → Int
  | .mqttSubscribe _ _ _ msgId _ => msgId
  | .mqttUnsubscribe _ _ msgId _ => msgId

theorem only_program (call : ModemCall) : Only False (Gives (callId call)) (program call) := by
  cases call with
  | mqttSubscribe => exact only_exchange rfl
  | mqttUnsubscribe => exact only_exchange rfl

theorem gives_of_ne {call : Modem.Call} (h : ∀ cmd, call ≠ .send cmd) : Gives id call :=
  fun cmd heq => absurd heq (h cmd)

theorem only_publishData (data : List UInt8) : Only False (Gives id) (publishData data) := by
  have hwrite (d : List UInt8) : Gives id (.write d) := gives_of_ne fun _ => by rintro ⟨⟩
  refine ⟨hwrite _, fun _ => ⟨hwrite _, fun sent => ?_⟩⟩
  change Only False (Gives id) (if (sent : Int) ≠ 0 then _ else _)
  split
  · exact ⟨gives_of_ne fun _ => by rintro ⟨⟩, fun report => only_ret _⟩
  · exact only_ret _

theorem only_mqttPublish (mqttId msgId qos retain : Int) (topic : String) (data : List UInt8) :
    Only False (Gives msgId) (mqttPublish mqttId msgId qos retain topic data) := by
  have htimeout (ms : Int) : Gives msgId (.setTimeout ms) := gives_of_ne fun _ => by rintro ⟨⟩
  have hunlock : Gives msgId .unlock := gives_of_ne fun _ => by rintro ⟨⟩
  have hprompt (pattern : Format) : Gives msgId (.recv pattern) := gives_of_ne fun _ => by rintro ⟨⟩
  unfold mqttPublish
  split
  · exact only_ret _
  · refine ⟨gives_of_ne fun _ => by rintro ⟨⟩, fun _ => ⟨htimeout _, fun _ => ?_⟩⟩
    refine (only_peek (by rintro _ ⟨⟩; rfl) (hprompt _)).bind fun prompt => ?_
    split
    · refine (only_publishData data).bind fun rc => ?_
      exact ⟨htimeout _, fun _ => ⟨hunlock, fun _ => only_ret _⟩⟩
    · exact only_ret _

theorem Said.idsInRange (h : Said out l) (hout : ∀ call ∈ out, InRange (callId call)) :
    IdsInRange l := by
  induction h with
  | nil => exact idsInRange_nil
  | cons h hs ih =>
    obtain ⟨hcall, hcalls⟩ := List.forall_mem_cons.mp hout
    exact (idsInRange_of_only (only_program _) h hcall).append (ih hcalls)

/-! ## What is stored -/

/-- The identifiers that are stored are in range, and so is the counter, or it is one more. -/
structure Stored (c : MqttClient) : Prop where
  heap : ∀ p s, c.heap p = some s → InRange s.msgId
  nmid : 1 ≤ c.nmid ∧ c.nmid ≤ 65536

theorem stored_ctor : Stored .ctor where
  heap _ _ h := by cases h
  nmid := by decide

/-- The subscriptions of a heap are those of another one, up to their links. -/
def KeepsIds (heap heap' : Heap) : Prop :=
  ∀ p s', heap' p = some s' → ∃ s, heap p = some s ∧ s'.msgId = s.msgId

variable {heap heap' heap'' : Heap} {sublist sub p q : Nat}

theorem KeepsIds.refl (heap : Heap) : KeepsIds heap heap := fun _ s h => ⟨s, h, rfl⟩

theorem KeepsIds.trans (h : KeepsIds heap heap') (h' : KeepsIds heap' heap'') :
    KeepsIds heap heap'' := by
  intro p s'' hs''
  obtain ⟨s', hs', hid'⟩ := h' p s'' hs''
  obtain ⟨s, hs, hid⟩ := h p s' hs'
  exact ⟨s, hs, hid'.trans hid⟩

theorem keepsIds_setNext (heap : Heap) (p q : Nat) : KeepsIds heap (setNext heap p q) := by
  intro r s' hs'
  by_cases hr : r = p
  · subst hr
    rw [setNext, Function.update_self] at hs'
    obtain ⟨s, hs, rfl⟩ := Option.map_eq_some_iff.mp hs'
    exact ⟨s, hs, rfl⟩
  · rw [setNext, Function.update_of_ne hr] at hs'
    exact ⟨s', hs', rfl⟩

theorem keepsIds_append (h : appendSubscription n heap sublist sub = some (heap', p)) :
    KeepsIds heap heap' := by
  unfold appendSubscription at h
  split at h
  · cases h
    exact .refl _
  · obtain ⟨iterator, -, heq⟩ := Option.bind_eq_some_iff.mp h
    cases heq
    exact keepsIds_setNext _ _ _

theorem keepsIds_remove (h : removeSubscription n heap sublist sub = some (heap', p)) :
    KeepsIds heap heap' := by
  unfold removeSubscription at h
  split at h
  · cases h
    exact .refl _
  · split at h
    · obtain ⟨s, -, heq⟩ := Option.bind_eq_some_iff.mp h
      cases heq
      exact .refl _
    · obtain ⟨iterator, -, hnext⟩ := Option.bind_eq_some_iff.mp h
      obtain ⟨s, -, heq⟩ := Option.bind_eq_some_iff.mp hnext
      split at heq
      · cases heq
        exact (keepsIds_setNext _ _ _).trans (keepsIds_setNext _ _ _)
      · cases heq
        exact keepsIds_setNext _ _ _

/-- A call that changes the subscriptions gives identifiers in range, and stores such. -/
theorem stored_exec {k : MqttCall} {ret : Int} (hs : Stored c)
    (hk : WithinRange c (.subscription k)) (h : k.exec n c = some (c', ret, out)) :
    Stored c' ∧ ∀ call ∈ out, InRange (callId call) := by
  cases k with
  | subscribe topic qos handler param cell ok =>
    cases cell with
    | none =>
      cases h
      exact ⟨hs, List.forall_mem_nil _⟩
    | some cell =>
      obtain ⟨sub, next⟩ := cell
      have hid : InRange c.nmid := ⟨hs.nmid.1, hk rfl⟩
      have hheap : ∀ p s, Function.update c.heap sub
          (some ⟨c.nmid, qos, topic, handler, param, next⟩) p = some s → InRange s.msgId := by
        intro p s hp
        by_cases hpsub : p = sub
        · subst hpsub
          rw [Function.update_self] at hp
          cases hp
          exact hid
        · rw [Function.update_of_ne hpsub] at hp
          exact hs.heap p s hp
      have hnmid : 1 ≤ c.nmid + 1 ∧ c.nmid + 1 ≤ 65536 := by
        obtain ⟨h1, h2⟩ := hid
        omega
      obtain ⟨found, -, hfound⟩ := Option.bind_eq_some_iff.mp h
      dsimp only at hfound
      split at hfound
      · obtain ⟨⟨heap', sublist'⟩, happend, hret⟩ := Option.bind_eq_some_iff.mp hfound
        cases hret
        refine ⟨⟨fun p s' hp => ?_, hnmid⟩, List.forall_mem_singleton.mpr hid⟩
        obtain ⟨s, hstored, hsid⟩ := keepsIds_append happend p s' hp
        rw [hsid]
        exact hheap p s hstored
      · cases hfound
        exact ⟨⟨hheap, hnmid⟩, List.forall_mem_nil _⟩
  | unsubscribe topic ok =>
    obtain ⟨sub, -, hfound⟩ := Option.bind_eq_some_iff.mp h
    split at hfound
    · cases hfound
      exact ⟨hs, List.forall_mem_nil _⟩
    · obtain ⟨⟨heap', sublist'⟩, hremove, hfree⟩ := Option.bind_eq_some_iff.mp hfound
      obtain ⟨s, hsub, hret⟩ := Option.bind_eq_some_iff.mp hfree
      cases hret
      have hheap : ∀ p s', heap' p = some s' → InRange s'.msgId := by
        intro p s' hp
        obtain ⟨s, hstored, hsid⟩ := keepsIds_remove hremove p s' hp
        rw [hsid]
        exact hs.heap p s hstored
      refine ⟨⟨fun p s' hp => ?_, hs.nmid⟩, List.forall_mem_singleton.mpr (hheap sub s hsub)⟩
      by_cases hpsub : p = sub
      · subst hpsub
        dsimp only at hp
        rw [Function.update_self] at hp
        cases hp
      · dsimp only at hp
        rw [Function.update_of_ne hpsub] at hp
        exact hheap p s' hp

/-- What a call does. -/
theorem Step.stored (hstep : Step n c k l c') (hs : Stored c) (hk : WithinRange c k) :
    Stored c' ∧ IdsInRange l := by
  cases hstep with
  | subscription hexec hsaid =>
    obtain ⟨hstored, hout⟩ := stored_exec hs hk hexec
    exact ⟨hstored, hsaid.idsInRange hout⟩
  | publish h =>
    have hid : InRange c.nmid := ⟨hs.nmid.1, hk rfl⟩
    obtain ⟨h1, h2⟩ := id hid
    exact ⟨⟨hs.heap, by dsimp only; omega⟩, idsInRange_of_only (only_mqttPublish ..) h hid⟩
  | publishNull => exact ⟨hs, idsInRange_nil⟩

/-- **Message identifiers.** In a run in which the counter is at most 65535 when a call takes an
identifier, all identifiers that are given to the module are in range, and the counter does not
overflow. -/
theorem message_ids_in_range (hr : Ran n WithinRange c said) : IdsInRange said ∧ NoOverflow c := by
  have hrun : Stored c ∧ IdsInRange said := by
    induction hr with
    | ctor => exact ⟨stored_ctor, idsInRange_nil⟩
    | call _ hp hstep ih =>
      obtain ⟨hs, hsaid⟩ := ih
      obtain ⟨hs', hl⟩ := hstep.stored hs hp
      exact ⟨hs', hsaid.append hl⟩
  refine ⟨hrun.2, ?_⟩
  have hnmid := hrun.1.nmid.2
  unfold NoOverflow
  omega

def message : OutgoingMessage := ⟨1, 0, "a/b", [65]⟩

/-- What is said when the message is published with the identifier. -/
def publishing (id : Int) : List Exchange :=
  [⟨.lock, ()⟩, ⟨.setTimeout bg96Timeout60s, ()⟩, ⟨.send (qmtpub 0 id 1 0 "a/b"), true⟩,
    ⟨.recv ⟨">", []⟩, some []⟩, ⟨.write [65], (1 : Int)⟩, ⟨.write [0x1A], (1 : Int)⟩,
    ⟨.recv ⟨"+QMTPUB: %d,%d,%d", []⟩, some [.int 0, .int id, .int 0]⟩,
    ⟨.setTimeout atTimeout, ()⟩, ⟨.unlock, ()⟩]

/-- The message is published. -/
theorem step_publish (n : Nat) (c : MqttClient) :
    Step n c (.publish (some message)) (publishing c.nmid) { c with nmid := c.nmid + 1 } := by
  have hshort : ¬ maxPublishMsgSize ≤ message.msg.length := by decide
  have htrace : Traces (mqttPublish mqttCtxId c.nmid message.qos message.retain message.topic
      message.msg) (publishing c.nmid) (some 1) := by
    unfold mqttPublish
    rw [if_neg hshort]
    refine traces_call.mpr ⟨(), _, rfl, traces_call.mpr ⟨(), _, rfl, ?_⟩⟩
    refine traces_call.mpr ⟨true, _, rfl, traces_call.mpr ⟨some [], _, rfl, ?_⟩⟩
    refine traces_call.mpr ⟨(1 : Int), _, rfl, traces_call.mpr ⟨(1 : Int), _, rfl, ?_⟩⟩
    refine traces_call.mpr ⟨some [.int 0, .int c.nmid, .int 0], _, rfl, ?_⟩
    exact traces_call.mpr ⟨(), _, rfl, traces_call.mpr ⟨(), _, rfl, .ret 1⟩⟩
  exact .publish htrace

theorem message_ids_in_range_first :
    IdsInRange ([] ++ publishing 1) ∧ NoOverflow { MqttClient.ctor with nmid := 2 } :=
  message_ids_in_range (n := 0) (.call .ctor (fun _ => by decide) (step_publish 0 .ctor))

/-- After any number of messages the next one is published. -/
theorem exists_ran (m : Nat) :
    ∃ said, Ran 0 (fun _ _ => True) { MqttClient.ctor with nmid := m + 1 } said := by
  induction m with
  | zero => exact ⟨[], .ctor⟩
  | succ m ih =>
    obtain ⟨said, hr⟩ := ih
    exact ⟨_, hr.call trivial (step_publish 0 _)⟩

/-- The identifier of the message after 65535 others is 65536. -/
theorem message_ids_in_range_many : ¬ ∀ n c said, Ran n (fun _ _ => True) c said →
    IdsInRange said ∧ NoOverflow c := by
  intro h
  obtain ⟨said, hr⟩ := exists_ran 65535
  have hrun := h 0 _ _ (hr.call trivial (step_publish 0 _))
  have hmem : ⟨.send (qmtpub 0 65536 1 0 "a/b"), true⟩ ∈ said ++ publishing 65536 :=
    List.mem_append_right _ (.tail _ (.tail _ (.head _)))
  exact absurd (hrun.1 _ _ 65536 hmem rfl).2 (by decide)

end Bg96.MessageIds
