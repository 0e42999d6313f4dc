import BG96Driver.Mqtt.Sublist
import BG96Driver.Basic

/-!
# `BG96MQTTClient`: subscriptions and messages

`subscribe` changes the list before the modem answers, and does not undo it. It asks
`findSubscriptionByTopic` whether the topic is already subscribed, which on a list that is not empty
always finds something. So the list and the modem agree only in the runs of `SafeCall` calls
(`sublist_agrees`). `mqtt_task` takes what `findSubscriptionByTopic` finds as a match
(`dispatch_iff`).

`malloc` gives an unused address, whose memory has any contents: `subscribe` sets every field of the
new subscription but its link. The copy of the topic is always allocated.

* `subscribe`, `unsubscribe`, `mqttTaskTurn`: the source's functions.
* `Acked`: the modem has acknowledged a subscription that no acknowledged unsubscription follows.
-/

namespace Bg96

open Linked

/-- `BG96_MQTT_CLIENT_UNSUBSCRIBE_ERROR_TOPIC_NOT_FOUND`. -/
def unsubscribeErrorTopicNotFound : Int := -1000

/-- `_ctx.mqtt_ctx_id`. -/
def mqttCtxId : Int := 0

/-- A call of `BG96`, with whether the modem acknowledged its command. -/
inductive ModemCall where
  | mqttSubscribe (mqttId : Int) (topic : Topic) (qos msgId : Int) (ok : Bool)
  | mqttUnsubscribe (mqttId : Int) (topic : Topic) (msgId : Int) (ok : Bool)
  deriving DecidableEq

/-- What `BG96::mqtt_subscribe` and `BG96::mqtt_unsubscribe` return. -/
def mqttResult (ok : Bool) : Int := if ok then nsapiErrorOk else -1

/-- The part of `BG96MQTTClient` that the subscriptions use, with the subscriptions in the heap. -/
structure MqttClient where
  heap : Heap
  sublist : Nat
  nmid : Int

namespace MqttClient

/-- `BG96MQTTClient::BG96MQTTClient`. -/
def ctor : MqttClient where
  heap _ := none
  sublist := 0
  nmid := 1

/-- `BG96MQTTClient::subscribe`, where `malloc` gives `cell`: an address and what the memory there
holds for the link. -/
def subscribe (n : Nat) (c : MqttClient) (topic : Topic) (qos : Int) (handler : Option Nat)
    (param : Nat) (cell : Option (Nat × Nat)) (ok : Bool) :
    Option (MqttClient × Int × List ModemCall) :=
  match cell with
  | none => some (c, nsapiErrorNoMemory, [])
  | some (sub, next) =>
    let s : MqttSubscription :=
      { msgId := c.nmid, qos := qos, topic := topic, handler := handler, param := param, next := next }
    let c := { c with heap := Function.update c.heap sub (some s), nmid := c.nmid + 1 }
    (findSubscriptionByTopic n c.heap c.sublist topic).bind fun p =>
      if p = 0 then
        (appendSubscription n c.heap c.sublist sub).bind fun (heap, sublist) =>
          some ({ c with heap := heap, sublist := sublist }, mqttResult ok,
            [.mqttSubscribe mqttCtxId s.topic s.qos s.msgId ok])
      else some (c, nsapiErrorOk, [])

/-- `BG96MQTTClient::unsubscribe`. -/
def unsubscribe (n : Nat) (c : MqttClient) (topic : Topic) (ok : Bool) :
    Option (MqttClient × Int × List ModemCall) :=
  (findSubscriptionByTopic n c.heap c.sublist topic).bind fun sub =>
    if sub = 0 then some (c, unsubscribeErrorTopicNotFound, [])
    else
      (removeSubscription n c.heap c.sublist sub).bind fun (heap, sublist) =>
        (heap sub).bind fun s =>
          some ({ c with heap := Function.update heap sub none, sublist := sublist }, mqttResult ok,
            [.mqttUnsubscribe mqttCtxId s.topic s.msgId ok])

end MqttClient

/-- A call of the client. -/
inductive MqttCall where
  | subscribe (topic : Topic) (qos : Int) (handler : Option Nat) (param : Nat)
    (cell : Option (Nat × Nat)) (ok : Bool)
  | unsubscribe (topic : Topic) (ok : Bool)

def MqttCall.exec (n : Nat) (c : MqttClient) : MqttCall → Option (MqttClient × Int × List ModemCall)
  | .subscribe topic qos handler param cell ok => c.subscribe n topic qos handler param cell ok
  | .unsubscribe topic ok => c.unsubscribe n topic ok

/-- `malloc` gives an address that is not in use. -/
def MqttCall.Fresh (c : MqttClient) : MqttCall → Prop
  | .subscribe _ _ _ _ (some (sub, _)) _ => sub ≠ 0 ∧ c.heap sub = none
  | _ => True

/-- The modem has acknowledged a subscription to the topic that no acknowledged unsubscription
follows. The newest call is the first. -/
def Acked (topic : Topic) : List ModemCall → Prop
  | [] => False
  | .mqttSubscribe _ t _ _ true :: h => t = topic ∨ Acked topic h
  | .mqttUnsubscribe _ t _ true :: h => t ≠ topic ∧ Acked topic h
  | _ :: h => Acked topic h

/-- The calls after which the list and the modem agree: a subscription to a first topic, to memory
with no link, which the modem acknowledges, or to a topic of the list; and an unsubscription that
the modem acknowledges, or from an empty list. -/
def SafeCall (c : MqttClient) : MqttCall → Prop
  | .subscribe topic _ _ _ cell ok => cell = none ∨
    c.sublist = 0 ∧ ok = true ∧ (∀ sub next, cell = some (sub, next) → next = 0) ∨
    ∃ l, Subscriptions c.heap c.sublist l ∧ topic ∈ topics l
  | .unsubscribe _ ok => c.sublist = 0 ∨ ok = true

/-- A run of calls from the constructor reaches the client, with the calls of `BG96` that it has
made. Each call satisfies `P` in the state before it. -/
inductive ReachedClient (n : Nat) (P : MqttClient → MqttCall → Prop) :
    MqttClient → List ModemCall → Prop where
  | ctor : ReachedClient n P .ctor []
  | call {c c' : MqttClient} {h out : List ModemCall} {k : MqttCall} {ret : Int}
    (hc : ReachedClient n P c h) (hfresh : k.Fresh c) (hp : P c k)
    (hexec : k.exec n c = some (c', ret, out)) : ReachedClient n P c' (out ++ h)

/-! ## What the calls do -/

variable {n : Nat} {c c' : MqttClient} {h out : List ModemCall} {ret : Int}
  {l : List (Nat × MqttSubscription)} {topic : Topic} {ok : Bool}

/-- Something is found in every list that is not empty. -/
theorem exists_found (topic : Topic) (hl : l ≠ []) : ∃ d, found topic l = some d := by
  refine Option.ne_none_iff_exists'.mp fun hnone => ?_
  rw [found, Option.or_eq_none_iff, List.getLast?_eq_none_iff] at hnone
  exact hl hnone.2

theorem mem_of_found {d : Nat × MqttSubscription} (h : found topic l = some d) : d ∈ l := by
  rcases Option.or_eq_some_iff.mp h with h | ⟨-, h⟩
  · exact List.mem_of_find?_eq_some h
  · exact List.mem_of_getLast? h

section Subscribe

variable {sub next param : Nat} {qos : Int} {handler : Option Nat}

/-- The heap with the new subscription of `subscribe`. -/
def MqttClient.allocate (c : MqttClient) (topic : Topic) (qos : Int) (handler : Option Nat)
    (param sub next : Nat) : Heap :=
  Function.update c.heap sub (some ⟨c.nmid, qos, topic, handler, param, next⟩)

/-- Memory that is not in use is not in the list. -/
theorem fresh_not_mem (hlist : Subscriptions c.heap c.sublist l)
    (hfresh : (MqttCall.subscribe topic qos handler param (some (sub, next)) ok).Fresh c) :
    sub ∉ l.map Prod.fst := by
  intro hm
  obtain ⟨d, hd, rfl⟩ := List.mem_map.mp hm
  have hsome := (hlist.mem d hd).2
  rw [hfresh.2] at hsome
  cases hsome

/-- `subscribe` with an empty list. -/
theorem MqttClient.subscribe_empty (hnull : c.sublist = 0) :
    c.subscribe n topic qos handler param (some (sub, next)) ok =
      some (⟨c.allocate topic qos handler param sub next, sub, c.nmid + 1⟩, mqttResult ok,
        [.mqttSubscribe mqttCtxId topic qos c.nmid ok]) := by
  simp only [subscribe, findSubscriptionByTopic, appendSubscription, hnull, ne_eq,
    not_true_eq_false, ↓reduceIte, Option.bind_some]
  rfl

/-- `subscribe` with a list that is not empty: its topic counts as subscribed. -/
theorem MqttClient.subscribe_found (hlist : Subscriptions c.heap c.sublist l)
    (hlen : l.length ≤ n) (hl : l ≠ []) (hsub : sub ∉ l.map Prod.fst) :
    c.subscribe n topic qos handler param (some (sub, next)) ok =
      some (⟨c.allocate topic qos handler param sub next, c.sublist, c.nmid + 1⟩, nsapiErrorOk,
        []) := by
  have hfind := findSubscriptionByTopic_eq (hlist.update hsub
    (some ⟨c.nmid, qos, topic, handler, param, next⟩)) hlen topic
  obtain ⟨d, hd⟩ := exists_found topic hl
  have hd0 : d.1 ≠ 0 := (hlist.mem d (mem_of_found hd)).1
  simp only [subscribe, hfind, hd, address, Option.elim_some, Option.bind_some, if_neg hd0]
  rfl

end Subscribe

/-- `unsubscribe` with an empty list. -/
theorem MqttClient.unsubscribe_empty (hnull : c.sublist = 0) :
    c.unsubscribe n topic ok = some (c, unsubscribeErrorTopicNotFound, []) := by
  simp only [unsubscribe, findSubscriptionByTopic, hnull, ne_eq, not_true_eq_false, ↓reduceIte,
    Option.bind_some]

/-- `unsubscribe` with a list that is not empty: what is found is taken out of it, and freed. -/
theorem MqttClient.unsubscribe_found (topic : Topic) (ok : Bool)
    (hlist : Subscriptions c.heap c.sublist l) (hlen : l.length ≤ n) (hl : l ≠ []) :
    ∃ l₁ d l₂ heap p l' msgId, l = l₁ ++ d :: l₂ ∧
      c.unsubscribe n topic ok = some (⟨heap, p, c.nmid⟩, mqttResult ok,
        [.mqttUnsubscribe mqttCtxId d.2.topic msgId ok]) ∧
      Subscriptions heap p l' ∧ topics l' = topics (l₁ ++ l₂) := by
  have hfind := findSubscriptionByTopic_eq hlist hlen topic
  obtain ⟨d, hd⟩ := exists_found topic hl
  have hmem := mem_of_found hd
  have hd0 : d.1 ≠ 0 := (hlist.mem d hmem).1
  obtain ⟨l₁, l₂, rfl⟩ := List.append_of_mem hmem
  obtain ⟨heap, p, l', hremove, ⟨s, hs, hst⟩, hl', ht⟩ := removeSubscription_eq hlist hlen
  refine ⟨l₁, d, l₂, _, p, l', s.msgId, rfl, ?_, hl', ht⟩
  simp only [unsubscribe, hfind, hd, address, Option.elim_some, Option.bind_some, if_neg hd0,
    hremove, hs, hst]

/-! ## The list and the modem -/

/-- The list has the topics that the modem has acknowledged. -/
structure ClientAgrees (c : MqttClient) (h : List ModemCall) (l : List (Nat × MqttSubscription)) :
    Prop where
  list : Subscriptions c.heap c.sublist l
  length : l.length ≤ 1
  acked : ∀ t, t ∈ topics l ↔ Acked t h

theorem ClientAgrees.ctor : ClientAgrees .ctor [] [] :=
  ⟨rfl, Nat.zero_le _, by simp [topics, Acked]⟩

/-- What a call does to a list that agrees with the modem: it keeps it so, an error changes nothing,
and a `subscribe` that succeeds has an acknowledged topic. -/
def CallDone (k : MqttCall) (h : List ModemCall) (l : List (Nat × MqttSubscription))
    (r : Option (MqttClient × Int × List ModemCall)) : Prop :=
  ∃ c' ret out l', r = some (c', ret, out) ∧ ClientAgrees c' (out ++ h) l' ∧
    (ret ≠ nsapiErrorOk → l' = l) ∧
    ∀ topic qos handler param cell ok, k = .subscribe topic qos handler param cell ok →
      ret = nsapiErrorOk → Acked topic (out ++ h)

/-- `subscribe` in a list that agrees with the modem. -/
theorem ClientAgrees.subscribe (ha : ClientAgrees c h l) (hn : 1 ≤ n) {qos : Int}
    {handler : Option Nat} {param : Nat} {cell : Option (Nat × Nat)}
    (hfresh : (MqttCall.subscribe topic qos handler param cell ok).Fresh c)
    (hsafe : SafeCall c (.subscribe topic qos handler param cell ok)) :
    CallDone (.subscribe topic qos handler param cell ok) h l
      (c.subscribe n topic qos handler param cell ok) := by
  cases cell with
  | none =>
    refine ⟨c, nsapiErrorNoMemory, [], l, rfl, ha, fun _ => rfl, ?_⟩
    exact fun _ _ _ _ _ _ _ hret => nomatch hret
  | some cell =>
    obtain ⟨sub, next⟩ := cell
    have hsub := fresh_not_mem ha.list hfresh
    rcases hsafe with hcell | ⟨hnull, rfl, hnext⟩ | ⟨l', hl', ht⟩
    · cases hcell
    · -- the list is empty, and the modem acknowledges its first topic
      obtain rfl : next = 0 := hnext sub next rfl
      obtain rfl : l = [] := ha.list.null_iff.mp hnull
      refine ⟨_, _, _, [(sub, ⟨c.nmid, qos, topic, handler, param, 0⟩)],
        MqttClient.subscribe_empty hnull, ⟨⟨rfl, hfresh.1, Function.update_self .., rfl⟩,
          Nat.le_refl 1, fun t => ?_⟩, fun hret => absurd rfl hret, ?_⟩
      · simp only [topics, List.map_cons, List.map_nil, List.mem_singleton, List.cons_append,
          List.nil_append, Acked, ← ha.acked, List.not_mem_nil, or_false]
        exact eq_comm
      · rintro _ _ _ _ _ _ ⟨⟩ -
        exact .inl rfl
    · -- the topic is in the list
      obtain rfl : l' = l := hl'.unique ha.list
      have hne : l' ≠ [] := by rintro rfl; simp [topics] at ht
      refine ⟨_, _, _, l',
        MqttClient.subscribe_found ha.list (Nat.le_trans ha.length hn) hne hsub,
        ⟨ha.list.update hsub _, ha.length, ha.acked⟩, fun _ => rfl, ?_⟩
      rintro _ _ _ _ _ _ ⟨⟩ -
      exact (ha.acked topic).mp ht

/-- `unsubscribe` in a list that agrees with the modem. -/
theorem ClientAgrees.unsubscribe (ha : ClientAgrees c h l) (hn : 1 ≤ n)
    (hsafe : SafeCall c (.unsubscribe topic ok)) :
    CallDone (.unsubscribe topic ok) h l (c.unsubscribe n topic ok) := by
  have hlen : l.length ≤ n := Nat.le_trans ha.length hn
  by_cases hl : l = []
  · subst hl
    exact ⟨c, _, [], [], MqttClient.unsubscribe_empty ha.list, ha, fun _ => rfl,
      fun _ _ _ _ _ _ h => by cases h⟩
  · obtain rfl : ok = true := hsafe.resolve_left (mt ha.list.null_iff.mp hl)
    obtain ⟨l₁, d, l₂, heap, p, l', msgId, rfl, hexec, hl', ht⟩ :=
      MqttClient.unsubscribe_found topic true ha.list hlen hl
    have hnil : l₁ = [] ∧ l₂ = [] := by
      have hone := ha.length
      rw [List.length_append, List.length_cons] at hone
      exact ⟨List.eq_nil_of_length_eq_zero (by omega), List.eq_nil_of_length_eq_zero (by omega)⟩
    obtain ⟨rfl, rfl⟩ := hnil
    obtain rfl : l' = [] := List.map_eq_nil_iff.mp ht
    refine ⟨_, _, _, [], hexec, ⟨hl', Nat.zero_le _, fun t => ?_⟩, fun hret => absurd rfl hret,
      fun _ _ _ _ _ _ h => by cases h⟩
    have hacked := ha.acked t
    simp only [topics, List.nil_append, List.map_cons, List.map_nil, List.mem_singleton] at hacked
    simp only [topics, List.map_nil, List.not_mem_nil, List.cons_append, List.nil_append, Acked,
      ← hacked, false_iff]
    rintro ⟨hne, heq⟩
    exact hne heq.symm

theorem ClientAgrees.exec (ha : ClientAgrees c h l) (hn : 1 ≤ n) {k : MqttCall} (hfresh : k.Fresh c)
    (hsafe : SafeCall c k) : CallDone k h l (k.exec n c) := by
  cases k with
  | subscribe => exact ha.subscribe hn hfresh hsafe
  | unsubscribe => exact ha.unsubscribe hn hsafe

/-- **The subscription list agrees with the modem** in a run of safe calls: after each call it has
the topics that the modem has acknowledged. A `subscribe` that succeeds has an acknowledged topic,
and an error leaves the list as it was. -/
theorem sublist_agrees (hn : 1 ≤ n) (hr : ReachedClient n SafeCall c h) :
    ∃ l, ClientAgrees c h l ∧
      ∀ k : MqttCall, k.Fresh c → SafeCall c k → CallDone k h l (k.exec n c) := by
  have ⟨l, ha⟩ : ∃ l, ClientAgrees c h l := by
    induction hr with
    | ctor => exact ⟨[], .ctor⟩
    | @call c c' h out k ret _ hfresh hsafe hexec ih =>
      obtain ⟨l, ha⟩ := ih
      obtain ⟨c₂, ret₂, out₂, l₂, hexec₂, ha₂, -⟩ := ha.exec hn hfresh hsafe
      rw [hexec] at hexec₂
      cases hexec₂
      exact ⟨l₂, ha₂⟩
  exact ⟨l, ha, fun k hfresh hsafe => ha.exec hn hfresh hsafe⟩

/-- The topics `a/x` and `b/y`. -/
def topicAx : Topic := ⟨['a', '/', 'x'], by decide, by decide⟩
def topicBy : Topic := ⟨['b', '/', 'y'], by decide, by decide⟩

/-- The client after a subscription to `a/x` that the modem acknowledges. -/
def subscribedAx : MqttClient where
  heap := Function.update (fun _ => none) 8 (some ⟨1, 1, topicAx, some 64, 0, 0⟩)
  sublist := 8
  nmid := 2

theorem reached_subscribedAx :
    ReachedClient 1 SafeCall subscribedAx [.mqttSubscribe mqttCtxId topicAx 1 1 true] :=
  .call (k := .subscribe topicAx 1 (some 64) 0 (some (8, 0)) true) .ctor ⟨by decide, rfl⟩
    (.inr (.inl ⟨rfl, rfl, fun _ _ h => by cases h; rfl⟩)) rfl

theorem sublist_agrees_subscribedAx :
    ∃ l, ClientAgrees subscribedAx [.mqttSubscribe mqttCtxId topicAx 1 1 true] l ∧
      ∀ k : MqttCall, k.Fresh subscribedAx → SafeCall subscribedAx k →
        CallDone k [.mqttSubscribe mqttCtxId topicAx 1 1 true] l (k.exec 1 subscribedAx) :=
  sublist_agrees (Nat.le_refl 1) reached_subscribedAx

/-- A subscription to a second topic succeeds, and the modem gets no command. -/
theorem sublist_agrees_secondTopic :
    ReachedClient 1 SafeCall subscribedAx [.mqttSubscribe mqttCtxId topicAx 1 1 true] ∧
      ∃ c' : MqttClient,
      (MqttCall.subscribe topicBy 1 (some 65) 0 (some (9, 0)) true).Fresh subscribedAx ∧
      (MqttCall.subscribe topicBy 1 (some 65) 0 (some (9, 0)) true).exec 1 subscribedAx =
        some (c', nsapiErrorOk, []) ∧
      ¬ Acked topicBy [.mqttSubscribe mqttCtxId topicAx 1 1 true] :=
  ⟨reached_subscribedAx, _, ⟨by decide, rfl⟩, rfl, by simp [Acked, topicAx, topicBy]⟩

/-! ## Messages -/

/-- The part of `MQTTMessage` that `mqtt_task` uses. `none` is `NULL`. -/
structure MqttMessage where
  topic : Option Topic
  msg : Option (List Char)
  deriving DecidableEq

/-- A call of a handler: the handler, the message and the parameter of the subscription. -/
abbrev HandlerCall := Nat × MqttMessage × Nat

/-- A turn of the loop of `mqtt_task`, in which `recv` gives `msg`: the handler it calls. -/
def mqttTaskTurn (n : Nat) (heap : Heap) (sublist : Nat) (msg : Option MqttMessage) :
    Option (Option HandlerCall) :=
  match msg with
  | none => some none
  | some msg =>
    if msg.msg = none then some none
    else match msg.topic with
      | none => some none
      | some topic => (findSubscriptionByTopic n heap sublist topic).bind fun subp =>
        if subp = 0 then some none
        else (heap subp).bind fun s => some (s.handler.map fun handler => (handler, msg, s.param))

/-- What a subscription does with a message. -/
def handlerCall (msg : MqttMessage) (c : Nat × MqttSubscription) : Option HandlerCall :=
  c.2.handler.map fun handler => (handler, msg, c.2.param)

variable {heap : Heap} {sublist : Nat}

/-- A turn of `mqtt_task` calls the handler of what `findSubscriptionByTopic` finds. -/
theorem mqttTaskTurn_eq (h : Subscriptions heap sublist l) (hn : l.length ≤ n)
    (payload : List Char) :
    mqttTaskTurn n heap sublist (some ⟨some topic, some payload⟩) =
      some ((found topic l).bind (handlerCall ⟨some topic, some payload⟩)) := by
  simp only [mqttTaskTurn, reduceCtorEq, ↓reduceIte, findSubscriptionByTopic_eq h hn,
    Option.bind_some]
  cases hd : found topic l with
  | none => rfl
  | some d =>
    obtain ⟨hd0, hd⟩ := h.mem d (mem_of_found hd)
    simp only [address, Option.elim_some, if_neg hd0, hd, Option.bind_some]
    rfl

theorem found_of_match {d : Nat × MqttSubscription} (hd : l.find? (Matches topic) = some d) :
    found topic l = some d := by rw [found, hd, Option.some_or]

/-- **Messages are dispatched to a matching subscription**, and `findSubscriptionByTopic` finds the
first one, if and only if there is a match or the list is empty. -/
theorem dispatch_iff (h : Subscriptions heap sublist l) (hn : l.length ≤ n) :
    (findSubscriptionByTopic n heap sublist topic = some (firstMatch topic l) ∧
      ∀ payload, mqttTaskTurn n heap sublist (some ⟨some topic, some payload⟩) =
        some ((l.find? (Matches topic)).bind (handlerCall ⟨some topic, some payload⟩))) ↔
      l = [] ∨ ∃ c ∈ l, Matches topic c := by
  rw [findSubscriptionByTopic_eq h hn]
  simp only [mqttTaskTurn_eq h hn]
  constructor
  · rintro ⟨hfind, -⟩
    rw [or_iff_not_imp_left]
    intro hl
    obtain ⟨d, hd⟩ := exists_found topic hl
    have hd0 : d.1 ≠ 0 := (h.mem d (mem_of_found hd)).1
    rw [hd, firstMatch] at hfind
    cases hm : l.find? (Matches topic) with
    | none =>
      rw [hm] at hfind
      exact absurd (Option.some.inj hfind) hd0
    | some c => exact ⟨c, List.mem_of_find?_eq_some hm, List.find?_some hm⟩
  · rintro (rfl | hex)
    · exact ⟨rfl, fun _ => rfl⟩
    · obtain ⟨d, hd⟩ := Option.isSome_iff_exists.mp (List.find?_isSome.mpr hex)
      rw [found_of_match hd, firstMatch, hd]
      exact ⟨rfl, fun _ => rfl⟩

theorem subscribedAx_list :
    Subscriptions subscribedAx.heap 8 [(8, ⟨1, 1, topicAx, some 64, 0, 0⟩)] :=
  ⟨rfl, by decide, rfl, rfl⟩

theorem dispatch_iff_subscribedAx :
    (findSubscriptionByTopic 1 subscribedAx.heap 8 topicAx =
        some (firstMatch topicAx [(8, ⟨1, 1, topicAx, some 64, 0, 0⟩)]) ∧
      ∀ payload, mqttTaskTurn 1 subscribedAx.heap 8 (some ⟨some topicAx, some payload⟩) =
        some (([(8, ⟨1, 1, topicAx, some 64, 0, 0⟩)].find? (Matches topicAx)).bind
          (handlerCall ⟨some topicAx, some payload⟩))) ↔
      [(8, (⟨1, 1, topicAx, some 64, 0, 0⟩ : MqttSubscription))] = [] ∨
        ∃ c ∈ [(8, (⟨1, 1, topicAx, some 64, 0, 0⟩ : MqttSubscription))], Matches topicAx c :=
  dispatch_iff subscribedAx_list (Nat.le_refl 1)

/-- The handler of the only subscription, to `a/x`, gets a message of `b/y`. -/
theorem dispatch_iff_otherTopic :
    Subscriptions subscribedAx.heap 8 [(8, ⟨1, 1, topicAx, some 64, 0, 0⟩)] ∧
      ¬ Matches topicBy (8, ⟨1, 1, topicAx, some 64, 0, 0⟩) ∧
      findSubscriptionByTopic 1 subscribedAx.heap 8 topicBy = some 8 ∧
      mqttTaskTurn 1 subscribedAx.heap 8 (some ⟨some topicBy, some ['1']⟩) =
        some (some (64, ⟨some topicBy, some ['1']⟩, 0)) :=
  ⟨subscribedAx_list, by decide, by decide, by decide⟩

end Bg96
