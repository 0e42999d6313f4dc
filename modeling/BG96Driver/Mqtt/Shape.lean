import BG96Driver.Mqtt.Client

/-!
# `BG96MQTTClient`: the shape of the subscription list

The loops over `_sublist` stop at a link that is `NULL`. `subscribe` sets every member of a new
subscription but its link, which is what `malloc` has left there.

* `WellFormed`: the links lead from `_sublist` through different subscriptions that are allocated,
  to `NULL`.
* `Appends`: `append_subscription` puts a subscription at the end of a list
  (`appends_iff`: if and only if its link is `NULL`).
* `sublist_shape`: in a run in which the memory of a first subscription has no link, the list is
  well formed.
-/

namespace Bg96

open Linked

/-- The subscriptions `l` are the list: it is finite and ends in `NULL`, they are different, and
each of them is in the heap, which has those that `subscribe` has allocated and `unsubscribe` has
not freed. -/
structure WellFormed (c : MqttClient) (l : List (Nat × MqttSubscription)) : Prop where
  chain : Subscriptions c.heap c.sublist l
  distinct : (l.map Prod.fst).Nodup
  allocated : ∀ d ∈ l, d.1 ≠ 0 ∧ c.heap d.1 = some d.2

theorem wellFormed_of_chain {c : MqttClient} {l : List (Nat × MqttSubscription)}
    (h : Subscriptions c.heap c.sublist l) : WellFormed c l := ⟨h, h.nodup, h.mem⟩

variable {n : Nat} {c c' : MqttClient} {h out : List ModemCall} {k : MqttCall}
  {l : List (Nat × MqttSubscription)} {heap heap' : Heap} {sublist sub : Nat}
  {s : MqttSubscription}

/-! ## Appending -/

/-- `append_subscription` turns the list into the list followed by the new subscription. -/
def Appends (n : Nat) (heap : Heap) (sublist : Nat) (l : List (Nat × MqttSubscription)) (sub : Nat) :
    Prop :=
  ∃ heap' p l', appendSubscription n heap sublist sub = some (heap', p) ∧
    Subscriptions heap' p l' ∧ l'.map Prod.fst = l.map Prod.fst ++ [sub]

/-- A new subscription is put at the end if and only if it has no link. -/
theorem appends_iff (hlist : Subscriptions heap sublist l) (hn : l.length ≤ n)
    (hsub : heap sub = some s) (h0 : sub ≠ 0) (hnew : sub ∉ l.map Prod.fst) :
    Appends n heap sublist l sub ↔ s.next = 0 := by
  constructor
  · rintro ⟨heap', p, l', happ, hlist', hl'⟩
    obtain ⟨l₁, ⟨q, b⟩, rfl⟩ : ∃ l₁ d, l' = l₁ ++ [d] := by
      refine (List.eq_nil_or_concat' l').resolve_left ?_
      rintro rfl
      simp at hl'
    rw [List.map_append, List.map_cons, List.map_nil] at hl'
    obtain ⟨-, hq⟩ := List.append_inj' hl' rfl
    obtain rfl : q = sub := by simpa using hq
    have hb : heap' q = some b := (hlist'.mem (q, b) (by simp)).2
    rw [appendSubscription_new hlist hnew hn happ, hsub] at hb
    cases hb
    obtain ⟨r, -, -, -, -, hnext⟩ := segment_append.mp hlist'
    exact hnext
  · intro hnext
    obtain ⟨heap', p, l', happ, hlist', hl', -⟩ :=
      appendSubscription_eq hlist hsub h0 hnew hnext hn
    exact ⟨heap', p, l', happ, hlist', hl'⟩

/-! ## Runs -/

/-- The memory that a call gives to the first subscription of the list has no link. -/
def Blank (c : MqttClient) : MqttCall → Prop
  | .subscribe _ _ _ _ (some (_, next)) _ => c.sublist = 0 → next = 0
  | _ => True

/-- The list has one subscription at most: a second topic counts as subscribed. -/
def Short (c : MqttClient) : Prop := ∃ l, Subscriptions c.heap c.sublist l ∧ l.length ≤ 1

/-- A call returns, and leaves a list with one subscription at most. -/
theorem Short.exec (hs : Short c) (hn : 1 ≤ n) (hfresh : k.Fresh c) (hblank : Blank c k) :
    ∃ c' ret out, k.exec n c = some (c', ret, out) ∧ Short c' := by
  obtain ⟨l, hlist, hlen⟩ := hs
  have hln : l.length ≤ n := Nat.le_trans hlen hn
  cases k with
  | subscribe topic qos handler param cell ok =>
    cases cell with
    | none => exact ⟨c, nsapiErrorNoMemory, [], rfl, l, hlist, hlen⟩
    | some cell =>
      obtain ⟨sub, next⟩ := cell
      have hsub := fresh_not_mem hlist hfresh
      by_cases hl : l = []
      · subst hl
        obtain rfl : next = 0 := hblank hlist
        refine ⟨_, _, _, MqttClient.subscribe_empty hlist,
          [(sub, ⟨c.nmid, qos, topic, handler, param, 0⟩)], ?_, Nat.le_refl 1⟩
        exact ⟨rfl, hfresh.1, Function.update_self .., rfl⟩
      · exact ⟨_, _, _, MqttClient.subscribe_found hlist hln hl hsub, l, hlist.update hsub _, hlen⟩
  | unsubscribe topic ok =>
    by_cases hl : l = []
    · subst hl
      exact ⟨_, _, _, MqttClient.unsubscribe_empty hlist, [], hlist, Nat.zero_le 1⟩
    · obtain ⟨l₁, d, l₂, heap, p, l', msgId, rfl, hexec, hlist', ht⟩ :=
        MqttClient.unsubscribe_found topic ok hlist hln hl
      refine ⟨_, _, _, hexec, l', hlist', ?_⟩
      have hlen' := congrArg List.length ht
      simp only [topics, List.length_map, List.length_append, List.length_cons] at hlen hlen'
      omega

/-- **The list is well formed** in a run in which the memory of a first subscription has no link,
and its calls return. In every list, `append_subscription` puts a new subscription at the end if and
only if it has no link. -/
theorem sublist_shape (hn : 1 ≤ n) (hr : ReachedClient n Blank c h) :
    (∃ l, WellFormed c l) ∧
      (∀ k : MqttCall, k.Fresh c → Blank c k → (k.exec n c).isSome = true) ∧
      ∀ heap sublist l sub s, Subscriptions heap sublist l → l.length ≤ n → heap sub = some s →
        sub ≠ 0 → sub ∉ l.map Prod.fst → (Appends n heap sublist l sub ↔ s.next = 0) := by
  have hshort : Short c := by
    induction hr with
    | ctor => exact ⟨[], rfl, Nat.zero_le 1⟩
    | call _ hfresh hblank hexec ih =>
      obtain ⟨c', ret, out, hexec', hs⟩ := ih.exec hn hfresh hblank
      rw [hexec] at hexec'
      cases hexec'
      exact hs
  obtain ⟨l, hlist, -⟩ := id hshort
  refine ⟨⟨l, wellFormed_of_chain hlist⟩, fun k hfresh hblank => ?_, ?_⟩
  · obtain ⟨c', ret, out, hexec, -⟩ := hshort.exec hn hfresh hblank
    exact Option.isSome_of_eq_some hexec
  · exact fun heap sublist l sub s hl hln hsub h0 hnew => appends_iff hl hln hsub h0 hnew

theorem reached_blank :
    ReachedClient 1 Blank subscribedAx [.mqttSubscribe mqttCtxId topicAx 1 1 true] :=
  .call (k := .subscribe topicAx 1 (some 64) 0 (some (8, 0)) true) .ctor ⟨by decide, rfl⟩
    (fun _ => rfl) rfl

theorem sublist_shape_subscribedAx : ∃ l, WellFormed subscribedAx l :=
  (sublist_shape (Nat.le_refl 1) reached_blank).1

/-- The memory of the first subscription links to itself. -/
def looped : MqttClient where
  heap := Function.update (fun _ => none) 8 (some ⟨1, 1, topicAx, some 64, 0, 8⟩)
  sublist := 8
  nmid := 2

/-- After one subscription the list does not end. -/
theorem sublist_shape_looped : ¬ ∀ n c h, 1 ≤ n → ReachedClient n (fun _ _ => True) c h →
    ∃ l, WellFormed c l := by
  intro hall
  have hr : ReachedClient 1 (fun _ _ => True) looped [.mqttSubscribe mqttCtxId topicAx 1 1 true] :=
    .call (k := .subscribe topicAx 1 (some 64) 0 (some (8, 8)) true) .ctor ⟨by decide, rfl⟩
      trivial rfl
  obtain ⟨l, hl⟩ := hall 1 looped _ (Nat.le_refl 1) hr
  have hloop {l : List (Nat × MqttSubscription)} (h : Subscriptions looped.heap 8 l) : False := by
    induction l with
    | nil => cases h
    | cons d l ih =>
      obtain ⟨hd, -, hcell, hrest⟩ := h
      rw [← hd] at hcell
      have hnext : 8 = d.2.next := congrArg MqttSubscription.next (Option.some.inj hcell)
      rw [← hnext] at hrest
      exact ih hrest
  exact hloop hl.chain

end Bg96
