import BG96Driver.Lib.Linked
import BG96Driver.Mqtt.Topic

/-!
# The subscription list of `BG96MQTTClient`

`_sublist` is a singly linked list of `MQTTSubscription` in the heap. The functions that search and
change it follow the links; each of their loops is a `Linked.walk`, of at most `n` turns. A result
`none` means that the source's behaviour is undefined, or that `n` turns are not enough.

* `findSubscriptionByTopic`, `appendSubscription`, `removeSubscription`: the source's functions.
* `Subscriptions`: the list in the heap. `found`: what `findSubscriptionByTopic` gives
  (`findSubscriptionByTopic_eq`): the first match, or else the last subscription.
-/

namespace Bg96

open Linked

/-- `MQTTSubscription`. A handler is the address of a function, `none` is `NULL`. -/
structure MqttSubscription where
  msgId : Int
  qos : Int
  topic : Topic
  handler : Option Nat
  param : Nat
  next : Nat
  deriving DecidableEq

/-- The subscriptions in the heap. -/
abbrev Heap := Mem MqttSubscription

/-- `iterator->next = sub`. -/
def setNext (heap : Heap) (iterator sub : Nat) : Heap :=
  Function.update heap iterator ((heap iterator).map fun s => { s with next := sub })

/-- `BG96MQTTClient::findSubscriptionByTopic`. The head is tested before the loop and in it. -/
def findSubscriptionByTopic (n : Nat) (heap : Heap) (sublist : Nat) (topic : Topic) : Option Nat :=
  if sublist ≠ 0 then
    (heap sublist).bind fun head =>
      (matchTopic head.topic.chars topic.chars).bind fun b =>
        if b then some sublist
        else walk MqttSubscription.next
          (fun iterator => if iterator.next = 0 then some true
            else matchTopic iterator.topic.chars topic.chars) heap n sublist
  else some sublist

/-- `BG96MQTTClient::append_subscription` of a `sub` that is not `NULL`: the heap and `_sublist`
after it. -/
def appendSubscription (n : Nat) (heap : Heap) (sublist sub : Nat) : Option (Heap × Nat) :=
  if sublist = 0 then some (heap, sub)
  else (walk MqttSubscription.next (fun iterator => some (iterator.next = 0)) heap n sublist).bind
    fun iterator => some (setNext heap iterator sub, sublist)

/-- `BG96MQTTClient::remove_subscription` of a `sub` that is not `NULL`: the heap and `_sublist`
after it. -/
def removeSubscription (n : Nat) (heap : Heap) (sublist sub : Nat) : Option (Heap × Nat) :=
  if sublist = 0 then some (heap, sublist)
  else if sublist = sub then (heap sub).bind fun s => some (heap, if s.next ≠ 0 then s.next else 0)
  else (walk MqttSubscription.next (fun iterator => some (iterator.next = sub)) heap n sublist).bind
    fun iterator => (heap sub).bind fun s =>
      if s.next ≠ 0 then some (setNext (setNext heap iterator s.next) sub 0, sublist)
      else some (setNext heap iterator 0, sublist)

/-! ## The list -/

/-- The subscriptions `l`, with their addresses, are the list at `sublist`. -/
def Subscriptions (heap : Heap) (sublist : Nat) (l : List (Nat × MqttSubscription)) : Prop :=
  Segment MqttSubscription.next heap sublist l 0

/-- `matchTopic` holds of the subscription and the topic. -/
def Matches (topic : Topic) (c : Nat × MqttSubscription) : Bool := c.2.topic.path = topic.path

/-- The address of a cell, `0` for none. -/
def address (c : Option (Nat × MqttSubscription)) : Nat := c.elim 0 Prod.fst

/-- The address of the first subscription that matches the topic, `0` if there is none. -/
def firstMatch (topic : Topic) (l : List (Nat × MqttSubscription)) : Nat :=
  address (l.find? (Matches topic))

/-- What `findSubscriptionByTopic` finds: the first match, or else the last subscription. -/
def found (topic : Topic) (l : List (Nat × MqttSubscription)) : Option (Nat × MqttSubscription) :=
  (l.find? (Matches topic)).or l.getLast?

def topics (l : List (Nat × MqttSubscription)) : List Topic := l.map fun c => c.2.topic

variable {heap heap' : Heap} {sublist sub n : Nat} {topic : Topic} {s b : MqttSubscription}
  {l l₁ l₂ : List (Nat × MqttSubscription)} {c : Nat × MqttSubscription}

theorem matchTopic_matches (topic : Topic) (c : Nat × MqttSubscription) :
    matchTopic c.2.topic.chars topic.chars = some (Matches topic c) := matchTopic_eq ..

theorem setNext_eq (h : heap sub = some s) (p : Nat) :
    setNext heap sub p = Function.update heap sub (some { s with next := p }) := by
  rw [setNext, h]; rfl

/-- The loop of `findSubscriptionByTopic`. -/
theorem walk_found (h : Subscriptions heap sublist l) (hl : l ≠ []) (hn : l.length ≤ n) :
    walk MqttSubscription.next
      (fun iterator => if iterator.next = 0 then some true
        else matchTopic iterator.topic.chars topic.chars) heap n sublist =
      some (address (found topic l)) := by
  induction l generalizing sublist n with
  | nil => exact absurd rfl hl
  | cons c l ih =>
    obtain ⟨hp, -, hc, hnext⟩ := h
    obtain ⟨n, rfl⟩ := Nat.exists_eq_add_one.mpr (Nat.zero_lt_of_lt hn)
    have hc : heap sublist = some c.2 := hp ▸ hc
    have hnull := hnext.null_iff
    simp only [walk, hc]
    by_cases hlast : l = []
    · rw [if_pos (hnull.mpr hlast), hlast, hp]
      simp only [Option.bind_some, ↓reduceIte, found, List.find?_cons]
      split <;> rfl
    · rw [if_neg (mt hnull.mp hlast), matchTopic_matches, Option.bind_some]
      obtain ⟨d, l, rfl⟩ := List.exists_cons_of_ne_nil hlast
      by_cases hm : Matches topic c = true
      · rw [if_pos hm, hp, found, List.find?_cons_of_pos hm]
        rfl
      · rw [if_neg hm, ih hnext hlast (by simpa using hn), found, found,
          List.find?_cons_of_neg hm, List.getLast?_cons_cons]

/-- **`findSubscriptionByTopic`** gives the first match, and the last subscription if there is
none. -/
theorem findSubscriptionByTopic_eq (h : Subscriptions heap sublist l) (hn : l.length ≤ n)
    (topic : Topic) :
    findSubscriptionByTopic n heap sublist topic = some (address (found topic l)) := by
  cases l with
  | nil =>
    obtain rfl : sublist = 0 := h
    rfl
  | cons c l =>
    obtain ⟨hp, h0, hc, -⟩ := id h
    have hc' : heap sublist = some c.2 := hp ▸ hc
    rw [findSubscriptionByTopic, if_pos (hp ▸ h0), hc', Option.bind_some, matchTopic_matches,
      Option.bind_some]
    by_cases hm : Matches topic c = true
    · rw [if_pos hm, hp, found, List.find?_cons_of_pos hm]
      rfl
    · rw [if_neg hm, walk_found h (by simp) hn]

/-- `append_subscription` sets the link of the last cell. -/
theorem appendSubscription_last {q : Nat} {a : MqttSubscription}
    (h : Subscriptions heap sublist (l ++ [(q, a)])) (hn : (l ++ [(q, a)]).length ≤ n) :
    appendSubscription n heap sublist sub =
      some (Function.update heap q (some { a with next := sub }), sublist) := by
  have hne : sublist ≠ 0 := fun hs => by simpa using h.null_iff.mp hs
  have ha : heap q = some a := (h.mem (q, a) (by simp)).2
  have hq : a.next = 0 := by
    obtain ⟨r, -, -, -, -, hq⟩ := segment_append.mp h
    exact hq
  have hw : walk MqttSubscription.next (fun iterator => some (iterator.next = 0)) heap n sublist =
      some q := by
    refine walk_segment h (fun d hd => ?_) (by simp [hq]) (by simp at hn; omega)
    simp [h.next_ne_null hd]
  rw [appendSubscription, if_neg hne, hw, Option.bind_some, setNext_eq ha]

/-- **`append_subscription`** of a cell with no link. -/
theorem appendSubscription_eq (h : Subscriptions heap sublist l) (hb : heap sub = some b)
    (h0 : sub ≠ 0) (hfresh : sub ∉ l.map Prod.fst) (hnext : b.next = 0) (hn : l.length ≤ n) :
    ∃ heap' p l', appendSubscription n heap sublist sub = some (heap', p) ∧
      Subscriptions heap' p l' ∧ l'.map Prod.fst = l.map Prod.fst ++ [sub] ∧
      topics l' = topics l ++ [b.topic] := by
  cases l using List.reverseRecOn with
  | nil =>
    obtain rfl : sublist = 0 := h
    exact ⟨heap, sub, [(sub, b)], rfl, ⟨rfl, h0, hb, hnext⟩, rfl, rfl⟩
  | append_singleton l c =>
    obtain ⟨q, a⟩ := c
    exact ⟨_, _, l ++ [(q, { a with next := sub }), (sub, b)], appendSubscription_last h hn,
      h.append_cell hb h0 hfresh hnext rfl, by simp, by simp [topics]⟩

/-- `append_subscription` leaves the new cell as it is. -/
theorem appendSubscription_new (h : Subscriptions heap sublist l) (hfresh : sub ∉ l.map Prod.fst)
    (hn : l.length ≤ n) {p : Nat} (happ : appendSubscription n heap sublist sub = some (heap', p)) :
    heap' sub = heap sub := by
  cases l using List.reverseRecOn with
  | nil =>
    obtain rfl : sublist = 0 := h
    cases happ
    rfl
  | append_singleton l c =>
    obtain ⟨q, a⟩ := c
    have hq : sub ≠ q := by
      rintro rfl
      simp at hfresh
    rw [appendSubscription_last h hn] at happ
    cases happ
    exact Function.update_of_ne hq _ _

/-- What the cells of a list hold, but for their links. -/
def contents (l : List (Nat × MqttSubscription)) : List (Nat × MqttSubscription) :=
  l.map fun d => (d.1, { d.2 with next := 0 })

theorem map_fst_contents (l : List (Nat × MqttSubscription)) :
    (contents l).map Prod.fst = l.map Prod.fst := by simp [contents]

theorem topics_contents (l : List (Nat × MqttSubscription)) : topics (contents l) = topics l := by
  simp [contents, topics]

/-- `remove_subscription` of a cell of the list: the others hold what they held, and but for the
cell before it, they have the links that they had. -/
theorem removeSubscription_spec (h : Subscriptions heap sublist (l₁ ++ c :: l₂))
    (hn : (l₁ ++ c :: l₂).length ≤ n) :
    ∃ heap' p l', removeSubscription n heap sublist c.1 = some (heap', p) ∧
      Subscriptions heap' p l' ∧ contents l' = contents (l₁ ++ l₂) ∧
      (∃ q, heap' c.1 = some { c.2 with next := q }) ∧
      ∀ r, r ≠ c.1 → (∀ d ∈ l₁, d.2.next = c.1 → r ≠ d.1) → heap' r = heap r := by
  have hne : sublist ≠ 0 := fun hs => by simpa using h.null_iff.mp hs
  have hc : heap c.1 = some c.2 := (h.mem c (by simp)).2
  cases l₁ using List.reverseRecOn with
  | nil =>
    have hp : sublist = c.1 := h.1
    refine ⟨heap, c.2.next, l₂, ?_, h.2.2.2, rfl, ⟨c.2.next, hc⟩, fun _ _ _ => rfl⟩
    rw [removeSubscription, if_neg hne, if_pos hp, hc, Option.bind_some]
    by_cases h0 : c.2.next = 0
    · rw [if_neg (by simpa using h0), h0]
    · rw [if_pos h0]
  | append_singleton l₁ d =>
    obtain ⟨q, a⟩ := d
    have hhead : sublist ≠ c.1 := h.head_ne (by simp)
    rw [List.append_assoc] at h hn
    have ha : heap q = some a := (h.mem (q, a) (by simp)).2
    obtain ⟨r, -, hr⟩ := segment_append.mp h
    have hr : Segment MqttSubscription.next heap r ([(q, a)] ++ c :: l₂) 0 := hr
    have hqc : q ≠ c.1 := fun hq => hr.head_ne (by simp) (hr.1.trans hq)
    have hnext : a.next = c.1 := hr.2.2.2.1
    have hw : walk MqttSubscription.next (fun iterator => some (iterator.next = c.1)) heap n
        sublist = some q := by
      refine walk_segment h (fun e he => ?_) (by simp [hnext]) (by simp at hn; omega)
      simp [h.next_ne he]
    have hremove : removeSubscription n heap sublist c.1 =
        if c.2.next ≠ 0 then some (setNext (setNext heap q c.2.next) c.1 0, sublist)
        else some (setNext heap q 0, sublist) := by
      rw [removeSubscription, if_neg hne, if_neg hhead, hw, Option.bind_some, hc, Option.bind_some]
    have hcontents : contents (l₁ ++ (q, { a with next := c.2.next }) :: l₂) =
        contents (l₁ ++ [(q, a)] ++ l₂) := by simp [contents]
    -- both branches link `q` over the cell
    have hlinked (heap' : Heap) (x : Nat)
        (hother : ∀ s, s ≠ q → s ≠ c.1 → heap' s = heap s)
        (hq : heap' q = some { a with next := c.2.next })
        (hc' : heap' c.1 = some { c.2 with next := x })
        (hres : removeSubscription n heap sublist c.1 = some (heap', sublist)) :
        ∃ heap' p l', removeSubscription n heap sublist c.1 = some (heap', p) ∧
          Subscriptions heap' p l' ∧ contents l' = contents (l₁ ++ [(q, a)] ++ l₂) ∧
          (∃ q, heap' c.1 = some { c.2 with next := q }) ∧
          ∀ r, r ≠ c.1 → (∀ d ∈ l₁ ++ [(q, a)], d.2.next = c.1 → r ≠ d.1) → heap' r = heap r :=
      ⟨heap', sublist, l₁ ++ (q, { a with next := c.2.next }) :: l₂, hres,
        h.remove_cell (r := c.1) (b := c.2) rfl hother hq, hcontents, ⟨x, hc'⟩,
        fun r hrc hr => hother r (hr (q, a) (by simp) hnext) hrc⟩
    by_cases h0 : c.2.next = 0
    · refine hlinked (setNext heap q 0) c.2.next (fun s hsq _ => ?_) ?_ ?_ ?_
      · rw [setNext_eq ha, Function.update_of_ne hsq]
      · rw [setNext_eq ha, Function.update_self, h0]
      · rw [setNext_eq ha, Function.update_of_ne (Ne.symm hqc), hc]
      · rw [hremove, if_neg (by simpa using h0)]
    · have hc' : setNext heap q c.2.next c.1 = some c.2 := by
        rw [setNext_eq ha, Function.update_of_ne (Ne.symm hqc), hc]
      refine hlinked (setNext (setNext heap q c.2.next) c.1 0) 0 (fun s hsq hsc => ?_) ?_ ?_ ?_
      · rw [setNext_eq hc', Function.update_of_ne hsc, setNext_eq ha, Function.update_of_ne hsq]
      · rw [setNext_eq hc', Function.update_of_ne hqc, setNext_eq ha, Function.update_self]
      · rw [setNext_eq hc', Function.update_self]
      · rw [hremove, if_pos h0]

/-- **`remove_subscription`** of a cell of the list, which is freed then. -/
theorem removeSubscription_eq (h : Subscriptions heap sublist (l₁ ++ c :: l₂))
    (hn : (l₁ ++ c :: l₂).length ≤ n) :
    ∃ heap' p l', removeSubscription n heap sublist c.1 = some (heap', p) ∧
      (∃ s, heap' c.1 = some s ∧ s.topic = c.2.topic) ∧
      Subscriptions (Function.update heap' c.1 none) p l' ∧ topics l' = topics (l₁ ++ l₂) := by
  obtain ⟨heap', p, l', hres, hlist, hcontents, ⟨q, hc⟩, -⟩ := removeSubscription_spec h hn
  have hfst : l'.map Prod.fst = (l₁ ++ l₂).map Prod.fst := by
    rw [← map_fst_contents, hcontents, map_fst_contents]
  have hnot : c.1 ∉ l'.map Prod.fst := hfst ▸ h.not_mem_others
  refine ⟨heap', p, l', hres, ⟨_, hc, rfl⟩, hlist.update hnot none, ?_⟩
  rw [← topics_contents, hcontents, topics_contents]

end Bg96
