import BG96Driver.Lib.Walk
import BG96Driver.Modem.Channel
import Mathlib.Data.List.Infix

/-!
# The messages of the MQTT client

The modem sends a message as a line that nobody asked for. The driver does not keep such lines:
`mqtt_recv` takes the first one that is unread, and every other operation skips, with its `recv`,
the messages that come before its own answer.

* `Mailbox`, `mailbox`: the unread input, with all the messages that have arrived.
* `Exchange`: the operations, each a call of `mqtt_recv` with its result or another operation.
* `taken`: the number of messages that are no longer unread. `Returns`: what `mqtt_recv` takes.
* `messages_taken_once`: exactly one operation takes a message, and `mqtt_recv` returns what it
  takes.
-/

namespace Bg96.Mqtt

open Program Modem Transitions

/-! ## Messages -/

section Mailbox

variable (scan : Format → Line → Option (List Value)) (mqttId : Int)

/-- The topic and the payload, if the values are of a message for the client. -/
def ours : Option (List Value) → Option (String × String)
  | some vs => if intAt vs 0 = mqttId then some (strAt vs 2, strAt vs 3) else none
  | none => none

/-- What `mqtt_recv` reads in a line, if it is a message for the client. -/
def message (l : InfoLine) : Option (String × String) := ours mqttId (scan qmtrecv (.text l))

def itemMessage : Item → Option InfoLine
  | .line (.text l) => if (message scan mqttId l).isSome then some l else none
  | _ => none

/-- The messages in the unread input, the oldest first. -/
def messages (input : List Item) : List InfoLine := input.filterMap (itemMessage scan mqttId)

/-- The channel, and the messages that have arrived. -/
structure Mailbox where
  channel : Channel
  arrived : List InfoLine

/-- What has come in a call: the lines before its answer, and the answer. -/
def mailbox : Env Mailbox Call Call.Reply := fun s c r s' =>
  ∃ (urcs : List Info) (items : List Item),
    answers scan { s.channel with input := s.channel.input ++ urcs.map Info.item } c r s'.channel ∧
    (match c, r with
      | .send _, true => s'.channel.input = s.channel.input ++ urcs.map Info.item ++ items
      | _, _ => items = []) ∧
    s'.arrived = s.arrived ++ messages scan mqttId (urcs.map Info.item ++ items)

end Mailbox

variable {scan : Format → Line → Option (List Value)} {mqttId : Int} {s s' : Mailbox} {c : Call}
  {r : c.Reply}

/-- The mailbox is the channel. -/
theorem mailbox_channel (h : mailbox scan mqttId s c r s') :
    channel scan s.channel c r s'.channel := by
  obtain ⟨urcs, items, h, -⟩ := h
  exact ⟨urcs, h⟩

theorem channel_mailbox {ch ch' : Channel} (h : channel scan ch c r ch') (arrived : List InfoLine) :
    ∃ arrived', mailbox scan mqttId ⟨ch, arrived⟩ c r ⟨ch', arrived'⟩ := by
  obtain ⟨urcs, h⟩ := h
  cases c with
  | send cmd =>
    cases r with
    | true =>
      obtain ⟨a, rfl⟩ := h
      exact ⟨_, urcs, a.items, ⟨a, rfl⟩, rfl, rfl⟩
    | false => exact ⟨_, urcs, [], h, rfl, rfl⟩
  | _ => exact ⟨_, urcs, [], h, rfl, rfl⟩

theorem messages_append (a b : List Item) :
    messages scan mqttId (a ++ b) = messages scan mqttId a ++ messages scan mqttId b :=
  List.filterMap_append

theorem messages_bytes (bs : List UInt8) (input : List Item) :
    messages scan mqttId (bs.map .byte ++ input) = messages scan mqttId input := by
  induction bs with
  | nil => rfl
  | cons b bs ih => exact ih

theorem messages_takeByte (input : List Item) :
    messages scan mqttId (takeByte input).2 <:+ messages scan mqttId input := by
  cases input with
  | nil => exact List.suffix_refl _
  | cons i input =>
    cases i with
    | byte b => exact List.suffix_refl _
    | line l =>
      rw [takeByte, messages_bytes]
      exact (List.suffix_cons (Item.line l) input).filterMap _

theorem messages_takeBytes (n : Nat) (input : List Item) :
    messages scan mqttId (takeBytes n input).2 <:+ messages scan mqttId input := by
  induction n generalizing input with
  | zero => exact List.suffix_refl _
  | succ n ih =>
    have hbyte : messages scan mqttId _ <:+ _ := messages_takeByte input
    unfold takeBytes
    split
    · rename_i h
      rwa [h] at hbyte
    · rename_i h
      rw [h] at hbyte
      exact (ih _).trans hbyte

/-! ## What a call does -/

/-- Messages come at the end, and go from the front. -/
def Moves (scan : Format → Line → Option (List Value)) (mqttId : Int) (s s' : Mailbox) : Prop :=
  ∃ new, s'.arrived = s.arrived ++ new ∧
    messages scan mqttId s'.channel.input <:+ messages scan mqttId s.channel.input ++ new

theorem Moves.refl (s : Mailbox) : Moves scan mqttId s s :=
  ⟨[], by simp, by simp⟩

theorem Moves.trans {s t u : Mailbox} (h : Moves scan mqttId s t) (h' : Moves scan mqttId t u) :
    Moves scan mqttId s u := by
  obtain ⟨new, harrived, hsuffix⟩ := h
  obtain ⟨new', harrived', hsuffix'⟩ := h'
  refine ⟨new ++ new', by rw [harrived', harrived, List.append_assoc], ?_⟩
  rw [← List.append_assoc]
  refine hsuffix'.trans ?_
  obtain ⟨gone, hgone⟩ := hsuffix
  exact ⟨gone, by rw [← List.append_assoc, hgone]⟩

theorem moves_of_suffix {urcs : List Info} {items : List Item}
    (h : messages scan mqttId s'.channel.input <:+
      messages scan mqttId (s.channel.input ++ urcs.map Info.item ++ items))
    (harrived : s'.arrived = s.arrived ++ messages scan mqttId (urcs.map Info.item ++ items)) :
    Moves scan mqttId s s' := by
  refine ⟨_, harrived, ?_⟩
  rwa [← messages_append, ← List.append_assoc]

theorem mailbox_moves (h : mailbox scan mqttId s c r s') : Moves scan mqttId s s' := by
  obtain ⟨urcs, items, h, hitems, harrived⟩ := h
  refine moves_of_suffix ?_ harrived
  cases c with
  | send cmd =>
    cases r with
    | true =>
      rw [show s'.channel.input = _ from hitems]
    | false =>
      obtain rfl : items = [] := hitems
      rw [show s'.channel = _ from h, List.append_nil]
  | recv pattern =>
    obtain rfl : items = [] := hitems
    rw [List.append_nil, show s'.channel.input = _ from congrArg Prod.snd h.1]
    exact (receive_suffix pattern _).filterMap _
  | read size =>
    obtain rfl : items = [] := hitems
    rw [List.append_nil, show s'.channel.input = _ from congrArg Prod.snd h.1]
    exact messages_takeBytes _ _
  | getc =>
    obtain rfl : items = [] := hitems
    rw [List.append_nil, show s'.channel.input = _ from congrArg Prod.snd h.1]
    exact messages_takeByte _
  | flush =>
    rw [show s'.channel = _ from h]
    exact List.nil_suffix
  | _ =>
    obtain rfl : items = [] := hitems
    rw [show s'.channel = _ from h, List.append_nil]

/-- Every program only moves messages. -/
theorem program_moves {α : Type} (p : At α) :
    Leads (mailbox scan mqttId) True (Moves scan mqttId) p :=
  leads_of_step Moves.refl (fun _ _ _ => Moves.trans) (fun _ _ _ _ => mailbox_moves) p

/-! ## What `mqtt_recv` takes -/

/-- Only lines come. -/
def Adds (scan : Format → Line → Option (List Value)) (mqttId : Int) (s s' : Mailbox) : Prop :=
  ∃ urcs : List Info, s'.channel.input = s.channel.input ++ urcs.map Info.item ∧
    s'.arrived = s.arrived ++ messages scan mqttId (urcs.map Info.item)

/-- The pattern of `mqtt_recv` matches no final line. -/
def ScansMail (scan : Format → Line → Option (List Value)) : Prop :=
  scan qmtrecv .ok = none ∧ scan qmtrecv .error = none

theorem messages_cons_line (l : Line) (input : List Item) :
    messages scan mqttId (.line l :: input) =
      messages scan mqttId [.line l] ++ messages scan mqttId input :=
  messages_append [.line l] input

theorem messages_unmatched {l : Line} (h : scan qmtrecv l = none) :
    messages scan mqttId [.line l] = [] := by
  cases l with
  | text l => simp [messages, itemMessage, message, ours, h]
  | ok | error => rfl

variable (mqttId) in
/-- `recv` takes the first line that its pattern matches: no message is before it. -/
theorem receive_messages (hscan : ScansMail scan) (input : List Item) :
    match (receive scan qmtrecv input).1 with
    | none => messages scan mqttId input = []
    | some vs => ∃ l, .line (.text l) ∈ input ∧ scan qmtrecv (.text l) = some vs ∧
        messages scan mqttId input =
          messages scan mqttId [.line (.text l)] ++
            messages scan mqttId (receive scan qmtrecv input).2 := by
  induction input with
  | nil => exact rfl
  | cons i input ih =>
    -- the item is passed
    have hpass : match (receive scan qmtrecv input).1 with
        | none => messages scan mqttId input = []
        | some vs => ∃ l, .line (.text l) ∈ i :: input ∧ scan qmtrecv (.text l) = some vs ∧
            messages scan mqttId input =
              messages scan mqttId [.line (.text l)] ++
                messages scan mqttId (receive scan qmtrecv input).2 := by
      revert ih
      cases (receive scan qmtrecv input).1 with
      | none => exact id
      | some vs =>
        rintro ⟨l, hmem, hl, hmessages⟩
        exact ⟨l, List.mem_cons_of_mem _ hmem, hl, hmessages⟩
    cases i with
    | byte b => exact hpass
    | line l =>
      rw [messages_cons_line]
      cases hl : scan qmtrecv l with
      | some vs =>
        simp only [receive, hl]
        cases l with
        | text l => exact ⟨l, List.mem_cons_self, hl, rfl⟩
        | ok => rw [hscan.1] at hl; cases hl
        | error => rw [hscan.2] at hl; cases hl
      | none =>
        simp only [receive, hl]
        rw [messages_unmatched hl]
        exact hpass

/-- What comes later does not change the line that `recv` takes. -/
theorem receive_append {pattern : Format} {input : List Item} {vs : List Value}
    (h : (receive scan pattern input).1 = some vs) (more : List Item) :
    (receive scan pattern (input ++ more)).1 = some vs := by
  induction input with
  | nil => cases h
  | cons i input ih =>
    cases i with
    | byte b => exact ih h
    | line l =>
      rw [List.cons_append, receive]
      rw [receive] at h
      split at h
      · exact h
      · exact ih h

theorem Adds.trans {s t u : Mailbox} (h : Adds scan mqttId s t) (h' : Adds scan mqttId t u) :
    Adds scan mqttId s u := by
  obtain ⟨urcs, hinput, harrived⟩ := h
  obtain ⟨urcs', hinput', harrived'⟩ := h'
  refine ⟨urcs ++ urcs', ?_, ?_⟩
  · rw [hinput', hinput, List.map_append, List.append_assoc]
  · rw [harrived', harrived, List.map_append, messages_append, List.append_assoc]

/-- The calls around `recv`. -/
theorem mailbox_adds (hc : c = .lock ∨ c = .unlock ∨ ∃ ms, c = .setTimeout ms)
    (h : mailbox scan mqttId s c r s') : Adds scan mqttId s s' := by
  obtain ⟨urcs, items, h, hitems, harrived⟩ := h
  rcases hc with rfl | rfl | ⟨ms, rfl⟩ <;>
  · obtain rfl : items = [] := hitems
    rw [List.append_nil] at harrived
    exact ⟨urcs, by rw [show s'.channel = _ from h], harrived⟩

/-- Every line in the unread input that the pattern of `mqtt_recv` matches is for the client. -/
def OnlyOurs (scan : Format → Line → Option (List Value)) (mqttId : Int) (input : List Item) :
    Prop :=
  ∀ l vs, .line (.text l) ∈ input → scan qmtrecv (.text l) = some vs → intAt vs 0 = mqttId

/-- A call of `mqtt_recv` takes the message that it returns, which is the oldest one, and no other;
it returns one if it finds one. -/
structure Takes (scan : Format → Line → Option (List Value)) (mqttId : Int) (s : Mailbox)
    (m : Option (String × String)) (s' : Mailbox) : Prop where
  moves : ∃ new, s'.arrived = s.arrived ++ new ∧
    match m with
    | none => messages scan mqttId s.channel.input ++ new = messages scan mqttId s'.channel.input
    | some m => ∃ l, message scan mqttId l = some m ∧
        messages scan mqttId s.channel.input ++ new = l :: messages scan mqttId s'.channel.input
  finds : OnlyOurs scan mqttId s.channel.input → messages scan mqttId s.channel.input ≠ [] →
    m.isSome = true

/-- If there is a message and all are for the client, `recv` takes one of these. -/
theorem receive_ours (hscan : ScansMail scan) {input : List Item}
    (hours : OnlyOurs scan mqttId input) (hne : messages scan mqttId input ≠ [])
    (more : List Item) :
    ∃ vs, (receive scan qmtrecv (input ++ more)).1 = some vs ∧ intAt vs 0 = mqttId := by
  have hmessages := receive_messages mqttId hscan input
  cases hvs : (receive scan qmtrecv input).1 with
  | none =>
    rw [hvs] at hmessages
    exact absurd hmessages hne
  | some vs =>
    rw [hvs] at hmessages
    obtain ⟨l, hmem, hl, -⟩ := hmessages
    exact ⟨vs, receive_append hvs more, hours l vs hmem hl⟩

theorem mqttRecv_spec (hscan : ScansMail scan) (s : Mailbox) :
    wp (mailbox scan mqttId) False (Takes scan mqttId s) (mqttRecv mqttId) s := by
  rintro _ s₁ h₁ _ s₂ h₂ vs s₃ ⟨urcs, items, ⟨hrecv, -⟩, hitems, harrived₃⟩ _ s₄ h₄ _ s₅ h₅
  obtain rfl : items = [] := hitems
  obtain ⟨before, hinput₂, harrived₂⟩ :=
    (mailbox_adds (.inl rfl) h₁).trans (mailbox_adds (.inr (.inr ⟨_, rfl⟩)) h₂)
  obtain ⟨after, hinput₅, harrived₅⟩ :=
    (mailbox_adds (.inr (.inr ⟨_, rfl⟩)) h₄).trans (mailbox_adds (.inr (.inl rfl)) h₅)
  rw [List.append_nil] at harrived₃
  have hrecv : receive scan qmtrecv (s.channel.input ++
      (before.map Info.item ++ urcs.map Info.item)) = (vs, s₃.channel.input) := by
    rw [← List.append_assoc, ← hinput₂]
    exact hrecv.symm
  have harrived : s₅.arrived = s.arrived ++ (messages scan mqttId (before.map Info.item ++
      urcs.map Info.item) ++ messages scan mqttId (after.map Info.item)) := by
    rw [harrived₅, harrived₃, harrived₂, messages_append]
    simp
  have hmessages₅ : messages scan mqttId s₅.channel.input =
      messages scan mqttId s₃.channel.input ++ messages scan mqttId (after.map Info.item) := by
    rw [hinput₅, messages_append]
  have hmessages := receive_messages mqttId hscan
    (s.channel.input ++ (before.map Info.item ++ urcs.map Info.item))
  rw [hrecv] at hmessages
  show Takes scan mqttId s (ours mqttId vs) s₅
  refine ⟨⟨_, harrived, ?_⟩, fun hours hne => ?_⟩
  · rw [← List.append_assoc, ← messages_append]
    cases vs with
    | none =>
      have hnil : s₃.channel.input = [] := by
        have h := receive_none (congrArg Prod.fst hrecv)
        rw [hrecv] at h
        exact h
      rw [hmessages₅, hnil, show messages scan mqttId (_ ++ _) = [] from hmessages]
      rfl
    | some vs =>
      obtain ⟨l, -, hl, hmessages⟩ := hmessages
      rw [hmessages, hmessages₅, List.append_assoc]
      by_cases hid : intAt vs 0 = mqttId
      · have hmessage : message scan mqttId l = some (strAt vs 2, strAt vs 3) := by
          simp [message, ours, hl, hid]
        rw [ours, if_pos hid]
        exact ⟨l, hmessage, by simp [messages, itemMessage, hmessage]⟩
      · have hmessage : message scan mqttId l = none := by simp [message, ours, hl, hid]
        rw [ours, if_neg hid]
        simp [messages, itemMessage, hmessage]
  · obtain ⟨vs', hvs', hid⟩ := receive_ours hscan hours hne
      (before.map Info.item ++ urcs.map Info.item)
    rw [hrecv] at hvs'
    obtain rfl : vs = some vs' := hvs'
    simp [ours, hid]

/-! ## Operations one after the other -/

/-- No input, and no message. -/
def Mailbox.empty : Mailbox := ⟨⟨[], []⟩, []⟩

/-- A call of `mqtt_recv` for the client with its result, or another operation. -/
inductive Label where
  | received (m : Option (String × String))
  | other (op : Op)

/-- The operations that return. Messages may arrive at each of their calls. -/
inductive Exchange (scan : Format → Line → Option (List Value)) (mqttId : Int) :
    Mailbox → Label → Mailbox → Prop where
  | received {s s' : Mailbox} {m : Option (String × String)}
    (h : Runs (mailbox scan mqttId) (mqttRecv mqttId) s (some m) s') :
    Exchange scan mqttId s (.received m) s'
  | other {s s' : Mailbox} {n : Nat} {self : BG96} {op : Op} {a : BG96 × Bool}
    (hop : op ≠ .mqttRecv mqttId)
    (h : Runs (mailbox scan mqttId) (op.prog n self) s (some a) s') :
    Exchange scan mqttId s (.other op) s'

/-- The number of messages that have arrived and are not unread. -/
def taken (scan : Format → Line → Option (List Value)) (mqttId : Int) (s : Mailbox) : Nat :=
  s.arrived.length - (messages scan mqttId s.channel.input).length

/-- The unread messages are the last ones that have arrived. -/
def Unread (scan : Format → Line → Option (List Value)) (mqttId : Int) (s : Mailbox) : Prop :=
  messages scan mqttId s.channel.input <:+ s.arrived

theorem Moves.unread (h : Moves scan mqttId s s') (hs : Unread scan mqttId s) :
    Unread scan mqttId s' := by
  obtain ⟨new, harrived, hsuffix⟩ := h
  obtain ⟨gone, hgone⟩ := hs
  rw [Unread, harrived, ← hgone]
  exact hsuffix.trans ⟨gone, (List.append_assoc ..).symm⟩

theorem Moves.taken_le (h : Moves scan mqttId s s') :
    taken scan mqttId s ≤ taken scan mqttId s' := by
  obtain ⟨new, harrived, hsuffix⟩ := h
  have hle := hsuffix.length_le
  rw [List.length_append] at hle
  rw [taken, taken, harrived, List.length_append]
  omega

theorem Exchange.moves {l : Label} (h : Exchange scan mqttId s l s') : Moves scan mqttId s s' := by
  cases h with
  | received h => exact h.ends (program_moves _ s)
  | other hop h => exact h.ends (program_moves _ s)

/-- A call of `mqtt_recv` takes the oldest unread message and returns it, or takes none and returns
none; it finds a message if there is one and all are for the client. -/
def Returns (scan : Format → Line → Option (List Value)) (mqttId : Int) (s : Mailbox)
    (m : Option (String × String)) (s' : Mailbox) : Prop :=
  (m = none ∧ taken scan mqttId s' = taken scan mqttId s ∨
    taken scan mqttId s' = taken scan mqttId s + 1 ∧ m.isSome ∧
      (s'.arrived[taken scan mqttId s]?).bind (message scan mqttId) = m) ∧
  (OnlyOurs scan mqttId s.channel.input → messages scan mqttId s.channel.input ≠ [] → m.isSome)

theorem Takes.returns {m : Option (String × String)} (h : Takes scan mqttId s m s')
    (hs : Unread scan mqttId s) : Returns scan mqttId s m s' := by
  refine ⟨?_, h.finds⟩
  obtain ⟨⟨new, harrived, hm⟩, -⟩ := h
  obtain ⟨gone, hgone⟩ := hs
  have htaken : taken scan mqttId s = gone.length := by
    rw [taken, ← hgone, List.length_append]
    omega
  cases m with
  | none =>
    refine .inl ⟨rfl, ?_⟩
    rw [htaken, taken, harrived, ← hgone, List.append_assoc, hm, List.length_append]
    omega
  | some m =>
    obtain ⟨l, hl, hm⟩ := hm
    rw [← hgone, List.append_assoc, hm] at harrived
    refine .inr ⟨?_, rfl, ?_⟩
    · rw [htaken, taken, harrived, List.length_append, List.length_cons]
      omega
    · rw [harrived, htaken, List.getElem?_append_right (Nat.le_refl _), Nat.sub_self]
      exact hl

/-- A message that has arrived is unread, and no operation has taken it; or exactly one operation
has taken it, and if that is a call of `mqtt_recv` it has returned it. -/
def Accounted (scan : Format → Line → Option (List Value)) (mqttId : Int)
    (hist : List (Mailbox × Label × Mailbox)) (s : Mailbox) (k : Nat) : Prop :=
  taken scan mqttId s ≤ k ∧ hist.filter (crosses (taken scan mqttId) k) = [] ∨
    ∃ t, hist.filter (crosses (taken scan mqttId) k) = [t] ∧
      ∀ m, t.2.1 = .received m → m.isSome ∧ (s.arrived[k]?).bind (message scan mqttId) = m

theorem Exchange.steps {l : Label} (hscan : ScansMail scan) (hs : Unread scan mqttId s)
    (h : Exchange scan mqttId s l s') :
    Unread scan mqttId s' ∧ taken scan mqttId s ≤ taken scan mqttId s' ∧
      ∀ m, l = .received m → Returns scan mqttId s m s' := by
  refine ⟨h.moves.unread hs, h.moves.taken_le, ?_⟩
  rintro m rfl
  cases h with
  | received h => exact (h.ends (mqttRecv_spec hscan s)).returns hs

/-- What has arrived stays. -/
theorem Exchange.arrived_prefix {l : Label} (h : Exchange scan mqttId s l s') :
    s.arrived <+: s'.arrived := by
  obtain ⟨new, harrived, -⟩ := h.moves
  exact ⟨new, harrived.symm⟩

/-- A call of `mqtt_recv` that takes message `k` returns it. -/
theorem Returns.taken_message {m : Option (String × String)} {k : Nat}
    (h : Returns scan mqttId s m s') (hk : taken scan mqttId s ≤ k)
    (hk' : k < taken scan mqttId s') :
    m.isSome ∧ (s'.arrived[k]?).bind (message scan mqttId) = m := by
  obtain ⟨⟨-, hnone⟩ | ⟨hone, hsome, hm⟩, -⟩ := h
  · omega
  · obtain rfl : k = taken scan mqttId s := by omega
    exact ⟨hsome, hm⟩

/-- **Messages are taken once.** Each message that arrives is taken by exactly one operation, once
it is not unread any more; a call of `mqtt_recv` returns what it takes, and takes the oldest one. -/
theorem messages_taken_once {hist : List (Mailbox × Label × Mailbox)} (hscan : ScansMail scan)
    (h : Walk (Exchange scan mqttId) .empty hist s) :
    (∀ k, k < s.arrived.length → Accounted scan mqttId hist s k) ∧
      ∀ t ∈ hist, ∀ m, t.2.1 = .received m → Returns scan mqttId t.1 m t.2.2 := by
  have hempty : Unread scan mqttId .empty := List.suffix_refl _
  obtain ⟨-, hsteps⟩ := h.forall_steps hempty fun s l s' hs h => h.steps hscan hs
  have hprefix : ∀ t ∈ hist, t.2.2.arrived <+: s.arrived :=
    h.last_after (R := fun s s' => s.arrived <+: s'.arrived) (fun _ => List.prefix_refl _)
      (fun _ _ _ => List.IsPrefix.trans) fun _ _ _ h => h.arrived_prefix
  refine ⟨fun k _ => ?_, fun t ht m hm => (hsteps t ht).2 m hm⟩
  rcases h.crosses_once (k := k) (fun t ht => (hsteps t ht).1) (Nat.zero_le k) with
    hunread | ⟨-, t, ht⟩
  · exact .inl hunread
  · refine .inr ⟨t, ht, fun m hm => ?_⟩
    obtain ⟨hmem, hcross⟩ := List.mem_filter.mp (ht.symm ▸ List.mem_singleton_self t)
    simp only [crosses, Bool.and_eq_true, decide_eq_true_eq] at hcross
    obtain ⟨hsome, hmessage⟩ := ((hsteps t hmem).2 m hm).taken_message hcross.1 hcross.2
    refine ⟨hsome, ?_⟩
    -- the message is still the one that the call took
    cases hk : t.2.2.arrived[k]? with
    | none =>
      rw [hk] at hmessage
      rw [← hmessage] at hsome
      cases hsome
    | some l =>
      obtain ⟨later, hlater⟩ := hprefix t hmem
      obtain ⟨hlt, -⟩ := List.getElem?_eq_some_iff.mp hk
      rw [← hlater, List.getElem?_append_left hlt, hmessage]

/-- The line of a message for client 0. -/
def mail : InfoLine := ⟨"+QMTRECV: 0,0,\"a/b\",\"hi\"", by decide⟩

/-- The pattern `OK` matches the final line, the pattern of `mqtt_recv` the line of the message. -/
def mailScan (pattern : Format) : Line → Option (List Value)
  | .ok => if pattern = okFormat then some [] else none
  | .text l =>
    if pattern = qmtrecv ∧ l = mail then some [.int 0, .int 0, .str "a/b", .str "\"hi\""] else none
  | .error => none

/-- Nothing need come in the calls around `send` and `recv`. -/
theorem mailbox_quiet (hc : c = .lock ∨ c = .unlock ∨ ∃ ms, c = .setTimeout ms) :
    mailbox scan mqttId s c r s := by
  rcases hc with rfl | rfl | ⟨ms, rfl⟩ <;>
  exact ⟨[], [], by simp [answers], rfl, by simp [messages]⟩

/-- A message that comes when `mqtt_recv` locks is returned. -/
theorem messages_taken_once_received :
    Accounted mailScan 0 [(.empty, .received (some ("a/b", "\"hi\"")), ⟨⟨[], []⟩, [mail]⟩)]
      ⟨⟨[], []⟩, [mail]⟩ 0 := by
  refine (messages_taken_once ⟨by decide, by decide⟩ (.cons .nil (.received ?_))).1 0 (by decide)
  have hlock : mailbox mailScan 0 .empty .lock () ⟨⟨[.line (.text mail)], []⟩, [mail]⟩ :=
    ⟨[.text mail], [], rfl, rfl, by decide⟩
  have hrecv : mailbox mailScan 0 ⟨⟨[.line (.text mail)], []⟩, [mail]⟩ (.recv qmtrecv)
      (some [.int 0, .int 0, .str "a/b", .str "\"hi\""]) ⟨⟨[], []⟩, [mail]⟩ :=
    ⟨[], [], ⟨by decide, rfl⟩, rfl, by decide⟩
  refine .call (r := ()) hlock (.call (r := ()) (mailbox_quiet (.inr (.inr ⟨_, rfl⟩))) ?_)
  refine .call hrecv (.call (r := ()) (mailbox_quiet (.inr (.inr ⟨_, rfl⟩))) ?_)
  exact .call (r := ()) (mailbox_quiet (.inr (.inl rfl))) (.ret _ _)

/-- The command of the subscription to `a/b`. -/
def subscribe : Format := ⟨"AT+QMTSUB=%d,%d,\"%s\",%d", [.int 0, .int 1, .str "a/b", .int 1]⟩

/-- A message that comes before the `OK` of a subscription is lost: no call of `mqtt_recv` can
return it. -/
theorem messages_taken_once_subscribe :
    ¬ ∀ hist s, Walk (Exchange mailScan 0) .empty hist s → ∀ k, k < s.arrived.length →
      taken mailScan 0 s ≤ k ∨
        ∃ t, hist.filter (crosses (taken mailScan 0) k) = [t] ∧
          ∃ m, t.2.1 = .received (some m) ∧ (s.arrived[k]?).bind (message mailScan 0) = some m := by
  intro h
  have hsend : mailbox mailScan 0 .empty (.send subscribe) true
      ⟨⟨[.line (.text mail), .line .ok], [⟨subscribe, true, true⟩]⟩, [mail]⟩ :=
    ⟨[], [.line (.text mail), .line .ok], ⟨⟨[.text mail], true, []⟩, rfl⟩, rfl, by decide⟩
  have hrecv : mailbox mailScan 0
      ⟨⟨[.line (.text mail), .line .ok], [⟨subscribe, true, true⟩]⟩, [mail]⟩ (.recv okFormat)
      (some []) ⟨⟨[], [⟨subscribe, true, true⟩]⟩, [mail]⟩ :=
    ⟨[], [], ⟨by decide, rfl⟩, rfl, by decide⟩
  have hrun : Runs (mailbox mailScan 0) ((Op.mqttSubscribe 0 "a/b" 1 1).prog 0 .ctor) .empty
      (some (.ctor, true)) ⟨⟨[], [⟨subscribe, true, true⟩]⟩, [mail]⟩ := by
    refine .call (r := ()) (mailbox_quiet (.inl rfl)) ?_
    refine .call (r := ()) (mailbox_quiet (.inr (.inr ⟨_, rfl⟩))) ?_
    refine .call hsend (.call hrecv ?_)
    refine .call (r := ()) (mailbox_quiet (.inr (.inr ⟨_, rfl⟩))) ?_
    exact .call (r := ()) (mailbox_quiet (.inr (.inl rfl))) (.ret _ _)
  have hstep : Exchange mailScan 0 .empty (.other (.mqttSubscribe 0 "a/b" 1 1)) _ :=
    .other nofun hrun
  rcases h _ _ (.cons .nil hstep) 0 (by decide) with hunread | ⟨t, ht, m, hm, -⟩
  · revert hunread
    decide
  · rw [List.filter_cons_of_pos (by decide)] at ht
    obtain rfl := (List.cons.inj ht).1
    cases hm

end Bg96.Mqtt
