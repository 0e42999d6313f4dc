import BG96Driver.Modem.Operation

/-!
# The answers of the module

The module answers every command that is sent: with lines of information and data, then one final
line `OK` or `ERROR`. Lines that nobody asked for may come at any time. The parser appends them to
the unread input; `recv` skips what comes before the line that its pattern matches, and all of the
input if no line does. The matching of a pattern and a line (`scan`) is a parameter.

* `Channel`: the unread input, and the commands that were sent, with their final lines.
* `channel`: the environment of the operations. `channel_step`, `channel_send`, `channel_recv` say
  what a call does to the number of unread `OK` (`oks`).
* `Clean`: no `OK` is unread. `Owned`: at most one is, and it is that of the last command.
-/

namespace Bg96.Modem

open Program

/-- A line that is not final, and which the pattern `OK` does not match: it begins otherwise. -/
structure InfoLine where
  text : String
  notOk : ¬ "OK".toList <+: text.toList
  deriving DecidableEq

/-- A line of the module. -/
inductive Line where
  | text (l : InfoLine)
  | ok
  | error
  deriving DecidableEq

/-- A part of the unread input: a line, or a byte of data, which no pattern matches. -/
inductive Item where
  | line (l : Line)
  | byte (b : UInt8)
  deriving DecidableEq

/-- What the module sends before the final line, or unasked. -/
inductive Info where
  | text (l : InfoLine)
  | byte (b : UInt8)
  deriving DecidableEq

def Info.item : Info → Item
  | .text l => .line (.text l)
  | .byte b => .byte b

/-- An answer: what comes before the final line, whether that is `OK`, and what comes after it. -/
structure Answer where
  info : List Info
  ok : Bool
  urcs : List Info

def Answer.items (a : Answer) : List Item :=
  a.info.map Info.item ++ .line (if a.ok then .ok else .error) :: a.urcs.map Info.item

/-- A command that was sent: was no `OK` unread then, and is its final line `OK`? -/
structure Sent where
  cmd : Format
  clean : Bool
  ok : Bool
  deriving DecidableEq

/-- The unread input, and the commands sent; the newest is the first. -/
structure Channel where
  input : List Item
  log : List Sent
  deriving DecidableEq

/-- The number of unread `OK`. -/
def oks (input : List Item) : Nat := input.count (.line .ok)

/-- `recv`: the values, and what is left unread. -/
def receive (scan : Format → Line → Option (List Value)) (pattern : Format) :
    List Item → Option (List Value) × List Item
  | [] => (none, [])
  | .byte _ :: input => receive scan pattern input
  | .line l :: input =>
    match scan pattern l with
    | some vs => (some vs, input)
    | none => receive scan pattern input

/-- The bytes of a line, with its end. -/
def Line.bytes : Line → List UInt8
  | .text l => l.text.toUTF8.toList ++ [13, 10]
  | .ok => [79, 75, 13, 10]
  | .error => [69, 82, 82, 79, 82, 13, 10]

/-- `getc`: the next byte. The rest of a line that it begins is no line any more. -/
def takeByte : List Item → Option UInt8 × List Item
  | [] => (none, [])
  | .byte b :: input => (some b, input)
  | .line l :: input => (l.bytes.head?, l.bytes.tail.map .byte ++ input)

/-- `read`: as many bytes as there are, up to `n`. -/
def takeBytes : Nat → List Item → List UInt8 × List Item
  | 0, input => ([], input)
  | n + 1, input =>
    match takeByte input with
    | (none, input) => ([], input)
    | (some b, input) => (b :: (takeBytes n input).1, (takeBytes n input).2)

/-- What a call gives, and the channel after it. A command that is not sent is not answered. -/
def answers (scan : Format → Line → Option (List Value)) (s : Channel) :
    (c : Call) → c.Reply → Channel → Prop
  | .send cmd, sent, s' =>
    if sent then ∃ a : Answer, s' = ⟨s.input ++ a.items, ⟨cmd, oks s.input = 0, a.ok⟩ :: s.log⟩
    else s' = s
  | .recv pattern, vs, s' => (vs, s'.input) = receive scan pattern s.input ∧ s'.log = s.log
  | .read size, r, s' =>
    (r.2, s'.input) = takeBytes size.toNat s.input ∧ s'.log = s.log ∧
      r.1 = if r.2.length = size.toNat then size else -1
  | .getc, b, s' => (b, s'.input) = takeByte s.input ∧ s'.log = s.log
  | .flush, _, s' => s' = { s with input := [] }
  | _, _, s' => s' = s

/-- The environment of the operations: before a call is answered, lines may come unasked. -/
def channel (scan : Format → Line → Option (List Value)) : Env Channel Call Call.Reply :=
  fun s c r s' => ∃ urcs : List Info,
    answers scan { s with input := s.input ++ urcs.map Info.item } c r s'

/-- The pattern `OK` matches the final line `OK` and no other line. -/
def ScansOk (scan : Format → Line → Option (List Value)) : Prop :=
  ∀ l, (scan okFormat l).isSome ↔ l = .ok

/-! ## The unread `OK` -/

variable {scan : Format → Line → Option (List Value)} {s s' : Channel} {input : List Item}

theorem oks_append (a b : List Item) : oks (a ++ b) = oks a + oks b := List.count_append

theorem oks_info (l : List Info) : oks (l.map Info.item) = 0 := by
  refine List.count_eq_zero.mpr fun h => ?_
  obtain ⟨i, -, hi⟩ := List.mem_map.mp h
  cases i <;> cases hi

theorem oks_items (a : Answer) : oks a.items = if a.ok then 1 else 0 := by
  have hcons (l : Line) (input : List Item) :
      oks (.line l :: input) = oks input + if l = .ok then 1 else 0 := by
    simp only [oks, List.count_cons, beq_iff_eq, Item.line.injEq]
  rw [Answer.items, oks_append, oks_info, hcons, oks_info]
  cases a.ok <;> rfl

theorem oks_byte (b : UInt8) (input : List Item) : oks (.byte b :: input) = oks input := by
  simp [oks]

/-- What `recv` leaves is an end of the input. -/
theorem receive_suffix (pattern : Format) (input : List Item) :
    (receive scan pattern input).2 <:+ input := by
  induction input with
  | nil => exact List.suffix_refl _
  | cons i input ih =>
    cases i with
    | byte b => exact ih.trans (List.suffix_cons ..)
    | line l =>
      unfold receive
      split
      · exact List.suffix_cons ..
      · exact ih.trans (List.suffix_cons ..)

theorem oks_receive (pattern : Format) (input : List Item) :
    oks (receive scan pattern input).2 ≤ oks input :=
  (receive_suffix pattern input).sublist.count_le _

/-- A `recv` that fails reads all of the input. -/
theorem receive_none {pattern : Format} (h : (receive scan pattern input).1 = none) :
    (receive scan pattern input).2 = [] := by
  induction input with
  | nil => rfl
  | cons i input ih =>
    cases i with
    | byte b => exact ih h
    | line l =>
      unfold receive at h ⊢
      split at h
      · cases h
      · exact ih h

/-- A `recv` of `OK` takes the first one. -/
theorem oks_receive_ok (hscan : ScansOk scan) (h : (receive scan okFormat input).1.isSome) :
    oks (receive scan okFormat input).2 + 1 = oks input := by
  induction input with
  | nil => cases h
  | cons i input ih =>
    cases i with
    | byte b =>
      rw [oks_byte]
      exact ih h
    | line l =>
      have hl := hscan l
      cases hvs : scan okFormat l with
      | some vs =>
        obtain rfl := hl.mp (by rw [hvs]; rfl)
        simp only [receive, hvs]
        simp [oks]
      | none =>
        have hne : l ≠ .ok := fun heq => by
          have := hl.mpr heq
          rw [hvs] at this
          cases this
        simp only [receive, hvs] at h ⊢
        rw [ih h]
        simp [oks, hne]

theorem oks_takeByte (input : List Item) : oks (takeByte input).2 ≤ oks input := by
  cases input with
  | nil => exact Nat.le_refl _
  | cons i input =>
    cases i with
    | byte b => rw [oks_byte]; exact Nat.le_refl _
    | line l =>
      have hbytes (bs : List UInt8) : oks (bs.map .byte) = 0 := by
        induction bs with
        | nil => rfl
        | cons b bs ih => rw [List.map_cons, oks_byte, ih]
      rw [takeByte, oks_append, hbytes, Nat.zero_add]
      exact List.count_le_count_cons

theorem oks_takeBytes (n : Nat) (input : List Item) : oks (takeBytes n input).2 ≤ oks input := by
  induction n generalizing input with
  | zero => exact Nat.le_refl _
  | succ n ih =>
    have hbyte := oks_takeByte input
    unfold takeBytes
    split
    · rename_i h
      rwa [h] at hbyte
    · rename_i h
      rw [h] at hbyte
      exact Nat.le_trans (ih _) hbyte

/-! ## What a call does -/

/-- A call that sends no command leaves at most as many unread `OK`. -/
theorem channel_step {c : Call} {r : c.Reply} (hc : ∀ cmd, c ≠ .send cmd)
    (h : channel scan s c r s') : s'.log = s.log ∧ oks s'.input ≤ oks s.input := by
  obtain ⟨urcs, h⟩ := h
  have hin : oks (s.input ++ urcs.map Info.item) = oks s.input := by
    rw [oks_append, oks_info, Nat.add_zero]
  rw [← hin]
  cases c with
  | send cmd => exact absurd rfl (hc cmd)
  | recv pattern =>
    obtain ⟨heq, hlog⟩ := h
    have hinput : s'.input = (receive scan pattern _).2 := congrArg Prod.snd heq
    exact ⟨hlog, hinput ▸ oks_receive pattern _⟩
  | read size =>
    obtain ⟨heq, hlog, -⟩ := h
    have hinput : s'.input = (takeBytes size.toNat _).2 := congrArg Prod.snd heq
    exact ⟨hlog, hinput ▸ oks_takeBytes _ _⟩
  | getc =>
    obtain ⟨heq, hlog⟩ := h
    have hinput : s'.input = (takeByte _).2 := congrArg Prod.snd heq
    exact ⟨hlog, hinput ▸ oks_takeByte _⟩
  | flush =>
    cases h
    exact ⟨rfl, Nat.zero_le _⟩
  | _ =>
    cases h
    exact ⟨rfl, Nat.le_refl _⟩

/-- A command that is sent adds its `OK`. -/
theorem channel_send {cmd : Format} (h : channel scan s (.send cmd) true s') :
    ∃ e, s'.log = e :: s.log ∧ e.cmd = cmd ∧ e.clean = decide (oks s.input = 0) ∧
      oks s'.input = oks s.input + if e.ok then 1 else 0 := by
  obtain ⟨urcs, a, rfl⟩ := h
  have hin : oks (s.input ++ urcs.map Info.item) = oks s.input := by
    rw [oks_append, oks_info, Nat.add_zero]
  refine ⟨_, rfl, rfl, by rw [hin], ?_⟩
  simp only [oks_append, oks_info, oks_items, Nat.add_zero]

/-- A command that is not sent has no answer. -/
theorem channel_unsent {cmd : Format} (h : channel scan s (.send cmd) false s') :
    s'.log = s.log ∧ oks s'.input = oks s.input := by
  obtain ⟨urcs, rfl⟩ := h
  exact ⟨rfl, by rw [oks_append, oks_info, Nat.add_zero]⟩

/-- A call sends at most one command. -/
theorem channel_log {c : Call} {r : c.Reply} (h : channel scan s c r s') :
    s'.log = s.log ∨ ∃ e, s'.log = e :: s.log := by
  by_cases hc : ∃ cmd, c = .send cmd
  · obtain ⟨cmd, rfl⟩ := hc
    cases r with
    | false => exact .inl (channel_unsent h).1
    | true =>
      obtain ⟨e, hlog, -⟩ := channel_send h
      exact .inr ⟨e, hlog⟩
  · exact .inl (channel_step (fun cmd heq => hc ⟨cmd, heq⟩) h).1

/-- A `recv` that fails leaves nothing unread. -/
theorem channel_recv_none {pattern : Format} (h : channel scan s (.recv pattern) none s') :
    oks s'.input = 0 := by
  obtain ⟨urcs, heq, -⟩ := h
  have hinput : s'.input = (receive scan pattern _).2 := congrArg Prod.snd heq
  rw [hinput, receive_none (congrArg Prod.fst heq).symm]
  rfl

/-- A `recv` of `OK` takes one. -/
theorem channel_recvOk (hscan : ScansOk scan) {vs : List Value}
    (h : channel scan s (.recv okFormat) (some vs) s') : oks s'.input + 1 = oks s.input := by
  obtain ⟨urcs, heq, -⟩ := h
  have hinput : s'.input = (receive scan okFormat _).2 := congrArg Prod.snd heq
  have hsome : (receive scan okFormat (s.input ++ urcs.map Info.item)).1.isSome :=
    (congrArg (fun r => Option.isSome r.1) heq).symm
  rw [hinput, oks_receive_ok hscan hsome, oks_append, oks_info, Nat.add_zero]

/-- The commands that were sent stay in the log. -/
def Extends (s s' : Channel) : Prop := s.log <:+ s'.log

theorem extends_log {α : Type} (p : At α) : Leads (channel scan) True Extends p := by
  refine leads_of_step (L := Extends) (fun s => List.suffix_refl s.log) ?_ (fun s c r t h => ?_) p
  · exact fun _ _ _ => List.IsSuffix.trans
  · show s.log <:+ t.log
    rcases channel_log h with hlog | ⟨e, hlog⟩
    · exact hlog ▸ List.suffix_refl s.log
    · exact hlog ▸ List.suffix_cons e s.log

/-! ## Whose `OK` is unread -/

/-- No `OK` is unread. -/
def Clean (s : Channel) : Prop := oks s.input = 0

/-- The final line of the last command is `OK`. -/
def Acked (s : Channel) : Prop := ∃ e, s.log.head? = some e ∧ e.ok = true

/-- At most one `OK` is unread, and it is the final line of the last command. -/
def Owned (s : Channel) : Prop := oks s.input = 0 ∨ oks s.input = 1 ∧ Acked s

theorem Clean.owned (h : Clean s) : Owned s := .inl h

variable {T : Prop} {α : Type} {p : At α}

/-- The calls that send no command. -/
def Call.Silent (c : Call) : Prop := ∀ cmd, c ≠ .send cmd

theorem silent_recv (pattern : Format) : (Call.recv pattern).Silent := fun _ h => by cases h

theorem silent_timeout (ms : Int) : (Call.setTimeout ms).Silent := fun _ h => by cases h

/-- No command is sent, and no `OK` comes. -/
def Reads (s s' : Channel) : Prop := s'.log = s.log ∧ oks s'.input ≤ oks s.input

theorem silent_reads (hp : Only T Call.Silent p) : Leads (channel scan) T Reads p := by
  refine hp.leads (fun s => ⟨rfl, Nat.le_refl _⟩) ?_ fun s c r s' hc h => channel_step hc h
  exact fun s t u h h' => ⟨h'.1.trans h.1, Nat.le_trans h'.2 h.2⟩

theorem Reads.clean (h : Reads s s') (hs : Clean s) : Clean s' := Nat.le_zero.mp (hs ▸ h.2)

theorem Reads.owned (h : Reads s s') (hs : Owned s) : Owned s' := by
  obtain ⟨hlog, hle⟩ := h
  rcases hs with hs | ⟨hs, hacked⟩
  · exact .inl (by omega)
  · by_cases h0 : oks s'.input = 0
    · exact .inl h0
    · exact .inr ⟨by omega, by rwa [Acked, hlog]⟩

theorem send_spec (hs : Clean s) {cmd : Format} {r : Bool} (h : channel scan s (.send cmd) r s') :
    Owned s' ∧ (r = false → Clean s') := by
  have hs : oks s.input = 0 := hs
  cases r with
  | false =>
    have hclean : Clean s' := (channel_unsent h).2.trans hs
    exact ⟨hclean.owned, fun _ => hclean⟩
  | true =>
    obtain ⟨e, hlog, -, -, hoks⟩ := channel_send h
    refine ⟨?_, nofun⟩
    by_cases hok : e.ok = true
    · exact .inr ⟨by rw [hoks, hs, if_pos hok], e, by rw [hlog]; rfl, hok⟩
    · exact .inl (by rw [hoks, hs, if_neg hok])

theorem recv_spec (hs : Owned s) {pattern : Format} {vs : Option (List Value)}
    (h : channel scan s (.recv pattern) vs s') : Owned s' ∧ (vs = none → Clean s') :=
  ⟨Reads.owned (channel_step (silent_recv _) h) hs, by rintro rfl; exact channel_recv_none h⟩

/-- An `OK` that is received is the final line of the last command. -/
theorem recvOk_spec (hscan : ScansOk scan) (hs : Owned s) :
    wp (channel scan) T (fun ok s' => Clean s' ∧ (ok = true → Acked s')) recvOk s := by
  intro vs s' h
  cases vs with
  | none => exact ⟨channel_recv_none h, nofun⟩
  | some vs =>
    have hoks := channel_recvOk hscan h
    have hlog := (channel_step (silent_recv _) h).1
    rcases hs with hs | ⟨hs, hacked⟩
    · omega
    · exact ⟨by unfold Clean; omega, fun _ => by rwa [Acked, hlog]⟩

end Bg96.Modem
