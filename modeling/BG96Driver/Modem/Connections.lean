import BG96Driver.Modem.Exclusion
import BG96Driver.Modem.Sockets

/-!
# The operations on sockets

What the parts of the socket operations that hold the mutex do with the module, in terms of its
connections. After an empty read the `OK` of the command is unread; the next `close` may take it for
its own, and report a success when it was refused.

* `SocketOp`: the parts. `SocketOp.Acts`: what one does to the connections, by its result.
* `sockets`: connections on which each part acts.
* `ModuleHolds`, `SocketsAgree`: what is unread, and the connections of the module are those.
* `meets_openLink`, `meets_close`, `meets_send`, `meets_chkRxAvail`, `meets_recvData`: each part
  does with the module what it does in `sockets`. `meets_socketOp`: so does any.
-/

namespace Bg96.Modem

open Program Scanf Streams

/-! ## The ideal connections -/

/-- A part of a socket operation that holds the mutex. -/
inductive SocketOp where
  | openLink (type : Char) (id : Int) (addr : String) (port : Int)
  | close (id : Int)
  | send (id : Int) (data : List UInt8)
  | chkRxAvail (id : Int)
  | recvData (id : Int) (cnt : Nat)
  /-- `recvData` in the loop of `open`, which throws the bytes away. -/
  | drainData (id : Int)

namespace SocketOp

@[reducible] def Reply : SocketOp → Type
  | openLink .. | close _ | send .. | chkRxAvail _ => Bool
  | recvData .. | drainData _ => Int × List UInt8

def prog (self : BG96) : (op : SocketOp) → At op.Reply
  | openLink type id addr port => Modem.openLink self type id addr port
  | close id => Modem.close id
  | send id data => Modem.send id data
  | chkRxAvail id => Modem.chkRxAvail id
  | recvData id cnt => Modem.recvData id cnt
  | drainData id => Modem.recvData id 20

/-- The socket that an operation is about. -/
def socket : SocketOp → Int
  | openLink _ id _ _ | close id | send id _ | chkRxAvail id | recvData id _ | drainData id => id

/-- The number of bytes that are asked for is an `int`, and at least one. -/
def Sized : SocketOp → Prop
  | recvData _ cnt => 0 < cnt ∧ cnt < 2 ^ 31
  | _ => True

/-- What a part that receives does to the connections, by its result. -/
def Receives (id : Int) (cnt : Nat) (s : Conns Int UInt8) (r : Int × List UInt8)
    (s' : Conns Int UInt8) : Prop :=
  r = (nsapiErrorDeviceError, []) ∧ s' = s ∨
    ∃ c, s id = some c ∧ r.1 = r.2.length ∧ r.2.length ≤ cnt ∧ r.2 <+: c.waiting ∧
      (r.2 = [] → c.waiting = []) ∧ s' = Function.update s id (some (c.give r.2.length))

/-- What an operation does to the connections, by its result. A `close` that finds the `OK` of
another command may have done nothing. -/
def Acts (okLeft : Bool) (s : Conns Int UInt8) :
    (op : SocketOp) → op.Reply → Conns Int UInt8 → Prop
  | openLink _ id _ _, r, s' =>
    if r then s id = none ∧ s' = Function.update s id (some .fresh) else s' = s
  | close id, r, s' =>
    if r then s' = Function.update s id none ∨ okLeft = true ∧ s' = s else s' = s
  | send id data, r, s' =>
    if r then ∃ c, s id = some c ∧ s' = Function.update s id (some (c.accept data)) else s' = s
  | chkRxAvail _, _, s' => s' = s
  | recvData id cnt, r, s' => Receives id cnt s r s'
  | drainData id, r, s' => Receives id 20 s r s'

/-- An `OK` may be unread after an operation. -/
def leavesOk (okLeft : Bool) : (op : SocketOp) → op.Reply → Bool
  | openLink .., _ | send .., _ => false
  | close _, _ | chkRxAvail _, _ => okLeft
  | recvData .., r | drainData _, r => r.1 = 0

end SocketOp

/-- The open connections, and whether an `OK` may be unread. -/
structure Sockets where
  conns : Conns Int UInt8
  okLeft : Bool

/-- Connections on which each part of an operation does what its result tells. -/
def sockets : Env Sockets SocketOp SocketOp.Reply := fun s op r s' =>
  ∃ c, Comes s.conns c ∧ op.Acts s.okLeft c r s'.conns ∧ s'.okLeft = op.leavesOk s.okLeft r

/-! ## The module between two calls -/

variable {α : Type} {T : Prop} {m m' : Module} {c : Conns Int UInt8} {s : Sockets}
  {u x : List UInt8} {w : Option (Int × Nat)} {ok : Bool} {Q : α → Module → Prop}

/-- The connections of the module are these, with the bytes that have come. This is unread, and then
lines of the module's own. -/
structure ModuleHolds (c : Conns Int UInt8) (x : List UInt8) (w : Option (Int × Nat)) (m : Module) :
    Prop where
  unread : ∃ v, Quiet false v ∧ m.unread = x ++ v
  conns : Comes c m.conns
  sending : m.sending = w

/-- The module between two operations. -/
def SocketsAgree (m : Module) (s : Sockets) : Prop :=
  ∃ u, Quiet s.okLeft u ∧ ModuleHolds s.conns u none m

/-- A result and a state that `sockets` allows. -/
def SocketMeets (s : Sockets) (op : SocketOp) (r : op.Reply) (m : Module) : Prop :=
  ∃ s', sockets s op r s' ∧ SocketsAgree m s'

namespace ModuleHolds

theorem unasked (hm : ModuleHolds c x w m) (hu : m.Unasked m') : ModuleHolds c x w m' := by
  obtain ⟨v, hv, hunread⟩ := hm.unread
  obtain ⟨urc, conns, hurc, hconns, rfl⟩ := hu
  refine ⟨⟨v ++ urc, hv.append hurc, ?_⟩, hm.conns.trans hconns, hm.sending⟩
  rw [hunread, List.append_assoc]

theorem of_eq (hunread : m.unread = x) (hconns : Comes c m.conns) (hsending : m.sending = w) :
    ModuleHolds c x w m :=
  ⟨⟨[], .nil, hunread.trans (List.append_nil x).symm⟩, hconns, hsending⟩

end ModuleHolds

theorem SocketsAgree.unasked (hm : SocketsAgree m s) (hu : m.Unasked m') : SocketsAgree m' s := by
  obtain ⟨u, hquiet, hm⟩ := hm
  exact ⟨u, hquiet, hm.unasked hu⟩

theorem SocketMeets.unasked {op : SocketOp} {r : op.Reply} (h : SocketMeets s op r m)
    (hu : m.Unasked m') : SocketMeets s op r m' := by
  obtain ⟨s', hs', hm⟩ := h
  exact ⟨s', hs', hm.unasked hu⟩

/-! ### Calls -/

/-- A body between two calls that change nothing. -/
theorem wp_network_locked {p : At α} (hQ : ∀ a m m', Q a m → m.Unasked m' → Q a m')
    (hm : ModuleHolds c x w m) (h : ∀ m, ModuleHolds c x w m → wp network T Q p m) :
    wp network T Q (locked p) m := by
  rintro _ _ ⟨m₁, hu, rfl⟩
  show wp network T Q (p >>= _) _
  rw [wp_bind]
  refine wp_mono (h _ (hm.unasked hu)) fun a m₂ hQa => ?_
  rintro _ _ ⟨m₃, hu', rfl⟩
  exact hQ a _ _ hQa hu'

theorem wp_network_timed {p : At α} {ms : Int} (hQ : ∀ a m m', Q a m → m.Unasked m' → Q a m')
    (hm : ModuleHolds c x w m) (h : ∀ m, ModuleHolds c x w m → wp network T Q p m) :
    wp network T Q (timed ms p) m := by
  rintro _ _ ⟨m₁, hu, rfl⟩
  show wp network T Q (p >>= _) _
  rw [wp_bind]
  refine wp_mono (h _ (hm.unasked hu)) fun a m₂ hQa => ?_
  rintro _ _ ⟨m₃, hu', rfl⟩
  exact hQ a _ _ hQa hu'

/-- A command is refused, or the module responds to it. -/
theorem wp_network_send {cmd : Format} {k : Bool → At α} (hu : Quiet ok u)
    (hm : ModuleHolds c u w m)
    (herror : ∀ u m, Quiet ok u → ModuleHolds c (u ++ errorLine) w m → wp network T Q (k true) m)
    (hresponse : ∀ m m' : Module, Quiet ok m.unread → Comes c m.conns → m.sending = w →
      m.Responds cmd m' → wp network T Q (k true) m') :
    wp network T Q (.call (.send cmd) k) m := by
  rintro r m' ⟨m₁, hun, rfl, hm'⟩
  have hm₁ := hm.unasked hun
  obtain ⟨v, hv, hunread⟩ := hm₁.unread
  have hquiet : Quiet ok m₁.unread := by
    rw [hunread]
    exact hu.append hv.mono
  rcases hm' with rfl | hresp
  · exact herror _ _ hquiet (.of_eq rfl hm₁.conns hm₁.sending)
  · exact hresponse m₁ m' hquiet hm₁.conns hm₁.sending hresp

theorem wp_network_recv {pattern : Format} {k : Option (List Value) → At α}
    (hm : ModuleHolds c x w m)
    (h : ∀ v m, Quiet false v → ModuleHolds c (takenText pattern.pattern (x ++ v)).2 w m →
      wp network T Q (k (takenText pattern.pattern (x ++ v)).1) m) :
    wp network T Q (.call (.recv pattern) k) m := by
  rintro _ _ ⟨m₁, hun, rfl, rfl⟩
  have hm₁ := hm.unasked hun
  obtain ⟨v, hv, hunread⟩ := hm₁.unread
  rw [hunread]
  exact h v _ hv (.of_eq rfl hm₁.conns hm₁.sending)

theorem wp_network_getc {b : UInt8} {k : Option UInt8 → At α} (hm : ModuleHolds c (b :: x) w m)
    (h : ∀ m, ModuleHolds c x w m → wp network T Q (k (some b)) m) :
    wp network T Q (.call .getc k) m := by
  rintro _ _ ⟨m₁, hun, rfl, rfl⟩
  have hm₁ := hm.unasked hun
  obtain ⟨v, hv, hunread⟩ := hm₁.unread
  rw [hunread]
  exact h _ ⟨⟨v, hv, rfl⟩, hm₁.conns, hm₁.sending⟩

theorem wp_network_read {bs : List UInt8} {k : Int × List UInt8 → At α}
    (hm : ModuleHolds c (bs ++ x) w m)
    (h : ∀ m, ModuleHolds c x w m → wp network T Q (k (bs.length, bs)) m) :
    wp network T Q (.call (.read bs.length) k) m := by
  rintro _ _ ⟨m₁, hun, rfl, rfl⟩
  have hm₁ := hm.unasked hun
  obtain ⟨v, hv, hunread⟩ := hm₁.unread
  rw [hunread, List.append_assoc, rawRead_append, Int.toNat_natCast, List.drop_left]
  exact h _ ⟨⟨v, hv, rfl⟩, hm₁.conns, hm₁.sending⟩

/-- All the bytes are written: they are taken, or they are not. -/
theorem wp_network_write {id : Int} {data : List UInt8} {k : Int → At α}
    (hm : ModuleHolds c x (some (id, data.length)) m)
    (hfail : ∀ v m, Quiet false v →
      ModuleHolds c (x ++ v ++ answerLine (bytes "SEND FAIL")) none m →
        wp network T Q (k data.length) m)
    (hok : ∀ v m c' conn, Quiet false v → Comes c c' → c' id = some conn →
      ModuleHolds (Function.update c' id (some (conn.accept data)))
        (x ++ v ++ answerLine (bytes "SEND OK")) none m → wp network T Q (k data.length) m) :
    wp network T Q (.call (.write data) k) m := by
  rintro _ m' ⟨m₁, hun, rfl, htakes⟩
  have hm₁ := hm.unasked hun
  obtain ⟨v, hv, hunread⟩ := hm₁.unread
  rw [Module.Takes, hm₁.sending] at htakes
  simp only [if_true] at htakes
  rcases htakes with ⟨conn, hconn, rfl⟩ | rfl
  · refine hok v _ m₁.conns conn hv hm₁.conns hconn ?_
    refine .of_eq ?_ (.refl _) rfl
    simp [Module.tell, Module.setConn, hunread]
  · refine hfail v _ hv (.of_eq ?_ hm₁.conns rfl)
    simp [Module.tell, hunread]

/-- A pattern with a letter that is not unread. -/
theorem wp_network_recvNone {pattern : Format} {k : Option (List Value) → At α} {b : UInt8}
    (hlit : .lit b ∈ parse none pattern.pattern) (hb : b = 62 ∨ b = 68 ∨ b = 80 ∨ b = 83)
    (hx : b ∉ x) (hm : ModuleHolds c x w m)
    (h : ∀ m, ModuleHolds c [] w m → wp network T Q (k none) m) :
    wp network T Q (.call (.recv pattern) k) m := by
  refine wp_network_recv hm fun v m hv hm => ?_
  have hmem : b ∉ x ++ v := fun h => (List.mem_append.mp h).elim hx (hv.not_mem hb)
  rw [takenText_none hlit hmem] at hm ⊢
  exact h m hm

/-- A pattern that takes the beginning of what is unread. -/
theorem wp_network_recvSome {pattern : Format} {k : Option (List Value) → At α}
    (vs : Option (List Value)) (y : List UInt8)
    (htaken : ∀ v, takenText pattern.pattern (x ++ v) = (vs, y ++ v)) (hm : ModuleHolds c x w m)
    (h : ∀ m, ModuleHolds c y w m → wp network T Q (k vs) m) :
    wp network T Q (.call (.recv pattern) k) m := by
  refine wp_network_recv hm fun v m hv hm => ?_
  rw [htaken v] at hm ⊢
  obtain ⟨v', hv', hunread⟩ := hm.unread
  rw [List.append_assoc] at hunread
  exact h m ⟨⟨v ++ v', hv.append hv', hunread⟩, hm.conns, hm.sending⟩

theorem pattern_bytes (t : String) : Format.pattern ⟨t, []⟩ = bytes t := if_pos rfl

section RecvOk

variable {Q : Bool → Module → Prop}

/-- An `OK` is received. -/
theorem wp_network_recvOk (hu : Quiet ok u) (hm : ModuleHolds c (u ++ (okLine ++ x)) w m)
    (h : ∀ y v m, Quiet ok y → Quiet false v → ModuleHolds c (y ++ (x ++ v)) w m → Q true m) :
    wp network T Q recvOk m := by
  refine wp_network_recv hm fun v m hv hm => ?_
  rw [okFormat, pattern_bytes, List.append_assoc, List.append_assoc] at hm ⊢
  obtain ⟨y, hy, hsome, hrest⟩ := takenText_ok hu (x ++ v)
  rw [hrest] at hm
  show Q (takenText (bytes "OK") (u ++ (okLine ++ (x ++ v)))).1.isSome m
  rw [hsome]
  exact h y v m hy hv hm

/-- An `ERROR` comes for it; an earlier `OK` may be received. -/
theorem wp_network_recvError (hu : Quiet ok u) (hm : ModuleHolds c (u ++ errorLine) w m)
    (hfalse : ∀ m, ModuleHolds c [] w m → Q false m)
    (htrue : ok = true → ∀ y m, Quiet ok y → ModuleHolds c y w m → Q true m) :
    wp network T Q recvOk m := by
  refine wp_network_recv hm fun v m hv hm => ?_
  rw [okFormat, pattern_bytes, List.append_assoc] at hm ⊢
  have htaken := takenText_ok_error hu hv
  generalize hr : takenText (bytes "OK") (u ++ (errorLine ++ v)) = r at hm htaken
  show Q r.1.isSome m
  cases hsome : r.1 with
  | none =>
    have hnil : r.2 = [] := by
      rw [← hr] at hsome ⊢
      exact takenText_exhausted hsome
    rw [hnil] at hm
    exact hfalse m hm
  | some vs =>
    rcases htaken with rfl | ⟨hok, hy⟩
    · cases hsome
    · exact htrue hok _ m hy hm

end RecvOk

/-! ## The parts of the operations -/

theorem meets_close {id : Int} (hm : SocketsAgree m s) :
    wp network T (SocketMeets s (.close id)) (close id) m := by
  obtain ⟨u, hu, hm⟩ := hm
  refine wp_network_locked (fun _ _ _ => SocketMeets.unasked) hm fun m hm => ?_
  refine wp_network_timed (fun _ _ _ => SocketMeets.unasked) hm fun m hm => ?_
  refine wp_network_send hu hm (fun u m hu hm => ?_) fun m₁ m' hu hs hsending hresp => ?_
  · refine wp_network_recvError hu hm (fun m hm => ?_) fun hok y m hy hm => ?_
    · exact ⟨s, ⟨s.conns, .refl _, rfl, rfl⟩, [], .nil, hm⟩
    · exact ⟨s, ⟨s.conns, .refl _, .inr ⟨hok, rfl⟩, rfl⟩, y, hy, hm⟩
  · obtain rfl : m' = (m₁.setConn id none).tell okLine := hresp
    have hm' : ModuleHolds (Function.update m₁.conns id none) (m₁.unread ++ (okLine ++ [])) none
        ((m₁.setConn id none).tell okLine) := .of_eq (by simp [Module.tell, Module.setConn])
      (.refl _) hsending
    refine wp_network_recvOk hu hm' fun y v m hy hv hm => ?_
    exact ⟨⟨_, s.okLeft⟩, ⟨m₁.conns, hs, .inl rfl, rfl⟩, _, hy.append hv.mono, hm⟩

theorem meets_chkRxAvail {id : Int} (hm : SocketsAgree m s) :
    wp network T (SocketMeets s (.chkRxAvail id)) (chkRxAvail id) m := by
  obtain ⟨u, hu, hm⟩ := hm
  refine wp_network_locked (fun _ _ _ => SocketMeets.unasked) hm fun m hm => ?_
  refine wp_network_timed (fun _ _ _ => SocketMeets.unasked) hm fun m hm => ?_
  refine wp_network_recv hm fun v m hv hm => ?_
  exact ⟨s, ⟨s.conns, .refl _, rfl, rfl⟩, _,
    (hu.append hv.mono).suffix (takenText_qiurc id (u ++ v)), hm⟩

theorem meets_openLink {self : BG96} {type : Char} {id : Int} {addr : String} {port : Int}
    (hm : SocketsAgree m s) :
    wp network T (SocketMeets s (.openLink type id addr port)) (openLink self type id addr port)
      m := by
  obtain ⟨u, hu, hm⟩ := hm
  refine wp_network_locked (fun _ _ _ => SocketMeets.unasked) hm fun m hm => ?_
  refine wp_network_timed (fun _ _ _ => SocketMeets.unasked) hm fun m hm => ?_
  have hclosed {c : Conns Int UInt8} {m : Module} {y : List UInt8} (hc : Comes s.conns c)
      (hy : Quiet false y) (hm : ModuleHolds c y none m) :
      SocketMeets s (.openLink type id addr port) false m :=
    ⟨⟨c, false⟩, ⟨c, hc, rfl, rfl⟩, y, hy, hm⟩
  -- the answer to the command, and then its outcome
  have hopening {c₁ c₂ : Conns Int UInt8} {u : List UInt8} {m : Module}
      {k : Option (List Value) → At Bool} (hk : ∀ vs, k (some vs) = .ret (intAt vs 0 = 0))
      (err : Nat) (hu : Quiet s.okLeft u)
      (hm : ModuleHolds c₂ (u ++ (okLine ++ Module.opening id err)) none m)
      (hc : Comes s.conns c₁) (hacts : SocketOp.Acts s.okLeft c₁ (.openLink type id addr port)
        (decide ((firstDigit err : Int) = 0)) c₂) :
      wp network T (SocketMeets s (.openLink type id addr port)) (recvOk >>= fun ok =>
        if ok then Parser.recv ⟨"+QIOPEN: %d,%%d", [.int id]⟩ >>= k else pure false) m := by
    rw [wp_bind]
    refine wp_network_recvOk hu hm fun y v m hy hv hm => wp_network_recv hm fun v' m hv' hm => ?_
    obtain ⟨z, hz, htaken⟩ := takenText_qiopen hy id err (v ++ v')
    rw [pattern_qiopen, List.append_assoc, List.append_assoc, htaken] at hm ⊢
    show wp _ _ _ (k _) _
    rw [hk]
    exact ⟨⟨c₂, false⟩, ⟨c₁, hc, hacts, rfl⟩, _, hz.append (hv.append hv'), hm⟩
  refine wp_network_send hu hm (fun u m hu hm => ?_) fun m₁ m' hu hs hsending hresp => ?_
  · show wp _ _ _ (recvOk >>= _) _
    rw [wp_bind]
    refine wp_network_recvError hu hm (fun m hm => hclosed (.refl _) .nil hm) fun _ y m hy hm => ?_
    -- no `+QIOPEN` comes
    refine wp_network_recvNone (b := 80) ?_ (by decide) (hy.not_mem (by decide)) hm fun m hm => ?_
    · rw [pattern_qiopen]
      exact qiopen_mem_parse id
    · exact hclosed (.refl _) .nil hm
  · rcases hresp with ⟨hfree, rfl⟩ | ⟨err, herr, rfl⟩
    · exact hopening (fun _ => rfl) 0 hu (.of_eq rfl (.refl _) hsending) hs ⟨hfree, rfl⟩
    · have hne : ¬ (firstDigit err : Int) = 0 := by exact_mod_cast firstDigit_ne_zero herr
      refine hopening (fun _ => rfl) err hu (.of_eq rfl (.refl _) hsending) hs ?_
      rw [decide_eq_false hne]
      rfl

theorem meets_send {id : Int} {data : List UInt8} (hm : SocketsAgree m s) :
    wp network T (SocketMeets s (.send id data)) (send id data) m := by
  obtain ⟨u, hu, hm⟩ := hm
  refine wp_network_locked (fun _ _ _ => SocketMeets.unasked) hm fun m hm => ?_
  refine wp_network_timed (fun _ _ _ => SocketMeets.unasked) hm fun m hm => ?_
  have hunsent {c : Conns Int UInt8} {m : Module} (hc : Comes s.conns c)
      (hm : ModuleHolds c [] none m) : SocketMeets s (.send id data) false m :=
    ⟨⟨c, false⟩, ⟨c, hc, rfl, rfl⟩, [], .nil, hm⟩
  have hpattern : Format.pattern ⟨"SEND OK", []⟩ = bytes "SEND OK" := pattern_bytes _
  refine wp_network_send hu hm (fun u m hu hm => ?_) fun m₁ m' hu hs hsending hresp => ?_
  · -- no prompt comes, and no `SEND OK`
    have h62 : 62 ∉ u ++ errorLine := by
      rw [List.mem_append, not_or]
      exact ⟨hu.not_mem (by decide), by decide⟩
    refine wp_network_recvNone (by rw [pattern_bytes]; decide) (.inl rfl) h62 hm fun m hm => ?_
    refine wp_network_recvNone (b := 83) (by rw [pattern_bytes]; decide) (by decide)
      List.not_mem_nil hm fun m hm => ?_
    exact hunsent (.refl _) hm
  · obtain ⟨hpos, -, rfl⟩ := hresp
    have hm' : ModuleHolds m₁.conns (m₁.unread ++ (crlf ++ bytes "> ")) (some (id, data.length))
        (Module.tell { m₁ with sending := some (id, (data.length : Int).toNat) }
          (crlf ++ bytes "> ")) := .of_eq rfl (.refl _) rfl
    refine wp_network_recvSome (some []) [32] (fun v => ?_) hm' fun m hm => ?_
    · rw [pattern_bytes]
      exact takenText_prompt hu v
    have hwritten : decide ((data.length : Int) ≤ 0) = false := decide_eq_false (by omega)
    refine wp_network_write hm (fun v' m hv' hm => ?_) fun v' m c' conn hv' hc hconn hm => ?_
    · show wp _ _ _ (if !decide ((data.length : Int) ≤ 0) then _ else _) _
      rw [hwritten]
      refine wp_network_recv hm fun v m hv hm => ?_
      rw [hpattern, List.append_assoc, List.singleton_append,
        takenText_sendFail hv' (hv.not_mem (by decide))] at hm ⊢
      exact hunsent hs hm
    · show wp _ _ _ (if !decide ((data.length : Int) ≤ 0) then _ else _) _
      rw [hwritten]
      refine wp_network_recvSome (some []) crlf (fun v => ?_) hm fun m hm => ?_
      · rw [hpattern, List.append_assoc, List.singleton_append]
        exact takenText_sendOk hv' v
      exact ⟨⟨_, false⟩, ⟨c', hs.trans hc, ⟨conn, hconn, rfl⟩, rfl⟩, crlf, .crlf, hm⟩

theorem meets_recvData {id : Int} {cnt : Nat} (hcnt : 0 < cnt ∧ cnt < 2 ^ 31)
    (hm : SocketsAgree m s) :
    wp network T (SocketMeets s (.recvData id cnt)) (recvData id cnt) m := by
  obtain ⟨u, hu, hm⟩ := hm
  refine wp_network_locked (fun _ _ _ => SocketMeets.unasked) hm fun m hm => ?_
  have hpattern : Format.pattern ⟨"+QIRD:%d\r\n", []⟩ = bytes "+QIRD:%d\r\n" := pattern_bytes _
  refine wp_network_send hu hm (fun u m hu hm => ?_) fun m₁ m' hu hs hsending hresp => ?_
  · have h68 : 68 ∉ u ++ errorLine := by
      rw [List.mem_append, not_or]
      exact ⟨hu.not_mem (by decide), by decide⟩
    refine wp_network_recvNone (by rw [hpattern]; decide) (.inr (.inl rfl)) h68 hm
      fun m hm => ?_
    exact ⟨⟨s.conns, false⟩, ⟨s.conns, .refl _, .inl ⟨rfl, rfl⟩, rfl⟩, [], .nil, hm⟩
  · obtain ⟨conn, bs, hconn, hbs, hlen, hnil, rfl⟩ := hresp
    have hlen : bs.length ≤ cnt := by
      rw [toInt, if_pos hcnt.2] at hlen
      omega
    have hacts (r : Int × List UInt8) (hr : r = ((bs.length : Int), bs)) :
        SocketOp.Acts s.okLeft m₁.conns (.recvData id cnt) r
          (Function.update m₁.conns id (some (conn.give bs.length))) := by
      subst hr
      exact .inr ⟨conn, hconn, rfl, hlen, hbs, hnil, rfl⟩
    refine wp_network_recvSome (some [.int bs.length]) (lf :: (bs ++ okLine))
      (fun v => ?_) (.of_eq rfl (.refl _) hsending) fun m hm => ?_
    · rw [hpattern]
      exact takenText_header hu bs v
    show wp _ _ _ (if 0 < (bs.length : Int) then _ else _) _
    by_cases hpos : 0 < (bs.length : Int)
    · rw [if_pos hpos]
      refine wp_network_getc hm fun m hm => wp_network_read hm fun m hm => ?_
      show wp _ _ _ (recvOk >>= _) _
      rw [wp_bind]
      have hok : ModuleHolds (Function.update m₁.conns id (some (conn.give bs.length)))
          ([] ++ (okLine ++ [])) none m := by
        rw [List.nil_append, List.append_nil]
        exact hm
      have hnil : Quiet false [] := .nil
      refine wp_network_recvOk hnil hok fun y v m hy hv hm => ?_
      refine ⟨⟨_, false⟩, ⟨m₁.conns, hs, hacts _ rfl, ?_⟩, _, hy.append hv, hm⟩
      show false = decide ((bs.length : Int) = 0)
      exact (decide_eq_false (by omega)).symm
    · -- the `OK` after no bytes is not received
      obtain rfl : bs = [] := List.length_eq_zero_iff.mp (by omega)
      have hquiet : Quiet true (lf :: okLine) :=
        Quiet.append (u := [lf])
          ⟨.inr rfl, List.forall_mem_singleton.mpr (by decide), fun h => absurd h (by decide)⟩ .okLine
      rw [if_neg hpos]
      exact ⟨⟨_, true⟩, ⟨m₁.conns, hs, hacts _ rfl, rfl⟩, _, hquiet, hm⟩

/-- **Refinement.** Each part of an operation does with the module what it does in `sockets`. -/
theorem meets_socketOp (self : BG96) {op : SocketOp} (hop : op.Sized) (hm : SocketsAgree m s) :
    wp network T (SocketMeets s op) (op.prog self) m := by
  cases op with
  | openLink type id addr port => exact meets_openLink hm
  | close id => exact meets_close hm
  | send id data => exact meets_send hm
  | chkRxAvail id => exact meets_chkRxAvail hm
  | recvData id cnt => exact meets_recvData hop hm
  | drainData id =>
    have hdata : wp network T (SocketMeets s (.recvData id 20)) (recvData id 20) m :=
      meets_recvData ⟨by decide, by decide⟩ hm
    exact hdata

end Bg96.Modem
