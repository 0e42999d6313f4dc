import BG96Driver.Socket.Replay

/-!
# Chunked transmission is exact

`socket_send` starts a transmission and `g_eq_event` sends it in chunks of at most `BG96_BUFF_SIZE`
bytes. The position, the rest and the size of the next chunk are updated in `tx_event`.

* `wire`: the bytes of the chunks that the modem took, in order.
* `TxLaw`: the law of a transmission that is not complete. `TxCase.law`: `tx_event` keeps it, or
  completes the transmission with exactly its size.
* `Sending`, `Sent`: the invariant of a socket from the start of a transmission on.
* `chunked_transmission`: what it gives for the acts of every reachable state.
-/

namespace Bg96

open History Interface

/-! ## The bytes on the wire -/

/-- The `n` bytes of the memory `mem` from `p` on. -/
def bytesAt (mem : Nat → UInt8) (p n : Nat) : List UInt8 := (List.range n).map fun k => mem (p + k)

theorem bytesAt_add (mem : Nat → UInt8) (p m n : Nat) :
    bytesAt mem p (m + n) = bytesAt mem p m ++ bytesAt mem (p + m) n := by
  simp [bytesAt, List.range_add, Nat.add_assoc, Function.comp_def]

/-- The bytes that a call of `BG96::send` has sent. -/
def Out.sent (mem : Nat → UInt8) : Out → List UInt8
  | .modemSend _ data amount true => bytesAt mem data amount
  | _ => []

/-- The bytes of the chunks for which `BG96::send` returned true, in order. -/
def wire (mem : Nat → UInt8) (o : List Out) : List UInt8 := o.flatMap (Out.sent mem)

/-- The count that `socket_send` returns, if it is positive. -/
def Out.positiveSend : Out → Option Int
  | .ret .socketSend n => if 0 < n then some n else none
  | _ => none

/-- The first positive count that `socket_send` returned. -/
def firstPositive (o : List Out) : Option Int := o.findSome? Out.positiveSend

/-- A completed transmission is returned. -/
def Out.isTxCollect : Out → Bool
  | .txCollect _ => true
  | _ => false

/-- What shows nothing of a transmission. -/
def TxQuiet (mem : Nat → UInt8) (o : List Out) : Prop :=
  wire mem o = [] ∧ firstPositive o = none ∧ ∀ x ∈ o, x.isTxCollect = false

variable {mem : Nat → UInt8} {o o' : List Out}

theorem wire_append : wire mem (o ++ o') = wire mem o ++ wire mem o' := List.flatMap_append

theorem firstPositive_append :
    firstPositive (o ++ o') = (firstPositive o).or (firstPositive o') := List.findSome?_append

variable (mem) in
theorem Out.quiet {x : Out} (h : x.side ≠ .send) :
    x.sent mem = [] ∧ x.positiveSend = none ∧ x.isTxCollect = false := by
  cases x with
  | modemSend | txDone | txCollect => exact absurd rfl h
  | ret f n => cases f <;> first | exact ⟨rfl, rfl, rfl⟩ | exact absurd rfl h
  | _ => exact ⟨rfl, rfl, rfl⟩

/-- What is not about the transmission shows nothing of it. -/
theorem txQuiet_of_side (h : ∀ x ∈ o, x.side ≠ .send) : TxQuiet mem o := by
  refine ⟨?_, ?_, fun x hx => (Out.quiet mem (h x hx)).2.2⟩
  · exact List.flatMap_eq_nil_iff.mpr fun x hx => (Out.quiet mem (h x hx)).1
  · exact List.findSome?_eq_none_iff.mpr fun x hx => (Out.quiet mem (h x hx)).2.1

/-! ## `tx_event` -/

variable {data size : Nat} {tx : TxEvent}

/-- The law of a transmission of the `size` bytes at `data` that has shown `o` so far and is not
complete. -/
structure TxLaw (mem : Nat → UInt8) (data size : Nat) (tx : TxEvent) (o : List Out) : Prop where
  orig : tx.mTxOrigSize = size
  lt : tx.mTxTotalSent < size
  dptr : tx.mTxDptr = data + tx.mTxTotalSent
  req : tx.mTxReqSize = min bg96BuffSize (size - tx.mTxTotalSent)
  wire : wire mem o = bytesAt mem data tx.mTxTotalSent

/-- The transmission is complete: it has sent all the bytes. -/
structure TxFull (mem : Nat → UInt8) (data size : Nat) (tx : TxEvent) (o : List Out) : Prop where
  total : tx.mTxTotalSent = size
  wire : wire mem o = bytesAt mem data size
  state : tx.mTxState = .txComplete ∨ tx.mTxState = .txDocb

theorem TxLaw.req_le (h : TxLaw mem data size tx o) :
    1 ≤ tx.mTxReqSize ∧ tx.mTxTotalSent + tx.mTxReqSize ≤ size := by
  have := h.lt
  rw [h.req, bg96BuffSize]
  omega

variable (mem data) in
theorem sendStart_law (sock : Bg96Socket) (hsize : 1 ≤ size) :
    TxLaw mem data size (sendStart sock data size) [] where
  orig := rfl
  lt := hsize
  dptr := rfl
  req := by simp only [sendStart, ite_gt_eq_min, Nat.sub_zero]; exact Nat.min_comm ..
  wire := rfl

/-- The chunk that `BG96::send` takes extends the bytes on the wire. -/
theorem TxLaw.wire_chunk (h : TxLaw mem data size tx o) (id : Int) :
    Bg96.wire mem (o ++ [.modemSend id tx.mTxDptr tx.mTxReqSize true]) =
      bytesAt mem data (tx.mTxTotalSent + tx.mTxReqSize) := by
  rw [wire_append, h.wire, bytesAt_add, h.dptr]
  simp [Bg96.wire, Out.sent]

/-- **`tx_event`.** It keeps the law and asks for another event, or it completes the transmission
when all the bytes are on the wire. -/
theorem TxCase.law {tx' : TxEvent} {done : Bool} {out : List Out} {event : Event}
    (hc : TxCase tx done tx' out event) (h : TxLaw mem data size tx o) (hsize : size < 2 ^ 32) :
    firstPositive out = none ∧ (∀ x ∈ out, x.isTxCollect = false) ∧
      (event = eventGetmore ∧ tx'.mTxState = tx.mTxState ∧ TxLaw mem data size tx' (o ++ out) ∨
        event = eventComplete ∧ TxFull mem data size tx' (o ++ out)) := by
  obtain ⟨hreq, hle⟩ := h.req_le
  have hsent : u32Add tx.mTxTotalSent tx.mTxReqSize = tx.mTxTotalSent + tx.mTxReqSize :=
    u32Add_of_lt (by omega)
  cases hc with
  | idle hdone =>
    subst hdone
    refine ⟨rfl, by simp [Out.isTxCollect], .inl ⟨rfl, rfl, h.orig, h.lt, h.dptr, h.req, ?_⟩⟩
    rw [wire_append, h.wire]
    simp [Bg96.wire, Out.sent]
  | more req hdone hlt hreq =>
    subst hdone
    rw [hsent, h.orig] at hlt
    have hsub : u32Sub tx.mTxOrigSize (u32Add tx.mTxTotalSent tx.mTxReqSize) =
        size - (tx.mTxTotalSent + tx.mTxReqSize) := by
      rw [hsent, h.orig, u32Sub_of_le hle hsize]
    refine ⟨rfl, by simp [Out.isTxCollect], .inl ⟨rfl, rfl, h.orig, ?_, ?_, ?_, ?_⟩⟩
    · exact hsent ▸ hlt
    · show tx.mTxDptr + tx.mTxReqSize = _
      rw [hsent, h.dptr, Nat.add_assoc]
    · show req = _
      rw [hreq, hsub, hsent, Nat.min_comm]
    · show Bg96.wire mem _ = bytesAt mem data (u32Add _ _)
      rw [hsent]; exact h.wire_chunk _
  | last hdone hlast =>
    subst hdone
    rw [hsent, h.orig] at hlast
    have htotal : tx.mTxTotalSent + tx.mTxReqSize = size := by omega
    refine ⟨rfl, by simp [Out.isTxCollect], .inr ⟨rfl, hsent.trans htotal, ?_, ?_⟩⟩
    · rw [← htotal, ← h.wire_chunk tx.mTxSocketID, wire_append, wire_append]
      simp [Bg96.wire, Out.sent]
    · dsimp only
      split
      · exact .inr rfl
      · exact .inl rfl

/-! ## One socket -/

def Act.isClose : Act → Bool
  | .close => true
  | _ => false

def Act.isSend : Act → Bool
  | .send .. => true
  | _ => false

variable {i : Slot} {st st' : SlotState} {a : Act}

/-- The socket `i` is between the start of the transmission and its return. -/
structure Sending (i : Slot) (mem : Nat → UInt8) (data size : Nat) (st : SlotState)
    (o : List Out) : Prop where
  id : st.sock.id = i.val
  law : (st.tx.mTxState = .txActive ∧ st.inSend = 0 ∧ TxLaw mem data size st.tx o) ∨
    TxFull mem data size st.tx o
  positive : firstPositive o = none
  collect : ∀ x ∈ o, x.isTxCollect = false

/-- As `Sending`, or the transmission has been returned. -/
def Sent (i : Slot) (mem : Nat → UInt8) (data size : Nat) (st : SlotState) (o : List Out) : Prop :=
  Sending i mem data size st o ∨
    (∃ x ∈ o, x.isTxCollect = true) ∧ (size < 2 ^ 31 → firstPositive o = some (size : Int))

/-- `socket_send` is not called by a call-back that `socket_send` made on the same socket, and the
socket is not closed. -/
def Undisturbed (i : Slot) (k : Slot) (st : SlotState) (a : Act) : Prop :=
  k = i → a.isClose = false ∧ (a.isSend = true → st.inSend = 0)

theorem Sending.quiet (h : Sending i mem data size st o) (htx : st'.tx = st.tx)
    (hin : st'.inSend = st.inSend) (hid : st'.sock.id = st.sock.id) (hq : TxQuiet mem o') :
    Sending i mem data size st' (o ++ o') := by
  obtain ⟨hw, hf, hc⟩ := hq
  have hwire : wire mem (o ++ o') = wire mem o := by rw [wire_append, hw, List.append_nil]
  refine ⟨hid.trans h.id, ?_, by rw [firstPositive_append, h.positive, hf]; rfl, fun x hx => ?_⟩
  · rw [htx, hin]
    rcases h.law with ⟨hstate, hsend, hl⟩ | hl
    · exact .inl ⟨hstate, hsend, hl.orig, hl.lt, hl.dptr, hl.req, hwire.trans hl.wire⟩
    · exact .inr ⟨hl.total, hwire.trans hl.wire, hl.state⟩
  · exact (List.mem_append.mp hx).elim (h.collect x) (hc x)

theorem firstPositive_sendLeave (hsize : 1 ≤ size) (htotal : tx.mTxTotalSent = size)
    (hlt : size < 2 ^ 31) : firstPositive (sendLeave tx).2.1 = some (size : Int) := by
  have hpos : (0 : Int) < size := by omega
  simp only [firstPositive, sendLeave, htotal, toInt_of_lt hlt, List.findSome?, Out.positiveSend,
    hpos, ↓reduceIte]

/-- The return of a complete transmission. -/
theorem Sent.leave (hsize : 1 ≤ size) (hl : TxFull mem data size tx o)
    (ho : firstPositive o = none) : Sent i mem data size st' (o ++ (sendLeave tx).2.1) := by
  refine .inr ⟨⟨.txCollect tx.mTxTotalSent, by simp [sendLeave], rfl⟩, fun hlt => ?_⟩
  rw [firstPositive_append, ho, firstPositive_sendLeave hsize hl.total hlt]
  rfl

theorem Sending.txEvent (h : Sending i mem data size st o) (hs : size < 2 ^ 32) {done : Bool}
    (hstate : st.tx.mTxState = .txActive) {tx' : TxEvent} {out : List Out} {event : Event}
    (hc : TxCase st.tx done tx' out event) (htx : st'.tx = tx') (hin : st'.inSend = st.inSend)
    (hid : st'.sock.id = st.sock.id) : Sending i mem data size st' (o ++ out) := by
  rcases h.law with ⟨-, hsend, hl⟩ | hl
  · obtain ⟨hf, hcol, hlaw⟩ := hc.law hl hs
    refine ⟨hid.trans h.id, ?_, by rw [firstPositive_append, h.positive, hf]; rfl,
      fun x hx => (List.mem_append.mp hx).elim (h.collect x) (hcol x)⟩
    rw [htx, hin]
    rcases hlaw with ⟨-, hst, hl'⟩ | ⟨-, hl'⟩
    · exact .inl ⟨hst.trans hstate, hsend, hl'⟩
    · exact .inr hl'
  · have := hl.state
    simp [hstate] at this

/-- **Step.** An act of the socket keeps the invariant. -/
theorem Sent.step (hsize : 1 ≤ size) (hs : size < 2 ^ 32) (h : Sent i mem data size st o)
    (ha : SlotState.Allowed i st a) (hu : Undisturbed i i st a) :
    Sent i mem data size (st.step i a).1 (o ++ (st.step i a).2) := by
  obtain ⟨hclose, hsend⟩ := hu rfl
  rcases h with h | ⟨⟨x, hx, hcol⟩, hfirst⟩
  · by_cases hother : .send ∉ a.sides ∧ .session ∉ a.sides ∧ a ≠ .fireTx
    · obtain ⟨hside, hsession, hfire⟩ := hother
      obtain ⟨htx, hin⟩ := SlotState.step_tx_frame i st hside hsession hfire
      exact .inl (h.quiet htx hin (SlotState.step_id hsession)
        (txQuiet_of_side ((SlotState.step_sides i st a).ne hside (by decide))))
    · cases a with
      | «open» =>
        have : st.sock.id = -1 := ha
        have := h.id
        omega
      | close => cases hclose
      | send p n done =>
        have hin : st.inSend = 0 := hsend rfl
        rcases he : sendEnter st.sock st.tx p n done with ⟨tx', out, next⟩
        simp only [SlotState.step, he]
        have hidle : st.tx.mTxState ≠ .txIdle := by
          rcases h.law with ⟨hst, -⟩ | hl
          · simp [hst]
          · rcases hl.state with hst | hst <;> simp [hst]
        cases sendEnter_cases he with
        | refuse m hm =>
          refine .inl (h.quiet rfl (by simp) rfl ⟨rfl, ?_, by simp [Out.isTxCollect]⟩)
          simp [firstPositive, Out.positiveSend, hm]
        | collect _ _ hst =>
          rcases h.law with ⟨hst', -⟩ | hl
          · rw [hst'] at hst; cases hst
          · exact .leave hsize hl h.positive
        | block _ _ _ _ hst | callBack _ _ _ _ hst | sync _ _ _ _ hst => exact absurd hst hidle
      | sendRet =>
        have hin : 0 < st.inSend := ha
        rcases h.law with ⟨-, hin', -⟩ | hl
        · omega
        · exact .leave hsize hl h.positive
      | poll res done goSlow =>
        rcases hr : pollRx st.rx res goSlow with ⟨rx, out, event, goSlow'⟩
        rcases ht : pollTx st.tx done goSlow' with ⟨tx', out', event', goSlow''⟩
        simp only [SlotState.step, hr, ht, ← List.append_assoc]
        have hrx : Sending i mem data size { st with rx := rx } (o ++ out) :=
          h.quiet rfl rfl rfl (txQuiet_of_side ((pollRx_cases hr).sides.ne (by simp) (by decide)))
        cases pollTx_cases ht with
        | poll _ _ _ hactive he => exact .inl (hrx.txEvent hs hactive he rfl rfl rfl)
        | pass => exact .inl (hrx.quiet rfl rfl rfl ⟨rfl, rfl, by simp⟩)
      | fireTx =>
        simp only [SlotState.step, Bg96.fireTx]
        split
        · rename_i hdocb
          rcases h.law with ⟨hst, -⟩ | hl
          · rw [hst] at hdocb; cases hdocb
          · have hw : TxFull mem data size { st.tx with mTxState := .txComplete } o :=
              ⟨hl.total, hl.wire, .inl rfl⟩
            have hq : Sending i mem data size
                { st with tx := { st.tx with mTxState := .txComplete } } o :=
              ⟨h.id, .inr hw, h.positive, h.collect⟩
            exact .inl (hq.quiet rfl rfl rfl ⟨rfl, rfl, by simp [Out.isTxCollect]⟩)
        · exact .inl (h.quiet rfl rfl rfl ⟨rfl, rfl, by simp⟩)
      | _ => exact absurd ⟨by simp [Act.sides], by simp [Act.sides], by simp⟩ hother
  · refine .inr ⟨⟨x, List.mem_append_left _ hx, hcol⟩, fun hlt => ?_⟩
    rw [firstPositive_append, hfirst hlt]
    rfl

/-- The start of a transmission. -/
theorem Sent.start {done : Bool} (hdata : data ≠ 0) (hsize : 1 ≤ size) (hs : size < 2 ^ 32)
    (hid : st.sock.id = i.val) (hidle : st.tx.mTxState = .txIdle) (hin : st.inSend = 0) :
    Sent i mem data size (st.step i (.send data size done)).1
      (st.step i (.send data size done)).2 := by
  rcases he : sendEnter st.sock st.tx data size done with ⟨tx', out, next⟩
  simp only [SlotState.step, he]
  have hlaw := sendStart_law mem data st.sock hsize
  cases sendEnter_cases he with
  | refuse n _ hcase =>
    rcases hcase with hargs | hstate
    · omega
    · exact absurd hidle hstate.1
  | collect _ _ hstate => rw [hidle] at hstate; cases hstate
  | block t o _ _ _ hc =>
    obtain ⟨hf, hcol, ⟨-, -, hl⟩ | ⟨hev, -⟩⟩ := hc.law hlaw hs
    · have h : Sending i mem data size
          { st with tx := { t with mTxState := .txActive } } o :=
        ⟨hid, .inl ⟨rfl, hin, hl.orig, hl.lt, hl.dptr, hl.req, hl.wire⟩, hf, hcol⟩
      exact .inl (h.quiet rfl (by simp) rfl ⟨rfl, rfl, by simp [Out.isTxCollect]⟩)
    · cases hev
  | callBack t o _ _ _ hc =>
    obtain ⟨hf, hcol, ⟨hev, -⟩ | ⟨-, hl⟩⟩ := hc.law hlaw hs
    · cases hev
    · have h : Sending i mem data size { st with
          tx := { t with mTxState := .txComplete }, inSend := st.inSend + 1 } o :=
        ⟨hid, .inr ⟨hl.total, hl.wire, .inl rfl⟩, hf, hcol⟩
      exact .inl (h.quiet rfl (by simp) rfl ⟨rfl, rfl, by simp [Out.isTxCollect]⟩)
  | sync t o _ _ _ hc =>
    obtain ⟨hf, hcol, ⟨hev, -⟩ | ⟨-, hl⟩⟩ := hc.law hlaw hs
    · cases hev
    · exact .leave hsize hl hf

instance (i k : Slot) (st : SlotState) (a : Act) : Decidable (Undisturbed i k st a) :=
  inferInstanceAs (Decidable (_ → _ ∧ (_ → _)))

/-- **Chunked transmission is exact.** Take the acts of a reachable state from a `socket_send` of
`size` bytes on, up to any point, where the socket is not closed and no call-back of `socket_send`
calls `socket_send` on it. Until a `socket_send` returns the transmission, the chunks that the modem
took are the first `m_tx_total_sent` bytes, the next chunk starts where they end and is not empty,
no subtraction wraps around, and the transmission is complete if and only if all bytes are sent. The
first positive count returned is `size`. -/
theorem chunked_transmission {raw : Slot → SlotState} {s : Interface} (hr : Reachable raw s)
    (mem : Nat → UInt8) {up later before : Trace} {done : Bool} {out : List Out}
    (ht : s.trace = up ++ (later ++ ⟨i, .send data size done, out⟩ :: before))
    (hdata : data ≠ 0) (hsize : 1 ≤ size) (hs : size < 2 ^ 32)
    (hidle : (slotAfter raw before i).tx.mTxState = .txIdle)
    (hu : Along SlotState.step (Undisturbed i) (slotAfter raw before)
      (later ++ [⟨i, .send data size done, out⟩])) :
    let tx := (slotAfter raw (later ++ ⟨i, .send data size done, out⟩ :: before) i).tx
    let o := outputs i (later ++ [⟨i, .send data size done, out⟩])
    ((∀ x ∈ o, x.isTxCollect = false) →
      wire mem o = bytesAt mem data tx.mTxTotalSent ∧
      (tx.mTxState = .txActive → tx.mTxDptr = data + tx.mTxTotalSent ∧
        tx.mTxReqSize = min bg96BuffSize (size - tx.mTxTotalSent) ∧ 1 ≤ tx.mTxReqSize ∧
        tx.mTxTotalSent + tx.mTxReqSize ≤ size) ∧
      (tx.mTxState = .txActive ∨ tx.mTxState = .txComplete ∨ tx.mTxState = .txDocb) ∧
      (tx.mTxState = .txComplete ∨ tx.mTxState = .txDocb ↔ tx.mTxTotalSent = size)) ∧
    (size < 2 ^ 31 → ∀ n, firstPositive o = some n → n = size) := by
  intro tx o
  obtain ⟨-, -, hh, hal⟩ := hr.good
  rw [ht, ← List.singleton_append, ← List.append_assoc later] at hh hal
  obtain ⟨hh, -⟩ := honest_append.mp (honest_append.mp hh).2
  obtain ⟨hal, -⟩ := along_append.mp (along_append.mp hal).2
  obtain ⟨hhl, hhs, -⟩ := honest_append.mp hh
  obtain ⟨hall, hals, -⟩ := along_append.mp hal
  obtain ⟨hul, hus, -⟩ := along_append.mp hu
  simp only [after_nil] at hhs hals hus
  have hstart : Sent i mem data size _ out :=
    hhs ▸ Sent.start hdata hsize hs hals hidle ((hus rfl).2 rfl)
  have hsent : Sent i mem data size
      (slotAfter raw (later ++ ⟨i, .send data size done, out⟩ :: before) i) o := by
    have hI := outputs_invariant (k := i) (I := fun st o' => Sent i mem data size st (out ++ o'))
      (P := fun k st a => SlotState.Allowed k st a ∧ Undisturbed i k st a)
      (by rw [after_cons_self rfl, List.append_nil]; exact hstart)
      (fun st a o' hI ha => by rw [← List.append_assoc]; exact hI.step hsize hs ha.1 ha.2)
      hhl (hall.and hul)
    have ho : o = out ++ outputs i later := by
      simp only [o, outputs_append, outputs, ↓reduceIte, List.nil_append]
    rw [ho, slotAfter, after_append]
    exact hI
  rcases hsent with h | ⟨⟨x, hx, hcol⟩, hfirst⟩
  · refine ⟨fun _ => ?_, fun _ n hn => by rw [h.positive] at hn; cases hn⟩
    rcases h.law with ⟨hst, -, hl⟩ | hl
    · have hlt : tx.mTxTotalSent < size := hl.lt
      have hst : tx.mTxState = .txActive := hst
      obtain ⟨hreq, hle⟩ := hl.req_le
      refine ⟨hl.wire, fun _ => ⟨hl.dptr, hl.req, hreq, hle⟩, .inl hst, ?_, fun h => by omega⟩
      rw [hst]; rintro (h | h) <;> cases h
    · have hst : tx.mTxState = .txComplete ∨ tx.mTxState = .txDocb := hl.state
      have htotal : tx.mTxTotalSent = size := hl.total
      refine ⟨by rw [htotal]; exact hl.wire, fun h => ?_, .inr hst, fun _ => htotal, fun _ => hst⟩
      rw [h] at hst
      rcases hst with h | h <;> cases h
  · refine ⟨fun hno => absurd (hno x hx) (by simp [hcol]), fun hlt n hn => ?_⟩
    rw [hfirst hlt] at hn
    exact (Option.some.inj hn).symm

/-- A firing in which the modem has no bytes and takes every chunk. -/
def idleTick : TickEnv where
  rx _ := ⟨0, []⟩
  tx _ := true
  onRx _ := .done
  onTx _ := .done

/-- The steps of a transmission in two chunks: the first is sent by `socket_send`. -/
def twoChunks : List Label :=
  [.call (.open .nsapiTcp) .done .done, .call (.send 0 100 2000 true) .done .done, .tick idleTick]

theorem chunked_transmission_twoChunks :
    wire Nat.toUInt8 (outputs 0 ((afterSteps twoChunks).trace.take 16)) =
      bytesAt Nat.toUInt8 100 2000 := by
  have h := chunked_transmission (i := 0) (afterSteps_reachable (by decide)) Nat.toUInt8
    (show (afterSteps twoChunks).trace = [] ++ ((afterSteps twoChunks).trace.take 15 ++
      ⟨0, .send 100 2000 true, [.modemSend 0 100 1500 true, .ret .socketSend (-3001)]⟩ ::
        (afterSteps twoChunks).trace.drop 16) from rfl)
    (by decide) (by decide) (by decide) (by decide) (by decide)
  exact (h.1 (by decide)).1

end Bg96
